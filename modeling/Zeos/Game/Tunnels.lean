import Zeos.Game.Data

/-! # Dig Dug: digging a tunnel

`data_dig_tunnel` walks from `(x1, y1)` to `(x2, y2)`, horizontally first, digging every cell of
the map it visits, and leaves its `while (1)` loop at the end point. The cells it visits from
`(x, y)` are the L-shaped path from `(x, y)` along row `y` to column `x2` and then down or up
column `x2` to `(x2, y2)`. Each round digs the first cell of that path and leaves the loop on the
rest of it, so the loop is carried by the statement "the map ends up as the path from the loop's
cell dug into the map of the loop's start", by induction on the loop with the length of the path
below the fuel. -/

namespace Zeos.Game

/-- The cells of the L-shaped path from `(x1, y1)` along row `y1` to `(x2, y1)`, then along
column `x2` to `(x2, y2)`, both ends included. -/
def OnTunnel (x1 y1 x2 y2 x y : Int) : Prop :=
  (y = y1 ∧ min x1 x2 ≤ x ∧ x ≤ max x1 x2) ∨ (x = x2 ∧ min y1 y2 ≤ y ∧ y ≤ max y1 y2)

instance (x1 y1 x2 y2 x y : Int) : Decidable (OnTunnel x1 y1 x2 y2 x y) :=
  inferInstanceAs (Decidable (_ ∨ _))

/-- The tile at `(x, y)` once the path from `(x1, y1)` to `(x2, y2)` is dug into `m`: a dirt
cell of the path on the map is empty, every other cell is as it was. -/
def tunnelTile (m : GameMap) (x1 y1 x2 y2 x y : Int) : TileType :=
  if OnTunnel x1 y1 x2 y2 x y ∧ mapIsValidPosition x y = true ∧ mapGetTile m x y = .TILE_DIRT then
    .TILE_EMPTY
  else mapGetTile m x y

/-- `d` steps `a` towards `b` without passing it, or `a` is at `b`: what `dx` and `dy` of
`data_dig_tunnel` keep for the loop's cell. -/
def Towards (d a b : Int) : Prop := (d = 1 ∧ a ≤ b) ∨ (d = -1 ∧ b ≤ a) ∨ (d = 0 ∧ a = b)

theorem towards_start (a b : Int) : Towards (if b > a then 1 else if b < a then -1 else 0) a b := by
  unfold Towards
  split_ifs <;> omega

section Loop

variable {x2 y2 dx dy : Int}

/-- The round at `(x, y)` digs `(x, y)` only. -/
theorem digRound_tile (m : GameMap) (x y px py : Int) :
    mapGetTile (if mapIsValidPosition x y = true then mapDig m x y else m) px py =
      if px = x ∧ py = y ∧ mapIsValidPosition x y = true ∧ mapGetTile m x y = .TILE_DIRT then
        .TILE_EMPTY
      else mapGetTile m px py := by
  split_ifs with hv h₁ h₂
  · rw [mapGetTile_mapDig, if_pos ⟨h₁.1, h₁.2.1, h₁.2.2.2⟩]
  · rw [mapGetTile_mapDig, if_neg]
    exact fun h => h₁ ⟨h.1, h.2.1, hv, h.2.2⟩
  · exact absurd h₂.2.2.1 hv
  · rfl

/-- The path from a cell to itself is that cell. -/
theorem tunnelTile_end (m : GameMap) (x y px py : Int) :
    tunnelTile m x y x y px py =
      mapGetTile (if mapIsValidPosition x y = true then mapDig m x y else m) px py := by
  unfold tunnelTile
  rw [digRound_tile]
  by_cases hc : px = x ∧ py = y
  · obtain ⟨rfl, rfl⟩ := hc
    have hon : OnTunnel px py px py px py := by
      unfold OnTunnel
      omega
    simp only [hon, true_and]
  · have hoff : ¬ OnTunnel x y x y px py := by
      unfold OnTunnel
      omega
    have hn : ¬ (px = x ∧ py = y ∧ mapIsValidPosition x y = true ∧
        mapGetTile m x y = .TILE_DIRT) := fun h => hc ⟨h.1, h.2.1⟩
    rw [if_neg hn, if_neg (fun h => hoff h.1)]

theorem digRound_seed (m : GameMap) (x y : Int) :
    (if mapIsValidPosition x y = true then mapDig m x y else m).seed = m.seed := by
  split_ifs
  · exact mapDig_seed m x y
  · rfl

/-- Digging the first cell `(x, y)` and then the path from the next cell `(x', y')` digs the
path from `(x, y)`, when the path from `(x, y)` is `(x, y)` followed by the path from
`(x', y')`. -/
theorem tunnelTile_round (m : GameMap) {x y x' y' x2 y2 px py : Int}
    (hoff : ¬ OnTunnel x' y' x2 y2 x y)
    (hon : ¬ (px = x ∧ py = y) → (OnTunnel x' y' x2 y2 px py ↔ OnTunnel x y x2 y2 px py))
    (hfirst : OnTunnel x y x2 y2 x y) :
    tunnelTile (if mapIsValidPosition x y = true then mapDig m x y else m) x' y' x2 y2 px py =
      tunnelTile m x y x2 y2 px py := by
  unfold tunnelTile
  rw [digRound_tile]
  by_cases hc : px = x ∧ py = y
  · -- the first cell: dug by this round, off the rest of the path
    obtain ⟨rfl, rfl⟩ := hc
    simp only [hoff, false_and, if_false, true_and, hfirst]
  · have hn : ¬ (px = x ∧ py = y ∧ mapIsValidPosition x y = true ∧
        mapGetTile m x y = .TILE_DIRT) := fun h => hc ⟨h.1, h.2.1⟩
    rw [if_neg hn]
    simp only [hon hc]

/-- The loop from `(x, y)`, with more fuel than the path from there has cells after the first,
digs exactly that path. -/
theorem digTunnelLoop_tile (fuel : Nat) (m : GameMap) (x y : Int) (hx : Towards dx x x2)
    (hy : Towards dy y y2) (hf : (x2 - x).natAbs + (y2 - y).natAbs < fuel) (px py : Int) :
    mapGetTile (digTunnelLoop x2 y2 dx dy fuel m x y) px py = tunnelTile m x y x2 y2 px py := by
  unfold Towards at hx hy
  fun_induction digTunnelLoop x2 y2 dx dy fuel m x y with
  | case1 m x y => omega
  | case2 fuel m x y m' hend =>
    -- the end point: the path is its one cell
    obtain ⟨rfl, rfl⟩ := hend
    exact (tunnelTile_end m x y px py).symm
  | case3 fuel m x y m' hend hne ih =>
    -- a step along the row: `(x, y)` is the row part's first cell
    rw [ih (by omega) hy (by omega)]
    exact tunnelTile_round m (by unfold OnTunnel; omega) (fun _ => by unfold OnTunnel; omega)
      (by unfold OnTunnel; omega)
  | case4 fuel m x y m' hend hne ih =>
    -- a step along column `x2`
    rw [ih hx (by omega) (by omega)]
    exact tunnelTile_round m (by unfold OnTunnel; omega) (fun _ => by unfold OnTunnel; omega)
      (by unfold OnTunnel; omega)

/-- With more fuel than the path has cells after the first, the loop leaves by its test at the
end point: any more fuel gives the same map. -/
theorem digTunnelLoop_fuel (fuel : Nat) (m : GameMap) (x y : Int) (hx : Towards dx x x2)
    (hy : Towards dy y y2) (hf : (x2 - x).natAbs + (y2 - y).natAbs < fuel) :
    ∀ fuel', (x2 - x).natAbs + (y2 - y).natAbs < fuel' →
      digTunnelLoop x2 y2 dx dy fuel' m x y = digTunnelLoop x2 y2 dx dy fuel m x y := by
  unfold Towards at hx hy
  fun_induction digTunnelLoop x2 y2 dx dy fuel m x y with
  | case1 m x y => omega
  | case2 fuel m x y m' hend =>
    intro fuel' hf'
    obtain ⟨k, rfl⟩ : ∃ k, fuel' = k + 1 := ⟨fuel' - 1, by omega⟩
    rw [digTunnelLoop, if_pos hend]
  | case3 fuel m x y m' hend hne ih =>
    intro fuel' hf'
    obtain ⟨k, rfl⟩ : ∃ k, fuel' = k + 1 := ⟨fuel' - 1, by omega⟩
    rw [digTunnelLoop, if_neg hend, if_pos hne]
    exact ih (by omega) hy (by omega) k (by omega)
  | case4 fuel m x y m' hend hne ih =>
    intro fuel' hf'
    obtain ⟨k, rfl⟩ : ∃ k, fuel' = k + 1 := ⟨fuel' - 1, by omega⟩
    rw [digTunnelLoop, if_neg hend, if_neg hne]
    exact ih hx (by omega) (by omega) k (by omega)

/-- Digging leaves the seed of `random_int` alone. -/
theorem digTunnelLoop_seed (fuel : Nat) (m : GameMap) (x y : Int) :
    (digTunnelLoop x2 y2 dx dy fuel m x y).seed = m.seed := by
  fun_induction digTunnelLoop x2 y2 dx dy fuel m x y with
  | case1 m x y => rfl
  | case2 fuel m x y m' hend => exact digRound_seed m x y
  | case3 fuel m x y m' hend hne ih => rw [ih]; exact digRound_seed m x y
  | case4 fuel m x y m' hend hne ih => rw [ih]; exact digRound_seed m x y

end Loop

end Zeos.Game
