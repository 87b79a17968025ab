import Zeos.Game.Types

/-! # Dig Dug: the tile map

`game_map.c`: the tile array `g_map[MAP_HEIGHT][MAP_WIDTH]` with its accessors and tests, and
the level generation `map_init` runs. The seed of `random_int` is a static of the same file and
travels with the tiles. The gem list `g_gem_positions` is left out: `map_remove_gem` is its only
reader, and no modelled function places a gem. -/

namespace Zeos.Game

def mapIsValidPosition (x y : Int) : Bool :=
  0 ≤ x && x < MAP_WIDTH && 0 ≤ y && y < MAP_HEIGHT

theorem mapIsValidPosition_iff {x y : Int} :
    mapIsValidPosition x y = true ↔ 0 ≤ x ∧ x < 80 ∧ 0 ≤ y ∧ y < 24 := by
  simp only [mapIsValidPosition, Bool.and_eq_true, decide_eq_true_eq, and_assoc]
  rfl

theorem toNat_lt_of_valid {x y : Int} (h : mapIsValidPosition x y = true) :
    x.toNat < MAP_WIDTH ∧ y.toNat < MAP_HEIGHT := by
  rw [mapIsValidPosition_iff] at h
  simp only [MAP_WIDTH, SCREEN_WIDTH, MAP_HEIGHT]
  omega

/-- A `[MAP_HEIGHT][MAP_WIDTH]` array of the source, indexed `[y][x]`. -/
abbrev Grid (α : Type) := Vector (Vector α MAP_WIDTH) MAP_HEIGHT

/-- A grid filled with one value, as the initialising double loops of the source leave it. -/
def Grid.fill {α : Type} (a : α) : Grid α :=
  Vector.replicate MAP_HEIGHT (Vector.replicate MAP_WIDTH a)

/-- The cell `[y][x]`; a cell outside the map reads as `dflt`. -/
def Grid.read {α : Type} (g : Grid α) (x y : Int) (dflt : α) : α :=
  if h : mapIsValidPosition x y then
    (g.get ⟨y.toNat, (toNat_lt_of_valid h).2⟩).get ⟨x.toNat, (toNat_lt_of_valid h).1⟩
  else dflt

/-- A write to `[y][x]`; a write outside the map is dropped. -/
def Grid.write {α : Type} (g : Grid α) (x y : Int) (a : α) : Grid α :=
  if h : mapIsValidPosition x y then
    g.set y.toNat
      ((g.get ⟨y.toNat, (toNat_lt_of_valid h).2⟩).set x.toNat a (toNat_lt_of_valid h).1)
      (toNat_lt_of_valid h).2
  else g

/-- The statics of `game_map.c` that the modelled functions read. -/
structure GameMap where
  tiles : Grid TileType
  seed : UInt32
  deriving DecidableEq, Repr

/-- `map_get_tile`: a cell outside the map reads as a wall. -/
def mapGetTile (m : GameMap) (x y : Int) : TileType :=
  m.tiles.read x y .TILE_WALL

/-- `map_set_tile`: a write outside the map is dropped. -/
def mapSetTile (m : GameMap) (x y : Int) (type : TileType) : GameMap :=
  { m with tiles := m.tiles.write x y type }

def mapIsWalkable (m : GameMap) (x y : Int) : Bool :=
  match mapGetTile m x y with
  | .TILE_EMPTY | .TILE_GEM | .TILE_BONUS | .TILE_SKY | .TILE_BORDER => true
  | _ => false

def mapIsSolid (m : GameMap) (x y : Int) : Bool :=
  match mapGetTile m x y with
  | .TILE_DIRT | .TILE_WALL => true
  | _ => false

def mapIsDiggable (m : GameMap) (x y : Int) : Bool :=
  mapGetTile m x y == .TILE_DIRT

def mapDig (m : GameMap) (x y : Int) : GameMap :=
  if mapIsDiggable m x y then mapSetTile m x y .TILE_EMPTY else m

/-- A write to a cell of the map is read back there, and nowhere else. -/
theorem Grid.read_write {α : Type} (g : Grid α) (x y : Int) (a : α) (px py : Int) (d : α) :
    (g.write x y a).read px py d =
      if px = x ∧ py = y ∧ mapIsValidPosition x y = true then a else g.read px py d := by
  unfold Grid.read Grid.write
  by_cases hv : mapIsValidPosition x y = true
  · have hxy := mapIsValidPosition_iff.1 hv
    by_cases hp : mapIsValidPosition px py = true
    · have hpxy := mapIsValidPosition_iff.1 hp
      simp only [hv, hp, dite_true, and_true, Vector.get_eq_getElem, Vector.getElem_set]
      -- the row, then the column: `toNat` is injective on the map's coordinates
      by_cases hy : py = y
      · subst hy
        by_cases hx : px = x
        · subst hx
          simp
        · have : x.toNat ≠ px.toNat := by omega
          simp [hx, this]
      · have : y.toNat ≠ py.toNat := by omega
        simp [hy, this]
    · simp only [hv, hp, dite_true, dite_false, Bool.false_eq_true]
      split_ifs with h
      · obtain ⟨rfl, rfl, -⟩ := h
        exact absurd hv hp
      · rfl
  · simp only [hv, dite_false, Bool.false_eq_true, and_false, if_false]

theorem mapGetTile_mapSetTile (m : GameMap) (x y : Int) (type : TileType) (px py : Int) :
    mapGetTile (mapSetTile m x y type) px py =
      if px = x ∧ py = y ∧ mapIsValidPosition x y = true then type else mapGetTile m px py :=
  Grid.read_write _ _ _ _ _ _ _

/-- A cell that reads `type` rewritten to `type'`, as `map_dig` and `map_remove_gem` do; the
outside of the map reads as a wall, so a cell that reads anything else is on the map. -/
theorem mapGetTile_replace (m : GameMap) {type : TileType} (hw : type ≠ .TILE_WALL)
    (type' : TileType) (x y px py : Int) :
    mapGetTile (if mapGetTile m x y == type then mapSetTile m x y type' else m) px py =
      if px = x ∧ py = y ∧ mapGetTile m x y = type then type' else mapGetTile m px py := by
  by_cases hd : mapGetTile m x y = type
  · have hv : mapIsValidPosition x y = true := by
      by_contra hv
      simp only [mapGetTile, Grid.read, hv, dite_false] at hd
      exact hw hd.symm
    simp only [hd, beq_self_eq_true, if_true, mapGetTile_mapSetTile, hv, and_true]
  · simp [hd]

/-- `map_dig` empties the cell if it is dirt, which it can only be on the map. -/
theorem mapGetTile_mapDig (m : GameMap) (x y px py : Int) :
    mapGetTile (mapDig m x y) px py =
      if px = x ∧ py = y ∧ mapGetTile m x y = .TILE_DIRT then .TILE_EMPTY
      else mapGetTile m px py :=
  mapGetTile_replace m (by decide) _ x y px py

theorem mapDig_seed (m : GameMap) (x y : Int) : (mapDig m x y).seed = m.seed := by
  unfold mapDig
  split_ifs <;> rfl

def mapHasGem (m : GameMap) (x y : Int) : Bool :=
  mapGetTile m x y == .TILE_GEM

/-- `map_remove_gem` on the tiles; the shift of `g_gem_positions` is left out. -/
def mapRemoveGem (m : GameMap) (x y : Int) : GameMap :=
  if mapGetTile m x y == .TILE_GEM then mapSetTile m x y .TILE_EMPTY else m

theorem mapGetTile_mapRemoveGem (m : GameMap) (x y px py : Int) :
    mapGetTile (mapRemoveGem m x y) px py =
      if px = x ∧ py = y ∧ mapGetTile m x y = .TILE_GEM then .TILE_EMPTY
      else mapGetTile m px py :=
  mapGetTile_replace m (by decide) _ x y px py

/-! ### Level generation -/

/-- `map_clear`: the double loop leaves every cell `TILE_EMPTY`. -/
def mapClear (m : GameMap) : GameMap :=
  { m with tiles := Grid.fill .TILE_EMPTY }

def mapCreateBorders (m : GameMap) : GameMap :=
  let m := (List.range MAP_WIDTH).foldl (fun m x =>
    mapSetTile (mapSetTile m x 0 .TILE_WALL) x (MAP_HEIGHT - 1) .TILE_WALL) m
  let m := (List.range MAP_HEIGHT).foldl (fun m y =>
    mapSetTile (mapSetTile m 0 y .TILE_WALL) (MAP_WIDTH - 1) y .TILE_WALL) m
  (List.range MAP_WIDTH).foldl (fun m x => mapSetTile m x ROW_BORDER .TILE_BORDER) m

/-- `random_int`: one step of the linear congruential generator on the 32-bit seed. -/
def randomInt (m : GameMap) (max : Int) : Int × GameMap :=
  let seed := m.seed * 1103515245 + 12345
  ((seed.toNat % max.toNat : Nat), { m with seed := seed })

/-- One cell of `place_random_dirt`. -/
def placeRandomDirtCell (density : Int) (m : GameMap) (x y : Int) : GameMap :=
  if mapGetTile m x y = .TILE_WALL then m
  else if y ≤ ROW_SKY_END then mapSetTile m x y .TILE_SKY
  else if density ≥ 100 then mapSetTile m x y .TILE_DIRT
  else
    let (r, m) := randomInt m 100
    if r < density then mapSetTile m x y .TILE_DIRT else mapSetTile m x y .TILE_EMPTY

/-- `place_random_dirt`: rows `1 .. MAP_HEIGHT - 2`, columns `1 .. MAP_WIDTH - 2`. -/
def placeRandomDirt (m : GameMap) (density : Int) : GameMap :=
  (List.range (MAP_HEIGHT - 2)).foldl (fun m y =>
    (List.range (MAP_WIDTH - 2)).foldl (fun m x =>
      placeRandomDirtCell density m (x + 1) (y + 1)) m) m

/-- `map_fill_area`: the corners are sorted first, both bounds are inclusive. -/
def mapFillArea (m : GameMap) (x1 y1 x2 y2 : Int) (type : TileType) : GameMap :=
  let (x1, x2) := if x1 > x2 then (x2, x1) else (x1, x2)
  let (y1, y2) := if y1 > y2 then (y2, y1) else (y1, y2)
  (List.range (y2 - y1 + 1).toNat).foldl (fun m dy =>
    (List.range (x2 - x1 + 1).toNat).foldl (fun m dx =>
      let x := x1 + dx
      let y := y1 + dy
      if mapIsValidPosition x y then mapSetTile m x y type else m) m) m

/-- `map_generate_level`: the gem count it computes is never used. -/
def mapGenerateLevel (m : GameMap) (_level : Int) : GameMap :=
  let m := mapCreateBorders m
  let m := placeRandomDirt m 100
  mapFillArea m 1 ROW_SKY_START 5 ROW_SKY_END .TILE_SKY

def mapInit (m : GameMap) (level : Int) : GameMap :=
  mapGenerateLevel (mapClear m) level

/-! ### The level `map_init` leaves

Density `100` takes no random number, so `map_init` leaves the same tiles for every level and
every seed: the border row at the bottom, walls on the other edges, sky in the sky rows and dirt
below. -/

/-- The tile `map_init` leaves at the cell `(x, y)` of the map. -/
def levelTile (x y : Int) : TileType :=
  if y = ROW_BORDER then .TILE_BORDER
  else if y = 0 ∨ x = 0 ∨ x = MAP_WIDTH - 1 then .TILE_WALL
  else if y ≤ ROW_SKY_END then .TILE_SKY
  else .TILE_DIRT

/-- The tiles `map_init` leaves, row by row. -/
def levelGrid : Grid TileType :=
  ⟨⟨(List.range MAP_HEIGHT).map fun y : Nat =>
    ⟨⟨(List.range MAP_WIDTH).map fun x : Nat => levelTile x y⟩, by simp⟩⟩, by simp⟩

theorem Grid.read_levelGrid {x y : Int} (hv : mapIsValidPosition x y = true) (d : TileType) :
    levelGrid.read x y d = levelTile x y := by
  have h := mapIsValidPosition_iff.1 hv
  simp only [Grid.read, hv, dite_true, levelGrid, Vector.get_eq_getElem, Vector.getElem_mk,
    List.getElem_toArray, List.getElem_map, List.getElem_range]
  rw [Int.toNat_of_nonneg h.1, Int.toNat_of_nonneg h.2.2.1]

/-- A loop of map writes in which a round sets the cell `(x, y)` from its own tile when it hits
it, and no two rounds hit it: the cell reads as the one round that hit it left it. -/
theorem mapGetTile_foldl {α : Type} {f : GameMap → α → GameMap} {x y : Int} {p : α → Prop}
    [DecidablePred p] {w : TileType → TileType}
    (hf : ∀ m a, mapGetTile (f m a) x y = if p a then w (mapGetTile m x y) else mapGetTile m x y) :
    ∀ {l : List α}, l.Nodup → (∀ a ∈ l, ∀ b ∈ l, p a → p b → a = b) → ∀ m,
      mapGetTile (l.foldl f m) x y = if ∃ a ∈ l, p a then w (mapGetTile m x y) else mapGetTile m x y
  | [], _, _, m => by simp
  | a :: l, hn, hu, m => by
    obtain ⟨ha, hn⟩ := List.nodup_cons.1 hn
    have hu' : ∀ b ∈ l, ∀ c ∈ l, p b → p c → b = c := fun b hb c hc =>
      hu b (List.mem_cons_of_mem _ hb) c (List.mem_cons_of_mem _ hc)
    rw [List.foldl_cons, mapGetTile_foldl hf hn hu' (f m a), hf]
    by_cases hit : p a
    · -- the round on `a` is the only one to hit the cell
      have hnone : ¬ ∃ b ∈ l, p b := by
        rintro ⟨b, hb, hb'⟩
        exact ha (hu b (List.mem_cons_of_mem _ hb) a List.mem_cons_self hb' hit ▸ hb)
      simp [hit, hnone]
    · simp [hit]

/-- A loop whose every round keeps the seed of `random_int` keeps it. -/
theorem seed_foldl {α : Type} {f : GameMap → α → GameMap} (l : List α) (m : GameMap)
    (hf : ∀ m a, (f m a).seed = m.seed) : (l.foldl f m).seed = m.seed := by
  induction l generalizing m with
  | nil => rfl
  | cons a l ih => rw [List.foldl_cons, ih, hf]

/-- The counters of a loop `for (i = 0; i < n; i++)` over `int`. -/
theorem range_cast_eq (n : Nat) :
    ((List.range n : List Nat) : List Int) = (List.range n).map Nat.cast := by
  simp only [List.pure_def, List.bind_eq_flatMap, ← List.map_eq_flatMap]

theorem nodup_range_cast (n : Nat) : ((List.range n : List Nat) : List Int).Nodup := by
  rw [range_cast_eq]
  exact List.nodup_range.map Nat.cast_injective

/-- The round of a loop over `int` counters that hits the coordinate `x`, offset by `c`: there is
one exactly when `x - c` is a counter. -/
theorem exists_range_cast_add_iff {x c : Int} {n : Nat} {P : Prop} :
    (∃ a ∈ ((List.range n : List Nat) : List Int), x = a + c ∧ P) ↔
      c ≤ x ∧ x < n + c ∧ P := by
  rw [range_cast_eq]
  constructor
  · rintro ⟨a, ha, rfl, hp⟩
    obtain ⟨k, hk, rfl⟩ := List.mem_map.1 ha
    exact ⟨by omega, by simp at hk; omega, hp⟩
  · rintro ⟨h₁, h₂, hp⟩
    exact ⟨(x - c).toNat, List.mem_map.2 ⟨(x - c).toNat, List.mem_range.2 (by omega), rfl⟩,
      by omega, hp⟩

theorem exists_range_cast_iff {x : Int} {n : Nat} {P : Prop} :
    (∃ a ∈ ((List.range n : List Nat) : List Int), x = a ∧ P) ↔ 0 ≤ x ∧ x < n ∧ P := by
  have h := exists_range_cast_add_iff (x := x) (c := 0) (n := n) (P := P)
  simp only [add_zero] at h
  exact h

section Stages

variable {x y : Int} (hv : mapIsValidPosition x y = true)
include hv

theorem mapGetTile_mapClear (m : GameMap) : mapGetTile (mapClear m) x y = .TILE_EMPTY := by
  simp [mapGetTile, mapClear, Grid.read, Grid.fill, hv, Vector.get_eq_getElem]

/-- `map_create_borders`: the bottom row is the border, the other edges are walls. -/
theorem mapGetTile_mapCreateBorders (m : GameMap) :
    mapGetTile (mapCreateBorders m) x y =
      if y = ROW_BORDER then .TILE_BORDER
      else if y = 0 ∨ x = 0 ∨ x = MAP_WIDTH - 1 then .TILE_WALL
      else mapGetTile m x y := by
  have h := mapIsValidPosition_iff.1 hv
  simp only [mapCreateBorders]
  -- the border row, then the side columns, then the top and bottom rows: each a loop that
  -- writes one constant
  rw [mapGetTile_foldl (p := fun a => x = a ∧ y = ROW_BORDER) (w := fun _ => .TILE_BORDER)
      (fun m a => ?r₃) (nodup_range_cast _) (fun a _ b _ ha hb => ?u₃),
    mapGetTile_foldl (p := fun a => y = a ∧ (x = 0 ∨ x = MAP_WIDTH - 1))
      (w := fun _ => .TILE_WALL) (fun m a => ?r₂) (nodup_range_cast _) (fun a _ b _ ha hb => ?u₂),
    mapGetTile_foldl (p := fun a => x = a ∧ (y = 0 ∨ y = MAP_HEIGHT - 1))
      (w := fun _ => .TILE_WALL) (fun m a => ?r₁) (nodup_range_cast _) (fun a _ b _ ha hb => ?u₁)]
  · simp only [exists_range_cast_iff]
    simp only [ROW_BORDER, MAP_WIDTH, MAP_HEIGHT, SCREEN_WIDTH, Nat.cast_ofNat] at h ⊢
    grind
  case r₁ | r₂ | r₃ =>
    simp only [mapGetTile_mapSetTile, mapIsValidPosition_iff]
    grind
  case u₁ | u₂ | u₃ => omega

/-- One cell of `place_random_dirt` at density `100` or more: a wall stays, any other tile becomes
sky in the sky rows and dirt below. -/
theorem mapGetTile_placeRandomDirtCell {density : Int} (hd : 100 ≤ density) (m : GameMap)
    (a b : Int) :
    mapGetTile (placeRandomDirtCell density m a b) x y =
      if x = a ∧ y = b then
        (if mapGetTile m x y = .TILE_WALL then .TILE_WALL
        else if y ≤ ROW_SKY_END then .TILE_SKY else .TILE_DIRT)
      else mapGetTile m x y := by
  simp only [placeRandomDirtCell, ge_iff_le, hd, if_true]
  split_ifs <;> grind [mapGetTile_mapSetTile]

/-- `place_random_dirt` at density `100` or more takes no random number: every cell inside the
edges that is not a wall becomes sky in the sky rows and dirt below. -/
theorem mapGetTile_placeRandomDirt {density : Int} (hd : 100 ≤ density) (m : GameMap) :
    mapGetTile (placeRandomDirt m density) x y =
      if 0 < x ∧ x < MAP_WIDTH - 1 ∧ 0 < y ∧ y < MAP_HEIGHT - 1 ∧ mapGetTile m x y ≠ .TILE_WALL
      then (if y ≤ ROW_SKY_END then .TILE_SKY else .TILE_DIRT)
      else mapGetTile m x y := by
  have h := mapIsValidPosition_iff.1 hv
  simp only [placeRandomDirt]
  -- the row loop, then the cell loop of the one row that hits `y`
  rw [mapGetTile_foldl (p := fun b => y = b + 1 ∧ 0 < x ∧ x < MAP_WIDTH - 1)
      (w := fun t => if t = .TILE_WALL then .TILE_WALL
        else if y ≤ ROW_SKY_END then .TILE_SKY else .TILE_DIRT)
      (fun m b => ?row) (nodup_range_cast _) (fun a _ b _ ha hb => ?u)]
  · simp only [exists_range_cast_add_iff]
    simp only [MAP_WIDTH, MAP_HEIGHT, SCREEN_WIDTH, Nat.cast_ofNat] at h ⊢
    grind
  case row =>
    rw [mapGetTile_foldl (p := fun a => x = a + 1 ∧ y = b + 1)
      (w := fun t => if t = .TILE_WALL then .TILE_WALL
        else if y ≤ ROW_SKY_END then .TILE_SKY else .TILE_DIRT)
      (fun m a => mapGetTile_placeRandomDirtCell hv hd m _ _) (nodup_range_cast _)
      (fun a _ c _ ha hc => by omega)]
    simp only [exists_range_cast_add_iff]
    simp only [MAP_WIDTH, SCREEN_WIDTH, Nat.cast_ofNat] at h ⊢
    grind
  case u => omega

/-- `map_fill_area`: every cell of the rectangle between the two corners, bounds included. -/
theorem mapGetTile_mapFillArea (m : GameMap) (x1 y1 x2 y2 : Int) (type : TileType) :
    mapGetTile (mapFillArea m x1 y1 x2 y2 type) x y =
      if min x1 x2 ≤ x ∧ x ≤ max x1 x2 ∧ min y1 y2 ≤ y ∧ y ≤ max y1 y2 then type
      else mapGetTile m x y := by
  -- the corners the source sorts are the `min` and the `max`
  have sort (a b : Int) : (if a > b then (b, a) else (a, b)) = (min a b, max a b) := by
    split_ifs <;> simp only [Prod.mk.injEq] <;> omega
  simp only [mapFillArea, sort]
  rw [mapGetTile_foldl (p := fun dy => y = dy + min y1 y2 ∧ min x1 x2 ≤ x ∧ x ≤ max x1 x2)
      (w := fun _ => type) (fun m dy => ?row) (nodup_range_cast _) (fun a _ b _ ha hb => by omega)]
  · simp only [exists_range_cast_add_iff]
    grind
  case row =>
    rw [mapGetTile_foldl (p := fun dx => x = dx + min x1 x2 ∧ y = dy + min y1 y2)
      (w := fun _ => type) (fun m dx => ?cell) (nodup_range_cast _) (fun a _ b _ ha hb => by omega)]
    · simp only [exists_range_cast_add_iff]
      grind
    case cell =>
      split_ifs <;> grind [mapGetTile_mapSetTile]

end Stages

/-- Two grids that read alike at every cell of the map are equal. -/
theorem Grid.ext_read {α : Type} {g g' : Grid α} (d : α)
    (h : ∀ x y, mapIsValidPosition x y = true → g.read x y d = g'.read x y d) : g = g' := by
  apply Vector.ext
  intro i hi
  apply Vector.ext
  intro j hj
  have hv : mapIsValidPosition j i = true := by
    rw [mapIsValidPosition_iff]
    simp only [MAP_WIDTH, SCREEN_WIDTH, MAP_HEIGHT] at hi hj
    omega
  simpa [Grid.read, hv, Vector.get_eq_getElem] using h j i hv

theorem mapCreateBorders_seed (m : GameMap) : (mapCreateBorders m).seed = m.seed := by
  simp only [mapCreateBorders]
  -- three loops of writes to the tiles
  rw [seed_foldl, seed_foldl, seed_foldl] <;> exact fun _ _ => rfl

theorem placeRandomDirt_seed {density : Int} (hd : 100 ≤ density) (m : GameMap) :
    (placeRandomDirt m density).seed = m.seed := by
  -- no cell reaches the branch that draws a random number
  have hcell (m : GameMap) (x y : Int) : (placeRandomDirtCell density m x y).seed = m.seed := by
    simp only [placeRandomDirtCell, ge_iff_le, hd, if_true]
    split_ifs <;> rfl
  simp only [placeRandomDirt]
  exact seed_foldl _ m fun m _ => seed_foldl _ m fun m _ => hcell m _ _

theorem mapFillArea_seed (m : GameMap) (x1 y1 x2 y2 : Int) (type : TileType) :
    (mapFillArea m x1 y1 x2 y2 type).seed = m.seed := by
  simp only [mapFillArea]
  refine seed_foldl _ m fun m _ => seed_foldl _ m fun m _ => ?_
  split_ifs <;> rfl

/-- `map_init` leaves the same level whatever the map held before and whatever the level number:
the tiles of `levelGrid`, and the seed of `random_int` as it was. -/
theorem mapInit_eq (m : GameMap) (level : Int) : mapInit m level = ⟨levelGrid, m.seed⟩ := by
  have htiles : (mapInit m level).tiles = levelGrid := by
    apply Grid.ext_read .TILE_WALL
    intro x y hv
    have h := mapIsValidPosition_iff.1 hv
    change mapGetTile (mapInit m level) x y = _
    rw [Grid.read_levelGrid hv, mapInit, mapGenerateLevel, mapGetTile_mapFillArea hv,
      mapGetTile_placeRandomDirt hv le_rfl, mapGetTile_mapCreateBorders hv, mapGetTile_mapClear hv]
    simp only [levelTile, ROW_SKY_START, ROW_SKY_END, ROW_BORDER, MAP_WIDTH, MAP_HEIGHT,
      SCREEN_WIDTH, Nat.cast_ofNat] at h ⊢
    grind
  have hseed : (mapInit m level).seed = m.seed := by
    rw [mapInit, mapGenerateLevel, mapFillArea_seed, placeRandomDirt_seed le_rfl,
      mapCreateBorders_seed]
    rfl
  generalize mapInit m level = r at htiles hseed
  obtain ⟨tiles, seed⟩ := r
  simp only at htiles hseed
  rw [htiles, hseed]

end Zeos.Game
