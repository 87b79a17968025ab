import Zeos.Game.EnemySteps
import Zeos.Game.Play

/-! # Dig Dug: the player's part of a frame

`logic_update_player` runs its pieces in the source's order: the move, which clears `base.dir`
to `DIR_NONE` once it has read it; the timers; the pump, which takes `pump_dir` from that same
`base.dir`; and the collisions. So the pump always points nowhere: `pump_cell` with `DIR_NONE` is
the player's own cell for every `i`, and the only enemy a pump can inflate is one standing on the
player's cell. -/

namespace Zeos.Game

open GameLogicState

/-! ### What the pieces leave of the player -/

/-- The move clears `base.dir`, whether or not the player moved. -/
theorem playerMovement_dir (m : GameMap) (s : GameLogicState) :
    (playerMovement m s).1.player.base.dir = .DIR_NONE := by
  unfold playerMovement
  dsimp only
  by_cases hd : s.player.base.dir = .DIR_NONE
  · rw [if_pos hd]
    exact hd
  · -- the field is written last, over whatever the move did
    rw [if_neg hd]

theorem playerTimers_base (s : GameLogicState) :
    (playerTimers s).player.base.pos = s.player.base.pos ∧
      (playerTimers s).player.base.dir = s.player.base.dir := by
  unfold playerTimers
  dsimp only
  split_ifs <;> exact ⟨rfl, rfl⟩

/-- The pump points where `base.dir` points when it runs; the inflation touches no player. -/
theorem logicPlayerPump_player (m : GameMap) (s : GameLogicState) :
    (logicPlayerPump m s).player.pumpDir = s.player.base.dir ∧
      (logicPlayerPump m s).player.base.pos = s.player.base.pos := by
  unfold logicPlayerPump
  dsimp only
  split
  · unfold logicEnemyInflate killEnemy logicAddScore
    dsimp only
    split_ifs <;> exact ⟨rfl, rfl⟩
  · exact ⟨rfl, rfl⟩

theorem logicPlayerDie_player (s : GameLogicState) :
    (logicPlayerDie s).player.pumpDir = s.player.pumpDir ∧
      (logicPlayerDie s).player.base.pos = s.player.base.pos := by
  unfold logicPlayerDie
  dsimp only
  split_ifs <;> exact ⟨rfl, rfl⟩

theorem playerCollisions_player (s : GameLogicState) :
    (playerCollisions s).player.pumpDir = s.player.pumpDir ∧
      (playerCollisions s).player.base.pos = s.player.base.pos := by
  have hdie := logicPlayerDie_player
  rcases playerCollisions_cases s with h | h | h <;> rw [h]
  · exact ⟨rfl, rfl⟩
  · exact hdie s
  · exact ⟨(hdie _).1.trans (hdie s).1, (hdie _).2.trans (hdie s).2⟩

/-! ### The pump's scan with no direction -/

/-- With `DIR_NONE` every cell of the pump is the player's own. -/
theorem pumpCell_of_none {p : Player} (h : p.pumpDir = .DIR_NONE) (i : Nat) :
    pumpCell p i = (p.base.pos.x, p.base.pos.y) := by
  have hid : Direction.step .DIR_NONE = id := by
    funext c
    rfl
  rw [pumpCell, h, hid, Function.iterate_id]
  rfl

/-- A scan along `DIR_NONE` answers the first live enemy on the player's cell, or nothing. -/
theorem pumpScan_of_none {m : GameMap} {s : GameLogicState} (h : s.player.pumpDir = .DIR_NONE)
    {j : Fin MAX_ENEMIES} :
    ∀ {n i : Nat}, pumpScan m s n i = some j →
      enemyAt s (s.player.base.pos.x, s.player.base.pos.y) = some j
  | 0, _, hs => by simp [pumpScan] at hs
  | n + 1, i, hs => by
    unfold pumpScan at hs
    dsimp only at hs
    rw [pumpCell_of_none h] at hs
    split at hs
    · next k hk =>
      cases hs
      exact hk
    · split_ifs at hs
      exact pumpScan_of_none h hs

theorem logicCheckPumpHit_of_none {m : GameMap} {s : GameLogicState}
    (h : s.player.pumpDir = .DIR_NONE) {j : Fin MAX_ENEMIES} (hj : logicCheckPumpHit m s = some j) :
    enemyAt s (s.player.base.pos.x, s.player.base.pos.y) = some j := by
  unfold logicCheckPumpHit at hj
  split_ifs at hj
  exact pumpScan_of_none h hj

/-- An inflation changes the inflated enemy only. -/
theorem logicEnemyInflate_enemy_of_ne (s : GameLogicState) {i j : Fin MAX_ENEMIES} (hj : j ≠ i) :
    (logicEnemyInflate s i).enemy j = s.enemy j := by
  unfold logicEnemyInflate
  dsimp only
  split_ifs <;> simp [hj]

/-- A pump whose `base.dir` is already `DIR_NONE` changes at most the first live enemy on the
player's cell. -/
theorem logicPlayerPump_enemy {m : GameMap} {s : GameLogicState}
    (h : s.player.base.dir = .DIR_NONE) (j : Fin MAX_ENEMIES)
    (hj : (logicPlayerPump m s).enemy j ≠ s.enemy j) :
    enemyAt s (s.player.base.pos.x, s.player.base.pos.y) = some j := by
  unfold logicPlayerPump at hj
  dsimp only at hj
  split at hj
  · next i hi =>
    have hji : j = i := by
      by_contra hne
      exact hj (logicEnemyInflate_enemy_of_ne _ hne)
    subst hji
    -- the scan ran on the pump's own set-up, which has the player's cell and the enemies of `s`
    have hn := logicCheckPumpHit_of_none ?_ hi
    · exact hn
    · exact h
  · exact absurd rfl hj

theorem enemyAt_congr {s t : GameLogicState} (h : SameEnemies s t) (c : Int × Int) :
    enemyAt t c = enemyAt s c := by
  unfold enemyAt enemyIndices enemy
  rw [h.enemies, h.count]

/-! ### The pump in a frame -/

/-- In the player's update of every frame in which the player is alive and the pump key is
held, the pump is left pointing at `DIR_NONE`, and every enemy it changes is the first live enemy
on the player's own cell: no enemy one or more cells away is ever reached. -/
theorem pump_reaches_only_player_cell (m : GameMap) (s : GameLogicState)
    (hd : s.player.state ≠ .PLAYER_DEAD) (hp : s.player.isPumping = true) :
    (logicUpdatePlayer m s).1.player.pumpDir = .DIR_NONE ∧
      ∀ j, (logicUpdatePlayer m s).1.enemy j ≠ s.enemy j →
        enemyAt s ((logicUpdatePlayer m s).1.player.base.pos.x,
          (logicUpdatePlayer m s).1.player.base.pos.y) = some j := by
  unfold logicUpdatePlayer
  rw [if_neg hd]
  dsimp only
  rw [if_pos hp]
  -- the pieces in order: the move, the timers, the pump, the collisions
  have hmd := playerMovement_dir m s
  have htd := (playerTimers_base (playerMovement m s).1).2
  obtain ⟨hpd, hpp⟩ := logicPlayerPump_player (playerMovement m s).2
    (playerTimers (playerMovement m s).1)
  obtain ⟨hcd, hcp⟩ := playerCollisions_player
    (logicPlayerPump (playerMovement m s).2 (playerTimers (playerMovement m s).1))
  have hst : SameEnemies s (playerTimers (playerMovement m s).1) :=
    (playerMovement_same m s).trans (playerTimers_same _)
  refine ⟨by rw [hcd, hpd, htd, hmd], fun j hj => ?_⟩
  rw [(playerCollisions_same _).enemy_eq, ← hst.enemy_eq] at hj
  have hat := logicPlayerPump_enemy (by rw [htd, hmd]) j hj
  rw [hcp, hpp, ← enemyAt_congr hst]
  exact hat

/-- The failing input: the player at `(10, 10)` facing and holding right with the pump held,
its move still cooling down, and a Pooka one cell to its right on an open map. -/
def pumpAheadState : GameLogicState :=
  { GameLogicState.zero with
    scene := .SCENE_PLAYING
    round := 1
    lives := 3
    enemiesRemaining := 1
    enemyCount := 1
    player := { Player.zero with
      base := ⟨⟨10, 10⟩, .DIR_RIGHT, .ENTITY_PLAYER, true, 2, PLAYER_SPEED⟩
      facingDir := .DIR_RIGHT
      isPumping := true }
    enemies := (Vector.replicate MAX_ENEMIES Enemy.zero).set 0
      { Enemy.zero with base := ⟨⟨11, 10⟩, .DIR_NONE, .ENTITY_POOKA, true, 3, POOKA_BASE_SPEED⟩ } }

/-- A map with every cell a tunnel. -/
def openMap : GameMap := ⟨Grid.fill .TILE_EMPTY, 0⟩

theorem pump_reaches_only_player_cell_ahead :
    (pumpAheadState.player.state ≠ .PLAYER_DEAD ∧ pumpAheadState.player.isPumping = true) ∧
      (logicUpdatePlayer openMap pumpAheadState).1.player.pumpDir = .DIR_NONE ∧
      ∀ j, (logicUpdatePlayer openMap pumpAheadState).1.enemy j ≠ pumpAheadState.enemy j →
        enemyAt pumpAheadState ((logicUpdatePlayer openMap pumpAheadState).1.player.base.pos.x,
          (logicUpdatePlayer openMap pumpAheadState).1.player.base.pos.y) = some j :=
  ⟨⟨by decide, rfl⟩, pump_reaches_only_player_cell openMap pumpAheadState (by decide) rfl⟩

/-- The whole frame at the failing input leaves the Pooka ahead uninflated. -/
theorem pump_frame_misses_enemy_ahead :
    let e := (playFrame 0 ⟨false, .DIR_RIGHT, true, false, false⟩ pumpAheadState
      openMap).1.enemy ⟨0, by decide⟩
    e.state = .ENEMY_NORMAL ∧ e.inflateLevel = 0 := by
  decide

/-! ### Deaths in a frame

`logic_player_die` takes a life whatever the player's state, and a frame reaches it from the
enemy collision and the rock collision of the player's update, from every burning Fygar and
from both crush tests of every falling rock. A player that steps into the cell of a rock that has
just begun to fall dies twice in that frame: once by the rock collision, once more when the same
rock's fall crushes its own cell. -/

/-- No key held. -/
def noKeys : PlayInput := ⟨false, .DIR_NONE, false, false, false⟩

/-- Only the movement key `d` held. -/
def moveKey (d : Direction) : PlayInput := ⟨false, d, false, false, false⟩

/-- `k` moves towards `d`: the key for one frame, then the five frames of the move's cooldown. -/
def stepMoves (d : Direction) (k : Nat) : List PlayInput :=
  (List.range k).flatMap fun _ => moveKey d :: List.replicate 5 noKeys

/-- The player on its last life when the countdown of a round ends. -/
def lastLife : GameLogicState := { GameLogicState.zero with scene := .SCENE_PLAYING, lives := 1 }

/-- The keys of the failing input, one frame a tick: from the start of level 1 the player goes
right along the sky and digs down column 21 to `(21, 16)`, then left under the rock at
`(20, 15)`, which starts to wobble, and waits until it falls. -/
def underRockKeys : List PlayInput :=
  stepMoves .DIR_RIGHT 11 ++ stepMoves .DIR_DOWN 14 ++ moveKey .DIR_LEFT ::
    List.replicate 80 noKeys

def underRock : GameLogicState × GameMap :=
  playRun (underRockKeys.zipIdx.map fun a => ((a.2 : Int), a.1))
    (dataLoadLevel 1 lastLife ⟨Grid.fill .TILE_EMPTY, 0⟩)

-- the 231 frames of the run nest as deep as the kernel evaluates them
set_option maxRecDepth 200000 in
/-- A reachable state on the last life from which one frame (the player steps up into the
falling rock's cell) leaves `lives = -1`. -/
theorem crush_takes_two_lives :
    ∃ p : GameLogicState × GameMap, PlayReachable p ∧ p.1.lives = 1 ∧
      p.1.player.state ≠ .PLAYER_DEAD ∧
      ∃ now pi, (playingLogic now false pi p.1 p.2).1.lives = -1 := by
  refine ⟨underRock, .run _ (.load 1 _ _ (by decide)), ?_⟩
  -- one evaluation of the 231 frames and the last one, on the level in the closed form that
  -- `mapInit_eq` gives rather than by running the generating loops
  have h : underRock.1.lives = 1 ∧ underRock.1.player.state ≠ .PLAYER_DEAD ∧
      (playingLogic 231 false (moveKey .DIR_UP) underRock.1 underRock.2).1.lives = -1 := by
    rw [underRock, dataLoadLevel, mapInit_eq]
    decide +kernel
  exact ⟨h.1, h.2.1, 231, moveKey .DIR_UP, h.2.2⟩

end Zeos.Game
