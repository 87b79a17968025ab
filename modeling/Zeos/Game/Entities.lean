import Zeos.Game.Path

/-! # Dig Dug: entities, scoring and collisions

The initialisers, the scoring, the player's death, inflation and the collision tests of
`game_logic.c`. A function of the source that takes `Enemy *` or `Rock *` into the state takes
the state and the index here. `logic_enemy_inflate` updates `enemies_remaining` and the score
through the global `g_current_logic_state`; `logic_update` points it at its argument before any
call can reach that code, so the model updates the state it is given. -/

namespace Zeos.Game

namespace GameLogicState

def enemy (s : GameLogicState) (i : Fin MAX_ENEMIES) : Enemy := s.enemies.get i

def setEnemy (s : GameLogicState) (i : Fin MAX_ENEMIES) (e : Enemy) : GameLogicState :=
  { s with enemies := s.enemies.set i e }

def rock (s : GameLogicState) (i : Fin MAX_ROCKS) : Rock := s.rocks.get i

def setRock (s : GameLogicState) (i : Fin MAX_ROCKS) (r : Rock) : GameLogicState :=
  { s with rocks := s.rocks.set i r }

/-- The indices `0 .. enemy_count - 1` of a loop over the enemies. -/
def enemyIndices (s : GameLogicState) : List (Fin MAX_ENEMIES) :=
  (List.finRange MAX_ENEMIES).filter fun i => (i : Int) < s.enemyCount

/-- The indices `0 .. rock_count - 1` of a loop over the rocks. -/
def rockIndices (s : GameLogicState) : List (Fin MAX_ROCKS) :=
  (List.finRange MAX_ROCKS).filter fun i => (i : Int) < s.rockCount

@[simp] theorem enemy_setEnemy (s : GameLogicState) (i j : Fin MAX_ENEMIES) (e : Enemy) :
    (s.setEnemy i e).enemy j = if j = i then e else s.enemy j := by
  simp only [enemy, setEnemy, Vector.get_eq_getElem, Vector.getElem_set, Fin.val_inj, eq_comm]

@[simp] theorem setEnemy_self (s : GameLogicState) (i : Fin MAX_ENEMIES) :
    s.setEnemy i (s.enemy i) = s := by
  simp [setEnemy, enemy, Vector.get_eq_getElem]

@[simp] theorem enemy_setRock (s : GameLogicState) (i : Fin MAX_ROCKS) (r : Rock)
    (j : Fin MAX_ENEMIES) : (s.setRock i r).enemy j = s.enemy j := rfl

@[simp] theorem rock_setRock (s : GameLogicState) (i j : Fin MAX_ROCKS) (r : Rock) :
    (s.setRock i r).rock j = if j = i then r else s.rock j := by
  simp only [rock, setRock, Vector.get_eq_getElem, Vector.getElem_set, Fin.val_inj, eq_comm]

@[simp] theorem rock_setEnemy (s : GameLogicState) (i : Fin MAX_ENEMIES) (e : Enemy)
    (j : Fin MAX_ROCKS) : (s.setEnemy i e).rock j = s.rock j := rfl

@[simp] theorem enemyIndices_setEnemy (s : GameLogicState) (i : Fin MAX_ENEMIES) (e : Enemy) :
    (s.setEnemy i e).enemyIndices = s.enemyIndices := rfl

@[simp] theorem enemyIndices_setRock (s : GameLogicState) (i : Fin MAX_ROCKS) (r : Rock) :
    (s.setRock i r).enemyIndices = s.enemyIndices := rfl

@[simp] theorem rockIndices_setRock (s : GameLogicState) (i : Fin MAX_ROCKS) (r : Rock) :
    (s.setRock i r).rockIndices = s.rockIndices := rfl

@[simp] theorem rockIndices_setEnemy (s : GameLogicState) (i : Fin MAX_ENEMIES) (e : Enemy) :
    (s.setEnemy i e).rockIndices = s.rockIndices := rfl

theorem mem_enemyIndices {s : GameLogicState} {i : Fin MAX_ENEMIES} :
    i ∈ s.enemyIndices ↔ (i : Int) < s.enemyCount := by
  simp [enemyIndices]

theorem nodup_enemyIndices (s : GameLogicState) : s.enemyIndices.Nodup :=
  (List.nodup_finRange _).filter _

end GameLogicState

/-- An enemy the game still counts: `base.active && state != ENEMY_DEAD`. -/
def Enemy.live (e : Enemy) : Bool := e.base.active && e.state != .ENEMY_DEAD

/-! ### Initialisation -/

def logicPlayerInit (x y : Int) : Player where
  base := ⟨⟨x, y⟩, .DIR_NONE, .ENTITY_PLAYER, true, 0, PLAYER_SPEED⟩
  state := .PLAYER_IDLE
  facingDir := .DIR_RIGHT
  isPumping := false
  pumpLength := 0
  pumpDir := .DIR_NONE
  isAttacking := false
  attackTimer := 0

/-- `logic_enemy_init` sets every field but `blink_count`. -/
def logicEnemyInit (e : Enemy) (x y : Int) (type : EntityType) : Enemy :=
  { e with
    base := ⟨⟨x, y⟩, .DIR_NONE, type, true, 0,
      if type = .ENTITY_FYGAR then FYGAR_BASE_SPEED else POOKA_BASE_SPEED⟩
    state := .ENEMY_NORMAL
    inflateLevel := 0
    ghostTimer := 0
    fireStartTime := 0
    fireEndTime := 0
    fireActive := false
    paralyzedTimer := 0
    hasLeftTunnel := false }

def logicRockInit (x y : Int) : Rock where
  base := ⟨⟨x, y⟩, .DIR_NONE, .ENTITY_ROCK, true, 0, 1⟩
  state := .ROCK_STABLE
  wobbleTimer := 0
  hasCrushed := false
  blinkTimer := 0
  blinkCount := 0

/-! ### Scoring -/

def logicAddScore (s : GameLogicState) (points : Int) : GameLogicState :=
  let score := s.score + points
  { s with score := if score > MAX_SCORE then MAX_SCORE else score }

def logicGetLayer (y : Int) : Int :=
  if y ≥ LAYER_1_START ∧ y ≤ LAYER_1_END then 1
  else if y ≥ LAYER_2_START ∧ y ≤ LAYER_2_END then 2
  else if y ≥ LAYER_3_START ∧ y ≤ LAYER_3_END then 3
  else if y ≥ LAYER_4_START ∧ y ≤ LAYER_4_END then 4
  else 0

def logicCalculateEnemyPoints (y : Int) : Int :=
  match logicGetLayer y with
  | 2 => POINTS_LAYER2
  | 3 => POINTS_LAYER3
  | 4 => POINTS_LAYER4
  | _ => POINTS_LAYER1

/-! ### The player's death -/

/-- `logic_player_die`: it takes a life whatever the player's state. -/
def logicPlayerDie (s : GameLogicState) : GameLogicState :=
  let s := { s with
    player := { s.player with state := .PLAYER_DEAD, isPumping := false, pumpLength := 0 }
    lives := s.lives - 1 }
  if s.lives > 0 then { s with roundStartTimer := RESPAWN_DELAY } else s

def logicPlayerRespawn (s : GameLogicState) : GameLogicState :=
  { s with player := { logicPlayerInit PLAYER_START_X PLAYER_START_Y with state := .PLAYER_IDLE } }

/-! ### Killing, inflating and deflating an enemy -/

/-- An enemy marked dead and inactive, as each kill path of the source marks it. -/
def Enemy.kill (e : Enemy) : Enemy := { e with state := .ENEMY_DEAD, base.active := false }

/-- The kill of enemy `i` that each kill path of the source writes out: the enemy is marked
dead and inactive, `enemies_remaining` drops by one and `points` are scored. -/
def killEnemy (s : GameLogicState) (i : Fin MAX_ENEMIES) (points : Int) : GameLogicState :=
  logicAddScore { s.setEnemy i (s.enemy i).kill with
    enemiesRemaining := s.enemiesRemaining - 1 } points

@[simp] theorem enemy_killEnemy (s : GameLogicState) (i j : Fin MAX_ENEMIES) (points : Int) :
    (killEnemy s i points).enemy j = if j = i then (s.enemy i).kill else s.enemy j := by
  simp [killEnemy, logicAddScore, GameLogicState.enemy, GameLogicState.setEnemy,
    Vector.get_eq_getElem, Vector.getElem_set, Fin.val_inj, eq_comm]

def logicEnemyInflate (s : GameLogicState) (i : Fin MAX_ENEMIES) : GameLogicState :=
  let e := s.enemy i
  if e.state = .ENEMY_DEAD then s
  else
    let e := { e with state := .ENEMY_INFLATING, inflateLevel := e.inflateLevel + 1 }
    let s := s.setEnemy i e
    -- the enemy explodes at full inflation
    if e.inflateLevel ≥ INFLATE_LEVELS then killEnemy s i (logicCalculateEnemyPoints e.base.pos.y)
    else s

def logicEnemyDeflate (e : Enemy) : Enemy :=
  if e.state ≠ .ENEMY_INFLATING then e
  else
    let e := { e with inflateLevel := e.inflateLevel - 1 }
    if e.inflateLevel ≤ 0 then { e with state := .ENEMY_NORMAL, inflateLevel := 0 } else e

/-! ### Collisions -/

/-- `logic_check_player_enemy_collision`: the first live enemy on the player's cell. -/
def logicCheckPlayerEnemyCollision (s : GameLogicState) : Option (Fin MAX_ENEMIES) :=
  if !s.player.base.active then none
  else s.enemyIndices.find? fun i =>
    (s.enemy i).live && s.player.base.pos == (s.enemy i).base.pos

/-- `logic_check_player_rock_collision`: the first active rock on the player's cell. -/
def logicCheckPlayerRockCollision (s : GameLogicState) : Option (Fin MAX_ROCKS) :=
  if !s.player.base.active then none
  else s.rockIndices.find? fun i =>
    (s.rock i).base.active && s.player.base.pos == (s.rock i).base.pos

/-- The pump's cells: the `i`-th round of the loop of `logic_check_pump_hit` looks at the
player's cell moved `i` times along `pump_dir`. -/
def pumpCell (p : Player) (i : Nat) : Int × Int :=
  (p.pumpDir.step)^[i] (p.base.pos.x, p.base.pos.y)

/-- The first live enemy on a cell, lowest index first. -/
def enemyAt (s : GameLogicState) (c : Int × Int) : Option (Fin MAX_ENEMIES) :=
  s.enemyIndices.find? fun j => (s.enemy j).live && (s.enemy j).base.pos == ⟨c.1, c.2⟩

/-- The loop of `logic_check_pump_hit` from round `i` on, `n` rounds left: an enemy on the
cell, else stop at a non-walkable cell, else the next round. -/
def pumpScan (m : GameMap) (s : GameLogicState) : Nat → Nat → Option (Fin MAX_ENEMIES)
  | 0, _ => none
  | n + 1, i =>
    let c := pumpCell s.player i
    match enemyAt s c with
    | some j => some j
    | none => if !mapIsWalkable m c.1 c.2 then none else pumpScan m s n (i + 1)

def logicCheckPumpHit (m : GameMap) (s : GameLogicState) : Option (Fin MAX_ENEMIES) :=
  if !s.player.isPumping then none
  else pumpScan m s s.player.pumpLength.toNat 1

/-- `has_rock_at`: a stable or wobbling rock blocks the cell. -/
def hasRockAt (s : GameLogicState) (x y : Int) : Bool :=
  s.rockIndices.any fun i =>
    let r := s.rock i
    r.base.active && r.base.pos == ⟨x, y⟩ &&
      (r.state == .ROCK_STABLE || r.state == .ROCK_WOBBLING)

end Zeos.Game
