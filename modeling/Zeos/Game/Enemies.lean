import Zeos.Game.Entities

/-! # Dig Dug: the enemies

`logic_update_enemies` and what it calls: the blink count of a paralysed enemy, deflation, the
move cooldown, a Fygar's fire, and the AI that moves an enemy along the path search's first
step, at random when there is none, or through the dirt in ghost mode. An AI function changes
only its enemy; it reads the map, the player and the rocks of `g_current_logic_state`, the
state being updated. Every `gettime()` of one frame reads the same tick count `now`. -/

namespace Zeos.Game

/-- `logic_try_enemy_move`: whether the enemy moved, and the enemy. A rock that is stable or
wobbling blocks the cell, and so does the border row. -/
def logicTryEnemyMove (m : GameMap) (s : GameLogicState) (e : Enemy) (dir : Direction) :
    Bool × Enemy :=
  if dir = .DIR_NONE then (false, e)
  else
    let (newX, newY) := dir.step (e.base.pos.x, e.base.pos.y)
    if !mapIsValidPosition newX newY then (false, e)
    else if hasRockAt s newX newY then (false, e)
    else if newY ≥ ROW_BORDER then (false, e)
    else if mapIsWalkable m newX newY then
      (true, { e with base.pos := ⟨newX, newY⟩, base.dir := dir })
    else (false, e)

/-- `logic_get_random_direction`: the first direction, from a start the enemy's position and
ghost timer pick, that leads to a walkable cell above the border row and without an active
rock. -/
def logicGetRandomDirection (m : GameMap) (s : GameLogicState) (e : Enemy) : Direction :=
  let seed := e.base.pos.x + e.base.pos.y * 79 + e.ghostTimer
  let startIdx := seed.tmod 4
  let candidates := (List.range 4).map fun i =>
    (pathDirs.getD ((startIdx + i).tmod 4).toNat (.DIR_NONE, 0, 0)).1
  let ok (dir : Direction) : Bool :=
    let (newX, newY) := dir.step (e.base.pos.x, e.base.pos.y)
    dir != .DIR_NONE && mapIsValidPosition newX newY && mapIsWalkable m newX newY &&
      decide (newY < ROW_BORDER) &&
      !(s.rockIndices.any fun r => (s.rock r).base.active && (s.rock r).base.pos == ⟨newX, newY⟩)
  (candidates.find? ok).getD .DIR_NONE

def logicEnemyMoveTowardsPlayer (m : GameMap) (s : GameLogicState) (e : Enemy) : Enemy :=
  let bestDir := logicFindPathBfs m e.base.pos s.player.base.pos false
  let (moved, e') := logicTryEnemyMove m s e bestDir
  if bestDir ≠ .DIR_NONE ∧ moved then { e' with ghostTimer := 0 }
  else
    let randomDir := logicGetRandomDirection m s e
    if randomDir ≠ .DIR_NONE then (logicTryEnemyMove m s e randomDir).2 else e

/-- The end of ghost mode: back to normal, timer and flag cleared. -/
def Enemy.leaveGhost (e : Enemy) : Enemy :=
  { e with state := .ENEMY_NORMAL, ghostTimer := 0, hasLeftTunnel := false }

/-- `logic_enemy_ghost_mode`: the enemy follows the path search that may cross dirt, and only
checks that the next cell is on the map. -/
def logicEnemyGhostMode (m : GameMap) (s : GameLogicState) (e : Enemy) : Enemy :=
  let onTunnel := mapIsWalkable m e.base.pos.x e.base.pos.y
  if onTunnel ∧ e.hasLeftTunnel then e.leaveGhost
  else
    let e := if !onTunnel ∧ !e.hasLeftTunnel then { e with hasLeftTunnel := true } else e
    let bestDir := logicFindPathBfs m e.base.pos s.player.base.pos true
    if bestDir = .DIR_NONE then e
    else
      let (newX, newY) := bestDir.step (e.base.pos.x, e.base.pos.y)
      if mapIsValidPosition newX newY then
        let e := { e with base.pos := ⟨newX, newY⟩, base.dir := bestDir }
        if mapIsWalkable m newX newY ∧ e.hasLeftTunnel then e.leaveGhost else e
      else e

/-- `logic_can_see_player`: same row or column with walkable cells all the way. -/
def logicCanSeePlayer (m : GameMap) (e : Enemy) (p : Player) : Bool :=
  let ex := e.base.pos.x
  let ey := e.base.pos.y
  let px := p.base.pos.x
  let py := p.base.pos.y
  if ey = py then
    let start := min ex px
    ((List.range (max ex px - start + 1).toNat).all fun i => mapIsWalkable m (start + i) ey)
  else if ex = px then
    let start := min ey py
    ((List.range (max ey py - start + 1).toNat).all fun i => mapIsWalkable m ex (start + i))
  else false

def logicEnemyAi (m : GameMap) (s : GameLogicState) (e : Enemy) : Enemy :=
  if e.state = .ENEMY_GHOST then logicEnemyGhostMode m s e
  else logicEnemyMoveTowardsPlayer m s e

/-- `logic_check_fire_collision`: the fire reaches `FYGAR_FIRE_RANGE` cells sideways. -/
def logicCheckFireCollision (f : Enemy) (p : Player) : Bool :=
  if !f.fireActive then false
  else if f.base.pos.y ≠ p.base.pos.y then false
  else
    let fx := f.base.pos.x
    let px := p.base.pos.x
    match f.base.dir with
    | .DIR_RIGHT => px > fx ∧ px ≤ fx + FYGAR_FIRE_RANGE
    | .DIR_LEFT => px < fx ∧ px ≥ fx - FYGAR_FIRE_RANGE
    | _ => false

/-- How many of the `FYGAR_FIRE_RANGE` cells beside the Fygar, in steps of `dx`, are free. -/
def fireEmptyCells (m : GameMap) (f : Enemy) (dx : Int) : Int :=
  (((List.range FYGAR_FIRE_RANGE.toNat).map fun i => f.base.pos.x + dx * (i + 1)).takeWhile
    fun x => mapIsValidPosition x f.base.pos.y && mapIsWalkable m x f.base.pos.y).length

/-- A Fygar starts to breathe fire towards `dir` if both cells that way are free. -/
def fygarTryFire (m : GameMap) (now : Int) (f : Enemy) (dir : Direction) : Option Enemy :=
  if fireEmptyCells m f (if dir = .DIR_RIGHT then 1 else -1) = FYGAR_FIRE_RANGE then
    some { f with fireActive := true, fireStartTime := now, base.dir := dir }
  else none

/-- `logic_fygar_fire` on enemy `i`: a fire that burns kills the player it reaches; a new fire
needs the cooldown over and free cells, towards the player first. -/
def logicFygarFire (m : GameMap) (now : Int) (s : GameLogicState) (i : Fin MAX_ENEMIES) :
    GameLogicState :=
  let f := s.enemy i
  if f.base.type ≠ .ENTITY_FYGAR then s
  else if f.fireActive then
    if now - f.fireStartTime ≥ FYGAR_FIRE_DURATION then
      s.setEnemy i { f with fireActive := false, fireEndTime := now }
    else if logicCheckFireCollision f s.player then logicPlayerDie s
    else s
  else if f.fireEndTime > 0 ∧ now - f.fireEndTime < FYGAR_FIRE_COOLDOWN then s
  else
    let fireDir := if s.player.base.pos.x - f.base.pos.x ≥ 0 then Direction.DIR_RIGHT
      else .DIR_LEFT
    let otherDir := if fireDir = .DIR_RIGHT then Direction.DIR_LEFT else .DIR_RIGHT
    match fygarTryFire m now f fireDir with
    | some f => s.setEnemy i f
    | none =>
      match fygarTryFire m now f otherDir with
      | some f => s.setEnemy i f
      | none => s

/-- A paralysed enemy blinks: every `5 + 1` frames it loses a blink, and dies when none is
left. -/
def paralyzedTick (s : GameLogicState) (i : Fin MAX_ENEMIES) : GameLogicState :=
  let e := s.enemy i
  if e.paralyzedTimer > 0 then s.setEnemy i { e with paralyzedTimer := e.paralyzedTimer - 1 }
  else
    let e := { e with blinkCount := e.blinkCount - 1 }
    if e.blinkCount ≤ 0 then
      killEnemy (s.setEnemy i e) i (logicCalculateEnemyPoints e.base.pos.y)
    else s.setEnemy i { e with paralyzedTimer := 5 }

/-- The AI step of a free enemy, the reset of its cooldown, and ghost mode for an enemy that
has not reached the player for `GHOST_MODE_THRESHOLD` steps. -/
def enemyAiStep (m : GameMap) (s : GameLogicState) (i : Fin MAX_ENEMIES) : GameLogicState :=
  let e := logicEnemyAi m s (s.enemy i)
  let e := { e with base.speedCounter := e.base.speedLimit, ghostTimer := e.ghostTimer + 1 }
  let e :=
    if e.ghostTimer > GHOST_MODE_THRESHOLD ∧ e.state = .ENEMY_NORMAL ∧
        !logicCanSeePlayer m e s.player then
      { e with state := .ENEMY_GHOST, hasLeftTunnel := false }
    else e
  s.setEnemy i e

/-- One round of the loop of `logic_update_enemies`. -/
def updateEnemy (m : GameMap) (now : Int) (s : GameLogicState) (i : Fin MAX_ENEMIES) :
    GameLogicState :=
  let e := s.enemy i
  if !e.base.active || e.state = .ENEMY_DEAD then s
  else if e.state = .ENEMY_PARALYZED then paralyzedTick s i
  else if e.state = .ENEMY_INFLATING then
    if !s.player.isPumping then s.setEnemy i (logicEnemyDeflate e) else s
  else if e.base.speedCounter > 0 then
    s.setEnemy i { e with base.speedCounter := e.base.speedCounter - 1 }
  else if e.base.type = .ENTITY_FYGAR then
    -- a burning fire holds the Fygar, and so does one it lights now
    if e.fireActive then logicFygarFire m now s i
    else
      let s := logicFygarFire m now s i
      if (s.enemy i).fireActive then s else enemyAiStep m s i
  else enemyAiStep m s i

def logicUpdateEnemies (m : GameMap) (now : Int) (s : GameLogicState) : GameLogicState :=
  s.enemyIndices.foldl (updateEnemy m now) s

end Zeos.Game
