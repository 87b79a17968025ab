import Zeos.Game.Entities

/-! # Dig Dug: the player

`logic_update_player` and what it calls: movement and digging (`logic_player_move`), the pump
(`logic_player_pump`) and, from `process_playing_state`, the harpoon (`logic_player_attack`).
The map is `g_map`; the rocks that block a move are those of `g_current_logic_state`, the state
being updated. -/

namespace Zeos.Game

/-- The player at its new cell in state `st`, with a gem there collected. -/
def playerStepTo (m : GameMap) (s : GameLogicState) (st : PlayerState) (x y : Int) :
    GameLogicState × GameMap :=
  let s := { s with player := { s.player with state := st, base.pos := ⟨x, y⟩ } }
  (s, if mapHasGem m x y then mapRemoveGem m x y else m)

def logicPlayerMove (m : GameMap) (s : GameLogicState) (dir : Direction) :
    GameLogicState × GameMap :=
  if !s.player.base.active || dir = .DIR_NONE then (s, m)
  else
    let (newX, newY) := dir.step (s.player.base.pos.x, s.player.base.pos.y)
    let s := { s with player := { s.player with facingDir := dir } }
    if !mapIsValidPosition newX newY then (s, m)
    -- the sky's last row is as high as the player goes, the row above the border as deep
    else if newY < ROW_SKY_END then (s, m)
    else if newY ≥ ROW_BORDER then (s, m)
    else if hasRockAt s newX newY then (s, m)
    else if mapIsDiggable m newX newY then
      playerStepTo (mapDig m newX newY) s .PLAYER_DIGGING newX newY
    else if mapIsWalkable m newX newY then playerStepTo m s .PLAYER_MOVING newX newY
    else (s, m)

/-- `attack_path_clear`: how many of the `range` cells ahead are on the map and not solid. -/
def attackPathClear (m : GameMap) (x y : Int) (dir : Direction) (range : Int) : Int :=
  if dir = .DIR_NONE then 0
  else
    let cells := (List.range range.toNat).map fun i => (dir.step)^[i + 1] (x, y)
    (cells.takeWhile fun c => mapIsValidPosition c.1 c.2 && !mapIsSolid m c.1 c.2).length

/-- The harpoon's reach in each direction: `ATTACK_RANGE_V` up and down, `ATTACK_RANGE_H`
sideways. -/
def attackRange : Direction → Int
  | .DIR_UP | .DIR_DOWN => ATTACK_RANGE_V
  | .DIR_LEFT | .DIR_RIGHT => ATTACK_RANGE_H
  | .DIR_NONE => 0

/-- The inner loop of `logic_player_attack` at one cell: enemy `e` is paralysed if it stands
there, is active and is not paralysed already. -/
def attackEnemy (c : Int × Int) (s : GameLogicState) (e : Fin MAX_ENEMIES) : GameLogicState :=
  let en := s.enemy e
  if !en.base.active || en.state = .ENEMY_PARALYZED then s
  else if en.base.pos == ⟨c.1, c.2⟩ then
    s.setEnemy e { en with state := .ENEMY_PARALYZED, blinkCount := 10, paralyzedTimer := 5 }
  else s

/-- `logic_player_attack`, whose result `process_playing_state` ignores. -/
def logicPlayerAttack (m : GameMap) (s : GameLogicState) : GameLogicState :=
  let p := s.player
  if p.state = .PLAYER_DEAD || p.facingDir = .DIR_NONE then s
  else
    let clear := attackPathClear m p.base.pos.x p.base.pos.y p.facingDir (attackRange p.facingDir)
    if clear = 0 then s
    else
      let s := { s with
        player := { p with isAttacking := true, attackTimer := ATTACK_DISPLAY_TIME,
                           state := .PLAYER_ATTACKING } }
      let cells := (List.range clear.toNat).map fun i =>
        (p.facingDir.step)^[i + 1] (p.base.pos.x, p.base.pos.y)
      cells.foldl (fun s c => s.enemyIndices.foldl (attackEnemy c) s) s

def logicPlayerPump (m : GameMap) (s : GameLogicState) : GameLogicState :=
  let p := s.player
  let s := { s with
    player := { p with
      isPumping := true
      state := .PLAYER_PUMPING
      pumpDir := p.base.dir
      pumpLength := if p.pumpLength < MAX_PUMP_LENGTH then p.pumpLength + 1 else p.pumpLength } }
  match logicCheckPumpHit m s with
  | some j => logicEnemyInflate s j
  | none => s

/-- The movement part of `logic_update_player`: a move when the cooldown allows it, the bonus
on the new cell, and `base.dir` cleared. -/
def playerMovement (m : GameMap) (s : GameLogicState) : GameLogicState × GameMap :=
  let dir := s.player.base.dir
  if dir = .DIR_NONE then (s, m)
  else
    let (s, m) :=
      if s.player.base.speedCounter ≤ 0 then
        let (s, m) := logicPlayerMove m s dir
        let s := { s with player.base.speedCounter := PLAYER_SPEED }
        let pos := s.player.base.pos
        if mapGetTile m pos.x pos.y = .TILE_BONUS then
          let score := s.score + 100
          ({ s with score := if score > MAX_SCORE then MAX_SCORE else score },
            mapSetTile m pos.x pos.y .TILE_EMPTY)
        else (s, m)
      else (s, m)
    ({ s with player.base.dir := .DIR_NONE }, m)

/-- The timers of `logic_update_player`: the move cooldown and the harpoon's display time. -/
def playerTimers (s : GameLogicState) : GameLogicState :=
  let p := s.player
  let p := if p.base.speedCounter > 0 then { p with base.speedCounter := p.base.speedCounter - 1 }
    else p
  let p :=
    if p.isAttacking then
      if p.attackTimer > 0 then { p with attackTimer := p.attackTimer - 1 }
      else
        { p with
          isAttacking := false
          state := if p.state = .PLAYER_ATTACKING then .PLAYER_IDLE else p.state }
    else p
  { s with player := p }

/-- The collisions at the end of `logic_update_player`: an enemy that is neither inflating nor
paralysed kills the player, and so does a falling rock. -/
def playerCollisions (s : GameLogicState) : GameLogicState :=
  let s := match logicCheckPlayerEnemyCollision s with
    | some i =>
      let es := (s.enemy i).state
      if es ≠ .ENEMY_INFLATING ∧ es ≠ .ENEMY_PARALYZED then logicPlayerDie s else s
    | none => s
  match logicCheckPlayerRockCollision s with
  | some r => if (s.rock r).state = .ROCK_FALLING then logicPlayerDie s else s
  | none => s

def logicUpdatePlayer (m : GameMap) (s : GameLogicState) : GameLogicState × GameMap :=
  if s.player.state = .PLAYER_DEAD then (s, m)
  else
    let action := s.player.isPumping
    let (s, m) := playerMovement m s
    let s := playerTimers s
    let s :=
      if action then logicPlayerPump m s
      else if s.player.isPumping then
        { s with player := { s.player with isPumping := false, pumpLength := 0,
                                           state := .PLAYER_IDLE } }
      else s
    (playerCollisions s, m)

end Zeos.Game
