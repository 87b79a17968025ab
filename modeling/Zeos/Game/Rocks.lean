import Zeos.Game.Entities

/-! # Dig Dug: the rocks

`logic_update_rocks` and what it calls. A rock with a cell below it that is not solid wobbles
for `ROCK_WOBBLE_TICKS` frames and then falls one row a frame; every row it falls, the player
and every live enemy on its cell or the one below are crushed. On solid ground it blinks
`ROCK_BLINK_COUNT` times and leaves the game. -/

namespace Zeos.Game

/-- The player on the cell `(rx, ry)` is crushed by rock `i`. -/
def crushPlayer (i : Fin MAX_ROCKS) (rx ry : Int) (s : GameLogicState) : GameLogicState :=
  if s.player.base.pos.x = rx ∧ s.player.base.pos.y = ry then
    (logicPlayerDie s).setRock i { s.rock i with hasCrushed := true }
  else s

/-- Enemy `j`, if it is live on column `rx` at row `ry` or the row below, is crushed by rock
`i`, for twice the points. -/
def crushEnemy (i : Fin MAX_ROCKS) (rx ry : Int) (s : GameLogicState) (j : Fin MAX_ENEMIES) :
    GameLogicState :=
  let e := s.enemy j
  if e.live ∧ e.base.pos.x = rx ∧ (e.base.pos.y = ry ∨ e.base.pos.y = ry + 1) then
    (killEnemy s j (logicCalculateEnemyPoints e.base.pos.y * ROCK_KILL_MULTIPLIER)).setRock i
      { s.rock i with hasCrushed := true }
  else s

/-- `logic_check_rock_crush` for rock `i`: the player on the rock's cell or the one below,
then every enemy there. The count of crushes it answers is never read. -/
def logicCheckRockCrush (s : GameLogicState) (i : Fin MAX_ROCKS) : GameLogicState :=
  let rx := (s.rock i).base.pos.x
  let ry := (s.rock i).base.pos.y
  let s := crushPlayer i rx (ry + 1) (crushPlayer i rx ry s)
  s.enemyIndices.foldl (crushEnemy i rx ry) s

def logicRockCheckFall (m : GameMap) (r : Rock) : Rock :=
  let belowX := r.base.pos.x
  let belowY := r.base.pos.y + 1
  if mapIsValidPosition belowX belowY ∧ !mapIsSolid m belowX belowY then
    { r with state := .ROCK_WOBBLING, wobbleTimer := ROCK_WOBBLE_TICKS }
  else r

def logicRockFall (m : GameMap) (s : GameLogicState) (i : Fin MAX_ROCKS) : GameLogicState :=
  let r := s.rock i
  let newY := r.base.pos.y + 1
  if !mapIsValidPosition r.base.pos.x newY || mapIsSolid m r.base.pos.x newY then
    s.setRock i { r with state := .ROCK_BLINKING, blinkCount := ROCK_BLINK_COUNT,
                         blinkTimer := ROCK_BLINK_DURATION }
  else
    let s := logicCheckRockCrush s i
    s.setRock i { s.rock i with base.pos.y := newY }

/-- The blinking of a landed rock. -/
def rockBlink (r : Rock) : Rock :=
  let r := { r with blinkTimer := r.blinkTimer - 1 }
  if r.blinkTimer ≤ 0 then
    let r := { r with blinkCount := r.blinkCount - 1 }
    if r.blinkCount ≤ 0 then { r with state := .ROCK_LANDED, base.active := false }
    else { r with blinkTimer := ROCK_BLINK_DURATION }
  else r

/-- One round of the loop of `logic_update_rocks`. -/
def updateRock (m : GameMap) (s : GameLogicState) (i : Fin MAX_ROCKS) : GameLogicState :=
  let r := s.rock i
  if !r.base.active then s
  else match r.state with
    | .ROCK_STABLE => s.setRock i (logicRockCheckFall m r)
    | .ROCK_WOBBLING =>
      let r := { r with wobbleTimer := r.wobbleTimer - 1 }
      s.setRock i (if r.wobbleTimer ≤ 0 then { r with state := .ROCK_FALLING } else r)
    | .ROCK_FALLING => logicRockFall m s i
    | .ROCK_BLINKING => s.setRock i (rockBlink r)
    | .ROCK_LANDED => s.setRock i { r with base.active := false }

def logicUpdateRocks (m : GameMap) (s : GameLogicState) : GameLogicState :=
  s.rockIndices.foldl (updateRock m) s

end Zeos.Game
