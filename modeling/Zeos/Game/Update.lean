import Zeos.Game.Player
import Zeos.Game.Enemies
import Zeos.Game.Rocks

/-! # Dig Dug: rounds and the frame update

`logic_init`, `logic_start_round` and `logic_update` with the end-of-frame checks
`logic_check_round_complete` and `logic_check_game_over`, the round transition and the
developer's kill key `logic_dev_kill_enemy`. `logic_start_round` rebuilds `g_map`, so it takes
and answers the map with the state. -/

namespace Zeos.Game

def logicInit (s : GameLogicState) : GameLogicState :=
  { s with
    scene := .SCENE_MENU
    score := 0
    round := 1
    lives := INITIAL_LIVES
    timeElapsed := 0
    roundStartTimer := 0
    enemiesClearedTime := 0
    enemiesRemaining := 0
    enemyCount := 0
    rockCount := 0
    player := logicPlayerInit PLAYER_START_X PLAYER_START_Y
    enemies := s.enemies.map fun e => { e with base.active := false }
    rocks := s.rocks.map fun r => { r with base.active := false } }

/-- The enemy `logic_start_round` places at index `i`: Pookas at even indices, Fygars at odd
ones. -/
def startRoundEnemy (s : GameLogicState) (i : Fin MAX_ENEMIES) : GameLogicState :=
  let ex := ENEMY_SPAWN_BASE_X + ((i : Int) * ENEMY_SPAWN_OFFSET_X).tmod ENEMY_SPAWN_AREA_X
  let ey := ENEMY_SPAWN_BASE_Y + ((i : Int) * ENEMY_SPAWN_OFFSET_Y).tmod ENEMY_SPAWN_AREA_Y
  let type := if (i : Nat) % 2 = 0 then EntityType.ENTITY_POOKA else .ENTITY_FYGAR
  s.setEnemy i (logicEnemyInit (s.enemy i) ex ey type)

def logicStartRound (s : GameLogicState) (m : GameMap) (round : Int) :
    GameLogicState × GameMap :=
  let s := { s with
    round := round
    scene := .SCENE_ROUND_START
    roundStartTimer := ROUND_START_DELAY
    enemiesClearedTime := 0
    player := logicPlayerInit PLAYER_START_X PLAYER_START_Y }
  let m := mapInit m round
  let numEnemies := min (2 + round.tdiv 2) MAX_ENEMIES
  let s := { s with enemyCount := numEnemies, enemiesRemaining := numEnemies }
  let s := s.enemyIndices.foldl startRoundEnemy s
  let s := { s with rockCount := min 4 MAX_ROCKS }
  let s := s.rockIndices.foldl (fun s i =>
    s.setRock i (logicRockInit (ROCK_SPAWN_BASE_X + (i : Int) * ROCK_SPAWN_OFFSET_X)
      (ROCK_SPAWN_BASE_Y + (i : Int) * ROCK_SPAWN_OFFSET_Y))) s
  (s, m)

/-- `logic_check_round_complete`: three seconds after the last enemy died the round is over,
with victory after the last round. -/
def logicCheckRoundComplete (now : Int) (s : GameLogicState) : GameLogicState :=
  if s.enemiesRemaining ≤ 0 then
    let s := if s.enemiesClearedTime = 0 then
      { s with enemiesClearedTime := now + 3 * ONE_SECOND } else s
    if s.enemiesClearedTime - now ≤ 0 then
      if s.round ≥ MAX_ROUNDS then { s with scene := .SCENE_VICTORY }
      else { s with scene := .SCENE_ROUND_CLEAR, roundStartTimer := LEVEL_CLEAR_DELAY }
    else s
  else s

def logicCheckGameOver (s : GameLogicState) : GameLogicState :=
  if s.lives ≤ 0 then { s with scene := .SCENE_GAME_OVER } else s

def logicTransitionToNextRound (s : GameLogicState) (m : GameMap) :
    GameLogicState × GameMap :=
  let s := { s with round := s.round + 1 }
  if s.round > MAX_ROUNDS then ({ s with scene := .SCENE_GAME_OVER }, m)
  else logicStartRound s m s.round

/-- The gameplay of one frame, once the respawn timer is out: the player, the enemies, the
rocks and the end-of-frame checks. -/
def logicPlayFrame (m : GameMap) (now : Int) (s : GameLogicState) : GameLogicState × GameMap :=
  let s := { s with timeElapsed := s.timeElapsed + 1 }
  let (s, m) := logicUpdatePlayer m s
  let s := logicUpdateEnemies m now s
  let s := logicUpdateRocks m s
  (logicCheckGameOver (logicCheckRoundComplete now s), m)

def logicUpdate (m : GameMap) (now : Int) (s : GameLogicState) : GameLogicState × GameMap :=
  match s.scene with
  | .SCENE_PLAYING =>
    -- a respawn timer holds the game until it runs out
    if s.roundStartTimer > 0 then
      let s := { s with roundStartTimer := s.roundStartTimer - 1 }
      if s.roundStartTimer = 0 ∧ s.player.state = .PLAYER_DEAD ∧ s.lives > 0 then
        (logicPlayerRespawn s, m)
      else (s, m)
    else logicPlayFrame m now s
  | .SCENE_ROUND_CLEAR =>
    if s.roundStartTimer > 0 then
      let s := { s with roundStartTimer := s.roundStartTimer - 1 }
      if s.roundStartTimer = 0 then logicTransitionToNextRound s m else (s, m)
    else (s, m)
  | .SCENE_ROUND_START =>
    if s.roundStartTimer > 0 then
      let s := { s with roundStartTimer := s.roundStartTimer - 1 }
      if s.roundStartTimer = 0 then ({ s with scene := .SCENE_PLAYING }, m) else (s, m)
    else (s, m)
  | _ => (s, m)

/-- `logic_dev_kill_enemy`: the first live enemy dies; the result it answers is never read. -/
def logicDevKillEnemy (s : GameLogicState) : GameLogicState :=
  match s.enemyIndices.find? fun i => (s.enemy i).live with
  | some i => killEnemy s i (logicCalculateEnemyPoints (s.enemy i).base.pos.y)
  | none => s

end Zeos.Game
