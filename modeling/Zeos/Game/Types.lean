import Mathlib

/-! # Dig Dug: the game's data

The types of `include/game_types.h`, the logic state `GameLogicState` of `include/game_logic.h`
and the constants of `game_config.h`, `game_logic.h` and `times.h` that the game logic reads.

Every `int` of the source is an integer: no counter of the game comes near `2 ^ 31` (the score is
capped at `MAX_SCORE`, the timers count down from a few hundred ticks). The `int` flags
(`active`, `is_pumping`, ...) are booleans. The arrays `enemies[MAX_ENEMIES]` and
`rocks[MAX_ROCKS]` are vectors; an entity pointer of the source is an index into them. The
statics of the source start zeroed, so every enumeration starts at its first constant. -/

namespace Zeos.Game

/-! ### Constants -/

/-- `TICKS_PER_SECOND` is `(int)(BASE_TICKS_PER_SECOND * TIME_ADJUSTMENT)`, `(int)(1000 * 0.32)`. -/
def TICKS_PER_SECOND : Int := 320
def ONE_SECOND : Int := TICKS_PER_SECOND
def HALF_SECOND : Int := TICKS_PER_SECOND / 2
def QUARTER_SECOND : Int := TICKS_PER_SECOND / 4
def EIGHTH_SECOND : Int := TICKS_PER_SECOND / 8
def SIXTEENTH_SECOND : Int := TICKS_PER_SECOND / 16
def THIRTY_SECOND : Int := TICKS_PER_SECOND / 32
/-- `MS_TO_TICKS(100)` and `MS_TO_TICKS(500)`, `(int)(ms * 0.32)`. -/
def TIME_SHORT : Int := 32
def TIME_LONG : Int := 160
def TICKS_PER_FRAME : Int := 1000 / 120
def MIN_TICKS_PER_FRAME : Int := 1
def ATTACK_DISPLAY_TIME : Int := SIXTEENTH_SECOND

def SCREEN_WIDTH : Nat := 80
def MAP_WIDTH : Nat := SCREEN_WIDTH
/-- `MAP_HEIGHT` is `ROW_BORDER + 1`. -/
def MAP_HEIGHT : Nat := 24
def ROW_SKY_START : Int := 1
def ROW_SKY_END : Int := 2
def ROW_GROUND_START : Int := 3
def ROW_BORDER : Int := 23
def LAYER_1_START : Int := 3
def LAYER_1_END : Int := 7
def LAYER_2_START : Int := 8
def LAYER_2_END : Int := 12
def LAYER_3_START : Int := 13
def LAYER_3_END : Int := 17
def LAYER_4_START : Int := 18
def LAYER_4_END : Int := 22

def MAX_ENEMIES : Nat := 8
def MAX_ROCKS : Nat := 10
def INITIAL_LIVES : Int := 5
def MAX_ROUNDS : Int := 5
def MAX_SCORE : Int := 99999

def PLAYER_SPEED : Int := 6
def POOKA_BASE_SPEED : Int := 16
def FYGAR_BASE_SPEED : Int := 12
def FYGAR_FIRE_RANGE : Int := 2
def FYGAR_FIRE_COOLDOWN : Int := ONE_SECOND * 2
def FYGAR_FIRE_DURATION : Int := QUARTER_SECOND
def INFLATE_LEVELS : Int := 4
def ROUND_START_DELAY : Int := HALF_SECOND
def ATTACK_RANGE_V : Int := 2
def ATTACK_RANGE_H : Int := 3

def GHOST_MODE_THRESHOLD : Int := 12 * TICKS_PER_SECOND
def RESPAWN_DELAY : Int := EIGHTH_SECOND
def LEVEL_CLEAR_DELAY : Int := QUARTER_SECOND
def ROCK_WOBBLE_TICKS : Int := QUARTER_SECOND
def ROCK_BLINK_DURATION : Int := THIRTY_SECOND
def ROCK_BLINK_COUNT : Int := 3
def POINTS_LAYER1 : Int := 200
def POINTS_LAYER2 : Int := 300
def POINTS_LAYER3 : Int := 400
def POINTS_LAYER4 : Int := 500
def ROCK_KILL_MULTIPLIER : Int := 2
def PLAYER_START_X : Int := 40
def PLAYER_START_Y : Int := 2
def MAX_PUMP_LENGTH : Int := 4
def ENEMY_SPAWN_BASE_X : Int := 60
def ENEMY_SPAWN_BASE_Y : Int := 8
def ENEMY_SPAWN_OFFSET_X : Int := 5
def ENEMY_SPAWN_OFFSET_Y : Int := 4
def ENEMY_SPAWN_AREA_X : Int := 15
def ENEMY_SPAWN_AREA_Y : Int := 12
def ROCK_SPAWN_BASE_X : Int := 20
def ROCK_SPAWN_BASE_Y : Int := 6
def ROCK_SPAWN_OFFSET_X : Int := 15
def ROCK_SPAWN_OFFSET_Y : Int := 3

/-! ### Enumerations -/

inductive Direction
  | DIR_NONE | DIR_UP | DIR_DOWN | DIR_LEFT | DIR_RIGHT
  deriving DecidableEq, Repr

inductive GameScene
  | SCENE_MENU | SCENE_PLAYING | SCENE_PAUSED | SCENE_GAME_OVER | SCENE_ROUND_CLEAR
  | SCENE_ROUND_START | SCENE_VICTORY | SCENE_CREDITS
  deriving DecidableEq, Repr

inductive TileType
  | TILE_EMPTY | TILE_DIRT | TILE_SKY | TILE_WALL | TILE_GEM | TILE_BONUS | TILE_BORDER
  deriving DecidableEq, Repr

inductive EntityType
  | ENTITY_NONE | ENTITY_PLAYER | ENTITY_POOKA | ENTITY_FYGAR | ENTITY_ROCK | ENTITY_ENEMY
  deriving DecidableEq, Repr, Inhabited

inductive PlayerState
  | PLAYER_IDLE | PLAYER_MOVING | PLAYER_DIGGING | PLAYER_PUMPING | PLAYER_ATTACKING | PLAYER_DEAD
  deriving DecidableEq, Repr

inductive EnemyState
  | ENEMY_NORMAL | ENEMY_GHOST | ENEMY_INFLATING | ENEMY_PARALYZED | ENEMY_DEAD
  deriving DecidableEq, Repr

inductive RockState
  | ROCK_STABLE | ROCK_WOBBLING | ROCK_FALLING | ROCK_LANDED | ROCK_BLINKING
  deriving DecidableEq, Repr

/-- The cell one step from `(x, y)` in direction `d`, as every `switch (dir)` of the source
computes it; `DIR_NONE` stays in place. -/
def Direction.step : Direction → Int × Int → Int × Int
  | .DIR_UP, (x, y) => (x, y - 1)
  | .DIR_DOWN, (x, y) => (x, y + 1)
  | .DIR_LEFT, (x, y) => (x - 1, y)
  | .DIR_RIGHT, (x, y) => (x + 1, y)
  | .DIR_NONE, p => p

/-! ### Entities -/

structure Position where
  x : Int
  y : Int
  deriving DecidableEq, Repr

structure Entity where
  pos : Position
  dir : Direction
  type : EntityType
  active : Bool
  speedCounter : Int
  speedLimit : Int
  deriving DecidableEq, Repr

/-- The fields of `Player`; `pump_dir` is the direction `logic_check_pump_hit` and `render_pump`
follow. -/
structure Player where
  base : Entity
  state : PlayerState
  facingDir : Direction
  isPumping : Bool
  pumpLength : Int
  pumpDir : Direction
  isAttacking : Bool
  attackTimer : Int
  deriving DecidableEq, Repr

/-- The fields of `Enemy` but `fire_duration`, which only `logic_enemy_init` writes. -/
structure Enemy where
  base : Entity
  state : EnemyState
  inflateLevel : Int
  ghostTimer : Int
  fireStartTime : Int
  fireEndTime : Int
  fireActive : Bool
  paralyzedTimer : Int
  blinkCount : Int
  hasLeftTunnel : Bool
  deriving DecidableEq, Repr

structure Rock where
  base : Entity
  state : RockState
  wobbleTimer : Int
  hasCrushed : Bool
  blinkTimer : Int
  blinkCount : Int
  deriving DecidableEq, Repr

/-- `GameLogicState` but `running`, which only `logic_init` writes. -/
structure GameLogicState where
  scene : GameScene
  score : Int
  round : Int
  lives : Int
  enemiesRemaining : Int
  timeElapsed : Int
  roundStartTimer : Int
  enemiesClearedTime : Int
  player : Player
  enemies : Vector Enemy MAX_ENEMIES
  enemyCount : Int
  rocks : Vector Rock MAX_ROCKS
  rockCount : Int
  deriving DecidableEq, Repr

/-! ### Zeroed statics -/

def Entity.zero : Entity :=
  ⟨⟨0, 0⟩, .DIR_NONE, .ENTITY_NONE, false, 0, 0⟩

def Player.zero : Player :=
  ⟨Entity.zero, .PLAYER_IDLE, .DIR_NONE, false, 0, .DIR_NONE, false, 0⟩

def Enemy.zero : Enemy :=
  ⟨Entity.zero, .ENEMY_NORMAL, 0, 0, 0, 0, false, 0, 0, false⟩

def Rock.zero : Rock :=
  ⟨Entity.zero, .ROCK_STABLE, 0, false, 0, 0⟩

/-- The static `g_logic_state` before `logic_init`. -/
def GameLogicState.zero : GameLogicState where
  scene := .SCENE_MENU
  score := 0
  round := 0
  lives := 0
  enemiesRemaining := 0
  timeElapsed := 0
  roundStartTimer := 0
  enemiesClearedTime := 0
  player := Player.zero
  enemies := Vector.replicate MAX_ENEMIES Enemy.zero
  enemyCount := 0
  rocks := Vector.replicate MAX_ROCKS Rock.zero
  rockCount := 0

end Zeos.Game
