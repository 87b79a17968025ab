import Zeos.Game.Data
import Zeos.Game.Input

/-! # Dig Dug: the game loop

`game.c`: the global game state `g_game`, the scene processors and one iteration of the loop of
`logic_thread_func`. `g_game` keeps its own scene and level beside `g_logic_state`'s scene and
round; `sync_logic_to_game_state` copies the logic's scene, score and lives after a frame of
play.

An iteration runs at the tick count `now` at which `wait_for_next_frame` stops waiting, and every
`gettime()` of the iteration reads it. The keyboard events since the last iteration reach the
handler before the iteration reads its input. Rendering is left out, and so are `g_frame_ready`
and `g_frame_ticks`, which only the render thread reads. -/

namespace Zeos.Game

def GAME_OVER_DELAY : Int := TIME_LONG
def MY_ROUND_START_DELAY : Int := TIME_SHORT
def NUM_LEVELS : Int := NUM_LEVELS_DEFINED

/-- The fields of `g_game` that `game.c` writes. -/
structure GameState where
  scene : GameScene
  score : Int
  level : Int
  lives : Int
  ticksElapsed : Int
  enemyCount : Int
  deriving DecidableEq, Repr

/-- The globals of the game. -/
structure World where
  game : GameState
  logic : GameLogicState
  map : GameMap
  input : InputState
  running : Bool
  lastFrameTime : Int

/-- The statics of the game before `game_init`; `random_int`'s seed starts at `12345`. -/
def World.zero : World where
  game := ⟨.SCENE_MENU, 0, 0, 0, 0, 0⟩
  logic := GameLogicState.zero
  map := ⟨Grid.fill .TILE_EMPTY, 12345⟩
  input := InputState.zero
  running := false
  lastFrameTime := 0

def gameInit (now : Int) : World :=
  let w := World.zero
  { w with
    input := inputReset w.input
    logic := logicInit w.logic
    game := { w.game with scene := .SCENE_MENU, score := 0, level := 1, lives := INITIAL_LIVES,
                          ticksElapsed := 0, enemyCount := 0 }
    running := true
    lastFrameTime := now }

def gameReset (w : World) : World :=
  let logic := logicInit w.logic
  { w with
    game := { w.game with score := 0, lives := INITIAL_LIVES, level := 1, ticksElapsed := 0,
                          enemyCount := 0, scene := .SCENE_MENU }
    logic := { logic with score := 0, lives := INITIAL_LIVES, round := 1 } }

/-- `game_new_level`; a level outside `1 .. data_get_num_levels()` is refused and changes
nothing. -/
def gameNewLevel (w : World) : World :=
  let level := w.game.level
  if level < 1 ∨ level > NUM_LEVELS then w
  else
    let (logic, map) := dataLoadLevel level w.logic w.map
    { w with
      map := map
      game := { w.game with enemyCount := logic.enemyCount, scene := .SCENE_ROUND_START }
      logic := { logic with scene := .SCENE_ROUND_START, roundStartTimer := MY_ROUND_START_DELAY } }

def syncLogicToGameState (w : World) : World :=
  { w with
    game := { w.game with
      score := w.logic.score
      lives := w.logic.lives
      enemyCount := w.logic.enemyCount
      ticksElapsed := w.logic.timeElapsed
      scene := if w.logic.scene ≠ w.game.scene then w.logic.scene else w.game.scene } }

/-- Both copies of the scene set at once, as the processors do. -/
def World.setScene (w : World) (sc : GameScene) : World :=
  { w with game := { w.game with scene := sc }, logic := { w.logic with scene := sc } }

/-- A new game from level 1, as the menu, the game-over and the victory screens start it. -/
def newGame (w : World) : World :=
  gameNewLevel { gameReset w with game.level := 1 }

def processMenuState (w : World) : World :=
  let (action, input) := inputIsActionPressed w.input
  let w := { w with input := input }
  if action then
    let w := newGame w
    { w with input := inputClear w.input }
  else w

/-- What `process_playing_state` reads of the keyboard for a frame of play. -/
structure PlayInput where
  devKill : Bool
  dir : Direction
  pumping : Bool
  attackJustPressed : Bool
  attackHeld : Bool

/-- A frame of play on the logic state, from the dev-kill key to `logic_update`. -/
def playFrame (now : Int) (pi : PlayInput) (s : GameLogicState) (m : GameMap) :
    GameLogicState × GameMap :=
  let s := if pi.devKill then logicDevKillEnemy s else s
  let s := if pi.dir ≠ .DIR_NONE then { s with player.base.dir := pi.dir } else s
  let s := { s with player.isPumping := pi.pumping }
  let s :=
    if pi.attackJustPressed then logicPlayerAttack m s
    else if pi.attackHeld ∧ s.player.isAttacking then
      { s with player.attackTimer := ATTACK_DISPLAY_TIME }
    else s
  logicUpdate m now s

/-- The keys `process_playing_state` reads after the pause key, in its order. -/
def readPlayInput (input : InputState) : PlayInput × InputState :=
  let (devKill, input) := inputIsDevKillPressed input
  let (dir, input) := inputGetDirection input
  let (pumping, input) := inputIsActionPressed input
  let (attackJustPressed, input) := inputIsAttackPressed input
  (⟨devKill, dir, pumping, attackJustPressed, input.attackHeld⟩, input)

def processPlayingState (now : Int) (w : World) : World :=
  let (pause, input) := inputIsPausePressed w.input
  let w := { w with input := input }
  if pause then w.setScene .SCENE_PAUSED
  else
    let (pi, input) := readPlayInput w.input
    let (logic, map) := playFrame now pi w.logic w.map
    let w := syncLogicToGameState { w with input := input, logic := logic, map := map }
    if w.logic.lives ≤ 0 then
      let w := w.setScene .SCENE_GAME_OVER
      { w with logic.roundStartTimer := GAME_OVER_DELAY }
    else w

def processPausedState (w : World) : World :=
  let (pause, input) := inputIsPausePressed w.input
  let w := { w with input := input }
  if pause then w.setScene .SCENE_PLAYING else w

def processLevelClearState (w : World) : World :=
  let w := { w with logic.roundStartTimer := w.logic.roundStartTimer - 1 }
  if w.logic.roundStartTimer ≤ 0 then
    let w := { w with game.level := w.game.level + 1, logic.round := w.logic.round + 1 }
    if w.game.level > MAX_ROUNDS then w.setScene .SCENE_VICTORY else gameNewLevel w
  else w

def processGameOverState (w : World) : World :=
  let w := { w with logic.roundStartTimer := w.logic.roundStartTimer - 1 }
  if w.logic.roundStartTimer ≤ (0 : Int) then
    let (action, input) := inputIsActionPressed w.input
    let w := { w with input := input }
    if action then newGame w else w
  else w

def processVictoryState (w : World) : World :=
  let (action, input) := inputIsActionPressed w.input
  let w := { w with input := input }
  if action then newGame w
  else if w.input.quitPressed then
    ({ w with input := inputClearQuit w.input }).setScene .SCENE_MENU
  else if w.input.lastKey = KEY_C then w.setScene .SCENE_CREDITS
  else w

def processCreditsState (w : World) : World :=
  if w.input.quitPressed then
    ({ w with input := inputClearQuit w.input }).setScene .SCENE_VICTORY
  else w

/-- The `SCENE_ROUND_START` case of the loop: the start delay, then play. -/
def processRoundStartState (w : World) : World :=
  let w := { w with logic.roundStartTimer := w.logic.roundStartTimer - 1 }
  if w.logic.roundStartTimer ≤ 0 then
    let w := w.setScene .SCENE_PLAYING
    { w with input := inputClear w.input }
  else w

/-- The scene dispatch of the loop. -/
def processScene (now : Int) (w : World) : World :=
  match w.game.scene with
  | .SCENE_MENU => processMenuState w
  | .SCENE_PLAYING => processPlayingState now w
  | .SCENE_PAUSED => processPausedState w
  | .SCENE_ROUND_CLEAR => processLevelClearState w
  | .SCENE_GAME_OVER => processGameOverState w
  | .SCENE_ROUND_START => processRoundStartState w
  | .SCENE_VICTORY => processVictoryState w
  | .SCENE_CREDITS => processCreditsState w

/-- `wait_for_next_frame` stops at a tick count at least `TICKS_PER_FRAME` after the last
frame. -/
def frameDue (w : World) (now : Int) : Bool :=
  now - w.lastFrameTime ≥ max TICKS_PER_FRAME MIN_TICKS_PER_FRAME

/-- One iteration of the loop of `logic_thread_func`, after the keyboard events `keys`, at the
tick count `now`; `none` when the loop has ended or is still waiting at `now`. Escape in the
menu ends the loop. -/
def logicThreadIteration (w : World) (keys : List (Nat × Bool)) (now : Int) : Option World :=
  if !w.running || !frameDue w now then none
  else
    let input := keys.foldl (fun i k => inputKeyboardHandler i k.1 k.2) w.input
    let w := { w with lastFrameTime := now, input := inputUpdate input }
    if w.input.quitPressed ∧ w.game.scene = .SCENE_MENU then some { w with running := false }
    else
      let w := processScene now w
      some { w with game.ticksElapsed := w.game.ticksElapsed + 1 }

/-- The worlds a run of the game reaches from `game_init`. -/
inductive Reachable : World → Prop
  | init (now : Int) : Reachable (gameInit now)
  | step {w w' : World} (keys : List (Nat × Bool)) (now : Int) :
      Reachable w → logicThreadIteration w keys now = some w' → Reachable w'

end Zeos.Game
