import Zeos.Game.Types

/-! # Dig Dug: keyboard input

`game_input.c`: the state `g_input` that the keyboard handler fills and the frame's queries
read, most of them consuming the flag they answer. A movement key moves the player once when it
is pressed and, once held for `HOLD_THRESHOLD` frames, on every frame. A key is its scancode.
`InputState.direction` and `any_key_pressed` are left out: the first is only ever cleared, and no
modelled function reads the second. -/

namespace Zeos.Game

def KEY_W : Nat := 0x11
def KEY_A : Nat := 0x1E
def KEY_S : Nat := 0x1F
def KEY_D : Nat := 0x20
def KEY_ESC : Nat := 0x01
def KEY_Q : Nat := 0x10
def KEY_ENTER : Nat := 0x1C
def KEY_SPACE : Nat := 0x39
def KEY_P : Nat := 0x19
def KEY_K : Nat := 0x25
def KEY_C : Nat := 0x2E
def KEY_ARROW_UP : Nat := 0x48
def KEY_ARROW_DOWN : Nat := 0x50
def KEY_ARROW_LEFT : Nat := 0x4B
def KEY_ARROW_RIGHT : Nat := 0x4D

def HOLD_THRESHOLD : Int := EIGHTH_SECOND

structure InputState where
  heldDir : Direction
  moveJustPressed : Bool
  holdTime : Int
  actionPressed : Bool
  attackPressed : Bool
  attackHeld : Bool
  pausePressed : Bool
  quitPressed : Bool
  devKillPressed : Bool
  lastKey : Nat
  moveProcessed : Bool
  deriving DecidableEq, Repr

/-- The static `g_input` before `input_init`. -/
def InputState.zero : InputState :=
  ⟨.DIR_NONE, false, 0, false, false, false, false, false, false, 0, false⟩

/-- `input_reset` keeps `dev_kill_pressed`. -/
def inputReset (i : InputState) : InputState :=
  { InputState.zero with devKillPressed := i.devKillPressed }

/-- `input_clear` keeps `quit_pressed`, `dev_kill_pressed` and `last_key`. -/
def inputClear (i : InputState) : InputState :=
  { InputState.zero with quitPressed := i.quitPressed, devKillPressed := i.devKillPressed,
                         lastKey := i.lastKey }

def inputClearQuit (i : InputState) : InputState := { i with quitPressed := false }

/-- `input_update`: a held movement key counts the frames it is held. -/
def inputUpdate (i : InputState) : InputState :=
  if i.heldDir ≠ .DIR_NONE then { i with holdTime := i.holdTime + 1 } else i

/-- The direction of a movement key. -/
def keyDirection (key : Nat) : Direction :=
  if key = KEY_W ∨ key = KEY_ARROW_UP then .DIR_UP
  else if key = KEY_S ∨ key = KEY_ARROW_DOWN then .DIR_DOWN
  else if key = KEY_A ∨ key = KEY_ARROW_LEFT then .DIR_LEFT
  else if key = KEY_D ∨ key = KEY_ARROW_RIGHT then .DIR_RIGHT
  else .DIR_NONE

def inputKeyboardHandler (i : InputState) (key : Nat) (pressed : Bool) : InputState :=
  let i := if pressed then { i with lastKey := key } else i
  let keyDir := keyDirection key
  if keyDir ≠ .DIR_NONE then
    if pressed then
      { i with heldDir := keyDir, moveJustPressed := true, holdTime := 0, moveProcessed := false }
    else if i.heldDir = keyDir then
      { i with heldDir := .DIR_NONE, holdTime := 0, moveJustPressed := false }
    else i
  else if key = KEY_SPACE then
    if pressed then { i with attackHeld := true, attackPressed := true }
    else { i with attackHeld := false }
  else if !pressed then i
  else if key = KEY_ENTER then { i with actionPressed := true }
  else if key = KEY_P then { i with pausePressed := true }
  else if key = KEY_ESC ∨ key = KEY_Q then { i with quitPressed := true }
  else if key = KEY_K then { i with devKillPressed := true }
  else i

/-- `input_get_direction`: one move on a fresh press, then a move every frame once the key has
been held long enough. -/
def inputGetDirection (i : InputState) : Direction × InputState :=
  if i.heldDir = .DIR_NONE then (.DIR_NONE, i)
  else if i.moveJustPressed ∧ !i.moveProcessed then
    (i.heldDir, { i with moveProcessed := true, moveJustPressed := false })
  else if i.holdTime ≥ HOLD_THRESHOLD then (i.heldDir, i)
  else (.DIR_NONE, i)

def inputIsActionPressed (i : InputState) : Bool × InputState :=
  (i.actionPressed, { i with actionPressed := false })

def inputIsAttackPressed (i : InputState) : Bool × InputState :=
  (i.attackPressed, { i with attackPressed := false })

def inputIsPausePressed (i : InputState) : Bool × InputState :=
  (i.pausePressed, { i with pausePressed := false })

def inputIsDevKillPressed (i : InputState) : Bool × InputState :=
  (i.devKillPressed, { i with devKillPressed := false })

/-! ### The held direction -/

/-- A press of a movement key holds its direction, whatever was held before. -/
theorem inputKeyboardHandler_press (i : InputState) {key : Nat}
    (h : keyDirection key ≠ .DIR_NONE) :
    (inputKeyboardHandler i key true).heldDir = keyDirection key := by
  simp [inputKeyboardHandler, h]

/-- A release of a movement key whose direction is held clears it, whatever other keys are still
down. -/
theorem inputKeyboardHandler_release {i : InputState} {key : Nat}
    (h : keyDirection key ≠ .DIR_NONE) (hh : i.heldDir = keyDirection key) :
    (inputKeyboardHandler i key false).heldDir = .DIR_NONE := by
  simp [inputKeyboardHandler, h, hh]

/-- With no direction held, a frame's `input_update` then `input_get_direction` give none. -/
theorem inputGetDirection_update_none {i : InputState} (h : i.heldDir = .DIR_NONE) :
    (inputGetDirection (inputUpdate i)).1 = .DIR_NONE := by
  simp [inputUpdate, inputGetDirection, h]

theorem held_direction_forgets_keys (i : InputState) {a b : Nat}
    (ha : keyDirection a ≠ .DIR_NONE) (hb : keyDirection b ≠ .DIR_NONE) :
    (inputKeyboardHandler (inputKeyboardHandler (inputKeyboardHandler i a true) b true) b
        false).heldDir = .DIR_NONE ∧
      (inputGetDirection (inputUpdate
        (inputKeyboardHandler (inputKeyboardHandler i a true) a false))).1 = .DIR_NONE := by
  -- `a` still down after `b` is let go; `a` pressed and let go between two frames
  refine ⟨inputKeyboardHandler_release hb (inputKeyboardHandler_press _ hb), ?_⟩
  exact inputGetDirection_update_none
    (inputKeyboardHandler_release ha (inputKeyboardHandler_press _ ha))

theorem held_direction_forgets_keys_w_d :
    keyDirection KEY_W ≠ .DIR_NONE ∧ keyDirection KEY_D ≠ .DIR_NONE ∧
      (inputKeyboardHandler (inputKeyboardHandler (inputKeyboardHandler InputState.zero KEY_W true)
        KEY_D true) KEY_D false).heldDir = .DIR_NONE ∧
      (inputGetDirection (inputUpdate
        (inputKeyboardHandler (inputKeyboardHandler InputState.zero KEY_W true) KEY_W false))).1 =
        .DIR_NONE :=
  ⟨by decide, by decide, held_direction_forgets_keys InputState.zero (by decide) (by decide)⟩

end Zeos.Game
