import Zeos.Game.Loop

/-! # Dig Dug: frames of play

What a frame of `process_playing_state` does to the logic state and the map, whatever it reads
of the keyboard: the pause key, or the dev-kill key, the movement key, the pump and the harpoon
followed by `logic_update`, and the end of the game when no life is left. `PlayReachable`
collects the states that frames of play reach from a round that `data_load_level` or
`logic_start_round` has set up, at a round the program can pass: `game_new_level` passes a level
from 1 on and `logic_transition_to_next_round` the round after the current one. -/

namespace Zeos.Game

/-- The logic state and the map after one frame of `process_playing_state` that reads the
pause key `pause` and the keys `pi`. -/
def playingLogic (now : Int) (pause : Bool) (pi : PlayInput) (s : GameLogicState)
    (m : GameMap) : GameLogicState × GameMap :=
  if pause then ({ s with scene := .SCENE_PAUSED }, m)
  else
    let (s, m) := playFrame now pi s m
    (if s.lives ≤ 0 then { s with scene := .SCENE_GAME_OVER, roundStartTimer := GAME_OVER_DELAY }
      else s, m)

/-- The states that frames of play reach from the start of a round. -/
inductive PlayReachable : GameLogicState × GameMap → Prop
  | load (round : Int) (s : GameLogicState) (m : GameMap) (h : 1 ≤ round) :
      PlayReachable (dataLoadLevel round s m)
  | start (round : Int) (s : GameLogicState) (m : GameMap) (h : 1 ≤ round) :
      PlayReachable (logicStartRound s m round)
  | frame (now : Int) (pause : Bool) (pi : PlayInput) {p : GameLogicState × GameMap} :
      PlayReachable p → PlayReachable (playingLogic now pause pi p.1 p.2)

/-- Frames of play one after another, each at its tick count and with its keys, none paused. -/
def playRun (l : List (Int × PlayInput)) (p : GameLogicState × GameMap) :
    GameLogicState × GameMap :=
  l.foldl (fun p a => playingLogic a.1 false a.2 p.1 p.2) p

theorem PlayReachable.run :
    ∀ (l : List (Int × PlayInput)) {p : GameLogicState × GameMap},
      PlayReachable p → PlayReachable (playRun l p)
  | [], _, h => h
  | a :: l, _, h => PlayReachable.run l (.frame a.1 false a.2 h)

end Zeos.Game
