import Zeos.Game.Rounds

/-! # Dig Dug: the scene state machine

`g_game` and `g_logic_state` each keep a scene and a round counter, written in different places:
the scene processors of `game.c` set both scenes, `logic_update` and its end-of-frame checks set
the logic's, and `sync_logic_to_game_state` copies it after a frame of play. Along every run of
the loop of `logic_thread_func` from `game_init` (`Reachable`) the two copies agree, a round that
is set up, played, paused or cleared is one of the `MAX_ROUNDS` rounds, the victory comes only
once the last round has no enemy left, and the end of the game only with no life left.
`SceneInv` states this together with what a frame of play needs, the enemies' invariant. -/

namespace Zeos.Game

open GameLogicState

/-- The facts about the two copies, on `g_game`'s fields and `g_logic_state`. -/
structure SceneInv (g : GameState) (l : GameLogicState) : Prop where
  scene_eq : g.scene = l.scene
  level_eq : g.level = l.round
  playing : l.scene = .SCENE_ROUND_START ∨ l.scene = .SCENE_PLAYING ∨ l.scene = .SCENE_PAUSED →
    1 ≤ g.level ∧ g.level ≤ MAX_ROUNDS ∧ GameInv l
  clear : l.scene = .SCENE_ROUND_CLEAR → 1 ≤ g.level ∧ g.level < MAX_ROUNDS
  victory : l.scene = .SCENE_VICTORY ∨ l.scene = .SCENE_CREDITS →
    g.level = MAX_ROUNDS ∧ liveCount l = 0
  gameOver : l.scene = .SCENE_GAME_OVER → l.lives ≤ 0 ∧ g.lives = l.lives

theorem gameInit_inv (now : Int) : SceneInv (gameInit now).game (gameInit now).logic where
  scene_eq := rfl
  level_eq := rfl
  playing := by rintro (h | h | h) <;> cases h
  clear := by rintro ⟨⟩
  victory := by rintro (h | h) <;> cases h
  gameOver := by rintro ⟨⟩

/-- `game_new_level` at a level it accepts sets both copies up for the round's start. -/
theorem gameNewLevel_inv {w : World} (h1 : 1 ≤ w.game.level) (h5 : w.game.level ≤ MAX_ROUNDS) :
    SceneInv (gameNewLevel w).game (gameNewLevel w).logic := by
  have hr := dataLoadLevel_inv w.game.level w.logic w.map h1
  unfold gameNewLevel
  rw [if_neg (by unfold NUM_LEVELS NUM_LEVELS_DEFINED; unfold MAX_ROUNDS at h5; omega)]
  dsimp only
  generalize dataLoadLevel w.game.level w.logic w.map = q at hr
  refine ⟨rfl, hr.1.symm, fun _ => ⟨h1, h5, hr.2.congr rfl rfl rfl rfl⟩, ?_, ?_, ?_⟩
  · rintro ⟨⟩
  · rintro (h | h) <;> cases h
  · rintro ⟨⟩

theorem newGame_inv (w : World) : SceneInv (newGame w).game (newGame w).logic :=
  gameNewLevel_inv (by show (1 : Int) ≤ 1; omega) (by show (1 : Int) ≤ MAX_ROUNDS; decide)

/-! ### The scene processors -/

theorem processMenuState_inv {w : World} (h : SceneInv w.game w.logic) :
    SceneInv (processMenuState w).game (processMenuState w).logic := by
  unfold processMenuState
  dsimp only
  split_ifs
  · exact newGame_inv _
  · exact h

/-- A change of both scenes to one that keeps the level's and the logic's facts. -/
theorem SceneInv.setScene {g : GameState} {l : GameLogicState} (sc : GameScene) (h : SceneInv g l)
    (hp : sc = .SCENE_ROUND_START ∨ sc = .SCENE_PLAYING ∨ sc = .SCENE_PAUSED →
      1 ≤ g.level ∧ g.level ≤ MAX_ROUNDS ∧ GameInv l)
    (hv : sc = .SCENE_VICTORY ∨ sc = .SCENE_CREDITS → g.level = MAX_ROUNDS ∧ liveCount l = 0)
    (hc : sc ≠ .SCENE_ROUND_CLEAR) (ho : sc ≠ .SCENE_GAME_OVER) :
    SceneInv { g with scene := sc } { l with scene := sc } where
  scene_eq := rfl
  level_eq := h.level_eq
  playing hs := by
    obtain ⟨h1, h5, hi⟩ := hp hs
    exact ⟨h1, h5, hi.congr rfl rfl rfl rfl⟩
  clear hs := absurd hs hc
  victory hs := by
    obtain ⟨h5, hl⟩ := hv hs
    exact ⟨h5, (liveCount_congr rfl fun _ => rfl).trans hl⟩
  gameOver hs := absurd hs ho

/-- A timer of the logic is none of the facts'. -/
theorem SceneInv.timer {g : GameState} {l : GameLogicState} (h : SceneInv g l) (t : Int) :
    SceneInv g { l with roundStartTimer := t } where
  scene_eq := h.scene_eq
  level_eq := h.level_eq
  playing hs := (h.playing hs).imp id (.imp id fun hi => hi.congr rfl rfl rfl rfl)
  clear := h.clear
  victory hs := ⟨(h.victory hs).1, (liveCount_congr rfl fun _ => rfl).trans (h.victory hs).2⟩
  gameOver := h.gameOver

theorem processPausedState_inv {w : World} (h : SceneInv w.game w.logic)
    (hs : w.game.scene = .SCENE_PAUSED) :
    SceneInv (processPausedState w).game (processPausedState w).logic := by
  have hp := h.playing (.inr (.inr (h.scene_eq ▸ hs)))
  unfold processPausedState World.setScene
  dsimp only
  split_ifs
  · refine h.setScene .SCENE_PLAYING (fun _ => hp) ?_ (by decide) (by decide)
    rintro (hv | hv) <;> cases hv
  · exact h

theorem processRoundStartState_inv {w : World} (h : SceneInv w.game w.logic)
    (hs : w.game.scene = .SCENE_ROUND_START) :
    SceneInv (processRoundStartState w).game (processRoundStartState w).logic := by
  obtain ⟨h1, h5, hi⟩ := h.playing (.inl (h.scene_eq ▸ hs))
  have h' := h.timer (w.logic.roundStartTimer - 1)
  unfold processRoundStartState World.setScene
  dsimp only
  split_ifs
  · refine h'.setScene .SCENE_PLAYING (fun _ => ⟨h1, h5, hi.congr rfl rfl rfl rfl⟩) ?_
      (by decide) (by decide)
    rintro (hv | hv) <;> cases hv
  · exact h'

theorem processLevelClearState_inv {w : World} (h : SceneInv w.game w.logic)
    (hs : w.game.scene = .SCENE_ROUND_CLEAR) :
    SceneInv (processLevelClearState w).game (processLevelClearState w).logic := by
  obtain ⟨h1, h5⟩ := h.clear (h.scene_eq ▸ hs)
  unfold processLevelClearState
  dsimp only
  split_ifs with ht hv
  · -- a cleared round is below the last, so the next one is a level of the game
    exact absurd hv (by omega)
  · exact gameNewLevel_inv (by dsimp only; omega) (by dsimp only; omega)
  · exact h.timer _

theorem processGameOverState_inv {w : World} (h : SceneInv w.game w.logic) :
    SceneInv (processGameOverState w).game (processGameOverState w).logic := by
  unfold processGameOverState
  dsimp only
  split_ifs
  · exact newGame_inv _
  · exact h.timer _
  · exact h.timer _

theorem processVictoryState_inv {w : World} (h : SceneInv w.game w.logic)
    (hs : w.game.scene = .SCENE_VICTORY) :
    SceneInv (processVictoryState w).game (processVictoryState w).logic := by
  have hv := h.victory (.inl (h.scene_eq ▸ hs))
  unfold processVictoryState World.setScene
  dsimp only
  split_ifs
  · exact newGame_inv _
  · refine h.setScene .SCENE_MENU ?_ ?_ (by decide) (by decide)
    · rintro (h | h | h) <;> cases h
    · rintro (h | h) <;> cases h
  · exact h.setScene .SCENE_CREDITS (by rintro (h | h | h) <;> cases h) (fun _ => hv)
      (by decide) (by decide)
  · exact h

theorem processCreditsState_inv {w : World} (h : SceneInv w.game w.logic)
    (hs : w.game.scene = .SCENE_CREDITS) :
    SceneInv (processCreditsState w).game (processCreditsState w).logic := by
  have hv := h.victory (.inr (h.scene_eq ▸ hs))
  unfold processCreditsState World.setScene
  dsimp only
  split_ifs
  · exact h.setScene .SCENE_VICTORY (by rintro (h | h | h) <;> cases h) (fun _ => hv)
      (by decide) (by decide)
  · exact h

/-- A frame of play from the playing scene keeps the round and the enemies' invariant, and ends
playing, at the end of a round before the last, at the victory after the last with no enemy
left, or at the end of the game with no life left. -/
theorem playFrame_playing (now : Int) (pi : PlayInput) {s : GameLogicState} (m : GameMap)
    (hi : GameInv s) (hs : s.scene = .SCENE_PLAYING) :
    (playFrame now pi s m).1.round = s.round ∧ GameInv (playFrame now pi s m).1 ∧
      ((playFrame now pi s m).1.scene = .SCENE_PLAYING ∨
        ((playFrame now pi s m).1.scene = .SCENE_ROUND_CLEAR ∧ s.round < MAX_ROUNDS) ∨
        ((playFrame now pi s m).1.scene = .SCENE_VICTORY ∧ MAX_ROUNDS ≤ s.round ∧
          (playFrame now pi s m).1.enemiesRemaining ≤ 0) ∨
        ((playFrame now pi s m).1.scene = .SCENE_GAME_OVER ∧ (playFrame now pi s m).1.lives ≤ 0)) := by
  obtain ⟨t, ht, he⟩ := playFrame_cases now pi m hi
  rw [he]
  have hts : t.scene = .SCENE_PLAYING := ht.scene.trans hs
  rcases logicUpdate_cases m now ht.inv with ⟨k, hsc⟩ | ⟨-, u, hu, he'⟩ | ⟨hcl, -⟩
  · -- the respawn timer: still playing
    refine ⟨k.round.trans ht.round, ht.inv.congr k.enemies k.count k.remaining k.round, .inl ?_⟩
    rcases hsc with hsc | hsc
    · exact hsc.trans hts
    · exact hsc
  · -- a frame of play: what the end-of-frame checks decide
    rw [he']
    have k := (logicCheckRoundComplete_only now u).trans (logicCheckGameOver_only _)
    have hus : u.scene = .SCENE_PLAYING := hu.scene.trans hts
    have hur : u.round = s.round := hu.round.trans ht.round
    refine ⟨k.round.trans hur, hu.inv.congr k.enemies k.count k.remaining k.round, ?_⟩
    rcases roundChecks_scene now u with hc | ⟨hc, hl⟩ | ⟨hr, ⟨hc, hround⟩ | ⟨hc, hround⟩⟩
    · exact .inl (hc.trans hus)
    · exact .inr (.inr (.inr ⟨hc, by rw [k.lives]; exact hl⟩))
    · exact .inr (.inr (.inl ⟨hc, hur ▸ hround, by rw [k.remaining]; exact hr⟩))
    · exact .inr (.inl ⟨hc, hur ▸ hround⟩)
  · exact absurd (hcl.symm.trans hts) (by decide)

/-- The facts after a frame of play, from where the frame can end. -/
theorem SceneInv.of_play {g : GameState} {l : GameLogicState} (hs : g.scene = l.scene)
    (hl : g.level = l.round) (h1 : 1 ≤ l.round) (h5 : l.round ≤ MAX_ROUNDS) (hi : GameInv l)
    (hv : g.lives = l.lives)
    (hsc : l.scene = .SCENE_PLAYING ∨ (l.scene = .SCENE_ROUND_CLEAR ∧ l.round < MAX_ROUNDS) ∨
      (l.scene = .SCENE_VICTORY ∧ MAX_ROUNDS ≤ l.round ∧ l.enemiesRemaining ≤ 0) ∨
      (l.scene = .SCENE_GAME_OVER ∧ l.lives ≤ 0)) : SceneInv g l := by
  have hp : l.scene = .SCENE_ROUND_START ∨ l.scene = .SCENE_PLAYING ∨ l.scene = .SCENE_PAUSED →
      1 ≤ g.level ∧ g.level ≤ MAX_ROUNDS ∧ GameInv l := fun _ => ⟨hl ▸ h1, hl ▸ h5, hi⟩
  rcases hsc with h | ⟨h, hr⟩ | ⟨h, hr, hrem⟩ | ⟨h, hlv⟩
  · -- still playing
    refine ⟨hs, hl, hp, ?_, ?_, ?_⟩
    · rw [h]; rintro ⟨⟩
    · rw [h]; rintro (h' | h') <;> cases h'
    · rw [h]; rintro ⟨⟩
  · -- the end of a round before the last
    refine ⟨hs, hl, hp, fun _ => ⟨hl ▸ h1, hl ▸ hr⟩, ?_, ?_⟩
    · rw [h]; rintro (h' | h') <;> cases h'
    · rw [h]; rintro ⟨⟩
  · -- the victory: the last round, with no enemy left
    refine ⟨hs, hl, hp, ?_, fun _ => ⟨by rw [hl]; omega, ?_⟩, ?_⟩
    · rw [h]; rintro ⟨⟩
    · have := hi.counted
      omega
    · rw [h]; rintro ⟨⟩
  · -- the end of the game, with no life left
    refine ⟨hs, hl, hp, ?_, ?_, fun _ => ⟨hlv, hv⟩⟩
    · rw [h]; rintro ⟨⟩
    · rw [h]; rintro (h' | h') <;> cases h'

theorem processPlayingState_inv (now : Int) {w : World} (h : SceneInv w.game w.logic)
    (hs : w.game.scene = .SCENE_PLAYING) :
    SceneInv (processPlayingState now w).game (processPlayingState now w).logic := by
  have hls : w.logic.scene = .SCENE_PLAYING := h.scene_eq ▸ hs
  obtain ⟨h1, h5, hi⟩ := h.playing (.inr (.inl hls))
  unfold processPlayingState World.setScene syncLogicToGameState
  dsimp only
  by_cases hp : (inputIsPausePressed w.input).1 = true
  · rw [if_pos hp]
    refine h.setScene .SCENE_PAUSED (fun _ => ⟨h1, h5, hi⟩) ?_ (by decide) (by decide)
    rintro (hv | hv) <;> cases hv
  rw [if_neg hp]
  obtain ⟨hr, hi', hsc⟩ := playFrame_playing now (readPlayInput (inputIsPausePressed w.input).2).1
    w.map hi hls
  generalize playFrame now (readPlayInput (inputIsPausePressed w.input).2).1 w.logic w.map = q
    at hr hi' hsc ⊢
  have hlev : w.game.level = q.1.round := h.level_eq.trans hr.symm
  by_cases hl : q.1.lives ≤ 0
  · -- no life left: the end of the game in both copies
    rw [if_pos hl]
    exact .of_play rfl hlev (hlev ▸ h1) (hlev ▸ h5) (hi'.congr rfl rfl rfl rfl) rfl
      (.inr (.inr (.inr ⟨rfl, hl⟩)))
  · -- `g_game` copies the logic's scene
    rw [if_neg hl]
    have hcopy : (if q.1.scene ≠ w.game.scene then q.1.scene else w.game.scene) = q.1.scene := by
      split_ifs with hne
      · rfl
      · exact (not_not.1 hne).symm
    refine .of_play hcopy hlev (hlev ▸ h1) (hlev ▸ h5) hi' rfl ?_
    rw [← hr] at hsc
    exact hsc

/-! ### The loop -/

theorem processScene_inv (now : Int) {w : World} (h : SceneInv w.game w.logic) :
    SceneInv (processScene now w).game (processScene now w).logic := by
  unfold processScene
  split
  · exact processMenuState_inv h
  · exact processPlayingState_inv now h ‹_›
  · exact processPausedState_inv h ‹_›
  · exact processLevelClearState_inv h ‹_›
  · exact processGameOverState_inv h
  · exact processRoundStartState_inv h ‹_›
  · exact processVictoryState_inv h ‹_›
  · exact processCreditsState_inv h ‹_›

/-- The count of loop iterations is none of the facts'. -/
theorem SceneInv.ticks {g : GameState} {l : GameLogicState} (h : SceneInv g l) (t : Int) :
    SceneInv { g with ticksElapsed := t } l :=
  ⟨h.scene_eq, h.level_eq, h.playing, h.clear, h.victory, h.gameOver⟩

theorem logicThreadIteration_inv {w w' : World} {keys : List (Nat × Bool)} {now : Int}
    (h : SceneInv w.game w.logic) (he : logicThreadIteration w keys now = some w') :
    SceneInv w'.game w'.logic := by
  unfold logicThreadIteration at he
  dsimp only at he
  split_ifs at he
  · cases he
    exact h
  · -- the frame's input and time are none of the facts'
    cases he
    refine (processScene_inv now ?_).ticks _
    exact h

theorem Reachable.sceneInv {w : World} (h : Reachable w) : SceneInv w.game w.logic := by
  induction h with
  | init now => exact gameInit_inv now
  | step keys now _ he ih => exact logicThreadIteration_inv ih he

theorem scenes_agree {w : World} (h : Reachable w) :
    w.game.scene = w.logic.scene ∧ w.game.level = w.logic.round ∧
      (w.game.scene = .SCENE_ROUND_START ∨ w.game.scene = .SCENE_PLAYING ∨
          w.game.scene = .SCENE_PAUSED ∨ w.game.scene = .SCENE_ROUND_CLEAR →
        1 ≤ w.game.level ∧ w.game.level ≤ MAX_ROUNDS) ∧
      (w.game.scene = .SCENE_VICTORY → w.game.level = MAX_ROUNDS ∧ liveCount w.logic = 0) ∧
      (w.game.scene = .SCENE_GAME_OVER → w.logic.lives ≤ 0) := by
  have hi := h.sceneInv
  refine ⟨hi.scene_eq, hi.level_eq, fun hs => ?_, fun hs => hi.victory (.inl (hi.scene_eq ▸ hs)),
    fun hs => (hi.gameOver (hi.scene_eq ▸ hs)).1⟩
  rw [hi.scene_eq] at hs
  rcases hs with hs | hs | hs | hs
  · exact (hi.playing (.inl hs)).imp id And.left
  · exact (hi.playing (.inr (.inl hs))).imp id And.left
  · exact (hi.playing (.inr (.inr hs))).imp id And.left
  · exact (hi.clear hs).imp id le_of_lt

theorem scenes_agree_at_init :
    Reachable (gameInit 0) ∧ (gameInit 0).game.scene = (gameInit 0).logic.scene ∧
      (gameInit 0).game.level = (gameInit 0).logic.round :=
  ⟨.init 0, (scenes_agree (.init 0)).1, (scenes_agree (.init 0)).2.1⟩

end Zeos.Game
