import Zeos.Game.PlayerMoves
import Zeos.Lib.Steps

/-! # Dig Dug: the pace of the player over runs of the game

The loop of `logic_thread_func` dispatches each frame on `g_game.scene`. The wait of a world is
`sceneWait` at that scene: the player's clock while the game plays, is paused or counts down to
play, and the full wait in every other scene, from which play comes back only through a new
round behind its start delay. Every frame of the loop shortens it by one frame at most; a frame
that moves the player starts from no wait and leaves the full one, `PLAYER_SPEED - 1`. So two
frames that move the player are `PLAYER_SPEED` frames apart at least. -/

namespace Zeos.Game

open Zeos.Lib

/-! ### The keys of a frame of play -/

/-- A piece of a frame that keeps every part of the player's clock. -/
structure SameClock (s t : GameLogicState) : Prop where
  scene : t.scene = s.scene
  timer : t.roundStartTimer = s.roundStartTimer
  lives : t.lives = s.lives
  pos : t.player.base.pos = s.player.base.pos
  counter : t.player.base.speedCounter = s.player.base.speedCounter
  dead : t.player.state = .PLAYER_DEAD ↔ s.player.state = .PLAYER_DEAD

theorem SameClock.refl (s : GameLogicState) : SameClock s s :=
  ⟨rfl, rfl, rfl, rfl, rfl, Iff.rfl⟩

theorem SameClock.trans {s t u : GameLogicState} (h₁ : SameClock s t) (h₂ : SameClock t u) :
    SameClock s u :=
  ⟨h₂.scene.trans h₁.scene, h₂.timer.trans h₁.timer, h₂.lives.trans h₁.lives,
    h₂.pos.trans h₁.pos, h₂.counter.trans h₁.counter, h₂.dead.trans h₁.dead⟩

/-- A piece that writes no player, scene, timer or lives. -/
theorem SameClock.of_player {s t : GameLogicState} (hp : t.player = s.player)
    (hs : t.scene = s.scene) (ht : t.roundStartTimer = s.roundStartTimer)
    (hl : t.lives = s.lives) : SameClock s t :=
  ⟨hs, ht, hl, by rw [hp], by rw [hp], by rw [hp]⟩

theorem SameClock.playWait_eq {s t : GameLogicState} (h : SameClock s t) :
    playWait t = playWait s := by
  unfold playWait
  rw [h.timer, h.lives, h.counter]
  by_cases hd : s.player.state = .PLAYER_DEAD
  · rw [if_pos (h.dead.2 hd), if_pos hd]
  · rw [if_neg (mt h.dead.1 hd), if_neg hd]

theorem logicDevKillEnemy_clock (s : GameLogicState) : SameClock s (logicDevKillEnemy s) := by
  unfold logicDevKillEnemy
  split
  · exact .of_player rfl rfl rfl rfl
  · exact .refl s

theorem attackEnemy_clock (c : Int × Int) (s : GameLogicState) (e : Fin MAX_ENEMIES) :
    SameClock s (attackEnemy c s e) := by
  unfold attackEnemy
  dsimp only
  split_ifs
  · exact .refl s
  · exact .of_player rfl rfl rfl rfl
  · exact .refl s

/-- The harpoon marks a live player attacking, which is no death, and paralyses enemies. -/
theorem logicPlayerAttack_clock (m : GameMap) (s : GameLogicState) :
    SameClock s (logicPlayerAttack m s) := by
  unfold logicPlayerAttack
  dsimp only
  split_ifs with hd
  · exact .refl s
  · exact .refl s
  · have halive : s.player.state ≠ .PLAYER_DEAD := fun h => hd (by simp [h])
    refine SameClock.trans ?_ (foldl_rel SameClock SameClock.refl SameClock.trans
      (fun t c => foldl_rel SameClock SameClock.refl SameClock.trans (attackEnemy_clock c) _ t) _ _)
    exact ⟨rfl, rfl, rfl, rfl, rfl, ⟨fun h => by simp at h, fun h => absurd h halive⟩⟩

/-- The keys of a frame of play, read before `logic_update`, write no part of the player's
clock. -/
theorem playFrame_clock (now : Int) (pi : PlayInput) (s : GameLogicState) (m : GameMap) :
    ∃ t, SameClock s t ∧ playFrame now pi s m = logicUpdate m now t := by
  unfold playFrame
  dsimp only
  refine ⟨_, ?_, rfl⟩
  have hz : SameClock s (if pi.devKill = true then logicDevKillEnemy s else s) := by
    split_ifs
    · exact logicDevKillEnemy_clock s
    · exact .refl s
  generalize (if pi.devKill = true then logicDevKillEnemy s else s) = z at hz ⊢
  have hy : SameClock s
      (if pi.dir ≠ .DIR_NONE then { z with player.base.dir := pi.dir } else z) := by
    split_ifs
    · exact hz.trans ⟨rfl, rfl, rfl, rfl, rfl, Iff.rfl⟩
    · exact hz
  generalize (if pi.dir ≠ .DIR_NONE then { z with player.base.dir := pi.dir } else z) = y at hy ⊢
  have hx : SameClock s { y with player.isPumping := pi.pumping } :=
    hy.trans ⟨rfl, rfl, rfl, rfl, rfl, Iff.rfl⟩
  split_ifs
  · exact hx.trans (logicPlayerAttack_clock m _)
  · exact hx.trans ⟨rfl, rfl, rfl, rfl, rfl, Iff.rfl⟩
  · exact hx

/-! ### The wait of the game -/

/-- The wait of a world, at the scene the loop dispatches on. -/
def moveWait (w : World) : Nat := sceneWait w.game.scene w.logic

theorem syncLogicToGameState_scene (w : World) :
    (syncLogicToGameState w).game.scene = w.logic.scene := by
  unfold syncLogicToGameState
  dsimp only
  split_ifs with h
  · rfl
  · exact (not_not.1 h).symm

/-- A frame of the playing scene shortens the player's wait by one frame at most. -/
theorem processPlayingState_wait (now : Int) (w : World) :
    playWait w.logic ≤ moveWait (processPlayingState now w) + 1 := by
  unfold processPlayingState moveWait
  dsimp only
  obtain ⟨t, ht, he⟩ :=
    playFrame_clock now (readPlayInput (inputIsPausePressed w.input).2).1 w.logic w.map
  have hw := logicUpdate_wait w.map now t
  rw [ht.playWait_eq] at hw
  split_ifs
  · -- the pause keeps the logic but its scene
    exact Nat.le_succ _
  · -- game over
    exact Nat.le_succ_of_le (playWait_le _)
  · rw [syncLogicToGameState_scene, he]
    exact hw

/-- A frame of the playing scene that moves the player plays the game with the timer out: it
starts from no wait and leaves the full one. -/
theorem processPlayingState_move (now : Int) {w : World} (hl : w.logic.scene = .SCENE_PLAYING)
    (hT : w.logic.roundStartTimer ≤ 0)
    (hm : (processPlayingState now w).logic.player.base.pos ≠ w.logic.player.base.pos) :
    playWait w.logic = 0 ∧ moveWait (processPlayingState now w) = (PLAYER_SPEED - 1).toNat := by
  unfold processPlayingState moveWait at *
  dsimp only [World.setScene] at hm ⊢
  obtain ⟨t, ht, he⟩ :=
    playFrame_clock now (readPlayInput (inputIsPausePressed w.input).2).1 w.logic w.map
  -- the keys keep the clock, so the frame's gameplay moved the player
  have hmove : ∀ u : GameLogicState, u = (logicUpdate w.map now t).1 →
      u.player.base.pos ≠ w.logic.player.base.pos →
      playWait w.logic = 0 ∧ sceneWait u.scene u = (PLAYER_SPEED - 1).toNat := by
    rintro u rfl hu
    rw [← ht.pos] at hu
    have h := logicUpdate_move_wait w.map now (ht.scene.trans hl) (ht.timer ▸ hT) hu
    exact ⟨ht.playWait_eq ▸ h.1, h.2⟩
  split_ifs at hm ⊢
  · exact absurd rfl hm
  · rw [he] at hm
    exact ⟨(hmove _ rfl hm).1, rfl⟩
  · rw [he] at hm
    rw [syncLogicToGameState_scene, he]
    exact hmove _ rfl hm

/-! ### The other scenes -/

section Scenes

variable {w : World}

/-- A new level starts behind its start delay; a level off the table changes nothing. -/
theorem gameNewLevel_wait (h : moveWait w = (PLAYER_SPEED - 1).toNat) :
    moveWait (gameNewLevel w) = (PLAYER_SPEED - 1).toNat := by
  unfold gameNewLevel moveWait at *
  dsimp only
  split_ifs
  · exact h
  · apply playWait_of_timer
    show PLAYER_SPEED - 1 ≤ MY_ROUND_START_DELAY
    decide

theorem newGame_wait (w : World) : moveWait (newGame w) = (PLAYER_SPEED - 1).toNat :=
  gameNewLevel_wait rfl

theorem processMenuState_wait (hs : w.game.scene = .SCENE_MENU) :
    moveWait (processMenuState w) = (PLAYER_SPEED - 1).toNat := by
  unfold processMenuState
  dsimp only
  split_ifs
  · exact newGame_wait _
  · rw [moveWait, hs]
    rfl

theorem processLevelClearState_wait (hs : w.game.scene = .SCENE_ROUND_CLEAR) :
    moveWait (processLevelClearState w) = (PLAYER_SPEED - 1).toNat := by
  unfold processLevelClearState
  dsimp only
  split_ifs
  · rfl
  · exact gameNewLevel_wait (by rw [moveWait, hs]; rfl)
  · rw [moveWait, hs]
    rfl

theorem processGameOverState_wait (hs : w.game.scene = .SCENE_GAME_OVER) :
    moveWait (processGameOverState w) = (PLAYER_SPEED - 1).toNat := by
  unfold processGameOverState
  dsimp only
  split_ifs
  · exact newGame_wait _
  all_goals
    rw [moveWait, hs]
    rfl

theorem processVictoryState_wait (hs : w.game.scene = .SCENE_VICTORY) :
    moveWait (processVictoryState w) = (PLAYER_SPEED - 1).toNat := by
  unfold processVictoryState
  dsimp only
  split_ifs
  · exact newGame_wait _
  · rfl
  · rfl
  · rw [moveWait, hs]
    rfl

theorem processCreditsState_wait (hs : w.game.scene = .SCENE_CREDITS) :
    moveWait (processCreditsState w) = (PLAYER_SPEED - 1).toNat := by
  unfold processCreditsState
  split_ifs
  · rfl
  · rw [moveWait, hs]
    rfl

/-- Pausing and resuming keep the player's clock. -/
theorem processPausedState_wait (hs : w.game.scene = .SCENE_PAUSED) :
    playWait w.logic ≤ moveWait (processPausedState w) + 1 := by
  unfold processPausedState
  dsimp only
  split_ifs
  · exact Nat.le_succ _
  · rw [moveWait, hs]
    exact Nat.le_succ _

/-- The start delay counts down like the respawn timer. -/
theorem processRoundStartState_wait (hs : w.game.scene = .SCENE_ROUND_START) :
    playWait w.logic ≤ moveWait (processRoundStartState w) + 1 := by
  unfold processRoundStartState
  dsimp only
  split_ifs
  · exact playWait_tick w.logic
  · rw [moveWait]
    dsimp only
    rw [hs]
    exact playWait_tick w.logic

end Scenes

/-- Every scene's frame shortens the wait by one frame at most. -/
theorem processScene_wait (now : Int) (w : World) :
    moveWait w ≤ moveWait (processScene now w) + 1 := by
  unfold processScene
  split
  -- the play, the pause and the start delay keep the player's clock; every other scene waits
  -- for ever, and leads to play only behind a start delay
  · next hs =>
    rw [processMenuState_wait hs, moveWait, hs]
    exact Nat.le_succ _
  · next hs =>
    rw [moveWait, hs]
    exact processPlayingState_wait now w
  · next hs =>
    rw [moveWait, hs]
    exact processPausedState_wait hs
  · next hs =>
    rw [processLevelClearState_wait hs, moveWait, hs]
    exact Nat.le_succ _
  · next hs =>
    rw [processGameOverState_wait hs, moveWait, hs]
    exact Nat.le_succ _
  · next hs =>
    rw [moveWait, hs]
    exact processRoundStartState_wait hs
  · next hs =>
    rw [processVictoryState_wait hs, moveWait, hs]
    exact Nat.le_succ _
  · next hs =>
    rw [processCreditsState_wait hs, moveWait, hs]
    exact Nat.le_succ _

/-! ### Runs of the loop -/

theorem processScene_playing {w : World} (now : Int) (hs : w.game.scene = .SCENE_PLAYING) :
    processScene now w = processPlayingState now w := by
  unfold processScene
  rw [hs]

/-- An iteration of the loop that runs ends it from the menu, keeping the game and the logic, or
runs the frame of the scene on the world with the frame's keys and time. -/
theorem logicThreadIteration_cases {w w' : World} {keys : List (Nat × Bool)} {now : Int}
    (h : logicThreadIteration w keys now = some w') :
    (w.game.scene = .SCENE_MENU ∧ w'.game = w.game ∧ w'.logic = w.logic) ∨
      ∃ w₁ : World, w₁.game = w.game ∧ w₁.logic = w.logic ∧
        w'.game.scene = (processScene now w₁).game.scene ∧
        w'.logic = (processScene now w₁).logic := by
  unfold logicThreadIteration at h
  dsimp only at h
  split_ifs at h with hr hq
  · cases h
    exact .inl ⟨hq.2, rfl, rfl⟩
  · cases h
    refine .inr ⟨{ w with
      lastFrameTime := now
      input := inputUpdate (keys.foldl (fun i k => inputKeyboardHandler i k.1 k.2) w.input) },
      rfl, rfl, rfl, rfl⟩

/-- A frame of the game: an iteration of the loop of `logic_thread_func` that runs, after the
keyboard events `keys`, at the tick count `now`. -/
def Frame (w w' : World) : Prop := ∃ keys now, logicThreadIteration w keys now = some w'

theorem Frame.wait {w w' : World} (h : Frame w w') : moveWait w ≤ moveWait w' + 1 := by
  obtain ⟨keys, now, h⟩ := h
  rcases logicThreadIteration_cases h with ⟨-, hg, hl⟩ | ⟨w₁, hg, hl, hs, hlg⟩
  · -- the loop ends; the game and the logic are as they were
    rw [moveWait, moveWait, hg, hl]
    exact Nat.le_succ _
  · -- the frame's keys and time are not read by the wait
    have h₁ := processScene_wait now w₁
    rw [moveWait, moveWait, hg, hl] at h₁
    rw [moveWait, moveWait, hs, hlg]
    exact h₁

/-- A frame that moves the player: the game plays (both copies of the scene say so, and the
timer is out, so that `logic_update` plays the frame rather than count a respawn down) and the
player's cell changes. -/
def MoveFrame (w w' : World) : Prop :=
  Frame w w' ∧ w.game.scene = .SCENE_PLAYING ∧ w.logic.scene = .SCENE_PLAYING ∧
    w.logic.roundStartTimer ≤ 0 ∧ w'.logic.player.base.pos ≠ w.logic.player.base.pos

theorem MoveFrame.wait {w w' : World} (h : MoveFrame w w') :
    moveWait w = 0 ∧ moveWait w' = (PLAYER_SPEED - 1).toNat := by
  obtain ⟨⟨keys, now, he⟩, hg, hl, hT, hm⟩ := h
  rcases logicThreadIteration_cases he with ⟨hmenu, -, -⟩ | ⟨w₁, hg₁, hl₁, hs, hlg⟩
  · exact absurd (hg.symm.trans hmenu) (by decide)
  · rw [processScene_playing now (hg₁.symm ▸ hg)] at hs hlg
    rw [hlg, ← hl₁] at hm
    have h := processPlayingState_move now (hl₁ ▸ hl) (hl₁ ▸ hT) hm
    refine ⟨?_, ?_⟩
    · rw [moveWait, hg, ← hl₁]
      exact h.1
    · rw [moveWait, hs, hlg]
      exact h.2

/-- Two frames that move the player, `n` frames of the loop between them, are `PLAYER_SPEED`
frames apart at least. -/
theorem MoveFrame.spaced {w₀ w₁ w₂ w₃ : World} {n : Nat} (h₁ : MoveFrame w₀ w₁)
    (hrun : Steps Frame w₁ n w₂) (h₂ : MoveFrame w₂ w₃) : PLAYER_SPEED ≤ n + 1 := by
  have hle := hrun.measure_le (f := moveWait) fun _ _ h => h.wait
  rw [h₁.wait.2, h₂.wait.1] at hle
  have hcap : (PLAYER_SPEED - 1).toNat = 5 := by decide
  rw [hcap] at hle
  simp only [PLAYER_SPEED]
  omega

/-- The player's steps. One `logic_update` of a live player (active, as `logic_player_move`
requires, and not dead) in play, with the timer out, a direction set and the cooldown out,
moves the player to the neighbour exactly when the player may enter it and digs dirt there; over
any run of the loop, two frames that move the player are `PLAYER_SPEED` frames apart at least;
and a bonus stepped onto is collected for 100 points, up to `MAX_SCORE`. -/
theorem player_steps_single_legal_spaced :
    (∀ (m : GameMap) (now : Int) (s : GameLogicState),
      s.scene = .SCENE_PLAYING → s.player.base.active = true →
      s.player.state ≠ .PLAYER_DEAD → s.roundStartTimer = 0 →
      s.player.base.dir ≠ .DIR_NONE → s.player.base.speedCounter ≤ 0 →
      let n := s.player.base.dir.step (s.player.base.pos.x, s.player.base.pos.y)
      (logicUpdate m now s).1.player.base.pos =
          (if PlayerMayEnter m s n then ⟨n.1, n.2⟩ else s.player.base.pos) ∧
        (PlayerMayEnter m s n → mapGetTile m n.1 n.2 = .TILE_DIRT →
          mapGetTile (logicUpdate m now s).2 n.1 n.2 = .TILE_EMPTY)) ∧
    (∀ (w₀ w₁ w₂ w₃ : World) (n : Nat),
      MoveFrame w₀ w₁ → Steps Frame w₁ n w₂ → MoveFrame w₂ w₃ → PLAYER_SPEED ≤ n + 1) ∧
    (∀ (m : GameMap) (s : GameLogicState),
      (playerMovement m s).1.player.base.pos ≠ s.player.base.pos →
      mapGetTile m (playerMovement m s).1.player.base.pos.x
        (playerMovement m s).1.player.base.pos.y = .TILE_BONUS →
      mapGetTile (playerMovement m s).2 (playerMovement m s).1.player.base.pos.x
          (playerMovement m s).1.player.base.pos.y = .TILE_EMPTY ∧
        (playerMovement m s).1.score =
          if s.score + 100 > MAX_SCORE then MAX_SCORE else s.score + 100) := by
  refine ⟨?_, ?_, ?_⟩
  · intro m now s hs ha hdead hT hd hc
    exact logicUpdate_playerStep m now hs hT ha hdead hd hc rfl
  · intro w₀ w₁ w₂ w₃ n h₁ hrun h₂
    exact h₁.spaced hrun h₂
  · intro m s hm hb
    exact playerMovement_bonus m s hm hb

end Zeos.Game
