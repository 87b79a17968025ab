import Zeos.Game.PlayerFrame
import Zeos.Lib.Fold

/-! # Dig Dug: the player's steps

A frame moves the player in `logic_update_player` only, by one cell, and only when the move
cooldown `speed_counter` is out: the move restarts it at `PLAYER_SPEED`, and the frame's own
decrement leaves `PLAYER_SPEED - 1`. Nothing else in a frame touches the player's cell or the
cooldown; a death freezes the player until the respawn timer runs out. So over any run the
frames that move the player are `PLAYER_SPEED` frames apart at least: `moveCooldown` bounds the
frames still to wait before the next move, falls by one a frame at most, is `0` before a move
and `PLAYER_SPEED - 1` after it. -/

namespace Zeos.Game

open Zeos.Lib

/-! ### What the enemies, the rocks and the collisions leave of the player -/

/-- A piece of a frame that keeps the player's cell and cooldown and the scene; it may kill the
player, which sets the respawn timer, and a dead player stays dead. -/
structure PlayerKept (s t : GameLogicState) : Prop where
  pos : t.player.base.pos = s.player.base.pos
  counter : t.player.base.speedCounter = s.player.base.speedCounter
  scene : t.scene = s.scene
  timer : t.roundStartTimer = s.roundStartTimer ∨ t.roundStartTimer = RESPAWN_DELAY
  dead : s.player.state = .PLAYER_DEAD → t.player.state = .PLAYER_DEAD

theorem PlayerKept.refl (s : GameLogicState) : PlayerKept s s :=
  ⟨rfl, rfl, rfl, .inl rfl, id⟩

/-- A timer kept or set for a respawn, twice over, is kept or set for a respawn. -/
theorem timer_kept_trans {a b c : Int} (h₁ : b = a ∨ b = RESPAWN_DELAY)
    (h₂ : c = b ∨ c = RESPAWN_DELAY) : c = a ∨ c = RESPAWN_DELAY := by
  rcases h₂ with h | h
  · rw [h]
    exact h₁
  · exact .inr h

theorem PlayerKept.trans {s t u : GameLogicState} (h₁ : PlayerKept s t) (h₂ : PlayerKept t u) :
    PlayerKept s u where
  pos := h₂.pos.trans h₁.pos
  counter := h₂.counter.trans h₁.counter
  scene := h₂.scene.trans h₁.scene
  timer := timer_kept_trans h₁.timer h₂.timer
  dead := fun h => h₂.dead (h₁.dead h)

/-- A piece that writes no player, scene or timer. -/
theorem PlayerKept.of_eq {s t : GameLogicState} (hp : t.player = s.player) (hs : t.scene = s.scene)
    (ht : t.roundStartTimer = s.roundStartTimer) : PlayerKept s t :=
  ⟨by rw [hp], by rw [hp], hs, .inl ht, fun h => hp ▸ h⟩

theorem logicPlayerDie_kept (s : GameLogicState) : PlayerKept s (logicPlayerDie s) := by
  unfold logicPlayerDie
  dsimp only
  split_ifs
  · exact ⟨rfl, rfl, rfl, .inr rfl, fun _ => rfl⟩
  · exact ⟨rfl, rfl, rfl, .inl rfl, fun _ => rfl⟩

theorem paralyzedTick_kept (s : GameLogicState) (i : Fin MAX_ENEMIES) :
    PlayerKept s (paralyzedTick s i) := by
  unfold paralyzedTick
  dsimp only
  split_ifs <;> exact .of_eq rfl rfl rfl

theorem logicFygarFire_kept (m : GameMap) (now : Int) (s : GameLogicState) (i : Fin MAX_ENEMIES) :
    PlayerKept s (logicFygarFire m now s i) := by
  rcases logicFygarFire_cases m now s i with h | h | ⟨f, _, h⟩ <;> rw [h]
  · exact .refl s
  · exact logicPlayerDie_kept s
  · exact .of_eq rfl rfl rfl

theorem updateEnemy_kept (m : GameMap) (now : Int) (s : GameLogicState) (i : Fin MAX_ENEMIES) :
    PlayerKept s (updateEnemy m now s i) := by
  unfold updateEnemy
  dsimp only
  split_ifs
  · exact .refl s
  · exact paralyzedTick_kept s i
  · exact .of_eq rfl rfl rfl
  · exact .refl s
  · exact .of_eq rfl rfl rfl
  · exact logicFygarFire_kept m now s i
  · exact logicFygarFire_kept m now s i
  · exact (logicFygarFire_kept m now s i).trans (.of_eq rfl rfl rfl)
  · exact .of_eq rfl rfl rfl

theorem logicUpdateEnemies_kept (m : GameMap) (now : Int) (s : GameLogicState) :
    PlayerKept s (logicUpdateEnemies m now s) :=
  foldl_rel PlayerKept PlayerKept.refl PlayerKept.trans (updateEnemy_kept m now) _ s

theorem crushPlayer_kept (i : Fin MAX_ROCKS) (rx ry : Int) (s : GameLogicState) :
    PlayerKept s (crushPlayer i rx ry s) := by
  unfold crushPlayer
  split_ifs
  · exact (logicPlayerDie_kept s).trans (.of_eq rfl rfl rfl)
  · exact .refl s

theorem crushEnemy_kept (i : Fin MAX_ROCKS) (rx ry : Int) (s : GameLogicState)
    (j : Fin MAX_ENEMIES) : PlayerKept s (crushEnemy i rx ry s j) := by
  unfold crushEnemy
  dsimp only
  split_ifs
  · exact .of_eq rfl rfl rfl
  · exact .refl s

theorem logicCheckRockCrush_kept (s : GameLogicState) (i : Fin MAX_ROCKS) :
    PlayerKept s (logicCheckRockCrush s i) := by
  unfold logicCheckRockCrush
  dsimp only
  exact ((crushPlayer_kept ..).trans (crushPlayer_kept ..)).trans
    (foldl_rel PlayerKept PlayerKept.refl PlayerKept.trans (crushEnemy_kept i _ _) _ _)

theorem updateRock_kept (m : GameMap) (s : GameLogicState) (i : Fin MAX_ROCKS) :
    PlayerKept s (updateRock m s i) := by
  unfold updateRock
  dsimp only
  split
  · exact .refl s
  · split
    · exact .of_eq rfl rfl rfl
    · exact .of_eq rfl rfl rfl
    · unfold logicRockFall
      dsimp only
      split
      · exact .of_eq rfl rfl rfl
      · exact (logicCheckRockCrush_kept s i).trans (.of_eq rfl rfl rfl)
    · exact .of_eq rfl rfl rfl
    · exact .of_eq rfl rfl rfl

theorem logicUpdateRocks_kept (m : GameMap) (s : GameLogicState) :
    PlayerKept s (logicUpdateRocks m s) :=
  foldl_rel PlayerKept PlayerKept.refl PlayerKept.trans (updateRock_kept m) _ s

/-- The end-of-frame checks keep the player, and keep the scene and the timer unless they end
the play. -/
theorem roundChecks_player (now : Int) (s : GameLogicState) :
    let c := logicCheckGameOver (logicCheckRoundComplete now s)
    c.player = s.player ∧ c.lives = s.lives ∧
      ((c.scene = s.scene ∧ c.roundStartTimer = s.roundStartTimer) ∨
        c.scene = .SCENE_ROUND_CLEAR ∨ c.scene = .SCENE_VICTORY ∨ c.scene = .SCENE_GAME_OVER) := by
  intro c
  simp only [c, logicCheckGameOver, logicCheckRoundComplete]
  split_ifs <;> simp

/-! ### The player's own update -/

theorem logicPlayerMove_clock (m : GameMap) (s : GameLogicState) (dir : Direction) :
    (logicPlayerMove m s dir).1.player.base.speedCounter = s.player.base.speedCounter ∧
      (logicPlayerMove m s dir).1.scene = s.scene ∧
      (logicPlayerMove m s dir).1.roundStartTimer = s.roundStartTimer ∧
      (logicPlayerMove m s dir).1.score = s.score := by
  unfold logicPlayerMove playerStepTo
  generalize dir.step (s.player.base.pos.x, s.player.base.pos.y) = c
  obtain ⟨x, y⟩ := c
  dsimp only
  split_ifs <;> exact ⟨rfl, rfl, rfl, rfl⟩

/-- The move keeps the cell and the cooldown, or it is an attempt: the cooldown was out and
restarts at `PLAYER_SPEED`. -/
theorem playerMovement_base (m : GameMap) (s : GameLogicState) :
    let t := (playerMovement m s).1
    ((t.player.base.pos = s.player.base.pos ∧
        t.player.base.speedCounter = s.player.base.speedCounter) ∨
      (s.player.base.speedCounter ≤ 0 ∧ t.player.base.speedCounter = PLAYER_SPEED)) ∧
      t.scene = s.scene ∧ t.roundStartTimer = s.roundStartTimer := by
  intro t
  simp only [t, playerMovement]
  have hmv := logicPlayerMove_clock m s s.player.base.dir
  generalize logicPlayerMove m s s.player.base.dir = p at hmv
  split_ifs with hd hc
  · exact ⟨.inl ⟨rfl, rfl⟩, rfl, rfl⟩
  -- an attempt: the bonus scored up to the cap, below it, or no bonus
  · exact ⟨.inr ⟨hc, rfl⟩, hmv.2.1, hmv.2.2.1⟩
  · exact ⟨.inr ⟨hc, rfl⟩, hmv.2.1, hmv.2.2.1⟩
  · exact ⟨.inr ⟨hc, rfl⟩, hmv.2.1, hmv.2.2.1⟩
  · exact ⟨.inl ⟨rfl, rfl⟩, rfl, rfl⟩

theorem playerTimers_counter (s : GameLogicState) :
    s.player.base.speedCounter ≤ (playerTimers s).player.base.speedCounter + 1 ∧
      (0 < s.player.base.speedCounter →
        (playerTimers s).player.base.speedCounter = s.player.base.speedCounter - 1) := by
  -- the harpoon's timer, counted down after the cooldown, writes no cooldown
  have h : (playerTimers s).player.base.speedCounter =
      if 0 < s.player.base.speedCounter then s.player.base.speedCounter - 1
      else s.player.base.speedCounter := by
    unfold playerTimers
    dsimp only
    split_ifs <;> rfl
  rw [h]
  split_ifs <;> omega

theorem logicPlayerPump_clock (m : GameMap) (s : GameLogicState) :
    (logicPlayerPump m s).player.base.speedCounter = s.player.base.speedCounter ∧
      (logicPlayerPump m s).scene = s.scene ∧
      (logicPlayerPump m s).roundStartTimer = s.roundStartTimer := by
  unfold logicPlayerPump
  dsimp only
  split
  · unfold logicEnemyInflate killEnemy logicAddScore
    dsimp only
    split_ifs <;> exact ⟨rfl, rfl, rfl⟩
  · exact ⟨rfl, rfl, rfl⟩

theorem playerCollisions_kept (s : GameLogicState) : PlayerKept s (playerCollisions s) := by
  rcases playerCollisions_cases s with h | h | h <;> rw [h]
  · exact .refl s
  · exact logicPlayerDie_kept s
  · exact (logicPlayerDie_kept s).trans (logicPlayerDie_kept _)

/-! ### A played frame -/

/-- What a played frame does to the player's clock: it moves the player only by an attempt,
made with the cooldown out and leaving it at `PLAYER_SPEED - 1`, and otherwise lowers the
cooldown by one at most; it may kill the player, which sets the respawn timer. -/
structure FrameClock (s t : GameLogicState) : Prop where
  move : (t.player.base.pos = s.player.base.pos ∧
      s.player.base.speedCounter ≤ t.player.base.speedCounter + 1) ∨
    (s.player.state ≠ .PLAYER_DEAD ∧ s.player.base.speedCounter ≤ 0 ∧
      t.player.base.speedCounter = PLAYER_SPEED - 1)
  scene : t.scene = s.scene
  timer : t.roundStartTimer = s.roundStartTimer ∨ t.roundStartTimer = RESPAWN_DELAY
  dead : s.player.state = .PLAYER_DEAD → t.player.state = .PLAYER_DEAD

theorem FrameClock.of_kept {s t : GameLogicState} (h : PlayerKept s t) : FrameClock s t :=
  ⟨.inl ⟨h.pos, by rw [h.counter]; omega⟩, h.scene, h.timer, h.dead⟩

theorem FrameClock.kept {s t u : GameLogicState} (h₁ : FrameClock s t) (h₂ : PlayerKept t u) :
    FrameClock s u where
  move := by
    rw [h₂.pos, h₂.counter]
    exact h₁.move
  scene := h₂.scene.trans h₁.scene
  timer := timer_kept_trans h₁.timer h₂.timer
  dead := fun h => h₂.dead (h₁.dead h)

theorem PlayerKept.frameClock {s t u : GameLogicState} (h₁ : PlayerKept s t) (h₂ : FrameClock t u) :
    FrameClock s u where
  move := by
    rw [← h₁.pos, ← h₁.counter]
    rcases h₂.move with h | ⟨ha, h⟩
    · exact .inl h
    · exact .inr ⟨fun hd => ha (h₁.dead hd), h⟩
  scene := h₂.scene.trans h₁.scene
  timer := timer_kept_trans h₁.timer h₂.timer
  dead := fun h => h₂.dead (h₁.dead h)

theorem logicUpdatePlayer_clock (m : GameMap) (s : GameLogicState) :
    FrameClock s (logicUpdatePlayer m s).1 := by
  unfold logicUpdatePlayer
  split_ifs with hdead
  · exact .of_kept (.refl s)
  dsimp only
  have hmv := playerMovement_base m s
  generalize playerMovement m s = p at hmv
  obtain ⟨u, m'⟩ := p
  dsimp only at hmv ⊢
  -- the timers, then the pump or its release, which keep the cell, the cooldown, the scene and
  -- the timer; the collisions come last
  have hc := playerTimers_counter u
  have key : ∀ v : GameLogicState, v.player.base.pos = u.player.base.pos →
      v.player.base.speedCounter = (playerTimers u).player.base.speedCounter →
      v.scene = u.scene → v.roundStartTimer = u.roundStartTimer → FrameClock s v := by
    intro v hp hv hs ht
    refine ⟨?_, hs.trans hmv.2.1, .inl (ht.trans hmv.2.2), fun h => absurd h hdead⟩
    rcases hmv.1 with ⟨hpos, hcnt⟩ | ⟨hc0, hc6⟩
    · exact .inl ⟨hp.trans hpos, by omega⟩
    · have h6 : 0 < u.player.base.speedCounter := by
        rw [hc6]
        decide
      exact .inr ⟨hdead, hc0, by rw [hv, hc.2 h6, hc6]⟩
  have hbase := playerTimers_base u
  refine FrameClock.kept ?_ (playerCollisions_kept _)
  split_ifs
  · have hpump := logicPlayerPump_clock m' (playerTimers u)
    exact key _ ((logicPlayerPump_player m' _).2.trans hbase.1) hpump.1 hpump.2.1 hpump.2.2
  · exact key _ hbase.1 rfl rfl rfl
  · exact key _ hbase.1 rfl rfl rfl

/-- A played frame is a `FrameClock` step up to the end-of-frame checks, which keep the player
and either keep the scene and the timer or end the play. -/
theorem logicPlayFrame_clock (m : GameMap) (now : Int) (s : GameLogicState) :
    ∃ u, FrameClock s u ∧ (logicPlayFrame m now s).1.player = u.player ∧
      (logicPlayFrame m now s).1.lives = u.lives ∧
      (((logicPlayFrame m now s).1.scene = u.scene ∧
          (logicPlayFrame m now s).1.roundStartTimer = u.roundStartTimer) ∨
        (logicPlayFrame m now s).1.scene = .SCENE_ROUND_CLEAR ∨
        (logicPlayFrame m now s).1.scene = .SCENE_VICTORY ∨
        (logicPlayFrame m now s).1.scene = .SCENE_GAME_OVER) := by
  unfold logicPlayFrame
  dsimp only
  -- the frame counter is the first write; it touches no player
  have hp := PlayerKept.frameClock (s := s) (t := { s with timeElapsed := s.timeElapsed + 1 })
    (.of_eq rfl rfl rfl) (logicUpdatePlayer_clock m _)
  generalize logicUpdatePlayer m { s with timeElapsed := s.timeElapsed + 1 } = p at hp
  obtain ⟨v, m'⟩ := p
  have hu := (hp.kept (logicUpdateEnemies_kept m' now v)).kept (logicUpdateRocks_kept m' _)
  exact ⟨_, hu, roundChecks_player now _⟩

/-! ### The wait before the next move -/

/-- The frames the player still waits before a move, capped at `PLAYER_SPEED - 1`, as a state
of play tells them: the respawn or start timer, then the cooldown. A dead player who will not
respawn waits for ever. -/
def playWait (s : GameLogicState) : Nat :=
  if s.player.state = .PLAYER_DEAD then
    if 0 < s.roundStartTimer ∧ 0 < s.lives then
      min (PLAYER_SPEED - 1).toNat s.roundStartTimer.toNat
    else (PLAYER_SPEED - 1).toNat
  else min (PLAYER_SPEED - 1).toNat (s.roundStartTimer.toNat + s.player.base.speedCounter.toNat)

/-- The wait of a logic state in scene `sc`: playing, paused or counting down to play keep the
player's clock; every other scene leads to play only through a new round. -/
def sceneWait : GameScene → GameLogicState → Nat
  | .SCENE_PLAYING, s | .SCENE_ROUND_START, s | .SCENE_PAUSED, s => playWait s
  | _, _ => (PLAYER_SPEED - 1).toNat

theorem playWait_le (s : GameLogicState) : playWait s ≤ (PLAYER_SPEED - 1).toNat := by
  unfold playWait
  split_ifs <;> omega

theorem sceneWait_le (sc : GameScene) (s : GameLogicState) :
    sceneWait sc s ≤ (PLAYER_SPEED - 1).toNat := by
  cases sc <;> simp only [sceneWait, playWait_le, le_refl]

theorem playWait_le_sceneWait (sc : GameScene) (s : GameLogicState) :
    playWait s ≤ sceneWait sc s := by
  cases sc <;> simp only [sceneWait, playWait_le, le_refl]

/-- A timer of `PLAYER_SPEED - 1` frames or more is a full wait, whatever the player. -/
theorem playWait_of_timer {s : GameLogicState} (h : PLAYER_SPEED - 1 ≤ s.roundStartTimer) :
    playWait s = (PLAYER_SPEED - 1).toNat := by
  unfold playWait
  simp only [PLAYER_SPEED] at h ⊢
  split_ifs <;> omega

/-- One tick of the timer shortens the wait by one frame at most. -/
theorem playWait_tick (s : GameLogicState) :
    playWait s ≤ playWait { s with roundStartTimer := s.roundStartTimer - 1 } + 1 := by
  unfold playWait
  dsimp only
  split_ifs <;> omega

/-- With the timer out, only the cooldown is left to wait, or for ever for a dead player. -/
theorem playWait_of_out {s : GameLogicState} (hT : s.roundStartTimer ≤ 0) :
    playWait s = if s.player.state = .PLAYER_DEAD then (PLAYER_SPEED - 1).toNat
      else min (PLAYER_SPEED - 1).toNat s.player.base.speedCounter.toNat := by
  unfold playWait
  have h0 : s.roundStartTimer.toNat = 0 := Int.toNat_eq_zero.2 hT
  split_ifs <;> omega

/-- A played frame, from a state whose timer is out, shortens the wait by one frame at most; a
move in it starts from no wait and ends at the full one. -/
theorem playWait_frame {s u : GameLogicState} (hT : s.roundStartTimer ≤ 0) (h : FrameClock s u) :
    playWait s ≤ playWait u + 1 ∧
      (u.player.base.pos ≠ s.player.base.pos →
        playWait s = 0 ∧ playWait u = (PLAYER_SPEED - 1).toNat) := by
  have hcap : (PLAYER_SPEED - 1).toNat = 5 := by decide
  -- the wait the frame leaves: the full one under a new respawn timer, else the cooldown's
  have hu : playWait u = 5 ∨ (u.player.state ≠ .PLAYER_DEAD ∧
      playWait u = min 5 u.player.base.speedCounter.toNat) := by
    rcases h.timer with ht | ht
    · rw [playWait_of_out (ht ▸ hT), hcap]
      split_ifs with hd
      · exact .inl rfl
      · exact .inr ⟨hd, rfl⟩
    · rw [playWait_of_timer (by rw [ht]; decide), hcap]
      exact .inl rfl
  rw [playWait_of_out hT, hcap]
  rcases h.move with ⟨hp, hc⟩ | ⟨ha, hc, hc6⟩
  · refine ⟨?_, fun hne => absurd hp hne⟩
    rcases hu with hu | ⟨ha, hu⟩
    · split_ifs <;> omega
    · -- alive after the frame, so alive before it
      have hs : s.player.state ≠ .PLAYER_DEAD := fun hd => ha (h.dead hd)
      rw [if_neg hs, hu]
      omega
  · have hu5 : playWait u = 5 := by
      rcases hu with hu | ⟨_, hu⟩
      · exact hu
      · rw [hu, hc6]
        decide
    rw [if_neg ha, hu5]
    exact ⟨by omega, fun _ => ⟨by omega, rfl⟩⟩

theorem playWait_congr {s t : GameLogicState} (hp : t.player = s.player)
    (ht : t.roundStartTimer = s.roundStartTimer) (hl : t.lives = s.lives) :
    playWait t = playWait s := by
  unfold playWait
  rw [hp, ht, hl]

/-- The frame's gameplay, with the timer out: the wait falls by one frame at most, and a move
starts from no wait and leaves the full one, whether the play goes on or ends. -/
theorem logicPlayFrame_wait (m : GameMap) (now : Int) {s : GameLogicState}
    (hs : s.scene = .SCENE_PLAYING) (hT : s.roundStartTimer ≤ 0) :
    let t := (logicPlayFrame m now s).1
    playWait s ≤ sceneWait t.scene t + 1 ∧
      (t.player.base.pos ≠ s.player.base.pos →
        playWait s = 0 ∧ sceneWait t.scene t = (PLAYER_SPEED - 1).toNat) := by
  intro t
  obtain ⟨u, hu, hp, hl, hsc⟩ := logicPlayFrame_clock m now s
  have hw := playWait_frame hT hu
  have hpos : t.player.base.pos = u.player.base.pos := by rw [hp]
  -- the play goes on with the frame's wait, or it ends, which is a full wait
  rcases hsc with ⟨hsc, ht⟩ | hsc | hsc | hsc
  · have hplay : t.scene = .SCENE_PLAYING := hsc.trans (hu.scene.trans hs)
    rw [hplay, sceneWait, playWait_congr hp ht hl, hpos]
    exact hw
  all_goals
    rw [hsc]
    exact ⟨(playWait_le s).trans (Nat.le_succ _), fun hm => ⟨(hw.2 (hpos ▸ hm)).1, rfl⟩⟩

/-- A round starts in `SCENE_ROUND_START`, behind `ROUND_START_DELAY`. -/
theorem logicStartRound_scene (s : GameLogicState) (m : GameMap) (r : Int) :
    (logicStartRound s m r).1.scene = .SCENE_ROUND_START ∧
      (logicStartRound s m r).1.roundStartTimer = ROUND_START_DELAY := by
  unfold logicStartRound
  dsimp only
  -- the enemies' and the rocks' loops write neither
  generalize hs₃ : List.foldl startRoundEnemy _ _ = s₃
  have hsc : s₃.scene = .SCENE_ROUND_START := by
    rw [← hs₃]
    exact Lib.foldl_preserves (f := startRoundEnemy) GameLogicState.scene (fun _ _ => rfl)
  have ht : s₃.roundStartTimer = ROUND_START_DELAY := by
    rw [← hs₃]
    exact Lib.foldl_preserves (f := startRoundEnemy) GameLogicState.roundStartTimer (fun _ _ => rfl)
  have hrock : ∀ (g : GameLogicState → Fin MAX_ROCKS → Rock) (l : List (Fin MAX_ROCKS))
      (t : GameLogicState),
      (l.foldl (fun t i => t.setRock i (g t i)) t).scene = t.scene ∧
        (l.foldl (fun t i => t.setRock i (g t i)) t).roundStartTimer = t.roundStartTimer :=
    fun g _ _ =>
      ⟨Lib.foldl_preserves (f := fun t i => t.setRock i (g t i)) GameLogicState.scene
        (fun _ _ => rfl),
      Lib.foldl_preserves (f := fun t i => t.setRock i (g t i)) GameLogicState.roundStartTimer
        (fun _ _ => rfl)⟩
  exact ⟨(hrock _ _ _).1.trans hsc, (hrock _ _ _).2.trans ht⟩

/-- After a round the next starts behind its start delay, or the game is over. -/
theorem logicTransitionToNextRound_wait (s : GameLogicState) (m : GameMap) :
    sceneWait (logicTransitionToNextRound s m).1.scene (logicTransitionToNextRound s m).1 =
      (PLAYER_SPEED - 1).toNat := by
  unfold logicTransitionToNextRound
  dsimp only
  split_ifs
  · rfl
  · obtain ⟨hs, ht⟩ := logicStartRound_scene { s with round := s.round + 1 } m (s.round + 1)
    rw [hs, sceneWait]
    exact playWait_of_timer (by rw [ht]; decide)

/-- `logic_update` shortens the player's wait by one frame at most, in every scene; a scene that
does not keep the player's clock leads to play only through a new round. -/
theorem logicUpdate_wait (m : GameMap) (now : Int) (s : GameLogicState) :
    playWait s ≤ sceneWait (logicUpdate m now s).1.scene (logicUpdate m now s).1 + 1 := by
  unfold logicUpdate
  split
  · next hs =>
    dsimp only
    split_ifs with ht hr
    · -- the respawn: a dead player's last frame of waiting, then a fresh player
      have h1 : s.roundStartTimer = 1 := by omega
      have hw : playWait s = 1 := by
        unfold playWait
        rw [if_pos hr.2.1, if_pos ⟨ht, hr.2.2⟩, h1]
        decide
      dsimp only [logicPlayerRespawn]
      rw [hs, sceneWait, hw]
      omega
    · dsimp only
      rw [hs, sceneWait]
      exact playWait_tick s
    · exact (logicPlayFrame_wait m now hs (not_lt.1 ht)).1
  · next hs =>
    -- a cleared round waits for ever, and so does the next round behind its start delay
    have hw := Nat.le_succ_of_le (playWait_le s)
    dsimp only
    split_ifs
    · rwa [logicTransitionToNextRound_wait]
    all_goals
      dsimp only
      rwa [hs]
  · next hs =>
    dsimp only
    split_ifs with ht hz
    · exact playWait_tick s
    · dsimp only
      rw [hs, sceneWait]
      exact playWait_tick s
    · dsimp only
      rw [hs, sceneWait]
      exact Nat.le_succ _
  · exact Nat.le_succ_of_le (playWait_le_sceneWait _ s)

/-- A frame of `logic_update` that moves the player plays the game with the timer out; it starts
from no wait and leaves the full one. -/
theorem logicUpdate_move_wait (m : GameMap) (now : Int) {s : GameLogicState}
    (hs : s.scene = .SCENE_PLAYING) (hT : s.roundStartTimer ≤ 0)
    (hm : (logicUpdate m now s).1.player.base.pos ≠ s.player.base.pos) :
    playWait s = 0 ∧
      sceneWait (logicUpdate m now s).1.scene (logicUpdate m now s).1 =
        (PLAYER_SPEED - 1).toNat := by
  have hu : logicUpdate m now s = logicPlayFrame m now s := by
    unfold logicUpdate
    rw [hs]
    exact if_neg (not_lt.2 hT)
  rw [hu] at hm ⊢
  exact (logicPlayFrame_wait m now hs hT).2 hm

/-! ### One step -/

/-- The cells the player may step into: on the map, from the sky's last row down to the row
above the border, under no standing rock, and dirt or walkable. -/
def PlayerMayEnter (m : GameMap) (s : GameLogicState) (c : Int × Int) : Prop :=
  mapIsValidPosition c.1 c.2 = true ∧ ROW_SKY_END ≤ c.2 ∧ c.2 < ROW_BORDER ∧
    hasRockAt s c.1 c.2 = false ∧
    (mapGetTile m c.1 c.2 = .TILE_DIRT ∨ mapIsWalkable m c.1 c.2 = true)

instance (m : GameMap) (s : GameLogicState) (c : Int × Int) :
    Decidable (PlayerMayEnter m s c) := by
  unfold PlayerMayEnter
  infer_instance

/-- `logic_player_move` toward the cell `(x, y)`: a step there, digging it first, when the player
may enter it; otherwise only the facing changes. -/
theorem logicPlayerMove_eq (m : GameMap) (s : GameLogicState) {dir : Direction} {x y : Int}
    (ha : s.player.base.active = true) (hd : dir ≠ .DIR_NONE)
    (hn : dir.step (s.player.base.pos.x, s.player.base.pos.y) = (x, y)) :
    logicPlayerMove m s dir =
      if PlayerMayEnter m s (x, y) then
        playerStepTo (mapDig m x y) { s with player := { s.player with facingDir := dir } }
          (if mapIsDiggable m x y then .PLAYER_DIGGING else .PLAYER_MOVING) x y
      else ({ s with player := { s.player with facingDir := dir } }, m) := by
  unfold logicPlayerMove
  rw [if_neg (by simp [ha, hd]), hn]
  dsimp only
  -- the rocks are read from the state being updated, whose facing alone has changed
  have hrock : hasRockAt { s with player := { s.player with facingDir := dir } } x y =
      hasRockAt s x y := rfl
  rw [hrock]
  by_cases hE : PlayerMayEnter m s (x, y)
  · obtain ⟨hv, hsky, hb, hr, ht⟩ : mapIsValidPosition x y = true ∧ ROW_SKY_END ≤ y ∧
        y < ROW_BORDER ∧ hasRockAt s x y = false ∧
        (mapGetTile m x y = .TILE_DIRT ∨ mapIsWalkable m x y = true) := id hE
    rw [if_pos hE, if_neg (by simp [hv]), if_neg (not_lt.2 hsky), if_neg (not_le.2 hb),
      if_neg (by simp [hr])]
    by_cases hdig : mapIsDiggable m x y = true
    · rw [if_pos hdig, if_pos hdig]
    · -- not dirt, so walkable, and the dig leaves the map as it is
      have hw : mapIsWalkable m x y = true := by
        rcases ht with ht | ht
        · simp [mapIsDiggable, ht] at hdig
        · exact ht
      rw [if_neg hdig, if_pos hw, if_neg hdig, mapDig, if_neg hdig]
  · rw [if_neg hE]
    split_ifs with h1 h2 h3 h4 h5 h6 <;> try rfl
    -- a step made contradicts the guards
    · exact absurd ⟨by simpa using h1, not_lt.1 h2, not_le.1 h3, by simpa using h4,
        .inl (by simpa [mapIsDiggable] using h5)⟩ hE
    · exact absurd ⟨by simpa using h1, not_lt.1 h2, not_le.1 h3, by simpa using h4, .inr h6⟩ hE

section Step

variable (m : GameMap) (s : GameLogicState) {dir : Direction} {x y : Int}
  (ha : s.player.base.active = true) (hd : dir ≠ .DIR_NONE)
  (hn : dir.step (s.player.base.pos.x, s.player.base.pos.y) = (x, y))

include ha hd hn

theorem logicPlayerMove_pos :
    (logicPlayerMove m s dir).1.player.base.pos =
      if PlayerMayEnter m s (x, y) then ⟨x, y⟩ else s.player.base.pos := by
  rw [logicPlayerMove_eq m s ha hd hn]
  split_ifs <;> rfl

/-- The move's map: the cell stepped into is emptied if it was dirt or a gem. -/
theorem logicPlayerMove_tile (px py : Int) :
    mapGetTile (logicPlayerMove m s dir).2 px py =
      if px = x ∧ py = y ∧ PlayerMayEnter m s (x, y) ∧
          (mapGetTile m x y = .TILE_DIRT ∨ mapGetTile m x y = .TILE_GEM) then .TILE_EMPTY
      else mapGetTile m px py := by
  rw [logicPlayerMove_eq m s ha hd hn]
  by_cases hE : PlayerMayEnter m s (x, y)
  · rw [if_pos hE]
    unfold playerStepTo mapHasGem
    dsimp only
    -- the dig, then the gem on the dug map
    have hdug := mapGetTile_mapDig m x y x y
    split_ifs with hg <;>
      simp only [mapGetTile_mapRemoveGem, mapGetTile_mapDig, beq_iff_eq] at hg hdug ⊢ <;> grind
  · simp [hE]

end Step

/-- A move attempt of `logic_update_player`: the move, then the bonus on the cell the player
stands on after it, whether or not the player moved. -/
theorem playerMovement_attempt (m : GameMap) (s : GameLogicState)
    (hd : s.player.base.dir ≠ .DIR_NONE) (hc : s.player.base.speedCounter ≤ 0) :
    let u := logicPlayerMove m s s.player.base.dir
    let p := u.1.player.base.pos
    (playerMovement m s).1.player.base.pos = p ∧
      (playerMovement m s).2 = (if mapGetTile u.2 p.x p.y = .TILE_BONUS then
        mapSetTile u.2 p.x p.y .TILE_EMPTY else u.2) ∧
      (playerMovement m s).1.score = (if mapGetTile u.2 p.x p.y = .TILE_BONUS then
        (if s.score + 100 > MAX_SCORE then MAX_SCORE else s.score + 100) else s.score) := by
  have hscore := (logicPlayerMove_clock m s s.player.base.dir).2.2.2
  simp only [playerMovement]
  generalize logicPlayerMove m s s.player.base.dir = q at hscore
  obtain ⟨v, m'⟩ := q
  dsimp only at hscore ⊢
  rw [if_neg hd, if_pos hc, hscore]
  split_ifs <;> exact ⟨rfl, rfl, rfl⟩

/-- The player's update of a live player leaves the player on the cell of the move, with the map
of the move. -/
theorem logicUpdatePlayer_movement (m : GameMap) {s : GameLogicState}
    (hdead : s.player.state ≠ .PLAYER_DEAD) :
    (logicUpdatePlayer m s).1.player.base.pos = (playerMovement m s).1.player.base.pos ∧
      (logicUpdatePlayer m s).2 = (playerMovement m s).2 := by
  unfold logicUpdatePlayer
  rw [if_neg hdead]
  dsimp only
  generalize playerMovement m s = p
  obtain ⟨u, m'⟩ := p
  refine ⟨(playerCollisions_kept _).pos.trans ?_, rfl⟩
  -- the timers, then the pump or its release
  have hbase := (playerTimers_base u).1
  split_ifs
  · exact (logicPlayerPump_player m' _).2.trans hbase
  · exact hbase
  · exact hbase

/-- A played frame leaves a live player on the cell of the move, with the map of the move. -/
theorem logicPlayFrame_movement (m : GameMap) (now : Int) {s : GameLogicState}
    (hdead : s.player.state ≠ .PLAYER_DEAD) :
    let s₁ := { s with timeElapsed := s.timeElapsed + 1 }
    (logicPlayFrame m now s).1.player.base.pos = (playerMovement m s₁).1.player.base.pos ∧
      (logicPlayFrame m now s).2 = (playerMovement m s₁).2 := by
  intro s₁
  have hp := logicUpdatePlayer_movement m (s := s₁) hdead
  unfold logicPlayFrame
  dsimp only
  generalize logicUpdatePlayer m s₁ = q at hp
  obtain ⟨v, m'⟩ := q
  refine ⟨?_, hp.2⟩
  -- the enemies and the rocks keep the cell; the checks keep the player
  rw [(roundChecks_player now _).1, (logicUpdateRocks_kept m' _).pos,
    (logicUpdateEnemies_kept m' now v).pos]
  exact hp.1

/-- One `logic_update` of a live player in play, with the timer out, a direction set and the
cooldown out: the player ends on the neighbour `(x, y)` exactly when the player may enter it,
and dirt there is dug out. -/
theorem logicUpdate_playerStep (m : GameMap) (now : Int) {s : GameLogicState} {x y : Int}
    (hs : s.scene = .SCENE_PLAYING) (hT : s.roundStartTimer = 0)
    (ha : s.player.base.active = true) (hdead : s.player.state ≠ .PLAYER_DEAD)
    (hd : s.player.base.dir ≠ .DIR_NONE) (hc : s.player.base.speedCounter ≤ 0)
    (hn : s.player.base.dir.step (s.player.base.pos.x, s.player.base.pos.y) = (x, y)) :
    (logicUpdate m now s).1.player.base.pos =
        (if PlayerMayEnter m s (x, y) then ⟨x, y⟩ else s.player.base.pos) ∧
      (PlayerMayEnter m s (x, y) → mapGetTile m x y = .TILE_DIRT →
        mapGetTile (logicUpdate m now s).2 x y = .TILE_EMPTY) := by
  have hu : logicUpdate m now s = logicPlayFrame m now s := by
    unfold logicUpdate
    rw [hs]
    exact if_neg (by omega)
  obtain ⟨hpos, hmap⟩ := logicPlayFrame_movement m now hdead
  obtain ⟨hp, hm, -⟩ :=
    playerMovement_attempt m { s with timeElapsed := s.timeElapsed + 1 } hd hc
  -- the frame counter, written first, is not read by the move
  have hmove := logicPlayerMove_pos m { s with timeElapsed := s.timeElapsed + 1 } ha hd hn
  have htile := logicPlayerMove_tile m { s with timeElapsed := s.timeElapsed + 1 } ha hd hn x y
  rw [hu, hpos, hmap, hp, hm, hmove]
  refine ⟨rfl, fun hE hdirt => ?_⟩
  have hE₁ : PlayerMayEnter m { s with timeElapsed := s.timeElapsed + 1 } (x, y) := hE
  rw [if_pos ⟨rfl, rfl, hE₁, .inl hdirt⟩] at htile
  -- the dug cell is no bonus
  rw [if_pos hE₁]
  dsimp only
  rw [if_neg (by rw [htile]; decide), htile]

/-- A bonus the move steps onto is collected: the cell is emptied and the score rises by 100, up
to `MAX_SCORE`. -/
theorem playerMovement_bonus (m : GameMap) (s : GameLogicState)
    (hm : (playerMovement m s).1.player.base.pos ≠ s.player.base.pos)
    (hb : mapGetTile m (playerMovement m s).1.player.base.pos.x
      (playerMovement m s).1.player.base.pos.y = .TILE_BONUS) :
    mapGetTile (playerMovement m s).2 (playerMovement m s).1.player.base.pos.x
        (playerMovement m s).1.player.base.pos.y = .TILE_EMPTY ∧
      (playerMovement m s).1.score =
        if s.score + 100 > MAX_SCORE then MAX_SCORE else s.score + 100 := by
  -- the cell changed, so a direction was set, the cooldown was out and the player is active
  have hd : s.player.base.dir ≠ .DIR_NONE := by
    intro hd
    apply hm
    unfold playerMovement
    rw [if_pos hd]
  have hc : s.player.base.speedCounter ≤ 0 := by
    rcases (playerMovement_base m s).1 with ⟨hp, -⟩ | ⟨hc, -⟩
    · exact absurd hp hm
    · exact hc
  obtain ⟨hp, hmap, hscore⟩ := playerMovement_attempt m s hd hc
  have ha : s.player.base.active = true := by
    by_contra ha
    apply hm
    rw [hp]
    unfold logicPlayerMove
    rw [if_pos (by simp [ha])]
  generalize hn : s.player.base.dir.step (s.player.base.pos.x, s.player.base.pos.y) = c
  obtain ⟨x, y⟩ := c
  have hmove := logicPlayerMove_pos m s ha hd hn
  have hE : PlayerMayEnter m s (x, y) := by
    by_contra hE
    rw [hp, hmove, if_neg hE] at hm
    exact hm rfl
  rw [if_pos hE] at hmove
  rw [hp, hmove] at hb ⊢
  -- the move keeps a bonus where it steps, and the bonus check then finds it
  have htile := logicPlayerMove_tile m s ha hd hn x y
  rw [if_neg (by rw [hb]; simp), hb] at htile
  rw [hmap, hscore, hmove]
  dsimp only
  rw [if_pos htile, if_pos htile, mapGetTile_mapSetTile, if_pos ⟨rfl, rfl, hE.1⟩]
  exact ⟨rfl, rfl⟩

end Zeos.Game
