import Zeos.Game.EnemySteps
import Zeos.Lib.Fold

/-! # Dig Dug: the enemies over the frames of a round

`data_load_level` and `logic_start_round` leave every enemy of the round calm and
`enemies_remaining` at their number. Every frame of play is then an `EnemyStep` followed by the
end-of-frame checks, but the frame that starts the next round, which sets a round up again. So
every state that frames of play reach satisfies `GameInv`: the counter counts the live enemies,
each enemy is in a consistent state, and a dead enemy stays as it died while the round lasts. -/

namespace Zeos.Game

open GameLogicState

/-! ### Loops over the enemies and the rocks -/

theorem onlyAt_setEnemy {f : GameLogicState → Fin MAX_ENEMIES → GameLogicState}
    {g : GameLogicState → Fin MAX_ENEMIES → Enemy} (hf : ∀ t i, f t i = t.setEnemy i (g t i)) :
    Lib.OnlyAt enemy f := by
  intro t i j hj
  rw [hf, enemy_setEnemy, if_neg hj]

/-- A loop that writes only rocks. -/
theorem SameEnemies.foldl_setRock (l : List (Fin MAX_ROCKS))
    (g : GameLogicState → Fin MAX_ROCKS → Rock) :
    ∀ s : GameLogicState, SameEnemies s (l.foldl (fun t i => t.setRock i (g t i)) s) := by
  induction l with
  | nil => exact SameEnemies.refl
  | cons i l ih => exact fun s => (setRock_same s i _).trans (ih _)

theorem length_enemyIndices {s : GameLogicState} (h0 : 0 ≤ s.enemyCount)
    (h8 : s.enemyCount ≤ MAX_ENEMIES) : s.enemyIndices.length = s.enemyCount.toNat := by
  -- the count is one of the nine values the array allows
  obtain ⟨k, hk⟩ : ∃ k : Fin (MAX_ENEMIES + 1), s.enemyCount = ((k : Nat) : Int) :=
    ⟨⟨s.enemyCount.toNat, by omega⟩, by simp; omega⟩
  unfold enemyIndices
  rw [hk]
  clear hk
  revert k
  decide

/-! ### Setting a round up -/

theorem logicEnemyInit_calm (e : Enemy) (x y : Int) (type : EntityType) :
    (logicEnemyInit e x y type).Calm := ⟨rfl, .inl rfl, rfl⟩

/-- A state whose enemies of the round are all calm and counted, at most `MAX_ENEMIES` of them,
in a round from the first on, satisfies the invariant. -/
theorem GameInv.of_calm {t : GameLogicState}
    (hcalm : ∀ j : Fin MAX_ENEMIES, (j : Int) < t.enemyCount → (t.enemy j).Calm)
    (h0 : 0 ≤ t.enemyCount) (h8 : t.enemyCount ≤ MAX_ENEMIES)
    (hr : t.enemiesRemaining = t.enemyCount) (hround : 1 ≤ t.round) : GameInv t where
  enemies j hj := (hcalm j hj).enemyOk
  counted := by
    have hall : liveCount t = t.enemyIndices.length :=
      List.countP_eq_length.2 fun j hj => (hcalm j (mem_enemyIndices.1 hj)).live
    rw [hall, length_enemyIndices h0 h8, hr]
    omega
  round_pos := hround

theorem logicStartRound_inv (s : GameLogicState) (m : GameMap) {r : Int} (h : 1 ≤ r) :
    (logicStartRound s m r).1.round = r ∧ GameInv (logicStartRound s m r).1 := by
  unfold logicStartRound
  dsimp only
  generalize hs₃ : List.foldl startRoundEnemy _ _ = s₃
  -- the enemies' loop writes only the enemies, each of the round afresh
  have hc : s₃.enemyCount = min (2 + r.tdiv 2) (MAX_ENEMIES : Int) := by
    rw [← hs₃]
    exact Lib.foldl_preserves (f := startRoundEnemy) enemyCount (fun _ _ => rfl)
  have hrem : s₃.enemiesRemaining = min (2 + r.tdiv 2) (MAX_ENEMIES : Int) := by
    rw [← hs₃]
    exact Lib.foldl_preserves (f := startRoundEnemy) enemiesRemaining (fun _ _ => rfl)
  have hround : s₃.round = r := by
    rw [← hs₃]
    exact Lib.foldl_preserves (f := startRoundEnemy) GameLogicState.round (fun _ _ => rfl)
  have hcalm : ∀ j : Fin MAX_ENEMIES, (j : Int) < s₃.enemyCount → (s₃.enemy j).Calm := by
    intro j hj
    rw [← hs₃]
    refine Lib.get_foldl_of_mem (onlyAt_setEnemy fun _ _ => rfl) (fun t => ?_)
      (nodup_enemyIndices _) (mem_enemyIndices.2 (hc ▸ hj))
    simp only [enemy_setEnemy, if_pos]
    exact logicEnemyInit_calm _ _ _ _
  have htdiv : 0 ≤ r.tdiv 2 := Int.tdiv_nonneg (by omega) (by norm_num)
  -- the rocks' loop leaves them so
  refine ⟨(SameEnemies.foldl_setRock _ _ _).round.trans hround,
    GameInv.of_same ?_ (SameEnemies.foldl_setRock _ _ _)⟩
  exact GameInv.of_calm hcalm (by rw [hc]; omega) (by rw [hc]; omega) (hrem.trans hc.symm)
    (hround ▸ h)

/-- Each of the five levels of the table has one to five enemies. -/
theorem dataGetLevel_enemyCount (r : Int) :
    1 ≤ (dataGetLevel r).enemyCount ∧ (dataGetLevel r).enemyCount ≤ 5 := by
  unfold dataGetLevel
  dsimp only
  -- the index is one of the table's five
  have hk : (if r < 1 then 0 else min (r - 1) (NUM_LEVELS_DEFINED - 1)).toNat < 5 := by
    unfold NUM_LEVELS_DEFINED
    split_ifs <;> omega
  generalize (if r < 1 then 0 else min (r - 1) (NUM_LEVELS_DEFINED - 1)).toNat = k at hk ⊢
  revert k
  decide

/-- The enemies of the level are spawned calm; the second loop of `data_spawn_enemies` only
deactivates the slots past them. -/
theorem dataSpawnEnemies_calm (t : GameLogicState) (level : LevelData) {j : Fin MAX_ENEMIES}
    (hj : (j : Int) < level.enemyCount) : ((dataSpawnEnemies t level).enemy j).Calm := by
  unfold dataSpawnEnemies
  dsimp only
  rw [Lib.get_foldl_of_not_mem (onlyAt_setEnemy fun _ _ => rfl) (by simp [indicesFrom]; omega)]
  refine Lib.get_foldl_of_mem (onlyAt_setEnemy fun _ _ => rfl) (fun u => ?_)
    ((List.nodup_finRange _).filter _) (by simp [indicesBelow, hj])
  simp only [enemy_setEnemy, if_pos]
  exact logicEnemyInit_calm _ _ _ _

theorem dataSpawnRocks_same (t : GameLogicState) (level : LevelData) :
    SameEnemies t (dataSpawnRocks t level) :=
  (SameEnemies.foldl_setRock _ _ _).trans (SameEnemies.foldl_setRock _ _ _)

/-- The level spawned, with its counters written, satisfies the invariant. -/
theorem GameInv.levelLoaded (t : GameLogicState) (level : LevelData) {r : Int}
    (h1 : 1 ≤ level.enemyCount) (h5 : level.enemyCount ≤ 5) (hr : 1 ≤ r) :
    GameInv { dataSpawnRocks (dataSpawnEnemies t level) level with
      enemyCount := level.enemyCount, enemiesRemaining := level.enemyCount,
      rockCount := level.rockCount, round := r } := by
  refine GameInv.of_calm (fun j hj => ?_) (by dsimp only; omega) (by dsimp only; unfold MAX_ENEMIES; omega) rfl hr
  show ((dataSpawnRocks (dataSpawnEnemies t level) level).enemy j).Calm
  rw [(dataSpawnRocks_same _ level).enemy_eq]
  exact dataSpawnEnemies_calm t level hj

theorem liveCount_of_status {s s' : GameLogicState} (hc : s'.enemyCount = s.enemyCount)
    (h : ∀ j, SameStatus (s.enemy j) (s'.enemy j)) : liveCount s' = liveCount s := by
  have hidx : s'.enemyIndices = s.enemyIndices := by simp [enemyIndices, hc]
  unfold liveCount
  rw [hidx]
  exact List.countP_congr fun j _ => by rw [(h j).live_eq]

/-- A loop whose rounds change no enemy in anything the invariant reads, and no counter,
keeps the invariant. -/
theorem GameInv.foldl_status {f : GameLogicState → Fin MAX_ENEMIES → GameLogicState}
    {l : List (Fin MAX_ENEMIES)} {s : GameLogicState} (hi : GameInv s) (hf : Lib.OnlyAt enemy f)
    (hs : ∀ t i, SameStatus (t.enemy i) ((f t i).enemy i))
    (hc : ∀ t i, (f t i).enemyCount = t.enemyCount)
    (hr : ∀ t i, (f t i).enemiesRemaining = t.enemiesRemaining)
    (hround : ∀ t i, (f t i).round = t.round) : GameInv (l.foldl f s) := by
  have hst : ∀ j, SameStatus (s.enemy j) ((l.foldl f s).enemy j) := fun j =>
    Lib.get_foldl_of_keep hf (P := SameStatus (s.enemy j)) (fun t h => h.trans (hs t j)) (.refl _)
  have hc' : (l.foldl f s).enemyCount = s.enemyCount := Lib.foldl_preserves enemyCount hc
  have hr' : (l.foldl f s).enemiesRemaining = s.enemiesRemaining :=
    Lib.foldl_preserves enemiesRemaining hr
  have hround' : (l.foldl f s).round = s.round := Lib.foldl_preserves GameLogicState.round hround
  exact { enemies := fun j hj => (hst j).enemyOk (hi.enemies j (hc' ▸ hj))
          counted := by rw [hr', liveCount_of_status hc' hst, hi.counted]
          round_pos := hround' ▸ hi.round_pos }

/-- Past the fifth level the enemies only move faster. -/
theorem GameInv.speedUp {t : GameLogicState} (hi : GameInv t) (bonus : Int) :
    GameInv (speedUpEnemies t bonus) := by
  unfold speedUpEnemies
  refine hi.foldl_status (onlyAt_setEnemy fun _ _ => rfl) (fun u i => ?_) (fun _ _ => rfl)
    (fun _ _ => rfl) (fun _ _ => rfl)
  simp only [enemy_setEnemy, if_pos]
  exact ⟨rfl, rfl, rfl, rfl, rfl⟩

theorem speedUpEnemies_round (t : GameLogicState) (bonus : Int) :
    (speedUpEnemies t bonus).round = t.round := by
  unfold speedUpEnemies
  -- the loop writes only enemies; the proof of each round waits for the loop's body
  exact Lib.foldl_preserves GameLogicState.round (fun _ _ => by rfl)

theorem dataLoadLevel_inv (r : Int) (s : GameLogicState) (m : GameMap) (h : 1 ≤ r) :
    (dataLoadLevel r s m).1.round = r ∧ GameInv (dataLoadLevel r s m).1 := by
  obtain ⟨h1, h5⟩ := dataGetLevel_enemyCount r
  unfold dataLoadLevel
  dsimp only
  split_ifs
  · exact ⟨speedUpEnemies_round _ _, (GameInv.levelLoaded _ _ h1 h5 h).speedUp _⟩
  · exact ⟨rfl, GameInv.levelLoaded _ _ h1 h5 h⟩

/-! ### The frame -/

/-- A piece that writes at most the scene and the timers: the end-of-frame checks and the scene
changes of `logic_update` and `process_playing_state`. -/
structure OnlyScene (s s' : GameLogicState) : Prop where
  enemies : s'.enemies = s.enemies
  count : s'.enemyCount = s.enemyCount
  remaining : s'.enemiesRemaining = s.enemiesRemaining
  round : s'.round = s.round
  lives : s'.lives = s.lives

theorem OnlyScene.trans {s₁ s₂ s₃ : GameLogicState} (h₁ : OnlyScene s₁ s₂)
    (h₂ : OnlyScene s₂ s₃) : OnlyScene s₁ s₃ :=
  ⟨h₂.enemies.trans h₁.enemies, h₂.count.trans h₁.count, h₂.remaining.trans h₁.remaining,
    h₂.round.trans h₁.round, h₂.lives.trans h₁.lives⟩

theorem logicCheckRoundComplete_only (now : Int) (s : GameLogicState) :
    OnlyScene s (logicCheckRoundComplete now s) := by
  unfold logicCheckRoundComplete
  dsimp only
  split_ifs <;> exact ⟨rfl, rfl, rfl, rfl, rfl⟩

theorem logicCheckGameOver_only (s : GameLogicState) : OnlyScene s (logicCheckGameOver s) := by
  unfold logicCheckGameOver
  split_ifs <;> exact ⟨rfl, rfl, rfl, rfl, rfl⟩

/-- The scene after the end-of-frame checks: as it was, the end of the game with no life left,
or, with no enemy left, victory after the last round and the round's end before it. -/
theorem roundChecks_scene (now : Int) (s : GameLogicState) :
    let c := logicCheckGameOver (logicCheckRoundComplete now s)
    c.scene = s.scene ∨ (c.scene = .SCENE_GAME_OVER ∧ s.lives ≤ 0) ∨
      (s.enemiesRemaining ≤ 0 ∧ ((c.scene = .SCENE_VICTORY ∧ MAX_ROUNDS ≤ s.round) ∨
        (c.scene = .SCENE_ROUND_CLEAR ∧ s.round < MAX_ROUNDS))) := by
  intro c
  have hl : (logicCheckRoundComplete now s).lives = s.lives := (logicCheckRoundComplete_only now s).lives
  by_cases hgo : s.lives ≤ 0
  · exact .inr (.inl ⟨by simp [c, logicCheckGameOver, hl, hgo], hgo⟩)
  have hc : c.scene = (logicCheckRoundComplete now s).scene := by
    simp [c, logicCheckGameOver, hl, hgo]
  rw [hc]
  unfold logicCheckRoundComplete
  dsimp only
  -- with the clearing time set now or before: victory, the round's end, or not yet
  split_ifs with hr h0 hd hv hd hv
  · exact .inr (.inr ⟨hr, .inl ⟨rfl, hv⟩⟩)
  · exact .inr (.inr ⟨hr, .inr ⟨rfl, not_le.1 hv⟩⟩)
  · exact .inl rfl
  · exact .inr (.inr ⟨hr, .inl ⟨rfl, hv⟩⟩)
  · exact .inr (.inr ⟨hr, .inr ⟨rfl, not_le.1 hv⟩⟩)
  · exact .inl rfl
  · exact .inl rfl

/-- What a frame may do to the enemies within a round: `EnemyStep` but for the scene. -/
structure RoundStep (s s' : GameLogicState) : Prop where
  inv : GameInv s'
  count : s'.enemyCount = s.enemyCount
  round : s'.round = s.round
  dead : ∀ i : Fin MAX_ENEMIES, (i : Int) < s.enemyCount → (s.enemy i).state = .ENEMY_DEAD →
    s'.enemy i = s.enemy i

theorem EnemyStep.toRoundStep {s s' : GameLogicState} (h : EnemyStep s s') : RoundStep s s' :=
  ⟨h.inv, h.count, h.round, h.dead⟩

theorem RoundStep.then {s t u : GameLogicState} (h : RoundStep s t) (k : OnlyScene t u) :
    RoundStep s u where
  inv := h.inv.congr k.enemies k.count k.remaining k.round
  count := k.count.trans h.count
  round := k.round.trans h.round
  dead i hc hd := by
    have he : u.enemy i = t.enemy i := by simp [enemy, k.enemies]
    rw [he, h.dead i hc hd]

theorem EnemyStep.then_round {s t u : GameLogicState} (h : EnemyStep s t) (h' : RoundStep t u) :
    RoundStep s u where
  inv := h'.inv
  count := h'.count.trans h.count
  round := h'.round.trans h.round
  dead i hc hd := by
    have h₁ := h.dead i hc hd
    rw [h'.dead i (h.count ▸ hc) (h₁ ▸ hd), h₁]

/-- A frame of play: a step to the state the end-of-frame checks read, then the checks. -/
theorem logicPlayFrame_cases (m : GameMap) (now : Int) {s : GameLogicState} (hi : GameInv s) :
    ∃ t, EnemyStep s t ∧
      (logicPlayFrame m now s).1 = logicCheckGameOver (logicCheckRoundComplete now t) := by
  unfold logicPlayFrame
  dsimp only
  -- the clock, the player, the enemies' loop and the rocks' loop
  have h₀ : SameEnemies s { s with timeElapsed := s.timeElapsed + 1 } := ⟨rfl, rfl, rfl, rfl, rfl⟩
  have hp := EnemyStep.of_same h₀ (logicUpdatePlayer_step m (hi.of_same h₀))
  generalize logicUpdatePlayer m { s with timeElapsed := s.timeElapsed + 1 } = pm at hp ⊢
  have he := hp.trans (logicUpdateEnemies_step pm.2 now hp.inv)
  exact ⟨_, he.trans (logicUpdateRocks_step pm.2 he.inv), rfl⟩

theorem logicTransitionToNextRound_inv {s : GameLogicState} (m : GameMap) (hi : GameInv s) :
    (logicTransitionToNextRound s m).1.round = s.round + 1 ∧
      GameInv (logicTransitionToNextRound s m).1 := by
  have h1 : 1 ≤ s.round + 1 := by linarith [hi.round_pos]
  unfold logicTransitionToNextRound
  dsimp only
  split_ifs
  · -- past the last round the game ends on the same enemies
    exact ⟨rfl, hi.enemies, hi.counted, h1⟩
  · exact logicStartRound_inv _ m h1

/-- What `logic_update` does, scene by scene: a timer or the respawn, which write no enemy; a
frame of play; or, at the end of a cleared round, the next round. -/
theorem logicUpdate_cases (m : GameMap) (now : Int) {s : GameLogicState} (hi : GameInv s) :
    (OnlyScene s (logicUpdate m now s).1 ∧
        ((logicUpdate m now s).1.scene = s.scene ∨
          (logicUpdate m now s).1.scene = .SCENE_PLAYING)) ∨
      (s.scene = .SCENE_PLAYING ∧ ∃ t, EnemyStep s t ∧
        (logicUpdate m now s).1 = logicCheckGameOver (logicCheckRoundComplete now t)) ∨
      (s.scene = .SCENE_ROUND_CLEAR ∧ (logicUpdate m now s).1.round = s.round + 1 ∧
        GameInv (logicUpdate m now s).1) := by
  unfold logicUpdate
  split
  · next hs =>
    -- playing: the respawn timer holds the frame, or the frame is played
    dsimp only
    split_ifs
    · exact .inl ⟨⟨rfl, rfl, rfl, rfl, rfl⟩, .inl rfl⟩
    · exact .inl ⟨⟨rfl, rfl, rfl, rfl, rfl⟩, .inl rfl⟩
    · exact .inr (.inl ⟨hs, logicPlayFrame_cases m now hi⟩)
  · next hs =>
    dsimp only
    split_ifs
    · exact .inr (.inr ⟨hs, logicTransitionToNextRound_inv m (hi.congr rfl rfl rfl rfl)⟩)
    · exact .inl ⟨⟨rfl, rfl, rfl, rfl, rfl⟩, .inl rfl⟩
    · exact .inl ⟨⟨rfl, rfl, rfl, rfl, rfl⟩, .inl rfl⟩
  · dsimp only
    split_ifs
    · exact .inl ⟨⟨rfl, rfl, rfl, rfl, rfl⟩, .inr rfl⟩
    · exact .inl ⟨⟨rfl, rfl, rfl, rfl, rfl⟩, .inl rfl⟩
    · exact .inl ⟨⟨rfl, rfl, rfl, rfl, rfl⟩, .inl rfl⟩
  · exact .inl ⟨⟨rfl, rfl, rfl, rfl, rfl⟩, .inl rfl⟩

theorem logicUpdate_step (m : GameMap) (now : Int) {s : GameLogicState} (hi : GameInv s) :
    RoundStep s (logicUpdate m now s).1 ∨
      ((logicUpdate m now s).1.round = s.round + 1 ∧ GameInv (logicUpdate m now s).1) := by
  rcases logicUpdate_cases m now hi with ⟨k, -⟩ | ⟨-, t, ht, he⟩ | ⟨-, h⟩
  · exact .inl ((EnemyStep.refl hi).toRoundStep.then k)
  · rw [he]
    exact .inl (ht.toRoundStep.then
      ((logicCheckRoundComplete_only now t).trans (logicCheckGameOver_only _)))
  · exact .inr h

/-- The keys a frame reads before `logic_update`: the dev-kill key, the direction, the pump flag
and the harpoon, each a step. -/
theorem playFrame_cases (now : Int) (pi : PlayInput) {s : GameLogicState} (m : GameMap)
    (hi : GameInv s) : ∃ t, EnemyStep s t ∧ playFrame now pi s m = logicUpdate m now t := by
  unfold playFrame
  dsimp only
  refine ⟨_, ?_, rfl⟩
  have hz : EnemyStep s (if pi.devKill = true then logicDevKillEnemy s else s) := by
    split_ifs
    · exact logicDevKillEnemy_step hi
    · exact .refl hi
  generalize (if pi.devKill = true then logicDevKillEnemy s else s) = z at hz ⊢
  have hy : EnemyStep s (if pi.dir ≠ .DIR_NONE then { z with player.base.dir := pi.dir } else z) := by
    split_ifs
    · exact hz.then_same ⟨rfl, rfl, rfl, rfl, rfl⟩
    · exact hz
  generalize (if pi.dir ≠ .DIR_NONE then { z with player.base.dir := pi.dir } else z) = y at hy ⊢
  have hx : EnemyStep s { y with player.isPumping := pi.pumping } :=
    hy.then_same ⟨rfl, rfl, rfl, rfl, rfl⟩
  split_ifs
  · exact hx.trans (logicPlayerAttack_step m hx.inv)
  · exact hx.then_same ⟨rfl, rfl, rfl, rfl, rfl⟩
  · exact hx

/-- A frame of `process_playing_state`: the pause, or the keys, `logic_update` and the end of the
game when no life is left. -/
theorem playingLogic_cases (now : Int) (pause : Bool) (pi : PlayInput) {s : GameLogicState}
    (m : GameMap) (hi : GameInv s) :
    (playingLogic now pause pi s m).1 = { s with scene := .SCENE_PAUSED } ∨
      ∃ t, EnemyStep s t ∧ OnlyScene (logicUpdate m now t).1 (playingLogic now pause pi s m).1 ∧
        ((playingLogic now pause pi s m).1.scene = (logicUpdate m now t).1.scene ∨
          ((playingLogic now pause pi s m).1.scene = .SCENE_GAME_OVER ∧
            (logicUpdate m now t).1.lives ≤ 0)) := by
  unfold playingLogic
  split_ifs
  · exact .inl rfl
  · obtain ⟨t, ht, he⟩ := playFrame_cases now pi m hi
    refine .inr ⟨t, ht, ?_⟩
    dsimp only
    rw [he]
    split_ifs with hl
    · exact ⟨⟨rfl, rfl, rfl, rfl, rfl⟩, .inr ⟨rfl, hl⟩⟩
    · exact ⟨⟨rfl, rfl, rfl, rfl, rfl⟩, .inl rfl⟩

theorem playingLogic_step (now : Int) (pause : Bool) (pi : PlayInput) {s : GameLogicState}
    (m : GameMap) (hi : GameInv s) :
    RoundStep s (playingLogic now pause pi s m).1 ∨
      ((playingLogic now pause pi s m).1.round = s.round + 1 ∧
        GameInv (playingLogic now pause pi s m).1) := by
  rcases playingLogic_cases now pause pi m hi with h | ⟨t, ht, k, -⟩
  · rw [h]
    exact .inl ((EnemyStep.refl hi).toRoundStep.then ⟨rfl, rfl, rfl, rfl, rfl⟩)
  · rcases logicUpdate_step m now ht.inv with h | ⟨hr, h⟩
    · exact .inl ((ht.then_round h).then k)
    · exact .inr ⟨k.round.trans (hr.trans (by rw [ht.round])),
        h.congr k.enemies k.count k.remaining k.round⟩

/-- Every state that frames of play reach from the start of a round satisfies the invariant. -/
theorem PlayReachable.inv {p : GameLogicState × GameMap} (h : PlayReachable p) : GameInv p.1 := by
  induction h with
  | load round s m h => exact (dataLoadLevel_inv round s m h).2
  | start round s m h => exact (logicStartRound_inv s m h).2
  | frame now pause pi _ ih =>
    rcases playingLogic_step now pause pi _ ih with h | h
    · exact h.inv
    · exact h.2

/-! ### Accounting and the enemies' states over the frames -/

/-- Within a round the counter drops by the number of enemies of the round that died: an enemy
live after a frame was live before it. -/
theorem RoundStep.remaining_sub {p q : GameLogicState} (hi : GameInv p) (h : RoundStep p q) :
    p.enemiesRemaining - q.enemiesRemaining =
      (p.enemyIndices.countP fun i => (p.enemy i).live && !(q.enemy i).live : Nat) := by
  have hidx : q.enemyIndices = p.enemyIndices := by simp [enemyIndices, h.count]
  have himp : ∀ i ∈ p.enemyIndices, (q.enemy i).live = true → (p.enemy i).live = true := by
    intro i hmem hq
    have hc := mem_enemyIndices.1 hmem
    -- a dead enemy stays as it died, so it is not live after the frame
    by_contra hp
    have hdead : (p.enemy i).state = .ENEMY_DEAD := by
      rw [(hi.enemies i hc).dead_iff, ← (hi.enemies i hc).live_eq]
      simpa using hp
    rw [h.dead i hc hdead] at hq
    exact hp hq
  rw [hi.counted, h.inv.counted]
  unfold liveCount
  rw [hidx, Lib.countP_eq_add_countP_of_imp himp]
  push_cast
  ring

/-- A frame that enters the end of the round or the victory does so with the counter at zero. -/
theorem playingLogic_enters_end (now : Int) (pause : Bool) (pi : PlayInput) {s : GameLogicState}
    (m : GameMap) (hi : GameInv s) (hc : s.scene ≠ .SCENE_ROUND_CLEAR)
    (hv : s.scene ≠ .SCENE_VICTORY)
    (hq : (playingLogic now pause pi s m).1.scene = .SCENE_ROUND_CLEAR ∨
      (playingLogic now pause pi s m).1.scene = .SCENE_VICTORY) :
    (playingLogic now pause pi s m).1.enemiesRemaining ≤ 0 := by
  rcases playingLogic_cases now pause pi m hi with h | ⟨t, ht, k, hsc⟩
  · rw [h] at hq
    simp at hq
  rw [k.remaining]
  rcases hsc with hsc | ⟨hgo, -⟩
  swap
  · rw [hgo] at hq
    simp at hq
  rw [hsc] at hq
  -- only the end-of-frame checks of a frame of play write either scene
  rcases logicUpdate_cases m now ht.inv with ⟨-, hu | hu⟩ | ⟨hp, u, hu, he⟩ | ⟨hcl, -⟩
  · rw [hu, ht.scene] at hq
    exact absurd hq (by simp [hc, hv])
  · rw [hu] at hq
    simp at hq
  · rw [he] at hq ⊢
    rw [((logicCheckRoundComplete_only now u).trans (logicCheckGameOver_only _)).remaining]
    rcases roundChecks_scene now u with h | ⟨h, -⟩ | ⟨hr, -⟩
    · rw [h, hu.scene, hp] at hq
      simp at hq
    · rw [h] at hq
      simp at hq
    · exact hr
  · exact absurd (ht.scene ▸ hcl) hc

theorem enemies_remaining_counts_live {p : GameLogicState × GameMap} (h : PlayReachable p) :
    p.1.enemiesRemaining = liveCount p.1 ∧ 0 ≤ p.1.enemiesRemaining ∧
      ∀ now pause pi,
        ((playingLogic now pause pi p.1 p.2).1.round = p.1.round →
          p.1.enemiesRemaining - (playingLogic now pause pi p.1 p.2).1.enemiesRemaining =
            (p.1.enemyIndices.countP fun i =>
              (p.1.enemy i).live && !((playingLogic now pause pi p.1 p.2).1.enemy i).live : Nat)) ∧
        (p.1.scene ≠ .SCENE_ROUND_CLEAR → p.1.scene ≠ .SCENE_VICTORY →
          ((playingLogic now pause pi p.1 p.2).1.scene = .SCENE_ROUND_CLEAR ∨
            (playingLogic now pause pi p.1 p.2).1.scene = .SCENE_VICTORY) →
          liveCount (playingLogic now pause pi p.1 p.2).1 = 0) := by
  have hi := h.inv
  refine ⟨hi.counted, by rw [hi.counted]; omega, fun now pause pi => ⟨fun hr => ?_, ?_⟩⟩
  · rcases playingLogic_step now pause pi p.2 hi with hs | ⟨hs, -⟩
    · exact hs.remaining_sub hi
    · linarith
  · intro hc hv hq
    have hinv := (playingLogic_step now pause pi p.2 hi).elim RoundStep.inv And.right
    have := playingLogic_enters_end now pause pi p.2 hi hc hv hq
    rw [hinv.counted] at this
    omega

theorem enemies_remaining_counts_live_at_start :
    PlayReachable (logicStartRound GameLogicState.zero World.zero.map 1) ∧
      (logicStartRound GameLogicState.zero World.zero.map 1).1.enemiesRemaining =
        liveCount (logicStartRound GameLogicState.zero World.zero.map 1).1 :=
  ⟨.start 1 _ _ (by decide), (enemies_remaining_counts_live (.start 1 _ _ (by decide))).1⟩

theorem enemy_states_consistent {p : GameLogicState × GameMap} (h : PlayReachable p) :
    (∀ i : Fin MAX_ENEMIES, (i : Int) < p.1.enemyCount → EnemyOk (p.1.enemy i)) ∧
      ∀ now pause pi, (playingLogic now pause pi p.1 p.2).1.round = p.1.round →
        ∀ i : Fin MAX_ENEMIES, (i : Int) < p.1.enemyCount → (p.1.enemy i).state = .ENEMY_DEAD →
          (playingLogic now pause pi p.1 p.2).1.enemy i = p.1.enemy i := by
  have hi := h.inv
  refine ⟨hi.enemies, fun now pause pi hr => ?_⟩
  rcases playingLogic_step now pause pi p.2 hi with hs | ⟨hs, -⟩
  · exact hs.dead
  · linarith

theorem enemy_states_consistent_at_start :
    PlayReachable (logicStartRound GameLogicState.zero World.zero.map 1) ∧
      ∀ i : Fin MAX_ENEMIES, (i : Int) < (logicStartRound GameLogicState.zero World.zero.map 1).1.enemyCount →
        EnemyOk ((logicStartRound GameLogicState.zero World.zero.map 1).1.enemy i) :=
  ⟨.start 1 _ _ (by decide), (enemy_states_consistent (.start 1 _ _ (by decide))).1⟩

end Zeos.Game
