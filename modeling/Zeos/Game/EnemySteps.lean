import Zeos.Game.EnemyInv

/-! # Dig Dug: what each piece of a frame does to the enemies

One lemma per function of a frame: the scoring, the player's death and the rocks' own updates are
`SameEnemies`; the dev-kill key, the harpoon, the pump, every round of the enemies' loop and a
rock's crush are `EnemyStep`s. Each kill goes through `EnemyStep.kill`, each loop through
`EnemyStep.foldl`, and the callers cite these lemmas rather than unfold the callee. -/

namespace Zeos.Game

open GameLogicState

/-! ### Pieces that leave the enemies alone -/

theorem logicAddScore_same (s : GameLogicState) (points : Int) :
    SameEnemies s (logicAddScore s points) := ⟨rfl, rfl, rfl, rfl, rfl⟩

theorem logicPlayerDie_same (s : GameLogicState) : SameEnemies s (logicPlayerDie s) := by
  unfold logicPlayerDie
  dsimp only
  split_ifs <;> exact ⟨rfl, rfl, rfl, rfl, rfl⟩

theorem setRock_same (s : GameLogicState) (i : Fin MAX_ROCKS) (r : Rock) :
    SameEnemies s (s.setRock i r) := ⟨rfl, rfl, rfl, rfl, rfl⟩

theorem logicPlayerMove_same (m : GameMap) (s : GameLogicState) (dir : Direction) :
    SameEnemies s (logicPlayerMove m s dir).1 := by
  unfold logicPlayerMove playerStepTo
  -- the new cell is read once; every branch then writes only the player
  generalize dir.step (s.player.base.pos.x, s.player.base.pos.y) = c
  obtain ⟨x, y⟩ := c
  dsimp only
  split_ifs <;> exact ⟨rfl, rfl, rfl, rfl, rfl⟩

theorem playerMovement_same (m : GameMap) (s : GameLogicState) :
    SameEnemies s (playerMovement m s).1 := by
  unfold playerMovement
  dsimp only
  have hmv := logicPlayerMove_same m s s.player.base.dir
  generalize logicPlayerMove m s s.player.base.dir = p at hmv
  split_ifs with hd hc
  · exact .refl s
  -- a move, with or without the bonus: the rest writes only the player and the score
  · exact ⟨hmv.enemies, hmv.count, hmv.remaining, hmv.round, hmv.scene⟩
  · exact ⟨hmv.enemies, hmv.count, hmv.remaining, hmv.round, hmv.scene⟩
  · exact ⟨hmv.enemies, hmv.count, hmv.remaining, hmv.round, hmv.scene⟩
  · exact ⟨rfl, rfl, rfl, rfl, rfl⟩

theorem playerTimers_same (s : GameLogicState) : SameEnemies s (playerTimers s) :=
  ⟨rfl, rfl, rfl, rfl, rfl⟩

/-- The collisions kill the player at most twice: once for an enemy, once for a falling rock. -/
theorem playerCollisions_cases (s : GameLogicState) :
    playerCollisions s = s ∨ playerCollisions s = logicPlayerDie s ∨
      playerCollisions s = logicPlayerDie (logicPlayerDie s) := by
  unfold playerCollisions
  dsimp only
  cases he : logicCheckPlayerEnemyCollision s with
  | none =>
    dsimp only
    split
    · split_ifs
      · exact .inr (.inl rfl)
      · exact .inl rfl
    · exact .inl rfl
  | some i =>
    dsimp only
    -- an enemy that is neither inflating nor paralysed kills first; the rock may kill again
    split_ifs with hk
    · split
      · split_ifs
        · exact .inr (.inr rfl)
        · exact .inr (.inl rfl)
      · exact .inr (.inl rfl)
    · split
      · split_ifs
        · exact .inr (.inl rfl)
        · exact .inl rfl
      · exact .inl rfl

theorem playerCollisions_same (s : GameLogicState) : SameEnemies s (playerCollisions s) := by
  rcases playerCollisions_cases s with h | h | h <;> rw [h]
  · exact .refl s
  · exact logicPlayerDie_same s
  · exact (logicPlayerDie_same s).trans (logicPlayerDie_same _)

theorem crushPlayer_same (i : Fin MAX_ROCKS) (rx ry : Int) (s : GameLogicState) :
    SameEnemies s (crushPlayer i rx ry s) := by
  unfold crushPlayer
  split_ifs
  · exact (logicPlayerDie_same s).trans (setRock_same _ i _)
  · exact .refl s

/-! ### The player's weapons -/

theorem logicDevKillEnemy_step {s : GameLogicState} (hi : GameInv s) :
    EnemyStep s (logicDevKillEnemy s) := by
  unfold logicDevKillEnemy
  split
  · next i hf =>
    have hl : (s.enemy i).live = true := by simpa using List.find?_some hf
    have h := EnemyStep.kill hi (mem_enemyIndices.1 (List.mem_of_find?_eq_some hf)) hl (s.enemy i)
      (logicCalculateEnemyPoints (s.enemy i).base.pos.y)
    rwa [setEnemy_self] at h
  · exact .refl hi

/-- One cell of the harpoon paralyses an active enemy of the round that stands there. -/
theorem attackEnemy_step (c : Int × Int) {s : GameLogicState} {j : Fin MAX_ENEMIES}
    (hi : GameInv s) (hc : (j : Int) < s.enemyCount) : EnemyStep s (attackEnemy c s j) := by
  unfold attackEnemy
  dsimp only
  split_ifs with ha
  · exact .refl hi
  · obtain ⟨hact, -⟩ : (s.enemy j).base.active = true ∧ _ := by simpa using ha
    have hok := hi.enemies j hc
    have hd : (s.enemy j).state ≠ .ENEMY_DEAD := fun hd => by simp [hok.dead_iff.1 hd] at hact
    have h0 := hok.inflateLevel_nonneg hd
    refine .setEnemy hi hc (Enemy.live_iff.2 ⟨hact, hd⟩) (.of_paralyzed rfl hact ?_)
      (Enemy.live_iff.2 ⟨hact, by simp⟩)
    dsimp only
    omega
  · exact .refl hi

theorem logicPlayerAttack_step (m : GameMap) {s : GameLogicState} (hi : GameInv s) :
    EnemyStep s (logicPlayerAttack m s) := by
  unfold logicPlayerAttack
  dsimp only
  split_ifs
  · exact .refl hi
  · exact .refl hi
  · -- the set-up writes only the player; then a loop over the cells of loops over the enemies
    refine EnemyStep.foldl_from ?_ fun c _ t ht => ?_
    · exact SameEnemies.step hi ⟨rfl, rfl, rfl, rfl, rfl⟩
    refine EnemyStep.foldl ht.inv fun j hj u hu => attackEnemy_step c hu.inv ?_
    rw [hu.count]
    exact mem_enemyIndices.1 hj

theorem enemyAt_some {s : GameLogicState} {c : Int × Int} {j : Fin MAX_ENEMIES}
    (h : enemyAt s c = some j) : (j : Int) < s.enemyCount ∧ (s.enemy j).live = true := by
  have hp := List.find?_some h
  simp only [Bool.and_eq_true] at hp
  exact ⟨mem_enemyIndices.1 (List.mem_of_find?_eq_some h), hp.1⟩

theorem pumpScan_some {m : GameMap} {s : GameLogicState} :
    ∀ {n i : Nat} {j : Fin MAX_ENEMIES}, pumpScan m s n i = some j →
      (j : Int) < s.enemyCount ∧ (s.enemy j).live = true
  | 0, _, _, h => by simp [pumpScan] at h
  | n + 1, i, j, h => by
    unfold pumpScan at h
    dsimp only at h
    split at h
    · cases h
      exact enemyAt_some ‹_›
    · split_ifs at h
      exact pumpScan_some h

/-- The pump hits a live enemy of the round. -/
theorem logicCheckPumpHit_some {m : GameMap} {s : GameLogicState} {j : Fin MAX_ENEMIES}
    (h : logicCheckPumpHit m s = some j) : (j : Int) < s.enemyCount ∧ (s.enemy j).live = true := by
  unfold logicCheckPumpHit at h
  split_ifs at h
  exact pumpScan_some h

theorem logicEnemyInflate_step {s : GameLogicState} {i : Fin MAX_ENEMIES} (hi : GameInv s)
    (hc : (i : Int) < s.enemyCount) (hl : (s.enemy i).live = true) :
    EnemyStep s (logicEnemyInflate s i) := by
  unfold logicEnemyInflate
  dsimp only
  split_ifs with hd hk
  · exact .refl hi
  · exact .kill hi hc hl _ _
  · -- short of full inflation the enemy is inflating one pump more
    have h0 := (hi.enemies i hc).inflateLevel_nonneg hd
    have hact : (s.enemy i).base.active = true := (Enemy.live_iff.1 hl).1
    refine .setEnemy hi hc hl (.of_inflating rfl hact ?_) (Enemy.live_iff.2 ⟨hact, by simp⟩)
    dsimp only
    omega

theorem logicPlayerPump_step (m : GameMap) {s : GameLogicState} (hi : GameInv s) :
    EnemyStep s (logicPlayerPump m s) := by
  unfold logicPlayerPump
  dsimp only
  split
  · next j hj =>
    -- the hit is read on the state the pump's set-up wrote, which has the same enemies
    obtain ⟨hc, hl⟩ := logicCheckPumpHit_some hj
    refine EnemyStep.of_same ?_ (logicEnemyInflate_step ?_ hc hl)
    · exact ⟨rfl, rfl, rfl, rfl, rfl⟩
    · exact hi.of_same ⟨rfl, rfl, rfl, rfl, rfl⟩
  · exact SameEnemies.step hi ⟨rfl, rfl, rfl, rfl, rfl⟩

theorem logicUpdatePlayer_step (m : GameMap) {s : GameLogicState} (hi : GameInv s) :
    EnemyStep s (logicUpdatePlayer m s).1 := by
  unfold logicUpdatePlayer
  split_ifs
  · exact .refl hi
  · dsimp only
    refine EnemyStep.then_same ?_ (playerCollisions_same _)
    -- the movement and the timers write only the player; the pump may inflate an enemy
    have hst : SameEnemies s (playerTimers (playerMovement m s).1) :=
      (playerMovement_same m s).trans (playerTimers_same _)
    split_ifs
    · exact .of_same hst (logicPlayerPump_step _ (hi.of_same hst))
    · exact SameEnemies.step hi ⟨hst.enemies, hst.count, hst.remaining, hst.round, hst.scene⟩
    · exact hst.step hi

/-! ### The enemies' loop -/

theorem paralyzedTick_step {s : GameLogicState} {i : Fin MAX_ENEMIES} (hi : GameInv s)
    (hc : (i : Int) < s.enemyCount) (hp : (s.enemy i).state = .ENEMY_PARALYZED) :
    EnemyStep s (paralyzedTick s i) := by
  have hok := hi.enemies i hc
  have hd : (s.enemy i).state ≠ .ENEMY_DEAD := by simp [hp]
  have hact := hok.active hd
  have hl : (s.enemy i).live = true := Enemy.live_iff.2 ⟨hact, hd⟩
  have hlive : ∀ e : Enemy, e.base.active = true → e.state = .ENEMY_PARALYZED → e.live = true :=
    fun e ha hs => Enemy.live_iff.2 ⟨ha, by simp [hs]⟩
  obtain ⟨hb1, hb10, ht0, ht5, h0⟩ := hok.paralyzed hp
  unfold paralyzedTick
  dsimp only
  split_ifs with ht hb
  · -- a frame of the blink timer
    refine .setEnemy hi hc hl (.of_paralyzed hp hact ?_) (hlive _ hact hp)
    dsimp only
    omega
  · -- the last blink: the enemy dies
    exact .kill hi hc hl _ _
  · refine .setEnemy hi hc hl (.of_paralyzed hp hact ?_) (hlive _ hact hp)
    dsimp only
    omega

theorem logicEnemyDeflate_step {s : GameLogicState} {i : Fin MAX_ENEMIES} (hi : GameInv s)
    (hc : (i : Int) < s.enemyCount) (hs : (s.enemy i).state = .ENEMY_INFLATING) :
    EnemyStep s (s.setEnemy i (logicEnemyDeflate (s.enemy i))) := by
  have hok := hi.enemies i hc
  have hd : (s.enemy i).state ≠ .ENEMY_DEAD := by simp [hs]
  have hact := hok.active hd
  have hl : (s.enemy i).live = true := Enemy.live_iff.2 ⟨hact, hd⟩
  obtain ⟨h1, h4⟩ := hok.inflating hs
  unfold logicEnemyDeflate
  dsimp only
  split_ifs with hn hz
  · exact absurd hs hn
  · -- fully deflated, the enemy is calm again
    have hcalm : Enemy.Calm { { s.enemy i with inflateLevel := (s.enemy i).inflateLevel - 1 } with
        state := .ENEMY_NORMAL, inflateLevel := 0 } := ⟨hact, .inl rfl, rfl⟩
    exact .setEnemy hi hc hl hcalm.enemyOk hcalm.live
  · refine .setEnemy hi hc hl (.of_inflating hs hact ?_) (Enemy.live_iff.2 ⟨hact, hd⟩)
    dsimp only at hz ⊢
    omega

theorem fygarTryFire_status {m : GameMap} {now : Int} {f f' : Enemy} {dir : Direction}
    (h : fygarTryFire m now f dir = some f') : SameStatus f f' := by
  unfold fygarTryFire at h
  obtain ⟨-, h⟩ := Option.ite_none_right_eq_some.1 h
  cases h
  exact ⟨rfl, rfl, rfl, rfl, rfl⟩

/-- What `logic_fygar_fire` can do: nothing, kill the player, or change the Fygar's fire. -/
theorem logicFygarFire_cases (m : GameMap) (now : Int) (s : GameLogicState)
    (i : Fin MAX_ENEMIES) :
    logicFygarFire m now s i = s ∨ logicFygarFire m now s i = logicPlayerDie s ∨
      ∃ f, SameStatus (s.enemy i) f ∧ logicFygarFire m now s i = s.setEnemy i f := by
  unfold logicFygarFire
  dsimp only
  split
  · exact .inl rfl
  · split
    · -- a fire that burns: it goes out, or kills the player it reaches
      split
      · refine .inr (.inr ⟨_, ?_, rfl⟩)
        exact ⟨rfl, rfl, rfl, rfl, rfl⟩
      · split
        · exact .inr (.inl rfl)
        · exact .inl rfl
    · split
      · exact .inl rfl
      · -- a new fire, towards the player or the other way
        split
        · next f hf => exact .inr (.inr ⟨f, fygarTryFire_status hf, rfl⟩)
        · split
          · next f hf => exact .inr (.inr ⟨f, fygarTryFire_status hf, rfl⟩)
          · exact .inl rfl

theorem logicFygarFire_step (m : GameMap) (now : Int) {s : GameLogicState} {i : Fin MAX_ENEMIES}
    (hi : GameInv s) (hc : (i : Int) < s.enemyCount) (hl : (s.enemy i).live = true) :
    EnemyStep s (logicFygarFire m now s i) := by
  rcases logicFygarFire_cases m now s i with h | h | ⟨f, hf, h⟩ <;> rw [h]
  · exact .refl hi
  · exact (logicPlayerDie_same s).step hi
  · exact .setEnemy_same hi hc hl hf

theorem logicFygarFire_status (m : GameMap) (now : Int) (s : GameLogicState)
    (i : Fin MAX_ENEMIES) : SameStatus (s.enemy i) ((logicFygarFire m now s i).enemy i) := by
  rcases logicFygarFire_cases m now s i with h | h | ⟨f, hf, h⟩ <;> rw [h]
  · exact .refl _
  · rw [(logicPlayerDie_same s).enemy_eq]
    exact .refl _
  · simpa using hf

theorem logicTryEnemyMove_status (m : GameMap) (s : GameLogicState) (e : Enemy)
    (dir : Direction) : SameStatus e (logicTryEnemyMove m s e dir).2 := by
  unfold logicTryEnemyMove
  generalize dir.step (e.base.pos.x, e.base.pos.y) = c
  obtain ⟨x, y⟩ := c
  dsimp only
  split_ifs <;> exact ⟨rfl, rfl, rfl, rfl, rfl⟩

theorem logicEnemyMoveTowardsPlayer_status (m : GameMap) (s : GameLogicState) (e : Enemy) :
    SameStatus e (logicEnemyMoveTowardsPlayer m s e) := by
  unfold logicEnemyMoveTowardsPlayer
  dsimp only
  split_ifs
  · have h := logicTryEnemyMove_status m s e (logicFindPathBfs m e.base.pos s.player.base.pos false)
    exact ⟨h.state, h.active, h.inflateLevel, h.blinkCount, h.paralyzedTimer⟩
  · exact logicTryEnemyMove_status m s e _
  · exact .refl e

theorem Enemy.Calm.leaveGhost {e : Enemy} (h : e.Calm) : e.leaveGhost.Calm :=
  ⟨h.active, .inl rfl, h.inflateLevel⟩

/-- What ghost mode does to an enemy: it may mark it as out of the tunnels and move it a cell,
and may end ghost mode. -/
theorem logicEnemyGhostMode_cases (m : GameMap) (s : GameLogicState) (e : Enemy) :
    ∃ e₁, (logicEnemyGhostMode m s e = e₁ ∨ logicEnemyGhostMode m s e = e₁.leaveGhost) ∧
      SameStatus e e₁ := by
  unfold logicEnemyGhostMode
  dsimp only
  split_ifs <;> first
    | exact ⟨_, .inl rfl, rfl, rfl, rfl, rfl, rfl⟩
    | exact ⟨_, .inr rfl, rfl, rfl, rfl, rfl, rfl⟩

theorem logicEnemyGhostMode_calm (m : GameMap) (s : GameLogicState) {e : Enemy} (h : e.Calm) :
    (logicEnemyGhostMode m s e).Calm := by
  obtain ⟨e₁, he | he, hs⟩ := logicEnemyGhostMode_cases m s e <;> rw [he]
  · exact h.of_same hs
  · exact (h.of_same hs).leaveGhost

theorem logicEnemyAi_calm (m : GameMap) (s : GameLogicState) {e : Enemy} (h : e.Calm) :
    (logicEnemyAi m s e).Calm := by
  unfold logicEnemyAi
  split_ifs
  · exact logicEnemyGhostMode_calm m s h
  · exact h.of_same (logicEnemyMoveTowardsPlayer_status m s e)

/-- The AI step of a calm enemy of the round keeps it calm; the ghost mode it may enter is
calm too. -/
theorem enemyAiStep_step (m : GameMap) {s : GameLogicState} {i : Fin MAX_ENEMIES}
    (hi : GameInv s) (hc : (i : Int) < s.enemyCount) (h : (s.enemy i).Calm) :
    EnemyStep s (enemyAiStep m s i) := by
  have h₁ := logicEnemyAi_calm m s h
  unfold enemyAiStep
  dsimp only
  split_ifs
  · have h₂ : Enemy.Calm { logicEnemyAi m s (s.enemy i) with
        base.speedCounter := (logicEnemyAi m s (s.enemy i)).base.speedLimit,
        ghostTimer := (logicEnemyAi m s (s.enemy i)).ghostTimer + 1,
        state := .ENEMY_GHOST, hasLeftTunnel := false } :=
      ⟨h₁.active, .inr rfl, h₁.inflateLevel⟩
    exact .setEnemy hi hc h.live h₂.enemyOk h₂.live
  · have h₂ : Enemy.Calm { logicEnemyAi m s (s.enemy i) with
        base.speedCounter := (logicEnemyAi m s (s.enemy i)).base.speedLimit,
        ghostTimer := (logicEnemyAi m s (s.enemy i)).ghostTimer + 1 } :=
      h₁.of_same ⟨rfl, rfl, rfl, rfl, rfl⟩
    exact .setEnemy hi hc h.live h₂.enemyOk h₂.live

/-- One round of the loop of `logic_update_enemies`, on an enemy of the round. -/
theorem updateEnemy_step (m : GameMap) (now : Int) {s : GameLogicState} {i : Fin MAX_ENEMIES}
    (hi : GameInv s) (hc : (i : Int) < s.enemyCount) : EnemyStep s (updateEnemy m now s i) := by
  have hok := hi.enemies i hc
  unfold updateEnemy
  dsimp only
  split_ifs with hdead hp hf hpump hspeed hfy hfire hlit
  · exact .refl hi
  · exact paralyzedTick_step hi hc hp
  · exact logicEnemyDeflate_step hi hc hf
  · exact .refl hi
  -- what is left is a calm enemy
  all_goals
    obtain ⟨hact, hd⟩ : (s.enemy i).base.active = true ∧ (s.enemy i).state ≠ .ENEMY_DEAD := by
      simpa using hdead
    have hcalm := hok.calm_of hd hp hf
  · exact .setEnemy_same hi hc hcalm.live ⟨rfl, rfl, rfl, rfl, rfl⟩
  · exact logicFygarFire_step m now hi hc hcalm.live
  · exact logicFygarFire_step m now hi hc hcalm.live
  · -- no fire now: the Fygar moves, calm as before the fire test
    have hfire := logicFygarFire_step m now hi hc hcalm.live
    exact hfire.trans (enemyAiStep_step m hfire.inv (hfire.count ▸ hc)
      (hcalm.of_same (logicFygarFire_status m now s i)))
  · exact enemyAiStep_step m hi hc hcalm

theorem logicUpdateEnemies_step (m : GameMap) (now : Int) {s : GameLogicState}
    (hi : GameInv s) : EnemyStep s (logicUpdateEnemies m now s) :=
  EnemyStep.foldl hi fun _ hmem _ ht =>
    updateEnemy_step m now ht.inv (ht.count ▸ mem_enemyIndices.1 hmem)

/-! ### The rocks -/

theorem crushEnemy_step (i : Fin MAX_ROCKS) (rx ry : Int) {s : GameLogicState}
    {j : Fin MAX_ENEMIES} (hi : GameInv s) (hc : (j : Int) < s.enemyCount) :
    EnemyStep s (crushEnemy i rx ry s j) := by
  unfold crushEnemy
  dsimp only
  split_ifs with h
  · have hk := EnemyStep.kill hi hc h.1 (s.enemy j)
      (logicCalculateEnemyPoints (s.enemy j).base.pos.y * ROCK_KILL_MULTIPLIER)
    rw [setEnemy_self] at hk
    exact hk.then_same (setRock_same _ i _)
  · exact .refl hi

theorem logicCheckRockCrush_step {s : GameLogicState} (hi : GameInv s) (i : Fin MAX_ROCKS) :
    EnemyStep s (logicCheckRockCrush s i) := by
  unfold logicCheckRockCrush
  dsimp only
  -- the player's two cells, then the loop over the enemies
  have hp := (crushPlayer_same i (s.rock i).base.pos.x (s.rock i).base.pos.y s).trans
    (crushPlayer_same i (s.rock i).base.pos.x ((s.rock i).base.pos.y + 1) _)
  exact EnemyStep.foldl_from (hp.step hi) fun j hmem t ht =>
    crushEnemy_step i _ _ ht.inv (by rw [ht.count, ← hp.count]; exact mem_enemyIndices.1 hmem)

theorem logicRockFall_step (m : GameMap) {s : GameLogicState} (hi : GameInv s)
    (i : Fin MAX_ROCKS) : EnemyStep s (logicRockFall m s i) := by
  unfold logicRockFall
  dsimp only
  split
  · exact (setRock_same s i _).step hi
  · exact (logicCheckRockCrush_step hi i).then_same (setRock_same _ i _)

theorem updateRock_step (m : GameMap) {s : GameLogicState} (hi : GameInv s)
    (i : Fin MAX_ROCKS) : EnemyStep s (updateRock m s i) := by
  unfold updateRock
  dsimp only
  split
  · exact .refl hi
  · split
    · exact (setRock_same s i _).step hi
    · exact (setRock_same s i _).step hi
    · exact logicRockFall_step m hi i
    · exact (setRock_same s i _).step hi
    · exact (setRock_same s i _).step hi

theorem logicUpdateRocks_step (m : GameMap) {s : GameLogicState} (hi : GameInv s) :
    EnemyStep s (logicUpdateRocks m s) :=
  EnemyStep.foldl hi fun i _ _ ht => updateRock_step m ht.inv i

end Zeos.Game
