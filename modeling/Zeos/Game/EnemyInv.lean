import Zeos.Game.Play
import Zeos.Lib.Count

/-! # Dig Dug: the enemies' invariant

Every enemy of the round is in a consistent state (`EnemyOk`): dead exactly when inactive, an
inflating enemy between one and `INFLATE_LEVELS - 1` pumps, a calm one not inflated, and a
paralysed one with blinks and a timer in range. `enemies_remaining` counts the live enemies
(`liveCount`). `EnemyStep s s'` says what one piece of a frame may do to them: keep both facts,
the number of enemies, the round and the scene, and leave every dead enemy as it was.

Each function of a frame is an `EnemyStep`; the functions that do not touch the enemies are
`SameEnemies`, a kill is `EnemyStep.kill`, and a loop over the enemies or the rocks is one by
`EnemyStep.foldl`. -/

namespace Zeos.Game

open GameLogicState

/-- The state of one enemy as the claim describes it, and with it that a paralysed enemy is not
deflated below zero, which a pump on it needs. -/
structure EnemyOk (e : Enemy) : Prop where
  dead_iff : e.state = .ENEMY_DEAD ↔ e.base.active = false
  inflating : e.state = .ENEMY_INFLATING → 1 ≤ e.inflateLevel ∧ e.inflateLevel < INFLATE_LEVELS
  calm : e.state = .ENEMY_NORMAL ∨ e.state = .ENEMY_GHOST → e.inflateLevel = 0
  paralyzed : e.state = .ENEMY_PARALYZED →
    1 ≤ e.blinkCount ∧ e.blinkCount ≤ 10 ∧ 0 ≤ e.paralyzedTimer ∧ e.paralyzedTimer ≤ 5 ∧
      0 ≤ e.inflateLevel

/-- The number of live enemies among `enemies[0 .. enemy_count)`. -/
def liveCount (s : GameLogicState) : Nat := s.enemyIndices.countP fun i => (s.enemy i).live

structure GameInv (s : GameLogicState) : Prop where
  enemies : ∀ i : Fin MAX_ENEMIES, (i : Int) < s.enemyCount → EnemyOk (s.enemy i)
  counted : s.enemiesRemaining = liveCount s
  round_pos : 1 ≤ s.round

structure EnemyStep (s s' : GameLogicState) : Prop where
  inv : GameInv s'
  count : s'.enemyCount = s.enemyCount
  round : s'.round = s.round
  scene : s'.scene = s.scene
  dead : ∀ i : Fin MAX_ENEMIES, (i : Int) < s.enemyCount → (s.enemy i).state = .ENEMY_DEAD →
    s'.enemy i = s.enemy i

/-- A piece of a frame that leaves the enemies, their counters, the round and the scene alone. -/
structure SameEnemies (s s' : GameLogicState) : Prop where
  enemies : s'.enemies = s.enemies
  count : s'.enemyCount = s.enemyCount
  remaining : s'.enemiesRemaining = s.enemiesRemaining
  round : s'.round = s.round
  scene : s'.scene = s.scene

/-! ### One enemy -/

theorem EnemyOk.live_eq {e : Enemy} (h : EnemyOk e) : e.live = e.base.active := by
  unfold Enemy.live
  cases ha : e.base.active
  · simp
  · have : e.state ≠ .ENEMY_DEAD := fun hd => by simp [h.dead_iff.1 hd] at ha
    simp [this]

theorem EnemyOk.inflateLevel_nonneg {e : Enemy} (h : EnemyOk e) (hd : e.state ≠ .ENEMY_DEAD) :
    0 ≤ e.inflateLevel := by
  cases hs : e.state
  · rw [h.calm (.inl hs)]
  · rw [h.calm (.inr hs)]
  · have := h.inflating hs
    omega
  · exact (h.paralyzed hs).2.2.2.2
  · exact absurd hs hd

theorem Enemy.live_iff {e : Enemy} : e.live = true ↔ e.base.active = true ∧ e.state ≠ .ENEMY_DEAD := by
  simp [Enemy.live]

/-- A killed enemy is in a consistent state, whatever it was. -/
theorem EnemyOk.kill (e : Enemy) : EnemyOk e.kill where
  dead_iff := by simp [Enemy.kill]
  inflating := by simp [Enemy.kill]
  calm := by simp [Enemy.kill]
  paralyzed := by simp [Enemy.kill]

@[simp] theorem Enemy.live_kill (e : Enemy) : e.kill.live = false := by
  simp [Enemy.kill, Enemy.live]

/-- An active inflating enemy is consistent when its level is in range. -/
theorem EnemyOk.of_inflating {e : Enemy} (hs : e.state = .ENEMY_INFLATING)
    (ha : e.base.active = true) (h : 1 ≤ e.inflateLevel ∧ e.inflateLevel < INFLATE_LEVELS) :
    EnemyOk e where
  dead_iff := by simp [hs, ha]
  inflating _ := h
  calm := by simp [hs]
  paralyzed := by simp [hs]

/-- An active paralysed enemy is consistent when its blinks and timer are in range. -/
theorem EnemyOk.of_paralyzed {e : Enemy} (hs : e.state = .ENEMY_PARALYZED)
    (ha : e.base.active = true)
    (h : 1 ≤ e.blinkCount ∧ e.blinkCount ≤ 10 ∧ 0 ≤ e.paralyzedTimer ∧ e.paralyzedTimer ≤ 5 ∧
      0 ≤ e.inflateLevel) : EnemyOk e where
  dead_iff := by simp [hs, ha]
  inflating := by simp [hs]
  calm := by simp [hs]
  paralyzed _ := h

theorem EnemyOk.active {e : Enemy} (h : EnemyOk e) (hd : e.state ≠ .ENEMY_DEAD) :
    e.base.active = true := by
  cases ha : e.base.active
  · exact absurd (h.dead_iff.2 ha) hd
  · rfl

/-! ### Counting -/

theorem liveCount_congr {s s' : GameLogicState} (hc : s'.enemyCount = s.enemyCount)
    (h : ∀ j, s'.enemy j = s.enemy j) : liveCount s' = liveCount s := by
  have hidx : s'.enemyIndices = s.enemyIndices := by simp [enemyIndices, hc]
  simp only [liveCount, hidx, h]

theorem liveCount_setEnemy {s : GameLogicState} {i : Fin MAX_ENEMIES} {e : Enemy}
    (h : e.live = (s.enemy i).live) : liveCount (s.setEnemy i e) = liveCount s := by
  unfold liveCount
  rw [enemyIndices_setEnemy]
  refine List.countP_congr fun j _ => ?_
  by_cases hj : j = i
  · subst hj
    simp [h]
  · simp [hj]

theorem liveCount_kill {s : GameLogicState} {i : Fin MAX_ENEMIES} {e : Enemy}
    (hc : (i : Int) < s.enemyCount) (hl : (s.enemy i).live = true) (he : e.live = false) :
    liveCount s = liveCount (s.setEnemy i e) + 1 := by
  unfold liveCount
  rw [enemyIndices_setEnemy]
  refine Lib.countP_eq_add_one_of_agree (nodup_enemyIndices s) (mem_enemyIndices.2 hc)
    (fun j _ hj => by simp [hj]) hl (by simp [he])

/-! ### Steps -/

theorem EnemyStep.refl {s : GameLogicState} (hi : GameInv s) : EnemyStep s s :=
  ⟨hi, rfl, rfl, rfl, fun _ _ _ => rfl⟩

theorem EnemyStep.trans {s₁ s₂ s₃ : GameLogicState} (h₁ : EnemyStep s₁ s₂)
    (h₂ : EnemyStep s₂ s₃) : EnemyStep s₁ s₃ where
  inv := h₂.inv
  count := h₂.count.trans h₁.count
  round := h₂.round.trans h₁.round
  scene := h₂.scene.trans h₁.scene
  dead i hc hd := by
    have h₁i := h₁.dead i hc hd
    rw [h₂.dead i (h₁.count ▸ hc) (h₁i ▸ hd), h₁i]

theorem SameEnemies.refl (s : GameLogicState) : SameEnemies s s := ⟨rfl, rfl, rfl, rfl, rfl⟩

theorem SameEnemies.trans {s₁ s₂ s₃ : GameLogicState} (h₁ : SameEnemies s₁ s₂)
    (h₂ : SameEnemies s₂ s₃) : SameEnemies s₁ s₃ :=
  ⟨h₂.enemies.trans h₁.enemies, h₂.count.trans h₁.count, h₂.remaining.trans h₁.remaining,
    h₂.round.trans h₁.round, h₂.scene.trans h₁.scene⟩

theorem SameEnemies.enemy_eq {s s' : GameLogicState} (h : SameEnemies s s') (i : Fin MAX_ENEMIES) :
    s'.enemy i = s.enemy i := by
  simp [enemy, h.enemies]

/-- The invariant reads only the enemies, their counters and the round. -/
theorem GameInv.congr {s s' : GameLogicState} (hi : GameInv s) (he : s'.enemies = s.enemies)
    (hc : s'.enemyCount = s.enemyCount) (hr : s'.enemiesRemaining = s.enemiesRemaining)
    (hround : s'.round = s.round) : GameInv s' := by
  have heq : ∀ i, s'.enemy i = s.enemy i := fun i => by simp [enemy, he]
  refine ⟨fun i hi' => ?_, ?_, ?_⟩
  · rw [heq]
    exact hi.enemies i (hc ▸ hi')
  · rw [hr, liveCount_congr hc heq, hi.counted]
  · rw [hround]
    exact hi.round_pos

theorem SameEnemies.step {s s' : GameLogicState} (hi : GameInv s) (h : SameEnemies s s') :
    EnemyStep s s' :=
  ⟨hi.congr h.enemies h.count h.remaining h.round, h.count, h.round, h.scene,
    fun i _ _ => h.enemy_eq i⟩

/-- A live enemy of the round may change into any consistent live enemy. -/
theorem EnemyStep.setEnemy {s : GameLogicState} {i : Fin MAX_ENEMIES} {e : Enemy}
    (hi : GameInv s) (hc : (i : Int) < s.enemyCount) (hl : (s.enemy i).live = true)
    (hok : EnemyOk e) (he : e.live = true) : EnemyStep s (s.setEnemy i e) where
  inv :=
    { enemies := fun j hj => by
        by_cases hji : j = i
        · subst hji
          simpa using hok
        · simpa [hji] using hi.enemies j hj
      counted := by
        rw [liveCount_setEnemy (he.trans hl.symm)]
        exact hi.counted
      round_pos := hi.round_pos }
  count := rfl
  round := rfl
  scene := rfl
  dead j _ hd := by
    have hji : j ≠ i := by
      rintro rfl
      simp [Enemy.live_iff, hd] at hl
    simp [hji]

/-- The kill of a live enemy of the round: it is marked dead whatever it was changed into
before, and the counter drops with the count. -/
theorem EnemyStep.kill {s : GameLogicState} {i : Fin MAX_ENEMIES} (hi : GameInv s)
    (hc : (i : Int) < s.enemyCount) (hl : (s.enemy i).live = true) (e : Enemy) (points : Int) :
    EnemyStep s (killEnemy (s.setEnemy i e) i points) := by
  -- after the kill the enemies are those of the state with enemy `i` killed in place
  have hsame : liveCount (killEnemy (s.setEnemy i e) i points) = liveCount (s.setEnemy i e.kill) :=
    liveCount_congr rfl fun j => by by_cases hj : j = i <;> simp [hj]
  have hk : liveCount s = liveCount (killEnemy (s.setEnemy i e) i points) + 1 := by
    rw [hsame]
    exact liveCount_kill hc hl (Enemy.live_kill e)
  have hji : ∀ j, (s.enemy j).state = .ENEMY_DEAD → j ≠ i := by
    rintro j hd rfl
    simp [Enemy.live_iff, hd] at hl
  refine ⟨⟨fun j hj => ?_, ?_, hi.round_pos⟩, rfl, rfl, rfl, fun j _ hd => ?_⟩
  · by_cases hj' : j = i
    · subst hj'
      simpa using EnemyOk.kill e
    · simpa [hj'] using hi.enemies j hj
  · have hr : (killEnemy (s.setEnemy i e) i points).enemiesRemaining = s.enemiesRemaining - 1 :=
      rfl
    rw [hr, hi.counted, hk]
    omega
  · simp [hji j hd]

/-- A loop whose every round is an `EnemyStep` from where the loop stands, started from a state
an `EnemyStep` away, ends an `EnemyStep` away. -/
theorem EnemyStep.foldl_from {α : Type} {f : GameLogicState → α → GameLogicState}
    {s t : GameLogicState} (ht : EnemyStep s t) {l : List α}
    (h : ∀ a ∈ l, ∀ u, EnemyStep s u → EnemyStep u (f u a)) : EnemyStep s (l.foldl f t) := by
  induction l generalizing t with
  | nil => exact ht
  | cons a l ih =>
    exact ih (ht.trans (h a List.mem_cons_self t ht))
      (fun b hb => h b (List.mem_cons_of_mem _ hb))

theorem EnemyStep.foldl {α : Type} {f : GameLogicState → α → GameLogicState}
    {s : GameLogicState} (hi : GameInv s) {l : List α}
    (h : ∀ a ∈ l, ∀ t, EnemyStep s t → EnemyStep t (f t a)) : EnemyStep s (l.foldl f s) :=
  .foldl_from (.refl hi) h

/-- A step from a state with the same enemies, counters and round is a step from this one. -/
theorem EnemyStep.of_same {s t u : GameLogicState} (h : SameEnemies s t) (ht : EnemyStep t u) :
    EnemyStep s u where
  inv := ht.inv
  count := ht.count.trans h.count
  round := ht.round.trans h.round
  scene := ht.scene.trans h.scene
  dead i hc hd := by
    rw [← h.enemy_eq] at hd ⊢
    exact ht.dead i (h.count ▸ hc) hd

/-- A step followed by a piece that leaves the enemies alone. -/
theorem EnemyStep.then_same {s t u : GameLogicState} (h : EnemyStep s t) (h' : SameEnemies t u) :
    EnemyStep s u := h.trans (h'.step h.inv)

theorem GameInv.of_same {s t : GameLogicState} (hi : GameInv s) (h : SameEnemies s t) :
    GameInv t := (h.step hi).inv

/-- Two versions of an enemy that agree on everything the invariant reads. -/
structure SameStatus (e e' : Enemy) : Prop where
  state : e'.state = e.state
  active : e'.base.active = e.base.active
  inflateLevel : e'.inflateLevel = e.inflateLevel
  blinkCount : e'.blinkCount = e.blinkCount
  paralyzedTimer : e'.paralyzedTimer = e.paralyzedTimer

theorem SameStatus.enemyOk {e e' : Enemy} (h : SameStatus e e') (he : EnemyOk e) :
    EnemyOk e' where
  dead_iff := by rw [h.state, h.active]; exact he.dead_iff
  inflating := by rw [h.state, h.inflateLevel]; exact he.inflating
  calm := by rw [h.state, h.inflateLevel]; exact he.calm
  paralyzed := by
    rw [h.state, h.inflateLevel, h.blinkCount, h.paralyzedTimer]; exact he.paralyzed

theorem SameStatus.live_eq {e e' : Enemy} (h : SameStatus e e') : e'.live = e.live := by
  simp [Enemy.live, h.state, h.active]

/-- A live enemy of the round may change anything the invariant does not read. -/
theorem EnemyStep.setEnemy_same {s : GameLogicState} {i : Fin MAX_ENEMIES} {e : Enemy}
    (hi : GameInv s) (hc : (i : Int) < s.enemyCount) (hl : (s.enemy i).live = true)
    (h : SameStatus (s.enemy i) e) : EnemyStep s (s.setEnemy i e) :=
  .setEnemy hi hc hl (h.enemyOk (hi.enemies i hc)) (h.live_eq.trans hl)

/-- A live enemy that moves in the tunnels or through the dirt, not inflated. -/
structure Enemy.Calm (e : Enemy) : Prop where
  active : e.base.active = true
  state : e.state = .ENEMY_NORMAL ∨ e.state = .ENEMY_GHOST
  inflateLevel : e.inflateLevel = 0

theorem Enemy.Calm.enemyOk {e : Enemy} (h : e.Calm) : EnemyOk e where
  dead_iff := by
    rw [h.active]
    rcases h.state with hs | hs <;> simp [hs]
  inflating hs := by rcases h.state with h' | h' <;> simp [h'] at hs
  calm _ := h.inflateLevel
  paralyzed hs := by rcases h.state with h' | h' <;> simp [h'] at hs

theorem Enemy.Calm.live {e : Enemy} (h : e.Calm) : e.live = true := by
  rw [h.enemyOk.live_eq, h.active]

/-- A consistent enemy that is neither dead, paralysed nor inflating is calm. -/
theorem EnemyOk.calm_of {e : Enemy} (h : EnemyOk e) (hd : e.state ≠ .ENEMY_DEAD)
    (hp : e.state ≠ .ENEMY_PARALYZED) (hf : e.state ≠ .ENEMY_INFLATING) : e.Calm where
  active := h.active hd
  state := by cases hs : e.state <;> simp_all
  inflateLevel := h.calm (by cases hs : e.state <;> simp_all)

theorem SameStatus.refl (e : Enemy) : SameStatus e e := ⟨rfl, rfl, rfl, rfl, rfl⟩

theorem SameStatus.trans {e₁ e₂ e₃ : Enemy} (h₁ : SameStatus e₁ e₂) (h₂ : SameStatus e₂ e₃) :
    SameStatus e₁ e₃ :=
  ⟨h₂.state.trans h₁.state, h₂.active.trans h₁.active, h₂.inflateLevel.trans h₁.inflateLevel,
    h₂.blinkCount.trans h₁.blinkCount, h₂.paralyzedTimer.trans h₁.paralyzedTimer⟩

theorem Enemy.Calm.of_same {e e' : Enemy} (h : e.Calm) (hs : SameStatus e e') : e'.Calm :=
  ⟨hs.active.trans h.active, hs.state ▸ h.state, hs.inflateLevel.trans h.inflateLevel⟩

end Zeos.Game
