import Zeos.Kernel.Defs

/-! # The scheduler, abstractly

What the four queues of the kernel are for, as lists of tasks: `freequeue` holds the free task
structures, `readyqueue` the tasks waiting for the processor, `blockedqueue` those blocked by
`sys_block` and `tick_blockedqueue` those waiting for a clock tick. With the running task they
place every task but idle exactly once (`Wf`), and a task's place gives its status (`statusOf`).

The kernel moves tasks by three operations: `moveTo` unlinks a task from wherever it waits and
appends it to a queue, `dispatch` (`sched_next_rr`) runs the first ready task or else idle, and
`wakeAll` (the loop of `scheduler`) makes every task waiting for a tick ready; `reschedule` is the
rest of `scheduler`. Between a task's leaving the processor and the next dispatch the running task
is parked in a queue, so the invariant without its clause on the running task (`Placed`) is what
the operations keep, and `dispatch` restores the whole of it. Idle belongs to no queue, but the
model lets it be ready, which is what `scheduler` does to it when it is preempted. -/

namespace Zeos

open Function

/-- The scheduler's state as lists: what each queue holds, the running task and idle. -/
@[ext] structure Sched where
  queue : Queue → List Slot
  current : Slot
  idle : Slot

namespace Sched

/-- Task `t` waits in some queue. -/
def Queued (s : Sched) (t : Slot) : Prop := ∃ q, t ∈ s.queue q

/-- The status a task's place gives it: ready in `readyqueue`, blocked in either blocked queue,
    running anywhere else. -/
def statusOf (s : Sched) (t : Slot) : TaskStatus :=
  if t ∈ s.queue .readyqueue then .ST_READY
  else if t ∈ s.queue .blockedqueue ∨ t ∈ s.queue .tickBlockedqueue then .ST_BLOCKED
  else .ST_RUN

/-- The queues hold no task twice, and no task in two queues. -/
structure Disjoint (s : Sched) : Prop where
  nodup : ∀ q, (s.queue q).Nodup
  unique : ∀ q q' t, t ∈ s.queue q → t ∈ s.queue q' → q = q'

/-- Every task but idle and the running one waits in a queue, and idle only ever in
    `readyqueue`. -/
structure Placed (s : Sched) : Prop extends s.Disjoint where
  idle : ∀ q, s.idle ∈ s.queue q → q = .readyqueue
  cover : ∀ t, t ≠ s.idle → t ≠ s.current → s.Queued t

/-- The scheduler's invariant: the running task waits nowhere. -/
structure Wf (s : Sched) : Prop extends s.Placed where
  current : ¬ s.Queued s.current

/-! ### Operations -/

/-- Unlink `t` from the queue it waits in, if any. -/
def remove (s : Sched) (t : Slot) : Sched := { s with queue := fun q => (s.queue q).erase t }

/-- Append `t` to queue `q`. -/
def enqueue (s : Sched) (t : Slot) (q : Queue) : Sched :=
  { s with queue := update s.queue q (s.queue q ++ [t]) }

/-- `update_process_state_rr(t, q)` and every `list_add_tail` of a task that waits nowhere. -/
def moveTo (s : Sched) (t : Slot) (q : Queue) : Sched := (s.remove t).enqueue t q

/-- `sched_next_rr()`: the first ready task leaves `readyqueue` and runs; idle runs when none is
    ready. -/
def dispatch (s : Sched) : Sched :=
  match s.queue .readyqueue with
  | [] => { s with current := s.idle }
  | t :: _ => { s.remove t with current := t }

/-- The loop of `scheduler`: the tasks waiting for a tick join `readyqueue`, in order. -/
def wakeAll (s : Sched) : Sched :=
  let ready := s.queue .readyqueue ++ s.queue .tickBlockedqueue
  { s with queue := update (update s.queue .tickBlockedqueue []) .readyqueue ready }

/-- The rest of `scheduler` when `switch` is what `needs_sched_rr` says: the running task goes
    back to `readyqueue` unless it is blocked, and the next task is dispatched. -/
def reschedule (s : Sched) (switch : Bool) : Sched :=
  if switch then
    (if s.statusOf s.current = .ST_BLOCKED then s else s.moveTo s.current .readyqueue).dispatch
  else s

variable {s : Sched} {t u : Slot} {q q' : Queue}

@[simp] theorem remove_queue : (s.remove t).queue q = (s.queue q).erase t := rfl
@[simp] theorem remove_current : (s.remove t).current = s.current := rfl
@[simp] theorem remove_idle : (s.remove t).idle = s.idle := rfl

@[simp] theorem enqueue_queue :
    (s.enqueue t q).queue q' = if q' = q then s.queue q ++ [t] else s.queue q' := by
  simp only [enqueue, update_apply]

@[simp] theorem moveTo_current : (s.moveTo t q).current = s.current := rfl
@[simp] theorem moveTo_idle : (s.moveTo t q).idle = s.idle := rfl
@[simp] theorem wakeAll_current : s.wakeAll.current = s.current := rfl
@[simp] theorem wakeAll_idle : s.wakeAll.idle = s.idle := rfl

@[simp] theorem dispatch_idle : s.dispatch.idle = s.idle := by
  unfold dispatch; split <;> rfl

@[simp] theorem reschedule_idle {switch : Bool} : (s.reschedule switch).idle = s.idle := by
  unfold reschedule; split_ifs <;> simp

theorem wakeAll_queue :
    s.wakeAll.queue q = if q = .readyqueue then s.queue .readyqueue ++ s.queue .tickBlockedqueue
      else if q = .tickBlockedqueue then [] else s.queue q := by
  simp only [wakeAll, update_apply]

theorem Disjoint.mem_erase (hd : s.Disjoint) : u ∈ (s.queue q).erase t ↔ u ≠ t ∧ u ∈ s.queue q :=
  (hd.nodup q).mem_erase_iff

/-- Where a task is after `moveTo t q`: `t` in `q`, every other task where it was. -/
theorem Disjoint.mem_moveTo (hd : s.Disjoint) :
    u ∈ (s.moveTo t q).queue q' ↔ (u = t ∧ q' = q) ∨ (u ≠ t ∧ u ∈ s.queue q') := by
  simp only [moveTo, enqueue_queue, remove_queue]
  split_ifs with hq
  · subst hq
    rw [List.mem_append, hd.mem_erase, List.mem_singleton]
    tauto
  · rw [hd.mem_erase]; tauto

theorem Disjoint.moveTo (hd : s.Disjoint) : (s.moveTo t q).Disjoint := by
  refine ⟨fun q' => ?_, fun q₁ q₂ v h₁ h₂ => ?_⟩
  · simp only [Sched.moveTo, enqueue_queue, remove_queue]
    split_ifs
    · exact ((hd.nodup q).erase t).append (List.nodup_singleton t)
        (by simpa using (hd.nodup q).not_mem_erase)
    · exact (hd.nodup q').erase t
  · rw [hd.mem_moveTo] at h₁ h₂
    rcases h₁ with ⟨hv, hq₁⟩ | ⟨hv, h₁⟩ <;> rcases h₂ with ⟨hv', hq₂⟩ | ⟨hv', h₂⟩
    · exact hq₁.trans hq₂.symm
    · exact absurd hv hv'
    · exact absurd hv' hv
    · exact hd.unique q₁ q₂ v h₁ h₂

theorem Disjoint.remove (hd : s.Disjoint) : (s.remove t).Disjoint :=
  ⟨fun q => (hd.nodup q).erase t, fun q q' v h₁ h₂ =>
    hd.unique q q' v (List.mem_of_mem_erase h₁) (List.mem_of_mem_erase h₂)⟩

theorem mem_wakeAll : u ∈ s.wakeAll.queue q ↔
    (q = .readyqueue ∧ (u ∈ s.queue .readyqueue ∨ u ∈ s.queue .tickBlockedqueue)) ∨
      (q ≠ .readyqueue ∧ q ≠ .tickBlockedqueue ∧ u ∈ s.queue q) := by
  rw [wakeAll_queue]
  split_ifs with h₁ h₂ <;> simp_all

theorem Disjoint.wakeAll (hd : s.Disjoint) : s.wakeAll.Disjoint := by
  refine ⟨fun q => ?_, fun q₁ q₂ v h₁ h₂ => ?_⟩
  · rw [wakeAll_queue]
    split_ifs
    · exact (hd.nodup _).append (hd.nodup _) (fun a ha hb => by
        cases hd.unique _ _ a ha hb)
    · exact List.nodup_nil
    · exact hd.nodup q
  · rw [mem_wakeAll] at h₁ h₂
    -- a task of `tick_blockedqueue` is now ready, any other one kept its queue
    rcases h₁ with ⟨rfl, h₁⟩ | ⟨hn₁, hn₁', h₁⟩ <;> rcases h₂ with ⟨rfl, h₂⟩ | ⟨hn₂, hn₂', h₂⟩
    · rfl
    · rcases h₁ with h₁ | h₁
      · exact absurd (hd.unique _ _ v h₁ h₂).symm hn₂
      · exact absurd (hd.unique _ _ v h₁ h₂).symm hn₂'
    · rcases h₂ with h₂ | h₂
      · exact absurd (hd.unique _ _ v h₁ h₂) hn₁
      · exact absurd (hd.unique _ _ v h₁ h₂) hn₁'
    · exact hd.unique _ _ v h₁ h₂

theorem remove_of_not_queued (ht : ¬ s.Queued t) : s.remove t = s := by
  ext1
  · funext q; exact List.erase_of_not_mem fun h => ht ⟨q, h⟩
  · rfl
  · rfl

theorem not_queued_remove (hd : s.Disjoint) : ¬ (s.remove t).Queued t :=
  fun ⟨_, h⟩ => (hd.mem_erase.1 h).1 rfl

theorem wakeAll_of_nil (h : s.queue .tickBlockedqueue = []) : s.wakeAll = s := by
  ext1
  · funext q
    rw [wakeAll_queue]
    split_ifs with h₁ h₂
    · subst h₁; rw [h, List.append_nil]
    · subst h₂; exact h.symm
    · rfl
  · rfl
  · rfl

/-- Waking the first task waiting for a tick, then the others, wakes them all. -/
theorem Disjoint.wakeAll_moveTo (hd : s.Disjoint) {rest : List Slot}
    (h : s.queue .tickBlockedqueue = t :: rest) : (s.moveTo t .readyqueue).wakeAll = s.wakeAll := by
  have htT : t ∈ s.queue .tickBlockedqueue := h ▸ List.mem_cons_self
  have hnot : ∀ q, q ≠ .tickBlockedqueue → t ∉ s.queue q := fun q hq ht =>
    hq (hd.unique _ _ t ht htT)
  have hR : (s.queue .readyqueue).erase t = s.queue .readyqueue :=
    List.erase_of_not_mem (hnot _ (by decide))
  ext1
  · funext q
    cases q with
    | readyqueue => simp [wakeAll_queue, Sched.moveTo, hR, h]
    | tickBlockedqueue => simp [wakeAll_queue]
    | freequeue =>
      simp [wakeAll_queue, Sched.moveTo, List.erase_of_not_mem (hnot .freequeue (by decide))]
    | blockedqueue =>
      simp [wakeAll_queue, Sched.moveTo, List.erase_of_not_mem (hnot .blockedqueue (by decide))]
  · rfl
  · rfl

/-! ### The free tasks -/

theorem moveTo_free (ht : t ∉ s.queue .freequeue) (hq : q ≠ .freequeue) :
    (s.moveTo t q).queue .freequeue = s.queue .freequeue := by
  simp [Sched.moveTo, Ne.symm hq, List.erase_of_not_mem ht]

theorem wakeAll_free : s.wakeAll.queue .freequeue = s.queue .freequeue := by
  simp [wakeAll_queue]

theorem Disjoint.dispatch_free (hd : s.Disjoint) : s.dispatch.queue .freequeue = s.queue .freequeue := by
  unfold Sched.dispatch
  split
  · rfl
  · next n rest hR =>
    have hn : n ∈ s.queue .readyqueue := hR ▸ List.mem_cons_self
    exact List.erase_of_not_mem fun h => by cases hd.unique _ _ _ h hn

theorem Disjoint.reschedule_free (hd : s.Disjoint) (hc : s.current ∉ s.queue .freequeue) (b : Bool) :
    (s.reschedule b).queue .freequeue = s.queue .freequeue := by
  unfold Sched.reschedule
  cases b with
  | false => rfl
  | true =>
    simp only [if_true]
    split_ifs
    · exact hd.dispatch_free
    · rw [hd.moveTo.dispatch_free, moveTo_free hc (by decide)]

/-! ### Statuses -/

/-- The status `moveTo` gives: ready in `readyqueue`, blocked in a blocked queue. -/
def queueStatus : Queue → TaskStatus
  | .readyqueue => .ST_READY
  | .blockedqueue | .tickBlockedqueue => .ST_BLOCKED
  | .freequeue => .ST_RUN

theorem statusOf_eq_of_mem (hd : s.Disjoint) (ht : t ∈ s.queue q) : s.statusOf t = queueStatus q := by
  have hq : ∀ q', t ∈ s.queue q' → q' = q := fun q' h' => hd.unique _ _ t h' ht
  unfold statusOf
  cases q with
  | freequeue =>
    have h₁ : t ∉ s.queue .readyqueue := fun h => by cases hq _ h
    have h₂ : t ∉ s.queue .blockedqueue := fun h => by cases hq _ h
    have h₃ : t ∉ s.queue .tickBlockedqueue := fun h => by cases hq _ h
    simp [h₁, h₂, h₃, queueStatus]
  | readyqueue => simp [ht, queueStatus]
  | blockedqueue =>
    have h₁ : t ∉ s.queue .readyqueue := fun h => by cases hq _ h
    simp [h₁, ht, queueStatus]
  | tickBlockedqueue =>
    have h₁ : t ∉ s.queue .readyqueue := fun h => by cases hq _ h
    simp [h₁, ht, queueStatus]

theorem statusOf_of_not_queued (ht : ¬ s.Queued t) : s.statusOf t = .ST_RUN := by
  have : ∀ q, t ∉ s.queue q := fun q h => ht ⟨q, h⟩
  simp [statusOf, this]

theorem Disjoint.statusOf_moveTo (hd : s.Disjoint) :
    (s.moveTo t q).statusOf u = if u = t then queueStatus q else s.statusOf u := by
  split_ifs with hu
  · subst hu
    exact statusOf_eq_of_mem hd.moveTo (hd.mem_moveTo.2 (.inl ⟨rfl, rfl⟩))
  · have hm : ∀ q', u ∈ (s.moveTo t q).queue q' ↔ u ∈ s.queue q' := fun q' => by
      rw [hd.mem_moveTo]; simp [hu]
    simp only [statusOf, hm]

theorem Disjoint.statusOf_remove (hd : s.Disjoint) :
    (s.remove t).statusOf u = if u = t then .ST_RUN else s.statusOf u := by
  split_ifs with hu
  · subst hu
    exact statusOf_of_not_queued fun ⟨q, h⟩ => ((hd.mem_erase).1 h).1 rfl
  · have hm : ∀ q', u ∈ (s.remove t).queue q' ↔ u ∈ s.queue q' := fun q' => by
      rw [remove_queue, hd.mem_erase]; simp [hu]
    simp only [statusOf, hm]

theorem statusOf_wakeAll :
    s.wakeAll.statusOf u = if u ∈ s.queue .tickBlockedqueue then .ST_READY else s.statusOf u := by
  simp only [statusOf, wakeAll_queue]
  split_ifs <;> simp_all

/-- A blocked task waits in one of the blocked queues. -/
theorem queued_of_statusOf_blocked (h : s.statusOf t = .ST_BLOCKED) : s.Queued t := by
  unfold statusOf at h
  split_ifs at h with h₁ h₂
  rcases h₂ with h₂ | h₂
  · exact ⟨_, h₂⟩
  · exact ⟨_, h₂⟩

/-- Waking the tasks that wait for a tick queues no task that waited nowhere. -/
theorem not_queued_wakeAll (ht : ¬ s.Queued t) : ¬ s.wakeAll.Queued t := by
  rintro ⟨q, hq⟩
  rcases mem_wakeAll.1 hq with ⟨-, h | h⟩ | ⟨-, -, h⟩
  · exact ht ⟨_, h⟩
  · exact ht ⟨_, h⟩
  · exact ht ⟨_, h⟩

/-! ### The invariant -/

theorem Placed.moveTo (h : s.Placed) (hq : t = s.idle → q = .readyqueue) :
    (s.moveTo t q).Placed := by
  have hd := h.toDisjoint
  refine ⟨hd.moveTo, fun q' hi => ?_, fun v hv hc => ?_⟩
  · rcases hd.mem_moveTo.1 hi with ⟨hit, rfl⟩ | ⟨-, hi⟩
    · exact hq hit.symm
    · exact h.idle q' hi
  · by_cases hvt : v = t
    · exact ⟨q, hd.mem_moveTo.2 (.inl ⟨hvt, rfl⟩)⟩
    · obtain ⟨q', hq'⟩ := h.cover v hv hc
      exact ⟨q', hd.mem_moveTo.2 (.inr ⟨hvt, hq'⟩)⟩

theorem Placed.wakeAll (h : s.Placed) : s.wakeAll.Placed := by
  have hd := h.toDisjoint
  refine ⟨hd.wakeAll, fun q hi => ?_, fun v hv hc => ?_⟩
  · rcases mem_wakeAll.1 hi with ⟨rfl, -⟩ | ⟨-, -, hi⟩
    · rfl
    · exact h.idle q hi
  · obtain ⟨q, hq⟩ := h.cover v hv hc
    by_cases hR : q = .readyqueue ∨ q = .tickBlockedqueue
    · refine ⟨.readyqueue, mem_wakeAll.2 (.inl ⟨rfl, ?_⟩)⟩
      rcases hR with rfl | rfl
      · exact .inl hq
      · exact .inr hq
    · obtain ⟨hR₁, hR₂⟩ := not_or.1 hR
      exact ⟨q, mem_wakeAll.2 (.inr ⟨hR₁, hR₂, hq⟩)⟩

theorem Placed.wf (h : s.Placed) (hc : ¬ s.Queued s.current) : s.Wf := ⟨h, hc⟩

theorem Placed.idle_not_free (h : s.Placed) : s.idle ∉ s.queue .freequeue :=
  fun hi => by cases h.idle _ hi

/-- Moving a task that does not run keeps the invariant. -/
theorem Wf.moveTo (h : s.Wf) (hq : t = s.idle → q = .readyqueue) (hc : t ≠ s.current) :
    (s.moveTo t q).Wf := by
  refine (h.toPlaced.moveTo hq).wf fun ⟨q', hq'⟩ => ?_
  rcases h.toDisjoint.mem_moveTo.1 hq' with ⟨e, -⟩ | ⟨-, h'⟩
  · exact hc e.symm
  · exact h.current ⟨q', h'⟩

/-- `sched_next_rr` restores the invariant once the task that ran is parked in a queue (or is
    idle). -/
theorem Placed.dispatch (h : s.Placed) (hc : s.current = s.idle ∨ s.Queued s.current) :
    s.dispatch.Wf := by
  have hd := h.toDisjoint
  unfold Sched.dispatch
  split
  · next hR =>
    -- nothing is ready: idle, which can only wait in `readyqueue`, runs
    refine ⟨⟨⟨hd.nodup, hd.unique⟩, h.idle, fun v hv hvc => ?_⟩, fun ⟨q, hq⟩ => ?_⟩
    · rcases hc with hc | hc
      · exact h.cover v hv (hc ▸ hvc)
      · by_cases hvc' : v = s.current
        · exact hvc' ▸ hc
        · exact h.cover v hv hvc'
    · have := h.idle q hq; subst this; simp [hR] at hq
  · next n rest hR =>
    refine ⟨⟨⟨hd.remove.nodup, hd.remove.unique⟩, fun q hq => h.idle q (List.mem_of_mem_erase hq), fun v hv hvn => ?_⟩,
      fun ⟨q, hq⟩ => ?_⟩
    · -- a task that waited still waits, the one that ran is parked
      obtain ⟨q, hq⟩ : s.Queued v := by
        by_cases hvc : v = s.current
        · rcases hc with hc | hc
          · exact absurd (hvc.trans hc) hv
          · exact hvc ▸ hc
        · exact h.cover v hv hvc
      exact ⟨q, hd.mem_erase.2 ⟨hvn, hq⟩⟩
    · exact ((hd.mem_erase).1 hq).1 rfl

/-- `scheduler` restores the invariant, provided that a task that keeps the processor does not
    wait in a queue. -/
theorem Placed.reschedule {switch : Bool} (h : s.Placed)
    (hb : switch = false → ¬ s.Queued s.current) : (s.reschedule switch).Wf := by
  unfold Sched.reschedule
  cases switch with
  | false => exact h.wf (hb rfl)
  | true =>
    simp only [if_true]
    split_ifs with hst
    · -- a blocked task waits in one of the blocked queues
      exact h.dispatch (.inr (queued_of_statusOf_blocked hst))
    · refine (h.moveTo fun _ => rfl).dispatch (.inr ⟨.readyqueue, ?_⟩)
      exact h.toDisjoint.mem_moveTo.2 (.inl ⟨rfl, rfl⟩)

end Sched

end Zeos
