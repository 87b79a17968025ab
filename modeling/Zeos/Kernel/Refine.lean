import Mathlib
import Zeos.Kernel.Frame
import Zeos.Kernel.Queues
import Zeos.Spec.Sched

/-! # The queues refine the abstract scheduler

`Refines k s` says that the kernel's four queues hold the lists of `s`, that the running task and
idle are those of `s`, and that every task that is not free has the status its place gives it.
Each scheduling function of `sched.c` does to the queues what an abstract operation of
`Zeos.Spec.Sched` does to the lists: `update_process_state_rr` is `moveTo`, `sched_next_rr` is
`dispatch`, the loop of `scheduler` is `wakeAll` and the rest of it `reschedule`. None of them
touches a node outside the queues or the thread data of a task (`QueueStep`). -/

namespace Zeos

open Function

/-- The kernel's queues hold the lists of `s`. -/
def QueuesHold (k : Kernel) (s : Sched) : Prop := ∀ q, QueueHolds k q (s.queue q)

/-- The kernel state `k` implements the abstract scheduler state `s`. -/
structure Refines (k : Kernel) (s : Sched) : Prop where
  queues : QueuesHold k s
  current : k.currentTask = some s.current
  idle : k.idleTask = some s.idle
  status : ∀ t, t ∉ s.queue .freequeue → (k.tasks t).status = s.statusOf t

/-- `k'` has the pointers of `k` at every node satisfying `P`. -/
def Kernel.AgreeOn (k k' : Kernel) (P : Node → Prop) : Prop :=
  ∀ a, P a → k'.links.next a = k.links.next a ∧ k'.links.prev a = k.links.prev a

/-- What the thread bookkeeping reads of a task. -/
structure ThreadData where
  PID : Int
  TID : Int
  threadCount : Int
  masterThread : Option Slot
  tidSlots : Nat → Int

/-- The thread part of a task structure. -/
def TaskStruct.threadData (t : TaskStruct) : ThreadData :=
  ⟨t.PID, t.TID, t.threadCount, t.masterThread, t.tidSlots⟩

/-- `k'` differs from `k` at most in the queue nodes, the statuses and data no invariant reads:
    every other node and the thread data of every task are those of `k`, and a store whose
    pointers stay within their family still does. -/
structure QueueStep (k k' : Kernel) : Prop where
  outside : k.AgreeOn k' fun a => a.family ≠ .sched
  threads : ∀ t, (k'.tasks t).threadData = (k.tasks t).threadData
  closed : k.Closed → k'.Closed
  nextPid : k.nextPid ≤ k'.nextPid

variable {k k' k'' : Kernel} {s : Sched} {t : Slot} {q : Queue}

namespace Kernel.AgreeOn

theorem refl (k : Kernel) (P : Node → Prop) : k.AgreeOn k P := fun _ _ => ⟨rfl, rfl⟩

theorem trans {P : Node → Prop} (h₁ : k.AgreeOn k' P) (h₂ : k'.AgreeOn k'' P) : k.AgreeOn k'' P :=
  fun a ha => ⟨(h₂ a ha).1.trans (h₁ a ha).1, (h₂ a ha).2.trans (h₁ a ha).2⟩

theorem mono {P Q : Node → Prop} (h : k.AgreeOn k' P) (hPQ : ∀ a, Q a → P a) : k.AgreeOn k' Q :=
  fun a ha => h a (hPQ a ha)

theorem of_links (h : k'.links = k.links) (P : Node → Prop) : k.AgreeOn k' P :=
  fun _ _ => by rw [h]; exact ⟨rfl, rfl⟩

end Kernel.AgreeOn

namespace QueueStep

theorem refl (k : Kernel) : QueueStep k k := ⟨.refl k _, fun _ => rfl, id, le_rfl⟩

theorem trans (h₁ : QueueStep k k') (h₂ : QueueStep k' k'') : QueueStep k k'' :=
  ⟨h₁.outside.trans h₂.outside, fun t => (h₂.threads t).trans (h₁.threads t), h₂.closed ∘ h₁.closed,
    h₁.nextPid.trans h₂.nextPid⟩

theorem of_sameCore (h : SameCore k k') : QueueStep k k' :=
  ⟨.of_links h.links _, fun t => by
    simp only [TaskStruct.threadData, h.PID, h.TID, h.threadCount, h.masterThread, h.tidSlots],
    h.closed, h.nextPid⟩

/-- Setting the status of a task is a queue step. -/
theorem setStatus (i : Slot) (st : TaskStatus) : QueueStep k (k.modifyTask i fun x => { x with status := st }) :=
  ⟨.of_links rfl _, fun t => by
    simp only [Kernel.modifyTask_tasks]
    split_ifs with h
    · subst h; rfl
    · rfl, fun hc => hc, le_rfl⟩

end QueueStep

/-! ### The queues as a family of rings -/

/-- The nodes of queue `q` are the head and `list` members. -/
theorem queueHolds_frame {l : List Slot} (h : QueueHolds k q l)
    (ha : k.AgreeOn k' fun a => a.family = .sched) : QueueHolds k' q l :=
  Links.ring_frame h fun a hmem => by
    refine ha a ?_
    simp only [List.mem_cons, List.mem_map] at hmem
    rcases hmem with rfl | ⟨t, -, rfl⟩ <;> rfl

theorem QueuesHold.rings (hq : QueuesHold k s) (hd : s.Disjoint) :
    Links.Rings k.links (fun _ : Queue => True) Node.head
      (fun q => (s.queue q).map fun t => .field t .list) := by
  refine ⟨fun q _ => hq q, fun i j _ _ hij a ha ha' => ?_⟩
  simp only [List.mem_cons, List.mem_map] at ha ha'
  rcases ha with rfl | ⟨t, ht, rfl⟩ <;> rcases ha' with h | ⟨t', ht', h⟩
  · exact hij (Node.head.inj h)
  · cases h
  · cases h
  · cases h; exact hij (hd.unique _ _ _ ht ht')

theorem map_field_erase (l : List Slot) (t : Slot) (m : Member) :
    (l.map fun u => Node.field u m).erase (.field t m) = (l.erase t).map fun u => .field u m :=
  (List.map_erase (fun a b h => by cases h; rfl) l).symm

/-- `list_del` of a task that waits in a queue is `remove`. -/
theorem listDel_queued (hq : QueuesHold k s) (hd : s.Disjoint) (ht : t ∈ s.queue q) :
    ∃ k', k.listDel (.field t .list) = some k' ∧ QueuesHold k' (s.remove t) ∧
      k' = k.setLinks k'.links ∧ k.AgreeOn k' fun a => a.family ≠ .sched := by
  obtain ⟨h', hdel, hrings, -, -, hout⟩ :=
    Links.rings_del (hq.rings hd) trivial (List.mem_map_of_mem (f := fun t => Node.field t .list) ht)
  refine ⟨k.setLinks h', by simp [Kernel.listDel, hdel], fun q' => ?_, rfl, fun a ha => hout a ?_⟩
  · have hr := hrings.ring q' trivial
    by_cases hq' : q' = q
    · subst hq'
      rwa [update_self, map_field_erase] at hr
    · rw [update_of_ne hq'] at hr
      have hnot : t ∉ s.queue q' := fun h => hq' (hd.unique _ _ _ h ht)
      show QueueHolds _ q' ((s.queue q').erase t)
      rwa [List.erase_of_not_mem hnot]
  · simp only [List.mem_cons, List.mem_map, not_or, not_exists, not_and]
    refine ⟨fun h => ha (h ▸ rfl), fun u _ h => ha (h ▸ rfl)⟩

/-- `list_add_tail` to a queue of a task that waits nowhere is `enqueue`. -/
theorem listAddTail_unqueued (hq : QueuesHold k s) (hd : s.Disjoint) (ht : ¬ s.Queued t) (q : Queue) :
    ∃ k', k.listAddTail (.field t .list) (.head q) = some k' ∧ QueuesHold k' (s.enqueue t q) ∧
      k' = k.setLinks k'.links ∧ k.AgreeOn k' fun a => a.family ≠ .sched := by
  have hnew : ∀ j, True → Node.field t .list ∉ Node.head j :: (s.queue j).map fun u => .field u .list :=
    fun j _ h => by
      simp only [List.mem_cons, List.mem_map] at h
      rcases h with h | ⟨u, hu, h⟩
      · cases h
      · cases h; exact ht ⟨j, hu⟩
  obtain ⟨h', hadd, hrings, hout⟩ := Links.rings_addTail (i := q) (hq.rings hd) trivial hnew
  refine ⟨k.setLinks h', by simp [Kernel.listAddTail, hadd], fun q' => ?_, rfl,
    fun a ha => hout a ?_ ?_⟩
  · have hr := hrings.ring q' trivial
    by_cases hq' : q' = q
    · subst hq'
      rw [update_self] at hr
      simpa [QueueHolds] using hr
    · rw [update_of_ne hq'] at hr
      simpa [QueueHolds, hq'] using hr
  · simp only [List.mem_cons, List.mem_map, not_or, not_exists, not_and]
    exact ⟨fun h => ha (h ▸ rfl), fun u _ h => ha (h ▸ rfl)⟩
  · rintro rfl; exact ha rfl

/-! ### Statuses and places -/

theorem Refines.queued_of_status (hr : Refines k s) (ht : t ∉ s.queue .freequeue)
    (hs : (k.tasks t).status ≠ .ST_RUN) : s.Queued t := by
  rw [hr.status t ht] at hs
  unfold Sched.statusOf at hs
  split_ifs at hs with h₁ h₂
  · exact ⟨_, h₁⟩
  · rcases h₂ with h₂ | h₂
    · exact ⟨_, h₂⟩
    · exact ⟨_, h₂⟩
  · exact absurd rfl hs

theorem Refines.not_queued_of_status (hr : Refines k s) (ht : t ∉ s.queue .freequeue)
    (hs : (k.tasks t).status = .ST_RUN) : ¬ s.Queued t := by
  rintro ⟨q, hq⟩
  rw [hr.status t ht] at hs
  unfold Sched.statusOf at hs
  split_ifs at hs with h₁ h₂ <;> try cases hs
  cases q with
  | freequeue => exact ht hq
  | readyqueue => exact h₁ hq
  | blockedqueue => exact h₂ (.inl hq)
  | tickBlockedqueue => exact h₂ (.inr hq)

theorem Refines.setLinks {h : Links Node} (hr : Refines k s) (hq : QueuesHold (k.setLinks h) s') :
    (∀ t, t ∉ s'.queue .freequeue → (k.tasks t).status = s'.statusOf t) →
    s'.current = s.current → s'.idle = s.idle → Refines (k.setLinks h) s' :=
  fun hs hc hi => ⟨hq, hr.current.trans (congrArg some hc.symm), hr.idle.trans (congrArg some hi.symm), hs⟩

/-- The tasks that are not free after `moveTo t q` are those that were not, `t` apart. -/
theorem Sched.Disjoint.mem_free_moveTo (hd : s.Disjoint) {u : Slot} (hu : u ≠ t) :
    u ∈ (s.moveTo t q).queue .freequeue ↔ u ∈ s.queue .freequeue := by
  rw [hd.mem_moveTo]; simp [hu]

/-! ### `update_process_state_rr` -/

theorem setStatus_queuesHold {st : TaskStatus} (hq : QueuesHold k s) :
    QueuesHold (k.modifyTask t fun x => { x with status := st }) s := hq

/-- `update_process_state_rr(t, q)` for a task that is not free is `moveTo t q`. -/
theorem updateProcessStateRr_refines (hr : Refines k s) (hd : s.Disjoint)
    (ht : t ∉ s.queue .freequeue) (hq : q ≠ .freequeue) :
    ∃ k', k.updateProcessStateRr t (some q) = some k' ∧ Refines k' (s.moveTo t q) ∧
      QueueStep k k' := by
  have hst : (if q = .readyqueue then TaskStatus.ST_READY else .ST_BLOCKED) = Sched.queueStatus q := by
    cases q with
    | freequeue => exact absurd rfl hq
    | _ => rfl
  -- the unlink happens exactly when the task waits in a queue
  obtain ⟨k₁, heq, hq₁, hk₁, hstep₁⟩ : ∃ k₁, k.updateProcessStateRr t (some q) =
      (k₁.listAddTail (.field t .list) (.head q)).bind
        (fun k => some (k.modifyTask t fun x => { x with status := Sched.queueStatus q })) ∧
      QueuesHold k₁ (s.remove t) ∧ k₁ = k.setLinks k₁.links ∧ QueueStep k k₁ := by
    by_cases hs : (k.tasks t).status = .ST_RUN
    · rw [Sched.remove_of_not_queued (hr.not_queued_of_status ht hs)]
      exact ⟨k, by simp [Kernel.updateProcessStateRr, hs, hst], hr.queues, rfl, .refl k⟩
    · obtain ⟨q₀, hq₀⟩ := hr.queued_of_status ht hs
      obtain ⟨k₁, h₁, hq₁, hk₁, hout₁⟩ := listDel_queued hr.queues hd hq₀
      exact ⟨k₁, by simp [Kernel.updateProcessStateRr, hs, h₁, hst], hq₁, hk₁,
        ⟨hout₁, fun u => by rw [hk₁]; rfl, fun hc => Kernel.closed_listDel hc h₁,
          by rw [hk₁]; exact le_rfl⟩⟩
  obtain ⟨k₂, h₂, hq₂, hk₂, hout₂⟩ := listAddTail_unqueued hq₁ hd.remove (Sched.not_queued_remove hd) q
  refine ⟨k₂.modifyTask t fun x => { x with status := Sched.queueStatus q }, by rw [heq, h₂]; rfl,
    ⟨hq₂, ?_, ?_, ?_⟩, ?_⟩
  · rw [Kernel.modifyTask_currentTask, hk₂, hk₁]; exact hr.current
  · rw [hk₂, hk₁]; exact hr.idle
  · intro u hu
    rw [hd.statusOf_moveTo, Kernel.modifyTask_tasks]
    split_ifs with hut
    · rfl
    · rw [hk₂, hk₁]
      exact hr.status u ((hd.mem_free_moveTo hut).not.1 hu)
  · exact (hstep₁.trans ⟨hout₂, fun u => by rw [hk₂]; rfl,
      fun hc => Kernel.closed_listAddTail hc (by rfl) h₂, by rw [hk₂]; exact le_rfl⟩).trans
      (QueueStep.setStatus t _)

/-- `update_process_state_rr(t, NULL)` for a ready task: it leaves `readyqueue` and runs. -/
theorem updateProcessStateRr_ready (hr : Refines k s) (hd : s.Disjoint)
    (ht : t ∈ s.queue .readyqueue) :
    ∃ k', k.updateProcessStateRr t none = some k' ∧ QueuesHold k' (s.remove t) ∧
      k' = (k.modifyTask t fun x => { x with status := .ST_RUN }).setLinks k'.links ∧
      QueueStep k k' := by
  have hfree : t ∉ s.queue .freequeue := fun h => by cases hd.unique _ _ _ h ht
  have hs : (k.tasks t).status ≠ .ST_RUN := by
    rw [hr.status t hfree, Sched.statusOf_eq_of_mem hd ht]; decide
  obtain ⟨k₁, h₁, hq₁, hk₁, hout₁⟩ := listDel_queued hr.queues hd ht
  refine ⟨k₁.modifyTask t fun x => { x with status := .ST_RUN }, ?_, hq₁, ?_, ?_⟩
  · simp [Kernel.updateProcessStateRr, hs, h₁]
  · rw [hk₁]; rfl
  · exact QueueStep.trans ⟨hout₁, fun u => by rw [hk₁]; rfl,
      fun hc => Kernel.closed_listDel hc h₁, by rw [hk₁]; exact le_rfl⟩ (QueueStep.setStatus t _)

/-! ### Freeing a task -/

/-- A task that waits nowhere, appended to `freequeue`, is free; no other task changes. -/
theorem addFree_refines (hr : Refines k s) (hd : s.Disjoint) {k₁ : Kernel}
    (hq₁ : QueuesHold k₁ (s.remove t)) (hk₁ : k₁ = k.setLinks k₁.links)
    (h : k₁.listAddTail (.field t .list) (.head .freequeue) = some k') :
    Refines k' (s.moveTo t .freequeue) ∧ k' = k.setLinks k'.links ∧ QueueStep k₁ k' := by
  obtain ⟨k₂, h₂, hq₂, hk₂, hout₂⟩ :=
    listAddTail_unqueued hq₁ hd.remove (Sched.not_queued_remove hd) .freequeue
  rw [h] at h₂
  cases h₂
  have hk' : k' = k.setLinks k'.links := hk₂.trans (by rw [hk₁]; rfl)
  refine ⟨⟨hq₂, ?_, ?_, fun u hu => ?_⟩, hk', ⟨hout₂, fun u => by rw [hk₂]; rfl,
    fun hc => Kernel.closed_listAddTail hc (by rfl) h, by rw [hk₂]; exact le_rfl⟩⟩
  · rw [hk']; exact hr.current
  · rw [hk']; exact hr.idle
  · have hut : u ≠ t := fun e => hu (e ▸ hd.mem_moveTo.2 (.inl ⟨rfl, rfl⟩))
    rw [hd.statusOf_moveTo, if_neg hut, hk']
    exact hr.status u ((hd.mem_free_moveTo hut).not.1 hu)

/-- `sys_exit`'s move of a thread to `freequeue`: unlinked if it waits, then appended. -/
theorem moveToFree_refines (hr : Refines k s) (hd : s.Disjoint) (ht : t ∉ s.queue .freequeue)
    (h : (if (k.tasks t).status ≠ .ST_RUN then do
        let k ← k.listDel (.field t .list)
        k.listAddTail (.field t .list) (.head .freequeue)
      else do
        let k ← pure k
        k.listAddTail (.field t .list) (.head .freequeue)) = some k') :
    Refines k' (s.moveTo t .freequeue) ∧ k' = k.setLinks k'.links ∧ QueueStep k k' := by
  by_cases hs : (k.tasks t).status = .ST_RUN
  · -- a running task waits nowhere
    rw [if_neg (not_not.2 hs)] at h
    obtain ⟨k₁, h₁, h⟩ := Option.bind_eq_some_iff.1 h
    cases h₁
    have hq : QueuesHold k (s.remove t) := by
      rw [Sched.remove_of_not_queued (hr.not_queued_of_status ht hs)]; exact hr.queues
    exact addFree_refines hr hd hq rfl h
  · rw [if_pos hs] at h
    obtain ⟨k₁, h₁, h⟩ := Option.bind_eq_some_iff.1 h
    obtain ⟨q₀, hq₀⟩ := hr.queued_of_status ht hs
    obtain ⟨k₁', h₁', hq₁, hk₁, hout₁⟩ := listDel_queued hr.queues hd hq₀
    rw [h₁] at h₁'
    cases h₁'
    obtain ⟨hr', hk', hs₂⟩ := addFree_refines hr hd hq₁ hk₁ h
    exact ⟨hr', hk', QueueStep.trans ⟨hout₁, fun u => by rw [hk₁]; rfl,
      fun hc => Kernel.closed_listDel hc h₁, by rw [hk₁]; exact le_rfl⟩ hs₂⟩

/-- The exit calls' move of the running task, which waits nowhere, to `freequeue`. -/
theorem enqueueFree_refines (hr : Refines k s) (hd : s.Disjoint) (ht : ¬ s.Queued t)
    (h : k.listAddTail (.field t .list) (.head .freequeue) = some k') :
    Refines k' (s.moveTo t .freequeue) ∧ k' = k.setLinks k'.links ∧ QueueStep k k' :=
  addFree_refines hr hd (by rw [Sched.remove_of_not_queued ht]; exact hr.queues) rfl h

/-- The queues depend only on the `list` nodes, the statuses, the running task and idle. -/
theorem Refines.frame (hr : Refines k s) (ha : k.AgreeOn k' fun a => a.family = .sched)
    (hst : ∀ u, (k'.tasks u).status = (k.tasks u).status) (hc : k'.currentTask = k.currentTask)
    (hi : k'.idleTask = k.idleTask) : Refines k' s :=
  ⟨fun q => queueHolds_frame (hr.queues q) ha, hc.trans hr.current, hi.trans hr.idle,
    fun t ht => (hst t).trans (hr.status t ht)⟩

theorem Refines.modifyTask (hr : Refines k s) {f : TaskStruct → TaskStruct}
    (hf : ∀ x, (f x).status = x.status) (i : Slot) : Refines (k.modifyTask i f) s :=
  hr.frame (.of_links rfl _) (fun u => by
    rw [Kernel.modifyTask_tasks]
    split_ifs with hu
    · subst hu; exact hf _
    · rfl) rfl rfl

/-- `free_tid` clears one index of the master's bitmap, or nothing when the TID is out of range. -/
theorem Kernel.freeTid_cases (k : Kernel) (m : Slot) (tid : Int) :
    k.freeTid m tid = k ∨
      ∃ i, k.freeTid m tid = k.modifyTask m fun t => { t with tidSlots := update t.tidSlots i 0 } := by
  unfold Kernel.freeTid
  dsimp only
  split_ifs
  · exact .inr ⟨_, rfl⟩
  · exact .inl rfl

namespace Kernel

@[simp] theorem freeTid_links (k : Kernel) (m : Slot) (tid : Int) : (k.freeTid m tid).links = k.links := by
  rcases freeTid_cases k m tid with h | ⟨i, h⟩ <;> rw [h]; rfl

@[simp] theorem freeTid_nextPid (k : Kernel) (m : Slot) (tid : Int) :
    (k.freeTid m tid).nextPid = k.nextPid := by
  rcases freeTid_cases k m tid with h | ⟨i, h⟩ <;> rw [h]; rfl

theorem freeTid_tasks_of_ne (k : Kernel) {m u : Slot} (tid : Int) (hu : u ≠ m) :
    (k.freeTid m tid).tasks u = k.tasks u := by
  rcases freeTid_cases k m tid with h | ⟨i, h⟩ <;> rw [h]
  simp [hu]

end Kernel

theorem Refines.freeTid (hr : Refines k s) (m : Slot) (tid : Int) : Refines (k.freeTid m tid) s := by
  rcases Kernel.freeTid_cases k m tid with h | ⟨i, h⟩ <;> rw [h]
  · exact hr
  · exact hr.modifyTask (by intro; rfl) m

/-! ### `sched_next_rr` -/

theorem listEmpty_queue (hq : QueuesHold k s) :
    k.listEmpty (.head q) = true ↔ s.queue q = [] := by
  rw [Kernel.listEmpty, Links.isEmpty_iff (hq q), List.map_eq_nil_iff]

theorem listFirst_queue (hq : QueuesHold k s) {rest : List Slot} (h : s.queue q = t :: rest) :
    k.listFirst (.head q) = some (.field t .list) := by
  rw [Kernel.listFirst, Links.ring_next_head (hq q), h]; rfl

/-- `task_switch` and the quantum reload change no node and no task. -/
theorem QueueStep.taskSwitch (k : Kernel) (n : Slot) (qu : Int) :
    QueueStep k (({ k with currentQuantum := qu }).taskSwitch n) :=
  ⟨.of_links rfl _, fun _ => rfl, id, le_rfl⟩

/-- `sched_next_rr` is `dispatch`. -/
theorem schedNextRr_refines (hr : Refines k s) (hd : s.Disjoint) :
    ∃ k', k.schedNextRr = some k' ∧ Refines k' s.dispatch ∧ QueueStep k k' := by
  unfold Sched.dispatch
  cases hR : s.queue .readyqueue with
  | nil =>
    -- nothing is ready: idle runs
    have he : k.listEmpty (.head .readyqueue) = true := (listEmpty_queue hr.queues).2 hR
    refine ⟨({ k with currentQuantum := (k.tasks s.idle).quantum }).taskSwitch s.idle, ?_,
      ⟨hr.queues, rfl, hr.idle, fun u hu => hr.status u hu⟩, QueueStep.taskSwitch ..⟩
    simp [Kernel.schedNextRr, he, hr.idle]
  | cons n rest =>
    have hn : n ∈ s.queue .readyqueue := hR ▸ List.mem_cons_self
    have hne : k.listEmpty (.head .readyqueue) = false := by
      rw [Bool.eq_false_iff, ne_eq, listEmpty_queue hr.queues, hR]; simp
    obtain ⟨k₁, h₁, hq₁, hk₁, hstep₁⟩ := updateProcessStateRr_ready hr hd hn
    refine ⟨({ k₁ with currentQuantum := (k₁.tasks n).quantum }).taskSwitch n, ?_,
      ⟨hq₁, rfl, ?_, fun u hu => ?_⟩, hstep₁.trans (QueueStep.taskSwitch ..)⟩
    · simp [Kernel.schedNextRr, hne, listFirst_queue hr.queues hR, listHeadToTaskStruct, listEntry,
        h₁]
    · rw [hk₁]; exact hr.idle
    · -- the dispatched task runs, every other one keeps its status
      change (k₁.tasks u).status = (s.remove n).statusOf u
      rw [hd.statusOf_remove, hk₁]
      simp only [Kernel.setLinks_tasks, Kernel.modifyTask_tasks]
      split_ifs with hun
      · rfl
      · exact hr.status u fun h => hu (hd.mem_erase.2 ⟨hun, h⟩)

/-! ### `scheduler` -/

theorem Refines.sameCore (hr : Refines k s) (h : SameCore k k') : Refines k' s :=
  ⟨fun q => by unfold QueueHolds; rw [h.links]; exact hr.queues q, h.currentTask ▸ hr.current,
    h.idleTask ▸ hr.idle, fun t ht => (h.status t).trans (hr.status t ht)⟩

theorem Sched.Disjoint.length_le (hd : s.Disjoint) (q : Queue) : (s.queue q).length ≤ NR_TASKS := by
  simpa using (hd.nodup q).length_le_card

/-- The loop of `scheduler` is `wakeAll`, given more fuel than tasks wait for a tick. -/
theorem wakeTickBlocked_refines : ∀ (n : Nat) {k : Kernel} {s : Sched}, Refines k s → s.Disjoint →
    (s.queue .tickBlockedqueue).length < n →
    ∃ k', k.wakeTickBlocked n = some k' ∧ Refines k' s.wakeAll ∧ QueueStep k k'
  | 0, _, _, _, _, hn => absurd hn (Nat.not_lt_zero _)
  | n + 1, k, s, hr, hd, hn => by
    cases hT : s.queue .tickBlockedqueue with
    | nil =>
      rw [Sched.wakeAll_of_nil hT]
      exact ⟨k, by simp [Kernel.wakeTickBlocked, (listEmpty_queue hr.queues).2 hT], hr, .refl k⟩
    | cons t rest =>
      -- the first task waiting for a tick is made ready, then the loop goes on with the others
      have ht : t ∈ s.queue .tickBlockedqueue := hT ▸ List.mem_cons_self
      have hfree : t ∉ s.queue .freequeue := fun h => by cases hd.unique _ _ _ h ht
      have hne : k.listEmpty (.head .tickBlockedqueue) = false := by
        rw [Bool.eq_false_iff, ne_eq, listEmpty_queue hr.queues, hT]; simp
      obtain ⟨k₁, h₁, hr₁, hstep₁⟩ :=
        updateProcessStateRr_refines (q := .readyqueue) hr hd hfree (by decide)
      have hT₁ : (s.moveTo t .readyqueue).queue .tickBlockedqueue = rest := by
        simp [Sched.moveTo, hT]
      obtain ⟨k', h', hr', hstep'⟩ := wakeTickBlocked_refines n hr₁ hd.moveTo (by
        rw [hT₁]; rw [hT] at hn; simpa using hn)
      rw [← hd.wakeAll_moveTo hT]
      exact ⟨k', by simp [Kernel.wakeTickBlocked, hne, listFirst_queue hr.queues hT,
        listHeadToTaskStruct, listEntry, h₁, h'], hr', hstep₁.trans hstep'⟩

/-- `needs_sched_rr` reloads the quantum at most, and asks for no switch only when the current
    task is not blocked. -/
theorem needsSchedRr_spec {c : Slot} (hc : k.currentTask = some c) :
    ∃ b k', k.needsSchedRr = some (b, k') ∧ SameCore k k' ∧
      (b = false → (k.tasks c).status ≠ .ST_BLOCKED) := by
  have hsame : SameCore k { k with currentQuantum := (k.tasks c).quantum } :=
    SameCore.of_eq rfl rfl rfl rfl rfl
  by_cases hq : k.currentQuantum ≤ 0
  · by_cases he : k.links.isEmpty (.head .readyqueue) = true
    · refine ⟨decide ((k.tasks c).status = .ST_BLOCKED), _, ?_, hsame, by simp⟩
      simp [Kernel.needsSchedRr, hc, hq, he, Kernel.listEmpty]
    · refine ⟨true, _, ?_, hsame, by simp⟩
      simp [Kernel.needsSchedRr, hc, hq, he, Kernel.listEmpty]
  · exact ⟨decide ((k.tasks c).status = .ST_BLOCKED), k, by simp [Kernel.needsSchedRr, hc, hq],
      .refl k, by simp⟩

/-- `scheduler` wakes every task waiting for a tick and then does what `reschedule` does with the
    switch `needs_sched_rr` decides; it keeps the processor only for a task that is not
    blocked. -/
theorem scheduler_refines (hr : Refines k s) (hd : s.Disjoint)
    (hc : s.current ∉ s.queue .freequeue) :
    ∃ b k', k.scheduler = some k' ∧ Refines k' (s.wakeAll.reschedule b) ∧
      (b = false → s.wakeAll.statusOf s.current ≠ .ST_BLOCKED) ∧ QueueStep k k' := by
  have hr₀ : Refines k.updateSchedDataRr s := hr.sameCore (Kernel.sameCore_updateSchedDataRr k)
  have hlen : (s.queue .tickBlockedqueue).length < listFuel := by
    have := hd.length_le .tickBlockedqueue
    simp only [listFuel, NR_TASKS] at this ⊢; omega
  obtain ⟨k₁, h₁, hr₁, hstep₁⟩ := wakeTickBlocked_refines listFuel hr₀ hd hlen
  obtain ⟨b, k₂, h₂, hsc₂, hb⟩ := needsSchedRr_spec hr₁.current
  have hr₂ : Refines k₂ s.wakeAll := hr₁.sameCore hsc₂
  have hc' : s.current ∉ s.wakeAll.queue .freequeue := by rwa [Sched.wakeAll_free]
  have hstat₁ : (k₁.tasks s.current).status = s.wakeAll.statusOf s.current := hr₁.status _ hc'
  have hstat : (k₂.tasks s.current).status = s.wakeAll.statusOf s.current := hr₂.status _ hc'
  have hstep₀ : QueueStep k k₂ :=
    ((QueueStep.of_sameCore (Kernel.sameCore_updateSchedDataRr k)).trans hstep₁).trans
      (QueueStep.of_sameCore hsc₂)
  cases b with
  | false =>
    refine ⟨false, k₂, by simp [Kernel.scheduler, h₁, h₂], hr₂, fun _ => ?_, hstep₀⟩
    rw [← hstat₁]; exact hb rfl
  | true =>
    by_cases hbl : s.wakeAll.statusOf s.current = .ST_BLOCKED
    · -- a blocked task is not enqueued again
      obtain ⟨k', h', hr', hstep'⟩ := schedNextRr_refines hr₂ hd.wakeAll
      refine ⟨true, k', ?_, by simpa [Sched.reschedule, hbl] using hr', by simp, hstep₀.trans hstep'⟩
      simp [Kernel.scheduler, h₁, h₂, hr₂.current, hstat, hbl, h']
    · obtain ⟨k₃, h₃, hr₃, hstep₃⟩ :=
        updateProcessStateRr_refines (q := .readyqueue) hr₂ hd.wakeAll hc' (by decide)
      obtain ⟨k', h', hr', hstep'⟩ := schedNextRr_refines hr₃ hd.wakeAll.moveTo
      refine ⟨true, k', ?_, by simpa [Sched.reschedule, hbl] using hr', by simp,
        (hstep₀.trans hstep₃).trans hstep'⟩
      simp [Kernel.scheduler, h₁, h₂, hr₂.current, hstat, hbl, h₃, h']

end Zeos
