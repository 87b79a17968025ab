import Zeos.Kernel.ExitThread
import Zeos.Kernel.Spawn
import Zeos.Kernel.Boot
import Zeos.Kernel.Processes

/-! # The invariant along safe runs

Boot establishes `Inv` (`boot_inv`), and every event keeps it (`step_inv`) but for the two slips
that the other modules exhibit: a `sys_exit` by a thread that is not its process's master
(called, or reached from a page fault that the stack does not absorb), and a `sys_unblock` that
reaches, through a stale entry of a children list, a blocked task structure that is free. A
*safe* run is one without them (`SafeEvent`), and `Inv` holds along every safe run
(`SafeReachable.inv`). In particular every live process but idle keeps its thread bookkeeping
(`safe_threads_consistent`).

The calls that only move the caller between queues (`sys_block`, `sys_waitfortick`,
`sys_unblock`) and the clock refine `moveTo`, `dispatch` and `scheduler` on the abstract queues
and leave the thread data alone (`Inv.queueStep`); the keyboard events, the stores of user code
and a page fault that grows the stack keep the scheduling core (`Inv.sameCore`). -/

namespace Zeos

open Function

variable {k k' : Kernel} {s : Sched} {ts : Slot → List Slot}

/-! ### Steps that only move tasks between queues -/

/-- A queue step to a well-formed scheduler state with the same free slots and idle keeps the
    invariant. -/
theorem Inv.queueStep (hi : Inv k s ts) {s' : Sched} (hr : Refines k' s') (hw : s'.Wf)
    (hF : ∀ t, t ∈ s'.queue .freequeue ↔ t ∈ s.queue .freequeue) (hid : s'.idle = s.idle)
    (hq : QueueStep k k') : Inv k' s' ts :=
  ⟨hq.closed hi.closed, hr, hw,
    hi.procs.frame hF hid (fun t _ => hq.threads t)
      fun _ _ mb hmb => hq.outside _ (show mb.family ≠ .sched by rw [hmb]; decide),
    Int.le_trans hi.nextPid hq.nextPid⟩

theorem Inv.sameCore (hi : Inv k s ts) (h : SameCore k k') : Inv k' s ts :=
  hi.queueStep (hi.refines.sameCore h) hi.wf (fun _ => Iff.rfl) rfl (.of_sameCore h)

/-- A user task runs only when the running task is not idle. -/
theorem Inv.current_ne_idle (hi : Inv k s ts) (hu : k.userMode = true) : s.current ≠ s.idle := by
  intro e
  simp [Kernel.userMode, hi.refines.current, hi.refines.idle, e] at hu

/-- `scheduler` from a state where the running task waits nowhere, or in `blockedqueue`, keeps
    the invariant. -/
theorem Inv.scheduler (hi : Inv k s ts) {s₁ : Sched} {k₁ : Kernel} (hr₁ : Refines k₁ s₁)
    (hp₁ : s₁.Placed) (hq₁ : QueueStep k k₁)
    (hF₁ : ∀ t, t ∈ s₁.queue .freequeue ↔ t ∈ s.queue .freequeue) (hid₁ : s₁.idle = s.idle)
    (hc₁ : ¬ s₁.Queued s₁.current ∨ s₁.current ∈ s₁.queue .blockedqueue)
    (h : k₁.scheduler = some k') : ∃ s', Inv k' s' ts := by
  have hd₁ := hp₁.toDisjoint
  have hcF : s₁.current ∉ s₁.queue .freequeue := fun h' =>
    hc₁.elim (fun hn => hn ⟨_, h'⟩) fun hb => by cases hd₁.unique _ _ _ h' hb
  obtain ⟨b, k₂, h₂, hr₂, hb, hq₂⟩ := scheduler_refines hr₁ hd₁ hcF
  rw [h] at h₂
  cases h₂
  -- a task that keeps the processor is not blocked, so it waits nowhere
  have hb' : b = false → ¬ s₁.wakeAll.Queued s₁.current := fun hb₀ => by
    rcases hc₁ with hn | hbl
    · exact Sched.not_queued_wakeAll hn
    · have hT : s₁.current ∉ s₁.queue .tickBlockedqueue := fun h' => by
        cases hd₁.unique _ _ _ h' hbl
      refine absurd ?_ (hb hb₀)
      rw [Sched.statusOf_wakeAll, if_neg hT, Sched.statusOf_eq_of_mem hd₁ hbl]
      rfl
  refine ⟨_, hi.queueStep hr₂ (hp₁.wakeAll.reschedule hb') (fun t => ?_) (by simp [hid₁])
    (hq₁.trans hq₂)⟩
  rw [hd₁.wakeAll.reschedule_free (by rwa [Sched.wakeAll_free]), Sched.wakeAll_free, hF₁]

/-! ### The calls that block and unblock -/

/-- `sys_block` keeps the invariant: the caller consumes a pending unblock, or joins
    `blockedqueue` and the scheduler runs. -/
theorem sysBlock_inv {r : Int} (hi : Inv k s ts) (hcu : s.current ≠ s.idle)
    (h : k.sysBlock = some (r, k')) : ∃ s', Inv k' s' ts := by
  unfold Kernel.sysBlock at h
  rw [ite_eq_iff] at h
  rcases h with ⟨-, h⟩ | ⟨-, h⟩
  · cases h; exact ⟨s, hi⟩
  replace h := Option.bind_eq_some_iff.1 h; obtain ⟨c, hc, h⟩ := h
  obtain rfl : c = s.current := Option.some.inj (hc.symm.trans hi.refines.current)
  have hd := hi.wf.toDisjoint
  have hcF : s.current ∉ s.queue .freequeue := fun h' => hi.wf.current ⟨_, h'⟩
  rw [ite_eq_iff] at h
  rcases h with ⟨-, h⟩ | ⟨-, h⟩
  · -- no pending unblock: the caller blocks
    replace h := Option.bind_eq_some_iff.1 h; obtain ⟨k₁, h₁, h⟩ := h
    replace h := Option.bind_eq_some_iff.1 h; obtain ⟨k₂, h₂, h⟩ := h
    cases h
    obtain ⟨k₁', h₁', hr₁, hq₁⟩ :=
      updateProcessStateRr_refines (q := .blockedqueue) hi.refines hd hcF (by decide)
    rw [h₁] at h₁'
    cases h₁'
    exact hi.scheduler hr₁ (hi.wf.toPlaced.moveTo fun e => absurd e hcu) hq₁
      (fun t => by rw [Sched.moveTo_free hcF (by decide)]) rfl
      (.inr (hd.mem_moveTo.2 (.inl ⟨rfl, rfl⟩))) h₂
  · -- a pending unblock is consumed
    cases h
    exact ⟨s, hi.sameCore (SameCore.modifyTask _ fun _ => rfl)⟩

/-- `sys_waitfortick` keeps the invariant: the caller joins `tick_blockedqueue` and the next
    ready task runs. -/
theorem sysWaitfortick_inv {r : Int} (hi : Inv k s ts) (hcu : s.current ≠ s.idle)
    (h : k.sysWaitfortick = some (r, k')) : ∃ s', Inv k' s' ts := by
  unfold Kernel.sysWaitfortick at h
  rw [ite_eq_iff] at h
  rcases h with ⟨-, h⟩ | ⟨-, h⟩
  · cases h; exact ⟨s, hi⟩
  replace h := Option.bind_eq_some_iff.1 h; obtain ⟨c, hc, h⟩ := h
  obtain rfl : c = s.current := Option.some.inj (hc.symm.trans hi.refines.current)
  have hd := hi.wf.toDisjoint
  have hcF : s.current ∉ s.queue .freequeue := fun h' => hi.wf.current ⟨_, h'⟩
  replace h := Option.bind_eq_some_iff.1 h; obtain ⟨k₁, h₁, h⟩ := h
  replace h := Option.bind_eq_some_iff.1 h; obtain ⟨k₂, h₂, h⟩ := h
  cases h
  obtain ⟨k₁', h₁', hr₁, hq₁⟩ :=
    updateProcessStateRr_refines (q := .tickBlockedqueue) hi.refines hd hcF (by decide)
  rw [h₁] at h₁'
  cases h₁'
  obtain ⟨k₂', h₂', hr₂, hq₂⟩ := schedNextRr_refines hr₁ hd.moveTo
  rw [h₂] at h₂'
  cases h₂'
  exact ⟨_, hi.queueStep hr₂ ((hi.wf.toPlaced.moveTo fun e => absurd e hcu).dispatch
    (.inr ⟨.tickBlockedqueue, hd.mem_moveTo.2 (.inl ⟨rfl, rfl⟩)⟩))
    (fun t => by rw [hd.moveTo.dispatch_free, Sched.moveTo_free hcF (by decide)]) (by simp)
    (hq₁.trans hq₂)⟩

/-- `sys_unblock` keeps the invariant when the child it finds, if blocked, is not a free task
    structure: a blocked child becomes ready, any other gets a pending unblock. -/
theorem sysUnblock_inv {r pid : Int} (hi : Inv k s ts)
    (hsafe : ∀ c, k.findChild pid = some (some c) → (k.tasks c).status = .ST_BLOCKED →
      ¬ InQueue k .freequeue c)
    (h : k.sysUnblock pid = some (r, k')) : ∃ s', Inv k' s' ts := by
  unfold Kernel.sysUnblock at h
  rw [ite_eq_iff] at h
  rcases h with ⟨-, h⟩ | ⟨-, h⟩
  · cases h; exact ⟨s, hi⟩
  replace h := Option.bind_eq_some_iff.1 h; obtain ⟨o, ho, h⟩ := h
  cases o with
  | none => cases h; exact ⟨s, hi⟩
  | some c =>
    dsimp only at h
    rw [ite_eq_iff] at h
    rcases h with ⟨hb, h⟩ | ⟨-, h⟩
    · -- a blocked child that is not free waits in a queue, so it does not run
      have hd := hi.wf.toDisjoint
      have hcF : c ∉ s.queue .freequeue := fun h' =>
        hsafe c ho hb ⟨_, hi.refines.queues .freequeue, h'⟩
      have hcq : s.Queued c :=
        Sched.queued_of_statusOf_blocked ((hi.refines.status c hcF).symm.trans hb)
      have hcc : c ≠ s.current := fun e => hi.wf.current (e ▸ hcq)
      replace h := Option.bind_eq_some_iff.1 h; obtain ⟨k₁, h₁, h⟩ := h
      cases h
      obtain ⟨k₁', h₁', hr₁, hq₁⟩ :=
        updateProcessStateRr_refines (q := .readyqueue) hi.refines hd hcF (by decide)
      rw [h₁] at h₁'
      cases h₁'
      exact ⟨_, hi.queueStep hr₁ (hi.wf.moveTo (fun _ => rfl) hcc)
        (fun t => by rw [Sched.moveTo_free hcF (by decide)]) rfl hq₁⟩
    · cases h
      exact ⟨s, hi.sameCore (SameCore.modifyTask _ fun _ => rfl)⟩

/-! ### Interrupts and exceptions -/

/-- The clock interrupt keeps the invariant. -/
theorem clockRoutine_inv (hi : Inv k s ts) (h : k.clockRoutine = some k') : ∃ s', Inv k' s' ts :=
  have c₁ : SameCore k { k with zeosTicks := k.zeosTicks + 1 } := SameCore.of_eq rfl rfl rfl rfl rfl
  hi.scheduler (hi.refines.sameCore c₁) hi.wf.toPlaced (.of_sameCore c₁) (fun _ => Iff.rfl) rfl
    (.inl hi.wf.current) h

/-- The running task is the master of its process. -/
def MasterRuns (k : Kernel) : Prop :=
  ∃ c, k.currentTask = some c ∧ (k.tasks c).masterThread = some c

theorem MasterRuns.current (hi : Inv k s ts) (hm : MasterRuns k) :
    (k.tasks s.current).masterThread = some s.current := by
  obtain ⟨c, hc, hm⟩ := hm
  obtain rfl : c = s.current := Option.some.inj (hc.symm.trans hi.refines.current)
  exact hm

/-- A page fault keeps the invariant when a fault that the stack does not absorb, which ends the
    process through `sys_exit`, happens in the master. -/
theorem pageFaultRoutine_inv {a : Nat} (hi : Inv k s ts) (hcu : s.current ≠ s.idle)
    (hsafe : ∀ r k₁, k.growUserStack a = some (r, k₁) → r ≠ 0 → MasterRuns k)
    (h : k.pageFaultRoutine a = some k') : ∃ s' ts', Inv k' s' ts' := by
  unfold Kernel.pageFaultRoutine at h
  replace h := Option.bind_eq_some_iff.1 h; obtain ⟨⟨r, k₁⟩, h₁, h⟩ := h
  have c₁ := Kernel.sameCore_growUserStack h₁
  dsimp only at h
  rw [ite_eq_iff] at h
  rcases h with ⟨-, h⟩ | ⟨hr, h⟩
  · -- the stack grows by one page
    cases h; exact ⟨s, ts, hi.sameCore c₁⟩
  · exact sysExit_inv (hi.sameCore c₁) hcu
      ((c₁.masterThread _).trans ((hsafe r k₁ h₁ hr).current hi)) h

/-! ### Safe runs -/

/-- The events of a safe run: all but the two slips. A `sys_exit`, called or reached from a page
    fault that the stack does not absorb, is made by the master of the running process, and a
    `sys_unblock` does not reach a blocked child that is a free task structure. -/
def SafeEvent (k : Kernel) : Event → Prop
  | .exit => MasterRuns k
  | .pageFault a => ∀ r k₁, k.growUserStack a = some (r, k₁) → r ≠ 0 → MasterRuns k
  | .unblock pid => ∀ c, k.findChild pid = some (some c) → (k.tasks c).status = .ST_BLOCKED →
      ¬ InQueue k .freequeue c
  | _ => True

/-- Every safe event keeps the invariant. -/
theorem step_inv {e : Event} (hi : Inv k s ts) (hs : SafeEvent k e) (h : k.step e = some k') :
    ∃ s' ts', Inv k' s' ts' := by
  unfold Kernel.step at h
  rw [ite_eq_iff] at h
  rcases h with ⟨-, h⟩ | ⟨hu, h⟩
  · cases h
  -- an event of the user task happens while a user task runs
  have hcu : e.fromUser = true → s.current ≠ s.idle := fun he =>
    hi.current_ne_idle (by simpa [he] using hu)
  cases e with
  | fork =>
    obtain ⟨⟨r, k₁⟩, h₁, rfl⟩ := Option.map_eq_some_iff.1 h
    exact sysFork_inv hi h₁
  | createThread f p w =>
    obtain ⟨⟨r, k₁⟩, h₁, rfl⟩ := Option.map_eq_some_iff.1 h
    exact sysCreateThread_inv hi (hcu rfl) h₁
  | exit => exact sysExit_inv hi (hcu rfl) (hs.current hi) h
  | exitThread => exact sysExitThread_inv hi (hcu rfl) h
  | block =>
    obtain ⟨⟨r, k₁⟩, h₁, rfl⟩ := Option.map_eq_some_iff.1 h
    obtain ⟨s', hi'⟩ := sysBlock_inv hi (hcu rfl) h₁
    exact ⟨s', ts, hi'⟩
  | unblock pid =>
    obtain ⟨⟨r, k₁⟩, h₁, rfl⟩ := Option.map_eq_some_iff.1 h
    obtain ⟨s', hi'⟩ := sysUnblock_inv hi hs h₁
    exact ⟨s', ts, hi'⟩
  | waitForTick =>
    obtain ⟨⟨r, k₁⟩, h₁, rfl⟩ := Option.map_eq_some_iff.1 h
    obtain ⟨s', hi'⟩ := sysWaitfortick_inv hi (hcu rfl) h₁
    exact ⟨s', ts, hi'⟩
  | keyboardEvent f w =>
    obtain ⟨⟨r, k₁⟩, h₁, rfl⟩ := Option.map_eq_some_iff.1 h
    exact ⟨s, ts, hi.sameCore (Kernel.sameCore_sysKeyboardEvent h₁)⟩
  | kbdResume =>
    cases h
    exact ⟨s, ts, hi.sameCore (Kernel.sameCore_kbdResumeHandler k)⟩
  | pageFault a =>
    rw [Kernel.react, ite_eq_iff] at h
    rcases h with ⟨-, h⟩ | ⟨-, h⟩
    · cases h
    · exact pageFaultRoutine_inv hi (hcu rfl) hs h
  | userStore a v => exact ⟨s, ts, hi.sameCore (Kernel.sameCore_userStore h)⟩
  | clockTick =>
    obtain ⟨s', hi'⟩ := clockRoutine_inv hi h
    exact ⟨s', ts, hi'⟩
  | keyboardIrq sc => exact ⟨s, ts, hi.sameCore (Kernel.sameCore_kbdIrqHandler h)⟩

/-- The states that safe runs reach: boot, then safe events. -/
inductive SafeReachable : Kernel → Prop
  | boot {mem : Nat → Nat} {k : Kernel} : boot mem = some k → SafeReachable k
  | step {k k' : Kernel} {e : Event} : SafeReachable k → SafeEvent k e → k.step e = some k' →
      SafeReachable k'

/-- The invariant holds along every safe run. -/
theorem SafeReachable.inv (h : SafeReachable k) : ∃ s ts, Inv k s ts := by
  induction h with
  | boot hb => exact ⟨_, _, boot_inv hb⟩
  | step _ hs he ih =>
    obtain ⟨s, ts, hi⟩ := ih
    exact step_inv hi hs he

theorem SafeReachable.reachable (h : SafeReachable k) : Reachable k := by
  induction h with
  | boot hb => exact .boot hb
  | step _ _ he ih => exact ih.step he

/-- A run of events that are safe in every state stays safe. -/
theorem SafeReachable.run {k k' : Kernel} (hk : SafeReachable k) :
    ∀ {es : List Event}, (∀ e ∈ es, ∀ k, SafeEvent k e) → k.run es = some k' → SafeReachable k'
  | [], _, h => by cases h; exact hk
  | e :: es, hes, h => by
    simp only [Kernel.run, List.foldlM_cons] at h
    obtain ⟨k₁, h₁, h₂⟩ := Option.bind_eq_some_iff.1 h
    exact SafeReachable.run (hk.step (hes e List.mem_cons_self k) h₁)
      (fun e' he' => hes e' (List.mem_cons_of_mem _ he')) h₂

/-! ### The thread bookkeeping -/

/-- The bookkeeping of a live process, read off the invariant. -/
theorem Procs.threadBookkeeping (hp : Procs k s ts) {m : Slot} (hm : LiveMaster k s m) :
    ThreadBookkeeping k (s.queue .freequeue) m := by
  have htab := hp.tids m hm
  -- the master and its threads are all live
  have hlive : ∀ t ∈ m :: ts m, t ∉ s.queue .freequeue := fun t ht => by
    rcases List.mem_cons.1 ht with rfl | ht
    · exact hm.1
    · exact (hp.member m hm t ht).1
  have hfilter : (m :: ts m).filter (· ∉ s.queue .freequeue) = m :: ts m :=
    List.filter_eq_self.2 fun t ht => by simpa using hlive t ht
  refine ⟨ts m, hp.ring hm, hp.count m hm,
    fun t ht => ⟨(hp.member m hm t ht).2.2.1, (hp.member m hm t ht).2.2.2⟩, ?_,
    fun t ht _ => htab.form _ (List.mem_map_of_mem ht), fun i hi => ?_⟩
  · rw [hfilter]; exact htab.nodup
  · rw [htab.recorded i hi]
    constructor
    · intro hx
      obtain ⟨t, ht, he⟩ := List.mem_map.1 hx
      exact ⟨t, ht, hlive t ht, he⟩
    · rintro ⟨t, ht, -, he⟩
      exact List.mem_map.2 ⟨t, ht, he⟩

/-- Along a safe run, every live process but idle keeps its thread bookkeeping. -/
theorem safe_run_keeps_thread_bookkeeping (hk : SafeReachable k) :
    ∃ F, QueueHolds k .freequeue F ∧ ∀ m, m ∉ F → (k.tasks m).masterThread = some m →
      k.idleTask ≠ some m → ThreadBookkeeping k F m := by
  obtain ⟨s, ts, hi⟩ := hk.inv
  refine ⟨s.queue .freequeue, hi.refines.queues .freequeue, fun m hmF hmm hmi => ?_⟩
  exact hi.procs.threadBookkeeping ⟨hmF, fun e => hmi (by rw [hi.refines.idle, e]), hmm⟩

/-- Init makes a thread and leaves through `sys_exit_thread`: the thread, in slot `2`, is the new
    master, and it keeps the bookkeeping of the process. -/
theorem handover_keeps_thread_bookkeeping :
    ∃ k, SafeReachable k ∧ (k.tasks 2).masterThread = some 2 ∧ k.idleTask ≠ some 2 ∧
      ∃ F, QueueHolds k .freequeue F ∧ ∀ m, m ∉ F → (k.tasks m).masterThread = some m →
        k.idleTask ≠ some m → ThreadBookkeeping k F m := by
  obtain ⟨k₀, k, hb, hr, hm, hid⟩ := exists_run_of_trace (fun _ => 0)
    [.createThread 0x100000 0 0x100000, .exitThread]
    (fun k => (k.tasks 2).masterThread = some 2 ∧ k.idleTask ≠ some 2) (by decide +kernel)
  have hk : SafeReachable k := (SafeReachable.boot hb).run (by simp [SafeEvent]) hr
  exact ⟨k, hk, hm, hid, safe_run_keeps_thread_bookkeeping hk⟩

end Zeos
