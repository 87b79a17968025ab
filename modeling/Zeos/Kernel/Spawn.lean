import Zeos.Kernel.Threads

/-! # `sys_fork` and `sys_create_thread`

Both calls take the first free task structure `x` off `freequeue`, copy the caller's task union
over it and set it up, and then append it to `readyqueue` or, when a resource is missing, give it
back to `freequeue`. Between the two list operations on `x`'s `list` member, `sys_fork` changes
nothing of the scheduling core but the task `x`, the nodes of `x` and the children lists
(`SlotStep`); `sys_create_thread` changes the master's TID slots, thread count and thread list
besides.

So each outcome is one operation of the bookkeeping: a successful `sys_fork` spawns a process and
a successful `sys_create_thread` adds a thread to the caller's process, and a failed call leaves
the bookkeeping as it was, `x` being free again. A fork that fails for want of a stack frame
leaves `x` linked in the caller's children list, which the bookkeeping does not read. -/

namespace Zeos

open Function

/-- The slot whose task structure holds a node; the queue heads are in none. -/
def Node.slot : Node → Option Slot
  | .head _ => none
  | .field t _ => some t

@[simp] theorem Node.slot_head (q : Queue) : (Node.head q).slot = none := rfl

@[simp] theorem Node.slot_field (t : Slot) (mb : Member) : (Node.field t mb).slot = some t := rfl

namespace Kernel

variable {k k' : Kernel}

theorem initMembers_eq (k : Kernel) (t : Slot) (ms : List Member) :
    k.initMembers t ms = k.setLinks (k.initMembers t ms).links := by
  induction ms generalizing k with
  | nil => rfl
  | cons m ms ih => exact ih _

@[simp] theorem initListHead_tasks (k : Kernel) (a : Node) : (k.initListHead a).tasks = k.tasks :=
  rfl

@[simp] theorem initMembers_tasks (k : Kernel) (t : Slot) (ms : List Member) :
    (k.initMembers t ms).tasks = k.tasks := by
  rw [initMembers_eq]; rfl

/-- `INIT_LIST_HEAD` of some members of `t` leaves every other node alone. -/
theorem initMembers_other (k : Kernel) (t : Slot) (ms : List Member) {a : Node}
    (ha : ∀ mb ∈ ms, a ≠ .field t mb) :
    (k.initMembers t ms).links.next a = k.links.next a ∧
      (k.initMembers t ms).links.prev a = k.links.prev a := by
  induction ms generalizing k with
  | nil => exact ⟨rfl, rfl⟩
  | cons m ms ih =>
    obtain ⟨hn, hp⟩ := ih (k.initListHead (.field t m)) fun mb hmb => ha mb (List.mem_cons_of_mem _ hmb)
    exact ⟨hn.trans (Links.initHead_other _ (ha m List.mem_cons_self)).1,
      hp.trans (Links.initHead_other _ (ha m List.mem_cons_self)).2⟩

/-- A member that `initMembers` initialises points to itself. -/
theorem initMembers_self (k : Kernel) (t : Slot) (ms : List Member) {mb : Member} (hmb : mb ∈ ms) :
    (k.initMembers t ms).links.next (.field t mb) = some (.field t mb) ∧
      (k.initMembers t ms).links.prev (.field t mb) = some (.field t mb) := by
  induction ms generalizing k with
  | nil => cases hmb
  | cons m ms ih =>
    by_cases hin : mb ∈ ms
    · exact ih _ hin
    · -- the last initialisation of `mb` is this one
      have hm : mb = m := (List.mem_cons.1 hmb).resolve_right hin
      subst hm
      obtain ⟨hn, hp⟩ := @initMembers_other (k.initListHead (.field t mb)) t ms (.field t mb)
        fun mb' hmb' e => hin (by cases e; exact hmb')
      exact ⟨hn.trans (by simp [initListHead]), hp.trans (by simp [initListHead])⟩

end Kernel

/-! ### Changes confined to one slot -/

/-- `k'` differs from `k` in its scheduling core at most in the task of slot `x`, the nodes of
    `x` and the children lists; the PID counter does not go down, and a store whose pointers stay
    within their family still does. -/
structure SlotStep (x : Slot) (k k' : Kernel) : Prop where
  closed : k.Closed → k'.Closed
  links : k.Closed → k.AgreeOn k' fun a => a.family ≠ .children ∧ a.slot ≠ some x
  tasks : ∀ u, u ≠ x → (k'.tasks u).core = (k.tasks u).core
  currentTask : k'.currentTask = k.currentTask
  idleTask : k'.idleTask = k.idleTask
  nextPid : k.nextPid ≤ k'.nextPid

namespace SlotStep

variable {x : Slot} {k k' k'' : Kernel}

@[refl] theorem refl (x : Slot) (k : Kernel) : SlotStep x k k :=
  ⟨id, fun _ => .refl k _, fun _ _ => rfl, rfl, rfl, Int.le_refl _⟩

@[trans] theorem trans (h₁ : SlotStep x k k') (h₂ : SlotStep x k' k'') : SlotStep x k k'' :=
  ⟨h₂.closed ∘ h₁.closed, fun hc => (h₁.links hc).trans (h₂.links (h₁.closed hc)),
    fun u hu => (h₂.tasks u hu).trans (h₁.tasks u hu), h₂.currentTask.trans h₁.currentTask,
    h₂.idleTask.trans h₁.idleTask, Int.le_trans h₁.nextPid h₂.nextPid⟩

theorem of_sameCore (h : SameCore k k') : SlotStep x k k' :=
  ⟨h.closed, fun _ => .of_links h.links _, fun u _ => h.tasks u, h.currentTask, h.idleTask,
    h.nextPid⟩

theorem modifyTask (f : TaskStruct → TaskStruct) : SlotStep x k (k.modifyTask x f) :=
  ⟨id, fun _ => .of_links rfl _, fun u hu => by simp [hu], rfl, rfl, Int.le_refl _⟩

theorem initListHead (mb : Member) : SlotStep x k (k.initListHead (.field x mb)) :=
  ⟨fun hc => Kernel.closed_initListHead hc _,
    fun _ a ha => Links.initHead_other _ fun e => ha.2 (by rw [e]; rfl), fun _ _ => rfl, rfl, rfl,
    Int.le_refl _⟩

theorem initMembers (ms : List Member) : SlotStep x k (k.initMembers x ms) := by
  induction ms generalizing k with
  | nil => exact refl x k
  | cons m ms ih => exact (initListHead m).trans ih

/-- Copying a task union over `x` changes `x` alone. -/
theorem copyTaskUnion (src : Slot) : SlotStep x k (k.copyTaskUnion src x) := by
  refine ⟨fun hc => Kernel.closed_copyTaskUnion hc src x, fun _ a ha => ?_,
    fun u hu => by simp [Kernel.copyTaskUnion, update_of_ne hu], rfl, rfl, Int.le_refl _⟩
  rcases a with q | ⟨t, mb⟩
  · exact ⟨rfl, rfl⟩
  · have ht : t ≠ x := fun e => ha.2 (by rw [e]; rfl)
    simp [Kernel.copyTaskUnion, copyMemberLinks, ht]

/-- Linking a node into a children list. -/
theorem listAddTail_children {new hd : Node} (h : k.listAddTail new hd = some k')
    (hn : new.family = .children) (hh : hd.family = .children) : SlotStep x k k' := by
  have hk' := Kernel.listAddTail_eq h
  refine ⟨fun hc => Kernel.closed_listAddTail hc (hn.trans hh.symm) h,
    fun hc a ha => Kernel.listAddTail_other_family hc (hn.trans hh.symm) h (hh ▸ ha.1),
    fun u _ => by rw [Kernel.listAddTail_tasks h], ?_, ?_, ?_⟩
  all_goals rw [hk']
  · rfl
  · rfl
  · exact Int.le_refl _

end SlotStep

/-- The queues of a scheduler state in which `x` waits nowhere depend only on the `list` nodes
    of the other slots. -/
theorem QueuesHold.slotFrame {k k' : Kernel} {s : Sched} {x : Slot} (hq : QueuesHold k s)
    (hx : ¬ s.Queued x)
    (ha : k.AgreeOn k' fun a => a.family = .sched ∧ a.slot ≠ some x) : QueuesHold k' s := fun q =>
  Links.ring_frame (hq q) fun a hmem => by
    refine ha a ?_
    rcases List.mem_cons.1 hmem with rfl | hmem
    · exact ⟨rfl, by simp⟩
    · obtain ⟨t, ht, rfl⟩ := List.mem_map.1 hmem
      exact ⟨rfl, fun e => hx ⟨q, (Option.some.inj e) ▸ ht⟩⟩

/-- The thread lists of masters other than `x`, none of whose threads is `x`, depend only on the
    thread-list nodes of the other slots. -/
theorem ThreadLinks.slotFrame {h h' : Links Node} {I : Slot → Prop} {ts : Slot → List Slot}
    {x : Slot} (hl : ThreadLinks h I ts) (hI : ∀ m, I m → m ≠ x ∧ ∀ t ∈ ts m, t ≠ x)
    (ha : ∀ a : Node, a.family = .threads → a.slot ≠ some x →
      h'.next a = h.next a ∧ h'.prev a = h.prev a) :
    ThreadLinks h' I ts :=
  hl.frame fun m hm a hmem => by
    rcases hmem with hmem | rfl
    · rcases List.mem_cons.1 hmem with rfl | hmem
      · exact ha _ rfl (by simpa using (hI m hm).1)
      · obtain ⟨t, ht, rfl⟩ := List.mem_map.1 hmem
        exact ha _ rfl (by simpa using (hI m hm).2 t ht)
    · exact ha _ rfl (by simpa using (hI m hm).1)

/-! ### Taking a free task structure and giving it back -/

section Pop

variable {k k₁ k₂ k' : Kernel} {s : Sched} {ts : Slot → List Slot} {x : Slot}

/-- Step a of both calls: the first free task structure leaves `freequeue`. -/
theorem Inv.popFree (hi : Inv k s ts) {fn : Node}
    (he : ¬ k.listEmpty (.head .freequeue) = true)
    (hfn : k.listFirst (.head .freequeue) = some fn) (hk₁ : k.listDel fn = some k₁)
    (hx : listHeadToTaskStruct fn = some x) :
    x ∈ s.queue .freequeue ∧ QueuesHold k₁ (s.remove x) ∧ k₁ = k.setLinks k₁.links ∧
      k.AgreeOn k₁ (fun a => a.family ≠ .sched) ∧ k₁.Closed := by
  cases hF : s.queue .freequeue with
  | nil => exact absurd ((listEmpty_queue hi.refines.queues).2 hF) he
  | cons y rest =>
    have hfy := listFirst_queue hi.refines.queues hF
    rw [hfn] at hfy
    cases hfy
    have hyx : y = x := by simpa [listHeadToTaskStruct, listEntry] using hx
    subst hyx
    have hy : y ∈ s.queue .freequeue := hF ▸ List.mem_cons_self
    obtain ⟨k₁', h₁, hq₁, hk₁', ho₁⟩ := listDel_queued hi.refines.queues hi.wf.toDisjoint hy
    rw [hk₁] at h₁
    cases h₁
    exact ⟨List.mem_cons_self, hq₁, hk₁', ho₁, Kernel.closed_listDel hi.closed hk₁⟩

/-- The last step of both calls: `x`, set up in `k₂`, is appended to queue `q`; every other task
    keeps its status and the queues hold `s.moveTo x q`. -/
theorem Inv.push_refines (hi : Inv k s ts) (hxF : x ∈ s.queue .freequeue)
    (hq₁ : QueuesHold k₁ (s.remove x)) (hk₁ : k₁ = k.setLinks k₁.links) (hc₂ : k₂.Closed)
    (hl : k₁.AgreeOn k₂ fun a => a.family = .sched ∧ a.slot ≠ some x)
    (hst : ∀ u, u ≠ x → (k₂.tasks u).status = (k.tasks u).status)
    (hcur : k₂.currentTask = k₁.currentTask) (hidle : k₂.idleTask = k₁.idleTask) {q : Queue}
    (hxs : q ≠ .freequeue → (k₂.tasks x).status = Sched.queueStatus q)
    (hadd : k₂.listAddTail (.field x .list) (.head q) = some k') :
    Refines k' (s.moveTo x q) ∧ k'.Closed := by
  have hd := hi.wf.toDisjoint
  have hq₂ : QueuesHold k₂ (s.remove x) := hq₁.slotFrame (Sched.not_queued_remove hd) hl
  obtain ⟨k₃, h₃, hq₃, hk₃, -⟩ := listAddTail_unqueued hq₂ hd.remove (Sched.not_queued_remove hd) q
  rw [hadd] at h₃
  cases h₃
  refine ⟨⟨hq₃, ?_, ?_, fun u hu => ?_⟩, Kernel.closed_listAddTail hc₂ (by rfl) hadd⟩
  · rw [hk₃, Kernel.setLinks_currentTask, hcur, hk₁]; exact hi.refines.current
  · rw [hk₃]; change k₂.idleTask = _; rw [hidle, hk₁]; exact hi.refines.idle
  · rw [hd.statusOf_moveTo, Kernel.listAddTail_tasks hadd]
    split_ifs with hux
    · subst hux
      refine hxs fun hq => hu ?_
      subst hq; exact hd.mem_moveTo.2 (.inl ⟨rfl, rfl⟩)
    · rw [hst u hux]
      exact hi.refines.status u ((hd.mem_free_moveTo hux).not.1 hu)

/-- Around a slot step of `x`, the two list operations on `x`'s `list` member leave the
    thread-list nodes of every other slot alone. -/
theorem threads_agree (ho₁ : k.AgreeOn k₁ fun a => a.family ≠ .sched) (hc₁ : k₁.Closed)
    (hs : SlotStep x k₁ k₂) {q : Queue}
    (hadd : k₂.listAddTail (.field x .list) (.head q) = some k') (a : Node)
    (ha : a.family = .threads) (hax : a.slot ≠ some x) :
    k'.links.next a = k.links.next a ∧ k'.links.prev a = k.links.prev a := by
  have hf : a.family ≠ .sched := by rw [ha]; decide
  obtain ⟨hn₁, hp₁⟩ := ho₁ a hf
  obtain ⟨hn₂, hp₂⟩ := hs.links hc₁ a ⟨by rw [ha]; decide, hax⟩
  obtain ⟨hn₃, hp₃⟩ := Kernel.listAddTail_other_family (hs.closed hc₁) (by rfl) hadd hf
  exact ⟨hn₃.trans (hn₂.trans hn₁), hp₃.trans (hp₂.trans hp₁)⟩

/-- A call that gives `x` back to `freequeue` after a slot step of `x` keeps the invariant. -/
theorem Inv.pushBack (hi : Inv k s ts) (hxF : x ∈ s.queue .freequeue)
    (hq₁ : QueuesHold k₁ (s.remove x)) (hk₁ : k₁ = k.setLinks k₁.links)
    (ho₁ : k.AgreeOn k₁ fun a => a.family ≠ .sched) (hc₁ : k₁.Closed) (hs : SlotStep x k₁ k₂)
    (hadd : k₂.listAddTail (.field x .list) (.head .freequeue) = some k') :
    Inv k' (s.moveTo x .freequeue) ts := by
  have hd := hi.wf.toDisjoint
  have hc₂ := hs.closed hc₁
  have hl₂ := hs.links hc₁
  have hcore : ∀ u, u ≠ x → (k₂.tasks u).core = (k.tasks u).core := fun u hu => by
    rw [hs.tasks u hu, hk₁]; rfl
  obtain ⟨hr', hc'⟩ := hi.push_refines hxF hq₁ hk₁ hc₂
    (hl₂.mono fun a ha => ⟨by rw [ha.1]; decide, ha.2⟩)
    (fun u hu => congrArg TaskCore.status (hcore u hu)) hs.currentTask hs.idleTask
    (fun h => absurd rfl h) hadd
  have hxi : x ≠ s.idle := fun e => hi.wf.idle_not_free (e ▸ hxF)
  have hxc : x ≠ s.current := fun e => hi.wf.current ⟨_, e ▸ hxF⟩
  refine ⟨hc', hr', hi.wf.moveTo (fun e => absurd e hxi) hxc, ?_, ?_⟩
  · refine hi.procs.frame (fun t => ?_) rfl (fun t ht => ?_) (fun t ht mb hmb => ?_)
    · rw [hd.mem_moveTo]
      by_cases htx : t = x
      · subst htx; simp [hxF]
      · simp [htx]
    · have htx : t ≠ x := fun e => ht (e ▸ hxF)
      rw [Kernel.listAddTail_tasks hadd]
      exact TaskStruct.threadData_of_core (hcore t htx)
    · have htx : t ≠ x := fun e => ht (e ▸ hxF)
      exact threads_agree ho₁ hc₁ hs hadd _ hmb (by simpa using htx)
  · rw [Kernel.listAddTail_eq hadd]
    exact Int.le_trans hi.nextPid (Int.le_trans (by rw [hk₁]; exact Int.le_refl _) hs.nextPid)

end Pop

/-! ### `sys_fork` -/

section Fork

variable {k k' : Kernel} {s : Sched} {ts : Slot → List Slot}

/-- The stack part of `sys_fork` succeeds and changes no scheduling data, or fails and gives the
    child back to `freequeue`. -/
theorem Kernel.forkUserStack_cases {cur child cpt ppt : Slot} {frames : List Nat} {ok : Bool}
    (h : k.forkUserStack cur child cpt ppt frames = some (ok, k')) :
    (ok = true ∧ SameCore k k') ∨
      (ok = false ∧ ∃ k₁, SameCore k k₁ ∧
        k₁.listAddTail (.field child .list) (.head .freequeue) = some k') := by
  unfold Kernel.forkUserStack at h
  dsimp only at h
  by_cases h₁ : ¬((k.tasks cur).userStackPtr ≠ 0 ∧ (k.tasks cur).userStackFrames > 0)
  · rw [if_pos h₁] at h
    cases h; exact .inl ⟨rfl, SameCore.modifyTask _ (by intro; rfl)⟩
  · rw [if_neg h₁] at h
    -- the stack frames are mapped, with the mapped ones unmapped again on failure
    have hs₁ := fun first n => Kernel.sameCore_mapFreshFrames (fun k i => k.unmapPagesUp cpt first i)
      (fun _ _ => Kernel.sameCore_unmapPagesUp ..) cpt first 0 n k
    split_ifs at h with h₂
    · obtain ⟨k₂, h₂, h⟩ := Option.bind_eq_some_iff.1 h
      cases h
      exact .inr ⟨rfl, _, (hs₁ _ _).trans
        (SameCore.foldl (fun _ _ => Kernel.sameCore_freeFrame ..) _ _), h₂⟩
    · obtain ⟨k₂, h₂, h⟩ := Option.bind_eq_some_iff.1 h
      cases h
      exact .inl ⟨rfl, (((hs₁ _ _).trans
        (SameCore.foldlM (fun _ _ _ => Kernel.sameCore_forkStackPage) _ _ _ h₂)).trans
        (SameCore.modifyTask _ (by intro; rfl))).trans (SameCore.modifyTask _ (by intro; rfl))⟩

/-- `sys_fork` keeps the invariant: the child becomes a ready master without threads, with PID
    `next_pid + 1`, TID `PID*10` and only index `0` taken, or it is free again. -/
theorem sysFork_inv {r : Int} (hi : Inv k s ts) (h : k.sysFork = some (r, k')) :
    ∃ s' ts', Inv k' s' ts' := by
  unfold Kernel.sysFork at h
  by_cases h₁ : k.inKeyboardContext = true
  · rw [if_pos h₁] at h; cases h; exact ⟨s, ts, hi⟩
  rw [if_neg h₁] at h
  by_cases h₂ : k.listEmpty (.head .freequeue) = true
  · rw [if_pos h₂] at h; cases h; exact ⟨s, ts, hi⟩
  rw [if_neg h₂] at h
  -- step a: the child `x` leaves `freequeue`
  replace h := Option.bind_eq_some_iff.1 h; obtain ⟨fn, hfn, h⟩ := h
  replace h := Option.bind_eq_some_iff.1 h; obtain ⟨k₁, hk₁, h⟩ := h
  replace h := Option.bind_eq_some_iff.1 h; obtain ⟨x, hx, h⟩ := h
  replace h := Option.bind_eq_some_iff.1 h; obtain ⟨c, -, h⟩ := h
  dsimp only at h
  obtain ⟨hxF, hq₁, hk₁e, ho₁, hc₁⟩ := hi.popFree h₂ hfn hk₁ hx
  have hd := hi.wf.toDisjoint
  have hxi : x ≠ s.idle := fun e => hi.wf.idle_not_free (e ▸ hxF)
  have hxc : x ≠ s.current := fun e => hi.wf.current ⟨_, e ▸ hxF⟩
  -- steps b to d
  generalize hk₂ : (k₁.copyTaskUnion c x).allocateDIR x = k₂ at h
  have s₂ : SlotStep x k₁ k₂ :=
    hk₂ ▸ (SlotStep.copyTaskUnion c).trans (.of_sameCore (Kernel.sameCore_allocateDIR ..))
  generalize hA : Kernel.allocDataFrames NUM_PAG_DATA [] k₂ = A at h
  have s₃ : SameCore k₂ A.2 := hA ▸ Kernel.sameCore_allocDataFrames ..
  obtain ⟨al, k₃⟩ := A
  cases al with
  | none =>
    -- no frames for the data: the child is free again
    dsimp only at h
    obtain ⟨k₄, hk₄, h⟩ := Option.bind_eq_some_iff.1 h
    cases h
    exact ⟨_, ts, hi.pushBack hxF hq₁ hk₁e ho₁ hc₁ (s₂.trans (.of_sameCore s₃)) hk₄⟩
  | some frames =>
  dsimp only at h
  replace h := Option.bind_eq_some_iff.1 h; obtain ⟨cpt, -, h⟩ := h
  replace h := Option.bind_eq_some_iff.1 h; obtain ⟨ppt, -, h⟩ := h
  replace h := Option.bind_eq_some_iff.1 h; obtain ⟨k₄, hk₄, h⟩ := h
  replace h := Option.bind_eq_some_iff.1 h; obtain ⟨k₅, hk₅, h⟩ := h
  replace h := Option.bind_eq_some_iff.1 h; obtain ⟨⟨ok, k₆⟩, hk₆, h⟩ := h
  -- steps e to h, up to the child's list nodes, change the child alone
  have s₄ : SameCore k₃ k₄ := ((Kernel.sameCore_shareRange ..).trans
    (Kernel.sameCore_shareRange ..)).trans
    (SameCore.foldlM (fun _ _ _ => Kernel.sameCore_forkDataPage) _ _ _ hk₄)
  have s₅ : SlotStep x k₄ k₅ := SlotStep.trans
    ((((((SlotStep.of_sameCore (Kernel.sameCore_setCr3 _ _)).trans
      (SlotStep.of_sameCore (Kernel.sameCore_getNextPid _))).trans (SlotStep.modifyTask _)).trans
      (SlotStep.initListHead _)).trans (SlotStep.modifyTask _)).trans (SlotStep.initMembers _))
    (SlotStep.listAddTail_children hk₅ rfl rfl)
  have s₀₄ : SlotStep x k₁ k₄ := (s₂.trans (.of_sameCore s₃)).trans (.of_sameCore s₄)
  rcases Kernel.forkUserStack_cases hk₆ with ⟨rfl, hs₆⟩ | ⟨rfl, k₆', hs₆, hadd⟩
  swap
  · -- no frame for the user stack: the child is free again
    simp only [Bool.not_false, if_true] at h
    cases h
    exact ⟨_, ts, hi.pushBack hxF hq₁ hk₁e ho₁ hc₁ ((s₀₄.trans s₅).trans
      ((((SlotStep.modifyTask _).trans (SlotStep.initMembers _)).trans (SlotStep.modifyTask _)).trans
        (.of_sameCore hs₆))) hadd⟩
  simp only [Bool.not_true, Bool.false_eq_true, if_false] at h
  replace h := Option.bind_eq_some_iff.1 h; obtain ⟨k₇, hk₇, h⟩ := h
  cases h
  have s₇ : SlotStep x k₁ (k₆.modifyTask x fun t => { t with userEntry := 0 }) :=
    ((s₀₄.trans s₅).trans ((((SlotStep.modifyTask _).trans (SlotStep.initMembers _)).trans
      (SlotStep.modifyTask _)).trans (.of_sameCore hs₆))).trans (SlotStep.modifyTask _)
  have hc₇ := s₇.closed hc₁
  -- the child's scheduling core, as steps g, h and the TID step set it
  set pid := (k₄.setCr3 (k₄.getDIR c)).getNextPid.1 with hpid
  have hx₅ : (k₅.tasks x).status = .ST_READY ∧ (k₅.tasks x).PID = pid := by
    rw [Kernel.listAddTail_tasks hk₅]; simp
  have hx₇ : (k'.tasks x).core = ⟨.ST_READY, pid, pid * 10, 1, some x,
      fun i => if i = 0 then 1 else 0⟩ := by
    rw [Kernel.listAddTail_tasks hk₇, Kernel.modifyTask_tasks, if_pos rfl]
    change (k₆.tasks x).core = _
    rw [hs₆.tasks x]
    simp [TaskStruct.core, TaskStruct.initTidSlots, TaskStruct.initKeyboardFields, hx₅]
  -- its thread list is empty and its own thread-list node points to itself
  have hself : ∀ mb ∈ [Member.threads, .threadList], k'.links.next (.field x mb) = some (.field x mb) ∧
      k'.links.prev (.field x mb) = some (.field x mb) := by
    intro mb hmb
    have hf : (Node.field x mb).family ≠ (Node.head .readyqueue).family := by
      simp only [List.mem_cons, List.not_mem_nil, or_false] at hmb
      rcases hmb with rfl | rfl <;> simp [Member.family]
    obtain ⟨hn, hp⟩ := Kernel.listAddTail_other_family hc₇ (by rfl) hk₇ hf
    rw [hn, hp]
    simp only [Kernel.modifyTask_links, hs₆.links]
    exact Kernel.initMembers_self _ x _ hmb
  have hnext : 0 ≤ pid := by
    have := Int.le_trans (Int.le_trans hi.nextPid (by rw [hk₁e]; exact Int.le_refl _)) s₀₄.nextPid
    simp only [hpid, Kernel.getNextPid, Kernel.setCr3]; omega
  have hcore₇ : ∀ u, u ≠ x →
      ((k₆.modifyTask x fun t => { t with userEntry := 0 }).tasks u).core = (k.tasks u).core :=
    fun u hu => by rw [s₇.tasks u hu, hk₁e]; rfl
  have hcore : ∀ u, u ≠ x → (k'.tasks u).core = (k.tasks u).core := fun u hu => by
    rw [Kernel.listAddTail_tasks hk₇]; exact hcore₇ u hu
  obtain ⟨hr', -⟩ := hi.push_refines hxF hq₁ hk₁e hc₇
    ((s₇.links hc₁).mono fun a ha => ⟨by rw [ha.1]; decide, ha.2⟩)
    (fun u hu => congrArg TaskCore.status (hcore₇ u hu)) s₇.currentTask s₇.idleTask
    (fun _ => by
      have := congrArg TaskCore.status hx₇
      rwa [Kernel.listAddTail_tasks hk₇] at this) hk₇
  refine ⟨s.moveTo x .readyqueue, update ts x [],
    ⟨Kernel.closed_listAddTail hc₇ (by rfl) hk₇, hr', hi.wf.moveTo (fun _ => rfl) hxc, ?_, ?_⟩⟩
  · refine hi.procs.spawn hxF hxi (fun t => ?_) rfl (fun t ht => ?_)
      (hi.procs.links.slotFrame (fun m hm => ⟨fun e => hm.1 (e ▸ hxF),
        fun t ht e => (hi.procs.member m hm t ht).1 (e ▸ hxF)⟩)
        (threads_agree ho₁ hc₁ s₇ hk₇))
      (Links.ring_nil (hself _ (by simp)).1 (hself _ (by simp)).2)
      (.inr (hself _ (by simp))) (congrArg TaskCore.masterThread hx₇)
      (congrArg TaskCore.threadCount hx₇) ?_ ?_
    · rw [hd.mem_moveTo]
      by_cases htx : t = x
      · subst htx; simp
      · simp [htx]
    · exact TaskStruct.threadData_of_core (hcore t fun e => ht (e ▸ hxF))
    · have hP := congrArg TaskCore.PID hx₇
      have hT := congrArg TaskCore.TID hx₇
      have hS := congrArg TaskCore.tidSlots hx₇
      simp only [TaskStruct.core] at hP hT hS
      rw [hP, hT, hS]
      exact TidTable.init pid
    · have hP := congrArg TaskCore.PID hx₇
      simp only [TaskStruct.core] at hP
      rw [hP]; exact hnext
  · rw [Kernel.listAddTail_eq hk₇]
    exact Int.le_trans hi.nextPid (Int.le_trans (by rw [hk₁e]; exact Int.le_refl _) s₇.nextPid)

end Fork

/-! ### `sys_create_thread` -/

namespace SlotStep

variable {x : Slot} {k k' : Kernel}

/-- Taking index `i` of `m`'s TID bitmap before a slot step of `x` and freeing it after leaves the
    task of `m` as it was, when the index was free. -/
theorem tidSlot_undo {m : Slot} {i : Nat}
    (hs : SlotStep x (k.modifyTask m fun t => { t with tidSlots := update t.tidSlots i 1 }) k')
    (hm : m ≠ x) (hfree : (k.tasks m).tidSlots i = 0) :
    SlotStep x k (k'.modifyTask m fun t => { t with tidSlots := update t.tidSlots i 0 }) := by
  refine ⟨hs.closed, fun hc => (Kernel.AgreeOn.of_links rfl _).trans
    ((hs.links hc).trans (.of_links rfl _)), fun u hu => ?_, hs.currentTask, hs.idleTask,
    hs.nextPid⟩
  have h₁ := hs.tasks u hu
  by_cases hum : u = m
  · subst hum
    rw [Kernel.modifyTask_tasks, if_pos rfl] at h₁ ⊢
    simp only [TaskStruct.core, TaskCore.mk.injEq] at h₁ ⊢
    obtain ⟨h₁, h₂, h₃, h₄, h₅, h₆⟩ := h₁
    refine ⟨h₁, h₂, h₃, h₄, h₅, ?_⟩
    rw [h₆, update_idem, ← hfree, update_eq_self]
  · simpa [hum] using h₁

end SlotStep

section Create

variable {k k₁ k₂ k₃ k₄ k₅ k' : Kernel} {s : Sched} {ts : Slot → List Slot} {x m : Slot} {i : Nat}

/-- A `sys_create_thread` that fails after taking index `i` of `m`'s TID bitmap frees it and gives
    `x` back to `freequeue`: the bookkeeping is as before. -/
theorem Inv.tidRollback (hi : Inv k s ts) (hxF : x ∈ s.queue .freequeue)
    (hq₁ : QueuesHold k₁ (s.remove x)) (hk₁ : k₁ = k.setLinks k₁.links)
    (ho₁ : k.AgreeOn k₁ fun a => a.family ≠ .sched) (hc₁ : k₁.Closed) (hs₀ : SlotStep x k₁ k₂)
    (hmx : m ≠ x) (hii : i < MAX_TIDS_PER_PROCESS) (hfree : (k₂.tasks m).tidSlots i = 0)
    (hs : SlotStep x (k₂.modifyTask m fun t => { t with tidSlots := update t.tidSlots i 1 }) k₃)
    (hadd : (k₃.freeTid m ((k₂.tasks m).PID * 10 + i)).listAddTail (.field x .list)
      (.head .freequeue) = some k') :
    Inv k' (s.moveTo x .freequeue) ts := by
  have hP : (k₃.tasks m).PID = (k₂.tasks m).PID := by
    simpa [TaskStruct.core] using congrArg TaskCore.PID (hs.tasks m hmx)
  rw [← hP, Kernel.freeTid_eq _ _ hii] at hadd
  exact hi.pushBack hxF hq₁ hk₁ ho₁ hc₁ (hs₀.trans (hs.tidSlot_undo hmx hfree)) hadd

/-- A successful `sys_create_thread`: `x`, set up as a ready thread of the live master `m` with
    TID `PID*10 + i`, joins the end of `m`'s thread list and then `readyqueue`, and `m` counts one
    thread more. -/
theorem Inv.addThread_push (hi : Inv k s ts) (hxF : x ∈ s.queue .freequeue)
    (hq₁ : QueuesHold k₁ (s.remove x)) (hk₁ : k₁ = k.setLinks k₁.links)
    (ho₁ : k.AgreeOn k₁ fun a => a.family ≠ .sched) (hc₁ : k₁.Closed) (hs₀ : SlotStep x k₁ k₂)
    (hm : LiveMaster k s m) (hii : i < MAX_TIDS_PER_PROCESS) (hfree : (k₂.tasks m).tidSlots i = 0)
    (hs : SlotStep x (k₂.modifyTask m fun t => { t with tidSlots := update t.tidSlots i 1 }) k₃)
    (hxs : (k₃.tasks x).status = .ST_READY) (hxM : (k₃.tasks x).masterThread = some m)
    (hxP : (k₃.tasks x).PID = (k₂.tasks m).PID)
    (hxT : (k₃.tasks x).TID = (k₂.tasks m).PID * 10 + i) (hc : SameCore k₃ k₄)
    (h₅ : (k₄.modifyTask m fun t => { t with threadCount := t.threadCount + 1 }).listAddTail
      (.field x .threadList) (.field m .threads) = some k₅)
    (h₆ : k₅.listAddTail (.field x .list) (.head .readyqueue) = some k') :
    Inv k' (s.moveTo x .readyqueue) (update ts m (ts m ++ [x])) := by
  have hd := hi.wf.toDisjoint
  have hxi : x ≠ s.idle := fun e => hi.wf.idle_not_free (e ▸ hxF)
  have hxc : x ≠ s.current := fun e => hi.wf.current ⟨_, e ▸ hxF⟩
  have hmx : m ≠ x := fun e => hm.1 (e ▸ hxF)
  have hc₂ := hs₀.closed hc₁
  have hc₄ : (k₄.modifyTask m fun t => { t with threadCount := t.threadCount + 1 }).Closed :=
    hc.closed (hs.closed hc₂)
  have hc₅ := Kernel.closed_listAddTail hc₄ (by rfl) h₅
  -- up to the thread-list step, the nodes outside the children lists and `x` are as in `k₁`
  have hl₄ : k₁.AgreeOn (k₄.modifyTask m fun t => { t with threadCount := t.threadCount + 1 })
      fun a => a.family ≠ .children ∧ a.slot ≠ some x :=
    (hs₀.links hc₁).trans ((Kernel.AgreeOn.of_links rfl _).trans
      ((hs.links hc₂).trans (.of_links hc.links _)))
  -- every task but `x` and `m` keeps its core; `m` counts one thread more and holds index `i`
  have ht₅ : k'.tasks =
      (k₄.modifyTask m fun t => { t with threadCount := t.threadCount + 1 }).tasks := by
    rw [Kernel.listAddTail_tasks h₆, Kernel.listAddTail_tasks h₅]
  have hcore : ∀ u, u ≠ x → u ≠ m → (k'.tasks u).core = (k.tasks u).core := fun u hux hum => by
    rw [ht₅, Kernel.modifyTask_tasks, if_neg hum, hc.tasks, hs.tasks u hux, Kernel.modifyTask_tasks,
      if_neg hum, hs₀.tasks u hux, hk₁]
    rfl
  have hm₂ : (k₂.tasks m).core = (k.tasks m).core := by rw [hs₀.tasks m hmx, hk₁]; rfl
  have hm' : (k'.tasks m).core = ⟨(k.tasks m).status, (k.tasks m).PID, (k.tasks m).TID,
      (k.tasks m).threadCount + 1, (k.tasks m).masterThread, update (k.tasks m).tidSlots i 1⟩ := by
    have h₄ := (hc.tasks m).trans (hs.tasks m hmx)
    rw [Kernel.modifyTask_tasks, if_pos rfl] at h₄
    rw [ht₅, Kernel.modifyTask_tasks, if_pos rfl]
    simp only [TaskStruct.core, TaskCore.mk.injEq] at h₄ hm₂ ⊢
    simp only [h₄, hm₂, and_self]
  have hx' : k'.tasks x = k₄.tasks x := by
    rw [ht₅, Kernel.modifyTask_tasks, if_neg (Ne.symm hmx)]
  have hx₄ := hc.tasks x
  simp only [TaskStruct.core, TaskCore.mk.injEq] at hx₄
  obtain ⟨hxs₄, hxP₄, hxT₄, -, hxM₄, -⟩ := hx₄
  -- the thread lists: `x` joins the end of the list of `m`
  have hl₀ : ThreadLinks (k₄.modifyTask m fun t => { t with threadCount := t.threadCount + 1 }).links
      (LiveMaster k s) ts :=
    hi.procs.links.slotFrame (fun j hj => ⟨fun e => hj.1 (e ▸ hxF),
      fun t ht e => (hi.procs.member j hj t ht).1 (e ▸ hxF)⟩) fun a ha hax => by
        obtain ⟨hn₁, hp₁⟩ := ho₁ a (show a.family ≠ .sched by rw [ha]; decide)
        obtain ⟨hn₄, hp₄⟩ := hl₄ a ⟨by rw [ha]; decide, hax⟩
        exact ⟨hn₄.trans hn₁, hp₄.trans hp₁⟩
  obtain ⟨h', hadd, hl', -⟩ := hl₀.addTail hm (fun j hj e => hj.1 (e ▸ hxF))
    fun j hj ht => (hi.procs.member j hj x ht).1 hxF
  have hk₅ : k₅ =
      (k₄.modifyTask m fun t => { t with threadCount := t.threadCount + 1 }).setLinks h' := by
    simp only [Kernel.listAddTail, hadd, Option.map_some] at h₅
    exact (Option.some.inj h₅).symm
  have hl₆ : ThreadLinks k'.links (LiveMaster k s) (update ts m (ts m ++ [x])) :=
    ThreadLinks.frame_threads (by rw [hk₅]; exact hl') fun a ha =>
      Kernel.listAddTail_other_family hc₅ (by rfl) h₆ (by rw [ha]; decide)
  -- the queues: `x` joins `readyqueue`
  obtain ⟨hr', hc'⟩ := hi.push_refines hxF hq₁ hk₁ hc₅
    (fun a ha => by
      obtain ⟨hn₄, hp₄⟩ := hl₄ a ⟨by rw [ha.1]; decide, ha.2⟩
      obtain ⟨hn₅, hp₅⟩ := Kernel.listAddTail_other_family hc₄ (by rfl) h₅
        (by rw [ha.1]; simp [Member.family])
      exact ⟨hn₅.trans hn₄, hp₅.trans hp₄⟩)
    (fun u hux => by
      rw [← Kernel.listAddTail_tasks h₆]
      by_cases hum : u = m
      · subst hum; exact congrArg TaskCore.status hm'
      · exact congrArg TaskCore.status (hcore u hux hum))
    (by rw [hk₅]; exact hc.currentTask.trans (hs.currentTask.trans hs₀.currentTask))
    (by rw [hk₅]; exact hc.idleTask.trans (hs.idleTask.trans hs₀.idleTask))
    (fun _ => by rw [← Kernel.listAddTail_tasks h₆, hx', hxs₄]; exact hxs) h₆
  have hP₂ : (k₂.tasks m).PID = (k.tasks m).PID := congrArg TaskCore.PID hm₂
  have hS₂ : (k₂.tasks m).tidSlots = (k.tasks m).tidSlots := congrArg TaskCore.tidSlots hm₂
  refine ⟨hc', hr', hi.wf.moveTo (fun _ => rfl) hxc, hi.procs.addThread hm hxF (fun t => ?_) rfl
    hxi (fun t ht htm => ?_) hl₆ (congrArg TaskCore.PID hm') (congrArg TaskCore.TID hm')
    ((congrArg TaskCore.masterThread hm').trans hm.2.2) (congrArg TaskCore.threadCount hm') hii
    (hS₂ ▸ hfree) (congrArg TaskCore.tidSlots hm') ?_ ?_ ?_, ?_⟩
  · rw [hd.mem_moveTo]; simp [and_comm]
  · exact TaskStruct.threadData_of_core (hcore t (fun e => ht (e ▸ hxF)) htm)
  · rw [hx', hxM₄]; exact hxM
  · rw [hx', hxP₄, hxP, hP₂]
  · rw [hx', hxT₄, hxT, hP₂]
  · rw [Kernel.listAddTail_eq h₆, hk₅]
    exact Int.le_trans hi.nextPid (Int.le_trans (by rw [hk₁]; exact Int.le_refl _)
      (Int.le_trans hs₀.nextPid (Int.le_trans hs.nextPid hc.nextPid)))

/-- `sys_create_thread` from a thread of a user process keeps the invariant: `x` becomes a ready
    thread of the caller's process, or the call fails with the bookkeeping as it was. -/
theorem sysCreateThread_inv {f p w : Nat} {r : Int} (hi : Inv k s ts) (hcu : s.current ≠ s.idle)
    (h : k.sysCreateThread f p w = some (r, k')) : ∃ s' ts', Inv k' s' ts' := by
  unfold Kernel.sysCreateThread at h
  -- the argument checks return before anything is changed
  iterate 6
    rw [ite_eq_iff] at h
    rcases h with ⟨-, h⟩ | ⟨-, h⟩
    · cases h; exact ⟨s, ts, hi⟩
  rw [ite_eq_iff] at h
  rcases h with ⟨-, h⟩ | ⟨he, h⟩
  · cases h; exact ⟨s, ts, hi⟩
  -- step a: `x` leaves `freequeue`, and the caller's master `m` is a live master
  replace h := Option.bind_eq_some_iff.1 h; obtain ⟨fn, hfn, h⟩ := h
  replace h := Option.bind_eq_some_iff.1 h; obtain ⟨k₁, hk₁, h⟩ := h
  replace h := Option.bind_eq_some_iff.1 h; obtain ⟨x, hx, h⟩ := h
  replace h := Option.bind_eq_some_iff.1 h; obtain ⟨c, hc, h⟩ := h
  dsimp only at h
  replace h := Option.bind_eq_some_iff.1 h; obtain ⟨m, hm, h⟩ := h
  obtain ⟨hxF, hq₁, hk₁e, ho₁, hc₁⟩ := hi.popFree he hfn hk₁ hx
  have ht₁ : k₁.tasks = k.tasks := by rw [hk₁e]; rfl
  have hcs : c = s.current := by
    rw [hk₁e, Kernel.setLinks_currentTask, hi.refines.current] at hc
    exact (Option.some.inj hc).symm
  subst hcs
  have hcx : s.current ≠ x := fun e => hi.wf.current ⟨_, e ▸ hxF⟩
  have s₂ : SlotStep x k₁ (k₁.copyTaskUnion s.current x) := SlotStep.copyTaskUnion s.current
  have hmL : LiveMaster k s m := by
    obtain ⟨m', hm', hL, -⟩ := hi.procs.owner s.current (fun h' => hi.wf.current ⟨_, h'⟩) hcu
    have hmc : ((k₁.copyTaskUnion s.current x).tasks s.current).masterThread = (k.tasks s.current).masterThread := by
      rw [← ht₁]; exact congrArg TaskCore.masterThread (s₂.tasks s.current hcx)
    rw [hmc, hm'] at hm
    exact Option.some.inj hm ▸ hL
  have hmx : m ≠ x := fun e => hmL.1 (e ▸ hxF)
  -- the TID
  generalize hT : (k₁.copyTaskUnion s.current x).allocateTid m = T at h
  have hcases := Kernel.allocateTid_cases (k₁.copyTaskUnion s.current x) m
  rw [hT] at hcases
  obtain ⟨tid, k₂⟩ := T
  dsimp only at h hcases
  rcases hcases with ⟨rfl, rfl⟩ | ⟨i, hii, hfree, rfl, rfl⟩
  · -- no free TID: `x` is free again
    rw [if_pos (by decide)] at h
    obtain ⟨k₃, hk₃, h⟩ := Option.bind_eq_some_iff.1 h
    cases h
    exact ⟨_, ts, hi.pushBack hxF hq₁ hk₁e ho₁ hc₁ s₂ hk₃⟩
  have hP₂ : ((k₁.copyTaskUnion s.current x).tasks m).PID = (k.tasks m).PID := by
    rw [← ht₁]; exact congrArg TaskCore.PID (s₂.tasks m hmx)
  rw [if_neg (by have := hi.procs.pid m hmL; omega)] at h
  -- the thread's own fields
  generalize hk₃ : Kernel.modifyTask _ x TaskStruct.initKeyboardFields = k₃ at h
  have s₃ : SlotStep x ((k₁.copyTaskUnion s.current x).modifyTask m fun t =>
      { t with tidSlots := update t.tidSlots i 1 }) k₃ :=
    hk₃ ▸ (((SlotStep.modifyTask _).trans (SlotStep.initMembers _)).trans
      (SlotStep.modifyTask _)).trans (SlotStep.modifyTask _)
  have hx₃ : (k₃.tasks x).status = .ST_READY ∧ (k₃.tasks x).masterThread = some m ∧
      (k₃.tasks x).PID = ((k₁.copyTaskUnion s.current x).tasks m).PID ∧
      (k₃.tasks x).TID = ((k₁.copyTaskUnion s.current x).tasks m).PID * 10 + i := by
    rw [← hk₃]; simp [TaskStruct.initKeyboardFields, hmx]
  -- the stack region, with the index and `x` given back at each failure
  replace h := Option.bind_eq_some_iff.1 h; obtain ⟨rs, -, h⟩ := h
  rw [ite_eq_iff] at h
  rcases h with ⟨-, h⟩ | ⟨-, h⟩
  · obtain ⟨k₄, hk₄, h⟩ := Option.bind_eq_some_iff.1 h
    cases h
    exact ⟨_, ts, hi.tidRollback hxF hq₁ hk₁e ho₁ hc₁ s₂ hmx hii hfree s₃ hk₄⟩
  replace h := Option.bind_eq_some_iff.1 h; obtain ⟨⟨mr, k₄⟩, hk₄, h⟩ := h
  dsimp only at h
  have c₄ := Kernel.sameCore_mapStackPages hk₄
  rw [ite_eq_iff] at h
  rcases h with ⟨-, h⟩ | ⟨-, h⟩
  · obtain ⟨k₅, hk₅, h⟩ := Option.bind_eq_some_iff.1 h
    cases h
    exact ⟨_, ts, hi.tidRollback hxF hq₁ hk₁e ho₁ hc₁ s₂ hmx hii hfree (s₃.trans (.of_sameCore c₄))
      hk₅⟩
  -- the wrapper's arguments and the thread's stack change no scheduling data
  replace h := Option.bind_eq_some_iff.1 h; obtain ⟨cpt, -, h⟩ := h
  replace h := Option.bind_eq_some_iff.1 h; obtain ⟨ppt, -, h⟩ := h
  replace h := Option.bind_eq_some_iff.1 h; obtain ⟨k₅, hk₅, h⟩ := h
  replace h := Option.bind_eq_some_iff.1 h; obtain ⟨k₆, hk₆, h⟩ := h
  replace h := Option.bind_eq_some_iff.1 h; obtain ⟨k₇, hk₇, h⟩ := h
  cases h
  exact ⟨_, _, hi.addThread_push hxF hq₁ hk₁e ho₁ hc₁ s₂ hmL hii hfree s₃ hx₃.1 hx₃.2.1 hx₃.2.2.1
    hx₃.2.2.2 ((((c₄.trans (SameCore.foldl (fun _ _ => Kernel.sameCore_setSsPag ..) _ _)).trans
      (Kernel.sameCore_writeThreadArgs hk₅)).trans
      (SameCore.foldl (fun _ _ => Kernel.sameCore_delSsPag ..) _ _)).trans
      (((Kernel.sameCore_setCr3 ..).trans (Kernel.sameCore_setCr3 ..)).trans
        (SameCore.modifyTask _ fun _ => by unfold TaskStruct.core; rfl))) hk₆ hk₇⟩

end Create

end Zeos
