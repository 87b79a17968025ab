import Zeos.Kernel.Threads

/-! # `sys_exit`

`sys_exit`, called by the master `m` of a live process, frees every thread of `m`'s list
(step 1), gives the caller's children to idle (steps 2 and 3), unmaps the data pages, frees `m`
and dispatches the next ready task (step 5).

Step 1 is a `list_for_each_safe` over `m`'s thread list whose body takes out of the list the thread
it is given. On the ring it is a fold over the threads (`forEachSafe_ring`), and what each
iteration keeps is `ExitLoop`: the list holds the threads still to visit, the visited ones are
free, and nothing outside the list and the visited threads' `list` members has changed. Steps 2
and 3 change the children lists and `parent` fields alone (`ChildStep`), which the scheduling
core does not read. So a `sys_exit` by a master is `Procs.release` on the bookkeeping.

What a call by a thread that is not a master does is another matter: the loop of step 1 runs over
that thread's own, empty, list and step 5 frees the thread alone. -/

namespace Zeos

open Function

/-- An `if` whose two branches continue with the same code: the branch taken, then the code. -/
theorem Option.ite_bind_eq_some {σ τ : Type} {c : Prop} [Decidable c] {a b : Option σ}
    {f : σ → Option τ} {y : τ} (h : (if c then a >>= f else b >>= f) = some y) :
    ∃ z, (if c then a else b) = some z ∧ f z = some y := by
  by_cases hc : c
  · rw [if_pos hc] at h ⊢; exact Option.bind_eq_some_iff.1 h
  · rw [if_neg hc] at h ⊢; exact Option.bind_eq_some_iff.1 h

/-! ### Changes to the children lists -/

/-- `k'` differs from `k` at most in the children lists and in task fields outside the
    scheduling core. -/
structure ChildStep (k k' : Kernel) : Prop where
  closed : k.Closed → k'.Closed
  links : k.Closed → k.AgreeOn k' fun a => a.family ≠ .children
  tasks : ∀ u, (k'.tasks u).core = (k.tasks u).core
  currentTask : k'.currentTask = k.currentTask
  idleTask : k'.idleTask = k.idleTask
  nextPid : k.nextPid ≤ k'.nextPid

namespace ChildStep

variable {k k' k'' : Kernel}

@[refl] theorem refl (k : Kernel) : ChildStep k k :=
  ⟨id, fun _ => .refl k _, fun _ => rfl, rfl, rfl, Int.le_refl _⟩

@[trans] theorem trans (h₁ : ChildStep k k') (h₂ : ChildStep k' k'') : ChildStep k k'' :=
  ⟨h₂.closed ∘ h₁.closed, fun hc => (h₁.links hc).trans (h₂.links (h₁.closed hc)),
    fun u => (h₂.tasks u).trans (h₁.tasks u), h₂.currentTask.trans h₁.currentTask,
    h₂.idleTask.trans h₁.idleTask, Int.le_trans h₁.nextPid h₂.nextPid⟩

theorem of_sameCore (h : SameCore k k') : ChildStep k k' :=
  ⟨h.closed, fun _ => .of_links h.links _, h.tasks, h.currentTask, h.idleTask, h.nextPid⟩

theorem listDel {e : Node} (h : k.listDel e = some k') (he : e.family = .children) :
    ChildStep k k' := by
  have hk' := Kernel.listDel_eq h
  refine ⟨fun hc => Kernel.closed_listDel hc h,
    fun hc a ha => Kernel.listDel_other_family hc h (he ▸ ha), fun u => by rw [hk']; rfl, ?_, ?_, ?_⟩
  all_goals rw [hk']
  · rfl
  · rfl
  · exact Int.le_refl _

theorem listAddTail {new hd : Node} (h : k.listAddTail new hd = some k')
    (hn : new.family = .children) (hh : hd.family = .children) : ChildStep k k' := by
  have hk' := Kernel.listAddTail_eq h
  refine ⟨fun hc => Kernel.closed_listAddTail hc (hn.trans hh.symm) h,
    fun hc a ha => Kernel.listAddTail_other_family hc (hn.trans hh.symm) h (hh ▸ ha),
    fun u => by rw [hk']; rfl, ?_, ?_, ?_⟩
  all_goals rw [hk']
  · rfl
  · rfl
  · exact Int.le_refl _

/-- The scheduler's view of the kernel does not see the children lists. -/
theorem refines {s : Sched} (h : ChildStep k k') (hc : k.Closed) (hr : Refines k s) :
    Refines k' s :=
  hr.frame ((h.links hc).mono fun a ha => by rw [ha]; decide)
    (fun u => congrArg TaskCore.status (h.tasks u)) h.currentTask h.idleTask

end ChildStep

namespace Kernel

variable {k k' : Kernel}

/-- One iteration of step 2 of `sys_exit` moves a child to idle's children list. -/
theorem childStep_reparentBody {pos : Node} (h : k.reparentBody pos = some k') : ChildStep k k' := by
  unfold reparentBody at h
  obtain ⟨c, -, h⟩ := Option.bind_eq_some_iff.1 h
  obtain ⟨k₁, h₁, h⟩ := Option.bind_eq_some_iff.1 h
  obtain ⟨i, -, h⟩ := Option.bind_eq_some_iff.1 h
  exact (ChildStep.listDel h₁ rfl).trans
    ((ChildStep.of_sameCore (SameCore.modifyTask c (by intro; rfl))).trans
      (ChildStep.listAddTail h rfl rfl))

end Kernel

/-! ### The threads of other processes -/

/-- The thread lists of the masters other than `m` depend on the thread nodes outside `m`'s
    list alone. -/
theorem Procs.links_others {k k' : Kernel} {s : Sched} {ts : Slot → List Slot} {m : Slot}
    (hp : Procs k s ts) (hm : LiveMaster k s m)
    (ha : k.AgreeOn k' fun a => a.family = .threads ∧ a ∉ Node.field m .threads :: threadNodes (ts m)) :
    ThreadLinks k'.links (fun j => LiveMaster k s j ∧ j ≠ m) ts :=
  (hp.links.mono fun _ hj => hj.1).frame fun j hjj a hmem => by
    obtain ⟨hj, hjm⟩ := hjj
    -- the nodes of `j` lie outside `m`'s list: `j` is a live master and its threads are its own
    rcases hmem with hmem | rfl
    · rcases List.mem_cons.1 hmem with rfl | hmem
      · refine ha _ ⟨rfl, fun hin => ?_⟩
        rcases List.mem_cons.1 hin with e | e
        · exact hjm (Node.field.inj e).1
        · exact head_notMem_threadNodes _ _ e
      · obtain ⟨t, ht, rfl⟩ := List.mem_map.1 hmem
        refine ha _ ⟨rfl, fun hin => ?_⟩
        rcases List.mem_cons.1 hin with e | e
        · cases e
        · exact hjm (hp.eq_of_mem hj hm ht (mem_threadNodes.1 e).2)
    · refine ha _ ⟨rfl, fun hin => ?_⟩
      rcases List.mem_cons.1 hin with e | e
      · cases e
      · exact hp.not_liveMaster_of_mem hm (mem_threadNodes.1 e).2 hj

/-! ### Step 1: the threads of the master's list -/

section Loop

variable {k k₁ k₂ : Kernel} {s s₁ : Sched} {ts : Slot → List Slot} {m t : Slot}
  {done rest : List Slot}

/-- What step 1 of `sys_exit` keeps, with `done` the threads it has freed and `rest` those still in
    the master's list: the list holds `rest` and the queues `s₁`, in which the threads of `done`
    are free and nothing else has moved; no thread node outside the list and no task core but the
    master's has changed. -/
structure ExitLoop (k : Kernel) (s : Sched) (ts : Slot → List Slot) (m : Slot)
    (done rest : List Slot) (k₁ : Kernel) (s₁ : Sched) : Prop where
  split : ts m = done ++ rest
  ring : Links.Ring k₁.links (.field m .threads) (threadNodes rest)
  refines : Refines k₁ s₁
  placed : s₁.Placed
  current : s₁.current = s.current
  idle : s₁.idle = s.idle
  free : ∀ u, u ∈ s₁.queue .freequeue ↔ u ∈ s.queue .freequeue ∨ u ∈ done
  master : ¬ s₁.Queued m
  closed : k₁.Closed
  links : k.AgreeOn k₁ fun a => a.family = .threads ∧ a ∉ Node.field m .threads :: threadNodes (ts m)
  tasks : ∀ u, u ≠ m → (k₁.tasks u).core = (k.tasks u).core
  nextPid : k.nextPid ≤ k₁.nextPid

theorem ExitLoop.init (hi : Inv k s ts) (hm : LiveMaster k s m) (hc : s.current = m) :
    ExitLoop k s ts m [] (ts m) k s :=
  ⟨rfl, hi.procs.ring hm, hi.refines, hi.wf.toPlaced, rfl, rfl, fun _ => by simp,
    hc ▸ hi.wf.current, hi.closed, .refl k _, fun _ _ => rfl, Int.le_refl _⟩

/-- One iteration of step 1 frees the first thread still in the list. -/
theorem ExitLoop.step (hi : Inv k s ts) (hm : LiveMaster k s m)
    (hl : ExitLoop k s ts m done (t :: rest) k₁ s₁)
    (h : Kernel.exitThreadBody m k₁ (.field t .threadList) = some k₂) :
    ExitLoop k s ts m (done ++ [t]) rest k₂ (s₁.moveTo t .freequeue) := by
  have ht : t ∈ ts m := by rw [hl.split]; simp
  obtain ⟨htF, hti, -, -⟩ := hi.procs.member m hm t ht
  have htm : t ≠ m := hi.procs.ne_of_mem hm ht
  have htd : t ∉ done := by
    have hnd := hi.procs.links.nodup hm
    rw [hl.split, List.nodup_append] at hnd
    exact fun h' => hnd.2.2 t h' t List.mem_cons_self rfl
  have htF₁ : t ∉ s₁.queue .freequeue := fun h' => ((hl.free t).1 h').elim htF htd
  have hd := hl.placed.toDisjoint
  unfold Kernel.exitThreadBody at h
  replace h := Option.bind_eq_some_iff.1 h; obtain ⟨y, hy, h⟩ := h
  have hyt : y = t := by simpa [listEntry] using hy.symm
  subst hyt
  replace h := Option.bind_eq_some_iff.1 h; obtain ⟨k₂', h₂, h⟩ := h
  replace h := Option.bind_eq_some_iff.1 h; obtain ⟨k₃, h₃, h⟩ := h
  dsimp only at h
  -- the stack and the TID: no node and no other task changes
  have c₂ := Kernel.sameCore_releaseThreadStack h₂
  have hr₂ := (hl.refines.sameCore c₂).freeTid m (k₂'.tasks y).TID
  have hc₂ : (k₂'.freeTid m (k₂'.tasks y).TID).Closed := by
    unfold Kernel.Closed; rw [Kernel.freeTid_links]; exact c₂.closed hl.closed
  -- the thread leaves the list
  have hring₂ : Links.Ring (k₂'.freeTid m (k₂'.tasks y).TID).links (.field m .threads)
      (threadNodes (y :: rest)) := by
    rw [Kernel.freeTid_links, c₂.links]; exact hl.ring
  obtain ⟨h', hdel, hring₃, -, -, hout⟩ :=
    Links.ring_del hring₂ (mem_threadNodes.2 ⟨rfl, List.mem_cons_self⟩)
  have hk₃ : k₃ = (k₂'.freeTid m (k₂'.tasks y).TID).setLinks h' := by
    simp only [Kernel.listDel, hdel, Option.map_some] at h₃
    exact (Option.some.inj h₃).symm
  have hc₃ := Kernel.closed_listDel hc₂ h₃
  have hr₃ : Refines k₃ s₁ := by
    rw [hk₃]
    exact hr₂.frame (fun a ha => by
      rw [← hk₃]; exact Kernel.listDel_other_family hc₂ h₃ (by rw [ha]; simp [Member.family]))
      (fun _ => rfl) rfl rfl
  -- and its `list` member goes to `freequeue`
  obtain ⟨hr₄, hk₄, hq₄⟩ := moveToFree_refines hr₃ hd htF₁ h
  refine ⟨by rw [hl.split]; simp, ?_, hr₄, hl.placed.moveTo fun e => absurd (e.trans hl.idle) hti,
    hl.current, hl.idle, fun u => ?_, fun hQ => ?_, hq₄.closed hc₃, fun a ha => ?_,
    fun u hu => ?_, ?_⟩
  · -- ring
    have hr : Links.Ring k₃.links (.field m .threads) (threadNodes rest) := by
      rw [hk₃]; simpa [threadNodes] using hring₃
    exact Links.ring_frame hr fun a ha => hq₄.outside a (by
      rcases List.mem_cons.1 ha with rfl | ha
      · simp [Member.family]
      · obtain ⟨u, -, rfl⟩ := List.mem_map.1 ha; simp [Member.family])
  · -- free
    rw [hd.mem_moveTo, hl.free]
    by_cases hu : u = y
    · subst hu; simp
    · simp [hu]
  · -- master
    obtain ⟨q, hq⟩ := hQ
    rcases hd.mem_moveTo.1 hq with ⟨e, -⟩ | ⟨-, hq⟩
    · exact htm e.symm
    · exact hl.master ⟨q, hq⟩
  · -- links
    have hsub : a ∉ Node.field m .threads :: threadNodes (y :: rest) := fun hin => ha.2 (by
      rcases List.mem_cons.1 hin with e | hin
      · exact e ▸ List.mem_cons_self
      · obtain ⟨u, hu, rfl⟩ := List.mem_map.1 hin
        exact List.mem_cons_of_mem _ (List.mem_map_of_mem (hl.split ▸ List.mem_append_right _ hu)))
    obtain ⟨hn₄, hp₄⟩ := hq₄.outside a (show a.family ≠ .sched by rw [ha.1]; decide)
    obtain ⟨hn₃, hp₃⟩ := hout a hsub
    obtain ⟨hn₁, hp₁⟩ := hl.links a ha
    have hl₃ : k₃.links = h' := by rw [hk₃]; rfl
    rw [← hl₃, Kernel.freeTid_links, c₂.links] at hn₃ hp₃
    exact ⟨hn₄.trans (hn₃.trans hn₁), hp₄.trans (hp₃.trans hp₁)⟩
  · -- tasks
    rw [hk₄, Kernel.setLinks_tasks, hk₃, Kernel.setLinks_tasks, Kernel.freeTid_tasks_of_ne _ _ hu,
      c₂.tasks]
    exact hl.tasks u hu
  · -- nextPid
    have e : k₃.nextPid = k₂'.nextPid := by rw [hk₃]; exact Kernel.freeTid_nextPid ..
    exact Int.le_trans hl.nextPid (Int.le_trans c₂.nextPid (e ▸ hq₄.nextPid))

/-- Step 1 of `sys_exit` by the running master `m` frees every thread of its list. -/
theorem exitThreads_spec (hi : Inv k s ts) (hm : LiveMaster k s m) (hc : s.current = m)
    (h : (if (!k.listEmpty (.field m .threads)) = true then
      Links.forEachSafe Kernel.links (.field m .threads) (Kernel.exitThreadBody m) listFuel k
      else pure k) = some k₁) :
    ∃ s₁, ExitLoop k s ts m (ts m) [] k₁ s₁ := by
  by_cases he : k.listEmpty (.field m .threads) = true
  · -- an empty list: nothing happens
    rw [he, Bool.not_true, if_neg Bool.false_ne_true] at h
    cases h
    have hnil : ts m = [] :=
      List.map_eq_nil_iff.1 ((Links.isEmpty_iff (hi.procs.ring hm)).1 he)
    have hl := ExitLoop.init hi hm hc
    rw [hnil] at hl ⊢
    exact ⟨s, hl⟩
  · rw [if_pos (by simpa using he)] at h
    -- the loop visits the threads in order, each iteration keeping `ExitLoop`
    let Q : List Node → Kernel → Prop := fun ys k' =>
      ∃ done rest s', ys = threadNodes rest ∧ ExitLoop k s ts m done rest k' s'
    have hQ₀ : Q (threadNodes (ts m)) k := ⟨[], ts m, s, rfl, ExitLoop.init hi hm hc⟩
    have hlen : (threadNodes (ts m)).length < listFuel := by
      have := (hi.procs.links.nodup hm).length_le_card
      simp only [threadNodes, List.length_map, Fintype.card_fin, listFuel] at this ⊢
      omega
    have hbody : ∀ {k' y ys k''}, Q (y :: ys) k' → Kernel.exitThreadBody m k' y = some k'' →
        Q ys k'' := by
      rintro k' y ys k'' ⟨done, rest, s', hys, hl⟩ hb
      obtain ⟨u, rest', rfl⟩ : ∃ u rest', rest = u :: rest' := by
        cases rest with
        | nil => cases hys
        | cons u rest' => exact ⟨u, rest', rfl⟩
      simp only [threadNodes, List.map_cons, List.cons.injEq] at hys
      obtain ⟨rfl, rfl⟩ := hys
      exact ⟨_, rest', _, rfl, hl.step hi hm hb⟩
    rw [Links.forEachSafe_ring (Q := Q) (fun hQ => by obtain ⟨_, _, _, hys, hl⟩ := hQ; exact hys ▸ hl.ring) hbody hQ₀ hlen]
      at h
    obtain ⟨done, rest, s₁, hys, hl⟩ := Links.foldlM_inv hbody hQ₀ h
    have hrest : rest = [] := List.map_eq_nil_iff.1 hys.symm
    subst hrest
    have hdone : done = ts m := by simpa using hl.split.symm
    exact ⟨s₁, hdone ▸ hl⟩

end Loop

/-! ### `sys_exit` by a master -/

section Exit

variable {k k' : Kernel} {s : Sched} {ts : Slot → List Slot}

/-- `sys_exit` called by the master of a live process keeps the invariant: the process is freed
    with every thread of its list and the next ready task runs. -/
theorem sysExit_inv (hi : Inv k s ts) (hcu : s.current ≠ s.idle)
    (hm : (k.tasks s.current).masterThread = some s.current) (h : k.sysExit = some k') :
    ∃ s' ts', Inv k' s' ts' := by
  unfold Kernel.sysExit at h
  replace h := Option.bind_eq_some_iff.1 h; obtain ⟨c, hc, h⟩ := h
  obtain rfl : c = s.current := Option.some.inj (hc.symm.trans hi.refines.current)
  replace h := Option.bind_eq_some_iff.1 h; obtain ⟨m, hm', h⟩ := h
  rw [hm] at hm'
  obtain rfl := Option.some.inj hm'
  have hmL : LiveMaster k s s.current := ⟨fun h' => hi.wf.current ⟨_, h'⟩, hcu, hm⟩
  -- step 1: the threads of the list are freed
  obtain ⟨k₁, h₁, h⟩ := Option.ite_bind_eq_some h
  obtain ⟨s₁, hl⟩ := exitThreads_spec hi hmL rfl h₁
  dsimp only at h
  -- steps 2 and 3: the children go to idle and the caller leaves its parent's list
  replace h := Option.bind_eq_some_iff.1 h; obtain ⟨k₂, h₂, h⟩ := h
  have c₂ : ChildStep k₁ k₂ := Links.forEachSafe_inv (Q := ChildStep k₁)
    (fun _ _ _ hb hQ => hQ.trans (Kernel.childStep_reparentBody hb)) h₂ (.refl k₁)
  obtain ⟨k₃, h₃, h⟩ := Option.ite_bind_eq_some h
  have c₃ : ChildStep k₂ k₃ := by
    split_ifs at h₃
    · exact ChildStep.listDel h₃ rfl
    · cases h₃; exact .refl _
  -- step 4: the data pages
  replace h := Option.bind_eq_some_iff.1 h; obtain ⟨pt, -, h⟩ := h
  generalize hk₄ : List.foldl _ k₃ (List.range NUM_PAG_DATA) = k₄ at h
  have c₄ : ChildStep k₁ k₄ := hk₄ ▸ c₂.trans (c₃.trans
    (.of_sameCore (SameCore.foldl (fun _ _ => Kernel.sameCore_unmapPage ..) _ _)))
  -- step 5: the master is freed and the next ready task runs
  replace h := Option.bind_eq_some_iff.1 h; obtain ⟨k₅, h₅, h⟩ := h
  replace h := Option.bind_eq_some_iff.1 h; obtain ⟨k₆, h₆, h⟩ := h
  have hd₁ := hl.placed.toDisjoint
  obtain ⟨hr₅, hk₅, hq₅⟩ := enqueueFree_refines (c₄.refines hl.closed hl.refines) hd₁ hl.master h₅
  have c₆ := Kernel.sameCore_cleanupKbdHandler h₆
  obtain ⟨k₇, h₇, hr₇, hq₇⟩ := schedNextRr_refines (hr₅.sameCore c₆) hd₁.moveTo
  rw [h] at h₇
  cases h₇
  refine ⟨(s₁.moveTo s.current .freequeue).dispatch, ts,
    ⟨hq₇.closed (c₆.closed (hq₅.closed (c₄.closed hl.closed))), hr₇, ?_, ?_, ?_⟩⟩
  · exact (hl.placed.moveTo fun e => absurd (e.trans hl.idle) hcu).dispatch
      (.inr ⟨.freequeue, hd₁.mem_moveTo.2 (.inl ⟨hl.current, rfl⟩)⟩)
  · refine hi.procs.release hmL (fun t => ?_) (by simp [hl.idle]) (fun t _ htm _ => ?_)
      (hi.procs.links_others hmL fun a ha => ?_)
    · rw [hd₁.moveTo.dispatch_free, hd₁.mem_moveTo, hl.free]
      by_cases htc : t = s.current
      · subst htc; simp
      · simp [htc]
    · refine (hq₇.threads t).trans ((TaskStruct.threadData_of_core (c₆.tasks t)).trans ?_)
      rw [hk₅]
      exact TaskStruct.threadData_of_core ((c₄.tasks t).trans (hl.tasks t htm))
    · -- the thread nodes outside the list are those of `k`
      have hs : a.family ≠ .sched := by rw [ha.1]; decide
      obtain ⟨n₇, p₇⟩ := hq₇.outside a hs
      obtain ⟨n₅, p₅⟩ := hq₅.outside a hs
      obtain ⟨n₄, p₄⟩ := c₄.links hl.closed a (show a.family ≠ .children by rw [ha.1]; decide)
      obtain ⟨n₁, p₁⟩ := hl.links a ha
      rw [c₆.links] at n₇ p₇
      exact ⟨n₇.trans (n₅.trans (n₄.trans n₁)), p₇.trans (p₅.trans (p₄.trans p₁))⟩
  · exact Int.le_trans hi.nextPid (Int.le_trans hl.nextPid (Int.le_trans c₄.nextPid
      (Int.le_trans hq₅.nextPid (Int.le_trans c₆.nextPid hq₇.nextPid))))

end Exit

end Zeos
