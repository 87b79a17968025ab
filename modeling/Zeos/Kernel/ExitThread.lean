import Zeos.Kernel.Exit

/-! # `sys_exit_thread`

The caller `c` belongs to the process of master `m`. When `m` counts one thread, `c` is `m` and the
call is `sys_exit`. Otherwise the call releases `c`'s stack and TID and unlinks `c` from the
thread list of its process; then

* a caller that is not the master is freed (`Procs.removeThread`);
* the master hands its role to the first thread `n` of its list, which takes over the count, the
  TID bitmap without `m`'s index, and the rest of the list, moved one thread at a time by a
  `list_for_each_safe` loop (`HandLoop`); then `m` is freed (`Procs.handOver`).

The master's children stay behind with `m` as their parent, which the thread bookkeeping does
not read. -/

namespace Zeos

open Function

variable {k k₁ k₃ k₄ k₅ k' : Kernel} {s : Sched} {ts : Slot → List Slot} {m : Slot}

/-- The TID of a task of a live process is `PID*10 + i` with `i` in range. -/
theorem Procs.tid_form (hp : Procs k s ts) (hm : LiveMaster k s m) {t : Slot}
    (ht : t = m ∨ t ∈ ts m) :
    ∃ i < MAX_TIDS_PER_PROCESS, (k.tasks t).TID = (k.tasks m).PID * 10 + i :=
  (hp.tids m hm).form _ (List.mem_map_of_mem (by
    rcases ht with rfl | ht
    · exact List.mem_cons_self
    · exact List.mem_cons_of_mem _ ht))

/-- The thread data of the master after the first steps of `sys_exit_thread`: one thread less and
    the caller's index free. -/
theorem exitThread_master_data (c₁ : SameCore k k₁) (m : Slot) (i : Nat) :
    (((k₁.modifyTask m fun t => { t with tidSlots := update t.tidSlots i 0 }).modifyTask m
      fun t => { t with threadCount := t.threadCount - 1 }).tasks m).threadData =
      ⟨(k.tasks m).PID, (k.tasks m).TID, (k.tasks m).threadCount - 1, (k.tasks m).masterThread,
        update (k.tasks m).tidSlots i 0⟩ := by
  simp [TaskStruct.threadData, c₁.PID, c₁.TID, c₁.threadCount, c₁.masterThread, c₁.tidSlots]

/-! ### The thread lists are not queues -/

/-- `list_del` of a `thread_list` member keeps the queues. -/
theorem Refines.listDel_threadList (hr : Refines k s) (hc : k.Closed) {t : Slot}
    (h : k.listDel (.field t .threadList) = some k') : Refines k' s := by
  have hk' := Kernel.listDel_eq h
  exact hr.frame (fun a ha => Kernel.listDel_other_family hc h (by rw [ha]; simp [Member.family]))
    (fun u => by rw [hk']; rfl) (by rw [hk']; rfl) (by rw [hk']; rfl)

/-- `list_add_tail` of a `thread_list` member onto a thread list keeps the queues. -/
theorem Refines.listAddTail_threadList (hr : Refines k s) (hc : k.Closed) {t n : Slot}
    (h : k.listAddTail (.field t .threadList) (.field n .threads) = some k') : Refines k' s := by
  have hk' := Kernel.listAddTail_eq h
  exact hr.frame
    (fun a ha => Kernel.listAddTail_other_family hc (by rfl) h (by rw [ha]; simp [Member.family]))
    (fun u => by rw [hk']; rfl) (by rw [hk']; rfl) (by rw [hk']; rfl)

/-- `INIT_LIST_HEAD` of a `threads` head keeps the queues. -/
theorem Refines.initListHead_threads (hr : Refines k s) (n : Slot) :
    Refines (k.initListHead (.field n .threads)) s :=
  hr.frame (fun a ha => Links.initHead_other _ fun e => by rw [e] at ha; cases ha) (fun _ => rfl)
    rfl rfl

/-- The first steps of `sys_exit_thread`, which free index `i` of `m`'s bitmap and count one
    thread less, change no list and no status. -/
theorem exitThread_prefix (hi : Inv k s ts) (c₁ : SameCore k k₁) {i : Nat}
    (hk₃ : k₃ = (k₁.modifyTask m fun t => { t with tidSlots := update t.tidSlots i 0 }).modifyTask m
      fun t => { t with threadCount := t.threadCount - 1 }) :
    ThreadLinks k₃.links (LiveMaster k s) ts ∧ k₃.Closed ∧ Refines k₃ s := by
  subst hk₃
  refine ⟨?_, c₁.closed hi.closed,
    ((hi.refines.sameCore c₁).modifyTask (by intro; rfl) m).modifyTask (by intro; rfl) m⟩
  change ThreadLinks k₁.links _ _
  rw [c₁.links]; exact hi.procs.links

/-! ### A thread that is not the master -/

/-- `sys_exit_thread` by a thread `c` of the list of `m` frees `c` and its TID. -/
theorem Inv.exitNonMaster (hi : Inv k s ts) (hm : LiveMaster k s m) (hc : s.current ∈ ts m)
    {i : Nat} (hT : (k.tasks s.current).TID = (k.tasks m).PID * 10 + i) (c₁ : SameCore k k₁)
    (hk₃ : k₃ = (k₁.modifyTask m fun t => { t with tidSlots := update t.tidSlots i 0 }).modifyTask m
      fun t => { t with threadCount := t.threadCount - 1 })
    (h₄ : k₃.listDel (.field s.current .threadList) = some k₄)
    (h₅ : k₄.listAddTail (.field s.current .list) (.head .freequeue) = some k₅)
    (h₆ : k₅.schedNextRr = some k') :
    Inv k' (s.moveTo s.current .freequeue).dispatch (update ts m ((ts m).erase s.current)) := by
  have hd := hi.wf.toDisjoint
  have hci : s.current ≠ s.idle := (hi.procs.member m hm _ hc).2.1
  -- the thread leaves the list of `m`
  obtain ⟨hl₃, hc₃, hr₃⟩ := exitThread_prefix hi c₁ hk₃
  obtain ⟨h', hdel, hl', -, -⟩ := hl₃.del hm hc
  have hk₄ : k₄ = k₃.setLinks h' := by
    simp only [Kernel.listDel, hdel, Option.map_some] at h₄
    exact (Option.some.inj h₄).symm
  have hc₄ := Kernel.closed_listDel hc₃ h₄
  have hr₄ := hr₃.listDel_threadList hc₃ h₄
  -- then it is freed and the next ready task runs
  obtain ⟨hr₅, hk₅, hq₅⟩ := enqueueFree_refines hr₄ hd hi.wf.current h₅
  obtain ⟨k₆, h₆', hr₆, hq₆⟩ := schedNextRr_refines hr₅ hd.moveTo
  rw [h₆] at h₆'
  cases h₆'
  -- the thread data of every task after the call
  have hdata : ∀ u, (k'.tasks u).threadData = (k₃.tasks u).threadData := fun u => by
    rw [hq₆.threads u, hk₅, Kernel.setLinks_tasks, hk₄, Kernel.setLinks_tasks]
  have hmd := (hdata m).trans (hk₃ ▸ exitThread_master_data c₁ m i)
  refine ⟨hq₆.closed (hq₅.closed hc₄), hr₆, (hi.wf.toPlaced.moveTo fun e => absurd e hci).dispatch
    (.inr ⟨.freequeue, hd.mem_moveTo.2 (.inl ⟨rfl, rfl⟩)⟩), ?_, ?_⟩
  · refine hi.procs.removeThread hm hc (fun t => ?_) (by simp) (fun t _ htm _ => ?_) ?_
      (congrArg ThreadData.PID hmd) (congrArg ThreadData.TID hmd)
      ((congrArg ThreadData.masterThread hmd).trans hm.2.2) (congrArg ThreadData.threadCount hmd) ?_
    · rw [hd.moveTo.dispatch_free, hd.mem_moveTo]
      by_cases htc : t = s.current
      · subst htc; simp
      · simp [htc]
    · rw [hdata t, hk₃]
      simp only [Kernel.modifyTask_tasks, if_neg htm]
      exact TaskStruct.threadData_of_core (c₁.tasks t)
    · -- the thread nodes are those after the unlink
      refine ThreadLinks.frame_threads (h := k₄.links) (by rw [hk₄]; exact hl') fun a ha => ?_
      have hs : a.family ≠ .sched := by rw [ha]; decide
      obtain ⟨n₆, p₆⟩ := hq₆.outside a hs
      obtain ⟨n₅, p₅⟩ := hq₅.outside a hs
      exact ⟨n₆.trans n₅, p₆.trans p₅⟩
    · have hS : (k'.tasks m).tidSlots = update (k.tasks m).tidSlots i 0 :=
        congrArg ThreadData.tidSlots hmd
      rw [hS, hT, TidTable.index_of_form rfl]
  · exact Int.le_trans hi.nextPid (Int.le_trans c₁.nextPid (Int.le_trans
      (by rw [hk₄, hk₃]; exact Int.le_refl _) (Int.le_trans hq₅.nextPid hq₆.nextPid)))

/-! ### The loop of the hand-over -/

section HandLoop

variable {k₀ k₂ : Kernel} {n t : Slot} {moved rest : List Slot}

/-- What the loop of the hand-over keeps, from the state `k₀` it starts in, with `moved` the
    threads it has moved and `rest` those still in the old master's list: the lists of the live
    masters and of `n` are rings, `m`'s holding `rest` and `n`'s holding `moved`; the moved threads
    have `n` as their master, and no other task core and no queue has changed. -/
structure HandLoop (k : Kernel) (s : Sched) (ts : Slot → List Slot) (m n : Slot) (k₀ : Kernel)
    (moved rest : List Slot) (k₁ : Kernel) : Prop where
  split : ts m = n :: (moved ++ rest)
  links : ThreadLinks k₁.links (fun j => LiveMaster k s j ∨ j = n)
    (update (update ts m rest) n moved)
  refines : Refines k₁ s
  closed : k₁.Closed
  movedCore : ∀ u ∈ moved, (k₁.tasks u).core = { (k₀.tasks u).core with masterThread := some n }
  otherCore : ∀ u, u ∉ moved → (k₁.tasks u).core = (k₀.tasks u).core
  nextPid : k₀.nextPid ≤ k₁.nextPid

/-- One iteration of the hand-over moves the first thread still in `m`'s list to the end of
    `n`'s. -/
theorem HandLoop.step (hi : Inv k s ts) (hm : LiveMaster k s m)
    (hl : HandLoop k s ts m n k₀ moved (t :: rest) k₁)
    (h : Kernel.moveThreadBody m n k₁ (.field t .threadList) = some k₂) :
    HandLoop k s ts m n k₀ (moved ++ [t]) rest k₂ := by
  have htm' : t ∈ ts m := by rw [hl.split]; simp
  have hnm : n ∈ ts m := by rw [hl.split]; exact List.mem_cons_self
  have hmn : m ≠ n := (hi.procs.ne_of_mem hm hnm).symm
  have htm : t ≠ m := hi.procs.ne_of_mem hm htm'
  -- the list of `m` is `n :: moved ++ t :: rest` without repetition
  have hnd := hi.procs.links.nodup hm
  rw [hl.split, List.nodup_cons, List.nodup_append, List.nodup_cons] at hnd
  obtain ⟨hn, -, ⟨htr, -⟩, hdis⟩ := hnd
  have htn : t ≠ n := fun e => hn (e ▸ by simp)
  have htv : t ∉ moved := fun h' => hdis t h' t List.mem_cons_self rfl
  unfold Kernel.moveThreadBody at h
  replace h := Option.bind_eq_some_iff.1 h; obtain ⟨y, hy, h⟩ := h
  have hyt : y = t := by simpa [listEntry] using hy.symm
  subst hyt
  rw [if_neg htm] at h
  replace h := Option.bind_eq_some_iff.1 h; obtain ⟨k₂', h₂, h₃⟩ := h
  -- the member leaves `m`'s list
  have hI : ∀ {j}, LiveMaster k s j → (fun j => LiveMaster k s j ∨ j = n) j := .inl
  have hy₁ : y ∈ update (update ts m (y :: rest)) n moved m := by simp [update_of_ne hmn]
  obtain ⟨h', hdel, hl', -, -⟩ := hl.links.del (hI hm) hy₁
  have hk₂' : k₂' = (k₁.modifyTask y fun s => { s with masterThread := some n }).setLinks h' := by
    simp only [Kernel.listDel, Kernel.modifyTask_links, hdel, Option.map_some] at h₂
    exact (Option.some.inj h₂).symm
  -- and joins the end of `n`'s
  obtain ⟨h'', hadd, hl'', -⟩ := hl'.addTail (m := n) (x := y) (.inr rfl)
    (fun j hj e => hj.elim (fun hj => hi.procs.not_liveMaster_of_mem hm htm' (e ▸ hj)) fun e' =>
      htn (e.symm.trans e'))
    (fun j hj hyj => by
      by_cases hjm : j = m
      · subst hjm; simp [update_of_ne hmn] at hyj; exact htr hyj
      · by_cases hjn : j = n
        · subst hjn; simp [update_of_ne hjm] at hyj; exact htv hyj
        · simp only [update_of_ne hjm, update_of_ne hjn] at hyj
          exact hj.elim (fun hj => hjm (hi.procs.eq_of_mem hj hm hyj htm')) hjn)
  have hk₂ : k₂ = k₂'.setLinks h'' := by
    simp only [Kernel.listAddTail, hk₂', Kernel.setLinks_links, hadd, Option.map_some] at h₃
    rw [hk₂']; exact (Option.some.inj h₃).symm
  have hc₁' : (k₁.modifyTask y fun s => { s with masterThread := some n }).Closed := hl.closed
  have hc₂' : k₂'.Closed := Kernel.closed_listDel hc₁' h₂
  have hc₂ : k₂.Closed := Kernel.closed_listAddTail hc₂' (by rfl) h₃
  refine ⟨by rw [hl.split]; simp, ?_, ?_, hc₂, fun u hu => ?_, fun u hu => ?_, ?_⟩
  · -- the lists
    rw [hk₂]
    refine hl''.congr fun j _ => ?_
    by_cases hjn : j = n
    · simp only [hjn, update_self, update_of_ne hmn.symm]
    · by_cases hjm : j = m
      · simp only [hjm, update_self, update_of_ne hmn, List.erase_cons_head]
      · simp only [update_of_ne hjm, update_of_ne hjn]
  · -- the queues: the thread nodes are not queue nodes
    exact ((hl.refines.modifyTask (f := fun s => { s with masterThread := some n }) (by intro; rfl)
      y).listDel_threadList hc₁' h₂).listAddTail_threadList hc₂' h₃
  · -- the moved threads
    rw [hk₂, Kernel.setLinks_tasks, hk₂', Kernel.setLinks_tasks, Kernel.modifyTask_tasks]
    rcases List.mem_append.1 hu with hu | hu
    · have huy : u ≠ y := fun e => htv (e ▸ hu)
      rw [if_neg huy]; exact hl.movedCore u hu
    · rw [List.mem_singleton.1 hu, if_pos rfl]
      change { (k₁.tasks y).core with masterThread := some n } = _
      rw [hl.otherCore y htv]
  · -- the others
    have huy : u ≠ y := fun e => hu (e ▸ by simp)
    rw [hk₂, Kernel.setLinks_tasks, hk₂', Kernel.setLinks_tasks, Kernel.modifyTask_tasks,
      if_neg huy]
    exact hl.otherCore u fun h' => hu (List.mem_append_left _ h')
  · rw [hk₂, hk₂']; exact hl.nextPid

/-- The hand-over loop moves the whole rest of `m`'s list to `n`'s. -/
theorem handLoop_spec (hi : Inv k s ts) (hm : LiveMaster k s m)
    (hl : HandLoop k s ts m n k₀ [] rest k₀)
    (h : Links.forEachSafe Kernel.links (.field m .threads) (Kernel.moveThreadBody m n) listFuel k₀ =
      some k₁) :
    HandLoop k s ts m n k₀ rest [] k₁ := by
  have hnm : n ∈ ts m := by rw [hl.split]; exact List.mem_cons_self
  have hmn : m ≠ n := (hi.procs.ne_of_mem hm hnm).symm
  let Q : List Node → Kernel → Prop := fun ys k' =>
    ∃ moved rest', ys = threadNodes rest' ∧ HandLoop k s ts m n k₀ moved rest' k'
  have hQ₀ : Q (threadNodes rest) k₀ := ⟨[], rest, rfl, hl⟩
  have hbody : ∀ {k' y ys k''}, Q (y :: ys) k' → Kernel.moveThreadBody m n k' y = some k'' →
      Q ys k'' := by
    rintro k' y ys k'' ⟨moved, rest', hys, hl'⟩ hb
    obtain ⟨u, rest'', rfl⟩ : ∃ u rest'', rest' = u :: rest'' := by
      cases rest' with
      | nil => cases hys
      | cons u rest'' => exact ⟨u, rest'', rfl⟩
    simp only [threadNodes, List.map_cons, List.cons.injEq] at hys
    obtain ⟨rfl, rfl⟩ := hys
    exact ⟨_, rest'', rfl, hl'.step hi hm hb⟩
  have hlen : (threadNodes rest).length < listFuel := by
    have hnd := hi.procs.links.nodup hm
    rw [hl.split] at hnd
    have := (List.nodup_cons.1 hnd).2.length_le_card
    simp only [threadNodes, List.length_map, Fintype.card_fin, listFuel, List.nil_append] at this ⊢
    omega
  rw [Links.forEachSafe_ring (Q := Q) (fun hQ => by
    obtain ⟨_, _, hys, hl'⟩ := hQ
    exact hys ▸ by simpa [update_of_ne hmn] using hl'.links.ring (.inl hm)) hbody hQ₀ hlen] at h
  obtain ⟨moved, rest', hys, hl'⟩ := Links.foldlM_inv hbody hQ₀ h
  have hrest : rest' = [] := List.map_eq_nil_iff.1 hys.symm
  subst hrest
  have hmoved : moved = rest := by
    have := hl'.split.symm.trans hl.split
    simpa using this
  exact hmoved ▸ hl'

end HandLoop

/-! ### The hand-over -/

section HandOver

variable {k₇ k₉ k₁₀ : Kernel} {n : Slot} {rest : List Slot}

/-- Before the loop: `n`, the first thread of `m`'s list, leaves the list and gets an empty list
    of its own, while `m`'s own member, nulled just before, lies in no list. -/
theorem ThreadLinks.handOverStart {h₃ h₄ h₇ : Links Node} (hp : Procs k s ts) (hm : LiveMaster k s m)
    (hts : ts m = n :: rest) (hl₃ : ThreadLinks h₃ (LiveMaster k s) ts)
    (hd₄ : h₃.del (.field m .threadList) = some h₄) (hd₇ : h₄.del (.field n .threadList) = some h₇) :
    ThreadLinks (h₇.initHead (.field n .threads)) (fun j => LiveMaster k s j ∨ j = n)
      (update (update ts m rest) n []) := by
  have hn : n ∈ ts m := hts ▸ List.mem_cons_self
  have hnL : ¬ LiveMaster k s n := hp.not_liveMaster_of_mem hm hn
  obtain ⟨hl₄, -, -⟩ := hl₃.delOwn hm hd₄
  obtain ⟨h', hdel, hl₇, ⟨hn₇, hp₇⟩, -⟩ := hl₄.del hm hn
  have e : h' = h₇ := Option.some.inj (hdel.symm.trans hd₇)
  rw [e, hts, List.erase_cons_head] at hl₇
  rw [e] at hn₇ hp₇
  refine (hl₇.initHead hnL).activate hnL (Links.ring_initHead _ _) (.inl ?_)
  obtain ⟨hn', hp'⟩ := Links.initHead_other h₇ (x := .field n .threads)
    (a := .field n .threadList) (by simp)
  exact ⟨hn'.trans hn₇, hp'.trans hp₇⟩

/-- What the set-up of the hand-over leaves in the tasks: `n` is its own master with the count of
    the process without `m` and `m`'s bitmap without `m`'s index `i`; no task but `m` and `n` has
    changed. -/
structure HandOverData (k : Kernel) (m n : Slot) (i : Nat) (rest : List Slot) (k₀ : Kernel) :
    Prop where
  other : ∀ u, u ≠ m → u ≠ n → (k₀.tasks u).core = (k.tasks u).core
  master : (k₀.tasks n).masterThread = some n
  count : (k₀.tasks n).threadCount = 1 + rest.length
  PID : (k₀.tasks n).PID = (k.tasks n).PID
  TID : (k₀.tasks n).TID = (k.tasks n).TID
  slots : ∀ j < MAX_TIDS_PER_PROCESS, (k₀.tasks n).tidSlots j = update (k.tasks m).tidSlots i 0 j
  nextPid : k.nextPid ≤ k₀.nextPid

/-- The set-up of the hand-over from the state `k₃` after the first steps: `m` leaves every list,
    `n` takes over the count and the bitmap, leaves `m`'s list and gets an empty list, where the
    loop starts. -/
theorem HandLoop.start (hi : Inv k s ts) (hm : LiveMaster k s m) (hts : ts m = n :: rest)
    {i : Nat} (hii : i < MAX_TIDS_PER_PROCESS) (hT : (k.tasks m).TID = (k.tasks m).PID * 10 + i)
    (c₁ : SameCore k k₁)
    (hk₃ : k₃ = (k₁.modifyTask m fun t => { t with tidSlots := update t.tidSlots i 0 }).modifyTask m
      fun t => { t with threadCount := t.threadCount - 1 })
    (h₄ : k₃.listDel (.field m .threadList) = some k₄)
    (h₇ : ((k₄.modifyTask n fun t =>
      { t with masterThread := some n, threadCount := (k₄.tasks m).threadCount,
               tidSlots := fun j => if j < MAX_TIDS_PER_PROCESS then (k₄.tasks m).tidSlots j
                 else t.tidSlots j }).freeTid n (k₄.tasks m).TID).listDel
      (.field n .threadList) = some k₇) :
    HandLoop k s ts m n (k₇.initListHead (.field n .threads)) [] rest
        (k₇.initListHead (.field n .threads)) ∧
      HandOverData k m n i rest (k₇.initListHead (.field n .threads)) := by
  have hn : n ∈ ts m := hts ▸ List.mem_cons_self
  have hnm : n ≠ m := hi.procs.ne_of_mem hm hn
  have hnP := (hi.procs.member m hm n hn).2.2.2
  obtain ⟨hl₃, hc₃, hr₃⟩ := exitThread_prefix hi c₁ hk₃
  have hc₄ := Kernel.closed_listDel hc₃ h₄
  have hr₄ := hr₃.listDel_threadList hc₃ h₄
  obtain ⟨h₄', hd₄, rfl⟩ := Option.map_eq_some_iff.1 h₄
  -- the tasks after the first steps
  have hmd := hk₃ ▸ exitThread_master_data c₁ m i
  have hn₄ : (k₃.tasks n).core = (k.tasks n).core := by
    rw [hk₃]
    simp only [Kernel.modifyTask_tasks, if_neg hnm]
    exact c₁.tasks n
  -- `free_tid` of `m`'s TID clears index `i` of `n`'s copy of the bitmap
  generalize hk₅ : (k₃.setLinks h₄').modifyTask n _ = k₅ at h₇
  have hP₅ : (k₅.tasks n).PID = (k.tasks m).PID := by
    rw [← hk₅, Kernel.modifyTask_tasks, if_pos rfl, ← hnP]
    exact congrArg TaskCore.PID hn₄
  have hT₄ : ((k₃.setLinks h₄').tasks m).TID = (k₅.tasks n).PID * 10 + i := by
    rw [hP₅, ← hT]; exact congrArg ThreadData.TID hmd
  rw [hT₄, Kernel.freeTid_eq _ _ hii] at h₇
  have hn₅ : k₅.tasks n =
      { (k₃.tasks n) with
        masterThread := some n, threadCount := (k₃.tasks m).threadCount,
        tidSlots := fun j => if j < MAX_TIDS_PER_PROCESS then (k₃.tasks m).tidSlots j
          else (k₃.tasks n).tidSlots j } := by
    rw [← hk₅, Kernel.modifyTask_tasks, if_pos rfl]; rfl
  have hr₅ : Refines k₅ s := by rw [← hk₅]; exact hr₄.modifyTask (by intro; rfl) n
  have hc₅ : (k₅.modifyTask n fun t => { t with tidSlots := update t.tidSlots i 0 }).Closed := by
    rw [← hk₅]; exact hc₄
  have hc₇ := Kernel.closed_listDel hc₅ h₇
  have hr₇ := (hr₅.modifyTask (f := fun t => { t with tidSlots := update t.tidSlots i 0 })
    (by intro; rfl) n).listDel_threadList hc₅ h₇
  obtain ⟨h₇', hd₇, rfl⟩ := Option.map_eq_some_iff.1 h₇
  have hd₇' : h₄'.del (.field n .threadList) = some h₇' := by rw [← hk₅] at hd₇; exact hd₇
  have hn₈ : (((k₅.modifyTask n fun t => { t with tidSlots := update t.tidSlots i 0 }).setLinks
      h₇').initListHead (.field n .threads)).tasks n =
      { (k₅.tasks n) with tidSlots := update (k₅.tasks n).tidSlots i 0 } := by
    simp only [Kernel.initListHead, Kernel.setLinks_tasks, Kernel.modifyTask_tasks, if_true]
  refine ⟨⟨by rw [hts]; rfl, hl₃.handOverStart hi.procs hm hts hd₄ hd₇', hr₇.initListHead_threads n,
    Kernel.closed_initListHead hc₇ _, fun _ h => (by cases h), fun _ _ => rfl, Int.le_refl _⟩,
    ⟨fun u hum hun => ?_, ?_, ?_, ?_, ?_, fun j hj => ?_,
      Int.le_trans c₁.nextPid (Int.le_of_eq (by rw [← hk₅, hk₃]; rfl))⟩⟩
  · -- the other tasks
    simp only [Kernel.initListHead, Kernel.setLinks_tasks, Kernel.modifyTask_tasks, if_neg hun,
      ← hk₅, hk₃, if_neg hum]
    exact c₁.tasks u
  · rw [hn₈, hn₅]
  · -- `n` counts the threads of the process but `m`
    rw [hn₈, hn₅]
    have hC : (k₃.tasks m).threadCount = (k.tasks m).threadCount - 1 :=
      congrArg ThreadData.threadCount hmd
    rw [hC, hi.procs.count m hm, hts, List.length_cons]
    omega
  · rw [hn₈, hn₅]; exact congrArg TaskCore.PID hn₄
  · rw [hn₈, hn₅]; exact congrArg TaskCore.TID hn₄
  · -- and holds `m`'s bitmap, in which index `i` is free
    rw [hn₈, hn₅]
    have hS : (k₃.tasks m).tidSlots = update (k.tasks m).tidSlots i 0 := congrArg ThreadData.tidSlots hmd
    by_cases hji : j = i
    · subst hji; simp
    · simp [update_of_ne hji, hj, hS]

/-- After the loop: `m` is freed, the next ready task runs, and `n` heads the process with the
    rest of `m`'s list. -/
theorem Inv.handOverFinish (hi : Inv k s ts) (hm : LiveMaster k s m) (hc : s.current = m)
    (hts : ts m = n :: rest) {i : Nat} (hT : (k.tasks m).TID = (k.tasks m).PID * 10 + i)
    {k₀ : Kernel} (hd₀ : HandOverData k m n i rest k₀) (hl : HandLoop k s ts m n k₀ rest [] k₉)
    (h₁₀ : k₉.listAddTail (.field m .list) (.head .freequeue) = some k₁₀)
    (h' : k₁₀.schedNextRr = some k') :
    Inv k' (s.moveTo m .freequeue).dispatch (update ts n rest) := by
  subst hc
  have hd := hi.wf.toDisjoint
  have hn : n ∈ ts s.current := hts ▸ List.mem_cons_self
  have hnm : n ≠ s.current := hi.procs.ne_of_mem hm hn
  have hnr : n ∉ rest := (List.nodup_cons.1 (hts ▸ hi.procs.links.nodup hm)).1
  obtain ⟨hr₁₀, -, hq₁₀⟩ := enqueueFree_refines hl.refines hd hi.wf.current h₁₀
  obtain ⟨k₁₁, h₁₁, hr', hq'⟩ := schedNextRr_refines hr₁₀ hd.moveTo
  rw [h'] at h₁₁
  cases h₁₁
  -- the thread data after the call are those after the loop
  have hdata : ∀ u, (k'.tasks u).threadData = (k₉.tasks u).threadData := fun u =>
    (hq'.threads u).trans (hq₁₀.threads u)
  have hn' : (k'.tasks n).threadData = (k₀.tasks n).threadData :=
    (hdata n).trans (TaskStruct.threadData_of_core (hl.otherCore n hnr))
  refine ⟨hq'.closed (hq₁₀.closed hl.closed), hr', (hi.wf.toPlaced.moveTo fun e => absurd e hm.2.1).dispatch
    (.inr ⟨.freequeue, hd.mem_moveTo.2 (.inl ⟨rfl, rfl⟩)⟩), ?_, ?_⟩
  · refine hi.procs.handOver hm hts (fun t => ?_) (by simp) (fun t _ htm htt => ?_) ?_
      ((congrArg ThreadData.masterThread hn').trans hd₀.master)
      ((congrArg ThreadData.threadCount hn').trans hd₀.count)
      ((congrArg ThreadData.PID hn').trans hd₀.PID) ((congrArg ThreadData.TID hn').trans hd₀.TID)
      (fun j hj => ?_) (fun t ht => ?_)
    · rw [hd.moveTo.dispatch_free, hd.mem_moveTo]
      by_cases htc : t = s.current
      · subst htc; simp
      · simp [htc]
    · -- a task outside the process is as it was
      rw [hts, List.mem_cons, not_or] at htt
      exact (hdata t).trans (TaskStruct.threadData_of_core
        ((hl.otherCore t htt.2).trans (hd₀.other t htm htt.1)))
    · -- the lists: `m`'s is gone, `n`'s holds the rest
      refine ((hl.links.mono fun j hj => hj.imp_left And.left).congr fun j hj => ?_).frame_threads
        fun a ha => ?_
      · by_cases hjn : j = n
        · subst hjn; simp
        · have hjm : j ≠ s.current := hj.resolve_right hjn |>.2
          simp [update_of_ne hjn, update_of_ne hjm]
      · have hs : a.family ≠ .sched := by rw [ha]; decide
        obtain ⟨n', p'⟩ := hq'.outside a hs
        obtain ⟨n₁₀, p₁₀⟩ := hq₁₀.outside a hs
        exact ⟨n'.trans n₁₀, p'.trans p₁₀⟩
    · rw [TidTable.index_of_form hT]
      exact (congrFun (congrArg ThreadData.tidSlots hn') j).trans (hd₀.slots j hj)
    · -- the moved threads have `n` as their master
      have htm : t ≠ s.current := hi.procs.ne_of_mem hm (hts ▸ List.mem_cons_of_mem _ ht)
      have htn : t ≠ n := fun e => hnr (e ▸ ht)
      have hcore := (hl.movedCore t ht).trans (by rw [hd₀.other t htm htn])
      exact ⟨(congrArg ThreadData.masterThread (hdata t)).trans (congrArg TaskCore.masterThread hcore),
        (congrArg ThreadData.PID (hdata t)).trans (congrArg TaskCore.PID hcore),
        (congrArg ThreadData.TID (hdata t)).trans (congrArg TaskCore.TID hcore)⟩
  · exact Int.le_trans hi.nextPid (Int.le_trans hd₀.nextPid (Int.le_trans hl.nextPid
      (Int.le_trans hq₁₀.nextPid hq'.nextPid)))

end HandOver

/-! ### `sys_exit_thread` -/

/-- `sys_exit_thread` from a thread of a user process keeps the invariant: the caller is freed,
    with its whole process when it is the last thread, and a master that leaves hands its role to
    the first thread of its list. -/
theorem sysExitThread_inv (hi : Inv k s ts) (hcu : s.current ≠ s.idle)
    (h : k.sysExitThread = some k') : ∃ s' ts', Inv k' s' ts' := by
  unfold Kernel.sysExitThread at h
  replace h := Option.bind_eq_some_iff.1 h; obtain ⟨c, hc, h⟩ := h
  obtain rfl : c = s.current := Option.some.inj (hc.symm.trans hi.refines.current)
  replace h := Option.bind_eq_some_iff.1 h; obtain ⟨m, hmc, h⟩ := h
  -- the caller belongs to the live process of its master
  obtain ⟨m', hm', hm, hcm⟩ := hi.procs.owner s.current (fun h' => hi.wf.current ⟨_, h'⟩) hcu
  obtain rfl : m = m' := Option.some.inj (hmc.symm.trans hm')
  rw [ite_eq_iff] at h
  rcases h with ⟨hone, h⟩ | ⟨hone, h⟩
  · -- the last thread has an empty list, so it is the master, and the call is `sys_exit`
    have hnil : ts m = [] := by
      have hC := hi.procs.count m hm
      rw [hone] at hC
      exact List.eq_nil_of_length_eq_zero (by omega)
    have hcm' : s.current = m := hcm.resolve_right (by rw [hnil]; exact List.not_mem_nil)
    exact sysExit_inv hi hcu (by rw [hmc, ← hcm']) h
  -- the caller's TID is `PID*10 + i`; its stack and TID are released
  obtain ⟨i, hii, hT⟩ := hi.procs.tid_form hm hcm
  replace h := Option.bind_eq_some_iff.1 h; obtain ⟨k₁, h₁, h⟩ := h
  have c₁ := Kernel.sameCore_releaseThreadStack h₁
  dsimp only at h
  rw [c₁.TID, hT, ← c₁.PID, Kernel.freeTid_eq _ _ hii] at h
  replace h := Option.bind_eq_some_iff.1 h; obtain ⟨k₄, h₄, h⟩ := h
  rw [ite_eq_iff] at h
  rcases h with ⟨hcm₂, h⟩ | ⟨hcm₂, h⟩
  · -- a thread that is not the master is freed
    replace h := Option.bind_eq_some_iff.1 h; obtain ⟨k₅, h₅, h₆⟩ := h
    exact ⟨_, _, hi.exitNonMaster hm (hcm.resolve_left hcm₂) hT c₁ rfl h₄ h₅ h₆⟩
  -- the master: its list is not empty, since the count is not one
  obtain rfl : s.current = m := not_not.1 hcm₂
  obtain ⟨n, rest, hts⟩ : ∃ n rest, ts s.current = n :: rest := by
    cases hts : ts s.current with
    | nil =>
      have hC := hi.procs.count _ hm
      rw [hts, List.length_nil] at hC
      exact absurd hC hone
    | cons n rest => exact ⟨n, rest, rfl⟩
  have hnm : n ≠ s.current := hi.procs.ne_of_mem hm (hts ▸ List.mem_cons_self)
  -- the search finds `n`, the first thread of the list
  obtain ⟨hl₃, -, -⟩ := exitThread_prefix hi c₁ rfl
  obtain ⟨h₄', hd₄, rfl⟩ := Option.map_eq_some_iff.1 h₄
  obtain ⟨hl₄, -, -⟩ := hl₃.delOwn hm hd₄
  replace h := Option.bind_eq_some_iff.1 h; obtain ⟨found, hfound, h⟩ := h
  have hlen : (threadNodes (ts s.current)).length < listFuel := by
    have := (hi.procs.links.nodup hm).length_le_card
    simp only [threadNodes, List.length_map, Fintype.card_fin, listFuel] at this ⊢
    omega
  rw [Kernel.setLinks_links, Links.find_ring (hl₄.ring hm) hlen, hts] at hfound
  simp [threadNodes, List.findM?, listEntry, hnm] at hfound
  subst hfound
  replace h := Option.bind_eq_some_iff.1 h; obtain ⟨n', hn', h⟩ := h
  obtain rfl : n' = n := by simpa [listEntry] using hn'.symm
  -- the hand-over: set-up, loop, and the old master freed
  replace h := Option.bind_eq_some_iff.1 h; obtain ⟨k₇, h₇, h⟩ := h
  replace h := Option.bind_eq_some_iff.1 h; obtain ⟨k₉, h₉, h⟩ := h
  replace h := Option.bind_eq_some_iff.1 h; obtain ⟨k₁₀, h₁₀, h⟩ := h
  obtain ⟨hl, hd₀⟩ := HandLoop.start hi hm hts hii hT c₁ rfl h₄ h₇
  exact ⟨_, _, hi.handOverFinish hm rfl hts hT hd₀ (handLoop_spec hi hm hl h₉) h₁₀ h⟩

end Zeos
