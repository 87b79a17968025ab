import Zeos.Kernel.Refine
import Zeos.Spec.Tids

/-! # The thread bookkeeping of the live processes

A live process is headed by a master task that is neither free nor idle and is its own
`master_thread`. `Procs k s ts` is the bookkeeping `sched.c` keeps for every live process of `k`,
the free slots and idle being those of the scheduler state `s`, and `ts m` being the threads of
master `m` in the order of its `threads` list:

* the thread lists are well-formed rings, disjoint from each other, and each master's own
  `thread_list` member is in no list (`ThreadLinks`);
* `thread_count` counts the master and its list;
* each thread of the list is live, names the master and has its PID;
* every task that is neither free nor idle is a master or a thread of some master's list;
* the TIDs and the bitmap `tid_slots` form a `TidTable`, and the PID is not negative.

The kernel changes the bookkeeping in five ways. `sys_fork` starts a process with no threads
(`Procs.spawn`), `sys_create_thread` appends a thread (`Procs.addThread`), `sys_exit_thread`
removes a thread (`Procs.removeThread`) or, called by the master, hands the process to its first
thread (`Procs.handOver`), and `sys_exit` frees a process with all its threads
(`Procs.release`). Every other change leaves the bookkeeping alone as long as it keeps the
thread data and the thread-list nodes of the slots that are not free (`Procs.frame`). -/

namespace Zeos

open Function

/-- `m` heads a live process: it is not free, it is not idle and it is its own master. -/
def LiveMaster (k : Kernel) (s : Sched) (m : Slot) : Prop :=
  m ∉ s.queue .freequeue ∧ m ≠ s.idle ∧ (k.tasks m).masterThread = some m

/-- The `thread_list` members of the tasks `ts`. -/
def threadNodes (ts : List Slot) : List Node := ts.map fun t => .field t .threadList

/-- A node in no list: nulled by `list_del`, or pointing to itself after `INIT_LIST_HEAD`. -/
def Detached (h : Links Node) (a : Node) : Prop :=
  (h.next a = none ∧ h.prev a = none) ∨ (h.next a = some a ∧ h.prev a = some a)

/-- The TIDs of the tasks `ts`. -/
def tidsOf (k : Kernel) (ts : List Slot) : List Int := ts.map fun t => (k.tasks t).TID

/-- The thread lists of the masters satisfying `I`: disjoint rings holding their threads `ts`,
    and each master's own `thread_list` member in no list. -/
structure ThreadLinks (h : Links Node) (I : Slot → Prop) (ts : Slot → List Slot) : Prop where
  rings : Links.Rings h I (fun m => .field m .threads) fun m => threadNodes (ts m)
  detached : ∀ m, I m → Detached h (.field m .threadList)

/-- The thread bookkeeping of every live process of `k`. -/
structure Procs (k : Kernel) (s : Sched) (ts : Slot → List Slot) : Prop where
  links : ThreadLinks k.links (LiveMaster k s) ts
  count : ∀ m, LiveMaster k s m → (k.tasks m).threadCount = 1 + (ts m).length
  member : ∀ m, LiveMaster k s m → ∀ t ∈ ts m, t ∉ s.queue .freequeue ∧ t ≠ s.idle ∧
    (k.tasks t).masterThread = some m ∧ (k.tasks t).PID = (k.tasks m).PID
  owner : ∀ t, t ∉ s.queue .freequeue → t ≠ s.idle →
    ∃ m, (k.tasks t).masterThread = some m ∧ LiveMaster k s m ∧ (t = m ∨ t ∈ ts m)
  tids : ∀ m, LiveMaster k s m →
    TidTable (k.tasks m).PID (tidsOf k (m :: ts m)) (k.tasks m).tidSlots
  pid : ∀ m, LiveMaster k s m → 0 ≤ (k.tasks m).PID

/-! ### TID slots -/

namespace Kernel

theorem firstFreeTid_some {slots : Nat → Int} {i : Nat} (h : firstFreeTid slots = some i) :
    i < MAX_TIDS_PER_PROCESS ∧ slots i = 0 := by
  unfold firstFreeTid at h
  have hmem := List.mem_of_find?_eq_some h
  have hp := List.find?_some h
  simp only [List.mem_range, decide_eq_true_eq] at hmem hp
  exact ⟨hmem, hp⟩

/-- `allocate_tid` fails and changes nothing, or takes a free index `i` and returns
    `PID*10 + i`. -/
theorem allocateTid_cases (k : Kernel) (m : Slot) :
    ((k.allocateTid m).1 = -1 ∧ (k.allocateTid m).2 = k) ∨
    ∃ i < MAX_TIDS_PER_PROCESS, (k.tasks m).tidSlots i = 0 ∧
      (k.allocateTid m).1 = (k.tasks m).PID * 10 + i ∧
      (k.allocateTid m).2 = k.modifyTask m fun t => { t with tidSlots := update t.tidSlots i 1 } := by
  unfold allocateTid
  cases h : firstFreeTid (k.tasks m).tidSlots with
  | none => exact .inl ⟨rfl, rfl⟩
  | some i => exact .inr ⟨i, (firstFreeTid_some h).1, (firstFreeTid_some h).2, rfl, rfl⟩

/-- `free_tid` of the TID `PID*10 + i` clears index `i`. -/
theorem freeTid_eq (k : Kernel) (m : Slot) {i : Nat} (hi : i < MAX_TIDS_PER_PROCESS) :
    k.freeTid m ((k.tasks m).PID * 10 + i) =
      k.modifyTask m fun t => { t with tidSlots := update t.tidSlots i 0 } := by
  have hslot : (k.tasks m).PID * 10 + (i : Int) - (k.tasks m).PID * 10 = i := by omega
  have hin : 0 ≤ (i : Int) ∧ (i : Int) < MAX_TIDS_PER_PROCESS := ⟨by omega, by exact_mod_cast hi⟩
  simp only [freeTid, hslot, if_pos hin, Int.toNat_natCast]

end Kernel

/-! ### Lists of thread nodes -/

theorem mem_threadNodes {ts : List Slot} {t : Slot} {mb : Member} :
    Node.field t mb ∈ threadNodes ts ↔ mb = .threadList ∧ t ∈ ts := by
  simp only [threadNodes, List.mem_map, Node.field.injEq]
  constructor
  · rintro ⟨u, hu, rfl, rfl⟩; exact ⟨rfl, hu⟩
  · rintro ⟨rfl, ht⟩; exact ⟨t, ht, rfl, rfl⟩

theorem head_notMem_threadNodes (ts : List Slot) (m : Slot) : Node.field m .threads ∉ threadNodes ts :=
  fun h => by cases (mem_threadNodes.1 h).1

theorem threadNodes_update (ts : Slot → List Slot) (x : Slot) (l : List Slot) :
    (fun m => threadNodes (update ts x l m)) = update (fun m => threadNodes (ts m)) x (threadNodes l) := by
  funext m
  by_cases hm : m = x
  · subst hm; simp
  · simp [hm]

theorem tidsOf_congr {k k' : Kernel} {l : List Slot} (h : ∀ t ∈ l, (k'.tasks t).TID = (k.tasks t).TID) :
    tidsOf k' l = tidsOf k l :=
  List.map_congr_left h

theorem TaskStruct.threadData_eq_iff {t t' : TaskStruct} :
    t'.threadData = t.threadData ↔ t'.PID = t.PID ∧ t'.TID = t.TID ∧
      t'.threadCount = t.threadCount ∧ t'.masterThread = t.masterThread ∧ t'.tidSlots = t.tidSlots := by
  simp [TaskStruct.threadData]

theorem TaskStruct.threadData_of_core {t t' : TaskStruct} (h : t'.core = t.core) :
    t'.threadData = t.threadData := by
  simp only [TaskStruct.core, TaskCore.mk.injEq] at h
  simp [TaskStruct.threadData, h]

/-! ### The thread lists -/

namespace ThreadLinks

variable {h h' : Links Node} {I J : Slot → Prop} {ts : Slot → List Slot}

theorem ring (hl : ThreadLinks h I ts) {m : Slot} (hm : I m) :
    Links.Ring h (.field m .threads) (threadNodes (ts m)) :=
  hl.rings.ring m hm

theorem mono (hl : ThreadLinks h I ts) (hJ : ∀ j, J j → I j) : ThreadLinks h J ts :=
  ⟨Links.rings_mono hl.rings hJ, fun m hm => hl.detached m (hJ m hm)⟩

/-- The lists depend only on the pointers of their own nodes and of the masters'
    `thread_list` members. -/
theorem frame (hl : ThreadLinks h I ts)
    (ha : ∀ m, I m → ∀ a, a ∈ Node.field m .threads :: threadNodes (ts m) ∨ a = .field m .threadList →
      h'.next a = h.next a ∧ h'.prev a = h.prev a) :
    ThreadLinks h' I ts := by
  refine ⟨Links.rings_frame hl.rings fun a hin => ?_, fun m hm => ?_⟩
  · obtain ⟨m, hm, hmem⟩ := hin
    exact ha m hm a (.inl hmem)
  · obtain ⟨hn, hp⟩ := ha m hm _ (.inr rfl)
    unfold Detached; rw [hn, hp]; exact hl.detached m hm

/-- The lists are made of nodes of the thread family. -/
theorem frame_threads (hl : ThreadLinks h I ts)
    (ha : ∀ a : Node, a.family = .threads → h'.next a = h.next a ∧ h'.prev a = h.prev a) :
    ThreadLinks h' I ts :=
  hl.frame fun _ _ a hmem => ha a <| by
    rcases hmem with hmem | rfl
    · rcases List.mem_cons.1 hmem with rfl | hmem
      · rfl
      · obtain ⟨t, -, rfl⟩ := List.mem_map.1 hmem; rfl
    · rfl

/-- A thread of a list points to another node, so it is not detached; in particular no master is
    a thread of its own list. -/
theorem not_detached (hl : ThreadLinks h I ts) {m t : Slot} (hm : I m) (ht : t ∈ ts m) :
    ¬ Detached h (.field t .threadList) := by
  obtain ⟨b, hb, hne⟩ := Links.ring_mem_next (hl.ring hm) (mem_threadNodes.2 ⟨rfl, ht⟩)
  rintro (⟨hn, -⟩ | ⟨hn, -⟩) <;> rw [hn] at hb
  · cases hb
  · exact hne (Option.some.inj hb).symm

theorem nodup (hl : ThreadLinks h I ts) {m : Slot} (hm : I m) : (ts m).Nodup :=
  (List.nodup_map_iff fun _ _ e => by cases e; rfl).1 (List.nodup_cons.1 (hl.ring hm).2).2

/-- A master's own member lies in no list, in particular not in the list of `m` or as its head. -/
theorem own_notMem (hl : ThreadLinks h I ts) {m j : Slot} (hm : I m) (hj : I j) :
    Node.field j .threadList ∉ Node.field m .threads :: threadNodes (ts m) := fun hmem => by
  rcases List.mem_cons.1 hmem with e | e
  · cases e
  · exact hl.not_detached hm (mem_threadNodes.1 e).2 (hl.detached j hj)

theorem congr (hl : ThreadLinks h I ts) {ts' : Slot → List Slot} (he : ∀ j, I j → ts' j = ts j) :
    ThreadLinks h I ts' :=
  ⟨⟨fun j hj => by rw [he j hj]; exact hl.ring hj, fun i j hi hj hij => by
    rw [he i hi, he j hj]; exact hl.rings.disjoint i j hi hj hij⟩, hl.detached⟩

/-- `list_add_tail` of the `thread_list` member of a slot that is neither a master nor a thread
    onto the list of master `m`: the list gains the slot at its end, and every node outside it
    keeps its pointers. -/
theorem addTail (hl : ThreadLinks h I ts) {m x : Slot} (hm : I m) (hxm : ∀ j, I j → j ≠ x)
    (hxt : ∀ j, I j → x ∉ ts j) :
    ∃ h', h.addTail (.field x .threadList) (.field m .threads) = some h' ∧
      ThreadLinks h' I (update ts m (ts m ++ [x])) ∧
      ∀ a, a ∉ Node.field m .threads :: threadNodes (ts m) → a ≠ .field x .threadList →
        h'.next a = h.next a ∧ h'.prev a = h.prev a := by
  have hnew : ∀ j, I j → Node.field x .threadList ∉ Node.field j .threads :: threadNodes (ts j) :=
    fun j hj hmem => by
      rcases List.mem_cons.1 hmem with e | e
      · cases e
      · exact hxt j hj (mem_threadNodes.1 e).2
  obtain ⟨h', hadd, hr, hout⟩ := Links.rings_addTail (i := m) hl.rings hm hnew
  have happ : threadNodes (ts m ++ [x]) = threadNodes (ts m) ++ [.field x .threadList] := by
    simp [threadNodes]
  refine ⟨h', hadd, ⟨by rw [threadNodes_update, happ]; exact hr, fun j hj => ?_⟩, hout⟩
  obtain ⟨hn, hp⟩ := hout _ (hl.own_notMem hm hj) fun e => hxm j hj (by cases e; rfl)
  unfold Detached; rw [hn, hp]; exact hl.detached j hj

/-- `list_del` of the `thread_list` member of a thread `x` of master `m`: the list loses `x`, the
    member is nulled, and every node outside the list keeps its pointers. -/
theorem del (hl : ThreadLinks h I ts) {m x : Slot} (hm : I m) (hx : x ∈ ts m) :
    ∃ h', h.del (.field x .threadList) = some h' ∧
      ThreadLinks h' I (update ts m ((ts m).erase x)) ∧
      (h'.next (.field x .threadList) = none ∧ h'.prev (.field x .threadList) = none) ∧
      ∀ a, a ∉ Node.field m .threads :: threadNodes (ts m) →
        h'.next a = h.next a ∧ h'.prev a = h.prev a := by
  obtain ⟨h', hdel, hr, hn, hp, hout⟩ :=
    Links.rings_del (i := m) hl.rings hm (mem_threadNodes.2 ⟨rfl, hx⟩)
  have herase : threadNodes ((ts m).erase x) = (threadNodes (ts m)).erase (.field x .threadList) :=
    (map_field_erase (ts m) x .threadList).symm
  refine ⟨h', hdel, ⟨by rw [threadNodes_update, herase]; exact hr, fun j hj => ?_⟩, ⟨hn, hp⟩, hout⟩
  obtain ⟨hn', hp'⟩ := hout _ (hl.own_notMem hm hj)
  unfold Detached; rw [hn', hp']; exact hl.detached j hj

/-- `list_del` of a master's own member, which is in no list: every other node keeps its
    pointers, and the member is nulled. -/
theorem delOwn (hl : ThreadLinks h I ts) {m : Slot} (hm : I m)
    (hdel : h.del (.field m .threadList) = some h') :
    ThreadLinks h' I ts ∧ (h'.next (.field m .threadList) = none ∧ h'.prev (.field m .threadList) = none) ∧
      ∀ a, a ≠ .field m .threadList → h'.next a = h.next a ∧ h'.prev a = h.prev a := by
  obtain ⟨hnone, hout⟩ : (h'.next (.field m .threadList) = none ∧
      h'.prev (.field m .threadList) = none) ∧
      ∀ a, a ≠ .field m .threadList → h'.next a = h.next a ∧ h'.prev a = h.prev a := by
    rcases hl.detached m hm with ⟨-, hp⟩ | ⟨hn, hp⟩
    · simp [Links.del, hp] at hdel
    · exact Links.del_self hn hp hdel
  refine ⟨⟨Links.rings_frame hl.rings fun a hin => hout a ?_, fun j hj => ?_⟩, hnone, hout⟩
  · obtain ⟨j, hj, ha⟩ := hin
    rintro rfl; exact hl.own_notMem hj hm ha
  · by_cases hjm : j = m
    · subst hjm; exact .inl hnone
    · obtain ⟨hn, hp⟩ := hout _ fun e => hjm (Node.field.inj e).1
      unfold Detached; rw [hn, hp]; exact hl.detached j hj

/-- `INIT_LIST_HEAD` of the list head of a slot that is not a master. -/
theorem initHead (hl : ThreadLinks h I ts) {n : Slot} (hn : ¬ I n) :
    ThreadLinks (h.initHead (.field n .threads)) I ts :=
  hl.frame fun j hj a ha => Links.initHead_other _ <| by
    rintro rfl
    rcases ha with ha | e
    · rcases List.mem_cons.1 ha with e | e
      · exact hn ((Node.field.inj e).1 ▸ hj)
      · exact head_notMem_threadNodes _ _ e
    · cases e

/-- A slot that is not a master yet, with an empty list and its own member in no list, joins the
    masters. -/
theorem activate (hl : ThreadLinks h I ts) {n : Slot} (hn : ¬ I n)
    (hring : Links.Ring h (.field n .threads) []) (hdet : Detached h (.field n .threadList)) :
    ThreadLinks h (fun j => I j ∨ j = n) (update ts n []) := by
  refine ⟨?_, fun j hj => hj.elim (hl.detached j) fun e => e ▸ hdet⟩
  rw [threadNodes_update]
  refine Links.rings_activate hl.rings hn hring fun j hj hin => ?_
  rcases List.mem_cons.1 hin with e | e
  · exact hn ((Node.field.inj e).1 ▸ hj)
  · exact head_notMem_threadNodes _ _ e

end ThreadLinks

/-! ### The bookkeeping -/

namespace Procs

variable {k k' : Kernel} {s s' : Sched} {ts : Slot → List Slot}

theorem ring (h : Procs k s ts) {m : Slot} (hm : LiveMaster k s m) :
    Links.Ring k.links (.field m .threads) (threadNodes (ts m)) :=
  h.links.ring hm

/-- A thread of a list is not a master. -/
theorem not_liveMaster_of_mem (h : Procs k s ts) {m t : Slot} (hm : LiveMaster k s m)
    (ht : t ∈ ts m) : ¬ LiveMaster k s t :=
  fun htm => h.links.not_detached hm ht (h.links.detached t htm)

theorem ne_of_mem (h : Procs k s ts) {m t : Slot} (hm : LiveMaster k s m) (ht : t ∈ ts m) :
    t ≠ m :=
  fun e => h.not_liveMaster_of_mem hm ht (e ▸ hm)

/-- A thread belongs to the list of its own master only. -/
theorem eq_of_mem (h : Procs k s ts) {m m' t : Slot} (hm : LiveMaster k s m)
    (hm' : LiveMaster k s m') (ht : t ∈ ts m) (ht' : t ∈ ts m') : m = m' := by
  have h₁ := (h.member m hm t ht).2.2.1
  rw [(h.member m' hm' t ht').2.2.1] at h₁
  exact (Option.some.inj h₁).symm

/-- A change that keeps the thread data of every slot that is not free, and the pointers of
    their thread-list nodes, keeps the bookkeeping; so does a scheduler state with the same free
    slots and idle. -/
theorem frame (h : Procs k s ts) (hF : ∀ t, t ∈ s'.queue .freequeue ↔ t ∈ s.queue .freequeue)
    (hi : s'.idle = s.idle)
    (hd : ∀ t, t ∉ s.queue .freequeue → (k'.tasks t).threadData = (k.tasks t).threadData)
    (hl : ∀ t, t ∉ s.queue .freequeue → ∀ mb : Member, mb.family = .threads →
      k'.links.next (.field t mb) = k.links.next (.field t mb) ∧
        k'.links.prev (.field t mb) = k.links.prev (.field t mb)) :
    Procs k' s' ts := by
  have hd' := fun t ht => TaskStruct.threadData_eq_iff.1 (hd t ht)
  have hlive : ∀ m, LiveMaster k' s' m ↔ LiveMaster k s m := by
    intro m
    by_cases hm : m ∈ s.queue .freequeue
    · simp [LiveMaster, hF, hm]
    · simp only [LiveMaster, hF, hi, (hd' m hm).2.2.2.1]
  have hlive' := fun m hm => (hlive m).2 hm
  refine ⟨(h.links.frame fun m hm a ha => ?_).mono fun j hj => (hlive j).1 hj, fun m hm => ?_,
    fun m hm t ht => ?_, fun t ht hti => ?_, fun m hm => ?_, fun m hm => ?_⟩
  · -- the nodes of a live process are thread-list nodes of slots that are not free
    rcases ha with ha | rfl
    · rcases List.mem_cons.1 ha with rfl | ha
      · exact hl m hm.1 .threads rfl
      · obtain ⟨t, ht, rfl⟩ := List.mem_map.1 ha
        exact hl t (h.member m hm t ht).1 .threadList rfl
    · exact hl m hm.1 .threadList rfl
  · rw [(hd' m ((hlive m).1 hm).1).2.2.1]; exact h.count m ((hlive m).1 hm)
  · obtain ⟨htF, hti, htm, htp⟩ := h.member m ((hlive m).1 hm) t ht
    rw [hF, hi, (hd' t htF).2.2.2.1, (hd' t htF).1, (hd' m ((hlive m).1 hm).1).1]
    exact ⟨htF, hti, htm, htp⟩
  · rw [hF] at ht; rw [hi] at hti
    obtain ⟨m, htm, hm, hmem⟩ := h.owner t ht hti
    exact ⟨m, (hd' t ht).2.2.2.1.trans htm, hlive' m hm, hmem⟩
  · have hm₀ := (hlive m).1 hm
    rw [(hd' m hm₀.1).1, (hd' m hm₀.1).2.2.2.2,
      tidsOf_congr fun t ht => (hd' t ?_).2.1]
    · exact h.tids m hm₀
    · rcases List.mem_cons.1 ht with rfl | ht
      · exact hm₀.1
      · exact (h.member m hm₀ t ht).1
  · rw [(hd' m ((hlive m).1 hm).1).1]; exact h.pid m ((hlive m).1 hm)

/-- `sys_fork` makes the free slot `x` the master of a new process without threads. -/
theorem spawn (h : Procs k s ts) {x : Slot} (hx : x ∈ s.queue .freequeue) (hxi : x ≠ s.idle)
    (hF : ∀ t, t ∈ s'.queue .freequeue ↔ t ∈ s.queue .freequeue ∧ t ≠ x) (hi : s'.idle = s.idle)
    (hd : ∀ t, t ∉ s.queue .freequeue → (k'.tasks t).threadData = (k.tasks t).threadData)
    (hl : ThreadLinks k'.links (LiveMaster k s) ts)
    (hr : Links.Ring k'.links (.field x .threads) [])
    (hdet : Detached k'.links (.field x .threadList))
    (hm : (k'.tasks x).masterThread = some x) (hc : (k'.tasks x).threadCount = 1)
    (ht : TidTable (k'.tasks x).PID [(k'.tasks x).TID] (k'.tasks x).tidSlots)
    (hp : 0 ≤ (k'.tasks x).PID) :
    Procs k' s' (update ts x []) := by
  have hd' := fun t ht => TaskStruct.threadData_eq_iff.1 (hd t ht)
  have hne : ∀ {m}, LiveMaster k s m → m ≠ x := fun hm e => hm.1 (e ▸ hx)
  have hxF' : x ∉ s'.queue .freequeue := fun h' => ((hF x).1 h').2 rfl
  have hlive : ∀ m, LiveMaster k' s' m ↔ LiveMaster k s m ∨ m = x := by
    intro m
    constructor
    · rintro ⟨h₁, h₂, h₃⟩
      by_cases hmx : m = x
      · exact .inr hmx
      · have hmF : m ∉ s.queue .freequeue := fun hmF => h₁ ((hF m).2 ⟨hmF, hmx⟩)
        rw [hi] at h₂; rw [(hd' m hmF).2.2.2.1] at h₃
        exact .inl ⟨hmF, h₂, h₃⟩
    · rintro (⟨h₁, h₂, h₃⟩ | rfl)
      · rw [← (hd' m h₁).2.2.2.1] at h₃
        exact ⟨fun h' => h₁ ((hF m).1 h').1, hi ▸ h₂, h₃⟩
      · exact ⟨hxF', hi ▸ hxi, hm⟩
  -- a slot other than `x` that is not free keeps its thread data
  have hkeep : ∀ {t}, t ∉ s'.queue .freequeue → t ≠ x → t ∉ s.queue .freequeue :=
    fun {t} ht htx htF => ht ((hF t).2 ⟨htF, htx⟩)
  refine ⟨⟨?_, fun m hm => ?_⟩, fun m hm => ?_, fun m hm t ht => ?_, fun t ht hti => ?_,
    fun m hm => ?_, fun m hm => ?_⟩
  · -- the new list joins the family
    have hact := Links.rings_activate hl.rings (i := x) (fun hxl => hxl.1 hx) hr fun j hj => by
      simp only [List.mem_cons, not_or]
      exact ⟨fun e => hne hj (Node.field.inj e).1.symm, head_notMem_threadNodes _ _⟩
    rw [threadNodes_update]
    exact Links.rings_mono hact fun j hj => (hlive j).1 hj
  · rcases (hlive m).1 hm with hm | rfl
    · exact hl.detached m hm
    · exact hdet
  · rcases (hlive m).1 hm with hm | rfl
    · rw [update_of_ne (hne hm), (hd' m hm.1).2.2.1]; exact h.count m hm
    · rw [update_self, hc]; rfl
  · rcases (hlive m).1 hm with hm | rfl
    · rw [update_of_ne (hne hm)] at ht
      obtain ⟨htF, hti, htm, htp⟩ := h.member m hm t ht
      refine ⟨fun h' => htF ((hF t).1 h').1, hi ▸ hti, ?_, ?_⟩
      · rw [(hd' t htF).2.2.2.1]; exact htm
      · rw [(hd' t htF).1, (hd' m hm.1).1]; exact htp
    · rw [update_self] at ht; cases ht
  · by_cases htx : t = x
    · subst htx; exact ⟨t, hm, (hlive t).2 (.inr rfl), .inl rfl⟩
    · have htF := hkeep ht htx
      obtain ⟨m, htm, hm, hmem⟩ := h.owner t htF (hi ▸ hti)
      refine ⟨m, (hd' t htF).2.2.2.1.trans htm, (hlive m).2 (.inl hm), ?_⟩
      rwa [update_of_ne (hne hm)]
  · rcases (hlive m).1 hm with hm | rfl
    · rw [update_of_ne (hne hm), (hd' m hm.1).1, (hd' m hm.1).2.2.2.2,
        tidsOf_congr fun t ht => (hd' t ?_).2.1]
      · exact h.tids m hm
      · rcases List.mem_cons.1 ht with rfl | ht
        · exact hm.1
        · exact (h.member m hm t ht).1
    · rw [update_self]; exact ht
  · rcases (hlive m).1 hm with hm | rfl
    · rw [(hd' m hm.1).1]; exact h.pid m hm
    · exact hp

/-- `sys_create_thread` appends the free slot `x`, with TID `PID*10 + i` for an index `i` that
    is free in the bitmap, to the list of the live master `m`, and takes the index. -/
theorem addThread (h : Procs k s ts) {m x : Slot} {i : Nat} (hm : LiveMaster k s m)
    (hx : x ∈ s.queue .freequeue)
    (hF : ∀ t, t ∈ s'.queue .freequeue ↔ t ∈ s.queue .freequeue ∧ t ≠ x) (hi : s'.idle = s.idle)
    (hxi : x ≠ s.idle)
    (hd : ∀ t, t ∉ s.queue .freequeue → t ≠ m →
      (k'.tasks t).threadData = (k.tasks t).threadData)
    (hl : ThreadLinks k'.links (LiveMaster k s) (update ts m (ts m ++ [x])))
    (hmP : (k'.tasks m).PID = (k.tasks m).PID) (hmT : (k'.tasks m).TID = (k.tasks m).TID)
    (hmM : (k'.tasks m).masterThread = some m)
    (hmC : (k'.tasks m).threadCount = (k.tasks m).threadCount + 1)
    (hii : i < MAX_TIDS_PER_PROCESS) (hfree : (k.tasks m).tidSlots i = 0)
    (hmS : (k'.tasks m).tidSlots = update (k.tasks m).tidSlots i 1)
    (hxM : (k'.tasks x).masterThread = some m) (hxP : (k'.tasks x).PID = (k.tasks m).PID)
    (hxT : (k'.tasks x).TID = (k.tasks m).PID * 10 + i) :
    Procs k' s' (update ts m (ts m ++ [x])) := by
  have hd' := fun t ht htm => TaskStruct.threadData_eq_iff.1 (hd t ht htm)
  have hmx : m ≠ x := fun e => hm.1 (e ▸ hx)
  -- every slot that is not free keeps its master
  have hM : ∀ t, t ∉ s.queue .freequeue → (k'.tasks t).masterThread = (k.tasks t).masterThread := by
    intro t ht
    by_cases htm : t = m
    · subst htm; rw [hmM, hm.2.2]
    · exact (hd' t ht htm).2.2.2.1
  have hlive : ∀ j, LiveMaster k' s' j ↔ LiveMaster k s j := by
    intro j
    by_cases hjx : j = x
    · subst hjx
      refine iff_of_false (fun hj => ?_) fun hj => hj.1 hx
      obtain ⟨-, -, h₃⟩ := hj
      exact hmx (Option.some.inj (hxM.symm.trans h₃))
    · by_cases hjF : j ∈ s.queue .freequeue
      · exact iff_of_false (fun hj => hj.1 ((hF j).2 ⟨hjF, hjx⟩)) fun hj => hj.1 hjF
      · simp [LiveMaster, hF, hi, hM j hjF, hjF]
  have hnotm : ∀ {j t}, LiveMaster k s j → j ≠ m → t ∈ ts j → t ≠ m :=
    fun hj hjm ht e => h.not_liveMaster_of_mem hj ht (e ▸ hm)
  refine ⟨hl.mono fun j hj => (hlive j).1 hj, fun j hj => ?_, fun j hj t ht => ?_,
    fun t ht hti => ?_, fun j hj => ?_, fun j hj => ?_⟩
  · rw [hlive] at hj
    by_cases hjm : j = m
    · subst hjm
      rw [update_self, hmC, h.count j hj, List.length_append, List.length_singleton]; omega
    · rw [update_of_ne hjm, (hd' j hj.1 hjm).2.2.1]; exact h.count j hj
  · rw [hlive] at hj
    by_cases hjm : j = m
    · subst hjm
      rw [update_self, List.mem_append, List.mem_singleton] at ht
      rcases ht with ht | rfl
      · obtain ⟨htF, hti, htm, htp⟩ := h.member j hj t ht
        have htx : t ≠ x := fun e => htF (e ▸ hx)
        rw [hF, hi, (hd' t htF (h.ne_of_mem hj ht)).2.2.2.1, (hd' t htF (h.ne_of_mem hj ht)).1,
          hmP]
        exact ⟨fun h' => htF h'.1, hti, htm, htp⟩
      · exact ⟨fun h' => ((hF t).1 h').2 rfl, hi ▸ hxi, hxM, hxP.trans hmP.symm⟩
    · rw [update_of_ne hjm] at ht
      obtain ⟨htF, hti, htm, htp⟩ := h.member j hj t ht
      have htm' := hnotm hj hjm ht
      rw [hF, hi, (hd' t htF htm').2.2.2.1, (hd' t htF htm').1, (hd' j hj.1 hjm).1]
      exact ⟨fun h' => htF h'.1, hti, htm, htp⟩
  · by_cases htx : t = x
    · subst htx
      exact ⟨m, hxM, (hlive m).2 hm, .inr (by simp)⟩
    · have htF : t ∉ s.queue .freequeue := fun htF => ht ((hF t).2 ⟨htF, htx⟩)
      obtain ⟨j, htj, hj, hmem⟩ := h.owner t htF (hi ▸ hti)
      refine ⟨j, (hM t htF).trans htj, (hlive j).2 hj, ?_⟩
      by_cases hjm : j = m
      · subst hjm; rw [update_self]; simp only [List.mem_append]; tauto
      · rwa [update_of_ne hjm]
  · rw [hlive] at hj
    by_cases hjm : j = m
    · subst hjm
      have hc : tidsOf k' (j :: ts j) = tidsOf k (j :: ts j) := tidsOf_congr fun t ht => by
        rcases List.mem_cons.1 ht with rfl | ht
        · exact hmT
        · exact (hd' t (h.member _ hj t ht).1 (h.ne_of_mem hj ht)).2.1
      have htids : tidsOf k' (j :: (ts j ++ [x])) = tidsOf k (j :: ts j) ++ [(k.tasks j).PID * 10 + i] :=
        calc tidsOf k' (j :: (ts j ++ [x])) = tidsOf k' (j :: ts j) ++ [(k'.tasks x).TID] := by
              simp [tidsOf]
          _ = _ := by rw [hc, hxT]
      rw [update_self, htids, hmP, hmS]
      exact (h.tids j hj).append hii hfree
    · rw [update_of_ne hjm, (hd' j hj.1 hjm).1, (hd' j hj.1 hjm).2.2.2.2,
        tidsOf_congr fun t ht => ?_]
      · exact h.tids j hj
      · rcases List.mem_cons.1 ht with rfl | ht
        · exact (hd' t hj.1 hjm).2.1
        · exact (hd' t (h.member j hj t ht).1 (hnotm hj hjm ht)).2.1
  · rw [hlive] at hj
    by_cases hjm : j = m
    · subst hjm; rw [hmP]; exact h.pid j hj
    · rw [(hd' j hj.1 hjm).1]; exact h.pid j hj

/-- `sys_exit_thread` of the thread `x` of the live master `m` frees it and its TID. -/
theorem removeThread (h : Procs k s ts) {m x : Slot} (hm : LiveMaster k s m) (hx : x ∈ ts m)
    (hF : ∀ t, t ∈ s'.queue .freequeue ↔ t ∈ s.queue .freequeue ∨ t = x) (hi : s'.idle = s.idle)
    (hd : ∀ t, t ∉ s.queue .freequeue → t ≠ m → t ≠ x →
      (k'.tasks t).threadData = (k.tasks t).threadData)
    (hl : ThreadLinks k'.links (LiveMaster k s) (update ts m ((ts m).erase x)))
    (hmP : (k'.tasks m).PID = (k.tasks m).PID) (hmT : (k'.tasks m).TID = (k.tasks m).TID)
    (hmM : (k'.tasks m).masterThread = some m)
    (hmC : (k'.tasks m).threadCount = (k.tasks m).threadCount - 1)
    (hmS : (k'.tasks m).tidSlots =
      update (k.tasks m).tidSlots ((k.tasks x).TID - (k.tasks m).PID * 10).toNat 0) :
    Procs k' s' (update ts m ((ts m).erase x)) := by
  have hd' := fun t ht htm htx => TaskStruct.threadData_eq_iff.1 (hd t ht htm htx)
  have hxm : x ≠ m := h.ne_of_mem hm hx
  have hnd := h.links.nodup hm
  have hxlive : ∀ {j}, LiveMaster k s j → j ≠ x :=
    fun hj e => h.not_liveMaster_of_mem hm hx (e ▸ hj)
  -- a thread of another list is neither `m` nor `x`
  have hother : ∀ {j t}, LiveMaster k s j → j ≠ m → t ∈ ts j → t ≠ m ∧ t ≠ x :=
    fun hj hjm ht => ⟨fun e => h.not_liveMaster_of_mem hj ht (e ▸ hm),
      fun e => hjm (h.eq_of_mem hj hm ht (e ▸ hx))⟩
  have hM : ∀ t, t ∉ s.queue .freequeue → t ≠ x →
      (k'.tasks t).masterThread = (k.tasks t).masterThread := by
    intro t ht htx
    by_cases htm : t = m
    · subst htm; rw [hmM, hm.2.2]
    · exact (hd' t ht htm htx).2.2.2.1
  have hlive : ∀ j, LiveMaster k' s' j ↔ LiveMaster k s j := by
    intro j
    by_cases hjx : j = x
    · subst hjx
      exact iff_of_false (fun hj => hj.1 ((hF j).2 (.inr rfl))) (h.not_liveMaster_of_mem hm hx)
    · by_cases hjF : j ∈ s.queue .freequeue
      · exact iff_of_false (fun hj => hj.1 ((hF j).2 (.inl hjF))) fun hj => hj.1 hjF
      · simp [LiveMaster, hF, hi, hM j hjF hjx, hjF, hjx]
  refine ⟨hl.mono fun j hj => (hlive j).1 hj, fun j hj => ?_, fun j hj t ht => ?_,
    fun t ht hti => ?_, fun j hj => ?_, fun j hj => ?_⟩
  · rw [hlive] at hj
    by_cases hjm : j = m
    · subst hjm
      have hlen := List.length_erase_of_mem hx
      have hpos := List.length_pos_of_mem hx
      rw [update_self, hmC, h.count j hj, hlen]; omega
    · rw [update_of_ne hjm, (hd' j hj.1 hjm (hxlive hj)).2.2.1]
      exact h.count j hj
  · rw [hlive] at hj
    by_cases hjm : j = m
    · subst hjm
      rw [update_self, hnd.mem_erase_iff] at ht
      obtain ⟨htx, ht⟩ := ht
      obtain ⟨htF, hti, htm, htp⟩ := h.member j hj t ht
      have htd := hd' t htF (h.ne_of_mem hj ht) htx
      rw [hF, hi, htd.2.2.2.1, htd.1, hmP]
      exact ⟨fun h' => h'.elim htF htx, hti, htm, htp⟩
    · rw [update_of_ne hjm] at ht
      obtain ⟨htF, hti, htm, htp⟩ := h.member j hj t ht
      obtain ⟨htm', htx⟩ := hother hj hjm ht
      have hjx := hxlive hj
      rw [hF, hi, (hd' t htF htm' htx).2.2.2.1, (hd' t htF htm' htx).1, (hd' j hj.1 hjm hjx).1]
      exact ⟨fun h' => h'.elim htF htx, hti, htm, htp⟩
  · have htF : t ∉ s.queue .freequeue := fun htF => ht ((hF t).2 (.inl htF))
    have htx : t ≠ x := fun e => ht ((hF t).2 (.inr e))
    obtain ⟨j, htj, hj, hmem⟩ := h.owner t htF (hi ▸ hti)
    refine ⟨j, (hM t htF htx).trans htj, (hlive j).2 hj, ?_⟩
    by_cases hjm : j = m
    · subst hjm
      rw [update_self]
      exact hmem.imp_right fun ht' => (List.mem_erase_of_ne htx).2 ht'
    · rwa [update_of_ne hjm]
  · rw [hlive] at hj
    by_cases hjm : j = m
    · subst hjm
      -- the table of `m :: ts m` with the thread's TID released
      have hperm : (j :: ts j).Perm (x :: j :: (ts j).erase x) :=
        ((List.perm_cons_erase hx).cons j).trans (List.Perm.swap x j _)
      have htab := ((h.tids j hj).perm (hperm.map _)).erase_head
      have hc : tidsOf k' (j :: (ts j).erase x) = tidsOf k (j :: (ts j).erase x) :=
        tidsOf_congr fun t ht => by
          rcases List.mem_cons.1 ht with rfl | ht
          · exact hmT
          · obtain ⟨htx, ht⟩ := hnd.mem_erase_iff.1 ht
            exact (hd' t (h.member _ hj t ht).1 (h.ne_of_mem hj ht) htx).2.1
      rw [update_self, hc, hmP, hmS]
      exact htab
    · have hjx := hxlive hj
      rw [update_of_ne hjm, (hd' j hj.1 hjm hjx).1, (hd' j hj.1 hjm hjx).2.2.2.2,
        tidsOf_congr fun t ht => ?_]
      · exact h.tids j hj
      · rcases List.mem_cons.1 ht with rfl | ht
        · exact (hd' t hj.1 hjm hjx).2.1
        · exact (hd' t (h.member j hj t ht).1 (hother hj hjm ht).1 (hother hj hjm ht).2).2.1
  · rw [hlive] at hj
    by_cases hjm : j = m
    · subst hjm; rw [hmP]; exact h.pid j hj
    · have hjx := hxlive hj
      rw [(hd' j hj.1 hjm hjx).1]; exact h.pid j hj

/-- `sys_exit` called by the live master `m` frees it with every thread of its list. -/
theorem release (h : Procs k s ts) {m : Slot} (hm : LiveMaster k s m)
    (hF : ∀ t, t ∈ s'.queue .freequeue ↔ t ∈ s.queue .freequeue ∨ t = m ∨ t ∈ ts m)
    (hi : s'.idle = s.idle)
    (hd : ∀ t, t ∉ s.queue .freequeue → t ≠ m → t ∉ ts m →
      (k'.tasks t).threadData = (k.tasks t).threadData)
    (hl : ThreadLinks k'.links (fun j => LiveMaster k s j ∧ j ≠ m) ts) :
    Procs k' s' ts := by
  have hd' := fun t ht htm htx => TaskStruct.threadData_eq_iff.1 (hd t ht htm htx)
  -- a live master other than `m`, and every thread of its list, lie outside `m`'s process
  have hout : ∀ {j}, LiveMaster k s j → j ≠ m → j ∉ ts m :=
    fun hj _ hmem => h.not_liveMaster_of_mem hm hmem hj
  have hother : ∀ {j t}, LiveMaster k s j → j ≠ m → t ∈ ts j → t ≠ m ∧ t ∉ ts m :=
    fun hj hjm ht => ⟨fun e => h.not_liveMaster_of_mem hj ht (e ▸ hm),
      fun ht' => hjm (h.eq_of_mem hj hm ht ht')⟩
  have hlive : ∀ j, LiveMaster k' s' j ↔ LiveMaster k s j ∧ j ≠ m := by
    intro j
    constructor
    · rintro ⟨h₁, h₂, h₃⟩
      rw [hF, not_or, not_or] at h₁
      obtain ⟨hjF, hjm, hjt⟩ := h₁
      rw [(hd' j hjF hjm hjt).2.2.2.1] at h₃
      exact ⟨⟨hjF, hi ▸ h₂, h₃⟩, hjm⟩
    · rintro ⟨⟨hjF, hji, hjM⟩, hjm⟩
      have hjt := hout ⟨hjF, hji, hjM⟩ hjm
      rw [← (hd' j hjF hjm hjt).2.2.2.1] at hjM
      exact ⟨fun h' => ((hF j).1 h').elim hjF fun h'' => h''.elim hjm hjt, hi ▸ hji, hjM⟩
  refine ⟨hl.mono fun j hj => (hlive j).1 hj, fun j hj => ?_, fun j hj t ht => ?_,
    fun t ht hti => ?_, fun j hj => ?_, fun j hj => ?_⟩
  · obtain ⟨hj, hjm⟩ := (hlive j).1 hj
    rw [(hd' j hj.1 hjm (hout hj hjm)).2.2.1]; exact h.count j hj
  · obtain ⟨hj, hjm⟩ := (hlive j).1 hj
    obtain ⟨htF, hti, htm, htp⟩ := h.member j hj t ht
    obtain ⟨htm', htt⟩ := hother hj hjm ht
    rw [hF, hi, (hd' t htF htm' htt).2.2.2.1, (hd' t htF htm' htt).1,
      (hd' j hj.1 hjm (hout hj hjm)).1]
    exact ⟨fun h' => h'.elim htF fun h'' => h''.elim htm' htt, hti, htm, htp⟩
  · rw [hF, not_or, not_or] at ht
    obtain ⟨htF, htm, htt⟩ := ht
    obtain ⟨j, htj, hj, hmem⟩ := h.owner t htF (hi ▸ hti)
    have hjm : j ≠ m := by rintro rfl; exact hmem.elim htm htt
    exact ⟨j, (hd' t htF htm htt).2.2.2.1.trans htj, (hlive j).2 ⟨hj, hjm⟩, hmem⟩
  · obtain ⟨hj, hjm⟩ := (hlive j).1 hj
    rw [(hd' j hj.1 hjm (hout hj hjm)).1, (hd' j hj.1 hjm (hout hj hjm)).2.2.2.2,
      tidsOf_congr fun t ht => ?_]
    · exact h.tids j hj
    · rcases List.mem_cons.1 ht with rfl | ht
      · exact (hd' t hj.1 hjm (hout hj hjm)).2.1
      · exact (hd' t (h.member j hj t ht).1 (hother hj hjm ht).1 (hother hj hjm ht).2).2.1
  · obtain ⟨hj, hjm⟩ := (hlive j).1 hj
    rw [(hd' j hj.1 hjm (hout hj hjm)).1]; exact h.pid j hj

/-- `sys_exit_thread` called by the live master `m` whose list is `n :: rest` frees `m` and makes
    `n` the master of the process, with `rest` as its list and `m`'s table without `m`'s TID. -/
theorem handOver (h : Procs k s ts) {m n : Slot} {rest : List Slot} (hm : LiveMaster k s m)
    (hts : ts m = n :: rest)
    (hF : ∀ t, t ∈ s'.queue .freequeue ↔ t ∈ s.queue .freequeue ∨ t = m) (hi : s'.idle = s.idle)
    (hd : ∀ t, t ∉ s.queue .freequeue → t ≠ m → t ∉ ts m →
      (k'.tasks t).threadData = (k.tasks t).threadData)
    (hl : ThreadLinks k'.links (fun j => (LiveMaster k s j ∧ j ≠ m) ∨ j = n) (update ts n rest))
    (hnM : (k'.tasks n).masterThread = some n) (hnC : (k'.tasks n).threadCount = 1 + rest.length)
    (hnP : (k'.tasks n).PID = (k.tasks n).PID) (hnT : (k'.tasks n).TID = (k.tasks n).TID)
    (hnS : ∀ i < MAX_TIDS_PER_PROCESS, (k'.tasks n).tidSlots i =
      update (k.tasks m).tidSlots ((k.tasks m).TID - (k.tasks m).PID * 10).toNat 0 i)
    (hrest : ∀ t ∈ rest, (k'.tasks t).masterThread = some n ∧ (k'.tasks t).PID = (k.tasks t).PID ∧
      (k'.tasks t).TID = (k.tasks t).TID) :
    Procs k' s' (update ts n rest) := by
  have hd' := fun t ht htm htx => TaskStruct.threadData_eq_iff.1 (hd t ht htm htx)
  have hn : n ∈ ts m := hts ▸ List.mem_cons_self
  obtain ⟨hnF, hni, hnm, hnp⟩ := h.member m hm n hn
  have hnm' : n ≠ m := h.ne_of_mem hm hn
  have hnr : n ∉ rest := (List.nodup_cons.1 (hts ▸ h.links.nodup hm)).1
  have hout : ∀ {j}, LiveMaster k s j → j ≠ m → j ∉ ts m :=
    fun hj _ hmem => h.not_liveMaster_of_mem hm hmem hj
  have hother : ∀ {j t}, LiveMaster k s j → j ≠ m → t ∈ ts j → t ≠ m ∧ t ∉ ts m :=
    fun hj hjm ht => ⟨fun e => h.not_liveMaster_of_mem hj ht (e ▸ hm),
      fun ht' => hjm (h.eq_of_mem hj hm ht ht')⟩
  have hnF' : n ∉ s'.queue .freequeue := fun h' => ((hF n).1 h').elim hnF hnm'
  have hlive : ∀ j, LiveMaster k' s' j ↔ (LiveMaster k s j ∧ j ≠ m) ∨ j = n := by
    intro j
    constructor
    · rintro ⟨h₁, h₂, h₃⟩
      rw [hF, not_or] at h₁
      obtain ⟨hjF, hjm⟩ := h₁
      by_cases hjn : j = n
      · exact .inr hjn
      · by_cases hjr : j ∈ rest
        · exact absurd (Option.some.inj ((hrest j hjr).1.symm.trans h₃)) (Ne.symm hjn)
        · have hjt : j ∉ ts m := by rw [hts, List.mem_cons, not_or]; exact ⟨hjn, hjr⟩
          rw [(hd' j hjF hjm hjt).2.2.2.1] at h₃
          exact .inl ⟨⟨hjF, hi ▸ h₂, h₃⟩, hjm⟩
    · rintro (⟨⟨hjF, hji, hjM⟩, hjm⟩ | rfl)
      · have hjt := hout ⟨hjF, hji, hjM⟩ hjm
        rw [← (hd' j hjF hjm hjt).2.2.2.1] at hjM
        exact ⟨fun h' => ((hF j).1 h').elim hjF hjm, hi ▸ hji, hjM⟩
      · exact ⟨hnF', hi ▸ hni, hnM⟩
  -- the masters other than `n` keep their slots, data and lists
  have hold : ∀ {j}, LiveMaster k' s' j → j ≠ n → LiveMaster k s j ∧ j ≠ m := fun hj hjn =>
    ((hlive _).1 hj).resolve_right hjn
  have hPn : (k'.tasks n).PID = (k.tasks m).PID := hnP.trans hnp
  refine ⟨hl.mono fun j hj => (hlive j).1 hj, fun j hj => ?_, fun j hj t ht => ?_,
    fun t ht hti => ?_, fun j hj => ?_, fun j hj => ?_⟩
  · by_cases hjn : j = n
    · subst hjn; rw [update_self]; exact hnC
    · obtain ⟨hj, hjm⟩ := hold hj hjn
      rw [update_of_ne hjn, (hd' j hj.1 hjm (hout hj hjm)).2.2.1]; exact h.count j hj
  · by_cases hjn : j = n
    · subst hjn
      rw [update_self] at ht
      have htm : t ∈ ts m := hts ▸ List.mem_cons_of_mem _ ht
      obtain ⟨htF, hti, -, htp⟩ := h.member m hm t htm
      refine ⟨fun h' => ((hF t).1 h').elim htF (h.ne_of_mem hm htm), hi ▸ hti, (hrest t ht).1, ?_⟩
      rw [(hrest t ht).2.1, htp, hPn]
    · obtain ⟨hj, hjm⟩ := hold hj hjn
      rw [update_of_ne hjn] at ht
      obtain ⟨htF, hti, htm, htp⟩ := h.member j hj t ht
      obtain ⟨htm', htt⟩ := hother hj hjm ht
      rw [hF, hi, (hd' t htF htm' htt).2.2.2.1, (hd' t htF htm' htt).1,
        (hd' j hj.1 hjm (hout hj hjm)).1]
      exact ⟨fun h' => h'.elim htF htm', hti, htm, htp⟩
  · rw [hF, not_or] at ht
    obtain ⟨htF, htm⟩ := ht
    by_cases htn : t = n
    · subst htn; exact ⟨t, hnM, (hlive t).2 (.inr rfl), .inl rfl⟩
    · by_cases htr : t ∈ rest
      · exact ⟨n, (hrest t htr).1, (hlive n).2 (.inr rfl), .inr (by rw [update_self]; exact htr)⟩
      · have htt : t ∉ ts m := by rw [hts, List.mem_cons, not_or]; exact ⟨htn, htr⟩
        obtain ⟨j, htj, hj, hmem⟩ := h.owner t htF (hi ▸ hti)
        have hjm : j ≠ m := by rintro rfl; exact hmem.elim htm htt
        have hjn : j ≠ n := by rintro rfl; exact h.not_liveMaster_of_mem hm hn hj
        refine ⟨j, (hd' t htF htm htt).2.2.2.1.trans htj, (hlive j).2 (.inl ⟨hj, hjm⟩), ?_⟩
        rwa [update_of_ne hjn]
  · by_cases hjn : j = n
    · subst hjn
      -- `m`'s table without `m`'s own TID, read through `n`'s bitmap
      have htab := (hts ▸ h.tids m hm).erase_head
      have hc : tidsOf k' (j :: rest) = tidsOf k (j :: rest) := tidsOf_congr fun t ht => by
        rcases List.mem_cons.1 ht with rfl | ht
        · exact hnT
        · exact (hrest t ht).2.2
      rw [update_self, hc, hPn]
      exact htab.congr_slots hnS
    · obtain ⟨hj, hjm⟩ := hold hj hjn
      rw [update_of_ne hjn, (hd' j hj.1 hjm (hout hj hjm)).1,
        (hd' j hj.1 hjm (hout hj hjm)).2.2.2.2, tidsOf_congr fun t ht => ?_]
      · exact h.tids j hj
      · rcases List.mem_cons.1 ht with rfl | ht
        · exact (hd' t hj.1 hjm (hout hj hjm)).2.1
        · exact (hd' t (h.member j hj t ht).1 (hother hj hjm ht).1 (hother hj hjm ht).2).2.1
  · by_cases hjn : j = n
    · subst hjn; rw [hPn]; exact h.pid m hm
    · obtain ⟨hj, hjm⟩ := hold hj hjn
      rw [(hd' j hj.1 hjm (hout hj hjm)).1]; exact h.pid j hj

end Procs

/-! ### The invariant of the kernel -/

/-- What holds of every state a safe run reaches: the node store keeps its families apart, the
    queues implement the scheduler state `s`, which is well formed, the live processes keep their
    bookkeeping with the thread lists `ts`, and the PID counter is not negative. -/
structure Inv (k : Kernel) (s : Sched) (ts : Slot → List Slot) : Prop where
  closed : k.Closed
  refines : Refines k s
  wf : s.Wf
  procs : Procs k s ts
  nextPid : 0 ≤ k.nextPid

end Zeos
