import Zeos.Kernel.Threads

/-! # Boot

`main` boots with `init_mm`, `init_sched`, `init_idle` and `init_task1`. None of them reads the
physical memory, so the state after boot is, up to the memory, the one that boot from zeroed
memory reaches (`boot_eq_withMem`). That state is computed once: slots `2 .. 19` are free, idle is
slot `0` and init, slot `1`, runs as a master without threads, with TID `10` and index `0` of its
bitmap taken. So boot establishes the invariant `Inv` (`boot_inv`). -/

namespace Zeos

open Function

namespace Kernel

/-- `k` with the physical memory `mem` in place of its own. -/
def withMem (k : Kernel) (mem : Nat → Nat) : Kernel := { k with mem := mem }

variable (k : Kernel) (mem : Nat → Nat)

theorem listAddTail_withMem (new hd : Node) :
    (k.withMem mem).listAddTail new hd = (k.listAddTail new hd).map (·.withMem mem) := by
  unfold listAddTail
  rw [show (k.withMem mem).links = k.links from rfl]
  cases k.links.addTail new hd <;> rfl

theorem listDel_withMem (e : Node) :
    (k.withMem mem).listDel e = (k.listDel e).map (·.withMem mem) := by
  unfold listDel
  rw [show (k.withMem mem).links = k.links from rfl]
  cases k.links.del e <;> rfl

theorem allocFrame_withMem :
    (k.withMem mem).allocFrame = (k.allocFrame.1, k.allocFrame.2.withMem mem) := by
  unfold allocFrame
  rw [show (k.withMem mem).physMem = k.physMem from rfl]
  cases allocFrameLoop k.physMem ((TOTAL_PAGES - NUM_PAG_KERNEL) / 2) NUM_PAG_KERNEL <;> rfl

theorem setUserPage_withMem (pt : Slot) (rw : Bool) (page : Nat) :
    setUserPage pt rw (k.withMem mem) page = (setUserPage pt rw k page).withMem mem := by
  unfold setUserPage
  rw [allocFrame_withMem]
  rfl

/-- The loops of `set_user_pages` do not read the memory. -/
theorem foldl_setUserPage_withMem (pt : Slot) (rw : Bool) (base : Nat) :
    ∀ (l : List Nat) (k : Kernel),
      l.foldl (fun k pag => setUserPage pt rw k (base + pag)) (k.withMem mem) =
        (l.foldl (fun k pag => setUserPage pt rw k (base + pag)) k).withMem mem
  | [], _ => rfl
  | p :: l, k => by
    simp only [List.foldl_cons, setUserPage_withMem]
    exact foldl_setUserPage_withMem pt rw base l _

theorem setUserPages_withMem (t : Slot) :
    (k.withMem mem).setUserPages t = (k.setUserPages t).map (·.withMem mem) := by
  unfold setUserPages
  rw [show (k.withMem mem).getPT t = k.getPT t from rfl]
  cases k.getPT t with
  | none => rfl
  | some pt =>
    show some (List.foldl _ (List.foldl _ (k.withMem mem) _) _) = some _
    rw [foldl_setUserPage_withMem, foldl_setUserPage_withMem]

/-- The loop of `init_queues` does not read the memory. -/
theorem foldlM_listAddTail_withMem (q : Queue) :
    ∀ (l : List Slot) (k : Kernel),
      l.foldlM (fun (k : Kernel) i => k.listAddTail (.field i .list) (.head q)) (k.withMem mem) =
        (l.foldlM (fun (k : Kernel) i => k.listAddTail (.field i .list) (.head q)) k).map
          (·.withMem mem)
  | [], _ => rfl
  | i :: l, k => by
    simp only [List.foldlM_cons, listAddTail_withMem]
    cases k.listAddTail (.field i .list) (.head q) with
    | none => rfl
    | some k₁ => exact foldlM_listAddTail_withMem q l k₁

theorem initListHead_withMem (x : Node) :
    (k.withMem mem).initListHead x = (k.initListHead x).withMem mem := rfl

theorem modifyTask_withMem (i : Slot) (f : TaskStruct → TaskStruct) :
    (k.withMem mem).modifyTask i f = (k.modifyTask i f).withMem mem := rfl

/-- The fields `init_task1` sets first. -/
theorem initFields_withMem (i : Slot) :
    { k.withMem mem with
      initTask := some i, currentQuantum := DEFAULT_QUANTUM, currentTask := some i } =
    ({ k with
      initTask := some i, currentQuantum := DEFAULT_QUANTUM, currentTask := some i } : Kernel).withMem
      mem :=
  rfl

theorem allocateDIR_withMem (t : Slot) : (k.withMem mem).allocateDIR t = (k.allocateDIR t).withMem mem :=
  rfl

theorem initQueues_withMem : (k.withMem mem).initQueues = k.initQueues.map (·.withMem mem) := by
  unfold initQueues
  simp only [initListHead_withMem]
  exact foldlM_listAddTail_withMem mem .freequeue _ _

theorem initIdle_withMem : (k.withMem mem).initIdle = k.initIdle.map (·.withMem mem) := by
  unfold initIdle
  rw [show (k.withMem mem).listFirst (.head .freequeue) = k.listFirst (.head .freequeue) from rfl]
  cases k.listFirst (.head .freequeue) with
  | none => rfl
  | some f =>
    simp only [Option.bind_eq_bind, Option.bind_some, listDel_withMem]
    cases k.listDel f with
    | none => rfl
    | some k₁ => cases listHeadToTaskStruct f <;> rfl

theorem initTask1_withMem : (k.withMem mem).initTask1 = k.initTask1.map (·.withMem mem) := by
  unfold initTask1
  rw [show (k.withMem mem).listFirst (.head .freequeue) = k.listFirst (.head .freequeue) from rfl]
  cases k.listFirst (.head .freequeue) with
  | none => rfl
  | some f =>
    simp only [Option.bind_eq_bind, Option.bind_some, listDel_withMem]
    cases k.listDel f with
    | none => rfl
    | some k₁ =>
      cases listHeadToTaskStruct f with
      | none => rfl
      | some i =>
        simp only [Option.bind_some, Option.map_some]
        rw [initFields_withMem]
        simp only [modifyTask_withMem, initListHead_withMem, allocateDIR_withMem,
          setUserPages_withMem]
        generalize Kernel.setUserPages _ i = o
        cases o with
        | none => rfl
        | some k₂ =>
          simp only [Option.map_some, Option.bind_some]
          rw [show (k₂.withMem mem).getPT i = k₂.getPT i from rfl]
          cases k₂.getPT i with
          | none => rfl
          | some pt =>
            simp only [Option.bind_some, allocFrame_withMem]
            rfl

end Kernel

/-- `init_mm` does not read the memory. -/
theorem initMm_withMem (k : Kernel) (mem : Nat → Nat) :
    initMm (k.withMem mem) = (initMm k).withMem mem := rfl

/-- Boot does not read the memory: from memory `mem` it reaches the state it reaches from zeroed
    memory, with `mem`. -/
theorem boot_eq_withMem (mem : Nat → Nat) : boot mem = (boot fun _ => 0).map (·.withMem mem) := by
  have hz : Kernel.zero mem = (Kernel.zero fun _ => 0).withMem mem := rfl
  unfold boot
  rw [hz, initMm_withMem, Kernel.initQueues_withMem]
  cases (initMm (Kernel.zero fun _ => 0)).initQueues with
  | none => rfl
  | some k₁ =>
    simp only [Option.map_some, Option.bind_eq_bind, Option.bind_some, Kernel.initIdle_withMem]
    cases k₁.initIdle with
    | none => rfl
    | some k₂ => simp only [Option.map_some, Option.bind_some, Kernel.initTask1_withMem]

/-- The invariant reads no memory. -/
theorem Inv.withMem {k : Kernel} {s : Sched} {ts : Slot → List Slot} (hi : Inv k s ts)
    (mem : Nat → Nat) : Inv (k.withMem mem) s ts :=
  ⟨hi.closed, ⟨hi.refines.queues, hi.refines.current, hi.refines.idle, hi.refines.status⟩, hi.wf,
    ⟨hi.procs.links, hi.procs.count, hi.procs.member, hi.procs.owner, hi.procs.tids, hi.procs.pid⟩,
    hi.nextPid⟩

/-! ### The state after boot -/

/-- Every list node: the four queue heads and the five members of every task structure. -/
def Node.all : List Node :=
  [.head .freequeue, .head .readyqueue, .head .blockedqueue, .head .tickBlockedqueue] ++
    (List.finRange NR_TASKS).flatMap fun t =>
      [.field t .list, .field t .children, .field t .childList, .field t .threads,
        .field t .threadList]

theorem Node.mem_all (a : Node) : a ∈ Node.all := by
  cases a with
  | head q => cases q <;> simp [Node.all]
  | field t m => cases m <;> simp [Node.all]

/-- The store keeps its families apart if every node's two pointers do. -/
theorem Kernel.closed_of_all {k : Kernel}
    (h : ∀ a ∈ Node.all, (∀ b ∈ k.links.next a, b.family = a.family) ∧
      ∀ b ∈ k.links.prev a, b.family = a.family) : k.Closed := fun a b hab =>
  hab.elim (fun hn => (h a (Node.mem_all a)).1 b hn) fun hp => (h a (Node.mem_all a)).2 b hp

/-- The free slots after boot: all but idle's and init's. -/
def bootFree : List Slot := (List.finRange NR_TASKS).drop 2

/-- The scheduler state after boot: init (`1`) runs, idle is `0`, and every other slot is free. -/
def bootSched : Sched where
  queue q := if q = .freequeue then bootFree else []
  current := 1
  idle := 0

/-- A property that evaluates to `true` on the state after boot from zeroed memory holds of it. -/
theorem exists_boot_of_check (P : Kernel → Prop) [DecidablePred P]
    (h : (boot fun _ => 0).map (fun k => decide (P k)) = some true) :
    ∃ k, boot (fun _ => 0) = some k ∧ P k := by
  cases hb : boot fun _ => 0 with
  | none => simp [hb] at h
  | some k => exact ⟨k, rfl, by simpa [hb] using h⟩

/-- What boot from zeroed memory leaves, as the invariant reads it, checked on the state. -/
theorem boot_zero_state : ∃ k, boot (fun _ => 0) = some k ∧
    (QueueHolds k .freequeue bootFree ∧ QueueHolds k .readyqueue [] ∧
      QueueHolds k .blockedqueue [] ∧ QueueHolds k .tickBlockedqueue []) ∧
    k.currentTask = some 1 ∧ k.idleTask = some 0 ∧
    (k.tasks 0).status = .ST_RUN ∧ (k.tasks 1).status = .ST_RUN ∧
    (k.tasks 1).masterThread = some 1 ∧ (k.tasks 1).threadCount = 1 ∧ (k.tasks 1).PID = 1 ∧
    (k.tasks 1).TID = 10 ∧
    (∀ i < MAX_TIDS_PER_PROCESS, (k.tasks 1).tidSlots i = if i = 0 then 1 else 0) ∧
    Links.Ring k.links (.field 1 .threads) [] ∧
    (k.links.next (.field 1 .threadList) = some (.field 1 .threadList) ∧
      k.links.prev (.field 1 .threadList) = some (.field 1 .threadList)) ∧
    (∀ a ∈ Node.all, (∀ b ∈ k.links.next a, b.family = a.family) ∧
      ∀ b ∈ k.links.prev a, b.family = a.family) ∧
    0 ≤ k.nextPid := by
  exact exists_boot_of_check _ (by decide +kernel)

@[simp] theorem bootSched_free : bootSched.queue .freequeue = bootFree := rfl

theorem bootSched_queue_of_ne {q : Queue} (hq : q ≠ .freequeue) : bootSched.queue q = [] :=
  if_neg hq

/-- The slots that are not free after boot are idle's and init's. -/
theorem eq_zero_or_one_of_not_bootFree {t : Slot} (ht : t ∉ bootFree) : t = 0 ∨ t = 1 := by
  revert t; decide

/-- Boot establishes the invariant: the queues hold `bootSched` and init is the one live master,
    with an empty thread list. -/
theorem boot_inv {mem : Nat → Nat} {k : Kernel} (h : boot mem = some k) :
    Inv k bootSched fun _ => [] := by
  obtain ⟨k₀, h₀, ⟨hF, hR, hB, hT⟩, hc, hi, hs₀, hs₁, hM, hC, hP, hTid, hS, hring, hdet, hcl,
    hnp⟩ := boot_zero_state
  rw [boot_eq_withMem, h₀, Option.map_some, Option.some.injEq] at h
  subst h
  refine Inv.withMem ⟨Kernel.closed_of_all hcl, ⟨fun q => ?_, hc, hi, fun t ht => ?_⟩, ?_, ?_, hnp⟩ mem
  · -- the queues
    cases q
    · exact hF
    · exact hR
    · exact hB
    · exact hT
  · -- the two tasks that are not free run
    have hst : bootSched.statusOf t = .ST_RUN := by
      simp [Sched.statusOf, bootSched_queue_of_ne]
    rw [hst]
    rcases eq_zero_or_one_of_not_bootFree ht with rfl | rfl
    · exact hs₀
    · exact hs₁
  · -- the scheduler state
    refine ⟨⟨⟨fun q => ?_, fun q q' t hq hq' => ?_⟩, fun q hq => ?_, fun t h0 h1 => ?_⟩, ?_⟩
    · by_cases hq : q = .freequeue
      · subst hq; decide
      · rw [bootSched_queue_of_ne hq]; exact List.nodup_nil
    · by_cases e : q = .freequeue
      · by_cases e' : q' = .freequeue
        · exact e.trans e'.symm
        · rw [bootSched_queue_of_ne e'] at hq'; cases hq'
      · rw [bootSched_queue_of_ne e] at hq; cases hq
    · by_cases e : q = .freequeue
      · subst e; exact absurd hq (by decide)
      · rw [bootSched_queue_of_ne e] at hq; cases hq
    · refine ⟨.freequeue, ?_⟩
      rw [bootSched_free]
      by_contra hF'
      rcases eq_zero_or_one_of_not_bootFree hF' with e | e
      · exact h0 e
      · exact h1 e
    · rintro ⟨q, hq⟩
      by_cases e : q = .freequeue
      · subst e; exact absurd hq (by decide)
      · rw [bootSched_queue_of_ne e] at hq; cases hq
  · -- init is the one live master
    have hL : ∀ m, LiveMaster k₀ bootSched m → m = 1 := fun m hm =>
      (eq_zero_or_one_of_not_bootFree hm.1).resolve_left hm.2.1
    have h1 : LiveMaster k₀ bootSched 1 := ⟨by decide, by decide, hM⟩
    refine ⟨⟨⟨fun m hm => ?_, fun i j hi hj hij => absurd ((hL i hi).trans (hL j hj).symm) hij⟩,
      fun m hm => ?_⟩, fun m hm => ?_, fun m _ t ht => absurd ht List.not_mem_nil,
      fun t ht hti => ?_, fun m hm => ?_, fun m hm => ?_⟩
    · obtain rfl := hL m hm; exact hring
    · obtain rfl := hL m hm; exact .inr hdet
    · obtain rfl := hL m hm; rw [hC]; rfl
    · have ht1 : t = 1 := (eq_zero_or_one_of_not_bootFree ht).resolve_left hti
      subst ht1
      exact ⟨1, hM, h1, .inl rfl⟩
    · obtain rfl := hL m hm
      have htids : tidsOf k₀ [1] = [(k₀.tasks 1).PID * 10] := by simp [tidsOf, hTid, hP]
      rw [htids]
      exact (TidTable.init _).congr_slots hS
    · obtain rfl := hL m hm; rw [hP]; decide

end Zeos
