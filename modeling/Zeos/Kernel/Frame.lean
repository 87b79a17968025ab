import Zeos.Lib.Rings
import Zeos.Kernel.Step

/-! # Node families and the scheduling core

The list nodes fall into three families: the queues (the four heads and the `list` members), the
children lists (`children` and `child_list`) and the thread lists (`threads` and `thread_list`).
Every list operation of the kernel joins nodes of one family, so a store whose pointers stay
within their family (`Kernel.Closed`) stays so, and an operation on one family leaves the lists of
the other two alone.

The scheduling core of a state is what the queues and the thread bookkeeping consist of: the node
store, the running task, idle, and each task's status, PID, TID, thread count, master and TID
slots. The frame, page-table, user-memory and keyboard code changes none of it (`SameCore`). -/

namespace Zeos

/-- The three families of list nodes. -/
inductive Family
  | sched
  | children
  | threads
  deriving DecidableEq, Repr

/-- The family of a member of a task structure. -/
def Member.family : Member → Family
  | .list => .sched
  | .children | .childList => .children
  | .threads | .threadList => .threads

/-- The family of a node: the queue heads are with the `list` members. -/
def Node.family : Node → Family
  | .head _ => .sched
  | .field _ m => m.family

@[simp] theorem Node.family_head (q : Queue) : (Node.head q).family = .sched := rfl

@[simp] theorem Node.family_field (t : Slot) (m : Member) : (Node.field t m).family = m.family :=
  rfl

namespace Kernel

/-- Every pointer of the node store stays within its node's family. -/
def Closed (k : Kernel) : Prop := Links.Closed Node.family k.links

variable {k k' : Kernel}

theorem closed_initListHead (hc : k.Closed) (x : Node) : (k.initListHead x).Closed :=
  Links.closed_initHead hc x

theorem closed_listAddTail (hc : k.Closed) {new hd : Node} (hf : new.family = hd.family)
    (h : k.listAddTail new hd = some k') : k'.Closed := by
  obtain ⟨h', hadd, rfl⟩ := Option.map_eq_some_iff.1 h
  exact Links.closed_addTail hc hf hadd

theorem closed_listDel (hc : k.Closed) {e : Node} (h : k.listDel e = some k') : k'.Closed := by
  obtain ⟨h', hdel, rfl⟩ := Option.map_eq_some_iff.1 h
  exact Links.closed_del hc hdel

theorem closed_initMembers (hc : k.Closed) (t : Slot) (ms : List Member) :
    (k.initMembers t ms).Closed := by
  induction ms generalizing k with
  | nil => exact hc
  | cons m ms ih => exact ih (closed_initListHead hc _)

theorem closed_copyTaskUnion (hc : k.Closed) (src dst : Slot) : (k.copyTaskUnion src dst).Closed := by
  -- a member of `dst` takes the pointers of the same member of `src`, which has its family
  rintro (q | ⟨t, m⟩) b hb
  all_goals simp only [copyTaskUnion, copyMemberLinks] at hb
  · exact hc _ _ hb
  · split_ifs at hb
    · exact hc (.field src m) b hb
    · exact hc _ _ hb

/-- `list_add_tail` within a family changes no node of another family. -/
theorem listAddTail_other_family (hc : k.Closed) {new hd a : Node} (hf : new.family = hd.family)
    (h : k.listAddTail new hd = some k') (ha : a.family ≠ hd.family) :
    k'.links.next a = k.links.next a ∧ k'.links.prev a = k.links.prev a := by
  obtain ⟨h', hadd, rfl⟩ := Option.map_eq_some_iff.1 h
  exact Links.addTail_other_class hc hf hadd ha

/-- `list_del` changes no node of another family than the deleted node's. -/
theorem listDel_other_family (hc : k.Closed) {e a : Node} (h : k.listDel e = some k')
    (ha : a.family ≠ e.family) :
    k'.links.next a = k.links.next a ∧ k'.links.prev a = k.links.prev a := by
  obtain ⟨h', hdel, rfl⟩ := Option.map_eq_some_iff.1 h
  exact Links.del_other_class hc hdel ha

@[simp] theorem listAddTail_tasks {new hd : Node} (h : k.listAddTail new hd = some k') :
    k'.tasks = k.tasks := by
  obtain ⟨h', -, rfl⟩ := Option.map_eq_some_iff.1 h; rfl

theorem listAddTail_eq {new hd : Node} (h : k.listAddTail new hd = some k') :
    k' = k.setLinks k'.links := by
  obtain ⟨h', -, rfl⟩ := Option.map_eq_some_iff.1 h; rfl

theorem listDel_eq {e : Node} (h : k.listDel e = some k') : k' = k.setLinks k'.links := by
  obtain ⟨h', -, rfl⟩ := Option.map_eq_some_iff.1 h; rfl

end Kernel

/-! ### The scheduling core -/

/-- What the queues and the thread bookkeeping read of a task. -/
structure TaskCore where
  status : TaskStatus
  PID : Int
  TID : Int
  threadCount : Int
  masterThread : Option Slot
  tidSlots : Nat → Int

/-- The scheduling part of a task structure. -/
def TaskStruct.core (t : TaskStruct) : TaskCore :=
  ⟨t.status, t.PID, t.TID, t.threadCount, t.masterThread, t.tidSlots⟩

/-- `k'` has the scheduling core of `k`. -/
structure SameCore (k k' : Kernel) : Prop where
  links : k'.links = k.links
  currentTask : k'.currentTask = k.currentTask
  idleTask : k'.idleTask = k.idleTask
  tasks : ∀ t, (k'.tasks t).core = (k.tasks t).core
  nextPid : k.nextPid ≤ k'.nextPid

namespace SameCore

variable {k k' k'' : Kernel}

@[refl] theorem refl (k : Kernel) : SameCore k k := ⟨rfl, rfl, rfl, fun _ => rfl, Int.le_refl _⟩

@[trans] theorem trans (h₁ : SameCore k k') (h₂ : SameCore k' k'') : SameCore k k'' :=
  ⟨h₂.links.trans h₁.links, h₂.currentTask.trans h₁.currentTask, h₂.idleTask.trans h₁.idleTask,
    fun t => (h₂.tasks t).trans (h₁.tasks t), Int.le_trans h₁.nextPid h₂.nextPid⟩

theorem status (h : SameCore k k') (t : Slot) : (k'.tasks t).status = (k.tasks t).status :=
  congrArg TaskCore.status (h.tasks t)

theorem PID (h : SameCore k k') (t : Slot) : (k'.tasks t).PID = (k.tasks t).PID :=
  congrArg TaskCore.PID (h.tasks t)

theorem TID (h : SameCore k k') (t : Slot) : (k'.tasks t).TID = (k.tasks t).TID :=
  congrArg TaskCore.TID (h.tasks t)

theorem threadCount (h : SameCore k k') (t : Slot) :
    (k'.tasks t).threadCount = (k.tasks t).threadCount :=
  congrArg TaskCore.threadCount (h.tasks t)

theorem masterThread (h : SameCore k k') (t : Slot) :
    (k'.tasks t).masterThread = (k.tasks t).masterThread :=
  congrArg TaskCore.masterThread (h.tasks t)

theorem tidSlots (h : SameCore k k') (t : Slot) : (k'.tasks t).tidSlots = (k.tasks t).tidSlots :=
  congrArg TaskCore.tidSlots (h.tasks t)

theorem closed (h : SameCore k k') (hc : k.Closed) : k'.Closed := by
  unfold Kernel.Closed; rw [h.links]; exact hc

/-- A state that differs from `k` outside the tasks, the three scheduling pointers and the PID
    counter. -/
theorem of_eq (hl : k'.links = k.links) (hc : k'.currentTask = k.currentTask)
    (hi : k'.idleTask = k.idleTask) (ht : k'.tasks = k.tasks) (hn : k'.nextPid = k.nextPid) :
    SameCore k k' :=
  ⟨hl, hc, hi, fun t => by rw [ht], Int.le_of_eq hn.symm⟩

theorem modifyTask {f : TaskStruct → TaskStruct} (i : Slot) (hf : ∀ t, (f t).core = t.core) :
    SameCore k (k.modifyTask i f) := by
  refine ⟨rfl, rfl, rfl, fun t => ?_, Int.le_refl _⟩
  simp only [Kernel.modifyTask_tasks]
  split_ifs with h
  · subst h; exact hf _
  · rfl

/-- A loop whose every iteration keeps the core keeps it. -/
theorem foldl {β : Type} {f : Kernel → β → Kernel} (hf : ∀ k b, SameCore k (f k b)) :
    ∀ (l : List β) (k : Kernel), SameCore k (l.foldl f k)
  | [], k => refl k
  | b :: l, k => (hf k b).trans (foldl hf l _)

theorem foldlM {β : Type} {f : Kernel → β → Option Kernel}
    (hf : ∀ k b k', f k b = some k' → SameCore k k') :
    ∀ (l : List β) (k k' : Kernel), l.foldlM f k = some k' → SameCore k k'
  | [], k, k', h => by cases h; exact refl k
  | b :: l, k, k', h => by
    simp only [List.foldlM_cons] at h
    obtain ⟨k₁, h₁, h₂⟩ := Option.bind_eq_some_iff.1 h
    exact (hf k b k₁ h₁).trans (foldlM hf l k₁ k' h₂)

end SameCore

/-! ### What keeps the core -/

namespace Kernel

variable {k k' : Kernel}

theorem sameCore_allocFrame (k : Kernel) : SameCore k k.allocFrame.2 := by
  unfold allocFrame; split <;> exact SameCore.of_eq rfl rfl rfl rfl rfl

theorem sameCore_freeFrame (k : Kernel) (f : Nat) : SameCore k (k.freeFrame f) := by
  unfold freeFrame; split <;> exact SameCore.of_eq rfl rfl rfl rfl rfl

theorem sameCore_setPte (k : Kernel) (d : Slot) (page : Nat) (e : Pte) :
    SameCore k (k.setPte d page e) :=
  SameCore.of_eq rfl rfl rfl rfl rfl

theorem sameCore_setSsPag (k : Kernel) (pt : Slot) (page frame : Nat) :
    SameCore k (k.setSsPag pt page frame) :=
  sameCore_setPte ..

theorem sameCore_delSsPag (k : Kernel) (pt : Slot) (page : Nat) : SameCore k (k.delSsPag pt page) :=
  sameCore_setPte ..

theorem sameCore_unmapPage (k : Kernel) (pt : Slot) (page : Nat) :
    SameCore k (k.unmapPage pt page) :=
  (sameCore_freeFrame ..).trans (sameCore_delSsPag ..)

theorem sameCore_setCr3 (k : Kernel) (d : Option Slot) : SameCore k (k.setCr3 d) :=
  SameCore.of_eq rfl rfl rfl rfl rfl

theorem sameCore_allocateDIR (k : Kernel) (t : Slot) : SameCore k (k.allocateDIR t) :=
  SameCore.modifyTask t (by intro; rfl)

theorem sameCore_copyPage {src dst : Nat} (h : k.copyPage src dst = some k') : SameCore k k' := by
  simp only [copyPage, Option.bind_eq_bind, Option.bind_eq_some_iff, Option.pure_def,
    Option.some.injEq] at h
  obtain ⟨_, -, _, -, _, -, rfl⟩ := h
  exact SameCore.of_eq rfl rfl rfl rfl rfl

theorem sameCore_writeUserWord {a w : Nat} (h : k.writeUserWord a w = some k') : SameCore k k' := by
  simp only [writeUserWord, Option.bind_eq_bind, Option.bind_eq_some_iff, Option.pure_def,
    Option.some.injEq] at h
  obtain ⟨_, -, _, -, rfl⟩ := h
  exact SameCore.of_eq rfl rfl rfl rfl rfl

theorem sameCore_writeThreadArgs {f p : Nat} (h : k.writeThreadArgs f p = some k') :
    SameCore k k' := by
  unfold writeThreadArgs at h
  obtain ⟨k₁, h₁, h⟩ := Option.bind_eq_some_iff.1 h
  obtain ⟨k₂, h₂, h₃⟩ := Option.bind_eq_some_iff.1 h
  exact ((sameCore_writeUserWord h₁).trans (sameCore_writeUserWord h₂)).trans
    (sameCore_writeUserWord h₃)

theorem sameCore_userStore {a v : Nat} (h : k.userStore a v = some k') : SameCore k k' := by
  unfold userStore at h
  split at h
  · cases h
  · simp only [Option.bind_eq_bind, Option.bind_eq_some_iff, Option.pure_def,
      Option.some.injEq] at h
    obtain ⟨_, -, _, -, rfl⟩ := h
    exact SameCore.of_eq rfl rfl rfl rfl rfl

theorem sameCore_getNextPid (k : Kernel) : SameCore k k.getNextPid.2 :=
  ⟨rfl, rfl, rfl, fun _ => rfl, Int.le_add_one (Int.le_refl _)⟩

theorem sameCore_updateSchedDataRr (k : Kernel) : SameCore k k.updateSchedDataRr :=
  SameCore.of_eq rfl rfl rfl rfl rfl

theorem sameCore_unmapPagesDown (k : Kernel) (pt : Slot) (first i : Nat) :
    SameCore k (k.unmapPagesDown pt first i) :=
  SameCore.foldl (fun _ _ => sameCore_unmapPage ..) _ _

theorem sameCore_unmapPagesUp (k : Kernel) (pt : Slot) (first i : Nat) :
    SameCore k (k.unmapPagesUp pt first i) :=
  SameCore.foldl (fun _ _ => sameCore_unmapPage ..) _ _

theorem sameCore_mapStackPagesLoop (pt : Slot) (firstPage : Nat) :
    ∀ (i n : Nat) (k : Kernel), SameCore k (mapStackPagesLoop pt firstPage i n k).2
  | _, 0, k => SameCore.refl k
  | i, n + 1, k => by
    simp only [mapStackPagesLoop]
    split
    · exact (sameCore_allocFrame k).trans (sameCore_unmapPagesDown ..)
    · exact ((sameCore_allocFrame k).trans (sameCore_setSsPag ..)).trans
        (sameCore_mapStackPagesLoop pt firstPage _ n _)

theorem sameCore_mapStackPages {master : Slot} {first n : Nat} {r : Int}
    (h : k.mapStackPages master first n = some (r, k')) : SameCore k k' := by
  simp only [mapStackPages, Option.bind_eq_bind, Option.bind_eq_some_iff, Option.pure_def,
    Option.some.injEq] at h
  obtain ⟨pt, -, h⟩ := h
  have hl := sameCore_mapStackPagesLoop pt first 0 n k
  rwa [h] at hl

theorem sameCore_mapFreshFrames (rollback : Kernel → Nat → Kernel)
    (hr : ∀ k i, SameCore k (rollback k i)) (pt : Slot) (first : Nat) :
    ∀ (i n : Nat) (k : Kernel), SameCore k (mapFreshFrames rollback pt first i n k).2
  | _, 0, k => SameCore.refl k
  | i, n + 1, k => by
    simp only [mapFreshFrames]
    split
    · exact (sameCore_allocFrame k).trans (hr ..)
    · exact ((sameCore_allocFrame k).trans (sameCore_setSsPag ..)).trans
        (sameCore_mapFreshFrames rollback hr pt first _ n _)

theorem sameCore_allocDataFrames : ∀ (n : Nat) (acc : List Nat) (k : Kernel),
    SameCore k (allocDataFrames n acc k).2
  | 0, _, k => SameCore.refl k
  | n + 1, acc, k => by
    simp only [allocDataFrames]
    split
    · exact (sameCore_allocFrame k).trans (SameCore.foldl (fun _ _ => sameCore_freeFrame ..) _ _)
    · exact (sameCore_allocFrame k).trans (sameCore_allocDataFrames n _ _)

theorem sameCore_shareRange (k : Kernel) (child parent : Slot) (lo n : Nat) :
    SameCore k (k.shareRange child parent lo n) :=
  SameCore.of_eq rfl rfl rfl rfl rfl

theorem sameCore_forkDataPage {childPT parentPT : Slot} {frames : List Nat} {page : Nat}
    (h : forkDataPage childPT parentPT frames k page = some k') : SameCore k k' := by
  simp only [forkDataPage, Option.bind_eq_bind, Option.bind_eq_some_iff, Option.pure_def,
    Option.some.injEq] at h
  obtain ⟨k₁, h₁, rfl⟩ := h
  exact (((sameCore_setSsPag ..).trans (sameCore_setSsPag ..)).trans
    (sameCore_copyPage h₁)).trans (sameCore_delSsPag ..)

theorem sameCore_forkStackPage {childPT parentPT : Slot} {p first i : Nat}
    (h : forkStackPage childPT parentPT p first k i = some k') : SameCore k k' := by
  simp only [forkStackPage, Option.bind_eq_bind, Option.bind_eq_some_iff, Option.pure_def,
    Option.some.injEq] at h
  obtain ⟨k₁, h₁, rfl⟩ := h
  exact ((sameCore_setSsPag ..).trans (sameCore_copyPage h₁)).trans (sameCore_delSsPag ..)

theorem sameCore_releaseThreadStack {t : Slot} (h : k.releaseThreadStack t = some k') :
    SameCore k k' := by
  unfold releaseThreadStack at h
  dsimp only at h
  split at h
  · cases h; exact SameCore.modifyTask t (by intro; rfl)
  · simp only [Option.bind_eq_bind, Option.bind_eq_some_iff, Option.pure_def,
      Option.some.injEq] at h
    obtain ⟨pt, -, rfl⟩ := h
    exact ((SameCore.foldl (fun _ _ => sameCore_unmapPage ..) _ _).trans
      (sameCore_setCr3 ..)).trans (SameCore.modifyTask t (by intro; rfl))

theorem sameCore_growUserStack {a : Nat} {r : Int} (h : k.growUserStack a = some (r, k')) :
    SameCore k k' := by
  unfold growUserStack at h
  cases hc : k.currentTask with
  | none => simp only [hc, Option.pure_def, Option.some.injEq, Prod.mk.injEq] at h; rw [← h.2]
  | some thread =>
    simp only [hc, Option.pure_def, Option.bind_eq_bind] at h
    split_ifs at h
    all_goals try (cases h; rfl)
    all_goals obtain ⟨pt, -, h⟩ := Option.bind_eq_some_iff.1 h; cases h
    · exact sameCore_allocFrame k
    · exact (((sameCore_allocFrame k).trans (sameCore_setSsPag ..)).trans
        (SameCore.modifyTask _ (by intro; rfl))).trans (sameCore_setCr3 ..)

theorem sameCore_setupKbdAuxStack {t : Slot} {r : Int} (h : k.setupKbdAuxStack t = some (r, k')) :
    SameCore k k' := by
  unfold setupKbdAuxStack at h
  simp only [Option.pure_def, Option.bind_eq_bind] at h
  split_ifs at h
  · cases h; rfl
  · cases h; exact sameCore_allocFrame k
  · obtain ⟨pt, -, h⟩ := Option.bind_eq_some_iff.1 h
    cases h
    exact (((sameCore_allocFrame k).trans (sameCore_setSsPag ..)).trans
      (sameCore_setCr3 ..)).trans (SameCore.modifyTask _ (by intro; rfl))

theorem sameCore_freeKbdAuxStack {t : Slot} (h : k.freeKbdAuxStack t = some k') : SameCore k k' := by
  unfold freeKbdAuxStack at h
  simp only [Option.pure_def, Option.bind_eq_bind] at h
  split_ifs at h
  · cases h; rfl
  · obtain ⟨pt, -, h⟩ := Option.bind_eq_some_iff.1 h
    cases h
    exact ((sameCore_unmapPage ..).trans (sameCore_setCr3 ..)).trans
      (SameCore.modifyTask _ (by intro; rfl))

theorem sameCore_cleanupKbdHandler {t : Slot} (h : k.cleanupKbdHandler t = some k') :
    SameCore k k' := by
  have hfree := sameCore_freeKbdAuxStack h
  exact (SameCore.modifyTask t (by intro; rfl)).trans hfree

theorem sameCore_kbdIrqHandler {s : Nat} (h : k.kbdIrqHandler s = some k') : SameCore k k' := by
  unfold kbdIrqHandler at h
  cases hc : k.currentTask with
  | none => simp only [hc, Option.pure_def, Option.some.injEq] at h; rw [← h]
  | some task =>
    simp only [hc, Option.pure_def, Option.bind_eq_bind] at h
    split_ifs at h
    all_goals try (cases h; rfl)
    -- the four words of the handler's frame, pressed or released
    all_goals
      obtain ⟨k₁, h₁, h⟩ := Option.bind_eq_some_iff.1 h
      obtain ⟨k₂, h₂, h⟩ := Option.bind_eq_some_iff.1 h
      obtain ⟨k₃, h₃, h⟩ := Option.bind_eq_some_iff.1 h
      obtain ⟨k₄, h₄, h⟩ := Option.bind_eq_some_iff.1 h
      cases h
      have h₁' := sameCore_writeUserWord h₁
      exact ((((((SameCore.modifyTask _ (by intro; rfl)).trans h₁').trans
        (sameCore_writeUserWord h₂)).trans (sameCore_writeUserWord h₃)).trans
        (sameCore_writeUserWord h₄)).trans (SameCore.modifyTask _ (by intro; rfl)))

theorem sameCore_kbdResumeHandler (k : Kernel) : SameCore k k.kbdResumeHandler := by
  unfold kbdResumeHandler
  split
  · rfl
  · split
    · rfl
    · exact SameCore.modifyTask _ (by intro; rfl)

theorem sameCore_sysKeyboardEvent {f w : Nat} {r : Int} (h : k.sysKeyboardEvent f w = some (r, k')) :
    SameCore k k' := by
  unfold sysKeyboardEvent at h
  simp only [Option.pure_def, Option.bind_eq_bind] at h
  split_ifs at h
  all_goals try (cases h; rfl)
  all_goals obtain ⟨t, -, h⟩ := Option.bind_eq_some_iff.1 h
  all_goals try (cases h; rfl)
  · -- `func == 0` unregisters the handler
    obtain ⟨k₁, h₁, h⟩ := Option.bind_eq_some_iff.1 h
    cases h; exact sameCore_cleanupKbdHandler h₁
  · obtain ⟨⟨r₁, k₁⟩, h₁, h⟩ := Option.bind_eq_some_iff.1 h
    split_ifs at h
    · cases h; exact sameCore_setupKbdAuxStack h₁
    · cases h
      exact (sameCore_setupKbdAuxStack h₁).trans (SameCore.modifyTask _ (by intro; rfl))

end Kernel

end Zeos
