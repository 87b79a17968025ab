import Zeos.Kernel.Defs

/-! # Memory management (`mm.c`)

Frames are handed out by `alloc_frame`, which scans the bytemap `phys_mem` from `NUM_PAG_KERNEL`
in steps of two, and returned by `free_frame`, which ignores every frame not strictly between
`NUM_PAG_KERNEL` and `TOTAL_PAGES`. Page-table entries are written by `set_ss_pag` and cleared by
`del_ss_pag`; `get_frame` reads an entry's frame whether or not it is present.

The kernel reaches user memory through the MMU: `translate` follows the page table of the
directory in `cr3`, and a logical page that is not present faults. `copyPage` is `copy_data` of one
page between two page-aligned logical addresses, and `writeUserWord` is a store of one word. -/

namespace Zeos

namespace Kernel

/-- `init_frames`: the frames below `NUM_PAG_KERNEL` are used, every other one is free. -/
def initFrames (k : Kernel) : Kernel := { k with physMem := Bitmap.below NUM_PAG_KERNEL }

/-- The scan of `alloc_frame` from candidate `i`, with `n` candidates left: the first free frame. -/
def allocFrameLoop (pm : Nat) : Nat → Nat → Option Nat
  | 0, _ => none
  | n + 1, i =>
    if i < TOTAL_PAGES then
      if Bitmap.get pm i then allocFrameLoop pm n (i + 2) else some i
    else none

/-- `alloc_frame`: mark the first free frame of `NUM_PAG_KERNEL, NUM_PAG_KERNEL + 2, ...` as used
    and return it, or return `-1`. The scan has `(TOTAL_PAGES - NUM_PAG_KERNEL) / 2` candidates. -/
def allocFrame (k : Kernel) : Int × Kernel :=
  match allocFrameLoop k.physMem ((TOTAL_PAGES - NUM_PAG_KERNEL) / 2) NUM_PAG_KERNEL with
  | some i => (i, { k with physMem := Bitmap.set k.physMem i })
  | none => (-1, k)

/-- `free_frame`: only frames strictly between `NUM_PAG_KERNEL` and `TOTAL_PAGES` are freed. -/
def freeFrame (k : Kernel) (frame : Nat) : Kernel :=
  if NUM_PAG_KERNEL < frame ∧ frame < TOTAL_PAGES then
    { k with physMem := Bitmap.clear k.physMem frame }
  else k

/-- `set_ss_pag(PT, page, frame)`: a present user read-write entry; `pbase_addr` has 20 bits. -/
def setSsPag (k : Kernel) (pt : Slot) (page frame : Nat) : Kernel :=
  k.setPte pt page ⟨true, true, true, frame % 2 ^ 20⟩

/-- `del_ss_pag(PT, page)`: the entry becomes `0`. -/
def delSsPag (k : Kernel) (pt : Slot) (page : Nat) : Kernel := k.setPte pt page Pte.zero

/-- `get_frame(PT, page)`: the entry's frame, present or not. -/
def getFrame (k : Kernel) (pt : Slot) (page : Nat) : Nat := (k.pagusrTable pt page).pbaseAddr

/-- `free_frame(get_frame(PT, page)); del_ss_pag(PT, page)`, the step that every unmapping loop
    of the kernel repeats. -/
def unmapPage (k : Kernel) (pt : Slot) (page : Nat) : Kernel :=
  (k.freeFrame (k.getFrame pt page)).delSsPag pt page

/-- `get_DIR(task)`. -/
def getDIR (k : Kernel) (t : Slot) : Option Slot := (k.tasks t).dirPagesBaseAddr

/-- `get_PT(task)`: the page table of the task's directory; a null directory faults. -/
def getPT (k : Kernel) (t : Slot) : Option Slot := (k.tasks t).dirPagesBaseAddr

/-- `allocate_DIR(task)`: the directory of a task is the one of its own slot. -/
def allocateDIR (k : Kernel) (t : Slot) : Kernel :=
  k.modifyTask t fun s => { s with dirPagesBaseAddr := some t }

/-- `set_cr3(dir)`. -/
def setCr3 (k : Kernel) (dir : Option Slot) : Kernel := { k with cr3 := dir }

/-- `init_table_pages`: in every table, pages `1 .. NUM_PAG_KERNEL - 1` map their own frame
    (present, read-write, supervisor) and every other entry is `0`. -/
def initTablePages (k : Kernel) : Kernel :=
  { k with pagusrTable := fun _ i =>
      if 1 ≤ i ∧ i < NUM_PAG_KERNEL then ⟨true, true, false, i⟩ else Pte.zero }

/-- One iteration of `set_user_pages`: a fresh frame for logical page `page`, whose entry gets
    the permission bit `rw`. The frame is not checked. -/
def setUserPage (pt : Slot) (rw : Bool) (k : Kernel) (page : Nat) : Kernel :=
  let (frame, k) := k.allocFrame
  k.setPte pt page ⟨true, rw, true, u32 frame % 2 ^ 20⟩

/-- `set_user_pages(task)`: code pages read-only, then data pages read-write, each on a fresh
    frame. -/
def setUserPages (k : Kernel) (t : Slot) : Option Kernel := do
  let pt ← k.getPT t
  let k := (List.range NUM_PAG_CODE).foldl
    (fun k pag => setUserPage pt false k (PAG_LOG_INIT_CODE + pag)) k
  pure <| (List.range NUM_PAG_DATA).foldl
    (fun k pag => setUserPage pt true k (PAG_LOG_INIT_DATA + pag)) k

/-! ### The MMU and user memory -/

/-- The physical address of logical address `a` in the page table `pt`, if its page is present. -/
def translate (k : Kernel) (pt : Slot) (a : Nat) : Option Nat :=
  let e := k.pagusrTable pt (a / PAGE_SIZE)
  if e.present then some (e.pbaseAddr * PAGE_SIZE + a % PAGE_SIZE) else none

/-- `copy_data(src, dst, PAGE_SIZE)` for page-aligned logical `src` and `dst`, both translated
    through `cr3`. The two frames are equal or disjoint, so the word-by-word copy is this
    pointwise one. -/
def copyPage (k : Kernel) (src dst : Nat) : Option Kernel := do
  let d ← k.cr3
  let ps ← k.translate d src
  let pd ← k.translate d dst
  pure { k with mem := fun b => if pd ≤ b ∧ b < pd + PAGE_SIZE then k.mem (ps + (b - pd)) else k.mem b }

/-- A store of the word `w` at the aligned logical address `a`, translated through `cr3`. -/
def writeUserWord (k : Kernel) (a w : Nat) : Option Kernel := do
  let d ← k.cr3
  let p ← k.translate d a
  pure { k with mem := storeWord k.mem p w }

/-! ### Specifications -/

theorem allocFrameLoop_spec {pm n i f : Nat} (h : allocFrameLoop pm n i = some f) :
    i ≤ f ∧ f < TOTAL_PAGES ∧ f % 2 = i % 2 ∧ Bitmap.get pm f = false := by
  induction n generalizing i with
  | zero => simp [allocFrameLoop] at h
  | succ n ih =>
    simp only [allocFrameLoop] at h
    split at h
    · split at h
      · obtain ⟨h1, h2, h3, h4⟩ := ih h
        exact ⟨by omega, h2, by omega, h4⟩
      · cases h; simp_all
    · cases h

@[simp] theorem allocFrame_tasks (k : Kernel) : k.allocFrame.2.tasks = k.tasks := by
  unfold allocFrame; split <;> rfl

@[simp] theorem allocFrame_links (k : Kernel) : k.allocFrame.2.links = k.links := by
  unfold allocFrame; split <;> rfl

@[simp] theorem allocFrame_currentTask (k : Kernel) :
    k.allocFrame.2.currentTask = k.currentTask := by
  unfold allocFrame; split <;> rfl

@[simp] theorem allocFrame_pagusrTable (k : Kernel) :
    k.allocFrame.2.pagusrTable = k.pagusrTable := by
  unfold allocFrame; split <;> rfl

@[simp] theorem freeFrame_tasks (k : Kernel) (f : Nat) : (k.freeFrame f).tasks = k.tasks := by
  unfold freeFrame; split <;> rfl

@[simp] theorem freeFrame_links (k : Kernel) (f : Nat) : (k.freeFrame f).links = k.links := by
  unfold freeFrame; split <;> rfl

@[simp] theorem freeFrame_currentTask (k : Kernel) (f : Nat) :
    (k.freeFrame f).currentTask = k.currentTask := by
  unfold freeFrame; split <;> rfl

@[simp] theorem freeFrame_pagusrTable (k : Kernel) (f : Nat) :
    (k.freeFrame f).pagusrTable = k.pagusrTable := by
  unfold freeFrame; split <;> rfl

@[simp] theorem unmapPage_tasks (k : Kernel) (pt : Slot) (page : Nat) :
    (k.unmapPage pt page).tasks = k.tasks := by
  simp [unmapPage, delSsPag]

@[simp] theorem unmapPage_links (k : Kernel) (pt : Slot) (page : Nat) :
    (k.unmapPage pt page).links = k.links := by
  simp [unmapPage, delSsPag]

@[simp] theorem unmapPage_currentTask (k : Kernel) (pt : Slot) (page : Nat) :
    (k.unmapPage pt page).currentTask = k.currentTask := by
  simp [unmapPage, delSsPag]

end Kernel

end Zeos
