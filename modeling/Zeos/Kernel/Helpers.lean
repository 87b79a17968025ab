import Zeos.Kernel.Sched

/-! # Thread stacks, keyboard context and user pointers

`kernel_helpers.c`: every thread owns a user-stack region of `THREAD_STACK_REGION_PAGES` pages in
its process's page table, mapped from the top down; `grow_user_stack` maps the page just below the
lowest mapped one when the thread faults on it, `find_free_stack_region` finds the first region
that neither the master nor a thread of its list uses, `map_stack_pages` maps fresh frames with a
rollback, and `release_thread_stack` unmaps a thread's pages.

`keyboard.c`: a process that registers a keyboard handler gets an auxiliary stack page at
`KBD_AUX_STACK_PAGE`; `kbd_irq_handler` saves the interrupted user context and diverts the thread
to the handler's wrapper on that stack, `kbd_resume_handler` restores the context.

`utils.c`: `access_ok` accepts a user range whose first and last pages lie in user space. -/

namespace Zeos

/-- `access_ok(type, addr, size)`: both branches of its switch test the same range, so the type
    does not matter. The end address is computed in 32 bits and a wrap-around is refused. -/
def accessOk (addr size : Nat) : Bool :=
  let addrIni := addr >>> 12
  let addrFin := u32 (addr + size) >>> 12
  if addrFin < addrIni then false
  else decide (addrIni ≥ USER_FIRST_PAGE ∧ addrFin < TOTAL_PAGES)

/-- `stack_region_overlaps(task, start, pages)`: whether `[start, start + pages)` meets the task's
    region; a task without a region overlaps nothing. Ends are computed in 32 bits. -/
def stackRegionOverlaps (t : TaskStruct) (start pages : Nat) : Bool :=
  if t.userStackRegionPages = 0 then false
  else
    let e := u32 (start + pages)
    let existingStart := t.userStackRegionStart
    let existingEnd := u32 (existingStart + t.userStackRegionPages)
    !(e ≤ existingStart || start ≥ existingEnd)

namespace Kernel

/-- `in_keyboard_context()`. -/
def inKeyboardContext (k : Kernel) : Bool :=
  match k.currentTask with
  | some c => (k.tasks c).inKbdContext ≠ 0
  | none => false

/-- `grow_user_stack(fault_addr)` for the current thread: map a fresh frame at the faulting page
    when it lies in the thread's region just below its lowest mapped page and the region is not
    full. -/
def growUserStack (k : Kernel) (faultAddr : Nat) : Option (Int × Kernel) := do
  let some thread := k.currentTask | return (-EFAULT, k)
  let t := k.tasks thread
  if t.userStackRegionPages = 0 ∨ t.userStackPtr = 0 then return (-EFAULT, k)
  let faultPage := faultAddr >>> 12
  let regionStart := t.userStackRegionStart
  let regionEnd := u32 (regionStart + t.userStackRegionPages)
  if faultPage < regionStart ∨ faultPage ≥ regionEnd then return (-EFAULT, k)
  if u32 t.userStackFrames ≥ t.userStackRegionPages then return (-ENOMEM, k)
  let firstMappedPage := t.userStackPtr >>> 12
  if faultPage ≠ u32 (firstMappedPage - 1) then return (-EFAULT, k)
  let pt ← k.getPT thread
  let (frame, k) := k.allocFrame
  if frame < 0 then return (frame, k)
  let k := k.setSsPag pt faultPage (u32 frame)
  let k := k.modifyTask thread fun t =>
    { t with userStackPtr := faultPage <<< 12, userStackFrames := t.userStackFrames + 1 }
  pure (0, k.setCr3 (k.getDIR thread))

/-- `stack_region_in_use(master, start, pages)`: the master's region or that of a thread in its
    list overlaps `[start, start + pages)`. -/
def stackRegionInUse (k : Kernel) (master : Slot) (start pages : Nat) : Option Bool := do
  if stackRegionOverlaps (k.tasks master) start pages then return true
  let found ← k.links.find (.field master .threads)
    (fun pos => do
      let thread ← listEntry .threadList pos
      pure (stackRegionOverlaps (k.tasks thread) start pages))
    listFuel
  pure found.isSome

/-- The loop of `find_free_stack_region` from region `page`, with `n` candidates left. -/
def findFreeStackRegionLoop (k : Kernel) (master : Slot) : Nat → Nat → Option Int
  | 0, _ => pure (-1)
  | n + 1, page =>
    if page + THREAD_STACK_REGION_PAGES ≤ TOTAL_PAGES then do
      if !(← k.stackRegionInUse master page THREAD_STACK_REGION_PAGES) then return page
      k.findFreeStackRegionLoop master n (page + THREAD_STACK_REGION_PAGES)
    else pure (-1)

/-- `find_free_stack_region(master)`: the first free region from `THREAD_STACK_BASE_PAGE`, or
    `-1`; there are `(TOTAL_PAGES - THREAD_STACK_BASE_PAGE) / THREAD_STACK_REGION_PAGES`
    candidates. -/
def findFreeStackRegion (k : Kernel) (master : Slot) : Option Int :=
  k.findFreeStackRegionLoop master ((TOTAL_PAGES - THREAD_STACK_BASE_PAGE) / THREAD_STACK_REGION_PAGES)
    THREAD_STACK_BASE_PAGE

/-- Unmap the pages `first, ..., first + i - 1` of table `pt` from the last one down: the
    rollback loop of `map_stack_pages`. -/
def unmapPagesDown (k : Kernel) (pt : Slot) (first i : Nat) : Kernel :=
  (List.range i).reverse.foldl (fun k j => k.unmapPage pt (u32 (first + j))) k

/-- The loop of `map_stack_pages` at index `i` with `n` pages left. -/
def mapStackPagesLoop (pt : Slot) (firstPage : Nat) : Nat → Nat → Kernel → Int × Kernel
  | _, 0, k => (0, k)
  | i, n + 1, k =>
    let (frame, k) := k.allocFrame
    if frame < 0 then (-EAGAIN, k.unmapPagesDown pt firstPage i)
    else mapStackPagesLoop pt firstPage (i + 1) n (k.setSsPag pt (u32 (firstPage + i)) (u32 frame))

/-- `map_stack_pages(master, first_page, pages_to_map)`: fresh frames for the pages
    `first_page, ...` of the master's table, all or none. -/
def mapStackPages (k : Kernel) (master : Slot) (firstPage pagesToMap : Nat) : Option (Int × Kernel) := do
  let pt ← k.getPT master
  pure (mapStackPagesLoop pt firstPage 0 pagesToMap k)

/-- `release_thread_stack(thread)`: unmap the thread's mapped stack pages and clear its stack
    fields. A thread without mapped pages only loses its region. -/
def releaseThreadStack (k : Kernel) (thread : Slot) : Option Kernel := do
  let t := k.tasks thread
  if t.userStackFrames ≤ 0 ∨ t.userStackPtr = 0 then
    return k.modifyTask thread fun t =>
      { t with userStackRegionStart := 0, userStackRegionPages := 0, userInitialEsp := 0,
               userEntry := 0 }
  let pt ← k.getPT thread
  let firstPage := t.userStackPtr >>> 12
  let k := (List.range t.userStackFrames.toNat).foldl
    (fun k i => k.unmapPage pt (u32 (firstPage + i))) k
  let k := k.setCr3 (k.getDIR thread)
  pure <| k.modifyTask thread fun t =>
    { t with userStackPtr := 0, userStackFrames := 0, userStackRegionStart := 0,
             userStackRegionPages := 0, userInitialEsp := 0, userEntry := 0 }

/-! ### Keyboard -/

/-- `setup_kbd_aux_stack(task)`: map a fresh frame at `KBD_AUX_STACK_PAGE` unless the task already
    has an auxiliary stack. -/
def setupKbdAuxStack (k : Kernel) (task : Slot) : Option (Int × Kernel) := do
  if (k.tasks task).kbdAuxStack ≠ 0 then return (0, k)
  let (frame, k) := k.allocFrame
  if frame < 0 then return (-ENOMEM, k)
  let pt ← k.getPT task
  let k := k.setSsPag pt KBD_AUX_STACK_PAGE (u32 frame)
  let k := k.setCr3 (k.getDIR task)
  pure (0, k.modifyTask task fun t => { t with kbdAuxStack := (KBD_AUX_STACK_PAGE + 1) <<< 12 })

/-- `free_kbd_aux_stack(task)`: unmap `KBD_AUX_STACK_PAGE` if the task has an auxiliary stack. -/
def freeKbdAuxStack (k : Kernel) (task : Slot) : Option Kernel := do
  if (k.tasks task).kbdAuxStack = 0 then return k
  let pt ← k.getPT task
  let k := (k.unmapPage pt KBD_AUX_STACK_PAGE).setCr3 (k.getDIR task)
  pure (k.modifyTask task fun t => { t with kbdAuxStack := 0 })

/-- `cleanup_kbd_handler(task)`. -/
def cleanupKbdHandler (k : Kernel) (task : Slot) : Option Kernel :=
  (k.modifyTask task fun t =>
    { t with kbdHandler := 0, inKbdContext := 0, kbdSavedCtx := fun _ => 0 }).freeKbdAuxStack task

/-- The kernel-stack words saved into `kbd_saved_ctx`, in its order. -/
def kbdCtxWords : List Nat :=
  [STACK_EBX, STACK_ECX, STACK_EDX, STACK_ESI, STACK_EDI, STACK_EBP, STACK_EAX, STACK_DS, STACK_ES,
   STACK_FS, STACK_GS, STACK_USER_EIP, STACK_USER_CS, STACK_EFLAGS, STACK_USER_ESP, STACK_USER_SS]

/-- `kbd_irq_handler()` for the scancode read from the keyboard port: a current task with a handler
    that is not already in keyboard context saves its user context, gets the handler's arguments
    at the top of its auxiliary stack and resumes at its wrapper on that stack. -/
def kbdIrqHandler (k : Kernel) (scancode : Nat) : Option Kernel := do
  let pressed : Nat := if scancode &&& 0x80 = 0 then 1 else 0
  let key := scancode &&& 0x7F
  let some task := k.currentTask | return k
  let t := k.tasks task
  if t.kbdHandler = 0 ∨ t.inKbdContext ≠ 0 then return k
  let k := k.modifyTask task fun t =>
    { t with inKbdContext := 1,
             kbdSavedCtx := fun i => match kbdCtxWords[i]? with
               | some w => t.stack w
               | none => t.kbdSavedCtx i }
  let stackPtr := u32 ((k.tasks task).kbdAuxStack - 16)
  let k ← k.writeUserWord stackPtr 0
  let k ← k.writeUserWord (stackPtr + 4) (k.tasks task).kbdHandler
  let k ← k.writeUserWord (stackPtr + 8) key
  let k ← k.writeUserWord (stackPtr + 12) pressed
  pure <| k.modifyTask task fun t =>
    let stack := Function.update t.stack STACK_USER_EIP t.kbdWrapper
    { t with stack := Function.update stack STACK_USER_ESP stackPtr }

/-- `kbd_resume_handler()`: restore the saved context of a task in keyboard context. -/
def kbdResumeHandler (k : Kernel) : Kernel :=
  match k.currentTask with
  | none => k
  | some task =>
    if (k.tasks task).inKbdContext = 0 then k
    else k.modifyTask task fun t =>
      { t with inKbdContext := 0,
               stack := fun w => match kbdCtxWords.idxOf? w with
                 | some i => t.kbdSavedCtx i
                 | none => t.stack w }

end Kernel

end Zeos
