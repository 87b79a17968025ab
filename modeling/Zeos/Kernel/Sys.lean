import Zeos.Kernel.Helpers

/-! # System calls and interrupt routines (`sys.c`, `interrupt.c`)

Each system call is a function of the kernel state that returns the value the caller gets and
the state when the kernel returns to user mode, possibly in another task. A call that switches
tasks (`sys_block`, `sys_waitfortick`, `sys_exit`, `sys_exit_thread`) does nothing after the
switch but return, so running it as one step is the same as running it in two halves.

`sys_fork` and `sys_create_thread` start by copying the caller's whole task union over the new
task (`copyTaskUnion`), list members included, and then re-initialise what they need. -/

namespace Zeos

open Function

/-- The node store after `copy_data` of task `src` over task `dst`: every member of `dst` takes
    the two pointers of the same member of `src`. -/
def copyMemberLinks (h : Links Node) (src dst : Slot) : Links Node :=
  let cp (f : Node → Option Node) : Node → Option Node := fun n =>
    match n with
    | .field t m => if t = dst then f (.field src m) else f n
    | .head _ => f n
  ⟨cp h.next, cp h.prev⟩

namespace Kernel

/-- `copy_data(src, dst, sizeof(union task_union))`. -/
def copyTaskUnion (k : Kernel) (src dst : Slot) : Kernel :=
  { k with tasks := update k.tasks dst (k.tasks src), links := copyMemberLinks k.links src dst }

/-- `INIT_LIST_HEAD` of the members `ms` of task `t`, in order. -/
def initMembers (k : Kernel) (t : Slot) (ms : List Member) : Kernel :=
  ms.foldl (fun k m => k.initListHead (.field t m)) k

/-- Map fresh frames at pages `first + i, first + i + 1, ...` of table `pt`, `n` of them; when a
    frame is missing, `rollback k i` undoes the `i` pages mapped so far and the result is `false`.
    The loops of `map_stack_pages` and of `sys_fork`'s stack copy differ only in the order of
    their rollback. -/
def mapFreshFrames (rollback : Kernel → Nat → Kernel) (pt : Slot) (first : Nat) :
    Nat → Nat → Kernel → Bool × Kernel
  | _, 0, k => (true, k)
  | i, n + 1, k =>
    let (frame, k) := k.allocFrame
    if frame < 0 then (false, rollback k i)
    else mapFreshFrames rollback pt first (i + 1) n (k.setSsPag pt (u32 (first + i)) (u32 frame))

/-- Unmap pages `first, ..., first + i - 1` of table `pt` in increasing order. -/
def unmapPagesUp (k : Kernel) (pt : Slot) (first i : Nat) : Kernel :=
  (List.range i).foldl (fun k j => k.unmapPage pt (u32 (first + j))) k

/-- Step d of `sys_fork`: `n` fresh frames, or on failure the frames taken so far freed again. -/
def allocDataFrames : Nat → List Nat → Kernel → Option (List Nat) × Kernel
  | 0, acc, k => (some acc, k)
  | n + 1, acc, k =>
    let (frame, k) := k.allocFrame
    if frame < 0 then (none, acc.foldl (fun k f => k.freeFrame f) k)
    else allocDataFrames n (acc ++ [u32 frame]) k

/-- Step e.i of `sys_fork`: `set_ss_pag(child_PT, lo + p, get_frame(parent_PT, lo + p))` for
    `p < n`. Iteration `p` reads and writes only entry `lo + p`, so the loop is this pointwise
    copy of the frames, also when the two tables are one. -/
def shareRange (k : Kernel) (child parent : Slot) (lo n : Nat) : Kernel :=
  let src := k.pagusrTable parent
  let dst := k.pagusrTable child
  { k with pagusrTable := update k.pagusrTable child fun p =>
      if lo ≤ p ∧ p < lo + n then ⟨true, true, true, (src p).pbaseAddr % 2 ^ 20⟩ else dst p }

/-- One iteration of step f of `sys_fork`: map the child's data page on its new frame, map that
    frame at a temporary page of the parent, copy the parent's page into it and unmap it. -/
def forkDataPage (childPT parentPT : Slot) (frames : List Nat) (k : Kernel) (page : Nat) :
    Option Kernel := do
  let frame := frames.getD page 0
  let k := k.setSsPag childPT (PAG_LOG_INIT_DATA + page) frame
  let k := k.setSsPag parentPT (FORK_TEMP_MAPPING_PAGE + page) frame
  let k ← k.copyPage ((PAG_LOG_INIT_DATA + page) <<< 12) ((FORK_TEMP_MAPPING_PAGE + page) <<< 12)
  pure (k.delSsPag parentPT (FORK_TEMP_MAPPING_PAGE + page))

/-- One iteration of the stack copy of `sys_fork`: the child's `i`-th stack page is mapped at a
    temporary page of the parent and the parent's page copied into it. -/
def forkStackPage (childPT parentPT : Slot) (parentStackPage first : Nat) (k : Kernel) (i : Nat) :
    Option Kernel := do
  let k := k.setSsPag parentPT (u32 (FORK_TEMP_MAPPING_PAGE + i)) (k.getFrame childPT (u32 (first + i)))
  let k ← k.copyPage (u32 ((parentStackPage + i) <<< 12)) (u32 ((FORK_TEMP_MAPPING_PAGE + i) <<< 12))
  pure (k.delSsPag parentPT (u32 (FORK_TEMP_MAPPING_PAGE + i)))

/-- The user-stack part of `sys_fork`: when the caller has a mapped user stack, the child gets
    as many fresh frames at the top of the first stack region, holding a copy of the caller's
    pages, and its user ESP is moved by the same offset. `false` is the rollback, with the data
    frames freed and the child back in `freequeue`. -/
def forkUserStack (k : Kernel) (cur child childPT parentPT : Slot) (frames : List Nat) :
    Option (Bool × Kernel) := do
  let c := k.tasks cur
  if ¬ (c.userStackPtr ≠ 0 ∧ c.userStackFrames > 0) then
    return (true, k.modifyTask child fun t =>
      { t with userStackPtr := 0, userStackFrames := 0, userStackRegionStart := 0,
               userStackRegionPages := 0, userInitialEsp := 0 })
  let regionStart := THREAD_STACK_BASE_PAGE
  let regionEnd := regionStart + THREAD_STACK_REGION_PAGES
  let first := u32 (regionEnd - c.userStackFrames)
  let n := c.userStackFrames.toNat
  let (ok, k) := mapFreshFrames (fun k i => k.unmapPagesUp childPT first i) childPT first 0 n k
  if !ok then
    let k := frames.foldl (fun k f => k.freeFrame f) k
    return (false, ← k.listAddTail (.field child .list) (.head .freequeue))
  let k ← (List.range n).foldlM (forkStackPage childPT parentPT (c.userStackPtr >>> 12) first) k
  let k := k.modifyTask child fun t =>
    { t with userStackRegionStart := regionStart, userStackRegionPages := THREAD_STACK_REGION_PAGES,
             userStackFrames := c.userStackFrames, userStackPtr := u32 (first <<< 12) }
  let parentEsp := (k.tasks cur).stack STACK_USER_ESP
  let offset := u32 (parentEsp - (k.tasks cur).userStackPtr)
  let childEsp := u32 ((k.tasks child).userStackPtr + offset)
  return (true, k.modifyTask child fun t =>
    { t with stack := update t.stack STACK_USER_ESP childEsp, userInitialEsp := childEsp })

/-- `sys_fork()`. -/
def sysFork (k : Kernel) : Option (Int × Kernel) := do
  if k.inKeyboardContext then return (-EINPROGRESS, k)
  -- step a: a free task structure
  if k.listEmpty (.head .freequeue) then return (-ENOMEM, k)
  let freeNode ← k.listFirst (.head .freequeue)
  let k ← k.listDel freeNode
  let child ← listHeadToTaskStruct freeNode
  let cur ← k.currentTask
  -- steps b and c
  let k := (k.copyTaskUnion cur child).allocateDIR child
  -- step d
  let (allocated, k) := allocDataFrames NUM_PAG_DATA [] k
  let some frames := allocated
    | return (-EAGAIN, ← k.listAddTail (.field child .list) (.head .freequeue))
  -- step e
  let childPT ← k.getPT child
  let parentPT ← k.getPT cur
  let k := k.shareRange childPT parentPT 0 NUM_PAG_KERNEL
  let k := k.shareRange childPT parentPT PAG_LOG_INIT_CODE NUM_PAG_CODE
  -- step f
  let k ← (List.range NUM_PAG_DATA).foldlM (forkDataPage childPT parentPT frames) k
  let k := k.setCr3 (k.getDIR cur)
  -- steps g and h
  let (pid, k) := k.getNextPid
  let k := k.modifyTask child fun t =>
    { t with PID := pid, quantum := (k.tasks cur).quantum, status := .ST_READY }
  let k := (k.initListHead (.field child .list)).modifyTask child fun t =>
    { t with parent := some cur }
  let k := k.initMembers child [.children, .childList]
  let k ← k.listAddTail (.field child .childList) (.field cur .children)
  let k := k.modifyTask child fun t =>
    { t with pendingUnblocks := 0, threadCount := 1, masterThread := some child }
  let k := k.initMembers child [.threads, .threadList]
  let k := k.modifyTask child fun t => { t.initTidSlots.initKeyboardFields with TID := t.PID * 10 }
  -- the caller's user stack
  let (ok, k) ← k.forkUserStack cur child childPT parentPT frames
  if !ok then return (-EAGAIN, k)
  let k := k.modifyTask child fun t => { t with userEntry := 0 }
  -- step k
  let k ← k.listAddTail (.field child .list) (.head .readyqueue)
  return (pid, k)

/-- The three words `sys_create_thread` leaves at the top of a new thread's stack, through the
    temporary mapping: a null return address, the function and its parameter. -/
def writeThreadArgs (k : Kernel) (function parameter : Nat) : Option Kernel := do
  let stackWords := THREAD_STACK_INITIAL_PAGES * PAGE_SIZE / 4
  let tempStack := TEMP_STACK_MAPPING_PAGE <<< 12
  let k ← k.writeUserWord (tempStack + 4 * (stackWords - 1)) parameter
  let k ← k.writeUserWord (tempStack + 4 * (stackWords - 2)) function
  k.writeUserWord (tempStack + 4 * (stackWords - 3)) 0

/-- `sys_create_thread(function, parameter, wrapper)`. -/
def sysCreateThread (k : Kernel) (function parameter wrapper : Nat) : Option (Int × Kernel) := do
  if k.inKeyboardContext then return (-EINPROGRESS, k)
  if function = 0 then return (-EINVAL, k)
  if wrapper = 0 then return (-EINVAL, k)
  if !accessOk function 4 then return (-EFAULT, k)
  if !accessOk wrapper 4 then return (-EFAULT, k)
  if parameter ≠ 0 ∧ !accessOk parameter 4 then return (-EFAULT, k)
  if k.listEmpty (.head .freequeue) then return (-ENOMEM, k)
  let freeNode ← k.listFirst (.head .freequeue)
  let k ← k.listDel freeNode
  let newThread ← listHeadToTaskStruct freeNode
  let cur ← k.currentTask
  let k := k.copyTaskUnion cur newThread
  let master ← (k.tasks cur).masterThread
  let (newTid, k) := k.allocateTid master
  if newTid < 0 then
    return (-ENOMEM, ← k.listAddTail (.field newThread .list) (.head .freequeue))
  let k := k.modifyTask newThread fun t =>
    { t with dirPagesBaseAddr := (k.tasks master).dirPagesBaseAddr }
  let k := k.initMembers newThread [.list, .children, .childList, .threads, .threadList]
  let k := k.modifyTask newThread fun t =>
    { t with PID := (k.tasks master).PID, TID := newTid, parent := some master,
             masterThread := some master, quantum := DEFAULT_QUANTUM, status := .ST_READY,
             pendingUnblocks := 0, userStackPtr := 0, userStackFrames := 0,
             userStackRegionStart := 0, userStackRegionPages := 0, userInitialEsp := 0,
             userEntry := 0 }
  let k := k.modifyTask newThread TaskStruct.initKeyboardFields
  -- the thread's stack region, with a rollback at each failure
  let regionStart ← k.findFreeStackRegion master
  if regionStart < 0 then
    return (-ENOMEM, ← (k.freeTid master newTid).listAddTail (.field newThread .list) (.head .freequeue))
  let regionEnd := u32 (regionStart + THREAD_STACK_REGION_PAGES)
  let firstMappedPage := u32 (regionEnd - THREAD_STACK_INITIAL_PAGES)
  let (mapResult, k) ← k.mapStackPages master firstMappedPage THREAD_STACK_INITIAL_PAGES
  if mapResult < 0 then
    return (mapResult, ← (k.freeTid master newTid).listAddTail (.field newThread .list) (.head .freequeue))
  -- the wrapper's arguments, written through a temporary mapping in the caller's table
  let userEsp := u32 (u32 (regionEnd <<< 12) - 3 * 4)
  let currentPT ← k.getPT cur
  let processPT ← k.getPT master
  let k := (List.range THREAD_STACK_INITIAL_PAGES).foldl (fun k i =>
    k.setSsPag currentPT (TEMP_STACK_MAPPING_PAGE + i) (k.getFrame processPT (firstMappedPage + i))) k
  let k ← k.writeThreadArgs function parameter
  let k := (List.range THREAD_STACK_INITIAL_PAGES).foldl (fun k i =>
    k.delSsPag currentPT (TEMP_STACK_MAPPING_PAGE + i)) k
  let k := (k.setCr3 (k.getDIR cur)).setCr3 (k.getDIR master)
  let k := k.modifyTask newThread fun t =>
    let stack := update (update t.stack STACK_USER_EIP wrapper) STACK_USER_ESP userEsp
    { t with userStackRegionStart := u32 regionStart, userStackRegionPages := THREAD_STACK_REGION_PAGES,
             userStackFrames := THREAD_STACK_INITIAL_PAGES, userStackPtr := u32 (firstMappedPage <<< 12),
             userInitialEsp := userEsp, userEntry := wrapper,
             stack := update (update stack STACK_EAX 0) STACK_EBP 0 }
  let k := k.modifyTask master fun t => { t with threadCount := t.threadCount + 1 }
  let k ← k.listAddTail (.field newThread .threadList) (.field master .threads)
  let k ← k.listAddTail (.field newThread .list) (.head .readyqueue)
  return ((k.tasks newThread).TID, k)

/-- The body of step 1 of `sys_exit`, for the thread whose `thread_list` member is `pos`. -/
def exitThreadBody (master : Slot) (k : Kernel) (pos : Node) : Option Kernel := do
  let thread ← listEntry .threadList pos
  let k ← k.releaseThreadStack thread
  let k := k.freeTid master (k.tasks thread).TID
  let k ← k.listDel (.field thread .threadList)
  let k ← if (k.tasks thread).status ≠ .ST_RUN then k.listDel (.field thread .list) else pure k
  k.listAddTail (.field thread .list) (.head .freequeue)

/-- The body of step 2 of `sys_exit`: the child whose `child_list` member is `pos` moves to
    idle's children. -/
def reparentBody (k : Kernel) (pos : Node) : Option Kernel := do
  let child ← listEntry .childList pos
  let k ← k.listDel (.field child .childList)
  let idle ← k.idleTask
  let k := k.modifyTask child fun t => { t with parent := some idle }
  k.listAddTail (.field child .childList) (.field idle .children)

/-- `sys_exit()`. -/
def sysExit (k : Kernel) : Option Kernel := do
  let cur ← k.currentTask
  let master ← (k.tasks cur).masterThread
  -- step 1: every thread of the master's list goes to freequeue
  let k ← if !k.listEmpty (.field master .threads) then
      Links.forEachSafe Kernel.links (.field master .threads) (exitThreadBody master) listFuel k
    else pure k
  -- step 2: the caller's children become idle's
  let k ← Links.forEachSafe Kernel.links (.field cur .children) reparentBody listFuel k
  -- step 3
  let k ← if (k.tasks cur).parent.isSome then k.listDel (.field cur .childList) else pure k
  -- step 4: `get_frame` is below `2 ^ 20`, so the test `frame >= 0` always holds
  let pt ← k.getPT master
  let k := (List.range NUM_PAG_DATA).foldl (fun k page => k.unmapPage pt (PAG_LOG_INIT_DATA + page)) k
  -- step 5
  let k ← k.listAddTail (.field master .list) (.head .freequeue)
  let k ← k.cleanupKbdHandler cur
  k.schedNextRr

/-- `sys_block()`. -/
def sysBlock (k : Kernel) : Option (Int × Kernel) := do
  if k.inKeyboardContext then return (-EINPROGRESS, k)
  let cur ← k.currentTask
  if (k.tasks cur).pendingUnblocks = 0 then
    let k ← k.updateProcessStateRr cur (some .blockedqueue)
    return (0, ← k.scheduler)
  return (0, k.modifyTask cur fun t => { t with pendingUnblocks := t.pendingUnblocks - 1 })

/-- `sys_waitfortick()`. -/
def sysWaitfortick (k : Kernel) : Option (Int × Kernel) := do
  if k.inKeyboardContext then return (-EINPROGRESS, k)
  let cur ← k.currentTask
  let k ← k.updateProcessStateRr cur (some .tickBlockedqueue)
  return (0, ← k.schedNextRr)

/-- The search of `sys_unblock`: the first task of the caller's children list with PID `pid`. -/
def findChild (k : Kernel) (pid : Int) : Option (Option Slot) := do
  let cur ← k.currentTask
  let found ← k.links.find (.field cur .children)
    (fun pos => do
      let child ← listEntry .childList pos
      pure (decide ((k.tasks child).PID = pid)))
    listFuel
  match found with
  | none => pure none
  | some pos => some <$> listEntry .childList pos

/-- `sys_unblock(pid)`: a blocked child is made ready, any other child gets a pending unblock. -/
def sysUnblock (k : Kernel) (pid : Int) : Option (Int × Kernel) := do
  if k.inKeyboardContext then return (-EINPROGRESS, k)
  let some child ← k.findChild pid | return (-ESRCH, k)
  if (k.tasks child).status = .ST_BLOCKED then
    return (0, ← k.updateProcessStateRr child (some .readyqueue))
  return (0, k.modifyTask child fun t => { t with pendingUnblocks := t.pendingUnblocks + 1 })

/-- The body of the loop of `sys_exit_thread` that moves the threads of the old master's list to
    the new master's. -/
def moveThreadBody (master newMaster : Slot) (k : Kernel) (pos : Node) : Option Kernel := do
  let t ← listEntry .threadList pos
  if t = master then return k
  let k := k.modifyTask t fun s => { s with masterThread := some newMaster }
  let k ← k.listDel (.field t .threadList)
  k.listAddTail (.field t .threadList) (.field newMaster .threads)

/-- `sys_exit_thread()`. -/
def sysExitThread (k : Kernel) : Option Kernel := do
  let thread ← k.currentTask
  let master ← (k.tasks thread).masterThread
  if (k.tasks master).threadCount = 1 then return ← k.sysExit
  let k ← k.releaseThreadStack thread
  let k := k.freeTid master (k.tasks thread).TID
  let k := k.modifyTask master fun t => { t with threadCount := t.threadCount - 1 }
  let k ← k.listDel (.field thread .threadList)
  if thread ≠ master then
    return ← (← k.listAddTail (.field thread .list) (.head .freequeue)).schedNextRr
  -- the master leaves: the first other thread of its list takes over
  let found ← k.links.find (.field master .threads)
    (fun pos => do
      let candidate ← listEntry .threadList pos
      pure (decide (candidate ≠ master)))
    listFuel
  let some pos := found | k.sysExit
  let newMaster ← listEntry .threadList pos
  let m := k.tasks master
  let k := k.modifyTask newMaster fun t =>
    { t with masterThread := some newMaster, threadCount := m.threadCount,
             tidSlots := fun i => if i < MAX_TIDS_PER_PROCESS then m.tidSlots i else t.tidSlots i }
  let k := k.freeTid newMaster m.TID
  let k ← k.listDel (.field newMaster .threadList)
  let k := k.initListHead (.field newMaster .threads)
  let k ← Links.forEachSafe Kernel.links (.field master .threads) (moveThreadBody master newMaster)
    listFuel k
  let k ← k.listAddTail (.field master .list) (.head .freequeue)
  k.schedNextRr

/-- `sys_keyboard_event(func, wrapper)`. -/
def sysKeyboardEvent (k : Kernel) (func wrapper : Nat) : Option (Int × Kernel) := do
  if k.inKeyboardContext then return (-EINPROGRESS, k)
  let task ← k.currentTask
  if func = 0 then return (0, ← k.cleanupKbdHandler task)
  if !accessOk func 4 then return (-EFAULT, k)
  if !accessOk wrapper 4 then return (-EFAULT, k)
  let (ret, k) ← k.setupKbdAuxStack task
  if ret < 0 then return (ret, k)
  return (0, k.modifyTask task fun t =>
    { t with kbdHandler := func, kbdWrapper := wrapper, inKbdContext := 0 })

/-- `clock_routine()`: the tick count, then the scheduler. -/
def clockRoutine (k : Kernel) : Option Kernel :=
  { k with zeosTicks := k.zeosTicks + 1 }.scheduler

/-- `pageFault_routine(eip, fault_addr)`: grow the stack, or end the process. -/
def pageFaultRoutine (k : Kernel) (faultAddr : Nat) : Option Kernel := do
  let (r, k) ← k.growUserStack faultAddr
  if r = 0 then return k
  k.sysExit

end Kernel

end Zeos
