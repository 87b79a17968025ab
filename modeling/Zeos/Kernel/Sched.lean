import Zeos.Kernel.Mm

/-! # Scheduling and task initialisation (`sched.c`)

The round-robin policy: `update_process_state_rr` moves a task between queues (unlinking it only
when it is not running), `sched_next_rr` dispatches the first ready task or else idle, and
`scheduler` — run on every clock tick and from `sys_block` — charges the quantum, wakes every
task waiting for a tick and switches when the quantum is spent or the current task is blocked.
The initialisation of the queues, of idle and of init, and the TID slots of a process, are here
too.

A loop over a list runs with the bound `listFuel`, one more than the number of list nodes: a
well-formed list ends within it, and running out means that the C loop would not have ended. -/

namespace Zeos

/-- More iterations than any well-formed list allows: there are `4 + 5 * NR_TASKS` nodes. -/
def listFuel : Nat := 5 + 5 * NR_TASKS

/-- `init_keyboard_fields(task)`. -/
def TaskStruct.initKeyboardFields (t : TaskStruct) : TaskStruct :=
  { t with kbdHandler := 0, kbdWrapper := 0, kbdAuxStack := 0, inKbdContext := 0,
           kbdSavedCtx := fun _ => 0 }

/-- `init_tid_slots(master)`: every slot free except slot `0`, the master's. -/
def TaskStruct.initTidSlots (t : TaskStruct) : TaskStruct :=
  { t with tidSlots := fun i => if i = 0 then 1 else 0 }

namespace Kernel

/-- `init_queues`: the four heads are empty, then every task joins `freequeue` in slot order. -/
def initQueues (k : Kernel) : Option Kernel :=
  let k := (((k.initListHead (.head .freequeue)).initListHead (.head .readyqueue)).initListHead
    (.head .blockedqueue)).initListHead (.head .tickBlockedqueue)
  (List.finRange NR_TASKS).foldlM (fun k i => k.listAddTail (.field i .list) (.head .freequeue)) k

/-- `init_idle`: the first free task becomes idle, with PID `0` and TID `0`. Its status is not
    set. -/
def initIdle (k : Kernel) : Option Kernel := do
  let freeTask ← k.listFirst (.head .freequeue)
  let k ← k.listDel freeTask
  let idle ← listHeadToTaskStruct freeTask
  let k := { k with idleTask := some idle }
  let k := k.modifyTask idle fun t => { t with PID := 0, quantum := DEFAULT_QUANTUM, parent := none }
  let k := (k.initListHead (.field idle .children)).initListHead (.field idle .childList)
  let k := k.modifyTask idle fun t =>
    { t with pendingUnblocks := 0, threadCount := 1, masterThread := some idle }
  let k := (k.initListHead (.field idle .threads)).initListHead (.field idle .threadList)
  let k := k.modifyTask idle fun t =>
    { t with TID := 0, tidSlots := fun _ => 0, userStackPtr := 0, userStackFrames := 0,
             userStackRegionStart := 0, userStackRegionPages := 0, userInitialEsp := 0,
             userEntry := 0 }
  let k := k.modifyTask idle TaskStruct.initKeyboardFields
  pure (k.allocateDIR idle)

/-- `init_task1`: the next free task becomes init, the running task, with PID `1`, TID `10`, its
    user pages and one page of dedicated user stack at the top of the first stack region. -/
def initTask1 (k : Kernel) : Option Kernel := do
  let freeTask ← k.listFirst (.head .freequeue)
  let k ← k.listDel freeTask
  let init ← listHeadToTaskStruct freeTask
  let k := { k with initTask := some init, currentQuantum := DEFAULT_QUANTUM,
                    currentTask := some init }
  let k := k.modifyTask init fun t =>
    { t with PID := 1, quantum := DEFAULT_QUANTUM, status := .ST_RUN, parent := none }
  let k := (k.initListHead (.field init .children)).initListHead (.field init .childList)
  let k := k.modifyTask init fun t =>
    { t with pendingUnblocks := 0, threadCount := 1, masterThread := some init }
  let k := (k.initListHead (.field init .threads)).initListHead (.field init .threadList)
  let k := k.modifyTask init fun t => { t.initTidSlots with TID := 10 }
  let k := k.allocateDIR init
  let k ← k.setUserPages init
  let pt ← k.getPT init
  let regionStart := THREAD_STACK_BASE_PAGE
  let regionEnd := regionStart + THREAD_STACK_REGION_PAGES
  let firstMappedPage := regionEnd - THREAD_STACK_INITIAL_PAGES
  let (frame, k) := k.allocFrame
  let k := k.setSsPag pt firstMappedPage (u32 frame)
  let k := k.modifyTask init fun t =>
    { t with userStackRegionStart := regionStart, userStackRegionPages := THREAD_STACK_REGION_PAGES,
             userStackFrames := THREAD_STACK_INITIAL_PAGES, userStackPtr := firstMappedPage <<< 12,
             userInitialEsp := (regionEnd <<< 12) - 16, userEntry := 0 }
  let k := k.modifyTask init TaskStruct.initKeyboardFields
  pure (k.setCr3 (k.getDIR init))

/-- `get_next_pid()`: the counter is incremented first. -/
def getNextPid (k : Kernel) : Int × Kernel := (k.nextPid + 1, { k with nextPid := k.nextPid + 1 })

/-- The loop of `allocate_tid`: the first free TID slot. -/
def firstFreeTid (slots : Nat → Int) : Option Nat :=
  (List.range MAX_TIDS_PER_PROCESS).find? fun i => slots i = 0

/-- `allocate_tid(master)`: take the first free slot `i` and return `PID*10 + i`, or `-1`. -/
def allocateTid (k : Kernel) (master : Slot) : Int × Kernel :=
  match firstFreeTid (k.tasks master).tidSlots with
  | some i => ((k.tasks master).PID * 10 + i,
      k.modifyTask master fun t => { t with tidSlots := Function.update t.tidSlots i 1 })
  | none => (-1, k)

/-- `free_tid(master, tid)`: free slot `tid - PID*10` if it is one of the process's slots. -/
def freeTid (k : Kernel) (master : Slot) (tid : Int) : Kernel :=
  let slot := tid - (k.tasks master).PID * 10
  if 0 ≤ slot ∧ slot < MAX_TIDS_PER_PROCESS then
    k.modifyTask master fun t => { t with tidSlots := Function.update t.tidSlots slot.toNat 0 }
  else k

/-- `update_sched_data_rr()`. -/
def updateSchedDataRr (k : Kernel) : Kernel := { k with currentQuantum := k.currentQuantum - 1 }

/-- `needs_sched_rr()`: when the quantum is spent it is reloaded from the current task, and a
    switch is needed if a task is ready; otherwise a switch is needed iff the current task is
    blocked. -/
def needsSchedRr (k : Kernel) : Option (Bool × Kernel) := do
  let cur ← k.currentTask
  if k.currentQuantum ≤ 0 then
    let k := { k with currentQuantum := (k.tasks cur).quantum }
    if !k.listEmpty (.head .readyqueue) then return (true, k)
    return (decide ((k.tasks cur).status = .ST_BLOCKED), k)
  return (decide ((k.tasks cur).status = .ST_BLOCKED), k)

/-- `update_process_state_rr(task, dest)`: a task that is not running is unlinked from its queue;
    it then joins `dest` (ready or blocked), or runs when there is no destination. -/
def updateProcessStateRr (k : Kernel) (t : Slot) (dest : Option Queue) : Option Kernel := do
  let k ← if (k.tasks t).status ≠ .ST_RUN then k.listDel (.field t .list) else pure k
  match dest with
  | some q =>
    let k ← k.listAddTail (.field t .list) (.head q)
    pure (k.modifyTask t fun s =>
      { s with status := if q = .readyqueue then .ST_READY else .ST_BLOCKED })
  | none => pure (k.modifyTask t fun s => { s with status := .ST_RUN })

/-- `task_switch(new)` as far as the kernel's data goes: `new` becomes the current task and its
    directory is loaded. -/
def taskSwitch (k : Kernel) (new : Slot) : Kernel :=
  ({ k with currentTask := some new }).setCr3 (k.getDIR new)

/-- `sched_next_rr()`: the first ready task, dequeued, or idle when none is ready. -/
def schedNextRr (k : Kernel) : Option Kernel := do
  let (next, k) ← if !k.listEmpty (.head .readyqueue) then do
      let n ← k.listFirst (.head .readyqueue)
      let nt ← listHeadToTaskStruct n
      let k ← k.updateProcessStateRr nt none
      pure (nt, k)
    else do
      let idle ← k.idleTask
      pure (idle, k)
  let k := { k with currentQuantum := (k.tasks next).quantum }
  pure (k.taskSwitch next)

/-- The loop of `scheduler` that moves every task of `tick_blockedqueue` to `readyqueue`. -/
def wakeTickBlocked (k : Kernel) : Nat → Option Kernel
  | 0 => none
  | n + 1 =>
    if k.listEmpty (.head .tickBlockedqueue) then some k else do
      let first ← k.listFirst (.head .tickBlockedqueue)
      let t ← listHeadToTaskStruct first
      let k ← k.updateProcessStateRr t (some .readyqueue)
      wakeTickBlocked k n

/-- `scheduler()`. -/
def scheduler (k : Kernel) : Option Kernel := do
  let k := k.updateSchedDataRr
  let k ← k.wakeTickBlocked listFuel
  let (b, k) ← k.needsSchedRr
  if b then
    let cur ← k.currentTask
    let k ← if (k.tasks cur).status ≠ .ST_BLOCKED then
        k.updateProcessStateRr cur (some .readyqueue) else pure k
    k.schedNextRr
  else pure k

end Kernel

end Zeos
