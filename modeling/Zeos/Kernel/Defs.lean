import Zeos.Lib.Links
import Zeos.Lib.Bits

/-! # The ZeOS kernel state

The data the kernel keeps, after `include/sched.h`, `include/mm_address.h` and `include/types.h`:
the array `tasks[NR_TASKS]` of task unions, the `list_head` nodes (the four queue heads and the
five nodes embedded in every task), the bytemap `phys_mem`, the user page tables
`pagusr_table[NR_TASKS]`, the scheduler's globals and physical memory.

A task pointer is an index into `tasks` (`Slot`), `none` being `NULL`. The page directory of a
task is the index of its entry in `dir_pages`, so that `get_PT` is `pagusr_table` at that index.
User pointers and unsigned fields are natural numbers below `2 ^ 32`; `int` fields are integers.
The list nodes live in one node store `links`, so that every list operation is an operation of
`Zeos.Lib.Links`. -/

namespace Zeos

/-! ### Constants -/

def NR_TASKS : Nat := 25
def KERNEL_STACK_SIZE : Nat := 1024
def DEFAULT_QUANTUM : Int := 1
def MAX_TIDS_PER_PROCESS : Nat := 10
def KBD_CTX_SIZE : Nat := 16

def TOTAL_PAGES : Nat := 1024
def NUM_PAG_KERNEL : Nat := 256
def NUM_PAG_CODE : Nat := 30
def NUM_PAG_DATA : Nat := 24
def PAGE_SIZE : Nat := 0x1000
def L_USER_START : Nat := 0x100000
def PAG_LOG_INIT_DATA : Nat := L_USER_START >>> 12
def PAG_LOG_INIT_CODE : Nat := PAG_LOG_INIT_DATA + NUM_PAG_DATA
def USER_FIRST_PAGE : Nat := L_USER_START >>> 12
def THREAD_STACK_REGION_PAGES : Nat := 8
def THREAD_STACK_INITIAL_PAGES : Nat := 1
def THREAD_STACK_BASE_PAGE : Nat := PAG_LOG_INIT_CODE + NUM_PAG_CODE
def TEMP_STACK_MAPPING_PAGE : Nat := TOTAL_PAGES - THREAD_STACK_INITIAL_PAGES - 1
def FORK_TEMP_MAPPING_PAGE : Nat := TOTAL_PAGES - NUM_PAG_DATA - 2
def KBD_AUX_STACK_PAGE : Nat := TOTAL_PAGES - 3

/-- Word indices of the saved context at the top of a kernel stack (`include/sys.h`). -/
def STACK_EBX : Nat := KERNEL_STACK_SIZE - 16
def STACK_ECX : Nat := KERNEL_STACK_SIZE - 15
def STACK_EDX : Nat := KERNEL_STACK_SIZE - 14
def STACK_ESI : Nat := KERNEL_STACK_SIZE - 13
def STACK_EDI : Nat := KERNEL_STACK_SIZE - 12
def STACK_EBP : Nat := KERNEL_STACK_SIZE - 11
def STACK_EAX : Nat := KERNEL_STACK_SIZE - 10
def STACK_DS : Nat := KERNEL_STACK_SIZE - 9
def STACK_ES : Nat := KERNEL_STACK_SIZE - 8
def STACK_FS : Nat := KERNEL_STACK_SIZE - 7
def STACK_GS : Nat := KERNEL_STACK_SIZE - 6
def STACK_USER_EIP : Nat := KERNEL_STACK_SIZE - 5
def STACK_USER_CS : Nat := KERNEL_STACK_SIZE - 4
def STACK_EFLAGS : Nat := KERNEL_STACK_SIZE - 3
def STACK_USER_ESP : Nat := KERNEL_STACK_SIZE - 2
def STACK_USER_SS : Nat := KERNEL_STACK_SIZE - 1
def STACK_RET_ADDR : Nat := KERNEL_STACK_SIZE - 18
def STACK_FAKE_EBP : Nat := KERNEL_STACK_SIZE - 19

/-- The error numbers the modelled code returns (`include/errno.h`). -/
def ESRCH : Int := 3
def EAGAIN : Int := 11
def ENOMEM : Int := 12
def EFAULT : Int := 14
def EINVAL : Int := 22
def EINPROGRESS : Int := 115

/-! ### Tasks and list nodes -/

/-- An index into `tasks[NR_TASKS]`. -/
abbrev Slot := Fin NR_TASKS

instance : NeZero NR_TASKS := ⟨by decide⟩

/-- Membership in a list of slots is decided through this one instance, so that every definition
    that tests it refers to the same constant. -/
instance : LawfulBEq Slot := inferInstance

/-- `enum state_t`; `ST_RUN` is its zero. -/
inductive TaskStatus
  | ST_RUN
  | ST_READY
  | ST_BLOCKED
  deriving DecidableEq, Repr

/-- The four global queue heads. -/
inductive Queue
  | freequeue
  | readyqueue
  | blockedqueue
  | tickBlockedqueue
  deriving DecidableEq, Repr

/-- The `struct list_head` members of a task structure. -/
inductive Member
  | list
  | children
  | childList
  | threads
  | threadList
  deriving DecidableEq, Repr

/-- A `struct list_head` object: a global queue head, or a member of a task structure. -/
inductive Node
  | head (q : Queue)
  | field (t : Slot) (m : Member)
  deriving DecidableEq, Repr

/-- `list_entry(n, struct task_struct, m)`: the task whose member `m` is the node `n`. A node that
    is not such a member yields no task structure, and using the pointer would fault. -/
def listEntry (m : Member) : Node → Option Slot
  | .field t m' => if m' = m then some t else none
  | .head _ => none

/-- `list_head_to_task_struct`. -/
def listHeadToTaskStruct (n : Node) : Option Slot := listEntry .list n

/-- The members of one task structure that the kernel reads, `kernel_esp` apart. -/
structure TaskStruct where
  PID : Int
  dirPagesBaseAddr : Option Slot
  quantum : Int
  status : TaskStatus
  parent : Option Slot
  pendingUnblocks : Int
  TID : Int
  threadCount : Int
  masterThread : Option Slot
  tidSlots : Nat → Int
  userStackPtr : Nat
  userStackFrames : Int
  userStackRegionStart : Nat
  userStackRegionPages : Nat
  userInitialEsp : Nat
  userEntry : Nat
  kbdHandler : Nat
  kbdWrapper : Nat
  kbdAuxStack : Nat
  inKbdContext : Int
  kbdSavedCtx : Nat → Nat
  /-- The words of the kernel stack that shares the task union. -/
  stack : Nat → Nat

/-- A task structure in zeroed static storage. -/
def TaskStruct.zero : TaskStruct where
  PID := 0
  dirPagesBaseAddr := none
  quantum := 0
  status := .ST_RUN
  parent := none
  pendingUnblocks := 0
  TID := 0
  threadCount := 0
  masterThread := none
  tidSlots := fun _ => 0
  userStackPtr := 0
  userStackFrames := 0
  userStackRegionStart := 0
  userStackRegionPages := 0
  userInitialEsp := 0
  userEntry := 0
  kbdHandler := 0
  kbdWrapper := 0
  kbdAuxStack := 0
  inKbdContext := 0
  kbdSavedCtx := fun _ => 0
  stack := fun _ => 0

/-! ### Page tables -/

/-- The bits of a `page_table_entry` that the kernel sets or reads. -/
structure Pte where
  present : Bool
  rw : Bool
  user : Bool
  pbaseAddr : Nat
  deriving DecidableEq, Repr

/-- The entry whose raw value is `0`. -/
def Pte.zero : Pte := ⟨false, false, false, 0⟩

/-! ### The kernel -/

/-- The kernel's global state. `physMem` is the bytemap `phys_mem` as a bit map (bit `f` set iff
    `phys_mem[f] == USED_FRAME`); `cr3` is the directory the MMU translates through; `mem` is
    physical memory, one byte per address. -/
structure Kernel where
  tasks : Slot → TaskStruct
  links : Links Node
  currentTask : Option Slot
  idleTask : Option Slot
  initTask : Option Slot
  nextPid : Int
  currentQuantum : Int
  zeosTicks : Int
  physMem : Nat
  pagusrTable : Slot → Nat → Pte
  cr3 : Option Slot
  mem : Nat → Nat

namespace Kernel

open Function

/-- Apply `f` to the task structure of slot `i`. -/
def modifyTask (k : Kernel) (i : Slot) (f : TaskStruct → TaskStruct) : Kernel :=
  { k with tasks := update k.tasks i (f (k.tasks i)) }

/-- Replace the node store. -/
def setLinks (k : Kernel) (h : Links Node) : Kernel := { k with links := h }

/-- Write entry `page` of the page table of directory `d`. -/
def setPte (k : Kernel) (d : Slot) (page : Nat) (e : Pte) : Kernel :=
  { k with pagusrTable := update k.pagusrTable d (update (k.pagusrTable d) page e) }

@[simp] theorem modifyTask_tasks (k : Kernel) (i j : Slot) (f : TaskStruct → TaskStruct) :
    (k.modifyTask i f).tasks j = if j = i then f (k.tasks i) else k.tasks j := by
  simp [modifyTask, update_apply]

@[simp] theorem modifyTask_links (k : Kernel) (i : Slot) (f : TaskStruct → TaskStruct) :
    (k.modifyTask i f).links = k.links := rfl

@[simp] theorem modifyTask_currentTask (k : Kernel) (i : Slot) (f : TaskStruct → TaskStruct) :
    (k.modifyTask i f).currentTask = k.currentTask := rfl

@[simp] theorem modifyTask_physMem (k : Kernel) (i : Slot) (f : TaskStruct → TaskStruct) :
    (k.modifyTask i f).physMem = k.physMem := rfl

@[simp] theorem modifyTask_pagusrTable (k : Kernel) (i : Slot) (f : TaskStruct → TaskStruct) :
    (k.modifyTask i f).pagusrTable = k.pagusrTable := rfl

@[simp] theorem setLinks_links (k : Kernel) (h : Links Node) : (k.setLinks h).links = h := rfl

@[simp] theorem setLinks_tasks (k : Kernel) (h : Links Node) : (k.setLinks h).tasks = k.tasks :=
  rfl

@[simp] theorem setLinks_currentTask (k : Kernel) (h : Links Node) :
    (k.setLinks h).currentTask = k.currentTask := rfl

@[simp] theorem setLinks_physMem (k : Kernel) (h : Links Node) :
    (k.setLinks h).physMem = k.physMem := rfl

@[simp] theorem setLinks_pagusrTable (k : Kernel) (h : Links Node) :
    (k.setLinks h).pagusrTable = k.pagusrTable := rfl

@[simp] theorem setPte_pagusrTable (k : Kernel) (d d' : Slot) (page p : Nat) (e : Pte) :
    (k.setPte d page e).pagusrTable d' p =
      if d' = d ∧ p = page then e else k.pagusrTable d' p := by
  by_cases hd : d' = d
  · subst hd; by_cases hp : p = page <;> simp [setPte, hp]
  · simp [setPte, hd]

@[simp] theorem setPte_tasks (k : Kernel) (d : Slot) (page : Nat) (e : Pte) :
    (k.setPte d page e).tasks = k.tasks := rfl

@[simp] theorem setPte_links (k : Kernel) (d : Slot) (page : Nat) (e : Pte) :
    (k.setPte d page e).links = k.links := rfl

@[simp] theorem setPte_currentTask (k : Kernel) (d : Slot) (page : Nat) (e : Pte) :
    (k.setPte d page e).currentTask = k.currentTask := rfl

@[simp] theorem setPte_physMem (k : Kernel) (d : Slot) (page : Nat) (e : Pte) :
    (k.setPte d page e).physMem = k.physMem := rfl

/-! ### The list interface on the kernel's nodes -/

/-- `INIT_LIST_HEAD(x)`. -/
def initListHead (k : Kernel) (x : Node) : Kernel := k.setLinks (k.links.initHead x)

/-- `list_add_tail(new, hd)`. -/
def listAddTail (k : Kernel) (new hd : Node) : Option Kernel := (k.links.addTail new hd).map k.setLinks

/-- `list_del(e)`. -/
def listDel (k : Kernel) (e : Node) : Option Kernel := (k.links.del e).map k.setLinks

/-- `list_empty(hd)`. -/
def listEmpty (k : Kernel) (hd : Node) : Bool := k.links.isEmpty hd

/-- `list_first(hd)`, that is `hd->next`; a null pointer is `none`. -/
def listFirst (k : Kernel) (hd : Node) : Option Node := k.links.next hd

end Kernel

end Zeos
