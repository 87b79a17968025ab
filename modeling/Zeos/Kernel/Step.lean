import Zeos.Kernel.Sys

/-! # The kernel as a transition system

The kernel boots as `main` does (`init_mm`, `init_sched`, `init_idle`, `init_task1`) and then
moves by events: a system call, an exception or a store of the user task that runs, or a clock or
keyboard interrupt. The user side is arbitrary: any call with any arguments, any page fault, any
store the MMU allows. Idle runs in kernel mode, so only interrupts happen while it is current.
`none` from a step is a fault of the kernel or an event that cannot happen in that state;
`Reachable` collects every state some run reaches. -/

namespace Zeos

/-- An event the kernel reacts to. -/
inductive Event
  | fork
  | createThread (function parameter wrapper : Nat)
  | exit
  | exitThread
  | block
  | unblock (pid : Int)
  | waitForTick
  | keyboardEvent (func wrapper : Nat)
  | kbdResume
  | pageFault (addr : Nat)
  | userStore (addr byte : Nat)
  | clockTick
  | keyboardIrq (scancode : Nat)
  deriving DecidableEq, Repr

/-- The events that only the running user task can cause. -/
def Event.fromUser : Event → Bool
  | .clockTick | .keyboardIrq _ => false
  | _ => true

namespace Kernel

/-- The running task is a user task: there is one and it is not idle. -/
def userMode (k : Kernel) : Bool := k.currentTask.isSome && k.currentTask != k.idleTask

/-- The MMU lets user code write at logical address `a`. -/
def userWritable (k : Kernel) (a : Nat) : Bool :=
  match k.cr3 with
  | some d =>
    let e := k.pagusrTable d (a / PAGE_SIZE)
    e.present && e.user && e.rw
  | none => false

/-- A byte stored by user code; an access the MMU refuses is a page fault instead. -/
def userStore (k : Kernel) (a v : Nat) : Option Kernel := do
  if !k.userWritable a then none
  let d ← k.cr3
  let p ← k.translate d a
  pure { k with mem := Function.update k.mem p (v % 256) }

/-- The kernel's reaction to one event. A page fault needs an access that the MMU refuses. -/
def react (k : Kernel) : Event → Option Kernel
  | .fork => Prod.snd <$> k.sysFork
  | .createThread f p w => Prod.snd <$> k.sysCreateThread f p w
  | .exit => k.sysExit
  | .exitThread => k.sysExitThread
  | .block => Prod.snd <$> k.sysBlock
  | .unblock pid => Prod.snd <$> k.sysUnblock pid
  | .waitForTick => Prod.snd <$> k.sysWaitfortick
  | .keyboardEvent f w => Prod.snd <$> k.sysKeyboardEvent f w
  | .kbdResume => some k.kbdResumeHandler
  | .pageFault a => if k.userWritable a then none else k.pageFaultRoutine a
  | .userStore a v => k.userStore a v
  | .clockTick => k.clockRoutine
  | .keyboardIrq s => k.kbdIrqHandler s

/-- One step: an event of the user task needs a running user task. -/
def step (k : Kernel) (e : Event) : Option Kernel :=
  if e.fromUser && !k.userMode then none else k.react e

/-- A run of events from `k`. -/
def run (k : Kernel) (es : List Event) : Option Kernel := es.foldlM step k

/-- Zeroed static storage, with physical memory `mem`. -/
def zero (mem : Nat → Nat) : Kernel where
  tasks := fun _ => TaskStruct.zero
  links := ⟨fun _ => none, fun _ => none⟩
  currentTask := none
  idleTask := none
  initTask := none
  nextPid := 1
  currentQuantum := 0
  zeosTicks := 0
  physMem := 0
  pagusrTable := fun _ _ => Pte.zero
  cr3 := none
  mem := mem

end Kernel

/-- `init_mm()`: the page tables and the frame map, and the directory of task `0` in `cr3`. -/
def initMm (k : Kernel) : Kernel :=
  let k := (k.initTablePages.initFrames).allocateDIR 0
  k.setCr3 (k.getDIR 0)

/-- The boot sequence of `main`, from memory `mem`. -/
def boot (mem : Nat → Nat) : Option Kernel := do
  let k ← (initMm (Kernel.zero mem)).initQueues
  let k ← k.initIdle
  k.initTask1

/-- The states some run of the kernel reaches. -/
inductive Reachable : Kernel → Prop
  | boot {mem : Nat → Nat} {k : Kernel} : boot mem = some k → Reachable k
  | step {k k' : Kernel} {e : Event} : Reachable k → k.step e = some k' → Reachable k'

theorem Reachable.run {k k' : Kernel} (hk : Reachable k) :
    ∀ {es : List Event}, k.run es = some k' → Reachable k'
  | [], h => by cases h; exact hk
  | e :: es, h => by
    simp only [Kernel.run, List.foldlM_cons, Option.bind_eq_bind] at h
    obtain ⟨k₁, h₁, h₂⟩ := Option.bind_eq_some_iff.mp h
    exact Reachable.run (hk.step h₁) h₂

/-- A state some run from boot reaches is reachable. -/
theorem reachable_of_run {mem : Nat → Nat} {k k' : Kernel} {es : List Event}
    (hb : boot mem = some k) (hr : k.run es = some k') : Reachable k' :=
  (Reachable.boot hb).run hr

/-- A property that evaluates to `true` on the state that the run `es` from boot reaches holds of
    that state. -/
theorem exists_run_of_trace (mem : Nat → Nat) (es : List Event) (P : Kernel → Prop)
    [DecidablePred P]
    (h : ((boot mem).bind fun k => k.run es).map (fun k => decide (P k)) = some true) :
    ∃ k₀ k, boot mem = some k₀ ∧ k₀.run es = some k ∧ P k := by
  cases hb : boot mem with
  | none => simp [hb] at h
  | some k₀ =>
    cases hr : k₀.run es with
    | none => simp [hb, hr] at h
    | some k => exact ⟨k₀, k, rfl, hr, by simpa [hb, hr] using h⟩

theorem exists_reachable_of_trace (mem : Nat → Nat) (es : List Event) (P : Kernel → Prop)
    [DecidablePred P]
    (h : ((boot mem).bind fun k => k.run es).map (fun k => decide (P k)) = some true) :
    ∃ k, Reachable k ∧ P k :=
  let ⟨_, k, hb, hr, hP⟩ := exists_run_of_trace mem es P h
  ⟨k, reachable_of_run hb hr, hP⟩

/-- The kernel a trace from boot runs to is reachable. -/
theorem reachable_of_trace {mem : Nat → Nat} {es : List Event} {k : Kernel}
    (hk : ((boot mem).bind fun k => k.run es) = some k) : Reachable k := by
  cases hb : boot mem with
  | none => simp [hb] at hk
  | some k₀ =>
    rw [hb, Option.bind_some] at hk
    exact reachable_of_run hb hk

/-- An evaluation of a trace read at the kernel the trace runs to: one run can be checked by
several evaluations, each of a part of what is claimed of it. -/
theorem of_trace {mem : Nat → Nat} {es : List Event} {k : Kernel}
    (hk : ((boot mem).bind fun k => k.run es) = some k) (P : Kernel → Prop) [DecidablePred P]
    (h : ((boot mem).bind fun k => k.run es).map (fun k => decide (P k)) = some true) : P k := by
  rw [hk, Option.map_some, Option.some.injEq, decide_eq_true_eq] at h
  exact h

end Zeos
