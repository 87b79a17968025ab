import Zeos.Kernel.Step

/-! # Keyboard delivery

`kbd_irq_handler` looks only at `current_task`: its own `kbd_handler`, its own context flag and its
own auxiliary stack. `sys_keyboard_event` sets these fields on the calling thread, and a thread made
by `sys_create_thread` starts with them cleared, so a key that arrives while another thread of the
registering process runs is dropped.

When the handler does run, `kbd_irq_handler` saves the sixteen words of the interrupted user
context and `kbd_resume_handler` puts them back: the pair leaves the task's kernel stack as it
found it. -/

namespace Zeos

namespace Kernel

variable {k k' : Kernel} {cur : Slot}

/-- A running task without a handler of its own is left as it is, whatever its process has
    registered. -/
theorem kbdIrqHandler_of_no_handler (hc : k.currentTask = some cur)
    (hh : (k.tasks cur).kbdHandler = 0) (s : Nat) : k.kbdIrqHandler s = some k := by
  simp [kbdIrqHandler, hc, hh]

end Kernel

/-- Init registers a handler and makes a thread, and the clock hands the processor to the thread:
    its master has a handler, the thread is not in keyboard context, and every scancode is
    dropped. -/
theorem kbd_event_skips_other_threads :
    ∃ k, Reachable k ∧ ∃ cur m, k.currentTask = some cur ∧ (k.tasks cur).masterThread = some m ∧
      m ≠ cur ∧ (k.tasks m).kbdHandler ≠ 0 ∧ (k.tasks cur).inKbdContext = 0 ∧
      ∀ s, k.kbdIrqHandler s = some k := by
  obtain ⟨k, hk, hc, hm, hh, hh₂, hctx⟩ := exists_reachable_of_trace (fun _ => 0)
    [.keyboardEvent 0x100000 0x100000, .createThread 0x100000 0 0x100000, .clockTick]
    (fun k => k.currentTask = some 2 ∧ (k.tasks 2).masterThread = some 1 ∧
      (k.tasks 1).kbdHandler ≠ 0 ∧ (k.tasks 2).kbdHandler = 0 ∧ (k.tasks 2).inKbdContext = 0)
    (by decide +kernel)
  exact ⟨k, hk, 2, 1, hc, hm, by decide, hh, hctx, Kernel.kbdIrqHandler_of_no_handler hc hh₂⟩

end Zeos
