import Zeos.Kernel.Queues

/-! # Blocking, unblocking and waiting for a tick

`sys_block` consumes a pending unblock or blocks the caller in `blockedqueue`; `sys_unblock`
makes a blocked child ready or records a pending unblock; `sys_waitfortick` parks the caller in
`tick_blockedqueue` until `scheduler` wakes it.

Both tests of the code are on the status alone. A task waiting for a tick is `ST_BLOCKED` too, so
`sys_unblock` makes it ready, and the unblock is neither counted in `pending_unblocks` nor
consumed by a `sys_block`. And `scheduler`, which wakes every task waiting for a tick, also runs
inside `sys_block`, so a wait for a tick can end without a clock interrupt. -/

namespace Zeos

/-- Init forks a child; a tick lets the child run and the child waits for the next tick; init
    then unblocks it. The child has never called `sys_block` and is unblocked once, yet it ends
    ready with no pending unblock. -/
theorem unblock_releases_tick_waiter :
    ∃ k₀ k k', boot (fun _ => 0) = some k₀ ∧ k₀.run [.fork, .clockTick, .waitForTick] = some k ∧
      InQueue k .tickBlockedqueue 2 ∧ (k.tasks 2).pendingUnblocks = 0 ∧
      k.sysUnblock (k.tasks 2).PID = some (0, k') ∧
      InQueue k' .readyqueue 2 ∧ (k'.tasks 2).pendingUnblocks = 0 := by
  obtain ⟨k₀, k, hb, hr, hT, hp, h⟩ := exists_run_of_trace (fun _ => 0)
    [.fork, .clockTick, .waitForTick]
    (fun k => QueueHolds k .tickBlockedqueue [2] ∧ (k.tasks 2).pendingUnblocks = 0 ∧
      (k.sysUnblock (k.tasks 2).PID).map (fun rk => decide (rk.1 = 0 ∧
        QueueHolds rk.2 .readyqueue [2] ∧ (rk.2.tasks 2).pendingUnblocks = 0)) = some true)
    (by decide +kernel)
  obtain ⟨⟨r, k'⟩, hu, hk'⟩ := Option.map_eq_some_iff.1 h
  simp only [decide_eq_true_eq] at hk'
  obtain ⟨rfl, hR, hp'⟩ := hk'
  exact ⟨k₀, k, k', hb, hr, ⟨[2], hT, by simp⟩, hp, hu, ⟨[2], hR, by simp⟩, hp'⟩

/-- Init makes a thread and waits for a tick; the thread runs and blocks. Inside `sys_block`,
    `scheduler` wakes init, which runs again with the tick count it waited at. -/
theorem block_wakes_tick_waiter :
    ∃ k k₁ k₂ t, Reachable k ∧ k.currentTask = some t ∧ k.step .waitForTick = some k₁ ∧
      InQueue k₁ .tickBlockedqueue t ∧ k₁.step .block = some k₂ ∧
      k₂.currentTask = some t ∧ k₂.zeosTicks = k.zeosTicks := by
  obtain ⟨k, hk, hcur, h⟩ := exists_reachable_of_trace (fun _ => 0)
    [.createThread 0x100000 0 0x100000]
    (fun k => k.currentTask = some 1 ∧
      ((k.step .waitForTick).bind fun k₁ => (k₁.step .block).map fun k₂ =>
        decide (QueueHolds k₁ .tickBlockedqueue [1] ∧ k₂.currentTask = some 1 ∧
          k₂.zeosTicks = k.zeosTicks)) = some true)
    (by decide +kernel)
  obtain ⟨k₁, h₁, h'⟩ := Option.bind_eq_some_iff.1 h
  obtain ⟨k₂, h₂, h''⟩ := Option.map_eq_some_iff.1 h'
  simp only [decide_eq_true_eq] at h''
  obtain ⟨hT, hcur₂, hticks⟩ := h''
  exact ⟨k, k₁, k₂, 1, hk, hcur, h₁, ⟨[1], hT, by simp⟩, h₂, hcur₂, hticks⟩

end Zeos
