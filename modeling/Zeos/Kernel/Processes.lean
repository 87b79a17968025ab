import Zeos.Kernel.Queues

/-! # Processes and threads

A process is a master task (its `master_thread` is itself) with the threads of its `threads`
list; its children are the tasks of its `children` list, each of which names it as `parent`.

`ThreadBookkeeping` is what the master keeps about its threads: their number, their TIDs
`PID*10 + i` and the bitmap `tid_slots` of the indices in use. Idle is a master whose bitmap is
all zero by design, although its TID is `0 = 0*10 + 0`.

Two runs break the process hierarchy and the atomicity of `sys_fork`. When the master leaves
through `sys_exit_thread`, its children keep it as their parent although its slot is free. And
when `sys_fork` fails for want of a frame for the user stack, it has already linked the child
into the caller's children list and does not unlink it. -/

namespace Zeos

/-- The bookkeeping of the process whose master is `m`, with `F` the free slots: the thread list
    is well formed, `thread_count` counts the master and its list, every thread of the list names
    `m` as its master and has its PID, the live threads' TIDs are distinct and of the form
    `PID*10 + i` with `i < MAX_TIDS_PER_PROCESS`, and `tid_slots[i]` is `1` exactly when a live
    thread of the process has TID `PID*10 + i`. -/
def ThreadBookkeeping (k : Kernel) (F : List Slot) (m : Slot) : Prop :=
  ∃ ts : List Slot, Links.Ring k.links (.field m .threads) (ts.map fun t => .field t .threadList) ∧
    (k.tasks m).threadCount = 1 + ts.length ∧
    (∀ t ∈ ts, (k.tasks t).masterThread = some m ∧ (k.tasks t).PID = (k.tasks m).PID) ∧
    (((m :: ts).filter (· ∉ F)).map fun t => (k.tasks t).TID).Nodup ∧
    (∀ t ∈ m :: ts, t ∉ F →
      ∃ i < MAX_TIDS_PER_PROCESS, (k.tasks t).TID = (k.tasks m).PID * 10 + i) ∧
    ∀ i < MAX_TIDS_PER_PROCESS, ((k.tasks m).tidSlots i = 1 ↔
      ∃ t ∈ m :: ts, t ∉ F ∧ (k.tasks t).TID = (k.tasks m).PID * 10 + i)

/-- Every live process keeps its bookkeeping. -/
def ThreadsConsistent (k : Kernel) : Prop :=
  ∃ F, QueueHolds k .freequeue F ∧
    ∀ m, m ∉ F → (k.tasks m).masterThread = some m → ThreadBookkeeping k F m

/-- At boot, idle is a live master with TID `0` whose `tid_slots[0]` is `0`. -/
theorem idle_tid_slot_clear : ∃ k, Reachable k ∧ ¬ ThreadsConsistent k := by
  obtain ⟨k, hk, hF, hm, hring, htid, hslot⟩ := exists_reachable_of_trace (fun _ => 0) []
    (fun k => QueueHolds k .freequeue ((List.finRange NR_TASKS).drop 2) ∧
      (k.tasks 0).masterThread = some 0 ∧ Links.Ring k.links (.field 0 .threads) [] ∧
      (k.tasks 0).TID = (k.tasks 0).PID * 10 + 0 ∧ (k.tasks 0).tidSlots 0 = 0)
    (by decide +kernel)
  refine ⟨k, hk, fun ⟨F, hF', hall⟩ => ?_⟩
  obtain rfl := queueHolds_unique hF' hF
  obtain ⟨ts, hts, -, -, -, -, hiff⟩ := hall 0 (by decide) hm
  have hnil : ts = [] := List.map_eq_nil_iff.1 (Links.ring_unique hts hring)
  subst hnil
  have h1 := (hiff 0 (by decide)).2 ⟨0, List.mem_singleton_self _, by decide, htid⟩
  simp [hslot] at h1

/-- Init forks a child, makes a thread and leaves through `sys_exit_thread`; the child, now
    running, still has init's free slot as its parent. -/
theorem handover_orphans_children :
    ∃ k, Reachable k ∧ ∃ F c p, QueueHolds k .freequeue F ∧ c ∉ F ∧
      (k.tasks c).parent = some p ∧ p ∈ F := by
  obtain ⟨k, hk, hF, hp⟩ := exists_reachable_of_trace (fun _ => 0)
    [.fork, .createThread 0x100000 0 0x100000, .exitThread]
    (fun k => QueueHolds k .freequeue ((List.finRange NR_TASKS).drop 4 ++ [1]) ∧
      (k.tasks 2).parent = some 1)
    (by decide +kernel)
  exact ⟨k, hk, _, 2, 1, hF, by decide, hp, by decide⟩

/-- The events that leave init with exactly the frames of a child's data and not of its stack:
    twelve forks and five threads. -/
def exhaustingRun : List Event :=
  List.replicate 12 .fork ++ List.replicate 5 (.createThread 0x100000 0 0x100000)

/-- Init's children after `exhaustingRun`: the twelve forked tasks, in slots `2 .. 13`. -/
def exhaustingChildren : List Node :=
  (((List.finRange NR_TASKS).drop 2).take 12).map fun t => .field t .childList

/-- After `exhaustingRun`, the next fork gets its data frames but no stack frame and returns
    `-EAGAIN`; init's children list has gained the failed child. -/
theorem failed_fork_keeps_child_linked :
    ∃ k r k', Reachable k ∧ k.sysFork = some (r, k') ∧ r < 0 ∧
      ∃ cur xs, k.currentTask = some cur ∧ Links.Ring k.links (.field cur .children) xs ∧
        ¬ Links.Ring k'.links (.field cur .children) xs := by
  obtain ⟨k, hk, hcur, hring, h⟩ := exists_reachable_of_trace (fun _ => 0) exhaustingRun
    (fun k => k.currentTask = some 1 ∧ Links.Ring k.links (.field 1 .children) exhaustingChildren ∧
      k.sysFork.map (fun rk => decide (rk.1 < 0 ∧ Links.Ring rk.2.links (.field 1 .children)
        (exhaustingChildren ++ [Node.field 19 .childList]))) = some true)
    (by decide +kernel)
  obtain ⟨⟨r, k'⟩, hf, hk'⟩ := Option.map_eq_some_iff.1 h
  simp only [decide_eq_true_eq] at hk'
  obtain ⟨hr, hring'⟩ := hk'
  refine ⟨k, r, k', hk, hf, hr, 1, exhaustingChildren, hcur, hring, fun hxs => ?_⟩
  have hlen := congrArg List.length (Links.ring_unique hring' hxs)
  simp at hlen

end Zeos
