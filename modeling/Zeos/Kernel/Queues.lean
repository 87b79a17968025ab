import Zeos.Kernel.Step

/-! # What the task queues hold

A queue holds the tasks whose `list` members form, after its head, a well-formed ring
(`QueueHolds`). The intended picture is a partition: every task slot but idle's is in exactly one
of the four queues or is the running task, and a task that is not free has the status of its
place (`SlotPartition`); idle is in no queue at all.

Two runs break the picture. In the first, a thread that is not its process's master calls
`sys_exit` while the master waits in `blockedqueue`: step 5 of `sys_exit` appends the master to
`freequeue` without unlinking it, so the head of `blockedqueue` still points at a node that now
belongs to `freequeue`. In the second, idle runs when a clock tick wakes a task waiting for the
tick: `scheduler` enqueues the current task unless it is blocked, and idle's status was never set,
so it is `ST_RUN`, not `ST_BLOCKED`, and idle joins `readyqueue`. -/

namespace Zeos

/-- Queue `q` is a well-formed list holding the tasks `ts`, in order. -/
def QueueHolds (k : Kernel) (q : Queue) (ts : List Slot) : Prop :=
  Links.Ring k.links (.head q) (ts.map fun t => .field t .list)

instance (k : Kernel) (q : Queue) (ts : List Slot) : Decidable (QueueHolds k q ts) :=
  inferInstanceAs (Decidable (Links.Ring _ _ _))

/-- Task `t` is linked in queue `q`. -/
def InQueue (k : Kernel) (q : Queue) (t : Slot) : Prop := ∃ ts, QueueHolds k q ts ∧ t ∈ ts

/-- A queue holds one list of tasks at most. -/
theorem queueHolds_unique {k : Kernel} {q : Queue} {ts us : List Slot} (ht : QueueHolds k q ts)
    (hu : QueueHolds k q us) : ts = us := by
  have hmap := Links.ring_unique ht hu
  exact List.map_injective_iff.2 (fun a b h => by cases h; rfl) hmap

/-- Where a slot can be: in one of the four queues, or running. -/
def places (F R B T : List Slot) (cur : Option Slot) (s : Slot) : List Bool :=
  [decide (s ∈ F), decide (s ∈ R), decide (s ∈ B), decide (s ∈ T), decide (cur = some s)]

/-- The partition of the task slots: the four queues are well formed, every slot but idle's is in
    exactly one place, and a slot that is not free is `ST_READY` iff it is ready, `ST_BLOCKED`
    iff it waits in one of the two blocked queues, and `ST_RUN` iff it runs. -/
def SlotPartition (k : Kernel) : Prop :=
  ∃ F R B T : List Slot,
    QueueHolds k .freequeue F ∧ QueueHolds k .readyqueue R ∧ QueueHolds k .blockedqueue B ∧
    QueueHolds k .tickBlockedqueue T ∧
    ∀ s, k.idleTask ≠ some s →
      (places F R B T k.currentTask s).count true = 1 ∧
      (s ∉ F →
        ((k.tasks s).status = .ST_READY ↔ s ∈ R) ∧
        ((k.tasks s).status = .ST_BLOCKED ↔ s ∈ B ∨ s ∈ T) ∧
        ((k.tasks s).status = .ST_RUN ↔ k.currentTask = some s))

/-- A queue whose first node does not point back at the head holds nothing: it is broken. -/
theorem not_queueHolds_of_prev_ne {k : Kernel} {q : Queue} {y : Node} {ts : List Slot}
    (hy : k.links.next (.head q) = some y) (hp : k.links.prev y ≠ some (.head q)) :
    ¬ QueueHolds k q ts :=
  Links.not_ring_of_prev_ne hy hp

/-- Init makes a thread and blocks; the thread runs and calls `sys_exit`. Init, the master, is
    appended to `freequeue` while `blockedqueue` still starts with it. -/
theorem exit_by_thread_breaks_partition : ∃ k, Reachable k ∧ ¬ SlotPartition k := by
  obtain ⟨k, hk, hn, hp⟩ := exists_reachable_of_trace (fun _ => 0)
    [.createThread 0x100000 0 0x100000, .block, .exit]
    (fun k => k.links.next (.head .blockedqueue) = some (.field 1 .list) ∧
      k.links.prev (.field 1 .list) = some (.field 2 .list))
    (by decide +kernel)
  refine ⟨k, hk, fun ⟨_, _, B, _, _, _, hB, _⟩ => ?_⟩
  exact not_queueHolds_of_prev_ne hn (by simp [hp]) hB

/-- Init waits for a tick and idle runs; the tick wakes init and puts idle in `readyqueue`. -/
theorem tick_enqueues_idle :
    ∃ k, Reachable k ∧ ∃ idle, k.idleTask = some idle ∧ InQueue k .readyqueue idle := by
  obtain ⟨k, hk, hidle, hR⟩ := exists_reachable_of_trace (fun _ => 0) [.waitForTick, .clockTick]
    (fun k => k.idleTask = some 0 ∧ QueueHolds k .readyqueue [0])
    (by decide +kernel)
  exact ⟨k, hk, 0, hidle, [0], hR, List.mem_singleton_self _⟩

end Zeos
