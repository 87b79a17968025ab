import Mathlib
import Zeos.Kernel.Queues

/-! # Frames, page directories and thread stacks

A frame is accounted for when the bytemap marks it used exactly while some live task maps it;
a page directory, keyed by a task slot, is in use only by the threads of the task of that slot;
and a thread's mapped stack pages are the top `user_stack_frames` pages of its region.

Three defects break these. `sys_exit` releases the stacks of the threads in the master's list but
not the master's own, so a process ends with its stack frames still marked used and mapped only by
the page table of a free slot. When the master leaves through `sys_exit_thread`, its slot is freed
while the other threads keep running on its directory. And a slot whose previous process left a
grown stack mapped is reused by `sys_fork` without clearing its page table, so the new process has
pages mapped below its stack.

`sys_fork` changes the caller's page table too: its temporary window `FORK_TEMP_MAPPING_PAGE ..
FORK_TEMP_MAPPING_PAGE + NUM_PAG_DATA - 1` ends at `KBD_AUX_STACK_PAGE`, so the copy of the last
data page unmaps the caller's keyboard stack. And the child's copy of the caller's stack is put at
the top of the first stack region whatever region the caller's stack is in. -/

namespace Zeos

/-- Frame `f` is mapped, present, in the page table of some task outside `F`. -/
def MappedByLive (k : Kernel) (F : List Slot) (f : Nat) : Prop :=
  ∃ t, t ∉ F ∧ ∃ d, (k.tasks t).dirPagesBaseAddr = some d ∧
    ∃ page < TOTAL_PAGES, (k.pagusrTable d page).present = true ∧ (k.pagusrTable d page).pbaseAddr = f

instance (k : Kernel) (F : List Slot) (f : Nat) : Decidable (MappedByLive k F f) :=
  inferInstanceAs (Decidable (∃ t, t ∉ F ∧ _))

/-- Frame `f` is not mapped, present, at any of the `n` pages of directory `d` from page `lo`. -/
def FrameUnmappedIn (k : Kernel) (d : Slot) (f lo n : Nat) : Prop :=
  ∀ i < n, ¬ ((k.pagusrTable d (lo + i)).present = true ∧ (k.pagusrTable d (lo + i)).pbaseAddr = f)

instance (k : Kernel) (d : Slot) (f lo n : Nat) : Decidable (FrameUnmappedIn k d f lo n) :=
  inferInstanceAs (Decidable (∀ i < n, _))

/-- A frame that the directory of every live task leaves unmapped in each of `b` blocks of `n`
pages covering the `TOTAL_PAGES` pages is mapped by no live task. -/
theorem not_mappedByLive_of_blocks {k : Kernel} {F : List Slot} {f : Nat} (n b : Nat)
    (hnb : TOTAL_PAGES ≤ n * b)
    (h : ∀ t, t ∉ F → ∀ d, (k.tasks t).dirPagesBaseAddr = some d →
      ∀ j < b, FrameUnmappedIn k d f (n * j) n) :
    ¬ MappedByLive k F f := by
  rintro ⟨t, ht, d, hd, page, hp, hpres, hbase⟩
  have hn : 0 < n := Nat.pos_of_ne_zero fun h0 => by simp [h0, TOTAL_PAGES] at hnb
  -- the page is the `page % n`-th of block `page / n`
  have hj : page / n < b := Nat.div_lt_of_lt_mul (by omega)
  have hblock := h t ht d hd (page / n) hj (page % n) (Nat.mod_lt _ hn)
  rw [Nat.div_add_mod] at hblock
  exact hblock ⟨hpres, hbase⟩

/-- Init forks a child, a tick lets the child run, and the child exits. Its stack frame stays
    used although no live task maps it. -/
theorem exit_leaks_stack_frame :
    ∃ k, Reachable k ∧ ∃ F f, QueueHolds k .freequeue F ∧ NUM_PAG_KERNEL ≤ f ∧ f < TOTAL_PAGES ∧
      Bitmap.get k.physMem f = true ∧ ¬ MappedByLive k F f := by
  obtain ⟨k, hk⟩ : ∃ k, ((boot fun _ => 0).bind fun k => k.run [.fork, .clockTick, .exit]) = some k :=
    Option.isSome_iff_exists.1 (by decide +kernel)
  -- each fact of `k` is its own evaluation of the run: the queues, the frame and the directories
  -- of the two live tasks, then the pages of those directories, 128 at a time
  have hF := of_trace hk (fun k => QueueHolds k .freequeue ((List.finRange NR_TASKS).drop 3 ++ [2]) ∧
    Bitmap.get k.physMem 414 = true ∧
    (k.tasks 0).dirPagesBaseAddr = some 0 ∧ (k.tasks 1).dirPagesBaseAddr = some 1) (by decide +kernel)
  have b0 := of_trace hk (fun k => FrameUnmappedIn k 0 414 0 128 ∧ FrameUnmappedIn k 1 414 0 128)
    (by decide +kernel)
  have b1 := of_trace hk (fun k => FrameUnmappedIn k 0 414 128 128 ∧ FrameUnmappedIn k 1 414 128 128)
    (by decide +kernel)
  have b2 := of_trace hk (fun k => FrameUnmappedIn k 0 414 256 128 ∧ FrameUnmappedIn k 1 414 256 128)
    (by decide +kernel)
  have b3 := of_trace hk (fun k => FrameUnmappedIn k 0 414 384 128 ∧ FrameUnmappedIn k 1 414 384 128)
    (by decide +kernel)
  have b4 := of_trace hk (fun k => FrameUnmappedIn k 0 414 512 128 ∧ FrameUnmappedIn k 1 414 512 128)
    (by decide +kernel)
  have b5 := of_trace hk (fun k => FrameUnmappedIn k 0 414 640 128 ∧ FrameUnmappedIn k 1 414 640 128)
    (by decide +kernel)
  have b6 := of_trace hk (fun k => FrameUnmappedIn k 0 414 768 128 ∧ FrameUnmappedIn k 1 414 768 128)
    (by decide +kernel)
  have b7 := of_trace hk (fun k => FrameUnmappedIn k 0 414 896 128 ∧ FrameUnmappedIn k 1 414 896 128)
    (by decide +kernel)
  have hblocks : ∀ j < 8,
      FrameUnmappedIn k 0 414 (128 * j) 128 ∧ FrameUnmappedIn k 1 414 (128 * j) 128 := by
    intro j hj
    interval_cases j
    exacts [b0, b1, b2, b3, b4, b5, b6, b7]
  obtain ⟨hq, hused, hd0, hd1⟩ := hF
  refine ⟨k, reachable_of_trace hk, _, 414, hq, by decide, by decide, hused,
    not_mappedByLive_of_blocks 128 8 (by decide) fun t ht d hd j hj => ?_⟩
  -- the live tasks are idle, on directory `0`, and init, on directory `1`
  have hlive : t = 0 ∨ t = 1 :=
    (by decide : ∀ t : Slot, t ∉ (List.finRange NR_TASKS).drop 3 ++ [2] → t = 0 ∨ t = 1) t ht
  rcases hlive with rfl | rfl
  · rw [hd0, Option.some.injEq] at hd
    exact hd ▸ (hblocks j hj).1
  · rw [hd1, Option.some.injEq] at hd
    exact hd ▸ (hblocks j hj).2

/-- Init makes a thread and leaves through `sys_exit_thread`: the thread becomes the master and
    keeps running on init's directory, while init's slot is free. -/
theorem handover_frees_live_directory :
    ∃ k, Reachable k ∧ ∃ F t d, QueueHolds k .freequeue F ∧ t ∉ F ∧
      (k.tasks t).dirPagesBaseAddr = some d ∧ d ∈ F := by
  obtain ⟨k, hk, hF, hd⟩ := exists_reachable_of_trace (fun _ => 0)
    [.createThread 0x100000 0 0x100000, .exitThread]
    (fun k => QueueHolds k .freequeue ((List.finRange NR_TASKS).drop 3 ++ [1]) ∧
      (k.tasks 2).dirPagesBaseAddr = some 1)
    (by decide +kernel)
  exact ⟨k, hk, _, 2, 1, hF, by decide, hd, by decide⟩

/-- The events of the stack-region run: init forks a child that grows its stack by a page fault
    at page 316 and exits; init makes nine threads, tries thirteen more (each refused for want of
    a TID, its slot going back to the end of `freequeue`), and forks again into the slot of the
    first child. -/
def staleStackRun : List Event :=
  [.fork, .clockTick, .pageFault (316 * PAGE_SIZE), .exit] ++
    List.replicate 22 (.createThread 0x100000 0 0x100000) ++ [.fork]

/-- After `staleStackRun` the new child has its one stack page at 317, but page 316 of its
    region is still mapped. -/
theorem reused_slot_keeps_stack_page :
    ∃ k, Reachable k ∧ ∃ F t d page, QueueHolds k .freequeue F ∧ t ∉ F ∧
      (k.tasks t).userStackPtr ≠ 0 ∧ (k.tasks t).dirPagesBaseAddr = some d ∧
      (k.tasks t).userStackRegionStart ≤ page ∧ page < (k.tasks t).userStackPtr >>> 12 ∧
      (k.pagusrTable d page).present = true := by
  obtain ⟨k, hk, hF, hptr, hd, hstart, hp⟩ := exists_reachable_of_trace (fun _ => 0) staleStackRun
    (fun k => QueueHolds k .freequeue ((List.finRange NR_TASKS).drop 12) ∧
      (k.tasks 2).userStackPtr = 317 <<< 12 ∧ (k.tasks 2).dirPagesBaseAddr = some 2 ∧
      (k.tasks 2).userStackRegionStart = 310 ∧ (k.pagusrTable 2 316).present = true)
    (by decide +kernel)
  refine ⟨k, hk, _, 2, 2, 316, hF, by decide, by simp [hptr], hd, by omega, ?_, hp⟩
  rw [hptr]; decide

/-- Init registers a keyboard handler, which maps its auxiliary stack at `KBD_AUX_STACK_PAGE`,
    and forks: the fork succeeds and init's entry for that page is cleared. -/
theorem fork_unmaps_kbd_aux_stack :
    ∃ k r k', Reachable k ∧ k.sysFork = some (r, k') ∧ 0 ≤ r ∧
      ∃ cur d, k.currentTask = some cur ∧ (k.tasks cur).dirPagesBaseAddr = some d ∧
        (k.pagusrTable d KBD_AUX_STACK_PAGE).present = true ∧
        (k'.pagusrTable d KBD_AUX_STACK_PAGE).present = false := by
  obtain ⟨k, hk, hcur, hd, hp, h⟩ := exists_reachable_of_trace (fun _ => 0)
    [.keyboardEvent 0x100000 0x100000]
    (fun k => k.currentTask = some 1 ∧ (k.tasks 1).dirPagesBaseAddr = some 1 ∧
      (k.pagusrTable 1 KBD_AUX_STACK_PAGE).present = true ∧
      k.sysFork.map (fun rk => decide (0 ≤ rk.1 ∧
        (rk.2.pagusrTable 1 KBD_AUX_STACK_PAGE).present = false)) = some true)
    (by decide +kernel)
  obtain ⟨⟨r, k'⟩, hf, hk'⟩ := Option.map_eq_some_iff.1 h
  simp only [decide_eq_true_eq] at hk'
  exact ⟨k, r, k', hk, hf, hk'.1, 1, 1, hcur, hd, hp, hk'.2⟩

/-- Init makes two threads and the second runs and forks: its stack is at page 333, in the third
    region, and the child, whose stack copy is at the top of the first region, does not map it. -/
theorem fork_drops_thread_stack :
    ∃ k r k', Reachable k ∧ k.sysFork = some (r, k') ∧ 0 ≤ r ∧
      ∃ cur d child cd, k.currentTask = some cur ∧ (k.tasks cur).dirPagesBaseAddr = some d ∧
        (k.pagusrTable d ((k.tasks cur).userStackPtr >>> 12)).present = true ∧
        (k'.tasks child).PID = r ∧ (k'.tasks child).dirPagesBaseAddr = some cd ∧
        (k'.pagusrTable cd ((k.tasks cur).userStackPtr >>> 12)).present = false := by
  obtain ⟨k, hk, hcur, hd, hptr, hp, h⟩ := exists_reachable_of_trace (fun _ => 0)
    [.createThread 0x100000 0 0x100000, .createThread 0x100000 0 0x100000, .clockTick, .clockTick]
    (fun k => k.currentTask = some 3 ∧ (k.tasks 3).dirPagesBaseAddr = some 1 ∧
      (k.tasks 3).userStackPtr >>> 12 = 333 ∧ (k.pagusrTable 1 333).present = true ∧
      k.sysFork.map (fun rk => decide (0 ≤ rk.1 ∧ (rk.2.tasks 4).PID = rk.1 ∧
        (rk.2.tasks 4).dirPagesBaseAddr = some 4 ∧ (rk.2.pagusrTable 4 333).present = false)) =
        some true)
    (by decide +kernel)
  obtain ⟨⟨r, k'⟩, hf, hk'⟩ := Option.map_eq_some_iff.1 h
  simp only [decide_eq_true_eq] at hk'
  obtain ⟨hr, hpid, hcd, hnp⟩ := hk'
  refine ⟨k, r, k', hk, hf, hr, 3, 1, 4, 4, hcur, hd, ?_, hpid, hcd, ?_⟩
  · rw [hptr]
    exact hp
  · rw [hptr]
    exact hnp

end Zeos
