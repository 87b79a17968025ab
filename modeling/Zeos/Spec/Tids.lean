import Zeos.Kernel.Defs

/-! # The TID allocator, abstractly

A process whose PID is `base` numbers its threads `base * 10 + i` with `i < MAX_TIDS_PER_PROCESS`,
and its master keeps a bitmap `tid_slots` with `tid_slots[i] == 1` exactly for the indices in use.
`TidTable base tids slots` is that relation between the list `tids` of the live threads' TIDs and
the bitmap. Taking a free index for a new thread and releasing the index of a thread that leaves
both keep it; the table does not depend on the order of the threads. -/

namespace Zeos

open Function

/-- The slot bitmap `slots` records exactly the TIDs `tids` of a process with PID `base`, which
    are distinct and of the form `base * 10 + i`. -/
structure TidTable (base : Int) (tids : List Int) (slots : Nat → Int) : Prop where
  form : ∀ x ∈ tids, ∃ i < MAX_TIDS_PER_PROCESS, x = base * 10 + i
  nodup : tids.Nodup
  recorded : ∀ i < MAX_TIDS_PER_PROCESS, slots i = 1 ↔ base * 10 + i ∈ tids
  bits : ∀ i < MAX_TIDS_PER_PROCESS, slots i = 0 ∨ slots i = 1

namespace TidTable

variable {base : Int} {tids : List Int} {slots : Nat → Int}

/-- The index of a TID of the process. -/
theorem index_of_form {x : Int} {i : Nat} (hx : x = base * 10 + i) : (x - base * 10).toNat = i := by
  subst hx; simp

theorem perm (h : TidTable base tids slots) {tids' : List Int} (hp : tids.Perm tids') :
    TidTable base tids' slots :=
  ⟨fun x hx => h.form x (hp.mem_iff.2 hx), hp.nodup_iff.1 h.nodup,
    fun i hi => (h.recorded i hi).trans hp.mem_iff, h.bits⟩

/-- Releasing the index of the thread with TID `x`. -/
theorem erase (h : TidTable base tids slots) {x : Int} (hx : x ∈ tids) :
    TidTable base (tids.erase x) (update slots (x - base * 10).toNat 0) := by
  obtain ⟨j, hj, rfl⟩ := h.form _ hx
  rw [index_of_form rfl]
  refine ⟨fun y hy => h.form y (List.mem_of_mem_erase hy), h.nodup.erase _, fun i hi => ?_,
    fun i hi => ?_⟩
  · rw [h.nodup.mem_erase_iff, update_apply]
    split_ifs with hij
    · subst hij; simp
    · have hne : base * 10 + (i : Int) ≠ base * 10 + j := by omega
      rw [h.recorded i hi]; tauto
  · rw [update_apply]; split_ifs
    · exact .inl rfl
    · exact h.bits i hi

/-- Taking index `i`, free in the bitmap, for a new thread. -/
theorem append (h : TidTable base tids slots) {i : Nat} (hi : i < MAX_TIDS_PER_PROCESS)
    (hfree : slots i = 0) : TidTable base (tids ++ [base * 10 + i]) (update slots i 1) := by
  have hnot : base * 10 + (i : Int) ∉ tids := fun hmem => by
    have := (h.recorded i hi).2 hmem; omega
  refine ⟨fun y hy => ?_, h.nodup.append (List.nodup_singleton _) (by simpa using hnot),
    fun j hj => ?_, fun j hj => ?_⟩
  · rcases List.mem_append.1 hy with hy | hy
    · exact h.form y hy
    · exact ⟨i, hi, List.mem_singleton.1 hy⟩
  · rw [update_apply, List.mem_append, List.mem_singleton]
    split_ifs with hji
    · subst hji; simp
    · have hne : base * 10 + (j : Int) ≠ base * 10 + i := by omega
      rw [h.recorded j hj]; tauto
  · rw [update_apply]; split_ifs
    · exact .inr rfl
    · exact h.bits j hj

/-- A table that records the TID of its first thread releases it when that thread leaves. -/
theorem erase_head {x : Int} (h : TidTable base (x :: tids) slots) :
    TidTable base tids (update slots (x - base * 10).toNat 0) := by
  simpa using h.erase List.mem_cons_self

/-- The table of the process that `init_tid_slots` starts: only the master, with index `0`. -/
theorem init (base : Int) : TidTable base [base * 10] fun i => if i = 0 then 1 else 0 := by
  refine ⟨fun x hx => ⟨0, by decide, by simpa using hx⟩, List.nodup_singleton _,
    fun i _ => ?_, fun i _ => ?_⟩
  · split_ifs with hi
    · subst hi; simp
    · simp only [List.mem_singleton, zero_ne_one, false_iff]; omega
  · split_ifs
    · exact .inr rfl
    · exact .inl rfl

/-- The table reads the bitmap only below `MAX_TIDS_PER_PROCESS`. -/
theorem congr_slots (h : TidTable base tids slots) {slots' : Nat → Int}
    (he : ∀ i < MAX_TIDS_PER_PROCESS, slots' i = slots i) : TidTable base tids slots' :=
  ⟨h.form, h.nodup, fun i hi => by rw [he i hi]; exact h.recorded i hi,
    fun i hi => by rw [he i hi]; exact h.bits i hi⟩

/-- Where a free index exists, the bitmap has a zero there. -/
theorem free_index (h : TidTable base tids slots) {i : Nat} (hi : i < MAX_TIDS_PER_PROCESS)
    (hne : slots i ≠ 1) : slots i = 0 :=
  (h.bits i hi).resolve_right hne

end TidTable

end Zeos
