import Mathlib

/-! # Binary min-heaps in an array

A heap of `n` entries is the prefix `l` of an array, slot `i > 0` having the parent
`(i - 1) / 2`; it is ordered when no slot's key is below its parent's. The two loops that keep
the order exchange a slot with its parent (sift-up) or with its smaller child (sift-down). Each
loop is carried by the order everywhere but at the moving slot, plus the one pair the move will
create: for sift-up, the parent of the moving slot is at most its children; for sift-down, the
parent of the moving slot is at most its children. A round keeps that order at the slot it moves
to, and the loop's exit test closes the gap. -/

namespace Zeos.Lib

/-- The parent of slot `i`. -/
def heapParent (i : Nat) : Nat := (i - 1) / 2

theorem heapParent_lt {i : Nat} (h : 0 < i) : heapParent i < i := by
  unfold heapParent
  omega

/-- The children of slot `i` are `2 i + 1` and `2 i + 2`. -/
theorem heapParent_eq_iff {c i : Nat} (hc : 0 < c) :
    heapParent c = i ↔ c = 2 * i + 1 ∨ c = 2 * i + 2 := by
  unfold heapParent
  omega

section Heap

variable {α β : Type} [LinearOrder β] (key : α → β) (d : α)

/-- The key of slot `i`; a slot past the end reads as `d`. -/
def keyAt (l : List α) (i : Nat) : β := key (l.getD i d)

/-- No slot's key is below its parent's. -/
def HeapOrdered (l : List α) : Prop :=
  ∀ j, 0 < j → j < l.length → keyAt key d l (heapParent j) ≤ keyAt key d l j

/-- What sift-up keeps with the moving slot `i`: every other slot is in order with its parent,
and the parent of `i` is at most the children of `i`. -/
structure UpOrder (l : List α) (i : Nat) : Prop where
  except : ∀ j, 0 < j → j < l.length → j ≠ i → keyAt key d l (heapParent j) ≤ keyAt key d l j
  grand : 0 < i → ∀ c, 0 < c → c < l.length → heapParent c = i →
    keyAt key d l (heapParent i) ≤ keyAt key d l c

/-- What sift-down keeps with the moving slot `i`: every slot whose parent is not `i` is in
order with it, and the parent of `i` is at most the children of `i`. -/
structure DownOrder (l : List α) (i : Nat) : Prop where
  except : ∀ j, 0 < j → j < l.length → heapParent j ≠ i →
    keyAt key d l (heapParent j) ≤ keyAt key d l j
  grand : 0 < i → ∀ c, 0 < c → c < l.length → heapParent c = i →
    keyAt key d l (heapParent i) ≤ keyAt key d l c

omit [LinearOrder β] in
/-- An exchange of two slots, read slot by slot. -/
theorem keyAt_swap {l : List α} {i j : Nat} (hi : i < l.length) (hj : j < l.length) (k : Nat) :
    keyAt key d (l.swap i j) k =
      if k = j then keyAt key d l i else if k = i then keyAt key d l j else keyAt key d l k := by
  unfold keyAt
  rw [List.swap_eq_of_lt hi hj]
  simp only [List.getD_eq_getElem?_getD, List.getElem?_set, List.length_set]
  by_cases hkj : k = j
  · subst hkj
    simp [hj, List.getElem?_eq_getElem hi]
  · by_cases hki : k = i
    · subst hki
      simp [hkj, Ne.symm hkj, hi, List.getElem?_eq_getElem hj]
    · simp [hkj, hki, Ne.symm hkj, Ne.symm hki]

variable {key d}

omit [LinearOrder β] in
theorem length_swap (l : List α) (i j : Nat) : (l.swap i j).length = l.length :=
  (List.swap_perm l i j).length_eq

/-! ### Sift-up -/

/-- A new last slot under an ordered heap starts sift-up. -/
theorem HeapOrdered.upOrder_append {l : List α} (h : HeapOrdered key d l) (a : α) :
    UpOrder key d (l ++ [a]) l.length := by
  -- the old slots keep their keys, and the new last slot has no children
  have hk : ∀ k, k < l.length → keyAt key d (l ++ [a]) k = keyAt key d l k := by
    intro k hk
    simp [keyAt, List.getD_eq_getElem?_getD, List.getElem?_append_left hk]
  refine ⟨fun j hj hjl hji => ?_, fun _ c hc hcl hpc => ?_⟩
  · simp only [List.length_append, List.length_singleton] at hjl
    have hp := heapParent_lt hj
    rw [hk j (by omega), hk _ (by omega)]
    exact h j hj (by omega)
  · simp only [List.length_append, List.length_singleton] at hcl
    unfold heapParent at hpc
    omega

/-- Sift-up stops at the root, or where the moving slot is not below its parent. -/
theorem UpOrder.finish {l : List α} {i : Nat} (h : UpOrder key d l i)
    (hstop : 0 < i → keyAt key d l (heapParent i) ≤ keyAt key d l i) : HeapOrdered key d l := by
  intro j hj hjl
  by_cases hji : j = i
  · subst hji
    exact hstop hj
  · exact h.except j hj hjl hji

/-- A round of sift-up: the moving slot, below its parent, changes place with it. -/
theorem UpOrder.swap {l : List α} {i : Nat} (h : UpOrder key d l i) (hi : 0 < i)
    (hil : i < l.length) (hlt : keyAt key d l i < keyAt key d l (heapParent i)) :
    UpOrder key d (l.swap i (heapParent i)) (heapParent i) := by
  have hp := heapParent_lt hi
  have hk := keyAt_swap key d hil (show heapParent i < l.length by omega)
  -- the parent of `i` is in order with its own parent, if any
  have hpp : 0 < heapParent i →
      keyAt key d l (heapParent (heapParent i)) ≤ keyAt key d l (heapParent i) :=
    fun hp0 => h.except _ hp0 (by omega) (by omega)
  refine ⟨fun j hj hjl hjp => ?_, fun hp0 c hc hcl hpc => ?_⟩
  · rw [length_swap] at hjl
    rw [hk, hk]
    by_cases hji : j = i
    · -- the old parent's key now sits below the moved slot's
      subst hji
      simp only [if_true, if_neg (Nat.ne_of_lt hp), if_neg (Nat.ne_of_lt hp).symm]
      exact le_of_lt hlt
    · by_cases hpj : heapParent j = i
      · -- a child of `i`: under the old parent's key, which the grand order bounds
        simp only [hpj, if_true, if_neg hjp, if_neg hji, (Nat.ne_of_lt hp).symm]
        exact h.grand hi j hj hjl hpj
      · by_cases hpjp : heapParent j = heapParent i
        · -- a sibling of `i`: the moved key is below the parent's, which is below the sibling
          have hold := h.except j hj hjl hji
          rw [hpjp] at hold
          simp only [hpjp, if_true, if_neg hjp, if_neg hji]
          exact le_trans (le_of_lt hlt) hold
        · simp only [hpj, hpjp, if_false, if_neg hjp, if_neg hji]
          exact h.except j hj hjl hji
  · rw [length_swap] at hcl
    have hpp0 := heapParent_lt hp0
    have hgp : heapParent (heapParent i) ≠ heapParent i := Nat.ne_of_lt hpp0
    have hgi : heapParent (heapParent i) ≠ i := by omega
    rw [hk, hk]
    simp only [hgp, hgi, if_false]
    by_cases hci : c = i
    · subst hci
      simp only [if_true, if_neg (Nat.ne_of_lt hp).symm]
      exact hpp hp0
    · have hcp : c ≠ heapParent i := by
        have := heapParent_lt hc
        omega
      have hold := h.except c hc hcl hci
      rw [hpc] at hold
      simp only [hci, hcp, if_false]
      exact le_trans (hpp hp0) hold

/-! ### Sift-down -/

/-- The last slot moved to the root of an ordered heap starts sift-down. -/
theorem HeapOrdered.downOrder_root {l : List α} (h : HeapOrdered key d l) (a : α) :
    DownOrder key d (l.set 0 a) 0 := by
  refine ⟨fun j hj hjl hpj => ?_, fun h0 => absurd h0 (Nat.lt_irrefl 0)⟩
  rw [List.length_set] at hjl
  -- no slot but the root changed, and the root is no parent here
  have hk : ∀ k, k ≠ 0 → keyAt key d (l.set 0 a) k = keyAt key d l k := by
    intro k hk
    simp [keyAt, List.getD_eq_getElem?_getD, Ne.symm hk]
  rw [hk j (by omega), hk _ hpj]
  exact h j hj hjl

theorem HeapOrdered.dropLast {l : List α} (h : HeapOrdered key d l) :
    HeapOrdered key d l.dropLast := by
  intro j hj hjl
  rw [List.length_dropLast] at hjl
  have hp := heapParent_lt hj
  have hk : ∀ k, k < l.length - 1 → keyAt key d l.dropLast k = keyAt key d l k := by
    intro k hk
    simp only [keyAt, List.getD_eq_getElem?_getD, List.getElem?_dropLast, if_pos hk]
  rw [hk j hjl, hk _ (by omega)]
  exact h j hj (by omega)

/-- Sift-down stops where no child of the moving slot is below it. -/
theorem DownOrder.finish {l : List α} {i : Nat} (h : DownOrder key d l i)
    (hstop : ∀ c, 0 < c → c < l.length → heapParent c = i → keyAt key d l i ≤ keyAt key d l c) :
    HeapOrdered key d l := by
  intro j hj hjl
  by_cases hpj : heapParent j = i
  · rw [hpj]
    exact hstop j hj hjl hpj
  · exact h.except j hj hjl hpj

/-- A round of sift-down: the moving slot changes place with its smallest child `s`, which is
below it. -/
theorem DownOrder.swap {l : List α} {i s : Nat} (h : DownOrder key d l i) (hs : 0 < s)
    (hsl : s < l.length) (hps : heapParent s = i) (hlt : keyAt key d l s < keyAt key d l i)
    (hmin : ∀ c, 0 < c → c < l.length → heapParent c = i → keyAt key d l s ≤ keyAt key d l c) :
    DownOrder key d (l.swap i s) s := by
  have hsi : i < s := hps ▸ heapParent_lt hs
  have hk := keyAt_swap key d (show i < l.length by omega) hsl
  refine ⟨fun j hj hjl hpj => ?_, fun _ c hc hcl hpc => ?_⟩
  · rw [length_swap] at hjl
    rw [hk, hk]
    by_cases hjs : j = s
    · -- the moved-up key is below the moved-down one
      subst hjs
      simp only [hps, if_true, if_neg (Nat.ne_of_lt hsi)]
      exact le_of_lt hlt
    · by_cases hji : j = i
      · -- the moving slot's old parent is at most its children, `s` among them
        subst hji
        have hpi : heapParent j ≠ s := by have := heapParent_lt hj; omega
        have hpj' : heapParent j ≠ j := Nat.ne_of_lt (heapParent_lt hj)
        simp only [hpi, hpj', if_false, if_true, if_neg hjs]
        exact h.grand hj s hs hsl hps
      · by_cases hpji : heapParent j = i
        · -- a sibling of `s`: `s` is the smallest child
          simp only [hpji, if_true, if_neg hjs, if_neg hji, (Nat.ne_of_lt hsi)]
          exact hmin j hj hjl hpji
        · simp only [hpj, hpji, if_false, if_neg hjs, if_neg hji]
          exact h.except j hj hjl hpji
  · rw [length_swap] at hcl
    -- the children of `s` sit under its old key, which moved up to `i`
    have hcs : c ≠ s := by have := heapParent_lt hc; omega
    have hci : c ≠ i := by have := heapParent_lt hc; omega
    rw [hk, hk, hps]
    have hold := h.except c hc hcl (by omega)
    rw [hpc] at hold
    simp only [if_neg (Nat.ne_of_lt hsi), if_true, hcs, hci, if_false]
    exact hold

/-! ### The root -/

/-- The root of an ordered heap has the least key. -/
theorem HeapOrdered.root_le {l : List α} (h : HeapOrdered key d l) :
    ∀ j, j < l.length → keyAt key d l 0 ≤ keyAt key d l j := by
  intro j
  induction j using Nat.strongRecOn with
  | _ j ih =>
    intro hj
    rcases Nat.eq_zero_or_pos j with rfl | hj0
    · exact le_rfl
    · -- through the parent, which is nearer the root
      have hp := heapParent_lt hj0
      exact le_trans (ih _ hp (by omega)) (h j hj0 hj)

theorem HeapOrdered.root_le_of_mem {l : List α} (h : HeapOrdered key d l) {a : α} (ha : a ∈ l) :
    keyAt key d l 0 ≤ key a := by
  obtain ⟨j, hj, rfl⟩ := List.mem_iff_getElem.mp ha
  have hk : keyAt key d l j = key l[j] := by
    simp [keyAt, List.getD_eq_getElem?_getD, hj]
  rw [← hk]
  exact h.root_le j hj

end Heap

end Zeos.Lib
