import Mathlib

/-! # Counting after a change at one element

`List.countP` along a list without duplicates, for two predicates that agree everywhere but at
one element: the counts differ by what the predicates say there. This is the arithmetic of a
counter that a program keeps beside an array, as the array changes one entry at a time. -/

namespace Zeos.Lib

variable {α : Type} {p q : α → Bool} {a : α}

theorem countP_add_toNat_of_agree :
    ∀ {l : List α}, l.Nodup → a ∈ l → (∀ b ∈ l, b ≠ a → p b = q b) →
      l.countP p + (q a).toNat = l.countP q + (p a).toNat
  | b :: l, hn, ha, h => by
    obtain ⟨hb, hn⟩ := List.nodup_cons.1 hn
    by_cases hba : b = a
    · -- `a` heads the list and the predicates agree on the rest
      subst hba
      have hrest : l.countP p = l.countP q :=
        List.countP_congr fun c hc => by
          rw [h c (List.mem_cons_of_mem _ hc) (fun e => hb (e ▸ hc))]
      rw [List.countP_cons, List.countP_cons, hrest]
      cases p b <;> cases q b <;> rfl
    · have ha' : a ∈ l := (List.mem_cons.1 ha).resolve_left (Ne.symm hba)
      have ih := countP_add_toNat_of_agree hn ha' fun c hc hca => h c (List.mem_cons_of_mem _ hc) hca
      rw [List.countP_cons, List.countP_cons, h b List.mem_cons_self hba]
      omega

/-- The count after a change that makes `a` stop satisfying the predicate drops by one. -/
theorem countP_eq_add_one_of_agree {l : List α} (hn : l.Nodup) (ha : a ∈ l)
    (h : ∀ b ∈ l, b ≠ a → p b = q b) (hp : p a = true) (hq : q a = false) :
    l.countP p = l.countP q + 1 := by
  have := countP_add_toNat_of_agree hn ha h
  rw [hp, hq] at this
  simpa using this

/-- The count after a change that keeps the predicate at `a` is the same. -/
theorem countP_eq_of_agree {l : List α} (hn : l.Nodup) (ha : a ∈ l)
    (h : ∀ b ∈ l, b ≠ a → p b = q b) (hpq : p a = q a) : l.countP p = l.countP q := by
  have := countP_add_toNat_of_agree hn ha h
  rw [hpq] at this
  omega

/-- When `q` implies `p` along the list, the count of `p` is that of `q` and that of the elements
where `p` holds and `q` no longer does. -/
theorem countP_eq_add_countP_of_imp :
    ∀ {l : List α}, (∀ b ∈ l, q b = true → p b = true) →
      l.countP p = l.countP q + l.countP (fun b => p b && !q b)
  | [], _ => rfl
  | b :: l, h => by
    have ih := countP_eq_add_countP_of_imp fun c hc => h c (List.mem_cons_of_mem _ hc)
    have hb := h b List.mem_cons_self
    rw [List.countP_cons, List.countP_cons, List.countP_cons, ih]
    cases hp : p b <;> cases hq : q b <;> simp [hp, hq] at hb ⊢ <;> omega

end Zeos.Lib
