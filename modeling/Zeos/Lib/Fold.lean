import Mathlib

/-! # Loops that update one entry at a time

A loop `l.foldl f s` whose round `f t i` changes only the entry `i` of what `get` reads: the
entries off the list are kept, an entry on the list (visited once) is what its round wrote, and a
property that every round keeps holds at the end. These are the loops of a program over the
slots of an array. -/

namespace Zeos.Lib

section Entries

variable {σ ι β : Type}

/-- A round that changes entry `i` only. -/
def OnlyAt (get : σ → ι → β) (f : σ → ι → σ) : Prop := ∀ t i j, j ≠ i → get (f t i) j = get t j

variable {get : σ → ι → β} {f : σ → ι → σ}

theorem get_foldl_of_not_mem (hf : OnlyAt get f) {j : ι} :
    ∀ {l : List ι} {s : σ}, j ∉ l → get (l.foldl f s) j = get s j
  | [], _, _ => rfl
  | i :: l, s, hj => by
    rw [List.foldl_cons, get_foldl_of_not_mem hf (fun h => hj (List.mem_cons_of_mem _ h))]
    exact hf s i j fun h => hj (h ▸ List.mem_cons_self)

/-- The entry of an index the loop visits once is what its round wrote there. -/
theorem get_foldl_of_mem (hf : OnlyAt get f) {j : ι} {P : β → Prop}
    (hP : ∀ t, P (get (f t j) j)) :
    ∀ {l : List ι} {s : σ}, l.Nodup → j ∈ l → P (get (l.foldl f s) j)
  | i :: l, s, hn, hj => by
    obtain ⟨hi, hn⟩ := List.nodup_cons.1 hn
    rw [List.foldl_cons]
    by_cases hji : j = i
    · -- the round on `j` is the last to touch it
      subst hji
      rw [get_foldl_of_not_mem hf hi]
      exact hP s
    · exact get_foldl_of_mem hf hP hn ((List.mem_cons.1 hj).resolve_left hji)

/-- A property of entry `j` that the round on `j` keeps holds after the loop. -/
theorem get_foldl_of_keep (hf : OnlyAt get f) {j : ι} {P : β → Prop}
    (hP : ∀ t, P (get t j) → P (get (f t j) j)) :
    ∀ {l : List ι} {s : σ}, P (get s j) → P (get (l.foldl f s) j)
  | [], _, h => h
  | i :: l, s, h => by
    rw [List.foldl_cons]
    refine get_foldl_of_keep hf hP ?_
    by_cases hji : j = i
    · subst hji
      exact hP s h
    · rwa [hf s i j hji]

end Entries

/-- A quantity that no round changes is the same after the loop. -/
theorem foldl_preserves {σ α γ : Type} {f : σ → α → σ} (g : σ → γ) (h : ∀ t a, g (f t a) = g t) :
    ∀ {l : List α} {s : σ}, g (l.foldl f s) = g s
  | [], _ => rfl
  | _ :: _, s => by rw [List.foldl_cons, foldl_preserves g h, h]

/-- A relation that is reflexive and transitive, and that every round moves along, relates the
start of the loop to its end. -/
theorem foldl_rel {σ α : Type} {f : σ → α → σ} (R : σ → σ → Prop) (hrefl : ∀ t, R t t)
    (htrans : ∀ {a b c}, R a b → R b c → R a c) (h : ∀ t a, R t (f t a)) :
    ∀ (l : List α) (s : σ), R s (l.foldl f s)
  | [], s => hrefl s
  | a :: l, s => htrans (h s a) (foldl_rel R hrefl htrans h l (f s a))

/-- The same for a loop that may fail: a relation that every round of the list that succeeds
moves along relates the start of a successful loop to its end. -/
theorem foldlM_rel {σ α : Type} {f : σ → α → Option σ} (R : σ → σ → Prop) (hrefl : ∀ t, R t t)
    (htrans : ∀ {a b c}, R a b → R b c → R a c) :
    ∀ {l : List α} {s t : σ}, (∀ u a u', a ∈ l → f u a = some u' → R u u') →
      l.foldlM f s = some t → R s t
  | [], s, t, _, h => by cases h; exact hrefl s
  | a :: l, s, t, hf, h => by
    simp only [List.foldlM_cons] at h
    obtain ⟨u, hu, h⟩ := Option.bind_eq_some_iff.1 h
    exact htrans (hf s a u List.mem_cons_self hu)
      (foldlM_rel R hrefl htrans (fun v b v' hb => hf v b v' (List.mem_cons_of_mem _ hb)) h)

end Zeos.Lib
