import Zeos.Lib.Links

/-! # Several lists in one node store

Two tools for the lists that share one node store.

`Rings h I hd xs` is a family of well-formed rings, one for each index `i` with `I i`, headed by
`hd i` and holding `xs i`, whose node sets are pairwise disjoint. Deleting an element of one ring,
or adding a node that is in none of them to one, gives a family of the same shape with that ring
changed; a new index joins the family with an empty ring.

`Closed f h` says that every pointer of the store stays within the class of its node under `f`.
An operation whose nodes lie in one class then leaves every node of the other classes untouched,
whatever shape the lists of its own class have. -/

namespace Links

open Function

variable {α ι β : Type}

/-! ### Families of disjoint rings -/

section Family

/-- Disjoint well-formed rings, one for each index `i` with `I i`. -/
structure Rings (h : Links α) (I : ι → Prop) (hd : ι → α) (xs : ι → List α) : Prop where
  ring : ∀ i, I i → Ring h (hd i) (xs i)
  disjoint : ∀ i j, I i → I j → i ≠ j → ∀ a ∈ hd i :: xs i, a ∉ hd j :: xs j

/-- Node `a` belongs to one of the rings of the family. -/
def InRings (I : ι → Prop) (hd : ι → α) (xs : ι → List α) (a : α) : Prop :=
  ∃ i, I i ∧ a ∈ hd i :: xs i

variable {h h' : Links α} {I J : ι → Prop} {hd : ι → α} {xs : ι → List α}

/-- The family depends only on the pointers of its own nodes. -/
theorem rings_frame (hr : Rings h I hd xs)
    (hs : ∀ a, InRings I hd xs a → h'.next a = h.next a ∧ h'.prev a = h.prev a) :
    Rings h' I hd xs :=
  ⟨fun i hi => ring_frame (hr.ring i hi) (fun a ha => hs a ⟨i, hi, ha⟩), hr.disjoint⟩

theorem rings_mono (hr : Rings h I hd xs) (hJ : ∀ j, J j → I j) : Rings h J hd xs :=
  ⟨fun j hj => hr.ring j (hJ j hj), fun j j' hj hj' => hr.disjoint j j' (hJ j hj) (hJ j' hj')⟩

/-- A node outside ring `i` that belongs to the family belongs to another ring. -/
theorem notMem_of_inRings (hr : Rings h I hd xs) {i : ι} {a : α} (hi : I i)
    (ha : a ∈ hd i :: xs i) {j : ι} (hj : I j) (hij : i ≠ j) : a ∉ hd j :: xs j :=
  hr.disjoint i j hi hj hij a ha

variable [DecidableEq α] [DecidableEq ι]

theorem mem_update_erase {i l : ι} {e a : α} (ha : a ∈ hd l :: update xs i ((xs i).erase e) l) :
    a ∈ hd l :: xs l := by
  by_cases hl : l = i
  · subst hl
    rw [update_self] at ha
    rcases List.mem_cons.1 ha with rfl | ha
    · exact List.mem_cons_self
    · exact List.mem_cons_of_mem _ (List.mem_of_mem_erase ha)
  · rwa [update_of_ne hl] at ha

/-- `list_del` of an element of ring `i`: the ring loses it, the others are unchanged, and so is
    every node outside ring `i`. -/
theorem rings_del (hr : Rings h I hd xs) {i : ι} {e : α} (hi : I i) (he : e ∈ xs i) :
    ∃ h', h.del e = some h' ∧ Rings h' I hd (update xs i ((xs i).erase e)) ∧
      h'.next e = none ∧ h'.prev e = none ∧
      ∀ a ∉ hd i :: xs i, h'.next a = h.next a ∧ h'.prev a = h.prev a := by
  obtain ⟨h', hdel, hring, hn, hp, hout⟩ := ring_del (hr.ring i hi) he
  refine ⟨h', hdel, ⟨fun j hj => ?_, fun j j' hj hj' hne a ha ha' => ?_⟩, hn, hp, hout⟩
  · by_cases hji : j = i
    · subst hji; rwa [update_self]
    · rw [update_of_ne hji]
      exact ring_frame (hr.ring j hj) (fun a ha => hout a (hr.disjoint j i hj hi hji a ha))
  · exact hr.disjoint j j' hj hj' hne a (mem_update_erase ha) (mem_update_erase ha')

theorem mem_update_append {i l : ι} {new a : α}
    (ha : a ∈ hd l :: update xs i (xs i ++ [new]) l) : (l = i ∧ a = new) ∨ a ∈ hd l :: xs l := by
  by_cases hl : l = i
  · subst hl
    rw [update_self] at ha
    simp only [List.mem_cons, List.mem_append] at ha ⊢
    tauto
  · rw [update_of_ne hl] at ha; exact .inr ha

/-- `list_add_tail` of a node of no ring onto ring `i`: the ring gains it at its end, the others
    are unchanged, and so is every other node outside ring `i`. -/
theorem rings_addTail (hr : Rings h I hd xs) {i : ι} {new : α} (hi : I i)
    (hnew : ∀ j, I j → new ∉ hd j :: xs j) :
    ∃ h', h.addTail new (hd i) = some h' ∧ Rings h' I hd (update xs i (xs i ++ [new])) ∧
      ∀ a ∉ hd i :: xs i, a ≠ new → h'.next a = h.next a ∧ h'.prev a = h.prev a := by
  obtain ⟨h', hadd, hring, hout⟩ := ring_addTail (hr.ring i hi) (hnew i hi)
  refine ⟨h', hadd, ⟨fun j hj => ?_, fun j j' hj hj' hne a ha ha' => ?_⟩, hout⟩
  · by_cases hji : j = i
    · subst hji; rwa [update_self]
    · rw [update_of_ne hji]
      refine ring_frame (hr.ring j hj) (fun a ha => hout a (hr.disjoint j i hj hi hji a ha) ?_)
      rintro rfl; exact hnew j hj ha
  · -- the new node is only in ring `i`, and the old nodes keep their disjointness
    rcases mem_update_append ha with ⟨hji, hai⟩ | ha <;>
      rcases mem_update_append ha' with ⟨hji', hai'⟩ | ha'
    · exact hne (hji.trans hji'.symm)
    · exact hnew j' hj' (hai ▸ ha')
    · exact hnew j hj (hai' ▸ ha)
    · exact hr.disjoint j j' hj hj' hne a ha ha'

omit [DecidableEq α] in
/-- A head that starts an empty ring and is in no ring of the family joins it under a new
    index. -/
theorem rings_activate (hr : Rings h I hd xs) {i : ι} (hi : ¬ I i) (hring : Ring h (hd i) [])
    (hfree : ∀ j, I j → hd i ∉ hd j :: xs j) :
    Rings h (fun j => I j ∨ j = i) hd (update xs i []) := by
  have hne : ∀ {j}, I j → j ≠ i := fun hj e => hi (e ▸ hj)
  refine ⟨fun j hj => ?_, fun j j' hj hj' hjj a ha ha' => ?_⟩
  · rcases hj with hj | rfl
    · rw [update_of_ne (hne hj)]; exact hr.ring j hj
    · rwa [update_self]
  · rcases hj with hj | rfl <;> rcases hj' with hj' | rfl
    · rw [update_of_ne (hne hj)] at ha
      rw [update_of_ne (hne hj')] at ha'
      exact hr.disjoint j j' hj hj' hjj a ha ha'
    · rw [update_of_ne (hne hj)] at ha
      rw [update_self, List.mem_singleton] at ha'
      exact hfree j hj (ha' ▸ ha)
    · rw [update_of_ne (hne hj')] at ha'
      rw [update_self, List.mem_singleton] at ha
      exact hfree j' hj' (ha ▸ ha')
    · exact hjj rfl

end Family

/-! ### Pointers that stay within a class -/

section Closed

/-- Every pointer of the store joins two nodes of the same class under `f`. -/
def Closed (f : α → β) (h : Links α) : Prop :=
  ∀ a b, h.next a = some b ∨ h.prev a = some b → f b = f a

variable {f : α → β} {h h' : Links α}

theorem Closed.next (hc : Closed f h) {a b : α} (hab : h.next a = some b) : f b = f a :=
  hc a b (.inl hab)

theorem Closed.prev (hc : Closed f h) {a b : α} (hab : h.prev a = some b) : f b = f a :=
  hc a b (.inr hab)

variable [DecidableEq α]

theorem closed_initHead (hc : Closed f h) (x : α) : Closed f (h.initHead x) := by
  rintro a b (hab | hab)
  all_goals
    simp only [initHead_next, initHead_prev] at hab
    split at hab
    · cases hab; subst_vars; rfl
  · exact hc.next hab
  · exact hc.prev hab

theorem closed_link (hc : Closed f h) {new p n : α} (hp : f p = f new) (hn : f n = f new) :
    Closed f (h.link new p n) := by
  rintro a b (hab | hab)
  · simp only [link_next] at hab
    split_ifs at hab with h₁ h₂
    · cases hab; subst h₁; exact hp.symm
    · cases hab; subst h₂; exact hn
    · exact hc.next hab
  · simp only [link_prev] at hab
    split_ifs at hab with h₁ h₂
    · cases hab; subst h₁; exact hp
    · cases hab; subst h₂; exact hn.symm
    · exact hc.prev hab

/-- `list_add_tail` of a node of the head's class keeps the store closed. -/
theorem closed_addTail (hc : Closed f h) {new hd : α} (hf : f new = f hd)
    (hadd : h.addTail new hd = some h') : Closed f h' := by
  obtain ⟨p, hp, rfl⟩ := Option.map_eq_some_iff.1 hadd
  exact closed_link hc ((hc.prev hp).trans hf.symm) hf.symm

theorem closed_del (hc : Closed f h) {e : α} (hdel : h.del e = some h') : Closed f h' := by
  obtain ⟨p, hp, hdel⟩ := Option.bind_eq_some_iff.1 hdel
  obtain ⟨n, hn, hdel⟩ := Option.bind_eq_some_iff.1 hdel
  cases hdel
  have hpe := hc.prev hp
  have hne := hc.next hn
  rintro a b (hab | hab)
  · simp only [unlink_next] at hab
    split_ifs at hab with h₁ h₂
    · cases hab; subst h₂; rw [hne, hpe]
    · exact hc.next hab
  · simp only [unlink_prev] at hab
    split_ifs at hab with h₁ h₂
    · cases hab; subst h₂; rw [hpe, hne]
    · exact hc.prev hab

/-- `list_add_tail` within one class changes no node of another class. -/
theorem addTail_other_class (hc : Closed f h) {new hd a : α} (hf : f new = f hd)
    (hadd : h.addTail new hd = some h') (ha : f a ≠ f hd) :
    h'.next a = h.next a ∧ h'.prev a = h.prev a := by
  obtain ⟨p, hp, rfl⟩ := Option.map_eq_some_iff.1 hadd
  have hap : a ≠ p := fun e => ha (e ▸ hc.prev hp)
  have han : a ≠ new := fun e => ha (e ▸ hf)
  have hah : a ≠ hd := fun e => ha (e ▸ rfl)
  simp [hap, han, hah]

/-- `list_del` changes no node of another class than the deleted node's. -/
theorem del_other_class (hc : Closed f h) {e a : α} (hdel : h.del e = some h') (ha : f a ≠ f e) :
    h'.next a = h.next a ∧ h'.prev a = h.prev a := by
  obtain ⟨p, hp, hdel⟩ := Option.bind_eq_some_iff.1 hdel
  obtain ⟨n, hn, hdel⟩ := Option.bind_eq_some_iff.1 hdel
  cases hdel
  have hae : a ≠ e := fun h₁ => ha (h₁ ▸ rfl)
  have hap : a ≠ p := fun h₁ => ha (h₁ ▸ hc.prev hp)
  have han : a ≠ n := fun h₁ => ha (h₁ ▸ hc.next hn)
  simp [hae, hap, han]

theorem initHead_other (h : Links α) {x a : α} (ha : a ≠ x) :
    (h.initHead x).next a = h.next a ∧ (h.initHead x).prev a = h.prev a := by
  simp [ha]

end Closed

end Links
