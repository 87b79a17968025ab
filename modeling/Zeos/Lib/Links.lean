import Mathlib

/-! # Intrusive circular doubly linked lists

A node store `Links α` gives every node a `next` and a `prev` pointer, `none` being the null
pointer. The operations are those of a `list_head` interface: `initHead` makes a node an empty
list, `link` is `__list_add`, `addTail` inserts before a head, `del` joins a node's neighbours and
nulls its pointers, `isEmpty` compares a head's `next` with the head. Dereferencing a null pointer
is a fault, so `addTail` and `del` return `Option`.

`Ring h hd xs` says that the list headed by `hd` is well formed and holds `xs` in order: the cycle
`hd :: xs ++ [hd]` is a chain of adjacent nodes (`next` forwards, `prev` backwards) and no node
repeats. Each operation gets a lemma for the ring it changes and a frame lemma for every node
outside it. The two loops `forEachSafe` (`list_for_each_safe`) and `find` (`list_for_each` with an
early exit) run with a fuel bound; on a ring they compute a fold and a search over its elements. -/

/-- The `next` and `prev` pointers of every list node. -/
structure Links (α : Type) where
  next : α → Option α
  prev : α → Option α

namespace Links

open Function

variable {α : Type} [DecidableEq α]

/-- `INIT_LIST_HEAD`: the node points to itself both ways. -/
def initHead (h : Links α) (x : α) : Links α :=
  ⟨update h.next x (some x), update h.prev x (some x)⟩

/-- `__list_add(new, p, n)`: `n->prev = new; new->next = n; new->prev = p; p->next = new`. -/
def link (h : Links α) (new p n : α) : Links α :=
  ⟨update (update h.next new (some n)) p (some new),
    update (update h.prev n (some new)) new (some p)⟩

/-- `list_add_tail(new, hd)`: `__list_add(new, hd->prev, hd)`; a null `hd->prev` faults. -/
def addTail (h : Links α) (new hd : α) : Option (Links α) :=
  (h.prev hd).map fun p => h.link new p hd

/-- `__list_del(p, n)` followed by nulling both pointers of `e`. -/
def unlink (h : Links α) (e p n : α) : Links α :=
  ⟨update (update h.next p (some n)) e none, update (update h.prev n (some p)) e none⟩

/-- `list_del(e)`: `e->next->prev = e->prev; e->prev->next = e->next`, then both pointers of `e`
    are nulled; a null neighbour faults. -/
def del (h : Links α) (e : α) : Option (Links α) := do
  let p ← h.prev e
  let n ← h.next e
  pure (h.unlink e p n)

/-- `list_empty(hd)`. -/
def isEmpty (h : Links α) (hd : α) : Bool := decide (h.next hd = some hd)

@[simp] theorem initHead_next (h : Links α) (x a : α) :
    (h.initHead x).next a = if a = x then some x else h.next a := update_apply ..

@[simp] theorem initHead_prev (h : Links α) (x a : α) :
    (h.initHead x).prev a = if a = x then some x else h.prev a := update_apply ..

@[simp] theorem link_next (h : Links α) (new p n a : α) :
    (h.link new p n).next a = if a = p then some new else if a = new then some n else h.next a := by
  simp only [link, update_apply]

@[simp] theorem link_prev (h : Links α) (new p n a : α) :
    (h.link new p n).prev a = if a = new then some p else if a = n then some new else h.prev a := by
  simp only [link, update_apply]

theorem addTail_eq {h : Links α} {new hd p : α} (hp : h.prev hd = some p) :
    h.addTail new hd = some (h.link new p hd) := by
  simp [addTail, hp]

@[simp] theorem unlink_next (h : Links α) (e p n a : α) :
    (h.unlink e p n).next a = if a = e then none else if a = p then some n else h.next a := by
  simp only [unlink, update_apply]

@[simp] theorem unlink_prev (h : Links α) (e p n a : α) :
    (h.unlink e p n).prev a = if a = e then none else if a = n then some p else h.prev a := by
  simp only [unlink, update_apply]

theorem del_eq {h : Links α} {e p n : α} (hp : h.prev e = some p) (hn : h.next e = some n) :
    h.del e = some (h.unlink e p n) := by
  simp [del, hp, hn]

/-- `list_del` of a node that points to itself, as `INIT_LIST_HEAD` leaves it, nulls that node and
    changes no other. -/
theorem del_self {h h' : Links α} {e : α} (hn : h.next e = some e) (hp : h.prev e = some e)
    (hdel : h.del e = some h') :
    (h'.next e = none ∧ h'.prev e = none) ∧ ∀ a, a ≠ e → h'.next a = h.next a ∧ h'.prev a = h.prev a := by
  rw [del_eq hp hn] at hdel
  cases hdel
  exact ⟨⟨by simp, by simp⟩, fun a ha => by simp [ha]⟩

/-! ### Well-formed rings -/

section Rings

omit [DecidableEq α]

/-- `x` is followed by `y`: `x->next = y` and `y->prev = x`. -/
def Adj (h : Links α) (x y : α) : Prop := h.next x = some y ∧ h.prev y = some x

/-- The list headed by `hd` is well formed and holds `xs`, in order. -/
def Ring (h : Links α) (hd : α) (xs : List α) : Prop :=
  List.IsChain (Adj h) (hd :: xs ++ [hd]) ∧ (hd :: xs).Nodup

/-- A chain reads only the `next` of its non-last nodes and the `prev` of its non-first ones. -/
theorem chain_congr {h h' : Links α} : ∀ {l : List α},
    (∀ a ∈ l.dropLast, h'.next a = h.next a) → (∀ b ∈ l.tail, h'.prev b = h.prev b) →
    (List.IsChain (Adj h') l ↔ List.IsChain (Adj h) l)
  | [], _, _ => by simp
  | [_], _, _ => by simp
  | a :: b :: l, hn, hp => by
    have hab : Adj h' a b ↔ Adj h a b := by
      simp only [Adj, hn a (by simp), hp b (by simp)]
    have hrest : List.IsChain (Adj h') (b :: l) ↔ List.IsChain (Adj h) (b :: l) := chain_congr
      (fun x hx => hn x (by rw [List.dropLast_cons_cons]; exact List.mem_cons_of_mem _ hx))
      (fun y hy => hp y (List.mem_of_mem_tail hy))
    rw [List.isChain_cons_cons, List.isChain_cons_cons, hab, hrest]

/-- A ring depends only on the pointers of its own nodes. -/
theorem ring_congr {h h' : Links α} {hd : α} {xs : List α}
    (hs : ∀ a ∈ hd :: xs, h'.next a = h.next a ∧ h'.prev a = h.prev a) :
    Ring h' hd xs ↔ Ring h hd xs := by
  unfold Ring
  rw [chain_congr (fun a ha => (hs a ?_).1) (fun b hb => (hs b ?_).2)]
  · rwa [List.dropLast_concat] at ha
  · simp only [List.cons_append, List.tail_cons, List.mem_append, List.mem_singleton] at hb
    rcases hb with hb | rfl
    · exact List.mem_cons_of_mem _ hb
    · exact List.mem_cons_self

theorem ring_frame {h h' : Links α} {hd : α} {xs : List α} (hr : Ring h hd xs)
    (hs : ∀ a ∈ hd :: xs, h'.next a = h.next a ∧ h'.prev a = h.prev a) : Ring h' hd xs :=
  (ring_congr hs).2 hr

theorem ring_head_notMem {h : Links α} {hd : α} {xs : List α} (hr : Ring h hd xs) : hd ∉ xs :=
  (List.nodup_cons.1 hr.2).1

/-- The two ends of a cycle: the last node is followed by the head. -/
theorem ring_last_adj {h : Links α} {hd : α} {xs : List α} (hr : Ring h hd xs) :
    Adj h ((hd :: xs).getLast (by simp)) hd := by
  have hc := List.isChain_append.1 hr.1
  exact hc.2.2 _ (List.getLast?_eq_some_getLast _) hd rfl

/-- An element is followed by the next element, or by the head after the last one. -/
theorem ring_adj_mem {h : Links α} {hd y : α} {ys zs : List α} (hr : Ring h hd (ys ++ y :: zs)) :
    ∀ z ∈ (zs ++ [hd]).head?, Adj h y z := by
  have hsplit : hd :: (ys ++ y :: zs) ++ [hd] = (hd :: ys ++ [y]) ++ (zs ++ [hd]) := by simp
  have hc := List.isChain_append.1 (hsplit ▸ hr.1)
  exact hc.2.2 y (by rw [List.getLast?_concat]; rfl)

/-- The head is followed by the first element, or by itself when the ring is empty. -/
theorem ring_adj_head {h : Links α} {hd : α} {xs : List α} (hr : Ring h hd xs) :
    ∀ z ∈ (xs ++ [hd]).head?, Adj h hd z := by
  have hc := List.isChain_cons.1 (show List.IsChain (Adj h) (hd :: (xs ++ [hd])) by simpa using hr.1)
  exact hc.1

theorem ring_next_head {h : Links α} {hd : α} {xs : List α} (hr : Ring h hd xs) :
    h.next hd = (xs ++ [hd]).head? := by
  obtain ⟨z, hz⟩ : ∃ z, (xs ++ [hd]).head? = some z := by cases xs <;> simp
  rw [hz]; exact (ring_adj_head hr z hz).1

theorem ring_next_mem {h : Links α} {hd y : α} {ys zs : List α} (hr : Ring h hd (ys ++ y :: zs)) :
    h.next y = (zs ++ [hd]).head? := by
  obtain ⟨z, hz⟩ : ∃ z, (zs ++ [hd]).head? = some z := by cases zs <;> simp
  rw [hz]; exact (ring_adj_mem hr z hz).1

/-- Whatever the head points to points back at the head. -/
theorem ring_prev_first {h : Links α} {hd y : α} {xs : List α} (hr : Ring h hd xs)
    (hy : h.next hd = some y) : h.prev y = some hd := by
  rw [ring_next_head hr] at hy
  exact (ring_adj_head hr y hy).2

/-- An element of a ring points to another node, never to itself and never to nothing. -/
theorem ring_mem_next {h : Links α} {hd a : α} {xs : List α} (hr : Ring h hd xs) (ha : a ∈ xs) :
    ∃ b, h.next a = some b ∧ b ≠ a := by
  obtain ⟨ys, zs, rfl⟩ := List.append_of_mem ha
  have haz : a ∉ zs := (List.nodup_cons.1 (List.nodup_append.1 (List.nodup_cons.1 hr.2).2).2.1).1
  rw [ring_next_mem hr]
  cases zs with
  | nil => exact ⟨hd, rfl, fun e => ring_head_notMem hr (e ▸ by simp)⟩
  | cons z zs => exact ⟨z, rfl, fun e => haz (e ▸ List.mem_cons_self)⟩

/-- Following the links from a node determines the way to the first occurrence of `b`. -/
theorem chain_adj_unique {h : Links α} {b : α} :
    ∀ {a : α} {l₁ l₂ : List α}, List.IsChain (Adj h) (a :: l₁ ++ [b]) → b ∉ l₁ →
      List.IsChain (Adj h) (a :: l₂ ++ [b]) → b ∉ l₂ → l₁ = l₂
  | _, [], [], _, _, _, _ => rfl
  | _, [], y :: _, h₁, _, h₂, hb₂ => by
    simp only [List.cons_append, List.nil_append, List.isChain_cons_cons] at h₁ h₂
    have hyb : y = b := Option.some.inj (h₂.1.1.symm.trans h₁.1.1)
    exact absurd (hyb ▸ List.mem_cons_self) hb₂
  | _, x :: _, [], h₁, hb₁, h₂, _ => by
    simp only [List.cons_append, List.nil_append, List.isChain_cons_cons] at h₁ h₂
    have hxb : x = b := Option.some.inj (h₁.1.1.symm.trans h₂.1.1)
    exact absurd (hxb ▸ List.mem_cons_self) hb₁
  | _, x :: l₁, y :: l₂, h₁, hb₁, h₂, hb₂ => by
    simp only [List.cons_append, List.isChain_cons_cons] at h₁ h₂
    have hxy : x = y := Option.some.inj (h₁.1.1.symm.trans h₂.1.1)
    subst hxy
    rw [chain_adj_unique h₁.2 (fun hb => hb₁ (List.mem_cons_of_mem _ hb)) h₂.2
      (fun hb => hb₂ (List.mem_cons_of_mem _ hb))]

/-- A head holds at most one ring. -/
theorem ring_unique {h : Links α} {hd : α} {xs ys : List α} (hx : Ring h hd xs)
    (hy : Ring h hd ys) : xs = ys :=
  chain_adj_unique hx.1 (ring_head_notMem hx) hy.1 (ring_head_notMem hy)

/-- A head whose successor does not point back at it heads no ring. -/
theorem not_ring_of_prev_ne {h : Links α} {hd y : α} {xs : List α} (hy : h.next hd = some y)
    (hp : h.prev y ≠ some hd) : ¬ Ring h hd xs :=
  fun hr => hp (ring_prev_first hr hy)

end Rings

instance (h : Links α) : DecidableRel (Adj h) := fun _ _ => inferInstanceAs (Decidable (_ ∧ _))

instance (h : Links α) (hd : α) (xs : List α) : Decidable (Ring h hd xs) :=
  inferInstanceAs (Decidable (_ ∧ _))

omit [DecidableEq α] in
/-- A head that points to itself both ways is an empty ring. -/
theorem ring_nil {h : Links α} {hd : α} (hn : h.next hd = some hd) (hp : h.prev hd = some hd) :
    Ring h hd [] := by
  simp [Ring, Adj, hn, hp]

theorem ring_initHead (h : Links α) (x : α) : Ring (h.initHead x) x [] :=
  ring_nil (by simp) (by simp)

theorem isEmpty_iff {h : Links α} {hd : α} {xs : List α} (hr : Ring h hd xs) :
    h.isEmpty hd = true ↔ xs = [] := by
  rw [isEmpty, decide_eq_true_iff, ring_next_head hr]
  cases xs with
  | nil => simp
  | cons x xs =>
    simp only [List.cons_append, List.head?_cons, Option.some.injEq, reduceCtorEq, iff_false]
    rintro rfl
    exact ring_head_notMem hr List.mem_cons_self

/-- `list_add_tail` on a ring appends the new node; besides it only the head and the last node
    change. -/
theorem ring_addTail {h : Links α} {hd new : α} {xs : List α} (hr : Ring h hd xs)
    (hnew : new ∉ hd :: xs) :
    ∃ h', h.addTail new hd = some h' ∧ Ring h' hd (xs ++ [new]) ∧
      ∀ a ∉ hd :: xs, a ≠ new → h'.next a = h.next a ∧ h'.prev a = h.prev a := by
  -- cut the cycle before its closing link `l → hd`
  obtain ⟨ys, l, hxs⟩ : ∃ ys l, hd :: xs = ys ++ [l] :=
    ⟨_, _, (List.dropLast_append_getLast (l := hd :: xs) (by simp)).symm⟩
  have hc : List.IsChain (Adj h) ((ys ++ [l]) ++ [hd]) := hxs ▸ hr.1
  have hlast : Adj h l hd := (List.isChain_append.1 hc).2.2 l (by simp) hd rfl
  have hnd : (ys ++ [l]).Nodup := hxs ▸ hr.2
  have hmem : ∀ {a}, a ∈ ys ++ [l] → a ∈ hd :: xs := fun ha => hxs ▸ ha
  have hln : l ≠ new := fun e => hnew (hmem (by simp [← e]))
  have hhn : hd ≠ new := fun e => hnew (e ▸ List.mem_cons_self)
  refine ⟨h.link new l hd, addTail_eq hlast.2, ⟨?_, ?_⟩, ?_⟩
  · rw [show hd :: (xs ++ [new]) ++ [hd] = (ys ++ [l]) ++ [new, hd] by
      rw [← hxs]; simp, List.isChain_append]
    refine ⟨?_, by simp [Adj, hln.symm, hhn], ?_⟩
    · -- the old cycle without its closing link is untouched
      refine (chain_congr (fun a ha => ?_) (fun b hb => ?_)).2 (List.isChain_append.1 hc).1
      · rw [List.dropLast_concat] at ha
        have hal : a ≠ l := fun e => (List.nodup_append.1 hnd).2.2 a ha l (by simp) e
        have han : a ≠ new := fun e => hnew (hmem (by simp [← e, ha]))
        simp [hal, han]
      · rw [← hxs, List.tail_cons] at hb
        have hbh : b ≠ hd := fun e => ring_head_notMem hr (e ▸ hb)
        have hbn : b ≠ new := fun e => hnew (e ▸ List.mem_cons_of_mem _ hb)
        simp [hbh, hbn]
    · intro x hx y hy
      simp only [List.getLast?_concat, List.head?_cons, Option.mem_def, Option.some.injEq] at hx hy
      subst hx hy
      simp [Adj]
  · rw [← List.cons_append, List.nodup_append]
    exact ⟨hr.2, List.nodup_singleton _, fun a ha b hb => by
      rw [List.mem_singleton] at hb; subst hb; exact fun e => hnew (e ▸ ha)⟩
  · intro a ha han
    have hal : a ≠ l := fun e => ha (hmem (by simp [e]))
    have hah : a ≠ hd := fun e => ha (e ▸ List.mem_cons_self)
    simp [hal, han, hah]

/-- `list_del` of an element of a ring removes it and nulls its pointers; only its two
    neighbours change besides. -/
theorem ring_del {h : Links α} {hd e : α} {xs : List α} (hr : Ring h hd xs) (he : e ∈ xs) :
    ∃ h', h.del e = some h' ∧ Ring h' hd (xs.erase e) ∧ h'.next e = none ∧ h'.prev e = none ∧
      ∀ a ∉ hd :: xs, h'.next a = h.next a ∧ h'.prev a = h.prev a := by
  obtain ⟨ys, zs, rfl⟩ := List.append_of_mem he
  -- what `Nodup` says about the two sides of `e`
  have hnd : (e :: ((hd :: ys) ++ zs)).Nodup := by
    rw [← List.nodup_middle]; simpa using hr.2
  rw [List.nodup_cons, List.nodup_append] at hnd
  obtain ⟨heo, hys, hzs, hdisj⟩ := hnd
  have hel : e ∉ hd :: ys := fun h' => heo (List.mem_append_left _ h')
  have hez : e ∉ zs := fun h' => heo (List.mem_append_right _ h')
  have hhz : hd ∉ zs := fun h' => hdisj hd List.mem_cons_self hd h' rfl
  -- the cycle is `ps ++ [p] ++ e :: n :: ns`, `p` and `n` being the neighbours of `e`
  obtain ⟨ps, p, hps⟩ : ∃ ps p, hd :: ys = ps ++ [p] :=
    ⟨_, _, (List.dropLast_append_getLast (l := hd :: ys) (by simp)).symm⟩
  obtain ⟨n, ns, hns⟩ : ∃ n ns, zs ++ [hd] = n :: ns := by
    cases zs with
    | nil => exact ⟨hd, [], rfl⟩
    | cons z zs => exact ⟨z, zs ++ [hd], rfl⟩
  have hc : List.IsChain (Adj h) ((ps ++ [p]) ++ e :: n :: ns) := by
    have := hr.1; rwa [show hd :: (ys ++ e :: zs) ++ [hd] = (ps ++ [p]) ++ e :: n :: ns by
      rw [← hns, ← hps]; simp] at this
  rw [List.isChain_split, List.isChain_cons_cons] at hc
  obtain ⟨hcl, hen, hcr⟩ := hc
  have hpe : Adj h p e := (List.isChain_append.1 hcl).2.2 p (by simp) e rfl
  have hpmem : p ∈ hd :: ys := hps ▸ List.mem_append_right _ List.mem_cons_self
  have hnmem : n ∈ zs ++ [hd] := hns ▸ List.mem_cons_self
  have hpe' : p ≠ e := fun h' => hel (h' ▸ hpmem)
  -- every node of `zs ++ [hd]` is in `zs` or is the head
  have hzh : ∀ {b}, b ∈ zs ++ [hd] → b ∈ zs ∨ b = hd := by simp
  have hne' : n ≠ e := by
    rintro rfl; rcases hzh hnmem with h' | h'
    · exact hez h'
    · exact hel (h' ▸ List.mem_cons_self)
  have hnsnd : (n :: ns).Nodup := by
    rw [← hns, List.nodup_append]
    exact ⟨hzs, List.nodup_singleton _, fun a ha b hb => by
      rw [List.mem_singleton] at hb; subst hb; exact fun h' => hhz (h' ▸ ha)⟩
  refine ⟨_, del_eq hpe.2 hen.1, ⟨?_, ?_⟩, by simp, by simp, ?_⟩
  · rw [List.erase_append_right _ (fun h' => hel (List.mem_cons_of_mem _ h')),
      List.erase_cons_head,
      show hd :: (ys ++ zs) ++ [hd] = (ps ++ [p]) ++ n :: ns by rw [← hns, ← hps]; simp,
      List.isChain_append]
    refine ⟨?_, ?_, ?_⟩
    · -- from the head up to `e`'s predecessor nothing changes
      refine (chain_congr (fun a ha => ?_) (fun b hb => ?_)).2 hcl.left_of_append
      · rw [List.dropLast_concat] at ha
        have hap : a ≠ p := fun h' => (List.nodup_append.1 (hps ▸ hys)).2.2 a ha p (by simp) h'
        have hae : a ≠ e := fun h' => hel (h' ▸ hps ▸ List.mem_append_left _ ha)
        simp [hap, hae]
      · rw [← hps, List.tail_cons] at hb
        have hbe : b ≠ e := fun h' => hel (h' ▸ List.mem_cons_of_mem _ hb)
        have hbn : b ≠ n := by
          rintro rfl; rcases hzh hnmem with h' | h'
          · exact hdisj b (List.mem_cons_of_mem _ hb) b h' rfl
          · exact (List.nodup_cons.1 hys).1 (h' ▸ hb)
        simp [hbe, hbn]
    · -- after `e`'s successor nothing changes
      refine (chain_congr (fun a ha => ?_) (fun b hb => ?_)).2 hcr
      · have haz : a ∈ zs := by rw [← hns, List.dropLast_concat] at ha; exact ha
        have hap : a ≠ p := fun h' => hdisj p hpmem a haz h'.symm
        have hae : a ≠ e := fun h' => hez (h' ▸ haz)
        simp [hap, hae]
      · rw [List.tail_cons] at hb
        have hbn : b ≠ n := fun h' => (List.nodup_cons.1 hnsnd).1 (h' ▸ hb)
        have hbe : b ≠ e := by
          rintro rfl; rcases hzh (hns ▸ List.mem_cons_of_mem _ hb) with h' | h'
          · exact hez h'
          · exact hel (h' ▸ List.mem_cons_self)
        simp [hbe, hbn]
    · intro x hx y hy
      simp only [List.getLast?_concat, List.head?_cons, Option.mem_def, Option.some.injEq] at hx hy
      subst hx hy
      simp [Adj, hpe', hne']
  · rw [List.erase_append_right _ (fun h' => hel (List.mem_cons_of_mem _ h')),
      List.erase_cons_head, ← List.cons_append, List.nodup_append]
    exact ⟨hys, hzs, hdisj⟩
  · intro a ha
    have hae : a ≠ e := fun h' => ha (by simp [h'])
    have hap : a ≠ p := fun h' => ha (by
      rcases List.mem_cons.1 (h' ▸ hpmem) with h'' | h''
      · exact h'' ▸ List.mem_cons_self
      · exact List.mem_cons_of_mem _ (List.mem_append_left _ h''))
    have han : a ≠ n := fun h' => ha (by
      rcases hzh (h' ▸ hnmem) with h'' | h''
      · exact List.mem_cons_of_mem _ (List.mem_append_right _ (List.mem_cons_of_mem _ h''))
      · exact h'' ▸ List.mem_cons_self)
    simp [hae, hap, han]

/-! ### Walking a list -/

section Loops

variable {σ : Type}

/-- The loop of `list_for_each_safe(pos, n, hd)`: `pos` is the current node and `n` its successor
    as read before the body ran; a null successor faults and `fuel` bounds the iterations. -/
def forEachSafeLoop (lk : σ → Links α) (hd : α) (body : σ → α → Option σ) :
    Nat → α → Option α → σ → Option σ
  | 0, _, _, _ => none
  | fuel + 1, pos, n, s =>
    if pos = hd then some s else do
      let s' ← body s pos
      let q ← n
      forEachSafeLoop lk hd body fuel q ((lk s').next q) s'

/-- `list_for_each_safe(pos, n, hd) body` run on the state `s`, whose links are `lk s`. -/
def forEachSafe (lk : σ → Links α) (hd : α) (body : σ → α → Option σ) (fuel : Nat) (s : σ) :
    Option σ := do
  let p ← (lk s).next hd
  forEachSafeLoop lk hd body fuel p ((lk s).next p) s

/-- The loop of `list_for_each(pos, hd)` that stops at the first node satisfying `p`; `p` itself
    may fault. -/
def findLoop (h : Links α) (hd : α) (p : α → Option Bool) : Nat → α → Option (Option α)
  | 0, _ => none
  | fuel + 1, pos =>
    if pos = hd then some none else do
      if ← p pos then return some pos
      let q ← h.next pos
      findLoop h hd p fuel q

/-- Search the list headed by `hd` for the first node satisfying `p`. -/
def find (h : Links α) (hd : α) (p : α → Option Bool) (fuel : Nat) : Option (Option α) := do
  let q ← h.next hd
  findLoop h hd p fuel q

/-- On a ring, a body that removes the node it is given makes `list_for_each_safe` a fold over
    the ring's elements, provided the fuel exceeds the ring's length. `Q xs s` is what the loop
    keeps of a state `s` with `xs` left to visit; it includes that `xs` is the ring, and the body
    needs to behave only in the states it describes. -/
theorem forEachSafe_ring {lk : σ → Links α} {hd : α} {body : σ → α → Option σ}
    {Q : List α → σ → Prop} (hring : ∀ {xs s}, Q xs s → Ring (lk s) hd xs)
    (hbody : ∀ {s y ys s'}, Q (y :: ys) s → body s y = some s' → Q ys s') :
    ∀ {xs : List α} {s : σ} {fuel : Nat}, Q xs s → xs.length < fuel →
      forEachSafe lk hd body fuel s = xs.foldlM body s := by
  -- the loop is entered at the first node of what remains, with that node's successor
  have hloop : ∀ (xs : List α) (s : σ) (fuel : Nat) (q : α), Q xs s →
      xs.length < fuel → (xs ++ [hd]).head? = some q →
      forEachSafeLoop lk hd body fuel q ((lk s).next q) s = xs.foldlM body s := by
    intro xs
    induction xs with
    | nil =>
      intro s fuel q _ hf hq
      obtain ⟨fuel, rfl⟩ := Nat.exists_eq_succ_of_ne_zero (by simp at hf; omega : fuel ≠ 0)
      simp only [List.nil_append, List.head?_cons, Option.some.injEq] at hq
      subst hq
      simp [forEachSafeLoop]
    | cons y ys ih =>
      intro s fuel q hQ hf hq
      obtain ⟨fuel, rfl⟩ := Nat.exists_eq_succ_of_ne_zero (by simp at hf; omega : fuel ≠ 0)
      simp only [List.cons_append, List.head?_cons, Option.some.injEq] at hq
      subst hq
      have hr := hring hQ
      have hyh : y ≠ hd := fun e => ring_head_notMem hr (e ▸ List.mem_cons_self)
      have hny : (lk s).next y = (ys ++ [hd]).head? :=
        ring_next_mem (show Ring (lk s) hd ([] ++ y :: ys) from hr)
      obtain ⟨q, hq⟩ : ∃ q, (ys ++ [hd]).head? = some q := by cases ys <;> simp
      simp only [forEachSafeLoop, hyh, if_false, List.foldlM_cons, hny, hq]
      cases hb : body s y with
      | none => rfl
      | some s' => exact ih s' fuel q (hbody hQ hb) (by simp at hf; omega) hq
  intro xs s fuel hQ hf
  obtain ⟨q, hq⟩ : ∃ q, (xs ++ [hd]).head? = some q := by cases xs <;> simp
  simp only [forEachSafe, ring_next_head (hring hQ), hq]
  exact hloop xs s fuel q hQ hf hq

omit [DecidableEq α] in
/-- What each run of the body keeps of the part left to visit holds at the end of the fold. -/
theorem foldlM_inv {body : σ → α → Option σ} {Q : List α → σ → Prop}
    (hbody : ∀ {s y ys s'}, Q (y :: ys) s → body s y = some s' → Q ys s') :
    ∀ {xs : List α} {s s' : σ}, Q xs s → xs.foldlM body s = some s' → Q [] s'
  | [], _, _, hQ, h => by cases h; exact hQ
  | y :: ys, s, s', hQ, h => by
    rw [List.foldlM_cons] at h
    obtain ⟨s₁, hb, h⟩ := Option.bind_eq_some_iff.1 h
    exact foldlM_inv hbody (hbody hQ hb) h

/-- Any property that every run of the body keeps holds after `list_for_each_safe`. -/
theorem forEachSafe_inv {lk : σ → Links α} {hd : α} {body : σ → α → Option σ} {Q : σ → Prop}
    (hQ : ∀ s y s', body s y = some s' → Q s → Q s') {fuel : Nat} {s s' : σ}
    (hrun : forEachSafe lk hd body fuel s = some s') (hs : Q s) : Q s' := by
  have hloop : ∀ fuel pos n s, Q s → forEachSafeLoop lk hd body fuel pos n s = some s' → Q s' := by
    intro fuel
    induction fuel with
    | zero => intro _ _ _ _ h; simp [forEachSafeLoop] at h
    | succ fuel ih =>
      intro pos n s hs h
      simp only [forEachSafeLoop] at h
      split at h
      · cases h; exact hs
      · obtain ⟨s₁, hb, h⟩ := Option.bind_eq_some_iff.1 h
        obtain ⟨q, -, h⟩ := Option.bind_eq_some_iff.1 h
        exact ih _ _ _ (hQ _ _ _ hb hs) h
  obtain ⟨p, -, h⟩ := Option.bind_eq_some_iff.1 hrun
  exact hloop _ _ _ _ hs h

/-- On a ring the search is `List.findM?` over the ring's elements. -/
theorem find_ring {h : Links α} {hd : α} {p : α → Option Bool} :
    ∀ {xs : List α} {fuel : Nat}, Ring h hd xs → xs.length < fuel →
      h.find hd p fuel = xs.findM? p := by
  have hloop : ∀ (xs pre : List α) (fuel : Nat) (q : α), Ring h hd (pre ++ xs) →
      xs.length < fuel → (xs ++ [hd]).head? = some q → findLoop h hd p fuel q = xs.findM? p := by
    intro xs
    induction xs with
    | nil =>
      intro pre fuel q _ hf hq
      obtain ⟨fuel, rfl⟩ := Nat.exists_eq_succ_of_ne_zero (by simp at hf; omega : fuel ≠ 0)
      simp only [List.nil_append, List.head?_cons, Option.some.injEq] at hq
      subst hq
      simp [findLoop, List.findM?]
    | cons y ys ih =>
      intro pre fuel q hr hf hq
      obtain ⟨fuel, rfl⟩ := Nat.exists_eq_succ_of_ne_zero (by simp at hf; omega : fuel ≠ 0)
      simp only [List.cons_append, List.head?_cons, Option.some.injEq] at hq
      subst hq
      have hyh : y ≠ hd := fun e => ring_head_notMem hr (e ▸ by simp)
      obtain ⟨q, hq⟩ : ∃ q, (ys ++ [hd]).head? = some q := by cases ys <;> simp
      have hny : h.next y = some q := by rw [ring_next_mem hr, hq]
      simp only [findLoop, hyh, if_false, List.findM?]
      cases hpy : p y with
      | none => rfl
      | some b =>
        cases b with
        | true => rfl
        | false =>
          simp only [hny]
          exact ih (pre ++ [y]) fuel q (by simpa using hr) (by simp at hf; omega) hq
  intro xs fuel hr hf
  obtain ⟨q, hq⟩ : ∃ q, (xs ++ [hd]).head? = some q := by cases xs <;> simp
  simp only [find, ring_next_head hr, hq]
  exact hloop xs [] fuel q (by simpa using hr) hf hq

/-- A node the search returns satisfies the predicate, whatever shape the list has. -/
theorem find_spec {h : Links α} {hd x : α} {p : α → Option Bool} {fuel : Nat}
    (hf : h.find hd p fuel = some (some x)) : p x = some true := by
  have hloop : ∀ fuel q, findLoop h hd p fuel q = some (some x) → p x = some true := by
    intro fuel
    induction fuel with
    | zero => intro _ h; simp [findLoop] at h
    | succ fuel ih =>
      intro q h
      simp only [findLoop] at h
      split at h
      · simp at h
      · obtain ⟨b, hb, h⟩ := Option.bind_eq_some_iff.1 h
        cases b with
        | true => simp at h; subst h; exact hb
        | false =>
          simp only [Bool.false_eq_true, if_false] at h
          obtain ⟨q', -, h⟩ := Option.bind_eq_some_iff.1 h
          exact ih q' h
  obtain ⟨q, -, h⟩ := Option.bind_eq_some_iff.1 hf
  exact hloop _ _ h

end Loops

end Links
