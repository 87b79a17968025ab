import Mathlib

/-! # Byte memory behind an address translation

A memory `mem : Nat → Nat` holds one byte at each physical address, and a program reaches it
through a partial translation `tr` of its own addresses, which faults where it is `none`. `loads`
reads a run of consecutive addresses, `stores` writes one, and `move` is a load of a run followed
by its store elsewhere.

A store leaves alone every physical byte it does not hit (`stores_apply_of_apart`); a run stored
and read back gives its bytes when the translation is one-to-one on it (`loads_stores_self`); and
a copy cut into consecutive pieces is the copy in one piece when source and target share no
physical byte (`move_add`). -/

namespace Zeos.Lib.Mem

open Function

variable (tr : Nat → Option Nat)

/-- The bytes at `a, a + 1, ..., a + n - 1`. -/
def loads (mem : Nat → Nat) (a : Nat) : Nat → Option (List Nat)
  | 0 => some []
  | n + 1 => (tr a).bind fun p => (loads mem (a + 1) n).map (mem p :: ·)

/-- Store the bytes `bs` at `a, a + 1, ...`, in that order. -/
def stores (mem : Nat → Nat) (a : Nat) : List Nat → Option (Nat → Nat)
  | [] => some mem
  | b :: bs => (tr a).bind fun p => stores (update mem p b) (a + 1) bs

/-- Load `n` bytes at `src`, then store them at `dst`. -/
def move (mem : Nat → Nat) (src dst n : Nat) : Option (Nat → Nat) :=
  (loads tr mem src n).bind (stores tr mem dst)

/-- No byte of `[a, a + m)` is at the physical address of a byte of `[b, b + n)`. -/
def Apart (a m b n : Nat) : Prop :=
  ∀ i < m, ∀ j < n, ∀ p, tr (a + i) = some p → tr (b + j) ≠ some p

/-- No two bytes of `[a, a + n)` are at one physical address. -/
def OneToOne (a n : Nat) : Prop :=
  ∀ i < n, ∀ j < n, ∀ p, tr (a + i) = some p → tr (a + j) = some p → i = j

/-- Every byte of `[a, a + n)` is mapped. -/
def Mapped (a n : Nat) : Prop := ∀ i < n, (tr (a + i)).isSome

variable {tr}

/-- The tails of two runs that are apart are apart. -/
theorem Apart.shift {a b m n : Nat} (h : Apart tr a (m + n) b (m + n)) :
    Apart tr (a + m) n (b + m) n := fun i hi j hj p hp e =>
  h (m + i) (by omega) (m + j) (by omega) p (by rwa [← Nat.add_assoc]) (by rwa [← Nat.add_assoc])

theorem Apart.mono {a b m n m' n' : Nat} (h : Apart tr a m b n) (hm : m' ≤ m) (hn : n' ≤ n) :
    Apart tr a m' b n' := fun i hi j hj => h i (by omega) j (by omega)

theorem Apart.drop {a b m n l : Nat} (h : Apart tr a (m + n) b l) : Apart tr (a + m) n b l :=
  fun i hi j hj p hp => h (m + i) (by omega) j hj p (by rwa [← Nat.add_assoc])

theorem OneToOne.mono {a n n' : Nat} (h : OneToOne tr a n) (hn : n' ≤ n) : OneToOne tr a n' :=
  fun i hi j hj => h i (by omega) j (by omega)

theorem Mapped.mono {a n n' : Nat} (h : Mapped tr a n) (hn : n' ≤ n) : Mapped tr a n' :=
  fun i hi => h i (by omega)

theorem Mapped.drop {a m n : Nat} (h : Mapped tr a (m + n)) : Mapped tr (a + m) n :=
  fun i hi => by simpa [Nat.add_assoc] using h (m + i) (by omega)

@[simp] theorem loads_zero (mem : Nat → Nat) (a : Nat) : loads tr mem a 0 = some [] := rfl

@[simp] theorem stores_nil (mem : Nat → Nat) (a : Nat) : stores tr mem a [] = some mem := rfl

theorem loads_succ (mem : Nat → Nat) (a n : Nat) :
    loads tr mem a (n + 1) =
      (tr a).bind fun p => (loads tr mem (a + 1) n).map (mem p :: ·) := rfl

theorem length_of_loads {mem : Nat → Nat} {a n : Nat} {bs : List Nat}
    (h : loads tr mem a n = some bs) : bs.length = n := by
  induction n generalizing a bs with
  | zero => cases h; rfl
  | succ n ih =>
    rw [loads_succ] at h
    obtain ⟨p, -, h⟩ := Option.bind_eq_some_iff.1 h
    obtain ⟨bs', h', rfl⟩ := Option.map_eq_some_iff.1 h
    simp [ih h']

theorem loads_add (mem : Nat → Nat) (a m n : Nat) :
    loads tr mem a (m + n) =
      (loads tr mem a m).bind fun l₁ => (loads tr mem (a + m) n).map (l₁ ++ ·) := by
  induction m generalizing a with
  | zero =>
    rw [Nat.zero_add, Nat.add_zero]
    cases loads tr mem a n <;> simp
  | succ m ih =>
    rw [Nat.add_right_comm, loads_succ, loads_succ, ih, Nat.add_right_comm a 1 m]
    cases tr a with
    | none => rfl
    | some p =>
      simp only [Option.bind_some]
      cases loads tr mem (a + 1) m <;> cases loads tr mem (a + m + 1) n <;> simp

theorem stores_append (mem : Nat → Nat) (a : Nat) (l₁ l₂ : List Nat) :
    stores tr mem a (l₁ ++ l₂) =
      (stores tr mem a l₁).bind fun mem' => stores tr mem' (a + l₁.length) l₂ := by
  induction l₁ generalizing mem a with
  | nil => rfl
  | cons b l₁ ih =>
    simp only [List.cons_append, stores, List.length_cons]
    cases tr a with
    | none => rfl
    | some p =>
      simp only [Option.bind_some, ih]
      rw [Nat.add_assoc, Nat.add_comm 1]

/-- Byte `i` of a run is the byte at its address. -/
theorem getElem?_of_loads {mem : Nat → Nat} {a n : Nat} {bs : List Nat}
    (h : loads tr mem a n = some bs) {i : Nat} (hi : i < n) : (tr (a + i)).map mem = bs[i]? := by
  induction n generalizing a bs i with
  | zero => omega
  | succ n ih =>
    rw [loads_succ] at h
    obtain ⟨p, hp, h⟩ := Option.bind_eq_some_iff.1 h
    obtain ⟨bs', h', rfl⟩ := Option.map_eq_some_iff.1 h
    cases i with
    | zero => simp [hp]
    | succ i =>
      rw [List.getElem?_cons_succ, ← ih h' (by omega), Nat.add_right_comm, Nat.add_assoc]

/-- Whether a run can be read depends on the translation only. -/
theorem isSome_loads (mem mem' : Nat → Nat) (a n : Nat) :
    (loads tr mem a n).isSome = (loads tr mem' a n).isSome := by
  induction n generalizing a with
  | zero => rfl
  | succ n ih =>
    rw [loads_succ, loads_succ]
    cases tr a with
    | none => rfl
    | some p => simpa using ih (a + 1)

/-- A run reads the same from two memories that agree on its physical bytes. -/
theorem loads_congr {mem mem' : Nat → Nat} {a n : Nat}
    (h : ∀ i < n, ∀ p, tr (a + i) = some p → mem p = mem' p) :
    loads tr mem a n = loads tr mem' a n := by
  induction n generalizing a with
  | zero => rfl
  | succ n ih =>
    rw [loads_succ, loads_succ]
    have hrest : loads tr mem (a + 1) n = loads tr mem' (a + 1) n :=
      ih fun i hi p hp => h (i + 1) (by omega) p (by rwa [← Nat.add_assoc, Nat.add_right_comm])
    cases hp : tr a with
    | none => rfl
    | some p =>
      simp only [Option.bind_some, hrest, h 0 (by omega) p (by simpa using hp)]

/-- A store changes no physical byte outside the translation of its run. -/
theorem stores_apply_of_apart {mem mem' : Nat → Nat} {a : Nat} {bs : List Nat} {p : Nat}
    (h : stores tr mem a bs = some mem') (hp : ∀ j < bs.length, tr (a + j) ≠ some p) :
    mem' p = mem p := by
  induction bs generalizing mem a with
  | nil => cases h; rfl
  | cons b bs ih =>
    simp only [stores] at h
    obtain ⟨q, hq, h⟩ := Option.bind_eq_some_iff.1 h
    have hqp : q ≠ p := fun e => hp 0 (by simp) (by simpa [e] using hq)
    rw [ih h fun j hj => by simpa [Nat.add_assoc, Nat.add_comm 1] using hp (j + 1) (by simpa using hj),
      update_of_ne hqp.symm]

/-- A run that is stored and read back gives its bytes when no two of them share a physical
    address. -/
theorem loads_stores_self {mem mem' : Nat → Nat} {a : Nat} {bs : List Nat}
    (hinj : OneToOne tr a bs.length) (h : stores tr mem a bs = some mem') :
    loads tr mem' a bs.length = some bs := by
  induction bs generalizing mem a with
  | nil => rfl
  | cons b bs ih =>
    simp only [stores] at h
    obtain ⟨q, hq, h⟩ := Option.bind_eq_some_iff.1 h
    have hinj' : OneToOne tr (a + 1) bs.length := fun i hi j hj p hpi hpj => by
      have := hinj (i + 1) (by simp; omega) (j + 1) (by simp; omega) p
        (by rwa [← Nat.add_assoc, Nat.add_right_comm]) (by rwa [← Nat.add_assoc, Nat.add_right_comm])
      omega
    -- the first byte sits at `q`, which no later byte of the run overwrites
    have hfirst : mem' q = b := by
      rw [stores_apply_of_apart h fun j hj e =>
        absurd (hinj 0 (by simp) (j + 1) (by simp; omega) q (by simpa using hq)
          (by rwa [← Nat.add_assoc, Nat.add_right_comm])) (by omega)]
      simp
    simp [loads_succ, hq, ih hinj' h, hfirst]

/-- A store succeeds on a mapped run. -/
theorem stores_isSome (mem : Nat → Nat) {a : Nat} {bs : List Nat} (h : Mapped tr a bs.length) :
    (stores tr mem a bs).isSome := by
  induction bs generalizing mem a with
  | nil => rfl
  | cons b bs ih =>
    obtain ⟨p, hp⟩ := Option.isSome_iff_exists.1 (by simpa using h 0 (by simp))
    simp only [stores, hp, Option.bind_some]
    exact ih _ fun j hj => by
      simpa [Nat.add_assoc, Nat.add_comm 1] using h (j + 1) (by simpa using hj)

/-- A load succeeds on a mapped run. -/
theorem loads_isSome (mem : Nat → Nat) {a n : Nat} (h : Mapped tr a n) :
    (loads tr mem a n).isSome := by
  induction n generalizing a with
  | zero => rfl
  | succ n ih =>
    obtain ⟨p, hp⟩ := Option.isSome_iff_exists.1 (by simpa using h 0 (by omega))
    have := ih (a := a + 1) fun j hj => by
      simpa [Nat.add_assoc, Nat.add_comm 1] using h (j + 1) (by omega)
    rw [loads_succ, hp]
    simpa using this

/-- Two consecutive moves are one move when the source run shares no physical byte with the
    target run. -/
theorem move_add (mem : Nat → Nat) {src dst m n : Nat} (h : Apart tr src (m + n) dst (m + n)) :
    (move tr mem src dst m).bind (fun mem' => move tr mem' (src + m) (dst + m) n) =
      move tr mem src dst (m + n) := by
  simp only [move, loads_add]
  cases h₁ : loads tr mem src m with
  | none => rfl
  | some l₁ =>
    simp only [Option.bind_some]
    have hl₁ := length_of_loads h₁
    cases h₂ : stores tr mem dst l₁ with
    | none =>
      cases loads tr mem (src + m) n <;> simp [stores_append, h₂]
    | some mem₁ =>
      -- the second piece of the source is read before and after the first store alike
      have hsame : loads tr mem₁ (src + m) n = loads tr mem (src + m) n :=
        loads_congr fun i hi p hp => stores_apply_of_apart h₂ fun j hj e =>
          h (m + i) (by omega) j (by omega) p (by rwa [← Nat.add_assoc]) e
      simp only [Option.bind_some, hsame]
      cases loads tr mem (src + m) n <;> simp [stores_append, h₂, hl₁]

/-- After a move, the target run reads what the source run read, when the target run is
    one-to-one. -/
theorem loads_move_dst {mem mem' : Nat → Nat} {src dst n : Nat} (h : move tr mem src dst n = some mem')
    (hinj : OneToOne tr dst n) : loads tr mem' dst n = loads tr mem src n := by
  obtain ⟨bs, hl, hs⟩ := Option.bind_eq_some_iff.1 h
  have hlen := length_of_loads hl
  subst hlen
  rw [loads_stores_self hinj hs, hl]

/-- A move leaves alone a run that is apart from its target. -/
theorem loads_move_apart {mem mem' : Nat → Nat} {src dst n a m : Nat} (h : move tr mem src dst n = some mem')
    (hsep : Apart tr a m dst n) : loads tr mem' a m = loads tr mem a m := by
  obtain ⟨bs, hl, hs⟩ := Option.bind_eq_some_iff.1 h
  have hlen := length_of_loads hl
  exact loads_congr fun i hi p hp =>
    stores_apply_of_apart hs fun j hj => hsep i hi j (by omega) p hp

/-- A move between mapped runs succeeds. -/
theorem move_isSome (mem : Nat → Nat) {src dst n : Nat} (hs : Mapped tr src n)
    (hd : Mapped tr dst n) :
    (move tr mem src dst n).isSome := by
  obtain ⟨bs, hl⟩ := Option.isSome_iff_exists.1 (loads_isSome mem hs)
  have hlen := length_of_loads hl
  subst hlen
  simpa [move, hl] using stores_isSome mem hd

end Zeos.Lib.Mem
