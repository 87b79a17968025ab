import Mathlib

/-! # Machine words and bit maps

Three small pieces of machine arithmetic. A bit map stores a map from indices to booleans in the
bits of one natural number, so that reading or writing an entry is one arithmetic operation.
`u32` is the C conversion of a signed value to a 32-bit unsigned one, which is how unsigned
subtraction wraps around. `storeWord` writes a 32-bit word into a byte-addressed memory,
least significant byte first. -/

namespace Bitmap

/-- The entry at index `i`. -/
def get (m i : Nat) : Bool := m.testBit i

/-- Set the entry at index `i`. -/
def set (m i : Nat) : Nat := m ||| 2 ^ i

/-- Clear the entry at index `i`. -/
def clear (m i : Nat) : Nat := if m.testBit i then m ^^^ 2 ^ i else m

/-- The map whose entries below `n` are set. -/
def below (n : Nat) : Nat := 2 ^ n - 1

@[simp] theorem get_set (m i j : Nat) : get (set m i) j = (get m j || decide (i = j)) := by
  simp [get, set, Nat.testBit_two_pow]

@[simp] theorem get_clear (m i j : Nat) : get (clear m i) j = (get m j && !decide (i = j)) := by
  unfold get clear
  split
  · rename_i hi
    rw [Nat.testBit_xor, Nat.testBit_two_pow]
    by_cases hij : i = j
    · subst hij; simp [hi]
    · simp [hij]
  · rename_i hi
    by_cases hij : i = j
    · subst hij; simp [hi]
    · simp [hij]

@[simp] theorem get_below (n j : Nat) : get (below n) j = decide (j < n) := by
  simp [get, below]

end Bitmap

/-- A signed value seen as a 32-bit unsigned one. -/
def u32 (x : Int) : Nat := (x % 2 ^ 32).toNat

theorem u32_of_lt {x : Int} (h0 : 0 ≤ x) (h1 : x < 2 ^ 32) : u32 x = x.toNat := by
  rw [u32, Int.emod_eq_of_lt h0 h1]

/-- Store the 32-bit word `w` at byte address `a`, least significant byte first. -/
def storeWord (mem : Nat → Nat) (a w : Nat) : Nat → Nat :=
  fun b => if a ≤ b ∧ b < a + 4 then w / 256 ^ (b - a) % 256 else mem b

theorem storeWord_other {mem : Nat → Nat} {a w b : Nat} (h : b < a ∨ a + 4 ≤ b) :
    storeWord mem a w b = mem b := by
  simp only [storeWord]
  split
  · omega
  · rfl
