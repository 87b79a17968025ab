import Mathlib

/-! # Dig Dug: numbers as fixed-width text

`ui_number_to_string` of `game_ui.c` and `render_number_padded_char` of `game_render.c` write a
number right-aligned into the cells `0 .. digits - 1` of a char buffer: a digit loop from the
last cell, then, for a negative number padded with spaces, a sign loop that puts `-` before the
first cell below `digits - 1` that is not a space, then the terminating NUL at `digits`.

The buffer is the list of the writes made to it, the latest first, so that a write outside
`buffer[0 .. digits]` stays visible; a cell reads as its latest write. The C `int` is `Int32`,
whose negation wraps as the compiled code does. -/

namespace Zeos.Game

/-- The writes to a char buffer, the latest first, at their indices. -/
abbrev CharWrites := List (Int × Char)

/-- A cell's content: its latest write, if any. -/
def readBuf : CharWrites → Int → Option Char
  | [], _ => none
  | (i, c) :: w, k => if i = k then some c else readBuf w k

/-- The cells `0 .. n - 1`. -/
def bufText (w : CharWrites) (n : Nat) : List (Option Char) :=
  (List.range n).map fun (k : Nat) => readBuf w k

/-- `'0' + (number % 10)`. -/
def digitChar (r : Int32) : Char := Char.ofNat (48 + r.toInt).toNat

/-- The digit loop of `ui_number_to_string`; with `i + 1` rounds left the cell is `i`. A zero
number still writes its one digit `0`. -/
def uiFillLoop (padChar : Char) : Nat → Int32 → Bool → CharWrites → CharWrites
  | 0, _, _, w => w
  | i + 1, number, hasDigit, w =>
    if number > 0 ∨ hasDigit = false then
      uiFillLoop padChar i (number / 10) true ((i, digitChar (number % 10)) :: w)
    else uiFillLoop padChar i number hasDigit ((i, padChar) :: w)

/-- The digit loop of `render_number_padded_char`, which has no `has_digit` flag. -/
def renderFillLoop (padChar : Char) : Nat → Int32 → CharWrites → CharWrites
  | 0, _, w => w
  | i + 1, number, w =>
    if number > 0 then
      renderFillLoop padChar i (number / 10) ((i, digitChar (number % 10)) :: w)
    else renderFillLoop padChar i number ((i, padChar) :: w)

/-- The sign loop `for (i = 0; i < digits - 1; i++)` of both functions: the first cell that is
not a space. -/
def firstNonSpace (w : CharWrites) (digits : Int) : Option Nat :=
  (List.range (digits - 1).toNat).find? fun (i : Nat) => readBuf w i != some ' '

def uiNumberToString (number : Int32) (digits : Int) (padChar : Char) : CharWrites :=
  let negative := decide (number < 0)
  let number := if negative then -number else number
  let w := uiFillLoop padChar digits.toNat number false []
  let w :=
    if negative ∧ padChar = ' ' then
      match firstNonSpace w digits with
      | some i => if i > 0 then ((i : Int) - 1, '-') :: w else (0, '-') :: w
      | none => w
    else w
  (digits, '\x00') :: w

def renderNumberPaddedChar (number : Int32) (digits : Int) (padChar : Char) : CharWrites :=
  let negative := decide (number < 0)
  let number := if negative then -number else number
  let w := renderFillLoop padChar digits.toNat number []
  let w :=
    if negative ∧ padChar = ' ' then
      match firstNonSpace w digits with
      | some i => ((i : Int) - 1, '-') :: w
      | none => w
    else w
  (digits, '\x00') :: w

/-- The text both functions are meant to write: the decimal digits of `n`, after a `-` when
`n` is negative, right-aligned in `digits` cells and padded with `pad`. -/
def referenceNumber (n : Int) (digits : Nat) (pad : Char) : List Char :=
  let body := (if n < 0 then ['-'] else []) ++ Nat.toDigits 10 n.natAbs
  List.replicate (digits - body.length) pad ++ body

/-! ### Reading the buffer -/

/-- The cells `0 .. k - 1`, each written with `pad`, in the order the digit loops leave them. -/
def padWrites (pad : Char) (k : Nat) : CharWrites :=
  (List.range k).map fun i => ((i : Int), pad)

theorem padWrites_succ (pad : Char) (k : Nat) (w : CharWrites) :
    padWrites pad (k + 1) ++ w = padWrites pad k ++ ((k : Int), pad) :: w := by
  simp [padWrites, List.range_succ]

theorem readBuf_padWrites (pad : Char) (k : Nat) (w : CharWrites) (j : Int) :
    readBuf (padWrites pad k ++ w) j = if 0 ≤ j ∧ j < k then some pad else readBuf w j := by
  induction k generalizing w with
  | zero => simp [padWrites]
  | succ k ih =>
    rw [padWrites_succ, ih, readBuf]
    by_cases hj : j = k
    · simp [hj]
    · have hj' : ¬(k : Int) = j := Ne.symm hj
      simp only [hj', if_false]
      split_ifs <;> first | rfl | omega

/-- The text of `k` pads before one character at cell `k`, under a NUL at `k + 1`. -/
theorem bufText_padded (pad c : Char) (k : Nat) :
    bufText (((k : Int) + 1, '\x00') :: (padWrites pad k ++ [((k : Int), c)])) (k + 1) =
      (List.replicate k pad ++ [c]).map some := by
  unfold bufText
  rw [List.range_succ, List.map_append, List.map_append, List.map_replicate]
  congr 1
  · apply List.ext_getElem (by simp)
    intro i hi _
    have hik : i < k := by simpa using hi
    simp [readBuf, readBuf_padWrites, hik]
    omega
  · simp [readBuf, readBuf_padWrites]

/-! ### The digit loops once the number is spent -/

theorem uiFillLoop_spent (pad : Char) (k : Nat) (w : CharWrites) :
    uiFillLoop pad k 0 true w = padWrites pad k ++ w := by
  induction k generalizing w with
  | zero => simp [uiFillLoop, padWrites]
  | succ k ih =>
    rw [uiFillLoop, if_neg (by decide), ih, padWrites_succ]

theorem renderFillLoop_spent (pad : Char) (k : Nat) (w : CharWrites) :
    renderFillLoop pad k 0 w = padWrites pad k ++ w := by
  induction k generalizing w with
  | zero => simp [renderFillLoop, padWrites]
  | succ k ih =>
    rw [renderFillLoop, if_neg (by decide), ih, padWrites_succ]

theorem uiFillLoop_one_digit (pad : Char) (k : Nat) {a : Int32} (ha : 0 < a) (h10 : a / 10 = 0) :
    uiFillLoop pad (k + 1) a false [] = padWrites pad k ++ [((k : Int), digitChar (a % 10))] := by
  rw [uiFillLoop, if_pos (.inl ha), h10, uiFillLoop_spent]

theorem renderFillLoop_one_digit (pad : Char) (k : Nat) {a : Int32} (ha : 0 < a)
    (h10 : a / 10 = 0) :
    renderFillLoop pad (k + 1) a [] = padWrites pad k ++ [((k : Int), digitChar (a % 10))] := by
  rw [renderFillLoop, if_pos ha, h10, renderFillLoop_spent]

/-- The sign loop finds no cell that is not a space among the pads. -/
theorem firstNonSpace_padWrites (k : Nat) (c : Char) :
    firstNonSpace (padWrites ' ' k ++ [((k : Int), c)]) ((k : Int) + 1) = none := by
  unfold firstNonSpace
  rw [List.find?_eq_none]
  intro i hi
  rw [List.mem_range] at hi
  have hik : i < k := by omega
  simp [readBuf_padWrites, hik]

/-! ### Negative numbers of one digit -/

/-- The negative numbers of one digit, `-9 .. -1`, negated without overflow into one digit. -/
theorem neg_one_digit {n : Int32} (hn : -10 < n ∧ n < 0) :
    n.toInt < 0 ∧ 0 < -n ∧ -n / 10 = 0 ∧ digitChar (-n % 10) = Nat.digitChar n.toInt.natAbs ∧
      n.toInt.natAbs < 10 := by
  have h1 := Int32.lt_iff_toInt_lt.mp hn.1
  have h2 := Int32.lt_iff_toInt_lt.mp hn.2
  rw [show (-10 : Int32).toInt = -10 by decide] at h1
  rw [show (0 : Int32).toInt = 0 by decide] at h2
  rw [← Int32.ofInt_toInt n]
  generalize n.toInt = t at h1 h2 ⊢
  interval_cases t <;> decide

/-- Both functions drop the sign of `-9 .. -1` in every width from two: the sign loop stops
before the last cell, the only one that is not a space, while the reference text has the sign
just before the digit. -/
theorem small_negative_drops_sign (n : Int32) (hn : -10 < n ∧ n < 0) (digits : Int)
    (hd : 2 ≤ digits) :
    bufText (uiNumberToString n digits ' ') digits.toNat =
        (List.replicate (digits.toNat - 1) ' ' ++ [Nat.digitChar n.toInt.natAbs]).map some ∧
      bufText (renderNumberPaddedChar n digits ' ') digits.toNat =
        (List.replicate (digits.toNat - 1) ' ' ++ [Nat.digitChar n.toInt.natAbs]).map some ∧
      referenceNumber n.toInt digits.toNat ' ' =
        List.replicate (digits.toNat - 2) ' ' ++ ['-', Nat.digitChar n.toInt.natAbs] := by
  obtain ⟨hneg, hpos, h10, hc, habs⟩ := neg_one_digit hn
  obtain ⟨k, rfl⟩ : ∃ k : Nat, digits = (k : Int) + 1 := ⟨(digits - 1).toNat, by omega⟩
  have hkn : ((k : Int) + 1).toNat = k + 1 := by omega
  refine ⟨?_, ?_, ?_⟩
  · simp only [uiNumberToString, hn.2, decide_true, if_true, hkn, uiFillLoop_one_digit ' ' k hpos h10,
      firstNonSpace_padWrites, and_self]
    rw [bufText_padded, hc, Nat.add_sub_cancel]
  · simp only [renderNumberPaddedChar, hn.2, decide_true, if_true, hkn,
      renderFillLoop_one_digit ' ' k hpos h10, firstNonSpace_padWrites, and_self]
    rw [bufText_padded, hc, Nat.add_sub_cancel]
  · simp [referenceNumber, hneg, hkn, Nat.toDigits_of_lt_base habs]

theorem small_negative_drops_sign_at_five :
    (-10 < (-5 : Int32) ∧ (-5 : Int32) < 0) ∧ (2 : Int) ≤ 3 ∧
      bufText (uiNumberToString (-5) 3 ' ') (3 : Int).toNat =
        (List.replicate ((3 : Int).toNat - 1) ' ' ++
          [Nat.digitChar (-5 : Int32).toInt.natAbs]).map some :=
  ⟨⟨by decide, by decide⟩, by decide,
    (small_negative_drops_sign (-5) ⟨by decide, by decide⟩ 3 (by decide)).1⟩

/-! ### Zero -/

theorem uiFillLoop_zero (pad : Char) (k : Nat) :
    uiFillLoop pad (k + 1) 0 false [] = padWrites pad k ++ [((k : Int), '0')] := by
  rw [uiFillLoop, if_pos (.inr rfl), show (0 : Int32) / 10 = 0 by decide, uiFillLoop_spent]
  rfl

theorem uiFillLoop_index (pad : Char) (k : Nat) (a : Int32) (h : Bool) (w : CharWrites) :
    ∀ p ∈ uiFillLoop pad k a h w, (0 ≤ p.1 ∧ p.1 < k) ∨ p ∈ w := by
  induction k generalizing a h w with
  | zero => exact fun p hp => .inr hp
  | succ k ih =>
    intro p hp
    rw [uiFillLoop] at hp
    split_ifs at hp <;> rcases ih _ _ _ p hp with hk | hw
    all_goals first
      | exact .inl ⟨hk.1, by omega⟩
      | rcases List.mem_cons.mp hw with rfl | hw
        · exact .inl ⟨by omega, by omega⟩
        · exact .inr hw

/-- `ui_number_to_string` writes only in `buffer[0 .. digits]`: the sign goes one cell before
a cell below `digits - 1`, or to cell `0`. -/
theorem uiNumberToString_in_buffer (number : Int32) (digits : Int) (pad : Char)
    (hd : 0 ≤ digits) : ∀ p ∈ uiNumberToString number digits pad, 0 ≤ p.1 ∧ p.1 ≤ digits := by
  intro p hp
  have hfill : ∀ a, ∀ p ∈ uiFillLoop pad digits.toNat a false [], 0 ≤ p.1 ∧ p.1 ≤ digits := by
    intro a p hp
    rcases uiFillLoop_index pad digits.toNat a false [] p hp with hk | hw
    · omega
    · simp at hw
  simp only [uiNumberToString, List.mem_cons] at hp
  rcases hp with rfl | hp
  · exact ⟨hd, le_rfl⟩
  split_ifs at hp
  all_goals try exact hfill _ p hp
  -- what is left writes the sign
  all_goals
    split at hp
    · next i hi =>
      have hlt := List.mem_range.mp (List.mem_of_find?_eq_some hi)
      split_ifs at hp <;> rcases List.mem_cons.mp hp with rfl | hp
      all_goals first | exact hfill _ p hp | exact ⟨by omega, by omega⟩
    · exact hfill _ p hp

/-- At `-99` in two cells the first cell is already a digit, and `render_number_padded_char`
writes the sign at `buffer[-1]`. -/
theorem render_writes_before_buffer :
    ((-1 : Int), '-') ∈ renderNumberPaddedChar (-99) 2 ' ' := by
  decide

end Zeos.Game
