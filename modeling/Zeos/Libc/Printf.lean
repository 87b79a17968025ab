import Mathlib

/-! # ZeOS libc: `prints` and `printd`

`prints` and `printd` of `libc.c` format into a static buffer of `PRINTF_BUFFER_SIZE` bytes and
pass what they wrote to `write(1, ...)` and `write(2, ...)`. The buffer is filled in order, so
it is the list of the bytes written so far; a write is at the index `buf_idx`, the list's
length. The format is the bytes of the C string before its NUL; the variadic arguments are
the values the conversions read with `va_arg`, a missing or mismatched one (undefined in C)
reading as zero.

The loop stops when `PRINTF_BUFFER_SIZE - 1` bytes are written, and every copy loop inside a
conversion checks the same bound, so the output is the reference rendering cut to that
length. -/

namespace Zeos.Libc

def PRINTF_BUFFER_SIZE : Nat := 256

/-- A variadic argument, with the type the conversion that reads it takes. -/
inductive PrintfArg
  | int (v : Int32)
  | uint (v : UInt32)
  | str (s : List Char)
  | char (c : Char)
  deriving DecidableEq, Repr

def PrintfArg.asInt : PrintfArg → Option Int32
  | .int v => some v
  | _ => none

def PrintfArg.asUInt : PrintfArg → Option UInt32
  | .uint v => some v
  | _ => none

def PrintfArg.asStr : PrintfArg → Option (List Char)
  | .str s => some s
  | _ => none

def PrintfArg.asChar : PrintfArg → Option Char
  | .char c => some c
  | _ => none

/-- `va_arg(args, T)`: the next argument, read as a `T`. -/
def vaArg {α : Type} (get : PrintfArg → Option α) (dflt : α) :
    List PrintfArg → α × List PrintfArg
  | a :: args => ((get a).getD dflt, args)
  | [] => (dflt, [])

/-- `(uval % 10) + '0'`. -/
def digitOf (u : UInt32) : Char := Char.ofNat (48 + u.toNat)

/-- The conversion loop `while (uval > 0 && i < 15)` into `num_buf`. The copy loop reads
`num_buf` back from its end, so the digits are kept here in that order, the last one computed
first. -/
def numBufLoop : Nat → UInt32 → List Char → List Char
  | 0, _, acc => acc
  | n + 1, uval, acc =>
    if uval > 0 then numBufLoop n (uval / 10) (digitOf (uval % 10) :: acc) else acc

def numDigits (uval : UInt32) : List Char :=
  if uval = 0 then ['0'] else numBufLoop 15 uval []

/-- A copy loop `while (... && buf_idx < PRINTF_BUFFER_SIZE - 1) buf[buf_idx++] = ...`. -/
def copyBounded : List Char → List Char → List Char
  | [], buf => buf
  | c :: s, buf =>
    if buf.length < PRINTF_BUFFER_SIZE - 1 then copyBounded s (buf ++ [c]) else buf

/-- The `%s` copy loop, which also stops at the string's NUL. -/
def copyString : List Char → List Char → List Char
  | [], buf => buf
  | c :: s, buf =>
    if c ≠ '\x00' ∧ buf.length < PRINTF_BUFFER_SIZE - 1 then copyString s (buf ++ [c])
    else buf

/-- The `switch` on the character after a `%`: the buffer and the arguments left. -/
def printfConversion (d : Char) (args : List PrintfArg) (buf : List Char) :
    List Char × List PrintfArg :=
  match d with
  | 'd' =>
    let (val, args) := vaArg PrintfArg.asInt 0 args
    let isNeg := decide (val < 0)
    let uval : UInt32 := if isNeg then -val.toUInt32 else val.toUInt32
    let buf := if isNeg ∧ buf.length < PRINTF_BUFFER_SIZE - 1 then buf ++ ['-'] else buf
    (copyBounded (numDigits uval) buf, args)
  | 'u' =>
    let (uval, args) := vaArg PrintfArg.asUInt 0 args
    (copyBounded (numDigits uval) buf, args)
  | 's' =>
    let (str, args) := vaArg PrintfArg.asStr [] args
    (copyString str buf, args)
  | 'c' =>
    let (c, args) := vaArg PrintfArg.asChar '\x00' args
    (buf ++ [c], args)
  | '%' => (buf ++ ['%'], args)
  | d =>
    let buf := buf ++ ['%']
    (if buf.length < PRINTF_BUFFER_SIZE - 1 then buf ++ [d] else buf, args)

/-- The loop of `prints` and `printd`: a `%` with a character after it is a conversion,
anything else is copied; the loop stops at the NUL or when the buffer is full. -/
def printfLoop : List Char → List PrintfArg → List Char → List Char
  | [], _, buf => buf
  | '%' :: d :: fmt, args, buf =>
    if ¬buf.length < PRINTF_BUFFER_SIZE - 1 then buf
    else if d = '\x00' then printfLoop (d :: fmt) args (buf ++ ['%'])
    else
      let (buf, args) := printfConversion d args buf
      printfLoop fmt args buf
  | c :: fmt, args, buf =>
    if c = '\x00' ∨ ¬buf.length < PRINTF_BUFFER_SIZE - 1 then buf
    else printfLoop fmt args (buf ++ [c])

/-- `if (buf_idx > 0) write(fd, buf, buf_idx)`. -/
def printfWrite (fd : Int) (buf : List Char) : Option (Int × List Char) :=
  if buf.length > 0 then some (fd, buf) else none

def prints (fmt : List Char) (args : List PrintfArg) : Option (Int × List Char) :=
  printfWrite 1 (printfLoop fmt args [])

def printd (fmt : List Char) (args : List PrintfArg) : Option (Int × List Char) :=
  printfWrite 2 (printfLoop fmt args [])

/-! ### The reference rendering -/

/-- What a conversion renders, and the arguments it leaves: `%d` in decimal with a `-` for a
negative number, `%u` in decimal, `%s` the string, `%c` the character, `%%` a `%`, and `%`
with any other character both characters. -/
def renderConversion (d : Char) (args : List PrintfArg) : List Char × List PrintfArg :=
  match d, args with
  | 'd', .int v :: args => ((if v < 0 then ['-'] else []) ++ Nat.toDigits 10 v.toInt.natAbs, args)
  | 'u', .uint v :: args => (Nat.toDigits 10 v.toNat, args)
  | 's', .str s :: args => (s, args)
  | 'c', .char c :: args => ([c], args)
  | '%', args => (['%'], args)
  | d, args => (['%', d], args)

def referenceRendering : List Char → List PrintfArg → List Char
  | [], _ => []
  | '%' :: d :: fmt, args =>
    let (r, args) := renderConversion d args
    r ++ referenceRendering fmt args
  | c :: fmt, args => c :: referenceRendering fmt args

def takesArg (d : Char) : Bool := d = 'd' || d = 'u' || d = 's' || d = 'c'

/-- The argument a conversion reads has the conversion's type; a string has no NUL. -/
def PrintfArg.fits : Char → PrintfArg → Bool
  | 'd', .int _ => true
  | 'u', .uint _ => true
  | 's', .str s => !s.contains '\x00'
  | 'c', .char _ => true
  | _, _ => false

/-- The arguments match the format's conversions. -/
def argsMatch : List Char → List PrintfArg → Bool
  | [], _ => true
  | '%' :: d :: fmt, args =>
    if takesArg d then
      match args with
      | a :: args => PrintfArg.fits d a && argsMatch fmt args
      | [] => false
    else argsMatch fmt args
  | _ :: fmt, args => argsMatch fmt args

/-! ### Copy loops -/

/-- Cutting a list before appending to it does not change the cut of the whole. -/
theorem take_append_take_self {α : Type} (l r : List α) (n : Nat) :
    (l.take n ++ r).take n = (l ++ r).take n := by
  rw [List.take_append, List.take_append, List.take_take, min_self, List.length_take]
  by_cases h : l.length ≤ n
  · rw [min_eq_right h]
  · rw [min_eq_left (by omega), Nat.sub_self, Nat.sub_eq_zero_of_le (by omega)]

/-- A bounded copy into a buffer not yet past the bound is the cut of the copied bytes. -/
theorem copyBounded_eq (s buf : List Char) (h : buf.length ≤ PRINTF_BUFFER_SIZE - 1) :
    copyBounded s buf = (buf ++ s).take (PRINTF_BUFFER_SIZE - 1) := by
  induction s generalizing buf with
  | nil => simp [copyBounded, List.take_of_length_le h]
  | cons c s ih =>
    rw [copyBounded]
    split_ifs with hb
    · rw [ih _ (by simp; omega)]
      simp
    · rw [List.take_append_of_le_length (by omega), List.take_of_length_le (by omega)]

theorem copyString_eq (s buf : List Char) (hs : '\x00' ∉ s) : copyString s buf = copyBounded s buf := by
  induction s generalizing buf with
  | nil => rfl
  | cons c s ih =>
    have hc : c ≠ '\x00' := fun h => hs (h ▸ List.mem_cons_self ..)
    rw [copyString, copyBounded, ih _ (fun h => hs (List.mem_cons_of_mem _ h))]
    simp [hc]

/-! ### Digits -/

theorem digitOf_eq {u : UInt32} (h : u.toNat < 10) : digitOf u = Nat.digitChar u.toNat := by
  unfold digitOf
  generalize u.toNat = d at h ⊢
  revert d
  decide

theorem numBufLoop_zero (n : Nat) (acc : List Char) : numBufLoop n 0 acc = acc := by
  cases n <;> simp [numBufLoop]

/-- The conversion loop writes the decimal digits of a positive number that has at most as many
digits as the loop has rounds. -/
theorem numBufLoop_eq (n : Nat) (u : UInt32) (acc : List Char) (hu : 0 < u.toNat)
    (hn : u.toNat < 10 ^ n) : numBufLoop n u acc = Nat.toDigits 10 u.toNat ++ acc := by
  induction n generalizing u acc with
  | zero => simp at hn; omega
  | succ n ih =>
    have hd : (u % 10).toNat = u.toNat % 10 := UInt32.toNat_mod u 10
    have hq : (u / 10).toNat = u.toNat / 10 := UInt32.toNat_div u 10
    have hlt : u.toNat % 10 < 10 := Nat.mod_lt _ (by decide)
    rw [numBufLoop, if_pos (UInt32.lt_iff_toNat_lt.mpr (by simpa using hu)), digitOf_eq (hd ▸ hlt), hd]
    by_cases hs : u.toNat < 10
    · have h0 : u / 10 = 0 := UInt32.toNat_inj.mp (by rw [hq]; simp; omega)
      rw [h0, numBufLoop_zero, Nat.toDigits_of_lt_base hs, Nat.mod_eq_of_lt hs]
      rfl
    · have hn' : u.toNat / 10 < 10 ^ n := by
        rw [Nat.div_lt_iff_lt_mul (by decide), ← pow_succ]
        exact hn
      rw [ih _ _ (by rw [hq]; omega) (hq ▸ hn')]
      have hcat := Nat.toDigits_append_toDigits (by decide : 1 < 10) (by omega : 0 < u.toNat / 10) hlt
      rw [Nat.toDigits_of_lt_base hlt, Nat.div_add_mod] at hcat
      rw [hq, ← hcat, List.append_assoc]
      rfl

theorem numDigits_eq (u : UInt32) : numDigits u = Nat.toDigits 10 u.toNat := by
  unfold numDigits
  split_ifs with h
  · subst h
    decide
  · have hu : 0 < u.toNat := by
      have : u.toNat ≠ 0 := fun h0 => h (UInt32.toNat_inj.mp (by simpa using h0))
      omega
    rw [numBufLoop_eq 15 u [] hu (lt_of_lt_of_le (UInt32.toNat_lt u) (by decide)), List.append_nil]

/-- `-(unsigned int)val` for a negative `val`, `(unsigned int)val` otherwise: the absolute value,
`INT_MIN` included. -/
theorem toNat_abs_toUInt32 (v : Int32) :
    (if v < 0 then -v.toUInt32 else v.toUInt32).toNat = v.toInt.natAbs := by
  have hu : v.toUInt32.toNat = v.toBitVec.toNat := rfl
  have hi := Int32.toInt_toBitVec v
  rw [BitVec.toInt_eq_toNat_cond] at hi
  have hlt := v.toBitVec.isLt
  split_ifs with hneg
  · have hv : v.toInt < 0 := by simpa using Int32.lt_iff_toInt_lt.mp hneg
    rw [UInt32.toNat_neg, hu]
    simp only [UInt32.size]
    split_ifs at hi <;> omega
  · have hv : 0 ≤ v.toInt := by
      have := mt Int32.lt_iff_toInt_lt.mpr hneg
      simp at this
      omega
    rw [hu]
    split_ifs at hi <;> omega

/-! ### Conversions -/

theorem renderConversion_other {d : Char} (args : List PrintfArg) (h1 : d = 'd' → False)
    (h2 : d = 'u' → False) (h3 : d = 's' → False) (h4 : d = 'c' → False) (h5 : d = '%' → False) :
    renderConversion d args = (['%', d], args) := by
  unfold renderConversion
  split <;> simp_all

/-- A conversion with a matching argument appends what it renders, cut at the bound. -/
theorem printfConversion_eq (d : Char) (args : List PrintfArg) (buf : List Char)
    (hb : buf.length < PRINTF_BUFFER_SIZE - 1)
    (ha : takesArg d = true → ∃ a rest, args = a :: rest ∧ PrintfArg.fits d a = true) :
    printfConversion d args buf =
      ((buf ++ (renderConversion d args).1).take (PRINTF_BUFFER_SIZE - 1),
        (renderConversion d args).2) := by
  unfold printfConversion
  split
  · obtain ⟨a, rest, rfl, hfit⟩ := ha rfl
    cases a <;> simp [PrintfArg.fits] at hfit
    rename_i v
    rw [show vaArg PrintfArg.asInt 0 (.int v :: rest) = (v, rest) from rfl]
    simp only [renderConversion, decide_eq_true_eq]
    rw [numDigits_eq, toNat_abs_toUInt32]
    by_cases hneg : v < 0
    · rw [if_pos ⟨hneg, hb⟩, if_pos hneg, copyBounded_eq _ _ (by simp; omega), List.append_assoc]
    · rw [if_neg (fun h => hneg h.1), if_neg hneg, copyBounded_eq _ _ hb.le, List.nil_append]
  · obtain ⟨a, rest, rfl, hfit⟩ := ha rfl
    cases a <;> simp [PrintfArg.fits] at hfit
    rename_i u
    rw [show vaArg PrintfArg.asUInt 0 (.uint u :: rest) = (u, rest) from rfl]
    simp only [renderConversion]
    rw [numDigits_eq, copyBounded_eq _ _ hb.le]
  · obtain ⟨a, rest, rfl, hfit⟩ := ha rfl
    cases a <;> simp [PrintfArg.fits] at hfit
    rename_i str
    rw [show vaArg PrintfArg.asStr [] (.str str :: rest) = (str, rest) from rfl]
    simp only [renderConversion]
    rw [copyString_eq _ _ hfit, copyBounded_eq _ _ hb.le]
  · obtain ⟨a, rest, rfl, hfit⟩ := ha rfl
    cases a <;> simp [PrintfArg.fits] at hfit
    rename_i c
    rw [show vaArg PrintfArg.asChar '\x00' (.char c :: rest) = (c, rest) from rfl]
    simp only [renderConversion]
    rw [List.take_of_length_le (by simp; omega)]
  · simp only [renderConversion]
    rw [List.take_of_length_le (by simp; omega)]
  · next h1 h2 h3 h4 h5 =>
    rw [renderConversion_other args h1 h2 h3 h4 h5]
    dsimp only
    by_cases hb' : buf.length + 1 < PRINTF_BUFFER_SIZE - 1
    · rw [if_pos (by simpa using hb'), List.take_of_length_le (by simp; omega), List.append_assoc]
      rfl
    · rw [if_neg (by simpa using hb'), List.take_append, List.take_of_length_le (by omega)]
      have h1 : PRINTF_BUFFER_SIZE - 1 - buf.length = 1 := by omega
      rw [h1]
      rfl

/-! ### The loop -/

theorem referenceRendering_lit {c : Char} {fmt : List Char} (args : List PrintfArg)
    (h : ∀ d fmt', c = '%' → fmt = d :: fmt' → False) :
    referenceRendering (c :: fmt) args = c :: referenceRendering fmt args :=
  referenceRendering.eq_3 args c fmt h

theorem argsMatch_lit {c : Char} {fmt : List Char} (args : List PrintfArg)
    (h : ∀ d fmt', c = '%' → fmt = d :: fmt' → False) :
    argsMatch (c :: fmt) args = argsMatch fmt args := by
  rw [argsMatch.eq_4 _ _ _ h]

theorem renderConversion_fits {d : Char} {a : PrintfArg} (rest : List PrintfArg)
    (h : PrintfArg.fits d a = true) : (renderConversion d (a :: rest)).2 = rest := by
  unfold PrintfArg.fits at h
  split at h <;> first | rfl | simp at h

theorem renderConversion_no_arg {d : Char} (args : List PrintfArg) (h : takesArg d = false) :
    (renderConversion d args).2 = args := by
  simp only [takesArg, Bool.or_eq_false_iff, decide_eq_false_iff_not] at h
  by_cases hp : d = '%'
  · subst hp
    simp [renderConversion]
  · rw [renderConversion_other args h.1.1.1 h.1.1.2 h.1.2 h.2 hp]

/-- What matching arguments give a conversion: the argument it reads, and arguments that match
the rest of the format. -/
theorem argsMatch_conv {d : Char} {fmt : List Char} {args : List PrintfArg}
    (h : argsMatch ('%' :: d :: fmt) args = true) :
    (takesArg d = true → ∃ a rest, args = a :: rest ∧ PrintfArg.fits d a = true) ∧
      argsMatch fmt (renderConversion d args).2 = true := by
  cases ht : takesArg d
  · refine ⟨fun h' => absurd h' (by simp), ?_⟩
    rw [renderConversion_no_arg args ht]
    cases args with
    | nil => rwa [argsMatch.eq_3, if_neg (by simp [ht])] at h
    | cons a rest => rwa [argsMatch.eq_2, if_neg (by simp [ht])] at h
  · cases args with
    | nil => simp [argsMatch, ht] at h
    | cons a rest =>
      rw [argsMatch.eq_2, if_pos ht, Bool.and_eq_true] at h
      exact ⟨fun _ => ⟨a, rest, rfl, h.1⟩, by rw [renderConversion_fits rest h.1]; exact h.2⟩

/-- The loop's buffer is the reference rendering after it, cut at the bound. -/
theorem printfLoop_eq (fmt : List Char) (args : List PrintfArg) (buf : List Char)
    (hf : '\x00' ∉ fmt) (ha : argsMatch fmt args = true)
    (hb : buf.length ≤ PRINTF_BUFFER_SIZE - 1) :
    printfLoop fmt args buf = (buf ++ referenceRendering fmt args).take (PRINTF_BUFFER_SIZE - 1) := by
  fun_induction printfLoop fmt args buf with
  | case1 => simp [referenceRendering, List.take_of_length_le hb]
  | case2 d fmt args buf hfull => exact (List.take_left' (by omega)).symm
  | case3 fmt args buf _ => exact absurd (List.mem_cons_of_mem _ List.mem_cons_self) hf
  | case4 d fmt args buf hroom hd str args' hconv ih =>
    obtain ⟨hfit, hrest⟩ := argsMatch_conv ha
    rw [printfConversion_eq d args buf (by omega) hfit, Prod.mk.injEq] at hconv
    obtain ⟨rfl, rfl⟩ := hconv
    rw [ih (fun h => hf (List.mem_cons_of_mem _ (List.mem_cons_of_mem _ h))) hrest (by simp),
      take_append_take_self, List.append_assoc]
    rfl
  | case5 c fmt args buf hlit hstop =>
    rcases hstop with rfl | hfull
    · exact absurd List.mem_cons_self hf
    · exact (List.take_left' (by omega)).symm
  | case6 c fmt args buf hlit hgo ih =>
    rw [argsMatch_lit args hlit] at ha
    rw [ih (fun h => hf (List.mem_cons_of_mem _ h)) ha (by simp; omega),
      referenceRendering_lit args hlit, List.append_assoc, List.singleton_append]

/-- `prints` and `printd` pass to `write` the reference rendering cut to
`PRINTF_BUFFER_SIZE - 1` bytes, nothing when that is empty, and never fill the buffer past that
many bytes: every byte is written at the buffer's length before it. -/
theorem printf_writes_truncated_reference (fmt : List Char) (args : List PrintfArg)
    (hf : '\x00' ∉ fmt) (ha : argsMatch fmt args = true) :
    let out := (referenceRendering fmt args).take (PRINTF_BUFFER_SIZE - 1)
    prints fmt args = (if out = [] then none else some (1, out)) ∧
      printd fmt args = (if out = [] then none else some (2, out)) ∧
      (printfLoop fmt args []).length ≤ PRINTF_BUFFER_SIZE - 1 := by
  intro out
  have hl : printfLoop fmt args [] = out := by
    rw [printfLoop_eq fmt args [] hf ha (by simp), List.nil_append]
  have hw : ∀ fd, printfWrite fd out = if out = [] then none else some (fd, out) := by
    intro fd
    unfold printfWrite
    by_cases h : out = []
    · rw [if_pos h, if_neg (by simp [h])]
    · rw [if_neg h, if_pos (List.length_pos_iff.mpr h)]
  refine ⟨by rw [prints, hl, hw], by rw [printd, hl, hw], ?_⟩
  rw [hl]
  exact List.length_take_le _ _

theorem printf_writes_int_min :
    '\x00' ∉ ['%', 'd'] ∧ argsMatch ['%', 'd'] [.int (-2147483648)] = true ∧
      prints ['%', 'd'] [.int (-2147483648)] = some (1, "-2147483648".toList) := by
  refine ⟨by decide, by decide, ?_⟩
  rw [(printf_writes_truncated_reference ['%', 'd'] [.int (-2147483648)] (by decide)
    (by decide)).1]
  decide

end Zeos.Libc
