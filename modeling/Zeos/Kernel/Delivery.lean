import Zeos.Kernel.Write
import Zeos.Kernel.Step
import Zeos.Lib.Fold

/-! # What `sys_write` delivers

The copies of `sys_write` are moves of `Zeos.Lib.Mem` through the table in `cr3`. A byte copy
loop, `copy_from_user` and `rep movsl` with its byte tail all move the whole run when the source
and the target share no physical byte, so the screen methods `copy_from_user` and `rep movsl`
give the same state. The word loop is different: it moves `size / 2` words and extends the sign
of each character into its attribute byte.

The writes of `sys_write` change only memory, and the video page is one page: a write in it
leaves every other byte of it alone. -/

namespace Zeos

namespace Kernel

open Lib.Mem

variable {k k' : Kernel} {d : Slot}

/-! ### Memory through `cr3` -/

@[simp] theorem translate_withMem (k : Kernel) (mem : Nat → Nat) :
    ({ k with mem := mem } : Kernel).translate = k.translate := rfl

theorem readBytes_eq (hd : k.cr3 = some d) (a n : Nat) :
    k.readBytes a n = loads (k.translate d) k.mem a n := by
  simp [readBytes, hd]

theorem writeBytes_eq (hd : k.cr3 = some d) (a : Nat) (bs : List Nat) :
    k.writeBytes a bs = (stores (k.translate d) k.mem a bs).map fun mem => { k with mem := mem } := by
  simp only [writeBytes, hd, Option.bind_eq_bind, Option.bind_some]
  cases stores (k.translate d) k.mem a bs <;> rfl

theorem readByte_eq (hd : k.cr3 = some d) (b : Nat) : k.readByte b = (k.translate d b).map k.mem := by
  simp only [readByte, hd, Option.bind_eq_bind, Option.bind_some]
  cases k.translate d b <;> rfl

theorem moveBytes_eq (hd : k.cr3 = some d) (src dst n : Nat) :
    k.moveBytes src dst n =
      (move (k.translate d) k.mem src dst n).map fun mem => { k with mem := mem } := by
  simp only [moveBytes, readBytes_eq hd, Option.bind_eq_bind, move]
  cases loads (k.translate d) k.mem src n with
  | none => rfl
  | some bs => simp [writeBytes_eq hd]

/-- Two bytes of one page at one physical address are one byte. -/
theorem translate_inj {a b p : Nat} (ha : k.translate d a = some p) (hb : k.translate d b = some p)
    (hab : a / PAGE_SIZE = b / PAGE_SIZE) : a = b := by
  simp only [translate, Option.ite_none_right_eq_some, Option.some.injEq] at ha hb
  rw [hab] at ha
  have := Nat.div_add_mod a PAGE_SIZE
  have := Nat.div_add_mod b PAGE_SIZE
  simp only [PAGE_SIZE] at *
  omega

/-- A run inside one page is one-to-one. -/
theorem oneToOne_of_page {a n : Nat} (h : a % PAGE_SIZE + n ≤ PAGE_SIZE) :
    OneToOne (k.translate d) a n := fun i hi j hj p hpi hpj => by
  have := translate_inj hpi hpj (by simp only [PAGE_SIZE] at *; omega)
  omega

/-- A store in the page of `b` that does not hit `b` leaves it alone. -/
theorem readByte_writeBytes {a b : Nat} {bs : List Nat} (h : k.writeBytes a bs = some k')
    (hb : ∀ i < bs.length, a + i ≠ b ∧ (a + i) / PAGE_SIZE = b / PAGE_SIZE) :
    k'.readByte b = k.readByte b := by
  cases hd : k.cr3 with
  | none => simp [writeBytes, hd] at h
  | some d =>
    rw [writeBytes_eq hd] at h
    obtain ⟨mem, hs, rfl⟩ := Option.map_eq_some_iff.1 h
    rw [readByte_eq (k := { k with mem := mem }) hd, readByte_eq hd]
    show (k.translate d b).map mem = _
    cases hp : k.translate d b with
    | none => rfl
    | some p =>
      simp only [Option.map_some]
      rw [stores_apply_of_apart hs fun i hi e =>
        (hb i hi).1 (translate_inj e hp (hb i hi).2)]

/-! ### Copies are moves -/

theorem copyByteLoop_eq (hd : k.cr3 = some d) {src dst n : Nat}
    (h : Apart (k.translate d) src n dst n) :
    k.copyByteLoop src dst n =
      (move (k.translate d) k.mem src dst n).map fun mem => { k with mem := mem } := by
  induction n generalizing k src dst with
  | zero => rfl
  | succ n ih =>
    have h₁ : Apart (k.translate d) src (1 + n) dst (1 + n) := by rwa [Nat.add_comm 1 n]
    rw [copyByteLoop, moveBytes_eq hd, Nat.add_comm n 1, ← move_add k.mem h₁]
    cases move (k.translate d) k.mem src dst 1 with
    | none => rfl
    | some mem₁ =>
      simp only [Option.map_some, Option.bind_eq_bind, Option.bind_some]
      exact ih (k := { k with mem := mem₁ }) hd h₁.shift

theorem copyFromUser_eq (hd : k.cr3 = some d) {start dest size : Nat}
    (h : Apart (k.translate d) start size dest size) :
    k.copyFromUser start dest size =
      (move (k.translate d) k.mem start dest size).map fun mem => { k with mem := mem } := by
  induction size using Nat.strong_induction_on generalizing k start dest with
  | _ size ih =>
    rw [copyFromUser]
    split
    · -- a `DWord` move, then the rest of the copy
      obtain ⟨n, rfl⟩ : ∃ n, size = 4 + n := ⟨size - 4, by omega⟩
      rw [moveBytes_eq hd, ← move_add k.mem h]
      cases move (k.translate d) k.mem start dest 4 with
      | none => rfl
      | some mem₁ =>
        simp only [Option.map_some, Option.bind_eq_bind, Option.bind_some, Nat.add_sub_cancel_left]
        exact ih n (by omega) (k := { k with mem := mem₁ }) hd h.shift
    · exact copyByteLoop_eq hd h

theorem repMovsl_eq (hd : k.cr3 = some d) {src dst n : Nat}
    (h : Apart (k.translate d) src (4 * n) dst (4 * n)) :
    k.repMovsl src dst n =
      (move (k.translate d) k.mem src dst (4 * n)).map fun mem => { k with mem := mem } := by
  induction n generalizing k src dst with
  | zero => rfl
  | succ n ih =>
    have hsplit : 4 * (n + 1) = 4 + 4 * n := by omega
    rw [hsplit] at h
    rw [repMovsl, moveBytes_eq hd, hsplit, ← move_add k.mem h]
    cases move (k.translate d) k.mem src dst 4 with
    | none => rfl
    | some mem₁ =>
      simp only [Option.map_some, Option.bind_eq_bind, Option.bind_some]
      exact ih (k := { k with mem := mem₁ }) hd h.shift

/-- `rep movsl` and its byte tail move the whole run. -/
theorem screenCopyRepMovsl_eq (hd : k.cr3 = some d) {buffer size : Nat}
    (h : Apart (k.translate d) buffer size VIDEO_MEMORY_BASE size) :
    k.screenCopyRepMovsl buffer size =
      (move (k.translate d) k.mem buffer VIDEO_MEMORY_BASE size).map
        fun mem => { k with mem := mem } := by
  have hsplit : size = 4 * (size / 4) + size % 4 := (Nat.div_add_mod size 4).symm
  have hdw : size / 4 * 4 = 4 * (size / 4) := Nat.mul_comm _ _
  rw [hsplit] at h
  simp only [screenCopyRepMovsl, Option.bind_eq_bind, hdw]
  rw [repMovsl_eq hd (h.mono (by omega) (by omega))]
  split
  · -- the byte tail moves the rest of the run
    conv => rhs; rw [hsplit, ← move_add k.mem h]
    cases move (k.translate d) k.mem buffer VIDEO_MEMORY_BASE (4 * (size / 4)) with
    | none => rfl
    | some mem₁ =>
      simp only [Option.map_some, Option.bind_some]
      exact copyByteLoop_eq (k := { k with mem := mem₁ }) hd h.shift
  · -- no tail: the dwords are the whole run
    have hz : size % 4 = 0 := by omega
    conv => rhs; rw [hsplit, hz, Nat.add_zero]
    cases move (k.translate d) k.mem buffer VIDEO_MEMORY_BASE (4 * (size / 4)) <;> rfl

/-- The `copy_from_user` and `rep movsl` methods copy the same bytes when the buffer shares no
    physical byte with video memory. -/
theorem screenCopyFromUser_eq_repMovsl (hd : k.cr3 = some d) {buffer size : Nat}
    (h : Apart (k.translate d) buffer size VIDEO_MEMORY_BASE size) :
    k.screenCopyFromUser buffer size = k.screenCopyRepMovsl buffer size := by
  rw [screenCopyFromUser, copyFromUser_eq hd h, screenCopyRepMovsl_eq hd h]

/-! ### The device loop -/

theorem sysWriteDev_eq (hd : k.cr3 = some d) (io : Io) (dev : Device) (buffer size : Nat) :
    k.sysWriteDev io dev buffer size =
      (loads (k.translate d) k.mem buffer size).map fun bytes => (size, io.emit dev bytes) := by
  cases dev <;>
  · simp only [sysWriteDev, sysWriteConsole, sysWriteDebug, writeDevice, readBytes_eq hd,
      Option.bind_eq_bind]
    cases loads (k.translate d) k.mem buffer size <;> rfl

/-- The loop of `sys_write` on a mapped user run, with a kernel buffer that is mapped one-to-one
    and apart from the run: the driver receives the run in order, in chunks of one to
    `SYS_BUFFER_SIZE` bytes, and nothing is left. Each round copies a chunk into `buffer_k`, which
    the user run does not see, and the driver reads it back. -/
theorem writeChunks_spec (bufferK : Nat) (dev : Device) :
    ∀ (n : Nat) {k : Kernel} {d : Slot} (io : Io) {buffer : Nat}, k.cr3 = some d →
      OneToOne (k.translate d) bufferK SYS_BUFFER_SIZE →
      Mapped (k.translate d) bufferK SYS_BUFFER_SIZE → Mapped (k.translate d) buffer n →
      Apart (k.translate d) buffer n bufferK SYS_BUFFER_SIZE →
      ∃ (mem : Nat → Nat) (chunks : List (List Nat)), writeChunks bufferK dev k io buffer n =
          some ({ k with mem := mem }, chunks.foldl (fun io c => io.emit dev c) io, 0) ∧
        loads (k.translate d) k.mem buffer n = some chunks.flatten ∧
        ∀ c ∈ chunks, 0 < c.length ∧ c.length ≤ SYS_BUFFER_SIZE := by
  intro n
  induction n using Nat.strong_induction_on with
  | _ n ih =>
  intro k d io buffer hd hKi hKm hm hsep
  rw [writeChunks]
  split
  · -- a full chunk, then the loop on the rest
    obtain ⟨m, rfl⟩ : ∃ m, n = SYS_BUFFER_SIZE + m := ⟨n - SYS_BUFFER_SIZE, by omega⟩
    obtain ⟨mem₁, hmove⟩ := Option.isSome_iff_exists.1
      (move_isSome k.mem (hm.mono (Nat.le_add_right _ _)) hKm)
    obtain ⟨c, hc⟩ := Option.isSome_iff_exists.1
      (loads_isSome k.mem (hm.mono (Nat.le_add_right _ _)))
    have hread : loads (k.translate d) mem₁ bufferK SYS_BUFFER_SIZE = some c :=
      (loads_move_dst hmove hKi).trans hc
    rw [copyFromUser_eq hd (hsep.mono (Nat.le_add_right _ _) le_rfl), hmove]
    simp only [Option.map_some]
    split
    · rename_i hw
      rw [sysWriteDev_eq (k := { k with mem := mem₁ }) hd] at hw
      simp [translate_withMem, hread] at hw
    · rename_i written io₁ hw
      rw [sysWriteDev_eq (k := { k with mem := mem₁ }) hd] at hw
      simp only [translate_withMem, hread, Option.map_some, Option.some.injEq, Prod.mk.injEq] at hw
      obtain ⟨rfl, rfl⟩ := hw
      obtain ⟨mem, chunks, hrun, hl, hlen⟩ := ih m (by simp only [SYS_BUFFER_SIZE]; omega) (k := { k with mem := mem₁ })
        (io.emit dev c) hd hKi hKm hm.drop hsep.drop
      refine ⟨mem, c :: chunks, ?_, ?_, ?_⟩
      · rw [Nat.add_sub_cancel_left]
        exact hrun
      · rw [loads_add, hc, ← loads_move_apart hmove hsep.drop]
        simp only [Option.bind_some]
        rw [show loads (k.translate d) mem₁ (buffer + SYS_BUFFER_SIZE) m = some chunks.flatten from hl]
        simp
      · intro c' hc'
        rcases List.mem_cons.1 hc' with rfl | hc'
        · have := length_of_loads hc
          simp only [SYS_BUFFER_SIZE] at *
          omega
        · exact hlen c' hc'
  · split
    · -- the last chunk
      rename_i hn hpos
      obtain ⟨mem₁, hmove⟩ := Option.isSome_iff_exists.1 (move_isSome k.mem hm
        (hKm.mono (by omega)))
      obtain ⟨c, hc⟩ := Option.isSome_iff_exists.1 (loads_isSome k.mem hm)
      have hread : loads (k.translate d) mem₁ bufferK n = some c :=
        (loads_move_dst hmove (hKi.mono (by omega))).trans hc
      refine ⟨mem₁, [c], ?_, by simpa using hc, ?_⟩
      · rw [copyFromUser_eq hd (hsep.mono le_rfl (by omega)), hmove]
        simp [sysWriteDev_eq (k := { k with mem := mem₁ }) hd, hread]
      · have := length_of_loads hc
        simp only [List.mem_singleton, forall_eq]
        omega
    · -- nothing is left
      obtain rfl : n = 0 := by omega
      exact ⟨k.mem, [], rfl, rfl, by simp⟩

/-! ### The video page -/

/-- `k'` is `k` with other memory, and the video page reads the same from offset `lo` on. -/
def VideoKept (lo : Nat) (k k' : Kernel) : Prop :=
  (∃ mem, k' = { k with mem := mem }) ∧
    ∀ j, lo ≤ j → j < PAGE_SIZE →
      k'.readByte (VIDEO_MEMORY_BASE + j) = k.readByte (VIDEO_MEMORY_BASE + j)

theorem VideoKept.refl (lo : Nat) (k : Kernel) : VideoKept lo k k := ⟨⟨k.mem, rfl⟩, fun _ _ _ => rfl⟩

theorem VideoKept.trans {lo : Nat} {k₁ k₂ k₃ : Kernel} (h₁ : VideoKept lo k₁ k₂)
    (h₂ : VideoKept lo k₂ k₃) : VideoKept lo k₁ k₃ := by
  obtain ⟨⟨m₂, rfl⟩, h₁⟩ := h₁
  obtain ⟨⟨m₃, rfl⟩, h₂⟩ := h₂
  exact ⟨⟨m₃, rfl⟩, fun j hj hj' => (h₂ j hj hj').trans (h₁ j hj hj')⟩

theorem VideoKept.mono {lo lo' : Nat} (hlo : lo ≤ lo') (h : VideoKept lo k k') : VideoKept lo' k k' :=
  ⟨h.1, fun j hj => h.2 j (by omega)⟩

/-- A store at offset `o` of the video page that ends below `lo` keeps the page from `lo` on. -/
theorem videoKept_writeBytes {o lo : Nat} {bs : List Nat}
    (h : k.writeBytes (VIDEO_MEMORY_BASE + o) bs = some k') (hlo : o + bs.length ≤ lo) :
    VideoKept lo k k' := by
  cases hd : k.cr3 with
  | none => simp [writeBytes, hd] at h
  | some d =>
    have hk := h
    rw [writeBytes_eq hd] at hk
    obtain ⟨mem, -, rfl⟩ := Option.map_eq_some_iff.1 hk
    refine ⟨⟨mem, rfl⟩, fun j hj hj' => readByte_writeBytes h fun i hi => ⟨by omega, ?_⟩⟩
    simp only [VIDEO_MEMORY_BASE, PAGE_SIZE] at *
    omega

theorem videoKept_printStringXyLoop {px color : Nat} :
    ∀ {k k' : Kernel} {i : Nat} {str : List Nat},
      printStringXyLoop px 0 color k i str = some k' → VideoKept (2 * NUM_COLUMNS) k k'
  | k, k', _, [], h => by cases h; exact .refl _ _
  | k, k', i, c :: cs, h => by
    simp only [printStringXyLoop] at h
    split at h
    · rename_i hc
      obtain ⟨k₁, h₁, h⟩ := Option.bind_eq_some_iff.1 h
      refine VideoKept.trans (videoKept_writeBytes h₁ ?_) (videoKept_printStringXyLoop h)
      simp only [NUM_COLUMNS, List.length_cons, List.length_nil] at *
      omega
    · cases h
      exact .refl _ _

/-- The time and the frame rate are drawn in the first row. -/
theorem videoKept_drawTimeAndFps {dsp : Display} (h : k.drawTimeAndFps dsp = some k') :
    VideoKept (2 * NUM_COLUMNS) k k' := by
  simp only [drawTimeAndFps, printStringXy, Option.bind_eq_bind] at h
  obtain ⟨k₁, h₁, h⟩ := Option.bind_eq_some_iff.1 h
  exact (videoKept_printStringXyLoop h₁).trans (videoKept_printStringXyLoop h)

/-- The word loop writes the first `2 * (size / 2)` bytes of the video page. -/
theorem videoKept_screenCopyWordLoop {buffer size : Nat} (h : k.screenCopyWordLoop buffer size = some k') :
    VideoKept (2 * (size / 2)) k k' := by
  refine Lib.foldlM_rel (VideoKept (2 * (size / 2))) (VideoKept.refl _) VideoKept.trans ?_ h
  intro u i u' hi hu
  simp only [screenWordStep, Option.bind_eq_bind] at hu
  obtain ⟨lo, -, hu⟩ := Option.bind_eq_some_iff.1 hu
  obtain ⟨hi', -, hu⟩ := Option.bind_eq_some_iff.1 hu
  refine videoKept_writeBytes hu ?_
  simp only [List.mem_range, List.length_cons, List.length_nil] at *
  omega

/-- Byte `i` of a run read through `cr3` is the byte at its address. -/
theorem readByte_of_readBytes {a n : Nat} {bs : List Nat} (h : k.readBytes a n = some bs) {i : Nat}
    (hi : i < n) : k.readByte (a + i) = bs[i]? := by
  cases hd : k.cr3 with
  | none => simp [readBytes, hd] at h
  | some d =>
    rw [readBytes_eq hd] at h
    rw [readByte_eq hd, getElem?_of_loads h hi]

/-- A move to the video page keeps it beyond the moved run. -/
theorem videoKept_move (hd : k.cr3 = some d) {src n : Nat} {mem : Nat → Nat}
    (h : move (k.translate d) k.mem src VIDEO_MEMORY_BASE n = some mem) :
    VideoKept n k { k with mem := mem } := by
  obtain ⟨bs, hl, hs⟩ := Option.bind_eq_some_iff.1 h
  have hlen := length_of_loads hl
  refine ⟨⟨mem, rfl⟩, fun j hj hj' => ?_⟩
  rw [readByte_eq (k := { k with mem := mem }) hd, readByte_eq hd]
  show ((k.translate d) _).map mem = _
  cases hp : k.translate d (VIDEO_MEMORY_BASE + j) with
  | none => rfl
  | some p =>
    simp only [Option.map_some]
    rw [stores_apply_of_apart hs fun i hi e => ?_]
    have := translate_inj e hp (by simp only [VIDEO_MEMORY_BASE, PAGE_SIZE] at *; omega)
    omega

/-! ### `sys_write_screen` -/

/-- A call of `sys_write` on the screen that does not fail is a call of `sys_write_screen`. -/
theorem sysWrite_screen {method : ScreenCopyMethod} {bufferK : Nat} {io io' : Io} {buffer : Nat}
    {size r : Int} (h : k.sysWrite method bufferK io FD_SCREEN buffer size = some (r, k', io'))
    (hr : 0 ≤ r) :
    0 ≤ size ∧ ∃ dsp', k.sysWriteScreen method io.display buffer size.toNat = some (r, k', dsp') ∧
      io' = { io with display := dsp' } := by
  simp only [sysWrite, Option.bind_eq_bind] at h
  split_ifs at h with hs hc hacc hk
  · simp only [pure, Option.some.injEq, Prod.mk.injEq, EINVAL] at h
    omega
  · exact absurd hc (by decide)
  · simp only [pure, Option.some.injEq, Prod.mk.injEq, EFAULT] at h
    omega
  · simp only [pure, Option.some.injEq, Prod.mk.injEq, EINPROGRESS] at h
    omega
  · obtain ⟨⟨r₁, k₁, d₁⟩, h₁, h⟩ := Option.bind_eq_some_iff.1 h
    simp only [pure, Option.some.injEq, Prod.mk.injEq] at h
    obtain ⟨rfl, rfl, rfl⟩ := h
    exact ⟨by omega, d₁, h₁, rfl⟩

theorem sysWriteScreen_spec {method : ScreenCopyMethod} {dsp dsp' : Display} {buffer n : Nat} {r : Int}
    (h : k.sysWriteScreen method dsp buffer n = some (r, k', dsp')) :
    ∃ k₁, k.screenCopy method buffer (min n SCREEN_BUFFER_SIZE) = some k₁ ∧
      k₁.drawTimeAndFps dsp' = some k' ∧ r = min n SCREEN_BUFFER_SIZE ∧
      dsp' = { dsp with frameCount := dsp.frameCount + 1 } := by
  have hcap : (if n > SCREEN_BUFFER_SIZE then SCREEN_BUFFER_SIZE else n) = min n SCREEN_BUFFER_SIZE := by
    split <;> omega
  simp only [sysWriteScreen, hcap, Option.bind_eq_bind] at h
  obtain ⟨k₁, h₁, h⟩ := Option.bind_eq_some_iff.1 h
  obtain ⟨k₂, h₂, h⟩ := Option.bind_eq_some_iff.1 h
  cases h
  exact ⟨k₁, h₁, h₂, by simp, rfl⟩

theorem cap_eq_min (n : Nat) :
    (if n > SCREEN_BUFFER_SIZE then SCREEN_BUFFER_SIZE else n) = min n SCREEN_BUFFER_SIZE := by
  split <;> omega

theorem sysWriteScreen_copyFromUser_eq_repMovsl (hd : k.cr3 = some d) (dsp : Display) {buffer n : Nat}
    (hsep : Apart (k.translate d) buffer (min n SCREEN_BUFFER_SIZE) VIDEO_MEMORY_BASE
      (min n SCREEN_BUFFER_SIZE)) :
    k.sysWriteScreen .SCREEN_METHOD_COPY_FROM_USER dsp buffer n =
      k.sysWriteScreen .SCREEN_METHOD_REP_MOVSL dsp buffer n := by
  simp only [sysWriteScreen, cap_eq_min, screenCopy, screenCopyFromUser_eq_repMovsl hd hsep]

/-- Under `copy_from_user` or `rep movsl` the copy is the move of the run to video memory. -/
theorem screenCopy_eq_move {method : ScreenCopyMethod}
    (hmeth : method = .SCREEN_METHOD_COPY_FROM_USER ∨ method = .SCREEN_METHOD_REP_MOVSL)
    (hd : k.cr3 = some d) {buffer n : Nat}
    (hsep : Apart (k.translate d) buffer n VIDEO_MEMORY_BASE n) :
    k.screenCopy method buffer n =
      (move (k.translate d) k.mem buffer VIDEO_MEMORY_BASE n).map fun mem => { k with mem := mem } := by
  rcases hmeth with rfl | rfl
  · exact copyFromUser_eq hd hsep
  · exact screenCopyRepMovsl_eq hd hsep

/-- A call of `sys_write` on fd 1 or 2 whose checks pass is the loop on the driver of the fd. -/
theorem sysWrite_device {method : ScreenCopyMethod} {bufferK : Nat} (io : Io) {fd : Int}
    {buffer : Nat} {size : Int} (hfd : fd = FD_CONSOLE ∨ fd = FD_DEBUG) (hsize : 0 ≤ size)
    (hacc : accessOk buffer size.toNat = true) (hkbd : k.inKeyboardContext = false) :
    k.sysWrite method bufferK io fd buffer size =
      (writeChunks bufferK (if fd = FD_DEBUG then .debug else .console) k io buffer size.toNat).map
        fun r => (size - r.2.2, r.1, r.2.1) := by
  have hc : checkFd fd O_WRONLY = 0 := by rcases hfd with rfl | rfl <;> decide
  have hs : fd ≠ FD_SCREEN := by rcases hfd with rfl | rfl <;> decide
  simp only [sysWrite, hc, hacc, hkbd, hs, Option.bind_eq_bind]
  simp only [show ¬ size < 0 by omega, if_false, ne_eq, not_true_eq_false, Bool.not_true,
    Bool.false_eq_true]
  cases writeChunks bufferK (if fd = FD_DEBUG then .debug else .console) k io buffer size.toNat <;> rfl

/-- A kernel whose table in `cr3` maps every page to the frame of its own number, with memory
    `mem`: the setting of the witnesses below. -/
def flat (mem : Nat → Nat) : Kernel :=
  { Kernel.zero mem with cr3 := some 0, pagusrTable := fun _ p => ⟨true, true, true, p⟩ }

theorem translate_flat (mem : Nat → Nat) (d : Slot) (a : Nat) : (flat mem).translate d a = some a := by
  simp [flat, translate, Nat.div_add_mod']

theorem flat_mapped (mem : Nat → Nat) (d : Slot) (a n : Nat) : Mapped ((flat mem).translate d) a n :=
  fun i _ => by rw [translate_flat]; rfl

theorem flat_oneToOne (mem : Nat → Nat) (d : Slot) (a n : Nat) :
    OneToOne ((flat mem).translate d) a n := fun i _ j _ p hi hj => by
  rw [translate_flat, Option.some.injEq] at hi hj
  omega

theorem flat_apart (mem : Nat → Nat) (d : Slot) {a m b n : Nat} (h : a + m ≤ b ∨ b + n ≤ a) :
    Apart ((flat mem).translate d) a m b n := fun i _ j _ p hi hj => by
  rw [translate_flat, Option.some.injEq] at hi hj
  omega

end Kernel

/-- `sys_write` on the console or the debug port, from a mapped user buffer and a kernel buffer
    that is mapped one-to-one and shares no physical byte with it, returns `size`, changes nothing
    but memory, and the device receives the buffer's bytes in order in chunks of one to
    `SYS_BUFFER_SIZE` bytes. -/
theorem sysWrite_delivers (method : Kernel.ScreenCopyMethod) (bufferK : Nat) (io : Io) {k : Kernel}
    {d : Slot} {fd : Int} {buffer : Nat} {size : Int} (hfd : fd = FD_CONSOLE ∨ fd = FD_DEBUG)
    (hsize : 0 ≤ size) (hacc : accessOk buffer size.toNat = true)
    (hkbd : k.inKeyboardContext = false) (hd : k.cr3 = some d)
    (hKi : Lib.Mem.OneToOne (k.translate d) bufferK SYS_BUFFER_SIZE)
    (hKm : Lib.Mem.Mapped (k.translate d) bufferK SYS_BUFFER_SIZE)
    (hm : Lib.Mem.Mapped (k.translate d) buffer size.toNat)
    (hsep : Lib.Mem.Apart (k.translate d) buffer size.toNat bufferK SYS_BUFFER_SIZE) :
    ∃ (mem : Nat → Nat) (chunks : List (List Nat)),
      k.sysWrite method bufferK io fd buffer size =
        some (size, { k with mem := mem },
          chunks.foldl (fun io c => io.emit (if fd = FD_DEBUG then .debug else .console) c) io) ∧
      k.readBytes buffer size.toNat = some chunks.flatten ∧
      ∀ c ∈ chunks, 0 < c.length ∧ c.length ≤ SYS_BUFFER_SIZE := by
  obtain ⟨mem, chunks, hrun, hl, hlen⟩ :=
    Kernel.writeChunks_spec bufferK _ size.toNat io hd hKi hKm hm hsep
  refine ⟨mem, chunks, ?_, by rwa [Kernel.readBytes_eq hd], hlen⟩
  rw [Kernel.sysWrite_device io hfd hsize hacc hkbd, hrun]
  simp

/-- Six hundred bytes written to the console arrive in chunks of 256, 256 and 88 bytes. -/
theorem sysWrite_delivers_six_hundred :
    ∃ (mem : Nat → Nat) (chunks : List (List Nat)),
      (Kernel.flat fun a => a % 251).sysWrite .SCREEN_METHOD_REP_MOVSL 0x20000 Io.init FD_CONSOLE
          0x100000 600 =
        some (600, { Kernel.flat (fun a => a % 251) with mem := mem },
          chunks.foldl (fun io c => io.emit (if FD_CONSOLE = FD_DEBUG then .debug else .console) c)
            Io.init) ∧
      (Kernel.flat fun a => a % 251).readBytes 0x100000 (600 : Int).toNat = some chunks.flatten ∧
      ∀ c ∈ chunks, 0 < c.length ∧ c.length ≤ SYS_BUFFER_SIZE :=
  sysWrite_delivers .SCREEN_METHOD_REP_MOVSL 0x20000 Io.init (Or.inl rfl) (by decide) (by decide) rfl
    rfl (Kernel.flat_oneToOne _ _ _ _) (Kernel.flat_mapped _ _ _ _) (Kernel.flat_mapped _ _ _ _)
    (Kernel.flat_apart _ _ (Or.inr (by decide)))

/-- A kernel built with `copy_from_user` for the screen and one built with `rep movsl` give the
    same result for every call of `sys_write` whose buffer shares no physical byte with video
    memory. -/
theorem sysWrite_copyFromUser_eq_repMovsl (bufferK : Nat) (io : Io) {k : Kernel} {d : Slot}
    (fd : Int) (buffer : Nat) (size : Int) (hd : k.cr3 = some d)
    (hsep : Lib.Mem.Apart (k.translate d) buffer (min size.toNat SCREEN_BUFFER_SIZE)
      VIDEO_MEMORY_BASE (min size.toNat SCREEN_BUFFER_SIZE)) :
    k.sysWrite .SCREEN_METHOD_COPY_FROM_USER bufferK io fd buffer size =
      k.sysWrite .SCREEN_METHOD_REP_MOVSL bufferK io fd buffer size := by
  simp only [Kernel.sysWrite, Kernel.sysWriteScreen_copyFromUser_eq_repMovsl hd _ hsep]

/-- A full screen from the user buffer at `L_USER_START`. -/
theorem sysWrite_copyFromUser_eq_repMovsl_full :
    (Kernel.flat fun a => a % 251).sysWrite .SCREEN_METHOD_COPY_FROM_USER 0x20000 Io.init FD_SCREEN
        0x100000 4000 =
      (Kernel.flat fun a => a % 251).sysWrite .SCREEN_METHOD_REP_MOVSL 0x20000 Io.init FD_SCREEN
        0x100000 4000 :=
  sysWrite_copyFromUser_eq_repMovsl 0x20000 Io.init FD_SCREEN 0x100000 4000 rfl
    (Kernel.flat_apart _ _ (Or.inr (by decide)))

/-- `sys_write` on the screen under `copy_from_user` or `rep movsl`: it returns the size capped
    at one screen, counts a frame, changes nothing but memory, and below the first row (where
    the time and the frame rate are drawn) video memory holds the buffer's bytes up to that size
    and is unchanged beyond it. -/
theorem sysWrite_screen_delivers {method : Kernel.ScreenCopyMethod}
    (hmeth : method = .SCREEN_METHOD_COPY_FROM_USER ∨ method = .SCREEN_METHOD_REP_MOVSL)
    (bufferK : Nat) (io : Io) {k k' : Kernel} {io' : Io} {d : Slot} {buffer : Nat} {size r : Int}
    (h : k.sysWrite method bufferK io FD_SCREEN buffer size = some (r, k', io')) (hr : 0 ≤ r)
    (hd : k.cr3 = some d)
    (hsep : Lib.Mem.Apart (k.translate d) buffer (min size.toNat SCREEN_BUFFER_SIZE)
      VIDEO_MEMORY_BASE (min size.toNat SCREEN_BUFFER_SIZE)) :
    r = min size.toNat SCREEN_BUFFER_SIZE ∧
      io' = { io with display := { io.display with frameCount := io.display.frameCount + 1 } } ∧
      (∃ mem, k' = { k with mem := mem }) ∧
      ∀ j, 2 * NUM_COLUMNS ≤ j → j < PAGE_SIZE →
        k'.readByte (VIDEO_MEMORY_BASE + j) =
          if j < min size.toNat SCREEN_BUFFER_SIZE then k.readByte (buffer + j)
          else k.readByte (VIDEO_MEMORY_BASE + j) := by
  obtain ⟨-, dsp', hw, rfl⟩ := Kernel.sysWrite_screen h hr
  obtain ⟨k₁, hcopy, hdraw, rfl, rfl⟩ := Kernel.sysWriteScreen_spec hw
  rw [Kernel.screenCopy_eq_move hmeth hd hsep] at hcopy
  obtain ⟨mem₁, hmove, rfl⟩ := Option.map_eq_some_iff.1 hcopy
  obtain ⟨bs, hl, -⟩ := Option.bind_eq_some_iff.1 hmove
  have hdraw' := Kernel.videoKept_drawTimeAndFps hdraw
  have hkept := Kernel.videoKept_move hd hmove
  -- the video run now reads what the buffer read
  have hvideo : Lib.Mem.loads (k.translate d) mem₁ VIDEO_MEMORY_BASE
      (min size.toNat SCREEN_BUFFER_SIZE) = some bs := by
    rw [Lib.Mem.loads_move_dst hmove (Kernel.oneToOne_of_page (by
      simp only [VIDEO_MEMORY_BASE, SCREEN_BUFFER_SIZE, NUM_COLUMNS, NUM_ROWS, PAGE_SIZE]; omega)), hl]
  refine ⟨rfl, rfl, ⟨_, hdraw'.1.choose_spec.trans rfl⟩, fun j hj hj' => ?_⟩
  rw [hdraw'.2 j hj hj']
  split
  · rename_i hjn
    have h₁ : ({ k with mem := mem₁ } : Kernel).readBytes VIDEO_MEMORY_BASE
        (min size.toNat SCREEN_BUFFER_SIZE) = some bs := by
      rw [Kernel.readBytes_eq (k := { k with mem := mem₁ }) hd]
      exact hvideo
    have h₂ : k.readBytes buffer (min size.toNat SCREEN_BUFFER_SIZE) = some bs := by
      rw [Kernel.readBytes_eq hd]
      exact hl
    rw [Kernel.readByte_of_readBytes h₁ hjn, Kernel.readByte_of_readBytes h₂ hjn]
  · exact hkept.2 j (by omega) hj'

/-- Two rows and a half under `rep movsl`: below the first row, video memory holds the buffer. -/
theorem sysWrite_screen_delivers_two_rows :
    ∃ k' io', (Kernel.flat fun a => a % 251).sysWrite .SCREEN_METHOD_REP_MOVSL 0x20000 Io.init
        FD_SCREEN 0x100000 401 = some (401, k', io') ∧
      ∀ j, 2 * NUM_COLUMNS ≤ j → j < 401 →
        k'.readByte (VIDEO_MEMORY_BASE + j) = (Kernel.flat fun a => a % 251).readByte (0x100000 + j) := by
  obtain ⟨⟨r, k', io'⟩, h⟩ := Option.isSome_iff_exists.1 (show ((Kernel.flat fun a => a % 251).sysWrite
    .SCREEN_METHOD_REP_MOVSL 0x20000 Io.init FD_SCREEN 0x100000 401).isSome = true by decide +kernel)
  have hr : ((Kernel.flat fun a => a % 251).sysWrite .SCREEN_METHOD_REP_MOVSL 0x20000 Io.init
      FD_SCREEN 0x100000 401).map Prod.fst = some 401 := by decide +kernel
  rw [h, Option.map_some, Option.some.injEq] at hr
  subst hr
  obtain ⟨-, -, -, hv⟩ := sysWrite_screen_delivers (Or.inr rfl) 0x20000 Io.init h (by decide) rfl
    (Kernel.flat_apart _ _ (Or.inr (by decide)))
  refine ⟨k', io', h, fun j hj hj' => ?_⟩
  have hmin : min (Int.toNat 401) SCREEN_BUFFER_SIZE = 401 := by decide
  rw [hv j hj (by simp only [PAGE_SIZE]; omega), hmin, if_pos hj']

/-- The word loop of `sys_write_screen` copies `size / 2` words: on an odd size the last byte of
    the buffer does not reach video memory, yet the call returns `size`. -/
theorem word_loop_drops_odd_byte (bufferK : Nat) (k : Kernel) (io : Io) (buffer : Nat) (size : Int)
    {r : Int} {k' : Kernel} {io' : Io}
    (h : k.sysWrite .SCREEN_METHOD_WORD_LOOP bufferK io FD_SCREEN buffer size = some (r, k', io'))
    (hr : 0 ≤ r) (hodd : size % 2 = 1) (hlo : 2 * (NUM_COLUMNS : Int) < size)
    (hhi : size ≤ SCREEN_BUFFER_SIZE) :
    r = size ∧ k'.readByte (VIDEO_MEMORY_BASE + (size.toNat - 1)) =
      k.readByte (VIDEO_MEMORY_BASE + (size.toNat - 1)) := by
  obtain ⟨hs, dsp', hw, -⟩ := Kernel.sysWrite_screen h hr
  obtain ⟨k₁, hcopy, hdraw, rfl, -⟩ := Kernel.sysWriteScreen_spec hw
  have hmin : min size.toNat SCREEN_BUFFER_SIZE = size.toNat := by omega
  rw [hmin] at hcopy
  have hcopy' := Kernel.videoKept_screenCopyWordLoop hcopy
  have hdraw' := Kernel.videoKept_drawTimeAndFps hdraw
  simp only [NUM_COLUMNS, NUM_ROWS, SCREEN_BUFFER_SIZE] at *
  refine ⟨by omega, ?_⟩
  rw [hdraw'.2 _ (by omega) (by simp only [PAGE_SIZE]; omega),
    hcopy'.2 _ (by omega) (by simp only [PAGE_SIZE]; omega)]

/-- An odd size past the first row: the last byte of the buffer differs from what stays in video
    memory. -/
theorem word_loop_drops_odd_byte_161 :
    ∃ k' io', (Kernel.flat fun a => a % 251).sysWrite .SCREEN_METHOD_WORD_LOOP 0x20000 Io.init
        FD_SCREEN 0x100000 161 = some (161, k', io') ∧
      k'.readByte (VIDEO_MEMORY_BASE + 160) =
        (Kernel.flat fun a => a % 251).readByte (VIDEO_MEMORY_BASE + 160) ∧
      (Kernel.flat fun a => a % 251).readByte (0x100000 + 160) ≠
        (Kernel.flat fun a => a % 251).readByte (VIDEO_MEMORY_BASE + 160) := by
  obtain ⟨⟨r, k', io'⟩, h⟩ := Option.isSome_iff_exists.1 (show ((Kernel.flat fun a => a % 251).sysWrite
    .SCREEN_METHOD_WORD_LOOP 0x20000 Io.init FD_SCREEN 0x100000 161).isSome = true by decide +kernel)
  have hr : ((Kernel.flat fun a => a % 251).sysWrite .SCREEN_METHOD_WORD_LOOP 0x20000 Io.init
      FD_SCREEN 0x100000 161).map Prod.fst = some 161 := by decide +kernel
  rw [h, Option.map_some, Option.some.injEq] at hr
  subst hr
  obtain ⟨-, hb⟩ := word_loop_drops_odd_byte 0x20000 _ _ _ _ h (by decide) (by decide) (by decide)
    (by decide)
  exact ⟨k', io', h, hb, by decide⟩

end Zeos
