import Zeos.Kernel.Helpers
import Zeos.Lib.Mem

/-! # `sys_write` and the screen (`sys.c`, `devices.c`, `screen.c`, `kernel_helpers.c`, `io.c`)

`sys_write(fd, buffer, size)` checks the size, the descriptor (`check_fd`), the user range
(`access_ok`) and the keyboard context, and then either hands the buffer to `sys_write_screen`
(fd 10) or copies it into the kernel buffer `buffer_k` in chunks of `SYS_BUFFER_SIZE` bytes, each
passed to the console (fd 1) or to the debug port (fd 2). `sys_write_screen` caps the size at one
screen and copies the buffer into video memory by one of three compile-time methods: a loop of
words, `copy_from_user`, or `rep movsl` with a byte loop for the rest; then it draws the time and
the frame rate over the first row.

Every access goes through the MMU with the page table in `cr3`, as `Zeos.Lib.Mem` models it:
user bytes, `buffer_k` (whose link address is a parameter) and video memory alike. The console
and the debug port are what they receive, one list of bytes per call of their driver; the cursor
and scrolling of `printc` are not modelled. The clock's `update_time_and_fps` is here too, as the
function that makes the strings `draw_time_and_fps` shows. -/

namespace Zeos

open Function

/-! ### Constants -/

def EBADF : Int := 9
def EACCES : Int := 13
def FD_CONSOLE : Int := 1
def FD_DEBUG : Int := 2
def FD_SCREEN : Int := 10
def O_WRONLY : Int := 1
def SYS_BUFFER_SIZE : Nat := 256
def NUM_COLUMNS : Nat := 80
def NUM_ROWS : Nat := 25
def SCREEN_BUFFER_SIZE : Nat := NUM_COLUMNS * NUM_ROWS * 2
def VIDEO_MEMORY_BASE : Nat := 0xb8000
/-- `TICKS_PER_SECOND` is `(int)(BASE_TICKS_PER_SECOND * TIME_ADJUSTMENT)`, `(int)(1000 * 0.32)`. -/
def TICKS_PER_SECOND : Int := 320
def FPS_UPDATE_INTERVAL : Int := 1000
def TIME_DISPLAY_X : Nat := 0
def TIME_DISPLAY_Y : Nat := 0
def FPS_DISPLAY_X : Nat := NUM_COLUMNS - 9
def FPS_DISPLAY_Y : Nat := 0

/-- `MAKE_COLOR(background, text)`. -/
def makeColor (background text : Nat) : Nat := ((background &&& 0xF) <<< 12) ||| ((text &&& 0xF) <<< 8)

def TIME_DISPLAY_COLOR : Nat := makeColor 0x0 0xB
def FPS_DISPLAY_COLOR : Nat := makeColor 0x0 0xE

/-- `check_fd(fd, permissions)`. -/
def checkFd (fd permissions : Int) : Int :=
  if fd ≠ FD_CONSOLE ∧ fd ≠ FD_DEBUG ∧ fd ≠ FD_SCREEN then -EBADF
  else if permissions ≠ O_WRONLY then -EACCES
  else 0

/-! ### The time display -/

/-- The statics of `screen.c` and `kernel_helpers.c` behind the time and frame-rate display; the
    two strings are the whole `char` arrays, terminating NUL included. -/
structure Display where
  frameCount : Int
  lastFpsUpdateTick : Int
  lastFrameCount : Int
  currentFps : Int
  cachedTime : List Nat
  cachedFps : List Nat

/-- The initial values: `"0000:000"` and `"    0 FPS"`. -/
def Display.init : Display where
  frameCount := 0
  lastFpsUpdateTick := 0
  lastFrameCount := 0
  currentFps := 0
  cachedTime := [48, 48, 48, 48, 58, 48, 48, 48, 0]
  cachedFps := [32, 32, 32, 32, 48, 32, 70, 80, 83, 0]

/-- A digit character, `'0' + d`. -/
def asciiDigit (d : Int) : Nat := (48 + d).toNat

/-- `update_time_and_fps()` at tick count `zeosTicks`. -/
def updateTimeAndFps (zeosTicks : Int) (d : Display) : Display :=
  let totalSeconds := zeosTicks.tdiv TICKS_PER_SECOND
  let seconds := totalSeconds.tmod 10000
  let remainingTicks := zeosTicks.tmod TICKS_PER_SECOND
  let milliseconds := (remainingTicks * 1000).tdiv TICKS_PER_SECOND
  let cachedTime :=
    [asciiDigit ((seconds.tdiv 1000).tmod 10), asciiDigit ((seconds.tdiv 100).tmod 10),
     asciiDigit ((seconds.tdiv 10).tmod 10), asciiDigit (seconds.tmod 10), 58,
     asciiDigit (milliseconds.tdiv 100), asciiDigit ((milliseconds.tdiv 10).tmod 10),
     asciiDigit (milliseconds.tmod 10), 0]
  let d := if zeosTicks - d.lastFpsUpdateTick ≥ FPS_UPDATE_INTERVAL then
      { d with currentFps := d.frameCount - d.lastFrameCount, lastFrameCount := d.frameCount,
               lastFpsUpdateTick := zeosTicks }
    else d
  let fps := if d.currentFps > 99999 then 99999 else d.currentFps
  let cachedFps :=
    [if fps ≥ 10000 then asciiDigit (fps.tdiv 10000) else 32,
     if fps ≥ 1000 then asciiDigit ((fps.tdiv 1000).tmod 10) else 32,
     if fps ≥ 100 then asciiDigit ((fps.tdiv 100).tmod 10) else 32,
     if fps ≥ 10 then asciiDigit ((fps.tdiv 10).tmod 10) else 32,
     asciiDigit (fps.tmod 10), 32, 70, 80, 83, 0]
  { d with cachedTime := cachedTime, cachedFps := cachedFps }

/-! ### What the devices receive -/

/-- The two byte devices of `sys_write`. -/
inductive Device
  | console
  | debug
  deriving DecidableEq, Repr

/-- The side of `sys_write` that the kernel record does not hold: the display statics, and the
    bytes the console (`printc`) and the debug port `0xe9` received, one list per driver call. -/
structure Io where
  display : Display
  console : List (List Nat)
  debug : List (List Nat)

/-- The statics at boot, and nothing received yet. -/
def Io.init : Io := ⟨Display.init, [], []⟩

/-- The output of device `d`. -/
def Io.out (io : Io) : Device → List (List Nat)
  | .console => io.console
  | .debug => io.debug

/-- Device `d` receives `bytes`. -/
def Io.emit (io : Io) (d : Device) (bytes : List Nat) : Io :=
  match d with
  | .console => { io with console := io.console ++ [bytes] }
  | .debug => { io with debug := io.debug ++ [bytes] }

namespace Kernel

/-! ### Memory through the MMU -/

/-- The `n` bytes at logical address `a` on, through the page table in `cr3`. -/
def readBytes (k : Kernel) (a n : Nat) : Option (List Nat) := do
  let d ← k.cr3
  Lib.Mem.loads (k.translate d) k.mem a n

/-- The byte at logical address `a`. -/
def readByte (k : Kernel) (a : Nat) : Option Nat := do
  let d ← k.cr3
  let p ← k.translate d a
  pure (k.mem p)

/-- Store `bs` at logical address `a` on, through the page table in `cr3`. -/
def writeBytes (k : Kernel) (a : Nat) (bs : List Nat) : Option Kernel := do
  let d ← k.cr3
  let mem ← Lib.Mem.stores (k.translate d) k.mem a bs
  pure { k with mem := mem }

/-- `*q = *p` of an `n`-byte object: load it, then store it. -/
def moveBytes (k : Kernel) (src dst n : Nat) : Option Kernel := do
  let bs ← k.readBytes src n
  k.writeBytes dst bs

/-! ### Copies -/

/-- The byte loop `while (size > 0) { *q1++ = *p1++; size--; }`. -/
def copyByteLoop (k : Kernel) (src dst : Nat) : Nat → Option Kernel
  | 0 => pure k
  | n + 1 => do
    let k ← k.moveBytes src dst 1
    k.copyByteLoop (src + 1) (dst + 1) n

/-- `copy_from_user(start, dest, size)`: `DWord` moves while more than four bytes are left, then
    the byte loop. Its callers pass sizes that are not negative. -/
def copyFromUser (k : Kernel) (start dest size : Nat) : Option Kernel :=
  if size > 4 then do
    let k ← k.moveBytes start dest 4
    k.copyFromUser (start + 4) (dest + 4) (size - 4)
  else k.copyByteLoop start dest size
termination_by size

/-- `rep movsl` with `ecx = dwords`: that many `DWord` moves, upwards. -/
def repMovsl (k : Kernel) (src dst : Nat) : Nat → Option Kernel
  | 0 => pure k
  | n + 1 => do
    let k ← k.moveBytes src dst 4
    k.repMovsl (src + 4) (dst + 4) n

/-! ### Devices -/

/-- A driver of `devices.c` on device `d`: each of the `size` bytes of the kernel buffer goes to
    the device, and `size` is returned. -/
def writeDevice (k : Kernel) (io : Io) (d : Device) (buffer size : Nat) : Option (Nat × Io) := do
  let bytes ← k.readBytes buffer size
  pure (size, io.emit d bytes)

/-- `sys_write_console(buffer, size)`: `printc` of each byte. -/
def sysWriteConsole (k : Kernel) (io : Io) (buffer size : Nat) : Option (Nat × Io) :=
  k.writeDevice io .console buffer size

/-- `sys_write_debug(buffer, size)`: each byte to port `0xe9`. -/
def sysWriteDebug (k : Kernel) (io : Io) (buffer size : Nat) : Option (Nat × Io) :=
  k.writeDevice io .debug buffer size

/-- The driver `sys_write` calls for device `d`. -/
def sysWriteDev (k : Kernel) (io : Io) : Device → Nat → Nat → Option (Nat × Io)
  | .console => k.sysWriteConsole io
  | .debug => k.sysWriteDebug io

theorem writeDevice_fst {k : Kernel} {io io' : Io} {d : Device} {buffer size written : Nat}
    (h : k.writeDevice io d buffer size = some (written, io')) : written = size := by
  simp only [writeDevice, Option.bind_eq_bind] at h
  obtain ⟨bytes, -, h⟩ := Option.bind_eq_some_iff.1 h
  cases h
  rfl

theorem sysWriteDev_fst {k : Kernel} {io io' : Io} {d : Device} {buffer size written : Nat}
    (h : k.sysWriteDev io d buffer size = some (written, io')) : written = size := by
  cases d <;> exact writeDevice_fst h

/-- The loop of `sys_write` for fd 1 or 2, from `buffer` with `bytesLeft` bytes left: chunks of
    `SYS_BUFFER_SIZE` bytes while more are left, then the rest, each copied into `buffer_k` at
    `bufferK` and passed to the driver. The result ends with the final `bytes_left`. The driver
    returns the size it was given, so every chunk shortens what is left. -/
def writeChunks (bufferK : Nat) (d : Device) (k : Kernel) (io : Io) (buffer bytesLeft : Nat) :
    Option (Kernel × Io × Nat) :=
  if bytesLeft > SYS_BUFFER_SIZE then
    match k.copyFromUser buffer bufferK SYS_BUFFER_SIZE with
    | none => none
    | some k =>
      match hw : k.sysWriteDev io d bufferK SYS_BUFFER_SIZE with
      | none => none
      | some (written, io) =>
        writeChunks bufferK d k io (buffer + written) (bytesLeft - written)
  else if bytesLeft > 0 then do
    let k ← k.copyFromUser buffer bufferK bytesLeft
    let (written, io) ← k.sysWriteDev io d bufferK bytesLeft
    pure (k, io, bytesLeft - written)
  else pure (k, io, bytesLeft)
termination_by bytesLeft
decreasing_by
  have := sysWriteDev_fst hw
  simp only [SYS_BUFFER_SIZE] at *
  omega

/-! ### The screen -/

/-- The three compile-time methods of `sys_write_screen`. -/
inductive ScreenCopyMethod
  | SCREEN_METHOD_WORD_LOOP
  | SCREEN_METHOD_COPY_FROM_USER
  | SCREEN_METHOD_REP_MOVSL
  deriving DecidableEq, Repr

/-- `(Word)c` for a `char` byte `c`: the sign is extended to sixteen bits. -/
def charToWord (c : Nat) : Nat := if c < 128 then c else c + 0xFF00

/-- One iteration of the word loop: `screen[i] = ((Word)buffer[i * 2]) |
    ((Word)buffer[i * 2 + 1] << 8)`, a 16-bit store. -/
def screenWordStep (buffer : Nat) (k : Kernel) (i : Nat) : Option Kernel := do
  let lo ← k.readByte (buffer + i * 2)
  let hi ← k.readByte (buffer + i * 2 + 1)
  let w := (charToWord lo ||| charToWord hi <<< 8) % 2 ^ 16
  k.writeBytes (VIDEO_MEMORY_BASE + 2 * i) [w % 256, w / 256]

/-- Method A: the word loop over `size / 2` words; an odd last byte is not copied. -/
def screenCopyWordLoop (k : Kernel) (buffer size : Nat) : Option Kernel :=
  (List.range (size / 2)).foldlM (screenWordStep buffer) k

/-- Method B: `copy_from_user(buffer, VIDEO_MEMORY_BASE, size)`. -/
def screenCopyFromUser (k : Kernel) (buffer size : Nat) : Option Kernel :=
  k.copyFromUser buffer VIDEO_MEMORY_BASE size

/-- Method C: `rep movsl` of `size / 4` dwords, then the `size % 4` bytes left one by one. -/
def screenCopyRepMovsl (k : Kernel) (buffer size : Nat) : Option Kernel := do
  let dwords := size / 4
  let remaining := size % 4
  let k ← k.repMovsl buffer VIDEO_MEMORY_BASE dwords
  if remaining > 0 then
    k.copyByteLoop (buffer + dwords * 4) (VIDEO_MEMORY_BASE + dwords * 4) remaining
  else pure k

/-- The copy of `sys_write_screen` under a method. -/
def screenCopy (k : Kernel) : ScreenCopyMethod → Nat → Nat → Option Kernel
  | .SCREEN_METHOD_WORD_LOOP => k.screenCopyWordLoop
  | .SCREEN_METHOD_COPY_FROM_USER => k.screenCopyFromUser
  | .SCREEN_METHOD_REP_MOVSL => k.screenCopyRepMovsl

/-- The loop of `print_string_xy` at character `i` of the row: a 16-bit cell per character, up to
    the terminating NUL or the end of the row. -/
def printStringXyLoop (px py color : Nat) (k : Kernel) (i : Nat) : List Nat → Option Kernel
  | [] => pure k
  | c :: cs =>
    if c ≠ 0 ∧ px + i < NUM_COLUMNS then do
      let w := (c &&& 0xFF) ||| color
      let k ← k.writeBytes (VIDEO_MEMORY_BASE + 2 * (py * NUM_COLUMNS + px + i)) [w % 256, w / 256 % 256]
      printStringXyLoop px py color k (i + 1) cs
    else pure k

/-- `print_string_xy(px, py, str, color)`. -/
def printStringXy (k : Kernel) (px py : Nat) (str : List Nat) (color : Nat) : Option Kernel :=
  printStringXyLoop px py color k 0 str

/-- `draw_time_and_fps()`. -/
def drawTimeAndFps (k : Kernel) (d : Display) : Option Kernel := do
  let k ← k.printStringXy TIME_DISPLAY_X TIME_DISPLAY_Y d.cachedTime TIME_DISPLAY_COLOR
  k.printStringXy FPS_DISPLAY_X FPS_DISPLAY_Y d.cachedFps FPS_DISPLAY_COLOR

/-- `sys_write_screen(buffer, size)` under a copy method. -/
def sysWriteScreen (method : ScreenCopyMethod) (k : Kernel) (d : Display) (buffer size : Nat) :
    Option (Int × Kernel × Display) := do
  let size := if size > SCREEN_BUFFER_SIZE then SCREEN_BUFFER_SIZE else size
  let k ← k.screenCopy method buffer size
  let d := { d with frameCount := d.frameCount + 1 }
  let k ← k.drawTimeAndFps d
  pure (size, k, d)

/-! ### `sys_write` -/

/-- `sys_write(fd, buffer, size)`, with the screen method the kernel is built with and the link
    address of `buffer_k`. -/
def sysWrite (method : ScreenCopyMethod) (bufferK : Nat) (k : Kernel) (io : Io) (fd : Int)
    (buffer : Nat) (size : Int) : Option (Int × Kernel × Io) := do
  if size < 0 then return (-EINVAL, k, io)
  let ret := checkFd fd O_WRONLY
  if ret ≠ 0 then return (ret, k, io)
  if !accessOk buffer size.toNat then return (-EFAULT, k, io)
  if k.inKeyboardContext then return (-EINPROGRESS, k, io)
  if fd = FD_SCREEN then
    let (r, k, d) ← k.sysWriteScreen method io.display buffer size.toNat
    return (r, k, { io with display := d })
  let dev := if fd = FD_DEBUG then Device.debug else Device.console
  let (k, io, bytesLeft) ← writeChunks bufferK dev k io buffer size.toNat
  return (size - bytesLeft, k, io)

end Kernel

end Zeos
