import FastLivo2.Lib.Checksum
import FastLivo2.Lib.Exec

/-!
# The GPRMC recogniser of the lidar driver

`livox_ros_driver2/src/synchro.cpp`: the serial line is read in pieces, and each byte goes through
`ParseGps`, which looks for a `$GPRMC` or `$GNRMC` sentence with a matching checksum.  `Decode`
hands a recognised sentence to the callback and starts over.

`rmc_buff_` has 128 bytes for the life of the object; an access outside it is undefined
behaviour in the source and a fault here.  The object is a static, so `cur_len_` starts at zero.
-/

namespace FastLivo2

/-- An index into `rmc_buff_` that is not below its size. -/
inductive SynchroFault
  | outOfRange
  deriving DecidableEq, Repr

/-! ## The buffer -/

/-- `rmc_buff_`, a `std::vector<char>` resized to 128 by the constructor. -/
structure RmcBuffer where
  bytes : List UInt8
  size_eq : bytes.length = 128
  deriving DecidableEq

namespace RmcBuffer

lemma length_set (buf : RmcBuffer) (i : ℕ) (c : UInt8) : (buf.bytes.set i c).length = 128 := by
  rw [List.length_set, buf.size_eq]

lemma length_zero : (List.replicate 128 (0 : UInt8)).length = 128 := List.length_replicate

/-- The buffer after the constructor, and after `Clear`. -/
def zero : RmcBuffer := ⟨List.replicate 128 0, length_zero⟩

/-- `rmc_buff_[i]` as a value. -/
def read (buf : RmcBuffer) (i : ℕ) : Except SynchroFault UInt8 :=
  match buf.bytes[i]? with
  | some c => .ok c
  | none => .error .outOfRange

/-- `rmc_buff_[i] = c`. -/
def write (buf : RmcBuffer) (i : ℕ) (c : UInt8) : Except SynchroFault RmcBuffer :=
  if i < 128 then .ok ⟨buf.bytes.set i c, buf.length_set i c⟩ else .error .outOfRange

/-- `rmc_buff_[dst] = rmc_buff_[src]`. -/
def copy (buf : RmcBuffer) (dst src : ℕ) : Except SynchroFault RmcBuffer :=
  (buf.read src).bind (buf.write dst)

end RmcBuffer

/-! ## Characters -/

/-- The bytes of a text. -/
def ascii (l : List Char) : List UInt8 := l.map Char.toUInt8

/-- `'*'`. -/
def star : UInt8 := 42

/-- `'$'`. -/
def dollar : UInt8 := 36

def kGPRMC : List UInt8 := ascii ['$', 'G', 'P', 'R', 'M', 'C']

def kGNRMC : List UInt8 := ascii ['$', 'G', 'N', 'R', 'M', 'C']

/-- The value of a hexadecimal digit, in either case. -/
def hexValue (c : UInt8) : Option UInt8 :=
  if 48 ≤ c ∧ c ≤ 57 then some (c - 48)
  else if 65 ≤ c ∧ c ≤ 70 then some (c - 55)
  else if 97 ≤ c ∧ c ≤ 102 then some (c - 87)
  else none

/-- `isspace` in the C locale. -/
def isSpace (c : UInt8) : Bool := c == 32 || (9 ≤ c && c ≤ 13)

/-- The leading hexadecimal digits of a text, as a number. -/
def scanDigits : List UInt8 → UInt32 → UInt32
  | [], acc => acc
  | c :: l, acc =>
      match hexValue c with
      | some v => scanDigits l (16 * acc + v.toUInt32)
      | none => acc

/-- `crc_num` after `sscanf(crc, "%x", &crc_num)`, with `crc_num` zero before: blanks are skipped,
a sign is taken, and a text without a digit leaves the zero.  A prefix `0x` needs no case of its
own: after it the two characters of `crc` leave no room for a digit. -/
def scanHex (crc : List UInt8) : UInt32 :=
  match crc.dropWhile isSpace with
  | [] => 0
  | c :: l =>
      if c = 45 then 0 - scanDigits l 0
      else if c = 43 then scanDigits l 0
      else scanDigits (c :: l) 0

/-- `strncpy(crc, p, 2)` into a zeroed `crc[3]`: the copy ends with a zero byte. -/
def crcText (c d : UInt8) : List UInt8 := [c, d].takeWhile (· ≠ 0)

/-! ## `Synchro` -/

structure Synchro where
  rmcBuff : RmcBuffer
  curLen : ℕ
  /-- A callback is registered (`sync_timer_cb_`). -/
  syncTimerCb : Bool

/-- The arguments of a callback: `&rmc_buff_.at(0)` and `cur_len_`. -/
structure Report where
  rmc : RmcBuffer
  rmcLength : ℕ

/-- What the callback is told to read. -/
def Report.text (r : Report) : List UInt8 := r.rmc.bytes.take r.rmcLength

namespace Synchro

/-- A new object, or one after `Clear`. -/
def cleared (cb : Bool) : Synchro := ⟨.zero, 0, cb⟩

def clear (s : Synchro) : Synchro := { s with curLen := 0, rmcBuff := .zero }

/-- The header window moves on by one byte. -/
def shiftIn (buf : RmcBuffer) (inByte : UInt8) : Except SynchroFault RmcBuffer := do
  let buf ← buf.copy 0 1
  let buf ← buf.copy 1 2
  let buf ← buf.copy 2 3
  let buf ← buf.copy 3 4
  let buf ← buf.copy 4 5
  buf.write 5 inByte

/-- `strncmp` finds one of the two headers at the front of the buffer. -/
def AtHeader (bytes : List UInt8) : Prop := bytes.take 6 = kGPRMC ∨ bytes.take 6 = kGNRMC

instance (bytes : List UInt8) : Decidable (AtHeader bytes) :=
  inferInstanceAs (Decidable (_ ∨ _))

/-- `for (i = 1; i < n; i++) result ^= rmc_buff_[i]`. -/
def xorLoop (buf : RmcBuffer) (n : ℕ) : Except SynchroFault UInt8 :=
  (List.range' 1 (n - 1)).foldlM (fun result i => (buf.read i).map (result ^^^ ·)) 0

/-- The checksum test of the byte just stored at `curLen`. -/
def checksumMatches (buf : RmcBuffer) (curLen : ℕ) : Except SynchroFault Bool := do
  if (← buf.read (curLen - 2)) = star then
    let result ← xorLoop buf (curLen - 2)
    let c ← buf.read (curLen - 1)
    -- `strncpy` looks at the second character only after a first one that is not zero
    let crc ← if c = 0 then .ok [] else (buf.read curLen).map (crcText c)
    return result ^^^ (scanHex crc).toUInt8 = 0
  else return false

/-- `ParseGps`: take a byte; is a sentence complete? -/
def parseGps (s : Synchro) (inByte : UInt8) : Except SynchroFault (Synchro × Bool) := do
  if s.curLen < kGPRMC.length then
    let buf ← shiftIn s.rmcBuff inByte
    let len := s.curLen + 1
    if len = kGPRMC.length ∧ ¬ AtHeader buf.bytes then
      return ({ s with rmcBuff := buf, curLen := len - 1 }, false)
    return ({ s with rmcBuff := buf, curLen := len }, false)
  if 128 ≤ s.curLen then
    return (s.clear, false)
  let buf ← s.rmcBuff.write s.curLen inByte
  if ← checksumMatches buf s.curLen then
    return ({ s with rmcBuff := buf }, true)
  return ({ s with rmcBuff := buf, curLen := s.curLen + 1 }, false)

/-- One turn of the loop of `Decode`. -/
def decodeByte (s : Synchro) (b : UInt8) : Except SynchroFault (Synchro × Option Report) := do
  let (t, complete) ← s.parseGps b
  if complete = true ∧ t.syncTimerCb = true then
    return (t.clear, some ⟨t.rmcBuff, t.curLen⟩)
  return (t, none)

end Synchro

/-- A byte the recogniser has taken. -/
abbrev SynchroTurn := Turn Synchro UInt8 (Option Report)

namespace Synchro

/-- `Decode`: the bytes of one read. -/
def decode (buff : List UInt8) (s : Synchro) : Except SynchroFault (List SynchroTurn × Synchro) :=
  run decodeByte buff s

/-- `IOLoop`: one `Decode` for each read. -/
def ioLoop : List (List UInt8) → Synchro → Except SynchroFault (List SynchroTurn × Synchro)
  | [], s => .ok ([], s)
  | buff :: reads, s =>
      (decode buff s).bind fun r => (ioLoop reads r.2).map fun r' => (r.1 ++ r'.1, r'.2)

/-- How the stream is cut into reads makes no difference. -/
theorem ioLoop_eq (reads : List (List UInt8)) (s : Synchro) :
    ioLoop reads s = decode reads.flatten s := by
  induction reads generalizing s with
  | nil => rfl
  | cons buff reads ih =>
      rw [ioLoop, List.flatten_cons, decode, decode, run_append]
      simp only [ih]
      rfl

end Synchro

end FastLivo2
