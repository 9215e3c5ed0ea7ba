import WebServer.Lib.Bounded
import WebServer.Lib.Run
import WebServer.Log.Convert

/-!
# The log stream

Model of `logger/log_stream.{h,cc}`: a buffer of fixed size and the insertions into it.

`data_` is the memory of the buffer and `curr_` a position in it; a store outside `data_` is undefined, as is
reading more bytes from an argument than its memory has. The text of a floating-point number comes from
`snprintf` and is an argument here, as is that of a `Fmt`. The memory behind a `const char*` ends with the first
NUL, or with a NUL after the bytes given.

`Holds SIZE b out` says that the buffer holds the text `out` and is not full. Each insertion is one of the two
of a bounded store: it puts its whole text at the end, or does nothing (`Holds.insert`).
-/

namespace WebServer.Log

open Net

def kSmallBuffer : Nat := 4000

/-- `template<int SIZE> class FixedBuffer`; `SIZE` is the length of `data_`. -/
structure FixedBuffer where
  data_ : Bytes
  curr_ : Nat
deriving DecidableEq, Repr

namespace FixedBuffer

variable (b : FixedBuffer)

/-- `FixedBuffer::remain` -/
def remain : Nat := usub b.data_.length b.curr_

/-- `FixedBuffer::add` -/
def add (len : Nat) : FixedBuffer := { b with curr_ := b.curr_ + len }

/-- `FixedBuffer::len` -/
def len : Nat := b.curr_

/-- `FixedBuffer::append` -/
def append (buf : Bytes) (len : Nat) : Option FixedBuffer :=
  if b.remain > len then do
    let mem ← store b.data_ b.curr_ (← load buf 0 len)
    some ({ b with data_ := mem }.add len)
  else
    some b

end FixedBuffer

/-- The C string at the start of a memory. -/
def cstr (mem : Bytes) : Bytes := mem.takeWhile (· ≠ 0)

def strlen (mem : Bytes) : Nat := (cstr mem).length

/-- `strrchr(mem, c)`: where `c` is found last in the C string. -/
def strrchr (mem : Bytes) (c : UInt8) : Option Nat :=
  if c ∈ cstr mem then some ((cstr mem).length - 1 - (cstr mem).reverse.idxOf c) else none

/-- `class StaticStrHolder`; the memory has at least the bytes that are held. -/
structure StaticStrHolder where
  str_ : Bytes
  len_ : Nat
  le : len_ ≤ str_.length

/-- `class SourceFile`; the memory has at least `len_` bytes. -/
structure SourceFile where
  data_ : Bytes
  len_ : Int
  int : IntType.int.Fits len_
  le : len_ ≤ data_.length

namespace SourceFile

/-- Where the name of the file starts in its path. -/
def base (file : Bytes) : Nat :=
  match strrchr file (char '/') with
  | some slash => slash + 1
  | none => 0

/-- The last component of a path begins inside the path. -/
lemma base_le {file : Bytes} : base file ≤ file.length := by
  have le : (cstr file).length ≤ file.length := (List.takeWhile_sublist _).length_le
  unfold base strrchr
  split
  case h_1 slash e =>
    split at e
    case isTrue mem =>
      cases e
      have pos := List.length_pos_of_mem mem
      omega
    case isFalse => cases e
  case h_2 => exact Nat.zero_le _

/-- The length of the last component fits `int`. -/
lemma length_fits {file : Bytes} (h : file.length + 1 < 2 ^ 31) :
    IntType.int.Fits ((file.length : Int) - base file) := by
  have le := @base_le file
  constructor <;> simp only [IntType.minValue, IntType.maxValue, IntType.signed, IntType.width, if_true] <;> omega

/-- The last component is no longer than what is left of the path. -/
lemma length_le {file : Bytes} : (file.length : Int) - base file ≤ (file.drop (base file)).length := by
  rw [List.length_drop]
  omega

/-- `SourceFile::SourceFile(const char (&file)[N])`, of the `N - 1` bytes before the NUL; `N` is an `int`. -/
def ofArray (file : Bytes) (h : file.length + 1 < 2 ^ 31) : SourceFile where
  data_ := file.drop (base file)
  len_ := (file.length : Int) - base file
  int := length_fits h
  le := length_le

/-- `SourceFile::SourceFile(const char *file)` -/
def ofPointer (file : Bytes) : SourceFile where
  data_ := file.drop (base file)
  len_ := IntType.int.cast (strlen (file.drop (base file)))
  int := IntType.cast_int_fits
  le := by
    have le : strlen (file.drop (base file)) ≤ (file.drop (base file)).length :=
      (List.takeWhile_sublist _).length_le
    exact Int.le_trans IntType.cast_int_le (Int.ofNat_le.2 le)

/-- The length as the `size_t` that `append` gets. -/
def size (file : SourceFile) : Nat := (file.len_ % 2 ^ 64).toNat

end SourceFile

/-- `kMaxNumericSize` -/
def kMaxNumericSize : Nat := 32

/-- The text that `%.12g` gives; it has at most 19 characters. -/
structure DoubleText where
  text : Bytes
  short : text.length < kMaxNumericSize

/-- `class Fmt`: the text in `buf_`; that it fits is asserted by the constructor. -/
structure Fmt where
  text : Bytes
  short : text.length < 32

/-- What can be inserted, by the overloads of `LogStream::operator<<`. -/
inductive Insertion where
  | short (v : Int16)
  | unsignedShort (v : UInt16)
  | integer (t : IntType) (v : t.Value)
  /-- `float` and `double` -/
  | double (v : DoubleText)
  | char (v : UInt8)
  | bool (v : Bool)
  | string (v : Bytes)
  /-- `const char*` and `const unsigned char*`; `none` is the null pointer. -/
  | cstring (str : Option Bytes)
  /-- `const void*` -/
  | pointer (p : UInt64)
  | fmt (v : Fmt)
  | staticStr (str : StaticStrHolder)
  | sourceFile (file : SourceFile)

/-- `class LogStream` -/
structure LogStream where
  buffer_ : FixedBuffer
deriving DecidableEq, Repr

namespace LogStream

/-- `LogStream::LogStream`; the memory of the buffer is not initialised. -/
def new (data : Vector UInt8 kSmallBuffer) : LogStream := ⟨⟨data.toList, 0⟩⟩

/-- `LogStream::append` -/
def append (s : LogStream) (str : Bytes) (len : Nat) : Option LogStream := do
  some ⟨← s.buffer_.append str len⟩

/-- `LogStream::formatInt` -/
def formatInt (s : LogStream) (t : IntType) (v : Int) : Option LogStream :=
  if s.buffer_.remain ≥ kMaxNumericSize then do
    let (len, mem) ← convert t s.buffer_.data_ s.buffer_.curr_ v
    some ⟨{ s.buffer_ with data_ := mem }.add len⟩
  else
    some s

/-- `LogStream::operator<<` -/
def insert (s : LogStream) : Insertion → Option LogStream
  | .short v => s.formatInt .int v.toInt
  | .unsignedShort v => s.formatInt .unsignedInt v.toNat
  | .integer t v => s.formatInt t v.1
  | .double v =>
    if s.buffer_.remain ≥ kMaxNumericSize then do
      let mem ← store s.buffer_.data_ s.buffer_.curr_ (snprintf kMaxNumericSize v.text ++ [0])
      some ⟨{ s.buffer_ with data_ := mem }.add v.text.length⟩
    else
      some s
  | .char v => if s.buffer_.remain ≥ 1 then s.append [v] 1 else some s
  | .bool v => s.append (if v then bytes "1" else bytes "0") 1
  | .string v => s.append v v.length
  | .cstring (some str) => s.append str (strlen str)
  | .cstring none => s.append (bytes "(null)") 6
  | .pointer p =>
    if s.buffer_.remain ≥ kMaxNumericSize then do
      let mem ← store s.buffer_.data_ s.buffer_.curr_ [char '0']
      let mem ← store mem (s.buffer_.curr_ + 1) [char 'x']
      let (len, mem) ← convertHex mem (s.buffer_.curr_ + 2) p
      some ⟨{ s.buffer_ with data_ := mem }.add (len + 2)⟩
    else
      some s
  | .fmt v => s.append v.text v.text.length
  | .staticStr str => s.append str.str_ str.len_
  | .sourceFile file => s.append file.data_ file.size

end LogStream

/-! ## Texts -/

namespace Insertion

/-- The whole text of an insertion. -/
def rendering : Insertion → Bytes
  | short v => decimal v.toInt
  | unsignedShort v => decimal v.toNat
  | integer _ v => decimal v.1
  | double v => v.text
  | char v => [v]
  | bool v => if v then bytes "1" else bytes "0"
  | string v => v
  | cstring (some str) => cstr str
  | cstring none => bytes "(null)"
  | pointer p => bytes "0x" ++ hexadecimal p.toNat
  | fmt v => v.text
  | staticStr str => str.str_.take str.len_
  | sourceFile file => file.data_.take file.size

/-- The length of what `append` is given. -/
def length : Insertion → Nat
  | sourceFile file => file.size
  | x => x.rendering.length

/-- The number of free bytes that an insertion asks for. -/
def need : Insertion → Nat
  | short _ | unsignedShort _ | integer _ _ | double _ | pointer _ => 32
  | x => x.length + 1

end Insertion

/-- The buffer of `SIZE` bytes holds the text `out`, and at least one byte is free; `SIZE` is an `int`. -/
structure Holds (SIZE : Nat) (b : FixedBuffer) (out : Bytes) : Prop where
  int : SIZE < 2 ^ 31
  size : b.data_.length = SIZE
  curr : b.curr_ = out.length
  text : b.data_.take b.curr_ = out
  free : out.length < SIZE

section Insert

variable {SIZE : Nat} {b : FixedBuffer} {s : LogStream} {out : Bytes}

/-- The free bytes are those that the output leaves. -/
lemma Holds.remain (h : Holds SIZE b out) : b.remain = SIZE - out.length := by
  rw [FixedBuffer.remain, h.size, h.curr, usub_of_le h.free.le]

/-- A text is stored behind the text that is there, with perhaps something after it. -/
lemma Holds.store (h : Holds SIZE b out) {text tail : Bytes} (inside : text.length + tail.length ≤ SIZE - out.length)
    (free : text.length < SIZE - out.length) :
    ∃ mem, Net.store b.data_ b.curr_ (text ++ tail) = some mem ∧
      Holds SIZE ⟨mem, b.curr_ + text.length⟩ (out ++ text) := by
  have room : b.curr_ + (text ++ tail).length ≤ b.data_.length := by
    rw [h.size, h.curr, List.length_append]
    omega
  obtain ⟨mem, e, len, before, stored⟩ := store_spec room
  refine ⟨mem, e, h.int, len.trans h.size, ?_, ?_, ?_⟩
  · rw [List.length_append, h.curr]
  · rw [List.take_add, before, h.text]
    rw [Lib.slice, Nat.add_sub_cancel_left] at stored
    have first := congrArg (List.take text.length) stored
    rw [List.take_take, Nat.min_eq_left (by simp), List.take_left' rfl] at first
    rw [first]
  · rw [List.length_append]
    omega

/-- `FixedBuffer::append` puts in the whole or nothing. -/
lemma Holds.append (h : Holds SIZE b out) {buf : Bytes} {len : Nat} (le : len < SIZE - out.length → len ≤ buf.length) :
    ∃ b', b.append buf len = some b' ∧
      Holds SIZE b' (if len + 1 ≤ SIZE - out.length then out ++ buf.take len else out) := by
  rw [FixedBuffer.append, h.remain]
  by_cases room : len < SIZE - out.length
  · have lb := le room
    have bl : (buf.take len).length = len := by rw [List.length_take, Nat.min_eq_left lb]
    obtain ⟨mem, e, h'⟩ := @Holds.store _ _ _ h (buf.take len) [] (by rw [bl, List.length_nil]; omega) (by omega)
    rw [List.append_nil] at e
    rw [bl] at h'
    have read : load buf 0 len = some (buf.take len) := by
      rw [load, if_pos ⟨Nat.zero_le _, lb⟩, Lib.slice, List.drop_zero, Nat.sub_zero]
    refine ⟨⟨mem, b.curr_ + len⟩, ?_, ?_⟩
    · simp only [if_pos room, read, e, Option.bind_eq_bind, Option.bind_some]
      rfl
    · rw [if_pos (Nat.succ_le_of_lt room)]
      exact h'
  · refine ⟨b, if_neg room, ?_⟩
    rw [if_neg fun hn => room (Nat.lt_of_succ_le hn)]
    exact h

open Insertion in
/-- An insertion that goes through `append`. -/
lemma Holds.append_insertion (h : Holds SIZE s.buffer_ out) {x : Insertion} {buf : Bytes} {len : Nat}
    (le : len < SIZE - out.length → len ≤ buf.length) (text : buf.take len = x.rendering) (needs : x.need = len + 1) :
    ∃ s', s.append buf len = some s' ∧ Holds SIZE s'.buffer_ (Lib.offer SIZE rendering need out x) := by
  obtain ⟨b', e, h'⟩ := h.append le
  refine ⟨⟨b'⟩, ?_, ?_⟩
  · rw [LogStream.append, e]
    rfl
  · rw [Lib.offer, ← text, needs]
    exact h'

/-- A number is stored with a NUL after it, and `curr_` goes to the NUL. -/
lemma Holds.number (h : Holds SIZE b out) (text : Bytes) (short : text.length < 32) :
    (b.remain ≥ kMaxNumericSize → ∃ mem, Net.store b.data_ b.curr_ (text ++ [0]) = some mem ∧
      Holds SIZE ⟨mem, b.curr_ + text.length⟩ (if 32 ≤ SIZE - out.length then out ++ text else out)) ∧
    (¬b.remain ≥ kMaxNumericSize → Holds SIZE b (if 32 ≤ SIZE - out.length then out ++ text else out)) := by
  rw [h.remain]
  refine ⟨fun room => ?_, fun full => ?_⟩
  · have room : 32 ≤ SIZE - out.length := room
    rw [if_pos room]
    exact h.store (by simp only [List.length_singleton]; omega) (by omega)
  · have full : ¬32 ≤ SIZE - out.length := full
    rw [if_neg full]
    exact h

/-- A number is inserted whole when 32 bytes are free, and not at all otherwise. -/
lemma Holds.formatInt (h : Holds SIZE s.buffer_ out) {t : IntType} {v : Int} (fits : t.Fits v) :
    ∃ s', s.formatInt t v = some s' ∧
      Holds SIZE s'.buffer_ (if 32 ≤ SIZE - out.length then out ++ decimal v else out) := by
  have short := decimal_length fits
  obtain ⟨room, full⟩ := h.number (decimal v) (by omega)
  rw [LogStream.formatInt]
  split
  case isTrue hr =>
    obtain ⟨mem, e, h'⟩ := room hr
    refine ⟨_, ?_, h'⟩
    rw [convert_eq fits, e]
    rfl
  case isFalse hr => exact ⟨s, rfl, full hr⟩

/-- A pointer is inserted whole when 32 bytes are free, and not at all otherwise. -/
lemma Holds.insertPointer (h : Holds SIZE s.buffer_ out) (p : UInt64) :
    ∃ s', s.insert (.pointer p) = some s' ∧
      Holds SIZE s'.buffer_ (if 32 ≤ SIZE - out.length then out ++ (bytes "0x" ++ hexadecimal p.toNat) else out) := by
  have short := @hexadecimal_length p
  have head : (bytes "0x").length = 2 := by decide
  obtain ⟨room, full⟩ := h.number (bytes "0x" ++ hexadecimal p.toNat) (by
    rw [List.length_append, head]
    omega)
  rw [LogStream.insert]
  split
  case isTrue hr =>
    obtain ⟨mem, e, h'⟩ := room hr
    refine ⟨_, ?_, h'⟩
    -- the stores of `0x` and of the digits are one
    have split : bytes "0x" ++ hexadecimal p.toNat ++ [0]
        = [char '0'] ++ ([char 'x'] ++ (hexadecimal p.toNat ++ [0])) := by
      rw [show bytes "0x" = [char '0', char 'x'] from rfl, List.append_assoc]
      rfl
    rw [split, ← store_append] at e
    obtain ⟨mem1, e1, e⟩ := Option.bind_eq_some_iff.1 e
    rw [← store_append] at e
    obtain ⟨mem2, e2, e⟩ := Option.bind_eq_some_iff.1 e
    rw [List.length_singleton] at e2
    have e3 : convertHex mem2 (s.buffer_.curr_ + 2) p = some ((hexadecimal p.toNat).length, mem) := by
      rw [List.length_singleton, List.length_singleton, Nat.add_assoc] at e
      rw [convertHex_eq, e, Option.map_some]
    rw [e1, Option.bind_eq_bind, Option.bind_some, e2, Option.bind_eq_bind, Option.bind_some, e3,
      List.length_append, head, Nat.add_comm 2]
    rfl
  case isFalse hr => exact ⟨s, rfl, full hr⟩

open Insertion in
/-- Every insertion is defined, and puts in its whole text or nothing. -/
lemma Holds.insert (h : Holds SIZE s.buffer_ out) (x : Insertion) :
    ∃ s', s.insert x = some s' ∧ Holds SIZE s'.buffer_ (Lib.offer SIZE rendering need out x) := by
  cases x with
  | short v =>
    have lo := v.le_toInt
    have hi := v.toInt_lt
    refine h.formatInt ⟨?_, ?_⟩
    · simp only [IntType.minValue, IntType.signed, IntType.width, if_true]
      omega
    · simp only [IntType.maxValue, IntType.signed, IntType.width, if_true]
      omega
  | unsignedShort v =>
    have hi := v.toNat_lt
    refine h.formatInt ⟨Int.natCast_nonneg _, ?_⟩
    simp only [IntType.maxValue, IntType.signed, IntType.width, Bool.false_eq_true, if_false]
    omega
  | integer t v => exact h.formatInt v.2
  | double v =>
    obtain ⟨room, full⟩ := h.number v.text v.short
    rw [LogStream.insert]
    split
    case isTrue hr =>
      obtain ⟨mem, e, h'⟩ := room hr
      refine ⟨_, ?_, h'⟩
      rw [snprintf, List.take_of_length_le (Nat.le_sub_one_of_lt v.short), e]
      rfl
    case isFalse hr => exact ⟨s, rfl, full hr⟩
  | char v =>
    rw [LogStream.insert]
    split
    case isTrue => exact h.append_insertion (fun _ => Nat.le_refl 1) rfl rfl
    case isFalse hr =>
      have := h.free
      rw [h.remain] at hr
      omega
  | bool v => exact h.append_insertion (fun _ => by cases v <;> decide) (by cases v <;> rfl) (by cases v <;> rfl)
  | string v => exact h.append_insertion (fun _ => Nat.le_refl _) (List.take_length) rfl
  | cstring str =>
    cases str with
    | none => exact h.append_insertion (fun _ => by decide) rfl rfl
    | some str =>
      refine h.append_insertion (fun _ => (List.takeWhile_sublist _).length_le) ?_ rfl
      exact (List.prefix_iff_eq_take.1 (List.takeWhile_prefix _)).symm
  | pointer p => exact h.insertPointer p
  | fmt v => exact h.append_insertion (fun _ => Nat.le_refl _) (List.take_length) rfl
  | staticStr str =>
    refine h.append_insertion (fun _ => str.le) rfl ?_
    show (str.str_.take str.len_).length + 1 = _
    rw [List.length_take, Nat.min_eq_left str.le]
  | sourceFile file =>
    refine h.append_insertion (fun lt => ?_) rfl rfl
    -- a negative length is a huge `size_t`
    have small := h.int
    have le := file.le
    have lo := file.int.1
    have hi := file.int.2
    simp only [IntType.minValue, IntType.maxValue, IntType.signed, IntType.width, if_true] at lo hi
    unfold SourceFile.size at lt ⊢
    omega

/-- A sequence of insertions. -/
def LogStream.insertAll (s : LogStream) (ins : List Insertion) : Option LogStream := ins.foldlM insert s

open Insertion in
/-- Insertions one after the other are offered one after the other. -/
lemma Holds.insertAll (h : Holds SIZE s.buffer_ out) (ins : List Insertion) :
    ∃ s', s.insertAll ins = some s' ∧ Holds SIZE s'.buffer_ (ins.foldl (Lib.offer SIZE rendering need) out) :=
  Lib.foldlM_refines (R := fun (s : LogStream) out => Holds SIZE s.buffer_ out) (fun _ _ x h => h.insert x) h ins

/-- A new stream holds nothing. -/
lemma Holds.new (data : Vector UInt8 kSmallBuffer) : Holds kSmallBuffer (LogStream.new data).buffer_ [] where
  int := by decide
  size := data.length_toList
  curr := rfl
  text := rfl
  free := by decide

end Insert

end WebServer.Log
