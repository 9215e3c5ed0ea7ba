import WebServer.Lib.Run
import WebServer.Net.Sysw

/-!
# The flat buffer

Model of `connection/buffer/buffer.{h,cc}`: one `std::vector<char>` with a reader and a writer index.
A `char*` into the buffer is its offset from `begin()`. `append`, `writeFromFD` and `readToFD` are
undefined when a copy or an `iovec` leaves the array.

`Buffer.unread` is the queue a buffer stands for, `Buffer.InStorage` the order of its indices. Each
operation has one specification lemma (`append_spec`, `writeFromFD_spec`, `read_spec`,
`readUntil_spec`, `readToFD_spec`); `Buffer.History` runs sequences of operations and remembers what
went in and how much came out, and `Buffer.History.buffer_is_fifo` says that every run is defined, stays inside
the storage and is a queue.
-/

namespace WebServer.Net

/-- `class Buffer` -/
structure Buffer where
  buffer_ : Bytes
  reader_index_ : Nat
  writer_index_ : Nat
deriving DecidableEq, Repr

namespace Buffer

def kPrependSize : Nat := 8

def kInitialSize : Nat := 1024

/-- `Buffer::Buffer`; the constructor ignores its argument `initial_size`. -/
def new : Buffer where
  buffer_ := List.replicate (kPrependSize + kInitialSize) 0
  reader_index_ := kPrependSize
  writer_index_ := kPrependSize

/-- `Buffer::end` -/
def end_ (b : Buffer) : Nat := b.writer_index_

/-- `Buffer::readerIter` -/
def readerIter (b : Buffer) : Nat := b.reader_index_

/-- `Buffer::readableSize` -/
def readableSize (b : Buffer) : Nat := usub b.writer_index_ b.reader_index_

/-- `Buffer::writableSize` -/
def writableSize (b : Buffer) : Nat := usub b.buffer_.length b.writer_index_

/-- `Buffer::readAll` -/
def readAll (b : Buffer) : Bool × Buffer :=
  (true, { b with reader_index_ := kPrependSize, writer_index_ := kPrependSize })

/-- `Buffer::read` -/
def read (b : Buffer) (len : Nat) : Bool × Buffer :=
  let readable_sz := b.readableSize
  if readable_sz < len then
    (false, b)
  else if readable_sz = len then
    b.readAll
  else
    (true, { b with reader_index_ := b.reader_index_ + len })

/-- `Buffer::readUntil` -/
def readUntil (b : Buffer) (iter : Nat) : Bool × Buffer :=
  if iter ≥ b.readerIter ∧ iter ≤ b.end_ then
    b.read (iter - b.readerIter)
  else
    (false, b)

/-- `Buffer::append` -/
def append (b : Buffer) (tmp_buf : Bytes) : Option Buffer := do
  let len := tmp_buf.length
  let reuseable_sz := usub b.reader_index_ kPrependSize
  let b ←
    if reuseable_sz ≥ len then do
      let unread ← load b.buffer_ b.readerIter b.end_
      let moved ← store b.buffer_ kPrependSize unread
      some {
        buffer_ := moved
        writer_index_ := kPrependSize + b.readableSize
        reader_index_ := kPrependSize }
    else
      some { b with buffer_ := resize b.buffer_ (b.writer_index_ + len) }
  let mem ← store b.buffer_ b.end_ tmp_buf
  some { b with buffer_ := mem, writer_index_ := b.writer_index_ + len }

/-- `Buffer::writeFromFD`: the tail of the array and a temporary of `kTmpBuffSize` bytes are the two
    `iovec`s of one `readv`. -/
def writeFromFD (b : Buffer) (r : ReadResult) : Option (Int × Buffer) := do
  let writable_sz := b.writableSize
  if b.end_ + writable_sz ≤ b.buffer_.length then
    let (n, got) := sysw.read (writable_sz + kTmpBuffSize) r
    if n ≤ 0 then
      some (n, b)
    else
      let mem ← store b.buffer_ b.end_ (got.take writable_sz)
      let b := { b with buffer_ := mem }
      let n_p := n.toNat
      if n_p ≤ writable_sz then
        some (n, { b with writer_index_ := b.writer_index_ + n_p })
      else
        let b := { b with writer_index_ := b.writer_index_ + writable_sz }
        let tmp_buf := got.drop writable_sz
        let b ← b.append (tmp_buf.take (n_p - writable_sz))
        some (n, b)
  else
    none

/-- `Buffer::readToFD` -/
def readToFD (b : Buffer) (w : WriteResult) : Option (WriteCall × Buffer) := do
  let offered ← load b.buffer_ b.readerIter (b.readerIter + b.readableSize)
  let n := sysw.write offered w
  if n < 0 then
    some (⟨offered, n⟩, b)
  else
    some (⟨offered, n⟩, { b with reader_index_ := b.reader_index_ + n.toNat })

/-! ## Specifications -/

/-- The order of the indices. -/
structure InStorage (b : Buffer) : Prop where
  prepend : kPrependSize ≤ b.reader_index_
  order : b.reader_index_ ≤ b.writer_index_
  size : b.writer_index_ ≤ b.buffer_.length

/-- The bytes in `[reader_index_, writer_index_)`. -/
def unread (b : Buffer) : Bytes := Lib.slice b.buffer_ b.reader_index_ b.writer_index_

/-- The indices of a new buffer are in storage. -/
lemma new_inStorage : new.InStorage where
  prepend := Nat.le_refl _
  order := Nat.le_refl _
  size := by simp [new]

/-- A new buffer has nothing to read. -/
lemma new_unread : new.unread = [] := by
  simp [unread, new, Lib.slice]

/-- There are as many unread bytes as between the indices. -/
lemma InStorage.unread_length {b : Buffer} (inv : b.InStorage) :
    b.unread.length = b.writer_index_ - b.reader_index_ :=
  Lib.slice_length inv.size

/-- `readableSize` is the number of unread bytes. -/
lemma InStorage.readableSize {b : Buffer} (inv : b.InStorage) :
    b.readableSize = b.unread.length := by
  rw [inv.unread_length, Buffer.readableSize, usub_of_le inv.order]

/-- `writableSize` is the number of bytes after the writer. -/
lemma InStorage.writableSize {b : Buffer} (inv : b.InStorage) :
    b.writableSize = b.buffer_.length - b.writer_index_ :=
  usub_of_le inv.size

/-- Copying bytes in at the writer index. -/
lemma InStorage.fill {b : Buffer} (inv : b.InStorage) {src : Bytes}
    (h : b.writer_index_ + src.length ≤ b.buffer_.length) :
    ∃ mem, store b.buffer_ b.end_ src = some mem ∧ mem.length = b.buffer_.length ∧
      InStorage ⟨mem, b.reader_index_, b.writer_index_ + src.length⟩ ∧
      unread ⟨mem, b.reader_index_, b.writer_index_ + src.length⟩ = b.unread ++ src := by
  obtain ⟨mem, e, len, before, stored⟩ := store_spec h
  refine ⟨mem, e, len, ⟨inv.prepend, ?_, ?_⟩, ?_⟩
  · exact Nat.le_trans inv.order (Nat.le_add_right _ _)
  · rw [len]; exact h
  · have hb : Lib.slice mem b.reader_index_ b.writer_index_ = b.unread := Lib.slice_congr before
    rw [unread, ← Lib.slice_append inv.order (Nat.le_add_right _ _), hb, stored]

/-- Moving the unread bytes to the front (the first branch of `Buffer::append`). -/
lemma InStorage.compact {b : Buffer} (inv : b.InStorage) :
    ∃ mem, load b.buffer_ b.readerIter b.end_ = some b.unread ∧
      store b.buffer_ kPrependSize b.unread = some mem ∧ mem.length = b.buffer_.length ∧
      InStorage ⟨mem, kPrependSize, kPrependSize + b.unread.length⟩ ∧
      unread ⟨mem, kPrependSize, kPrependSize + b.unread.length⟩ = b.unread := by
  have room : kPrependSize + b.unread.length ≤ b.buffer_.length := by
    have h1 := inv.prepend
    have h2 := inv.order
    have h3 := inv.size
    rw [inv.unread_length]
    omega
  obtain ⟨mem, e, len, _, stored⟩ := store_spec room
  refine ⟨mem, if_pos ⟨inv.order, inv.size⟩, e, len, ⟨Nat.le_refl _, ?_, ?_⟩, stored⟩
  · exact Nat.le_add_right _ _
  · rw [len]; exact room

/-- `Buffer::append` is defined and puts the bytes in. -/
lemma InStorage.append_spec {b : Buffer} (inv : b.InStorage) (tmp_buf : Bytes) :
    ∃ b', b.append tmp_buf = some b' ∧ b'.InStorage ∧ b'.unread = b.unread ++ tmp_buf := by
  simp only [append, Option.bind_eq_bind, usub_of_le inv.prepend]
  by_cases h : b.reader_index_ - kPrependSize ≥ tmp_buf.length
  · obtain ⟨mem, e1, e2, len, inv1, un1⟩ := inv.compact
    -- the consumed prefix makes room for the new bytes
    have room : kPrependSize + b.unread.length + tmp_buf.length ≤ mem.length := by
      have h1 := inv.prepend
      have h2 := inv.order
      have h3 := inv.size
      rw [len, inv.unread_length]
      omega
    obtain ⟨mem', e3, _, inv2, un2⟩ := inv1.fill room
    refine ⟨_, ?_, inv2, un2.trans (by rw [un1])⟩
    simp only [if_pos h, e1, e2, Option.bind_some, inv.readableSize]
    rw [show Buffer.end_ ⟨mem, kPrependSize, kPrependSize + b.unread.length⟩
      = kPrependSize + b.unread.length from rfl] at e3 ⊢
    rw [e3]
    rfl
  · -- the new size may be below the old one, but never below the writer
    have hr : (resize b.buffer_ (b.writer_index_ + tmp_buf.length)).take b.writer_index_
        = b.buffer_.take b.writer_index_ := resize_take (Nat.le_add_right _ _) inv.size
    have inv1 : InStorage { b with buffer_ := resize b.buffer_ (b.writer_index_ + tmp_buf.length) } := by
      refine ⟨inv.prepend, inv.order, ?_⟩
      rw [resize_length]
      exact Nat.le_add_right _ _
    have un1 : unread { b with buffer_ := resize b.buffer_ (b.writer_index_ + tmp_buf.length) }
        = b.unread := Lib.slice_congr hr
    obtain ⟨mem', e3, _, inv2, un2⟩ := inv1.fill (Nat.le_of_eq (resize_length (n := b.writer_index_ + tmp_buf.length)).symm)
    refine ⟨_, ?_, inv2, un2.trans (by rw [un1])⟩
    simp only [if_neg h, Option.bind_some]
    rw [e3]
    rfl

/-- A read that fails, or that meets the end of input, leaves the buffer unchanged. -/
lemma InStorage.writeFromFD_nonpos {b : Buffer} (inv : b.InStorage) {r : ReadResult}
    (h : (sysw.read (b.writableSize + kTmpBuffSize) r).1 ≤ 0) :
    b.writeFromFD r = some ((sysw.read (b.writableSize + kTmpBuffSize) r).1, b) := by
  have iovec : b.end_ + b.writableSize ≤ b.buffer_.length := by
    have := inv.size
    rw [inv.writableSize, end_]
    omega
  simp only [writeFromFD, if_pos iovec, Option.bind_eq_bind, if_pos h]

/-- `Buffer::writeFromFD` is defined and puts in what the kernel delivered. -/
lemma InStorage.writeFromFD_spec {b : Buffer} (inv : b.InStorage) (r : ReadResult) :
    ∃ b', b.writeFromFD r = some ((sysw.read (b.writableSize + kTmpBuffSize) r).1, b') ∧
      b'.InStorage ∧
      b'.unread = b.unread ++ (sysw.read (b.writableSize + kTmpBuffSize) r).2 := by
  have hs := inv.size
  have hw := inv.writableSize
  have iovec : b.end_ + b.writableSize ≤ b.buffer_.length := by
    rw [hw, end_]
    omega
  by_cases hn : (sysw.read (b.writableSize + kTmpBuffSize) r).1 ≤ 0
  · refine ⟨b, inv.writeFromFD_nonpos hn, inv, ?_⟩
    rw [sysw.read_nonpos hn, List.append_nil]
  · simp only [writeFromFD, if_pos iovec, Option.bind_eq_bind]
    generalize er : sysw.read (b.writableSize + kTmpBuffSize) r = res at hn ⊢
    obtain ⟨n, got⟩ := res
    simp only at hn ⊢
    have hl : n = got.length := by
      have h := @sysw.read_pos (b.writableSize + kTmpBuffSize) r
      rw [er] at h
      exact (h (by omega)).1
    subst hl
    have room : b.writer_index_ + (got.take b.writableSize).length ≤ b.buffer_.length := by
      rw [List.length_take]
      omega
    obtain ⟨mem, e1, _, inv1, un1⟩ := inv.fill room
    simp only [if_neg hn, e1, Option.bind_some, Int.toNat_natCast]
    by_cases hf : got.length ≤ b.writableSize
    · rw [List.take_of_length_le hf] at inv1 un1
      exact ⟨_, if_pos hf, inv1, un1⟩
    · -- the tail is full, and what went into the temporary is appended
      have hm : (got.take b.writableSize).length = b.writableSize := by
        rw [List.length_take]
        omega
      rw [hm] at inv1 un1
      obtain ⟨b', e2, inv2, un2⟩ := inv1.append_spec (got.drop b.writableSize)
      have ht : (got.drop b.writableSize).take (got.length - b.writableSize)
          = got.drop b.writableSize := List.take_of_length_le (by rw [List.length_drop])
      refine ⟨b', ?_, inv2, ?_⟩
      · rw [if_neg hf, ht, e2, Option.bind_some]
      · rw [un2, un1, List.append_assoc, List.take_append_drop]

/-- `Buffer::read` takes bytes out, unless there are too few. -/
lemma InStorage.read_spec {b : Buffer} (inv : b.InStorage) (len : Nat) :
    if len ≤ b.unread.length then
      (b.read len).1 = true ∧ (b.read len).2.InStorage ∧ (b.read len).2.unread = b.unread.drop len
    else
      b.read len = (false, b) := by
  have hl := inv.unread_length
  have hp := inv.prepend
  have hs := inv.size
  simp only [read, inv.readableSize]
  by_cases h : len ≤ b.unread.length
  · rw [if_pos h, if_neg (Nat.not_lt.2 h)]
    by_cases e : b.unread.length = len
    · rw [if_pos e]
      refine ⟨rfl, ⟨Nat.le_refl _, Nat.le_refl _, ?_⟩, ?_⟩
      · exact Nat.le_trans inv.prepend (Nat.le_trans inv.order inv.size)
      · simp [readAll, unread, Lib.slice, ← e]
    · rw [if_neg e]
      refine ⟨rfl, ⟨?_, ?_, inv.size⟩, ?_⟩
      · exact Nat.le_trans inv.prepend (Nat.le_add_right _ _)
      · show b.reader_index_ + len ≤ b.writer_index_
        omega
      · exact Lib.slice_drop.symm
  · rw [if_neg h, if_pos (Nat.not_le.1 h)]

/-- `Buffer::readUntil` takes bytes out up to a position between the reader and the writer. -/
lemma InStorage.readUntil_spec {b : Buffer} (inv : b.InStorage) (iter : Nat) :
    if b.reader_index_ ≤ iter ∧ iter ≤ b.writer_index_ then
      (b.readUntil iter).1 = true ∧ (b.readUntil iter).2.InStorage ∧
        (b.readUntil iter).2.unread = b.unread.drop (iter - b.reader_index_)
    else
      b.readUntil iter = (false, b) := by
  simp only [readUntil, readerIter, end_, ge_iff_le]
  by_cases h : b.reader_index_ ≤ iter ∧ iter ≤ b.writer_index_
  · have rd := inv.read_spec (iter - b.reader_index_)
    rw [if_pos (by rw [inv.unread_length]; omega)] at rd
    rw [if_pos h, if_pos h]
    exact rd
  · rw [if_neg h, if_neg h]

/-- `Buffer::readToFD` offers the unread bytes and takes out those accepted. -/
lemma InStorage.readToFD_spec {b : Buffer} (inv : b.InStorage) (w : WriteResult) :
    ∃ b', b.readToFD w = some (⟨b.unread, sysw.write b.unread w⟩, b') ∧ b'.InStorage ∧
      b'.unread = b.unread.drop (sysw.write b.unread w).toNat := by
  have hl := inv.unread_length
  have ho := inv.order
  have hle := @sysw.write_le b.unread w
  have hld : load b.buffer_ b.readerIter (b.readerIter + b.readableSize) = some b.unread := by
    rw [inv.readableSize, hl, readerIter, Nat.add_sub_cancel' ho]
    exact if_pos ⟨ho, inv.size⟩
  simp only [readToFD, hld, Option.bind_eq_bind, Option.bind_some]
  by_cases h : sysw.write b.unread w < 0
  · refine ⟨b, if_pos h, inv, ?_⟩
    rw [Int.toNat_of_nonpos (by omega), List.drop_zero]
  · refine ⟨_, if_neg h, ⟨?_, ?_, inv.size⟩, Lib.slice_drop.symm⟩
    · exact Nat.le_trans inv.prepend (Nat.le_add_right _ _)
    · show b.reader_index_ + _ ≤ b.writer_index_
      omega

/-! ## Sequences of operations -/

/-- The public operations. -/
inductive Op where
  | append (tmp_buf : Bytes)
  | writeFromFD (r : ReadResult)
  | read (len : Nat)
  | readUntil (iter : Nat)
  | readAll
  | readToFD (w : WriteResult)
deriving DecidableEq, Repr

/-- The effect of an operation on the buffer. -/
def Op.exec (b : Buffer) : Op → Option Buffer
  | .append tmp_buf => b.append tmp_buf
  | .writeFromFD r => (b.writeFromFD r).map Prod.snd
  | .read len => some (b.read len).2
  | .readUntil iter => some (b.readUntil iter).2
  | .readAll => some b.readAll.2
  | .readToFD w => (b.readToFD w).map Prod.snd

/-- The bytes the caller or the kernel puts in. -/
def Op.put (b : Buffer) : Op → Bytes
  | .append tmp_buf => tmp_buf
  | .writeFromFD r => (sysw.read (b.writableSize + kTmpBuffSize) r).2
  | _ => []

/-- The number of bytes the caller or the kernel takes out; a refused request takes none. -/
def Op.taken (b : Buffer) : Op → Nat
  | .read len => if len ≤ b.unread.length then len else 0
  | .readUntil iter =>
    if b.reader_index_ ≤ iter ∧ iter ≤ b.writer_index_ then iter - b.reader_index_ else 0
  | .readAll => b.unread.length
  | .readToFD w => (sysw.write b.unread w).toNat
  | _ => 0

/-- A buffer with all the bytes put in so far and the number of those taken out. -/
structure History where
  buf : Buffer
  put : Bytes
  taken : Nat

def History.init : History := ⟨new, [], 0⟩

def History.step (h : History) (op : Op) : Option History := do
  let buf ← op.exec h.buf
  some ⟨buf, h.put ++ op.put h.buf, h.taken + op.taken h.buf⟩

/-- The invariant of a history. -/
structure History.Inv (h : History) : Prop where
  inStorage : h.buf.InStorage
  queue : Lib.Holds h.put h.taken h.buf.unread

/-- The invariant holds of a new buffer. -/
lemma History.init_inv : init.Inv where
  inStorage := new_inStorage
  queue := by
    rw [show init.buf.unread = [] from new_unread]
    exact .nil

/-- One operation: it is defined and is a step of the queue. -/
lemma InStorage.exec_spec {b : Buffer} (inv : b.InStorage) (op : Op) :
    ∃ b', op.exec b = some b' ∧ b'.InStorage ∧ op.taken b ≤ b.unread.length ∧
      b'.unread = b.unread.drop (op.taken b) ++ op.put b := by
  cases op with
  | append tmp_buf =>
    obtain ⟨b', e, inv', un⟩ := inv.append_spec tmp_buf
    exact ⟨b', e, inv', Nat.zero_le _, un⟩
  | writeFromFD r =>
    obtain ⟨b', e, inv', un⟩ := inv.writeFromFD_spec r
    exact ⟨b', by simp only [Op.exec, e, Option.map_some], inv', Nat.zero_le _, un⟩
  | read len =>
    have rd := inv.read_spec len
    refine ⟨_, rfl, ?_⟩
    simp only [Op.taken, Op.put, List.append_nil]
    split at rd
    case isTrue h => exact ⟨rd.2.1, by rw [if_pos h]; exact h, by rw [if_pos h]; exact rd.2.2⟩
    case isFalse h =>
      rw [rd, if_neg h]
      exact ⟨inv, Nat.zero_le _, rfl⟩
  | readUntil iter =>
    have rd := inv.readUntil_spec iter
    refine ⟨_, rfl, ?_⟩
    simp only [Op.taken, Op.put, List.append_nil]
    split at rd
    case isTrue h =>
      rw [if_pos h, inv.unread_length]
      exact ⟨rd.2.1, by omega, rd.2.2⟩
    case isFalse h =>
      rw [rd, if_neg h]
      exact ⟨inv, Nat.zero_le _, rfl⟩
  | readAll =>
    refine ⟨_, rfl, ⟨Nat.le_refl _, Nat.le_refl _, ?_⟩, Nat.le_refl _, ?_⟩
    · exact Nat.le_trans inv.prepend (Nat.le_trans inv.order inv.size)
    · simp [Op.taken, Op.put, readAll, unread, Lib.slice]
  | readToFD w =>
    obtain ⟨b', e, inv', un⟩ := inv.readToFD_spec w
    refine ⟨b', by simp only [Op.exec, e, Option.map_some], inv', sysw.write_le, ?_⟩
    rw [un]
    exact (List.append_nil _).symm

/-- Every operation is defined, and keeps the invariant. -/
lemma History.step_inv (h : History) (op : Op) (inv : h.Inv) :
    ∃ h', h.step op = some h' ∧ h'.Inv := by
  obtain ⟨b', e, inv', le, un⟩ := inv.inStorage.exec_spec op
  refine ⟨⟨b', h.put ++ op.put h.buf, h.taken + op.taken h.buf⟩, ?_, inv', ?_⟩
  · simp only [History.step, e, Option.bind_eq_bind, Option.bind_some]
  · show Lib.Holds _ _ b'.unread
    rw [un]
    exact (inv.queue.take le).put

/-- Every sequence of operations on a fresh buffer is defined (no copy and no `iovec` leaves the
    array), keeps the order of the indices and behaves as a queue; `read` and `readUntil` refuse exactly
    the requests beyond the unread bytes and then change nothing. -/
theorem History.buffer_is_fifo (ops : List Op) :
    ∃ h, ops.foldlM History.step init = some h ∧
      kPrependSize ≤ h.buf.reader_index_ ∧ h.buf.reader_index_ ≤ h.buf.writer_index_ ∧
      h.buf.writer_index_ ≤ h.buf.buffer_.length ∧
      h.taken ≤ h.put.length ∧ h.buf.unread = h.put.drop h.taken ∧
      (∀ len, (h.buf.read len).1 = false ↔ h.buf.unread.length < len) ∧
      (∀ len, (h.buf.read len).1 = false → (h.buf.read len).2 = h.buf) ∧
      (∀ iter, (h.buf.readUntil iter).1 = false ↔
        iter < h.buf.readerIter ∨ h.buf.end_ < iter) ∧
      (∀ iter, (h.buf.readUntil iter).1 = false → (h.buf.readUntil iter).2 = h.buf) := by
  obtain ⟨h, run, inv⟩ := Lib.foldlM_inv History.step_inv init_inv ops
  obtain ⟨prepend, order, size⟩ := inv.inStorage
  refine ⟨h, run, prepend, order, size, inv.queue.le, inv.queue.eq, ?_, ?_, ?_, ?_⟩
  · intro len
    have rd := inv.inStorage.read_spec len
    split at rd
    case isTrue hl => simp only [rd.1, Bool.true_eq_false, false_iff, not_lt, hl]
    case isFalse hl => simp only [rd, Nat.not_le.1 hl]
  · intro len ef
    have rd := inv.inStorage.read_spec len
    split at rd
    case isTrue => rw [rd.1] at ef; cases ef
    case isFalse => rw [rd]
  · intro iter
    have rd := inv.inStorage.readUntil_spec iter
    simp only [readerIter, end_]
    split at rd
    case isTrue hl =>
      simp only [rd.1, Bool.true_eq_false, false_iff]
      omega
    case isFalse hl =>
      simp only [rd, true_iff]
      omega
  · intro iter ef
    have rd := inv.inStorage.readUntil_spec iter
    split at rd
    case isTrue => rw [rd.1] at ef; cases ef
    case isFalse => rw [rd]

end Buffer

end WebServer.Net
