import WebServer.Net.Buffer
import WebServer.Net.LinkedRange

/-!
# The two buffer types

The template parameter `BufferType` of the connection, the parser and the server: `BufferType` lists the
operations they use, `LawfulBuffer` what the operations do to the unread bytes. Both `Buffer` and
`LinkedBuffer` are lawful.

A `LinkedBuffer` has no reader before its first append, so `LawfulBuffer` tells a `Fresh` buffer from a
`Ready` one, and empty nodes make positions ambiguous, so it tells a `Ready` buffer (all that writing
needs) from a `Parsable` one (filled by non-empty appends only, as an input buffer is).
-/

namespace WebServer.Net

/-- The operations used through the template parameter `BufferType`. -/
class BufferType (B : Type) (I : outParam Type) extends Lib.RandomAccess B I UInt8 where
  new : B
  append : B → Bytes → Option B
  writeFromFD : B → ReadResult → Option (Int × B)
  readToFD : B → WriteResult → Option (WriteCall × B)
  readableSize : B → Option Nat
  readerIter : B → I
  end_ : B → I
  readUntil : B → I → Option (Bool × B)

open BufferType

/-- What the operations of a buffer type do to the unread bytes. -/
class LawfulBuffer (B : Type) (I : outParam Type) [BufferType B I] where
  unread : B → Bytes
  Fresh : B → Prop
  Ready : B → Prop
  Parsable : B → Prop
  At : B → I → Nat → Prop
  /-- The number of bytes one `writeFromFD` can take in. -/
  capacity : B → Nat
  fresh_new : Fresh new
  fresh_unread : ∀ {b}, Fresh b → unread b = []
  ready : ∀ {b}, Parsable b → Ready b
  capacity_pos : ∀ b, 0 < capacity b
  append_spec : ∀ {b}, Fresh b ∨ Ready b → ∀ bs,
    ∃ b', append b bs = some b' ∧ Ready b' ∧ unread b' = unread b ++ bs
  readableSize_spec : ∀ {b}, Ready b → readableSize b = some (unread b).length
  readToFD_spec : ∀ {b}, Ready b → unread b ≠ [] → ∀ w,
    ∃ b', readToFD b w = some (⟨unread b, sysw.write (unread b) w⟩, b') ∧ Ready b' ∧
      unread b' = (unread b).drop (sysw.write (unread b) w).toNat
  append_parsable : ∀ {b}, Fresh b ∨ Parsable b → ∀ {bs}, bs ≠ [] →
    ∃ b', append b bs = some b' ∧ Parsable b' ∧ unread b' = unread b ++ bs
  writeFromFD_nonpos : ∀ {b}, Fresh b ∨ Parsable b → ∀ {r}, (sysw.read (capacity b) r).1 ≤ 0 →
    writeFromFD b r = some ((sysw.read (capacity b) r).1, b)
  writeFromFD_pos : ∀ {b}, Fresh b ∨ Parsable b → ∀ {r}, 0 < (sysw.read (capacity b) r).1 →
    ∃ b', writeFromFD b r = some ((sysw.read (capacity b) r).1, b') ∧ Parsable b' ∧
      unread b' = unread b ++ (sysw.read (capacity b) r).2
  represents : ∀ {b}, Parsable b → Lib.Represents b (unread b) (At b)
  at_reader : ∀ {b}, Parsable b → At b (readerIter b) 0
  at_end : ∀ {b}, Parsable b → At b (end_ b) (unread b).length
  readUntil_spec : ∀ {b}, Parsable b → ∀ {i p}, At b i p →
    ∃ b', readUntil b i = some (true, b') ∧ Parsable b' ∧ unread b' = (unread b).drop p

/-! ## The flat buffer -/

instance : BufferType Buffer Nat where
  deref b i := b.buffer_[i]?
  next b i := if i < b.buffer_.length then some (i + 1) else none
  prev _ i := if 0 < i then some (i - 1) else none
  plus b i n := if 0 ≤ i + n ∧ i + n ≤ b.buffer_.length then some (i + n).toNat else none
  minus _ i j := some ((i : Int) - j)
  same _ i j := i == j
  extent b := b.buffer_.length + 1
  new := Buffer.new
  append := Buffer.append
  writeFromFD := Buffer.writeFromFD
  readToFD := Buffer.readToFD
  readableSize b := some b.readableSize
  readerIter := Buffer.readerIter
  end_ := Buffer.end_
  readUntil b i := some (b.readUntil i)

/-- The `char*` is at position `p` of the unread bytes. -/
def Buffer.At (b : Buffer) (i p : Nat) : Prop := i = b.reader_index_ + p ∧ p ≤ b.unread.length

/-- The pointers from the reader to the writer are the positions of the unread bytes. -/
lemma Buffer.InStorage.represents {b : Buffer} (inv : b.InStorage) :
    Lib.Represents b b.unread b.At where
  bound h := h.2
  same {i j p q} h1 h2 := by
    obtain ⟨rfl, _⟩ := h1
    obtain ⟨rfl, _⟩ := h2
    show (_ == _) = true ↔ p = q
    rw [beq_iff_eq]
    omega
  deref {i p} h1 hp := by
    obtain ⟨rfl, _⟩ := h1
    have hl := inv.unread_length
    have hs := inv.size
    show b.buffer_[_]? = _
    rw [List.getElem?_eq_getElem (by omega), Option.some.injEq]
    simp only [Buffer.unread, Lib.slice, List.getElem_take, List.getElem_drop]
  next {i p} h1 hp := by
    obtain ⟨rfl, _⟩ := h1
    have hl := inv.unread_length
    have hs := inv.size
    exact ⟨_, if_pos (by omega), rfl, hp⟩
  plus {i p n} h1 hn _ := by
    obtain ⟨rfl, _⟩ := h1
    have hl := inv.unread_length
    have hs := inv.size
    refine ⟨_, if_pos (by omega), ?_, hn⟩
    omega
  minus {i j p q} h1 h2 _ := by
    obtain ⟨rfl, _⟩ := h1
    obtain ⟨rfl, _⟩ := h2
    show some _ = some _
    rw [Option.some.injEq]
    omega
  minus_neg {i j p q} h1 h2 lt := by
    obtain ⟨rfl, _⟩ := h1
    obtain ⟨rfl, _⟩ := h2
    exact ⟨_, rfl, by omega⟩
  extent := by
    have hl := inv.unread_length
    have hs := inv.size
    show _ < b.buffer_.length + 1
    omega

instance : LawfulBuffer Buffer Nat where
  unread := Buffer.unread
  Fresh b := b = Buffer.new
  Ready := Buffer.InStorage
  Parsable := Buffer.InStorage
  At := Buffer.At
  capacity b := b.writableSize + kTmpBuffSize
  fresh_new := rfl
  fresh_unread h := by rw [h]; exact Buffer.new_unread
  ready h := h
  capacity_pos _ := Nat.add_pos_right _ (by decide)
  append_spec h bs := by
    rcases h with rfl | h
    · exact Buffer.new_inStorage.append_spec bs
    · exact h.append_spec bs
  readableSize_spec h := congrArg some h.readableSize
  readToFD_spec h _ w := h.readToFD_spec w
  append_parsable h bs _ := by
    rcases h with rfl | h
    · exact Buffer.new_inStorage.append_spec bs
    · exact h.append_spec bs
  writeFromFD_nonpos {b} h r hr := by
    have inv : b.InStorage := by
      rcases h with rfl | h
      · exact Buffer.new_inStorage
      · exact h
    exact inv.writeFromFD_nonpos hr
  writeFromFD_pos {b} h r _ := by
    rcases h with rfl | h
    · exact Buffer.new_inStorage.writeFromFD_spec r
    · exact h.writeFromFD_spec r
  represents h := h.represents
  at_reader _ := ⟨rfl, Nat.zero_le _⟩
  at_end {b} h := by
    refine ⟨?_, Nat.le_refl _⟩
    show b.writer_index_ = _
    have := h.order
    rw [h.unread_length]
    omega
  readUntil_spec {b} h i p hi := by
    obtain ⟨rfl, hp⟩ := hi
    have rd := h.readUntil_spec (b.reader_index_ + p)
    rw [h.unread_length] at hp
    have ho := h.order
    rw [if_pos (by omega), Nat.add_sub_cancel_left] at rd
    refine ⟨_, congrArg some (Prod.ext rd.1 rfl), rd.2⟩

/-! ## The linked buffer -/

/-- The operations of the linked buffer, on iterators that are taken to survive `push_back` of the deque. By the rules of
    the standard they do not, and what is undefined then is so over `StampedBuffer`. -/
instance : BufferType LinkedBuffer LinkedBufferIter where
  new := LinkedBuffer.new
  append lb bs := some (lb.append bs)
  writeFromFD lb r := some (lb.writeFromFD r)
  readToFD := LinkedBuffer.readToFD
  readableSize := LinkedBuffer.readableSize
  readerIter := LinkedBuffer.readerIter
  end_ := LinkedBuffer.end_
  readUntil := LinkedBuffer.readUntil

/-- The linked buffer is lawful as far as the iterators of its deque survive `push_back`. -/
instance : LawfulBuffer LinkedBuffer LinkedBufferIter where
  unread := LinkedBuffer.unread
  Fresh := LinkedBuffer.Fresh
  Ready := LinkedBuffer.Seated
  Parsable := LinkedBuffer.Packed
  At := LinkedBuffer.At
  capacity _ := kTmpBuffSize
  fresh_new := LinkedBuffer.new_fresh
  fresh_unread h := h.unread
  ready h := h.seated
  capacity_pos _ := by decide
  append_spec h bs := by
    rcases h with h | h
    · exact ⟨_, rfl, h.append_spec bs⟩
    · exact ⟨_, rfl, h.append_spec bs⟩
  readableSize_spec h := h.readableSize
  readToFD_spec h ne w := h.readToFD_spec (h.nodes_ne ne) w
  append_parsable h _ ne := ⟨_, rfl, LinkedBuffer.append_spec_packed h ne⟩
  writeFromFD_nonpos {b} _ r hr := by
    show some (b.writeFromFD r) = _
    rw [LinkedBuffer.writeFromFD_eq, if_pos hr]
  writeFromFD_pos {b} h r hr := by
    have hn : ¬(sysw.read kTmpBuffSize r).1 ≤ 0 := by omega
    refine ⟨b.append (sysw.read kTmpBuffSize r).2, ?_, ?_⟩
    · show some (b.writeFromFD r) = _
      rw [LinkedBuffer.writeFromFD_eq, if_neg hn]
    · exact LinkedBuffer.append_spec_packed h (sysw.read_pos hr).2
  represents h := h.represents
  at_reader h := h.at_reader
  at_end _ := LinkedBuffer.at_end
  readUntil_spec h _ _ hi := h.readUntil_spec hi

end WebServer.Net
