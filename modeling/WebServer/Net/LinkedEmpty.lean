import WebServer.Net.LinkedBuffer

/-!
# Empty linked buffers

A linked buffer without unread bytes comes in three forms. After the constructor or `readAll` the reader is
a default-constructed iterator; after an exact drain it is the end of an empty deque; after appends of no
bytes it is in an empty node. Only in the last form do the operations work: on a default-constructed reader
`readableSize` already looks for a node that is not there, and at the end of the deque `read(0)` does,
since the loop of `operator+=` runs at least once. `empty_behaves_iff` says so for every sequence of calls.
-/

namespace WebServer.Net.LinkedBuffer

/-- The public operations. -/
inductive Call where
  | append (buf : Bytes)
  | writeFromFD (r : ReadResult)
  | read (n : Nat)
  | readUntil (iter : LinkedBufferIter)
  | readAll
  | readToFD (w : WriteResult)

/-- The effect of a call on the buffer. -/
def Call.exec (lb : LinkedBuffer) : Call → Option LinkedBuffer
  | .append buf => some (lb.append buf)
  | .writeFromFD r => some (lb.writeFromFD r).2
  | .read n => (lb.read n).map Prod.snd
  | .readUntil iter => (lb.readUntil iter).map Prod.snd
  | .readAll => some lb.readAll.2
  | .readToFD w => (lb.readToFD w).map Prod.snd

/-- The iterator given to `readUntil` is a position of the buffer. -/
def Call.Valid (lb : LinkedBuffer) : Call → Prop
  | .readUntil iter => ∃ bs, Reads lb.buffer_ iter bs
  | _ => True

/-- The operations find nothing to read, and are defined. -/
structure BehavesEmpty (lb : LinkedBuffer) : Prop where
  readableSize : lb.readableSize = some 0
  read_zero : ∃ lb', lb.read 0 = some (true, lb')
  read_pos : ∀ n, 0 < n → lb.read n = some (false, lb)
  readToFD : ∀ w, ∃ ret lb', lb.readToFD w = some (⟨[], ret⟩, lb')

variable {lb lb' : LinkedBuffer}

/-- At the end of an empty deque, `read(0)` has no node to look at. -/
lemma Seated.read_drained (st : lb.Seated) (en : lb.buffer_.nodes = []) (n : Nat) :
    lb.read n = if 0 < n then some (false, lb) else none := by
  rcases st.cases with ⟨_, er, eu⟩ | ⟨node, rest, c, en', _⟩
  · simp only [LinkedBuffer.read, st.readableSize, eu, List.length_nil, Option.bind_eq_bind,
      Option.bind_some]
    cases n with
    | zero =>
      simp [er, LinkedBufferIter.plus, LinkedBufferIter.addForward,
        LinkedBufferIter.charDistanceToEndOfNode]
    | succ n => rfl
  · rw [en] at en'
    cases en'

/-- Writing out a buffer without nodes leaves it as it is. -/
lemma Seated.readToFD_drained (st : lb.Seated) (en : lb.buffer_.nodes = []) {w : WriteResult}
    {res : WriteCall × LinkedBuffer} (h : lb.readToFD w = some res) : res.2 = lb := by
  obtain ⟨vec, ev, el, ef⟩ := st.toIOVec_spec
  have eu : lb.unread = [] := by
    rcases st.cases with ⟨_, _, eu⟩ | ⟨node, rest, c, en', _⟩
    · exact eu
    · rw [en] at en'
      cases en'
  rw [eu] at ef
  simp only [LinkedBuffer.readToFD, ev, el, Option.bind_eq_bind, Option.bind_some, if_true, ef] at h
  split at h
  · cases h
    rfl
  · have zero : (sysw.write [] w).toNat = 0 := Nat.le_zero.1 sysw.write_le
    rw [zero, st.read_drained en, if_neg (Nat.lt_irrefl 0)] at h
    cases h

/-- `readableSize` is undefined before the first append. -/
lemma Fresh.readableSize_none (fr : lb.Fresh) : lb.readableSize = none := by
  simp [LinkedBuffer.readableSize, sizeLoop, fr.reader, LinkedBufferIter.charDistanceToEndOfNode]

/-- `read` is undefined before the first append. -/
lemma Fresh.read_none (fr : lb.Fresh) (n : Nat) : lb.read n = none := by
  simp [LinkedBuffer.read, fr.readableSize_none]

/-- `readToFD` is undefined before the first append. -/
lemma Fresh.readToFD_none (fr : lb.Fresh) (w : WriteResult) : lb.readToFD w = none := by
  simp [LinkedBuffer.readToFD, numReadableNodes, fr.reader]

/-- Every append leaves the reader seated. -/
lemma append_seated (inv : lb.Fresh ∨ lb.Seated) (buf : Bytes) : (lb.append buf).Seated := by
  rcases inv with fr | se
  · exact (fr.append_spec buf).1
  · exact (se.append_spec buf).1

/-- A `read` that is defined keeps the reader in a node or at the end, drained or not. -/
lemma Seated.read_seated (se : lb.Seated) {n : Nat} {res : Bool × LinkedBuffer} (e : lb.read n = some res) :
    res.2.Seated := by
  by_cases en : lb.buffer_.nodes = []
  · rw [se.read_drained en] at e
    split at e
    · cases e
      exact se
    · cases e
  · have rd := se.read_spec en n
    split at rd
    · obtain ⟨lb1, e1, se1, _⟩ := rd
      cases e.symm.trans e1
      exact se1
    · cases e.symm.trans rd
      exact se

/-- Writing out leaves the reader seated. -/
lemma Seated.readToFD_seated (se : lb.Seated) {w : WriteResult} {res : WriteCall × LinkedBuffer}
    (e : lb.readToFD w = some res) : res.2.Seated := by
  by_cases en : lb.buffer_.nodes = []
  · rw [se.readToFD_drained en e]
    exact se
  · obtain ⟨lb1, e1, se1, _⟩ := se.readToFD_spec en w
    cases e.symm.trans e1
    exact se1

/-- Every call that is defined leaves a buffer that nothing has been appended to or a seated one. -/
lemma exec_inv (inv : lb.Fresh ∨ lb.Seated) {call : Call} (valid : call.Valid lb)
    (st : call.exec lb = some lb') : lb'.Fresh ∨ lb'.Seated := by
  cases call with
  | append buf =>
    cases st
    exact .inr (append_seated inv buf)
  | writeFromFD r =>
    cases st
    rw [writeFromFD_eq]
    dsimp only
    split
    · exact inv
    · exact .inr (append_seated inv _)
  | read n =>
    obtain ⟨res, e, rfl⟩ := Option.map_eq_some_iff.1 st
    rcases inv with fr | se
    · rw [fr.read_none] at e
      cases e
    · exact .inr (se.read_seated e)
  | readUntil iter =>
    obtain ⟨bs, rd⟩ := valid
    obtain ⟨⟨ok, _⟩, e, rfl⟩ := Option.map_eq_some_iff.1 st
    obtain ⟨before, elt, e'⟩ := Option.bind_eq_some_iff.1 e
    cases before with
    | true =>
      cases e'
      exact inv
    | false =>
      obtain ⟨lb1, e1, se1, _⟩ := readUntil_spec rd elt
      cases e.symm.trans e1
      exact .inr se1
  | readAll =>
    cases st
    exact .inl ⟨rfl, rfl⟩
  | readToFD w =>
    obtain ⟨res, e, rfl⟩ := Option.map_eq_some_iff.1 st
    rcases inv with fr | se
    · rw [fr.readToFD_none] at e
      cases e
    · exact .inr (se.readToFD_seated e)

/-- In an empty node everything works. -/
lemma Seated.behavesEmpty (st : lb.Seated) (ne : lb.buffer_.nodes ≠ []) (eu : lb.unread = []) :
    lb.BehavesEmpty where
  readableSize := by rw [st.readableSize, eu, List.length_nil]
  read_zero := by
    have rd := st.read_spec ne 0
    rw [if_pos (Nat.zero_le _)] at rd
    obtain ⟨lb', e, _⟩ := rd
    exact ⟨lb', e⟩
  read_pos n pos := by
    have rd := st.read_spec ne n
    rwa [if_neg (by rw [eu, List.length_nil]; omega)] at rd
  readToFD w := by
    obtain ⟨lb', e, _⟩ := st.readToFD_spec ne w
    rw [eu] at e
    exact ⟨_, lb', e⟩

/-- After every sequence of calls that leaves no unread byte, the buffer behaves as empty if and only if it
    has a node, which then is an empty one with the reader in it. -/
theorem empty_behaves_iff (calls : List Call) (lb : LinkedBuffer)
    (run : Lib.Steps Call.Valid Call.exec new calls lb) (eu : lb.unread = []) :
    lb.BehavesEmpty ↔ lb.buffer_.nodes ≠ [] := by
  have inv : lb.Fresh ∨ lb.Seated :=
    @Lib.Steps.inv _ _ _ _ (fun lb => lb.Fresh ∨ lb.Seated) _ _ _ run
      (fun inv valid st => exec_inv inv valid st) (.inl new_fresh)
  constructor
  · intro behaves en
    rcases inv with fr | se
    · cases behaves.readableSize.symm.trans fr.readableSize_none
    · obtain ⟨lb', e⟩ := behaves.read_zero
      rw [se.read_drained en, if_neg (Nat.lt_irrefl 0)] at e
      cases e
  · intro ne
    rcases inv with fr | se
    · exact absurd fr.nodes ne
    · exact se.behavesEmpty ne eu

/-- A drained buffer to which no bytes have been appended. -/
theorem empty_behaves_iff_empty_node :
    ∃ lb, Lib.Steps Call.Valid Call.exec new [.append (bytes "ab"), .read 2, .append []] lb ∧
      lb.BehavesEmpty := by
  have run : Lib.Steps Call.Valid Call.exec new [.append (bytes "ab"), .read 2, .append []]
      ⟨⟨1, [[]]⟩, ⟨some 1, some 0⟩⟩ :=
    .cons trivial rfl (.cons trivial rfl (.cons trivial rfl .nil))
  exact ⟨_, run, (empty_behaves_iff _ _ run rfl).2 (by decide)⟩

/-- A new buffer does not even know its size, and a drained one does not let nothing be read. -/
theorem empty_buffer_undefined :
    (Lib.Steps Call.Valid Call.exec new [] new ∧ new.unread = [] ∧ new.readableSize = none) ∧
    ∃ lb, Lib.Steps Call.Valid Call.exec new [.append (bytes "ab"), .read 2] lb ∧
      lb.unread = [] ∧ lb.read 0 = none :=
  ⟨⟨.nil, rfl, rfl⟩, ⟨⟨1, []⟩, ⟨some 1, none⟩⟩, .cons trivial rfl (.cons trivial rfl .nil), rfl, rfl⟩

end WebServer.Net.LinkedBuffer
