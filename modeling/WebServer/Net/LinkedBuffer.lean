import WebServer.Lib.Run
import WebServer.Net.LinkedBufferIter

/-!
# The linked buffer

Model of `class LinkedBuffer` of `connection/buffer/linked_buffer.{h,cc}`: a deque of nodes with a
reader iterator. An `iovec` is the bytes it covers; `readToFD` is undefined when `toIOVec` does not fill
exactly the `numReadableNodes()` entries of its array.

`LinkedBuffer.Seated` is the invariant of a buffer that has been appended to: its reader is a position
in the first node kept (or the end of an empty deque). Zero-length appends make empty nodes, so the
reader may be in an empty node. The specification lemmas of the operations are stated from `Seated`;
`LinkedBuffer.History` runs sequences of operations as a connection makes them and
`LinkedBuffer.History.linkedBuffer_is_fifo` says that they are those of a queue.
-/

namespace WebServer.Net

/-- `class LinkedBuffer` -/
structure LinkedBuffer where
  buffer_ : NodeContainer
  reader_iter_ : LinkedBufferIter
deriving DecidableEq, Repr

namespace LinkedBuffer

def kMinNodeSize : Nat := 1024

/-- `LinkedBuffer::LinkedBuffer` -/
def new : LinkedBuffer := ⟨⟨0, []⟩, {}⟩

/-- `LinkedBuffer::end` -/
def end_ (lb : LinkedBuffer) : LinkedBufferIter := ⟨some lb.buffer_.end_, none⟩

/-- `LinkedBuffer::readerIter` -/
def readerIter (lb : LinkedBuffer) : LinkedBufferIter := lb.reader_iter_

/-- `LinkedBuffer::addNewNode`; reserving capacity has no effect on the contents. -/
def addNewNode (lb : LinkedBuffer) (buf : Bytes) : LinkedBuffer :=
  { lb with buffer_ := { lb.buffer_ with nodes := lb.buffer_.nodes ++ [buf] } }

/-- `LinkedBuffer::append` -/
def append (lb : LinkedBuffer) (buf : Bytes) : LinkedBuffer :=
  match lb.buffer_.nodes.getLast? with
  | none =>
    let lb := lb.addNewNode buf
    { lb with reader_iter_ := ⟨some lb.buffer_.begin_, some 0⟩ }
  | some last_node =>
    if last_node.length + buf.length < kMinNodeSize then
      { lb with buffer_ :=
        { lb.buffer_ with nodes := lb.buffer_.nodes.dropLast ++ [last_node ++ buf] } }
    else
      lb.addNewNode buf

/-- `append` adds a node. -/
def addsNode (lb : LinkedBuffer) (buf : Bytes) : Bool :=
  match lb.buffer_.nodes.getLast? with
  | none => true
  | some last_node => kMinNodeSize ≤ last_node.length + buf.length

/-- `LinkedBuffer::writeFromFD` -/
def writeFromFD (lb : LinkedBuffer) (r : ReadResult) : Int × LinkedBuffer :=
  let (n, buf) := sysw.read kTmpBuffSize r
  if n ≤ 0 then (n, lb) else (n, lb.append (buf.take n.toNat))

/-- The loop of `LinkedBuffer::readableSize`. -/
def sizeLoop (d : NodeContainer) : Nat → LinkedBufferIter → Nat → Option Nat
  | 0, _, _ => none
  | fuel + 1, iter, sz =>
    if iter.node_iter_ = some d.end_ then
      some sz
    else do
      let len ← iter.charDistanceToEndOfNode d
      sizeLoop d fuel (← iter.toFirstCharOfNextNode d) (sz + len.toNat)

/-- `LinkedBuffer::readableSize` -/
def readableSize (lb : LinkedBuffer) : Option Nat :=
  sizeLoop lb.buffer_ (lb.buffer_.nodes.length + 1) lb.reader_iter_ 0

/-- The loop of `LinkedBuffer::toIOVec`. -/
def iovLoop (d : NodeContainer) : Nat → LinkedBufferIter → Option (List Bytes)
  | 0, _ => none
  | fuel + 1, iter =>
    if iter.node_iter_ = some d.end_ then
      some []
    else do
      let node ← d.node? (← iter.node_iter_)
      let iov_base := node.drop (← iter.char_iter_)
      let iov_len ← iter.charDistanceToEndOfNode d
      let vec ← iovLoop d fuel (← iter.toFirstCharOfNextNode d)
      some (iov_base.take iov_len.toNat :: vec)

/-- `LinkedBuffer::toIOVec` -/
def toIOVec (lb : LinkedBuffer) : Option (List Bytes) :=
  iovLoop lb.buffer_ (lb.buffer_.nodes.length + 1) lb.reader_iter_

/-- `LinkedBuffer::numReadableNodes` -/
def numReadableNodes (lb : LinkedBuffer) : Option Nat :=
  lb.reader_iter_.node_iter_.map (usub lb.buffer_.end_ ·)

/-- The loop of `LinkedBuffer::freeNodesBefore`. -/
def popLoop (node_iter : Nat) : Nat → List Bytes → Option NodeContainer
  | first, [] => if first = node_iter then some ⟨first, []⟩ else none
  | first, node :: nodes =>
    if first = node_iter then some ⟨first, node :: nodes⟩ else popLoop node_iter (first + 1) nodes

/-- `LinkedBuffer::freeNodesBefore` -/
def freeNodesBefore (lb : LinkedBuffer) (node_iter : Option Nat) : Option LinkedBuffer := do
  let d ← popLoop (← node_iter) lb.buffer_.first lb.buffer_.nodes
  some { lb with buffer_ := d }

/-- `LinkedBuffer::read` -/
def read (lb : LinkedBuffer) (n : Nat) : Option (Bool × LinkedBuffer) := do
  if (← lb.readableSize) < n then
    some (false, lb)
  else
    let iter ← lb.reader_iter_.plus lb.buffer_ n
    let lb ← { lb with reader_iter_ := iter }.freeNodesBefore iter.node_iter_
    some (true, lb)

/-- `LinkedBuffer::readUntil` -/
def readUntil (lb : LinkedBuffer) (iter : LinkedBufferIter) : Option (Bool × LinkedBuffer) := do
  if ← iter.lt lb.readerIter then
    some (false, lb)
  else
    let lb ← { lb with reader_iter_ := iter }.freeNodesBefore iter.node_iter_
    some (true, lb)

/-- `LinkedBuffer::readAll` -/
def readAll (lb : LinkedBuffer) : Bool × LinkedBuffer :=
  (true, ⟨⟨lb.buffer_.end_, []⟩, {}⟩)

/-- `LinkedBuffer::readToFD` -/
def readToFD (lb : LinkedBuffer) (w : WriteResult) : Option (WriteCall × LinkedBuffer) := do
  let node_d ← lb.numReadableNodes
  let vec ← lb.toIOVec
  if vec.length = node_d then
    let n := sysw.write vec.flatten w
    if n < 0 then
      some (⟨vec.flatten, n⟩, lb)
    else
      let (_, lb) ← lb.read n.toNat
      some (⟨vec.flatten, n⟩, lb)
  else
    none

/-! ## The invariant -/

/-- The bytes from `reader_iter_` to the end of the last node. -/
def unread (lb : LinkedBuffer) : Bytes :=
  match lb.reader_iter_ with
  | ⟨some k, some c⟩ => (lb.buffer_.nodes.drop (k - lb.buffer_.first)).flatten.drop c
  | _ => []

/-- The reader is a position of the first node that is kept, or the end of an empty deque. -/
structure Seated (lb : LinkedBuffer) : Prop where
  front : lb.reader_iter_.node_iter_ = some lb.buffer_.first
  reads : Reads lb.buffer_ lb.reader_iter_ lb.unread

/-- A buffer nothing has been appended to. -/
structure Fresh (lb : LinkedBuffer) : Prop where
  nodes : lb.buffer_.nodes = []
  reader : lb.reader_iter_ = {}

/-- A new buffer is fresh. -/
lemma new_fresh : new.Fresh := ⟨rfl, rfl⟩

/-- A fresh buffer has nothing to read. -/
lemma Fresh.unread {lb : LinkedBuffer} (fr : lb.Fresh) : lb.unread = [] := by
  simp [LinkedBuffer.unread, fr.reader]

/-- The unread bytes are those that the reader reads. -/
lemma unread_of_reads {lb : LinkedBuffer} {bs} (rd : Reads lb.buffer_ lb.reader_iter_ bs) :
    lb.unread = bs := by
  generalize ei : lb.reader_iter_ = iter at rd
  cases rd with
  | node le e hc =>
    simp only [unread, ei, e, List.flatten_cons]
    exact List.drop_append_of_le_length (le_of_offset hc)
  | last => simp [unread, ei]

/-- A buffer is seated with the reader at offset `c` of its first node, or drained. -/
lemma Seated.cases {lb : LinkedBuffer} (st : lb.Seated) :
    (lb.buffer_.nodes = [] ∧ lb.reader_iter_ = ⟨some lb.buffer_.first, none⟩ ∧ lb.unread = []) ∨
    ∃ node rest c, lb.buffer_.nodes = node :: rest ∧ (c < node.length ∨ c = 0) ∧
      lb.reader_iter_ = ⟨some lb.buffer_.first, some c⟩ ∧
      lb.unread = node.drop c ++ rest.flatten := by
  obtain ⟨front, reads⟩ := st
  generalize ei : lb.reader_iter_ = iter at front reads
  generalize eb : lb.unread = bs at reads
  cases reads with
  | @node k node rest c le e hc =>
    simp only [Option.some.injEq] at front
    subst front
    rw [Nat.sub_self, List.drop_zero] at e
    exact .inr ⟨node, rest, c, e, hc, rfl, rfl⟩
  | last =>
    simp only [Option.some.injEq, NodeContainer.end_, Nat.add_eq_left,
      List.length_eq_zero_iff] at front
    refine .inl ⟨front, ?_, rfl⟩
    simp [NodeContainer.end_, front]

/-- A reader at an offset of the first node makes a seated buffer. -/
lemma seated_of_node {d : NodeContainer} {node rest c} (e : d.nodes = node :: rest)
    (hc : c < node.length ∨ c = 0) :
    Seated ⟨d, ⟨some d.first, some c⟩⟩ ∧
      unread ⟨d, ⟨some d.first, some c⟩⟩ = node.drop c ++ rest.flatten := by
  have rd : Reads d ⟨some d.first, some c⟩ (node.drop c ++ rest.flatten) :=
    Reads.node (Nat.le_refl _) (by rw [Nat.sub_self, List.drop_zero, e]) hc
  have un := @unread_of_reads ⟨d, ⟨some d.first, some c⟩⟩ _ rd
  exact ⟨⟨rfl, by rw [un]; exact rd⟩, un⟩

/-! ## Specifications -/

/-- `LinkedBuffer::append` on a buffer without nodes. -/
lemma append_nil {lb : LinkedBuffer} (e : lb.buffer_.nodes = []) (buf : Bytes) :
    (lb.append buf).Seated ∧ (lb.append buf).unread = buf := by
  have ea : lb.append buf
      = ⟨⟨lb.buffer_.first, [buf]⟩, ⟨some lb.buffer_.first, some 0⟩⟩ := by
    simp [append, addNewNode, e, NodeContainer.begin_]
  rw [ea]
  obtain ⟨st, un⟩ := @seated_of_node ⟨lb.buffer_.first, [buf]⟩ buf [] 0 rfl (.inr rfl)
  refine ⟨st, un.trans ?_⟩
  simp

/-- `LinkedBuffer::append` on a buffer with nodes grows the last node or adds one. -/
lemma append_cons {lb : LinkedBuffer} {node rest} (e : lb.buffer_.nodes = node :: rest)
    (buf : Bytes) :
    ∃ node' rest', (lb.append buf).buffer_ = ⟨lb.buffer_.first, node' :: rest'⟩ ∧
      (lb.append buf).reader_iter_ = lb.reader_iter_ ∧ node <+: node' ∧
      node' ++ rest'.flatten = node ++ rest.flatten ++ buf := by
  have added : ∃ node' rest', (lb.addNewNode buf).buffer_ = ⟨lb.buffer_.first, node' :: rest'⟩ ∧
      (lb.addNewNode buf).reader_iter_ = lb.reader_iter_ ∧ node <+: node' ∧
      node' ++ rest'.flatten = node ++ rest.flatten ++ buf := by
    refine ⟨node, rest ++ [buf], ?_, rfl, List.prefix_rfl, ?_⟩
    · simp [addNewNode, e]
    · simp
  rcases List.eq_nil_or_concat rest with er | ⟨rest0, last_node, er⟩
  · -- the node that grows may be the reader's own
    subst er
    simp only [append, e, List.getLast?_singleton]
    split
    · refine ⟨node ++ buf, [], ?_, rfl, List.prefix_append _ _, ?_⟩
      · simp
      · simp
    · exact added
  · rw [List.concat_eq_append] at er
    subst er
    simp only [append, e]
    rw [← List.cons_append, List.getLast?_concat]
    simp only
    split
    · refine ⟨node, rest0 ++ [last_node ++ buf], ?_, rfl, List.prefix_rfl, ?_⟩
      · rw [List.dropLast_concat, List.cons_append]
      · simp
    · exact added

/-- `LinkedBuffer::append` puts the bytes in and seats the reader. -/
lemma Seated.append_spec {lb : LinkedBuffer} (st : lb.Seated) (buf : Bytes) :
    (lb.append buf).Seated ∧ (lb.append buf).unread = lb.unread ++ buf := by
  rcases st.cases with ⟨en, _, eu⟩ | ⟨node, rest, c, en, hc, er, eu⟩
  · rw [eu, List.nil_append]
    exact append_nil en buf
  · obtain ⟨node', rest', eb, er', pre, ef⟩ := append_cons en buf
    have hl := pre.length_le
    have hc' : c < node'.length ∨ c = 0 := by omega
    have ea : lb.append buf = ⟨⟨lb.buffer_.first, node' :: rest'⟩,
        ⟨some lb.buffer_.first, some c⟩⟩ := by
      rw [← eb, ← er, ← er']
    obtain ⟨st', un⟩ := @seated_of_node ⟨lb.buffer_.first, node' :: rest'⟩ node' rest' c rfl hc'
    rw [ea]
    refine ⟨st', un.trans ?_⟩
    rw [eu, ← List.drop_append_of_le_length (le_of_offset hc'), ef,
      ← List.drop_append_of_le_length (le_of_offset hc), List.drop_append_of_le_length]
    rw [List.length_append]
    omega

/-- The first append seats the reader in front of the bytes. -/
lemma Fresh.append_spec {lb : LinkedBuffer} (fr : lb.Fresh) (buf : Bytes) :
    (lb.append buf).Seated ∧ (lb.append buf).unread = lb.unread ++ buf := by
  rw [fr.unread, List.nil_append]
  exact append_nil fr.nodes buf

/-- `LinkedBuffer::writeFromFD` appends what the kernel delivered. -/
lemma writeFromFD_eq {lb : LinkedBuffer} {r : ReadResult} :
    lb.writeFromFD r = ((sysw.read kTmpBuffSize r).1,
      if (sysw.read kTmpBuffSize r).1 ≤ 0 then lb else lb.append (sysw.read kTmpBuffSize r).2) := by
  simp only [writeFromFD]
  split
  · rfl
  · rename_i h
    have hp := @sysw.read_pos kTmpBuffSize r (by omega)
    rw [List.take_of_length_le (by rw [hp.1]; omega)]

/-- The loop of `readableSize` adds up the bytes from its position on. -/
lemma sizeLoop_spec {d : NodeContainer} {k c sz fuel : Nat} {node rest} (le : d.first ≤ k)
    (e : d.nodes.drop (k - d.first) = node :: rest) (hc : c ≤ node.length)
    (hf : rest.length + 1 < fuel) :
    sizeLoop d fuel ⟨some k, some c⟩ sz = some (sz + (node.drop c ++ rest.flatten).length) := by
  induction rest generalizing k c sz node fuel with
  | nil =>
    obtain ⟨fuel, rfl⟩ : ∃ f, fuel = f + 2 := Nat.exists_eq_add_of_le' hf
    have he := drop_length le e
    simp only [List.length_nil, Nat.add_zero] at he
    simp only [sizeLoop, charDistanceToEndOfNode_eq le e, toFirstCharOfNextNode_eq le e,
      Option.bind_eq_bind, Option.bind_some, Option.some.injEq, he]
    rw [if_neg (by omega), if_pos trivial]
    simp only [List.flatten_nil, List.append_nil, List.length_drop, Option.some.injEq]
    omega
  | cons r rs ih =>
    obtain ⟨fuel, rfl⟩ := Nat.exists_eq_succ_of_ne_zero (Nat.ne_of_gt (Nat.zero_lt_of_lt hf))
    have he := drop_length le e
    simp only [sizeLoop, charDistanceToEndOfNode_eq le e, toFirstCharOfNextNode_eq le e,
      Option.bind_eq_bind, Option.bind_some, Option.some.injEq, he]
    rw [if_neg (by omega), if_neg (List.cons_ne_nil r rs),
      ih (Nat.le_succ_of_le le) (drop_succ le e) (Nat.zero_le _)
        (by simp only [List.length_cons] at hf; omega)]
    simp only [List.drop_zero, List.length_append, List.length_drop, List.flatten_cons,
      Option.some.injEq]
    omega

/-- `LinkedBuffer::readableSize` is the number of unread bytes. -/
lemma Seated.readableSize {lb : LinkedBuffer} (st : lb.Seated) :
    lb.readableSize = some lb.unread.length := by
  rcases st.cases with ⟨en, er, eu⟩ | ⟨node, rest, c, en, hc, er, eu⟩
  · simp [LinkedBuffer.readableSize, er, en, eu, sizeLoop, NodeContainer.end_]
  · rw [LinkedBuffer.readableSize, er, eu,
      sizeLoop_spec (Nat.le_refl _) (by rw [Nat.sub_self, List.drop_zero, en]) (le_of_offset hc)
        (by simp [en]), Nat.zero_add]

/-- The loop of `readToFD` collects the nodes from its position on. -/
lemma iovLoop_spec {d : NodeContainer} {k c fuel : Nat} {node rest} (le : d.first ≤ k)
    (e : d.nodes.drop (k - d.first) = node :: rest) (hf : rest.length + 1 < fuel) :
    iovLoop d fuel ⟨some k, some c⟩ = some (node.drop c :: rest) := by
  induction rest generalizing k c node fuel with
  | nil =>
    obtain ⟨fuel, rfl⟩ : ∃ f, fuel = f + 2 := Nat.exists_eq_add_of_le' hf
    have he := drop_length le e
    simp only [List.length_nil, Nat.add_zero] at he
    simp only [iovLoop, node?_of_drop le e, charDistanceToEndOfNode_eq le e,
      toFirstCharOfNextNode_eq le e, Option.bind_eq_bind, Option.bind_some, Option.some.injEq, he]
    rw [if_neg (by omega), if_pos trivial, Option.bind_some,
      List.take_of_length_le (by rw [List.length_drop]; omega)]
  | cons r rs ih =>
    obtain ⟨fuel, rfl⟩ := Nat.exists_eq_succ_of_ne_zero (Nat.ne_of_gt (Nat.zero_lt_of_lt hf))
    have he := drop_length le e
    simp only [iovLoop, node?_of_drop le e, charDistanceToEndOfNode_eq le e,
      toFirstCharOfNextNode_eq le e, Option.bind_eq_bind, Option.bind_some, Option.some.injEq, he]
    rw [if_neg (by omega), if_neg (List.cons_ne_nil r rs),
      ih (Nat.le_succ_of_le le) (drop_succ le e) (by simp only [List.length_cons] at hf; omega),
      Option.bind_some, List.take_of_length_le (by rw [List.length_drop]; omega), List.drop_zero]

/-- `LinkedBuffer::toIOVec` fills as many entries as there are readable nodes, with the unread
    bytes. -/
lemma Seated.toIOVec_spec {lb : LinkedBuffer} (st : lb.Seated) :
    ∃ vec, lb.toIOVec = some vec ∧ lb.numReadableNodes = some vec.length ∧
      vec.flatten = lb.unread := by
  rcases st.cases with ⟨en, er, eu⟩ | ⟨node, rest, c, en, hc, er, eu⟩
  · refine ⟨[], ?_, ?_, eu.symm⟩
    · simp [toIOVec, er, en, iovLoop, NodeContainer.end_]
    · simp [numReadableNodes, er, en, NodeContainer.end_]
  · refine ⟨node.drop c :: rest, ?_, ?_, eu.symm⟩
    · rw [toIOVec, er, iovLoop_spec (Nat.le_refl _) (by rw [Nat.sub_self, List.drop_zero, en])
        (by simp [en])]
    · simp [numReadableNodes, er, en, NodeContainer.end_]

/-- The loop of `read` drops the nodes before the reader. -/
lemma popLoop_spec {first j : Nat} {nodes : List Bytes} (h : j ≤ nodes.length) :
    popLoop (first + j) first nodes = some ⟨first + j, nodes.drop j⟩ := by
  induction nodes generalizing first j with
  | nil =>
    obtain rfl : j = 0 := Nat.le_zero.1 h
    simp [popLoop]
  | cons node nodes ih =>
    cases j with
    | zero => simp [popLoop]
    | succ j =>
      rw [popLoop, if_neg (by omega), show first + (j + 1) = first + 1 + j from by omega,
        ih (by simpa using h), List.drop_succ_cons]

/-- Freeing the nodes before a position seats the buffer there. -/
lemma freeNodesBefore_spec {d : NodeContainer} {iter bs} (rd : Reads d iter bs) :
    ∃ lb, freeNodesBefore ⟨d, iter⟩ iter.node_iter_ = some lb ∧ lb.Seated ∧ lb.unread = bs := by
  cases rd with
  | @node k node rest c le e hc =>
    obtain ⟨j, rfl⟩ := Nat.exists_eq_add_of_le le
    rw [Nat.add_sub_cancel_left] at e
    have hj : j ≤ d.nodes.length := by
      by_contra hj
      rw [List.drop_of_length_le (by omega)] at e
      cases e
    obtain ⟨st, un⟩ := @seated_of_node ⟨d.first + j, d.nodes.drop j⟩ node rest c e hc
    refine ⟨_, ?_, st, un⟩
    simp [freeNodesBefore, popLoop_spec hj]
  | last =>
    refine ⟨⟨⟨d.end_, []⟩, ⟨some d.end_, none⟩⟩, ?_, ⟨rfl, ?_⟩, rfl⟩
    · simp [freeNodesBefore, NodeContainer.end_, popLoop_spec (Nat.le_refl _)]
    · exact @Reads.last ⟨d.end_, []⟩

/-- The reader of a buffer with unread bytes is in a node. -/
lemma Seated.nodes_ne {lb : LinkedBuffer} (st : lb.Seated) (ne : lb.unread ≠ []) :
    lb.buffer_.nodes ≠ [] := by
  rcases st.cases with ⟨_, _, eu⟩ | ⟨node, rest, c, en, _⟩
  · exact absurd eu ne
  · rw [en]
    exact List.cons_ne_nil _ _

/-- Skipping forward from a reader in a node. -/
lemma Seated.plus_spec {lb : LinkedBuffer} (st : lb.Seated) (ne : lb.buffer_.nodes ≠ []) {n : Nat}
    (hn : n ≤ lb.unread.length) :
    ∃ iter, lb.reader_iter_.plus lb.buffer_ n = some iter ∧
      Reads lb.buffer_ iter (lb.unread.drop n) := by
  rcases st.cases with ⟨en, _⟩ | ⟨node, rest, c, en, hc, er, eu⟩
  · exact absurd en ne
  · rw [eu] at hn ⊢
    rw [er, LinkedBufferIter.plus, if_pos (Int.natCast_nonneg n)]
    exact addForward_spec (Nat.le_refl _) (by rw [Nat.sub_self, List.drop_zero, en])
      (le_of_offset hc) hn (by simp [en])

/-- `LinkedBuffer::read` takes bytes out, unless there are too few. -/
lemma Seated.read_spec {lb : LinkedBuffer} (st : lb.Seated) (ne : lb.buffer_.nodes ≠ []) (n : Nat) :
    if n ≤ lb.unread.length then
      ∃ lb', lb.read n = some (true, lb') ∧ lb'.Seated ∧ lb'.unread = lb.unread.drop n
    else
      lb.read n = some (false, lb) := by
  simp only [read, st.readableSize, Option.bind_eq_bind, Option.bind_some]
  by_cases h : n ≤ lb.unread.length
  · obtain ⟨iter, e, rd⟩ := st.plus_spec ne h
    obtain ⟨lb', ef, st', un⟩ := freeNodesBefore_spec rd
    rw [if_pos h, if_neg (Nat.not_lt.2 h), e, Option.bind_some, ef]
    exact ⟨lb', rfl, st', un⟩
  · rw [if_neg h, if_pos (Nat.not_le.1 h)]

/-- `LinkedBuffer::readToFD` offers the unread bytes and takes out those accepted. -/
lemma Seated.readToFD_spec {lb : LinkedBuffer} (st : lb.Seated) (ne : lb.buffer_.nodes ≠ [])
    (w : WriteResult) :
    ∃ lb', lb.readToFD w = some (⟨lb.unread, sysw.write lb.unread w⟩, lb') ∧ lb'.Seated ∧
      lb'.unread = lb.unread.drop (sysw.write lb.unread w).toNat := by
  obtain ⟨vec, ev, en, ef⟩ := st.toIOVec_spec
  simp only [readToFD, ev, en, Option.bind_eq_bind, Option.bind_some, if_true, ef]
  by_cases h : sysw.write lb.unread w < 0
  · refine ⟨lb, if_pos h, st, ?_⟩
    rw [Int.toNat_of_nonpos (by omega), List.drop_zero]
  · have rd := st.read_spec ne (sysw.write lb.unread w).toNat
    rw [if_pos sysw.write_le] at rd
    obtain ⟨lb', er, st', un⟩ := rd
    refine ⟨lb', ?_, st', un⟩
    rw [if_neg h, er, Option.bind_some]

/-- `LinkedBuffer::readUntil` moves the reader to a position that is not before it. -/
lemma readUntil_spec {lb : LinkedBuffer} {iter bs} (rd : Reads lb.buffer_ iter bs)
    (lt : iter.lt lb.readerIter = some false) :
    ∃ lb', lb.readUntil iter = some (true, lb') ∧ lb'.Seated ∧ lb'.unread = bs := by
  obtain ⟨lb', ef, st', un⟩ := freeNodesBefore_spec rd
  refine ⟨lb', ?_, st', un⟩
  simp only [readUntil, lt, Option.bind_eq_bind, Option.bind_some, Bool.false_eq_true, if_false, ef]

/-- A position of the container with at most the unread bytes after it is not before the reader. -/
lemma Seated.not_lt_reader {lb : LinkedBuffer} (st : lb.Seated) (ne : lb.unread ≠ []) {iter bs}
    (rd : Reads lb.buffer_ iter bs) (le : bs.length ≤ lb.unread.length) :
    iter.lt lb.readerIter = some false := by
  rcases st.cases with ⟨_, _, eu⟩ | ⟨node, rest, c, en, hc, er, eu⟩
  · exact absurd eu ne
  · simp only [readerIter, er]
    cases rd with
    | @node k node' rest' c' hk e hc' =>
      simp only [LinkedBufferIter.lt, Option.some.injEq]
      by_cases h : k = lb.buffer_.first
      · subst h
        rw [Nat.sub_self, List.drop_zero, en] at e
        cases e
        rw [if_pos rfl, LinkedBufferIter.posLt, Option.some.injEq, decide_eq_false_iff_not]
        rw [eu] at le
        simp only [List.length_append, List.length_drop] at le
        omega
      · rw [if_neg h, LinkedBufferIter.posLt, Option.some.injEq, decide_eq_false_iff_not]
        omega
    | last =>
      have hl : lb.buffer_.end_ ≠ lb.buffer_.first := by
        simp [NodeContainer.end_, en]
      simp only [LinkedBufferIter.lt, Option.some.injEq]
      rw [if_neg hl, LinkedBufferIter.posLt, Option.some.injEq, decide_eq_false_iff_not]
      simp [NodeContainer.end_]

/-! ## Sequences of operations -/

/-- The operations a connection makes; `readUntil n` is `readUntil(readerIter() + n)`. -/
inductive Op where
  | append (buf : Bytes)
  | writeFromFD (r : ReadResult)
  | read (n : Nat)
  | readUntil (n : Nat)
  | readToFD (w : WriteResult)
deriving DecidableEq, Repr

/-- The effect of an operation on the buffer. -/
def Op.exec (lb : LinkedBuffer) : Op → Option LinkedBuffer
  | .append buf => some (lb.append buf)
  | .writeFromFD r => some (lb.writeFromFD r).2
  | .read n => (lb.read n).map Prod.snd
  | .readUntil n => do
    let iter ← lb.readerIter.plus lb.buffer_ n
    (lb.readUntil iter).map Prod.snd
  | .readToFD w => (lb.readToFD w).map Prod.snd

/-- Bytes are only taken out while unread bytes remain, and `readUntil` not beyond them. -/
def Op.Used (lb : LinkedBuffer) : Op → Prop
  | .append _ => True
  | .writeFromFD _ => True
  | .read _ => lb.unread ≠ []
  | .readUntil n => lb.unread ≠ [] ∧ n ≤ lb.unread.length
  | .readToFD _ => lb.unread ≠ []

instance (lb : LinkedBuffer) : (op : Op) → Decidable (op.Used lb)
  | .append _ => isTrue trivial
  | .writeFromFD _ => isTrue trivial
  | .read _ => inferInstanceAs (Decidable (lb.unread ≠ []))
  | .readUntil n => inferInstanceAs (Decidable (lb.unread ≠ [] ∧ n ≤ lb.unread.length))
  | .readToFD _ => inferInstanceAs (Decidable (lb.unread ≠ []))

/-- The bytes the caller or the kernel puts in. -/
def Op.put : Op → Bytes
  | .append buf => buf
  | .writeFromFD r => (sysw.read kTmpBuffSize r).2
  | _ => []

/-- The number of bytes the caller or the kernel takes out; a refused request takes none. -/
def Op.taken (lb : LinkedBuffer) : Op → Nat
  | .read n => if n ≤ lb.unread.length then n else 0
  | .readUntil n => n
  | .readToFD w => (sysw.write lb.unread w).toNat
  | _ => 0

/-- A buffer with all the bytes put in so far and the number of those taken out. -/
structure History where
  buf : LinkedBuffer
  put : Bytes
  taken : Nat

def History.init : History := ⟨new, [], 0⟩

/-- One call; an operation that is not `Used` in this state is not called. -/
def History.step (h : History) (op : Op) : Option History :=
  if op.Used h.buf then do
    let buf ← op.exec h.buf
    some ⟨buf, h.put ++ op.put, h.taken + op.taken h.buf⟩
  else
    some h

/-- The invariant of a history. -/
structure History.Inv (h : History) : Prop where
  seated : h.buf.Seated
  queue : Lib.Holds h.put h.taken h.buf.unread

/-- Input is appended behind what is unread. -/
lemma Seated.writeFromFD_spec {lb : LinkedBuffer} (st : lb.Seated) (r : ReadResult) :
    (lb.writeFromFD r).2.Seated ∧
      (lb.writeFromFD r).2.unread = lb.unread ++ (sysw.read kTmpBuffSize r).2 := by
  rw [writeFromFD_eq]
  by_cases h : (sysw.read kTmpBuffSize r).1 ≤ 0
  · rw [if_pos h, sysw.read_nonpos h, List.append_nil]
    exact ⟨st, rfl⟩
  · rw [if_neg h]
    exact st.append_spec _

/-- One operation: it is defined and is a step of the queue. -/
lemma Seated.exec_spec {lb : LinkedBuffer} (st : lb.Seated) {op : Op} (used : op.Used lb) :
    ∃ lb', op.exec lb = some lb' ∧ lb'.Seated ∧ op.taken lb ≤ lb.unread.length ∧
      lb'.unread = lb.unread.drop (op.taken lb) ++ op.put := by
  cases op with
  | append buf =>
    obtain ⟨st', un⟩ := st.append_spec buf
    exact ⟨_, rfl, st', Nat.zero_le _, un⟩
  | writeFromFD r =>
    obtain ⟨st', un⟩ := st.writeFromFD_spec r
    exact ⟨_, rfl, st', Nat.zero_le _, un⟩
  | read n =>
    have rd := st.read_spec (st.nodes_ne used) n
    simp only [Op.exec, Op.taken, Op.put, List.append_nil]
    split at rd
    case isTrue h =>
      obtain ⟨lb', e, st', un⟩ := rd
      rw [e, if_pos h]
      exact ⟨lb', rfl, st', h, un⟩
    case isFalse h =>
      rw [rd, if_neg h]
      exact ⟨lb, rfl, st, Nat.zero_le _, rfl⟩
  | readUntil n =>
    obtain ⟨ne, hn⟩ := used
    obtain ⟨iter, e, rd⟩ := st.plus_spec (st.nodes_ne ne) hn
    have lt := st.not_lt_reader ne rd (by rw [List.length_drop]; exact Nat.sub_le _ _)
    obtain ⟨lb', e', st', un⟩ := readUntil_spec rd lt
    refine ⟨lb', ?_, st', hn, ?_⟩
    · simp only [Op.exec, readerIter, e, Option.bind_eq_bind, Option.bind_some]
      rw [e']
      rfl
    · rw [un]
      exact (List.append_nil _).symm
  | readToFD w =>
    obtain ⟨lb', e, st', un⟩ := st.readToFD_spec (st.nodes_ne used) w
    refine ⟨lb', by simp only [Op.exec, e, Option.map_some], st', sysw.write_le, ?_⟩
    rw [un]
    exact (List.append_nil _).symm

/-- Every operation on a seated buffer is defined, and keeps the invariant. -/
lemma History.step_inv (h : History) (op : Op) (inv : h.Inv) :
    ∃ h', h.step op = some h' ∧ h'.Inv := by
  by_cases used : op.Used h.buf
  · obtain ⟨lb', e, st, le, un⟩ := inv.seated.exec_spec used
    refine ⟨⟨lb', h.put ++ op.put, h.taken + op.taken h.buf⟩, ?_, st, ?_⟩
    · simp only [History.step, if_pos used, e, Option.bind_eq_bind, Option.bind_some]
    · show Lib.Holds _ _ lb'.unread
      rw [un]
      exact (inv.queue.take le).put
  · exact ⟨h, if_neg used, inv⟩

/-- The first append seats the reader. -/
lemma History.init_step (buf : Bytes) :
    ∃ h, init.step (.append buf) = some h ∧ h.Inv := by
  obtain ⟨st, un⟩ := new_fresh.append_spec buf
  refine ⟨⟨new.append buf, buf, 0⟩, rfl, st, ?_⟩
  show Lib.Holds _ _ (new.append buf).unread
  rw [un, new_fresh.unread]
  exact Lib.Holds.nil.put

/-- Every sequence of operations as a connection makes them, after a first non-empty append, is defined and behaves as
    a queue: `readableSize` counts the unread bytes, `toIOVec` fills exactly `numReadableNodes` entries with them,
    `read` refuses exactly the requests beyond them and then changes nothing, and no node before the reader's is kept.
    The iterators of the linked buffer's deque are taken to survive `push_back`. -/
theorem History.linkedBuffer_is_fifo (b : UInt8) (bs : Bytes) (ops : List Op) :
    ∃ h, (Op.append (b :: bs) :: ops).foldlM History.step init = some h ∧
      h.taken ≤ h.put.length ∧ h.buf.unread = h.put.drop h.taken ∧
      h.buf.readableSize = some h.buf.unread.length ∧
      (∃ vec, h.buf.toIOVec = some vec ∧ h.buf.numReadableNodes = some vec.length ∧
        vec.flatten = h.buf.unread) ∧
      (h.buf.unread ≠ [] → ∀ n, ∃ ok lb', h.buf.read n = some (ok, lb') ∧
        (ok = false ↔ h.buf.unread.length < n) ∧ (ok = false → lb' = h.buf)) ∧
      h.buf.reader_iter_.node_iter_ = some h.buf.buffer_.begin_ := by
  obtain ⟨h1, e1, inv1⟩ := History.init_step (b :: bs)
  obtain ⟨h, run, inv⟩ := Lib.foldlM_inv History.step_inv inv1 ops
  refine ⟨h, ?_, inv.queue.le, inv.queue.eq, inv.seated.readableSize, inv.seated.toIOVec_spec, ?_,
    inv.seated.front⟩
  · rw [List.foldlM_cons, e1]
    exact run
  · intro ne n
    have rd := inv.seated.read_spec (inv.seated.nodes_ne ne) n
    split at rd
    case isTrue hn =>
      obtain ⟨lb', e, _, _⟩ := rd
      refine ⟨true, lb', e, ?_, nofun⟩
      simp only [Bool.true_eq_false, false_iff, Nat.not_lt, hn]
    case isFalse hn =>
      refine ⟨false, h.buf, rd, ?_, fun _ => rfl⟩
      simp only [Nat.not_le.1 hn]

end LinkedBuffer

end WebServer.Net
