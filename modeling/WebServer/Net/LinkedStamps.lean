import WebServer.Lib.Traced
import WebServer.Net.LinkedEmpty

/-!
# Stamps on the iterators of the linked buffer

The operations of `LinkedBuffer` again, with a stamp on the container iterators of every `LinkedBufferIter` and a record
of every use of one. (`append` and `freeNodesBefore` also take iterators from the deque and use them at once.)

A deque has an epoch that changes when all its iterators become invalid: at `push_back` and at `clear`;
`pop_front` makes those to the removed node invalid. A node has a capacity and a number of reallocations: an
insertion that exceeds the capacity makes all iterators into it invalid. A node iterator is stamped with the epoch it
comes from, a char iterator with its node and the number of reallocations of that node. A use is a comparison, a
move or a dereference; it is recorded with whether the iterator is valid at that time. A default-constructed iterator
is never made invalid.

Where a function of the linked buffer has no loop, the uses are recorded before it and its value is the one it has
(`Traced.lift`). Forgetting stamps and uses gives the functions of the linked buffer (`StampedBuffer.exec_erase`).
-/

namespace WebServer.Net

open Lib (Traced)
open Lib.Traced (lift)

/-- `NodeContainer` with its epoch; `capacity` and `reallocs` are those of the nodes. -/
structure StampedNodes extends NodeContainer where
  epoch : Nat
  capacity : Nat → Nat
  reallocs : Nat → Nat

/-- `LinkedBufferIter` with the epoch of `node_iter_`, and the node of `char_iter_` with its reallocations. -/
structure StampedIter extends LinkedBufferIter where
  epoch : Nat
  home : Nat
  alloc : Nat

/-- A use of the node part or of the char part of an iterator, valid or not. -/
inductive Use where
  | node (valid : Bool)
  | char (valid : Bool)
deriving DecidableEq, Repr

def Use.Valid : Use → Prop
  | node valid => valid = true
  | char valid => valid = true

namespace StampedNodes

variable (d : StampedNodes)

/-- The node part has not been made invalid. -/
def validNode (it : StampedIter) : Bool :=
  match it.node_iter_ with
  | none => true
  | some k => it.epoch = d.epoch ∧ d.first ≤ k

/-- The char part has not been made invalid. -/
def validChar (it : StampedIter) : Bool :=
  match it.char_iter_ with
  | none => true
  | some _ => d.first ≤ it.home ∧ it.home < d.end_ ∧ it.alloc = d.reallocs it.home

def useNode (it : StampedIter) : Traced Use Unit := .record (.node (d.validNode it)) (some ())

def useChar (it : StampedIter) : Traced Use Unit := .record (.char (d.validChar it)) (some ())

/-- An iterator that is obtained now. -/
def stamp (it : LinkedBufferIter) : StampedIter where
  toLinkedBufferIter := it
  epoch := d.epoch
  home := it.node_iter_.getD 0
  alloc := d.reallocs (it.node_iter_.getD 0)

/-- `push_back` of a vector with some capacity. -/
def push_back (node : Bytes) (capacity : Nat) : StampedNodes where
  first := d.first
  nodes := d.nodes ++ [node]
  epoch := d.epoch + 1
  capacity := Function.update d.capacity d.end_ capacity
  reallocs := Function.update d.reallocs d.end_ 0

/-- `insert` at the end of the last vector, which then holds `node`. A vector whose capacity is exceeded is
    reallocated, with a capacity that suffices. -/
def insertLast (node : Bytes) : StampedNodes :=
  let d' := { d with nodes := d.nodes.dropLast ++ [node] }
  if node.length > d.capacity (d.end_ - 1) then
    { d' with
      capacity := Function.update d.capacity (d.end_ - 1) node.length
      reallocs := Function.update d.reallocs (d.end_ - 1) (d.reallocs (d.end_ - 1) + 1) }
  else
    d'

/-- `clear` -/
def clear : StampedNodes := { d with first := d.end_, nodes := [], epoch := d.epoch + 1 }

end StampedNodes

namespace StampedIter

variable (d : StampedNodes) (it : StampedIter)

/-- `LinkedBufferIter::toFirstCharOfNextNode` -/
def toFirstCharOfNextNode : Traced Use StampedIter := do
  -- `node_iter_` is compared with `end()` and moved
  d.useNode it
  let next ← lift (it.toLinkedBufferIter.toFirstCharOfNextNode d.toNodeContainer)
  let it := { d.stamp next with epoch := it.epoch }
  -- it is compared again and, unless it is `end()`, dereferenced
  d.useNode it
  pure it

/-- `LinkedBufferIter::charDistanceToEndOfNode` -/
def charDistanceToEndOfNode : Traced Use Int := do
  d.useNode it
  d.useChar it
  lift (it.toLinkedBufferIter.charDistanceToEndOfNode d.toNodeContainer)

/-- `std::advance(char_iter_, n)` -/
def advanceChar (n : Int) : Traced Use StampedIter := do
  d.useChar it
  let next ← lift (it.toLinkedBufferIter.advanceChar d.toNodeContainer n)
  pure { it with toLinkedBufferIter := next }

/-- The loop of `LinkedBufferIter::operator+=`, for `n` that is not negative. -/
def addForward : Nat → StampedIter → Int → Traced Use StampedIter
  | 0, _, _ => lift none
  | fuel + 1, it, n => do
    let curr_node_diff ← it.charDistanceToEndOfNode d
    if curr_node_diff > n then
      it.advanceChar d n
    else
      let it ← it.toFirstCharOfNextNode d
      if n - curr_node_diff > 0 then addForward fuel it (n - curr_node_diff) else pure it

/-- `LinkedBufferIter::operator<` -/
def lt (a b : StampedIter) : Traced Use Bool := do
  d.useNode a
  d.useNode b
  if a.node_iter_ = b.node_iter_ then
    d.useChar a
    d.useChar b
    lift (a.toLinkedBufferIter.lt b.toLinkedBufferIter)
  else
    lift (a.toLinkedBufferIter.lt b.toLinkedBufferIter)

end StampedIter

/-- `LinkedBuffer` with stamps. -/
structure StampedBuffer where
  buffer_ : StampedNodes
  reader_iter_ : StampedIter

namespace StampedBuffer

open LinkedBuffer (kMinNodeSize Call)

variable (s : StampedBuffer)

/-- Forget the stamps. -/
def erase : LinkedBuffer := ⟨s.buffer_.toNodeContainer, s.reader_iter_.toLinkedBufferIter⟩

/-- `LinkedBuffer::LinkedBuffer` -/
def new : StampedBuffer := ⟨⟨⟨0, []⟩, 0, fun _ => 0, fun _ => 0⟩, ⟨{}, 0, 0, 0⟩⟩

/-- `LinkedBuffer::addNewNode` -/
def addNewNode (buf : Bytes) : StampedBuffer :=
  { s with buffer_ := s.buffer_.push_back buf (max kMinNodeSize buf.length) }

/-- `LinkedBuffer::append` -/
def append (buf : Bytes) : StampedBuffer :=
  match s.buffer_.nodes.getLast? with
  | none =>
    let s := s.addNewNode buf
    { s with reader_iter_ := s.buffer_.stamp ⟨some s.buffer_.begin_, some 0⟩ }
  | some last_node =>
    if last_node.length + buf.length < kMinNodeSize then
      { s with buffer_ := s.buffer_.insertLast (last_node ++ buf) }
    else
      s.addNewNode buf

/-- `LinkedBuffer::writeFromFD` -/
def writeFromFD (r : ReadResult) : StampedBuffer :=
  let (n, buf) := sysw.read kTmpBuffSize r
  if n ≤ 0 then s else s.append (buf.take n.toNat)

/-- The loop of `LinkedBuffer::readableSize`. -/
def sizeLoop (d : StampedNodes) : Nat → StampedIter → Nat → Traced Use Nat
  | 0, _, _ => lift none
  | fuel + 1, iter, sz => do
    d.useNode iter
    if iter.node_iter_ = some d.end_ then
      pure sz
    else
      let len ← iter.charDistanceToEndOfNode d
      let iter ← iter.toFirstCharOfNextNode d
      sizeLoop d fuel iter (sz + len.toNat)

/-- `LinkedBuffer::readableSize` -/
def readableSize : Traced Use Nat := sizeLoop s.buffer_ (s.buffer_.nodes.length + 1) s.reader_iter_ 0

/-- The loop of `LinkedBuffer::toIOVec`. -/
def iovLoop (d : StampedNodes) : Nat → StampedIter → Traced Use (List Bytes)
  | 0, _ => lift none
  | fuel + 1, iter => do
    d.useNode iter
    if iter.node_iter_ = some d.end_ then
      pure []
    else
      d.useChar iter
      let node ← lift (iter.node_iter_.bind d.node?)
      let char_iter ← lift iter.char_iter_
      let iov_len ← iter.charDistanceToEndOfNode d
      let iter ← iter.toFirstCharOfNextNode d
      let vec ← iovLoop d fuel iter
      pure ((node.drop char_iter).take iov_len.toNat :: vec)

/-- `LinkedBuffer::toIOVec` -/
def toIOVec : Traced Use (List Bytes) := iovLoop s.buffer_ (s.buffer_.nodes.length + 1) s.reader_iter_

/-- `LinkedBuffer::numReadableNodes` -/
def numReadableNodes : Traced Use Nat := do
  s.buffer_.useNode s.reader_iter_
  lift s.erase.numReadableNodes

/-- The loop of `LinkedBuffer::freeNodesBefore`. -/
def popLoop (d : StampedNodes) (iter : StampedIter) (node_iter : Nat) : Nat → List Bytes → Traced Use NodeContainer
  | first, [] => do
    StampedNodes.useNode { d with first := first, nodes := [] } iter
    lift (if first = node_iter then some ⟨first, []⟩ else none)
  | first, node :: nodes => do
    StampedNodes.useNode { d with first := first, nodes := node :: nodes } iter
    if first = node_iter then pure ⟨first, node :: nodes⟩ else popLoop d iter node_iter (first + 1) nodes

/-- `LinkedBuffer::freeNodesBefore` with the node part of `reader_iter_`. -/
def freeNodesBefore : Traced Use StampedBuffer := do
  let node_iter ← lift s.reader_iter_.node_iter_
  let d ← popLoop s.buffer_ s.reader_iter_ node_iter s.buffer_.first s.buffer_.nodes
  pure { s with buffer_ := { s.buffer_ with toNodeContainer := d } }

/-- `LinkedBuffer::read` -/
def read (n : Nat) : Traced Use (Bool × StampedBuffer) := do
  if (← s.readableSize) < n then
    pure (false, s)
  else
    let iter ← StampedIter.addForward s.buffer_ (s.buffer_.nodes.length + 1) s.reader_iter_ n
    let s ← { s with reader_iter_ := iter }.freeNodesBefore
    pure (true, s)

/-- `LinkedBuffer::readUntil`, with an iterator obtained at the time of the call. -/
def readUntil (iter : LinkedBufferIter) : Traced Use (Bool × StampedBuffer) := do
  if ← (s.buffer_.stamp iter).lt s.buffer_ s.reader_iter_ then
    pure (false, s)
  else
    let s ← { s with reader_iter_ := s.buffer_.stamp iter }.freeNodesBefore
    pure (true, s)

/-- `LinkedBuffer::readAll` -/
def readAll : StampedBuffer := ⟨s.buffer_.clear, ⟨{}, 0, 0, 0⟩⟩

/-- `LinkedBuffer::readToFD` -/
def readToFD (w : WriteResult) : Traced Use (WriteCall × StampedBuffer) := do
  let node_d ← s.numReadableNodes
  let vec ← s.toIOVec
  if vec.length = node_d then
    let n := sysw.write vec.flatten w
    if n < 0 then
      pure (⟨vec.flatten, n⟩, s)
    else
      let (_, s) ← s.read n.toNat
      pure (⟨vec.flatten, n⟩, s)
  else
    lift none

/-- The effect of a call. -/
def exec : Call → Traced Use StampedBuffer
  | .append buf => pure (s.append buf)
  | .writeFromFD r => pure (s.writeFromFD r)
  | .read n => do
    let (_, s) ← s.read n
    pure s
  | .readUntil iter => do
    let (_, s) ← s.readUntil iter
    pure s
  | .readAll => pure s.readAll
  | .readToFD w => do
    let (_, s) ← s.readToFD w
    pure s

end StampedBuffer

/-! ## Erasure -/

section Erase

open Lib.Traced (bind_value lift_value pure_value ite_value)

variable {d : StampedNodes} {it : StampedIter}

@[simp] lemma useNode_value : (d.useNode it).value = some () := rfl

@[simp] lemma useChar_value : (d.useChar it).value = some () := rfl

namespace StampedIter

/-- The stamped iterator moves to the node that the plain one moves to. -/
lemma toFirstCharOfNextNode_value :
    (it.toFirstCharOfNextNode d).value
      = (it.toLinkedBufferIter.toFirstCharOfNextNode d.toNodeContainer).map
          fun next => { d.stamp next with epoch := it.epoch } := by
  simp only [toFirstCharOfNextNode, bind_value, useNode_value, Option.bind_some, lift_value, Option.map_eq_bind]
  rfl

/-- The stamped distance is the plain one. -/
lemma charDistanceToEndOfNode_value :
    (it.charDistanceToEndOfNode d).value = it.toLinkedBufferIter.charDistanceToEndOfNode d.toNodeContainer := rfl

/-- The stamped iterator moves to the character that the plain one moves to. -/
lemma advanceChar_value {n : Int} :
    (it.advanceChar d n).value
      = (it.toLinkedBufferIter.advanceChar d.toNodeContainer n).map
          fun next => { it with toLinkedBufferIter := next } := by
  simp only [advanceChar, bind_value, useChar_value, Option.bind_some, lift_value, Option.map_eq_bind]
  rfl

/-- Without the stamp, the next node is the plain one. -/
lemma toFirstCharOfNextNode_erase :
    (it.toFirstCharOfNextNode d).value.map toLinkedBufferIter
      = it.toLinkedBufferIter.toFirstCharOfNextNode d.toNodeContainer := by
  rw [toFirstCharOfNextNode_value, Option.map_map]
  exact Option.map_id'

/-- Without the stamp, an iterator moves forward as the plain one. -/
lemma addForward_erase {fuel : Nat} {n : Int} :
    (addForward d fuel it n).value.map toLinkedBufferIter
      = LinkedBufferIter.addForward d.toNodeContainer fuel it.toLinkedBufferIter n := by
  induction fuel generalizing it n with
  | zero => rfl
  | succ fuel ih =>
    rw [addForward, LinkedBufferIter.addForward, bind_value, charDistanceToEndOfNode_value]
    refine Lib.map_bind Option.map_id' fun diff => ?_
    rw [ite_value, apply_ite (Option.map toLinkedBufferIter)]
    refine if_congr Iff.rfl ?_ ?_
    · rw [advanceChar_value, Option.map_map]
      exact Option.map_id'
    · rw [bind_value]
      refine Lib.map_bind toFirstCharOfNextNode_erase fun next => ?_
      rw [ite_value, apply_ite (Option.map toLinkedBufferIter)]
      exact if_congr Iff.rfl ih rfl

/-- The stamped comparison is the plain one. -/
lemma lt_value {a b : StampedIter} : (lt d a b).value = a.toLinkedBufferIter.lt b.toLinkedBufferIter := by
  simp only [lt, bind_value, useNode_value, Option.bind_some, ite_value, useChar_value, lift_value, ite_self]

end StampedIter

namespace StampedBuffer

open LinkedBuffer (kMinNodeSize Call)
open StampedIter

variable {s : StampedBuffer}

/-- The stamped count is the plain one. -/
lemma sizeLoop_value {fuel sz : Nat} :
    (sizeLoop d fuel it sz).value = LinkedBuffer.sizeLoop d.toNodeContainer fuel it.toLinkedBufferIter sz := by
  induction fuel generalizing it sz with
  | zero => rfl
  | succ fuel ih =>
    simp only [sizeLoop, LinkedBuffer.sizeLoop, bind_value, useNode_value, Option.bind_some, ite_value, pure_value,
      charDistanceToEndOfNode_value, toFirstCharOfNextNode_value, Option.bind_map, ih]
    rfl

/-- The stamped collection of nodes is the plain one. -/
lemma iovLoop_value {fuel : Nat} :
    (iovLoop d fuel it).value = LinkedBuffer.iovLoop d.toNodeContainer fuel it.toLinkedBufferIter := by
  induction fuel generalizing it with
  | zero => rfl
  | succ fuel ih =>
    simp only [iovLoop, LinkedBuffer.iovLoop, bind_value, useNode_value, useChar_value, Option.bind_some, ite_value,
      pure_value, lift_value, charDistanceToEndOfNode_value, toFirstCharOfNextNode_value, Option.bind_map, ih,
      Option.bind_assoc]
    rfl

/-- Dropping nodes does not look at the stamps. -/
lemma popLoop_value {k first : Nat} {nodes : List Bytes} :
    (popLoop d it k first nodes).value = LinkedBuffer.popLoop k first nodes := by
  induction nodes generalizing first with
  | nil => rfl
  | cons node nodes ih =>
    simp only [popLoop, LinkedBuffer.popLoop, bind_value, useNode_value, Option.bind_some, ite_value, pure_value, ih]

/-- Without the stamps, freeing nodes is that of the plain buffer. -/
lemma freeNodesBefore_erase :
    s.freeNodesBefore.value.map erase = s.erase.freeNodesBefore s.reader_iter_.node_iter_ := by
  rw [freeNodesBefore, bind_value, lift_value]
  refine Lib.map_bind Option.map_id' fun k => ?_
  rw [bind_value, popLoop_value]
  exact Lib.map_bind Option.map_id' fun _ => rfl

/-- Without the stamps, `read` is that of the plain buffer. -/
lemma read_erase {n : Nat} : (s.read n).value.map (Prod.map id erase) = s.erase.read n := by
  rw [read, bind_value, readableSize, sizeLoop_value]
  refine Lib.map_bind Option.map_id' fun size => ?_
  rw [ite_value, apply_ite (Option.map (Prod.map id erase))]
  refine if_congr Iff.rfl rfl ?_
  rw [bind_value]
  have plus : LinkedBufferIter.plus s.erase.buffer_ s.erase.reader_iter_ n = LinkedBufferIter.addForward
      s.buffer_.toNodeContainer (s.buffer_.nodes.length + 1) s.reader_iter_.toLinkedBufferIter n :=
    if_pos (Int.natCast_nonneg n)
  rw [plus]
  refine Lib.map_bind addForward_erase fun iter => ?_
  rw [bind_value]
  exact Lib.map_bind freeNodesBefore_erase fun _ => rfl

/-- Without the stamps, `readUntil` is that of the plain buffer. -/
lemma readUntil_erase {iter : LinkedBufferIter} :
    (s.readUntil iter).value.map (Prod.map id erase) = s.erase.readUntil iter := by
  rw [readUntil, bind_value, lt_value]
  refine Lib.map_bind Option.map_id' fun before => ?_
  rw [ite_value, apply_ite (Option.map (Prod.map id erase))]
  refine if_congr Iff.rfl rfl ?_
  rw [bind_value]
  exact Lib.map_bind freeNodesBefore_erase fun _ => rfl

/-- Without the stamps, `readToFD` is that of the plain buffer. -/
lemma readToFD_erase {w : WriteResult} : (s.readToFD w).value.map (Prod.map id erase) = s.erase.readToFD w := by
  rw [readToFD, bind_value]
  refine Lib.map_bind Option.map_id' fun node_d => ?_
  rw [bind_value, toIOVec, iovLoop_value]
  refine Lib.map_bind Option.map_id' fun vec => ?_
  rw [ite_value, apply_ite (Option.map (Prod.map id erase))]
  refine if_congr Iff.rfl ?_ rfl
  rw [ite_value, apply_ite (Option.map (Prod.map id erase))]
  refine if_congr Iff.rfl rfl ?_
  rw [bind_value]
  exact Lib.map_bind read_erase fun _ => rfl

/-- Writing into the last node replaces it. -/
lemma insertLast_nodes {node : Bytes} :
    (d.insertLast node).toNodeContainer = { d.toNodeContainer with nodes := d.nodes.dropLast ++ [node] } := by
  unfold StampedNodes.insertLast
  split <;> rfl

/-- Without the stamps, `append` is that of the plain buffer. -/
lemma append_erase {buf : Bytes} : (s.append buf).erase = s.erase.append buf := by
  unfold append LinkedBuffer.append
  show erase _ = match s.buffer_.nodes.getLast? with | none => _ | some _ => _
  cases s.buffer_.nodes.getLast? with
  | none => rfl
  | some last_node =>
    dsimp only
    split
    · show LinkedBuffer.mk (s.buffer_.insertLast (last_node ++ buf)).toNodeContainer _ = _
      rw [insertLast_nodes]
      rfl
    · rfl

/-- Without the stamps, `writeFromFD` is that of the plain buffer. -/
lemma writeFromFD_erase {r : ReadResult} : (s.writeFromFD r).erase = (s.erase.writeFromFD r).2 := by
  unfold writeFromFD LinkedBuffer.writeFromFD
  dsimp only
  split
  · rfl
  · exact append_erase

/-- The buffer left by a stamped operation, without its stamps. -/
lemma snd_erase {α : Type} {x : Traced Use (α × StampedBuffer)} :
    (x >>= fun res => pure res.2).value.map erase = (x.value.map (Prod.map id erase)).map Prod.snd := by
  rw [bind_value]
  cases x.value with
  | none => rfl
  | some res => rfl

/-- Forgetting stamps and uses, a call is that of the linked buffer. -/
lemma exec_erase {call : Call} : (s.exec call).value.map erase = call.exec s.erase := by
  cases call with
  | append buf => exact congrArg some append_erase
  | writeFromFD r => exact congrArg some writeFromFD_erase
  | read n =>
    rw [Call.exec, ← read_erase]
    exact snd_erase
  | readUntil iter =>
    rw [Call.exec, ← readUntil_erase]
    exact snd_erase
  | readAll => rfl
  | readToFD w =>
    rw [Call.exec, ← readToFD_erase]
    exact snd_erase

end StampedBuffer

end Erase

end WebServer.Net
