import WebServer.Net.LinkedStamps

/-!
# The stored reader of the linked buffer

`reader_iter_` is kept from call to call. An append that grows the last node leaves it valid, since every node has
been given a capacity of at least `kMinNodeSize`. One that adds a node to a deque that is not empty makes its node part
invalid, and the next call that looks at the reader uses it; only `readAll` sets it to an iterator that can be used.
`reader_valid_iff` says that this is the only way: no call uses an invalid iterator if and only if every call that
looks at the reader is made while no node has been added so since the last `readAll`.
-/

namespace WebServer.Net

open Lib (Traced)

/-! ## Valid iterators -/

/-- The iterator is valid, and its char part is one of its node part's. -/
structure StampedNodes.Current (d : StampedNodes) (it : StampedIter) : Prop where
  node : ∀ {k}, it.node_iter_ = some k → it.epoch = d.epoch ∧ d.first ≤ k
  char : ∀ {c}, it.char_iter_ = some c →
    ∃ k, it.node_iter_ = some k ∧ k < d.end_ ∧ it.home = k ∧ it.alloc = d.reallocs k

namespace StampedNodes

variable {d : StampedNodes} {it : StampedIter}

/-- Using the node of a current iterator is valid. -/
lemma Current.useNode (h : d.Current it) : (d.useNode it).Ensures Use.Valid fun _ => True := by
  refine .record ?_ fun _ => trivial
  show d.validNode it = true
  unfold validNode
  split
  · rfl
  · exact decide_eq_true (h.node ‹_›)

/-- Using the character of a current iterator is valid. -/
lemma Current.useChar (h : d.Current it) : (d.useChar it).Ensures Use.Valid fun _ => True := by
  refine .record ?_ fun _ => trivial
  show d.validChar it = true
  unfold validChar
  split
  · rfl
  · obtain ⟨k, ek, lt, home, alloc⟩ := h.char ‹_›
    rw [home]
    exact decide_eq_true ⟨(h.node ek).2, lt, alloc⟩

/-- A node part of another epoch must not be used. -/
lemma useNode_stale {k : Nat} (ek : it.node_iter_ = some k) (ne : it.epoch ≠ d.epoch) :
    ¬(d.useNode it).All Use.Valid := by
  intro all
  have valid : Use.Valid (.node (d.validNode it)) := Traced.all_record.1 all
  unfold Use.Valid validNode at valid
  rw [ek] at valid
  exact ne (of_decide_eq_true valid).1

/-- A position is valid when it is obtained. -/
lemma current_stamp {iter : LinkedBufferIter} {bs : Bytes} (rd : Reads d.toNodeContainer iter bs) :
    d.Current (d.stamp iter) := by
  cases rd with
  | @node k node rest c le e hc =>
    have inside := drop_length le e
    refine ⟨fun ek => ?_, fun _ => ⟨k, rfl, by omega, rfl, rfl⟩⟩
    cases ek
    exact ⟨rfl, le⟩
  | last =>
    refine ⟨fun ek => ?_, fun ec => nomatch ec⟩
    cases ek
    exact ⟨rfl, Nat.le_add_right _ _⟩

end StampedNodes

namespace StampedIter

variable {d : StampedNodes} {it : StampedIter}

open StampedNodes (Current)

/-- The next node is as valid as the one before it. -/
lemma next_current (h : d.Current it) {next : LinkedBufferIter}
    (e : it.toLinkedBufferIter.toFirstCharOfNextNode d.toNodeContainer = some next) :
    d.Current { d.stamp next with epoch := it.epoch } := by
  obtain ⟨k, ek, e⟩ := Option.bind_eq_some_iff.1 e
  obtain ⟨epoch, le⟩ := h.node ek
  split at e
  case isTrue inside =>
    cases e
    refine ⟨fun ek' => ?_, fun ec => ⟨k + 1, rfl, ?_, rfl, rfl⟩⟩
    · cases ek'
      exact ⟨epoch, Nat.le_succ_of_le le⟩
    · have ne : k + 1 ≠ d.end_ := by
        intro eq
        rw [StampedNodes.stamp, if_neg (not_not.2 eq)] at ec
        cases ec
      omega
  case isFalse => cases e

/-- Moving a current iterator to the next node is valid, and leaves it current. -/
lemma toFirstCharOfNextNode_current (h : d.Current it) :
    (it.toFirstCharOfNextNode d).Ensures Use.Valid d.Current := by
  refine h.useNode.bind fun _ _ => (Traced.Ensures.lift fun e => next_current h e).bind fun next current => ?_
  exact current.useNode.bind fun _ _ => .pure current

/-- Measuring the rest of the node of a current iterator is valid. -/
lemma charDistanceToEndOfNode_current (h : d.Current it) :
    (it.charDistanceToEndOfNode d).Ensures Use.Valid fun _ => True :=
  h.useNode.bind fun _ _ => h.useChar.bind fun _ _ => .lift fun _ => trivial

/-- Moving a current iterator inside its node is valid, and leaves it current. -/
lemma advanceChar_current (h : d.Current it) {n : Int} : (it.advanceChar d n).Ensures Use.Valid d.Current := by
  have moved {next} (e : it.toLinkedBufferIter.advanceChar d.toNodeContainer n = some next) :
      d.Current { it with toLinkedBufferIter := next } := by
    obtain ⟨k, _, e⟩ := Option.bind_eq_some_iff.1 e
    obtain ⟨node, _, e⟩ := Option.bind_eq_some_iff.1 e
    obtain ⟨c, ec, e⟩ := Option.bind_eq_some_iff.1 e
    dsimp only at e
    split at e
    · cases e
      exact ⟨fun ek => h.node ek, fun _ => h.char ec⟩
    · cases e
  exact h.useChar.bind fun _ _ => (Traced.Ensures.lift moved).bind fun _ current => .pure current

/-- `operator+=` uses valid iterators only, and ends with one. -/
lemma addForward_current {fuel : Nat} {n : Int} (h : d.Current it) :
    (addForward d fuel it n).Ensures Use.Valid d.Current := by
  induction fuel generalizing it n with
  | zero => exact .lift fun e => nomatch e
  | succ fuel ih =>
    rw [addForward]
    refine (charDistanceToEndOfNode_current h).bind fun diff _ => ?_
    split
    · exact advanceChar_current h
    · refine (toFirstCharOfNextNode_current h).bind fun next current => ?_
      split
      · exact ih current
      · exact .pure current

/-- Comparing current iterators is valid. -/
lemma lt_current {a b : StampedIter} (ha : d.Current a) (hb : d.Current b) :
    (lt d a b).Ensures Use.Valid fun _ => True := by
  refine ha.useNode.bind fun _ _ => hb.useNode.bind fun _ _ => ?_
  split
  · exact ha.useChar.bind fun _ _ => hb.useChar.bind fun _ _ => .lift fun _ => trivial
  · exact .lift fun _ => trivial

end StampedIter

namespace StampedBuffer

open LinkedBuffer (kMinNodeSize Call)
open StampedIter

variable {d : StampedNodes} {it : StampedIter} {s s' : StampedBuffer}

/-- Counting from a current iterator is valid. -/
lemma sizeLoop_current {fuel sz : Nat} (h : d.Current it) :
    (sizeLoop d fuel it sz).Ensures Use.Valid fun _ => True := by
  induction fuel generalizing it sz with
  | zero => exact .lift fun _ => trivial
  | succ fuel ih =>
    rw [sizeLoop]
    refine h.useNode.bind fun _ _ => ?_
    split
    · exact .pure trivial
    · refine (charDistanceToEndOfNode_current h).bind fun len _ => ?_
      exact (toFirstCharOfNextNode_current h).bind fun next current => ih current

/-- Collecting the nodes from a current iterator is valid. -/
lemma iovLoop_current {fuel : Nat} (h : d.Current it) : (iovLoop d fuel it).Ensures Use.Valid fun _ => True := by
  induction fuel generalizing it with
  | zero => exact .lift fun _ => trivial
  | succ fuel ih =>
    rw [iovLoop]
    refine h.useNode.bind fun _ _ => ?_
    split
    · exact .pure trivial
    · have any {α : Type} {x : Option α} : (Traced.lift x).Ensures Use.Valid fun _ => True := .lift fun _ => trivial
      refine h.useChar.bind fun _ _ => any.bind fun node _ => any.bind fun c _ => ?_
      refine (charDistanceToEndOfNode_current h).bind fun len _ => ?_
      refine (toFirstCharOfNextNode_current h).bind fun next current => ?_
      exact (ih current).bind fun _ _ => .pure trivial

/-- The nodes before a node can be freed with an iterator to it. -/
lemma popLoop_current {k first : Nat} {nodes : List Bytes} (ek : it.node_iter_ = some k) (epoch : it.epoch = d.epoch)
    (le : first ≤ k) :
    (popLoop d it k first nodes).Ensures Use.Valid fun c => c.first = k ∧ c.end_ = first + nodes.length := by
  have valid {first : Nat} {nodes : List Bytes} (le : first ≤ k) :
      (StampedNodes.useNode { d with first := first, nodes := nodes } it).Ensures Use.Valid fun _ => True := by
    refine .record ?_ fun _ => trivial
    show StampedNodes.validNode _ it = true
    unfold StampedNodes.validNode
    rw [ek]
    exact decide_eq_true ⟨epoch, le⟩
  induction nodes generalizing first with
  | nil =>
    refine (valid le).bind fun _ _ => .lift fun e => ?_
    split at e
    case isTrue eq =>
      cases e
      exact ⟨eq, rfl⟩
    case isFalse => cases e
  | cons node nodes ih =>
    rw [popLoop]
    refine (valid le).bind fun _ _ => ?_
    split
    case isTrue eq => exact .pure ⟨eq, rfl⟩
    case isFalse ne =>
      rw [List.length_cons, Nat.add_comm nodes.length, ← Nat.add_assoc]
      exact ih (by omega)

/-- The nodes have room for `kMinNodeSize` bytes. -/
def Roomy (d : StampedNodes) : Prop := ∀ k, d.first ≤ k → k < d.end_ → kMinNodeSize ≤ d.capacity k

/-- The reader is valid, and the nodes are roomy. -/
structure Fit (s : StampedBuffer) : Prop where
  roomy : Roomy s.buffer_
  current : s.buffer_.Current s.reader_iter_

/-- With a fitting reader, freeing nodes is valid, and the reader still fits. -/
lemma freeNodesBefore_fit (fit : s.Fit) : s.freeNodesBefore.Ensures Use.Valid Fit := by
  refine (Traced.Ensures.lift fun e => e).bind fun k ek => ?_
  obtain ⟨epoch, le⟩ := fit.current.node ek
  refine (popLoop_current ek epoch le).bind fun c hc => .pure ?_
  obtain ⟨rfl, end_⟩ := hc
  refine ⟨fun k ge lt => fit.roomy k (le.trans ge) (Nat.lt_of_lt_of_eq lt end_), fun ek' => ?_, fun ec => ?_⟩
  · cases ek.symm.trans ek'
    exact ⟨epoch, Nat.le_refl _⟩
  · obtain ⟨k, ek', lt, home, alloc⟩ := fit.current.char ec
    exact ⟨k, ek', Nat.lt_of_lt_of_eq lt end_.symm, home, alloc⟩

/-- With a fitting reader, `read` is valid, and the reader still fits. -/
lemma read_fit (fit : s.Fit) {n : Nat} : (s.read n).Ensures Use.Valid fun res => res.2.Fit := by
  refine (sizeLoop_current fit.current).bind fun size _ => ?_
  split
  · exact .pure fit
  · refine (addForward_current fit.current).bind fun iter current => ?_
    have moved : Fit { s with reader_iter_ := iter } := ⟨fit.roomy, current⟩
    exact (freeNodesBefore_fit moved).bind fun _ fit' => .pure fit'

/-- With a fitting reader, `readUntil` is valid, and the reader still fits. -/
lemma readUntil_fit (fit : s.Fit) {iter : LinkedBufferIter} {bs : Bytes} (rd : Reads s.erase.buffer_ iter bs) :
    (s.readUntil iter).Ensures Use.Valid fun res => res.2.Fit := by
  have fresh := StampedNodes.current_stamp rd
  refine (lt_current fresh fit.current).bind fun before _ => ?_
  split
  · exact .pure fit
  · have moved : Fit { s with reader_iter_ := s.buffer_.stamp iter } := ⟨fit.roomy, fresh⟩
    exact (freeNodesBefore_fit moved).bind fun _ fit' => .pure fit'

/-- With a fitting reader, `readToFD` is valid, and the reader still fits. -/
lemma readToFD_fit (fit : s.Fit) {w : WriteResult} : (s.readToFD w).Ensures Use.Valid fun res => res.2.Fit := by
  have count : s.numReadableNodes.Ensures Use.Valid fun _ => True :=
    fit.current.useNode.bind fun _ _ => .lift fun _ => trivial
  refine count.bind fun node_d _ => (iovLoop_current fit.current).bind fun vec _ => ?_
  split
  · dsimp only
    split
    · exact .pure fit
    · exact (read_fit fit).bind fun _ fit' => .pure fit'
  · exact .lift fun e => nomatch e

/-! ## Appends -/

/-- A new node is roomy too. -/
lemma addNewNode_roomy (roomy : Roomy s.buffer_) {buf : Bytes} : Roomy (s.addNewNode buf).buffer_ := by
  intro k ge lt
  show kMinNodeSize ≤ Function.update s.buffer_.capacity s.buffer_.end_ (max kMinNodeSize buf.length) k
  by_cases last : k = s.buffer_.end_
  · rw [last, Function.update_self]
    exact Nat.le_max_left _ _
  · rw [Function.update_of_ne last]
    refine roomy k ge ?_
    have lt' : k < s.buffer_.first + (s.buffer_.nodes ++ [buf]).length := lt
    rw [List.length_append, List.length_singleton] at lt'
    rw [NodeContainer.end_] at last ⊢
    omega

/-- A short insertion into a roomy node does not reallocate it. -/
lemma insertLast_eq (roomy : Roomy d) {node : Bytes} (ne : d.nodes ≠ []) (short : node.length < kMinNodeSize) :
    d.insertLast node = { d with nodes := d.nodes.dropLast ++ [node] } := by
  have pos := List.length_pos_iff.2 ne
  have cap := roomy (d.end_ - 1)
  rw [NodeContainer.end_] at cap
  have room := cap (by omega) (by omega)
  refine if_neg ?_
  rw [NodeContainer.end_]
  omega

/-- Writing into the last node does not move the end. -/
lemma end_insertLast {node : Bytes} (ne : d.nodes ≠ []) :
    NodeContainer.end_ { d.toNodeContainer with nodes := d.nodes.dropLast ++ [node] } = d.end_ := by
  have pos := List.length_pos_iff.2 ne
  show d.first + (d.nodes.dropLast ++ [node]).length = d.first + d.nodes.length
  rw [List.length_append, List.length_dropLast, List.length_singleton]
  omega

end StampedBuffer

/-! ## Runs -/

namespace LinkedBuffer

/-- The call looks at the reader. -/
def Call.reads : Call → Bool
  | .read _ | .readUntil _ | .readToFD _ => true
  | _ => false

/-- The append adds a node to a deque that is not empty. -/
def pushes (lb : LinkedBuffer) (buf : Bytes) : Bool := lb.buffer_.nodes ≠ [] && lb.addsNode buf

/-- What is as long as a node can be without growing does not fit in a node that is there. -/
lemma pushes_long {lb : LinkedBuffer} {buf : Bytes} (ne : lb.buffer_.nodes ≠ []) (long : kMinNodeSize ≤ buf.length) :
    lb.pushes buf = true := by
  refine Bool.and_eq_true_iff.2 ⟨decide_eq_true ne, ?_⟩
  unfold addsNode
  split
  · rfl
  · exact decide_eq_true (Nat.le_add_left_of_le long)

/-- Whether, after the call, a node has been added to a deque that was not empty since the last `readAll`. -/
def Call.outdates (lb : LinkedBuffer) (outdated : Bool) : Call → Bool
  | .append buf => outdated || lb.pushes buf
  | .writeFromFD r =>
    outdated || (0 < (sysw.read kTmpBuffSize r).1 && lb.pushes (sysw.read kTmpBuffSize r).2)
  | .readAll => false
  | _ => outdated

/-- No call looks at the reader after a node has been added to a deque that was not empty, unless `readAll` has
    been called in between. -/
def Timely (lb : LinkedBuffer) (outdated : Bool) : List Call → Prop
  | [] => True
  | call :: calls => (call.reads = true → outdated = false) ∧
      ∀ lb', call.exec lb = some lb' → Timely lb' (call.outdates lb outdated) calls

/-- Every iterator given to `readUntil` is a position of the buffer. -/
def ValidCalls (lb : LinkedBuffer) : List Call → Prop
  | [] => True
  | call :: calls => call.Valid lb ∧ ∀ lb', call.exec lb = some lb' → ValidCalls lb' calls

end LinkedBuffer

namespace StampedBuffer

open LinkedBuffer (kMinNodeSize Call Timely ValidCalls)

variable {s s' : StampedBuffer} {outdated : Bool}

/-- The invariant of a run: unless it is outdated, the reader is valid. -/
structure Inv (s : StampedBuffer) (outdated : Bool) : Prop where
  usable : s.erase.Fresh ∨ s.erase.Seated
  roomy : Roomy s.buffer_
  current : outdated = false → s.buffer_.Current s.reader_iter_
  stale : outdated = true → s.buffer_.nodes ≠ [] ∧ s.reader_iter_.epoch < s.buffer_.epoch

/-- While it is not outdated the reader fits. -/
lemma Inv.fit (inv : s.Inv false) : s.Fit := ⟨inv.roomy, inv.current rfl⟩

/-- In a deque with nodes the reader is in one. -/
lemma Inv.node (inv : s.Inv outdated) (ne : s.buffer_.nodes ≠ []) : ∃ k, s.reader_iter_.node_iter_ = some k := by
  rcases inv.usable with fr | st
  · exact absurd fr.nodes ne
  · exact ⟨_, st.front⟩

/-- The reader of a new buffer is not outdated. -/
lemma Inv.new : new.Inv false where
  usable := .inl ⟨rfl, rfl⟩
  roomy k _ lt := by
    rw [NodeContainer.end_] at lt
    exact absurd lt (Nat.not_lt_zero k)
  current _ := ⟨fun e => (nomatch e), fun e => (nomatch e)⟩
  stale e := nomatch e

/-- The three ways of `append`. -/
lemma append_cases (s : StampedBuffer) (buf : Bytes) :
    (s.buffer_.nodes = [] ∧ s.erase.pushes buf = false ∧ s.append buf = { s.addNewNode buf with
      reader_iter_ := (s.addNewNode buf).buffer_.stamp ⟨some s.buffer_.begin_, some 0⟩ }) ∨
    (s.buffer_.nodes ≠ [] ∧ s.erase.pushes buf = false ∧ ∃ node, node.length < kMinNodeSize ∧
      s.append buf = { s with buffer_ := s.buffer_.insertLast node }) ∨
    (s.buffer_.nodes ≠ [] ∧ s.erase.pushes buf = true ∧ s.append buf = s.addNewNode buf) := by
  have nodes : s.erase.buffer_.nodes = s.buffer_.nodes := rfl
  unfold StampedBuffer.append LinkedBuffer.pushes LinkedBuffer.addsNode
  rw [nodes]
  cases e : s.buffer_.nodes.getLast? with
  | none =>
    have en : s.buffer_.nodes = [] := List.getLast?_eq_none_iff.1 e
    exact .inl ⟨en, by rw [en]; rfl, rfl⟩
  | some last_node =>
    have ne : s.buffer_.nodes ≠ [] := by
      intro en
      rw [en] at e
      cases e
    rw [decide_eq_true ne, Bool.true_and]
    dsimp only
    by_cases fits : last_node.length + buf.length < kMinNodeSize
    · rw [if_pos fits, decide_eq_false (Nat.not_le.2 fits)]
      exact .inr (.inl ⟨ne, rfl, last_node ++ buf, by rwa [List.length_append], rfl⟩)
    · rw [if_neg fits, decide_eq_true (Nat.not_lt.1 fits)]
      exact .inr (.inr ⟨ne, rfl, rfl⟩)

/-- An append outdates the reader exactly when it pushes a node behind others. -/
lemma Inv.append (inv : s.Inv outdated) (buf : Bytes) : (s.append buf).Inv (outdated || s.erase.pushes buf) := by
  have usable : (s.append buf).erase.Fresh ∨ (s.append buf).erase.Seated := by
    rw [append_erase]
    exact .inr (LinkedBuffer.append_seated inv.usable buf)
  rcases append_cases s buf with ⟨en, push, e⟩ | ⟨ne, push, node, short, e⟩ | ⟨ne, push, e⟩
  · -- an outdated reader is one of a deque with nodes
    have fresh : outdated = false := by
      cases outdated with
      | false => rfl
      | true => exact absurd en (inv.stale rfl).1
    rw [push, fresh]
    rw [e] at usable ⊢
    refine ⟨usable, addNewNode_roomy inv.roomy, fun _ => ?_, fun e => nomatch e⟩
    have rd : Reads (s.addNewNode buf).buffer_.toNodeContainer ⟨some s.buffer_.begin_, some 0⟩
        (buf.drop 0 ++ ([] : List Bytes).flatten) := by
      refine @Reads.node _ _ buf [] 0 (Nat.le_refl _) ?_ (.inr rfl)
      show (s.buffer_.nodes ++ [buf]).drop (s.buffer_.first - s.buffer_.first) = [buf]
      rw [en, Nat.sub_self]
      rfl
    exact StampedNodes.current_stamp rd
  · rw [push, Bool.or_false]
    have same := @end_insertLast s.buffer_ node ne
    rw [e, insertLast_eq inv.roomy ne short] at usable ⊢
    refine ⟨usable, fun k ge lt => inv.roomy k ge (Nat.lt_of_lt_of_eq lt same), fun h => ?_, fun h => ?_⟩
    · have current := inv.current h
      refine ⟨fun ek => current.node ek, fun ec => ?_⟩
      obtain ⟨k, ek, lt, home, alloc⟩ := current.char ec
      exact ⟨k, ek, Nat.lt_of_lt_of_eq lt same.symm, home, alloc⟩
    · exact ⟨List.append_ne_nil_of_right_ne_nil _ (List.cons_ne_nil _ _), (inv.stale h).2⟩
  · rw [push, Bool.or_true]
    rw [e] at usable ⊢
    refine ⟨usable, addNewNode_roomy inv.roomy, fun h => (nomatch h), fun _ => ⟨?_, ?_⟩⟩
    · exact List.append_ne_nil_of_right_ne_nil _ (List.cons_ne_nil _ _)
    · show s.reader_iter_.epoch < s.buffer_.epoch + 1
      cases outdated with
      | false =>
        obtain ⟨k, ek⟩ := inv.node ne
        rw [((inv.current rfl).node ek).1]
        exact Nat.lt_succ_self _
      | true => exact Nat.lt_succ_of_lt (inv.stale rfl).2

/-- Input outdates the reader exactly when it pushes a node behind others. -/
lemma Inv.writeFromFD (inv : s.Inv outdated) (r : ReadResult) :
    (s.writeFromFD r).Inv ((Call.writeFromFD r).outdates s.erase outdated) := by
  unfold StampedBuffer.writeFromFD LinkedBuffer.Call.outdates
  dsimp only
  split
  case isTrue none_ =>
    rw [decide_eq_false (Int.not_lt.2 none_), Bool.false_and, Bool.or_false]
    exact inv
  case isFalse some_ =>
    have pos := Int.not_le.1 some_
    have all := (sysw.read_pos pos).1
    rw [List.take_of_length_le (by omega), decide_eq_true pos, Bool.true_and]
    exact inv.append _

/-- A call that does not look at an outdated reader uses valid iterators only. -/
lemma Inv.exec (inv : s.Inv outdated) {call : Call} (valid : call.Valid s.erase)
    (timely : call.reads = true → outdated = false) :
    (s.exec call).Ensures Use.Valid fun s' => s'.Inv (call.outdates s.erase outdated) := by
  have usable {s'} (e : (s.exec call).value = some s') : s'.erase.Fresh ∨ s'.erase.Seated := by
    refine LinkedBuffer.exec_inv inv.usable valid ?_
    rw [← exec_erase, e]
    rfl
  -- a call that looks at the reader
  have reading {α : Type} {x : Traced Use (α × StampedBuffer)} (e : s.exec call = x >>= fun res => pure res.2)
      (fit : x.Ensures Use.Valid fun res => res.2.Fit) : (s.exec call).Ensures Use.Valid fun s' => s'.Inv false := by
    have fit' : (s.exec call).Ensures Use.Valid Fit := by
      rw [e]
      exact fit.bind fun _ fit' => .pure fit'
    refine ⟨fit'.events, fun es => ?_⟩
    have ⟨roomy, current⟩ := fit'.value es
    exact ⟨usable es, roomy, fun _ => current, fun h => nomatch h⟩
  cases call with
  | append buf => exact .pure (inv.append buf)
  | writeFromFD r => exact .pure (inv.writeFromFD r)
  | read n =>
    cases timely rfl
    exact reading rfl (read_fit inv.fit)
  | readUntil iter =>
    cases timely rfl
    obtain ⟨bs, rd⟩ := valid
    exact reading rfl (readUntil_fit inv.fit rd)
  | readAll =>
    refine .pure ⟨usable rfl, fun k ge lt => ?_, fun _ => ⟨fun e => (nomatch e), fun e => (nomatch e)⟩,
      fun h => nomatch h⟩
    exact absurd ge (Nat.not_le.2 lt)
  | readToFD w =>
    cases timely rfl
    exact reading rfl (readToFD_fit inv.fit)

/-- A call that looks at an outdated reader uses it. -/
lemma Inv.untimely (inv : s.Inv true) {call : Call} (reads : call.reads = true) : ¬(s.exec call).All Use.Valid := by
  obtain ⟨ne, lt⟩ := inv.stale rfl
  obtain ⟨k, ek⟩ := inv.node ne
  have stale := StampedNodes.useNode_stale ek (Nat.ne_of_lt lt)
  intro all
  cases call with
  | read n => exact stale all.of_bind.of_bind.of_bind
  | readUntil iter =>
    have used := all.of_bind.of_bind
    rw [StampedIter.lt, Traced.all_bind rfl] at used
    exact stale used.2.of_bind
  | readToFD w => exact stale all.of_bind.of_bind.of_bind
  | append => cases reads
  | writeFromFD => cases reads
  | readAll => cases reads

/-- A run of calls. -/
def run (s : StampedBuffer) (calls : List Call) : Traced Use StampedBuffer := calls.foldlM exec s

/-- Without the stamps, a run is the run of the plain buffer. -/
lemma run_erase {calls : List Call} : (s.run calls).value.map erase = calls.foldlM Call.exec s.erase := by
  induction calls generalizing s with
  | nil => rfl
  | cons call calls ih =>
    rw [run, List.foldlM_cons, List.foldlM_cons, Traced.bind_value]
    exact Lib.map_bind exec_erase fun s' => ih

/-- The uses of a run are all valid exactly when its calls are timely. -/
lemma Inv.run (inv : s.Inv outdated) {calls : List Call} (valid : ValidCalls s.erase calls) :
    (s.run calls).All Use.Valid ↔ Timely s.erase outdated calls := by
  induction calls generalizing s outdated with
  | nil => exact iff_of_true (Traced.all_pure _) trivial
  | cons call calls ih =>
    obtain ⟨valid1, validRest⟩ := valid
    rw [StampedBuffer.run, List.foldlM_cons, Timely]
    by_cases timely : call.reads = true → outdated = false
    · have step := inv.exec valid1 timely
      rw [← exec_erase] at validRest ⊢
      cases e : (s.exec call).value with
      | none =>
        refine iff_of_true (Traced.all_bind_none e step.events) ⟨timely, fun lb' elb => ?_⟩
        cases elb
      | some s' =>
        rw [Traced.all_bind e]
        have rest := ih (step.value e) (validRest _ (by rw [e]; rfl))
        constructor
        · rintro ⟨_, all⟩
          refine ⟨timely, fun lb' elb => ?_⟩
          cases elb
          exact rest.1 all
        · rintro ⟨_, timely'⟩
          exact ⟨step.events, rest.2 (timely' _ rfl)⟩
    · refine iff_of_false (fun all => ?_) fun h => timely h.1
      push Not at timely
      obtain ⟨reads, outdated'⟩ := timely
      obtain rfl := Bool.eq_true_of_not_eq_false outdated'
      exact inv.untimely reads all.of_bind

end StampedBuffer

open LinkedBuffer StampedBuffer in
/-- For every sequence of calls, with positions of the buffer given to `readUntil`: forgetting the stamps, it is the
    sequence of calls on the linked buffer, and every container iterator that is used is valid if and only if no call
    looks at the reader after a node has been added to a deque that was not empty, unless `readAll` has been called in
    between. -/
theorem reader_valid_iff (calls : List Call) (valid : ValidCalls LinkedBuffer.new calls) :
    (StampedBuffer.new.run calls).value.map erase = calls.foldlM Call.exec LinkedBuffer.new ∧
    ((StampedBuffer.new.run calls).All Use.Valid ↔ Timely LinkedBuffer.new false calls) :=
  ⟨run_erase, Inv.new.run valid⟩

open LinkedBuffer StampedBuffer in
/-- Short appends, a read and a search. -/
theorem reader_valid_iff_short :
    (StampedBuffer.new.run [.append (bytes "ab"), .append (bytes "c"), .read 1,
      .readUntil ⟨some 0, some 2⟩]).All Use.Valid := by
  refine (reader_valid_iff _ ?_).2.2 ?_
  · refine ⟨trivial, fun lb e => ?_⟩
    cases e
    refine ⟨trivial, fun lb e => ?_⟩
    cases e
    refine ⟨trivial, fun lb e => ?_⟩
    cases e
    refine ⟨⟨_, @Reads.node _ 0 (bytes "abc") [] 2 (Nat.le_refl 0) rfl (.inl (by decide))⟩, fun lb e => ?_⟩
    cases e
    trivial
  · refine ⟨fun h => (nomatch h), fun lb e => ?_⟩
    cases e
    refine ⟨fun h => (nomatch h), fun lb e => ?_⟩
    cases e
    refine ⟨fun _ => rfl, fun lb e => ?_⟩
    cases e
    refine ⟨fun _ => rfl, fun lb e => ?_⟩
    cases e
    trivial

open LinkedBuffer StampedBuffer in
/-- A byte behind a full node is a node of its own, and the read after it uses the invalid reader. -/
theorem reader_invalid :
    ¬(StampedBuffer.new.run [.append (List.replicate 1024 (char 'x')), .append (bytes "y"), .read 1]).All Use.Valid := by
  have many : (List.replicate 1024 (char 'x')).length = 1024 := List.length_replicate
  generalize List.replicate 1024 (char 'x') = xs at many
  have valid : ValidCalls LinkedBuffer.new [.append xs, .append (bytes "y"), .read 1] :=
    ⟨trivial, fun _ _ => ⟨trivial, fun _ _ => ⟨trivial, fun _ _ => trivial⟩⟩⟩
  rw [Inv.new.run valid]
  intro timely
  have pushes : (LinkedBuffer.new.append xs).pushes (bytes "y") = true := by
    have one : (bytes "y").length = 1 := by decide
    simp [pushes, addsNode, LinkedBuffer.append, LinkedBuffer.addNewNode, LinkedBuffer.new, kMinNodeSize, many, one]
  have read : (false || LinkedBuffer.new.pushes xs || (LinkedBuffer.new.append xs).pushes (bytes "y")) = false :=
    ((timely.2 _ rfl).2 _ rfl).1 rfl
  rw [pushes, Bool.or_true] at read
  cases read

end WebServer.Net
