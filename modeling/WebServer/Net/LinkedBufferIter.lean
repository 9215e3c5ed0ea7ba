import WebServer.Net.Sysw

/-!
# Iterators of the linked buffer

Model of `class LinkedBufferIter` of `connection/buffer/linked_buffer.{h,cc}`: a two-level position into
a `std::deque<std::vector<char>>`.

A node is addressed by the number of nodes pushed before it, so that a `NodeContainer::iterator` is a
number that keeps its meaning under `push_back` and `pop_front`; `none` is a default-constructed
iterator. A `CharContainer::iterator` is an offset into its node, `none` again the default-constructed
one. `end()` is the number after the last node with no offset. The field `node_container_` is the
container the operations are given; it is never another one. Dereferencing or moving an iterator out of
the container, and comparing a default-constructed node iterator by `<`, is undefined (`none`). The
loops run on the number of nodes as fuel; `addForward_spec` and the results built on it show that it
suffices.

`Reads d it bs` says that `it` is a position of `d` and that `bs` are the bytes from there to the end.
-/

namespace WebServer.Net

/-- `NodeContainer`; `first` nodes have been popped at the front. An iterator is a number that `push_back` does not
    change, where that of the standard makes every iterator of the deque invalid: `StampedNodes` is the container with
    the standard's rule. -/
structure NodeContainer where
  first : Nat
  nodes : List Bytes
deriving DecidableEq, Repr

namespace NodeContainer

def begin_ (d : NodeContainer) : Nat := d.first

def end_ (d : NodeContainer) : Nat := d.first + d.nodes.length

/-- The node an iterator designates. -/
def node? (d : NodeContainer) (k : Nat) : Option Bytes :=
  if d.first ≤ k then d.nodes[k - d.first]? else none

end NodeContainer

/-- `class LinkedBufferIter`; the default value is the default-constructed iterator. -/
structure LinkedBufferIter where
  node_iter_ : Option Nat := none
  char_iter_ : Option Nat := none
deriving DecidableEq, Repr

namespace LinkedBufferIter

/-- `LinkedBufferIter::toLastCharOfPrevNode` -/
def toLastCharOfPrevNode (d : NodeContainer) (it : LinkedBufferIter) : Option LinkedBufferIter := do
  let k ← it.node_iter_
  if k ≤ d.begin_ then
    none
  else
    let node ← d.node? (k - 1)
    if node = [] then none else some ⟨some (k - 1), some (node.length - 1)⟩

/-- `LinkedBufferIter::toFirstCharOfNextNode` -/
def toFirstCharOfNextNode (d : NodeContainer) (it : LinkedBufferIter) : Option LinkedBufferIter := do
  let k ← it.node_iter_
  if d.begin_ ≤ k ∧ k < d.end_ then
    some ⟨some (k + 1), if k + 1 ≠ d.end_ then some 0 else none⟩
  else
    none

/-- `LinkedBufferIter::charDistanceToEndOfNode` -/
def charDistanceToEndOfNode (d : NodeContainer) (it : LinkedBufferIter) : Option Int := do
  let node ← d.node? (← it.node_iter_)
  some (node.length - (← it.char_iter_))

/-- `LinkedBufferIter::charDistanceToStartOfNode` -/
def charDistanceToStartOfNode (d : NodeContainer) (it : LinkedBufferIter) : Option Int := do
  let _ ← d.node? (← it.node_iter_)
  some ((← it.char_iter_) + 1)

/-- `std::advance(char_iter_, n)` -/
def advanceChar (d : NodeContainer) (it : LinkedBufferIter) (n : Int) : Option LinkedBufferIter := do
  let node ← d.node? (← it.node_iter_)
  let c := ((← it.char_iter_ : Nat) : Int) + n
  if 0 ≤ c ∧ c ≤ node.length then some ⟨it.node_iter_, some c.toNat⟩ else none

/-- The first loop of `LinkedBufferIter::operator+=`. -/
def addForward (d : NodeContainer) : Nat → LinkedBufferIter → Int → Option LinkedBufferIter
  | 0, _, _ => none
  | fuel + 1, it, n => do
    let curr_node_diff ← it.charDistanceToEndOfNode d
    if curr_node_diff > n then
      it.advanceChar d n
    else
      let it ← it.toFirstCharOfNextNode d
      if n - curr_node_diff > 0 then addForward d fuel it (n - curr_node_diff) else some it

/-- The second loop of `LinkedBufferIter::operator+=`, for a negative `n`. -/
def addBackward (d : NodeContainer) : Nat → LinkedBufferIter → Int → Option LinkedBufferIter
  | 0, _, _ => none
  | fuel + 1, it, n => do
    let curr_node_diff ← it.charDistanceToStartOfNode d
    if curr_node_diff > n then
      it.advanceChar d (-n)
    else
      let it ← it.toLastCharOfPrevNode d
      if n - curr_node_diff > 0 then addBackward d fuel it (n - curr_node_diff) else some it

/-- `LinkedBufferIter::operator+=` and `operator+` -/
def plus (d : NodeContainer) (it : LinkedBufferIter) (n : Int) : Option LinkedBufferIter :=
  if n ≥ 0 then
    addForward d (d.nodes.length + 1) it n
  else
    addBackward d (d.nodes.length + 1) it n

/-- `LinkedBufferIter::operator++` -/
def next (d : NodeContainer) (it : LinkedBufferIter) : Option LinkedBufferIter := do
  let node ← d.node? (← it.node_iter_)
  let c ← it.char_iter_
  if c < node.length then
    if c + 1 = node.length then it.toFirstCharOfNextNode d else some ⟨it.node_iter_, some (c + 1)⟩
  else
    none

/-- `LinkedBufferIter::operator--` -/
def prev (d : NodeContainer) (it : LinkedBufferIter) : Option LinkedBufferIter := do
  let _ ← d.node? (← it.node_iter_)
  let c ← it.char_iter_
  if c ≠ 0 then some ⟨it.node_iter_, some (c - 1)⟩ else it.toLastCharOfPrevNode d

/-- `LinkedBufferIter::operator*` -/
def deref (d : NodeContainer) (it : LinkedBufferIter) : Option UInt8 := do
  let node ← d.node? (← it.node_iter_)
  node[(← it.char_iter_)]?

/-- `operator<` of node iterators and of char iterators. -/
def posLt : Option Nat → Option Nat → Option Bool
  | some a, some b => some (a < b)
  | none, none => some false
  | _, _ => none

/-- `LinkedBufferIter::operator<` -/
def lt (a b : LinkedBufferIter) : Option Bool :=
  if a.node_iter_ = b.node_iter_ then
    posLt a.char_iter_ b.char_iter_
  else
    posLt a.node_iter_ b.node_iter_

/-- `std::distance(a, b)` of char iterators. -/
def charDistance : Option Nat → Option Nat → Option Int
  | some a, some b => some ((b : Int) - a)
  | none, none => some 0
  | _, _ => none

/-- The loops of `LinkedBufferIter::operator-`: walk to the node `target`, adding up `dist`. -/
def walk (d : NodeContainer) (target : Option Nat) (dist : LinkedBufferIter → Option Int) :
    Nat → LinkedBufferIter → Int → Option (LinkedBufferIter × Int)
  | 0, _, _ => none
  | fuel + 1, it, diff =>
    if it.node_iter_ = target then
      some (it, diff)
    else do
      let step ← dist it
      walk d target dist fuel (← it.toFirstCharOfNextNode d) (diff + step)

/-- `LinkedBufferIter::operator-` of two iterators. -/
def minus (d : NodeContainer) (a b : LinkedBufferIter) : Option Int := do
  if ← a.lt b then
    let (it, diff) ← walk d b.node_iter_
      (fun it => (it.charDistanceToStartOfNode d).map (- ·)) (d.nodes.length + 1) a 0
    some (diff - (← charDistance it.char_iter_ b.char_iter_))
  else
    let (it, diff) ← walk d a.node_iter_
      (charDistanceToEndOfNode d) (d.nodes.length + 1) b 0
    some (diff + (← charDistance it.char_iter_ a.char_iter_))

end LinkedBufferIter

/-! ## Positions and the bytes after them -/

/-- `it` is a position of `d`, and `bs` are the bytes from there to the end of the last node. An offset
    is before the end of its node, or `0` (the node may be empty). -/
inductive Reads (d : NodeContainer) : LinkedBufferIter → Bytes → Prop where
  | node {k node rest c} :
    d.first ≤ k →
    d.nodes.drop (k - d.first) = node :: rest →
    c < node.length ∨ c = 0 →
    Reads d ⟨some k, some c⟩ (node.drop c ++ rest.flatten)
  | last :
    Reads d ⟨some d.end_, none⟩ []

section Positions

variable {d : NodeContainer} {k c : Nat} {node : Bytes} {rest : List Bytes}

/-- An offset inside a node, or at the start of an empty one, is at most its length. -/
lemma le_of_offset (hc : c < node.length ∨ c = 0) : c ≤ node.length := by
  omega

/-- The node where the rest of the container begins. -/
lemma node?_of_drop (le : d.first ≤ k) (e : d.nodes.drop (k - d.first) = node :: rest) :
    d.node? k = some node := by
  rw [NodeContainer.node?, if_pos le, ← List.head?_drop, e]
  rfl

/-- The end of the container, counted from a node. -/
lemma drop_length (le : d.first ≤ k) (e : d.nodes.drop (k - d.first) = node :: rest) :
    d.end_ = k + rest.length + 1 := by
  have h := congrArg List.length e
  simp only [List.length_drop, List.length_cons] at h
  simp only [NodeContainer.end_]
  omega

/-- The rest of the container after a node. -/
lemma drop_succ (le : d.first ≤ k) (e : d.nodes.drop (k - d.first) = node :: rest) :
    d.nodes.drop (k + 1 - d.first) = rest := by
  rw [show k + 1 - d.first = (k - d.first) + 1 from by omega, ← List.drop_drop, e]
  rfl

/-- Where `toFirstCharOfNextNode` goes. -/
lemma toFirstCharOfNextNode_eq (le : d.first ≤ k)
    (e : d.nodes.drop (k - d.first) = node :: rest) {ch} :
    LinkedBufferIter.toFirstCharOfNextNode d ⟨some k, ch⟩ =
      some ⟨some (k + 1), if rest = [] then none else some 0⟩ := by
  have he := drop_length le e
  have hk : d.begin_ ≤ k ∧ k < d.end_ := ⟨le, by omega⟩
  simp only [LinkedBufferIter.toFirstCharOfNextNode, Option.bind_eq_bind, Option.bind_some, if_pos hk]
  cases rest with
  | nil => simp [he]
  | cons r rs => simp [he]

/-- `toFirstCharOfNextNode` reaches the bytes of the nodes after this one. -/
lemma Reads.toFirstCharOfNextNode (le : d.first ≤ k)
    (e : d.nodes.drop (k - d.first) = node :: rest) :
    Reads d ⟨some (k + 1), if rest = [] then none else some 0⟩ rest.flatten := by
  have he := drop_length le e
  cases rest with
  | nil =>
    have h := @Reads.last d
    rwa [he] at h
  | cons r rs =>
    have h := drop_succ le e
    exact Reads.node (Nat.le_succ_of_le le) h (.inr rfl)

/-- The distance to the end of the node, for a position in it. -/
lemma charDistanceToEndOfNode_eq (le : d.first ≤ k)
    (e : d.nodes.drop (k - d.first) = node :: rest) :
    LinkedBufferIter.charDistanceToEndOfNode d ⟨some k, some c⟩ = some ((node.length : Int) - c) := by
  simp [LinkedBufferIter.charDistanceToEndOfNode, node?_of_drop le e]

/-- One round of `operator+=` that ends inside the node. -/
lemma addForward_stay {fuel n : Nat} (le : d.first ≤ k)
    (e : d.nodes.drop (k - d.first) = node :: rest) (h : c + n < node.length) :
    LinkedBufferIter.addForward d (fuel + 1) ⟨some k, some c⟩ n = some ⟨some k, some (c + n)⟩ := by
  simp only [LinkedBufferIter.addForward, charDistanceToEndOfNode_eq le e, Option.bind_eq_bind,
    Option.bind_some]
  rw [if_pos (by omega)]
  simp only [LinkedBufferIter.advanceChar, node?_of_drop le e, Option.bind_eq_bind, Option.bind_some]
  rw [if_pos (by omega)]
  rfl

/-- One round of `operator+=` that leaves the node, with `m` bytes still to skip. -/
lemma addForward_cross {fuel m : Nat} (le : d.first ≤ k)
    (e : d.nodes.drop (k - d.first) = node :: rest) (hc : c ≤ node.length) :
    LinkedBufferIter.addForward d (fuel + 1) ⟨some k, some c⟩ (node.length - c + m : Nat) =
      if 0 < m then
        LinkedBufferIter.addForward d fuel ⟨some (k + 1), if rest = [] then none else some 0⟩ m
      else
        some ⟨some (k + 1), if rest = [] then none else some 0⟩ := by
  simp only [LinkedBufferIter.addForward, charDistanceToEndOfNode_eq le e, Option.bind_eq_bind,
    Option.bind_some]
  have hm : ((node.length - c + m : Nat) : Int) - ((node.length : Int) - c) = (m : Int) := by omega
  rw [if_neg (by omega), toFirstCharOfNextNode_eq le e, Option.bind_some, hm]
  simp only [gt_iff_lt, Int.natCast_pos]

/-- `operator+=` with a non-negative argument is defined inside the container and skips bytes. -/
lemma addForward_spec {fuel n : Nat} (le : d.first ≤ k)
    (e : d.nodes.drop (k - d.first) = node :: rest) (hc : c ≤ node.length)
    (hn : n ≤ (node.drop c ++ rest.flatten).length) (hf : rest.length < fuel) :
    ∃ it, LinkedBufferIter.addForward d fuel ⟨some k, some c⟩ n = some it ∧
      Reads d it ((node.drop c ++ rest.flatten).drop n) := by
  induction rest generalizing k c node n fuel with
  | nil =>
    obtain ⟨fuel, rfl⟩ := Nat.exists_eq_succ_of_ne_zero (Nat.ne_of_gt hf)
    simp only [List.flatten_nil, List.append_nil, List.length_drop] at hn ⊢
    by_cases h : c + n < node.length
    · refine ⟨_, addForward_stay le e h, ?_⟩
      have hr := Reads.node le e (.inl h)
      rwa [List.flatten_nil, List.append_nil, ← List.drop_drop] at hr
    · have en : n = node.length - c + 0 := by omega
      refine ⟨_, by rw [en, addForward_cross le e hc, if_neg (Nat.lt_irrefl 0)], ?_⟩
      have hr := Reads.toFirstCharOfNextNode le e
      rwa [List.drop_drop, List.drop_of_length_le (by omega)]
  | cons r rs ih =>
    obtain ⟨fuel, rfl⟩ := Nat.exists_eq_succ_of_ne_zero (Nat.ne_of_gt (Nat.zero_lt_of_lt hf))
    by_cases h : c + n < node.length
    · refine ⟨_, addForward_stay le e h, ?_⟩
      have hr := Reads.node le e (.inl h)
      rwa [← List.drop_drop, ← List.drop_append_of_le_length
        (by rw [List.length_drop]; omega)] at hr
    · -- the rest of the node is passed, and the walk goes on at the start of the next one
      obtain ⟨m, rfl⟩ := Nat.exists_eq_add_of_le (show node.length - c ≤ n from by omega)
      have hd : (node.drop c ++ (r :: rs).flatten).drop (node.length - c + m)
          = (r.drop 0 ++ rs.flatten).drop m := by
        rw [← List.drop_drop, List.drop_left' (by rw [List.length_drop])]
        rfl
      rw [hd, addForward_cross le e hc, if_neg (List.cons_ne_nil r rs)]
      have e' := drop_succ le e
      by_cases hm : 0 < m
      · rw [if_pos hm]
        apply ih (Nat.le_succ_of_le le) e' (Nat.zero_le _)
        · simp only [List.length_append, List.length_drop, List.flatten_cons] at hn ⊢
          omega
        · simp only [List.length_cons] at hf
          omega
      · rw [if_neg hm, show m = 0 from by omega]
        exact ⟨_, rfl, Reads.node (Nat.le_succ_of_le le) e' (.inr rfl)⟩

end Positions

end WebServer.Net
