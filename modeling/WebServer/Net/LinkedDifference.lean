import WebServer.Net.LinkedAdvance

/-!
# Comparing and subtracting iterators of the linked buffer

The comparisons of two `LinkedBufferIter` are those of their positions. Their difference is that of the
positions when the first iterator is not before the second. When it is in an earlier node, the loop of
`operator-` adds up `charDistanceToStartOfNode` over the nodes in between, which is the offset of the iterator
and one for each node, where the bytes up to the end of each node would be right. `skew` is by how much the
result is off, and `Reads.minus_eq` says so.
-/

namespace WebServer.Net

namespace LinkedBufferIter

/-- `operator==` of node iterators and of char iterators. -/
def posEq : Option Nat → Option Nat → Option Bool
  | some a, some b => some (a = b)
  | none, none => some true
  | _, _ => none

/-- `LinkedBufferIter::operator==` -/
def eq (a b : LinkedBufferIter) : Option Bool := do
  if ← posEq a.node_iter_ b.node_iter_ then posEq a.char_iter_ b.char_iter_ else some false

/-- `LinkedBufferIter::operator>` -/
def gt (a b : LinkedBufferIter) : Option Bool :=
  if a.node_iter_ = b.node_iter_ then
    posLt b.char_iter_ a.char_iter_
  else
    posLt b.node_iter_ a.node_iter_

/-- For an iterator `a` in an earlier node than `b`: the number of bytes in the nodes from that of `a` to the
    one before that of `b`, less twice the offset of `a` and less the number of these nodes. -/
def skew (d : NodeContainer) (a b : LinkedBufferIter) : Int :=
  match a.node_iter_, b.node_iter_ with
  | some k, some k' =>
    if k < k' then
      ((d.nodes.drop (k - d.first)).take (k' - k)).flatten.length - (2 * a.char_iter_.getD 0 + (k' - k : Nat))
    else
      0
  | _, _ => 0

end LinkedBufferIter

section Positions

variable {d : NodeContainer} {i j : LinkedBufferIter} {bs bs' : Bytes} {k k' n : Nat}

/-- The bytes from the start of the node on. -/
lemma Reads.length_add (rd : Reads d i bs) (e : i.node_iter_ = some k) :
    bs.length + i.char_iter_.getD 0 = (d.nodes.drop (k - d.first)).flatten.length := by
  cases rd with
  | @node k node rest c le ed hc =>
    cases e
    have := le_of_offset hc
    rw [ed, List.flatten_cons, List.length_append, List.length_append, List.length_drop, Option.getD_some]
    omega
  | last =>
    cases e
    rw [NodeContainer.end_, Nat.add_sub_cancel_left, List.drop_length]
    rfl

/-- The bytes of the nodes between two positions. -/
lemma Reads.length_between (h1 : Reads d i bs) (h2 : Reads d j bs') (e1 : i.node_iter_ = some k)
    (e2 : j.node_iter_ = some (k + n)) :
    bs.length + i.char_iter_.getD 0 =
      ((d.nodes.drop (k - d.first)).take n).flatten.length + (bs'.length + j.char_iter_.getD 0) := by
  have le := (h1.node_bounds e1).1
  rw [h1.length_add e1, h2.length_add e2, show k + n - d.first = k - d.first + n from by omega, ← List.drop_drop,
    ← List.length_append, ← List.flatten_append, List.take_append_drop]

/-- What `operator-` gives. -/
lemma Reads.minus_eq (packed : d.Packed) (h1 : Reads d i bs) (h2 : Reads d j bs') :
    LinkedBufferIter.minus d i j = some ((bs'.length : Int) - bs.length + i.skew d j) := by
  obtain ⟨k, e1⟩ := h1.exists_node
  obtain ⟨k', e2⟩ := h2.exists_node
  simp only [LinkedBufferIter.skew, e1, e2]
  split
  case isTrue lt =>
    obtain ⟨n, rfl⟩ := Nat.exists_eq_add_of_le lt.le
    have len := h1.length_between h2 e1 e2
    rw [h1.minus_before packed h2 e1 e2 (by omega), Option.some.injEq, Nat.add_sub_cancel_left]
    omega
  case isFalse ge =>
    rw [Int.add_zero]
    by_cases same : k = k'
    · subst same
      exact h1.minus_within packed h2 (e1.trans e2.symm)
    · have lt := h2.length_lt packed h1 e2 e1 (by omega)
      exact h1.minus_spec packed h2 lt.le

/-- `operator==` compares positions. -/
lemma Reads.eq_spec (packed : d.Packed) (h1 : Reads d i bs) (h2 : Reads d j bs') :
    i.eq j = some (decide (bs.length = bs'.length)) := by
  obtain ⟨k, e1⟩ := h1.exists_node
  obtain ⟨k', e2⟩ := h2.exists_node
  rw [LinkedBufferIter.eq, e1, e2, LinkedBufferIter.posEq, Option.bind_eq_bind, Option.bind_some]
  by_cases e : k = k'
  · subst e
    rw [decide_eq_true rfl, if_pos rfl]
    rcases h1.same_node h2 (e1.trans e2.symm) with ⟨c, c', ec, ec', hl⟩ | ⟨ec, ec', rfl, rfl⟩
    · rw [ec, ec', LinkedBufferIter.posEq, Option.some.injEq, decide_eq_decide]
      omega
    · rw [ec, ec']
      rfl
  · rw [decide_eq_false e, if_neg Bool.false_ne_true, Option.some.injEq, eq_comm, decide_eq_false_iff_not]
    rcases Nat.lt_or_gt_of_ne e with lt | gt
    · have := h1.length_lt packed h2 e1 e2 lt
      omega
    · have := h2.length_lt packed h1 e2 e1 gt
      omega

/-- `operator>` is `operator<` with the arguments exchanged. -/
lemma LinkedBufferIter.gt_eq (a b : LinkedBufferIter) : a.gt b = b.lt a := by
  rw [gt, lt]
  by_cases e : a.node_iter_ = b.node_iter_
  · rw [if_pos e, if_pos e.symm]
  · rw [if_neg e, if_neg fun h => e h.symm]

end Positions

/-- `a - b` is the difference of the positions, and the comparisons are those of the positions. -/
structure PositionLike (d : NodeContainer) (a b : LinkedBufferIter) (p q : Int) : Prop where
  minus : a.minus d b = some (p - q)
  lt : a.lt b = some (decide (p < q))
  eq : a.eq b = some (decide (p = q))
  gt : a.gt b = some (decide (p > q))

section Difference

variable {d : NodeContainer} {a b : LinkedBufferIter} {p q : Int}

/-- The difference of two iterators is that of their positions, and the skew. -/
lemma AtByte.minus_eq (packed : d.Packed) (ha : AtByte d a p) (hb : AtByte d b q) :
    a.minus d b = some (p - q + a.skew d b) := by
  obtain ⟨bs, rd, e⟩ := ha
  obtain ⟨bs', rd', e'⟩ := hb
  rw [rd.minus_eq packed rd', Option.some.injEq]
  omega

/-- Two iterators behave like their positions exactly when their skew is zero. -/
lemma AtByte.positionLike_iff (packed : d.Packed) (ha : AtByte d a p) (hb : AtByte d b q) :
    PositionLike d a b p q ↔ a.skew d b = 0 := by
  have em := ha.minus_eq packed hb
  constructor
  · intro h
    have := Option.some.inj (em.symm.trans h.minus)
    omega
  · intro h
    rw [h, Int.add_zero] at em
    obtain ⟨bs, rd, e⟩ := ha
    obtain ⟨bs', rd', e'⟩ := hb
    refine ⟨em, ?_, ?_, ?_⟩
    · rw [rd.lt_spec packed rd', Option.some.injEq, decide_eq_decide]
      omega
    · rw [rd.eq_spec packed rd', Option.some.injEq, decide_eq_decide]
      omega
    · rw [LinkedBufferIter.gt_eq, rd'.lt_spec packed rd, Option.some.injEq, decide_eq_decide]
      omega

/-- Only one of two iterators is in an earlier node than the other. -/
lemma LinkedBufferIter.skew_or (a b : LinkedBufferIter) : a.skew d b = 0 ∨ b.skew d a = 0 := by
  unfold skew
  cases a.node_iter_ with
  | none => exact .inl rfl
  | some k =>
    cases b.node_iter_ with
    | none => exact .inl rfl
    | some k' =>
      by_cases lt : k < k'
      · exact .inr (if_neg (Nat.not_lt.2 lt.le))
      · exact .inl (if_neg lt)

end Difference

/-- For every linked buffer without empty nodes and iterators at the positions `p`, `q` and `r`: difference and
    comparisons of two are those of the positions if and only if the skew is zero; `a - b` is `-(b - a)` if and only
    if it is zero both ways; and `a - c` is `(a - b) + (b - c)` if and only if the skews add up. -/
theorem linkedBufferIter_difference (d : NodeContainer) (packed : d.Packed) (a b c : LinkedBufferIter)
    (p q r : Int) (ha : AtByte d a p) (hb : AtByte d b q) (hc : AtByte d c r) :
    (PositionLike d a b p q ↔ a.skew d b = 0) ∧
    ((∃ z, a.minus d b = some z ∧ b.minus d a = some (-z)) ↔ a.skew d b = 0 ∧ b.skew d a = 0) ∧
    ((∃ x y, a.minus d b = some x ∧ b.minus d c = some y ∧ a.minus d c = some (x + y)) ↔
      a.skew d c = a.skew d b + b.skew d c) := by
  refine ⟨ha.positionLike_iff packed hb, ?_, ?_⟩
  · rw [ha.minus_eq packed hb, hb.minus_eq packed ha]
    have one := LinkedBufferIter.skew_or (d := d) a b
    constructor
    · rintro ⟨z, ez, ez'⟩
      rw [Option.some.injEq] at ez ez'
      omega
    · rintro ⟨e, e'⟩
      exact ⟨_, rfl, by rw [e, e', Option.some.injEq]; omega⟩
  · rw [ha.minus_eq packed hb, hb.minus_eq packed hc, ha.minus_eq packed hc]
    constructor
    · rintro ⟨x, y, ex, ey, exy⟩
      rw [Option.some.injEq] at ex ey exy
      omega
    · intro e
      exact ⟨_, _, rfl, rfl, by rw [e, Option.some.injEq]; omega⟩

/-- From the end of two nodes back over both. -/
theorem linkedBufferIter_difference_two_nodes :
    PositionLike ⟨0, [bytes "ab", bytes "cd"]⟩ ⟨some 2, none⟩ ⟨some 1, some 0⟩ 4 2 ∧
    ∃ x y, LinkedBufferIter.minus ⟨0, [bytes "ab", bytes "cd"]⟩ ⟨some 2, none⟩ ⟨some 1, some 0⟩ = some x ∧
      LinkedBufferIter.minus ⟨0, [bytes "ab", bytes "cd"]⟩ ⟨some 1, some 0⟩ ⟨some 0, some 1⟩ = some y ∧
      LinkedBufferIter.minus ⟨0, [bytes "ab", bytes "cd"]⟩ ⟨some 2, none⟩ ⟨some 0, some 1⟩ = some (x + y) := by
  have packed : NodeContainer.Packed ⟨0, [bytes "ab", bytes "cd"]⟩ := by
    unfold NodeContainer.Packed
    decide
  have ha : AtByte ⟨0, [bytes "ab", bytes "cd"]⟩ ⟨some 2, none⟩ 4 := ⟨_, .last, by decide⟩
  have hb : AtByte ⟨0, [bytes "ab", bytes "cd"]⟩ ⟨some 1, some 0⟩ 2 :=
    ⟨_, .node (Nat.zero_le 1) rfl (.inr rfl), by decide⟩
  have hc : AtByte ⟨0, [bytes "ab", bytes "cd"]⟩ ⟨some 0, some 1⟩ 1 :=
    ⟨_, .node (Nat.le_refl 0) rfl (.inl (by decide)), by decide⟩
  have h := linkedBufferIter_difference _ packed _ _ _ 4 2 1 ha hb hc
  exact ⟨h.1.2 rfl, h.2.2.2 rfl⟩

/-- A byte and then 1023 more are two nodes, and `begin() - end()` is `-2`. -/
theorem linkedBufferIter_difference_off :
    ∃ d, d = ((LinkedBuffer.new.append (bytes "a")).append (List.replicate 1023 (char 'x'))).buffer_ ∧
      d.Packed ∧ AtByte d ⟨some d.begin_, some 0⟩ 0 ∧ AtByte d ⟨some d.end_, none⟩ 1024 ∧
      LinkedBufferIter.minus d ⟨some d.begin_, some 0⟩ ⟨some d.end_, none⟩ = some (-2) ∧
      LinkedBufferIter.minus d ⟨some d.end_, none⟩ ⟨some d.begin_, some 0⟩ = some 1024 := by
  have one : (bytes "a").length = 1 := by decide
  have many : (List.replicate 1023 (char 'x')).length = 1023 := List.length_replicate
  generalize List.replicate 1023 (char 'x') = xs at many
  have nodes : ((LinkedBuffer.new.append (bytes "a")).append xs).buffer_ = ⟨0, [bytes "a", xs]⟩ := by
    simp [LinkedBuffer.append, LinkedBuffer.addNewNode, LinkedBuffer.new, LinkedBuffer.kMinNodeSize, one, many]
  have packed : NodeContainer.Packed ⟨0, [bytes "a", xs]⟩ := by
    have ne : bytes "a" ≠ [] := by decide
    have ne' : xs ≠ [] := List.ne_nil_of_length_eq_add_one many
    simp [NodeContainer.Packed, ne.symm, ne'.symm]
  have len : List.length [bytes "a", xs].flatten = 1024 := by
    rw [List.flatten_cons, List.flatten_cons, List.flatten_nil, List.append_nil, List.length_append, one, many]
  have h1 : Reads ⟨0, [bytes "a", xs]⟩ ⟨some 0, some 0⟩ ([bytes "a", xs].flatten) :=
    .node (Nat.le_refl 0) rfl (.inr rfl)
  have h2 : Reads ⟨0, [bytes "a", xs]⟩ ⟨some 2, none⟩ [] := .last
  have e1 : AtByte ⟨0, [bytes "a", xs]⟩ ⟨some 0, some 0⟩ 0 := ⟨_, h1, Int.zero_add _⟩
  have e2 : AtByte ⟨0, [bytes "a", xs]⟩ ⟨some 2, none⟩ 1024 := by
    refine ⟨_, h2, ?_⟩
    rw [len]
    rfl
  refine ⟨_, rfl, ?_⟩
  rw [nodes]
  exact ⟨packed, e1, e2, h1.minus_before packed h2 rfl (n := 2) rfl (by decide), e2.minus_eq packed e1⟩

end WebServer.Net
