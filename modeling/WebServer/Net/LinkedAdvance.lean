import WebServer.Net.LinkedRange

/-!
# Moving an iterator of the linked buffer

The operators that move a `LinkedBufferIter`, as moves of a position in the bytes of all nodes
(`Jump.target`). Forward jumps and single steps do what they should. A backward jump never does: in the
branch of `operator+=` for a negative `n` the distance to the start of the node is compared with `n`
itself, which it always exceeds, and the iterator is advanced by `-n`. From `end()`, which has no node,
also `+= 0` and `--` are undefined. `Jump.Sound` is the exact condition.
-/

namespace WebServer.Net

/-- `LinkedBufferIter::operator-=` and `operator-` of a number. -/
def LinkedBufferIter.minusEq (d : NodeContainer) (it : LinkedBufferIter) (n : Int) :
    Option LinkedBufferIter :=
  it.plus d (-n)

/-- `n` times `step`. -/
def times (step : LinkedBufferIter → Option LinkedBufferIter) :
    Nat → LinkedBufferIter → Option LinkedBufferIter
  | 0, it => some it
  | n + 1, it => do times step n (← step it)

/-- The iterator is at position `p` of the bytes of all nodes. -/
def AtByte (d : NodeContainer) (it : LinkedBufferIter) (p : Int) : Prop :=
  ∃ bs, Reads d it bs ∧ p + bs.length = d.nodes.flatten.length

/-- The ways to move an iterator. -/
inductive Jump where
  /-- `it += n` and `it + n` -/
  | plus (n : Int)
  /-- `it -= n` and `it - n` -/
  | minus (n : Int)
  /-- `++ it`, `n` times -/
  | incr (n : Nat)
  /-- `-- it`, `n` times -/
  | decr (n : Nat)

namespace Jump

def run (d : NodeContainer) (it : LinkedBufferIter) : Jump → Option LinkedBufferIter
  | plus n => it.plus d n
  | minus n => it.minusEq d n
  | incr n => times (LinkedBufferIter.next d) n it
  | decr n => times (LinkedBufferIter.prev d) n it

/-- Where the jump should end. -/
def target (p : Int) : Jump → Int
  | plus n => p + n
  | minus n => p - n
  | incr n => p + n
  | decr n => p - n

/-- A jump goes forwards or, from a position before `end()` (which is at `L`), stays; steps back do not
    start at `end()`. -/
def Sound (p L : Int) : Jump → Prop
  | plus n => 0 < n ∨ n = 0 ∧ p < L
  | minus n => n < 0 ∨ n = 0 ∧ p < L
  | incr _ => True
  | decr n => n = 0 ∨ p < L

end Jump

section Positions

variable {d : NodeContainer} {it it' : LinkedBufferIter} {p p' n : Int}

/-- An iterator before the end designates a node and an offset in it. -/
lemma AtByte.cases (h : AtByte d it p) :
    (∃ k node rest c, it = ⟨some k, some c⟩ ∧ d.first ≤ k ∧
      d.nodes.drop (k - d.first) = node :: rest ∧ (c < node.length ∨ c = 0) ∧
      p + ((node.drop c ++ rest.flatten).length : Nat) = d.nodes.flatten.length) ∨
    (it = ⟨some d.end_, none⟩ ∧ p = d.nodes.flatten.length) := by
  obtain ⟨bs, rd, e⟩ := h
  cases rd with
  | @node k node rest c le ed hc => exact .inl ⟨k, node, rest, c, rfl, le, ed, hc, e⟩
  | last => exact .inr ⟨rfl, by simpa using e⟩

/-- `operator+=` forwards. -/
lemma AtByte.plus_pos (h : AtByte d it p) (pos : 0 < n) (le : p + n ≤ d.nodes.flatten.length) :
    ∃ j, it.plus d n = some j ∧ AtByte d j (p + n) := by
  obtain ⟨bs, rd, e⟩ := h
  obtain ⟨m, rfl⟩ := Int.eq_ofNat_of_zero_le pos.le
  obtain ⟨j, ej, rd'⟩ := rd.plus_spec (n := m) (by omega) (by omega)
  refine ⟨j, ej, _, rd', ?_⟩
  rw [List.length_drop]
  omega

/-- `operator+= 0` needs a node. -/
lemma AtByte.plus_zero (packed : d.Packed) (h : AtByte d it p) :
    (∃ j, it.plus d 0 = some j ∧ AtByte d j p) ↔ p < d.nodes.flatten.length := by
  rcases h.cases with ⟨k, node, rest, c, rfl, le, e, hc, ep⟩ | ⟨rfl, ep⟩
  · have hl := offset_lt packed e hc
    refine iff_of_true ?_ ?_
    · have stay := @addForward_stay d k c node rest d.nodes.length 0 le e hl
      exact ⟨_, stay, h⟩
    · rw [List.length_append, List.length_drop] at ep
      omega
  · refine iff_of_false ?_ (by omega)
    rintro ⟨j, ej, _⟩
    simp [LinkedBufferIter.plus, LinkedBufferIter.addForward,
      LinkedBufferIter.charDistanceToEndOfNode] at ej

/-- `operator+=` backwards goes forwards inside the node, if anywhere. -/
lemma AtByte.plus_neg (h : AtByte d it p) (neg : n < 0) :
    ¬∃ j, it.plus d n = some j ∧ AtByte d j (p + n) := by
  rintro ⟨j, ej, bs', rd', e'⟩
  rw [LinkedBufferIter.plus, if_neg (by omega), LinkedBufferIter.addBackward] at ej
  rcases h.cases with ⟨k, node, rest, c, rfl, le, e, hc, ep⟩ | ⟨rfl, _⟩
  · simp only [LinkedBufferIter.charDistanceToStartOfNode, node?_of_drop le e, Option.bind_eq_bind,
      Option.bind_some] at ej
    -- the distance is positive, so it exceeds `n` in the first round
    rw [if_pos (by omega)] at ej
    simp only [LinkedBufferIter.advanceChar, node?_of_drop le e, Option.bind_eq_bind,
      Option.bind_some] at ej
    split at ej
    · cases ej
      rcases (Reads.node le e hc).same_node rd' rfl with ⟨c1, c2, e1, e2, hl⟩ | ⟨e1, _⟩
      · cases e1
        cases e2
        omega
      · cases e1
    · cases ej
  · simp [LinkedBufferIter.charDistanceToStartOfNode] at ej

/-- Adding `n` arrives `n` bytes further, but for nothing added at the end. -/
lemma AtByte.plus_iff (packed : d.Packed) (h : AtByte d it p)
    (le : p + n ≤ d.nodes.flatten.length) :
    (∃ j, it.plus d n = some j ∧ AtByte d j (p + n)) ↔
      0 < n ∨ n = 0 ∧ p < d.nodes.flatten.length := by
  rcases Int.lt_trichotomy n 0 with neg | rfl | pos
  · exact iff_of_false (h.plus_neg neg) (by omega)
  · rw [Int.add_zero, h.plus_zero packed]
    omega
  · exact iff_of_true (h.plus_pos pos le) (.inl pos)

/-- `operator++` -/
lemma AtByte.next (packed : d.Packed) (h : AtByte d it p) (lt : p < d.nodes.flatten.length) :
    ∃ j, it.next d = some j ∧ AtByte d j (p + 1) := by
  obtain ⟨bs, rd, e⟩ := h
  have pos : 0 < bs.length := by omega
  obtain ⟨j, ej, rd'⟩ := rd.next_spec packed (List.length_pos_iff.1 pos)
  refine ⟨j, ej, _, rd', ?_⟩
  rw [List.length_tail]
  omega

/-- `operator--` is defined after the first byte, but not at the end. -/
lemma AtByte.prev (packed : d.Packed) (h : AtByte d it p) (pos : 0 < p)
    (lt : p < d.nodes.flatten.length) : ∃ j, it.prev d = some j ∧ AtByte d j (p - 1) := by
  rcases h.cases with ⟨k, node, rest, c, rfl, le, e, hc, ep⟩ | ⟨rfl, ep⟩
  · simp only [LinkedBufferIter.prev, node?_of_drop le e, Option.bind_eq_bind, Option.bind_some]
    cases c with
    | succ c =>
      have hl := offset_lt packed e hc
      refine ⟨_, if_pos (Nat.succ_ne_zero c), _, Reads.node le e (.inl (Nat.lt_of_succ_lt hl)), ?_⟩
      simp only [List.length_append, List.length_drop] at ep ⊢
      omega
    | zero =>
      -- there is a node before this one, since bytes come before it
      have before : d.first < k := by
        refine Nat.lt_of_le_of_ne le fun eq => ?_
        rw [← eq, Nat.sub_self, List.drop_zero] at e
        rw [e, List.drop_zero, List.flatten_cons] at ep
        omega
      have inside := drop_length le e
      have bound : k - 1 - d.first < d.nodes.length := by
        rw [NodeContainer.end_] at inside
        omega
      have e' := List.drop_eq_getElem_cons bound
      rw [show k - 1 - d.first + 1 = k - d.first from by omega, e] at e'
      generalize d.nodes[k - 1 - d.first] = last at e'
      have le' : d.first ≤ k - 1 := by omega
      have ne := node_ne_nil packed e'
      have len := List.length_pos_iff.2 ne
      have hl : last.length - 1 < last.length := by omega
      refine ⟨_, ?_, _, Reads.node le' e' (.inl hl), ?_⟩
      · rw [if_neg (not_not.2 rfl)]
        have gt : ¬k ≤ d.begin_ := Nat.not_le.2 before
        simp only [LinkedBufferIter.toLastCharOfPrevNode, Option.bind_eq_bind, Option.bind_some]
        rw [if_neg gt, node?_of_drop le' e', Option.bind_some, if_neg ne]
      · simp only [List.length_append, List.length_drop, List.flatten_cons] at ep ⊢
        omega
  · omega

/-- Steps forward. -/
lemma AtByte.times_next (packed : d.Packed) {m : Nat} (h : AtByte d it p)
    (le : p + m ≤ d.nodes.flatten.length) :
    ∃ j, times (LinkedBufferIter.next d) m it = some j ∧ AtByte d j (p + m) := by
  induction m generalizing it p with
  | zero => exact ⟨it, rfl, by simpa using h⟩
  | succ m ih =>
    obtain ⟨j, ej, hj⟩ := h.next packed (by omega)
    obtain ⟨j', ej', hj'⟩ := ih hj (by omega)
    refine ⟨j', ?_, ?_⟩
    · rw [times, ej]
      exact ej'
    · rwa [show p + 1 + m = p + (m + 1 : Nat) from by omega] at hj'

/-- Steps back from a position before the end. -/
lemma AtByte.times_prev (packed : d.Packed) {m : Nat} (h : AtByte d it p)
    (lt : p < d.nodes.flatten.length) (ge : 0 ≤ p - m) :
    ∃ j, times (LinkedBufferIter.prev d) m it = some j ∧ AtByte d j (p - m) := by
  induction m generalizing it p with
  | zero => exact ⟨it, rfl, by simpa using h⟩
  | succ m ih =>
    obtain ⟨j, ej, hj⟩ := h.prev packed (by omega) lt
    obtain ⟨j', ej', hj'⟩ := ih hj (by omega) (by omega)
    refine ⟨j', ?_, ?_⟩
    · rw [times, ej]
      exact ej'
    · rwa [show p - 1 - m = p - (m + 1 : Nat) from by omega] at hj'

/-- Going back `m` times arrives `m` bytes before, but for going from the end. -/
lemma AtByte.times_prev_iff (packed : d.Packed) {m : Nat} (h : AtByte d it p) (ge : 0 ≤ p - m) :
    (∃ j, times (LinkedBufferIter.prev d) m it = some j ∧ AtByte d j (p - m)) ↔
      m = 0 ∨ p < d.nodes.flatten.length := by
  rcases h.cases with ⟨k, node, rest, c, rfl, le, e, hc, ep⟩ | ⟨rfl, ep⟩
  · have hl := offset_lt packed e hc
    have lt : p < d.nodes.flatten.length := by
      rw [List.length_append, List.length_drop] at ep
      omega
    exact iff_of_true (h.times_prev packed lt ge) (.inr lt)
  · cases m with
    | zero => exact iff_of_true ⟨_, rfl, by simpa using h⟩ (.inl rfl)
    | succ m =>
      -- there is no node to look at
      refine iff_of_false ?_ (by omega)
      rintro ⟨j, ej, _⟩
      simp [times, LinkedBufferIter.prev] at ej

end Positions

/-- Every jump of an iterator at a position `p` of a linked buffer without empty nodes, to a position
    inside the buffer, ends there if and only if it is sound. -/
theorem linkedBufferIter_advance (d : NodeContainer) (packed : d.Packed) (it : LinkedBufferIter) (p : Int)
    (h : AtByte d it p) (jump : Jump) (ge : 0 ≤ jump.target p)
    (le : jump.target p ≤ d.nodes.flatten.length) :
    (∃ j, jump.run d it = some j ∧ AtByte d j (jump.target p)) ↔
      jump.Sound p d.nodes.flatten.length := by
  cases jump with
  | plus n => exact h.plus_iff packed le
  | minus n =>
    show (∃ j, it.plus d (-n) = some j ∧ AtByte d j (p - n)) ↔ n < 0 ∨ n = 0 ∧ _
    rw [Int.sub_eq_add_neg, h.plus_iff packed le]
    omega
  | incr n => exact iff_of_true (h.times_next packed le) trivial
  | decr n => exact h.times_prev_iff packed ge

/-- From the first node of two over its end into the second. -/
theorem linkedBufferIter_advance_two_nodes :
    ∃ j, (Jump.plus 3).run ⟨0, [bytes "ab", bytes "cd"]⟩ ⟨some 0, some 0⟩ = some j ∧
      AtByte ⟨0, [bytes "ab", bytes "cd"]⟩ j 3 := by
  have packed : NodeContainer.Packed ⟨0, [bytes "ab", bytes "cd"]⟩ := by
    unfold NodeContainer.Packed
    decide
  have start : AtByte ⟨0, [bytes "ab", bytes "cd"]⟩ ⟨some 0, some 0⟩ 0 :=
    ⟨_, .node (Nat.le_refl 0) rfl (.inr rfl), by decide⟩
  exact (linkedBufferIter_advance _ packed _ 0 start (.plus 3) (by decide) (by decide)).2
    (.inl (by decide))

/-- Going back by one from the second of two bytes does not lead to the first. -/
theorem linkedBufferIter_backward :
    AtByte ⟨0, [bytes "ab"]⟩ ⟨some 0, some 1⟩ 1 ∧
    ¬∃ j, (Jump.plus (-1)).run ⟨0, [bytes "ab"]⟩ ⟨some 0, some 1⟩ = some j ∧
      AtByte ⟨0, [bytes "ab"]⟩ j 0 := by
  have at1 : AtByte ⟨0, [bytes "ab"]⟩ ⟨some 0, some 1⟩ 1 :=
    ⟨_, .node (Nat.le_refl 0) rfl (.inl (by decide)), by decide⟩
  exact ⟨at1, at1.plus_neg (by decide)⟩

end WebServer.Net
