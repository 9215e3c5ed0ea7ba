import WebServer.Net.LinkedBuffer

/-!
# Positions of the linked buffer

When no node is empty, a `LinkedBufferIter` is determined by the number of bytes after it, and its
operations are arithmetic on that number: `Reads.lt_spec`, `Reads.eq_iff`, `Reads.deref_spec`,
`Reads.next_spec`, `Reads.plus_spec`, `Reads.minus_spec` and, for the sign only, `Reads.minus_neg`.
`LinkedBuffer.Packed.represents` collects them: the iterators from the reader on are the positions of
the unread bytes (`Lib.Represents`).
-/

namespace WebServer.Net

/-- No node is empty. -/
def NodeContainer.Packed (d : NodeContainer) : Prop := [] ∉ d.nodes

section Positions

variable {d : NodeContainer} {i j : LinkedBufferIter} {bs bs' : Bytes} {k k' c : Nat} {node : Bytes}
  {rest : List Bytes}

/-- The nodes of a packed container are not empty. -/
lemma node_ne_nil (packed : d.Packed) (e : d.nodes.drop (k - d.first) = node :: rest) :
    node ≠ [] := by
  intro en
  subst en
  apply packed
  apply List.mem_of_mem_drop
  rw [e]
  exact List.mem_cons_self

/-- In a packed container every offset is inside its node. -/
lemma offset_lt (packed : d.Packed) (e : d.nodes.drop (k - d.first) = node :: rest)
    (hc : c < node.length ∨ c = 0) : c < node.length := by
  rcases hc with h | h
  · exact h
  · subst h
    exact List.length_pos_iff.2 (node_ne_nil packed e)

/-- An iterator that reads is in the container or at its end. -/
lemma Reads.node_bounds (rd : Reads d i bs) (e : i.node_iter_ = some k) :
    d.first ≤ k ∧ k ≤ d.end_ := by
  cases rd with
  | node le ed _ =>
    cases e
    have := drop_length le ed
    exact ⟨le, by omega⟩
  | last =>
    cases e
    exact ⟨Nat.le_add_right _ _, Nat.le_refl _⟩

/-- An iterator that reads has a node. -/
lemma Reads.exists_node (rd : Reads d i bs) : ∃ k, i.node_iter_ = some k := by
  cases rd with
  | node => exact ⟨_, rfl⟩
  | last => exact ⟨_, rfl⟩

/-- Fewer bytes follow a position in a later node. -/
lemma Reads.length_lt (packed : d.Packed) (h1 : Reads d i bs) (h2 : Reads d j bs')
    (e1 : i.node_iter_ = some k) (e2 : j.node_iter_ = some k') (h : k < k') :
    bs'.length < bs.length := by
  cases h1 with
  | @node k node rest c le ed hc =>
    cases e1
    have hl := offset_lt packed ed hc
    have hd : 0 < (node.drop c).length := by rw [List.length_drop]; omega
    cases h2 with
    | @node k' node' rest' c' le' ed' hc' =>
      cases e2
      have hr : rest.drop (k' - k - 1) = node' :: rest' := by
        rw [← drop_succ le ed, List.drop_drop, ← ed']
        congr 1
        omega
      have hs : rest.flatten.length = (rest.take (k' - k - 1)).flatten.length +
          (node' :: rest').flatten.length := by
        rw [← hr, ← List.length_append, ← List.flatten_append, List.take_append_drop]
      simp only [List.length_append, List.length_drop, List.flatten_cons] at hs hd ⊢
      omega
    | last =>
      rw [List.length_append, List.length_nil]
      omega
  | last =>
    cases e1
    have := (h2.node_bounds e2).2
    omega

/-- Two positions in the same node. -/
lemma Reads.same_node (h1 : Reads d i bs) (h2 : Reads d j bs') (e : i.node_iter_ = j.node_iter_) :
    (∃ c c', i.char_iter_ = some c ∧ j.char_iter_ = some c' ∧
      bs.length + c = bs'.length + c') ∨
    (i.char_iter_ = none ∧ j.char_iter_ = none ∧ bs = [] ∧ bs' = []) := by
  cases h1 with
  | @node k node rest c le ed hc =>
    cases h2 with
    | @node k' node' rest' c' le' ed' hc' =>
      cases e
      rw [ed] at ed'
      cases ed'
      refine .inl ⟨c, c', rfl, rfl, ?_⟩
      have := le_of_offset hc
      have := le_of_offset hc'
      simp only [List.length_append, List.length_drop]
      omega
    | last =>
      cases e
      have := drop_length le ed
      omega
  | last =>
    cases h2 with
    | @node k' node' rest' c' le' ed' hc' =>
      cases e
      have := drop_length le' ed'
      omega
    | last => exact .inr ⟨rfl, rfl, rfl, rfl⟩

/-- `operator<` compares positions. -/
lemma Reads.lt_spec (packed : d.Packed) (h1 : Reads d i bs) (h2 : Reads d j bs') :
    i.lt j = some (decide (bs'.length < bs.length)) := by
  obtain ⟨k, e1⟩ := h1.exists_node
  obtain ⟨k', e2⟩ := h2.exists_node
  rw [LinkedBufferIter.lt]
  by_cases e : k = k'
  · subst e
    rw [if_pos (e1.trans e2.symm)]
    rcases h1.same_node h2 (e1.trans e2.symm) with ⟨c, c', ec, ec', hl⟩ | ⟨ec, ec', rfl, rfl⟩
    · rw [ec, ec', LinkedBufferIter.posLt, Option.some.injEq, decide_eq_decide]
      omega
    · rw [ec, ec']
      rfl
  · rw [if_neg (by rw [e1, e2]; exact fun h => e (Option.some.inj h)), e1, e2,
      LinkedBufferIter.posLt, Option.some.injEq, decide_eq_decide]
    constructor
    · intro h
      exact h1.length_lt packed h2 e1 e2 h
    · intro h
      by_contra hn
      have := h2.length_lt packed h1 e2 e1 (by omega)
      omega

/-- Positions with equally many bytes after them are the same. -/
lemma Reads.eq_iff (packed : d.Packed) (h1 : Reads d i bs) (h2 : Reads d j bs') :
    i = j ↔ bs.length = bs'.length := by
  obtain ⟨k, e1⟩ := h1.exists_node
  obtain ⟨k', e2⟩ := h2.exists_node
  constructor
  · intro e
    subst e
    rcases h1.same_node h2 rfl with ⟨c, c', ec, ec', hl⟩ | ⟨_, _, rfl, rfl⟩
    · rw [ec] at ec'
      cases ec'
      omega
    · rfl
  · intro h
    have ek : k = k' := by
      by_contra hn
      rcases Nat.lt_or_gt_of_ne hn with hlt | hgt
      · have := h1.length_lt packed h2 e1 e2 hlt
        omega
      · have := h2.length_lt packed h1 e2 e1 hgt
        omega
    subst ek
    obtain ⟨ni, ci⟩ := i
    obtain ⟨nj, cj⟩ := j
    simp only at e1 e2
    subst e1 e2
    rcases h1.same_node h2 rfl with ⟨c, c', ec, ec', hl⟩ | ⟨ec, ec', _, _⟩
    · simp only at ec ec'
      rw [ec, ec', show c = c' from by omega]
    · simp only at ec ec'
      rw [ec, ec']

/-- `operator*` is the first byte after the position. -/
lemma Reads.deref_spec (packed : d.Packed) (rd : Reads d i bs) : i.deref d = bs.head? := by
  cases rd with
  | node le e hc =>
    have hl := offset_lt packed e hc
    simp only [LinkedBufferIter.deref, node?_of_drop le e, Option.bind_eq_bind, Option.bind_some]
    rw [List.head?_append_of_ne_nil _ (List.ne_nil_of_length_pos (by rw [List.length_drop]; omega)),
      List.head?_drop]
  | last =>
    simp [LinkedBufferIter.deref, NodeContainer.node?, NodeContainer.end_]

/-- `operator++` drops the first byte. -/
lemma Reads.next_spec (packed : d.Packed) (rd : Reads d i bs) (ne : bs ≠ []) :
    ∃ j, i.next d = some j ∧ Reads d j bs.tail := by
  cases rd with
  | @node k node rest c le e hc =>
    have hl := offset_lt packed e hc
    simp only [LinkedBufferIter.next, node?_of_drop le e, Option.bind_eq_bind, Option.bind_some,
      if_pos hl]
    rw [List.drop_eq_getElem_cons hl, List.cons_append, List.tail_cons]
    by_cases h : c + 1 = node.length
    · rw [if_pos h, toFirstCharOfNextNode_eq le e, List.drop_of_length_le (by omega)]
      exact ⟨_, rfl, Reads.toFirstCharOfNextNode le e⟩
    · rw [if_neg h]
      exact ⟨_, rfl, Reads.node le e (.inl (by omega))⟩
  | last => exact absurd rfl ne

/-- `operator+` with a non-negative argument. -/
lemma Reads.plus_spec {n : Nat} (rd : Reads d i bs) (hn : n ≤ bs.length) (pos : 0 < n) :
    ∃ j, i.plus d n = some j ∧ Reads d j (bs.drop n) := by
  cases rd with
  | node le e hc =>
    rw [LinkedBufferIter.plus, if_pos (Int.natCast_nonneg n)]
    apply addForward_spec le e (le_of_offset hc) hn
    have := congrArg List.length e
    simp only [List.length_drop, List.length_cons] at this
    omega
  | last =>
    simp only [List.length_nil] at hn
    omega

/-- The walk of `operator-` over whole nodes adds up the bytes it passes. -/
lemma Reads.walk_toEnd {n fuel : Nat} (diff : Int) (rd : Reads d i bs)
    (e1 : i.node_iter_ = some k) (le : k + n ≤ d.end_) (hf : n < fuel) :
    ∃ it bs1, LinkedBufferIter.walk d (some (k + n))
        (LinkedBufferIter.charDistanceToEndOfNode d) fuel i diff
        = some (it, diff + ((bs.length : Int) - bs1.length)) ∧
      Reads d it bs1 ∧ it.node_iter_ = some (k + n) := by
  induction n generalizing i bs k fuel diff with
  | zero =>
    obtain ⟨fuel, rfl⟩ := Nat.exists_eq_succ_of_ne_zero (Nat.ne_of_gt hf)
    refine ⟨i, bs, ?_, rd, e1⟩
    rw [Nat.add_zero, LinkedBufferIter.walk, if_pos e1, Int.sub_self, Int.add_zero]
  | succ n ih =>
    obtain ⟨fuel, rfl⟩ := Nat.exists_eq_succ_of_ne_zero (Nat.ne_of_gt (Nat.zero_lt_of_lt hf))
    cases rd with
    | @node k node rest c hk e hc =>
      cases e1
      have hl := le_of_offset hc
      obtain ⟨it, bs1, ew, rd1, en⟩ := ih (diff + ((node.length : Int) - c))
        (Reads.toFirstCharOfNextNode hk e) rfl (by omega) (show n < fuel from by omega)
      rw [Nat.add_right_comm] at ew en
      refine ⟨it, bs1, ?_, rd1, en⟩
      rw [LinkedBufferIter.walk, if_neg (by simp)]
      simp only [charDistanceToEndOfNode_eq hk e, toFirstCharOfNextNode_eq hk e,
        Option.bind_eq_bind, Option.bind_some]
      rw [show k + (n + 1) = k + n + 1 from rfl, ew]
      simp only [List.length_append, List.length_drop, Option.some.injEq, Prod.mk.injEq, true_and]
      omega
    | last =>
      cases e1
      omega

/-- `operator-` is the difference of the positions when the first one is not before the second. -/
lemma Reads.minus_spec (packed : d.Packed) (h1 : Reads d i bs) (h2 : Reads d j bs')
    (le : bs.length ≤ bs'.length) :
    LinkedBufferIter.minus d i j = some ((bs'.length : Int) - bs.length) := by
  obtain ⟨k, e1⟩ := h1.exists_node
  obtain ⟨k', e2⟩ := h2.exists_node
  have hk : k' ≤ k := by
    by_contra hn
    have := h1.length_lt packed h2 e1 e2 (by omega)
    omega
  obtain ⟨n, rfl⟩ := Nat.exists_eq_add_of_le hk
  have b1 := h1.node_bounds e1
  have b2 := h2.node_bounds e2
  obtain ⟨it, bs1, ew, rd1, en⟩ := h2.walk_toEnd 0 e2 b1.2
    (show n < d.nodes.length + 1 from by simp only [NodeContainer.end_] at b1; omega)
  simp only [LinkedBufferIter.minus, h1.lt_spec packed h2, Option.bind_eq_bind, Option.bind_some,
    decide_eq_true_eq]
  rw [if_neg (by omega), e1, ew]
  simp only [Option.bind_some]
  rcases rd1.same_node h1 (en.trans e1.symm) with ⟨c, c', ec, ec', hl⟩ | ⟨ec, ec', rfl, rfl⟩
  · rw [ec, ec', LinkedBufferIter.charDistance, Option.bind_some, Option.some.injEq]
    omega
  · rw [ec, ec', LinkedBufferIter.charDistance, Option.bind_some, Option.some.injEq]
    omega

/-- The other walk of `operator-` subtracts the offset and, for each node, one. -/
lemma Reads.walk_toStart {n fuel : Nat} (diff : Int) (rd : Reads d i bs)
    (e1 : i.node_iter_ = some k) (le : k + n ≤ d.end_) (hf : n < fuel) :
    ∃ it bs1 z, LinkedBufferIter.walk d (some (k + n))
        (fun it => (it.charDistanceToStartOfNode d).map (- ·)) fuel i diff = some (it, z) ∧
      Reads d it bs1 ∧ it.node_iter_ = some (k + n) ∧
      (n = 0 → it = i ∧ z = diff) ∧
      (n ≠ 0 → (it.char_iter_ = some 0 ∨ it.char_iter_ = none) ∧ z + (i.char_iter_.getD 0 + n : Nat) = diff) := by
  induction n generalizing i bs k fuel diff with
  | zero =>
    obtain ⟨fuel, rfl⟩ := Nat.exists_eq_succ_of_ne_zero (Nat.ne_of_gt hf)
    refine ⟨i, bs, diff, ?_, rd, e1, fun _ => ⟨rfl, rfl⟩, fun h => absurd rfl h⟩
    rw [Nat.add_zero, LinkedBufferIter.walk, if_pos e1]
  | succ n ih =>
    obtain ⟨fuel, rfl⟩ := Nat.exists_eq_succ_of_ne_zero (Nat.ne_of_gt (Nat.zero_lt_of_lt hf))
    cases rd with
    | @node k node rest c hk e hc =>
      cases e1
      obtain ⟨it, bs1, z, ew, rd1, en, h0, hn⟩ := ih (diff + -((c : Int) + 1))
        (Reads.toFirstCharOfNextNode hk e) rfl (by omega) (show n < fuel from by omega)
      rw [Nat.add_right_comm] at ew en
      refine ⟨it, bs1, z, ?_, rd1, en, fun h => absurd h (by omega), ?_⟩
      · rw [LinkedBufferIter.walk, if_neg (by simp)]
        simp only [LinkedBufferIter.charDistanceToStartOfNode, node?_of_drop hk e,
          toFirstCharOfNextNode_eq hk e, Option.bind_eq_bind, Option.bind_some, Option.map_some]
        exact ew
      · intro _
        have start : (if rest = [] then none else some 0 : Option Nat).getD 0 = 0 := by
          split <;> rfl
        by_cases h : n = 0
        · obtain ⟨rfl, hz⟩ := h0 h
          refine ⟨?_, ?_⟩
          · by_cases hr : rest = []
            · exact .inr (if_pos hr)
            · exact .inl (if_neg hr)
          · rw [Option.getD_some]
            omega
        · obtain ⟨at0, hz⟩ := hn h
          rw [start] at hz
          refine ⟨at0, ?_⟩
          rw [Option.getD_some]
          omega
    | last =>
      cases e1
      omega

/-- `operator-` of two positions in the same node. -/
lemma Reads.minus_within (packed : d.Packed) (h1 : Reads d i bs) (h2 : Reads d j bs')
    (e : i.node_iter_ = j.node_iter_) :
    LinkedBufferIter.minus d i j = some ((bs'.length : Int) - bs.length) := by
  simp only [LinkedBufferIter.minus, h1.lt_spec packed h2, Option.bind_eq_bind, Option.bind_some,
    LinkedBufferIter.walk, if_pos e, if_pos e.symm]
  rcases h1.same_node h2 e with ⟨c, c', ec, ec', hl⟩ | ⟨ec, ec', rfl, rfl⟩
  · rw [ec, ec', LinkedBufferIter.charDistance, LinkedBufferIter.charDistance]
    split <;> simp only [Option.bind_some, Option.some.injEq] <;> omega
  · rw [ec, ec']
    rfl

/-- `operator-` of a position in an earlier node than the other: the distances are not those of the bytes
    in between. -/
lemma Reads.minus_before {n : Nat} (packed : d.Packed) (h1 : Reads d i bs) (h2 : Reads d j bs')
    (e1 : i.node_iter_ = some k) (e2 : j.node_iter_ = some (k + n)) (pos : n ≠ 0) :
    LinkedBufferIter.minus d i j = some (-((i.char_iter_.getD 0 + n + j.char_iter_.getD 0 : Nat) : Int)) := by
  have lt := h1.length_lt packed h2 e1 e2 (by omega)
  have b2 := h2.node_bounds e2
  obtain ⟨it, bs1, z, ew, rd1, en, _, hn⟩ := h1.walk_toStart 0 e1 b2.2
    (show n < d.nodes.length + 1 from by
      have b1 := h1.node_bounds e1
      simp only [NodeContainer.end_] at b2
      omega)
  obtain ⟨start, hz⟩ := hn pos
  simp only [LinkedBufferIter.minus, h1.lt_spec packed h2, Option.bind_eq_bind, Option.bind_some,
    decide_eq_true_eq]
  rw [if_pos lt, e2, ew]
  simp only [Option.bind_some]
  -- the walk ends at the start of the node of `j`
  rcases rd1.same_node h2 (en.trans e2.symm) with ⟨c, c', ec, ec', _⟩ | ⟨ec, ec', _, _⟩
  · rw [ec] at start
    rcases start with h' | h'
    · cases h'
      rw [ec, ec', LinkedBufferIter.charDistance, Option.bind_some, Option.some.injEq, Option.getD_some]
      omega
    · cases h'
  · rw [ec, ec', LinkedBufferIter.charDistance, Option.bind_some, Option.some.injEq, Option.getD_none]
    omega

/-- `operator-` is negative when the first position is before the second. -/
lemma Reads.minus_neg (packed : d.Packed) (h1 : Reads d i bs) (h2 : Reads d j bs')
    (lt : bs'.length < bs.length) : ∃ z, LinkedBufferIter.minus d i j = some z ∧ z < 0 := by
  obtain ⟨k, e1⟩ := h1.exists_node
  obtain ⟨k', e2⟩ := h2.exists_node
  have hk : k ≤ k' := by
    by_contra hn
    have := h2.length_lt packed h1 e2 e1 (by omega)
    omega
  obtain ⟨n, rfl⟩ := Nat.exists_eq_add_of_le hk
  by_cases h : n = 0
  · subst h
    exact ⟨_, h1.minus_within packed h2 (e1.trans e2.symm), by omega⟩
  · exact ⟨_, h1.minus_before packed h2 e1 e2 h, by omega⟩

end Positions

namespace LinkedBuffer

instance : Lib.RandomAccess LinkedBuffer LinkedBufferIter UInt8 where
  deref lb it := it.deref lb.buffer_
  next lb it := it.next lb.buffer_
  prev lb it := it.prev lb.buffer_
  plus lb it n := it.plus lb.buffer_ n
  minus lb it jt := it.minus lb.buffer_ jt
  same _ it jt := it == jt
  extent lb := lb.buffer_.nodes.flatten.length + 1

/-- A seated buffer without empty nodes. -/
structure Packed (lb : LinkedBuffer) : Prop where
  seated : lb.Seated
  packed : lb.buffer_.Packed

/-- The iterator `it` is at position `p` of the unread bytes. -/
def At (lb : LinkedBuffer) (it : LinkedBufferIter) (p : Nat) : Prop :=
  p ≤ lb.unread.length ∧ Reads lb.buffer_ it (lb.unread.drop p)

/-- There are no more unread bytes than bytes in the nodes. -/
lemma Seated.unread_length_le {lb : LinkedBuffer} (st : lb.Seated) :
    lb.unread.length ≤ lb.buffer_.nodes.flatten.length := by
  rcases st.cases with ⟨_, _, eu⟩ | ⟨node, rest, c, en, hc, er, eu⟩
  · rw [eu]
    exact Nat.zero_le _
  · rw [eu, en]
    simp only [List.length_append, List.length_drop, List.flatten_cons]
    omega

/-- The iterators from the reader on are the positions of the unread bytes. -/
lemma Packed.represents {lb : LinkedBuffer} (pk : lb.Packed) :
    Lib.Represents lb lb.unread lb.At where
  bound h := h.1
  same {i j p q} h1 h2 := by
    have h := h1.2.eq_iff pk.packed h2.2
    have hp := h1.1
    have hq := h2.1
    simp only [List.length_drop] at h
    show (i == j) = true ↔ p = q
    rw [beq_iff_eq, h]
    omega
  deref {i p} h1 hp := by
    show i.deref lb.buffer_ = _
    rw [h1.2.deref_spec pk.packed, List.head?_drop, List.getElem?_eq_getElem hp]
  next {i p} h1 hp := by
    have ne : lb.unread.drop p ≠ [] := List.ne_nil_of_length_pos (by rw [List.length_drop]; omega)
    obtain ⟨j, e, rd⟩ := h1.2.next_spec pk.packed ne
    refine ⟨j, e, hp, ?_⟩
    rwa [List.tail_drop] at rd
  plus {i p n} h1 hn pos := by
    obtain ⟨j, e, rd⟩ := h1.2.plus_spec (n := n) (by rw [List.length_drop]; omega) pos
    refine ⟨j, e, hn, ?_⟩
    rwa [List.drop_drop] at rd
  minus {i j p q} h1 h2 le := by
    have hp := h1.1
    show LinkedBufferIter.minus lb.buffer_ i j = _
    rw [h1.2.minus_spec pk.packed h2.2 (by simp only [List.length_drop]; omega)]
    simp only [List.length_drop, Option.some.injEq]
    omega
  minus_neg {i j p q} h1 h2 lt := by
    have hq := h2.1
    exact h1.2.minus_neg pk.packed h2.2 (by simp only [List.length_drop]; omega)
  extent := Nat.lt_succ_of_le pk.seated.unread_length_le

/-- The reader is at the first unread byte. -/
lemma Packed.at_reader {lb : LinkedBuffer} (pk : lb.Packed) : lb.At lb.readerIter 0 :=
  ⟨Nat.zero_le _, pk.seated.reads⟩

/-- `end` is behind the last unread byte. -/
lemma at_end {lb : LinkedBuffer} : lb.At lb.end_ lb.unread.length := by
  refine ⟨Nat.le_refl _, ?_⟩
  rw [List.drop_length]
  exact Reads.last

/-- A new node that is not empty keeps the container packed. -/
lemma addNewNode_packed {lb : LinkedBuffer} (pk : lb.buffer_.Packed) {buf : Bytes} (ne : buf ≠ []) :
    (lb.addNewNode buf).buffer_.Packed := by
  intro h
  simp only [addNewNode, List.mem_append, List.mem_singleton] at h
  rcases h with h | h
  · exact pk h
  · exact ne h.symm

/-- Appending some bytes keeps the container packed. -/
lemma append_packed {lb : LinkedBuffer} (pk : lb.buffer_.Packed) {buf : Bytes} (ne : buf ≠ []) :
    (lb.append buf).buffer_.Packed := by
  simp only [append]
  split
  · exact addNewNode_packed pk ne
  · split
    · intro h
      simp only [List.mem_append, List.mem_singleton] at h
      rcases h with h | h
      · exact pk (List.dropLast_subset _ h)
      · exact ne (List.append_eq_nil_iff.1 h.symm).2
    · exact addNewNode_packed pk ne

/-- `LinkedBuffer::append` of at least one byte keeps the nodes non-empty. -/
lemma append_spec_packed {lb : LinkedBuffer} (h : lb.Fresh ∨ lb.Packed) {buf : Bytes}
    (ne : buf ≠ []) :
    (lb.append buf).Packed ∧ (lb.append buf).unread = lb.unread ++ buf := by
  rcases h with fr | pk
  · obtain ⟨st, un⟩ := fr.append_spec buf
    refine ⟨⟨st, append_packed ?_ ne⟩, un⟩
    simp [NodeContainer.Packed, fr.nodes]
  · obtain ⟨st, un⟩ := pk.seated.append_spec buf
    exact ⟨⟨st, append_packed pk.packed ne⟩, un⟩

/-- What dropping nodes leaves is the end of the container. -/
lemma popLoop_sublist {k first : Nat} {nodes : List Bytes} {d} (e : popLoop k first nodes = some d) :
    d.nodes <:+ nodes := by
  induction nodes generalizing first with
  | nil =>
    simp only [popLoop] at e
    split at e
    · cases e; exact List.suffix_rfl
    · cases e
  | cons node nodes ih =>
    simp only [popLoop] at e
    split at e
    · cases e; exact List.suffix_rfl
    · exact (ih e).trans (List.suffix_cons _ _)

/-- `LinkedBuffer::readUntil` at a position from the reader on. -/
lemma Packed.readUntil_spec {lb : LinkedBuffer} (pk : lb.Packed) {iter p} (h : lb.At iter p) :
    ∃ lb', lb.readUntil iter = some (true, lb') ∧ lb'.Packed ∧ lb'.unread = lb.unread.drop p := by
  have lt : iter.lt lb.readerIter = some false := by
    rw [h.2.lt_spec pk.packed pk.at_reader.2, Option.some.injEq, decide_eq_false_iff_not]
    simp only [List.length_drop]
    omega
  obtain ⟨lb', e, st, un⟩ := LinkedBuffer.readUntil_spec h.2 lt
  refine ⟨lb', e, ⟨st, ?_⟩, un⟩
  simp only [readUntil, lt, Option.bind_eq_bind, Option.bind_some, Bool.false_eq_true, if_false,
    freeNodesBefore, Option.bind_eq_some_iff] at e
  obtain ⟨lb1, ⟨k, _, d, ed, e1⟩, e2⟩ := e
  cases e1
  cases e2
  intro hm
  exact pk.packed ((popLoop_sublist ed).subset hm)

end LinkedBuffer

end WebServer.Net
