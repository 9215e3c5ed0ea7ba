import WebServer.Net.StrictRun

/-!
# The number of entries given to writev

`LinkedBuffer::readToFD` gives `writev` one entry for each node from the reader on, and Linux answers `EINVAL` to more
than `IOV_MAX` entries. Nothing bounds the number of nodes: every append that does not fit into the last node adds one,
and only writes free them. But a node that is added behind another makes the stored reader invalid, and
`numReadableNodes` uses it: with two nodes the number of entries is already undefined. So a write whose behaviour is
defined has one entry, and the limit is kept exactly by the runs all of whose writes are defined.
-/

namespace WebServer.Net

def IOV_MAX : Nat := 1024

def EINVAL : Errno := .other 22

namespace LinkedBuffer

variable {lb lb' : LinkedBuffer}

/-- An append adds one node, or none. -/
lemma append_nodes_length {buf : Bytes} :
    (lb.append buf).buffer_.nodes.length
      = lb.buffer_.nodes.length + if lb.addsNode buf then 1 else 0 := by
  unfold append addsNode
  cases e : lb.buffer_.nodes.getLast? with
  | none => simp [addNewNode]
  | some last_node =>
    have ne : lb.buffer_.nodes ≠ [] := by
      intro en
      rw [en] at e
      cases e
    have pos := List.length_pos_iff.2 ne
    by_cases fits : last_node.length + buf.length < kMinNodeSize
    · have full : ¬kMinNodeSize ≤ last_node.length + buf.length := Nat.not_le.2 fits
      simp only [if_pos fits, decide_eq_true_eq, if_neg full, List.length_append, List.length_dropLast,
        List.length_singleton]
      omega
    · have full : kMinNodeSize ≤ last_node.length + buf.length := Nat.not_lt.1 fits
      simp only [if_neg fits, decide_eq_true_eq, if_pos full]
      simp [addNewNode]

/-- There is one entry for each node. -/
lemma Seated.numReadableNodes_eq (st : lb.Seated) : lb.numReadableNodes = some lb.buffer_.nodes.length := by
  rw [numReadableNodes, st.front, Option.map_some, NodeContainer.end_, usub_of_le (Nat.le_add_right _ _),
    Nat.add_sub_cancel_left]

/-- `read` leaves the nodes from the reader on. -/
lemma read_suffix {n : Nat} {ok : Bool} (e : lb.read n = some (ok, lb')) :
    lb'.buffer_.nodes <:+ lb.buffer_.nodes := by
  obtain ⟨size, _, e⟩ := Option.bind_eq_some_iff.1 e
  split at e
  · cases e
    exact List.suffix_rfl
  · obtain ⟨iter, _, e⟩ := Option.bind_eq_some_iff.1 e
    obtain ⟨lb1, e1, e⟩ := Option.bind_eq_some_iff.1 e
    obtain ⟨k, _, e1⟩ := Option.bind_eq_some_iff.1 e1
    obtain ⟨d, ed, e1⟩ := Option.bind_eq_some_iff.1 e1
    cases e1
    cases e
    exact popLoop_sublist ed

/-- A write returns what the kernel answers, and frees nodes at most. -/
lemma readToFD_result {w : WriteResult} {call : WriteCall} (e : lb.readToFD w = some (call, lb')) :
    call.ret = sysw.write call.offered w ∧ lb'.buffer_.nodes <:+ lb.buffer_.nodes := by
  obtain ⟨node_d, _, e⟩ := Option.bind_eq_some_iff.1 e
  obtain ⟨vec, _, e⟩ := Option.bind_eq_some_iff.1 e
  split at e
  · dsimp only at e
    split at e
    · cases e
      exact ⟨rfl, List.suffix_rfl⟩
    · obtain ⟨⟨ok, lb1⟩, e1, e⟩ := Option.bind_eq_some_iff.1 e
      cases e
      exact ⟨rfl, read_suffix e1⟩
  · cases e


/-- The number of entries a call gives to `writev`, and the answer to it. -/
def Call.writes (lb : LinkedBuffer) : Call → List (Nat × WriteResult)
  | .readToFD w => (lb.numReadableNodes.map (·, w)).toList
  | _ => []

/-- The same for a sequence of calls. -/
def writes (lb : LinkedBuffer) : List Call → List (Nat × WriteResult)
  | [] => []
  | call :: calls => call.writes lb ++ (call.exec lb).elim [] fun lb' => writes lb' calls

/-- The writes of one more call come after those before it. -/
lemma writes_concat {calls : List Call} {call : Call} (run : calls.foldlM Call.exec lb = some lb') :
    lb.writes (calls ++ [call]) = lb.writes calls ++ call.writes lb' := by
  induction calls generalizing lb with
  | nil =>
    cases run
    rw [List.nil_append, writes, writes, List.nil_append]
    cases call.exec lb' with
    | none => exact List.append_nil _
    | some lb'' => exact List.append_nil _
  | cons c calls ih =>
    rw [List.foldlM_cons] at run
    obtain ⟨lb1, e1, run⟩ := Option.bind_eq_some_iff.1 run
    rw [List.cons_append, writes, writes, e1, List.append_assoc]
    exact congrArg (_ ++ ·) (ih run)

/-- An append that does not add a node behind another leaves one node at most. -/
lemma append_single {buf : Bytes} (single : lb.buffer_.nodes.length ≤ 1) (pushes : lb.pushes buf = false) :
    (lb.append buf).buffer_.nodes.length ≤ 1 := by
  rw [append_nodes_length]
  unfold LinkedBuffer.pushes at pushes
  by_cases en : lb.buffer_.nodes = []
  · rw [en, List.length_nil]
    split <;> omega
  · rw [decide_eq_true en, Bool.true_and] at pushes
    rw [pushes]
    exact single

end LinkedBuffer

namespace Recorded

open LinkedBuffer (Call)

variable {r r' : Recorded} {s : Status}

/-- The writes of a record. -/
def writes (r : Recorded) : List (Nat × WriteResult) := LinkedBuffer.new.writes r.calls

/-- The invariant of the output buffer of a connection: it has a second node only if it is outdated. -/
structure Single (x : Recorded × Status) : Prop where
  usable : x.1.buffer.Fresh ∨ x.1.buffer.Seated
  replay : x.1.calls.foldlM Call.exec LinkedBuffer.new = some x.1.buffer
  single : x.1.outdated = false → x.1.buffer.buffer_.nodes.length ≤ 1
  writes : x.1.Timely → ∀ w ∈ x.1.writes, w.1 ≤ 1

/-- An append keeps the writes single. -/
lemma Single.append (h : Single (r, s)) {bs : Bytes} (e : BufferType.append r bs = some r') : Single (r', s) := by
  cases e
  refine ⟨.inr (LinkedBuffer.append_seated h.usable bs), ?_, ?_, ?_⟩
  · show (r.calls ++ [Call.append bs]).foldlM Call.exec LinkedBuffer.new = _
    rw [List.foldlM_append, h.replay]
    rfl
  · intro fresh
    have step := @LinkedBuffer.outdatedBy_concat _ _ false _ (.append bs) h.replay rfl
    obtain ⟨before, pushes⟩ := Bool.or_eq_false_iff.1 (step.symm.trans fresh)
    exact LinkedBuffer.append_single (h.single before) pushes
  · intro timely
    have same := @LinkedBuffer.writes_concat _ _ _ (.append bs) h.replay
    show ∀ w ∈ LinkedBuffer.new.writes (r.calls ++ [.append bs]), w.1 ≤ 1
    rw [same]
    exact (List.append_nil _).symm ▸ h.writes timely.of_append

/-- A write keeps the writes single. -/
lemma Single.readToFD (h : Single (r, s)) {w : WriteResult} {call : WriteCall}
    (e : BufferType.readToFD r w = some (call, r')) (s' : Status) : Single (r', s') := by
  obtain ⟨⟨call', lb⟩, er, e⟩ := Option.map_eq_some_iff.1 e
  cases e
  have exec : (Call.readToFD w).exec r.buffer = some lb := congrArg (Option.map Prod.snd) er
  have seated : r.buffer.Seated := by
    rcases h.usable with fr | st
    · rw [fr.readToFD_none] at er
      cases er
    · exact st
  have before := @LinkedBuffer.timely_concat _ _ false _ (.readToFD w) h.replay
  refine ⟨.inr (seated.readToFD_seated er), ?_, ?_, ?_⟩
  · show (r.calls ++ [Call.readToFD w]).foldlM Call.exec LinkedBuffer.new = _
    rw [List.foldlM_append, h.replay]
    exact (congrArg (Option.bind · _) exec).trans rfl
  · intro fresh
    have step := @LinkedBuffer.outdatedBy_concat _ _ false _ (.readToFD w) h.replay (by rw [exec]; rfl)
    exact (LinkedBuffer.readToFD_result er).2.length_le.trans (h.single (step.symm.trans fresh))
  · intro timely
    obtain ⟨timely, fresh⟩ := before.1 timely
    have same := @LinkedBuffer.writes_concat _ _ _ (.readToFD w) h.replay
    show ∀ x ∈ LinkedBuffer.new.writes (r.calls ++ [.readToFD w]), x.1 ≤ 1
    rw [same, LinkedBuffer.Call.writes, seated.numReadableNodes_eq]
    refine List.forall_mem_append.2 ⟨h.writes timely, ?_⟩
    exact List.forall_mem_singleton.2 (h.single (fresh rfl))

/-- What a connection does to its output keeps the writes single. -/
lemma Single.move {x y : Recorded × Status} (h : Single x) (move : TCPConnection.Move x y) : Single y := by
  cases move with
  | append e => exact h.append e
  | wrote e _ => exact h.readToFD e _
  | failed e _ => exact h.readToFD e _
  | close => exact ⟨h.usable, h.replay, h.single, h.writes⟩
  | shutdown _ => exact ⟨h.usable, h.replay, h.single, h.writes⟩

/-- No writes are single. -/
lemma Single.start : Single (BufferType.new, s) where
  usable := .inl LinkedBuffer.new_fresh
  replay := rfl
  single _ := Nat.zero_le _
  writes _ _ mem := nomatch mem

end Recorded

open TCPConnection in
/-- For every run of a connection, whatever the kernel answers: the behaviour is defined and no `writev` is given more
    than `IOV_MAX` entries if and only if no write is made after an append has added a node to a deque that was not
    empty. Each `writev` then has one entry at most, and if the kernel answers `EINVAL` only to too many entries, none
    fails with it. -/
theorem writev_within_limit {Ctx : Type} (context : Ctx) (ops : List Op) :
    ∃ r : TCPConnection Recorded Ctx, (created context).run ops = some r ∧
      ((∃ c : TCPConnection StampedBuffer Ctx, (created context).run ops = some c ∧
          ∀ w ∈ r.out_buffer_.writes, w.1 ≤ IOV_MAX) ↔ r.out_buffer_.Timely) ∧
      (r.out_buffer_.Timely → (∀ w ∈ r.out_buffer_.writes, w.1 ≤ 1) ∧
        ((∀ w ∈ r.out_buffer_.writes, w.2 = .error EINVAL → IOV_MAX < w.1) →
          ∀ w ∈ r.out_buffer_.writes, w.2 ≠ .error EINVAL)) := by
  obtain ⟨r, e, _, defined, _⟩ := run_strict context ops
  have single : Recorded.Single r.output := (run_moves e).keep (fun h move => h.move move) .start
  have one : r.out_buffer_.Timely → ∀ w ∈ r.out_buffer_.writes, w.1 ≤ 1 := single.writes
  have within : r.out_buffer_.Timely → ∀ w ∈ r.out_buffer_.writes, w.1 ≤ IOV_MAX :=
    fun timely w mem => (one timely w mem).trans (by decide)
  refine ⟨r, e, ⟨fun ⟨c, ec, _⟩ => defined.1 ⟨c, ec⟩, fun timely => ?_⟩, fun timely => ⟨one timely, ?_⟩⟩
  · obtain ⟨c, ec⟩ := defined.2 timely
    exact ⟨c, ec, within timely⟩
  · intro answered w mem einval
    exact absurd (answered w mem einval) (Nat.not_lt.2 (within timely w mem))

open TCPConnection in
/-- With 1025 responses of 1024 bytes, of which the peer has taken one byte, the number of entries given to the next
    `writev` is computed from the invalid reader. -/
theorem slow_peer_undefined : ¬∃ c : TCPConnection StampedBuffer Unit, (created ()).run (slowPeer 1024) = some c := by
  rw [run_slowPeer () (by decide)]
  exact fun ⟨_, e⟩ => nomatch e

end WebServer.Net
