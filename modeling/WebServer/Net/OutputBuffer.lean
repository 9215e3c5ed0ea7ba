import WebServer.Net.ConnectionRun

/-!
# The output buffer of a connection

What a connection does to its output buffer is a sequence of appends and of writes to the fd; after a write that
fails it is closed (`Move`, `run_moves`). This holds for every buffer type, lawful or not. So a property of the output
buffer and the status that every `Move` keeps is kept by every run (`Moves.keep`).
-/

namespace WebServer.Net

namespace TCPConnection

variable {B I Ctx : Type} [BufferType B I]

/-- What happens to the output buffer and the status of a connection. -/
inductive Move : B × Status → B × Status → Prop where
  | append {b b' s bs} :
    BufferType.append b bs = some b' →
    Move (b, s) (b', s)
  | wrote {b b' s w call} :
    BufferType.readToFD b w = some (call, b') →
    0 ≤ call.ret →
    Move (b, s) (b', s)
  | failed {b b' s w call} :
    BufferType.readToFD b w = some (call, b') →
    call.ret < 0 →
    Move (b, s) (b', .kDisconnected)
  | close {b s} :
    Move (b, s) (b, .kDisconnected)
  | shutdown {b s} :
    s ≠ .kDisconnected →
    Move (b, s) (b, .kDisconnecting)

/-- The output buffer and the status. -/
def output (c : TCPConnection B Ctx) : B × Status := (c.out_buffer_, c.status_)

/-- A sequence of moves. -/
abbrev Moves : B × Status → B × Status → Prop := Relation.ReflTransGen Move

section Moves

variable {c c' : TCPConnection B Ctx}

/-- Closing does not touch the output buffer. -/
lemma handleClose_moves : Moves c.output c.handleClose.output := by
  rw [output, output, handleClose_out, handleClose_status]
  exact .single .close

/-- `shutdown` does not touch the output buffer. -/
lemma shutdown_moves : Moves c.output c.shutdown.output := by
  rcases c.shutdown_cases with ⟨_, e⟩ | ⟨hs, _, e⟩ | ⟨hs, _, e⟩
  · rw [e]
  · rw [e]
    exact .single (.shutdown hs)
  · rw [e]
    exact .single (.shutdown hs)

/-- Appending several pieces moves the output buffer by one append after the other. -/
lemma foldlM_append_moves {b b' : B} {s : Status} {bss : List Bytes}
    (e : bss.foldlM BufferType.append b = some b') : Moves (b, s) (b', s) := by
  induction bss generalizing b with
  | nil =>
    cases e
    exact .refl
  | cons bs bss ih =>
    rw [List.foldlM_cons] at e
    obtain ⟨b1, e1, e⟩ := Option.bind_eq_some_iff.1 e
    exact .head (.append e1) (ih e)

/-- A write, with the close after a failed one. -/
lemma readToFD_moves {w : WriteResult} {n : Int} (e : c.readToFD w = some (n, c')) :
    (n < 0 → Moves c.output c'.handleError.output) ∧ (¬n < 0 → Moves c.output c'.output) := by
  obtain ⟨⟨call, out⟩, eo, e⟩ := Option.bind_eq_some_iff.1 e
  cases e
  refine ⟨fun neg => ?_, fun nneg => ?_⟩
  · rw [handleError_eq, output, output, handleClose_out, handleClose_status]
    exact .single (.failed eo neg)
  · exact .single (.wrote eo (Int.not_lt.1 nneg))

/-- `send` moves the output buffer by appends and writes. -/
lemma send_moves {cb : SendCallback} {w : WriteResult} (e : c.send cb w = some c') :
    Moves c.output c'.output := by
  obtain ⟨out, eo, e⟩ := Option.bind_eq_some_iff.1 e
  have appended : Moves c.output
      (record { c with out_buffer_ := out } (.append cb.appends.flatten)).output := foldlM_append_moves eo
  dsimp only at e
  split at e
  case isTrue =>
    obtain ⟨⟨n, c1⟩, e1, e⟩ := Option.bind_eq_some_iff.1 e
    obtain ⟨failed, wrote⟩ := readToFD_moves e1
    dsimp only at e
    split at e
    case isTrue neg =>
      cases e
      exact appended.trans (failed neg)
    case isFalse nneg =>
      obtain ⟨size, _, e⟩ := Option.bind_eq_some_iff.1 e
      split at e
      all_goals
        cases e
        exact appended.trans (wrote nneg)
  case isFalse =>
    cases e
    exact appended

/-- `handleWrite` moves the output buffer by a write. -/
lemma handleWrite_moves {w : WriteResult} (e : c.handleWrite w = some c') : Moves c.output c'.output := by
  obtain ⟨⟨n, c1⟩, e1, e⟩ := Option.bind_eq_some_iff.1 e
  obtain ⟨failed, wrote⟩ := readToFD_moves e1
  dsimp only at e
  split at e
  case isTrue neg =>
    cases e
    exact failed neg
  case isFalse nneg =>
    obtain ⟨size, _, e⟩ := Option.bind_eq_some_iff.1 e
    have drained : Moves c.output
        (updateChannelInPoller { c1 with channel_ := c1.channel_.disableWriting }).output := wrote nneg
    split at e
    · split at e
      · cases e
        exact drained.trans shutdown_moves
      · cases e
        exact drained
    · cases e
      exact wrote nneg

/-- A call of the server moves the output buffer by appends and writes. -/
lemma call_moves {x : Call} (e : c.call x = some c') : Moves c.output c'.output := by
  cases x with
  | send cb w => exact send_moves e
  | shutdown =>
    cases e
    exact shutdown_moves

/-- The calls of a callback move the output buffer by appends and writes. -/
lemma calls_moves {script : List Call} (e : script.foldlM call c = some c') : Moves c.output c'.output := by
  induction script generalizing c with
  | nil =>
    cases e
    exact .refl
  | cons x script ih =>
    rw [List.foldlM_cons] at e
    obtain ⟨c1, e1, e⟩ := Option.bind_eq_some_iff.1 e
    exact (call_moves e1).trans (ih e)

/-- `handleRead` moves the output buffer as its callback does. -/
lemma handleRead_moves {r : ReadResult} {cb : TCPConnection B Ctx → Option (TCPConnection B Ctx)}
    (moves : ∀ {c c'}, cb c = some c' → Moves c.output c'.output) (e : c.handleRead r cb = some c') :
    Moves c.output c'.output := by
  unfold handleRead at e
  split at e
  case isTrue =>
    obtain ⟨⟨n, in_buffer⟩, _, e⟩ := Option.bind_eq_some_iff.1 e
    have read : Moves c.output (record { c with in_buffer_ := in_buffer } (.read n)).output := .refl
    dsimp only at e
    split at e
    · exact read.trans (moves e)
    · split at e
      all_goals
        cases e
        exact read.trans handleClose_moves
  case isFalse =>
    cases e
    exact .refl

/-- Every event moves the output buffer by appends and writes. -/
lemma step_moves {op : Op} (e : c.step op = some c') : Moves c.output c'.output := by
  cases op with
  | call x => exact call_moves e
  | event ready r script w =>
    simp only [step] at e
    split at e
    · cases e
      exact .refl
    · obtain ⟨c2, c3, h2, h3, h4⟩ := handleEvent_cases e
      have first : Moves c.output c2.output := by
        rcases h2 with rfl | rfl
        · exact .refl
        · exact handleClose_moves
      have second : Moves c2.output c3.output := by
        rcases h3 with rfl | ⟨_, e3⟩
        · exact .refl
        · exact handleRead_moves (fun e => calls_moves e) e3
      rcases h4 with rfl | ⟨_, e4⟩
      · exact first.trans second
      · exact (first.trans second).trans (handleWrite_moves e4)

/-- Every run is a sequence of moves of the output buffer. -/
lemma run_moves {ops : List Op} (e : c.run ops = some c') : Moves c.output c'.output := by
  induction ops generalizing c with
  | nil =>
    cases e
    exact .refl
  | cons op ops ih =>
    unfold run at e
    rw [List.foldlM_cons] at e
    obtain ⟨c1, e1, e⟩ := Option.bind_eq_some_iff.1 e
    exact (step_moves e1).trans (ih e)

end Moves

/-- The invariant rule: what every move keeps is kept by a sequence of moves. -/
lemma Moves.keep {P : B × Status → Prop} {x y : B × Status} (moves : Moves x y)
    (keep : ∀ {x y}, P x → Move x y → P y) (start : P x) : P y := by
  induction moves with
  | refl => exact start
  | tail _ move ih => exact keep ih move

end TCPConnection

end WebServer.Net
