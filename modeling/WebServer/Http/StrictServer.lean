import WebServer.Http.ServerSpec
import WebServer.Http.StrictParser
import WebServer.Net.StrictRun

/-!
# The server over the linked buffer by the rules of its deque

`connectionOnRead` over `StampedBuffer` does what it does over `Recorded` (`Attends`) as long as the parser looks at a
valid reader of `in_buffer_` and the writes of `out_buffer_` are timely (`Prompt`); where it does not, its behaviour is
undefined. `connectionOnRead` leaves a parser that has not finished, so the parser looks at `in_buffer_` in every read
event, and a reader that has been outdated stays so (`connectionOnRead_outdated`).
-/

namespace WebServer.Http

open Net Lib LawfulBuffer TCPConnection

/-! ## The parser -/

section Parser

variable {B I : Type} [BufferType B I] {ctx ctx' : HTTPContext} {b b' : B} {ok : Bool}

/-- What `readUntil` keeps is kept by the parser. -/
lemma parseLoop_keep {P : B → Prop} (keep : ∀ {b it ok b'}, BufferType.readUntil b it = some (ok, b') → P b → P b')
    {fuel : Nat} (e : ctx.parseLoop fuel b = some (ok, ctx', b')) (h : P b) : P b' := by
  induction fuel generalizing ctx b with
  | zero => cases e
  | succ fuel ih =>
    rw [HTTPContext.parseLoop] at e
    split at e
    · obtain ⟨crlf, _, e⟩ := Option.bind_eq_some_iff.1 e
      split at e
      · obtain ⟨⟨ok1, ctx1⟩, _, e⟩ := Option.bind_eq_some_iff.1 e
        cases ok1 with
        | false =>
          cases e
          exact h
        | true =>
          obtain ⟨it, _, e⟩ := Option.bind_eq_some_iff.1 e
          obtain ⟨⟨read, b1⟩, er, e⟩ := Option.bind_eq_some_iff.1 e
          exact ih e (keep er h)
      · cases e
        exact h
    · cases e
      exact h

end Parser

/-- The checked buffer beside the recorded one. -/
lemma shadows_recorded : Shadows fun (s : StampedBuffer) (r : Recorded) => Backs s r ∧ r.outdated = false where
  access h := h.1.sameAccess h.2
  reader h := congrArg LinkedBuffer.readerIter h.1.erase
  end_ h := congrArg LinkedBuffer.end_ h.1.erase
  readUntil h _ hi e := h.1.readUntil h.2 hi.2 e

/-! ## `connectionOnRead` -/

section OnRead

variable {hash : HTTPRequest → Nat} {heap : ConnId → HTTPRequest} {self : ConnId} {w : WriteResult}
  {s : TCPConnection StampedBuffer Upper} {c c' : TCPConnection Recorded Upper}

/-- A handled request leaves a parser that has not finished. -/
lemma respond_unfinished {ok : Bool} {up up' : Upper} {response : Option HTTPResponse}
    (e : respond hash heap self ok up = some (up', response)) : up'.context.state_ ≠ .kGotAll := by
  unfold respond at e
  split at e
  case isTrue =>
    have reset : up.context.resetState.state_ ≠ .kGotAll := by
      intro h
      cases h
    dsimp only at e
    split at e
    · obtain ⟨⟨srv, resp⟩, _, e⟩ := Option.bind_eq_some_iff.1 e
      cases e
      exact reset
    · cases e
      exact reset
  case isFalse unfinished =>
    have going : up.context.state_ ≠ .kGotAll := fun h => unfinished (decide_eq_true h)
    split at e
    all_goals
      cases e
      exact going

/-- Sending a response moves the output buffer as the operations of a connection may. -/
lemma sendResponse_moves {resp : HTTPResponse} (e : sendResponse c resp w = some c') : Moves c.output c'.output := by
  obtain ⟨cb, _, e⟩ := Option.bind_eq_some_iff.1 e
  obtain ⟨c1, e1, e⟩ := Option.bind_eq_some_iff.1 e
  split at e
  · cases e
    exact (send_moves e1).trans shutdown_moves
  · cases e
    exact send_moves e1

/-- A response sent over the checked buffer does the same, or uses an outdated reader. -/
lemma sendResponse_follows (t : Tracks s c) (sound : c.Sound) {resp : HTTPResponse}
    (e : sendResponse c resp w = some c') : Follows (sendResponse s resp w) c' := by
  obtain ⟨cb, ecb, e⟩ := Option.bind_eq_some_iff.1 e
  obtain ⟨c1, e1, e⟩ := Option.bind_eq_some_iff.1 e
  obtain ⟨c1', e1', follows⟩ := t.send sound cb w
  cases e1.symm.trans e1'
  rw [sendResponse, ecb, Option.bind_eq_bind, Option.bind_some]
  split at e
  case isTrue close =>
    cases e
    exact follows.bind shutdown_moves fun _ t1 => .inl ⟨_, if_pos close, t1.shutdown⟩
  case isFalse keep =>
    cases e
    exact follows.bind .refl fun _ t1 => .inl ⟨_, if_neg keep, t1⟩

/-- The parser has looked at a valid reader only, and the writes are timely. -/
def Prompt (c : TCPConnection Recorded Upper) : Prop := c.in_buffer_.outdated = false ∧ c.out_buffer_.Timely

/-- Over the checked buffer the behaviour is the same, or it is undefined and the record is not prompt. -/
def Attends (x : Option (TCPConnection StampedBuffer Upper)) (c : TCPConnection Recorded Upper) : Prop :=
  (∃ s, x = some s ∧ Tracks s c ∧ c.in_buffer_.outdated = false) ∨ (x = none ∧ ¬Prompt c)

/-- From a valid reader, a read over the checked buffer attends to the one over the recorded buffer. -/
lemma connectionOnRead_attends (t : Tracks s c) (sound : c.Sound) (input : Parsable c.in_buffer_)
    (fresh : c.in_buffer_.outdated = false) (e : connectionOnRead hash heap self w c = some c') :
    Attends (connectionOnRead hash heap self w s) c' := by
  obtain ⟨bi, bo⟩ := t
  rename_i i o
  obtain ⟨⟨ok, ctx, b⟩, ep, e⟩ := Option.bind_eq_some_iff.1 e
  obtain ⟨⟨up, response⟩, er, e⟩ := Option.bind_eq_some_iff.1 e
  obtain ⟨i', ep', bi', fresh'⟩ := shadows_recorded.parseRequest ⟨bi, fresh⟩ input ep
  obtain ⟨_, _, _, ep2, input', _⟩ := parseRequest_spec c.context_.context input
  cases ep.symm.trans ep2
  rw [connectionOnRead, withBuffers_context, withBuffers_in, ep']
  simp only [Option.bind_eq_bind, Option.bind_some, er]
  have t1 : Tracks ((parsed c b up).withBuffers i' o) (parsed c b up) := .mk bi' bo
  cases response with
  | none =>
    cases e
    exact .inl ⟨_, rfl, t1, fresh'⟩
  | some resp =>
    have sound1 := parsed_sound sound input' up
    obtain ⟨_, _, in', _⟩ := sendResponse_spec sound1 e
    rcases sendResponse_follows t1 sound1 e with ⟨s', es, t'⟩ | ⟨es, late⟩
    · exact .inl ⟨s', es, t', by rw [in']; exact fresh'⟩
    · exact .inr ⟨es, fun prompt => late prompt.2⟩

/-- A read moves the output buffer as the operations of a connection may. -/
lemma connectionOnRead_moves (e : connectionOnRead hash heap self w c = some c') : Moves c.output c'.output := by
  obtain ⟨⟨ok, ctx, b⟩, ep, e⟩ := Option.bind_eq_some_iff.1 e
  obtain ⟨⟨up, response⟩, er, e⟩ := Option.bind_eq_some_iff.1 e
  cases response with
  | none =>
    cases e
    exact .refl
  | some resp =>
    have sent : Moves (parsed c b up).output c'.output := sendResponse_moves e
    exact sent

/-- `connectionOnRead` leaves a parser that has not finished. -/
lemma connectionOnRead_unfinished (sound : c.Sound) (input : Parsable c.in_buffer_)
    (e : connectionOnRead hash heap self w c = some c') : c'.context_.context.state_ ≠ .kGotAll := by
  obtain ⟨_, _, ok, ctx, rest, response, _, er, _⟩ := connectionOnRead_spec sound input e
  exact respond_unfinished er

/-- A reader that has been outdated stays so. -/
lemma connectionOnRead_outdated (sound : c.Sound) (input : Parsable c.in_buffer_)
    (e : connectionOnRead hash heap self w c = some c') (late : c.in_buffer_.outdated = true) :
    c'.in_buffer_.outdated = true := by
  obtain ⟨⟨ok, ctx, b⟩, ep, e⟩ := Option.bind_eq_some_iff.1 e
  obtain ⟨⟨up, response⟩, er, e⟩ := Option.bind_eq_some_iff.1 e
  have late' : b.outdated = true := parseLoop_keep (P := fun r => r.outdated = true) Recorded.readUntil_outdated ep late
  cases response with
  | none =>
    cases e
    exact late'
  | some resp =>
    obtain ⟨_, _, _, ep2, input', _⟩ := parseRequest_spec c.context_.context input
    cases ep.symm.trans ep2
    obtain ⟨_, _, in', _⟩ := sendResponse_spec (parsed_sound sound input' up) e
    rw [in']
    exact late'

/-- Without a valid reader `connectionOnRead` is undefined, unless the parser has finished. -/
lemma connectionOnRead_stale (inv : s.in_buffer_.Inv true) (unfinished : s.context_.context.state_ ≠ .kGotAll) :
    connectionOnRead hash heap self w s = none := by
  rw [connectionOnRead, parseRequest_stale inv unfinished]
  rfl

end OnRead

end WebServer.Http
