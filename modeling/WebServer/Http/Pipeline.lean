import WebServer.Http.KeepAlive
import WebServer.Http.StrictServer

/-!
# Responses to a stream of requests

The responses of `connectionOnRead` to well-formed requests for registered paths, with the response cache
off (its default). A read event appends a chunk to the input buffer and calls `connectionOnRead` once;
this parses at most one request, and what follows it in the buffer is looked at in the next event only.
`pipeline_responses` says which responses are appended, and that these are all of them exactly if
the events keep pace with the requests. Over the linked buffer it says so by the rules of its deque, under
which a node added to a buffer that has nodes invalidates the reader.
-/

namespace WebServer.Http

open Net Lib LawfulBuffer TCPConnection

/-- The byte strings appended to the output buffer, one for each `send`. -/
def responses (log : List Action) : List Bytes :=
  log.filterMap fun
    | .append bs => some bs
    | _ => none

/-- The bytes of the response to a request: what the callback of its path produces. -/
def responseText (srv : HTTPServer) (req : HTTPRequest) : Option Bytes := do
  let cb ← srv.responseCallbacks_ req.path_
  let send ← (HTTPServer.closes req (cb.run req .new)).appendToBuffer
  some send.appends.flatten

section Events

variable {B I : Type} [BufferType B I] (hash : HTTPRequest → Nat) (heap : ConnId → HTTPRequest)
  (self : ConnId)

/-- A read event: a chunk is appended to `in_buffer_` and `connectionOnRead` is called; `w` is what the
    kernel answers to its write. -/
structure ReadEvent where
  chunk : Bytes
  w : WriteResult

def readEvent (conn : TCPConnection B Upper) (e : ReadEvent) : Option (TCPConnection B Upper) := do
  let in_buffer ← BufferType.append conn.in_buffer_ e.chunk
  connectionOnRead hash heap self e.w { conn with in_buffer_ := in_buffer }

/-- A new connection of the server, after these read events. -/
def serve (srv : HTTPServer) (es : List ReadEvent) : Option (TCPConnection B Upper) :=
  es.foldlM (readEvent hash heap self) (created ⟨.new, srv⟩)

end Events

section Spec

variable {B I : Type} [BufferType B I] [LawfulBuffer B I] {hash : HTTPRequest → Nat}
  {heap : ConnId → HTTPRequest} {self : ConnId} {srv : HTTPServer}

/-- Deciding to close leaves the headers listed. -/
lemma closes_listed {req : HTTPRequest} {resp : HTTPResponse} (h : resp.Listed) :
    (HTTPServer.closes req resp).Listed := by
  unfold HTTPServer.closes
  split
  · exact h
  · exact h

/-- The response to a finished request for a registered path. -/
lemma respond_registered {req : HTTPRequest} {cb : ResponseCallback}
    (off : srv.kUseRespCache = false) (reg : srv.responseCallbacks_ req.path_ = some cb) (ok : Bool) :
    respond hash heap self ok ⟨⟨.kGotAll, req⟩, srv⟩
      = some (⟨⟨.kExpectRequestLine, req⟩, srv⟩,
        some (HTTPServer.closes req (cb.run req .new))) := by
  have fin : HTTPContext.parseFinished ⟨.kGotAll, req⟩ = true := rfl
  simp only [respond, if_pos fin, HTTPContext.resetState, reg, HTTPServer.handleRequest, off,
    Function.update_self]
  rfl

/-- One more append to the output is one more response. -/
lemma responses_sent {log l : List Action} {bs : Bytes} (na : ∀ bs, .append bs ∉ l) :
    responses (log ++ .append bs :: l) = responses log ++ [bs] := by
  have nil : responses l = [] := by
    refine List.filterMap_eq_nil_iff.2 fun a ha => ?_
    cases a with
    | append bs => exact absurd ha (na bs)
    | _ => rfl
  unfold responses at nil ⊢
  simp [nil]

/-- The invariant of a served connection. -/
def Served (srv : HTTPServer) (base : HTTPRequest) (got : Bytes) (conn : TCPConnection B Upper) : Prop :=
  conn.Sound ∧ conn.context_.server = srv ∧
    Underway base got conn.context_.context (unread conn.in_buffer_)

/-- A read event answers the first request if it completes it. -/
lemma readEvent_answers (off : srv.kUseRespCache = false) :
    Answers (readEvent (B := B) hash heap self) ReadEvent.chunk
      (fun conn => (responses conn.log).map some) (responseText srv) (Served srv)
      fun m => (srv.responseCallbacks_ m.path).isSome := by
  rintro base m ms got conn ⟨chunk, w⟩ ⟨h, hsrv, u⟩ ne fol reg
  simp only at ne fol ⊢
  obtain ⟨b1, e1, p1, u1⟩ := append_parsable h.input ne
  have h1 : ({ conn with in_buffer_ := b1 } : TCPConnection B Upper).Sound :=
    parsed_sound h p1 conn.context_
  obtain ⟨ok, ctx, b, pb, p, ec⟩ := @connectionOnRead_cases B I _ _ hash heap self
    { conn with in_buffer_ := b1 } w p1
  have e : readEvent hash heap self conn ⟨chunk, w⟩
      = connectionOnRead hash heap self w { conn with in_buffer_ := b1 } := by
    simp only [readEvent, e1, Option.bind_eq_bind, Option.bind_some]
  rw [e, ec]
  simp only [u1, hsrv] at p ⊢
  rcases Nat.lt_or_ge (got ++ chunk).length m.encode.length with lt | ge
  · -- the first request is still incomplete
    obtain ⟨rfl, u'⟩ := u.go_on fol lt p
    rw [respond_wait rfl u'.unfinished]
    exact ⟨_, rfl, .inr ⟨lt, rfl, parsed_sound h1 pb _, rfl, u'⟩⟩
  · -- it is complete, and the bytes after it stay in the buffer
    obtain ⟨rfl, rfl, eg, _⟩ := u.finish fol ge p
    obtain ⟨cb, hcb⟩ := Option.isSome_iff_exists.1 reg
    rw [respond_registered off (show srv.responseCallbacks_ (m.onto base).path_ = some cb from hcb)]
    simp only [Option.bind_some]
    have h2 := parsed_sound h1 pb ⟨⟨.kExpectRequestLine, m.onto base⟩, srv⟩
    obtain ⟨conn', e'⟩ := @sendResponse_listed B I _ _ _
      (HTTPServer.closes (m.onto base) (cb.run (m.onto base) .new)) w h2
      (closes_listed (cb.listed _))
    obtain ⟨h', _, in', ctx', send, l, es, logs, _, na⟩ := sendResponse_spec h2 e'
    refine ⟨conn', e', .inl ⟨ge, ?_, _, eg, h', by rw [ctx']; rfl, ?_⟩⟩
    · have text : responseText srv (m.onto base) = some send.appends.flatten := by
        simp only [responseText, show srv.responseCallbacks_ (m.onto base).path_ = some cb from hcb,
          Option.bind_eq_bind, Option.bind_some, es]
      have sent : responses conn'.log = responses conn.log ++ [send.appends.flatten] := by
        rcases logs with logs | ⟨logs, _⟩
        · rw [logs]
          exact responses_sent na
        · rw [logs, List.append_assoc]
          exact responses_sent (by simpa using na)
      rw [text, sent, List.map_append]
      rfl
    · rw [ctx', in']
      exact .start _ _

/-- Registered requests are served with one response each when their reads are paced. -/
lemma serve_spec (off : srv.kUseRespCache = false) {ms : List Message}
    (reg : ∀ m ∈ ms, (srv.responseCallbacks_ m.path).isSome) {es : List ReadEvent}
    (ne : ∀ e ∈ es, e.chunk ≠ []) (eq : (es.map ReadEvent.chunk).flatten = ms.flatMap Message.encode) :
    ∃ conn : TCPConnection B Upper, serve hash heap self srv es = some conn ∧
      (responses conn.log).map some = ((objects .new ms).map (responseText srv)).take
        (answered ms 0 (es.map fun e => e.chunk.length)) ∧
      ((responses conn.log).map some = (objects .new ms).map (responseText srv) ↔
        Paced ms (es.map fun e => e.chunk.length)) := by
  have inv : Served srv .new [] (created ⟨.new, srv⟩ : TCPConnection B Upper) := by
    refine ⟨Sound.created _, rfl, ?_⟩
    rw [show unread (created ⟨.new, srv⟩ : TCPConnection B Upper).in_buffer_ = []
      from fresh_unread fresh_new]
    exact .start _ _
  obtain ⟨conn, e, out⟩ := (readEvent_answers off).foldlM ne inv (by simpa using eq) reg
  have none_yet : responses (created ⟨.new, srv⟩ : TCPConnection B Upper).log = [] := rfl
  have out : (responses conn.log).map some = ((objects .new ms).map (responseText srv)).take
      (answered ms 0 (es.map fun e => e.chunk.length)) := by simpa [none_yet] using out
  refine ⟨conn, e, out, ?_⟩
  have le := @answered_le ms 0 (es.map fun e => e.chunk.length)
  rw [out, ← answered_eq_length, List.take_eq_self_iff, List.length_map, objects_length]
  omega

end Spec

/-! ## Over the linked buffer -/

section Strict

variable {hash : HTTPRequest → Nat} {heap : ConnId → HTTPRequest} {self : ConnId}
  {s : TCPConnection StampedBuffer Upper} {c c' : TCPConnection Recorded Upper}

/-- Between two read events the parser has not finished. -/
structure Attending (s : TCPConnection StampedBuffer Upper) (c : TCPConnection Recorded Upper) : Prop where
  tracks : Tracks s c
  fresh : c.in_buffer_.outdated = false
  unfinished : c.context_.context.state_ ≠ .kGotAll

/-- A connection over the checked buffer begins beside one over the recorded buffer. -/
lemma Attending.created (srv : HTTPServer) :
    Attending (created ⟨.new, srv⟩) (created ⟨.new, srv⟩) where
  tracks := .created _
  fresh := rfl
  unfinished h := by cases h

/-- A read event keeps a connection sound, its parser unfinished, and a record that is not prompt so. -/
lemma readEvent_keep {ev : ReadEvent} (sound : c.Sound) (ne : ev.chunk ≠ [])
    (e : readEvent hash heap self c ev = some c') :
    c'.Sound ∧ c'.context_.context.state_ ≠ .kGotAll ∧ (¬Prompt c → ¬Prompt c') := by
  obtain ⟨b1, e1, p1, _⟩ := append_parsable sound.input ne
  rw [readEvent, e1, Option.bind_eq_bind, Option.bind_some] at e
  have sound1 := parsed_sound sound p1 c.context_
  obtain ⟨sound', _⟩ := connectionOnRead_spec sound1 p1 e
  refine ⟨sound', connectionOnRead_unfinished sound1 p1 e, fun late prompt => late ⟨?_, ?_⟩⟩
  · by_contra outdated
    have outdated := Recorded.append_outdated e1 (Bool.eq_true_of_not_eq_false outdated)
    exact Bool.noConfusion ((connectionOnRead_outdated sound1 p1 e outdated).symm.trans prompt.1)
  · by_contra untimely
    exact untimely_moves (connectionOnRead_moves e) untimely prompt.2

/-- A read event over the checked buffer. -/
lemma readEvent_attends {ev : ReadEvent} (h : Attending s c) (sound : c.Sound) (ne : ev.chunk ≠ [])
    (e : readEvent hash heap self c ev = some c') : Attends (readEvent hash heap self s ev) c' := by
  obtain ⟨t, fresh, unfinished⟩ := h
  obtain ⟨bi, bo⟩ := t
  rename_i i o
  obtain ⟨b1, e1, p1, _⟩ := append_parsable sound.input ne
  rw [readEvent, e1, Option.bind_eq_bind, Option.bind_some] at e
  have sound1 := parsed_sound sound p1 c.context_
  have bi1 : Backs (i.append ev.chunk) b1 := by
    cases e1
    exact bi.append ev.chunk
  have t1 : Tracks ((parsed c b1 c.context_).withBuffers (i.append ev.chunk) o) (parsed c b1 c.context_) := .mk bi1 bo
  show Attends (connectionOnRead hash heap self ev.w ((parsed c b1 c.context_).withBuffers (i.append ev.chunk) o)) c'
  cases late : b1.outdated with
  | false => exact connectionOnRead_attends t1 sound1 p1 late e
  | true =>
    have inv := bi1.inv
    rw [late] at inv
    refine .inr ⟨connectionOnRead_stale inv unfinished, fun prompt => ?_⟩
    exact Bool.noConfusion ((connectionOnRead_outdated sound1 p1 e late).symm.trans prompt.1)

/-- A record that is not prompt stays so. -/
lemma readEvents_late {es : List ReadEvent} (sound : c.Sound) (ne : ∀ e ∈ es, e.chunk ≠ [])
    (e : es.foldlM (readEvent hash heap self) c = some c') (late : ¬Prompt c) : ¬Prompt c' := by
  induction es generalizing c with
  | nil =>
    cases e
    exact late
  | cons ev es ih =>
    rw [List.foldlM_cons] at e
    obtain ⟨c1, e1, e⟩ := Option.bind_eq_some_iff.1 e
    obtain ⟨sound1, _, keep⟩ := readEvent_keep sound (ne ev (.head _)) e1
    exact ih sound1 (fun e he => ne e (.tail _ he)) e (keep late)

/-- Read events over the checked buffer are those over the recorded one, or are undefined. -/
lemma readEvents_attends {es : List ReadEvent} (h : Attending s c) (sound : c.Sound) (ne : ∀ e ∈ es, e.chunk ≠ [])
    (e : es.foldlM (readEvent hash heap self) c = some c') :
    Attends (es.foldlM (readEvent hash heap self) s) c' := by
  induction es generalizing s c with
  | nil =>
    cases e
    exact .inl ⟨s, rfl, h.tracks, h.fresh⟩
  | cons ev es ih =>
    rw [List.foldlM_cons] at e ⊢
    obtain ⟨c1, e1, e⟩ := Option.bind_eq_some_iff.1 e
    have ne' : ∀ e ∈ es, e.chunk ≠ [] := fun e he => ne e (.tail _ he)
    obtain ⟨sound1, unfinished1, _⟩ := readEvent_keep sound (ne ev (.head _)) e1
    rcases readEvent_attends h sound (ne ev (.head _)) e1 with ⟨s1, es1, t1, fresh1⟩ | ⟨es1, late⟩
    · rw [es1]
      exact ih ⟨t1, fresh1, unfinished1⟩ sound1 ne' e
    · rw [es1]
      exact .inr ⟨rfl, readEvents_late sound1 ne' e late⟩

end Strict

/-- The responses appended over the flat buffer for a stream of requests for registered paths are those of the first
    requests, in order, one for each read event that completes the next request. They are the responses to all the
    requests exactly if after each event at most as many requests are incomplete as there are events to
    come. Over the linked buffer the same responses are appended where the behaviour is defined; it is, and all the
    responses are appended, exactly if moreover no read event has added a node to an `in_buffer_` that was not empty,
    and no write is made after an append has added one to such an `out_buffer_`. -/
theorem pipeline_responses (hash : HTTPRequest → Nat) (heap : ConnId → HTTPRequest) (self : ConnId)
    (srv : HTTPServer) (off : srv.kUseRespCache = false) (ms : List Message)
    (reg : ∀ m ∈ ms, (srv.responseCallbacks_ m.path).isSome) (es : List ReadEvent)
    (ne : ∀ e ∈ es, e.chunk ≠ []) (eq : (es.map ReadEvent.chunk).flatten = ms.flatMap Message.encode) :
    (∃ conn : TCPConnection Buffer Upper, serve hash heap self srv es = some conn ∧
      (responses conn.log).map some = ((objects .new ms).map (responseText srv)).take
        (answered ms 0 (es.map fun e => e.chunk.length)) ∧
      ((responses conn.log).map some = (objects .new ms).map (responseText srv) ↔
        Paced ms (es.map fun e => e.chunk.length))) ∧
    (∃ r : TCPConnection Recorded Upper, serve hash heap self srv es = some r ∧
      (∀ conn : TCPConnection StampedBuffer Upper, serve hash heap self srv es = some conn →
        (responses conn.log).map some = ((objects .new ms).map (responseText srv)).take
          (answered ms 0 (es.map fun e => e.chunk.length))) ∧
      ((∃ conn : TCPConnection StampedBuffer Upper, serve hash heap self srv es = some conn ∧
        (responses conn.log).map some = (objects .new ms).map (responseText srv)) ↔
          Paced ms (es.map fun e => e.chunk.length) ∧ r.in_buffer_.outdated = false ∧ r.out_buffer_.Timely)) := by
  refine ⟨serve_spec off reg ne eq, ?_⟩
  obtain ⟨r, e, out, all⟩ := @serve_spec Recorded _ _ _ hash heap self srv off ms reg es ne eq
  refine ⟨r, e, ?_⟩
  rcases readEvents_attends (Attending.created srv) (Sound.created _) ne e with ⟨s, es', t, fresh⟩ | ⟨es', late⟩
  · obtain ⟨bi, bo⟩ := t
    refine ⟨fun conn ec => ?_, ⟨fun ⟨conn, ec, h⟩ => ⟨?_, fresh, bo.timely⟩, fun ⟨paced, _⟩ => ⟨_, es', all.2 paced⟩⟩⟩
    · cases es'.symm.trans ec
      exact out
    · cases es'.symm.trans ec
      exact all.1 h
  · refine ⟨fun conn ec => ?_, ⟨fun ⟨conn, ec, _⟩ => ?_, fun ⟨_, prompt⟩ => absurd prompt late⟩⟩
    · cases es'.symm.trans ec
    · cases es'.symm.trans ec

/-- A callback as in `test_server.cc`. -/
def homeCallback : ResponseCallback where
  run _ resp := { resp with status_code_ := .k200Ok, body_ := bytes "Home\r\n" }
  listed _ := by simp [HTTPResponse.Listed, HTTPResponse.new]

/-- A server with one path, without the cache. -/
def homeServer : HTTPServer :=
  .new (fun path => if path = bytes "/b" then some homeCallback else none) false

/-- Two requests in two reads, over both buffers. -/
theorem pipeline_responses_two_reads :
    ∃ r : TCPConnection Recorded Upper,
      serve (fun _ => 0) (fun _ => .new) 0 homeServer
        [⟨getB.encode, .accept 100⟩, ⟨getB.encode, .accept 100⟩] = some r ∧
      ((∃ conn : TCPConnection StampedBuffer Upper,
        serve (fun _ => 0) (fun _ => .new) 0 homeServer
          [⟨getB.encode, .accept 100⟩, ⟨getB.encode, .accept 100⟩] = some conn ∧
        (responses conn.log).map some = (objects .new [getB, getB]).map (responseText homeServer)) ↔
          Paced [getB, getB] [19, 19] ∧ r.in_buffer_.outdated = false ∧ r.out_buffer_.Timely) := by
  obtain ⟨r, e, _, h⟩ := (pipeline_responses (fun _ => 0) (fun _ => .new) 0 homeServer rfl
    [getB, getB] (by decide) [⟨getB.encode, .accept 100⟩, ⟨getB.encode, .accept 100⟩] (by decide)
    (by decide)).2
  exact ⟨r, e, h⟩

/-- Two requests in one read event: one response, and the second request stays in the buffer. -/
theorem pipelined_request_waits :
    (serve (fun _ => 0) (fun _ => .new) 0 homeServer [⟨getB.encode ++ getB.encode, .accept 100⟩] :
      Option (TCPConnection LinkedBuffer Upper)).map
        (fun conn => ((responses conn.log).length, conn.in_buffer_.unread))
      = some (1, getB.encode) := by
  decide +kernel

end WebServer.Http
