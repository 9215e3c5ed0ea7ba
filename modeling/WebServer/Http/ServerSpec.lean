import WebServer.Http.Server

/-!
# What `connectionOnRead` does

`connectionOnRead` on a sound connection in terms of `Parses`: it parses the unread bytes, and either
waits for more or sends one response (`connectionOnRead_cases`). `handleEvent_stages` takes an event of
such a connection apart, and `World.step_cases` one of the world.
-/

namespace WebServer.Http

open Net Lib LawfulBuffer TCPConnection

section OnRead

variable {B I : Type} [BufferType B I] [LawfulBuffer B I] {hash : HTTPRequest → Nat}
  {heap : ConnId → HTTPRequest} {self : ConnId} {conn conn' : TCPConnection B Upper}
  {resp : HTTPResponse} {w : WriteResult}

/-- The context is the one put in. -/
lemma withContext_context {Ctx Ctx' : Type} {c : TCPConnection B Ctx} {x : Ctx'} :
    (withContext c x).context_ = x := rfl

/-- A connection stays sound when its context changes. -/
lemma withContext_sound {Ctx Ctx' : Type} {c : TCPConnection B Ctx} (h : c.Sound) (x : Ctx') :
    (withContext c x).Sound :=
  ⟨h.input, h.output, h.mask, h.stream, h.pending, h.writing, h.registered, h.removed, h.drained⟩

/-- The connection after parsing, before the response is sent. -/
def parsed (conn : TCPConnection B Upper) (b : B) (up : Upper) : TCPConnection B Upper :=
  { conn with in_buffer_ := b, context_ := up }

/-- A connection stays sound when its input was parsed. -/
lemma parsed_sound (h : conn.Sound) {b : B} (hb : Parsable b) (up : Upper) :
    (parsed conn b up).Sound :=
  ⟨.inr hb, h.output, h.mask, h.stream, h.pending, h.writing, h.registered, h.removed, h.drained⟩

/-- What sending a response keeps, and what it logs. -/
lemma sendResponse_spec (h : conn.Sound) (e : sendResponse conn resp w = some conn') :
    conn'.Sound ∧ (conn.channel_.isWriting = true → conn'.channel_.isWriting = true) ∧
      conn'.in_buffer_ = conn.in_buffer_ ∧ conn'.context_ = conn.context_ ∧
      ∃ cb l, resp.appendToBuffer = some cb ∧
        conn.Extends conn' (.append cb.appends.flatten :: l) ∧
        .shutdownWr ∉ l ∧ ∀ bs, .append bs ∉ l := by
  unfold sendResponse at e
  obtain ⟨cb, ecb, e⟩ := Option.bind_eq_some_iff.1 e
  obtain ⟨c1, e1, e⟩ := Option.bind_eq_some_iff.1 e
  obtain ⟨c1', e1', h1, w1, in1, ctx1⟩ := h.send cb w
  cases e1.symm.trans e1'
  obtain ⟨l, hl, ns, na⟩ := send_log h.output e1
  split at e
  · cases e
    have ext := Extends.trans hl c1.shutdown_extends
    rw [List.append_nil] at ext
    exact ⟨h1.shutdown, by simpa using w1, by simpa using in1, by simpa using ctx1, cb, l, ecb, ext,
      ns, na⟩
  · cases e
    exact ⟨h1, w1, in1, ctx1, cb, l, ecb, .inl hl, ns, na⟩

/-- A listed response is sent. -/
lemma sendResponse_listed (h : conn.Sound) (hr : resp.Listed) :
    ∃ conn', sendResponse conn resp w = some conn' := by
  obtain ⟨cb, ecb⟩ := hr.appendToBuffer
  obtain ⟨c1, e1, _⟩ := h.send cb w
  unfold sendResponse
  rw [ecb]
  simp only [Option.bind_eq_bind, Option.bind_some, e1]
  split <;> exact ⟨_, rfl⟩

/-- `connectionOnRead` parses and then sends a response or none. -/
lemma connectionOnRead_cases (h : Parsable conn.in_buffer_) :
    ∃ ok context b, Parsable b ∧
      Parses conn.context_.context (unread conn.in_buffer_) ok context (unread b) ∧
      connectionOnRead hash heap self w conn
        = (respond hash heap self ok ⟨context, conn.context_.server⟩).bind fun ur =>
          match ur.2 with
          | none => some (parsed conn b ur.1)
          | some response => sendResponse (parsed conn b ur.1) response w := by
  obtain ⟨ok, context, b, e, hb, p⟩ := parseRequest_spec conn.context_.context h
  refine ⟨ok, context, b, hb, p, ?_⟩
  simp only [connectionOnRead, e, Option.bind_eq_bind, Option.bind_some]
  rfl

/-- A parser that waits leaves it at that. -/
lemma respond_wait {ok : Bool} {up : Upper} (hok : ok = true) (nf : up.context.state_ ≠ .kGotAll) :
    respond hash heap self ok up = some (up, none) := by
  unfold respond
  rw [if_neg (by simpa [HTTPContext.parseFinished] using nf), if_pos hok]

/-- `connectionOnRead` on a sound connection: it waits and changes the input and the context only, or
    sends one response. -/
lemma connectionOnRead_spec (h : conn.Sound) (hb : Parsable conn.in_buffer_)
    (e : connectionOnRead hash heap self w conn = some conn') :
    conn'.Sound ∧ (conn.channel_.isWriting = true → conn'.channel_.isWriting = true) ∧
      ∃ ok context rest response,
        Parses conn.context_.context (unread conn.in_buffer_) ok context rest ∧
        respond hash heap self ok ⟨context, conn.context_.server⟩ = some (conn'.context_, response) ∧
        (response = none → conn'.channel_ = conn.channel_ ∧ conn'.log = conn.log) ∧
        ∃ l, .shutdownWr ∉ l ∧ conn.Extends conn' l := by
  obtain ⟨ok, context, b, pb, p, ec⟩ := @connectionOnRead_cases B I _ _ hash heap self conn w hb
  rw [ec] at e
  obtain ⟨⟨up, response⟩, er, e⟩ := Option.bind_eq_some_iff.1 e
  cases response with
  | none =>
    cases e
    exact ⟨parsed_sound h pb up, id, ok, context, unread b, none, p, er, fun _ => ⟨rfl, rfl⟩, [],
      by simp, .inl (by simp [parsed])⟩
  | some response =>
    obtain ⟨h', w', _, ctx', cb, l, _, ext, ns, _⟩ := sendResponse_spec (parsed_sound h pb up) e
    refine ⟨h', w', ok, context, unread b, some response, p, ?_, nofun, _, ?_, ext⟩
    · rw [ctx']
      exact er
    · simpa using ns

/-- Bytes were read, and after parsing them `connectionOnRead` left `up` and sent `response`. -/
inductive Responded (hash : HTTPRequest → Nat) (heap : ConnId → HTTPRequest) (self : ConnId)
    (conn : TCPConnection B Upper) (r : ReadResult) (up : Upper) (response : Option HTTPResponse) :
    Prop where
  | intro {ok context rest} :
    (sysw.read (capacity conn.in_buffer_) r).2 ≠ [] →
    Parses conn.context_.context
      (unread conn.in_buffer_ ++ (sysw.read (capacity conn.in_buffer_) r).2) ok context rest →
    respond hash heap self ok ⟨context, conn.context_.server⟩ = some (up, response) →
    Responded hash heap self conn r up response

/-- `handleRead` with `connectionOnRead`: no byte was read, or `connectionOnRead` saw the bytes. -/
lemma handleRead_served {r : ReadResult} (h : conn.Sound)
    (e : conn.handleRead r (connectionOnRead hash heap self w) = some conn') :
    conn'.Sound ∧ (conn.channel_.isWriting = true → conn'.channel_.isWriting = true) ∧
      ((conn'.channel_ = conn.channel_ ∧ conn'.context_ = conn.context_ ∧
          ∃ l, conn'.log = conn.log ++ l ∧ Silent l) ∨
       ∃ response, Responded hash heap self conn r conn'.context_ response ∧
        (response = none → conn'.channel_ = conn.channel_ ∧
          ∃ l, conn'.log = conn.log ++ l ∧ Silent l) ∧
        ∃ l, .shutdownWr ∉ l ∧ conn.Extends conn' l) := by
  rcases handleRead_cases h.input r (connectionOnRead hash heap self w) with
    ⟨_, _, e1⟩ | ⟨_, ⟨_, e1⟩ | ⟨pos, b, pr, un, e1⟩⟩
  · cases e.symm.trans e1
    exact ⟨h, id, .inl ⟨rfl, rfl, [], by simp, by simp [Silent]⟩⟩
  · cases e.symm.trans e1
    refine ⟨(h.recordRead h.input _).handleClose, by simp, .inl ⟨by simp, by simp,
      .read (sysw.read (capacity conn.in_buffer_) r).1 :: closeLog conn.status_, by simp, ?_⟩⟩
    have := @silent_closeLog conn.status_
    simpa [Silent] using this
  · have h1 := h.recordRead (.inr pr) (sysw.read (capacity conn.in_buffer_) r).1
    obtain ⟨h', w', ok, context, rest, response, p, er, wait, l, ns, ext⟩ :=
      connectionOnRead_spec h1 pr (e1.symm.trans e)
    simp only [record_in, un, record_context] at p er
    refine ⟨h', w', .inr ⟨response, .intro (sysw.read_pos pos).2 p er, fun hn => ?_,
      .read (sysw.read (capacity conn.in_buffer_) r).1 :: l, by simpa using ns, ?_⟩⟩
    · obtain ⟨ch, lg⟩ := wait hn
      exact ⟨ch, [.read (sysw.read (capacity conn.in_buffer_) r).1], lg, by simp [Silent]⟩
    · exact Extends.trans (l := [.read _]) rfl ext

/-- An event on a sound connection: perhaps a close, then perhaps a read, then perhaps a write, which only
    a writing channel gets. -/
lemma handleEvent_stages {revents : Mask} {r : ReadResult} {w' : WriteResult} (h : conn.Sound)
    (out : revents.meets POLLOUT = true → conn.channel_.isWriting = true)
    (ev : conn.handleEvent revents r (connectionOnRead hash heap self w) w' = some conn') :
    conn'.Sound ∧ ∃ c2 c3, (c2 = conn ∨ c2 = conn.handleClose) ∧ c2.Sound ∧
      (c3 = c2 ∨ revents.meets (POLLIN ||| POLLRDHUP ||| POLLPRI) = true ∧
        c2.handleRead r (connectionOnRead hash heap self w) = some c3) ∧
      (conn' = c3 ∨ c3.channel_.isWriting = true ∧ conn'.context_ = c3.context_ ∧
        ∃ l, .shutdownWr ∉ l ∧ c3.Extends conn' l) := by
  obtain ⟨c2, c3, close, read, write⟩ := handleEvent_cases ev
  have h2 : c2.Sound ∧ c2.channel_ = conn.channel_ := by
    rcases close with rfl | rfl
    · exact ⟨h, rfl⟩
    · exact ⟨h.handleClose, handleClose_channel⟩
  have h3 : c3.Sound ∧ (c2.channel_.isWriting = true → c3.channel_.isWriting = true) := by
    rcases read with rfl | ⟨_, er⟩
    · exact ⟨h2.1, id⟩
    · obtain ⟨s3, w3, _⟩ := handleRead_served h2.1 er
      exact ⟨s3, w3⟩
  rcases write with rfl | ⟨po, ew⟩
  · exact ⟨h3.1, c2, conn', close, h2.1, read, .inl rfl⟩
  · -- neither a close nor a read takes the write interest away
    have hw : c3.channel_.isWriting = true := h3.2 (h2.2 ▸ out po)
    obtain ⟨c4, e4, s4⟩ := h3.1.handleWrite hw w'
    cases ew.symm.trans e4
    have ne := h3.1.pending hw
    exact ⟨s4, c2, c3, close, h2.1, read, .inr ⟨hw, handleWrite_log (h3.1.ready ne) ne ew⟩⟩

/-- An event changes the context and the server in `connectionOnRead` only. -/
lemma handleEvent_served {revents : Mask} {r : ReadResult} {w' : WriteResult} (h : conn.Sound)
    (out : revents.meets POLLOUT = true → conn.channel_.isWriting = true)
    (ev : conn.handleEvent revents r (connectionOnRead hash heap self w) w' = some conn') :
    conn'.Sound ∧ (conn'.context_ = conn.context_ ∨
      revents.meets (POLLIN ||| POLLRDHUP ||| POLLPRI) = true ∧
        ∃ response, Responded hash heap self conn r conn'.context_ response) := by
  obtain ⟨s', c2, c3, close, s2, read, write⟩ := handleEvent_stages h out ev
  refine ⟨s', ?_⟩
  have ctx' : conn'.context_ = c3.context_ := by
    rcases write with rfl | ⟨_, ctx', _⟩
    · rfl
    · exact ctx'
  have same : c2.in_buffer_ = conn.in_buffer_ ∧ c2.context_ = conn.context_ := by
    rcases close with rfl | rfl
    · exact ⟨rfl, rfl⟩
    · exact ⟨handleClose_in, handleClose_context⟩
  rw [ctx']
  rcases read with rfl | ⟨pin, er⟩
  · exact .inl same.2
  · obtain ⟨_, _, ⟨_, ctx, _⟩ | ⟨response, ⟨ne, p, rs⟩, _⟩⟩ := handleRead_served s2 er
    · exact .inl (ctx.trans same.2)
    · rw [same.1] at ne p
      rw [same.2] at p rs
      exact .inr ⟨pin, response, ne, p, rs⟩

end OnRead

/-- One event of the world: there is nothing to report, or one connection handles it. -/
lemma World.step_cases {B I : Type} [BufferType B I] {hash : HTTPRequest → Nat} {world world' : World B}
    {e : Event} (st : world.step hash e = some world') :
    world' = world ∨
    ∃ revents c', (world.conns e.conn).poll e.ready = some revents ∧
      (withContext (world.conns e.conn)
        (Upper.mk (world.conns e.conn).context_ world.server)).handleEvent revents e.r
          (connectionOnRead hash world.heap e.conn e.onRead) e.onWrite = some c' ∧
      world' = ⟨c'.context_.server,
        Function.update world.conns e.conn (withContext c' c'.context_.context)⟩ := by
  unfold step at st
  cases hp : (world.conns e.conn).poll e.ready with
  | none =>
    simp only [hp] at st
    cases st
    exact .inl rfl
  | some revents =>
    simp only [hp] at st
    obtain ⟨c', ev, st⟩ := Option.bind_eq_some_iff.1 st
    cases st
    exact .inr ⟨revents, c', rfl, ev, rfl⟩

end WebServer.Http
