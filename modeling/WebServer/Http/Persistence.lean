import WebServer.Http.Transparency
import Mathlib.Data.List.DropRight

/-!
# Which connections persist

After a response `connectionOnRead` calls `shutdown` or not, as the `Connection` header of the request object
says. A `Conversation` records this for the requests of one connection. In between, the other connections use
the server and its cache: a `Turn` is a read event with the request objects and the server as they left them.

The header looked at is not the one of the request itself. `setHeader` keeps a value that an earlier request
left (`emplace`), and does not remove the spaces after a value, since `*end` is the `\r` of the line. And an
HTTP/1.0 connection is closed if the value is `Keep-Alive`, not if it is another one. `persistence_follows`
says when the decision is the right one in spite of this.
-/

namespace WebServer.Http

open Net Lib LawfulBuffer TCPConnection

/-- A read event of a connection, and the request objects and the server at this time. -/
structure Turn where
  chunk : Bytes
  w : WriteResult
  heap : ConnId → HTTPRequest
  server : HTTPServer

/-- A connection, the requests answered on it and whether `shutdown` was called after the response. -/
structure Conversation (B : Type) where
  conn : TCPConnection B Upper
  answers : List (HTTPRequest × Bool)

namespace Conversation

variable {B I : Type} [BufferType B I] {hash : HTTPRequest → Nat} {self : ConnId}

/-- `sendResponse`, with whether it calls `shutdown`. -/
def answer (conn : TCPConnection B Upper) (response : HTTPResponse) (w : WriteResult) :
    Option (TCPConnection B Upper × Bool) := do
  let conn ← conn.send (← response.appendToBuffer) w
  if response.close_connection_ then some (conn.shutdown, true) else some (conn, false)

/-- `readEvent`, recording the request if it is finished and the call of `shutdown`. -/
def read (hash : HTTPRequest → Nat) (self : ConnId) (s : Conversation B) (t : Turn) :
    Option (Conversation B) := do
  let in_buffer ← BufferType.append s.conn.in_buffer_ t.chunk
  let (ok, context, in_buffer) ← s.conn.context_.context.parseRequest in_buffer
  let (up, response) ← respond hash t.heap self ok ⟨context, t.server⟩
  let conn := { s.conn with in_buffer_ := in_buffer, context_ := up }
  match response with
  | none => some { s with conn }
  | some response =>
    let (conn, called) ← answer conn response t.w
    if context.parseFinished then
      some ⟨conn, s.answers ++ [(context.request_, called)]⟩
    else
      some { s with conn }

/-- A new connection. -/
def new (server : HTTPServer) : Conversation B := ⟨created ⟨.new, server⟩, []⟩

/-- An answer sends the response and tells whether it closes the connection. -/
lemma answer_eq {conn : TCPConnection B Upper} {response : HTTPResponse} {w : WriteResult} :
    answer conn response w = (sendResponse conn response w).map (·, response.close_connection_) := by
  unfold answer sendResponse
  cases response.appendToBuffer with
  | none => rfl
  | some cb =>
    simp only [Option.bind_eq_bind, Option.bind_some]
    cases conn.send cb w with
    | none => rfl
    | some conn =>
      cases response.close_connection_ <;> rfl

/-- What `read` does to the connection is what `connectionOnRead` does. -/
lemma read_conn {s : Conversation B} {t : Turn} :
    (s.read hash self t).map conn = readEvent hash t.heap self
      { s.conn with context_ := ⟨s.conn.context_.context, t.server⟩ } ⟨t.chunk, t.w⟩ := by
  unfold read readEvent
  cases BufferType.append s.conn.in_buffer_ t.chunk with
  | none => rfl
  | some in_buffer =>
    simp only [connectionOnRead, Option.bind_eq_bind, Option.bind_some]
    cases s.conn.context_.context.parseRequest in_buffer with
    | none => rfl
    | some p =>
      obtain ⟨ok, context, in_buffer⟩ := p
      simp only [Option.bind_some]
      cases respond hash t.heap self ok ⟨context, t.server⟩ with
      | none => rfl
      | some ur =>
        obtain ⟨up, response⟩ := ur
        simp only [Option.bind_some]
        cases response with
        | none => rfl
        | some response =>
          simp only [answer_eq]
          cases sendResponse { s.conn with in_buffer_ := in_buffer, context_ := up } response t.w with
          | none => rfl
          | some conn =>
            simp only [Option.map_some, Option.bind_some]
            split <;> rfl

/-- What the parser sees of a conversation. -/
def session (s : Conversation B) : Session B :=
  ⟨s.conn.context_.context, s.conn.in_buffer_, s.answers.map Prod.fst⟩

/-- The decision to call `shutdown` is the one of the `Connection` header of the request object. -/
def Decided (callbacks : Bytes → Option ResponseCallback) (request : HTTPRequest) (called : Bool) : Prop :=
  (callbacks request.path_).isSome → ∀ value, request.getHeader (bytes "Connection") = some value →
    (called = true ↔ value = bytes "close" ∨ request.version_ = .kHttp10 ∧ value = bytes "Keep-Alive")

/-- The invariant of a conversation. -/
def Inv [LawfulBuffer B I] (callbacks : Bytes → Option ResponseCallback) (s : Conversation B) : Prop :=
  s.conn.Sound ∧ ∀ a ∈ s.answers, Decided callbacks a.1 a.2

end Conversation

/-- The decision to close recorded for a response is the one that `closes` makes. -/
lemma closes_decided {callbacks : Bytes → Option ResponseCallback} {request : HTTPRequest}
    {response : HTTPResponse} :
    Conversation.Decided callbacks request (HTTPServer.closes request response).close_connection_ := by
  intro _ value hv
  simp [HTTPServer.closes, hv, HTTPResponse.setCloseConnection]

/-- The response to a finished request closes the connection as its `Connection` header says. -/
lemma respond_decided {hash : HTTPRequest → Nat} {heap : ConnId → HTTPRequest} {self : ConnId} {ok : Bool}
    {context : HTTPContext} {server : HTTPServer} {up : Upper} {response : HTTPResponse}
    (fin : context.parseFinished = true)
    (e : respond hash heap self ok ⟨context, server⟩ = some (up, some response)) :
    Conversation.Decided server.responseCallbacks_ context.request_ response.close_connection_ := by
  unfold respond at e
  rw [if_pos fin] at e
  dsimp only at e
  split at e
  case h_1 cb _ =>
    obtain ⟨⟨srv', resp⟩, eh, e⟩ := Option.bind_eq_some_iff.1 e
    cases e
    -- with the cache or without, `closes` comes last
    unfold HTTPServer.handleRequest at eh
    simp only [Function.update_self] at eh
    split at eh
    · obtain ⟨hit, _, eh⟩ := Option.bind_eq_some_iff.1 eh
      cases hit with
      | some sr =>
        cases eh
        exact closes_decided
      | none =>
        obtain ⟨srv1, _, eh⟩ := Option.bind_eq_some_iff.1 eh
        cases eh
        exact closes_decided
    · cases eh
      exact closes_decided
  case h_2 none =>
    intro reg
    rw [show context.resetState.request_ = context.request_ from rfl] at none
    rw [none] at reg
    cases reg

/-- A finished request is answered, and the parser starts again; else it stays where it is. -/
lemma respond_context {hash : HTTPRequest → Nat} {heap : ConnId → HTTPRequest} {self : ConnId} {ok : Bool}
    {context : HTTPContext} {server : HTTPServer} {up : Upper} {response : Option HTTPResponse}
    (e : respond hash heap self ok ⟨context, server⟩ = some (up, response)) :
    (context.parseFinished = true ∧ up.context = context.resetState ∧ response ≠ none) ∨
    (context.parseFinished = false ∧ up.context = context) := by
  unfold respond at e
  cases fin : context.parseFinished with
  | true =>
    rw [if_pos fin] at e
    dsimp only at e
    split at e
    · obtain ⟨sr, _, e⟩ := Option.bind_eq_some_iff.1 e
      cases e
      exact .inl ⟨rfl, rfl, nofun⟩
    · cases e
      exact .inl ⟨rfl, rfl, nofun⟩
  | false =>
    rw [if_neg (by simp [fin])] at e
    split at e
    · cases e
      exact .inr ⟨rfl, rfl⟩
    · cases e
      exact .inr ⟨rfl, rfl⟩

namespace Conversation

variable {B I : Type} [BufferType B I] [LawfulBuffer B I] {hash : HTTPRequest → Nat} {self : ConnId}
  {callbacks : Bytes → Option ResponseCallback} {s s' : Conversation B} {t : Turn}

/-- A turn with something to read keeps the invariant, and does to the session what a read does. -/
lemma Inv.read (inv : s.Inv callbacks) (ne : t.chunk ≠ []) (reg : t.server.responseCallbacks_ = callbacks)
    (e : s.read hash self t = some s') :
    s'.Inv callbacks ∧ s.session.read t.chunk = some s'.session := by
  obtain ⟨sound, decided⟩ := inv
  obtain ⟨b1, e1, p1, _⟩ := append_parsable sound.input ne
  obtain ⟨ok, context, b, ep, pb, _⟩ := parseRequest_spec s.conn.context_.context p1
  have see : s.session.read t.chunk = if context.parseFinished then
      some ⟨context.resetState, b, s.session.seen ++ [context.request_]⟩
      else some { s.session with context, buffer := b } := by
    simp only [Session.read, session, e1, ep, Option.bind_eq_bind, Option.bind_some]
  rw [see]
  simp only [Conversation.read, e1, ep, Option.bind_eq_bind, Option.bind_some] at e
  obtain ⟨⟨up, response⟩, er, e⟩ := Option.bind_eq_some_iff.1 e
  have sound' := parsed_sound sound pb up
  cases response with
  | none =>
    cases e
    refine ⟨⟨sound', decided⟩, ?_⟩
    rcases respond_context er with ⟨_, _, ne⟩ | ⟨fin, ctx⟩
    · exact absurd rfl ne
    · rw [if_neg (by simp [fin])]
      simp [session, ctx]
  | some response =>
    simp only [answer_eq] at e
    obtain ⟨⟨conn, called⟩, ea, e⟩ := Option.bind_eq_some_iff.1 e
    obtain ⟨conn, es, ea⟩ := Option.map_eq_some_iff.1 ea
    cases ea
    obtain ⟨sound'', _, hin, hctx, _⟩ := sendResponse_spec sound' es
    rcases respond_context er with ⟨fin, ctx, _⟩ | ⟨fin, ctx⟩
    · simp only [fin, if_true] at e
      cases e
      refine ⟨⟨sound'', ?_⟩, ?_⟩
      · refine List.forall_mem_append.2 ⟨decided, ?_⟩
        rw [List.forall_mem_singleton, ← reg]
        exact respond_decided fin er
      · rw [if_pos fin]
        simp [session, hin, hctx, parsed, ctx]
    · simp only [fin, Bool.false_eq_true, if_false] at e
      cases e
      refine ⟨⟨sound'', decided⟩, ?_⟩
      rw [if_neg (by simp [fin])]
      simp [session, hin, hctx, parsed, ctx]

/-- The requests answered are those a session sees. -/
lemma Inv.run {ts : List Turn} (inv : s.Inv callbacks) (ne : ∀ t ∈ ts, t.chunk ≠ [])
    (reg : ∀ t ∈ ts, t.server.responseCallbacks_ = callbacks)
    (e : ts.foldlM (Conversation.read hash self) s = some s') :
    s'.Inv callbacks ∧ (ts.map Turn.chunk).foldlM Session.read s.session = some s'.session := by
  have run : Steps (fun _ t => t.chunk ≠ [] ∧ t.server.responseCallbacks_ = callbacks)
      (Conversation.read hash self) s ts s' := .of_foldlM (fun t ht _ => ⟨ne t ht, reg t ht⟩) e
  obtain ⟨_, see, inv', rfl⟩ := run.simulate (fun session t => session.read t.chunk)
    (fun s session => s.Inv callbacks ∧ session = s.session)
    (by
      rintro s t s1 _ ⟨inv, rfl⟩ ⟨ne, reg⟩ e
      obtain ⟨inv1, see⟩ := inv.read ne reg e
      exact ⟨_, see, inv1, rfl⟩)
    ⟨inv, rfl⟩
  rw [List.foldlM_map]
  exact ⟨inv', see⟩

end Conversation

/-! ## Definedness -/

/-- No iterator of the cache dangles, and the responses in it have texts. -/
structure HTTPServer.Usable (srv : HTTPServer) : Prop where
  designates : ∀ e ∈ srv.req_to_cache_node_iter_, ∃ node ∈ srv.cache_node_list_, node.id = e.iter
  listed : ∀ node ∈ srv.cache_node_list_, node.resp.Listed

/-- A usable server answers every request, with headers that are listed. -/
lemma HTTPServer.Usable.handleRequest {srv : HTTPServer} (h : srv.Usable) (hash : HTTPRequest → Nat)
    (heap : ConnId → HTTPRequest) (self : ConnId) (cb : ResponseCallback) :
    ∃ srv' resp, srv.handleRequest hash heap self cb = some (srv', resp) ∧ True ∧ resp.Listed := by
  have made : (HTTPServer.closes (heap self) (cb.run (heap self) .new)).Listed :=
    closes_listed (cb.listed (heap self))
  unfold HTTPServer.handleRequest
  split
  · cases hf : srv.findEntry hash heap self with
    | some e =>
      obtain ⟨node, hit, mem, _, _⟩ := getRespCache_hit h.designates hf
      simp only [hit, Option.bind_eq_bind, Option.bind_some]
      exact ⟨_, _, rfl, trivial, closes_listed (h.listed node mem)⟩
    | none =>
      obtain ⟨srv1, e1, _⟩ : ∃ srv1, srv.evict hash heap = some srv1 ∧ _ := evict_nodes h.designates
      simp only [getRespCache_miss hf, HTTPServer.addRespCache, e1, Option.bind_eq_bind, Option.bind_some]
      exact ⟨_, _, rfl, trivial, made⟩
  · exact ⟨_, _, rfl, trivial, made⟩

namespace Conversation

variable {B I : Type} [BufferType B I] [LawfulBuffer B I] {hash : HTTPRequest → Nat} {self : ConnId}
  {callbacks : Bytes → Option ResponseCallback} {s : Conversation B} {t : Turn}

/-- A turn is defined if no iterator of the cache dangles. -/
lemma Inv.defined (inv : s.Inv callbacks) (ne : t.chunk ≠ []) (usable : t.server.Usable) :
    ∃ s', s.read hash self t = some s' := by
  obtain ⟨b1, e1, p1, _⟩ := append_parsable inv.1.input ne
  obtain ⟨ok, context, b, ep, pb, _⟩ := parseRequest_spec s.conn.context_.context p1
  obtain ⟨ctx', srv', response, er, _, listed⟩ := @respond_defined hash t.heap t.server self (fun _ => True)
    trivial (fun heap cb => usable.handleRequest hash heap self cb) ok context
  simp only [Conversation.read, e1, ep, er, Option.bind_eq_bind, Option.bind_some]
  cases response with
  | none => exact ⟨_, rfl⟩
  | some response =>
    obtain ⟨conn, es⟩ := @sendResponse_listed B I _ _ _ response t.w (parsed_sound inv.1 pb ⟨ctx', srv'⟩)
      (listed response rfl)
    simp only [parsed] at es
    simp only [answer_eq, es, Option.map_some, Option.bind_some]
    split <;> exact ⟨_, rfl⟩

/-- With servers that can be used, all the turns run through. -/
lemma Inv.run_defined {ts : List Turn} (inv : s.Inv callbacks) (ne : ∀ t ∈ ts, t.chunk ≠ [])
    (reg : ∀ t ∈ ts, t.server.responseCallbacks_ = callbacks) (usable : ∀ t ∈ ts, t.server.Usable) :
    ∃ s', ts.foldlM (Conversation.read hash self) s = some s' := by
  induction ts generalizing s with
  | nil => exact ⟨s, rfl⟩
  | cons t ts ih =>
    obtain ⟨s1, e1⟩ := inv.defined (ne t (by simp)) (usable t (by simp))
    obtain ⟨inv1, _⟩ := inv.read (ne t (by simp)) (reg t (by simp)) e1
    obtain ⟨s', e'⟩ := ih inv1 (fun t ht => ne t (by simp [ht])) (fun t ht => reg t (by simp [ht]))
      fun t ht => usable t (by simp [ht])
    refine ⟨s', ?_⟩
    rw [List.foldlM_cons, e1]
    exact e'

end Conversation

/-! ## The decision -/

/-- The value of a header, without the spaces around it. -/
def Header.trimmed (h : Header) : Bytes := h.value.rdropWhile (· = char ' ')

/-- The `Connection` header of a message. -/
def Message.connection (m : Message) : Option Header := m.headers.find? (·.key = bytes "Connection")

/-- A connection is closed after a request with this version and value of `Connection`. -/
def ShouldClose (version : HttpVersion) (value : Bytes) : Prop :=
  value = bytes "close" ∨ version = .kHttp10 ∧ value ≠ bytes "Keep-Alive"

/-- The value of `Connection` in the request object: of the messages `before`, or of the message's own header,
    in both cases with the spaces after it. -/
def connectionValue (before : List Message) (h : Header) : Bytes :=
  (firstValue (before.flatMap Message.headers) (bytes "Connection")).getD h.value

/-- The value in the request object is as good as the message's own. For HTTP/1.1 this is so if both are
    `close` or both are not; for HTTP/1.0, if the object has `close` or `Keep-Alive` and the message not
    `Keep-Alive`, or the other way round. -/
def Follows (before : List Message) (m : Message) (h : Header) : Prop :=
  match m.version with
  | .kHttp10 => (connectionValue before h = bytes "close" ∨ connectionValue before h = bytes "Keep-Alive") ↔
      h.trimmed ≠ bytes "Keep-Alive"
  | _ => connectionValue before h = bytes "close" ↔ h.trimmed = bytes "close"

/-- What is recorded when the messages `ms` come in chunks of these sizes. -/
structure Recorded {B : Type} (callbacks : Bytes → Option ResponseCallback) (ms : List Message)
    (sizes : List Nat) (s : Conversation B) : Prop where
  /-- The requests are answered in order, one for each chunk that completes the next one. -/
  requests : s.answers.map Prod.fst = (objects .new ms).take (answered ms 0 sizes)
  /-- `shutdown` is called after the response as the request's own header says exactly if `Follows`. -/
  decisions : ∀ i m h request called, ms[i]? = some m → (callbacks m.path).isSome → m.connection = some h →
    s.answers[i]? = some (request, called) →
    ((called = true ↔ ShouldClose m.version h.trimmed) ↔ Follows (ms.take i) m h)

/-- The value looked at. -/
lemma getHeader_connection {before : List Message} {m : Message} {h : Header} (hc : m.connection = some h) :
    (m.onto (objectAfter before)).getHeader (bytes "Connection") = some (connectionValue before h) := by
  obtain ⟨_, _, left⟩ := objectAfter_spec before
  have own : firstValue m.headers (bytes "Connection") = some h.value := by
    rw [firstValue, show m.headers.find? (·.key = bytes "Connection") = some h from hc, Option.map_some]
  calc (m.onto (objectAfter before)).getHeader (bytes "Connection")
      = ((objectAfter before).headers_.lookup (bytes "Connection")).or
          (firstValue m.headers (bytes "Connection")) := lookup_addHeaders
    _ = (firstValue (before.flatMap Message.headers) (bytes "Connection")).or (some h.value) := by
      rw [left, own]
    _ = some (connectionValue before h) := by
      unfold connectionValue
      cases firstValue (before.flatMap Message.headers) (bytes "Connection") <;> rfl

/-- The decision taken on the value in the request object. -/
lemma follows_iff {before : List Message} {m : Message} {h : Header} {called : Bool}
    (decided : called = true ↔ connectionValue before h = bytes "close" ∨
      m.version = .kHttp10 ∧ connectionValue before h = bytes "Keep-Alive") :
    (called = true ↔ ShouldClose m.version h.trimmed) ↔ Follows before m h := by
  rw [decided]
  unfold ShouldClose Follows
  cases hv : m.version with
  | kHttp10 =>
    have other : h.trimmed = bytes "close" → h.trimmed ≠ bytes "Keep-Alive" := by
      intro e
      rw [e]
      decide
    have right : (h.trimmed = bytes "close" ∨ h.trimmed ≠ bytes "Keep-Alive") ↔
        h.trimmed ≠ bytes "Keep-Alive" := or_iff_right_of_imp other
    simp only [true_and, right]
  | _ => simp

namespace Conversation

variable {B I : Type} [BufferType B I] [LawfulBuffer B I] {hash : HTTPRequest → Nat} {self : ConnId}
  {callbacks : Bytes → Option ResponseCallback} {ms : List Message} {ts : List Turn}

/-- The invariant holds of a conversation just begun. -/
lemma Inv.new (server : HTTPServer) : (new server : Conversation B).Inv callbacks :=
  ⟨Sound.created _, nofun⟩

/-- At the end of the turns every answer is on record with its decision. -/
lemma recorded {server : HTTPServer} {s : Conversation B} (ne : ∀ t ∈ ts, t.chunk ≠ [])
    (eq : (ts.map Turn.chunk).flatten = ms.flatMap Message.encode)
    (reg : ∀ t ∈ ts, t.server.responseCallbacks_ = callbacks)
    (run : ts.foldlM (read hash self) (new server) = some s) :
    Recorded callbacks ms (ts.map fun t => t.chunk.length) s := by
  obtain ⟨⟨_, decided⟩, see⟩ := (Inv.new server).run ne reg run
  have ne' : ∀ c ∈ ts.map Turn.chunk, c ≠ [] := by simpa using ne
  obtain ⟨ss, run', seen⟩ := @Session.run_spec B I _ _ _ _ ne' eq
  cases see.symm.trans run'
  have seen : s.answers.map Prod.fst = (objects .new ms).take
      (answered ms 0 (ts.map fun t => t.chunk.length)) := by
    rw [List.map_map] at seen
    exact seen
  refine ⟨seen, fun i m h request called hm hreg hc ha => ?_⟩
  have hr : (s.answers.map Prod.fst)[i]? = some request := by rw [List.getElem?_map, ha, Option.map_some]
  rw [seen, List.getElem?_take] at hr
  split at hr
  · have obj := @objects_getElem ms .new i m hm
    cases obj.symm.trans hr
    exact follows_iff (decided _ (List.mem_of_getElem? ha) hreg _ (getHeader_connection hc))
  · cases hr

end Conversation

/-- After the response to a request for a registered path that has a `Connection` header, `shutdown` is called as this
    header says exactly if the value in the request object is as good as its own. The server may use the cache, and
    other connections may use it in between; the read events are defined as long as they leave no iterator of the
    cache dangling. Without the record a read event is that of the server. The iterators of the linked buffer's deque
    are taken to survive `push_back`. -/
theorem persistence_follows (hash : HTTPRequest → Nat) (self : ConnId)
    (callbacks : Bytes → Option ResponseCallback) (server : HTTPServer) (ms : List Message) (ts : List Turn)
    (ne : ∀ t ∈ ts, t.chunk ≠ []) (eq : (ts.map Turn.chunk).flatten = ms.flatMap Message.encode)
    (reg : ∀ t ∈ ts, t.server.responseCallbacks_ = callbacks) :
    ((∀ s : Conversation Buffer, ts.foldlM (Conversation.read hash self) (.new server) = some s →
        Recorded callbacks ms (ts.map fun t => t.chunk.length) s) ∧
      ((∀ t ∈ ts, t.server.Usable) → ∃ s : Conversation Buffer,
        ts.foldlM (Conversation.read hash self) (.new server) = some s) ∧
      ∀ (s : Conversation Buffer) (t : Turn), (s.read hash self t).map Conversation.conn =
        readEvent hash t.heap self { s.conn with context_ := ⟨s.conn.context_.context, t.server⟩ } ⟨t.chunk, t.w⟩) ∧
    ((∀ s : Conversation LinkedBuffer, ts.foldlM (Conversation.read hash self) (.new server) = some s →
        Recorded callbacks ms (ts.map fun t => t.chunk.length) s) ∧
      ((∀ t ∈ ts, t.server.Usable) → ∃ s : Conversation LinkedBuffer,
        ts.foldlM (Conversation.read hash self) (.new server) = some s) ∧
      ∀ (s : Conversation LinkedBuffer) (t : Turn), (s.read hash self t).map Conversation.conn =
        readEvent hash t.heap self { s.conn with context_ := ⟨s.conn.context_.context, t.server⟩ } ⟨t.chunk, t.w⟩) :=
  ⟨⟨fun _ run => Conversation.recorded ne eq reg run,
      fun usable => (Conversation.Inv.new server).run_defined ne reg usable, fun _ _ => Conversation.read_conn⟩,
    ⟨fun _ run => Conversation.recorded ne eq reg run,
      fun usable => (Conversation.Inv.new server).run_defined ne reg usable, fun _ _ => Conversation.read_conn⟩⟩

/-- `GET /b` with a `Connection` header. -/
def getWith (version : HttpVersion) (known : version ≠ .kUnknown) (value : Bytes) (cr : 13 ∉ value) : Message :=
  { getB with
    version := version
    version_known := known
    headers := [⟨bytes "Connection", char ' ' :: value, by decide, by decide, by simpa [char] using cr⟩] }

def getClose : Message := getWith .kHttp11 getB.version_known (bytes "close") (by decide)

/-- `close` with a space after it -/
def getCloseSpace : Message := getWith .kHttp11 getB.version_known (bytes "close ") (by decide)

def getKeepAlive : Message := getWith .kHttp11 getB.version_known (bytes "Keep-Alive") (by decide)

def getKeepAlive10 : Message := getWith .kHttp10 (by decide) (bytes "Keep-Alive") (by decide)

/-- The server reads a whole message. -/
def Message.turn (m : Message) : Turn := ⟨m.encode, .accept 1000, fun _ => .new, homeServer⟩

/-- A request that asks to close, read at once. -/
theorem persistence_follows_close :
    ∃ s : Conversation LinkedBuffer,
      [getClose.turn].foldlM (Conversation.read pathHash 0) (.new homeServer) = some s ∧
      s.answers.map Prod.snd = [true] ∧
      Recorded homeServer.responseCallbacks_ [getClose] [getClose.encode.length] s := by
  have one : ([getClose.turn].foldlM (Conversation.read pathHash 0)
      (.new homeServer : Conversation LinkedBuffer)).map (fun s => s.answers.map Prod.snd)
      = some [true] := by
    decide +kernel
  obtain ⟨s, run, called⟩ := Option.map_eq_some_iff.1 one
  exact ⟨s, run, called, (persistence_follows pathHash 0 homeServer.responseCallbacks_ homeServer
    [getClose] [getClose.turn] (by decide) (by simp [Message.turn]) (by simp [Message.turn])).2.1 s run⟩

/-- An HTTP/1.0 connection is closed that asks to be kept; one that is to be closed is kept, because of a space
    after the value or because an earlier request has left another value. -/
theorem persistence_slips :
    (([getKeepAlive10.turn].foldlM (Conversation.read pathHash 0)
        (.new homeServer : Conversation LinkedBuffer)).map (fun s => s.answers.map Prod.snd) = some [true] ∧
      getKeepAlive10.connection.map Header.trimmed = some (bytes "Keep-Alive") ∧
      ¬ ShouldClose .kHttp10 (bytes "Keep-Alive")) ∧
    (([getCloseSpace.turn].foldlM (Conversation.read pathHash 0)
        (.new homeServer : Conversation LinkedBuffer)).map (fun s => s.answers.map Prod.snd) = some [false] ∧
      getCloseSpace.connection.map Header.trimmed = some (bytes "close") ∧
      ShouldClose .kHttp11 (bytes "close")) ∧
    (([getKeepAlive.turn, getClose.turn].foldlM (Conversation.read pathHash 0)
        (.new homeServer : Conversation LinkedBuffer)).map (fun s => s.answers.map Prod.snd)
        = some [false, false] ∧
      getClose.connection.map Header.trimmed = some (bytes "close")) := by
  refine ⟨⟨by decide +kernel, by decide +kernel, ?_⟩, ⟨by decide +kernel, by decide +kernel, .inl rfl⟩,
    by decide +kernel, by decide +kernel⟩
  rintro (e | ⟨_, ne⟩)
  · exact absurd e (by decide)
  · exact ne rfl

end WebServer.Http
