import WebServer.Http.Stream

/-!
# Several requests on one connection

`Session.read` is the part of `connectionOnRead` that parses: append a chunk, parse once, and when a
request is finished look at it and reset the state. `resetState` leaves the request object as it is, so
a request is parsed into what the ones before it left: `objects`. `keepAlive_requests` says what is seen
and exactly when this is what a fresh context would have produced: when the request has a query or
no query is left over, and sends itself every header that the requests before it have sent.
-/

namespace WebServer.Http

open Net Lib LawfulBuffer

/-- The parsing side of a connection, with the requests seen finished so far. -/
structure Session (B : Type) where
  context : HTTPContext
  buffer : B
  seen : List HTTPRequest

/-- The parsing done by `connectionOnRead` when a chunk has been read. -/
def Session.read {B I : Type} [BufferType B I] (s : Session B) (chunk : Bytes) :
    Option (Session B) := do
  let (_, context, buffer) ← s.context.parseRequest (← BufferType.append s.buffer chunk)
  if context.parseFinished then
    some ⟨context.resetState, buffer, s.seen ++ [context.request_]⟩
  else
    some { s with context, buffer }

/-- A new connection that receives chunks. -/
def Session.run {B I : Type} [BufferType B I] (chunks : List Bytes) : Option (Session B) :=
  chunks.foldlM Session.read ⟨.new, BufferType.new, []⟩

/-- The request object when all of the messages are finished. -/
def objectAfter (ms : List Message) : HTTPRequest := ms.foldl (fun old m => m.onto old) .new

/-! ## What is seen -/

section Seen

variable {B I : Type} [BufferType B I] [LawfulBuffer B I]

/-- The invariant of a session. -/
def Session.Inv (base : HTTPRequest) (got : Bytes) (s : Session B) : Prop :=
  (Fresh s.buffer ∨ Parsable s.buffer) ∧ Underway base got s.context (unread s.buffer)

/-- A chunk finishes the first message if it completes it. -/
lemma Session.read_answers :
    Answers (Session.read (B := B)) id Session.seen id Session.Inv fun _ => True := by
  intro base m ms got s chunk ⟨hb, u⟩ ne fol _
  simp only [id_eq] at ne fol ⊢
  obtain ⟨b1, e1, p1, u1⟩ := append_parsable hb ne
  obtain ⟨ok, ctx', b', e', p', run⟩ := parseRequest_spec s.context p1
  rw [u1] at run
  rcases Nat.lt_or_ge (got ++ chunk).length m.encode.length with lt | ge
  · obtain ⟨rfl, u'⟩ := u.go_on fol lt run
    have nf : ctx'.parseFinished = false := by simpa [HTTPContext.parseFinished] using u'.unfinished
    refine ⟨{ s with context := ctx', buffer := b' }, ?_, .inr ⟨lt, rfl, .inr p', u'⟩⟩
    simp only [Session.read, e1, e', Option.bind_eq_bind, Option.bind_some, nf]
    rfl
  · obtain ⟨rfl, rfl, eg, _⟩ := u.finish fol ge run
    refine ⟨⟨⟨.kExpectRequestLine, m.onto base⟩, b', s.seen ++ [m.onto base]⟩, ?_,
      .inl ⟨ge, rfl, _, eg, .inr p', .start _ _⟩⟩
    simp only [Session.read, e1, e', Option.bind_eq_bind, Option.bind_some]
    rfl

/-- On a new connection the messages are seen in order, each with what is left of those before. -/
lemma Session.run_spec {chunks : List Bytes} {ms : List Message} (ne : ∀ c ∈ chunks, c ≠ [])
    (eq : chunks.flatten = ms.flatMap Message.encode) :
    ∃ s : Session B, Session.run chunks = some s ∧
      s.seen = (objects .new ms).take (answered ms 0 (chunks.map List.length)) := by
  have fr : Fresh (BufferType.new : B) := fresh_new
  have u : Underway .new [] HTTPContext.new (unread (BufferType.new : B)) := by
    rw [fresh_unread fr]
    exact .start _ _
  obtain ⟨s, e, seen⟩ := Session.read_answers.foldlM (s := ⟨.new, BufferType.new, []⟩) ne
    ⟨.inl fr, u⟩ (by simpa using eq) (by simp)
  exact ⟨s, e, by simpa using seen⟩

end Seen

/-! ## What is left over -/

/-- The query of the last message that has one. -/
def lastQuery (ms : List Message) : Bytes := (ms.filterMap Message.query).getLast?.getD []

/-- The value of the first header with a key. -/
def firstValue (hs : List Header) (key : Bytes) : Option Bytes :=
  (hs.find? (·.key = key)).map Header.value

/-- Nothing of the messages `ms` shows in the request parsed from `m` after them: there is a query in
    `m` or none left over, and every header left over is sent by `m` with the same value. -/
def Untainted (ms : List Message) (m : Message) : Prop :=
  (m.query ≠ none ∨ lastQuery ms = []) ∧
  ∀ key value, firstValue (ms.flatMap Message.headers) key = some value →
    firstValue m.headers key = some value

/-- `emplace` answers for a new key, and leaves the value of a key that is there. -/
lemma lookup_emplace {m : HeaderMap} {key key' value : Bytes} :
    (m.emplace key value).lookup key' = (m.lookup key').or (if key = key' then some value else none) := by
  unfold HeaderMap.emplace
  by_cases hm : key ∈ m
  · rw [if_pos hm]
    by_cases e : key = key'
    · subst e
      obtain ⟨v, hv⟩ := Finmap.mem_iff.1 hm
      rw [hv, Option.some_or]
    · rw [if_neg e, Option.or_none]
  · rw [if_neg hm]
    by_cases e : key = key'
    · subst e
      rw [Finmap.lookup_insert, Finmap.lookup_eq_none.2 hm, if_pos rfl, Option.none_or]
    · rw [Finmap.lookup_insert_of_ne _ (Ne.symm e), if_neg e, Option.or_none]

/-- A header already there stays; else the first one sent counts. -/
lemma lookup_addHeaders {old : HeaderMap} {hs : List Header} {key : Bytes} :
    (Message.addHeaders old hs).lookup key = (old.lookup key).or (firstValue hs key) := by
  induction hs generalizing old with
  | nil => simp [Message.addHeaders, firstValue]
  | cons h hs ih =>
    have e : Message.addHeaders old (h :: hs)
        = Message.addHeaders (old.emplace h.key h.value) hs := rfl
    rw [e, ih, lookup_emplace, Option.or_assoc]
    congr 1
    by_cases hk : h.key = key
    · simp [firstValue, hk]
    · simp [firstValue, hk]

/-- The first value in two lists of headers is that of the first list, if it has one. -/
lemma firstValue_append {hs hs' : List Header} {key : Bytes} :
    firstValue (hs ++ hs') key = (firstValue hs key).or (firstValue hs' key) := by
  simp only [firstValue, List.find?_append, Option.map_or]

/-- A further message is parsed onto the object left by the others. -/
lemma objectAfter_append {ms : List Message} {m : Message} :
    objectAfter (ms ++ [m]) = m.onto (objectAfter ms) := by
  simp [objectAfter]

/-- What the messages before leave in the request object. -/
lemma objectAfter_spec (ms : List Message) :
    (objectAfter ms).query_ = lastQuery ms ∧ (objectAfter ms).body_ = [] ∧
      ∀ key, (objectAfter ms).headers_.lookup key = firstValue (ms.flatMap Message.headers) key := by
  induction ms using List.reverseRecOn with
  | nil => exact ⟨rfl, rfl, fun _ => rfl⟩
  | append_singleton ms m ih =>
    obtain ⟨hq, hb, hh⟩ := ih
    rw [objectAfter_append]
    refine ⟨?_, hb, fun key => ?_⟩
    · unfold lastQuery
      rw [List.filterMap_append]
      cases e : m.query with
      | none => simp [Message.onto, e, hq, lastQuery]
      | some q => simp [Message.onto, e]
    · rw [List.flatMap_append, firstValue_append, ← hh]
      simpa [Message.onto] using lookup_addHeaders

/-- The object handed over for a message is the message parsed onto the messages before it. -/
lemma objects_getElem {ms : List Message} {old : HTTPRequest} {i : Nat} {m : Message}
    (h : ms[i]? = some m) :
    (objects old ms)[i]? = some (m.onto ((ms.take i).foldl (fun old m => m.onto old) old)) := by
  induction ms generalizing old i with
  | nil => simp at h
  | cons m' ms ih =>
    cases i with
    | zero =>
      cases h
      rfl
    | succ i => exact ih h

/-- The object after a message is the one from scratch exactly if nothing is left over. -/
lemma onto_objectAfter {ms : List Message} {m : Message} :
    m.onto (objectAfter ms) = m.onto .new ↔ Untainted ms m := by
  obtain ⟨hq, hb, hh⟩ := objectAfter_spec ms
  have query : m.query.getD (objectAfter ms).query_ = m.query.getD HTTPRequest.new.query_ ↔
      m.query ≠ none ∨ lastQuery ms = [] := by
    rw [hq]
    cases m.query with
    | none => simp [HTTPRequest.new]
    | some q => simp
  -- `emplace` keeps an older value, so a key sent before has to be sent again with the same value
  have header : Message.addHeaders (objectAfter ms).headers_ m.headers
      = Message.addHeaders HTTPRequest.new.headers_ m.headers ↔
      ∀ key value, firstValue (ms.flatMap Message.headers) key = some value →
        firstValue m.headers key = some value := by
    constructor
    · intro e key value hv
      have := congrArg (Finmap.lookup key) e
      rw [lookup_addHeaders, lookup_addHeaders, hh, hv] at this
      simpa [HTTPRequest.new] using this.symm
    · intro hv
      refine Finmap.ext_lookup fun key => ?_
      rw [lookup_addHeaders, lookup_addHeaders, hh]
      cases e : firstValue (ms.flatMap Message.headers) key with
      | none => simp [HTTPRequest.new]
      | some value => simp [HTTPRequest.new, hv key value e]
  unfold Untainted
  rw [← query, ← header]
  simp only [Message.onto, HTTPRequest.mk.injEq, hb]
  simp [HTTPRequest.new]

/-- What a fresh context makes of the bytes of a message alone. -/
lemma feedAll_message (m : Message) {B I : Type} [BufferType B I] [LawfulBuffer B I] :
    ∃ ctx, ∃ b : B, feedAll [m.encode] = some (true, ctx, b) ∧ ctx.parseFinished = true ∧
      ctx.request_ = m.onto .new := by
  have ne : ∀ c ∈ [m.encode], c ≠ [] := by simp [Message.encode, kCRLF]
  obtain ⟨ok, ctx, b, e, h⟩ := @feedAll_spec B I _ _ _ ne
  have hm := Parses.message m .new []
  rw [List.append_nil] at hm
  rw [List.flatten_singleton] at h
  obtain ⟨rfl, rfl, _⟩ := h.det hm
  exact ⟨_, b, e, rfl, rfl⟩

/-- A freshly constructed context, given the bytes of the message alone, produces the request. -/
def ProducedFresh (B : Type) {I : Type} [BufferType B I] (m : Message) (req : HTTPRequest) : Prop :=
  ∃ ctx, ∃ b : B, feedAll [m.encode] = some (true, ctx, b) ∧ ctx.parseFinished = true ∧
    ctx.request_ = req

/-- Parsing a message onto a new object is what a fresh connection would produce. -/
lemma producedFresh_iff {B I : Type} [BufferType B I] [LawfulBuffer B I] {m : Message}
    {req : HTTPRequest} : ProducedFresh B m req ↔ m.onto .new = req := by
  obtain ⟨ctx, b, e, fin, hr⟩ := @feedAll_message m B I _ _
  constructor
  · rintro ⟨ctx', b', e', _, rfl⟩
    cases e.symm.trans e'
    exact hr.symm
  · rintro rfl
    exact ⟨ctx, b, e, fin, hr⟩

/-- One session sees every message when its reads are paced, each as parsed onto its predecessors. -/
lemma keepAlive_spec {ms : List Message} {m : Message} {chunks : List Bytes}
    (ne : ∀ c ∈ chunks, c ≠ []) (eq : chunks.flatten = (ms ++ [m]).flatMap Message.encode)
    {B I : Type} [BufferType B I] [LawfulBuffer B I] :
    ∃ s : Session B, Session.run chunks = some s ∧
      (s.seen.length = ms.length + 1 ↔ Paced (ms ++ [m]) (chunks.map List.length)) ∧
      ∀ req, s.seen[ms.length]? = some req → (ProducedFresh B m req ↔ Untainted ms m) := by
  obtain ⟨s, e, seen⟩ := @Session.run_spec B I _ _ _ _ ne eq
  refine ⟨s, e, ?_, fun req hreq => ?_⟩
  · have := @answered_le (ms ++ [m]) 0 (chunks.map List.length)
    rw [← answered_eq_length, seen, List.length_take, objects_length]
    simp only [List.length_append, List.length_singleton] at this ⊢
    omega
  · have obj := @objects_getElem (ms ++ [m]) .new ms.length m (by simp)
    rw [List.take_left] at obj
    rw [seen, List.getElem?_take] at hreq
    split at hreq
    · cases obj.symm.trans hreq
      rw [producedFresh_iff, ← onto_objectAfter]
      exact eq_comm
    · cases hreq

/-- The request seen when the last of several messages on a connection is finished is the one a fresh context produces
    from its bytes alone exactly if nothing is left over from the messages before. All of the messages are seen
    exactly if the chunks keep pace with them. The iterators of the linked buffer's deque are taken to survive
    `push_back`. -/
theorem keepAlive_requests (ms : List Message) (m : Message) (chunks : List Bytes)
    (ne : ∀ c ∈ chunks, c ≠ []) (eq : chunks.flatten = (ms ++ [m]).flatMap Message.encode) :
    (∃ s : Session Buffer, Session.run chunks = some s ∧
      (s.seen.length = ms.length + 1 ↔ Paced (ms ++ [m]) (chunks.map List.length)) ∧
      ∀ req, s.seen[ms.length]? = some req → (ProducedFresh Buffer m req ↔ Untainted ms m)) ∧
    (∃ s : Session LinkedBuffer, Session.run chunks = some s ∧
      (s.seen.length = ms.length + 1 ↔ Paced (ms ++ [m]) (chunks.map List.length)) ∧
      ∀ req, s.seen[ms.length]? = some req → (ProducedFresh LinkedBuffer m req ↔ Untainted ms m)) :=
  ⟨keepAlive_spec ne eq, keepAlive_spec ne eq⟩

/-- `GET /a?x=1 HTTP/1.1` -/
def getA : Message where
  method := .kGet
  version := .kHttp11
  path := bytes "/a"
  query := some (bytes "x=1")
  headers := []
  method_valid := by decide
  method_post := by decide
  version_known := by decide
  path_space := by decide
  path_query := by decide
  path_cr := by decide
  query_space := by decide
  query_cr := by decide

/-- `GET /b HTTP/1.1` -/
def getB : Message where
  method := .kGet
  version := .kHttp11
  path := bytes "/b"
  query := none
  headers := []
  method_valid := by decide
  method_post := by decide
  version_known := by decide
  path_space := by decide
  path_query := by decide
  path_cr := by decide
  query_space := by decide
  query_cr := by decide

/-- Two requests, the second of which sets all that the first has set. -/
theorem keepAlive_requests_getB_getA :
    ∃ s : Session LinkedBuffer, Session.run [getB.encode, getA.encode] = some s ∧
      ∀ req, s.seen[1]? = some req → ProducedFresh LinkedBuffer getA req := by
  obtain ⟨s, e, _, h⟩ := (keepAlive_requests [getB] getA [getB.encode, getA.encode] (by decide)
    (by simp)).2
  refine ⟨s, e, fun req hr => (h req hr).2 ⟨.inl (by decide), ?_⟩⟩
  intro key value hv
  cases hv

/-- The query of a request shows in the next one. -/
theorem query_leaks :
    (Session.run [getA.encode, getB.encode] : Option (Session LinkedBuffer)).map
      (fun s => s.seen.map (·.query_)) = some [bytes "x=1", bytes "x=1"] ∧
    (feedAll [getB.encode] : Option (Bool × HTTPContext × LinkedBuffer)).map
      (fun r => (r.1, r.2.1.parseFinished, r.2.1.request_.query_)) = some (true, true, []) := by
  decide +kernel

end WebServer.Http
