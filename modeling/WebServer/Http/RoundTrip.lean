import WebServer.Http.KeepAlive
import WebServer.Http.RequestLine
import Mathlib.Data.List.DropRight

/-!
# Header values, and parsing what was serialised

`setHeader` removes the spaces before a value. It also means to remove those after it, but the loop that
should do so starts at the end of the line, where the `\r` is, and does nothing. So the stored value is
the trimmed one only if the value has no space at its end (`parseHeader_trimmed`).

A `SentRequest` is a request as a client means it, with trimmed header values. Parsing its serialisation
gives exactly it back and leaves what follows in the buffer (`parseRequest_serialise`).
-/

namespace WebServer.Http

open Net Lib

/-! ## Header values -/

/-- A value without the spaces at its two ends. -/
def trimSpaces (value : Bytes) : Bytes :=
  (value.dropWhile (· = char ' ')).rdropWhile (· = char ' ')

/-- The value has no space at its end, or nothing but spaces. -/
def EndsTrimmed (value : Bytes) : Prop :=
  value.getLast? ≠ some (char ' ') ∨ ∀ c ∈ value, c = char ' '

/-- Dropping leading spaces keeps the last byte, if any byte is left. -/
lemma dropWhile_getLast? {value : Bytes} (ne : value.dropWhile (· = char ' ') ≠ []) :
    (value.dropWhile (· = char ' ')).getLast? = value.getLast? := by
  conv_rhs => rw [← List.takeWhile_append_dropWhile (p := (· = char ' ')) (l := value)]
  rw [List.getLast?_append_of_ne_nil _ ne]

/-- Removing the spaces in front is enough exactly for these values. -/
lemma dropWhile_eq_trimSpaces {value : Bytes} :
    value.dropWhile (· = char ' ') = trimSpaces value ↔ EndsTrimmed value := by
  rw [eq_comm, trimSpaces, List.rdropWhile_eq_self_iff, EndsTrimmed]
  by_cases nil : value.dropWhile (· = char ' ') = []
  · have all := List.dropWhile_eq_nil_iff.1 nil
    refine iff_of_true (fun ne => absurd nil ne) (.inr fun c hc => ?_)
    simpa using all c hc
  · have some : ¬∀ c ∈ value, c = char ' ' := fun all =>
      nil (List.dropWhile_eq_nil_iff.2 fun c hc => decide_eq_true (all c hc))
    rw [or_iff_left some, ← dropWhile_getLast? nil, List.getLast?_eq_some_getLast nil]
    simp [nil]

section Buffers

variable {B I : Type} [BufferType B I] [LawfulBuffer B I] {b : B} {line : Bytes} {start end_ : I}
  {req : HTTPRequest}

/-- The source reads a header line of the buffer as `readHeader` reads its bytes. -/
lemma LineAt.parseHeader (h : LineAt b line start end_) :
    HTTPContext.parseHeader req b start end_ = some (req.readHeader line) := by
  obtain ⟨rest, fl⟩ := h.first
  rw [parseHeader_spec (LawfulBuffer.represents h.parsable) h.at_start h.at_end_ (Nat.zero_le _) h.lt
    (fl.cr h.lt), h.slice]

/-- A new key is stored with its value without the leading spaces. -/
lemma LineAt.parseHeader_trimmed {key value : Bytes}
    (h : LineAt b (key ++ char ':' :: value) start end_) (colon : char ':' ∉ key)
    (new : key ∉ req.headers_) :
    ∃ req', HTTPContext.parseHeader req b start end_ = some (true, req') ∧
      (∀ key', key' ≠ key → req'.getHeader key' = req.getHeader key') ∧
      (req'.getHeader key = some (trimSpaces value) ↔ EndsTrimmed value) := by
  have stored : req.readHeader (key ++ char ':' :: value) = (true, { req with
      headers_ := req.headers_.emplace key (value.dropWhile (· = char ' ')) }) := by
    simp only [HTTPRequest.readHeader]
    rw [if_neg (idxOf_sep_ne colon), take_sep colon, drop_sep colon]
  refine ⟨_, h.parseHeader.trans (congrArg some stored), ?_, ?_⟩
  · intro key' ne
    simp only [HTTPRequest.getHeader]
    rw [lookup_emplace, if_neg ne.symm, Option.or_none]
  · simp only [HTTPRequest.getHeader]
    rw [lookup_emplace, Finmap.lookup_eq_none.2 new, if_pos rfl, Option.none_or, Option.some.injEq,
      dropWhile_eq_trimSpaces]

end Buffers

/-- On a header line `key:value` with a new key, in either buffer type, `parseHeader` stores the value without the
    spaces at its ends if and only if it has no space at its end or only spaces. The other headers stay. The iterators
    of the linked buffer are taken to be valid. -/
theorem parseHeader_stores_trimmed (req : HTTPRequest) (key value : Bytes) (colon : char ':' ∉ key)
    (new : key ∉ req.headers_) :
    (∀ (b : Buffer) (start end_ : Nat), LineAt b (key ++ char ':' :: value) start end_ →
      ∃ req', HTTPContext.parseHeader req b start end_ = some (true, req') ∧
        (∀ key', key' ≠ key → req'.getHeader key' = req.getHeader key') ∧
        (req'.getHeader key = some (trimSpaces value) ↔ EndsTrimmed value)) ∧
    (∀ (lb : LinkedBuffer) (start end_ : LinkedBufferIter),
      LineAt lb (key ++ char ':' :: value) start end_ →
      ∃ req', HTTPContext.parseHeader req lb start end_ = some (true, req') ∧
        (∀ key', key' ≠ key → req'.getHeader key' = req.getHeader key') ∧
        (req'.getHeader key = some (trimSpaces value) ↔ EndsTrimmed value)) :=
  ⟨fun _ _ _ h => h.parseHeader_trimmed colon new, fun _ _ _ h => h.parseHeader_trimmed colon new⟩

/-- The first header of a request, in a linked buffer. -/
theorem parseHeader_stores_trimmed_host :
    ∃ (lb : LinkedBuffer) (start end_ : LinkedBufferIter) (req' : HTTPRequest),
      HTTPContext.parseHeader .new lb start end_ = some (true, req') ∧
      req'.getHeader (bytes "Host") = some (bytes "a") := by
  have cr : 13 ∉ bytes "Host" ++ char ':' :: bytes "  a" := by decide
  have ends : EndsTrimmed (bytes "  a") := .inl (by decide)
  obtain ⟨lb, start, end_, _, h⟩ := @LineAt.exists_of_notMem LinkedBuffer _ _ _ _ cr
  obtain ⟨req', e, _, stored⟩ := (parseHeader_stores_trimmed .new (bytes "Host") (bytes "  a")
    (by decide) (Finmap.notMem_empty)).2 lb start end_ h
  exact ⟨lb, start, end_, req', e, stored.2 ends⟩

/-- The spaces after a value are stored with it. -/
theorem parseHeader_keeps_trailing_space :
    ∃ (b : Buffer) (start end_ : Nat) (req' : HTTPRequest),
      LineAt b (bytes "Host" ++ char ':' :: bytes " a ") start end_ ∧
      HTTPContext.parseHeader .new b start end_ = some (true, req') ∧
      req'.getHeader (bytes "Host") ≠ some (trimSpaces (bytes " a ")) := by
  have cr : 13 ∉ bytes "Host" ++ char ':' :: bytes " a " := by decide
  have ends : ¬EndsTrimmed (bytes " a ") := by
    rintro (last | all)
    · exact last (by decide)
    · exact absurd (all (char 'a') (by decide)) (by decide)
  obtain ⟨b, start, end_, _, h⟩ := @LineAt.exists_of_notMem Buffer _ _ _ _ cr
  obtain ⟨req', e, _, stored⟩ := @LineAt.parseHeader_trimmed _ _ _ _ b start end_ .new
    (bytes "Host") (bytes " a ") h (by decide) Finmap.notMem_empty
  exact ⟨b, start, end_, req', h, e, fun hs => ends (stored.1 hs)⟩

/-! ## The round trip -/

/-- A header as a client means it. -/
structure SentHeader where
  key : Bytes
  value : Bytes
  key_colon : char ':' ∉ key
  key_crlf : 13 ∉ key ∧ 10 ∉ key
  value_crlf : 13 ∉ value ∧ 10 ∉ value
  value_head : value.head? ≠ some (char ' ')
  value_last : value.getLast? ≠ some (char ' ')

/-- A well-formed request that is not a `POST`, as a client means it. -/
structure SentRequest where
  method : HttpMethod
  version : HttpVersion
  path : Bytes
  query : Option Bytes
  headers : List SentHeader
  method_valid : method ≠ .kInvalid
  method_post : method ≠ .kPost
  version_known : version ≠ .kUnknown
  path_space : char ' ' ∉ path
  path_query : char '?' ∉ path
  path_crlf : 13 ∉ path ∧ 10 ∉ path
  query_space : ∀ q ∈ query, char ' ' ∉ q
  query_crlf : ∀ q ∈ query, 13 ∉ q ∧ 10 ∉ q
  keys_nodup : (headers.map SentHeader.key).Nodup

/-- `key: value` -/
def SentHeader.serialise (h : SentHeader) : Bytes :=
  h.key ++ char ':' :: char ' ' :: h.value ++ kCRLF

/-- The header line as the parser sees it, where the space belongs to what follows the colon. -/
def SentHeader.header (h : SentHeader) : Header where
  key := h.key
  raw := char ' ' :: h.value
  key_colon := h.key_colon
  key_cr := h.key_crlf.1
  raw_cr := List.not_mem_cons_of_ne_of_not_mem (by decide) h.value_crlf.1

namespace SentRequest

/-- The standard serialisation: the request line, the header lines and an empty line. -/
def serialise (r : SentRequest) : Bytes :=
  r.method.text ++ char ' ' :: r.path ++ r.query.elim [] (char '?' :: ·) ++ char ' ' ::
    gHttpPrefix ++ r.version.text ++ kCRLF ++ r.headers.flatMap SentHeader.serialise ++ kCRLF

/-- The headers as the entries of a map. -/
def entries (hs : List SentHeader) : List (Sigma fun _ : Bytes => Bytes) :=
  hs.map fun h => ⟨h.key, h.value⟩

/-- Headers with distinct keys are a map. -/
lemma entries_nodup {hs : List SentHeader} (h : (hs.map SentHeader.key).Nodup) :
    (entries hs).NodupKeys := by
  have keys : (entries hs).keys = hs.map SentHeader.key := by
    simp [entries, List.keys]
  rw [List.NodupKeys, keys]
  exact h

def headerMap (r : SentRequest) : HeaderMap :=
  AList.toFinmap ⟨entries r.headers, entries_nodup r.keys_nodup⟩

/-- The request object with exactly these fields. -/
def request (r : SentRequest) : HTTPRequest where
  method_ := r.method
  version_ := r.version
  path_ := r.path
  query_ := r.query.getD []
  headers_ := r.headerMap
  body_ := []

def message (r : SentRequest) : Message where
  method := r.method
  version := r.version
  path := r.path
  query := r.query
  headers := r.headers.map SentHeader.header
  method_valid := r.method_valid
  method_post := r.method_post
  version_known := r.version_known
  path_space := r.path_space
  path_query := r.path_query
  path_cr := r.path_crlf.1
  query_space := r.query_space
  query_cr q h := (r.query_crlf q h).1

/-- A request to be sent is serialised as the message is encoded. -/
lemma message_encode (r : SentRequest) : r.message.encode = r.serialise := by
  have lines : Message.headerLines (r.headers.map SentHeader.header)
      = r.headers.flatMap SentHeader.serialise := by
    rw [Message.headerLines, List.flatMap_map]
    rfl
  simp only [Message.encode, Message.requestLine, Message.uri, Message.queryText, message, lines,
    serialise, List.append_assoc, List.cons_append]

/-- A value that starts with no space is what is left after the space in front of it. -/
lemma header_value (h : SentHeader) : h.header.value = h.value := by
  have hd := h.value_head
  show List.dropWhile _ (char ' ' :: h.value) = h.value
  rw [List.dropWhile_cons_of_pos (by simp)]
  cases e : h.value with
  | nil => rfl
  | cons c cs =>
    rw [e, List.head?_cons, ne_eq, Option.some.injEq] at hd
    rw [List.dropWhile_cons_of_neg (by simpa using hd)]

/-- The first value of a key is its value in the map of the headers. -/
lemma firstValue_header (hs : List SentHeader) (key : Bytes) :
    firstValue (hs.map SentHeader.header) key = (entries hs).dlookup key := by
  induction hs with
  | nil => rfl
  | cons h hs ih =>
    rw [List.map_cons, firstValue, entries, List.map_cons]
    by_cases e : h.key = key
    · subst e
      rw [List.dlookup_cons_eq, List.find?_cons_of_pos (by simp [SentHeader.header]), Option.map_some,
        header_value]
    · rw [List.dlookup_cons_ne _ _ (Ne.symm e),
        List.find?_cons_of_neg (by simp [SentHeader.header, e])]
      exact ih

/-- The message, parsed onto a new object, is the request. -/
lemma message_onto (r : SentRequest) : r.message.onto .new = r.request := by
  have maps : Message.addHeaders ∅ (r.headers.map SentHeader.header) = r.headerMap := by
    apply Finmap.ext_lookup
    intro key
    rw [lookup_addHeaders, Finmap.lookup_empty, Option.none_or, firstValue_header, headerMap,
      Finmap.lookup_toFinmap]
    rfl
  simp only [Message.onto, message, request, HTTPRequest.new, maps]

/-- A serialised request is parsed back, and what follows it stays unread. -/
lemma parseRequest {B I : Type} [BufferType B I] [LawfulBuffer B I] (r : SentRequest) (t : Bytes)
    {b : B} (h : LawfulBuffer.Parsable b) (hu : LawfulBuffer.unread b = r.serialise ++ t) :
    ∃ b', HTTPContext.new.parseRequest b = some (true, ⟨.kGotAll, r.request⟩, b') ∧
      LawfulBuffer.unread b' = t := by
  obtain ⟨ok, ctx, b', e, _, run⟩ := parseRequest_spec .new h
  have sent := Parses.message r.message .new t
  rw [message_encode, message_onto, ← hu] at sent
  obtain ⟨rfl, rfl, rest⟩ := run.det sent
  exact ⟨b', e, rest⟩

end SentRequest

/-- Parsing undoes serialising: a fresh context on a buffer of either type with the serialisation of `r` and then `t`
    gets all of the request, with exactly the fields of `r`, and leaves `t`. The iterators of the linked buffer are
    taken to be valid. -/
theorem parseRequest_serialise (r : SentRequest) (t : Bytes) :
    (∀ b : Buffer, LawfulBuffer.Parsable b → b.unread = r.serialise ++ t →
      ∃ b', HTTPContext.new.parseRequest b = some (true, ⟨.kGotAll, r.request⟩, b') ∧
        b'.unread = t) ∧
    (∀ lb : LinkedBuffer, LawfulBuffer.Parsable lb → lb.unread = r.serialise ++ t →
      ∃ lb', HTTPContext.new.parseRequest lb = some (true, ⟨.kGotAll, r.request⟩, lb') ∧
        lb'.unread = t) :=
  ⟨fun _ h hu => r.parseRequest t h hu, fun _ h hu => r.parseRequest t h hu⟩

/-- A request with a query and a header in a linked buffer, with the start of another one after it. -/
theorem parseRequest_serialise_query :
    ∃ (r : SentRequest) (lb lb' : LinkedBuffer),
      r.serialise = bytes "GET /a?b HTTP/1.1\r\nHost: c d\r\n\r\n" ∧
      lb.unread = r.serialise ++ bytes "GET" ∧
      HTTPContext.new.parseRequest lb = some (true, ⟨.kGotAll, r.request⟩, lb') ∧
      lb'.unread = bytes "GET" := by
  have hq : ∀ q ∈ some (bytes "b"), q = bytes "b" := fun q h => (Option.some.inj h).symm
  let host : SentHeader := ⟨bytes "Host", bytes "c d", by decide, by decide, by decide, by decide,
    by decide⟩
  let r : SentRequest := ⟨.kGet, .kHttp11, bytes "/a", some (bytes "b"), [host], by decide, by decide,
    by decide, by decide, by decide, by decide, fun q h => by rw [hq q h]; decide,
    fun q h => by rw [hq q h]; decide, List.nodup_singleton _⟩
  have ne : r.serialise ++ bytes "GET" ≠ [] := List.append_ne_nil_of_right_ne_nil _ (by decide)
  obtain ⟨lb, _, p, u⟩ := LawfulBuffer.append_parsable
    (.inl (LawfulBuffer.fresh_new : LawfulBuffer.Fresh (BufferType.new : LinkedBuffer))) ne
  rw [LawfulBuffer.fresh_unread LawfulBuffer.fresh_new, List.nil_append] at u
  obtain ⟨lb', e, u'⟩ := (parseRequest_serialise r (bytes "GET")).2 lb p u
  exact ⟨r, lb, lb', rfl, u, e, u'⟩

end WebServer.Http
