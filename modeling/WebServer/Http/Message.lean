import WebServer.Http.Parses

/-!
# Well-formed requests

A `Message` is a well-formed request that is not a `POST`, as a client sends it: its parts, with what
makes its bytes (`Message.encode`) unambiguous. Such a request has no body. `Message.onto` is the
request the parser leaves when it parses a message into a request object that is already filled in
(`Parses.message`): it sets the method, the version and the path, the query if the message has one, and
adds the headers whose key is not yet there.
-/

namespace WebServer.Http

open Net Lib

/-- The word of a method in a request line. -/
def HttpMethod.text : HttpMethod → Bytes
  | .kGet => bytes "GET"
  | .kPost => bytes "POST"
  | .kHead => bytes "HEAD"
  | .kPut => bytes "PUT"
  | .kDelete => bytes "DELETE"
  | .kInvalid => []

/-- The number of a version in a request line. -/
def HttpVersion.text : HttpVersion → Bytes
  | .kHttp10 => bytes "1.0"
  | .kHttp11 => bytes "1.1"
  | .kUnknown => []

/-- A header line `key:raw`. -/
structure Header where
  key : Bytes
  raw : Bytes
  key_colon : char ':' ∉ key
  key_cr : 13 ∉ key
  raw_cr : 13 ∉ raw

/-- The value of a header, without the spaces before it. -/
def Header.value (h : Header) : Bytes := h.raw.dropWhile (· = char ' ')

def Header.line (h : Header) : Bytes := h.key ++ char ':' :: h.raw

/-- A well-formed request that is not a `POST`. -/
structure Message where
  method : HttpMethod
  version : HttpVersion
  path : Bytes
  query : Option Bytes
  headers : List Header
  method_valid : method ≠ .kInvalid
  method_post : method ≠ .kPost
  version_known : version ≠ .kUnknown
  path_space : char ' ' ∉ path
  path_query : char '?' ∉ path
  path_cr : 13 ∉ path
  query_space : ∀ q ∈ query, char ' ' ∉ q
  query_cr : ∀ q ∈ query, 13 ∉ q

namespace Message

/-- The query with its question mark. -/
def queryText (m : Message) : Bytes := m.query.elim [] (char '?' :: ·)

/-- The request line after the method. -/
def uri (m : Message) : Bytes :=
  m.path ++ m.queryText ++ char ' ' :: gHttpPrefix ++ m.version.text

def requestLine (m : Message) : Bytes := m.method.text ++ char ' ' :: m.uri

def headerLines (hs : List Header) : Bytes := hs.flatMap fun h => h.line ++ kCRLF

/-- The bytes of a message. -/
def encode (m : Message) : Bytes := m.requestLine ++ kCRLF ++ (headerLines m.headers ++ kCRLF)

/-- The headers of a request after it has been sent these. -/
def addHeaders (old : HeaderMap) (hs : List Header) : HeaderMap :=
  hs.foldl (fun m h => m.emplace h.key h.value) old

/-- What the parser makes of a request object by parsing a message into it. -/
def onto (m : Message) (old : HTTPRequest) : HTTPRequest where
  method_ := m.method
  version_ := m.version
  path_ := m.path
  query_ := m.query.getD old.query_
  headers_ := addHeaders old.headers_ m.headers
  body_ := old.body_

end Message

/-! ## Parsing a message -/

/-- The text of a known method is read back as the method. -/
lemma readMethod_text {method : HttpMethod} (h : method ≠ .kInvalid) (req : HTTPRequest) :
    req.readMethod method.text = (true, { req with method_ := method }) := by
  cases method with
  | kInvalid => exact absurd rfl h
  | _ => rfl

/-- The text of a known version is read back as the version. -/
lemma readVersion_text {version : HttpVersion} (h : version ≠ .kUnknown) (req : HTTPRequest) :
    req.readVersion (gHttpPrefix ++ version.text) = (true, { req with version_ := version }) := by
  cases version with
  | kUnknown => exact absurd rfl h
  | _ => rfl

/-- The text of a method has no space. -/
lemma method_text_space (method : HttpMethod) : char ' ' ∉ method.text := by
  cases method <;> decide

/-- The text of a method has no carriage return. -/
lemma method_text_cr (method : HttpMethod) : 13 ∉ method.text := by
  cases method <;> decide

/-- A version and what stands before it have no question mark. -/
lemma version_text_query (version : HttpVersion) :
    char '?' ∉ char ' ' :: gHttpPrefix ++ version.text := by
  cases version <;> decide

/-- The text of a version has no carriage return. -/
lemma version_text_cr (version : HttpVersion) : 13 ∉ char ' ' :: gHttpPrefix ++ version.text := by
  cases version <;> decide

/-- The position of a separator after text without it. -/
lemma idxOf_sep {c : UInt8} {s t : Bytes} (h : c ∉ s) : (s ++ c :: t).idxOf c = s.length := by
  rw [List.idxOf_append_of_notMem h, List.idxOf_cons_self, Nat.add_zero]

/-- What stands before the first separator. -/
lemma take_sep {c : UInt8} {s t : Bytes} (h : c ∉ s) :
    (s ++ c :: t).take ((s ++ c :: t).idxOf c) = s := by
  rw [idxOf_sep h, List.take_left]

/-- What stands after the first separator. -/
lemma drop_sep {c : UInt8} {s t : Bytes} (h : c ∉ s) :
    (s ++ c :: t).drop ((s ++ c :: t).idxOf c + 1) = t := by
  rw [idxOf_sep h, ← List.drop_drop, List.drop_left]
  rfl

/-- The separator is found before the end. -/
lemma idxOf_sep_ne {c : UInt8} {s t : Bytes} (h : c ∉ s) :
    (s ++ c :: t).idxOf c ≠ (s ++ c :: t).length := by
  rw [idxOf_sep h, List.length_append, List.length_cons]
  omega

/-- The path, query and version of a message are read back, an absent query leaving the old one. -/
lemma readURI_message (m : Message) (req : HTTPRequest) :
    req.readURI m.uri = (true, { req with
      path_ := m.path, query_ := m.query.getD req.query_, version_ := m.version }) := by
  have hv := @readVersion_text _ m.version_known
  cases hq : m.query with
  | none =>
    have eq : m.uri = m.path ++ char ' ' :: (gHttpPrefix ++ m.version.text) := by
      simp [Message.uri, Message.queryText, hq]
    have nq : char '?' ∉ m.uri := by
      rw [eq, List.mem_append, not_or]
      exact ⟨m.path_query, version_text_query m.version⟩
    simp only [HTTPRequest.readURI, List.idxOf_eq_length nq, ne_eq, not_true_eq_false, if_false]
    rw [eq, take_sep m.path_space, drop_sep m.path_space, hv]
    rfl
  | some q =>
    have eq : m.uri = m.path ++ char '?' :: (q ++ char ' ' :: (gHttpPrefix ++ m.version.text)) := by
      simp [Message.uri, Message.queryText, hq]
    simp only [HTTPRequest.readURI]
    rw [eq, if_pos (idxOf_sep_ne m.path_query), take_sep m.path_query, drop_sep m.path_query,
      take_sep (m.query_space q hq), drop_sep (m.query_space q hq), hv]
    rfl

/-- The request line of a message is read back into the object. -/
lemma readRequestLine_message (m : Message) (req : HTTPRequest) :
    req.readRequestLine m.requestLine = (true, { req with
      method_ := m.method, path_ := m.path, query_ := m.query.getD req.query_,
      version_ := m.version }) := by
  have sp := method_text_space m.method
  rw [Message.requestLine]
  simp only [HTTPRequest.readRequestLine]
  rw [if_neg (idxOf_sep_ne sp), take_sep sp, drop_sep sp, readMethod_text m.method_valid,
    if_pos rfl, readURI_message]

/-- A header line is read back, unless its key was there before. -/
lemma readHeader_line (h : Header) (req : HTTPRequest) :
    req.readHeader h.line
      = (true, { req with headers_ := req.headers_.emplace h.key h.value }) := by
  rw [Header.line]
  simp only [HTTPRequest.readHeader]
  rw [if_neg (idxOf_sep_ne h.key_colon), take_sep h.key_colon, drop_sep h.key_colon]
  rfl

/-- A request line has no carriage return. -/
lemma Message.requestLine_cr (m : Message) : 13 ∉ m.requestLine := by
  have hm := method_text_cr m.method
  have hv := version_text_cr m.version
  have hp := m.path_cr
  have hc : (13 : UInt8) ≠ char ' ' := by decide
  have hqm : (13 : UInt8) ≠ char '?' := by decide
  have hq : 13 ∉ m.queryText := by
    unfold Message.queryText
    cases e : m.query with
    | none => simp
    | some q => simpa [hqm] using m.query_cr q e
  simp only [Message.requestLine, Message.uri, List.mem_append, List.mem_cons, not_or,
    List.cons_append] at hv ⊢
  exact ⟨hm, hc, ⟨⟨hp, hq⟩, hv.1, hv.2.1⟩, hv.2.2⟩

/-- A header line has no carriage return. -/
lemma Header.line_cr (h : Header) : 13 ∉ h.line := by
  have hc : (13 : UInt8) ≠ char ':' := by decide
  simp only [Header.line, List.mem_append, List.mem_cons, not_or]
  exact ⟨h.key_cr, hc, h.raw_cr⟩

/-- A header line is not empty, so that it does not end the headers. -/
lemma Header.line_ne_nil (h : Header) : h.line ≠ [] := by
  simp [Header.line]

namespace Parses

/-- The header lines of a request without body parse up to and with the empty line. -/
lemma headers {req : HTTPRequest} (hs : List Header) (t : Bytes) (np : req.method_ ≠ .kPost) :
    Parses ⟨.kExpectHeader, req⟩ (Message.headerLines hs ++ kCRLF ++ t) true
      ⟨.kGotAll, { req with headers_ := Message.addHeaders req.headers_ hs }⟩ t := by
  induction hs generalizing req with
  | nil =>
    refine .line (by simp) (@FirstLine.of_notMem [] t (by simp)) ?_ (.done rfl)
    simp [HTTPContext.readLine, HTTPRequest.expectBody, np, Message.addHeaders]
  | cons h hs ih =>
    have e : Message.headerLines (h :: hs) ++ kCRLF ++ t
        = h.line ++ kCRLF ++ (Message.headerLines hs ++ kCRLF ++ t) := by
      simp [Message.headerLines]
    rw [e]
    have hl : HTTPContext.readLine ⟨.kExpectHeader, req⟩ h.line = (true, ⟨.kExpectHeader,
        { req with headers_ := req.headers_.emplace h.key h.value }⟩) := by
      simp only [HTTPContext.readLine, if_neg h.line_ne_nil, readHeader_line]
    exact .line (by simp) (.of_notMem h.line_cr) hl (ih np)

/-- A message at the front of the input is parsed into the request object and left behind. -/
lemma message (m : Message) (old : HTTPRequest) (t : Bytes) :
    Parses ⟨.kExpectRequestLine, old⟩ (m.encode ++ t) true ⟨.kGotAll, m.onto old⟩ t := by
  have e : m.encode ++ t
      = m.requestLine ++ kCRLF ++ (Message.headerLines m.headers ++ kCRLF ++ t) := by
    simp [Message.encode]
  rw [e]
  have hl : HTTPContext.readLine ⟨.kExpectRequestLine, old⟩ m.requestLine = (true,
      ⟨.kExpectHeader, { old with
        method_ := m.method, path_ := m.path, query_ := m.query.getD old.query_,
        version_ := m.version }⟩) := by
    simp only [HTTPContext.readLine, readRequestLine_message, if_true]
  exact .line (by simp) (.of_notMem m.requestLine_cr) hl (headers m.headers t m.method_post)

end Parses

end WebServer.Http
