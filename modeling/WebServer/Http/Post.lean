import WebServer.Http.KeepAlive
import WebServer.Http.StrictParser

/-!
# Requests with a body

After the headers of a `POST` the parser expects a body, of which `parseOneLine` takes one line and stores nothing. So
a `POST` ends after the first `\r\n` behind its headers, whatever its `Content-Length` says: a body with a `\r\n` in
it is cut short, and one without goes on into the first line of the next request.
-/

namespace WebServer.Http

open Net Lib

namespace Message

/-- The message, sent as a `POST`. -/
def encodePost (m : Message) : Bytes :=
  HttpMethod.kPost.text ++ char ' ' :: m.uri ++ kCRLF ++ (headerLines m.headers ++ kCRLF)

/-- What the parser makes of a request object by parsing the headers of the `POST`. -/
def postOnto (m : Message) (old : HTTPRequest) : HTTPRequest := { m.onto old with method_ := .kPost }

end Message

/-- Where the parser is when it has seen the headers of a `POST` and these bytes after them. -/
def bodyState (after : Bytes) : HTTPRequestParseState :=
  if searchIdx kCRLF after = after.length then .kExpectBody else .kGotAll

/-- The bytes it has not used. -/
def bodyRest (after : Bytes) : Bytes :=
  if searchIdx kCRLF after = after.length then after else after.drop (searchIdx kCRLF after + 2)

/-- The request line of a POST has no carriage return. -/
lemma postLine_cr (m : Message) : 13 ∉ HttpMethod.kPost.text ++ char ' ' :: m.uri := by
  have line := m.requestLine_cr
  rw [Message.requestLine, List.mem_append, not_or] at line
  rw [List.mem_append, not_or]
  exact ⟨method_text_cr .kPost, line.2⟩

/-- The request line of a POST is read back into the object. -/
lemma readRequestLine_post (m : Message) (req : HTTPRequest) :
    req.readRequestLine (HttpMethod.kPost.text ++ char ' ' :: m.uri) = (true, { req with
      method_ := .kPost, path_ := m.path, query_ := m.query.getD req.query_, version_ := m.version }) := by
  have sp := method_text_space .kPost
  simp only [HTTPRequest.readRequestLine]
  rw [if_neg (idxOf_sep_ne sp), take_sep sp, drop_sep sp, readMethod_text (by decide), if_pos rfl, readURI_message]

namespace Parses

/-- One line of the body is enough. -/
lemma body (req : HTTPRequest) (after : Bytes) :
    Parses ⟨.kExpectBody, req⟩ after true ⟨bodyState after, req⟩ (bodyRest after) := by
  unfold bodyState bodyRest
  by_cases none : searchIdx kCRLF after = after.length
  · rw [if_pos none, if_pos none]
    exact .wait nofun none
  · rw [if_neg none, if_neg none]
    have lt := Nat.lt_of_le_of_ne searchIdx_le none
    exact .line nofun (FirstLine.exists_of_lt lt) rfl (.done rfl)

/-- The headers of a `POST`, and what comes after them. -/
lemma postHeaders {req : HTTPRequest} (hs : List Header) (after : Bytes) (post : req.method_ = .kPost) :
    Parses ⟨.kExpectHeader, req⟩ (Message.headerLines hs ++ kCRLF ++ after) true
      ⟨bodyState after, { req with headers_ := Message.addHeaders req.headers_ hs }⟩ (bodyRest after) := by
  induction hs generalizing req with
  | nil =>
    refine .line (by simp) (@FirstLine.of_notMem [] after (by simp)) ?_ (body _ after)
    obtain ⟨method, version, path, query, headers, body⟩ := req
    cases post
    rfl
  | cons h hs ih =>
    have e : Message.headerLines (h :: hs) ++ kCRLF ++ after
        = h.line ++ kCRLF ++ (Message.headerLines hs ++ kCRLF ++ after) := by
      simp [Message.headerLines]
    rw [e]
    have hl : HTTPContext.readLine ⟨.kExpectHeader, req⟩ h.line = (true, ⟨.kExpectHeader,
        { req with headers_ := req.headers_.emplace h.key h.value }⟩) := by
      simp only [HTTPContext.readLine, if_neg h.line_ne_nil, readHeader_line]
    exact .line (by simp) (.of_notMem h.line_cr) hl (ih post)

/-- A whole POST parses up to its body, which ends at the first CRLF after the headers. -/
lemma post (m : Message) (old : HTTPRequest) (after : Bytes) :
    Parses ⟨.kExpectRequestLine, old⟩ (m.encodePost ++ after) true ⟨bodyState after, m.postOnto old⟩
      (bodyRest after) := by
  have e : m.encodePost ++ after = HttpMethod.kPost.text ++ char ' ' :: m.uri ++ kCRLF ++
      (Message.headerLines m.headers ++ kCRLF ++ after) := by
    simp [Message.encodePost]
  rw [e]
  have hl : HTTPContext.readLine ⟨.kExpectRequestLine, old⟩ (HttpMethod.kPost.text ++ char ' ' :: m.uri) = (true,
      ⟨.kExpectHeader, { old with
        method_ := .kPost, path_ := m.path, query_ := m.query.getD old.query_, version_ := m.version }⟩) := by
    simp only [HTTPContext.readLine, readRequestLine_post, if_true]
  exact .line (by simp) (.of_notMem (postLine_cr m)) hl (postHeaders m.headers after rfl)

end Parses

/-- For every `POST`, everything that follows its headers and every way of cutting it all into chunks, the parser takes
    what follows up to the first `\r\n` for the body, forgets it and is done; without a `\r\n` it waits. The headers
    have no say in this. Over the linked buffer it does so exactly if its behaviour is defined: before it is done, no
    chunk adds a node to a deque that is not empty. -/
theorem post_ends_at_crlf (m : Message) (after : Bytes) (chunks : List Bytes) (ne : ∀ c ∈ chunks, c ≠ [])
    (cut : chunks.flatten = m.encodePost ++ after) :
    (∃ b : Buffer, feedAll chunks = some (true, ⟨bodyState after, m.postOnto .new⟩, b) ∧ b.unread = bodyRest after) ∧
    ((∃ s : StampedBuffer, feedAll chunks = some (true, ⟨bodyState after, m.postOnto .new⟩, s) ∧
      s.erase.unread = bodyRest after) ↔ InTime (true, .new, .new) chunks) := by
  have parses := Parses.post m .new after
  rw [← cut] at parses
  refine ⟨?_, feedAll_inTime ne parses⟩
  obtain ⟨ok, ctx, b, e, p⟩ := @feedAll_spec Buffer _ _ _ chunks ne
  obtain ⟨rfl, rfl, rest⟩ := p.det parses
  exact ⟨b, e, rest⟩

/-- A form with its length. -/
def form : Message where
  method := .kGet
  version := .kHttp11
  path := bytes "/form"
  query := none
  headers := [⟨bytes "Content-Length", bytes " 3", by decide, by decide, by decide⟩]
  method_valid := getB.method_valid
  method_post := getB.method_post
  version_known := getB.version_known
  path_space := by decide
  path_query := by decide
  path_cr := by decide
  query_space := getB.query_space
  query_cr := getB.query_cr

/-- The form `a=1` and a request after it, whose first line is taken for the end of the form. -/
theorem post_ends_at_crlf_form : ∃ b : Buffer,
    feedAll [bytes "POST /form HTTP/1.1\r\nContent-Length: 3\r\n", bytes "\r\na=1GET / HTTP/1.1\r\nHost: a\r\n\r\n"]
      = some (true, ⟨.kGotAll, form.postOnto .new⟩, b) ∧ b.unread = bytes "Host: a\r\n\r\n" :=
  (post_ends_at_crlf form (bytes "a=1GET / HTTP/1.1\r\nHost: a\r\n\r\n")
    [bytes "POST /form HTTP/1.1\r\nContent-Length: 3\r\n", bytes "\r\na=1GET / HTTP/1.1\r\nHost: a\r\n\r\n"]
    (by decide) (by decide)).1

end WebServer.Http
