import WebServer.Http.Server
import WebServer.Net.Address

/-!
# Framing of responses

A reader of HTTP responses, and that it gets back what `HTTPResponse::appendToBuffer` wrote. The reader takes
the status line, the header lines up to the first empty line, and then as many bytes as `Content-Length` says,
or everything up to the end of the stream if the connection is closed. A header line is cut at its first
`": "`, and nothing is trimmed.

The writer and the reader meet in `HTTPResponse.lines`, the header lines of a response with those of its
framing. The lemmas go from the pieces (`readNumeral_numeral`, `statusLine_spec`, `readHeaders_lines`) to one
response (`Sendable.readResponse`) and, by induction, to a stream (`framing_unambiguous`). The status line and
the length go through `char buf[64]`, which they fit into: a body is at most `std::string::max_size` long.
-/

namespace WebServer.Http

open Net Lib LawfulBuffer

/-! ## The reader -/

/-- What a reader gets out of a response. -/
structure Reading where
  status_code : HttpStatusCode
  version : HttpVersion
  headers : List (Bytes × Bytes)
  body : Bytes
deriving DecidableEq

/-- `HttpStatusCode(i)` -/
def HttpStatusCode.ofIndex : Nat → HttpStatusCode
  | 0 => .k200Ok
  | 1 => .k301MovedPermanently
  | 2 => .k400BadRequest
  | 3 => .k404NotFound
  | _ => .kUnknown

/-- `HTTP/version SP code SP message` -/
def readStatusLine (line : Bytes) : Option (HttpVersion × HttpStatusCode) := do
  let (name, rest) ← cut (bytes "/") line
  let (version, rest) ← cut (bytes " ") rest
  let (code, _) ← cut (bytes " ") rest
  let code ← readNumeral code
  if name = bytes "HTTP" ∧ version ∈ gHttpVersions ∧ code ∈ gHttpStatusCodes then
    some (.ofIndex (gHttpVersions.idxOf version), .ofIndex (gHttpStatusCodes.idxOf code))
  else
    none

/-- The header lines up to the first empty line; at most `fuel` lines are read. -/
def readHeaders : Nat → Bytes → Option (List (Bytes × Bytes) × Bytes)
  | 0, _ => none
  | fuel + 1, bs => do
    let (line, rest) ← cut kCRLF bs
    if line = [] then
      some ([], rest)
    else
      let header ← cut (bytes ": ") line
      let (headers, rest) ← readHeaders fuel rest
      some (header :: headers, rest)

/-- The header is about the framing. -/
def isFraming (header : Bytes × Bytes) : Bool :=
  header.1 = bytes "Content-Length" ∨ header.1 = bytes "Connection"

/-- One response, and what follows it. -/
def readResponse (bs : Bytes) : Option (Reading × Bytes) := do
  let (line, rest) ← cut kCRLF bs
  let (version, status_code) ← readStatusLine line
  let (lines, rest) ← readHeaders rest.length rest
  let headers := lines.filter fun header => !isFraming header
  if (bytes "Connection", bytes "close") ∈ lines then
    some (⟨status_code, version, headers, rest⟩, [])
  else
    let size ← lines.lookup (bytes "Content-Length")
    let size ← readNumeral size
    if size ≤ rest.length then
      some (⟨status_code, version, headers, rest.take size⟩, rest.drop size)
    else
      none

/-- The responses of a stream; at most `fuel` are read. -/
def readStream : Nat → Bytes → Option (List Reading)
  | _, [] => some []
  | 0, _ => none
  | fuel + 1, bs => do
    let (reading, rest) ← readResponse bs
    let readings ← readStream fuel rest
    some (reading :: readings)

/-! ## What is written -/

namespace HTTPResponse

/-- What `appendToBuffer` writes. -/
def text (resp : HTTPResponse) : Option Bytes :=
  resp.appendToBuffer.map fun cb => cb.appends.flatten

/-- `appendToBuffer(buffer)` -/
def appendTo {B I : Type} [BufferType B I] (buffer : B) (resp : HTTPResponse) : Option B := do
  (← resp.appendToBuffer).appends.foldlM BufferType.append buffer

/-- What a reader should get out of the response. -/
def reading (resp : HTTPResponse) : Reading :=
  ⟨resp.status_code_, resp.version_, resp.headers_, resp.body_⟩

/-- The texts of the version and the status code are in the tables, the header lines can be told from the
    framing and from each other, and the body is no longer than `std::string::max_size`. -/
structure Sendable (resp : HTTPResponse) : Prop where
  listed : resp.Listed
  keys : ∀ header ∈ resp.headers_, header.1 ≠ [] ∧ char ':' ∉ header.1 ∧ 13 ∉ header.1 ∧ 10 ∉ header.1 ∧
    isFraming header = false
  values : ∀ header ∈ resp.headers_, 13 ∉ header.2 ∧ 10 ∉ header.2
  max_size : resp.body_.length < 2 ^ 63

/-- The header lines, with those of the framing. -/
def lines (resp : HTTPResponse) : List (Bytes × Bytes) :=
  (if resp.close_connection_ then
    [(bytes "Connection", bytes "close")]
  else
    [(bytes "Content-Length", numeral resp.body_.length), (bytes "Connection", bytes "Keep-Alive")]) ++
  resp.headers_

end HTTPResponse

/-! ## Lines -/

/-- A line without carriage return is cut off at the first CRLF. -/
lemma cut_crlf {line rest : Bytes} (h : 13 ∉ line) : cut kCRLF (line ++ kCRLF ++ rest) = some (line, rest) :=
  cut_of_notMem h

/-- A header line with its end. -/
def headerLine (header : Bytes × Bytes) : Bytes := header.1 ++ bytes ": " ++ header.2 ++ kCRLF

/-- The header line can be told from the empty one and from its neighbours. -/
def IsLine (header : Bytes × Bytes) : Prop :=
  header.1 ≠ [] ∧ char ':' ∉ header.1 ∧ 13 ∉ header.1 ∧ 13 ∉ header.2

/-- A header line is cut off whole, without its CRLF. -/
lemma cut_headerLine {header : Bytes × Bytes} (h : IsLine header) (rest : Bytes) :
    cut kCRLF (headerLine header ++ rest) = some (header.1 ++ bytes ": " ++ header.2, rest) := by
  refine cut_crlf ?_
  have sep : (13 : UInt8) ∉ bytes ": " := by decide
  simp [h.2.2.1, h.2.2.2, sep]

/-- Reading header lines gives them back. -/
lemma readHeaders_lines {lines : List (Bytes × Bytes)} (h : ∀ header ∈ lines, IsLine header)
    {fuel : Nat} (hf : lines.length < fuel) (rest : Bytes) :
    readHeaders fuel (lines.flatMap headerLine ++ kCRLF ++ rest) = some (lines, rest) := by
  induction lines generalizing fuel with
  | nil =>
    cases fuel with
    | zero => exact absurd hf (Nat.not_lt_zero _)
    | succ fuel =>
      have empty : cut kCRLF (kCRLF ++ rest) = some ([], rest) := @cut_crlf [] rest List.not_mem_nil
      simp [readHeaders, empty]
  | cons header lines ih =>
    cases fuel with
    | zero => exact absurd hf (Nat.not_lt_zero _)
    | succ fuel =>
      have hl := h header (by simp)
      have first : cut kCRLF ((header :: lines).flatMap headerLine ++ kCRLF ++ rest)
          = some (header.1 ++ bytes ": " ++ header.2, lines.flatMap headerLine ++ kCRLF ++ rest) := by
        rw [List.flatMap_cons, List.append_assoc, List.append_assoc, cut_headerLine hl,
          ← List.append_assoc (lines.flatMap headerLine)]
      have pair : cut (bytes ": ") (header.1 ++ bytes ": " ++ header.2) = some header :=
        cut_of_notMem hl.2.1
      have ne : header.1 ++ bytes ": " ++ header.2 ≠ [] := by simp [hl.1]
      have tail := ih (fun header hm => h header (List.mem_cons_of_mem _ hm)) (Nat.lt_of_succ_lt_succ hf)
      simp only [readHeaders, first, Option.bind_eq_bind, Option.bind_some, if_neg ne, pair, tail]

/-- Written headers are at least as many bytes as there are headers. -/
lemma length_le_flatMap {lines : List (Bytes × Bytes)} :
    lines.length ≤ (lines.flatMap headerLine).length := by
  induction lines with
  | nil => simp
  | cons header lines ih =>
    have two : kCRLF.length = 2 := rfl
    simp only [List.flatMap_cons, List.length_append, List.length_cons, headerLine]
    omega

/-! ## One response -/

namespace HTTPResponse

/-- The status line without its end. -/
def statusLine (version : HttpVersion) (code : HttpStatusCode) : Bytes :=
  gHttpPrefix ++ gHttpVersions[version.index]?.getD [] ++ bytes " " ++
    numeral (gHttpStatusCodes[code.index]?.getD 0) ++ bytes " " ++
    gHttpStatusMessages[code.index]?.getD []

variable {resp : HTTPResponse}

/-- The status line fits into `char buf[64]`, and a reader gets the version and the status code back. -/
lemma statusLine_spec {version : HttpVersion} {code : HttpStatusCode} (hv : version ≠ .kUnknown)
    (hc : code ≠ .kUnknown) :
    snprintf buf_size (statusLine version code ++ kCRLF) = statusLine version code ++ kCRLF ∧
      13 ∉ statusLine version code ∧ readStatusLine (statusLine version code) = some (version, code) := by
  cases version with
  | kUnknown => exact absurd rfl hv
  | _ =>
    cases code with
    | kUnknown => exact absurd rfl hc
    | _ => exact ⟨by decide +kernel, by decide +kernel, by decide +kernel⟩

/-- The length of a body has at most 19 digits. -/
lemma contentLength_length {n : Nat} (h : n < 2 ^ 63) : (numeral n).length ≤ 19 :=
  numeral_length (by decide) (Nat.lt_trans h (by decide))

/-- The `Content-Length` line fits into `char buf[64]`. -/
lemma snprintf_contentLength {n : Nat} (h : n < 2 ^ 63) :
    snprintf buf_size (bytes "Content-Length: " ++ numeral n ++ kCRLF)
      = headerLine (bytes "Content-Length", numeral n) := by
  have hl := contentLength_length h
  have key : bytes "Content-Length: " = bytes "Content-Length" ++ bytes ": " := by decide
  have size : (bytes "Content-Length: ").length = 16 := by decide
  have crlf : kCRLF.length = 2 := rfl
  rw [snprintf, buf_size, List.take_of_length_le, headerLine, key]
  simp only [List.length_append, size, crlf]
  omega

/-- The header lines with those of the framing are lines. -/
lemma Sendable.lines (h : resp.Sendable) : ∀ header ∈ resp.lines, IsLine header := by
  intro header hm
  have connection : bytes "Connection" ≠ [] ∧ char ':' ∉ bytes "Connection" ∧ 13 ∉ bytes "Connection" := by
    decide
  have length : bytes "Content-Length" ≠ [] ∧ char ':' ∉ bytes "Content-Length" ∧
      13 ∉ bytes "Content-Length" := by
    decide
  unfold HTTPResponse.lines at hm
  rcases List.mem_append.1 hm with hm | hm
  · split at hm
    · rw [List.mem_singleton] at hm
      subst hm
      exact ⟨connection.1, connection.2.1, connection.2.2, by decide⟩
    · simp only [List.mem_cons, List.not_mem_nil, or_false] at hm
      rcases hm with rfl | rfl
      · exact ⟨length.1, length.2.1, length.2.2, notMem_numeral (by decide)⟩
      · exact ⟨connection.1, connection.2.1, connection.2.2, by decide⟩
  · obtain ⟨ne, colon, cr, _⟩ := h.keys header hm
    exact ⟨ne, colon, cr, (h.values header hm).1⟩

/-- The four pieces that the source writes for each header make up its line. -/
lemma flatMap_headerLine {headers : List (Bytes × Bytes)} :
    (headers.flatMap fun header => [header.1, bytes ": ", header.2, kCRLF]).flatten
      = headers.flatMap headerLine := by
  induction headers with
  | nil => rfl
  | cons header headers ih => simp [headerLine, ih]

/-- The text of a response. -/
lemma Sendable.text (h : resp.Sendable) :
    resp.text = some (statusLine resp.version_ resp.status_code_ ++ kCRLF ++
      (resp.lines.flatMap headerLine ++ kCRLF ++ resp.body_)) := by
  obtain ⟨hv, hc⟩ := h.listed
  obtain ⟨version, hversion⟩ : ∃ t, gHttpVersions[resp.version_.index]? = some t := by
    cases e : resp.version_ with
    | kUnknown => exact absurd e hv
    | _ => exact ⟨_, rfl⟩
  obtain ⟨code, message, hcode, hmessage⟩ : ∃ n t, gHttpStatusCodes[resp.status_code_.index]? = some n ∧
      gHttpStatusMessages[resp.status_code_.index]? = some t := by
    cases e : resp.status_code_ with
    | kUnknown => exact absurd e hc
    | _ => exact ⟨_, _, rfl, rfl⟩
  have status := (statusLine_spec hv hc).1
  have size := snprintf_contentLength h.max_size
  have keep : headerLine (bytes "Connection", bytes "Keep-Alive") = bytes "Connection: Keep-Alive\r\n" := by
    decide
  have close : headerLine (bytes "Connection", bytes "close") = bytes "Connection: close\r\n" := by decide
  simp only [statusLine, hversion, hcode, hmessage, Option.getD_some] at status ⊢
  simp only [HTTPResponse.text, appendToBuffer, hversion, hcode, hmessage, Option.bind_eq_bind,
    Option.bind_some, Option.map_some, status, size, HTTPResponse.lines]
  split <;> simp [flatMap_headerLine, keep, close]

/-- Without the framing, the header lines are the headers. -/
lemma Sendable.filter (h : resp.Sendable) :
    resp.lines.filter (fun header => !isFraming header) = resp.headers_ := by
  have own : resp.headers_.filter (fun header => !isFraming header) = resp.headers_ := by
    refine List.filter_eq_self.2 fun header hm => ?_
    obtain ⟨_, _, _, _, framing⟩ := h.keys header hm
    simp [framing]
  rw [HTTPResponse.lines, List.filter_append, own]
  split <;> simp [isFraming]

/-- The header that closes the connection is written for a response that closes it, and for no other. -/
lemma Sendable.mem_close (h : resp.Sendable) :
    (bytes "Connection", bytes "close") ∈ resp.lines ↔ resp.close_connection_ = true := by
  have own : (bytes "Connection", bytes "close") ∉ resp.headers_ := by
    intro hm
    obtain ⟨_, _, _, _, framing⟩ := h.keys _ hm
    simp [isFraming] at framing
  have length : bytes "Connection" ≠ bytes "Content-Length" := by decide
  have keep : bytes "close" ≠ bytes "Keep-Alive" := by decide
  unfold HTTPResponse.lines
  split <;> simp [*]

/-- A reader gets a response back, and leaves what follows it; what follows a response that closes the
    connection is the end of the stream. -/
lemma Sendable.readResponse (h : resp.Sendable) {text : Bytes} (ht : resp.text = some text) {rest : Bytes}
    (hr : resp.close_connection_ = true → rest = []) :
    readResponse (text ++ rest) = some (resp.reading, rest) := by
  obtain ⟨_, cr, status⟩ := statusLine_spec h.listed.1 h.listed.2
  rw [h.text, Option.some.injEq] at ht
  have first : cut kCRLF (text ++ rest) = some (statusLine resp.version_ resp.status_code_,
      resp.lines.flatMap headerLine ++ kCRLF ++ (resp.body_ ++ rest)) := by
    rw [← ht, List.append_assoc _ _ rest, cut_crlf cr]
    simp
  have enough : resp.lines.length < (resp.lines.flatMap headerLine ++ kCRLF ++ (resp.body_ ++ rest)).length := by
    have := @length_le_flatMap resp.lines
    have two : kCRLF.length = 2 := rfl
    simp only [List.length_append]
    omega
  simp only [Http.readResponse, first, Option.bind_eq_bind, Option.bind_some, status,
    readHeaders_lines h.lines enough, h.filter, h.mem_close]
  cases hc : resp.close_connection_ with
  | true => simp [hr hc, reading]
  | false =>
    have length : resp.lines.lookup (bytes "Content-Length") = some (numeral resp.body_.length) := by
      simp [HTTPResponse.lines, hc]
    simp [length, readNumeral_numeral, reading]

/-- The bytes of a sendable response are never empty. -/
lemma Sendable.text_ne_nil (h : resp.Sendable) {text : Bytes} (ht : resp.text = some text) : text ≠ [] := by
  rw [h.text, Option.some.injEq] at ht
  have : kCRLF ≠ [] := by decide
  simp [← ht, this]

end HTTPResponse

/-! ## A stream of responses -/

/-- The texts of a list of responses are the text of the first and the texts of the rest. -/
lemma mapM_text_cons {resp : HTTPResponse} {resps : List HTTPResponse} {texts : List Bytes}
    (h : (resp :: resps).mapM HTTPResponse.text = some texts) :
    ∃ text, resp.text = some text ∧ ∃ texts', resps.mapM HTTPResponse.text = some texts' ∧
      texts = text :: texts' := by
  simp only [List.mapM_cons, Option.bind_eq_bind, Option.bind_eq_some_iff, Option.pure_def,
    Option.some.injEq] at h
  obtain ⟨text, ht, texts', hts, rfl⟩ := h
  exact ⟨text, ht, texts', hts, rfl⟩

/-- A reader gets the responses of a stream back. -/
lemma readStream_texts {resps : List HTTPResponse} (h : ∀ resp ∈ resps, resp.Sendable)
    (hc : ∀ resp ∈ resps.dropLast, resp.close_connection_ = false) {texts : List Bytes}
    (ht : resps.mapM HTTPResponse.text = some texts) {fuel : Nat} (hf : resps.length ≤ fuel) :
    readStream fuel texts.flatten = some (resps.map HTTPResponse.reading) := by
  induction resps generalizing texts fuel with
  | nil =>
    obtain rfl : texts = [] := by simpa using ht.symm
    cases fuel <;> rfl
  | cons resp resps ih =>
    obtain ⟨text, h1, texts, hts, rfl⟩ := mapM_text_cons ht
    cases fuel with
    | zero => exact absurd hf (Nat.not_succ_le_zero _)
    | succ fuel =>
      have hs := h resp (by simp)
      have tail := ih (fun resp hm => h resp (List.mem_cons_of_mem _ hm))
        (fun resp' hm => hc resp' (by cases resps with | nil => simp at hm | cons => simp [hm])) hts
        (Nat.le_of_succ_le_succ hf)
      -- nothing follows a response that closes the connection
      have last : resp.close_connection_ = true → texts.flatten = [] := by
        intro close
        cases resps with
        | nil =>
          obtain rfl : texts = [] := by simpa using hts.symm
          rfl
        | cons =>
          have := hc resp (by simp)
          rw [close] at this
          exact absurd this (by decide)
      have ne : text ++ texts.flatten ≠ [] := by simp [hs.text_ne_nil h1]
      simp only [List.flatten_cons, List.map_cons]
      rw [readStream, hs.readResponse h1 last]
      · simp [tail]
      · exact ne

/-- There are no more responses in a stream than bytes. -/
lemma length_le_texts {resps : List HTTPResponse} (h : ∀ resp ∈ resps, resp.Sendable) {texts : List Bytes}
    (ht : resps.mapM HTTPResponse.text = some texts) : resps.length ≤ texts.flatten.length := by
  induction resps generalizing texts with
  | nil => exact Nat.zero_le _
  | cons resp resps ih =>
    obtain ⟨text, h1, texts, hts, rfl⟩ := mapM_text_cons ht
    have tail := ih (fun resp hm => h resp (List.mem_cons_of_mem _ hm)) hts
    have pos := List.length_pos_iff.2 ((h resp (by simp)).text_ne_nil h1)
    simp only [List.flatten_cons, List.length_append, List.length_cons]
    omega

/-- Every list of sendable responses has texts. -/
lemma mapM_text {resps : List HTTPResponse} (h : ∀ resp ∈ resps, resp.Sendable) :
    ∃ texts, resps.mapM HTTPResponse.text = some texts := by
  induction resps with
  | nil => exact ⟨[], rfl⟩
  | cons resp resps ih =>
    obtain ⟨texts, hts⟩ := ih fun resp hm => h resp (List.mem_cons_of_mem _ hm)
    exact ⟨_, by simp only [List.mapM_cons, (h resp (by simp)).text, hts]; rfl⟩

/-- The bytes in a buffer to which responses have been appended. -/
lemma foldlM_appendTo {B I : Type} [BufferType B I] [LawfulBuffer B I] {buffer : B}
    (hb : Fresh buffer ∨ Ready buffer) {resps : List HTTPResponse} {texts : List Bytes}
    (ht : resps.mapM HTTPResponse.text = some texts) :
    ∃ buffer', resps.foldlM HTTPResponse.appendTo buffer = some buffer' ∧
      unread buffer' = unread buffer ++ texts.flatten := by
  induction resps generalizing buffer texts with
  | nil =>
    obtain rfl : texts = [] := by simpa using ht.symm
    exact ⟨buffer, rfl, by simp⟩
  | cons resp resps ih =>
    obtain ⟨text, h1, texts, hts, rfl⟩ := mapM_text_cons ht
    obtain ⟨cb, hcb, rfl⟩ := Option.map_eq_some_iff.1 h1
    obtain ⟨b1, e1, rd1, un1⟩ := TCPConnection.foldlM_append hb cb.appends
    have ne : cb.appends ≠ [] := fun nil => cb.ne_nil (by rw [nil]; rfl)
    obtain ⟨b', e', un'⟩ := ih (.inr (rd1 ne)) hts
    have first : resp.appendTo buffer = some b1 := by
      simp only [HTTPResponse.appendTo, hcb, Option.bind_eq_bind, Option.bind_some, e1]
    refine ⟨b', ?_, ?_⟩
    · rw [List.foldlM_cons, first]
      exact e'
    · rw [un', un1, List.flatten_cons, List.append_assoc]

/-- Responses appended to a new buffer are read back by the stream reader, one by one. -/
lemma framing_spec {resps : List HTTPResponse} (sendable : ∀ resp ∈ resps, resp.Sendable)
    (keep : ∀ resp ∈ resps.dropLast, resp.close_connection_ = false)
    {B I : Type} [BufferType B I] [LawfulBuffer B I] :
    ∃ buffer : B, resps.foldlM HTTPResponse.appendTo BufferType.new = some buffer ∧
      readStream (unread buffer).length (unread buffer) = some (resps.map HTTPResponse.reading) := by
  obtain ⟨texts, ht⟩ := mapM_text sendable
  have fr : Fresh (BufferType.new : B) := fresh_new
  obtain ⟨buffer, e, un⟩ := foldlM_appendTo (.inl fr) ht
  rw [fresh_unread fr, List.nil_append] at un
  refine ⟨buffer, e, ?_⟩
  rw [un]
  exact readStream_texts sendable keep ht (length_le_texts sendable ht)

/-- The responses of a stream can be told from each other: whatever the bodies and the order of the headers, a reader
    gets back the status codes, versions, headers and bodies that were written, if only the last response closes the
    connection. The iterators of the linked buffer's deque are taken to survive `push_back`. -/
theorem framing_unambiguous {resps : List HTTPResponse} (sendable : ∀ resp ∈ resps, resp.Sendable)
    (keep : ∀ resp ∈ resps.dropLast, resp.close_connection_ = false) :
    (∃ buffer : Buffer, resps.foldlM HTTPResponse.appendTo BufferType.new = some buffer ∧
      readStream (unread buffer).length (unread buffer) = some (resps.map HTTPResponse.reading)) ∧
    (∃ buffer : LinkedBuffer, resps.foldlM HTTPResponse.appendTo BufferType.new = some buffer ∧
      readStream (unread buffer).length (unread buffer) = some (resps.map HTTPResponse.reading)) :=
  ⟨framing_spec sendable keep, framing_spec sendable keep⟩

/-- A response with a body that looks like the end of one response and the start of another, and one that
    closes the connection. -/
def lookalike : List HTTPResponse :=
  [{ HTTPResponse.new with
      status_code_ := .k200Ok
      headers_ := [(bytes "Server", bytes "web: server"), (bytes "Empty", [])]
      body_ := bytes "\r\n\r\nHTTP/1.0 404 Not Found\r\n" ++ [0] },
    HTTPServer.bad_request_resp_]

/-- A body that looks like a response is read back as a body. -/
theorem framing_unambiguous_lookalike :
    (∀ resp ∈ lookalike, resp.Sendable) ∧
      ∃ buffer : LinkedBuffer, lookalike.foldlM HTTPResponse.appendTo BufferType.new = some buffer ∧
        readStream (unread buffer).length (unread buffer) = some (lookalike.map HTTPResponse.reading) := by
  have sendable : ∀ resp ∈ lookalike, resp.Sendable := by
    simp only [lookalike, List.mem_cons, List.not_mem_nil, or_false, forall_eq_or_imp, forall_eq]
    exact ⟨⟨⟨by decide, by decide⟩, by decide, by decide, by decide⟩,
      ⟨⟨by decide, by decide⟩, by decide, by decide, by decide⟩⟩
  exact ⟨sendable, (framing_unambiguous sendable (by decide)).2⟩

end WebServer.Http
