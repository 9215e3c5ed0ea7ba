import WebServer.Http.Context

/-!
# Lines

What the parser does with one line, as functions on the bytes of the line: `readRequestLine`,
`readHeader` and `HTTPContext.readLine`. The lemmas `setMethod_spec` to `parseOneLine_spec` say that the
parser, which works on iterators into a buffer, computes them. They need a `\r\n` after the line: the
parser steps over the end of a line without a version and scans for spaces up to the `\r`.
-/

namespace WebServer.Http

open Net Lib RandomAccess

namespace HTTPRequest

/-- `setMethod` on the bytes of the range. -/
def readMethod (req : HTTPRequest) (word : Bytes) : Bool × HTTPRequest :=
  if gHttpMethods.idxOf word ≠ gHttpMethods.length then
    (true, { req with method_ := HttpMethod.ofIndex (gHttpMethods.idxOf word) })
  else
    (false, req)

/-- `setVersion` on the bytes of the range. -/
def readVersion (req : HTTPRequest) (s : Bytes) : Bool × HTTPRequest :=
  if searchIdx gHttpPrefix s = s.length then
    (false, req)
  else
    let http_version := s.drop (searchIdx gHttpPrefix s + gHttpPrefix.length)
    if gHttpVersions.idxOf http_version ≠ gHttpVersions.length then
      (true, { req with version_ := HttpVersion.ofIndex (gHttpVersions.idxOf http_version) })
    else
      (false, req)

/-- The part of `parseRequestLine` after the method. -/
def readURI (req : HTTPRequest) (uri : Bytes) : Bool × HTTPRequest :=
  let split := uri.idxOf (char '?')
  if split ≠ uri.length then
    let rest := uri.drop (split + 1)
    { req with path_ := uri.take split, query_ := rest.take (rest.idxOf (char ' ')) }.readVersion
      (rest.drop (rest.idxOf (char ' ') + 1))
  else
    { req with path_ := uri.take (uri.idxOf (char ' ')) }.readVersion
      (uri.drop (uri.idxOf (char ' ') + 1))

/-- `parseRequestLine` on the bytes of the line. -/
def readRequestLine (req : HTTPRequest) (line : Bytes) : Bool × HTTPRequest :=
  let split := line.idxOf (char ' ')
  if split = line.length then
    (false, req)
  else if (req.readMethod (line.take split)).1 then
    (req.readMethod (line.take split)).2.readURI (line.drop (split + 1))
  else
    (false, (req.readMethod (line.take split)).2)

/-- `parseHeader` on the bytes of the line. -/
def readHeader (req : HTTPRequest) (line : Bytes) : Bool × HTTPRequest :=
  let colon := line.idxOf (char ':')
  if colon = line.length then
    (false, req)
  else
    let value := (line.drop (colon + 1)).dropWhile (· = char ' ')
    (true, { req with headers_ := req.headers_.emplace (line.take colon) value })

end HTTPRequest

/-- `parseOneLine` on the bytes of the line. -/
def HTTPContext.readLine (ctx : HTTPContext) (line : Bytes) : Bool × HTTPContext :=
  match ctx.state_ with
  | .kExpectRequestLine =>
    let (ok, req) := ctx.request_.readRequestLine line
    (ok, ⟨if ok then .kExpectHeader else .kExpectRequestLine, req⟩)
  | .kExpectHeader =>
    if line = [] then
      (true, { ctx with state_ := if ctx.request_.expectBody then .kExpectBody else .kGotAll })
    else
      let (ok, req) := ctx.request_.readHeader line
      (ok, { ctx with request_ := req })
  | .kExpectBody => (true, { ctx with state_ := .kGotAll })
  | .kGotAll => (true, ctx)

/-! ## The parser on a line -/

section Spec

variable {B I : Type} [BufferType B I] {buff : B} {s : Bytes} {At : I → Nat → Prop} {p q : Nat}
  {start end_ : I} {req : HTTPRequest}

/-- `setMethod` reads the method of the range between its iterators. -/
lemma setMethod_spec (R : Represents buff s At) (hi : At start p) (he : At end_ q) (h : p ≤ q) :
    req.setMethod buff start end_ = some (req.readMethod (slice s p q)) := by
  simp only [HTTPRequest.setMethod, R.copyRange_spec hi he h, Option.bind_eq_bind, Option.bind_some,
    HTTPRequest.readMethod]
  split <;> rfl

/-- `setPath` stores the range between its iterators. -/
lemma setPath_spec (R : Represents buff s At) (hi : At start p) (he : At end_ q) (h : p ≤ q) :
    req.setPath buff start end_ = some (true, { req with path_ := slice s p q }) := by
  simp only [HTTPRequest.setPath, R.copyRange_spec hi he h, Option.bind_eq_bind, Option.bind_some]

/-- `setQuery` stores the range between its iterators. -/
lemma setQuery_spec (R : Represents buff s At) (hi : At start p) (he : At end_ q) (h : p ≤ q) :
    req.setQuery buff start end_ = some (true, { req with query_ := slice s p q }) := by
  simp only [HTTPRequest.setQuery, R.copyRange_spec hi he h, Option.bind_eq_bind, Option.bind_some]

/-- The range of the version may start one past its end. -/
lemma setVersion_spec (R : Represents buff s At) (hi : At start p) (he : At end_ q)
    (h : p ≤ q + 1) : req.setVersion buff start end_ = some (req.readVersion (slice s p q)) := by
  rcases Nat.lt_or_ge q p with lt | le
  · have emp : slice s p q = [] := by
      simp [slice, show q - p = 0 from by omega]
    rw [emp]
    simp only [HTTPRequest.setVersion, R.search_inverted hi he lt, Option.bind_eq_bind,
      Option.bind_some]
    rw [if_pos ((R.same he he).2 rfl)]
    rfl
  · obtain ⟨iter, e, hiter⟩ :
        ∃ j, search buff start end_ gHttpPrefix = some j ∧ _ := R.search_spec hi he le
    have len := slice_length (R.bound he) (p := p)
    simp only [HTTPRequest.setVersion, e, Option.bind_eq_bind, Option.bind_some,
      HTTPRequest.readVersion]
    by_cases emp : searchIdx gHttpPrefix (slice s p q) = (slice s p q).length
    · rw [if_pos emp, if_pos ((R.same hiter he).2 (by omega))]
    · rw [if_neg emp, if_neg (fun hs => emp (by have := (R.same hiter he).1 hs; omega))]
      have fits := searchIdx_found (Nat.lt_of_le_of_ne searchIdx_le emp)
      have hb := R.bound he
      obtain ⟨v, ev, hv⟩ := R.plus hiter (n := gHttpPrefix.length) (by omega) (by decide)
      simp only [ev, Option.bind_some, R.copyRange_spec hv he (by omega), slice_drop]
      rw [Nat.add_assoc]
      split <;> rfl

/-- `setHeader` stores the key before the colon, and the value after it without leading spaces. -/
lemma setHeader_spec (R : Represents buff s At) {c colon} (hi : At start p) (hc : At colon c)
    (he : At end_ q) (hpc : p ≤ c) (hcq : c < q) (hq : q < s.length) (cr : s[q] ≠ char ' ') :
    req.setHeader buff start colon end_ = some (true, { req with
      headers_ := req.headers_.emplace (slice s p c)
        ((slice s (c + 1) q).dropWhile (· = char ' ')) }) := by
  obtain ⟨v, ev, hv⟩ := R.next hc (by omega)
  obtain ⟨v', ev', hv'⟩ := R.skipWhile_spec hv hq cr hcq
  have len := slice_length (R.bound he) (p := c + 1)
  have tw := (List.takeWhile_sublist (l := slice s (c + 1) q) (· = char ' ')).length_le
  simp only [HTTPRequest.setHeader, R.copyRange_spec hi hc hpc, ev, ev',
    R.skipWhileBack_spec he hq cr, R.copyRange_spec hv' he (by omega), Option.bind_eq_bind,
    Option.bind_some]
  rw [← slice_drop, drop_takeWhile]

/-- `parseHeader` reads the range between its iterators as `readHeader` reads the bytes. -/
lemma parseHeader_spec (R : Represents buff s At) (hi : At start p) (he : At end_ q) (h : p ≤ q)
    (hq : q < s.length) (cr : s[q] ≠ char ' ') :
    HTTPContext.parseHeader req buff start end_ = some (req.readHeader (slice s p q)) := by
  obtain ⟨colon, e, hc⟩ :
    ∃ j, find buff start end_ (char ':') = some j ∧ _ := R.find_spec hi he h
  have len := slice_length (R.bound he) (p := p)
  simp only [HTTPContext.parseHeader, e, Option.bind_eq_bind, Option.bind_some,
    HTTPRequest.readHeader]
  by_cases emp : (slice s p q).idxOf (char ':') = (slice s p q).length
  · rw [if_pos emp, if_pos ((R.same hc he).2 (by omega))]
  · have lt := Nat.lt_of_le_of_ne List.idxOf_le_length emp
    rw [if_neg emp, if_neg (fun hs => emp (by have := (R.same hc he).1 hs; omega)),
      setHeader_spec R hi hc he (by omega) (by omega) hq cr, slice_take (by omega), slice_drop,
      Nat.add_assoc]

/-- `parseURI` reads the range between its iterators as `readURI` reads the bytes. -/
lemma parseURI_spec (R : Represents buff s At) (hi : At start p) (he : At end_ q) (h : p ≤ q)
    (hq : q < s.length) :
    HTTPContext.parseURI req buff start end_ = some (req.readURI (slice s p q)) := by
  obtain ⟨split, e, hs⟩ :
    ∃ j, find buff start end_ (char '?') = some j ∧ _ := R.find_spec hi he h
  have len := slice_length (R.bound he) (p := p)
  have le := List.idxOf_le_length (l := slice s p q) (a := char '?')
  simp only [HTTPContext.parseURI, e, Option.bind_eq_bind, Option.bind_some, HTTPRequest.readURI]
  by_cases emp : (slice s p q).idxOf (char '?') = (slice s p q).length
  · -- without a query the path ends at the space
    have sm : same buff split end_ = true := (R.same hs he).2 (by omega)
    obtain ⟨sp, e1, h1⟩ :
      ∃ j, find buff start end_ (char ' ') = some j ∧ _ := R.find_spec hi he h
    have le1 := List.idxOf_le_length (l := slice s p q) (a := char ' ')
    obtain ⟨v, e2, h2⟩ := R.plus h1 (n := 1) (by omega) (by omega)
    rw [Nat.cast_one] at e2
    rw [if_neg (not_not.2 emp), slice_take (by omega), slice_drop]
    simp only [sm, Bool.not_true, Bool.false_eq_true, if_false, e1, e2,
      setPath_spec R hi h1 (by omega), setVersion_spec R h2 he (by omega), Option.bind_some]
    rw [Nat.add_assoc]
  · -- the path ends at the question mark and the query at the space
    have sm : same buff split end_ = false := by
      rw [Bool.eq_false_iff]
      exact fun hs' => emp (by have := (R.same hs he).1 hs'; omega)
    obtain ⟨q1, e1, h1⟩ := R.plus hs (n := 1) (by omega) (by omega)
    rw [Nat.cast_one] at e1
    obtain ⟨sp, e2, h2⟩ :
      ∃ j, find buff q1 end_ (char ' ') = some j ∧ _ := R.find_spec h1 he (by omega)
    have len1 := slice_length (R.bound he) (p := p + (slice s p q).idxOf (char '?') + 1)
    have le2 := List.idxOf_le_length (a := char ' ')
      (l := slice s (p + (slice s p q).idxOf (char '?') + 1) q)
    obtain ⟨v, e3, h3⟩ := R.plus h2 (n := 1) (by omega) (by omega)
    rw [Nat.cast_one] at e3
    rw [if_pos emp, slice_take (by omega), slice_drop, ← Nat.add_assoc, slice_take (by omega),
      slice_drop]
    simp only [sm, Bool.not_false, if_true, e1, e2, e3, setPath_spec R hi hs (by omega),
      setQuery_spec R h1 h2 (by omega), setVersion_spec R h3 he (by omega), Option.bind_some]
    simp only [Nat.add_assoc]

/-- `parseRequestLine` reads its range as `readRequestLine` reads the bytes. -/
lemma parseRequestLine_spec (R : Represents buff s At) (hi : At start p) (he : At end_ q)
    (h : p ≤ q) (hq : q < s.length) :
    HTTPContext.parseRequestLine req buff start end_ = some (req.readRequestLine (slice s p q)) := by
  obtain ⟨split, e, hs⟩ :
    ∃ j, find buff start end_ (char ' ') = some j ∧ _ := R.find_spec hi he h
  have len := slice_length (R.bound he) (p := p)
  have le := List.idxOf_le_length (l := slice s p q) (a := char ' ')
  simp only [HTTPContext.parseRequestLine, e, Option.bind_eq_bind, Option.bind_some,
    HTTPRequest.readRequestLine]
  by_cases emp : (slice s p q).idxOf (char ' ') = (slice s p q).length
  · rw [if_pos emp, if_pos ((R.same hs he).2 (by omega))]
  · rw [if_neg emp, if_neg (fun hs' => emp (by have := (R.same hs he).1 hs'; omega)),
      setMethod_spec R hi hs (by omega), slice_take (by omega), slice_drop]
    obtain ⟨u, e1, h1⟩ := R.plus hs (n := 1) (by omega) (by omega)
    rw [Nat.cast_one] at e1
    obtain ⟨ok, req'⟩ := req.readMethod (slice s p (p + (slice s p q).idxOf (char ' ')))
    cases ok with
    | false => rfl
    | true =>
      simp only [Option.bind_some, e1, parseURI_spec R h1 he (by omega) hq, Nat.add_assoc]
      rfl

/-- `parseOneLine` on a range of the buffer is `readLine` on the bytes of the range. -/
lemma parseOneLine_spec (R : Represents buff s At) {ctx : HTTPContext} (hi : At start p)
    (he : At end_ q) (h : p ≤ q) (hq : q < s.length) (cr : s[q] ≠ char ' ') :
    ctx.parseOneLine buff start end_ = some (ctx.readLine (slice s p q)) := by
  obtain ⟨state, req⟩ := ctx
  cases state with
  | kExpectRequestLine =>
    simp only [HTTPContext.parseOneLine, HTTPContext.readLine, parseRequestLine_spec R hi he h hq,
      Option.bind_eq_bind, Option.bind_some]
    obtain ⟨ok, req'⟩ := req.readRequestLine (slice s p q)
    cases ok with
    | false => rfl
    | true => rfl
  | kExpectHeader =>
    have len := slice_length (R.bound he) (p := p)
    simp only [HTTPContext.parseOneLine, HTTPContext.readLine]
    by_cases emp : p = q
    · have nil : slice s p q = [] := List.length_eq_zero_iff.1 (by omega)
      rw [if_pos ((R.same hi he).2 emp), if_pos nil]
    · have ne : slice s p q ≠ [] := List.length_pos_iff.1 (by omega)
      rw [if_neg (fun hs => emp ((R.same hi he).1 hs)), if_neg ne,
        parseHeader_spec R hi he h hq cr]
      rfl
  | kExpectBody => rfl
  | kGotAll => rfl

end Spec

end WebServer.Http
