import WebServer.Http.RequestLine
import WebServer.Lib.Traced

/-!
# The ranges the parser passes on

The functions below `parseOneLine` hand iterator ranges into the line to `std::find`, `std::search` and the
constructor and `assign` of strings. Here they are written once more with these calls recorded; forgetting
the record gives back the parser (`Ranges.parseOneLine_value`). The searches in the tables of methods and
versions are not ranges of the line and are not recorded.

All recorded ranges lie within the line and run forwards, but for one: when no space follows the target,
`split + 1` is one past the end of the line, and `setVersion` searches from there back to the end
(`parseOneLine_ranges`).
-/

namespace WebServer.Http

open Net Lib

namespace Ranges

variable {B I : Type} [BufferType B I] (req : HTTPRequest) (buff : B)

/-- `std::find(first, last, v)` -/
def find (first last : I) (v : UInt8) : Traced (I × I) I :=
  .record (first, last) (Lib.find buff first last v)

/-- `std::search(first, last, pat.begin(), pat.end())` -/
def search (first last : I) (pat : Bytes) : Traced (I × I) I :=
  .record (first, last) (Lib.search buff first last pat)

/-- `std::string(first, last)` and `assign(first, last)` -/
def copyRange (first last : I) : Traced (I × I) Bytes :=
  .record (first, last) (Lib.copyRange buff first last)

def setMethod (start end_ : I) : Traced (I × I) (Bool × HTTPRequest) := do
  let method_str ← copyRange buff start end_
  let iter := gHttpMethods.idxOf method_str
  if iter ≠ gHttpMethods.length then
    pure (true, { req with method_ := HttpMethod.ofIndex iter })
  else
    pure (false, req)

def setVersion (start end_ : I) : Traced (I × I) (Bool × HTTPRequest) := do
  let iter ← search buff start end_ gHttpPrefix
  if RandomAccess.same buff iter end_ then
    pure (false, req)
  else
    let from_ ← .lift (RandomAccess.plus buff iter gHttpPrefix.length)
    let http_version ← copyRange buff from_ end_
    let iter_v := gHttpVersions.idxOf http_version
    if iter_v ≠ gHttpVersions.length then
      pure (true, { req with version_ := HttpVersion.ofIndex iter_v })
    else
      pure (false, req)

def setPath (start end_ : I) : Traced (I × I) (Bool × HTTPRequest) := do
  let path ← copyRange buff start end_
  pure (true, { req with path_ := path })

def setQuery (start end_ : I) : Traced (I × I) (Bool × HTTPRequest) := do
  let query ← copyRange buff start end_
  pure (true, { req with query_ := query })

def setHeader (start colon end_ : I) : Traced (I × I) (Bool × HTTPRequest) := do
  let key ← copyRange buff start colon
  let colon ← .lift (RandomAccess.next buff colon)
  let colon ← .lift (skipWhile buff (char ' ') colon)
  let end_ ← .lift (skipWhileBack buff (char ' ') end_)
  let value ← copyRange buff colon end_
  pure (true, { req with headers_ := req.headers_.emplace key value })

def parseURI (start end_ : I) : Traced (I × I) (Bool × HTTPRequest) := do
  let split ← find buff start end_ (char '?')
  if !RandomAccess.same buff split end_ then
    let (_, req) ← setPath req buff start split
    let start ← .lift (RandomAccess.plus buff split 1)
    let split ← find buff start end_ (char ' ')
    let (_, req) ← setQuery req buff start split
    let start ← .lift (RandomAccess.plus buff split 1)
    setVersion req buff start end_
  else
    let split ← find buff start end_ (char ' ')
    let (_, req) ← setPath req buff start split
    let start ← .lift (RandomAccess.plus buff split 1)
    setVersion req buff start end_

def parseRequestLine (start end_ : I) : Traced (I × I) (Bool × HTTPRequest) := do
  let split ← find buff start end_ (char ' ')
  if RandomAccess.same buff split end_ then
    pure (false, req)
  else
    let (ok, req) ← setMethod req buff start split
    if !ok then
      pure (false, req)
    else
      let start ← .lift (RandomAccess.plus buff split 1)
      parseURI req buff start end_

def parseHeader (start end_ : I) : Traced (I × I) (Bool × HTTPRequest) := do
  let colon ← find buff start end_ (char ':')
  if RandomAccess.same buff colon end_ then
    pure (false, req)
  else
    setHeader req buff start colon end_

def parseOneLine (ctx : HTTPContext) (start end_ : I) : Traced (I × I) (Bool × HTTPContext) :=
  match ctx.state_ with
  | .kExpectRequestLine => do
    let (ok, req) ← parseRequestLine ctx.request_ buff start end_
    if !ok then
      pure (false, { ctx with request_ := req })
    else
      pure (true, ⟨.kExpectHeader, req⟩)
  | .kExpectHeader =>
    if RandomAccess.same buff start end_ then
      pure (true, { ctx with
        state_ := if ctx.request_.expectBody then .kExpectBody else .kGotAll })
    else do
      let (ok, req) ← parseHeader ctx.request_ buff start end_
      pure (ok, { ctx with request_ := req })
  | .kExpectBody => pure (true, { ctx with state_ := .kGotAll })
  | .kGotAll => pure (true, ctx)

/-! ## Erasure -/

variable {req buff} {start colon end_ : I}

@[simp] lemma find_value {v : UInt8} :
    (find buff start end_ v).value = Lib.find buff start end_ v := rfl

@[simp] lemma search_value {pat : Bytes} :
    (search buff start end_ pat).value = Lib.search buff start end_ pat := rfl

@[simp] lemma copyRange_value : (copyRange buff start end_).value = Lib.copyRange buff start end_ := rfl

@[simp] lemma setMethod_value : (setMethod req buff start end_).value = req.setMethod buff start end_ := by
  simp [setMethod, HTTPRequest.setMethod]

@[simp] lemma setVersion_value :
    (setVersion req buff start end_).value = req.setVersion buff start end_ := by
  simp [setVersion, HTTPRequest.setVersion]

@[simp] lemma setPath_value : (setPath req buff start end_).value = req.setPath buff start end_ := by
  simp [setPath, HTTPRequest.setPath]

@[simp] lemma setQuery_value : (setQuery req buff start end_).value = req.setQuery buff start end_ := by
  simp [setQuery, HTTPRequest.setQuery]

@[simp] lemma setHeader_value :
    (setHeader req buff start colon end_).value = req.setHeader buff start colon end_ := by
  simp [setHeader, HTTPRequest.setHeader]

@[simp] lemma parseURI_value :
    (parseURI req buff start end_).value = HTTPContext.parseURI req buff start end_ := by
  simp [parseURI, HTTPContext.parseURI]

@[simp] lemma parseRequestLine_value :
    (parseRequestLine req buff start end_).value = HTTPContext.parseRequestLine req buff start end_ := by
  simp [parseRequestLine, HTTPContext.parseRequestLine]

@[simp] lemma parseHeader_value :
    (parseHeader req buff start end_).value = HTTPContext.parseHeader req buff start end_ := by
  simp [parseHeader, HTTPContext.parseHeader]

/-- Without the record it is the parser. -/
lemma parseOneLine_value {ctx : HTTPContext} :
    (parseOneLine buff ctx start end_).value = ctx.parseOneLine buff start end_ := by
  obtain ⟨state, req⟩ := ctx
  cases state with
  | kExpectRequestLine => simp [parseOneLine, HTTPContext.parseOneLine]
  | kExpectHeader => simp [parseOneLine, HTTPContext.parseOneLine]
  | kExpectBody => rfl
  | kGotAll => rfl

/-! ## Where the ranges lie -/

/-- The range runs forwards and ends at position `n` at the latest. -/
def Within (At : I → Nat → Prop) (n : Nat) (range : I × I) : Prop :=
  ∃ p q, At range.1 p ∧ At range.2 q ∧ p ≤ q ∧ q ≤ n

section Spec

variable {s : Bytes} {At : I → Nat → Prop} {p q n c : Nat}

/-- A range of the buffer is within bounds when its ends are in order and the second is. -/
lemma within_iff (R : Represents buff s At) (hi : At start p) (he : At end_ q) :
    Within At n (start, end_) ↔ p ≤ q ∧ q ≤ n := by
  constructor
  · rintro ⟨p', q', hi', he', h⟩
    -- an iterator is at one position only
    have ep : p' = p := (R.same hi' hi).1 ((R.same hi hi).2 rfl)
    have eq : q' = q := (R.same he' he).1 ((R.same he he).2 rfl)
    rwa [ep, eq] at h
  · intro h
    exact ⟨p, q, hi, he, h⟩

/-- Copying a range between ordered positions stays within the bounds. -/
lemma copyRange_within (R : Represents buff s At) (hi : At start p) (he : At end_ q) (h : p ≤ q)
    (hq : q ≤ n) : (copyRange buff start end_).All (Within At n) :=
  Traced.all_record.2 ((within_iff R hi he).2 ⟨h, hq⟩)

/-- Searching a range between ordered positions stays within the bounds. -/
lemma find_within (R : Represents buff s At) {v : UInt8} (hi : At start p) (he : At end_ q) (h : p ≤ q)
    (hq : q ≤ n) : (find buff start end_ v).All (Within At n) :=
  Traced.all_record.2 ((within_iff R hi he).2 ⟨h, hq⟩)

/-- The version is searched for in one range and read from another one inside it. -/
lemma setVersion_within (R : Represents buff s At) (hi : At start p) (he : At end_ q) (hq : q ≤ n) :
    (setVersion req buff start end_).All (Within At n) ↔ p ≤ q := by
  rcases Nat.lt_or_ge q p with lt | le
  · refine iff_of_false (fun all => ?_) (Nat.not_le.2 lt)
    rw [setVersion, Traced.all_bind (R.search_inverted hi he lt)] at all
    exact Nat.not_le.2 lt ((within_iff R hi he).1 (Traced.all_record.1 all.1)).1
  · obtain ⟨iter, e, hiter⟩ :
      ∃ j, Lib.search buff start end_ gHttpPrefix = some j ∧ _ := R.search_spec hi he le
    have len := slice_length (R.bound he) (p := p)
    refine iff_of_true ?_ le
    rw [setVersion, Traced.all_bind e]
    refine ⟨Traced.all_record.2 ((within_iff R hi he).2 ⟨le, hq⟩), ?_⟩
    split
    · exact Traced.all_pure _
    case isFalse ne =>
      have lt : searchIdx gHttpPrefix (slice s p q) < (slice s p q).length := by
        refine Nat.lt_of_le_of_ne searchIdx_le fun eq => ne ?_
        exact (R.same hiter he).2 (by omega)
      have fits := searchIdx_found lt
      have hb := R.bound he
      obtain ⟨v, ev, hv⟩ := R.plus hiter (n := gHttpPrefix.length) (by omega) (by decide)
      have le' : p + searchIdx gHttpPrefix (slice s p q) + gHttpPrefix.length ≤ q := by omega
      rw [Traced.all_bind ev, Traced.all_bind (R.copyRange_spec hv he le')]
      refine ⟨Traced.all_lift _, copyRange_within R hv he le' hq, ?_⟩
      dsimp only
      split
      · exact Traced.all_pure _
      · exact Traced.all_pure _

/-- `setMethod` stays within the bounds. -/
lemma setMethod_within (R : Represents buff s At) (hi : At start p) (he : At end_ q) (h : p ≤ q)
    (hq : q ≤ n) : (setMethod req buff start end_).All (Within At n) := by
  rw [setMethod, Traced.all_bind (R.copyRange_spec hi he h)]
  refine ⟨copyRange_within R hi he h hq, ?_⟩
  dsimp only
  split
  · exact Traced.all_pure _
  · exact Traced.all_pure _

/-- `setPath` stays within the bounds. -/
lemma setPath_within (R : Represents buff s At) (hi : At start p) (he : At end_ q) (h : p ≤ q)
    (hq : q ≤ n) : (setPath req buff start end_).All (Within At n) := by
  rw [setPath, Traced.all_bind (R.copyRange_spec hi he h)]
  exact ⟨copyRange_within R hi he h hq, Traced.all_pure _⟩

/-- `setQuery` stays within the bounds. -/
lemma setQuery_within (R : Represents buff s At) (hi : At start p) (he : At end_ q) (h : p ≤ q)
    (hq : q ≤ n) : (setQuery req buff start end_).All (Within At n) := by
  rw [setQuery, Traced.all_bind (R.copyRange_spec hi he h)]
  exact ⟨copyRange_within R hi he h hq, Traced.all_pure _⟩

/-- The scan over the spaces before a value ends at the `\r` at the latest. -/
lemma setHeader_within (R : Represents buff s At) (hi : At start p) (hc : At colon c) (he : At end_ q)
    (hpc : p ≤ c) (hcq : c < q) (hs : q < s.length) (cr : s[q] ≠ char ' ') (hq : q ≤ n) :
    (setHeader req buff start colon end_).All (Within At n) := by
  obtain ⟨v, ev, hv⟩ := R.next hc (by omega)
  obtain ⟨v', ev', hv'⟩ := R.skipWhile_spec hv hs cr hcq
  have len := slice_length (R.bound he) (p := c + 1)
  have tw := (List.takeWhile_sublist (l := slice s (c + 1) q) (· = char ' ')).length_le
  have le : c + 1 + ((slice s (c + 1) q).takeWhile (· = char ' ')).length ≤ q := by omega
  rw [setHeader, Traced.all_bind (R.copyRange_spec hi hc hpc), Traced.all_bind ev,
    Traced.all_bind ev', Traced.all_bind (R.skipWhileBack_spec he hs cr),
    Traced.all_bind (R.copyRange_spec hv' he le)]
  exact ⟨copyRange_within R hi hc hpc (by omega), Traced.all_lift _, Traced.all_lift _,
    Traced.all_lift _, copyRange_within R hv' he le hq, Traced.all_pure _⟩

/-- `parseHeader` stays within the bounds. -/
lemma parseHeader_within (R : Represents buff s At) (hi : At start p) (he : At end_ q) (h : p ≤ q)
    (hs : q < s.length) (cr : s[q] ≠ char ' ') (hq : q ≤ n) :
    (parseHeader req buff start end_).All (Within At n) := by
  obtain ⟨colon, e, hc⟩ :
    ∃ j, Lib.find buff start end_ (char ':') = some j ∧ _ := R.find_spec hi he h
  have len := slice_length (R.bound he) (p := p)
  have le := List.idxOf_le_length (l := slice s p q) (a := char ':')
  rw [parseHeader, Traced.all_bind e]
  refine ⟨find_within R hi he h hq, ?_⟩
  split
  · exact Traced.all_pure _
  case isFalse ne =>
    have ne' : (slice s p q).idxOf (char ':') ≠ (slice s p q).length := fun eq =>
      ne ((R.same hc he).2 (by omega))
    exact setHeader_within R hi hc he (by omega) (by omega) hs cr hq

/-- The space after the target, as the parser looks for it: after the first `?` if there is one. -/
def HasSpace (uri : Bytes) : Prop :=
  char ' ' ∈ if char '?' ∈ uri then uri.drop (uri.idxOf (char '?') + 1) else uri

/-- `split + 1` is not after the end if and only if the space was found. -/
lemma split_le_iff (h : p ≤ q) (hs : q ≤ s.length) :
    p + (slice s p q).idxOf (char ' ') + 1 ≤ q ↔ char ' ' ∈ slice s p q := by
  have len := slice_length hs (p := p)
  rw [← List.idxOf_lt_length_iff]
  omega

/-- `parseURI` stays within the bounds exactly when the uri has a space. -/
lemma parseURI_within (R : Represents buff s At) (hi : At start p) (he : At end_ q) (h : p ≤ q)
    (hs : q < s.length) (hq : q ≤ n) :
    (parseURI req buff start end_).All (Within At n) ↔ HasSpace (slice s p q) := by
  obtain ⟨split, e, hsp⟩ :
    ∃ j, Lib.find buff start end_ (char '?') = some j ∧ _ := R.find_spec hi he h
  have len := slice_length (R.bound he) (p := p)
  have le := List.idxOf_le_length (l := slice s p q) (a := char '?')
  rw [parseURI, Traced.all_bind e, and_iff_right (find_within R hi he h hq), HasSpace]
  by_cases mem : char '?' ∈ slice s p q
  · have lt := List.idxOf_lt_length_iff.2 mem
    have sm : RandomAccess.same buff split end_ = false := by
      rw [Bool.eq_false_iff]
      exact fun hs' => lt.ne (by have := (R.same hsp he).1 hs'; omega)
    obtain ⟨q1, e1, h1⟩ := R.plus hsp (n := 1) (by omega) (by omega)
    rw [Nat.cast_one] at e1
    obtain ⟨sp, e2, h2⟩ :
      ∃ j, Lib.find buff q1 end_ (char ' ') = some j ∧ _ := R.find_spec h1 he (by omega)
    have len1 := slice_length (R.bound he) (p := p + (slice s p q).idxOf (char '?') + 1)
    have le1 := List.idxOf_le_length (a := char ' ')
      (l := slice s (p + (slice s p q).idxOf (char '?') + 1) q)
    obtain ⟨v, e3, h3⟩ := R.plus h2 (n := 1) (by omega) (by omega)
    rw [Nat.cast_one] at e3
    rw [if_pos (by rw [sm]; rfl), if_pos mem, slice_drop, ← Nat.add_assoc,
      Traced.all_bind (setPath_value.trans (setPath_spec R hi hsp (by omega))),
      Traced.all_bind e1, Traced.all_bind e2,
      Traced.all_bind (setQuery_value.trans (setQuery_spec R h1 h2 (by omega))),
      Traced.all_bind e3, setVersion_within R h3 he hq, ← split_le_iff (by omega) (R.bound he),
      and_iff_right (setPath_within R hi hsp (by omega) (by omega)),
      and_iff_right (Traced.all_lift _), and_iff_right (find_within R h1 he (by omega) hq),
      and_iff_right (setQuery_within R h1 h2 (by omega) (by omega)),
      and_iff_right (Traced.all_lift _)]
  · have emp := List.idxOf_eq_length mem
    have sm : RandomAccess.same buff split end_ = true := (R.same hsp he).2 (by omega)
    obtain ⟨sp, e1, h1⟩ :
      ∃ j, Lib.find buff start end_ (char ' ') = some j ∧ _ := R.find_spec hi he h
    have le1 := List.idxOf_le_length (l := slice s p q) (a := char ' ')
    obtain ⟨v, e2, h2⟩ := R.plus h1 (n := 1) (by omega) (by omega)
    rw [Nat.cast_one] at e2
    rw [if_neg (by rw [sm]; decide), if_neg mem, Traced.all_bind e1,
      Traced.all_bind (setPath_value.trans (setPath_spec R hi h1 (by omega))),
      Traced.all_bind e2, setVersion_within R h2 he hq, ← split_le_iff h (R.bound he),
      and_iff_right (find_within R hi he h hq),
      and_iff_right (setPath_within R hi h1 (by omega) (by omega)),
      and_iff_right (Traced.all_lift _)]

/-- `parseRequestLine` stays within them exactly when a known method has a uri with a space. -/
lemma parseRequestLine_within (R : Represents buff s At) (hi : At start p) (he : At end_ q) (h : p ≤ q)
    (hs : q < s.length) (hq : q ≤ n) :
    (parseRequestLine req buff start end_).All (Within At n) ↔
      ∀ method uri, slice s p q = method ++ char ' ' :: uri → method ∈ gHttpMethods → HasSpace uri := by
  obtain ⟨split, e, hsp⟩ :
    ∃ j, Lib.find buff start end_ (char ' ') = some j ∧ _ := R.find_spec hi he h
  have len := slice_length (R.bound he) (p := p)
  have le := List.idxOf_le_length (l := slice s p q) (a := char ' ')
  rw [parseRequestLine, Traced.all_bind e, and_iff_right (find_within R hi he h hq)]
  by_cases mem : char ' ' ∈ slice s p q
  · have lt := List.idxOf_lt_length_iff.2 mem
    have sm : ¬RandomAccess.same buff split end_ = true := fun hs' =>
      lt.ne (by have := (R.same hsp he).1 hs'; omega)
    obtain ⟨u, e1, h1⟩ := R.plus hsp (n := 1) (by omega) (by omega)
    rw [Nat.cast_one] at e1
    obtain ⟨method, uri, eq, hm⟩ := List.eq_append_cons_of_mem mem
    have em : slice s p (p + (slice s p q).idxOf (char ' ')) = method := by
      rw [← @slice_take _ s p q _ (by omega), eq, take_sep hm]
    have eu : slice s (p + (slice s p q).idxOf (char ' ') + 1) q = uri := by
      rw [Nat.add_assoc, ← slice_drop, eq, drop_sep hm]
    have value : (setMethod req buff start split).value = _ :=
      setMethod_value.trans (setMethod_spec R hi hsp (by omega))
    rw [if_neg sm, Traced.all_bind value, em,
      and_iff_right (setMethod_within R hi hsp (by omega) (by omega))]
    have known := req.readMethod_accepts (s := method)
    generalize req.readMethod method = res at known ⊢
    obtain ⟨ok, req'⟩ := res
    cases ok with
    | false =>
      refine iff_of_true (Traced.all_pure _) fun method' uri' e' hm' => ?_
      obtain ⟨rfl, rfl⟩ := sep_inj hm (gHttpMethods_space hm') (eq.symm.trans e')
      exact absurd (known.2 hm') Bool.false_ne_true
    | true =>
      have step : Traced.All (Within At n) (.lift (RandomAccess.plus buff split 1) >>=
          fun start => parseURI req' buff start end_) ↔ HasSpace uri := by
        rw [Traced.all_bind e1, and_iff_right (Traced.all_lift _),
          parseURI_within R h1 he (by omega) hs hq, eu]
      refine step.trans ⟨fun h method' uri' e' hm' => ?_, fun h => h method uri eq (known.1 rfl)⟩
      obtain ⟨rfl, rfl⟩ := sep_inj hm (gHttpMethods_space hm') (eq.symm.trans e')
      exact h
  · have sm : RandomAccess.same buff split end_ = true :=
      (R.same hsp he).2 (by have := List.idxOf_eq_length mem; omega)
    rw [if_pos sm]
    refine iff_of_true (Traced.all_pure _) fun method uri eq _ => ?_
    rw [eq] at mem
    exact absurd (by simp) mem

/-- Only the state of the request line has a range out of order, and only without a space after the
    target. -/
lemma parseOneLine_within (R : Represents buff s At) {ctx : HTTPContext} (hi : At start p)
    (he : At end_ q) (h : p ≤ q) (hs : q < s.length) (cr : s[q] ≠ char ' ') (hq : q ≤ n) :
    (parseOneLine buff ctx start end_).All (Within At n) ↔
      (ctx.state_ = .kExpectRequestLine → ∀ method uri, slice s p q = method ++ char ' ' :: uri →
        method ∈ gHttpMethods → HasSpace uri) := by
  obtain ⟨state, req⟩ := ctx
  cases state with
  | kExpectRequestLine =>
    have value : (parseRequestLine req buff start end_).value = _ :=
      parseRequestLine_value.trans (parseRequestLine_spec R hi he h hs)
    rw [parseOneLine, Traced.all_bind value, parseRequestLine_within R hi he h hs hq]
    refine (and_iff_left ?_).trans ⟨fun h _ => h, fun h => h rfl⟩
    obtain ⟨ok, req'⟩ := req.readRequestLine (slice s p q)
    cases ok with
    | false => exact Traced.all_pure _
    | true => exact Traced.all_pure _
  | kExpectHeader =>
    refine iff_of_true ?_ (fun e => by cases e)
    simp only [parseOneLine]
    split
    · exact Traced.all_pure _
    · have value : (parseHeader req buff start end_).value = _ :=
        parseHeader_value.trans (parseHeader_spec R hi he h hs cr)
      rw [Traced.all_bind value]
      exact ⟨parseHeader_within R hi he h hs cr hq, Traced.all_pure _⟩
  | kExpectBody => exact iff_of_true (Traced.all_pure _) (fun e => by cases e)
  | kGotAll => exact iff_of_true (Traced.all_pure _) (fun e => by cases e)

end Spec

/-- A request line that ends in its target: there is a method, and no space after the path, or after the
    query that follows the first `?`. -/
inductive Unfinished : Bytes → Prop where
  | path {method path} :
    method ∈ gHttpMethods →
    char '?' ∉ path →
    char ' ' ∉ path →
    Unfinished (method ++ char ' ' :: path)
  | query {method path query} :
    method ∈ gHttpMethods →
    char '?' ∉ path →
    char ' ' ∉ query →
    Unfinished (method ++ char ' ' :: (path ++ char '?' :: query))

/-- A space after every uri of a known method is what an unfinished line lacks. -/
lemma hasSpace_iff {line : Bytes} :
    (∀ method uri, line = method ++ char ' ' :: uri → method ∈ gHttpMethods → HasSpace uri) ↔
      ¬Unfinished line := by
  constructor
  · intro h unf
    cases unf with
    | path hm hp hs =>
      have sp := h _ _ rfl hm
      rw [HasSpace, if_neg hp] at sp
      exact hs sp
    | query hm hp hs =>
      have sp := h _ _ rfl hm
      rw [HasSpace, if_pos (by simp), drop_sep hp] at sp
      exact hs sp
  · rintro h method uri rfl hm
    by_contra sp
    rw [HasSpace] at sp
    split at sp
    case isTrue mem =>
      obtain ⟨path, query, rfl, hp⟩ := List.eq_append_cons_of_mem mem
      rw [drop_sep hp] at sp
      exact h (.query hm hp sp)
    case isFalse nm => exact h (.path hm nm sp)

/-- The ranges of a line that `parseRequest` hands over, with positions counted from the reader. -/
lemma ranges_iff [LawfulBuffer B I] {b : B} {line : Bytes} {ctx : HTTPContext}
    (h : LineAt b line start end_) :
    (parseOneLine b ctx start end_).All (Within (LawfulBuffer.At b) line.length) ↔
      ¬(ctx.state_ = .kExpectRequestLine ∧ Unfinished line) := by
  obtain ⟨rest, fl⟩ := h.first
  rw [parseOneLine_within (LawfulBuffer.represents h.parsable) h.at_start h.at_end_ (Nat.zero_le _) h.lt
    (fl.cr h.lt) (Nat.le_refl _), h.slice, hasSpace_iff, not_and]

end Ranges

/-- On every line in either buffer type and in every state, the ranges the parser passes on run forwards within the
    line if and only if it is not a request line that ends in its target. Without the record the recording parser is
    the parser. The iterators of the linked buffer are taken to be valid. -/
theorem parseOneLine_ranges (ctx : HTTPContext) (line : Bytes) :
    (∀ (b : Buffer) (start end_ : Nat), LineAt b line start end_ →
      (Ranges.parseOneLine b ctx start end_).value = ctx.parseOneLine b start end_ ∧
      ((∀ range ∈ (Ranges.parseOneLine b ctx start end_).trace,
        Ranges.Within (LawfulBuffer.At b) line.length range) ↔
          ¬(ctx.state_ = .kExpectRequestLine ∧ Ranges.Unfinished line))) ∧
    (∀ (lb : LinkedBuffer) (start end_ : LinkedBufferIter), LineAt lb line start end_ →
      (Ranges.parseOneLine lb ctx start end_).value = ctx.parseOneLine lb start end_ ∧
      ((∀ range ∈ (Ranges.parseOneLine lb ctx start end_).trace,
        Ranges.Within (LawfulBuffer.At lb) line.length range) ↔
          ¬(ctx.state_ = .kExpectRequestLine ∧ Ranges.Unfinished line))) :=
  ⟨fun _ _ _ h => ⟨Ranges.parseOneLine_value, Ranges.ranges_iff h⟩,
    fun _ _ _ h => ⟨Ranges.parseOneLine_value, Ranges.ranges_iff h⟩⟩

/-- A whole request line in a linked buffer. -/
theorem parseOneLine_ranges_get :
    ∃ (lb : LinkedBuffer) (start end_ : LinkedBufferIter),
      LineAt lb (bytes "GET / HTTP/1.1") start end_ ∧
      ((∀ range ∈ (Ranges.parseOneLine lb .new start end_).trace,
        Ranges.Within (LawfulBuffer.At lb) (bytes "GET / HTTP/1.1").length range) ↔
          ¬(HTTPContext.new.state_ = .kExpectRequestLine ∧
            Ranges.Unfinished (bytes "GET / HTTP/1.1"))) := by
  have cr : 13 ∉ bytes "GET / HTTP/1.1" := by decide
  obtain ⟨lb, start, end_, _, h⟩ := @LineAt.exists_of_notMem LinkedBuffer _ _ _ _ cr
  exact ⟨lb, start, end_, h, ((parseOneLine_ranges .new _).2 lb start end_ h).2⟩

/-- Without a version, `setVersion` gets a range that starts after its end. -/
theorem parseOneLine_inverted_range :
    ∃ (b : Buffer) (start end_ : Nat), LineAt b (bytes "GET /") start end_ ∧
      ∃ range ∈ (Ranges.parseOneLine b .new start end_).trace,
        ¬Ranges.Within (LawfulBuffer.At b) (bytes "GET /").length range := by
  have cr : 13 ∉ bytes "GET /" := by decide
  obtain ⟨b, start, end_, _, h⟩ := @LineAt.exists_of_notMem Buffer _ _ _ _ cr
  have unf : Ranges.Unfinished (bytes "GET /") :=
    @Ranges.Unfinished.path (bytes "GET") (bytes "/") (by decide) (by decide) (by decide)
  have bad : ¬(Ranges.parseOneLine b .new start end_).All (Ranges.Within (LawfulBuffer.At b) _) :=
    fun all => (Ranges.ranges_iff h).1 all ⟨rfl, unf⟩
  simp only [Traced.All, not_forall] at bad
  obtain ⟨range, mem, out⟩ := bad
  exact ⟨b, start, end_, h, range, mem, out⟩

end WebServer.Http
