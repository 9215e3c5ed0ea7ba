import WebServer.Http.Line

/-!
# Parsing a byte string

`Parses ctx s ok ctx' rest`: from the context `ctx`, `parseRequest` on the unread bytes `s` returns `ok`,
leaves the context `ctx'` and the unread bytes `rest`. The relation is total (`Parses.total`) and
functional (`Parses.det`), and `parseRequest` over either buffer type computes it (`parseRequest_spec`).

Parsing in two goes is parsing in one (`Parses.append`). The case that is not a matter of lines is a
rejected line: it stays in the buffer and is parsed again, and this changes nothing because a rejected
line fills in the same fields with the same values (`readLine_reject`).
-/

namespace WebServer.Http

open Net Lib

/-- The first `\r\n` of `s` ends the line `line`; `rest` follows. -/
structure FirstLine (s line rest : Bytes) : Prop where
  eq : s = line ++ kCRLF ++ rest
  first : searchIdx kCRLF s = line.length

namespace FirstLine

variable {s line rest line' rest' t : Bytes}

/-- A first line, its CRLF and the rest make up the bytes. -/
lemma length (h : FirstLine s line rest) : s.length = line.length + 2 + rest.length := by
  rw [h.eq, List.length_append, List.length_append]
  rfl

/-- The CRLF after a first line is found inside the bytes. -/
lemma lt (h : FirstLine s line rest) : searchIdx kCRLF s < s.length := by
  rw [h.first, h.length]
  omega

/-- The first line of a sequence of bytes is determined. -/
lemma det (h : FirstLine s line rest) (h' : FirstLine s line' rest') :
    line = line' ∧ rest = rest' := by
  have e := h.eq.symm.trans h'.eq
  rw [List.append_assoc, List.append_assoc] at e
  obtain ⟨e1, e2⟩ := List.append_inj e (h.first.symm.trans h'.first)
  exact ⟨e1, List.append_cancel_left e2⟩

/-- Bytes that arrive later do not change the first line. -/
lemma append (h : FirstLine s line rest) : FirstLine (s ++ t) line (rest ++ t) where
  eq := by rw [h.eq, List.append_assoc _ rest]
  first := by rw [searchIdx_append h.lt, h.first]

/-- A line without a `\r` is the first one. -/
lemma of_notMem (h : 13 ∉ line) : FirstLine (line ++ kCRLF ++ rest) line rest :=
  ⟨rfl, searchIdx_of_notMem h⟩

/-- The line ends in `\r`, not in a space. -/
lemma cr (h : FirstLine s line rest) (lt : line.length < s.length) : s[line.length] ≠ char ' ' := by
  have e : s = line ++ (13 :: 10 :: rest) := h.eq.trans (List.append_assoc _ _ _)
  rw [List.getElem_of_eq e, List.getElem_append_right (Nat.le_refl _)]
  simp only [Nat.sub_self, List.getElem_cons_zero]
  decide

/-- Either there is no complete line or there is a first one. -/
lemma exists_of_lt (h : searchIdx kCRLF s < s.length) :
    FirstLine s (s.take (searchIdx kCRLF s)) (s.drop (searchIdx kCRLF s + 2)) where
  eq := by
    obtain ⟨t, e⟩ := searchIdx_occurs h
    have e2 : s.drop (searchIdx kCRLF s + 2) = t := by
      rw [← List.drop_drop, ← e]
      rfl
    rw [e2, List.append_assoc, e, List.take_append_drop]
  first := by
    rw [List.length_take]
    omega

end FirstLine

/-- What `parseRequest` does to the unread bytes. -/
inductive Parses : HTTPContext → Bytes → Bool → HTTPContext → Bytes → Prop where
  | done {ctx s} :
    ctx.state_ = .kGotAll →
    Parses ctx s true ctx s
  | wait {ctx s} :
    ctx.state_ ≠ .kGotAll →
    searchIdx kCRLF s = s.length →
    Parses ctx s true ctx s
  | reject {ctx ctx' s line rest} :
    ctx.state_ ≠ .kGotAll →
    FirstLine s line rest →
    ctx.readLine line = (false, ctx') →
    Parses ctx s false ctx' s
  | line {ctx ctx1 ctx' s line rest ok rest'} :
    ctx.state_ ≠ .kGotAll →
    FirstLine s line rest →
    ctx.readLine line = (true, ctx1) →
    Parses ctx1 rest ok ctx' rest' →
    Parses ctx s ok ctx' rest'

/-! ## Rejected lines -/

namespace HTTPRequest

variable {req req' : HTTPRequest} {s line : Bytes}

/-- A rejected version leaves the request alone. -/
lemma readVersion_reject (h : req.readVersion s = (false, req')) :
    req' = req ∧ ∀ req1 : HTTPRequest, req1.readVersion s = (false, req1) := by
  simp only [readVersion] at h ⊢
  by_cases emp : searchIdx gHttpPrefix s = s.length
  · rw [if_pos emp] at h
    cases h
    exact ⟨rfl, fun _ => if_pos emp⟩
  · rw [if_neg emp] at h
    split at h
    · cases h
    case isFalse unknown =>
      cases h
      exact ⟨rfl, fun _ => by rw [if_neg emp, if_neg unknown]⟩

/-- After a rejected URI, reading it again changes nothing; the method is not touched. -/
lemma readURI_reject (h : req.readURI s = (false, req')) :
    req'.readURI s = (false, req') ∧ req'.method_ = req.method_ := by
  simp only [readURI] at h ⊢
  by_cases hq : s.idxOf (char '?') ≠ s.length
  · rw [if_pos hq] at h ⊢
    obtain ⟨rfl, again⟩ := readVersion_reject h
    exact ⟨again _, rfl⟩
  · rw [if_neg hq] at h ⊢
    obtain ⟨rfl, again⟩ := readVersion_reject h
    exact ⟨again _, rfl⟩

/-- A rejected request line is rejected again, with the same object. -/
lemma readRequestLine_reject (h : req.readRequestLine line = (false, req')) :
    req'.readRequestLine line = (false, req') := by
  simp only [readRequestLine] at h ⊢
  by_cases emp : line.idxOf (char ' ') = line.length
  · rw [if_pos emp]
  · rw [if_neg emp] at h ⊢
    generalize line.take (line.idxOf (char ' ')) = word at h ⊢
    by_cases known : gHttpMethods.idxOf word ≠ gHttpMethods.length
    · simp only [readMethod, if_pos known, if_true] at h ⊢
      obtain ⟨again, same⟩ := readURI_reject h
      -- the method is the one already there
      have e : { req' with method_ := HttpMethod.ofIndex (gHttpMethods.idxOf word) } = req' := by
        rw [show HttpMethod.ofIndex (gHttpMethods.idxOf word) = req'.method_ from same.symm]
      rw [e]
      exact again
    · simp only [readMethod, if_neg known] at h ⊢
      rfl

end HTTPRequest

/-- Reading a rejected line again changes nothing. -/
lemma HTTPContext.readLine_reject {ctx ctx' : HTTPContext} {line : Bytes}
    (h : ctx.readLine line = (false, ctx')) :
    ctx'.readLine line = (false, ctx') ∧ ctx'.state_ = ctx.state_ := by
  obtain ⟨state, req⟩ := ctx
  cases state with
  | kExpectRequestLine =>
    simp only [readLine] at h
    cases hr : req.readRequestLine line with
    | mk ok req' =>
      rw [hr] at h
      cases h
      simp only [readLine, HTTPRequest.readRequestLine_reject hr]
      exact ⟨rfl, rfl⟩
  | kExpectHeader =>
    simp only [readLine] at h
    split at h
    · cases h
    case isFalse ne =>
      -- only a line without a colon is rejected, before anything is stored
      simp only [HTTPRequest.readHeader] at h
      split at h
      case isTrue nc =>
        cases h
        refine ⟨?_, rfl⟩
        simp only [readLine, if_neg ne, HTTPRequest.readHeader, if_pos nc]
      · cases h
  | kExpectBody => cases h
  | kGotAll => cases h

namespace Parses

variable {ctx ctx1 ctx2 : HTTPContext} {s t rest rest1 rest2 : Bytes} {ok ok1 ok2 : Bool}

/-- Every context parses every sequence of bytes to some result. -/
lemma total (ctx : HTTPContext) (s : Bytes) : ∃ ok ctx' rest, Parses ctx s ok ctx' rest := by
  by_cases fin : ctx.state_ = .kGotAll
  · exact ⟨_, _, _, .done fin⟩
  · rcases Nat.lt_or_eq_of_le (@searchIdx_le _ _ kCRLF s) with lt | eq
    · have fl := FirstLine.exists_of_lt lt
      cases hl : ctx.readLine (s.take (searchIdx kCRLF s)) with
      | mk ok ctx1 =>
        cases ok with
        | false => exact ⟨_, _, _, .reject fin fl hl⟩
        | true =>
          have := fl.length
          obtain ⟨ok, ctx', rest, h⟩ := total ctx1 (s.drop (searchIdx kCRLF s + 2))
          exact ⟨ok, ctx', rest, .line fin fl hl h⟩
    · exact ⟨_, _, _, .wait fin eq⟩
termination_by s.length

/-- The result of a parse is determined by the context and the bytes. -/
lemma det (h1 : Parses ctx s ok1 ctx1 rest1) (h2 : Parses ctx s ok2 ctx2 rest2) :
    ok1 = ok2 ∧ ctx1 = ctx2 ∧ rest1 = rest2 := by
  -- the rules exclude one another: finished or not, a line or none, accepted or rejected
  induction h1 with
  | done fin =>
    cases h2 with
    | done => exact ⟨rfl, rfl, rfl⟩
    | wait nf => exact absurd fin nf
    | reject nf => exact absurd fin nf
    | line nf => exact absurd fin nf
  | wait nf eq =>
    cases h2 with
    | done fin => exact absurd fin nf
    | wait => exact ⟨rfl, rfl, rfl⟩
    | reject _ fl => exact absurd eq fl.lt.ne
    | line _ fl => exact absurd eq fl.lt.ne
  | reject nf fl hl =>
    cases h2 with
    | done fin => exact absurd fin nf
    | wait _ eq => exact absurd eq fl.lt.ne
    | reject _ fl' hl' =>
      obtain ⟨rfl, rfl⟩ := fl.det fl'
      cases hl.symm.trans hl'
      exact ⟨rfl, rfl, rfl⟩
    | line _ fl' hl' =>
      obtain ⟨rfl, rfl⟩ := fl.det fl'
      cases hl.symm.trans hl'
  | line nf fl hl _ ih =>
    cases h2 with
    | done fin => exact absurd fin nf
    | wait _ eq => exact absurd eq fl.lt.ne
    | reject _ fl' hl' =>
      obtain ⟨rfl, rfl⟩ := fl.det fl'
      cases hl.symm.trans hl'
    | line _ fl' hl' h2 =>
      obtain ⟨rfl, rfl⟩ := fl.det fl'
      cases hl.symm.trans hl'
      exact ih h2

/-- Parsing what is there and, when more has come, parsing on, is parsing it all. -/
lemma append (h1 : Parses ctx s ok1 ctx1 rest1) (h2 : Parses ctx1 (rest1 ++ t) ok2 ctx2 rest2) :
    Parses ctx (s ++ t) ok2 ctx2 rest2 := by
  induction h1 with
  | done => exact h2
  | wait => exact h2
  | reject nf fl hl =>
    -- the rejected line is parsed again
    obtain ⟨again, same⟩ := HTTPContext.readLine_reject hl
    obtain ⟨rfl, rfl, rfl⟩ := h2.det (.reject (by rwa [same]) fl.append again)
    exact .reject nf fl.append hl
  | line nf fl hl _ ih => exact .line nf fl.append hl (ih h2)

end Parses

/-! ## The parser over a buffer -/

section Buffers

open LawfulBuffer

variable {B I : Type} [BufferType B I] [LawfulBuffer B I]

/-- The loop of the source computes the relation, on every parsable buffer and with enough fuel. -/
lemma parseLoop_spec {fuel : Nat} {ctx : HTTPContext} {b : B} (h : Parsable b)
    (hf : (unread b).length < fuel) :
    ∃ ok ctx' b', ctx.parseLoop fuel b = some (ok, ctx', b') ∧ Parsable b' ∧
      Parses ctx (unread b) ok ctx' (unread b') := by
  induction fuel generalizing ctx b with
  | zero => omega
  | succ fuel ih =>
    have R := represents h
    simp only [HTTPContext.parseLoop]
    by_cases fin : ctx.state_ = .kGotAll
    · rw [if_neg (not_not.2 fin)]
      exact ⟨_, _, _, rfl, h, .done fin⟩
    · obtain ⟨crlf, e, hc⟩ :
        ∃ j, search b (BufferType.readerIter b) (BufferType.end_ b) kCRLF = some j ∧ _ :=
          R.search_spec (at_reader h) (at_end h) (Nat.zero_le _)
      rw [slice_all, Nat.zero_add] at hc
      rw [if_pos fin]
      simp only [e, Option.bind_eq_bind, Option.bind_some]
      rcases Nat.lt_or_eq_of_le (searchIdx_le (s := unread b)) with lt | eq
      · have fl := FirstLine.exists_of_lt lt
        have sm : RandomAccess.same b crlf (BufferType.end_ b) = false := by
          rw [Bool.eq_false_iff]
          exact fun hs => lt.ne ((R.same hc (at_end h)).1 hs)
        have fits := searchIdx_found lt
        have cr : (unread b)[searchIdx kCRLF (unread b)] ≠ char ' ' := by
          have := fl.cr (by rw [← fl.first]; exact lt)
          simpa only [← fl.first] using this
        simp only [sm, Bool.not_false, if_true,
          parseOneLine_spec R (at_reader h) hc (Nat.zero_le _) lt cr, Option.bind_some]
        rw [show slice (unread b) 0 (searchIdx kCRLF (unread b))
          = (unread b).take (searchIdx kCRLF (unread b)) from by simp [slice]]
        cases hl : ctx.readLine ((unread b).take (searchIdx kCRLF (unread b))) with
        | mk ok ctx1 =>
          cases ok with
          | false => exact ⟨_, _, _, rfl, h, .reject fin fl hl⟩
          | true =>
            obtain ⟨it, e2, h2⟩ := R.plus hc (n := 2) (by exact fits) (by omega)
            obtain ⟨b1, e3, p1, u1⟩ := readUntil_spec h h2
            have len := fl.length
            obtain ⟨ok, ctx', b', e4, p', run⟩ := @ih ctx1 b1 p1 (by rw [u1]; omega)
            refine ⟨ok, ctx', b', ?_, p', .line fin fl hl (by rwa [← u1])⟩
            rw [show ((2 : Nat) : Int) = 2 from rfl] at e2
            simp only [if_true, e2, Option.bind_some, e3, e4]
      · have sm : RandomAccess.same b crlf (BufferType.end_ b) = true :=
          (R.same hc (at_end h)).2 eq
        simp only [sm, Bool.not_true, Bool.false_eq_true, if_false]
        exact ⟨_, _, _, rfl, h, .wait fin eq⟩

/-- `parseRequest` computes `Parses` on the unread bytes. -/
lemma parseRequest_spec (ctx : HTTPContext) {b : B} (h : Parsable b) :
    ∃ ok ctx' b', ctx.parseRequest b = some (ok, ctx', b') ∧ Parsable b' ∧
      Parses ctx (unread b) ok ctx' (unread b') :=
  parseLoop_spec h (by have := (represents h).extent; omega)

/-- Append a chunk and parse; the `Bool` is the value of the last `parseRequest`. -/
def feed (st : Bool × HTTPContext × B) (chunk : Bytes) : Option (Bool × HTTPContext × B) := do
  st.2.1.parseRequest (← BufferType.append st.2.2 chunk)

/-- A fresh context and buffer fed with chunks. -/
def feedAll (chunks : List Bytes) : Option (Bool × HTTPContext × B) :=
  chunks.foldlM feed (true, HTTPContext.new, BufferType.new)

/-- One more chunk continues the parse of the bytes received so far. -/
lemma feed_spec {s chunk : Bytes} {ok : Bool} {ctx : HTTPContext} {b : B}
    (hb : Fresh b ∨ Parsable b) (h : Parses .new s ok ctx (unread b)) (ne : chunk ≠ []) :
    ∃ ok' ctx' b', feed (ok, ctx, b) chunk = some (ok', ctx', b') ∧ Parsable b' ∧
      Parses .new (s ++ chunk) ok' ctx' (unread b') := by
  obtain ⟨b1, e1, p1, u1⟩ := append_parsable hb ne
  obtain ⟨ok', ctx', b', e', p', run⟩ := parseRequest_spec ctx p1
  rw [u1] at run
  refine ⟨ok', ctx', b', ?_, p', h.append run⟩
  simp only [feed, e1, Option.bind_eq_bind, Option.bind_some, e']

/-- All the chunks together are parsed like their concatenation. -/
lemma foldlM_feed_spec {chunks : List Bytes} {s : Bytes} {ok : Bool} {ctx : HTTPContext} {b : B}
    (ne : ∀ c ∈ chunks, c ≠ []) (hb : Fresh b ∨ Parsable b)
    (h : Parses .new s ok ctx (unread b)) :
    ∃ ok' ctx' b', chunks.foldlM feed (ok, ctx, b) = some (ok', ctx', b') ∧
      Parses .new (s ++ chunks.flatten) ok' ctx' (unread b') := by
  induction chunks generalizing s ok ctx b with
  | nil => exact ⟨ok, ctx, b, rfl, by simpa using h⟩
  | cons c cs ih =>
    obtain ⟨ok1, ctx1, b1, e1, p1, h1⟩ := feed_spec hb h (ne c (.head _))
    obtain ⟨ok', ctx', b', e', h'⟩ := ih (fun c' hc => ne c' (.tail _ hc)) (.inr p1) h1
    refine ⟨ok', ctx', b', ?_, by simpa using h'⟩
    rw [List.foldlM_cons, e1]
    exact e'

/-- Nothing to read leaves a new context waiting. -/
lemma Parses.nil : Parses .new [] true .new [] := .wait (by decide) rfl

/-- Feeding chunks is parsing their concatenation. -/
lemma feedAll_spec {chunks : List Bytes} (ne : ∀ c ∈ chunks, c ≠ []) :
    ∃ ok ctx, ∃ b : B, feedAll chunks = some (ok, ctx, b) ∧
      Parses .new chunks.flatten ok ctx (unread b) := by
  have fr : Fresh (BufferType.new : B) := fresh_new
  exact foldlM_feed_spec ne (.inl fr) (by rw [fresh_unread fr]; exact .nil)

end Buffers

/-- A string appended whole to a fresh flat buffer. -/
lemma feedAll_buffer (s : Bytes) :
    ∃ ok ctx, ∃ b : Buffer, feedAll [s] = some (ok, ctx, b) ∧ Parses .new s ok ctx b.unread := by
  obtain ⟨b1, e1, p1, u1⟩ := Buffer.new_inStorage.append_spec s
  obtain ⟨ok, ctx, b, e, _, run⟩ := parseRequest_spec .new (show LawfulBuffer.Parsable b1 from p1)
  rw [show LawfulBuffer.unread b1 = s from u1] at run
  refine ⟨ok, ctx, b, ?_, run⟩
  have app : BufferType.append (BufferType.new : Buffer) s = some b1 := e1
  simp only [feedAll, List.foldlM_cons, List.foldlM_nil, feed, app, Option.bind_eq_bind,
    Option.bind_some, e]
  rfl

end WebServer.Http
