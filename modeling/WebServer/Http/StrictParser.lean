import WebServer.Http.Parses
import WebServer.Net.LinkedStrict

/-!
# The parser over the linked buffer by the rules of its deque

The parser looks at a buffer through the operations on iterators, so it computes the same on two buffers with the same
iterators (`parseOneLine_congr`), and over `StampedBuffer` the same as over the linked buffer as long as the reader is
valid (`Shadows.parseRequest`). An outdated reader is used by the `std::search` of the first round
(`parseRequest_stale`), unless the parser has finished.

So the parser does not depend on how its input is cut into chunks nor on the buffer type where its behaviour is defined,
and `parseRequest_chunking` says where that is.
-/

namespace WebServer.Http

open Net Lib
open LinkedBuffer (Call)

/-! ## Buffers with the same iterators -/

section Congruence

variable {B B' I : Type} [BufferType B I] [BufferType B' I] {b : B} {b' : B'}

/-- A line is parsed by the operations on iterators. -/
lemma parseOneLine_congr (h : SameAccess b b') (ctx : HTTPContext) (start end_ : I) :
    ctx.parseOneLine b start end_ = ctx.parseOneLine b' start end_ := by
  simp only [HTTPContext.parseOneLine, HTTPContext.parseRequestLine, HTTPContext.parseURI, HTTPContext.parseHeader,
    HTTPRequest.setMethod, HTTPRequest.setPath, HTTPRequest.setQuery, HTTPRequest.setVersion, HTTPRequest.setHeader,
    h.find, h.search, h.copyRange, h.skipWhile, h.skipWhileBack, h.plus, h.next, h.same]

end Congruence

/-! ## The checked buffer beside another one -/

section Shadows

open LawfulBuffer

variable {B : Type} [BufferType B LinkedBufferIter] [LawfulBuffer B LinkedBufferIter]
  {R : StampedBuffer → B → Prop} {s : StampedBuffer} {b b' : B} {ctx ctx' : HTTPContext} {ok : Bool}

/-- Related buffers have the same iterators, and are so after `readUntil` at a position. -/
structure Shadows (R : StampedBuffer → B → Prop) : Prop where
  access : ∀ {s b}, R s b → SameAccess s b
  reader : ∀ {s b}, R s b → BufferType.readerIter s = BufferType.readerIter b
  end_ : ∀ {s b}, R s b → BufferType.end_ s = BufferType.end_ b
  readUntil : ∀ {s b it p ok b'}, R s b → Parsable b → At b it p → BufferType.readUntil b it = some (ok, b') →
    ∃ s', BufferType.readUntil s it = some (ok, s') ∧ R s' b'

/-- A loop that runs through on the buffer has the same result on its shadow. -/
lemma Shadows.parseLoop (sh : Shadows R) (h : R s b) (pb : Parsable b) {fuel : Nat}
    (e : ctx.parseLoop fuel b = some (ok, ctx', b')) :
    ∃ s', ctx.parseLoop fuel s = some (ok, ctx', s') ∧ R s' b' := by
  induction fuel generalizing ctx s b with
  | zero => cases e
  | succ fuel ih =>
    have rep := represents pb
    have access := sh.access h
    rw [HTTPContext.parseLoop] at e ⊢
    by_cases fin : ctx.state_ = .kGotAll
    · rw [if_neg (not_not.2 fin)] at e ⊢
      cases e
      exact ⟨s, rfl, h⟩
    · rw [if_pos fin] at e ⊢
      obtain ⟨crlf, ec, hc⟩ :
        ∃ j, search b (BufferType.readerIter b) (BufferType.end_ b) kCRLF = some j ∧ _ :=
          rep.search_spec (at_reader pb) (at_end pb) (Nat.zero_le _)
      rw [slice_all, Nat.zero_add] at hc
      rw [sh.reader h, sh.end_ h, access.search, access.same, ec]
      rw [ec] at e
      simp only [Option.bind_eq_bind, Option.bind_some, parseOneLine_congr access, access.plus] at e ⊢
      by_cases found : (!RandomAccess.same b crlf (BufferType.end_ b)) = true
      · rw [if_pos found] at e ⊢
        -- the first line is there, and `readUntil` is given the position behind it
        have lt : searchIdx kCRLF (unread b) < (unread b).length := by
          refine Nat.lt_of_le_of_ne searchIdx_le fun eq => ?_
          rw [(rep.same hc (at_end pb)).2 eq] at found
          cases found
        obtain ⟨it, e2, h2⟩ := rep.plus hc (n := 2) (searchIdx_found lt) (by decide)
        have e2' : RandomAccess.plus b crlf 2 = some it := e2
        obtain ⟨⟨ok1, ctx1⟩, e1, e⟩ := Option.bind_eq_some_iff.1 e
        rw [e1, Option.bind_some]
        dsimp only at e ⊢
        cases ok1 with
        | false =>
          cases e
          exact ⟨s, rfl, h⟩
        | true =>
          simp only [if_true, e2', Option.bind_some] at e ⊢
          obtain ⟨⟨read, b1⟩, e3, e⟩ := Option.bind_eq_some_iff.1 e
          obtain ⟨s1, es, h1⟩ := sh.readUntil h pb h2 e3
          obtain ⟨b1', e3', pb1, _⟩ := readUntil_spec pb h2
          cases e3.symm.trans e3'
          rw [es]
          exact ih h1 pb1 e
      · rw [if_neg found] at e ⊢
        cases e
        exact ⟨s, rfl, h⟩

/-- The parser over the checked buffer does what it does over a related one. -/
lemma Shadows.parseRequest (sh : Shadows R) (h : R s b) (pb : Parsable b)
    (e : ctx.parseRequest b = some (ok, ctx', b')) : ∃ s', ctx.parseRequest s = some (ok, ctx', s') ∧ R s' b' := by
  rw [HTTPContext.parseRequest] at e ⊢
  rw [(sh.access h).extent]
  exact sh.parseLoop h pb e

end Shadows

/-- Without a valid reader the parser is undefined, unless it has finished. -/
lemma parseRequest_stale {s : StampedBuffer} {ctx : HTTPContext} (inv : s.Inv true)
    (unfinished : ctx.state_ ≠ .kGotAll) : ctx.parseRequest s = none := by
  have minus (it jt : LinkedBufferIter) : RandomAccess.minus s it jt = none :=
    if_neg (by rw [inv.readerValid_stale]; decide)
  have first (it jt : LinkedBufferIter) : search s it jt kCRLF = none := by rw [search, minus]; rfl
  rw [HTTPContext.parseRequest, HTTPContext.parseLoop, if_pos unfinished, first]
  rfl

/-! ## Feeding chunks -/

open StampedBuffer (Inv)

/-- The checked buffer beside the linked one. -/
lemma shadows_linkedBuffer : Shadows fun (s : StampedBuffer) (lb : LinkedBuffer) => s.erase = lb ∧ s.Inv false where
  access h := h.1 ▸ h.2.sameAccess
  reader h := h.1 ▸ rfl
  end_ h := h.1 ▸ rfl
  readUntil {s lb it p ok lb'} h pk hi e := by
    obtain ⟨rfl, inv⟩ := h
    have erased := (@StampedBuffer.readUntil_erase s it).trans e
    obtain ⟨s', e', rfl, fit⟩ := StampedBuffer.checked_fit (StampedBuffer.readUntil_fit inv.fit hi.2) erased
    have exec : (Call.readUntil it).exec s.erase = some s'.erase := congrArg (Option.map Prod.snd) e
    have valid : (Call.readUntil it).Valid s.erase := ⟨_, hi.2⟩
    exact ⟨s', e', rfl, fit.inv (LinkedBuffer.exec_inv inv.usable valid exec)⟩

/-- The checked buffer has been fed the same chunks as the linked one: the reader is valid unless the parser has
    finished. -/
structure Beside (ctx : HTTPContext) (s : StampedBuffer) (lb : LinkedBuffer) : Prop where
  erase : s.erase = lb
  usable : LawfulBuffer.Fresh lb ∨ LawfulBuffer.Parsable lb
  inv : ctx.state_ ≠ .kGotAll → s.Inv false

/-- Unless the parser has finished, no chunk adds a node to a deque that is not empty. -/
def InTime (st : Bool × HTTPContext × LinkedBuffer) : List Bytes → Prop
  | [] => True
  | chunk :: chunks =>
    (st.2.1.state_ ≠ .kGotAll → st.2.2.pushes chunk = false) ∧ ∀ st' ∈ feed st chunk, InTime st' chunks

instance InTime.decidable (st : Bool × HTTPContext × LinkedBuffer) : ∀ chunks, Decidable (InTime st chunks)
  | [] => inferInstanceAs (Decidable True)
  | chunk :: chunks =>
    have : DecidablePred fun st' => InTime st' chunks := fun st' => InTime.decidable st' chunks
    inferInstanceAs (Decidable ((st.2.1.state_ ≠ .kGotAll → st.2.2.pushes chunk = false) ∧
      ∀ st' ∈ feed st chunk, InTime st' chunks))

namespace Beside

variable {ctx ctx' : HTTPContext} {s : StampedBuffer} {lb lb' : LinkedBuffer} {ok ok' : Bool} {chunk : Bytes}
  {chunks : List Bytes}

/-- A new checked buffer stands beside a new linked one. -/
lemma new : Beside .new BufferType.new BufferType.new := ⟨rfl, .inl LawfulBuffer.fresh_new, fun _ => Inv.new⟩

/-- A chunk in time is parsed alike. -/
lemma feed (h : Beside ctx s lb) (ne : chunk ≠ []) (inTime : ctx.state_ ≠ .kGotAll → lb.pushes chunk = false)
    (e : Http.feed (ok, ctx, lb) chunk = some (ok', ctx', lb')) :
    ∃ s', Http.feed (ok, ctx, s) chunk = some (ok', ctx', s') ∧ Beside ctx' s' lb' := by
  obtain ⟨rfl, usable, inv⟩ := h
  obtain ⟨_, e1, pk, _⟩ := LawfulBuffer.append_parsable usable ne
  cases e1
  have e : ctx.parseRequest (s.erase.append chunk) = some (ok', ctx', lb') := e
  have appended : (s.append chunk).erase = s.erase.append chunk := StampedBuffer.append_erase
  by_cases fin : ctx.state_ = .kGotAll
  · -- a parser that has finished does not look at the buffer
    have done {B : Type} [BufferType B LinkedBufferIter] (b : B) : ctx.parseRequest b = some (true, ctx, b) := by
      rw [HTTPContext.parseRequest, HTTPContext.parseLoop, if_neg (not_not.2 fin)]
    cases (done _).symm.trans e
    exact ⟨_, done _, appended, .inr pk, fun nf => absurd fin nf⟩
  · have inv' := (inv fin).append chunk
    rw [inTime fin] at inv'
    obtain ⟨s', e', erase, inv''⟩ := shadows_linkedBuffer.parseRequest ⟨appended, inv'⟩ pk e
    obtain ⟨_, _, _, e1, pk', _⟩ := parseRequest_spec ctx pk
    cases e1.symm.trans e
    exact ⟨s', e', erase, .inr pk', fun _ => inv''⟩

/-- A chunk that comes too late makes the parser use an invalid iterator. -/
lemma feed_late (h : Beside ctx s lb) (unfinished : ctx.state_ ≠ .kGotAll) (late : lb.pushes chunk = true) :
    Http.feed (ok, ctx, s) chunk = none := by
  have inv := (h.inv unfinished).append chunk
  rw [h.erase, late] at inv
  exact parseRequest_stale inv unfinished

/-- Chunks are parsed alike if they are all in time, and else not at all. -/
lemma foldlM_feed (h : Beside ctx s lb) (ne : ∀ c ∈ chunks, c ≠ [])
    (e : chunks.foldlM Http.feed (ok, ctx, lb) = some (ok', ctx', lb')) :
    (InTime (ok, ctx, lb) chunks →
      ∃ s', chunks.foldlM Http.feed (ok, ctx, s) = some (ok', ctx', s') ∧ s'.erase = lb') ∧
    (¬InTime (ok, ctx, lb) chunks → chunks.foldlM Http.feed (ok, ctx, s) = none) := by
  induction chunks generalizing ctx s lb ok with
  | nil =>
    cases e
    exact ⟨fun _ => ⟨s, rfl, h.erase⟩, fun late => absurd trivial late⟩
  | cons chunk chunks ih =>
    rw [List.foldlM_cons] at e ⊢
    obtain ⟨⟨ok1, ctx1, lb1⟩, e1, e⟩ := Option.bind_eq_some_iff.1 e
    have ne' : ∀ c ∈ chunks, c ≠ [] := fun c hc => ne c (.tail _ hc)
    by_cases inTime : ctx.state_ ≠ .kGotAll → lb.pushes chunk = false
    · obtain ⟨s1, es, h1⟩ := h.feed (ne _ (.head _)) inTime e1
      obtain ⟨on, off⟩ := ih h1 ne' e
      rw [es]
      refine ⟨fun all => on (all.2 _ e1), fun late => off fun all => late ⟨inTime, fun st' e2 => ?_⟩⟩
      cases Option.some.inj (e1.symm.trans e2)
      exact all
    · refine ⟨fun all => absurd all.1 inTime, fun _ => ?_⟩
      obtain ⟨unfinished, late⟩ := Classical.not_imp.1 inTime
      rw [h.feed_late unfinished (Bool.eq_true_of_not_eq_false late)]
      rfl

end Beside

/-- A string appended whole to a fresh linked buffer is parsed with a valid reader; the empty string makes an empty
    node. -/
lemma feedAll_stampedBuffer (s : Bytes) :
    ∃ ok ctx, ∃ sb : StampedBuffer, feedAll [s] = some (ok, ctx, sb) ∧ Parses .new s ok ctx sb.erase.unread := by
  by_cases hs : s = []
  · subst hs
    exact ⟨_, _, _, rfl, .nil⟩
  · have ne : ∀ c ∈ [s], c ≠ [] := by
      intro c hc
      rwa [List.mem_singleton.1 hc]
    obtain ⟨ok, ctx, lb, e, run⟩ := @feedAll_spec LinkedBuffer _ _ _ [s] ne
    rw [List.flatten_singleton] at run
    have inTime : InTime (true, .new, BufferType.new) [s] := ⟨fun _ => rfl, fun _ _ => trivial⟩
    obtain ⟨sb, es, rfl⟩ := (Beside.new.foldlM_feed ne e).1 inTime
    exact ⟨ok, ctx, sb, es, run⟩

/-- Chunks in the linked buffer are parsed as their concatenation is exactly if they are all in time. -/
lemma feedAll_inTime {chunks : List Bytes} (ne : ∀ c ∈ chunks, c ≠ []) {ok : Bool} {ctx : HTTPContext} {rest : Bytes}
    (parses : Parses .new chunks.flatten ok ctx rest) :
    (∃ s : StampedBuffer, feedAll chunks = some (ok, ctx, s) ∧ s.erase.unread = rest) ↔
      InTime (true, .new, .new) chunks := by
  obtain ⟨ok', ctx', lb, e, parses'⟩ := @feedAll_spec LinkedBuffer _ _ _ chunks ne
  obtain ⟨rfl, rfl, rfl⟩ := parses.det parses'
  obtain ⟨on, off⟩ := Beside.new.foldlM_feed ne e
  constructor
  · rintro ⟨s, es, _⟩
    by_contra late
    cases (off late).symm.trans es
  · intro inTime
    obtain ⟨s, es, rfl⟩ := on inTime
    exact ⟨s, es, rfl⟩

/-- The parser does not depend on how its input is cut into chunks nor on the buffer type where its behaviour is
    defined: chunks in the flat buffer give the returned value, the state, the request and the unread bytes that their
    concatenation gives in the linked buffer, and chunks in the linked buffer those that their concatenation gives in
    the flat one exactly if, before the parser has finished, no chunk adds a node to a deque that is not empty. -/
theorem parseRequest_chunking (chunks : List Bytes) (ne : ∀ c ∈ chunks, c ≠ []) :
    (∃ ok ctx, ∃ b : Buffer, ∃ s : StampedBuffer, feedAll chunks = some (ok, ctx, b) ∧
      feedAll [chunks.flatten] = some (ok, ctx, s) ∧ b.unread = s.erase.unread) ∧
    ((∃ ok ctx, ∃ s : StampedBuffer, ∃ b : Buffer, feedAll chunks = some (ok, ctx, s) ∧
      feedAll [chunks.flatten] = some (ok, ctx, b) ∧ s.erase.unread = b.unread) ↔
        InTime (true, .new, .new) chunks) := by
  obtain ⟨ok1, ctx1, b1, e1, h1⟩ := feedAll_buffer chunks.flatten
  obtain ⟨ok2, ctx2, b2, e2, h2⟩ := feedAll_stampedBuffer chunks.flatten
  constructor
  · obtain ⟨ok, ctx, b, e, h⟩ := @feedAll_spec Buffer _ _ _ chunks ne
    obtain ⟨rfl, rfl, hu⟩ := h.det h2
    exact ⟨ok, ctx, b, b2, e, e2, hu⟩
  · rw [← feedAll_inTime ne h1]
    constructor
    · rintro ⟨ok, ctx, s, b, es, eb, un⟩
      cases e1.symm.trans eb
      exact ⟨s, es, un⟩
    · rintro ⟨s, es, un⟩
      exact ⟨ok1, ctx1, s, b1, es, e1, un⟩

/-- A request cut inside the path and inside a `\r\n`. -/
theorem parseRequest_chunking_crlf :
    ∃ ok ctx, ∃ s : StampedBuffer, ∃ b : Buffer,
      feedAll [bytes "GET /he", bytes "llo HTTP/1.1\r", bytes "\nHost: a\r\n\r\n"]
        = some (ok, ctx, s) ∧
      feedAll [bytes "GET /hello HTTP/1.1\r\nHost: a\r\n\r\n"] = some (ok, ctx, b) ∧
      s.erase.unread = b.unread :=
  (parseRequest_chunking
    [bytes "GET /he", bytes "llo HTTP/1.1\r", bytes "\nHost: a\r\n\r\n"] (by decide)).2.2 (by decide +kernel)

/-- Bytes without a `\r` are no line. -/
lemma searchIdx_no_line {s : Bytes} (h : 13 ∉ s) : searchIdx kCRLF s = s.length := by
  refine Nat.le_antisymm searchIdx_le (Nat.not_lt.1 fun lt => h ?_)
  rw [(FirstLine.exists_of_lt lt).eq, List.append_assoc]
  exact List.mem_append_right _ (.head _)

/-- A line that comes by the kilobyte: the second chunk makes the reader of the linked buffer invalid, and the parser
    uses it; the flat buffer has no such trouble with all of them. -/
theorem parseRequest_chunking_undefined :
    (feedAll (List.replicate 120 (List.replicate 1024 (char 'x'))) : Option (Bool × HTTPContext × StampedBuffer))
      = none ∧
    ∃ ok ctx, ∃ b : Buffer,
      feedAll [(List.replicate 120 (List.replicate 1024 (char 'x'))).flatten] = some (ok, ctx, b) := by
  have long : (List.replicate 1024 (char 'x')).length = 1024 := List.length_replicate
  have ne : List.replicate 1024 (char 'x') ≠ [] := List.replicate_succ_ne_nil
  have plain : 13 ∉ List.replicate 1024 (char 'x') := fun h => absurd (List.eq_of_mem_replicate h) (by decide)
  obtain ⟨ok, ctx, b, e, _⟩ := feedAll_buffer (List.replicate 120 (List.replicate 1024 (char 'x'))).flatten
  refine ⟨?_, ok, ctx, b, e⟩
  generalize List.replicate 1024 (char 'x') = xs at long ne plain
  have all : ∀ c ∈ List.replicate 120 xs, c ≠ [] := fun c hc => List.eq_of_mem_replicate hc ▸ ne
  obtain ⟨ok, ctx, lb, e, _⟩ := @feedAll_spec LinkedBuffer _ _ _ _ all
  refine (Beside.new.foldlM_feed all e).2 fun inTime => ?_
  -- after the first chunk the parser waits, with the chunk in the buffer
  have unfinished : HTTPContext.new.state_ ≠ .kGotAll := by decide
  obtain ⟨ok1, ctx1, lb1, e1, pk, run⟩ :=
    @feed_spec LinkedBuffer _ _ _ [] xs true .new BufferType.new (.inl LawfulBuffer.fresh_new) .nil ne
  obtain ⟨_, rfl, unread⟩ := run.det (.wait unfinished (searchIdx_no_line plain))
  have some_ : lb1.unread ≠ [] := by rwa [show lb1.unread = xs from unread]
  have next := (inTime.2 _ e1).1 unfinished
  rw [LinkedBuffer.pushes_long (pk.seated.nodes_ne some_) (Nat.le_of_eq long.symm)] at next
  cases next

end WebServer.Http
