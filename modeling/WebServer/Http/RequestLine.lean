import WebServer.Http.Message
import Mathlib.Data.List.TakeWhile

/-!
# Which request lines are accepted

The grammar of a request line is `M SP T SP HTTP/V` (`IsRequestLine`). `parseRequestLine` accepts every
line of the grammar and fills in the request as it should, but it accepts more. It looks for the `?` up to
the end of the line and not up to the end of the target, and it looks for `HTTP/` anywhere after the target.
`Loose` lists the lines that slip through: those with junk before `HTTP/` and those with a space before
the `?`.
-/

namespace WebServer.Http

open Net Lib

/-! ## Lines in a buffer -/

section Buffers

open LawfulBuffer

variable {B I : Type} [BufferType B I] [LawfulBuffer B I]

/-- `start` and `end_` are the iterators with which `parseRequest` hands over the line `line`: the reader
    and the first `\r\n` after it. -/
structure LineAt (b : B) (line : Bytes) (start end_ : I) : Prop where
  parsable : Parsable b
  first : ∃ rest, FirstLine (unread b) line rest
  reader : start = BufferType.readerIter b
  found : search b (BufferType.readerIter b) (BufferType.end_ b) kCRLF = some end_

namespace LineAt

variable {b : B} {line : Bytes} {start end_ : I} {req : HTTPRequest}

/-- The line ends before the last unread byte. -/
lemma lt (h : LineAt b line start end_) : line.length < (unread b).length := by
  obtain ⟨rest, fl⟩ := h.first
  have := fl.length
  omega

/-- The line is the first bytes that are unread. -/
lemma slice (h : LineAt b line start end_) : Lib.slice (unread b) 0 line.length = line := by
  obtain ⟨rest, fl⟩ := h.first
  rw [Lib.slice, fl.eq, List.append_assoc]
  exact List.take_left

/-- The line begins at the first unread byte. -/
lemma at_start (h : LineAt b line start end_) : At b start 0 := by
  rw [h.reader]
  exact at_reader h.parsable

/-- The line ends at the position of its length. -/
lemma at_end_ (h : LineAt b line start end_) : At b end_ line.length := by
  obtain ⟨rest, fl⟩ := h.first
  obtain ⟨j, e, hj⟩ : ∃ j, search b (BufferType.readerIter b) (BufferType.end_ b) kCRLF = some j ∧ _ :=
    (represents h.parsable).search_spec (at_reader h.parsable) (at_end h.parsable) (Nat.zero_le _)
  rw [h.found, Option.some.injEq] at e
  rwa [slice_all, Nat.zero_add, fl.first, ← e] at hj

/-- The source reads a line of the buffer as `readRequestLine` reads its bytes. -/
lemma parseRequestLine (h : LineAt b line start end_) :
    HTTPContext.parseRequestLine req b start end_ = some (req.readRequestLine line) := by
  rw [parseRequestLine_spec (represents h.parsable) h.at_start h.at_end_ (Nat.zero_le _) h.lt, h.slice]

end LineAt

/-- A buffer with one line and its iterators. -/
lemma LineAt.exists_of_notMem {line : Bytes} (h : 13 ∉ line) :
    ∃ b : B, ∃ start end_, BufferType.append BufferType.new (line ++ kCRLF) = some b ∧
      LineAt b line start end_ := by
  have ne : line ++ kCRLF ≠ [] := by simp [kCRLF]
  obtain ⟨b, e, p, u⟩ := append_parsable (.inl (fresh_new : Fresh (BufferType.new : B))) ne
  rw [fresh_unread fresh_new, List.nil_append] at u
  have fl : FirstLine (unread b) line [] := by
    rw [u, ← List.append_nil (line ++ kCRLF)]
    exact .of_notMem h
  obtain ⟨end_, found, _⟩ :
    ∃ j, search b (BufferType.readerIter b) (BufferType.end_ b) kCRLF = some j ∧ _ :=
      (represents p).search_spec (at_reader p) (at_end p) (Nat.zero_le _)
  exact ⟨b, _, end_, e, p, ⟨_, fl⟩, rfl, found⟩

end Buffers

/-! ## The grammar -/

/-- The line is `method SP target SP HTTP/version`. -/
structure IsRequestLine (line method target version : Bytes) : Prop where
  eq : line = method ++ char ' ' :: (target ++ char ' ' :: (gHttpPrefix ++ version))
  method_mem : method ∈ gHttpMethods
  target_space : char ' ' ∉ target
  version_mem : version ∈ gHttpVersions

/-- The fields of a request that say the same as its request line: the path is the target up to its first
    `?` and the query what comes after that. -/
structure HTTPRequest.Denotes (req : HTTPRequest) (method target version : Bytes) : Prop where
  method_text : req.method_.text = method
  version_text : req.version_.text = version
  path : req.path_ = target.takeWhile (· ≠ char '?')
  query : req.query_ = (target.dropWhile (· ≠ char '?')).drop 1

/-- The answer `ok` for a line, with the request it left, is the one the grammar asks for. -/
structure ReadByGrammar (line : Bytes) (ok : Bool) (req : HTTPRequest) : Prop where
  accepts : ok = true ↔ ∃ method target version, IsRequestLine line method target version
  denotes : ∀ {method target version}, IsRequestLine line method target version →
    req.Denotes method target version

/-- The lines the parser accepts outside of its grammar. -/
inductive Loose : Bytes → Prop where
  /-- There is junk between the space after the target and `HTTP/`. -/
  | junk {method target junk version} :
    method ∈ gHttpMethods →
    char ' ' ∉ target →
    junk ≠ [] →
    ¬gHttpPrefix <:+: junk →
    version ∈ gHttpVersions →
    (char '?' ∈ target ∨ char '?' ∉ junk) →
    Loose (method ++ char ' ' :: (target ++ char ' ' :: (junk ++ gHttpPrefix ++ version)))
  /-- There is a space before the first `?`. -/
  | space {method path query junk version} :
    method ∈ gHttpMethods →
    char '?' ∉ path →
    char ' ' ∈ path →
    char ' ' ∉ query →
    ¬gHttpPrefix <:+: junk →
    version ∈ gHttpVersions →
    Loose (method ++ char ' ' :: (path ++ char '?' ::
      (query ++ char ' ' :: (junk ++ gHttpPrefix ++ version))))

/-- No method has a space. -/
lemma gHttpMethods_space {method : Bytes} (h : method ∈ gHttpMethods) : char ' ' ∉ method := by
  have all : ∀ m ∈ gHttpMethods, char ' ' ∉ m := by decide
  exact all method h

/-- Every version has three characters. -/
lemma gHttpVersions_length {version : Bytes} (h : version ∈ gHttpVersions) : version.length = 3 := by
  have all : ∀ v ∈ gHttpVersions, v.length = 3 := by decide
  exact all version h

/-- No version has a question mark. -/
lemma gHttpVersions_query {version : Bytes} (h : version ∈ gHttpVersions) :
    char '?' ∉ gHttpPrefix ++ version := by
  have all : ∀ v ∈ gHttpVersions, char '?' ∉ gHttpPrefix ++ v := by decide
  exact all version h

/-- Two ways to cut a string at the first occurrence of a separator are the same. -/
lemma sep_inj {c : UInt8} {s s' t t' : Bytes} (h : c ∉ s) (h' : c ∉ s')
    (e : s ++ c :: t = s' ++ c :: t') : s = s' ∧ t = t' := by
  have es : s = s' := by
    rw [← @take_sep c s t h, e, take_sep h']
  subst es
  exact ⟨rfl, (List.cons.inj (List.append_cancel_left e)).2⟩

namespace IsRequestLine

variable {line method target version method' target' version' : Bytes}

/-- The grammar is unambiguous. -/
lemma det (h : IsRequestLine line method target version)
    (h' : IsRequestLine line method' target' version') :
    method = method' ∧ target = target' ∧ version = version' := by
  obtain ⟨em, er⟩ := sep_inj (gHttpMethods_space h.method_mem) (gHttpMethods_space h'.method_mem)
    (h.eq.symm.trans h'.eq)
  obtain ⟨et, ev⟩ := sep_inj h.target_space h'.target_space er
  exact ⟨em, et, List.append_cancel_left ev⟩

end IsRequestLine

/-- A loose line is not a line of the grammar. -/
lemma Loose.not_isRequestLine {line method target version : Bytes} (h : Loose line) :
    ¬IsRequestLine line method target version := by
  intro g
  cases h with
  | junk hm ht hj _ hv _ =>
    obtain ⟨_, er⟩ := sep_inj (gHttpMethods_space hm) (gHttpMethods_space g.method_mem) g.eq
    obtain ⟨_, ev⟩ := sep_inj ht g.target_space er
    -- what follows the target is longer than `HTTP/V`
    have len := congrArg List.length ev
    simp only [List.length_append, gHttpVersions_length hv, gHttpVersions_length g.version_mem] at len
    exact hj (List.length_eq_zero_iff.1 (by omega))
  | space hm _ hs _ _ _ =>
    obtain ⟨_, er⟩ := sep_inj (gHttpMethods_space hm) (gHttpMethods_space g.method_mem) g.eq
    obtain ⟨before, after, rfl, hb⟩ := List.eq_append_cons_of_mem hs
    rw [List.append_assoc, List.cons_append] at er
    obtain ⟨_, ev⟩ := sep_inj hb g.target_space er
    -- the `?` would stand in `HTTP/V`
    refine gHttpVersions_query g.version_mem ?_
    rw [← ev]
    simp

/-! ## What the parser accepts -/

/-- `HTTP/` does not overlap itself. -/
lemma gHttpPrefix_border (n : Nat) (pos : 0 < n) (lt : n < gHttpPrefix.length) :
    gHttpPrefix.drop n ≠ gHttpPrefix.take (gHttpPrefix.length - n) := by
  have all : ∀ n < gHttpPrefix.length, 0 < n →
      gHttpPrefix.drop n ≠ gHttpPrefix.take (gHttpPrefix.length - n) := by decide
  exact all n lt pos

namespace HTTPRequest

variable (req : HTTPRequest) {s : Bytes}

/-- What `setVersion` accepts: anything without `HTTP/`, then `HTTP/` and a version. -/
def IsVersion (s : Bytes) : Prop :=
  ∃ junk version, s = junk ++ gHttpPrefix ++ version ∧ ¬gHttpPrefix <:+: junk ∧
    version ∈ gHttpVersions

/-- Which versions are accepted. -/
lemma readVersion_accepts : (req.readVersion s).1 = true ↔ IsVersion s := by
  have first {junk version : Bytes} :
      searchIdx gHttpPrefix (junk ++ gHttpPrefix ++ version) = junk.length ↔ ¬gHttpPrefix <:+: junk :=
    searchIdx_append_pat (by decide) gHttpPrefix_border
  simp only [readVersion]
  by_cases emp : searchIdx gHttpPrefix s = s.length
  · rw [if_pos emp]
    refine iff_of_false (by simp) ?_
    rintro ⟨junk, version, rfl, hj, _⟩
    rw [first.2 hj] at emp
    simp [gHttpPrefix, bytes] at emp
  · rw [if_neg emp]
    obtain ⟨v, ev⟩ := searchIdx_occurs (Nat.lt_of_le_of_ne searchIdx_le emp)
    have es : s = s.take (searchIdx gHttpPrefix s) ++ gHttpPrefix ++ v := by
      rw [List.append_assoc, ev, List.take_append_drop]
    have hv : s.drop (searchIdx gHttpPrefix s + gHttpPrefix.length) = v := by
      rw [← List.drop_drop, ← ev, List.drop_left]
    rw [hv]
    constructor
    · intro h
      split at h
      case isTrue mem =>
        refine ⟨_, v, es, ?_, List.idxOf_lt_length_iff.1
          (Nat.lt_of_le_of_ne List.idxOf_le_length mem)⟩
        rw [← first, ← es, List.length_take, Nat.min_eq_left searchIdx_le]
      · cases h
    · rintro ⟨junk, version, rfl, hj, mem⟩
      rw [first.2 hj, ← List.length_append, List.drop_left] at hv
      subst hv
      rw [if_pos (List.idxOf_lt_length_iff.2 mem).ne]

/-- The version is looked for after the first space. Without a space it is read from nothing. -/
lemma readVersion_after_space :
    (req.readVersion (s.drop (s.idxOf (char ' ') + 1))).1 = true ↔
      ∃ word rest, s = word ++ char ' ' :: rest ∧ char ' ' ∉ word ∧ IsVersion rest := by
  by_cases hs : char ' ' ∈ s
  · obtain ⟨word, rest, rfl, hn⟩ := List.eq_append_cons_of_mem hs
    rw [drop_sep hn, readVersion_accepts]
    constructor
    · intro h
      exact ⟨word, rest, rfl, hn, h⟩
    · rintro ⟨word', rest', e, hn', h⟩
      obtain ⟨_, rfl⟩ := sep_inj hn hn' e
      exact h
  · rw [List.idxOf_eq_length hs, List.drop_eq_nil_of_le (Nat.le_succ _)]
    refine iff_of_false (by simp [readVersion, searchIdx]) ?_
    rintro ⟨_, _, rfl, _⟩
    exact hs (by simp)

/-- What is accepted after the method. -/
lemma readURI_accepts : (req.readURI s).1 = true ↔
    (∃ path query rest, s = path ++ char '?' :: (query ++ char ' ' :: rest) ∧ char '?' ∉ path ∧
      char ' ' ∉ query ∧ IsVersion rest) ∨
    (∃ path rest, s = path ++ char ' ' :: rest ∧ char '?' ∉ s ∧ char ' ' ∉ path ∧
      IsVersion rest) := by
  simp only [readURI]
  by_cases hq : char '?' ∈ s
  · rw [if_pos (List.idxOf_lt_length_iff.2 hq).ne]
    obtain ⟨path, after, rfl, hp⟩ := List.eq_append_cons_of_mem hq
    rw [drop_sep hp, readVersion_after_space]
    constructor
    · rintro ⟨query, rest, rfl, hn, hv⟩
      exact .inl ⟨path, query, rest, rfl, hp, hn, hv⟩
    · rintro (⟨path', query, rest, e, hp', hn, hv⟩ | ⟨_, _, _, nq, _⟩)
      · obtain ⟨_, rfl⟩ := sep_inj hp hp' e
        exact ⟨query, rest, rfl, hn, hv⟩
      · exact absurd hq nq
  · rw [if_neg (not_not.2 (List.idxOf_eq_length hq)), readVersion_after_space]
    constructor
    · rintro ⟨path, rest, e, hn, hv⟩
      exact .inr ⟨path, rest, e, hq, hn, hv⟩
    · rintro (⟨_, _, _, rfl, _⟩ | ⟨path, rest, e, _, hn, hv⟩)
      · exact absurd (by simp) hq
      · exact ⟨path, rest, e, hn, hv⟩

/-- Which methods are accepted. -/
lemma readMethod_accepts : (req.readMethod s).1 = true ↔ s ∈ gHttpMethods := by
  rw [← List.idxOf_lt_length_iff, readMethod]
  split
  case isTrue ne => exact iff_of_true rfl (Nat.lt_of_le_of_ne List.idxOf_le_length ne)
  case isFalse eq => exact iff_of_false (by simp) (by omega)

/-- A line is accepted when it is a known method, a space and an accepted uri. -/
lemma readRequestLine_accepts : (req.readRequestLine s).1 = true ↔
    ∃ method uri, s = method ++ char ' ' :: uri ∧ method ∈ gHttpMethods ∧
      ((req.readMethod method).2.readURI uri).1 = true := by
  simp only [readRequestLine]
  by_cases hs : char ' ' ∈ s
  · rw [if_neg (List.idxOf_lt_length_iff.2 hs).ne]
    obtain ⟨method, uri, rfl, hn⟩ := List.eq_append_cons_of_mem hs
    rw [take_sep hn, drop_sep hn]
    by_cases hm : method ∈ gHttpMethods
    · rw [if_pos ((req.readMethod_accepts).2 hm)]
      constructor
      · intro h
        exact ⟨method, uri, rfl, hm, h⟩
      · rintro ⟨method', uri', e, hm', h⟩
        obtain ⟨rfl, rfl⟩ := sep_inj hn (gHttpMethods_space hm') e
        exact h
    · rw [if_neg (fun h => hm ((req.readMethod_accepts).1 h))]
      refine iff_of_false (by simp) ?_
      rintro ⟨method', uri', e, hm', _⟩
      obtain ⟨rfl, rfl⟩ := sep_inj hn (gHttpMethods_space hm') e
      exact hm hm'
  · rw [if_pos (List.idxOf_eq_length hs)]
    refine iff_of_false (by simp) ?_
    rintro ⟨method', uri', rfl, _⟩
    exact hs (by simp)

/-- A target without a space is cut off where it ends, unless the first `?` comes after it. -/
lemma readURI_cut {target junk version : Bytes} (ht : char ' ' ∉ target)
    (hq : char '?' ∈ target ∨ char '?' ∉ junk)
    (hj : ¬gHttpPrefix <:+: junk) (hv : version ∈ gHttpVersions) :
    (req.readURI (target ++ char ' ' :: (junk ++ gHttpPrefix ++ version))).1 = true := by
  rw [readURI_accepts]
  by_cases mem : char '?' ∈ target
  · obtain ⟨path, query, rfl, hp⟩ := List.eq_append_cons_of_mem mem
    simp only [List.mem_append, List.mem_cons, not_or] at ht
    exact .inl ⟨path, query, _, by simp, hp, ht.2.2, junk, version, rfl, hj, hv⟩
  · refine .inr ⟨target, _, rfl, ?_, ht, junk, version, rfl, hj, hv⟩
    have ne : char '?' ≠ char ' ' := by decide
    have nv := gHttpVersions_query hv
    simp only [List.mem_append, List.mem_cons, not_or] at nv ⊢
    exact ⟨mem, ne, ⟨hq.resolve_left mem, nv.1⟩, nv.2⟩

/-- The parser accepts the lines of its grammar and the loose ones. -/
lemma readRequestLine_iff : (req.readRequestLine s).1 = true ↔
    (∃ method target version, IsRequestLine s method target version) ∨ Loose s := by
  rw [readRequestLine_accepts]
  constructor
  · rintro ⟨method, uri, rfl, hm, h⟩
    rw [readURI_accepts] at h
    rcases h with ⟨path, query, _, rfl, hp, hn, junk, version, rfl, hj, hv⟩ |
      ⟨path, _, rfl, hq, hn, junk, version, rfl, hj, hv⟩
    · by_cases sp : char ' ' ∈ path
      · exact .inr (.space hm hp sp hn hj hv)
      · have ht : char ' ' ∉ path ++ char '?' :: query := by
          have : char ' ' ≠ char '?' := by decide
          simp [sp, hn, this]
        have e : path ++ char '?' :: (query ++ char ' ' :: (junk ++ gHttpPrefix ++ version))
            = (path ++ char '?' :: query) ++ char ' ' :: (junk ++ gHttpPrefix ++ version) := by
          simp
        rw [e]
        by_cases nil : junk = []
        · subst nil
          exact .inl ⟨method, _, version, rfl, hm, ht, hv⟩
        · exact .inr (.junk hm ht nil hj hv (.inl (by simp)))
    · by_cases nil : junk = []
      · subst nil
        exact .inl ⟨method, path, version, rfl, hm, hn, hv⟩
      · refine .inr (.junk hm hn nil hj hv (.inr ?_))
        simp only [List.mem_append, List.mem_cons, not_or] at hq
        exact hq.2.2.1.1
  · rintro (⟨method, target, version, h⟩ | h)
    · refine ⟨method, _, h.eq, h.method_mem, ?_⟩
      exact @readURI_cut _ target [] version h.target_space (.inr (by simp)) (by decide) h.version_mem
    · cases h with
      | junk hm ht _ hj hv hq => exact ⟨_, _, rfl, hm, readURI_cut _ ht hq hj hv⟩
      | space hm hp _ hn hj hv =>
        refine ⟨_, _, rfl, hm, ?_⟩
        exact (readURI_accepts _).2 (.inl ⟨_, _, _, rfl, hp, hn, _, _, rfl, hj, hv⟩)

end HTTPRequest

/-! ## The fields -/

/-- Every listed method is the text of a method. -/
lemma HttpMethod.exists_text {method : Bytes} (h : method ∈ gHttpMethods) :
    ∃ m : HttpMethod, m ≠ .kInvalid ∧ m.text = method := by
  simp only [gHttpMethods, List.mem_cons, List.not_mem_nil, or_false] at h
  rcases h with rfl | rfl | rfl | rfl | rfl
  · exact ⟨.kGet, by decide, rfl⟩
  · exact ⟨.kPost, by decide, rfl⟩
  · exact ⟨.kHead, by decide, rfl⟩
  · exact ⟨.kPut, by decide, rfl⟩
  · exact ⟨.kDelete, by decide, rfl⟩

/-- Every listed version is the text of a version. -/
lemma HttpVersion.exists_text {version : Bytes} (h : version ∈ gHttpVersions) :
    ∃ v : HttpVersion, v ≠ .kUnknown ∧ v.text = version := by
  simp only [gHttpVersions, List.mem_cons, List.not_mem_nil, or_false] at h
  rcases h with rfl | rfl
  · exact ⟨.kHttp10, by decide, rfl⟩
  · exact ⟨.kHttp11, by decide, rfl⟩

/-- What stands before and from the first separator on. -/
lemma takeWhile_sep {c : UInt8} {s t : Bytes} (h : c ∉ s) :
    (s ++ c :: t).takeWhile (· ≠ c) = s ∧ (s ++ c :: t).dropWhile (· ≠ c) = c :: t := by
  have all : ∀ x ∈ s, decide (x ≠ c) = true := fun x hx => decide_eq_true (fun e => h (e ▸ hx))
  constructor
  · rw [List.takeWhile_append_of_pos all, List.takeWhile_cons_of_neg (by simp), List.append_nil]
  · rw [List.dropWhile_append_of_pos all, List.dropWhile_cons_of_neg (by simp)]

/-- The fields a line of the grammar gives a fresh request. -/
lemma IsRequestLine.denotes {line method target version : Bytes}
    (h : IsRequestLine line method target version) :
    (HTTPRequest.new.readRequestLine line).2.Denotes method target version := by
  have hm := gHttpMethods_space h.method_mem
  obtain ⟨m, valid, em⟩ := HttpMethod.exists_text h.method_mem
  obtain ⟨v, known, ev⟩ := HttpVersion.exists_text h.version_mem
  have nq := gHttpVersions_query h.version_mem
  rw [h.eq]
  simp only [HTTPRequest.readRequestLine]
  rw [if_neg (idxOf_sep_ne hm), take_sep hm, drop_sep hm, ← em, readMethod_text valid, if_pos rfl,
    ← ev]
  simp only [HTTPRequest.readURI]
  by_cases mem : char '?' ∈ target
  · obtain ⟨path, query, rfl, hp⟩ := List.eq_append_cons_of_mem mem
    have sp := h.target_space
    simp only [List.mem_append, List.mem_cons, not_or] at sp
    rw [List.append_assoc, List.cons_append, if_pos (idxOf_sep_ne hp), take_sep hp, drop_sep hp,
      take_sep sp.2.2, drop_sep sp.2.2, readVersion_text known]
    exact ⟨rfl, rfl, (takeWhile_sep hp).1.symm, by rw [(takeWhile_sep hp).2]; rfl⟩
  · have all : ∀ x ∈ target, decide (x ≠ char '?') = true := fun x hx =>
      decide_eq_true (fun e => mem (e ▸ hx))
    have nl : char '?' ∉ target ++ char ' ' :: (gHttpPrefix ++ v.text) := by
      rw [List.mem_append, not_or, ev]
      exact ⟨mem, List.not_mem_cons_of_ne_of_not_mem (by decide) nq⟩
    rw [if_neg (not_not.2 (List.idxOf_eq_length nl)), take_sep h.target_space,
      drop_sep h.target_space, readVersion_text known]
    refine ⟨rfl, rfl, (List.takeWhile_eq_self_iff.2 all).symm, ?_⟩
    rw [List.dropWhile_eq_nil_iff.2 all]
    rfl

/-- The answer for a line is the one of the grammar exactly when the line is not loose. -/
lemma readByGrammar_iff (line : Bytes) :
    ReadByGrammar line (HTTPRequest.new.readRequestLine line).1
      (HTTPRequest.new.readRequestLine line).2 ↔ ¬Loose line := by
  constructor
  · intro h loose
    have ok := (HTTPRequest.readRequestLine_iff .new).2 (.inr loose)
    obtain ⟨method, target, version, g⟩ := h.accepts.1 ok
    exact loose.not_isRequestLine g
  · intro strict
    refine ⟨?_, IsRequestLine.denotes⟩
    rw [HTTPRequest.readRequestLine_iff]
    exact or_iff_left strict

/-- The source reads a line by the grammar exactly when the line is not loose. -/
lemma LineAt.readByGrammar_iff {B I : Type} [BufferType B I] [LawfulBuffer B I] {b : B} {line : Bytes}
    {start end_ : I} (h : LineAt b line start end_) :
    ∃ ok req, HTTPContext.parseRequestLine .new b start end_ = some (ok, req) ∧
      (ReadByGrammar line ok req ↔ ¬Loose line) :=
  ⟨_, _, h.parseRequestLine, Http.readByGrammar_iff line⟩

/-- `parseRequestLine` with a fresh request, on any line of either buffer type, accepts exactly its grammar and fills
    in the request accordingly if and only if the line is not loose. The iterators of the linked buffer are taken to
    be valid. -/
theorem parseRequestLine_grammar (line : Bytes) :
    (∀ (b : Buffer) (start end_ : Nat), LineAt b line start end_ →
      ∃ ok req, HTTPContext.parseRequestLine .new b start end_ = some (ok, req) ∧
        (ReadByGrammar line ok req ↔ ¬Loose line)) ∧
    (∀ (lb : LinkedBuffer) (start end_ : LinkedBufferIter), LineAt lb line start end_ →
      ∃ ok req, HTTPContext.parseRequestLine .new lb start end_ = some (ok, req) ∧
        (ReadByGrammar line ok req ↔ ¬Loose line)) :=
  ⟨fun _ _ _ h => h.readByGrammar_iff, fun _ _ _ h => h.readByGrammar_iff⟩

/-- A line of the grammar in a linked buffer. -/
theorem parseRequestLine_grammar_query :
    ∃ (lb : LinkedBuffer) (start end_ : LinkedBufferIter),
      LineAt lb (bytes "GET /a?b=1 HTTP/1.1") start end_ ∧
      ∃ ok req, HTTPContext.parseRequestLine .new lb start end_ = some (ok, req) ∧
        (ReadByGrammar (bytes "GET /a?b=1 HTTP/1.1") ok req ↔ ¬Loose (bytes "GET /a?b=1 HTTP/1.1")) := by
  have cr : 13 ∉ bytes "GET /a?b=1 HTTP/1.1" := by decide
  obtain ⟨lb, start, end_, _, h⟩ := @LineAt.exists_of_notMem LinkedBuffer _ _ _ _ cr
  exact ⟨lb, start, end_, h, (parseRequestLine_grammar _).2 lb start end_ h⟩

/-- Text between the target and the version is skipped. -/
theorem parseRequestLine_skips_junk :
    ∃ (b : Buffer) (start end_ : Nat), LineAt b (bytes "GET /a x HTTP/1.1") start end_ ∧
      ∃ req, HTTPContext.parseRequestLine .new b start end_ = some (true, req) ∧
        ¬ReadByGrammar (bytes "GET /a x HTTP/1.1") true req := by
  have cr : 13 ∉ bytes "GET /a x HTTP/1.1" := by decide
  obtain ⟨b, start, end_, _, h⟩ := @LineAt.exists_of_notMem Buffer _ _ _ _ cr
  have loose : Loose (bytes "GET /a x HTTP/1.1") :=
    @Loose.junk (bytes "GET") (bytes "/a") (bytes "x ") (bytes "1.1") (by decide) (by decide)
      (by decide) (by decide) (by decide) (by decide)
  have ok := (HTTPRequest.readRequestLine_iff .new).2 (.inr loose)
  refine ⟨b, start, end_, h, (HTTPRequest.new.readRequestLine (bytes "GET /a x HTTP/1.1")).2, ?_, ?_⟩
  · rw [h.parseRequestLine, ← ok]
  · intro g
    rw [← ok] at g
    exact (readByGrammar_iff _).1 g loose

end WebServer.Http
