import WebServer.Http.Message

/-!
# A stream of requests

A connection receives the bytes of a list of messages in chunks. `connectionOnRead` parses once for each
chunk and `parseRequest` stops at the end of a message, so a chunk finishes at most one message:
`answered` counts the messages finished, and `answered_eq_length` says when these are all.

`Underway` is the invariant of the parser in between: it will do with what comes next what a parser
standing at the start of the first unfinished message would do with everything from there on.
`Answers.foldlM` is the rule for whatever reads such a stream, chunk by chunk.
-/

namespace WebServer.Http

open Net Lib

namespace Parses

variable {ctx ctx' : HTTPContext} {s t rest : Bytes} {ok : Bool}

/-- A rejected line is rejected again, whatever has come. -/
lemma reject_again (h : Parses ctx s ok ctx' rest) (no : ok = false) :
    Parses ctx' (rest ++ t) false ctx' (rest ++ t) := by
  induction h with
  | done => cases no
  | wait => cases no
  | reject nf fl hl =>
    obtain ⟨again, same⟩ := HTTPContext.readLine_reject hl
    exact .reject (by rwa [same]) fl.append again
  | line _ _ _ _ ih => exact ih no

/-- A message that is not complete is neither rejected nor finished. -/
lemma incomplete {m : Message} {old : HTTPRequest} (e : m.encode = s ++ t) (ne : t ≠ [])
    (h : Parses ⟨.kExpectRequestLine, old⟩ s ok ctx' rest) :
    ok = true ∧ ctx'.state_ ≠ .kGotAll := by
  obtain ⟨ok2, ctx2, rest2, h2⟩ := total ctx' (rest ++ t)
  have whole := message m old []
  rw [List.append_nil, e] at whole
  obtain ⟨rfl, rfl, rfl⟩ := (h.append h2).det whole
  constructor
  · by_contra no
    have := h2.det (h.reject_again (Bool.not_eq_true _ ▸ no))
    cases this.1
  · intro fin
    have := h2.det (.done fin)
    exact ne (List.append_eq_nil_iff.1 this.2.2.symm).2

end Parses

/-- No message is finished since the request object was `base`; `got` has been received since. -/
structure Underway (base : HTTPRequest) (got : Bytes) (ctx : HTTPContext) (rest : Bytes) : Prop where
  unfinished : ctx.state_ ≠ .kGotAll
  resume : ∀ {t ok ctx' rest'}, Parses ctx (rest ++ t) ok ctx' rest' →
    Parses ⟨.kExpectRequestLine, base⟩ (got ++ t) ok ctx' rest'

namespace Underway

variable {base : HTTPRequest} {ms : List Message} {got rest chunk rest' : Bytes}
  {ctx ctx' : HTTPContext} {ok : Bool}

/-- A message is underway when nothing of it has been parsed. -/
lemma start (base : HTTPRequest) (got : Bytes) :
    Underway base got ⟨.kExpectRequestLine, base⟩ got :=
  ⟨by simp, fun h => h⟩

/-- Parsing with the first message complete finishes it. -/
lemma finish {m : Message} (h : Underway base got ctx rest)
    (fol : got ++ chunk <+: (m :: ms).flatMap Message.encode)
    (len : m.encode.length ≤ (got ++ chunk).length) (p : Parses ctx (rest ++ chunk) ok ctx' rest') :
    ok = true ∧ ctx' = ⟨.kGotAll, m.onto base⟩ ∧ got ++ chunk = m.encode ++ rest' ∧
      rest' <+: ms.flatMap Message.encode := by
  obtain ⟨g, e⟩ : m.encode <+: got ++ chunk :=
    List.prefix_of_prefix_length_le (List.prefix_append _ _) fol len
  have p' := h.resume p
  rw [← e] at p' fol ⊢
  obtain ⟨rfl, rfl, rfl⟩ := p'.det (.message m base g)
  exact ⟨rfl, rfl, rfl, (List.prefix_append_right_inj _).1 fol⟩

/-- Parsing with the first message incomplete goes on with it. -/
lemma go_on {m : Message} (h : Underway base got ctx rest)
    (fol : got ++ chunk <+: (m :: ms).flatMap Message.encode)
    (len : (got ++ chunk).length < m.encode.length) (p : Parses ctx (rest ++ chunk) ok ctx' rest') :
    ok = true ∧ Underway base (got ++ chunk) ctx' rest' := by
  obtain ⟨t, e⟩ : got ++ chunk <+: m.encode :=
    List.prefix_of_prefix_length_le fol (List.prefix_append _ _) len.le
  have ne : t ≠ [] := by
    rintro rfl
    rw [← e, List.append_nil] at len
    exact len.ne rfl
  obtain ⟨rfl, nf⟩ := Parses.incomplete e.symm ne (h.resume p)
  exact ⟨rfl, nf, fun p2 => (h.resume p).append p2⟩

end Underway

/-! ## How many messages are finished -/

/-- The number of messages complete in the first `n` bytes. -/
def completed : List Message → Nat → Nat
  | [], _ => 0
  | m :: ms, n => if m.encode.length ≤ n then completed ms (n - m.encode.length) + 1 else 0

/-- The number of messages finished by chunks of these sizes, when `got` bytes are already there and
    every chunk finishes at most one message. -/
def answered : List Message → Nat → List Nat → Nat
  | _, _, [] => 0
  | [], _, _ :: _ => 0
  | m :: ms, got, n :: ns =>
    if m.encode.length ≤ got + n then answered ms (got + n - m.encode.length) ns + 1
    else answered (m :: ms) (got + n) ns

/-- After each chunk at most as many messages are incomplete as there are chunks to come. -/
def Paced (ms : List Message) (ns : List Nat) : Prop :=
  ∀ j ≤ ns.length, ms.length ≤ completed ms (ns.take j).sum + (ns.length - j)

/-- No bytes complete no message. -/
lemma completed_zero (ms : List Message) : completed ms 0 = 0 := by
  cases ms with
  | nil => rfl
  | cons m ms =>
    refine if_neg ?_
    simp only [Message.encode, List.length_append]
    simp [kCRLF]

/-- There are never more answers than messages. -/
lemma answered_le {ms : List Message} {got : Nat} {ns : List Nat} :
    answered ms got ns ≤ ms.length := by
  fun_induction answered ms got ns with
  | case1 => exact Nat.zero_le _
  | case2 => exact Nat.zero_le _
  | case3 m ms got n ns _ ih => simpa using ih
  | case4 m ms got n ns _ ih => exact ih

/-- Bytes beyond the first message count towards the messages after it. -/
lemma completed_cons {m : Message} {ms : List Message} {n x : Nat} (h : m.encode.length ≤ n) :
    completed (m :: ms) (n + x) = completed ms (n - m.encode.length + x) + 1 := by
  rw [completed, if_pos (by omega)]
  congr 2
  omega

/-- The messages left are all finished if there is a chunk for each and, after every chunk, for each
    incomplete one. -/
lemma answered_eq {ms : List Message} {got : Nat} {ns : List Nat} :
    answered ms got ns = ms.length ↔ ms.length ≤ ns.length ∧ ∀ j < ns.length,
      ms.length ≤ completed ms (got + (ns.take (j + 1)).sum) + (ns.length - (j + 1)) := by
  fun_induction answered ms got ns with
  | case1 ms got =>
    simp only [List.length_nil, Nat.le_zero_eq, Nat.not_lt_zero, false_implies, implies_true,
      and_true]
    exact eq_comm
  | case2 => simp
  | case3 m ms got n ns h ih =>
    -- the chunk finishes the first message: one message and one chunk less
    simp only [List.length_cons, Nat.add_right_cancel_iff, ih, Nat.add_le_add_iff_right,
      List.take_succ_cons, List.sum_cons, ← Nat.add_assoc, completed_cons h,
      Nat.add_sub_add_right]
    constructor
    · rintro ⟨hl, hj⟩
      refine ⟨hl, fun j lt => ?_⟩
      cases j with
      | zero => omega
      | succ j =>
        have := hj j (by omega)
        omega
    · rintro ⟨hl, hj⟩
      refine ⟨hl, fun j lt => ?_⟩
      have := hj (j + 1) (by omega)
      omega
  | case4 m ms got n ns h ih =>
    -- one chunk less for as many messages, which is what the condition at `j = 0` allows for
    simp only [List.length_cons, Nat.add_le_add_iff_right, List.take_succ_cons, List.sum_cons,
      ← Nat.add_assoc, Nat.add_sub_add_right] at ih ⊢
    rw [ih]
    constructor
    · rintro ⟨hl, hj⟩
      refine ⟨by omega, fun j lt => ?_⟩
      cases j with
      | zero => simpa using hl.trans (Nat.le_add_left _ _)
      | succ j => exact hj j (by omega)
    · rintro ⟨hl, hj⟩
      refine ⟨?_, fun j lt => hj (j + 1) (by omega)⟩
      have := hj 0 (by omega)
      simpa [completed, h] using this

/-- Every message is finished exactly if the chunks keep pace with the messages. -/
lemma answered_eq_length {ms : List Message} {ns : List Nat} :
    answered ms 0 ns = ms.length ↔ Paced ms ns := by
  rw [answered_eq]
  simp only [Nat.zero_add]
  constructor
  · rintro ⟨hl, hj⟩ j lt
    cases j with
    | zero => exact hl.trans (Nat.le_add_left _ _)
    | succ j => exact hj j lt
  · intro h
    refine ⟨?_, fun j lt => h (j + 1) lt⟩
    have := h 0 (Nat.zero_le _)
    simpa [completed_zero] using this

/-! ## Reading a stream -/

/-- The request object as it is when each of the messages is finished. -/
def objects : HTTPRequest → List Message → List HTTPRequest
  | _, [] => []
  | old, m :: ms => m.onto old :: objects (m.onto old) ms

/-- There is one object for each message. -/
lemma objects_length {old : HTTPRequest} {ms : List Message} : (objects old ms).length = ms.length := by
  induction ms generalizing old with
  | nil => rfl
  | cons m ms ih => exact congrArg (· + 1) ih

/-- A partial machine that reads one chunk for each event. `Inv base got s`: no message is finished since
    the request object was `base`, and `got` has been received since. An event that completes the first
    message puts out what it makes (`look`) of the request object; any other puts out nothing. -/
def Answers {σ ε α : Type} (read : σ → ε → Option σ) (chunk : ε → Bytes) (out : σ → List α)
    (look : HTTPRequest → α) (Inv : HTTPRequest → Bytes → σ → Prop) (Ok : Message → Prop) : Prop :=
  ∀ base m ms got s e, Inv base got s → chunk e ≠ [] →
    got ++ chunk e <+: (m :: ms).flatMap Message.encode → Ok m →
    ∃ s', read s e = some s' ∧
      ((m.encode.length ≤ (got ++ chunk e).length ∧ out s' = out s ++ [look (m.onto base)] ∧
        ∃ got', got ++ chunk e = m.encode ++ got' ∧ Inv (m.onto base) got' s') ∨
       ((got ++ chunk e).length < m.encode.length ∧ out s' = out s ∧ Inv base (got ++ chunk e) s'))

/-- What such a machine puts out for a stream of messages. -/
lemma Answers.foldlM {σ ε α : Type} {read : σ → ε → Option σ} {chunk : ε → Bytes} {out : σ → List α}
    {look : HTTPRequest → α} {Inv : HTTPRequest → Bytes → σ → Prop} {Ok : Message → Prop}
    (step : Answers read chunk out look Inv Ok) {es : List ε} {base : HTTPRequest}
    {ms : List Message} {got : Bytes} {s : σ} (ne : ∀ e ∈ es, chunk e ≠ []) (inv : Inv base got s)
    (fol : got ++ (es.map chunk).flatten = ms.flatMap Message.encode) (ok : ∀ m ∈ ms, Ok m) :
    ∃ s', es.foldlM read s = some s' ∧ out s' = out s ++
      ((objects base ms).map look).take (answered ms got.length (es.map fun e => (chunk e).length)) := by
  induction es generalizing base ms got s with
  | nil => exact ⟨s, rfl, by simp [answered]⟩
  | cons e es ih =>
    rw [List.map_cons, List.flatten_cons, ← List.append_assoc] at fol
    have nee := ne e (.head _)
    have nes : ∀ e' ∈ es, chunk e' ≠ [] := fun e' he => ne e' (.tail _ he)
    cases ms with
    | nil => simp [nee] at fol
    | cons m ms =>
      obtain ⟨s1, e1, ⟨ge, out1, got', eg, inv1⟩ | ⟨lt, out1, inv1⟩⟩ :=
        step _ m ms _ _ _ inv nee (by rw [← fol]; exact List.prefix_append _ _) (ok m (.head _))
      · -- what is left of the chunk belongs to the messages that follow
        rw [eg, List.flatMap_cons, List.append_assoc] at fol
        obtain ⟨s', e', out'⟩ := ih nes inv1 (List.append_cancel_left fol)
          (fun m' hm => ok m' (.tail _ hm))
        refine ⟨s', ?_, ?_⟩
        · rw [List.foldlM_cons, e1]
          exact e'
        · have hg : got.length + (chunk e).length - m.encode.length = got'.length := by
            have := congrArg List.length eg
            simp only [List.length_append] at this
            omega
          rw [List.length_append] at ge
          rw [out', out1, List.map_cons, answered, if_pos ge, hg, objects, List.map_cons,
            List.take_succ_cons, List.append_assoc]
          rfl
      · obtain ⟨s', e', out'⟩ := ih nes inv1 fol ok
        refine ⟨s', ?_, ?_⟩
        · rw [List.foldlM_cons, e1]
          exact e'
        · rw [List.length_append] at lt out'
          rw [out', out1, List.map_cons, answered, if_neg (by omega)]

end WebServer.Http
