import WebServer.Net.Callbacks

/-!
# The status of a connection

`Advances c c'` says how a handler may lead from `c` to `c'`: the status moves forward in the order
`kConnecting`, `kConnected`, `kDisconnecting`, `kDisconnected`, and `removeChannelInPoller` and
`closeCallback_` are each called once if the connection is closed on the way, and else not. It is a
preorder, so a handler advances if what it is made of does. Nothing is assumed of the buffers: the lemmas
are about every handler that returns.

`TCPConnection.receive` is `handleRead` up to the call of `readCallback_`, for a callback that is run step
by step.
-/

namespace WebServer.Net

/-- The place of a status in the order of the states. -/
def Status.rank : Status → Nat
  | .kConnecting => 0
  | .kConnected => 1
  | .kDisconnecting => 2
  | .kDisconnected => 3

/-- How often a connection is closed when its status changes from `s` to `s'`. -/
def Status.closings (s s' : Status) : Nat := if s ≠ .kDisconnected ∧ s' = .kDisconnected then 1 else 0

namespace Status

/-- A status that stays is no closing. -/
lemma closings_self {s : Status} : s.closings s = 0 := if_neg fun h => h.1 h.2

/-- No status is behind disconnected. -/
lemma rank_le {s : Status} : s.rank ≤ Status.kDisconnected.rank := by
  cases s <;> decide

/-- An open connection is disconnecting at most. -/
lemma rank_le_of_open {s : Status} (h : s ≠ .kDisconnected) : s.rank ≤ Status.kDisconnecting.rank := by
  cases s with
  | kDisconnected => exact absurd rfl h
  | _ => decide

/-- Nothing comes after `kDisconnected`. -/
lemma closed_of_rank_le {s : Status} (h : Status.kDisconnected.rank ≤ s.rank) : s = .kDisconnected := by
  cases s with
  | kDisconnected => rfl
  | _ => exact absurd h (by decide)

/-- On a way forward a connection is closed once. -/
lemma closings_add {s s1 s' : Status} (h : s.rank ≤ s1.rank) (h' : s1.rank ≤ s'.rank) :
    s.closings s1 + s1.closings s' = s.closings s' := by
  unfold closings
  by_cases hs : s = .kDisconnected
  · subst hs
    rw [closed_of_rank_le h]
    simp
  · by_cases hs1 : s1 = .kDisconnected
    · subst hs1
      simp [closed_of_rank_le h', hs]
    · simp [hs, hs1]

end Status

namespace TCPConnection

variable {B I Ctx : Type} [BufferType B I] {c c1 c' : TCPConnection B Ctx}

/-- `TCPConnection::handleRead` up to the call of `readCallback_`, and whether it is called. -/
def receive (c : TCPConnection B Ctx) (r : ReadResult) : Option (TCPConnection B Ctx × Bool) := do
  if c.status_ = .kConnected ∨ c.status_ = .kDisconnecting then
    let (n, in_buffer) ← BufferType.writeFromFD c.in_buffer_ r
    let c := { c with in_buffer_ := in_buffer }.record (.read n)
    if n > 0 then
      some (c, true)
    else if n = 0 then
      some (c.handleClose, false)
    else
      some (c.handleError, false)
  else
    some (c, false)

/-- `handleRead` receives, and calls its callback when something arrived. -/
lemma handleRead_eq {r : ReadResult} {cb : TCPConnection B Ctx → Option (TCPConnection B Ctx)} :
    c.handleRead r cb = (c.receive r).bind fun p => if p.2 = true then cb p.1 else some p.1 := by
  unfold handleRead receive
  by_cases hs : c.status_ = .kConnected ∨ c.status_ = .kDisconnecting
  · simp only [if_pos hs, Option.bind_eq_bind, Option.bind_assoc]
    congr 1
    funext p
    by_cases hp : p.1 > 0
    · simp [if_pos hp]
    · simp only [if_neg hp]
      split <;> rfl
  · simp [if_neg hs]

/-- The status moves forward; the channel is removed and `closeCallback_` called once if the connection is
    closed on the way, and else not. -/
structure Advances (c c' : TCPConnection B Ctx) : Prop where
  forward : c.status_.rank ≤ c'.status_.rank
  log : ∃ l, c'.log = c.log ++ l ∧ l.count .removeChannel = c.status_.closings c'.status_ ∧
    l.count .closeCallback = c.status_.closings c'.status_

namespace Advances

omit [BufferType B I] in
/-- A step that neither closes nor removes. -/
lemma of_log {l : List Action} (hl : c'.log = c.log ++ l) (hr : Action.removeChannel ∉ l)
    (hc : Action.closeCallback ∉ l) (hs : c'.status_ = c.status_) : c.Advances c' := by
  refine ⟨by rw [hs], l, hl, ?_, ?_⟩
  · rw [hs, Status.closings_self, List.count_eq_zero.2 hr]
  · rw [hs, Status.closings_self, List.count_eq_zero.2 hc]

omit [BufferType B I] in
/-- Nothing done moves nothing back. -/
lemma refl : c.Advances c := of_log (l := []) (by simp) (by simp) (by simp) rfl

omit [BufferType B I] in
/-- Two advances are one. -/
lemma trans (h : c.Advances c1) (h' : c1.Advances c') : c.Advances c' := by
  obtain ⟨l, el, rl, cl⟩ := h.log
  obtain ⟨l', el', rl', cl'⟩ := h'.log
  have add := Status.closings_add h.forward h'.forward
  refine ⟨h.forward.trans h'.forward, l ++ l', by rw [el', el, List.append_assoc], ?_, ?_⟩
  · rw [List.count_append, rl, rl', add]
  · rw [List.count_append, cl, cl', add]

omit [BufferType B I] in
/-- A connection that was created stays so. -/
lemma begun (h : c.Advances c') (hs : c.status_ ≠ .kConnecting) : c'.status_ ≠ .kConnecting := by
  intro hs'
  have le := h.forward
  rw [hs'] at le
  cases hc : c.status_ with
  | kConnecting => exact hs hc
  | _ =>
    rw [hc] at le
    exact absurd le (by decide)

/-- A record of anything but a close is an advance. -/
lemma record {a : Action} (hr : a ≠ .removeChannel) (hc : a ≠ .closeCallback) :
    c.Advances (c.record a) :=
  of_log rfl (by simpa using hr.symm) (by simpa using hc.symm) rfl

/-- `handleClose` is an advance. -/
lemma handleClose : c.Advances c.handleClose := by
  refine ⟨by rw [handleClose_status]; exact Status.rank_le, closeLog c.status_, handleClose_log, ?_, ?_⟩
  · rw [handleClose_status, closeLog, Status.closings]
    split <;> simp_all
  · rw [handleClose_status, closeLog, Status.closings]
    split <;> simp_all

/-- Updating the channel is an advance. -/
lemma update {ch : Channel} : c.Advances ({ c with channel_ := ch }.updateChannelInPoller) :=
  of_log rfl (by simp) (by simp) rfl

/-- Creating the connection is an advance. -/
lemma handleCreate (hs : c.status_ = .kConnecting) : c.Advances c.handleCreate := by
  refine ⟨by rw [hs]; exact Nat.zero_le _, ?_⟩
  refine ⟨[.assert (c.status_ = .kConnecting), .addChannel c.channel_.enableReading.events_type_], ?_, ?_, ?_⟩
  · simp [TCPConnection.handleCreate, addChannelInPoller, TCPConnection.record]
  · rw [hs]
    rfl
  · rw [hs]
    rfl

/-- `shutdown` is an advance. -/
lemma shutdown : c.Advances c.shutdown := by
  -- the two branches that set the status
  have sets {l : List Action} (hs : c.status_ ≠ .kDisconnected) (hr : Action.removeChannel ∉ l)
      (hc : Action.closeCallback ∉ l) :
      c.Advances { c with status_ := .kDisconnecting, log := c.log ++ l } := by
    have none : c.status_.closings .kDisconnecting = 0 := if_neg (by simp)
    refine ⟨Status.rank_le_of_open hs, l, rfl, ?_, ?_⟩
    · rw [List.count_eq_zero.2 hr, none]
    · rw [List.count_eq_zero.2 hc, none]
  rcases c.shutdown_cases with ⟨_, e⟩ | ⟨hs, _, e⟩ | ⟨hs, _, e⟩
  · rw [e]
    exact refl
  · rw [e]
    simpa using sets (l := []) hs (by simp) (by simp)
  · rw [e]
    exact sets hs (by simp) (by simp)

/-- Writing out the buffer is an advance. -/
lemma readToFD {w : WriteResult} {n : Int} (e : c.readToFD w = some (n, c')) : c.Advances c' := by
  obtain ⟨p, _, e⟩ := Option.bind_eq_some_iff.1 e
  cases e
  exact of_log rfl (by simp) (by simp) rfl

/-- `send` is an advance. -/
lemma send {cb : SendCallback} {w : WriteResult} (e : c.send cb w = some c') : c.Advances c' := by
  obtain ⟨out, _, e⟩ := Option.bind_eq_some_iff.1 e
  have appends : c.Advances ({ c with out_buffer_ := out }.record (.append cb.appends.flatten)) :=
    of_log rfl (by simp) (by simp) rfl
  refine appends.trans ?_
  generalize { c with out_buffer_ := out }.record (.append cb.appends.flatten) = c at e
  dsimp only at e
  split at e
  case isFalse =>
    cases e
    exact refl
  case isTrue =>
    obtain ⟨⟨n, c1⟩, e1, e⟩ := Option.bind_eq_some_iff.1 e
    refine (readToFD e1).trans ?_
    split at e
    case isTrue =>
      cases e
      exact handleClose
    case isFalse =>
      obtain ⟨size, _, e⟩ := Option.bind_eq_some_iff.1 e
      split at e
      · cases e
        exact update
      · cases e
        exact refl

/-- A call of the server is an advance. -/
lemma call {x : Call} (e : c.call x = some c') : c.Advances c' := by
  cases x with
  | send cb w => exact send e
  | shutdown =>
    cases e
    exact shutdown

/-- The calls of a callback are an advance. -/
lemma calls {script : List Call} (e : script.foldlM TCPConnection.call c = some c') : c.Advances c' := by
  induction script generalizing c with
  | nil =>
    cases e
    exact refl
  | cons x script ih =>
    rw [List.foldlM_cons] at e
    obtain ⟨c1, e1, e⟩ := Option.bind_eq_some_iff.1 e
    exact (call e1).trans (ih e)

/-- `handleWrite` asserts and writes, and then advances. -/
lemma after_write {w : WriteResult} (e : c.handleWrite w = some c') :
    ∃ n c1, (c.record (.assert (c.status_ = .kConnected))).readToFD w = some (n, c1) ∧
      c1.Advances c' := by
  obtain ⟨⟨n, c1⟩, e1, e⟩ := Option.bind_eq_some_iff.1 e
  refine ⟨n, c1, e1, ?_⟩
  dsimp only at e
  split at e
  case isTrue =>
    cases e
    exact handleClose
  case isFalse =>
    obtain ⟨size, _, e⟩ := Option.bind_eq_some_iff.1 e
    split at e
    case isFalse =>
      cases e
      exact refl
    case isTrue =>
      split at e
      · cases e
        exact update.trans shutdown
      · cases e
        exact update

/-- `handleWrite` is an advance. -/
lemma handleWrite {w : WriteResult} (e : c.handleWrite w = some c') : c.Advances c' := by
  obtain ⟨n, c1, e1, adv⟩ := after_write e
  have asserts : c.Advances (c.record (.assert (c.status_ = .kConnected))) := record (by simp) (by simp)
  exact asserts.trans ((readToFD e1).trans adv)

/-- Receiving is an advance. -/
lemma receive {r : ReadResult} {called : Bool} (e : c.receive r = some (c', called)) : c.Advances c' := by
  unfold TCPConnection.receive at e
  split at e
  case isFalse =>
    cases e
    exact refl
  case isTrue =>
    obtain ⟨⟨n, b⟩, _, e⟩ := Option.bind_eq_some_iff.1 e
    have reads : c.Advances ({ c with in_buffer_ := b }.record (.read n)) :=
      of_log rfl (by simp) (by simp) rfl
    refine reads.trans ?_
    dsimp only at e
    split at e
    case isTrue =>
      cases e
      exact refl
    case isFalse =>
      split at e
      · cases e
        exact handleClose
      · cases e
        exact handleClose

/-- Every callback is an advance. -/
lemma callback {k : Callback} (e : c.callback k = some c') : c.Advances c' := by
  cases k with
  | close =>
    cases e
    exact handleClose
  | error =>
    cases e
    exact handleClose
  | read r script =>
    rw [TCPConnection.callback, handleRead_eq] at e
    obtain ⟨⟨c1, called⟩, e1, e⟩ := Option.bind_eq_some_iff.1 e
    refine (receive e1).trans ?_
    cases called with
    | true => exact calls e
    | false =>
      cases e
      exact refl
  | write w => exact handleWrite e

end Advances

section Receive

open LawfulBuffer

variable [LawfulBuffer B I]

/-- Everything `receive` can do on a connection that was accepted. -/
lemma receive_cases (s : c.Sound) (begun : c.status_ ≠ .kConnecting) (r : ReadResult) :
    (c.status_ = .kDisconnected ∧ c.receive r = some (c, false)) ∨
    (c.status_ ≠ .kDisconnected ∧ ∃ n,
      ((r.delivers = false ∧ c.receive r = some ((c.record (.read n)).handleClose, false)) ∨
       (r.delivers = true ∧ ∃ b, Parsable b ∧
          c.receive r = some ({ c with in_buffer_ := b }.record (.read n), true)))) := by
  unfold receive
  by_cases hs : c.status_ = .kDisconnected
  · refine .inl ⟨hs, ?_⟩
    rw [if_neg (by simp [hs])]
  · refine .inr ⟨hs, (sysw.read (capacity c.in_buffer_) r).1, ?_⟩
    have ho : c.status_ = .kConnected ∨ c.status_ = .kDisconnecting := by
      cases hc : c.status_ with
      | kConnecting => exact absurd hc begun
      | kConnected => exact .inl rfl
      | kDisconnecting => exact .inr rfl
      | kDisconnected => exact absurd hc hs
    rw [if_pos ho]
    have iff := sysw.read_pos_iff (r := r) (capacity_pos c.in_buffer_)
    cases hr : r.delivers with
    | false =>
      have hn : (sysw.read (capacity c.in_buffer_) r).1 ≤ 0 := by
        by_contra hp
        rw [iff.1 (by omega)] at hr
        cases hr
      refine .inl ⟨rfl, ?_⟩
      simp only [writeFromFD_nonpos s.input hn, Option.bind_eq_bind, Option.bind_some]
      rw [if_neg (by omega)]
      split <;> rfl
    | true =>
      have hp := iff.2 hr
      obtain ⟨b, e, pr, _⟩ := writeFromFD_pos s.input hp
      refine .inr ⟨rfl, b, pr, ?_⟩
      simp only [e, Option.bind_eq_bind, Option.bind_some]
      rw [if_pos hp]

/-- `receive` is defined, and it leaves the channel as it is. -/
lemma Sound.receive (s : c.Sound) (begun : c.status_ ≠ .kConnecting) (r : ReadResult) :
    ∃ c' called, c.receive r = some (c', called) ∧ c'.Sound ∧ c'.channel_ = c.channel_ ∧
      (called = true → Parsable c'.in_buffer_) := by
  rcases receive_cases s begun r with ⟨_, e⟩ | ⟨_, n, ⟨_, e⟩ | ⟨_, b, pr, e⟩⟩
  · exact ⟨c, false, e, s, rfl, nofun⟩
  · exact ⟨_, false, e, (s.recordRead s.input n).handleClose, by simp, nofun⟩
  · exact ⟨_, true, e, s.recordRead (.inr pr) n, rfl, fun _ => pr⟩

/-- The calls of the upper layer leave the input as it is. -/
lemma Sound.call_in (s : c.Sound) {x : Call} (e : c.call x = some c') :
    c'.in_buffer_ = c.in_buffer_ := by
  cases x with
  | send cb w =>
    obtain ⟨c1, e1, _, _, hin, _⟩ := s.send cb w
    cases e.symm.trans e1
    exact hin
  | shutdown =>
    cases e
    exact shutdown_in

end Receive

end TCPConnection

end WebServer.Net
