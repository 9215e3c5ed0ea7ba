import WebServer.Net.TCPConnection

/-!
# What the handlers of a connection do

One lemma for each handler of `TCPConnection` that says everything it can do: `send_cases`,
`handleWrite_cases`, `handleRead_cases` and, for the rest, equations for the fields. The lemmas are
stated for a lawful buffer type; the only side condition is that the output buffer is usable, and, for
`handleWrite`, that there is something to write.
-/

namespace WebServer.Net

open LawfulBuffer

/-- The bytes the kernel accepted in one action. -/
@[simp] def Action.accepted : Action → Bytes
  | .write call => call.accepted
  | _ => []

/-- The bytes a send callback appended in one action. -/
@[simp] def Action.appended : Action → Bytes
  | .append bs => bs
  | _ => []

/-- The action is a `write` or `writev` of one or more bytes. -/
@[simp] def Action.writesBytes : Action → Bool
  | .write call => call.offered ≠ []
  | _ => false

/-- Neither a `SHUT_WR` nor a write of bytes. -/
def Silent (l : List Action) : Prop := .shutdownWr ∉ l ∧ ∀ a ∈ l, a.writesBytes = false

/-- The bytes the kernel accepted. -/
def accepted (log : List Action) : Bytes := log.flatMap Action.accepted

/-- The bytes the send callbacks appended. -/
def appended (log : List Action) : Bytes := log.flatMap Action.appended

@[simp] lemma accepted_nil : accepted [] = [] := rfl

@[simp] lemma appended_nil : appended [] = [] := rfl

@[simp] lemma accepted_cons {a l} : accepted (a :: l) = a.accepted ++ accepted l := rfl

@[simp] lemma appended_cons {a l} : appended (a :: l) = a.appended ++ appended l := rfl

@[simp] lemma accepted_append {l l' : List Action} :
    accepted (l ++ l') = accepted l ++ accepted l' := List.flatMap_append

@[simp] lemma appended_append {l l' : List Action} :
    appended (l ++ l') = appended l ++ appended l' := List.flatMap_append

namespace TCPConnection

variable {B I Ctx : Type} [BufferType B I] {c c' : TCPConnection B Ctx}

section Fields

@[simp] lemma record_channel {a} : (c.record a).channel_ = c.channel_ := rfl
@[simp] lemma record_status {a} : (c.record a).status_ = c.status_ := rfl
@[simp] lemma record_in {a} : (c.record a).in_buffer_ = c.in_buffer_ := rfl
@[simp] lemma record_out {a} : (c.record a).out_buffer_ = c.out_buffer_ := rfl
@[simp] lemma record_context {a} : (c.record a).context_ = c.context_ := rfl
@[simp] lemma record_interest {a} : (c.record a).interest = c.interest := rfl
@[simp] lemma record_log {a} : (c.record a).log = c.log ++ [a] := rfl

/-- The log entries of `handleClose`. -/
def closeLog (s : Status) : List Action :=
  if s ≠ .kDisconnected then [.removeChannel, .closeCallback] else []

@[simp] lemma handleClose_channel : c.handleClose.channel_ = c.channel_ := by
  unfold handleClose
  split <;> rfl

@[simp] lemma handleClose_in : c.handleClose.in_buffer_ = c.in_buffer_ := by
  unfold handleClose
  split <;> rfl

@[simp] lemma handleClose_out : c.handleClose.out_buffer_ = c.out_buffer_ := by
  unfold handleClose
  split <;> rfl

@[simp] lemma handleClose_context : c.handleClose.context_ = c.context_ := by
  unfold handleClose
  split <;> rfl

@[simp] lemma handleClose_status : c.handleClose.status_ = .kDisconnected := by
  unfold handleClose
  split
  case isTrue => rfl
  case isFalse h => exact not_not.1 h

@[simp] lemma handleClose_log : c.handleClose.log = c.log ++ closeLog c.status_ := by
  unfold handleClose closeLog
  split
  case isTrue => simp [removeChannelInPoller, record]
  case isFalse => simp

/-- Closing writes nothing. -/
lemma silent_closeLog {s : Status} : Silent (closeLog s) := by
  unfold closeLog Silent
  split <;> simp

/-- A closed connection is not registered. -/
lemma handleClose_interest (h : c.status_ = .kDisconnected → c.interest = none) :
    c.handleClose.interest = none := by
  unfold handleClose
  split
  case isTrue => rfl
  case isFalse hs => exact h (not_not.1 hs)

@[simp] lemma handleError_eq : c.handleError = c.handleClose := rfl

@[simp] lemma accepted_closeLog {s} : accepted (closeLog s) = [] := by
  unfold closeLog
  split <;> rfl

@[simp] lemma appended_closeLog {s} : appended (closeLog s) = [] := by
  unfold closeLog
  split <;> rfl

@[simp] lemma update_channel : c.updateChannelInPoller.channel_ = c.channel_ := rfl
@[simp] lemma update_status : c.updateChannelInPoller.status_ = c.status_ := rfl
@[simp] lemma update_in : c.updateChannelInPoller.in_buffer_ = c.in_buffer_ := rfl
@[simp] lemma update_out : c.updateChannelInPoller.out_buffer_ = c.out_buffer_ := rfl
@[simp] lemma update_context : c.updateChannelInPoller.context_ = c.context_ := rfl
@[simp] lemma update_interest : c.updateChannelInPoller.interest =
    c.interest.map fun _ => c.channel_.events_type_ := rfl
@[simp] lemma update_log : c.updateChannelInPoller.log =
    c.log ++ [.updateChannel c.channel_.events_type_] := rfl

/-- `shutdown` does nothing after a close, waits while there is write interest, and else issues
    `SHUT_WR`. -/
lemma shutdown_cases (c : TCPConnection B Ctx) :
    (c.status_ = .kDisconnected ∧ c.shutdown = c) ∨
    (c.status_ ≠ .kDisconnected ∧ c.channel_.isWriting = true ∧
      c.shutdown = { c with status_ := .kDisconnecting }) ∨
    (c.status_ ≠ .kDisconnected ∧ c.channel_.isWriting = false ∧
      c.shutdown = { c with status_ := .kDisconnecting, log := c.log ++ [.shutdownWr] }) := by
  unfold shutdown
  by_cases h : c.status_ = .kDisconnected
  · exact .inl ⟨h, if_pos h⟩
  · rw [if_neg h]
    cases hw : c.channel_.isWriting with
    | true =>
      refine .inr (.inl ⟨h, rfl, ?_⟩)
      simp [hw]
    | false =>
      refine .inr (.inr ⟨h, rfl, ?_⟩)
      simp [hw, record]

end Fields

/-- Closing twice is closing once. -/
lemma handleClose_handleClose : c.handleClose.handleClose = c.handleClose :=
  if_neg (not_not.2 handleClose_status)

/-- What `Channel::handleEvent` does before the read callback. -/
def closeFirst (c : TCPConnection B Ctx) (revents : Mask) : TCPConnection B Ctx :=
  let c := if revents.meets POLLHUP && !revents.meets POLLIN then c.handleClose else c
  if revents.meets (POLLERR ||| POLLNVAL) then c.handleError else c

/-- The first callbacks of an event close the connection or leave it as it is. -/
lemma closeFirst_cases {revents : Mask} :
    ((revents.meets POLLHUP && !revents.meets POLLIN) = false ∧
      revents.meets (POLLERR ||| POLLNVAL) = false ∧ c.closeFirst revents = c) ∨
    ((revents.meets POLLHUP = true ∨ revents.meets (POLLERR ||| POLLNVAL) = true) ∧
      c.closeFirst revents = c.handleClose) := by
  unfold closeFirst handleError
  cases hup : revents.meets POLLHUP && !revents.meets POLLIN with
  | true =>
    refine .inr ⟨.inl (Bool.and_eq_true_iff.1 hup).1, ?_⟩
    cases revents.meets (POLLERR ||| POLLNVAL) with
    | true => exact handleClose_handleClose
    | false => rfl
  | false =>
    cases err : revents.meets (POLLERR ||| POLLNVAL) with
    | true => exact .inr ⟨.inr rfl, rfl⟩
    | false => exact .inl ⟨rfl, rfl, rfl⟩

/-- An event: the callbacks that close, then the read callback, then the write callback. -/
lemma handleEvent_closeFirst {revents : Mask} {r : ReadResult}
    {cb : TCPConnection B Ctx → Option (TCPConnection B Ctx)} {w : WriteResult} :
    c.handleEvent revents r cb w
      = (if revents.meets (POLLIN ||| POLLRDHUP ||| POLLPRI) then (c.closeFirst revents).handleRead r cb
          else some (c.closeFirst revents)).bind
        fun c => if revents.meets POLLOUT then c.handleWrite w else some c := by
  unfold handleEvent
  cases revents.meets (POLLIN ||| POLLRDHUP ||| POLLPRI) <;> rfl

/-- The rule for `Channel::handleEvent`: `P` is kept by the close, error and read callbacks and gives `Q`
    after the write callback. -/
lemma handleEvent_rule {P Q : TCPConnection B Ctx → Prop} {revents : Mask} {r : ReadResult}
    {cb : TCPConnection B Ctx → Option (TCPConnection B Ctx)} {w : WriteResult} (pre : P c)
    (close : revents.meets POLLHUP = true ∨ revents.meets (POLLERR ||| POLLNVAL) = true →
      ∀ {c}, P c → P c.handleClose)
    (read : ∀ {c}, P c → ∃ c', c.handleRead r cb = some c' ∧ P c')
    (write : revents.meets POLLOUT = true → ∀ {c}, P c → ∃ c', c.handleWrite w = some c' ∧ Q c')
    (skip : revents.meets POLLOUT = false → ∀ {c}, P c → Q c) :
    ∃ c', c.handleEvent revents r cb w = some c' ∧ Q c' := by
  rw [handleEvent_closeFirst]
  have first : P (c.closeFirst revents) := by
    rcases closeFirst_cases with ⟨_, _, e⟩ | ⟨asked, e⟩
    · rw [e]
      exact pre
    · rw [e]
      exact close asked pre
  have last {c} (h : P c) :
      ∃ c', (if revents.meets POLLOUT = true then c.handleWrite w else some c) = some c' ∧ Q c' := by
    split
    case isTrue out => exact write out h
    case isFalse out => exact ⟨c, rfl, skip (Bool.not_eq_true _ ▸ out) h⟩
  split
  · obtain ⟨c3, e3, h3⟩ := read first
    rw [e3, Option.bind_some]
    exact last h3
  · rw [Option.bind_some]
    exact last first

/-- What `Channel::handleEvent` went through: a close, the read callback and the write callback, each
    only if the events ask for it. -/
lemma handleEvent_cases {revents : Mask} {r : ReadResult}
    {cb : TCPConnection B Ctx → Option (TCPConnection B Ctx)} {w : WriteResult}
    (e : c.handleEvent revents r cb w = some c') :
    ∃ c2 c3, (c2 = c ∨ c2 = c.handleClose) ∧
      (c3 = c2 ∨ revents.meets (POLLIN ||| POLLRDHUP ||| POLLPRI) = true ∧
        c2.handleRead r cb = some c3) ∧
      (c' = c3 ∨ revents.meets POLLOUT = true ∧ c3.handleWrite w = some c') := by
  rw [handleEvent_closeFirst] at e
  obtain ⟨c3, e3, e⟩ := Option.bind_eq_some_iff.1 e
  refine ⟨c.closeFirst revents, c3, ?_, ?_, ?_⟩
  · exact closeFirst_cases.imp (fun h => h.2.2) And.right
  · split at e3
    case isTrue hin => exact .inr ⟨hin, e3⟩
    case isFalse =>
      cases e3
      exact .inl rfl
  · split at e
    case isTrue out => exact .inr ⟨out, e⟩
    case isFalse =>
      cases e
      exact .inl rfl

/-- The state after the kernel answered a write of the bytes `bs`. -/
def wrote (c : TCPConnection B Ctx) (out : B) (log : List Action) (call : WriteCall) :
    TCPConnection B Ctx :=
  { c with out_buffer_ := out, log := c.log ++ log ++ [.write call] }

section Wrote

variable {out : B} {l : List Action} {call : WriteCall}

@[simp] lemma wrote_channel : (c.wrote out l call).channel_ = c.channel_ := rfl
@[simp] lemma wrote_status : (c.wrote out l call).status_ = c.status_ := rfl
@[simp] lemma wrote_in : (c.wrote out l call).in_buffer_ = c.in_buffer_ := rfl
@[simp] lemma wrote_out : (c.wrote out l call).out_buffer_ = out := rfl
@[simp] lemma wrote_context : (c.wrote out l call).context_ = c.context_ := rfl
@[simp] lemma wrote_interest : (c.wrote out l call).interest = c.interest := rfl
@[simp] lemma wrote_log : (c.wrote out l call).log = c.log ++ l ++ [.write call] := rfl

end Wrote

variable [LawfulBuffer B I]

/-- The appends of a send callback. -/
lemma foldlM_append {b : B} (h : Fresh b ∨ Ready b) (bss : List Bytes) :
    ∃ b', bss.foldlM BufferType.append b = some b' ∧ (bss ≠ [] → Ready b') ∧
      unread b' = unread b ++ bss.flatten := by
  induction bss generalizing b with
  | nil => exact ⟨b, rfl, fun h => absurd rfl h, by simp⟩
  | cons bs bss ih =>
    obtain ⟨b1, e1, rd1, un1⟩ := append_spec h bs
    obtain ⟨b', e', rd', un'⟩ := ih (.inr rd1)
    refine ⟨b', ?_, fun _ => ?_, ?_⟩
    · rw [List.foldlM_cons, e1]
      exact e'
    · by_cases hn : bss = []
      · subst hn
        cases e'
        exact rd1
      · exact rd' hn
    · rw [un', un1, List.flatten_cons, List.append_assoc]

/-- Everything `TCPConnection::send` can do. -/
lemma send_cases (h : Fresh c.out_buffer_ ∨ Ready c.out_buffer_) (cb : SendCallback)
    (w : WriteResult) :
    ∃ out, Ready out ∧
    ((c.channel_.isWriting = true ∧ unread out = unread c.out_buffer_ ++ cb.appends.flatten ∧
        c.send cb w = some { c with
          out_buffer_ := out, log := c.log ++ [.append cb.appends.flatten] }) ∨
     (c.channel_.isWriting = false ∧ ∃ call : WriteCall,
        call.offered = unread c.out_buffer_ ++ cb.appends.flatten ∧
        call.ret = sysw.write call.offered w ∧ call.offered ≠ [] ∧
        unread out = call.offered.drop call.ret.toNat ∧
        ((call.ret < 0 ∧
            c.send cb w = some (c.wrote out [.append cb.appends.flatten] call).handleClose) ∨
         (0 ≤ call.ret ∧ unread out ≠ [] ∧ c.send cb w = some { c.wrote out
            [.append cb.appends.flatten] call with
              channel_ := c.channel_.enableWriting }.updateChannelInPoller) ∨
         (0 ≤ call.ret ∧ unread out = [] ∧
            c.send cb w = some (c.wrote out [.append cb.appends.flatten] call))))) := by
  obtain ⟨out, e, rd, un⟩ := foldlM_append h cb.appends
  have hne : cb.appends ≠ [] := by
    intro hn
    apply cb.ne_nil
    rw [hn]
    rfl
  have ne : unread out ≠ [] := by
    rw [un]
    intro hn
    exact cb.ne_nil (List.append_eq_nil_iff.1 hn).2
  simp only [send, e, Option.bind_eq_bind, Option.bind_some, record_channel]
  cases hw : c.channel_.isWriting with
  | true => exact ⟨out, rd hne, .inl ⟨rfl, un, rfl⟩⟩
  | false =>
    obtain ⟨out', e', rd', un'⟩ := readToFD_spec (rd hne) ne w
    refine ⟨out', rd', .inr ⟨rfl, ⟨unread out, sysw.write (unread out) w⟩, un, rfl, ne, un', ?_⟩⟩
    simp only [readToFD, record_out, e', Option.bind_eq_bind, Option.bind_some, Bool.not_false,
      if_true]
    by_cases hn : sysw.write (unread out) w < 0
    · refine .inl ⟨hn, ?_⟩
      rw [if_pos hn]
      simp [wrote, record]
    · have h0 : 0 ≤ sysw.write (unread out) w := by omega
      refine .inr ?_
      simp only [if_neg hn, readableSize_spec rd', Option.bind_some]
      by_cases hd : unread out' = []
      · refine .inr ⟨h0, hd, ?_⟩
        rw [hd, if_neg (by simp)]
        simp [wrote, record]
      · refine .inl ⟨h0, hd, ?_⟩
        rw [if_pos (List.length_pos_iff.2 hd)]
        simp [wrote, record]

/-- `send` logs the bytes appended and then neither an append nor a `SHUT_WR`. -/
lemma send_log (h : Fresh c.out_buffer_ ∨ Ready c.out_buffer_) {cb : SendCallback} {w : WriteResult}
    (e : c.send cb w = some c') :
    ∃ l, c'.log = c.log ++ .append cb.appends.flatten :: l ∧ .shutdownWr ∉ l ∧
      ∀ bs, .append bs ∉ l := by
  obtain ⟨out, _, ⟨_, _, e1⟩ | ⟨_, call, _, _, _, _, next⟩⟩ := send_cases h cb w
  · cases e.symm.trans e1
    exact ⟨[], rfl, by simp, by simp⟩
  · rcases next with ⟨_, e1⟩ | ⟨_, _, e1⟩ | ⟨_, _, e1⟩
    · cases e.symm.trans e1
      refine ⟨.write call :: closeLog c.status_, by simp, ?_, ?_⟩
      · simp [closeLog]
      · simp [closeLog]
    · cases e.symm.trans e1
      exact ⟨[.write call, .updateChannel c.channel_.enableWriting.events_type_], by simp, by simp,
        by simp⟩
    · cases e.symm.trans e1
      exact ⟨[.write call], by simp, by simp, by simp⟩

/-- Everything `TCPConnection::handleWrite` can do when there is something to write. -/
lemma handleWrite_cases (h : Ready c.out_buffer_) (ne : unread c.out_buffer_ ≠ []) (w : WriteResult) :
    ∃ out holds, ∃ call : WriteCall, Ready out ∧ call.offered = unread c.out_buffer_ ∧
      call.ret = sysw.write call.offered w ∧ unread out = call.offered.drop call.ret.toNat ∧
      ((call.ret < 0 ∧ c.handleWrite w = some (c.wrote out [.assert holds] call).handleClose) ∨
       (0 ≤ call.ret ∧ unread out ≠ [] ∧
          c.handleWrite w = some (c.wrote out [.assert holds] call)) ∨
       (0 ≤ call.ret ∧ unread out = [] ∧ c.status_ = .kDisconnecting ∧
          c.handleWrite w = some { c.wrote out [.assert holds] call with
            channel_ := c.channel_.disableWriting }.updateChannelInPoller.shutdown) ∨
       (0 ≤ call.ret ∧ unread out = [] ∧ c.status_ ≠ .kDisconnecting ∧
          c.handleWrite w = some { c.wrote out [.assert holds] call with
            channel_ := c.channel_.disableWriting }.updateChannelInPoller)) := by
  obtain ⟨out, e, rd, un⟩ := readToFD_spec h ne w
  refine ⟨out, decide (c.status_ = .kConnected),
    ⟨unread c.out_buffer_, sysw.write (unread c.out_buffer_) w⟩, rd, rfl, rfl, un, ?_⟩
  simp only [handleWrite, readToFD, record_out, e, Option.bind_eq_bind, Option.bind_some]
  by_cases hn : sysw.write (unread c.out_buffer_) w < 0
  · refine .inl ⟨hn, ?_⟩
    rw [if_pos hn]
    simp [wrote, record]
  · have h0 : 0 ≤ sysw.write (unread c.out_buffer_) w := by omega
    refine .inr ?_
    simp only [if_neg hn, readableSize_spec rd, Option.bind_some]
    by_cases hd : unread out = []
    · refine .inr ?_
      rw [hd, if_pos (by simp)]
      by_cases hs : c.status_ = .kDisconnecting
      · refine .inl ⟨h0, rfl, hs, ?_⟩
        simp [wrote, record, hs, updateChannelInPoller]
      · refine .inr ⟨h0, rfl, hs, ?_⟩
        simp [wrote, record, hs, updateChannelInPoller]
    · refine .inl ⟨h0, hd, ?_⟩
      rw [if_neg (by simpa using hd)]
      simp [wrote, record]

/-- The log is longer by `l`, and perhaps by a `SHUT_WR` after that, issued without write interest. -/
def Extends (c c' : TCPConnection B Ctx) (l : List Action) : Prop :=
  c'.log = c.log ++ l ∨ c'.log = c.log ++ l ++ [.shutdownWr] ∧ c'.channel_.isWriting = false

omit [LawfulBuffer B I] in
/-- `shutdown` writes nothing. -/
lemma shutdown_extends : c.Extends c.shutdown [] := by
  rcases c.shutdown_cases with ⟨_, e⟩ | ⟨_, _, e⟩ | ⟨_, hw, e⟩
  · exact .inl (by rw [e, List.append_nil])
  · exact .inl (by rw [e, List.append_nil])
  · exact .inr (by rw [e]; exact ⟨by simp, hw⟩)

omit [LawfulBuffer B I] in
@[simp] lemma shutdown_channel : c.shutdown.channel_ = c.channel_ := by
  rcases c.shutdown_cases with ⟨_, e⟩ | ⟨_, _, e⟩ | ⟨_, _, e⟩ <;> rw [e]

omit [LawfulBuffer B I] in
@[simp] lemma shutdown_in : c.shutdown.in_buffer_ = c.in_buffer_ := by
  rcases c.shutdown_cases with ⟨_, e⟩ | ⟨_, _, e⟩ | ⟨_, _, e⟩ <;> rw [e]

omit [LawfulBuffer B I] in
@[simp] lemma shutdown_out : c.shutdown.out_buffer_ = c.out_buffer_ := by
  rcases c.shutdown_cases with ⟨_, e⟩ | ⟨_, _, e⟩ | ⟨_, _, e⟩ <;> rw [e]

omit [LawfulBuffer B I] in
@[simp] lemma shutdown_context : c.shutdown.context_ = c.context_ := by
  rcases c.shutdown_cases with ⟨_, e⟩ | ⟨_, _, e⟩ | ⟨_, _, e⟩ <;> rw [e]

omit [BufferType B I] [LawfulBuffer B I] in
/-- Two extensions of the log are one. -/
lemma Extends.trans {c1 : TCPConnection B Ctx} {l l'} (h1 : c1.log = c.log ++ l)
    (h2 : c1.Extends c' l') : c.Extends c' (l ++ l') := by
  unfold Extends at h2 ⊢
  rw [h1] at h2
  simpa using h2

/-- `handleWrite` touches neither the input nor the context. -/
lemma handleWrite_log (h : Ready c.out_buffer_) (ne : unread c.out_buffer_ ≠ []) {w : WriteResult}
    (e : c.handleWrite w = some c') :
    c'.context_ = c.context_ ∧ ∃ l, .shutdownWr ∉ l ∧ c.Extends c' l := by
  obtain ⟨out, holds, call, _, _, _, _, next⟩ := handleWrite_cases h ne w
  rcases next with ⟨_, e1⟩ | ⟨_, _, e1⟩ | ⟨_, _, _, e1⟩ | ⟨_, _, _, e1⟩
  · cases e.symm.trans e1
    refine ⟨by simp, [.assert holds, .write call] ++ closeLog c.status_, ?_, .inl (by simp)⟩
    simp [closeLog]
  · cases e.symm.trans e1
    exact ⟨rfl, [.assert holds, .write call], by simp, .inl (by simp)⟩
  · cases e.symm.trans e1
    refine ⟨by simp, [.assert holds, .write call,
      .updateChannel c.channel_.disableWriting.events_type_] ++ [], by simp, ?_⟩
    exact Extends.trans (by simp) shutdown_extends
  · cases e.symm.trans e1
    exact ⟨rfl, [.assert holds, .write call, .updateChannel c.channel_.disableWriting.events_type_],
      by simp, .inl (by simp)⟩

/-- Everything `TCPConnection::handleRead` can do. -/
lemma handleRead_cases (h : Fresh c.in_buffer_ ∨ Parsable c.in_buffer_) (r : ReadResult)
    (cb : TCPConnection B Ctx → Option (TCPConnection B Ctx)) :
    (c.status_ ≠ .kConnected ∧ c.status_ ≠ .kDisconnecting ∧ c.handleRead r cb = some c) ∨
    ((c.status_ = .kConnected ∨ c.status_ = .kDisconnecting) ∧
      (((sysw.read (capacity c.in_buffer_) r).1 ≤ 0 ∧
          c.handleRead r cb
            = some (c.record (.read (sysw.read (capacity c.in_buffer_) r).1)).handleClose) ∨
       (0 < (sysw.read (capacity c.in_buffer_) r).1 ∧
        ∃ in_buffer, Parsable in_buffer ∧
          unread in_buffer = unread c.in_buffer_ ++ (sysw.read (capacity c.in_buffer_) r).2 ∧
          c.handleRead r cb = cb ({ c with in_buffer_ := in_buffer }.record
            (.read (sysw.read (capacity c.in_buffer_) r).1))))) := by
  unfold handleRead
  by_cases hs : c.status_ = .kConnected ∨ c.status_ = .kDisconnecting
  · refine .inr ⟨hs, ?_⟩
    rw [if_pos hs]
    by_cases hn : (sysw.read (capacity c.in_buffer_) r).1 ≤ 0
    · refine .inl ⟨hn, ?_⟩
      simp only [writeFromFD_nonpos h hn, Option.bind_eq_bind, Option.bind_some]
      rw [if_neg (by omega)]
      split <;> rfl
    · have hp : 0 < (sysw.read (capacity c.in_buffer_) r).1 := by omega
      obtain ⟨in_buffer, e, pr, un⟩ := writeFromFD_pos h hp
      refine .inr ⟨hp, in_buffer, pr, un, ?_⟩
      simp only [e, Option.bind_eq_bind, Option.bind_some]
      rw [if_pos hp]
  · rw [if_neg hs]
    exact .inl ⟨fun h => hs (.inl h), fun h => hs (.inr h), rfl⟩

end TCPConnection

end WebServer.Net
