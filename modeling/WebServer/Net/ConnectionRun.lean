import WebServer.Net.ConnectionSpec
import WebServer.Lib.Run

/-!
# Runs of a connection

A run of one connection is a list of `Op`: the upper layer calls `send` or `shutdown`, or the fd becomes
ready and the poller dispatches an event. What the read callback does is a list of `Call`s. An event is
delivered through `TCPConnection.poll`, so `handleWrite` runs only while write interest is registered.

`Sound` is the joint invariant of write interest, registration and buffer contents. Over a lawful buffer type
every run is defined and keeps it (`Sound.run`).
-/

namespace WebServer.Net

open LawfulBuffer

/-! ## Masks -/

/-- A mask meets what it has in common with another one. -/
lemma Mask.meets_and {s m t : Mask} : Mask.meets (s &&& m) t = Mask.meets s (m &&& t) := by
  unfold Mask.meets
  rw [BitVec.and_assoc]

/-- A mask that meets none of the bits meets none of some of them. -/
lemma Mask.not_meets_mono {s t u : Mask} (h : Mask.meets s u = false) (sub : u &&& t = t) :
    Mask.meets s t = false := by
  unfold Mask.meets at h ⊢
  rw [bne_eq_false_iff_eq] at h ⊢
  rw [← sub, ← BitVec.and_assoc, h]
  exact BitVec.zero_and

/-- The masks a connection's channel can have after `handleCreate`. -/
inductive Channel.Listening : Channel → Prop where
  | read :
    Listening ⟨kReadEvent⟩
  | readWrite :
    Listening ⟨kReadEvent ||| kWriteEvent⟩

namespace Channel.Listening

variable {ch : Channel}

/-- A channel that listens goes on listening when it starts to write. -/
lemma enableWriting (h : ch.Listening) : ch.enableWriting.Listening := by
  cases h with
  | read => exact .readWrite
  | readWrite => exact .readWrite

/-- A channel that listens goes on listening when it stops writing. -/
lemma disableWriting (h : ch.Listening) : ch.disableWriting.Listening := by
  cases h with
  | read => exact .read
  | readWrite => exact .read

/-- An error condition is never in the mask; the poller reports it by itself. -/
lemma not_error (h : ch.Listening) :
    (ch.events_type_ ||| POLLERR ||| POLLHUP) &&& (POLLERR ||| POLLNVAL) = POLLERR := by
  cases h with
  | read => decide
  | readWrite => decide

/-- `POLLHUP` is reported whatever the channel listens for. -/
lemma not_hup (h : ch.Listening) :
    (ch.events_type_ ||| POLLERR ||| POLLHUP) &&& POLLHUP = POLLHUP := by
  cases h with
  | read => decide
  | readWrite => decide

/-- `POLLOUT` is reported only to a channel that is writing. -/
lemma isWriting (h : ch.Listening) {ready : Mask}
    (out : Mask.meets (ready &&& (ch.events_type_ ||| POLLERR ||| POLLHUP)) POLLOUT = true) :
    ch.isWriting = true := by
  cases h with
  | read =>
    rw [Mask.meets_and] at out
    rw [show (kReadEvent ||| POLLERR ||| POLLHUP) &&& POLLOUT = 0 from by decide] at out
    simp [Mask.meets] at out
  | readWrite => decide

end Channel.Listening

namespace TCPConnection

variable {B I Ctx : Type} [BufferType B I]

/-! ## Operations -/

/-- What the upper layer calls on a connection. -/
inductive Call where
  | send (cb : SendCallback) (w : WriteResult)
  | shutdown

def call (c : TCPConnection B Ctx) : Call → Option (TCPConnection B Ctx)
  | .send cb w => c.send cb w
  | .shutdown => some c.shutdown

/-- What happens to a connection: a call from the upper layer, or the conditions `ready` hold on its fd
    and the poller is run; `r` and `w` are the kernel's answers and `script` the calls of the read
    callback. -/
inductive Op where
  | call (x : Call)
  | event (ready : Mask) (r : ReadResult) (script : List Call) (w : WriteResult)

def step (c : TCPConnection B Ctx) : Op → Option (TCPConnection B Ctx)
  | .call x => c.call x
  | .event ready r script w =>
    match c.poll ready with
    | none => some c
    | some revents => c.handleEvent revents r (fun c => script.foldlM call c) w

def run (c : TCPConnection B Ctx) (ops : List Op) : Option (TCPConnection B Ctx) := ops.foldlM step c

/-- A run starts with its first step. -/
lemma run_cons {c : TCPConnection B Ctx} {op : Op} {ops : List Op} :
    c.run (op :: ops) = (c.step op).bind (run · ops) := List.foldlM_cons

/-- A run in two parts. -/
lemma run_append {c : TCPConnection B Ctx} {ops ops' : List Op} :
    c.run (ops ++ ops') = (c.run ops).bind (run · ops') := List.foldlM_append

/-! ## The invariant -/

variable [LawfulBuffer B I]

/-- Whenever `SHUT_WR` was issued, every byte appended before was accepted. -/
def ShutsDrained (log : List Action) : Prop :=
  ∀ l l', log = l ++ .shutdownWr :: l' → accepted l = appended l

/-- The joint invariant of write interest, registration and buffer contents. -/
structure Sound (c : TCPConnection B Ctx) : Prop where
  input : Fresh c.in_buffer_ ∨ Parsable c.in_buffer_
  output : Fresh c.out_buffer_ ∨ Ready c.out_buffer_
  mask : c.channel_.Listening
  stream : accepted c.log ++ unread c.out_buffer_ = appended c.log
  pending : c.channel_.isWriting = true → unread c.out_buffer_ ≠ []
  writing : c.status_ ≠ .kDisconnected → unread c.out_buffer_ ≠ [] → c.channel_.isWriting = true
  registered : c.status_ ≠ .kDisconnected → c.interest = some c.channel_.events_type_
  removed : c.status_ = .kDisconnected → c.interest = none
  drained : ShutsDrained c.log

/-- Actions other than `SHUT_WR` may follow. -/
lemma ShutsDrained.append {l l' : List Action} (h : ShutsDrained l) (hn : .shutdownWr ∉ l') :
    ShutsDrained (l ++ l') := by
  intro l1 l2 e
  rcases List.append_eq_append_iff.1 e with ⟨m, e1, e2⟩ | ⟨m, e1, e2⟩
  · exact absurd (by rw [e2]; simp) hn
  · cases m with
    | nil => exact absurd (by rw [List.nil_append] at e2; rw [← e2]; simp) hn
    | cons a m =>
      cases e2
      exact h l1 m e1

/-- `SHUT_WR` may follow when all is accepted. -/
lemma ShutsDrained.shut {l : List Action} (h : ShutsDrained l) (e : accepted l = appended l) :
    ShutsDrained (l ++ [.shutdownWr]) := by
  intro l1 l2 e'
  rcases List.append_eq_append_iff.1 e' with ⟨m, e1, e2⟩ | ⟨m, e1, e2⟩
  · cases m with
    | nil =>
      rw [e1, List.append_nil]
      exact e
    | cons a m => simp at e2
  · cases m with
    | nil =>
      rw [List.append_nil] at e1
      rw [← e1]
      exact e
    | cons a m =>
      cases e2
      exact h l1 m e1

/-- Closing is no `SHUT_WR`. -/
lemma closeLog_noShut {s} : Action.shutdownWr ∉ closeLog s := by
  unfold closeLog
  split <;> simp

namespace Sound

variable {c : TCPConnection B Ctx}

omit [LawfulBuffer B I] in
/-- A new connection listens for input. -/
lemma created_channel {context : Ctx} :
    (TCPConnection.created context : TCPConnection B Ctx).channel_ = ⟨Channel.kReadEvent⟩ := by
  show Channel.enableReading ⟨Channel.kNoneEvent⟩ = _
  decide

/-- A new connection is sound. -/
lemma created (context : Ctx) : (created context : TCPConnection B Ctx).Sound where
  input := .inl fresh_new
  output := .inl fresh_new
  mask := by
    rw [created_channel]
    exact .read
  stream := fresh_unread fresh_new
  pending h := by
    rw [created_channel] at h
    exact absurd h (by decide)
  writing _ h := absurd (fresh_unread fresh_new) h
  registered _ := rfl
  removed h := nomatch h
  drained l l' e := by
    have : Action.shutdownWr ∈ (TCPConnection.created context : TCPConnection B Ctx).log := by
      rw [e]
      simp
    simp [TCPConnection.created, handleCreate, addChannelInPoller, record, new] at this

/-- What is left to write is in a usable buffer. -/
lemma ready (h : c.Sound) (ne : unread c.out_buffer_ ≠ []) : Ready c.out_buffer_ := by
  rcases h.output with fr | rd
  · exact absurd (fresh_unread fr) ne
  · exact rd

/-- Closing keeps a connection sound. -/
lemma handleClose (h : c.Sound) : c.handleClose.Sound where
  input := by simpa using h.input
  output := by simpa using h.output
  mask := by simpa using h.mask
  stream := by simpa using h.stream
  pending := by simpa using h.pending
  writing hs := by simp at hs
  registered hs := by simp at hs
  removed _ := handleClose_interest h.removed
  drained := by
    rw [handleClose_log]
    exact h.drained.append closeLog_noShut

/-- `shutdown` keeps a connection sound. -/
lemma shutdown (h : c.Sound) : c.shutdown.Sound := by
  rcases c.shutdown_cases with ⟨_, e⟩ | ⟨hs, _, e⟩ | ⟨hs, hw, e⟩
  · rw [e]
    exact h
  · rw [e]
    exact ⟨h.input, h.output, h.mask, h.stream, h.pending, fun _ => h.writing hs,
      fun _ => h.registered hs, nofun, h.drained⟩
  · -- without write interest nothing is left to write
    have un : unread c.out_buffer_ = [] := by
      by_contra ne
      rw [h.writing hs ne] at hw
      cases hw
    have st := h.stream
    rw [un, List.append_nil] at st
    rw [e]
    refine ⟨h.input, h.output, h.mask, ?_, h.pending, fun _ => h.writing hs,
      fun _ => h.registered hs, nofun, h.drained.shut st⟩
    simpa [accepted, appended] using h.stream

/-- A write of the unread bytes, whatever the kernel accepts of them. -/
lemma wrote_stream {out : B} {l : List Action} {call : WriteCall}
    (h : c.Sound) (hl : accepted l = [])
    (off : call.offered = unread c.out_buffer_ ++ appended l)
    (un : unread out = call.offered.drop call.ret.toNat) :
    accepted (c.wrote out l call).log ++ unread out = appended (c.wrote out l call).log := by
  have st := h.stream
  simp only [wrote_log, accepted_append, appended_append, accepted_cons, appended_cons, hl, un,
    Action.accepted, Action.appended, accepted_nil, appended_nil, WriteCall.accepted,
    List.append_nil, List.nil_append, List.append_assoc, List.take_append_drop]
  rw [off, ← st, List.append_assoc]

/-- A write keeps `SHUT_WR` behind all that was appended. -/
lemma wrote_drained {out : B} {l : List Action} {call : WriteCall} (h : c.Sound)
    (hn : Action.shutdownWr ∉ l) : ShutsDrained (c.wrote out l call).log := by
  apply (h.drained.append hn).append
  simp

/-- A failed write closes the connection. -/
lemma wrote_close {out : B} {l : List Action} {call : WriteCall} (h : c.Sound) (rd : Ready out)
    (st : accepted (c.wrote out l call).log ++ unread out = appended (c.wrote out l call).log)
    (dr : ShutsDrained (c.wrote out l call).log)
    (pend : c.channel_.isWriting = true → unread out ≠ []) :
    (c.wrote out l call).handleClose.Sound where
  input := by simpa using h.input
  output := .inr (by simpa using rd)
  mask := by simpa using h.mask
  stream := by simpa using st
  pending := by simpa using pend
  writing hs := by simp at hs
  registered hs := by simp at hs
  removed _ := handleClose_interest h.removed
  drained := by
    rw [handleClose_log]
    exact dr.append closeLog_noShut

/-- `send` is defined, and it does not stop a channel from writing. -/
lemma send (h : c.Sound) (cb : SendCallback) (w : WriteResult) :
    ∃ c', c.send cb w = some c' ∧ c'.Sound ∧
      (c.channel_.isWriting = true → c'.channel_.isWriting = true) ∧
      c'.in_buffer_ = c.in_buffer_ ∧ c'.context_ = c.context_ := by
  obtain ⟨out, rd, ⟨hw, un, e⟩ | ⟨hw, call, off, ret, ne, un, next⟩⟩ := send_cases h.output cb w
  · refine ⟨_, e, ⟨h.input, .inr rd, h.mask, ?_, fun _ => ?_, fun _ _ => hw, h.registered, h.removed,
      h.drained.append (by simp)⟩, fun _ => hw, rfl, rfl⟩
    · have st := h.stream
      simp [un, ← st]
    · intro hn
      rw [un] at hn
      exact cb.ne_nil (List.append_eq_nil_iff.1 hn).2
  · have st := h.wrote_stream (l := [.append cb.appends.flatten]) rfl (by simp [off]) un
    have dr := @wrote_drained _ _ _ _ _ _ out [.append cb.appends.flatten] call h (by simp)
    rcases next with ⟨neg, e⟩ | ⟨_, ne', e⟩ | ⟨_, emp, e⟩
    · refine ⟨_, e, h.wrote_close rd st dr ?_, ?_, by simp, by simp⟩
      · intro hw'
        rw [hw] at hw'
        cases hw'
      · intro hw'
        rw [hw] at hw'
        cases hw'
    · refine ⟨_, e, ⟨h.input, .inr rd, h.mask.enableWriting, by simpa using st, fun _ => ne',
        fun _ _ => Channel.isWriting_enableWriting _, ?_, ?_, dr.append (by simp)⟩,
        fun _ => Channel.isWriting_enableWriting _, rfl, rfl⟩
      · intro hs
        simp [h.registered hs]
      · intro hs
        simp [h.removed hs]
    · refine ⟨_, e, ⟨h.input, .inr rd, h.mask, st, ?_, ?_, h.registered, h.removed, dr⟩,
        by simp, rfl, rfl⟩
      · intro hw'
        simp [hw] at hw'
      · intro _ ne'
        exact absurd emp ne'

/-- `handleWrite` is defined on a channel that is writing. -/
lemma handleWrite (h : c.Sound) (hw : c.channel_.isWriting = true) (w : WriteResult) :
    ∃ c', c.handleWrite w = some c' ∧ c'.Sound := by
  have ne := h.pending hw
  obtain ⟨out, holds, call, rd, off, ret, un, next⟩ := handleWrite_cases (h.ready ne) ne w
  have st := h.wrote_stream (l := [.assert holds]) rfl (by simp [off]) un
  have dr := @wrote_drained _ _ _ _ _ _ out [.assert holds] call h (by simp)
  -- the two branches that disable writing
  have emptied : unread out = [] → Sound { c.wrote out [.assert holds] call with
      channel_ := c.channel_.disableWriting }.updateChannelInPoller := by
    intro emp
    refine ⟨h.input, .inr rd, h.mask.disableWriting, by simpa using st, ?_, fun _ ne => absurd emp ne,
      ?_, ?_, dr.append (by simp)⟩
    · intro hw'
      simp at hw'
    · intro hs
      simp [h.registered hs]
    · intro hs
      simp [h.removed hs]
  rcases next with ⟨neg, e⟩ | ⟨_, ne', e⟩ | ⟨_, emp, _, e⟩ | ⟨_, emp, _, e⟩
  · refine ⟨_, e, h.wrote_close rd st dr fun _ => ?_⟩
    have neg' : call.ret.toNat = 0 := by omega
    rw [un, neg', off]
    exact ne
  · exact ⟨_, e, h.input, .inr rd, h.mask, st, fun _ => ne', fun _ _ => hw, h.registered, h.removed, dr⟩
  · exact ⟨_, e, (emptied emp).shutdown⟩
  · exact ⟨_, e, emptied emp⟩

/-- A read callback that is defined on sound connections, keeps them sound and lets a writing channel
    go on writing. -/
def Keeps (cb : TCPConnection B Ctx → Option (TCPConnection B Ctx)) : Prop :=
  ∀ {c : TCPConnection B Ctx}, c.Sound → Parsable c.in_buffer_ → ∃ c', cb c = some c' ∧ c'.Sound ∧
    (c.channel_.isWriting = true → c'.channel_.isWriting = true)

/-- A call of the upper layer is defined and keeps a connection sound. -/
lemma call (h : c.Sound) (x : Call) :
    ∃ c', c.call x = some c' ∧ c'.Sound ∧
      (c.channel_.isWriting = true → c'.channel_.isWriting = true) := by
  cases x with
  | send cb w =>
    obtain ⟨c', e, h', hw, _⟩ := h.send cb w
    exact ⟨c', e, h', hw⟩
  | shutdown => exact ⟨_, rfl, h.shutdown, by rw [shutdown_channel]; exact id⟩

/-- The calls of a read callback. -/
lemma calls (script : List Call) :
    Keeps fun c : TCPConnection B Ctx => script.foldlM TCPConnection.call c := by
  intro c h _
  clear * - h
  induction script generalizing c with
  | nil => exact ⟨c, rfl, h, id⟩
  | cons x script ih =>
    obtain ⟨c1, e1, h1, w1⟩ := h.call x
    obtain ⟨c', e', h', w'⟩ := ih h1
    refine ⟨c', ?_, h', fun hw => w' (w1 hw)⟩
    simp only [List.foldlM_cons, e1, Option.bind_eq_bind, Option.bind_some]
    exact e'

/-- Reading fills the input buffer only. -/
lemma recordRead (h : c.Sound) {b : B} (hb : Fresh b ∨ Parsable b) (n : Int) :
    ({ c with in_buffer_ := b }.record (.read n)).Sound := by
  refine ⟨hb, h.output, h.mask, ?_, h.pending, h.writing, h.registered, h.removed,
    h.drained.append (by simp)⟩
  simpa using h.stream

/-- The read callback is defined and keeps a connection sound if what it calls does. -/
lemma handleRead (h : c.Sound) (r : ReadResult)
    {cb : TCPConnection B Ctx → Option (TCPConnection B Ctx)} (keeps : Keeps cb) :
    ∃ c', c.handleRead r cb = some c' ∧ c'.Sound ∧
      (c.channel_.isWriting = true → c'.channel_.isWriting = true) := by
  rcases handleRead_cases h.input r cb with ⟨_, _, e⟩ | ⟨_, ⟨_, e⟩ | ⟨_, b, pr, _, e⟩⟩
  · exact ⟨c, e, h, id⟩
  · refine ⟨_, e, (h.recordRead h.input _).handleClose, ?_⟩
    rw [handleClose_channel]
    exact id
  · obtain ⟨c', e', h', hw⟩ := keeps (h.recordRead (.inr pr) _) pr
    exact ⟨c', e.trans e', h', hw⟩

/-- Dispatching is defined if `POLLOUT` comes to writing channels only. -/
lemma handleEvent (h : c.Sound) {revents : Mask} (r : ReadResult) (w : WriteResult)
    (out : revents.meets POLLOUT = true → c.channel_.isWriting = true)
    {cb : TCPConnection B Ctx → Option (TCPConnection B Ctx)} (keeps : Keeps cb) :
    ∃ c', c.handleEvent revents r cb w = some c' ∧ c'.Sound := by
  refine handleEvent_rule (P := fun c => c.Sound ∧
    (revents.meets POLLOUT = true → c.channel_.isWriting = true)) ⟨h, out⟩ ?_ ?_ ?_ ?_
  · intro _ c h
    refine ⟨h.1.handleClose, ?_⟩
    rw [handleClose_channel]
    exact h.2
  · intro c h
    obtain ⟨c', e, h', hw⟩ := h.1.handleRead r keeps
    exact ⟨c', e, h', fun out => hw (h.2 out)⟩
  · intro out c h
    exact h.1.handleWrite (h.2 out) w
  · intro _ c h
    exact h.1

/-- Only a writing channel is polled for `POLLOUT`. -/
lemma poll_out (h : c.Sound) {ready revents : Mask} (e : c.poll ready = some revents)
    (out : revents.meets POLLOUT = true) : c.channel_.isWriting = true := by
  unfold poll at e
  by_cases hs : c.status_ = .kDisconnected
  · rw [h.removed hs] at e
    cases e
  · simp only [h.registered hs, Option.bind_eq_bind, Option.bind_some] at e
    split at e
    · cases e
    · cases e
      exact h.mask.isWriting out

/-- Every step is defined and keeps a connection sound. -/
lemma step (h : c.Sound) (op : Op) : ∃ c', c.step op = some c' ∧ c'.Sound := by
  cases op with
  | call x =>
    obtain ⟨c', e, h', _⟩ := h.call x
    exact ⟨c', e, h'⟩
  | event ready r script w =>
    simp only [TCPConnection.step]
    cases e : c.poll ready with
    | none => exact ⟨c, rfl, h⟩
    | some revents => exact h.handleEvent r w (h.poll_out e) (calls script)

/-- Every run is defined and ends in a sound state. -/
lemma run (h : c.Sound) (ops : List Op) : ∃ c', c.run ops = some c' ∧ c'.Sound :=
  Lib.foldlM_inv (fun _ op h => h.step op) h ops

end Sound

end TCPConnection

end WebServer.Net
