import WebServer.Net.ConnectionRun

/-!
# The callbacks of a channel

`Channel::handleEvent` as the list of the callbacks it calls (`Mask.callbacks`), each a handler of the
connection (`TCPConnection.callback`).

`Tally` is the invariant on `closeCallback_`: a connection calls it once, when it is closed. Which callbacks
close: the close and the error callback do, the read callback does at EOF, and it does not if it reads
bytes while the channel is writing (`read_open`).
-/

namespace WebServer.Net

open LawfulBuffer

/-- At least one byte is delivered. -/
def ReadResult.delivers : ReadResult → Bool
  | .data bs => bs ≠ []
  | .error _ => false

/-- A read returns a positive count exactly when it delivers something. -/
lemma sysw.read_pos_iff {count r} (h : 0 < count) :
    0 < (sysw.read count r).1 ↔ r.delivers = true := by
  cases r with
  | data bs =>
    cases bs with
    | nil => simp [sysw.read, ReadResult.delivers]
    | cons b bs =>
      simp only [sysw.read, ReadResult.delivers, List.length_take, List.length_cons]
      simp
      omega
  | error e => simp [sysw.read, ReadResult.delivers]

/-- The callbacks of a connection's channel, with what the kernel answers in them and what the read
    callback of the upper layer calls. -/
inductive Callback where
  | close
  | error
  | read (r : ReadResult) (script : List TCPConnection.Call)
  | write (w : WriteResult)

/-- The callbacks that `Channel::handleEvent` calls, in its order. -/
def Mask.callbacks (revents : Mask) (r : ReadResult) (script : List TCPConnection.Call)
    (w : WriteResult) : List Callback :=
  (if revents.meets POLLHUP && !revents.meets POLLIN then [.close] else []) ++
  (if revents.meets (POLLERR ||| POLLNVAL) then [.error] else []) ++
  (if revents.meets (POLLIN ||| POLLRDHUP ||| POLLPRI) then [.read r script] else []) ++
  (if revents.meets POLLOUT then [.write w] else [])

/-- The write callback is called only when the mask has `POLLOUT`. -/
lemma Mask.write_mem_callbacks {revents : Mask} {r script w w'}
    (h : .write w' ∈ revents.callbacks r script w) : revents.meets POLLOUT = true := by
  simp only [callbacks, List.mem_append] at h
  grind

/-- The read callback is called with the script of its event. -/
lemma Mask.read_mem_callbacks {revents : Mask} {r script w r' script'}
    (h : .read r' script' ∈ revents.callbacks r script w) : script' = script := by
  simp only [callbacks, List.mem_append] at h
  grind

/-- After the read callback comes at most the write callback, and after that nothing. -/
lemma Mask.callbacks_head {revents : Mask} {r script w k k' rest}
    (h : revents.callbacks r script w = k :: k' :: rest) :
    k = .close ∨ k = .error ∨ k = .read r script ∧ k' = .write w ∧ rest = [] := by
  unfold callbacks at h
  revert h
  cases revents.meets POLLHUP && !revents.meets POLLIN <;>
    cases revents.meets (POLLERR ||| POLLNVAL) <;>
    cases revents.meets (POLLIN ||| POLLRDHUP ||| POLLPRI) <;>
    cases revents.meets POLLOUT <;> grind

namespace TCPConnection

variable {B I Ctx : Type} [BufferType B I] {c c' : TCPConnection B Ctx}

/-- The callbacks set by the constructor of `TCPConnection`. -/
def callback (c : TCPConnection B Ctx) : Callback → Option (TCPConnection B Ctx)
  | .close => some c.handleClose
  | .error => some c.handleError
  | .read r script => c.handleRead r fun c => script.foldlM call c
  | .write w => c.handleWrite w

/-- `Channel::handleEvent` is its callbacks, one after the other. -/
lemma handleEvent_eq {revents : Mask} {r : ReadResult} {script : List Call} {w : WriteResult} :
    c.handleEvent revents r (fun c => script.foldlM call c) w
      = (revents.callbacks r script w).foldlM callback c := by
  unfold handleEvent Mask.callbacks
  simp only [List.foldlM_append]
  cases revents.meets POLLHUP && !revents.meets POLLIN <;>
    cases revents.meets (POLLERR ||| POLLNVAL) <;>
    cases revents.meets (POLLIN ||| POLLRDHUP ||| POLLPRI) <;>
    cases revents.meets POLLOUT <;> simp [callback]

/-- The handler makes a temporary of `shared_from_this()` even if it does not close the connection. -/
def shares (c : TCPConnection B Ctx) : Callback → Bool
  | .read _ _ => c.status_ = .kConnected ∨ c.status_ = .kDisconnecting
  | _ => false

/-- How often a handler that leads from `c` to `c'` called `closeCallback_`. -/
def posts (c c' : TCPConnection B Ctx) : Nat :=
  c'.log.count .closeCallback - c.log.count .closeCallback

/-! ## The calls of `closeCallback_` -/

/-- After `handleCreate`: `closeCallback_` was called once if the connection is closed and else not. -/
structure Tally (c : TCPConnection B Ctx) : Prop where
  begun : c.status_ ≠ .kConnecting
  once : c.log.count .closeCallback = if c.status_ = .kDisconnected then 1 else 0

namespace Tally

/-- A connection just created has not called `closeCallback_`. -/
lemma created (context : Ctx) : (created context : TCPConnection B Ctx).Tally := ⟨nofun, rfl⟩

/-- Neither a call of `closeCallback_` nor a change from or to the closed state. -/
lemma of_log (h : c.Tally) {l : List Action} (hl : c'.log = c.log ++ l)
    (hn : Action.closeCallback ∉ l)
    (hs : c'.status_ = c.status_ ∨ c'.status_ = .kDisconnecting ∧ c.status_ ≠ .kDisconnected) :
    c'.Tally := by
  have cnt : c'.log.count .closeCallback = c.log.count .closeCallback := by
    rw [hl, List.count_append, List.count_eq_zero.2 hn, Nat.add_zero]
  rcases hs with hs | ⟨hs, hs'⟩
  · exact ⟨hs ▸ h.begun, by rw [cnt, hs]; exact h.once⟩
  · refine ⟨by rw [hs]; exact nofun, ?_⟩
    rw [cnt, h.once, if_neg hs', hs]
    rfl

/-- `handleClose` keeps the tally. -/
lemma handleClose (h : c.Tally) : c.handleClose.Tally := by
  refine ⟨by rw [handleClose_status]; exact nofun, ?_⟩
  rw [handleClose_log, handleClose_status, List.count_append, h.once]
  by_cases hs : c.status_ = .kDisconnected
  · simp [hs, closeLog]
  · simp [hs, closeLog]

/-- `shutdown` keeps the tally. -/
lemma shutdown (h : c.Tally) : c.shutdown.Tally := by
  rcases c.shutdown_cases with ⟨_, e⟩ | ⟨hs, _, e⟩ | ⟨hs, _, e⟩
  · rw [e]
    exact h
  · rw [e]
    exact h.of_log (l := []) (by simp) (by simp) (.inr ⟨rfl, hs⟩)
  · rw [e]
    exact h.of_log rfl (by simp) (.inr ⟨rfl, hs⟩)

/-- Writing keeps the tally. -/
lemma wrote (h : c.Tally) {out : B} {l : List Action} {call : WriteCall}
    (hn : Action.closeCallback ∉ l) : (c.wrote out l call).Tally :=
  h.of_log (l := l ++ [.write call]) (by simp) (by simp [hn]) (.inl rfl)

/-- Updating the channel keeps the tally. -/
lemma update (h : c.Tally) {ch : Channel} :
    ({ c with channel_ := ch }.updateChannelInPoller).Tally :=
  h.of_log rfl (by simp) (.inl rfl)

variable [LawfulBuffer B I]

/-- `send` keeps the tally. -/
lemma send (h : c.Tally) (s : c.Sound) {cb : SendCallback} {w : WriteResult}
    (e : c.send cb w = some c') : c'.Tally := by
  obtain ⟨out, _, ⟨_, _, e1⟩ | ⟨_, call, _, _, _, _, next⟩⟩ := send_cases s.output cb w
  · cases e.symm.trans e1
    exact h.of_log rfl (by simp) (.inl rfl)
  · have hw : (c.wrote out [.append cb.appends.flatten] call).Tally := h.wrote (by simp)
    rcases next with ⟨_, e1⟩ | ⟨_, _, e1⟩ | ⟨_, _, e1⟩
    · cases e.symm.trans e1
      exact hw.handleClose
    · cases e.symm.trans e1
      exact hw.update
    · cases e.symm.trans e1
      exact hw

/-- A call of the server keeps the tally. -/
lemma call (h : c.Tally) (s : c.Sound) {x : Call} (e : c.call x = some c') : c'.Tally := by
  cases x with
  | send cb w => exact h.send s e
  | shutdown =>
    cases e
    exact h.shutdown

/-- All the calls of a callback keep the tally. -/
lemma calls (h : c.Tally) (s : c.Sound) {script : List Call}
    (e : script.foldlM TCPConnection.call c = some c') : c'.Tally := by
  induction script generalizing c with
  | nil =>
    cases e
    exact h
  | cons x script ih =>
    rw [List.foldlM_cons] at e
    obtain ⟨c1, e1, e⟩ := Option.bind_eq_some_iff.1 e
    obtain ⟨c2, e2, s2, _⟩ := s.call x
    cases e1.symm.trans e2
    exact ih (h.call s e1) s2 e

/-- `handleRead` keeps the tally. -/
lemma handleRead (h : c.Tally) (s : c.Sound) {r : ReadResult} {script : List Call}
    (e : c.handleRead r (fun c => script.foldlM TCPConnection.call c) = some c') : c'.Tally := by
  rcases handleRead_cases s.input r fun c => script.foldlM TCPConnection.call c with
    ⟨_, _, e1⟩ | ⟨_, ⟨_, e1⟩ | ⟨_, b, pr, _, e1⟩⟩
  · cases e.symm.trans e1
    exact h
  · cases e.symm.trans e1
    exact (h.of_log rfl (by simp) (.inl rfl) : (c.record _).Tally).handleClose
  · rw [e1] at e
    refine calls ?_ (s.recordRead (.inr pr) _) e
    exact h.of_log rfl (by simp) (.inl rfl)

/-- `handleWrite` keeps the tally. -/
lemma handleWrite (h : c.Tally) (s : c.Sound) (hw : c.channel_.isWriting = true) {w : WriteResult}
    (e : c.handleWrite w = some c') : c'.Tally := by
  have ne := s.pending hw
  obtain ⟨out, holds, call, _, _, _, _, next⟩ := handleWrite_cases (s.ready ne) ne w
  have ht : (c.wrote out [.assert holds] call).Tally := h.wrote (by simp)
  rcases next with ⟨_, e1⟩ | ⟨_, _, e1⟩ | ⟨_, _, _, e1⟩ | ⟨_, _, _, e1⟩
  · cases e.symm.trans e1
    exact ht.handleClose
  · cases e.symm.trans e1
    exact ht
  · cases e.symm.trans e1
    exact ht.update.shutdown
  · cases e.symm.trans e1
    exact ht.update

/-- No task is posted while the connection stays open. -/
lemma posts_eq_zero (h : c'.Tally) (hs : c'.status_ ≠ .kDisconnected) : c.posts c' = 0 := by
  rw [posts, h.once, if_neg hs, Nat.zero_sub]

/-- Closing the connection posts one task. -/
lemma posts_eq_one (h : c.Tally) (h' : c'.Tally) (hs : c.status_ ≠ .kDisconnected)
    (hs' : c'.status_ = .kDisconnected) : c.posts c' = 1 := by
  rw [posts, h.once, h'.once, if_neg hs, if_pos hs']

end Tally

/-! ## Callbacks on a sound connection -/

section Callbacks

variable [LawfulBuffer B I]

/-- A callback is defined; the write callback only if the channel is writing. -/
lemma callback_spec (s : c.Sound) (t : c.Tally) {k : Callback}
    (hw : ∀ w, k = .write w → c.channel_.isWriting = true) :
    ∃ c', c.callback k = some c' ∧ c'.Sound ∧ c'.Tally := by
  cases k with
  | close => exact ⟨_, rfl, s.handleClose, t.handleClose⟩
  | error => exact ⟨_, rfl, s.handleClose, t.handleClose⟩
  | read r script =>
    obtain ⟨c', e, s', _⟩ := s.handleRead r (Sound.calls script)
    exact ⟨c', e, s', t.handleRead s e⟩
  | write w =>
    obtain ⟨c', e, s'⟩ := s.handleWrite (hw w rfl) w
    exact ⟨c', e, s', t.handleWrite s (hw w rfl) e⟩

/-- A closed connection stays closed. -/
lemma call_closed (s : c.Sound) (hs : c.status_ = .kDisconnected) {x : Call}
    (e : c.call x = some c') : c'.status_ = .kDisconnected := by
  cases x with
  | send cb w =>
    obtain ⟨out, _, ⟨_, _, e1⟩ | ⟨_, call, _, _, _, _, next⟩⟩ := send_cases s.output cb w
    · cases e.symm.trans e1
      exact hs
    · rcases next with ⟨_, e1⟩ | ⟨_, _, e1⟩ | ⟨_, _, e1⟩
      · cases e.symm.trans e1
        exact handleClose_status
      · cases e.symm.trans e1
        exact hs
      · cases e.symm.trans e1
        exact hs
  | shutdown =>
    cases e
    rcases c.shutdown_cases with ⟨_, e⟩ | ⟨ho, _⟩ | ⟨ho, _⟩
    · rw [e]
      exact hs
    · exact absurd hs ho
    · exact absurd hs ho

/-- While the channel is writing a call does not write, so it does not close. -/
lemma call_open (s : c.Sound) (hw : c.channel_.isWriting = true) (ho : c.status_ ≠ .kDisconnected)
    {x : Call} (e : c.call x = some c') : c'.status_ ≠ .kDisconnected := by
  cases x with
  | send cb w =>
    obtain ⟨out, _, ⟨_, _, e1⟩ | ⟨hw', _⟩⟩ := send_cases s.output cb w
    · cases e.symm.trans e1
      exact ho
    · rw [hw] at hw'
      cases hw'
  | shutdown =>
    cases e
    rcases c.shutdown_cases with ⟨hs, _⟩ | ⟨_, _, e⟩ | ⟨_, _, e⟩
    · exact absurd hs ho
    · rw [e]
      exact nofun
    · rw [e]
      exact nofun

/-- A connection with output pending is not closed by the calls of its callback. -/
lemma calls_open (s : c.Sound) (hw : c.channel_.isWriting = true) (ho : c.status_ ≠ .kDisconnected)
    {script : List Call} (e : script.foldlM call c = some c') : c'.status_ ≠ .kDisconnected := by
  induction script generalizing c with
  | nil =>
    cases e
    exact ho
  | cons x script ih =>
    rw [List.foldlM_cons] at e
    obtain ⟨c1, e1, e⟩ := Option.bind_eq_some_iff.1 e
    obtain ⟨c2, e2, s2, hw2⟩ := s.call x
    cases e1.symm.trans e2
    exact ih s2 (hw2 hw) (call_open s hw ho e1) e

/-- Reading bytes while the channel is writing does not close. -/
lemma read_open (s : c.Sound) (hw : c.channel_.isWriting = true) (ho : c.status_ ≠ .kDisconnected)
    {r : ReadResult} (hr : r.delivers = true) {script : List Call}
    (e : c.callback (.read r script) = some c') :
    c'.status_ ≠ .kDisconnected ∧ c'.channel_.isWriting = true := by
  obtain ⟨c1, e1, _, hw1⟩ := s.handleRead r (Sound.calls script)
  cases e.symm.trans e1
  refine ⟨?_, hw1 hw⟩
  rcases handleRead_cases s.input r fun c => script.foldlM TCPConnection.call c with
    ⟨_, _, e2⟩ | ⟨_, ⟨hn, _⟩ | ⟨_, b, pr, _, e2⟩⟩
  · cases e.symm.trans e2
    exact ho
  · have := (sysw.read_pos_iff (capacity_pos c.in_buffer_)).2 hr
    omega
  · exact calls_open (s.recordRead (.inr pr) _) hw ho (e2.symm.trans e)

/-- EOF or an error closes. -/
lemma read_closes (s : c.Sound) (t : c.Tally) (ho : c.status_ ≠ .kDisconnected)
    {r : ReadResult} (hr : r.delivers = false) {script : List Call}
    (e : c.callback (.read r script) = some c') : c'.status_ = .kDisconnected := by
  rcases handleRead_cases s.input r fun c => script.foldlM TCPConnection.call c with
    ⟨h1, h2, _⟩ | ⟨_, ⟨_, e1⟩ | ⟨hp, _⟩⟩
  · cases hs : c.status_ with
    | kConnecting => exact absurd hs t.begun
    | kConnected => exact absurd hs h1
    | kDisconnecting => exact absurd hs h2
    | kDisconnected => exact absurd hs ho
  · cases e.symm.trans e1
    exact handleClose_status
  · rw [(sysw.read_pos_iff (capacity_pos c.in_buffer_)).1 hp] at hr
    cases hr

end Callbacks

end TCPConnection

end WebServer.Net
