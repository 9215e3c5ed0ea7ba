import WebServer.Net.StaleEvents

/-!
# After the close

`SilentAfterClose`: nothing touches the fd after its channel was removed from the poller. A handler that closes
the connection does nothing else afterwards (`QuietStep`), and the close, error and read handlers and
`shutdown` do nothing to a closed connection. `send` is called on an open one if the read callback makes it
its first call (`Served`). `handleWrite` does not look at the status: the property holds as long as no event
closes the connection before its write callback is called (`KeepsOpen`), and no longer (`silent_after_close`).
-/

namespace WebServer.Net

open Lib LawfulBuffer

/-- The action reads, writes or shuts down the fd, or registers it with epoll. -/
def Action.touches : Action → Bool
  | .write _ => true
  | .read _ => true
  | .shutdownWr => true
  | .addChannel _ => true
  | .updateChannel _ => true
  | _ => false

/-- Nothing touches the fd after its channel was removed from the poller. -/
def SilentAfterClose (log : List Action) : Prop :=
  ∀ l l', log = l ++ .removeChannel :: l' → ∀ a ∈ l', a.touches = false

/-- A connection still registered is silent after its close. -/
lemma silentAfterClose_of_notMem {log : List Action} (h : .removeChannel ∉ log) :
    SilentAfterClose log := by
  intro l l' e
  rw [e] at h
  simp at h

/-- The removal and the call of `closeCallback_` come last. -/
lemma silentAfterClose_close {log : List Action} (h : .removeChannel ∉ log) :
    SilentAfterClose (log ++ [.removeChannel, .closeCallback]) := by
  intro l l' e
  rcases List.append_eq_append_iff.1 e with ⟨m, _, e2⟩ | ⟨m, e1, e2⟩
  · rcases m with _ | ⟨a, _ | ⟨b, m⟩⟩
    · cases e2
      simp [Action.touches]
    · simp at e2
    · simp at e2
  · cases m with
    | nil =>
      cases e2
      simp [Action.touches]
    | cons a m =>
      cases e2
      simp [e1] at h

namespace TCPConnection

variable {B I Ctx : Type} [BufferType B I] {c c1 c' : TCPConnection B Ctx}

/-! ## What comes after a close -/

/-- What a handler does to an open connection: if it closes it, it does nothing else afterwards. -/
def QuietStep (c c' : TCPConnection B Ctx) : Prop :=
  ∃ l, .removeChannel ∉ l ∧
    (c'.status_ ≠ .kDisconnected ∧ c'.log = c.log ++ l ∨
     c'.status_ = .kDisconnected ∧ c'.log = c.log ++ l ++ [.removeChannel, .closeCallback])

/-- The log of an open connection has no removal; that of a closed one is silent after it. -/
structure Quiet (c : TCPConnection B Ctx) : Prop where
  kept : c.status_ ≠ .kDisconnected → .removeChannel ∉ c.log
  silent : SilentAfterClose c.log

omit [BufferType B I] in
/-- A quiet step of an open connection leaves it quiet. -/
lemma Quiet.step (h : c.Quiet) (ho : c.status_ ≠ .kDisconnected) (last : c.QuietStep c') :
    c'.Quiet := by
  obtain ⟨l, hl, ⟨hs, e⟩ | ⟨hs, e⟩⟩ := last
  · have none : Action.removeChannel ∉ c'.log := by
      rw [e, List.mem_append]
      exact fun hm => hm.elim (h.kept ho) hl
    exact ⟨fun _ => none, silentAfterClose_of_notMem none⟩
  · refine ⟨fun ho' => absurd hs ho', ?_⟩
    rw [e]
    refine silentAfterClose_close ?_
    rw [List.mem_append]
    exact fun hm => hm.elim (h.kept ho) hl

namespace QuietStep

omit [BufferType B I] in
/-- A step that leaves an open connection open. -/
lemma of_log {l : List Action} (hl : c'.log = c.log ++ l) (hr : Action.removeChannel ∉ l)
    (hs : c'.status_ ≠ .kDisconnected) : c.QuietStep c' := ⟨l, hr, .inl ⟨hs, hl⟩⟩

omit [BufferType B I] in
/-- Two quiet steps, the first of which leaves the connection open, are one. -/
lemma trans (h : c.QuietStep c1) (ho : c1.status_ ≠ .kDisconnected) (h' : c1.QuietStep c') :
    c.QuietStep c' := by
  obtain ⟨l, hl, ⟨_, e⟩ | ⟨hs, _⟩⟩ := h
  · obtain ⟨l', hl', next⟩ := h'
    refine ⟨l ++ l', by simp [hl, hl'], ?_⟩
    rw [e] at next
    simpa using next
  · exact absurd hs ho

/-- A close as the last thing that happens. -/
lemma close {l : List Action} (hl : c1.log = c.log ++ l) (hr : Action.removeChannel ∉ l)
    (hs : c1.status_ ≠ .kDisconnected) : c.QuietStep c1.handleClose := by
  refine ⟨l, hr, .inr ⟨handleClose_status, ?_⟩⟩
  rw [handleClose_log, hl, closeLog, if_pos hs]

/-- `shutdown` is a quiet step of an open connection. -/
lemma shutdown (ho : c.status_ ≠ .kDisconnected) : c.QuietStep c.shutdown := by
  rcases c.shutdown_cases with ⟨hs, _⟩ | ⟨_, _, e⟩ | ⟨_, _, e⟩
  · exact absurd hs ho
  · rw [e]
    exact of_log (l := []) (by simp) (by simp) nofun
  · rw [e]
    exact of_log rfl (by simp) nofun

variable [LawfulBuffer B I]

/-- `send` is a quiet step of an open connection. -/
lemma send (s : c.Sound) (ho : c.status_ ≠ .kDisconnected) {cb : SendCallback} {w : WriteResult}
    (e : c.send cb w = some c') : c.QuietStep c' := by
  obtain ⟨out, _, ⟨_, _, e1⟩ | ⟨_, call, _, _, _, _, next⟩⟩ := send_cases s.output cb w
  · cases e.symm.trans e1
    exact of_log rfl (by simp) ho
  · rcases next with ⟨_, e1⟩ | ⟨_, _, e1⟩ | ⟨_, _, e1⟩
    · cases e.symm.trans e1
      exact close (l := [.append cb.appends.flatten, .write call]) (by simp) (by simp) ho
    · cases e.symm.trans e1
      exact of_log (l := [.append cb.appends.flatten, .write call,
        .updateChannel c.channel_.enableWriting.events_type_]) (by simp) (by simp) ho
    · cases e.symm.trans e1
      exact of_log (l := [.append cb.appends.flatten, .write call]) (by simp) (by simp) ho

/-- A call of the server is a quiet step of an open connection. -/
lemma call (s : c.Sound) (ho : c.status_ ≠ .kDisconnected) {x : Call} (e : c.call x = some c') :
    c.QuietStep c' := by
  cases x with
  | send cb w => exact send s ho e
  | shutdown =>
    cases e
    exact shutdown ho

/-- `handleWrite` is a quiet step of an open connection. -/
lemma handleWrite (s : c.Sound) (ho : c.status_ ≠ .kDisconnected) (hw : c.channel_.isWriting = true)
    {w : WriteResult} (e : c.handleWrite w = some c') : c.QuietStep c' := by
  have ne := s.pending hw
  obtain ⟨out, holds, call, _, _, _, _, next⟩ := handleWrite_cases (s.ready ne) ne w
  rcases next with ⟨_, e1⟩ | ⟨_, _, e1⟩ | ⟨_, _, _, e1⟩ | ⟨_, _, _, e1⟩
  · cases e.symm.trans e1
    exact close (l := [.assert holds, .write call]) (by simp) (by simp) ho
  · cases e.symm.trans e1
    exact of_log (l := [.assert holds, .write call]) (by simp) (by simp) ho
  · cases e.symm.trans e1
    have drained : c.QuietStep { c.wrote out [.assert holds] call with
        channel_ := c.channel_.disableWriting }.updateChannelInPoller :=
      of_log (l := [.assert holds, .write call,
        .updateChannel c.channel_.disableWriting.events_type_]) (by simp) (by simp) ho
    exact drained.trans ho (shutdown ho)
  · cases e.symm.trans e1
    exact of_log (l := [.assert holds, .write call,
      .updateChannel c.channel_.disableWriting.events_type_]) (by simp) (by simp) ho

end QuietStep

end TCPConnection

namespace Dispatch

variable {B I Ctx : Type} [BufferType B I] [LawfulBuffer B I]

/-! ## Silence in a run -/

/-- The calls of a read callback that sends at most once, and before anything else. -/
def Served (script : List TCPConnection.Call) : Prop := ∀ x ∈ script.tail, x = .shutdown

/-- `POLLOUT` is delivered only while it is registered, the read callbacks send and shut down as
    `HTTPServer::connectionOnRead` does, and outside of events nobody calls a closed connection. -/
def Permitted (s : Dispatch B Ctx) (m : Move Ctx) : Prop :=
  s.Registered m ∧
  match m with
  | .call _ => s.conn.status_ ≠ .kDisconnected
  | .event _ _ script _ => Served script
  | _ => True

/-- If the write callback is called, no other callback of the event closes the connection. -/
def KeepsOpen : Move Ctx → Prop
  | .event revents r _ _ => revents.meets POLLOUT = true → revents.Undisturbed r
  | _ => True

/-- The connection is open when the write callback or a `send` is next. -/
structure Hushed (s : Dispatch B Ctx) : Prop where
  inv : s.Inv
  quiet : s.conn.Quiet
  calm : Calm (fun _ => True) s.todo
  writable : ∀ w, .write w ∈ s.todo → s.conn.status_ ≠ .kDisconnected
  scripts : ∀ r script, .read r script ∈ s.todo → Served script
  served : ∀ xs, s.calls = some xs →
    Served xs ∧ (s.conn.status_ = .kDisconnected → ∀ x ∈ xs, x = .shutdown)

namespace Hushed

variable {s s' : Dispatch B Ctx}

/-- A connection just created is hushed. -/
lemma created (context : Ctx) : (Dispatch.created context : Dispatch B Ctx).Hushed where
  inv := .created context
  quiet := by
    have none : Action.removeChannel ∉ (TCPConnection.created context : TCPConnection B Ctx).log := by
      simp [TCPConnection.created, TCPConnection.handleCreate, TCPConnection.addChannelInPoller,
        TCPConnection.record, TCPConnection.new]
    exact ⟨fun _ => none, silentAfterClose_of_notMem none⟩
  calm := .quiet (by simp [Dispatch.created])
  writable := by simp [Dispatch.created]
  scripts := by simp [Dispatch.created]
  served := by simp [Dispatch.created]

/-- After a callback the callbacks `rest` are left, and perhaps the calls of the read callback. -/
lemma left (h : s.Hushed) {k : Callback} {rest : List Callback} (todo : s.todo = k :: rest)
    {c : TCPConnection B Ctx} {calls : Option (List TCPConnection.Call)}
    (inv : Inv { s with conn := c, todo := rest, calls := calls }) (quiet : c.Quiet)
    (writable : ∀ w, .write w ∈ rest → c.status_ ≠ .kDisconnected)
    (served : ∀ xs, calls = some xs →
      Served xs ∧ (c.status_ = .kDisconnected → ∀ x ∈ xs, x = .shutdown)) :
    Hushed { s with conn := c, todo := rest, calls := calls } where
  inv := inv
  quiet := quiet
  calm := by
    have calm := h.calm
    rw [todo] at calm
    exact calm.tail
  writable := writable
  scripts r script hm := h.scripts r script (by rw [todo]; exact List.mem_cons_of_mem _ hm)
  served := served

/-- A call in the read callback. -/
lemma call (h : s.Hushed) {x : TCPConnection.Call} {xs : List TCPConnection.Call}
    {c : TCPConnection B Ctx} (calls : s.calls = some (x :: xs)) (e : s.conn.call x = some c)
    (inv : Inv { s with conn := c, calls := some xs }) :
    Hushed { s with conn := c, calls := some xs } := by
  obtain ⟨sv, shut⟩ := h.served _ calls
  have served (c : TCPConnection B Ctx) : ∀ ys, some xs = some ys →
      Served ys ∧ (c.status_ = .kDisconnected → ∀ x ∈ ys, x = .shutdown) := by
    intro ys e
    cases e
    exact ⟨fun x hx => sv x (List.mem_of_mem_tail hx), fun _ x hx => sv x hx⟩
  by_cases hs : s.conn.status_ = .kDisconnected
  · -- the `send` before failed, and `shutdown` does nothing
    obtain rfl := shut hs x (by simp)
    have same : s.conn.shutdown = s.conn := if_pos hs
    cases e
    rw [same] at inv ⊢
    exact ⟨inv, h.quiet, h.calm, h.writable, h.scripts, served s.conn⟩
  · refine ⟨inv, h.quiet.step hs (.call h.inv.sound hs e), h.calm, fun w hm => ?_, h.scripts, served c⟩
    exact TCPConnection.call_open h.inv.sound (h.inv.queue.isWriting hm) hs e

/-- `handleRead` up to the call of `readCallback_`. -/
lemma read (h : s.Hushed) {r : ReadResult} {script : List TCPConnection.Call} {rest : List Callback}
    {c : TCPConnection B Ctx} {called : Bool} (todo : s.todo = .read r script :: rest)
    (e : s.conn.receive r = some (c, called))
    (inv : Inv { s with conn := c, todo := rest, calls := if called then some script else none }) :
    Hushed { s with conn := c, todo := rest, calls := if called then some script else none } := by
  have calm := h.calm
  rw [todo] at calm
  have later {w : WriteResult} (hm : .write w ∈ rest) : .write w ∈ s.todo := by
    rw [todo]
    exact List.mem_cons_of_mem _ hm
  rcases TCPConnection.receive_cases h.inv.sound h.inv.begun r with
    ⟨_, e1⟩ | ⟨ho, n, ⟨hr, e1⟩ | ⟨_, b, _, e1⟩⟩
  · cases e.symm.trans e1
    exact h.left todo inv h.quiet (fun w hm => h.writable w (later hm)) nofun
  · cases e.symm.trans e1
    refine h.left todo inv ?_ (fun w hm => ?_) nofun
    · exact h.quiet.step ho (.close (l := [.read n]) rfl (by simp) ho)
    · -- the write callback comes only after a read that finds bytes
      obtain ⟨r', script', hk, hr', _⟩ := calm.head hm
      cases hk
      rw [hr] at hr'
      cases hr'
  · cases e.symm.trans e1
    refine h.left todo inv ?_ (fun w hm => h.writable w (later hm)) fun xs e => ?_
    · exact h.quiet.step ho (.of_log (l := [.read n]) rfl (by simp) ho)
    · cases e
      exact ⟨h.scripts r script (by simp [todo]), fun hs => absurd hs ho⟩

/-- The other callbacks. -/
lemma callback (h : s.Hushed) {k : Callback} {rest : List Callback} {c : TCPConnection B Ctx}
    (calls : s.calls = none) (todo : s.todo = k :: rest) (not : ∀ r script, k ≠ .read r script)
    (e : s.conn.callback k = some c) (inv : Inv { s with conn := c, todo := rest }) :
    Hushed { s with conn := c, todo := rest } := by
  have calm := h.calm
  rw [todo] at calm
  have last (w : WriteResult) : .write w ∉ rest := by
    intro hm
    obtain ⟨r, script, hk, _⟩ := calm.head hm
    exact not r script hk
  have served : ∀ xs, s.calls = some xs →
      Served xs ∧ (c.status_ = .kDisconnected → ∀ x ∈ xs, x = .shutdown) := by
    intro xs e
    rw [calls] at e
    cases e
  have closes : s.conn.handleClose.Quiet := by
    by_cases hs : s.conn.status_ = .kDisconnected
    · have same : s.conn.handleClose = s.conn := if_neg (not_not.2 hs)
      rw [same]
      exact h.quiet
    · exact h.quiet.step hs (.close (l := []) (by simp) (by simp) hs)
  refine h.left todo inv ?_ (fun w hm => absurd hm (last w)) served
  cases k with
  | close =>
    cases e
    exact closes
  | error =>
    cases e
    exact closes
  | read r script => exact absurd rfl (not r script)
  | write w =>
    have hm : .write w ∈ s.todo := by simp [todo]
    have ho := h.writable w hm
    exact h.quiet.step ho (.handleWrite h.inv.sound ho (h.inv.queue.isWriting hm) e)

/-- Running the next callback keeps a dispatch hushed. -/
lemma next (h : s.Hushed) (e : s.Next s') : s'.Hushed := by
  have inv := h.inv.next e
  cases e with
  | call calls e => exact h.call calls e inv
  | «return» calls => exact ⟨inv, h.quiet, h.calm, h.writable, h.scripts, nofun⟩
  | read _ todo e => exact h.read todo e inv
  | callback calls todo not e => exact h.callback calls todo not e inv

/-- A permitted move that keeps the connection open for its callbacks keeps a dispatch hushed. -/
lemma step (h : s.Hushed) {m : Move Ctx} (ok : s.Permitted m ∧ KeepsOpen m)
    (e : s.step m = some s') : s'.Hushed := by
  obtain ⟨⟨reg, per⟩, keeps⟩ := ok
  have inv := h.inv.step reg e
  cases m with
  | accept => simp [Dispatch.step, h.inv.accepted] at e
  | call x =>
    simp only [Dispatch.step] at e
    split at e
    case isFalse => cases e
    case isTrue idle =>
      obtain ⟨c, e1, e⟩ := Option.bind_eq_some_iff.1 e
      cases e
      have writable : ∀ w, .write w ∉ s.todo := by simp [idle.2.1]
      refine ⟨inv, h.quiet.step per (.call h.inv.sound per e1), h.calm, fun w hm => ?_, h.scripts,
        fun xs e => ?_⟩
      · exact absurd hm (writable w)
      · cases idle.2.2.symm.trans e
  | event revents r script w =>
    simp only [Dispatch.step] at e
    split at e
    case isFalse => cases e
    case isTrue idle =>
      cases e
      refine ⟨inv, h.quiet, .callbacks fun out => ⟨keeps out, fun _ => trivial⟩, fun w' hm => ?_,
        fun r' script' hm => ?_, h.served⟩
      · obtain ⟨mask, em, _⟩ := reg (Mask.write_mem_callbacks hm)
        intro hs
        rw [h.inv.sound.removed hs] at em
        cases em
      · rw [Mask.read_mem_callbacks hm]
        exact per
  | next => exact h.next (next_cases e)
  | input n context =>
    obtain ⟨b, rfl⟩ := input_cases e
    exact ⟨inv, ⟨h.quiet.kept, h.quiet.silent⟩, h.calm, h.writable, h.scripts, h.served⟩

end Hushed

omit [LawfulBuffer B I] in
/-- A write after the channel was removed. -/
lemma not_silent {c c' : TCPConnection B Ctx} {w : WriteResult} (h : .removeChannel ∈ c.log)
    (e : c.handleWrite w = some c') : ¬ SilentAfterClose c'.log := by
  intro silent
  obtain ⟨l, call, el, hm⟩ := TCPConnection.handleWrite_writes e
  obtain ⟨l1, l2, e1⟩ := List.append_of_mem h
  have touches := silent l1 (l2 ++ l) (by rw [el, e1]; simp) (.write call)
    (List.mem_append_right _ hm)
  cases touches

/-- Runs of such moves are silent after the close, and any other move leads to one that is not. -/
lemma silence {context : Ctx} {ms : List (Move Ctx)} {s : Dispatch B Ctx}
    (run : Steps (fun s m => s.Permitted m ∧ KeepsOpen m) step (new context) ms s) :
    SilentAfterClose s.conn.log ∧
      ∀ m, s.Permitted m → ¬ KeepsOpen m → (s.step m).isSome = true →
        ∃ ms' s', (m :: ms').foldlM step s = some s' ∧ ¬ SilentAfterClose s'.conn.log := by
  have reached := from_accept run (Hushed.created context) fun h ok e => h.step ok e
  constructor
  · rcases reached with rfl | h
    · exact silentAfterClose_of_notMem (by simp [new, TCPConnection.new])
    · exact h.quiet.silent
  · intro m per not some
    cases m with
    | event revents r script w =>
      have idle := idle_of_event some
      rcases reached with rfl | h
      · cases idle.1
      · simp only [KeepsOpen, Classical.not_imp] at not
        obtain ⟨out, dis⟩ := not
        obtain ⟨ho, n, s', c, run', e, adv, closed, _⟩ := run_write h.inv idle per.1 out
        refine ⟨_, s', run', not_silent ?_ e⟩
        -- the connection was open, so the channel was removed on the way
        obtain ⟨l, el, rl, _⟩ := adv.log
        rw [Status.closings, if_pos ⟨ho, closed dis⟩] at rl
        rw [el]
        exact List.mem_append_right _ (List.count_pos_iff.1 (by omega))
    | _ => exact absurd trivial not

/-- In every run in which each event with `POLLOUT` calls neither the close nor the error callback, nor the read
    callback at EOF or after an error, nothing touches the fd after the connection was closed; and any other event
    that can come next leads to a write after the close. The iterators of the linked buffer's deque are taken to
    survive `push_back`. -/
theorem silent_after_close {Ctx : Type} (context : Ctx) (ms : List (Move Ctx)) :
    (∀ s : Dispatch Buffer Ctx,
      Steps (fun s m => s.Permitted m ∧ KeepsOpen m) step (new context) ms s →
      SilentAfterClose s.conn.log ∧
      ∀ m, s.Permitted m → ¬ KeepsOpen m → (s.step m).isSome = true →
        ∃ ms' s', (m :: ms').foldlM step s = some s' ∧ ¬ SilentAfterClose s'.conn.log) ∧
    (∀ s : Dispatch LinkedBuffer Ctx,
      Steps (fun s m => s.Permitted m ∧ KeepsOpen m) step (new context) ms s →
      SilentAfterClose s.conn.log ∧
      ∀ m, s.Permitted m → ¬ KeepsOpen m → (s.step m).isSome = true →
        ∃ ms' s', (m :: ms').foldlM step s = some s' ∧ ¬ SilentAfterClose s'.conn.log) := by
  constructor
  · intro s run
    exact silence run
  · intro s run
    exact silence run

/-- The peer resets the connection while output is pending. -/
def reset : Move Unit :=
  .event (POLLIN ||| POLLOUT ||| POLLERR ||| POLLHUP) (.error (.other 104)) [] (.error .EPIPE)

/-- A response and a shutdown in one poll meet the conditions. -/
lemma respondAndShutdown_steps :
    ∃ s : Dispatch LinkedBuffer Unit, (respondAndShutdown 1).foldlM step (new ()) = some s ∧
      Steps (fun s m => s.Permitted m ∧ KeepsOpen m) step (new ()) (respondAndShutdown 1) s ∧
      s.Permitted reset ∧ s.Idle := by
  have ends : ((respondAndShutdown 1).foldlM step (new () : Dispatch LinkedBuffer Unit)).map
      (fun s => (s.conn.interest, decide s.Idle))
      = some (some (POLLIN ||| POLLPRI ||| POLLOUT), true) := by decide +kernel
  obtain ⟨s, run, es⟩ := Option.map_eq_some_iff.1 ends
  obtain ⟨hi, idle⟩ := Prod.mk.injEq .. ▸ es
  refine ⟨s, run, .of_foldlM ?_ run, ⟨fun _ => ⟨_, hi, by decide⟩, by simp [reset, Served]⟩,
    of_decide_eq_true idle⟩
  have out : POLLIN.meets POLLOUT = false := by decide
  simp [respondAndShutdown, response, Permitted, Registered, KeepsOpen, Served, out]

/-- After a partial write and `shutdown` everything is silent; a reset of the peer leads to a write after the
    close. -/
theorem silent_after_close_pending_output :
    ∃ s : Dispatch LinkedBuffer Unit,
      Steps (fun s m => s.Permitted m ∧ KeepsOpen m) step (new ()) (respondAndShutdown 1) s ∧
      SilentAfterClose s.conn.log ∧
      ∃ ms s', (reset :: ms).foldlM step s = some s' ∧ ¬ SilentAfterClose s'.conn.log := by
  obtain ⟨s, _, steps, per, idle⟩ := respondAndShutdown_steps
  obtain ⟨silent, needed⟩ := (silent_after_close () _).2 s steps
  refine ⟨s, steps, silent, needed reset per ?_ ?_⟩
  · intro keeps
    exact absurd (keeps (by decide)).2.1 (by decide)
  · rw [reset, step, if_pos idle]
    rfl

/-- The peer resets the connection while a part of the response is unwritten: the error callback closes it
    and removes the channel from the poller, and the write callback of the same event writes to the fd. -/
theorem write_after_close :
    ∃ s : Dispatch LinkedBuffer Unit,
      Steps Permitted step (new ()) (respondAndShutdown 1 ++ [reset, .next, .next, .next]) s ∧
      ¬ SilentAfterClose s.conn.log := by
  have log : ((respondAndShutdown 1 ++ [reset, .next, .next, .next]).foldlM step
      (new () : Dispatch LinkedBuffer Unit)).map (fun s => s.conn.log)
      = some ([.assert true, .addChannel (POLLIN ||| POLLPRI), .read 1, .append (bytes "abc"),
        .write ⟨bytes "abc", 1⟩, .updateChannel (POLLIN ||| POLLPRI ||| POLLOUT)] ++
        .removeChannel :: [.closeCallback, .assert false, .write ⟨bytes "bc", -1⟩]) := by decide +kernel
  obtain ⟨s', run, log⟩ := Option.map_eq_some_iff.1 log
  obtain ⟨s, pre, steps, per, _⟩ := respondAndShutdown_steps
  rw [List.foldlM_append, pre, Option.bind_eq_bind, Option.bind_some, List.foldlM_cons] at run
  obtain ⟨s1, e1, run⟩ := Option.bind_eq_some_iff.1 run
  refine ⟨s', (steps.mono And.left).append (.cons per e1 (.of_foldlM ?_ run)), fun silent => ?_⟩
  · simp [Permitted, Registered]
  · cases silent _ _ log (.write ⟨bytes "bc", -1⟩) (by simp)

end Dispatch

end WebServer.Net
