import WebServer.Net.StaleEvents

/-!
# The assertions on the status

`handleCreate` asserts that the connection is connecting and `handleWrite` that it is connected; `asserts` are
the outcomes in the log. The assertion of `handleWrite` fails when the write callback finds the connection
shutting down or closed. `StaysConnected` is the condition on an event that excludes this; that it suffices and
is needed is `assertions_hold`.
-/

namespace WebServer.Net

open Lib LawfulBuffer

/-- The outcomes of the assertions on the status. -/
def asserts (log : List Action) : List Bool :=
  log.filterMap fun
    | .assert holds => some holds
    | _ => none

/-- What was asserted is what the log says. -/
lemma mem_asserts {log : List Action} {b : Bool} : b ∈ asserts log ↔ .assert b ∈ log := by
  simp only [asserts, List.mem_filterMap]
  constructor
  · rintro ⟨a, ha, e⟩
    cases a with
    | assert holds =>
      cases e
      exact ha
    | _ => cases e
  · intro h
    exact ⟨_, h, rfl⟩

namespace TCPConnection

variable {B I Ctx : Type} [BufferType B I] {c c' : TCPConnection B Ctx}

/-- `handleClose` asserts nothing. -/
lemma asserts_handleClose : asserts c.handleClose.log = asserts c.log := by
  rw [handleClose_log, closeLog]
  split <;> simp [asserts]

/-- `updateChannelInPoller` asserts nothing. -/
lemma asserts_update : asserts c.updateChannelInPoller.log = asserts c.log := by
  simp [asserts]

/-- `shutdown` asserts nothing. -/
lemma asserts_shutdown : asserts c.shutdown.log = asserts c.log := by
  rcases c.shutdown_cases with ⟨_, e⟩ | ⟨_, _, e⟩ | ⟨_, _, e⟩
  · rw [e]
  · rw [e]
  · rw [e]
    simp [asserts]

/-- Writing out the buffer asserts nothing. -/
lemma asserts_readToFD {w : WriteResult} {n : Int} (e : c.readToFD w = some (n, c')) :
    asserts c'.log = asserts c.log := by
  obtain ⟨p, _, e⟩ := Option.bind_eq_some_iff.1 e
  cases e
  simp [asserts]

/-- `send` asserts nothing. -/
lemma asserts_send {cb : SendCallback} {w : WriteResult} (e : c.send cb w = some c') :
    asserts c'.log = asserts c.log := by
  obtain ⟨out, _, e⟩ := Option.bind_eq_some_iff.1 e
  dsimp only at e
  split at e
  case isFalse =>
    cases e
    simp [asserts]
  case isTrue =>
    obtain ⟨⟨n, c1⟩, e1, e⟩ := Option.bind_eq_some_iff.1 e
    have wrote : asserts c1.log = asserts c.log := (asserts_readToFD e1).trans (by simp [asserts])
    dsimp only at e
    split at e
    case isTrue =>
      cases e
      exact asserts_handleClose.trans wrote
    case isFalse =>
      obtain ⟨size, _, e⟩ := Option.bind_eq_some_iff.1 e
      split at e
      · cases e
        exact asserts_update.trans wrote
      · cases e
        exact wrote

/-- The calls of a server assert nothing. -/
lemma asserts_call {x : Call} (e : c.call x = some c') : asserts c'.log = asserts c.log := by
  cases x with
  | send cb w => exact asserts_send e
  | shutdown =>
    cases e
    exact asserts_shutdown

/-- Receiving asserts nothing. -/
lemma asserts_receive {r : ReadResult} {called : Bool} (e : c.receive r = some (c', called)) :
    asserts c'.log = asserts c.log := by
  unfold receive at e
  split at e
  case isFalse =>
    cases e
    rfl
  case isTrue =>
    obtain ⟨⟨n, b⟩, _, e⟩ := Option.bind_eq_some_iff.1 e
    have reads : asserts ({ c with in_buffer_ := b }.record (.read n)).log = asserts c.log := by
      simp [asserts]
    dsimp only at e
    split at e
    case isTrue =>
      cases e
      exact reads
    case isFalse =>
      split at e
      · cases e
        exact asserts_handleClose.trans reads
      · cases e
        exact asserts_handleClose.trans reads

/-- The assertion of `handleWrite` is about the status it is called in. -/
lemma asserts_handleWrite {w : WriteResult} (e : c.handleWrite w = some c') :
    asserts c'.log = asserts c.log ++ [decide (c.status_ = .kConnected)] := by
  obtain ⟨⟨n, c1⟩, e1, e⟩ := Option.bind_eq_some_iff.1 e
  have wrote : asserts c1.log = asserts c.log ++ [decide (c.status_ = .kConnected)] :=
    (asserts_readToFD e1).trans (by simp [asserts])
  dsimp only at e
  split at e
  case isTrue =>
    cases e
    exact asserts_handleClose.trans wrote
  case isFalse =>
    obtain ⟨size, _, e⟩ := Option.bind_eq_some_iff.1 e
    split at e
    case isFalse =>
      cases e
      exact wrote
    case isTrue =>
      split at e
      · cases e
        exact asserts_shutdown.trans (asserts_update.trans wrote)
      · cases e
        exact asserts_update.trans wrote

/-- While the channel is writing, `send` leaves the status as it is. -/
lemma send_status [LawfulBuffer B I] (s : c.Sound) (hw : c.channel_.isWriting = true)
    {cb : SendCallback} {w : WriteResult} (e : c.send cb w = some c') : c'.status_ = c.status_ := by
  obtain ⟨out, _, ⟨_, _, e1⟩ | ⟨hw', _⟩⟩ := send_cases s.output cb w
  · cases e.symm.trans e1
    rfl
  · rw [hw] at hw'
    cases hw'

end TCPConnection

namespace Dispatch

variable {B I Ctx : Type} [BufferType B I] [LawfulBuffer B I]

/-! ## The assertions in a run -/

/-- If the write callback is called, the connection is not shutting down and no other callback of the event
    closes it or shuts it down. -/
def StaysConnected (s : Dispatch B Ctx) : Move Ctx → Prop
  | .event revents r script _ => revents.meets POLLOUT = true →
      s.conn.status_ = .kConnected ∧ revents.Undisturbed r ∧
      (revents.meets (POLLIN ||| POLLRDHUP ||| POLLPRI) = true → .shutdown ∉ script)
  | _ => True

/-- The assertions held, and the connection is connected as long as the write callback is to be called. -/
structure Asserted (s : Dispatch B Ctx) : Prop where
  inv : s.Inv
  holds : ∀ b ∈ asserts s.conn.log, b = true
  calm : Calm (fun script => .shutdown ∉ script) s.todo
  connected : ∀ w, .write w ∈ s.todo →
    s.conn.status_ = .kConnected ∧ ∀ xs, s.calls = some xs → .shutdown ∉ xs

namespace Asserted

variable {s s' : Dispatch B Ctx}

/-- A connection just created has failed no assertion. -/
lemma created (context : Ctx) : (Dispatch.created context : Dispatch B Ctx).Asserted where
  inv := .created context
  holds := by
    have : asserts (TCPConnection.created context : TCPConnection B Ctx).log = [true] := rfl
    simp [Dispatch.created, this]
  calm := .quiet (by simp [Dispatch.created])
  connected := by simp [Dispatch.created]

/-- A call in the read callback. -/
lemma call (h : s.Asserted) {x : TCPConnection.Call} {xs : List TCPConnection.Call}
    {c : TCPConnection B Ctx} (calls : s.calls = some (x :: xs)) (e : s.conn.call x = some c)
    (inv : Inv { s with conn := c, calls := some xs }) :
    Asserted { s with conn := c, calls := some xs } := by
  refine ⟨inv, ?_, h.calm, fun w hm => ?_⟩
  · rw [TCPConnection.asserts_call e]
    exact h.holds
  · obtain ⟨hs, shut⟩ := h.connected w hm
    have hx := shut _ calls
    rw [List.mem_cons, not_or] at hx
    refine ⟨?_, fun ys e => ?_⟩
    · cases x with
      | send cb w' =>
        rw [← hs]
        exact TCPConnection.send_status h.inv.sound (h.inv.queue.isWriting hm) e
      | shutdown => exact absurd rfl hx.1
    · cases e
      exact hx.2

/-- `handleRead` up to the call of `readCallback_`. -/
lemma read (h : s.Asserted) {r : ReadResult} {script : List TCPConnection.Call} {rest : List Callback}
    {c : TCPConnection B Ctx} {called : Bool} (todo : s.todo = .read r script :: rest)
    (e : s.conn.receive r = some (c, called))
    (inv : Inv { s with conn := c, todo := rest, calls := if called then some script else none }) :
    Asserted { s with conn := c, todo := rest, calls := if called then some script else none } := by
  have calm := h.calm
  rw [todo] at calm
  refine ⟨inv, ?_, calm.tail, fun w hm => ?_⟩
  · rw [TCPConnection.asserts_receive e]
    exact h.holds
  · obtain ⟨hs, _⟩ := h.connected w (by rw [todo]; exact List.mem_cons_of_mem _ hm)
    obtain ⟨r', script', hk, hr, shut⟩ := calm.head hm
    cases hk
    rcases TCPConnection.receive_cases h.inv.sound h.inv.begun r with
      ⟨hs', _⟩ | ⟨_, n, ⟨hr', _⟩ | ⟨_, b, _, e1⟩⟩
    · rw [hs] at hs'
      cases hs'
    · rw [hr] at hr'
      cases hr'
    · cases e.symm.trans e1
      refine ⟨hs, fun xs e => ?_⟩
      cases e
      exact shut

/-- The other callbacks. -/
lemma callback (h : s.Asserted) {k : Callback} {rest : List Callback} {c : TCPConnection B Ctx}
    (todo : s.todo = k :: rest) (not : ∀ r script, k ≠ .read r script)
    (e : s.conn.callback k = some c) (inv : Inv { s with conn := c, todo := rest }) :
    Asserted { s with conn := c, todo := rest } := by
  have calm := h.calm
  rw [todo] at calm
  refine ⟨inv, ?_, calm.tail, fun w hm => ?_⟩
  · cases k with
    | close =>
      cases e
      rw [TCPConnection.asserts_handleClose]
      exact h.holds
    | error =>
      cases e
      rw [TCPConnection.handleError_eq, TCPConnection.asserts_handleClose]
      exact h.holds
    | read r script => exact absurd rfl (not r script)
    | write w =>
      obtain ⟨hs, _⟩ := h.connected w (by simp [todo])
      intro b hb
      rw [TCPConnection.asserts_handleWrite e, List.mem_append] at hb
      rcases hb with hb | hb
      · exact h.holds b hb
      · simpa [hs] using hb
  · obtain ⟨r, script, hk, _⟩ := calm.head hm
    exact absurd hk (not r script)

/-- Running the next callback keeps the assertions true. -/
lemma next (h : s.Asserted) (e : s.Next s') : s'.Asserted := by
  have inv := h.inv.next e
  cases e with
  | call calls e => exact h.call calls e inv
  | «return» calls => exact ⟨inv, h.holds, h.calm, fun w hm => ⟨(h.connected w hm).1, nofun⟩⟩
  | read _ todo e => exact h.read todo e inv
  | callback _ todo not e => exact h.callback todo not e inv

/-- A move that stays connected keeps the assertions true. -/
lemma step (h : s.Asserted) {m : Move Ctx} (ok : s.Registered m ∧ s.StaysConnected m)
    (e : s.step m = some s') : s'.Asserted := by
  obtain ⟨reg, stays⟩ := ok
  have inv := h.inv.step reg e
  cases m with
  | accept => simp [Dispatch.step, h.inv.accepted] at e
  | call x =>
    simp only [Dispatch.step] at e
    split at e
    case isFalse => cases e
    case isTrue idle =>
      obtain ⟨c, e1, e⟩ := Option.bind_eq_some_iff.1 e
      cases e
      refine ⟨inv, ?_, h.calm, fun w hm => ?_⟩
      · rw [TCPConnection.asserts_call e1]
        exact h.holds
      · rw [show s.todo = [] from idle.2.1] at hm
        cases hm
  | event revents r script w =>
    simp only [Dispatch.step] at e
    split at e
    case isFalse => cases e
    case isTrue idle =>
      cases e
      refine ⟨inv, h.holds, .callbacks fun out => (stays out).2, fun w' hm => ?_⟩
      obtain ⟨hs, _⟩ := stays (Mask.write_mem_callbacks hm)
      refine ⟨hs, fun xs e => ?_⟩
      cases idle.2.2.symm.trans e
  | next => exact h.next (next_cases e)
  | input n context =>
    obtain ⟨b, rfl⟩ := input_cases e
    exact ⟨inv, h.holds, h.calm, h.connected⟩

end Asserted

/-- Runs of such moves never fail an assertion, and any other move leads to one that fails. -/
lemma assertions {context : Ctx} {ms : List (Move Ctx)} {s : Dispatch B Ctx}
    (run : Steps (fun s m => s.Registered m ∧ s.StaysConnected m) step (new context) ms s) :
    .assert false ∉ s.conn.log ∧
      ∀ m, s.Registered m → ¬ s.StaysConnected m → (s.step m).isSome = true →
        ∃ ms' s', (m :: ms').foldlM step s = some s' ∧ .assert false ∈ s'.conn.log := by
  have reached := from_accept run (Asserted.created context) fun h ok e => h.step ok e
  constructor
  · rcases reached with rfl | h
    · simp [new, TCPConnection.new]
    · intro hm
      cases h.holds false (mem_asserts.2 hm)
  · intro m reg not some
    cases m with
    | event revents r script w =>
      have idle := idle_of_event some
      rcases reached with rfl | h
      · cases idle.1
      · simp only [StaysConnected, Classical.not_imp] at not
        obtain ⟨out, not⟩ := not
        obtain ⟨ho, n, s', c, run', e, adv, closed, shut⟩ := run_write h.inv idle reg out
        -- in each case the write callback finds a later status
        have later : Status.kDisconnecting.rank ≤ c.status_.rank := by
          by_cases hs : s.conn.status_ = .kConnected
          · by_cases dis : revents.Undisturbed r
            · simp only [hs, dis, true_and, Classical.not_imp, not_not] at not
              exact shut not.1 not.2
            · rw [closed dis]
              decide
          · refine le_trans ?_ adv.forward
            cases hc : s.conn.status_ with
            | kConnecting => exact absurd hc h.inv.begun
            | kConnected => exact absurd hc hs
            | kDisconnecting => exact Nat.le_refl _
            | kDisconnected => exact absurd hc ho
        refine ⟨_, s', run', mem_asserts.1 ?_⟩
        rw [TCPConnection.asserts_handleWrite e, List.mem_append]
        refine .inr (List.mem_singleton.2 (decide_eq_false ?_).symm)
        intro hs
        rw [hs] at later
        exact absurd later (by decide)
    | _ => exact absurd trivial not

/-- In every run in which each event with `POLLOUT` comes to a connected connection and calls no callback that closes
    it or shuts it down, the assertions on the status hold; and any other event that can come next violates that of
    `handleWrite`. The iterators of the linked buffer's deque are taken to survive `push_back`. -/
theorem assertions_hold {Ctx : Type} (context : Ctx) (ms : List (Move Ctx)) :
    (∀ s : Dispatch Buffer Ctx,
      Steps (fun s m => s.Registered m ∧ s.StaysConnected m) step (new context) ms s →
      .assert false ∉ s.conn.log ∧
      ∀ m, s.Registered m → ¬ s.StaysConnected m → (s.step m).isSome = true →
        ∃ ms' s', (m :: ms').foldlM step s = some s' ∧ .assert false ∈ s'.conn.log) ∧
    (∀ s : Dispatch LinkedBuffer Ctx,
      Steps (fun s m => s.Registered m ∧ s.StaysConnected m) step (new context) ms s →
      .assert false ∉ s.conn.log ∧
      ∀ m, s.Registered m → ¬ s.StaysConnected m → (s.step m).isSome = true →
        ∃ ms' s', (m :: ms').foldlM step s = some s' ∧ .assert false ∈ s'.conn.log) := by
  constructor
  · intro s run
    exact assertions run
  · intro s run
    exact assertions run

/-- The kernel is ready for the rest of the response. -/
def writable : Move Unit := .event POLLOUT (.data []) [] (.accept 2)

/-- A response and a shutdown in one poll meet the conditions. -/
lemma respondAndShutdown_connected :
    ∃ s : Dispatch LinkedBuffer Unit, (respondAndShutdown 1).foldlM step (new ()) = some s ∧
      Steps (fun s m => s.Registered m ∧ s.StaysConnected m) step (new ()) (respondAndShutdown 1) s ∧
      s.Registered writable ∧ s.conn.status_ = .kDisconnecting ∧ s.Idle := by
  have ends : ((respondAndShutdown 1).foldlM step (new () : Dispatch LinkedBuffer Unit)).map
      (fun s => (s.conn.interest, s.conn.status_, decide s.Idle))
      = some (some (POLLIN ||| POLLPRI ||| POLLOUT), .kDisconnecting, true) := by decide +kernel
  obtain ⟨s, run, es⟩ := Option.map_eq_some_iff.1 ends
  simp only [Prod.mk.injEq, decide_eq_true_eq] at es
  obtain ⟨hi, hs, idle⟩ := es
  refine ⟨s, run, .of_foldlM ?_ run, fun _ => ⟨_, hi, by decide⟩, hs, idle⟩
  have out : POLLIN.meets POLLOUT = false := by decide
  simp [respondAndShutdown, response, Registered, StaysConnected, out]

/-- The assertions hold up to a `shutdown` that leaves a part of the response unwritten; the next `POLLOUT`
    violates that of `handleWrite`. -/
theorem assertions_hold_pending_output :
    ∃ s : Dispatch LinkedBuffer Unit,
      Steps (fun s m => s.Registered m ∧ s.StaysConnected m) step (new ()) (respondAndShutdown 1) s ∧
      .assert false ∉ s.conn.log ∧
      ∃ ms s', (writable :: ms).foldlM step s = some s' ∧ .assert false ∈ s'.conn.log := by
  obtain ⟨s, _, steps, reg, hs, idle⟩ := respondAndShutdown_connected
  obtain ⟨holds, needed⟩ := (assertions_hold () _).2 s steps
  refine ⟨s, steps, holds, needed writable reg ?_ ?_⟩
  · intro stays
    obtain ⟨hs', _⟩ := stays (by decide)
    rw [hs] at hs'
    cases hs'
  · rw [writable, step, if_pos idle]
    rfl

/-- The kernel takes one byte of the response, the connection is shut down, and the kernel takes the rest:
    `handleWrite` is called on a disconnecting connection. -/
theorem write_while_disconnecting :
    ∃ s : Dispatch LinkedBuffer Unit,
      Steps Registered step (new ()) (respondAndShutdown 1 ++ [writable, .next]) s ∧
      .assert false ∈ s.conn.log := by
  have ends : ((respondAndShutdown 1 ++ [writable, .next]).foldlM step
      (new () : Dispatch LinkedBuffer Unit)).map (fun s => decide (.assert false ∈ s.conn.log))
      = some true := by decide +kernel
  obtain ⟨s', run, hm⟩ := Option.map_eq_some_iff.1 ends
  obtain ⟨s, pre, steps, reg, _⟩ := respondAndShutdown_connected
  rw [List.foldlM_append, pre, Option.bind_eq_bind, Option.bind_some, List.foldlM_cons] at run
  obtain ⟨s1, e1, run⟩ := Option.bind_eq_some_iff.1 run
  refine ⟨s', (steps.mono And.left).append (.cons reg e1 (.of_foldlM ?_ run)), of_decide_eq_true hm⟩
  simp [Registered]

end Dispatch

end WebServer.Net
