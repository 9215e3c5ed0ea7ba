import WebServer.Net.EventLoop

/-!
# The main loop of a server

Model of `server/tcp_server.cc` and `server/acceptor.cc` as far as the main loop is concerned, with the loop
constructed and started as `main` of the server program does: `make_shared<EventLoop>()`, the server,
`start()`, `startLoop()`.

The main loop is an `EventLoop` whose poller has the channel of the acceptor. Its tasks are the erase tasks of
`connectionCloseCallback`, each the number of the connection it erases. The IO threads are seen through what
they do to the main loop: a connection is created by a task on its IO loop and at some time closed by it. The
constructor of `EventLoopThread` calls `setWakeupChannel`; on the main loop nobody does, so a write to its
eventfd does not end an `epoll_wait`.

`Stranded` is what must not happen: an erase task is pending, every thread has done its write, and the loop
waits for fds none of which is ready. It does not happen if the erase tasks are posted while the loop is busy
with events or a peer waits to be accepted (`Timely`), and any other post can lead to it
(`teardown_not_stranded`).
-/

namespace WebServer.Net

open Lib

inductive Thread where
  | main
  | io (i : Nat)
deriving DecidableEq, Repr

/-- `class TCPServer`; its main loop, and what the kernel and the IO loops have of its connections. -/
structure TCPServer where
  num_io_threads : Nat
  /-- The other channel of the poller is `sockch_` of the acceptor. -/
  loop_ : EventLoop Unit Nat Thread
  /-- `sockch_` is registered in the poller. -/
  listening : Bool
  /-- The number of peers that wait to be accepted. -/
  backlog : Nat
  next_conn_id_ : Nat
  connections_ : List Nat
  /-- The connections whose `handleCreate` was handed over to an IO loop and not run yet. -/
  creating : List Nat
  /-- The open connections. -/
  opened : List Nat
deriving DecidableEq, Repr

namespace TCPServer

/-- `TCPServer::TCPServer`, in the main thread. -/
def new (num_io_threads : Nat) : TCPServer where
  num_io_threads := num_io_threads
  loop_ := .new .main
  listening := false
  backlog := 0
  next_conn_id_ := 0
  connections_ := []
  creating := []
  opened := []

/-- `TCPServer::start`: the main thread made the loop, so the task of `Acceptor::listen` is run at once. -/
def start (s : TCPServer) : TCPServer := { s with listening := true }

/-- `EventLoopThreadPool::getNextLoop`, as the thread of the connection. -/
def ioThread (s : TCPServer) (conn : Nat) : Thread := .io (conn % s.num_io_threads)

/-- `TCPServer::acceptorReadCallback`; `accept4` may fail. Without IO threads `getNextLoop` is undefined. -/
def acceptorReadCallback (s : TCPServer) (accepted : Bool) : Option TCPServer :=
  if accepted = true ∧ 0 < s.backlog then
    if 0 < s.num_io_threads then
      some { s with
        backlog := s.backlog - 1
        next_conn_id_ := s.next_conn_id_ + 1
        connections_ := s.next_conn_id_ :: s.connections_
        creating := s.next_conn_id_ :: s.creating }
    else
      none
  else
    some s

/-- What the main thread does in one step of its loop. -/
def handle (s : TCPServer) (accepted : Bool) : Option TCPServer :=
  match s.loop_.phase with
  | .handling (.other () :: _) => s.acceptorReadCallback accepted
  | .executing (conn :: _) => some { s with connections_ := s.connections_.erase conn }
  | _ => some s

inductive Move where
  /-- The main thread calls `startLoop()`. -/
  | startLoop
  /-- A peer connects. -/
  | connect
  /-- `epoll_wait` of the main loop returns. -/
  | poll (active : List (Active Unit))
  /-- The main thread goes on; the kernel answers `accept4`. -/
  | next (accepted : Bool)
  /-- The IO thread runs the `handleCreate` of the connection. -/
  | handleCreate (conn : Nat)
  /-- The IO thread closes the connection: `connectionCloseCallback` queues the erase task. -/
  | handleClose (conn : Nat)
  /-- The IO thread writes to the eventfd of the main loop. -/
  | wakeup (i : Nat)

def step (s : TCPServer) : Move → Option TCPServer
  | .startLoop => do
    let loop ← s.loop_.step (.startLoop .main)
    some { s with loop_ := loop }
  | .connect => if s.listening = true then some { s with backlog := s.backlog + 1 } else none
  | .poll active =>
    if .other () ∈ active → s.listening = true ∧ 0 < s.backlog then do
      let loop ← s.loop_.step (.poll active)
      some { s with loop_ := loop }
    else
      none
  | .next accepted => do
    let s' ← s.handle accepted
    let loop ← s.loop_.step .next
    some { s' with loop_ := loop }
  | .handleCreate conn =>
    if conn ∈ s.creating ∧ s.ioThread conn ∉ s.loop_.waking then
      some { s with creating := s.creating.erase conn, opened := conn :: s.opened }
    else
      none
  | .handleClose conn =>
    if conn ∈ s.opened then do
      let loop ← s.loop_.step (.runInLoop (s.ioThread conn) conn)
      some { s with loop_ := loop, opened := s.opened.erase conn }
    else
      none
  | .wakeup i => do
    let loop ← s.loop_.step (.wakeup (.io i))
    some { s with loop_ := loop }

/-- An erase task is pending, no thread is between its push and its write, and the main loop is in
    `epoll_wait` with none of its fds ready. -/
def Stranded (s : TCPServer) : Prop :=
  s.loop_.pending_callbacks_ ≠ [] ∧ s.loop_.waking = [] ∧ s.loop_.phase = .polling ∧
  ¬ (s.listening = true ∧ 0 < s.backlog) ∧ ¬ (s.loop_.wakeup_channel_ = true ∧ 0 < s.loop_.wakeup_fd_)

instance (s : TCPServer) : Decidable s.Stranded :=
  inferInstanceAs (Decidable (_ ∧ _ ∧ _ ∧ _ ∧ _))

/-- The erase task is posted while the main loop is between the return of `epoll_wait` and the swap of
    `doPendingCallbacks`, or while a peer waits to be accepted. -/
def Timely (s : TCPServer) : Move → Prop
  | .handleClose _ => (∃ active, s.loop_.phase = .handling active) ∨ 0 < s.backlog
  | _ => True

/-! ## What a step does -/

/-- A step of the main thread takes connections only while it handles events. -/
lemma handle_spec {s s' : TCPServer} {accepted : Bool} (e : s.handle accepted = some s') :
    s'.listening = s.listening ∧ s'.opened = s.opened ∧
      (s'.backlog = s.backlog ∧ s'.creating = s.creating ∨
        ∃ active, s.loop_.phase = .handling (.other () :: active)) := by
  unfold handle at e
  split at e
  case h_1 active hp =>
    unfold acceptorReadCallback at e
    split at e
    · split at e
      · cases e
        exact ⟨rfl, rfl, .inr ⟨active, hp⟩⟩
      · cases e
    · cases e
      exact ⟨rfl, rfl, .inr ⟨active, hp⟩⟩
  case h_2 =>
    cases e
    exact ⟨rfl, rfl, .inl ⟨rfl, rfl⟩⟩
  case h_3 =>
    cases e
    exact ⟨rfl, rfl, .inl ⟨rfl, rfl⟩⟩

/-- Everything a step can do. -/
inductive Stepped (s : TCPServer) : Move → TCPServer → Prop where
  | startLoop :
    s.loop_.phase = .stopped →
    Stepped s .startLoop { s with
      loop_ := { s.loop_ with looping_ := true, thread_id_ := .main, phase := .check } }
  | connect :
    Stepped s .connect { s with backlog := s.backlog + 1 }
  | poll {active} :
    s.loop_.phase = .polling →
    Stepped s (.poll active) { s with loop_ := { s.loop_ with phase := .handling active } }
  | next {accepted s1 loop} :
    s.handle accepted = some s1 →
    s.loop_.Next loop →
    Stepped s (.next accepted) { s1 with loop_ := loop }
  | handleCreate {conn} :
    conn ∈ s.creating →
    Stepped s (.handleCreate conn) { s with
      creating := s.creating.erase conn
      opened := conn :: s.opened }
  | handleClose {conn loop} :
    conn ∈ s.opened →
    s.loop_.step (.runInLoop (s.ioThread conn) conn) = some loop →
    Stepped s (.handleClose conn) { s with loop_ := loop, opened := s.opened.erase conn }
  | wakeup {i} :
    .io i ∈ s.loop_.waking →
    Stepped s (.wakeup i) { s with
      loop_ := { s.loop_ with
        wakeup_fd_ := min (s.loop_.wakeup_fd_ + 1) maxCounter
        waking := s.loop_.waking.erase (.io i) } }

/-- What one move can do. -/
lemma step_cases {s s' : TCPServer} {m : Move} (e : s.step m = some s') : s.Stepped m s' := by
  cases m with
  | startLoop =>
    obtain ⟨loop, e1, e⟩ := Option.bind_eq_some_iff.1 e
    cases e
    cases EventLoop.step_cases e1 with
    | startLoop hp => exact .startLoop hp
  | connect =>
    simp only [step] at e
    split at e
    case isFalse => cases e
    case isTrue =>
      cases e
      exact .connect
  | poll active =>
    simp only [step] at e
    split at e
    case isFalse => cases e
    case isTrue =>
      obtain ⟨loop, e1, e⟩ := Option.bind_eq_some_iff.1 e
      cases e
      cases EventLoop.step_cases e1 with
      | poll hp => exact .poll hp
  | next accepted =>
    obtain ⟨s1, e1, e⟩ := Option.bind_eq_some_iff.1 e
    obtain ⟨loop, e2, e⟩ := Option.bind_eq_some_iff.1 e
    cases e
    cases EventLoop.step_cases e2 with
    | next e2 => exact .next e1 e2
  | handleCreate conn =>
    simp only [step] at e
    split at e
    case isFalse => cases e
    case isTrue hc =>
      cases e
      exact .handleCreate hc.1
  | handleClose conn =>
    simp only [step] at e
    split at e
    case isFalse => cases e
    case isTrue hc =>
      obtain ⟨loop, e1, e⟩ := Option.bind_eq_some_iff.1 e
      cases e
      exact .handleClose hc e1
  | wakeup i =>
    obtain ⟨loop, e1, e⟩ := Option.bind_eq_some_iff.1 e
    cases e
    cases EventLoop.step_cases e1 with
    | wakeup ht => exact .wakeup ht

variable {s s' : TCPServer}

/-- What holds of the main loop however it is interleaved with the IO loops. -/
structure Inv (s : TCPServer) : Prop where
  main : s.loop_.thread_id_ = .main
  unregistered : s.loop_.wakeup_channel_ = false
  listening : s.listening = true
  looping : s.loop_.phase ≠ .stopped → s.loop_.looping_ = true
  idle : s.loop_.phase = .stopped → s.creating = [] ∧ s.opened = []
  io : ∀ t ∈ s.loop_.waking, ∃ i, t = .io i

namespace Inv

/-- The invariant holds of a server just started. -/
lemma start (n : Nat) : ((TCPServer.new n).start).Inv where
  main := rfl
  unregistered := rfl
  listening := rfl
  looping h := absurd rfl h
  idle _ := ⟨rfl, rfl⟩
  io := nofun

/-- The IO threads are not the thread of the main loop, so their tasks are queued. -/
lemma push (h : s.Inv) {conn : Nat} {loop : EventLoop Unit Nat Thread}
    (e : s.loop_.step (.runInLoop (s.ioThread conn) conn) = some loop) :
    loop = { s.loop_ with
      pending_callbacks_ := s.loop_.pending_callbacks_ ++ [conn]
      queued := s.loop_.queued ++ [conn]
      waking := s.ioThread conn :: s.loop_.waking } := by
  cases EventLoop.step_cases e with
  | inline hi =>
    rw [h.main] at hi
    cases hi
  | push => rfl

/-- A step of the main loop keeps the invariant. -/
lemma next (h : s.Inv) {accepted : Bool} {s1 : TCPServer} {loop : EventLoop Unit Nat Thread}
    (e : s.handle accepted = some s1) (e' : s.loop_.Next loop) : Inv { s1 with loop_ := loop } := by
  obtain ⟨hl, ho, hc⟩ := handle_spec e
  have looping : s.loop_.looping_ = true := by
    refine h.looping ?_
    intro hp
    cases e' <;> simp_all
  have live {p : Phase Unit Nat} (hp : p ≠ .stopped) : p = .stopped → s1.creating = [] ∧ s1.opened = [] :=
    fun hs => absurd hs hp
  cases e' with
  | poll hp => exact ⟨h.main, h.unregistered, hl.trans h.listening, fun _ => looping, live nofun, h.io⟩
  | stop hp hs =>
    rw [looping] at hs
    cases hs
  | wakeupCallback hp =>
    exact ⟨h.main, h.unregistered, hl.trans h.listening, fun _ => looping, live nofun, h.io⟩
  | handleEvent hp =>
    exact ⟨h.main, h.unregistered, hl.trans h.listening, fun _ => looping, live nofun, h.io⟩
  | swap hp =>
    exact ⟨h.main, h.unregistered, hl.trans h.listening, fun _ => looping, live nofun, h.io⟩
  | run hp =>
    exact ⟨h.main, h.unregistered, hl.trans h.listening, fun _ => looping, live nofun, h.io⟩
  | again hp =>
    exact ⟨h.main, h.unregistered, hl.trans h.listening, fun _ => looping, live nofun, h.io⟩

/-- Every move keeps the invariant. -/
lemma step (h : s.Inv) {m : Move} (e : s.step m = some s') : s'.Inv := by
  cases step_cases e with
  | startLoop hp => exact ⟨rfl, h.unregistered, h.listening, fun _ => rfl, nofun, h.io⟩
  | connect => exact ⟨h.main, h.unregistered, h.listening, h.looping, h.idle, h.io⟩
  | poll hp =>
    exact ⟨h.main, h.unregistered, h.listening, fun _ => h.looping (by simp [hp]), nofun, h.io⟩
  | next e1 e2 => exact h.next e1 e2
  | handleCreate hc =>
    refine ⟨h.main, h.unregistered, h.listening, h.looping, fun hp => ?_, h.io⟩
    rw [(h.idle hp).1] at hc
    cases hc
  | handleClose hc e1 =>
    obtain rfl := h.push e1
    refine ⟨h.main, h.unregistered, h.listening, h.looping, fun hp => ?_, fun t ht => ?_⟩
    · rw [(h.idle hp).2] at hc
      cases hc
    · rcases List.mem_cons.1 ht with rfl | ht
      · exact ⟨_, rfl⟩
      · exact h.io t ht
  | wakeup ht =>
    exact ⟨h.main, h.unregistered, h.listening, h.looping, h.idle,
      fun t ht => h.io t (List.mem_of_mem_erase ht)⟩

end Inv

/-! ## Timely posts -/

/-- Pending tasks will be swapped out: the loop is on its way to them, or a peer waits to be accepted. -/
def Caught (s : TCPServer) : Prop :=
  s.loop_.pending_callbacks_ ≠ [] → (∃ active, s.loop_.phase = .handling active) ∨ 0 < s.backlog

/-- A step of the main loop keeps the pending tasks caught. -/
lemma Caught.next (h : s.Caught) {accepted : Bool} {s1 : TCPServer} {loop : EventLoop Unit Nat Thread}
    (e : s.handle accepted = some s1) (e' : s.loop_.Next loop) : Caught { s1 with loop_ := loop } := by
  obtain ⟨_, _, hc⟩ := handle_spec e
  -- outside of `handling` no peer is accepted
  have elsewhere {p : Phase Unit Nat} (hp : ∀ active, s.loop_.phase ≠ .handling active)
      (ne : s.loop_.pending_callbacks_ ≠ []) : (∃ active, p = .handling active) ∨ 0 < s1.backlog := by
    rcases h ne with ⟨active, ha⟩ | pos
    · exact absurd ha (hp active)
    · rcases hc with ⟨hb, _⟩ | ⟨active, ha⟩
      · exact .inr (hb ▸ pos)
      · exact absurd ha (hp _)
  cases e' with
  | poll hp => exact elsewhere (by simp [hp])
  | stop hp => exact elsewhere (by simp [hp])
  | wakeupCallback hp => exact fun _ => .inl ⟨_, rfl⟩
  | handleEvent hp => exact fun _ => .inl ⟨_, rfl⟩
  | swap hp => exact fun ne => absurd rfl ne
  | run hp => exact elsewhere (by simp [hp])
  | again hp => exact elsewhere (by simp [hp])

/-- A timely move keeps the pending tasks caught. -/
lemma Caught.step (inv : s.Inv) (h : s.Caught) {m : Move} (timely : s.Timely m)
    (e : s.step m = some s') : s'.Caught := by
  cases step_cases e with
  | startLoop hp =>
    intro ne
    rcases h ne with ⟨active, ha⟩ | pos
    · rw [hp] at ha
      cases ha
    · exact .inr pos
  | connect => exact fun _ => .inr (Nat.succ_pos _)
  | poll hp => exact fun _ => .inl ⟨_, rfl⟩
  | next e1 e2 => exact h.next e1 e2
  | handleCreate hc => exact h
  | handleClose hc e1 =>
    obtain rfl := inv.push e1
    exact fun _ => timely
  | wakeup ht => exact h

/-! ## Other posts -/

/-- The threads that are about to write to the eventfd do so. -/
lemma run_wakeups {ts : List Thread} (hw : s.loop_.waking = ts) (io : ∀ t ∈ ts, ∃ i, t = .io i) :
    ∃ ms : List Move, ∃ n, ms.foldlM step s
      = some { s with loop_ := { s.loop_ with waking := [], wakeup_fd_ := n } } := by
  induction ts generalizing s with
  | nil =>
    refine ⟨[], s.loop_.wakeup_fd_, ?_⟩
    rw [← hw]
    rfl
  | cons t ts ih =>
    obtain ⟨i, rfl⟩ := io t (by simp)
    have first : s.step (.wakeup i) = some { s with loop_ := { s.loop_ with
        wakeup_fd_ := min (s.loop_.wakeup_fd_ + 1) maxCounter, waking := ts } } := by
      simp [step, EventLoop.step, hw]
    obtain ⟨ms, n, run⟩ := @ih { s with loop_ := { s.loop_ with
      wakeup_fd_ := min (s.loop_.wakeup_fd_ + 1) maxCounter, waking := ts } } rfl
      fun t ht => io t (List.mem_cons_of_mem _ ht)
    refine ⟨.wakeup i :: ms, n, ?_⟩
    rw [List.foldlM_cons, first]
    exact run

/-- The loop, once it has left the events, comes back to `epoll_wait` without looking at
    `pending_callbacks_`. -/
lemma run_executing {rest : List Nat} (hp : s.loop_.phase = .executing rest)
    (hl : s.loop_.looping_ = true) :
    ∃ ms : List Move, ∃ executed connections, ms.foldlM step s = some { s with
      loop_ := { s.loop_ with phase := .polling, executed := executed }
      connections_ := connections } := by
  induction rest generalizing s with
  | nil =>
    refine ⟨[.next false, .next false], s.loop_.executed, s.connections_, ?_⟩
    simp [step, handle, EventLoop.step, EventLoop.next, hp, hl]
  | cons conn rest ih =>
    have first : s.step (.next false) = some { s with
        loop_ := { s.loop_ with phase := .executing rest, executed := s.loop_.executed ++ [conn] }
        connections_ := s.connections_.erase conn } := by
      simp [step, handle, EventLoop.step, EventLoop.next, hp]
    obtain ⟨ms, executed, connections, run⟩ := @ih { s with
      loop_ := { s.loop_ with phase := .executing rest, executed := s.loop_.executed ++ [conn] }
      connections_ := s.connections_.erase conn } rfl hl
    refine ⟨.next false :: ms, executed, connections, ?_⟩
    rw [List.foldlM_cons, first]
    exact run

/-- Past its events the main loop can run until it polls, with the same tasks pending. -/
lemma run_main (h : s.Inv) (live : s.loop_.phase ≠ .stopped)
    (late : ∀ active, s.loop_.phase ≠ .handling active) :
    ∃ ms : List Move, ∃ executed connections, ms.foldlM step s = some { s with
      loop_ := { s.loop_ with phase := .polling, executed := executed }
      connections_ := connections } := by
  have hl := h.looping live
  cases hp : s.loop_.phase with
  | stopped => exact absurd hp live
  | check =>
    refine ⟨[.next false], s.loop_.executed, s.connections_, ?_⟩
    simp [step, handle, EventLoop.step, EventLoop.next, hp, hl]
  | polling =>
    refine ⟨[], s.loop_.executed, s.connections_, ?_⟩
    rw [← hp]
    rfl
  | handling active => exact absurd hp (late active)
  | executing rest => exact run_executing hp hl

/-- With a task pending and no peer waiting, the loop comes to rest once it has left the events. -/
lemma Inv.strands (h : s.Inv) (pending : s.loop_.pending_callbacks_ ≠ [])
    (live : s.loop_.phase ≠ .stopped) (late : ∀ active, s.loop_.phase ≠ .handling active)
    (empty : s.backlog = 0) :
    ∃ (ms : List Move) (s' : TCPServer), ms.foldlM TCPServer.step s = some s' ∧ s'.Stranded := by
  obtain ⟨ms, executed, connections, run⟩ := run_main h live late
  generalize hs : { s with
    loop_ := { s.loop_ with phase := .polling, executed := executed }
    connections_ := connections } = s1 at run
  have io : ∀ t ∈ s1.loop_.waking, ∃ i, t = .io i := by
    rw [← hs]
    exact h.io
  obtain ⟨ms', n, run'⟩ := run_wakeups rfl io
  refine ⟨ms ++ ms', { s1 with loop_ := { s1.loop_ with waking := [], wakeup_fd_ := n } }, ?_, ?_⟩
  · rw [List.foldlM_append, run]
    exact run'
  · rw [← hs]
    exact ⟨pending, rfl, rfl, by simp [empty], by simp [h.unregistered]⟩

/-- A task that is posted too late, while no peer waits, can be stranded. -/
lemma Inv.late (h : s.Inv) {m : Move} (late : ¬ s.Timely m) (defined : (s.step m).isSome = true) :
    ∃ ms s', (m :: ms).foldlM TCPServer.step s = some s' ∧ s'.Stranded := by
  obtain ⟨s1, e⟩ := Option.isSome_iff_exists.1 defined
  have h1 := h.step e
  cases step_cases e with
  | @handleClose conn loop hc e1 =>
    obtain rfl := h.push e1
    simp only [Timely, not_or, not_exists, not_lt, Nat.le_zero] at late
    obtain ⟨late, empty⟩ := late
    have live : s.loop_.phase ≠ .stopped := by
      intro hp
      rw [(h.idle hp).2] at hc
      cases hc
    obtain ⟨ms, s', run, stranded⟩ := h1.strands (by simp) live late empty
    refine ⟨ms, s', ?_, stranded⟩
    rw [List.foldlM_cons, e]
    exact run
  | _ => exact absurd trivial late

/-- In every run of a server, started as its program does, in which each erase task is posted while the main
    loop handles events or a peer waits to be accepted, no erase task is stranded; and any other post that can
    come next can be stranded. -/
theorem teardown_not_stranded (num_io_threads : Nat) (ms : List Move) (s : TCPServer)
    (run : Steps Timely step (new num_io_threads).start ms s) :
    ¬ s.Stranded ∧
      ∀ m, ¬ s.Timely m → (s.step m).isSome = true →
        ∃ ms' s', (m :: ms').foldlM step s = some s' ∧ s'.Stranded := by
  have inv : s.Inv ∧ s.Caught :=
    @Steps.inv _ _ _ _ (fun s => s.Inv ∧ s.Caught) _ _ _ run
      (fun h timely e => ⟨h.1.step e, h.2.step h.1 timely e⟩) ⟨.start _, fun ne => absurd rfl ne⟩
  refine ⟨?_, fun m => inv.1.late⟩
  rintro ⟨pending, _, hp, blocked, _⟩
  rcases inv.2 pending with ⟨active, ha⟩ | waits
  · rw [hp] at ha
    cases ha
  · exact blocked ⟨inv.1.listening, waits⟩

/-- A peer connects and is accepted, and the main loop is back at `epoll_wait`. -/
def accepted : List Move :=
  [.startLoop, .next false, .connect, .poll [.other ()], .next true, .next false, .next false, .next false,
    .handleCreate 0]

/-- Nothing is stranded so far; the erase task of the connection can be. -/
theorem teardown_not_stranded_one_connection :
    ∃ s, Steps Timely step (new 4).start accepted s ∧ ¬ s.Stranded ∧
      ∃ ms s', (Move.handleClose 0 :: ms).foldlM step s = some s' ∧ s'.Stranded := by
  have ends : (accepted.foldlM step (new 4).start).map
      (fun s => (s.loop_.phase, s.backlog, (s.step (.handleClose 0)).isSome))
      = some (.polling, 0, true) := by decide
  obtain ⟨s, run, es⟩ := Option.map_eq_some_iff.1 ends
  simp only [Prod.mk.injEq] at es
  obtain ⟨hp, hb, defined⟩ := es
  have steps : Steps Timely step (new 4).start accepted s :=
    .of_foldlM (by simp [accepted, Timely]) run
  obtain ⟨safe, needed⟩ := teardown_not_stranded 4 _ s steps
  refine ⟨s, steps, safe, needed (.handleClose 0) ?_ defined⟩
  simp [Timely, hp, hb]

/-- The connection is closed while the main loop is in `epoll_wait`, and the IO thread writes to the eventfd. -/
def closedWhilePolling : List Move := accepted ++ [.handleClose 0, .wakeup 0]

/-- The write to the eventfd does not end the `epoll_wait` of the main loop. -/
theorem erase_task_stranded :
    ∃ s, closedWhilePolling.foldlM step (new 4).start = some s ∧ s.Stranded := by
  have ends : (closedWhilePolling.foldlM step (new 4).start).map (fun s => decide s.Stranded)
      = some true := by decide
  obtain ⟨s, run, stranded⟩ := Option.map_eq_some_iff.1 ends
  exact ⟨s, run, of_decide_eq_true stranded⟩

end TCPServer

end WebServer.Net
