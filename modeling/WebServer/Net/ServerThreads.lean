import WebServer.Net.Address
import WebServer.Net.TCPConnection
import WebServer.Net.TCPServer

/-!
# A server and its IO threads

Model of `thread/event_loop_thread.cc`, `thread/event_loop_thread_pool.cc` and `server/tcp_server.cc` with every
loop an `EventLoop` of its own, from the constructor of the pool on. The constructor makes the loops in the main
thread and starts the threads one after the other; a thread enters `EventLoop::startLoop` at any time after
that. The server listens and accepts once its constructor is done.

Objects are named by numbers. A connection is the place of its object in `heap`, where it stays. A node of
`connections_` has an address, its `slot`, which the allocator chooses among the free ones, so that the address
of an erased node may come back. The task that `acceptorReadCallback` makes has a reference to the mapped value,
which is a slot; following it when there is no such node is undefined.

A connection is closed by its IO thread, at any time after `handleCreate` has put its channel into the poller.
-/

namespace WebServer.Net

open Lib

/-- The task `[&conn]() { conn->handleCreate(); }`, with the connection for which it was made. -/
structure CreateTask where
  slot : Nat
  conn : Nat
deriving DecidableEq, Repr

/-! ## IO threads -/

/-- `class EventLoopThread` -/
structure EventLoopThread where
  loop_ : EventLoop Unit CreateTask Thread
  /-- `thread_` was started. -/
  thread_ : Bool
  /-- The tasks that were passed to `runInLoop` of the loop. -/
  passed : List CreateTask
  /-- Those that were executed, each with the thread that did it. -/
  ran : List (CreateTask × Thread)
deriving DecidableEq, Repr

namespace EventLoopThread

/-- `EventLoopThread::EventLoopThread`, in the main thread. -/
def new : EventLoopThread where
  loop_ := .newThread .main
  thread_ := false
  passed := []
  ran := []

inductive Move where
  /-- The IO thread enters `EventLoop::startLoop`. -/
  | startLoop
  /-- `epoll_wait` returns. -/
  | poll (active : List (Active Unit))
  /-- The IO thread goes on. -/
  | next
  /-- The main thread writes to the eventfd. -/
  | wakeup
deriving DecidableEq, Repr

/-- The IO thread of this number, or the main thread at its loop. -/
def step (i : Nat) (th : EventLoopThread) : Move → Option EventLoopThread
  | .startLoop =>
    if th.thread_ = true then do
      let loop ← th.loop_.step (.startLoop (.io i))
      some { th with loop_ := loop }
    else
      none
  | .poll active => do
    let loop ← th.loop_.step (.poll active)
    some { th with loop_ := loop }
  | .next => do
    let loop ← th.loop_.step .next
    some { th with loop_ := loop, ran := th.ran ++ th.loop_.current.toList.map (·, .io i) }
  | .wakeup => do
    let loop ← th.loop_.step (.wakeup .main)
    some { th with loop_ := loop }

/-- `EventLoop::runInLoop`, called by this thread: it executes the task itself if it takes itself for the thread
    of the loop. -/
def runInLoop (th : EventLoopThread) (t : Thread) (task : CreateTask) : Option EventLoopThread := do
  let loop ← th.loop_.step (.runInLoop t task)
  some { th with
    loop_ := loop
    passed := th.passed ++ [task]
    ran := if th.loop_.thread_id_ = t then th.ran ++ [(task, t)] else th.ran }

end EventLoopThread

/-! ## The server -/

/-- What the server knows of a `TCPConnection`. -/
structure Connection where
  /-- The number of the IO thread. -/
  io_loop_ : Nat
  name_ : Bytes
  status_ : Status
deriving DecidableEq, Repr

/-- A node of `connections_`. -/
structure Node where
  slot : Nat
  key : Bytes
  conn : Nat
deriving DecidableEq, Repr

/-- `class TCPServer` with its main loop, whose tasks are the erase tasks of `connectionCloseCallback`. -/
structure ServerThreads where
  name_ : Bytes
  num_threads_ : Nat
  threads_ : List EventLoopThread
  next_thread_idx_ : Nat
  loop_ : EventLoop Unit Nat Thread
  /-- `sockch_` of the acceptor is in the poller of the main loop. -/
  listening : Bool
  /-- The connections accepted so far. -/
  heap : List Connection
  connections_ : List Node
  next_conn_id_ : Nat
deriving DecidableEq, Repr

namespace ServerThreads

/-- The server before the constructor of its pool. -/
def new (host_addr : SocketAddress) (num_io_threads : Nat) : ServerThreads where
  name_ := host_addr.toIPPort
  num_threads_ := num_io_threads
  threads_ := []
  next_thread_idx_ := 0
  loop_ := .new .main
  listening := false
  heap := []
  connections_ := []
  next_conn_id_ := 0

/-- `TCPConnection::handleCreate`, called through the reference of the task. -/
def handleCreate (s : ServerThreads) (task : CreateTask) : Option ServerThreads := do
  let node ← s.connections_.find? (·.slot = task.slot)
  let conn ← s.heap[node.conn]?
  if conn.status_ = .kConnecting then
    some { s with heap := s.heap.set node.conn { conn with status_ := .kConnected } }
  else
    none

/-- `connections_[name] = conn`: the value of the entry with this key, or a new node at a free address. -/
def assign (nodes : List Node) (name : Bytes) (conn slot : Nat) : List Node :=
  if nodes.any (·.key = name) then
    nodes.map fun node => if node.key = name then { node with conn := conn } else node
  else
    nodes ++ [⟨slot, name, conn⟩]

/-- `TCPServer::acceptorReadCallback` up to `connections_[name]`: the new connection, with the task made for it.
    The allocator chooses the address of a new node. The overflow of `next_conn_id_` is undefined. -/
def newConnection (s : ServerThreads) (peer_addr : SocketAddress) (slot : Nat) :
    Option (ServerThreads × CreateTask) :=
  let name := connectionName peer_addr s.name_ s.next_conn_id_
  if slot ∈ s.connections_.map Node.slot ∨ 2 ^ 31 ≤ s.next_conn_id_ + 1 then
    none
  else do
    let connections := assign s.connections_ name s.heap.length slot
    let node ← connections.find? (·.key = name)
    some ({ s with
      heap := s.heap ++ [⟨s.next_thread_idx_, name, .kConnecting⟩]
      connections_ := connections
      next_conn_id_ := s.next_conn_id_ + 1 }, ⟨node.slot, s.heap.length⟩)

/-- `EventLoopThreadPool::getNextThread`, with what becomes of the thread object. -/
def setNextThread (s : ServerThreads) (io_thread : EventLoopThread) : ServerThreads :=
  { s with
    threads_ := s.threads_.set s.next_thread_idx_ io_thread
    next_thread_idx_ := (s.next_thread_idx_ + 1) % s.threads_.length }

/-- `TCPServer::acceptorReadCallback`. `accept4` gives a peer or fails. Without IO threads `getNextLoop` is
    undefined. -/
def acceptorReadCallback (s : ServerThreads) (accepted : Option SocketAddress) (slot : Nat) :
    Option ServerThreads :=
  match accepted with
  | none => some s
  | some peer_addr => do
    let io_thread ← s.threads_[s.next_thread_idx_]?
    let (s', task) ← s.newConnection peer_addr slot
    let io_thread' ← io_thread.runInLoop .main task
    if io_thread.loop_.thread_id_ = .main then
      (s'.setNextThread io_thread').handleCreate task
    else
      some (s'.setNextThread io_thread')

/-- The task of `TCPServer::connectionCloseCallback`. -/
def eraseConnection (s : ServerThreads) (conn : Nat) : Option ServerThreads := do
  let c ← s.heap[conn]?
  some { s with connections_ := s.connections_.filter (·.key ≠ c.name_) }

/-- `TCPConnection::handleClose` and `TCPServer::connectionCloseCallback`, in the IO thread of the connection.
    Before `handleCreate` nothing calls it, and `kDisconnecting` makes no difference to it. -/
def handleClose (s : ServerThreads) (conn : Nat) : Option ServerThreads := do
  let c ← s.heap[conn]?
  if c.status_ = .kConnecting then
    none
  else if c.status_ = .kDisconnected then
    some s
  else
    let loop ← s.loop_.step (.runInLoop (.io c.io_loop_) conn)
    some { s with loop_ := loop, heap := s.heap.set conn { c with status_ := .kDisconnected } }

/-- What the main thread does in one step of its loop. -/
def handle (s : ServerThreads) (accepted : Option SocketAddress) (slot : Nat) : Option ServerThreads :=
  match s.loop_.phase with
  | .handling (.other () :: _) => s.acceptorReadCallback accepted slot
  | .executing (conn :: _) => s.eraseConnection conn
  | _ => some s

/-- What an IO thread does beyond its loop: it executes the task at which it is. -/
def execute (s : ServerThreads) (th : EventLoopThread) (m : EventLoopThread.Move) : Option ServerThreads :=
  if m = .next then th.loop_.current.elim (some s) s.handleCreate else some s

/-- The main thread is in `queueInLoop` of an IO loop. -/
def queueing (s : ServerThreads) : Bool := s.threads_.any fun th => .main ∈ th.loop_.waking

inductive Move where
  /-- `EventLoopThreadPool::EventLoopThreadPool` makes the next thread object. -/
  | construct
  /-- It starts the thread of the object. -/
  | startThread
  /-- `TCPServer::start` -/
  | start
  /-- The main thread calls `startLoop()`. -/
  | startLoop
  /-- `epoll_wait` of the main loop returns. -/
  | poll (active : List (Active Unit))
  /-- The main thread goes on. -/
  | next (accepted : Option SocketAddress) (slot : Nat)
  /-- A step at the loop of this IO thread. -/
  | thread (i : Nat) (m : EventLoopThread.Move)
  /-- The IO thread of the connection closes it. -/
  | handleClose (conn : Nat)
  /-- This IO thread writes to the eventfd of the main loop. -/
  | wakeup (i : Nat)
deriving DecidableEq, Repr

def step (s : ServerThreads) : Move → Option ServerThreads
  | .construct =>
    if s.threads_.length < s.num_threads_ ∧ s.threads_.all (·.thread_) then
      some { s with threads_ := s.threads_ ++ [.new] }
    else
      none
  | .startThread => do
    let th ← s.threads_[s.threads_.length - 1]?
    if th.thread_ = true then
      none
    else
      some { s with threads_ := s.threads_.set (s.threads_.length - 1) { th with thread_ := true } }
  | .start =>
    if s.threads_.length = s.num_threads_ ∧ s.threads_.all (·.thread_) then
      some { s with listening := true }
    else
      none
  | .startLoop =>
    if s.listening = true then do
      let loop ← s.loop_.step (.startLoop .main)
      some { s with loop_ := loop }
    else
      none
  | .poll active =>
    if s.queueing = true then
      none
    else do
      let loop ← s.loop_.step (.poll active)
      some { s with loop_ := loop }
  | .next accepted slot =>
    if s.queueing = true then
      none
    else do
      let s' ← s.handle accepted slot
      let loop ← s.loop_.step .next
      some { s' with loop_ := loop }
  | .thread i m =>
    -- the thread itself waits for its own write to the eventfd of the main loop
    if m ≠ .wakeup ∧ .io i ∈ s.loop_.waking then
      none
    else do
      let th ← s.threads_[i]?
      let th' ← th.step i m
      let s' ← s.execute th m
      some { s' with threads_ := s'.threads_.set i th' }
  | .handleClose conn => s.handleClose conn
  | .wakeup i => do
    let loop ← s.loop_.step (.wakeup (.io i))
    some { s with loop_ := loop }

/-! ## What a step does -/

variable {s s' : ServerThreads}

/-- The step is an accept of the main thread. -/
def Accepts (s : ServerThreads) : Move → Prop
  | .next (some _) _ => ∃ active, s.loop_.phase = .handling (.other () :: active)
  | _ => False

/-- Everything a step can do. -/
inductive Stepped (s : ServerThreads) : Move → ServerThreads → Prop where
  | construct :
    Stepped s .construct { s with threads_ := s.threads_ ++ [.new] }
  | startThread {i th} :
    s.threads_[i]? = some th →
    Stepped s .startThread { s with threads_ := s.threads_.set i { th with thread_ := true } }
  | start :
    Stepped s .start { s with listening := true }
  | startLoop {loop} :
    s.loop_.step (.startLoop .main) = some loop →
    Stepped s .startLoop { s with loop_ := loop }
  | poll {active loop} :
    s.loop_.step (.poll active) = some loop →
    Stepped s (.poll active) { s with loop_ := loop }
  | accept {peer_addr slot active loop th th' s1 s2 task} :
    s.loop_.phase = .handling (.other () :: active) →
    s.loop_.Next loop →
    s.threads_[s.next_thread_idx_]? = some th →
    s.newConnection peer_addr slot = some (s1, task) →
    th.runInLoop .main task = some th' →
    (if th.loop_.thread_id_ = .main then (s1.setNextThread th').handleCreate task
      else some (s1.setNextThread th')) = some s2 →
    Stepped s (.next (some peer_addr) slot) { s2 with loop_ := loop }
  | erase {accepted slot conn s1 loop} :
    ¬ s.Accepts (.next accepted slot) →
    s.loop_.current = some conn →
    s.loop_.Next loop →
    s.eraseConnection conn = some s1 →
    Stepped s (.next accepted slot) { s1 with loop_ := loop }
  | idle {accepted slot loop} :
    ¬ s.Accepts (.next accepted slot) →
    s.loop_.current = none →
    s.loop_.Next loop →
    Stepped s (.next accepted slot) { s with loop_ := loop }
  | thread {i m th th' s1} :
    s.threads_[i]? = some th →
    th.step i m = some th' →
    s.execute th m = some s1 →
    Stepped s (.thread i m) { s1 with threads_ := s1.threads_.set i th' }
  | handleClose {conn s1} :
    s.handleClose conn = some s1 →
    Stepped s (.handleClose conn) s1
  | wakeup {i loop} :
    s.loop_.step (.wakeup (.io i)) = some loop →
    Stepped s (.wakeup i) { s with loop_ := loop }

/-- What one step of the main loop can do. -/
lemma next_cases {accepted : Option SocketAddress} {slot : Nat} {s1 : ServerThreads}
    {loop : EventLoop Unit Nat Thread} (e : s.handle accepted slot = some s1) (e' : s.loop_.Next loop) :
    s.Stepped (.next accepted slot) { s1 with loop_ := loop } := by
  unfold handle at e
  split at e
  case h_1 active hp =>
    have none_left : s.loop_.current = none := by simp [EventLoop.current, hp]
    cases accepted with
    | none =>
      cases e
      exact .idle id none_left e'
    | some peer_addr =>
      simp only [acceptorReadCallback] at e
      obtain ⟨th, hth, e⟩ := Option.bind_eq_some_iff.1 e
      obtain ⟨⟨s2, task⟩, hs, e⟩ := Option.bind_eq_some_iff.1 e
      obtain ⟨th', hr, e⟩ := Option.bind_eq_some_iff.1 e
      exact .accept hp e' hth hs hr e
  case h_2 conn rest hp =>
    refine .erase ?_ (by simp [EventLoop.current, hp]) e' e
    cases accepted with
    | none => exact id
    | some peer_addr =>
      rintro ⟨active, ha⟩
      rw [hp] at ha
      cases ha
  case h_3 hne1 hne2 =>
    cases e
    refine .idle ?_ ?_ e'
    · cases accepted with
      | none => exact id
      | some peer_addr => exact fun ⟨active, ha⟩ => hne1 active ha
    · unfold EventLoop.current
      split
      case h_1 cb rest hp => exact absurd hp (hne2 cb rest)
      case h_2 => rfl

/-- What one move can do. -/
lemma step_cases {m : Move} (e : s.step m = some s') : s.Stepped m s' := by
  cases m with
  | construct =>
    simp only [step] at e
    split at e
    case isFalse => cases e
    case isTrue =>
      cases e
      exact .construct
  | startThread =>
    obtain ⟨th, hth, e⟩ := Option.bind_eq_some_iff.1 e
    split at e
    case isTrue => cases e
    case isFalse =>
      cases e
      exact .startThread hth
  | start =>
    simp only [step] at e
    split at e
    case isFalse => cases e
    case isTrue =>
      cases e
      exact .start
  | startLoop =>
    simp only [step] at e
    split at e
    case isFalse => cases e
    case isTrue =>
      obtain ⟨loop, e1, e⟩ := Option.bind_eq_some_iff.1 e
      cases e
      exact .startLoop e1
  | poll active =>
    simp only [step] at e
    split at e
    case isTrue => cases e
    case isFalse =>
      obtain ⟨loop, e1, e⟩ := Option.bind_eq_some_iff.1 e
      cases e
      exact .poll e1
  | next accepted slot =>
    simp only [step] at e
    split at e
    case isTrue => cases e
    case isFalse =>
      obtain ⟨s1, e1, e⟩ := Option.bind_eq_some_iff.1 e
      obtain ⟨loop, e2, e⟩ := Option.bind_eq_some_iff.1 e
      cases e
      exact next_cases e1 (EventLoop.next_cases e2)
  | thread i m =>
    simp only [step] at e
    split at e
    case isTrue => cases e
    case isFalse =>
      obtain ⟨th, hth, e⟩ := Option.bind_eq_some_iff.1 e
      obtain ⟨th', e1, e⟩ := Option.bind_eq_some_iff.1 e
      obtain ⟨s1, e2, e⟩ := Option.bind_eq_some_iff.1 e
      cases e
      exact .thread hth e1 e2
  | handleClose conn => exact .handleClose e
  | wakeup i =>
    obtain ⟨loop, e1, e⟩ := Option.bind_eq_some_iff.1 e
    cases e
    exact .wakeup e1

/-- Creating a connection sets its status, from connecting to connected. -/
lemma handleCreate_spec {task : CreateTask} (e : s.handleCreate task = some s') :
    ∃ node conn, s.connections_.find? (·.slot = task.slot) = some node ∧ s.heap[node.conn]? = some conn ∧
      conn.status_ = .kConnecting ∧
      s' = { s with heap := s.heap.set node.conn { conn with status_ := .kConnected } } := by
  obtain ⟨node, hn, e⟩ := Option.bind_eq_some_iff.1 e
  obtain ⟨conn, hc, e⟩ := Option.bind_eq_some_iff.1 e
  split at e
  case isFalse => cases e
  case isTrue hs =>
    cases e
    exact ⟨node, conn, hn, hc, hs, rfl⟩

/-- What executing a task of an IO thread can do to the server. -/
lemma execute_cases {th : EventLoopThread} {m : EventLoopThread.Move} (e : s.execute th m = some s') :
    (¬ (m = .next ∧ th.loop_.current.isSome = true) ∧ s' = s) ∨
      ∃ task, m = .next ∧ th.loop_.current = some task ∧ s.handleCreate task = some s' := by
  unfold execute at e
  split at e
  case isTrue hm =>
    cases hc : th.loop_.current with
    | none =>
      rw [hc] at e
      cases e
      exact .inl ⟨by simp, rfl⟩
    | some task =>
      rw [hc] at e
      exact .inr ⟨task, hm, rfl, e⟩
  case isFalse hm =>
    cases e
    exact .inl ⟨fun h => hm h.1, rfl⟩

/-! ## The threads -/

/-- What holds of every thread object of a pool and its number. -/
def Threads (P : Nat → EventLoopThread → Prop) (threads : List EventLoopThread) : Prop :=
  ∀ i th, threads[i]? = some th → P i th

/-- A property of all threads, with one thread replaced. -/
lemma Threads.set {P : Nat → EventLoopThread → Prop} {threads : List EventLoopThread} (h : Threads P threads)
    {i : Nat} {th : EventLoopThread} (hp : P i th) : Threads P (threads.set i th) := by
  intro j th' e
  rw [List.getElem?_set] at e
  split at e
  case isTrue hij =>
    split at e
    case isTrue =>
      cases e
      exact hij ▸ hp
    case isFalse => cases e
  case isFalse => exact h j th' e

/-- A property of all threads, with one thread more. -/
lemma Threads.append {P : Nat → EventLoopThread → Prop} {threads : List EventLoopThread} (h : Threads P threads)
    {th : EventLoopThread} (hp : ∀ i, P i th) : Threads P (threads ++ [th]) := by
  intro j th' e
  rw [List.getElem?_append] at e
  split at e
  case isTrue => exact h j th' e
  case isFalse =>
    obtain rfl := List.mem_singleton.1 (List.mem_of_getElem? e)
    exact hp j

/-- Accepting a connection does not touch the threads. -/
lemma newConnection_threads {peer_addr : SocketAddress} {slot : Nat} {task : CreateTask}
    (e : s.newConnection peer_addr slot = some (s', task)) :
    s'.threads_ = s.threads_ ∧ s'.next_thread_idx_ = s.next_thread_idx_ := by
  simp only [newConnection] at e
  split at e
  case isTrue => cases e
  case isFalse =>
    obtain ⟨node, _, e⟩ := Option.bind_eq_some_iff.1 e
    cases e
    exact ⟨rfl, rfl⟩

/-- After an accept the thread object of the chosen loop is that which `runInLoop` leaves. -/
lemma accept_threads {peer_addr : SocketAddress} {slot : Nat} {task : CreateTask} {s1 s2 : ServerThreads}
    {inline : Prop} [Decidable inline] {th : EventLoopThread}
    (e : s.newConnection peer_addr slot = some (s1, task))
    (e' : (if inline then (s1.setNextThread th).handleCreate task else some (s1.setNextThread th)) = some s2) :
    s2.threads_ = s.threads_.set s.next_thread_idx_ th := by
  obtain ⟨ht, hi⟩ := newConnection_threads e
  have set : (s1.setNextThread th).threads_ = s.threads_.set s.next_thread_idx_ th := by
    simp only [setNextThread, ht, hi]
  split at e'
  case isTrue =>
    obtain ⟨node, conn, _, _, _, rfl⟩ := handleCreate_spec e'
    exact set
  case isFalse =>
    cases e'
    exact set

/-- The rule for what holds of every thread object. -/
lemma step_threads {P : Nat → EventLoopThread → Prop} {m : Move} (h : Threads P s.threads_)
    (e : s.step m = some s') (new : ∀ i, P i .new)
    (start : ∀ {i th}, P i th → P i { th with thread_ := true })
    (step : ∀ {i th m th'}, P i th → th.step i m = some th' → P i th')
    (pass : ∀ {th task th'}, s.Accepts m → s.threads_[s.next_thread_idx_]? = some th →
      P s.next_thread_idx_ th → th.runInLoop .main task = some th' → P s.next_thread_idx_ th') :
    Threads P s'.threads_ := by
  cases step_cases e with
  | construct => exact h.append new
  | startThread hth => exact h.set (start (h _ _ hth))
  | start => exact h
  | startLoop => exact h
  | poll => exact h
  | accept hp hl hth hs hr e2 =>
    show Threads P (_ : ServerThreads).threads_
    rw [accept_threads hs e2]
    exact h.set (pass ⟨_, hp⟩ hth (h _ _ hth) hr)
  | erase _ hc hl e1 =>
    obtain ⟨c, _, e1⟩ := Option.bind_eq_some_iff.1 e1
    cases e1
    exact h
  | idle => exact h
  | thread hth e1 e2 =>
    rcases execute_cases e2 with ⟨_, rfl⟩ | ⟨task, _, _, e2⟩
    · exact h.set (step (h _ _ hth) e1)
    · obtain ⟨node, conn, _, _, _, rfl⟩ := handleCreate_spec e2
      exact h.set (step (h _ _ hth) e1)
  | handleClose e1 =>
    obtain ⟨c, _, e1⟩ := Option.bind_eq_some_iff.1 e1
    split at e1
    · cases e1
    · split at e1
      · cases e1
        exact h
      · obtain ⟨loop, _, e1⟩ := Option.bind_eq_some_iff.1 e1
        cases e1
        exact h
  | wakeup => exact h

end ServerThreads

/-! ## Thread confinement -/

namespace EventLoopThread

variable {i : Nat} {th th' : EventLoopThread} {m : Move}

/-- The tasks that the step executes. -/
def executes (th : EventLoopThread) (m : Move) : List CreateTask :=
  if m = .next then th.loop_.current.toList else []

/-- What a step does to the tasks. -/
lemma step_tasks (e : th.step i m = some th') :
    th.loop_.left = th.executes m ++ th'.loop_.left ∧ th'.ran = th.ran ++ (th.executes m).map (·, .io i) ∧
      th'.passed = th.passed := by
  -- the tasks change only where the IO thread goes on
  have keep {loop : EventLoop Unit CreateTask Thread} (hl : loop.left = th.loop_.left) :
      th.loop_.left = [] ++ loop.left ∧ th.ran = th.ran ++ [] ∧ th.passed = th.passed :=
    ⟨hl.symm, (List.append_nil _).symm, rfl⟩
  cases m with
  | startLoop =>
    simp only [EventLoopThread.step] at e
    split at e
    case isFalse => cases e
    case isTrue =>
      obtain ⟨loop, e1, e⟩ := Option.bind_eq_some_iff.1 e
      cases e
      exact keep (EventLoop.step_left e1 (by simp) (by simp)).1
  | poll active =>
    obtain ⟨loop, e1, e⟩ := Option.bind_eq_some_iff.1 e
    cases e
    exact keep (EventLoop.step_left e1 (by simp) (by simp)).1
  | next =>
    obtain ⟨loop, e1, e⟩ := Option.bind_eq_some_iff.1 e
    cases e
    exact ⟨(EventLoop.next_cases e1).left, rfl, rfl⟩
  | wakeup =>
    obtain ⟨loop, e1, e⟩ := Option.bind_eq_some_iff.1 e
    cases e
    exact keep (EventLoop.step_left e1 (by simp) (by simp)).1

/-- Whom the loop of the thread object takes for its thread. -/
def Launched (i : Nat) (th : EventLoopThread) : Prop := th.loop_.Launched .main (.io i)

/-- A new thread is launched. -/
lemma Launched.new : Launched i .new := ⟨fun _ => rfl, fun h => absurd rfl h⟩

/-- The steps of a thread keep it launched. -/
lemma Launched.step (h : Launched i th) (e : th.step i m = some th') : Launched i th' := by
  cases m with
  | startLoop =>
    simp only [EventLoopThread.step] at e
    split at e
    case isFalse => cases e
    case isTrue =>
      obtain ⟨loop, e1, e⟩ := Option.bind_eq_some_iff.1 e
      cases e
      exact EventLoop.Launched.step h e1 (fun t et => by cases et; rfl) nofun
  | poll active =>
    obtain ⟨loop, e1, e⟩ := Option.bind_eq_some_iff.1 e
    cases e
    exact EventLoop.Launched.step h e1 (by simp) (by simp)
  | next =>
    obtain ⟨loop, e1, e⟩ := Option.bind_eq_some_iff.1 e
    cases e
    exact EventLoop.Launched.step h e1 (by simp) (by simp)
  | wakeup =>
    obtain ⟨loop, e1, e⟩ := Option.bind_eq_some_iff.1 e
    cases e
    exact EventLoop.Launched.step h e1 (by simp) (by simp)

/-- Passing a task to a thread keeps it launched. -/
lemma Launched.runInLoop (h : Launched i th) {t : Thread} {task : CreateTask}
    (e : th.runInLoop t task = some th') : Launched i th' := by
  obtain ⟨loop, e1, e⟩ := Option.bind_eq_some_iff.1 e
  cases e
  exact EventLoop.Launched.step h e1 (by simp) (by simp)

/-- Every task that was passed to the loop was executed by the thread of the loop or is queued there. -/
structure Confined (i : Nat) (th : EventLoopThread) : Prop where
  own : ∀ r ∈ th.ran, r.2 = .io i
  passed : th.ran.map Prod.fst ++ th.loop_.left = th.passed

/-- A new thread has run nothing. -/
lemma Confined.new : Confined i .new := ⟨nofun, rfl⟩

/-- A thread runs its callbacks itself. -/
lemma Confined.step (h : Confined i th) (e : th.step i m = some th') : Confined i th' := by
  obtain ⟨left, ran, passed⟩ := step_tasks e
  refine ⟨?_, ?_⟩
  · intro r hr
    rw [ran] at hr
    rcases List.mem_append.1 hr with hr | hr
    · exact h.own r hr
    · obtain ⟨task, _, rfl⟩ := List.mem_map.1 hr
      rfl
  · rw [passed, ← h.passed, ran, left]
    simp [Function.comp_def]

/-- A task that the main thread passes to a running loop is queued. -/
lemma Confined.pass (h : Confined i th) (launched : Launched i th) (running : th.loop_.phase ≠ .stopped)
    {task : CreateTask} (e : th.runInLoop .main task = some th') : Confined i th' := by
  obtain ⟨loop, e1, e⟩ := Option.bind_eq_some_iff.1 e
  cases e
  obtain ⟨left, _⟩ := EventLoop.step_runInLoop e1
  have other : ¬ th.loop_.thread_id_ = .main := by
    rw [(EventLoop.Launched.busy launched running).1]
    nofun
  rw [if_neg other] at left
  rw [if_neg other]
  refine ⟨h.own, ?_⟩
  rw [left, ← List.append_assoc, h.passed]

/-- A task that the main thread passes to a loop that does not run yet is executed by the main thread. -/
lemma Launched.pass_inline (h : Launched i th) (idle : th.loop_.phase = .stopped) {task : CreateTask}
    (e : th.runInLoop .main task = some th') : (task, .main) ∈ th'.ran := by
  obtain ⟨loop, e1, e⟩ := Option.bind_eq_some_iff.1 e
  cases e
  rw [if_pos (EventLoop.Launched.idle h idle)]
  simp

end EventLoopThread

namespace ServerThreads

open EventLoopThread (Launched Confined)

variable {s s' : ServerThreads} {m : Move}

/-- Where the step is an accept, the IO thread of the loop that is next in turn is in `startLoop`. -/
def Started (s : ServerThreads) (m : Move) : Prop :=
  s.Accepts m → ∀ th, s.threads_[s.next_thread_idx_]? = some th → th.loop_.phase ≠ .stopped

/-- Every move keeps all the threads launched. -/
lemma step_launched (h : Threads Launched s.threads_) (e : s.step m = some s') : Threads Launched s'.threads_ :=
  step_threads h e (fun _ => .new) (fun h => h) (fun h e => h.step e) fun _ _ h e => h.runInLoop e

/-- Every move with the threads started keeps all the callbacks confined. -/
lemma step_confined (h : Threads Confined s.threads_) (launched : Threads Launched s.threads_)
    (started : s.Started m) (e : s.step m = some s') : Threads Confined s'.threads_ :=
  step_threads h e (fun _ => .new) (fun h => ⟨h.own, h.passed⟩) (fun h e => h.step e)
    fun accepts hth h e => h.pass (launched _ _ hth) (started accepts _ hth) e

/-- An accept whose loop does not run yet. -/
lemma accept_inline (launched : Threads Launched s.threads_) (early : ¬ s.Started m)
    (e : s.step m = some s') :
    ∃ (i : Nat) (th : EventLoopThread) (task : CreateTask), s'.threads_[i]? = some th ∧
      (task, .main) ∈ th.ran := by
  simp only [Started, not_forall, not_not] at early
  obtain ⟨accepts, th0, hth0, idle⟩ := early
  cases step_cases e with
  | @accept peer_addr slot active loop th th' s1 s2 task hp hl hth hs hr e2 =>
    obtain rfl : th0 = th := Option.some.inj (hth0.symm.trans hth)
    refine ⟨s.next_thread_idx_, th', task, ?_, (launched _ _ hth).pass_inline idle hr⟩
    have set := accept_threads hs e2
    have hi : s.next_thread_idx_ < s.threads_.length := (List.getElem?_eq_some_iff.1 hth).1
    show s2.threads_[s.next_thread_idx_]? = some th'
    rw [set, List.getElem?_set_self hi]
  | erase none_waits => exact absurd accepts none_waits
  | idle none_waits => exact absurd accepts none_waits
  | _ => exact absurd accepts nofun

/-- In every interleaving of the constructor of the pool, the IO threads that enter `startLoop` and the accepts of
    the main loop in which each accept finds the thread of its loop in `startLoop`, every task that was passed to
    an IO loop was executed by the thread of that loop or is queued there, in the order in which they were passed;
    and any other accept that can come next has its task executed by the main thread. -/
theorem callbacks_confined (host_addr : SocketAddress) (num_io_threads : Nat) (ms : List Move)
    (s : ServerThreads) (run : Steps Started step (new host_addr num_io_threads) ms s) :
    (∀ (i : Nat) (th : EventLoopThread), s.threads_[i]? = some th →
      (∀ r ∈ th.ran, r.2 = .io i) ∧ th.ran.map Prod.fst ++ th.loop_.left = th.passed) ∧
    ∀ m s', ¬ s.Started m → s.step m = some s' →
      ∃ (i : Nat) (th : EventLoopThread) (task : CreateTask), s'.threads_[i]? = some th ∧
        (task, .main) ∈ th.ran := by
  have inv : Threads Launched s.threads_ ∧ Threads Confined s.threads_ :=
    @Steps.inv _ _ _ _ (fun s => Threads Launched s.threads_ ∧ Threads Confined s.threads_) _ _ _ run
      (fun h started e => ⟨step_launched h.1 e, step_confined h.2 h.1 started e⟩) ⟨nofun, nofun⟩
  refine ⟨fun i th hth => ?_, fun m s' early e => accept_inline inv.1 early e⟩
  have confined := inv.2 i th hth
  exact ⟨confined.own, confined.passed⟩

def localhost : SocketAddress := .new 45678 false false

/-- The pool of one IO thread is made, and the main loop waits for peers. -/
def mainWaits : List Move := [.construct, .startThread, .start, .startLoop, .next none 0]

/-- The IO thread enters `startLoop` before the first peer is there. -/
def threadFirst : List Move := mainWaits ++ [.thread 0 .startLoop, .poll [.other ()]]

/-- It executes the task that the main thread has queued. -/
def threadRuns : List Move :=
  [.thread 0 .wakeup, .thread 0 .next, .thread 0 (.poll [.wakeup]), .thread 0 .next, .thread 0 .next,
    .thread 0 .next]

/-- A thread that starts before the connection is accepted. -/
theorem callbacks_confined_thread_first :
    ∃ s th, Steps Started step (new localhost 1)
        (threadFirst ++ .next (some (.addr_ 10 0 0 1 50000)) 0 :: threadRuns) s ∧
      s.threads_[0]? = some th ∧ th.ran.map Prod.fst = [⟨0, 0⟩] ∧ ∀ r ∈ th.ran, r.2 = .io 0 := by
  have ends : ((threadFirst.foldlM step (new localhost 1)).bind fun s =>
      (Move.next (some (.addr_ 10 0 0 1 50000)) 0 :: threadRuns).foldlM step s).map
        (fun s => s.threads_.map fun th => th.ran.map Prod.fst) = some [[⟨0, 0⟩]] := by decide +kernel
  have running : (threadFirst.foldlM step (new localhost 1)).map
      (fun s => s.threads_.all fun th => th.loop_.phase ≠ .stopped) = some true := by decide +kernel
  obtain ⟨s, run, hran⟩ := Option.map_eq_some_iff.1 ends
  obtain ⟨s1, run1, run2⟩ := Option.bind_eq_some_iff.1 run
  rw [List.foldlM_cons] at run2
  obtain ⟨s2, e2, run3⟩ := Option.bind_eq_some_iff.1 run2
  rw [run1, Option.map_some, Option.some.injEq, List.all_eq_true] at running
  have started : s1.Started (.next (some (.addr_ 10 0 0 1 50000)) 0) := fun _ th hth =>
    of_decide_eq_true (running th (List.mem_of_getElem? hth))
  have steps : Steps Started step (new localhost 1)
      (threadFirst ++ .next (some (.addr_ 10 0 0 1 50000)) 0 :: threadRuns) s := by
    refine .append (.of_foldlM ?_ run1) (.cons started e2 (.of_foldlM ?_ run3))
    · simp [threadFirst, mainWaits, Started, Accepts]
    · simp [threadRuns, Started, Accepts]
  obtain ⟨th, hths, hth⟩ := List.map_eq_singleton_iff.1 hran
  have own : s.threads_[0]? = some th := by
    rw [hths]
    rfl
  exact ⟨s, th, steps, own, hth, ((callbacks_confined _ _ _ _ steps).1 0 th own).1⟩

/-- The first peer is accepted before the IO thread enters `startLoop`. -/
def acceptFirst : List Move :=
  mainWaits ++ [.poll [.other ()], .next (some (.addr_ 10 0 0 1 50000)) 0]

/-- The main thread creates the connection itself. -/
theorem create_task_inline :
    ∃ s th, acceptFirst.foldlM step (new localhost 1) = some s ∧ s.threads_[0]? = some th ∧
      th.passed = [⟨0, 0⟩] ∧ th.ran = [(⟨0, 0⟩, .main)] := by
  have ends : ((acceptFirst.foldlM step (new localhost 1)).bind fun s => s.threads_[0]?).map
      (fun th => (th.passed, th.ran)) = some ([⟨0, 0⟩], [(⟨0, 0⟩, .main)]) := by decide +kernel
  obtain ⟨th, run, es⟩ := Option.map_eq_some_iff.1 ends
  obtain ⟨s, run, hth⟩ := Option.bind_eq_some_iff.1 run
  simp only [Prod.mk.injEq] at es
  exact ⟨s, th, run, hth, es⟩

end ServerThreads

end WebServer.Net
