import WebServer.Net.ServerThreads
import Mathlib.Data.Int.CardIntervalMod

/-!
# The turns of the IO threads

`EventLoopThreadPool::getNextThread` over all interleavings of a server. Peers are accepted only once the pool is
complete, because the main loop is started after the server listens. From then on the IO threads take turns: the
connection `c` is on the thread `c % num_threads_`, and the create tasks that were passed to a thread are those of its
connections, in order (`InTurn`). So no thread gets more than one connection more than another
(`connections_in_turn`), whichever of them are closed in the meantime.
-/

namespace WebServer.Net

open Lib

/-- A loop that is not running stays so until `startLoop`. -/
lemma EventLoop.step_stopped {F T Θ : Type} [DecidableEq F] [DecidableEq Θ] {s s' : EventLoop F T Θ}
    {m : EventLoop.Move F T Θ} (e : s.step m = some s') (starts : ∀ t, m ≠ .startLoop t)
    (h : s.phase = .stopped) : s'.phase = .stopped := by
  cases step_cases e with
  | startLoop => exact absurd rfl (starts _)
  | endLoop => exact h
  | inline => exact h
  | push => exact h
  | wakeup => exact h
  | poll polling =>
    rw [h] at polling
    cases polling
  | next next => exact absurd h next.running

/-- A task that is passed to a loop is recorded, whoever executes it. -/
lemma EventLoopThread.runInLoop_passed {th th' : EventLoopThread} {t : Thread} {task : CreateTask}
    (e : th.runInLoop t task = some th') : th'.passed = th.passed ++ [task] := by
  obtain ⟨loop, _, e⟩ := Option.bind_eq_some_iff.1 e
  cases e
  rfl

namespace ServerThreads

/-! ## Turns -/

/-- The numbers below `total` for which it is the turn of thread `i`. -/
def turns (num_threads total i : Nat) : List Nat := (List.range total).filter (· % num_threads = i)

variable {n total i : Nat}

/-- The next connection goes to the thread whose turn it is. -/
lemma turns_self : turns n (total + 1) (total % n) = turns n total (total % n) ++ [total] := by
  simp [turns, List.range_succ]

/-- The next connection goes to no other thread. -/
lemma turns_other (h : i ≠ total % n) : turns n (total + 1) i = turns n total i := by
  simp [turns, List.range_succ, h.symm]

/-- Every thread gets as many connections as the others, or one more. -/
lemma length_turns (h : i < n) : (turns n total i).length = total / n + if i < total % n then 1 else 0 := by
  have counted : (turns n total i).length = total.count (· ≡ i [MOD n]) := by
    induction total with
    | zero => rfl
    | succ total ih =>
      rw [Nat.count_succ, ← ih]
      by_cases own : i = total % n
      · rw [own, turns_self, if_pos (Nat.mod_modEq total n).symm, List.length_append, List.length_singleton]
      · have other : ¬ total ≡ i [MOD n] := fun e => own (Nat.mod_eq_of_lt h ▸ e.symm)
        rw [turns_other own, if_neg other, Nat.add_zero]
  rw [counted, Nat.count_modEq_card total (Nat.zero_lt_of_lt h), Nat.mod_eq_of_lt h]

/-! ## The invariant -/

structure InTurn (n : Nat) (s : ServerThreads) : Prop where
  threads : s.num_threads_ = n
  pool : s.listening = true → s.threads_.length = n
  idle : s.listening = false → s.loop_.phase = .stopped ∧ s.heap = []
  next : s.next_thread_idx_ = s.heap.length % n
  loops : ∀ c conn, s.heap[c]? = some conn → conn.io_loop_ = c % n
  passed : Threads (fun i th => th.passed.map CreateTask.conn = turns n s.heap.length i) s.threads_

variable {s s' : ServerThreads} {m : Move}

/-- The task for a new connection carries its number, which is the next one. -/
lemma newConnection_task {peer_addr : SocketAddress} {slot : Nat} {task : CreateTask}
    (e : s.newConnection peer_addr slot = some (s', task)) :
    task.conn = s.heap.length ∧ ∃ name connections next_conn_id,
      s' = { s with
        heap := s.heap ++ [⟨s.next_thread_idx_, name, .kConnecting⟩]
        connections_ := connections
        next_conn_id_ := next_conn_id } := by
  simp only [newConnection] at e
  split at e
  case isTrue => cases e
  case isFalse =>
    obtain ⟨node, _, e⟩ := Option.bind_eq_some_iff.1 e
    cases e
    exact ⟨rfl, _, _, _, rfl⟩

namespace InTurn

/-- Before the first connection it is the turn of the first thread. -/
lemma new {host_addr : SocketAddress} {num_io_threads : Nat} :
    (ServerThreads.new host_addr num_io_threads).InTurn num_io_threads where
  threads := rfl
  pool := nofun
  idle _ := ⟨rfl, rfl⟩
  next := (Nat.zero_mod _).symm
  loops := nofun
  passed := nofun

/-- The main loop runs only if the server listens. -/
lemma listening (h : s.InTurn n) (running : s.loop_.phase ≠ .stopped) : s.listening = true := by
  by_contra off
  exact running (h.idle (by simpa using off)).1

/-- A loop that was not started is not started by the step. -/
lemma main_loop (h : s.InTurn n) {loop : EventLoop Unit Nat Thread}
    (stays : s.loop_.phase = .stopped → loop.phase = .stopped) : InTurn n { s with loop_ := loop } :=
  { h with idle := fun off => ⟨stays (h.idle off).1, (h.idle off).2⟩ }

/-- The loop of a listening server goes on. -/
lemma main_runs (h : s.InTurn n) {loop : EventLoop Unit Nat Thread} (on : s.listening = true) :
    InTurn n { s with loop_ := loop } :=
  { h with idle := fun off => Bool.noConfusion (on.symm.trans off) }

/-- A change of status keeps the turns. -/
lemma setStatus (h : s.InTurn n) {c : Nat} {conn : Connection} {status : Status} (hc : s.heap[c]? = some conn) :
    InTurn n { s with heap := s.heap.set c { conn with status_ := status } } where
  threads := h.threads
  pool := h.pool
  idle off := by
    rw [(h.idle off).2] at hc
    cases hc
  next := by
    rw [List.length_set]
    exact h.next
  loops d conn' e := by
    rw [List.getElem?_set] at e
    split at e
    case isTrue same =>
      split at e
      case isTrue =>
        cases e
        exact h.loops d conn (same ▸ hc)
      case isFalse => cases e
    case isFalse => exact h.loops d conn' e
  passed := by
    rw [List.length_set]
    exact h.passed

/-- A thread that passes nothing on keeps the turns. -/
lemma setThread (h : s.InTurn n) {i : Nat} {th th' : EventLoopThread} (hth : s.threads_[i]? = some th)
    (same : th'.passed = th.passed) : InTurn n { s with threads_ := s.threads_.set i th' } where
  threads := h.threads
  pool on := by
    rw [List.length_set]
    exact h.pool on
  idle := h.idle
  next := h.next
  loops := h.loops
  passed := h.passed.set (by
    rw [same]
    exact h.passed i th hth)

/-- The connection goes to the thread whose turn it is, with its task. -/
lemma accept (h : s.InTurn n) (on : s.listening = true) {peer_addr : SocketAddress} {slot : Nat} {task : CreateTask}
    {th th' : EventLoopThread} {s1 : ServerThreads} (hth : s.threads_[s.next_thread_idx_]? = some th)
    (hs : s.newConnection peer_addr slot = some (s1, task)) (hr : th.runInLoop .main task = some th') :
    (s1.setNextThread th').InTurn n ∧ (s1.setNextThread th').listening = true := by
  obtain ⟨number, name, connections, next_conn_id, rfl⟩ := newConnection_task hs
  have full := h.pool on
  have running : ¬ s.listening = false := by simp [on]
  refine ⟨⟨h.threads, fun _ => ?_, fun off => absurd off running, ?_, fun c conn e => ?_, fun i thi e => ?_⟩, on⟩
  · simp only [setNextThread, List.length_set]
    exact full
  · simp only [setNextThread, full, h.next, List.length_append, List.length_singleton, Nat.mod_add_mod]
  · simp only [setNextThread] at e ⊢
    rw [List.getElem?_append] at e
    split at e
    case isTrue => exact h.loops c conn e
    case isFalse old =>
      -- the new connection
      obtain ⟨here, _⟩ := List.getElem?_eq_some_iff.1 e
      have last : c = s.heap.length := by
        rw [List.length_singleton] at here
        omega
      obtain rfl := List.mem_singleton.1 (List.mem_of_getElem? e)
      rw [last]
      exact h.next
  · simp only [setNextThread, List.length_append, List.length_singleton] at e ⊢
    rw [List.getElem?_set] at e
    split at e
    case isTrue own =>
      split at e
      case isTrue =>
        cases e
        rw [← own, EventLoopThread.runInLoop_passed hr, List.map_append, h.passed _ th hth, List.map_singleton, number,
          h.next, turns_self]
      case isFalse => cases e
    case isFalse other =>
      rw [h.next] at other
      rw [turns_other (Ne.symm other)]
      exact h.passed i thi e

/-- The constructor of the pool makes a thread object before there is any connection. -/
lemma construct (h : s.InTurn n) (e : s.step .construct = some s') : s'.InTurn n := by
  simp only [ServerThreads.step] at e
  split at e
  case isFalse => cases e
  case isTrue room =>
    cases e
    have off : s.listening = false := by
      by_contra on
      have full := h.pool (by simpa using on)
      rw [h.threads] at room
      omega
    refine { h with pool := fun on => Bool.noConfusion (on.symm.trans off), passed := h.passed.append fun i => ?_ }
    rw [(h.idle off).2]
    rfl

/-- Starting the server keeps the turns. -/
lemma start (h : s.InTurn n) (e : s.step .start = some s') : s'.InTurn n := by
  simp only [ServerThreads.step] at e
  split at e
  case isFalse => cases e
  case isTrue full =>
    cases e
    exact { h with pool := fun _ => full.1.trans h.threads, idle := fun off => Bool.noConfusion off }

/-- Starting the main loop keeps the turns. -/
lemma startLoop (h : s.InTurn n) (e : s.step .startLoop = some s') : s'.InTurn n := by
  simp only [ServerThreads.step] at e
  split at e
  case isFalse => cases e
  case isTrue on =>
    obtain ⟨loop, _, e⟩ := Option.bind_eq_some_iff.1 e
    cases e
    exact h.main_runs on

/-- Closing a connection keeps the turns. -/
lemma handleClose (h : s.InTurn n) {c : Nat} (e : s.handleClose c = some s') : s'.InTurn n := by
  obtain ⟨conn, hc, e⟩ := Option.bind_eq_some_iff.1 e
  split at e
  case isTrue => cases e
  case isFalse =>
    split at e
    case isTrue =>
      cases e
      exact h
    case isFalse =>
      obtain ⟨loop, e1, e⟩ := Option.bind_eq_some_iff.1 e
      cases e
      exact (h.main_loop (EventLoop.step_stopped e1 (by simp))).setStatus hc

/-- Every move keeps the turns. -/
lemma step (h : s.InTurn n) (e : s.step m = some s') : s'.InTurn n := by
  cases step_cases e with
  | construct => exact h.construct e
  | startThread hth => exact h.setThread hth rfl
  | start => exact h.start e
  | startLoop => exact h.startLoop e
  | poll e1 => exact h.main_loop (EventLoop.step_stopped e1 (by simp))
  | accept phase _ hth hs hr e2 =>
    have on : s.listening = true := by
      refine h.listening fun stopped => ?_
      rw [phase] at stopped
      cases stopped
    obtain ⟨accepted, on'⟩ := h.accept on hth hs hr
    split at e2
    case isTrue =>
      obtain ⟨node, conn, _, hc, _, rfl⟩ := handleCreate_spec e2
      exact (accepted.setStatus hc).main_runs on'
    case isFalse =>
      cases e2
      exact accepted.main_runs on'
  | erase _ _ next e1 =>
    obtain ⟨c, _, e1⟩ := Option.bind_eq_some_iff.1 e1
    cases e1
    have erased : InTurn n { s with connections_ := s.connections_.filter (·.key ≠ c.name_) } :=
      ⟨h.threads, h.pool, h.idle, h.next, h.loops, h.passed⟩
    exact erased.main_runs (h.listening next.running)
  | idle _ _ next => exact h.main_runs (h.listening next.running)
  | thread hth e1 e2 =>
    have same := (EventLoopThread.step_tasks e1).2.2
    rcases execute_cases e2 with ⟨_, rfl⟩ | ⟨task, _, _, e2⟩
    · exact h.setThread hth same
    · obtain ⟨node, conn, _, hc, _, rfl⟩ := handleCreate_spec e2
      exact (h.setStatus hc).setThread hth same
  | handleClose e1 => exact h.handleClose e1
  | wakeup e1 => exact h.main_loop (EventLoop.step_stopped e1 (by simp))

/-- How many connections a thread was given. -/
lemma length_passed (h : s.InTurn n) {th : EventLoopThread} (hth : s.threads_[i]? = some th) :
    th.passed.length = s.heap.length / n + if i < s.heap.length % n then 1 else 0 := by
  rw [← List.length_map, h.passed i th hth]
  cases on : s.listening with
  | false =>
    rw [(h.idle on).2]
    simp [turns]
  | true =>
    have bound := (List.getElem?_eq_some_iff.1 hth).1
    rw [h.pool on] at bound
    exact length_turns bound

end InTurn

/-- In every interleaving of the main thread and the IO threads: the `c`-th connection that was accepted is on the IO
    thread `c % num_io_threads`, the create tasks that were passed to a thread are those of its connections in the
    order of their numbers, each once, and of two threads none was given two connections more than the other. -/
theorem connections_in_turn (host_addr : SocketAddress) (num_io_threads : Nat) (ms : List Move) (s : ServerThreads)
    (run : ms.foldlM step (new host_addr num_io_threads) = some s) :
    (∀ (c : Nat) (conn : Connection), s.heap[c]? = some conn → conn.io_loop_ = c % num_io_threads) ∧
    (∀ (i : Nat) (th : EventLoopThread), s.threads_[i]? = some th →
      th.passed.map CreateTask.conn = (List.range s.heap.length).filter (· % num_io_threads = i)) ∧
    ∀ (i j : Nat) (th th' : EventLoopThread), s.threads_[i]? = some th → s.threads_[j]? = some th' →
      th.passed.length ≤ th'.passed.length + 1 := by
  have steps : Steps (fun _ _ => True) step (new host_addr num_io_threads) ms s :=
    .of_foldlM (fun _ _ _ => trivial) run
  have h : s.InTurn num_io_threads := steps.inv (fun h _ e => h.step e) .new
  refine ⟨h.loops, h.passed, fun i j th th' hi hj => ?_⟩
  rw [h.length_passed hi, h.length_passed hj]
  split_ifs <;> omega

/-- The main loop polls again, and finds that a peer has come. -/
def nextPeer (host : UInt8) (slot : Nat) : List Move :=
  [.next none 0, .next none 0, .next none 0, .poll [.other ()], .next (some (.addr_ 10 0 0 host 50000)) slot]

/-- A server with two IO threads, of which one is running, accepts three peers, one in each poll. -/
def threePeers : List Move :=
  [.construct, .startThread, .construct, .startThread, .start, .startLoop, .next none 0, .thread 0 .startLoop,
    .poll [.other ()], .next (some (.addr_ 10 0 0 1 50000)) 0, .thread 0 .wakeup] ++ nextPeer 2 1 ++ nextPeer 3 2

/-- Of three connections the first thread of two gets the first and the last. -/
theorem connections_in_turn_three_peers :
    ∃ s th, threePeers.foldlM step (new localhost 2) = some s ∧ s.threads_[0]? = some th ∧
      th.passed.map CreateTask.conn = [0, 2] := by
  have ends : ((threePeers.foldlM step (new localhost 2)).bind fun s =>
      s.threads_[0]?.map fun _ => s.heap.length) = some 3 := by decide +kernel
  obtain ⟨s, run, ends⟩ := Option.bind_eq_some_iff.1 ends
  obtain ⟨th, hth, three⟩ := Option.map_eq_some_iff.1 ends
  have passed := (connections_in_turn _ _ _ _ run).2.1 0 th hth
  rw [three] at passed
  exact ⟨s, th, run, hth, passed⟩

end ServerThreads

end WebServer.Net
