import WebServer.Net.ServerThreads

/-!
# The registry of connections

`connections_` of a server over all interleavings of its loops. The name of a connection ends with its number,
so that an accept never finds its name in the map. A create task refers to the node of its connection, and that
node stays until the erase task of the connection: the connection is closed only after its create task has run.

`Registered` is the invariant. Its lemmas follow the parts of a step: a main loop that keeps its tasks
(`main_loop`), an IO loop that loses some of them (`io_thread`), and what `newConnection`, `handleCreate`,
`handleClose` and the erase task do to the heap and the map.
-/

namespace WebServer.Net

open Lib

namespace ServerThreads

/-! ## The heap -/

def nameOf (s : ServerThreads) (c : Nat) : Option Bytes := (s.heap[c]?).map Connection.name_

def loopOf (s : ServerThreads) (c : Nat) : Option Nat := (s.heap[c]?).map Connection.io_loop_

def statusOf (s : ServerThreads) (c : Nat) : Option Status := (s.heap[c]?).map Connection.status_

/-- `status_ = status` in a connection. -/
def setStatus (s : ServerThreads) (c : Nat) (status : Status) : ServerThreads :=
  { s with heap := s.heap.modify c fun conn => { conn with status_ := status } }

variable {s s' : ServerThreads} {c d : Nat} {status : Status}

/-- Setting the status of a connection on the heap. -/
lemma setStatus_of {conn : Connection} (h : s.heap[c]? = some conn) :
    { s with heap := s.heap.set c { conn with status_ := status } } = s.setStatus c status := by
  obtain ⟨hc, rfl⟩ := List.getElem?_eq_some_iff.1 h
  simp only [setStatus, List.modify_eq_set_get _ hc, List.get_eq_getElem]

@[simp] lemma setStatus_length : (s.setStatus c status).heap.length = s.heap.length :=
  List.length_modify ..

@[simp] lemma nameOf_setStatus : (s.setStatus c status).nameOf d = s.nameOf d := by
  simp only [nameOf, setStatus, List.getElem?_modify]
  cases s.heap[d]? with
  | none => rfl
  | some conn => by_cases h : c = d <;> simp [h]

@[simp] lemma loopOf_setStatus : (s.setStatus c status).loopOf d = s.loopOf d := by
  simp only [loopOf, setStatus, List.getElem?_modify]
  cases s.heap[d]? with
  | none => rfl
  | some conn => by_cases h : c = d <;> simp [h]

/-- Setting a status leaves the other connections as they are. -/
lemma statusOf_setStatus (h : d ≠ c) : (s.setStatus c status).statusOf d = s.statusOf d := by
  simp [statusOf, setStatus, h.symm]

/-- The status is the one set. -/
lemma statusOf_setStatus_self (h : c < s.heap.length) :
    (s.setStatus c status).statusOf c = some status := by
  simp [statusOf, setStatus, h]

/-- A connection with a status is on the heap. -/
lemma lt_of_statusOf (h : s.statusOf c = some status) : c < s.heap.length := by
  obtain ⟨conn, hc, _⟩ := Option.map_eq_some_iff.1 h
  exact (List.getElem?_eq_some_iff.1 hc).1

/-- A connection with a name is on the heap. -/
lemma lt_of_nameOf {name : Bytes} (h : s.nameOf c = some name) : c < s.heap.length := by
  obtain ⟨conn, hc, _⟩ := Option.map_eq_some_iff.1 h
  exact (List.getElem?_eq_some_iff.1 hc).1

/-! ## The invariant -/

/-- The map has a node for the connection of the task at its slot, and the connection was not created yet. -/
def Awaited (s : ServerThreads) (i : Nat) (task : CreateTask) : Prop :=
  (∃ node ∈ s.connections_, node.slot = task.slot ∧ node.conn = task.conn) ∧
    s.statusOf task.conn = some .kConnecting ∧ s.loopOf task.conn = some i

structure Registered (host_addr : SocketAddress) (s : ServerThreads) : Prop where
  main : s.loop_.thread_id_ = .main
  host : s.name_ = host_addr.toIPPort
  count : s.heap.length = s.next_conn_id_
  bound : s.next_conn_id_ < 2 ^ 31
  names : ∀ c name, s.nameOf c = some name → ∃ peer_addr, name = connectionName peer_addr s.name_ c
  keys : ∀ node ∈ s.connections_, s.nameOf node.conn = some node.key
  slots : (s.connections_.map Node.slot).Nodup
  conns : (s.connections_.map Node.conn).Nodup
  held : ∀ c, c ∈ s.connections_.map Node.conn ↔ c < s.heap.length ∧ c ∉ s.loop_.executed
  /-- The create tasks that are queued. -/
  creates : Threads (fun i th => ∀ task ∈ th.loop_.left, s.Awaited i task) s.threads_
  once : Threads (fun _ th => (th.loop_.left.map CreateTask.conn).Nodup) s.threads_
  /-- The erase tasks, of which each connection has at most one. -/
  closed : ∀ c ∈ s.loop_.executed ++ s.loop_.left, s.statusOf c = some .kDisconnected
  erases : (s.loop_.executed ++ s.loop_.left).Nodup

namespace Registered

variable {host_addr : SocketAddress}

/-- A new server has registered nothing. -/
lemma new {num_io_threads : Nat} : Registered host_addr (ServerThreads.new host_addr num_io_threads) where
  main := rfl
  host := rfl
  count := rfl
  bound := Nat.two_pow_pos 31
  names := nofun
  keys := nofun
  slots := .nil
  conns := .nil
  held := by simp [ServerThreads.new, EventLoop.new]
  creates := nofun
  once := nofun
  closed := nofun
  erases := .nil

/-- The names tell the connections apart. -/
lemma name_inj (h : Registered host_addr s) {name : Bytes} (hc : s.nameOf c = some name)
    (hd : s.nameOf d = some name) : c = d := by
  obtain ⟨p, rfl⟩ := h.names c name hc
  obtain ⟨q, e⟩ := h.names d _ hd
  have lt {b : Nat} {n : Bytes} (hb : s.nameOf b = some n) : b < 2 ^ 31 :=
    Nat.lt_trans (h.count ▸ lt_of_nameOf hb) h.bound
  rw [h.host] at e
  exact connectionName_inj (lt hc) (lt hd) e

/-- The name that the next connection gets is not in the map. -/
lemma name_new (h : Registered host_addr s) (peer_addr : SocketAddress) {node : Node}
    (hn : node ∈ s.connections_) : node.key ≠ connectionName peer_addr s.name_ s.next_conn_id_ := by
  intro e
  have hk := h.keys node hn
  obtain ⟨q, e'⟩ := h.names _ _ hk
  have lt : node.conn < s.next_conn_id_ := h.count ▸ lt_of_nameOf hk
  rw [e', h.host] at e
  exact Nat.ne_of_lt lt (connectionName_inj (Nat.lt_trans lt h.bound) h.bound e)

/-- A task finds the connection for which it was made. -/
lemma find_slot (h : Registered host_addr s) {i : Nat} {task : CreateTask} (ha : s.Awaited i task) :
    ∃ node, s.connections_.find? (·.slot = task.slot) = some node ∧ node.conn = task.conn := by
  obtain ⟨⟨node, hn, hs, hc⟩, _⟩ := ha
  cases hf : s.connections_.find? (·.slot = task.slot) with
  | none =>
    have := List.find?_eq_none.1 hf node hn
    simp [hs] at this
  | some node' =>
    have hs' : node'.slot = task.slot := by simpa using List.find?_some hf
    obtain rfl := List.inj_on_of_nodup_map h.slots hn (List.mem_of_find?_eq_some hf) (hs.trans hs'.symm)
    exact ⟨node, rfl, hc⟩

/-- The main loop goes on without its tasks. -/
lemma main_loop (h : Registered host_addr s) {loop : EventLoop Unit Nat Thread}
    (ht : loop.thread_id_ = .main) (hl : loop.left = s.loop_.left)
    (hx : loop.executed = s.loop_.executed) : Registered host_addr { s with loop_ := loop } := by
  refine { h with main := ht, held := ?_, closed := ?_, erases := ?_ }
  · rw [hx]
    exact h.held
  · rw [hl, hx]
    exact h.closed
  · rw [hl, hx]
    exact h.erases

/-- An IO loop has no new tasks. -/
lemma io_thread (h : Registered host_addr s) {i : Nat} {th th' : EventLoopThread}
    (hth : s.threads_[i]? = some th) (hl : th'.loop_.left.Sublist th.loop_.left) :
    Registered host_addr { s with threads_ := s.threads_.set i th' } :=
  { h with
    creates := h.creates.set fun task ht => h.creates i th hth task (hl.subset ht)
    once := h.once.set ((h.once i th hth).sublist (hl.map _)) }

/-- No create task is queued for the connection. -/
def Unawaited (s : ServerThreads) (c : Nat) : Prop :=
  Threads (fun _ th => ∀ task ∈ th.loop_.left, task.conn ≠ c) s.threads_

/-- A connection for which no task of any kind is queued gets another status. -/
lemma setStatus (h : Registered host_addr s) (hc : Unawaited s c)
    (hx : c ∉ s.loop_.executed ++ s.loop_.left) : Registered host_addr (s.setStatus c status) where
  main := h.main
  host := h.host
  count := setStatus_length.trans h.count
  bound := h.bound
  names d name hd := h.names d name (nameOf_setStatus ▸ hd)
  keys node hn := nameOf_setStatus.trans (h.keys node hn)
  slots := h.slots
  conns := h.conns
  held d := by
    rw [setStatus_length]
    exact h.held d
  creates i th hth task ht := by
    obtain ⟨hn, hs, hl⟩ := h.creates i th hth task ht
    exact ⟨hn, (statusOf_setStatus (hc i th hth task ht)).trans hs, loopOf_setStatus.trans hl⟩
  once := h.once
  closed d hd := (statusOf_setStatus (ne_of_mem_of_not_mem hd hx)).trans (h.closed d hd)
  erases := h.erases

/-- A task is queued only for a connection that was not created. -/
lemma unawaited (h : Registered host_addr s) (hs : s.statusOf c ≠ some .kConnecting) : Unawaited s c := by
  rintro i th hth task ht rfl
  exact hs (h.creates i th hth task ht).2.1

/-- Erase tasks are for connections that were closed. -/
lemma notMem_erases (h : Registered host_addr s) (hs : s.statusOf c ≠ some .kDisconnected) :
    c ∉ s.loop_.executed ++ s.loop_.left := fun hc => hs (h.closed c hc)

/-- `handleCreate` of a task that is no longer queued. -/
lemma handleCreate (h : Registered host_addr s) {i : Nat} {task : CreateTask} (ha : s.Awaited i task)
    (hc : Unawaited s task.conn) (e : s.handleCreate task = some s') : Registered host_addr s' := by
  obtain ⟨node, conn, hf, hn, _, rfl⟩ := handleCreate_spec e
  obtain ⟨node', hf', rc⟩ := h.find_slot ha
  obtain rfl : node = node' := Option.some.inj (hf.symm.trans hf')
  rw [setStatus_of hn, rc]
  refine h.setStatus hc (h.notMem_erases ?_)
  rw [ha.2.1]
  nofun

/-- Closing a connection keeps the registry in step. -/
lemma handleClose (h : Registered host_addr s) (e : s.handleClose c = some s') : Registered host_addr s' := by
  obtain ⟨conn, hc, e⟩ := Option.bind_eq_some_iff.1 e
  split at e
  case isTrue => cases e
  case isFalse created =>
    split at e
    case isTrue =>
      cases e
      exact h
    case isFalse closed =>
      obtain ⟨loop, e1, e⟩ := Option.bind_eq_some_iff.1 e
      cases e
      obtain ⟨left, executed, _, _, thread⟩ := EventLoop.step_runInLoop e1
      rw [if_neg (by rw [h.main]; nofun)] at left
      have status : s.statusOf c = some conn.status_ := by simp [statusOf, hc]
      have new : c ∉ s.loop_.executed ++ s.loop_.left := h.notMem_erases (by simp [status, closed])
      have h1 : Registered host_addr (s.setStatus c .kDisconnected) :=
        h.setStatus (h.unawaited (by simp [status, created])) new
      have hs := @statusOf_setStatus_self s c .kDisconnected (lt_of_statusOf status)
      rw [← setStatus_of hc] at h1 hs
      refine { h1 with main := thread.trans h.main, held := ?_, closed := ?_, erases := ?_ }
      · rw [executed]
        exact h1.held
      · rw [left, executed, ← List.append_assoc]
        intro d hd
        rcases List.mem_append.1 hd with hd | hd
        · exact h1.closed d hd
        · obtain rfl := List.mem_singleton.1 hd
          exact hs
      · rw [left, executed, ← List.append_assoc, ← List.concat_eq_append]
        exact .concat new h.erases

/-- The erase task of a connection removes its node and no other. -/
lemma erase_exact (h : Registered host_addr s) (e : s.eraseConnection c = some s') :
    s'.connections_.Sublist s.connections_ ∧
      ∀ node, node ∈ s'.connections_ ↔ node ∈ s.connections_ ∧ node.conn ≠ c := by
  obtain ⟨conn, hc, e⟩ := Option.bind_eq_some_iff.1 e
  cases e
  refine ⟨List.filter_sublist, fun node => ?_⟩
  rw [List.mem_filter, decide_eq_true_eq]
  refine and_congr_right fun hn => not_congr ⟨fun hk => ?_, fun hk => ?_⟩
  · have name : s.nameOf c = some node.key := by simp [nameOf, hc, hk]
    exact h.name_inj (h.keys node hn) name
  · have name := h.keys node hn
    rw [hk] at name
    simpa [nameOf, hc, eq_comm] using name

/-- Erasing a closed connection keeps the registry in step. -/
lemma erase (h : Registered host_addr s) {loop : EventLoop Unit Nat Thread} (hc : s.loop_.current = some c)
    (hl : s.loop_.Next loop) (ht : loop.thread_id_ = .main) (e : s.eraseConnection c = some s') :
    Registered host_addr { s' with loop_ := loop } := by
  have left : s.loop_.left = c :: loop.left := by
    rw [hl.left, hc]
    rfl
  have executed : loop.executed = s.loop_.executed ++ [c] := by
    rw [hl.executed, hc]
    rfl
  -- the erase tasks are the same ones in the same order
  have tasks : loop.executed ++ loop.left = s.loop_.executed ++ s.loop_.left := by
    rw [executed, left, List.append_assoc]
    rfl
  obtain ⟨sub, mem⟩ := h.erase_exact e
  obtain ⟨conn, _, e⟩ := Option.bind_eq_some_iff.1 e
  cases e
  have status : s.statusOf c = some .kDisconnected := h.closed c (by simp [left])
  refine { h with
    main := ht, keys := ?_, slots := ?_, conns := ?_, held := ?_, creates := ?_, closed := ?_, erases := ?_ }
  · exact fun node hn => h.keys node ((mem node).1 hn).1
  · exact h.slots.sublist (sub.map _)
  · exact h.conns.sublist (sub.map _)
  · intro d
    have kept : d ∈ (s.connections_.filter (·.key ≠ conn.name_)).map Node.conn
        ↔ d ∈ s.connections_.map Node.conn ∧ d ≠ c := by
      simp only [List.mem_map, mem]
      constructor
      · rintro ⟨node, ⟨hn, hne⟩, rfl⟩
        exact ⟨⟨node, hn, rfl⟩, hne⟩
      · rintro ⟨⟨node, hn, rfl⟩, hne⟩
        exact ⟨node, ⟨hn, hne⟩, rfl⟩
    show d ∈ (s.connections_.filter (·.key ≠ conn.name_)).map Node.conn ↔ _
    rw [kept, h.held, executed, List.mem_append, List.mem_singleton, not_or, and_assoc]
  · intro i th hth task ht
    obtain ⟨⟨node, hn, hs, rc⟩, connecting, hi⟩ := h.creates i th hth task ht
    refine ⟨⟨node, (mem node).2 ⟨hn, ?_⟩, hs, rc⟩, connecting, hi⟩
    rintro rfl
    rw [rc, connecting] at status
    cases status
  · rw [tasks]
    exact h.closed
  · rw [tasks]
    exact h.erases

/-- A new connection gets a node of its own, to which its task refers. -/
lemma newConnection_spec (h : Registered host_addr s) {peer_addr : SocketAddress} {slot : Nat}
    {task : CreateTask} (e : s.newConnection peer_addr slot = some (s', task)) :
    slot ∉ s.connections_.map Node.slot ∧ s.next_conn_id_ + 1 < 2 ^ 31 ∧ task = ⟨slot, s.heap.length⟩ ∧
      s' = { s with
        heap := s.heap ++ [⟨s.next_thread_idx_, connectionName peer_addr s.name_ s.next_conn_id_, .kConnecting⟩]
        connections_ := s.connections_ ++
          [⟨slot, connectionName peer_addr s.name_ s.next_conn_id_, s.heap.length⟩]
        next_conn_id_ := s.next_conn_id_ + 1 } := by
  simp only [newConnection] at e
  split at e
  case isTrue => cases e
  case isFalse free =>
    have new : ∀ node ∈ s.connections_, ¬ decide (node.key = connectionName peer_addr s.name_ s.next_conn_id_) :=
      fun node hn => by simpa using h.name_new peer_addr hn
    have any : s.connections_.any (fun node =>
        decide (node.key = connectionName peer_addr s.name_ s.next_conn_id_)) = false := by
      rw [List.any_eq_false]
      exact new
    rw [assign, any, if_neg Bool.false_ne_true, List.find?_append, List.find?_eq_none.2 new] at e
    simp only [Option.none_or, List.find?_singleton, decide_true, if_true] at e
    obtain ⟨node, hn, e⟩ := Option.bind_eq_some_iff.1 e
    cases hn
    cases e
    rw [not_or, not_le] at free
    exact ⟨free.1, free.2, rfl, rfl⟩

/-- A new connection is registered, and awaits its creation. -/
lemma newConnection (h : Registered host_addr s) {peer_addr : SocketAddress} {slot : Nat} {task : CreateTask}
    (e : s.newConnection peer_addr slot = some (s', task)) :
    Registered host_addr s' ∧ s'.Awaited s.next_thread_idx_ task ∧ Unawaited s' task.conn := by
  obtain ⟨free, bound, rfl, rfl⟩ := h.newConnection_spec e
  -- the objects that were there before stay as they are
  have old {α : Type} {f : Connection → α} {conn : Connection} {d : Nat} (hd : d < s.heap.length) :
      ((s.heap ++ [conn])[d]?).map f = (s.heap[d]?).map f := by
    rw [List.getElem?_append_left hd]
  have new {α : Type} {f : Connection → α} {conn : Connection} :
      ((s.heap ++ [conn])[s.heap.length]?).map f = some (f conn) := by
    simp
  have conn_new : s.heap.length ∉ s.connections_.map Node.conn := fun hm =>
    Nat.lt_irrefl _ ((h.held _).1 hm).1
  have awaited : ∃ node ∈ s.connections_ ++ [(⟨slot, connectionName peer_addr s.name_ s.next_conn_id_,
      s.heap.length⟩ : Node)], node.slot = slot ∧ node.conn = s.heap.length :=
    ⟨_, List.mem_append_right _ (List.mem_singleton_self _), rfl, rfl⟩
  refine ⟨{ h with
    count := ?_, bound := bound, names := ?_, keys := ?_, slots := ?_, conns := ?_, held := ?_,
    creates := ?_, closed := ?_ }, ⟨awaited, new, new⟩, ?_⟩
  · rw [List.length_append, List.length_singleton, h.count]
  · intro d name hd
    have lt := lt_of_nameOf hd
    rw [List.length_append, List.length_singleton, Nat.lt_succ_iff_lt_or_eq] at lt
    rcases lt with lt | rfl
    · exact h.names d name ((old lt).symm.trans hd)
    · obtain rfl := Option.some.inj (new.symm.trans hd)
      exact ⟨peer_addr, by rw [h.count]⟩
  · intro node hn
    rcases List.mem_append.1 hn with hn | hn
    · have hk := h.keys node hn
      exact (old (lt_of_nameOf hk)).trans hk
    · obtain rfl := List.mem_singleton.1 hn
      exact new
  · rw [List.map_append, List.map_singleton, ← List.concat_eq_append]
    exact .concat free h.slots
  · rw [List.map_append, List.map_singleton, ← List.concat_eq_append]
    exact .concat conn_new h.conns
  · intro d
    have unerased : s.heap.length ∉ s.loop_.executed := fun hx =>
      Nat.lt_irrefl _ (lt_of_statusOf (h.closed _ (List.mem_append_left _ hx)))
    rw [List.map_append, List.mem_append, h.held, List.length_append, List.length_singleton,
      Nat.lt_succ_iff_lt_or_eq, or_and_right]
    refine or_congr_right ⟨fun hd => ?_, fun hd => ?_⟩
    · obtain rfl := List.mem_singleton.1 hd
      exact ⟨rfl, unerased⟩
    · exact List.mem_singleton.2 hd.1
  · intro i th hth task ht
    obtain ⟨⟨node, hn, hs⟩, connecting, hi⟩ := h.creates i th hth task ht
    have lt := lt_of_statusOf connecting
    exact ⟨⟨node, List.mem_append_left _ hn, hs⟩, (old lt).trans connecting, (old lt).trans hi⟩
  · intro d hd
    have hs := h.closed d hd
    exact (old (lt_of_statusOf hs)).trans hs
  · intro i th hth task ht
    exact Nat.ne_of_lt (lt_of_statusOf (h.creates i th hth task ht).2.1)

/-- A task for a connection that awaits it is passed to its IO loop. -/
lemma pass (h : Registered host_addr s) {i : Nat} {th th' : EventLoopThread} {task : CreateTask}
    (hth : s.threads_[i]? = some th) (ha : s.Awaited i task) (hc : Unawaited s task.conn)
    (hl : th'.loop_.left.Sublist (th.loop_.left ++ [task])) :
    Registered host_addr { s with threads_ := s.threads_.set i th' } := by
  refine { h with creates := h.creates.set fun task' ht => ?_, once := h.once.set ?_ }
  · rcases List.mem_append.1 (hl.subset ht) with ht | ht
    · exact h.creates i th hth task' ht
    · obtain rfl := List.mem_singleton.1 ht
      exact ha
  · have new : task.conn ∉ th.loop_.left.map CreateTask.conn := by
      intro hm
      obtain ⟨task', ht, e⟩ := List.mem_map.1 hm
      exact hc i th hth task' ht e
    have both := List.Nodup.concat new (h.once i th hth)
    rw [List.concat_eq_append, ← List.map_singleton, ← List.map_append] at both
    exact both.sublist (hl.map _)

/-- Accepting a connection and passing it on keeps the registry in step. -/
lemma accept (h : Registered host_addr s) {peer_addr : SocketAddress} {slot : Nat} {task : CreateTask}
    {th th' : EventLoopThread} {s1 s2 : ServerThreads} (hth : s.threads_[s.next_thread_idx_]? = some th)
    (e : s.newConnection peer_addr slot = some (s1, task)) (er : th.runInLoop .main task = some th')
    (e' : (if th.loop_.thread_id_ = .main then (s1.setNextThread th').handleCreate task
      else some (s1.setNextThread th')) = some s2) :
    Registered host_addr s2 ∧ s2.loop_ = s.loop_ := by
  obtain ⟨h1, ha, hc⟩ := h.newConnection e
  have same : s1.loop_ = s.loop_ := by
    obtain ⟨_, _, _, rfl⟩ := h.newConnection_spec e
    rfl
  obtain ⟨threads, idx⟩ := newConnection_threads e
  rw [← threads, ← idx] at hth
  rw [← idx] at ha
  obtain ⟨loop, er, eq⟩ := Option.bind_eq_some_iff.1 er
  obtain ⟨left, _⟩ := EventLoop.step_runInLoop er
  have left' : th'.loop_.left = th.loop_.left ++ (if th.loop_.thread_id_ = .main then [] else [task]) := by
    cases eq
    exact left
  split at e'
  case isTrue inline =>
    rw [if_pos inline, List.append_nil] at left'
    have h2 : Registered host_addr (s1.setNextThread th') := { h1.io_thread hth (left' ▸ .refl _) with }
    have hc' : Unawaited (s1.setNextThread th') task.conn := by
      refine hc.set fun task' ht => hc _ th hth task' ?_
      rw [← left']
      exact ht
    refine ⟨h2.handleCreate ha hc' e', ?_⟩
    obtain ⟨node, conn, _, _, _, rfl⟩ := handleCreate_spec e'
    exact same
  case isFalse queued =>
    rw [if_neg queued] at left'
    cases e'
    exact ⟨{ h1.pass hth ha hc (left' ▸ .refl _) with }, same⟩

/-- Creating a connection does not look at the threads. -/
lemma handleCreate_frame {task : CreateTask} (e : s.handleCreate task = some s')
    (threads : List EventLoopThread) :
    ({ s with threads_ := threads } : ServerThreads).handleCreate task
      = some { s' with threads_ := threads } := by
  obtain ⟨node, conn, hf, hn, hs, rfl⟩ := handleCreate_spec e
  simp [ServerThreads.handleCreate, hf, hn, hs]

/-- An IO thread goes on; the task that it executes is taken from its queue. -/
lemma thread (h : Registered host_addr s) {i : Nat} {m : EventLoopThread.Move} {th th' : EventLoopThread}
    {s1 : ServerThreads} (hth : s.threads_[i]? = some th) (e : th.step i m = some th')
    (e' : s.execute th m = some s1) : Registered host_addr { s1 with threads_ := s1.threads_.set i th' } := by
  obtain ⟨left, _⟩ := EventLoopThread.step_tasks e
  have h1 := h.io_thread hth (left ▸ List.sublist_append_right ..)
  rcases execute_cases e' with ⟨_, rfl⟩ | ⟨task, rfl, hc, e'⟩
  · exact h1
  · have first : th.loop_.left = task :: th'.loop_.left := by
      rw [left, EventLoopThread.executes, if_pos rfl, hc]
      rfl
    have ha : s.Awaited i task := h.creates i th hth task (by simp [first])
    have once : task.conn ∉ th'.loop_.left.map CreateTask.conn := by
      have nodup : (th.loop_.left.map CreateTask.conn).Nodup := h.once i th hth
      rw [first] at nodup
      exact (List.nodup_cons.1 nodup).1
    have threads : s1.threads_ = s.threads_ := by
      obtain ⟨node, conn, _, _, _, rfl⟩ := handleCreate_spec e'
      rfl
    rw [threads]
    refine h1.handleCreate ha ?_ (handleCreate_frame e' _)
    intro j th1 hth1 task' ht rc
    rw [List.getElem?_set] at hth1
    split at hth1
    case isTrue =>
      split at hth1
      case isTrue =>
        cases hth1
        exact once (rc ▸ List.mem_map_of_mem ht)
      case isFalse => cases hth1
    case isFalse hij =>
      -- the tasks of a connection are passed to one loop
      have hj := (h.creates j th1 hth1 task' ht).2.2
      rw [rc, ha.2.2] at hj
      exact hij (Option.some.inj hj)

/-- Every move keeps the registry in step. -/
lemma step (h : Registered host_addr s) {m : Move} (e : s.step m = some s') : Registered host_addr s' := by
  -- the main thread stays the thread of the main loop
  have main {loop : EventLoop Unit Nat Thread} (hl : s.loop_.Next loop) : loop.thread_id_ = .main := by
    cases hl <;> exact h.main
  cases step_cases e with
  | construct => exact { h with creates := h.creates.append nofun, once := h.once.append fun _ => .nil }
  | startThread hth => exact h.io_thread hth (.refl _)
  | start => exact { h with }
  | startLoop e1 =>
    obtain ⟨left, executed⟩ := EventLoop.step_left e1 (by simp) (by simp)
    cases EventLoop.step_cases e1 with
    | startLoop => exact h.main_loop rfl left executed
  | poll e1 =>
    obtain ⟨left, executed⟩ := EventLoop.step_left e1 (by simp) (by simp)
    cases EventLoop.step_cases e1 with
    | poll => exact h.main_loop h.main left executed
  | accept hp hl hth e1 er e2 =>
    obtain ⟨h2, same⟩ := h.accept hth e1 er e2
    have none_left : s.loop_.current = none := by simp [EventLoop.current, hp]
    have left := hl.left
    have executed := hl.executed
    rw [none_left] at left executed
    refine h2.main_loop (main hl) ?_ ?_
    · rw [same]
      exact left.symm
    · rw [same, executed]
      exact List.append_nil _
  | erase _ hc hl e1 => exact h.erase hc hl (main hl) e1
  | idle _ hc hl =>
    have left := hl.left
    have executed := hl.executed
    rw [hc] at left executed
    exact h.main_loop (main hl) left.symm (executed.trans (List.append_nil _))
  | thread hth e1 e2 => exact h.thread hth e1 e2
  | handleClose e1 => exact h.handleClose e1
  | wakeup e1 =>
    obtain ⟨left, executed⟩ := EventLoop.step_left e1 (by simp) (by simp)
    cases EventLoop.step_cases e1 with
    | wakeup => exact h.main_loop h.main left executed

/-- Every run keeps the registry in step. -/
lemma run (h : Registered host_addr s) {ms : List Move} (e : ms.foldlM ServerThreads.step s = some s') :
    Registered host_addr s' := by
  have steps : Steps (fun _ _ => True) ServerThreads.step s ms s' := .of_foldlM (by simp) e
  exact steps.inv (fun h _ e => h.step e) h

end Registered

/-- In every interleaving of the loops of a server, over any peers: a new connection gets a node of its own and
    leaves the others as they are; the slot of every create task that is queued holds the connection for which the
    task was made; every erase task that is queued is of a connection that was closed, and it removes the node of
    that connection and no other; and the map holds exactly the connections that were accepted and whose erase
    task was not executed. -/
theorem registry_exact (host_addr : SocketAddress) (num_io_threads : Nat) (ms : List Move) (s : ServerThreads)
    (run : ms.foldlM step (new host_addr num_io_threads) = some s) :
    (∀ peer_addr slot s' task, s.newConnection peer_addr slot = some (s', task) →
      (∀ node ∈ s.connections_, node.key ≠ connectionName peer_addr s.name_ s.next_conn_id_) ∧
      s'.connections_ = s.connections_ ++
        [⟨slot, connectionName peer_addr s.name_ s.next_conn_id_, s.heap.length⟩]) ∧
    (∀ th ∈ s.threads_, ∀ task ∈ th.loop_.left,
      ∃ node, s.connections_.find? (·.slot = task.slot) = some node ∧ node.conn = task.conn) ∧
    (∀ conn ∈ s.loop_.left, s.statusOf conn = some .kDisconnected ∧ conn ∈ s.connections_.map Node.conn ∧
      ∃ s', s.eraseConnection conn = some s' ∧
        ∀ node, node ∈ s'.connections_ ↔ node ∈ s.connections_ ∧ node.conn ≠ conn) ∧
    (s.connections_.map Node.conn).Nodup ∧
    ∀ conn, conn ∈ s.connections_.map Node.conn ↔ conn < s.heap.length ∧ conn ∉ s.loop_.executed := by
  have h : Registered host_addr s := Registered.new.run run
  refine ⟨?_, ?_, ?_, h.conns, h.held⟩
  · intro peer_addr slot s' task e
    obtain ⟨_, _, _, rfl⟩ := h.newConnection_spec e
    exact ⟨fun node hn => h.name_new peer_addr hn, rfl⟩
  · intro th hth task ht
    obtain ⟨i, hi⟩ := List.getElem?_of_mem hth
    exact h.find_slot (h.creates i th hi task ht)
  · intro c hc
    have closed := h.closed c (List.mem_append_right _ hc)
    have waits : c ∉ s.loop_.executed := fun hx => (List.disjoint_of_nodup_append h.erases) hx hc
    obtain ⟨conn, hconn, _⟩ := Option.map_eq_some_iff.1 closed
    have erased : s.eraseConnection c
        = some { s with connections_ := s.connections_.filter (·.key ≠ conn.name_) } := by
      rw [eraseConnection, hconn]
      rfl
    exact ⟨closed, (h.held c).2 ⟨lt_of_statusOf closed, waits⟩, _, erased, (h.erase_exact erased).2⟩

/-- A peer is accepted, the IO thread creates its connection, the peer is accepted again from the same port, and
    the first connection is closed. -/
def twoConnections : List Move :=
  threadFirst ++ .next (some (.addr_ 10 0 0 1 50000)) 0 :: threadRuns ++
    [.next none 0, .next none 0, .next none 0, .poll [.other ()], .next (some (.addr_ 10 0 0 1 50000)) 1,
      .handleClose 0]

/-- Two connections, one of which is closed and about to be erased. -/
theorem registry_exact_two_connections :
    ∃ s, twoConnections.foldlM step (new localhost 1) = some s ∧ s.loop_.left = [0] ∧
      (∃ th ∈ s.threads_, th.loop_.left = [⟨1, 1⟩]) ∧
      (∃ node, s.connections_.find? (·.slot = 1) = some node ∧ node.conn = 1) ∧
      ∃ s', s.eraseConnection 0 = some s' ∧
        ∀ node, node ∈ s'.connections_ ↔ node ∈ s.connections_ ∧ node.conn ≠ 0 := by
  have ends : (twoConnections.foldlM step (new localhost 1)).map
      (fun s => (s.loop_.left, s.threads_.map fun th => th.loop_.left)) = some ([0], [[⟨1, 1⟩]]) := by
    decide +kernel
  obtain ⟨s, run, es⟩ := Option.map_eq_some_iff.1 ends
  simp only [Prod.mk.injEq] at es
  obtain ⟨left, lefts⟩ := es
  obtain ⟨th, hths, hth⟩ := List.map_eq_singleton_iff.1 lefts
  have mem : th ∈ s.threads_ := by simp [hths]
  obtain ⟨_, creates, erases, _⟩ := registry_exact _ _ _ s run
  refine ⟨s, run, left, ⟨th, mem, hth⟩, creates th mem ⟨1, 1⟩ (by simp [hth]), ?_⟩
  exact (erases 0 (by simp [left])).2.2

end ServerThreads

end WebServer.Net
