import WebServer.Http.Cache
import WebServer.Lib.Lock
import WebServer.Lib.Run

/-!
# The cache between threads

Model of `class SpinLock` and of `connectionOnRead` with the cache on, in steps: the connections run in threads of
their own, and a step of one comes between any two steps of another. Only `getRespCache`, the callback and
`addRespCache` are done under the lock. A request object is a key of the cache and is changed by the parser without
it, and a response object, which may be in the cache, is changed by `setCloseConnection` and read by `appendToBuffer`
and `getCloseConnection` without it. So response objects have addresses here: that of the one in a node is the number
of the node. Reads and writes of one object are taken to come one after the other.

A step is undefined where one of `handleRequest` is: if the iterator found does not lead to a node, or an element is
taken from the end of an empty list. Between `count` and `operator[]` the entry can get lost; then `operator[]` makes
one whose iterator leads nowhere.
-/

namespace WebServer.Http

open Net Lib

/-- Where a connection is in `connectionOnRead`. -/
inductive Pc where
  /-- Parsing, or not in it. -/
  | outside
  /-- In `SpinLock::lock` -/
  | locking
  /-- At `req_to_cache_node_iter_.count(req)` -/
  | counting
  /-- At `req_to_cache_node_iter_[req]` -/
  | indexing
  /-- At the call of the response callback. -/
  | missed
  /-- At `addRespCache` -/
  | adding (response : HTTPResponse)
  /-- At `SpinLock::unlock` -/
  | unlocking (response : Nat)
  /-- At the decision whether to close the connection. -/
  | deciding (response : Nat)
  /-- At `appendToBuffer` -/
  | sending (response : Nat)
  /-- At `getCloseConnection` -/
  | closing (response : Nat)
deriving DecidableEq

/-- The connection has the lock. -/
def Pc.holds : Pc → Bool
  | .counting | .indexing | .missed | .adding _ | .unlocking _ => true
  | _ => false

/-- `HTTPServer::CacheNode`, with the number that stands for its address and that of the response. -/
structure SharedNode where
  id : Nat
  req : ConnId
deriving DecidableEq

/-- What a thread did to its connection. -/
inductive Reply where
  /-- `appendToBuffer` of the response, to the request. -/
  | sent (conn : ConnId) (request : HTTPRequest) (response : HTTPResponse)
  | shutdown (conn : ConnId)

/-- What the threads share, and where they are. -/
structure Threads where
  lck : Bool
  requests : ConnId → HTTPRequest
  responses : Nat → HTTPResponse
  cache_node_list_ : List SharedNode
  req_to_cache_node_iter_ : List CacheEntry
  next_node : Nat
  pc : ConnId → Pc
  replies : List Reply

namespace Threads

/-- Nobody has sent anything yet. -/
def new : Threads where
  lck := false
  requests _ := .new
  responses _ := .new
  cache_node_list_ := []
  req_to_cache_node_iter_ := []
  next_node := 0
  pc _ := .outside
  replies := []

def goto (s : Threads) (i : ConnId) (p : Pc) : Threads := { s with pc := Function.update s.pc i p }

/-- A change of the response object with this address. -/
def setResponse (s : Threads) (n : Nat) (response : HTTPResponse) : Threads :=
  { s with responses := Function.update s.responses n response }

section Steps

variable (hash : HTTPRequest → Nat) (callbacks : Bytes → Option ResponseCallback)

/-- `req_to_cache_node_iter_.find(req)` -/
def findEntry (s : Threads) (req : ConnId) : Option CacheEntry :=
  s.req_to_cache_node_iter_.find? (HTTPServer.matchesKey hash s.requests req)

/-- `SpinLock::lock`: one turn of its loop, and on to the cache if the flag was clear. -/
def lock (s : Threads) (i : ConnId) : Threads := if s.lck then s else { s with lck := true }.goto i .counting

/-- `SpinLock::unlock` -/
def unlock (s : Threads) (i : ConnId) (response : Nat) : Threads := { s with lck := false }.goto i (.deciding response)

/-- `getRespCache` from `operator[]` on. -/
def index (s : Threads) (i : ConnId) : Option Threads := do
  let e ← s.findEntry hash i
  let node ← s.cache_node_list_.find? (·.id = e.iter)
  let nodes := if s.cache_node_list_.head?.map SharedNode.id = some e.iter then
      s.cache_node_list_
    else
      node :: s.cache_node_list_.eraseP (·.id = e.iter)
  some ({ s with cache_node_list_ := nodes }.goto i (.unlocking node.id))

/-- The eviction of `addRespCache`. -/
def evict (s : Threads) : Option Threads := do
  if s.req_to_cache_node_iter_.length ≥ HTTPServer.kMaxReqCached then
    let back ← s.cache_node_list_.getLast?
    some { s with
      req_to_cache_node_iter_ := s.req_to_cache_node_iter_.eraseP (HTTPServer.matchesKey hash s.requests back.req)
      cache_node_list_ := s.cache_node_list_.dropLast }
  else
    some s

/-- `addRespCache` after the eviction. -/
def push (s : Threads) (i : ConnId) (response : HTTPResponse) : Threads :=
  { s with
    cache_node_list_ := ⟨s.next_node, i⟩ :: s.cache_node_list_
    req_to_cache_node_iter_ := if (s.findEntry hash i).isSome then
        s.req_to_cache_node_iter_
      else
        ⟨hash (s.requests i), i, s.next_node⟩ :: s.req_to_cache_node_iter_
    responses := Function.update s.responses s.next_node response
    next_node := s.next_node + 1 }

/-- `addRespCache` -/
def add (s : Threads) (i : ConnId) (response : HTTPResponse) : Option Threads := do
  let s ← s.evict hash
  some ((s.push hash i response).goto i (.unlocking s.next_node))

/-- The next step of a connection. It goes into `connectionOnRead` when it has parsed a request to a path with a
    callback; the other cases do not come near the cache. -/
def advance (s : Threads) (i : ConnId) : Option Threads :=
  match s.pc i with
  | .outside => some (if (callbacks (s.requests i).path_).isSome then s.goto i .locking else s)
  | .locking => some (s.lock i)
  | .counting => some (s.goto i (if (s.findEntry hash i).isSome then .indexing else .missed))
  | .indexing => s.index hash i
  | .missed => do
    let cb ← callbacks (s.requests i).path_
    some (s.goto i (.adding (cb.run (s.requests i) .new)))
  | .adding response => s.add hash i response
  | .unlocking response => some (s.unlock i response)
  | .deciding response => some ((s.setResponse response
      (HTTPServer.closes (s.requests i) (s.responses response))).goto i (.sending response))
  | .sending response => some ({ s with
      replies := s.replies ++ [Reply.sent i (s.requests i) (s.responses response)] }.goto i (.closing response))
  | .closing response => some ({ s with
      replies := s.replies ++ if (s.responses response).close_connection_ then [Reply.shutdown i] else [] }.goto i .outside)

/-- A connection gets on, or the parser makes something of its request. -/
inductive Move where
  | go (i : ConnId)
  | parse (i : ConnId) (request : HTTPRequest)

/-- A step of some connection; the parser is at work only outside. -/
def step (s : Threads) : Move → Option Threads
  | .go i => s.advance hash callbacks i
  | .parse i request =>
    some (if s.pc i = .outside then { s with requests := Function.update s.requests i request } else s)

end Steps

/-! ## What holds between threads -/

/-- The response the callback makes for the request, up to the decision whether to close the connection. -/
def Made (callbacks : Bytes → Option ResponseCallback) (request : HTTPRequest) (response : HTTPResponse) : Prop :=
  ∃ cb, callbacks request.path_ = some cb ∧
    response.setCloseConnection false = (cb.run request .new).setCloseConnection false

/-- The response was made for a request with this hash. -/
def MadeForHash (hash : HTTPRequest → Nat) (callbacks : Bytes → Option ResponseCallback) (h : Nat)
    (response : HTTPResponse) : Prop :=
  ∃ request, hash request = h ∧ Made callbacks request response

/-- What holds of a connection at its place. -/
def Placed (hash : HTTPRequest → Nat) (callbacks : Bytes → Option ResponseCallback) (s : Threads) (i : ConnId) :
    Pc → Prop
  | .adding response => Made callbacks (s.requests i) response
  | .unlocking n | .deciding n | .sending n | .closing n =>
    n < s.next_node ∧ MadeForHash hash callbacks (hash (s.requests i)) (s.responses n)
  | _ => True

/-- What holds in every state reached. -/
structure Inv (hash : HTTPRequest → Nat) (callbacks : Bytes → Option ResponseCallback) (s : Threads) : Prop where
  exclusive : Exclusive s.lck fun i => (s.pc i).holds
  fresh : ∀ e ∈ s.req_to_cache_node_iter_, e.iter < s.next_node
  stored : ∀ e ∈ s.req_to_cache_node_iter_, MadeForHash hash callbacks e.hash (s.responses e.iter)
  placed : ∀ i, s.Placed hash callbacks i (s.pc i)
  replied : ∀ i request response, Reply.sent i request response ∈ s.replies →
    MadeForHash hash callbacks (hash request) response

variable {hash : HTTPRequest → Nat} {callbacks : Bytes → Option ResponseCallback} {s s' : Threads} {i : ConnId}
  {p : Pc}

/-- Deciding to close does not change for which hash a response was made. -/
lemma closes_made {h : Nat} {request : HTTPRequest} {response : HTTPResponse}
    (made : MadeForHash hash callbacks h response) :
    MadeForHash hash callbacks h (HTTPServer.closes request response) := by
  obtain ⟨origin, eq, cb, registered, same⟩ := made
  refine ⟨origin, eq, cb, registered, ?_⟩
  rw [← same]
  unfold HTTPServer.closes
  cases request.getHeader (bytes "Connection") <;> rfl

/-- A thread that moves on holds the lock when its new place does. -/
lemma holds_goto : (fun j => ((s.goto i p).pc j).holds) = Function.update (fun j => (s.pc j).holds) i p.holds := by
  funext j
  by_cases h : j = i
  · subst h
    simp [goto]
  · simp [goto, h]

/-- The places of the connections after a step of `i` that keeps the requests and makes responses of no other hash. -/
lemma Inv.goto {t : Threads} (inv : s.Inv hash callbacks)
    (taken : Exclusive t.lck (Function.update (fun j => (s.pc j).holds) i p.holds))
    (pc : t.pc = s.pc) (requests : t.requests = s.requests) (next : s.next_node ≤ t.next_node)
    (entries : ∀ e ∈ t.req_to_cache_node_iter_, e.iter < t.next_node ∧
      MadeForHash hash callbacks e.hash (t.responses e.iter))
    (kept : ∀ n h, n < s.next_node → MadeForHash hash callbacks h (s.responses n) →
      MadeForHash hash callbacks h (t.responses n))
    (place : t.Placed hash callbacks i p)
    (replied : ∀ i request response, Reply.sent i request response ∈ t.replies →
      MadeForHash hash callbacks (hash request) response) : (t.goto i p).Inv hash callbacks where
  exclusive := by
    rw [holds_goto, pc]
    exact taken
  fresh e h := (entries e h).1
  stored e h := (entries e h).2
  placed j := by
    by_cases h : j = i
    · subst h
      simp only [Threads.goto, Function.update_self]
      cases p <;> exact place
    · simp only [Threads.goto, Function.update_of_ne h, pc]
      have placed := inv.placed j
      cases e : s.pc j with
      | adding response =>
        rw [e] at placed
        simp only [Placed, requests] at placed ⊢
        exact placed
      | unlocking n | deciding n | sending n | closing n =>
        rw [e] at placed
        simp only [Placed, requests] at placed ⊢
        exact ⟨placed.1.trans_le next, kept n _ placed.1 placed.2⟩
      | _ => trivial
  replied := replied

/-- A step that changes nothing but the place, and does not go past the lock. -/
lemma Inv.move (inv : s.Inv hash callbacks) (same : p.holds = (s.pc i).holds) (place : s.Placed hash callbacks i p) :
    (s.goto i p).Inv hash callbacks :=
  inv.goto (inv.exclusive.stay same) rfl rfl le_rfl (fun e h => ⟨inv.fresh e h, inv.stored e h⟩) (fun _ _ _ h => h)
    place inv.replied

/-- Trying to take the lock keeps the invariant. -/
lemma Inv.lock (inv : s.Inv hash callbacks) : (s.lock i).Inv hash callbacks := by
  unfold Threads.lock
  cases free : s.lck with
  | true => simpa using inv
  | false =>
    have exclusive := inv.exclusive
    rw [free] at exclusive
    exact inv.goto (t := { s with lck := true }) exclusive.take rfl rfl le_rfl
      (fun e h => ⟨inv.fresh e h, inv.stored e h⟩) (fun _ _ _ h => h) trivial inv.replied

/-- Giving the lock back keeps the invariant. -/
lemma Inv.unlock (inv : s.Inv hash callbacks) {n : Nat} (at_ : s.pc i = .unlocking n) :
    (s.unlock i n).Inv hash callbacks := by
  have placed := inv.placed i
  rw [at_] at placed
  exact inv.goto (t := { s with lck := false }) (inv.exclusive.leave (by rw [at_]; rfl)) rfl rfl le_rfl
    (fun e h => ⟨inv.fresh e h, inv.stored e h⟩) (fun _ _ _ h => h) placed inv.replied

/-- An entry that is found has the hash of the request. -/
lemma findEntry_hash {e : CacheEntry} (h : s.findEntry hash i = some e) :
    e ∈ s.req_to_cache_node_iter_ ∧ e.hash = hash (s.requests i) := by
  refine ⟨List.mem_of_find?_eq_some h, ?_⟩
  have found := List.find?_some h
  simp only [HTTPServer.matchesKey, decide_eq_true_eq] at found
  exact found.1

/-- Looking up the map with the lock held keeps the invariant. -/
lemma Inv.index (inv : s.Inv hash callbacks) (at_ : s.pc i = .indexing) (st : s.index hash i = some s') :
    s'.Inv hash callbacks := by
  obtain ⟨e, found, st⟩ := Option.bind_eq_some_iff.1 st
  obtain ⟨node, here, st⟩ := Option.bind_eq_some_iff.1 st
  cases st
  obtain ⟨mem, hash_eq⟩ := findEntry_hash found
  have id : node.id = e.iter := by simpa using List.find?_some here
  refine inv.goto (inv.exclusive.stay (by rw [at_]; rfl)) rfl rfl le_rfl
    (fun e h => ⟨inv.fresh e h, inv.stored e h⟩) (fun _ _ _ h => h) ?_ inv.replied
  rw [id]
  refine ⟨inv.fresh e mem, ?_⟩
  rw [← hash_eq]
  exact inv.stored e mem

/-- Eviction takes entries and nodes away. -/
lemma evict_sub (st : s.evict hash = some s') : s'.lck = s.lck ∧ s'.pc = s.pc ∧ s'.requests = s.requests ∧
    s'.responses = s.responses ∧ s'.next_node = s.next_node ∧ s'.replies = s.replies ∧
    ∀ e ∈ s'.req_to_cache_node_iter_, e ∈ s.req_to_cache_node_iter_ := by
  unfold Threads.evict at st
  split at st
  · obtain ⟨back, _, st⟩ := Option.bind_eq_some_iff.1 st
    cases st
    exact ⟨rfl, rfl, rfl, rfl, rfl, rfl, fun e h => List.mem_of_mem_eraseP h⟩
  · cases st
    exact ⟨rfl, rfl, rfl, rfl, rfl, rfl, fun e h => h⟩

/-- Adding a node with the lock held keeps the invariant. -/
lemma Inv.add (inv : s.Inv hash callbacks) {response : HTTPResponse} (at_ : s.pc i = .adding response)
    (st : s.add hash i response = some s') : s'.Inv hash callbacks := by
  obtain ⟨s1, evict, st⟩ := Option.bind_eq_some_iff.1 st
  cases st
  obtain ⟨lck, pc, requests, responses, next, replies, sub⟩ := evict_sub evict
  have made := inv.placed i
  rw [at_] at made
  have new : MadeForHash hash callbacks (hash (s.requests i)) response := ⟨s.requests i, rfl, made⟩
  have old {n : Nat} (lt : n < s.next_node) : Function.update s1.responses s1.next_node response n = s.responses n := by
    rw [next, responses, Function.update_of_ne lt.ne]
  refine inv.goto ?_ pc requests (by dsimp only [push]; rw [next]; exact Nat.le_succ _) ?_ ?_ ?_ ?_
  · dsimp only [push]
    rw [lck]
    exact inv.exclusive.stay (by rw [at_]; rfl)
  · have kept : ∀ e ∈ s1.req_to_cache_node_iter_, e.iter < s1.next_node + 1 ∧
        MadeForHash hash callbacks e.hash (Function.update s1.responses s1.next_node response e.iter) := by
      intro e h
      have lt := inv.fresh e (sub e h)
      rw [old lt, next]
      exact ⟨lt.trans (Nat.lt_succ_self _), inv.stored e (sub e h)⟩
    dsimp only [push]
    split
    · exact kept
    · refine List.forall_mem_cons.2 ⟨⟨Nat.lt_succ_self _, ?_⟩, kept⟩
      rw [Function.update_self, requests]
      exact new
  · intro n h lt made
    dsimp only [push]
    rw [old lt]
    exact made
  · refine ⟨Nat.lt_succ_self _, ?_⟩
    dsimp only [push]
    rw [Function.update_self, requests]
    exact new
  · dsimp only [push]
    rw [replies]
    exact inv.replied

/-- Every step of a thread keeps the invariant. -/
lemma Inv.advance (inv : s.Inv hash callbacks) (st : s.advance hash callbacks i = some s') :
    s'.Inv hash callbacks := by
  unfold Threads.advance at st
  have placed := inv.placed i
  cases at_ : s.pc i with
  | outside =>
    simp only [at_] at st
    cases st
    split
    · exact inv.move (by rw [at_]; rfl) trivial
    · exact inv
  | locking =>
    simp only [at_] at st
    cases st
    exact inv.lock
  | counting =>
    simp only [at_] at st
    cases st
    split
    · exact inv.move (by rw [at_]; rfl) trivial
    · exact inv.move (by rw [at_]; rfl) trivial
  | indexing =>
    simp only [at_] at st
    exact inv.index at_ st
  | missed =>
    simp only [at_] at st
    obtain ⟨cb, registered, st⟩ := Option.bind_eq_some_iff.1 st
    cases st
    exact inv.move (by rw [at_]; rfl) ⟨cb, registered, rfl⟩
  | adding response =>
    simp only [at_] at st
    exact inv.add at_ st
  | unlocking n =>
    simp only [at_] at st
    cases st
    exact inv.unlock at_
  | deciding n =>
    simp only [at_] at st
    cases st
    rw [at_] at placed
    have kept (m h) (made : MadeForHash hash callbacks h (s.responses m)) : MadeForHash hash callbacks h
        (Function.update s.responses n (HTTPServer.closes (s.requests i) (s.responses n)) m) := by
      by_cases eq : m = n
      · subst eq
        rw [Function.update_self]
        exact closes_made made
      · rw [Function.update_of_ne eq]
        exact made
    exact inv.goto (inv.exclusive.stay (by rw [at_]; rfl)) rfl rfl le_rfl
      (fun e h => ⟨inv.fresh e h, kept _ _ (inv.stored e h)⟩) (fun m h _ made => kept m h made)
      ⟨placed.1, kept _ _ placed.2⟩ inv.replied
  | sending n =>
    simp only [at_] at st
    cases st
    rw [at_] at placed
    refine inv.goto (inv.exclusive.stay (by rw [at_]; rfl)) rfl rfl le_rfl
      (fun e h => ⟨inv.fresh e h, inv.stored e h⟩) (fun _ _ _ h => h) placed fun j request response mem => ?_
    rcases List.mem_append.1 mem with old | new
    · exact inv.replied j request response old
    · cases List.mem_singleton.1 new
      exact placed.2
  | closing n =>
    simp only [at_] at st
    cases st
    refine inv.goto (inv.exclusive.stay (by rw [at_]; rfl)) rfl rfl le_rfl
      (fun e h => ⟨inv.fresh e h, inv.stored e h⟩) (fun _ _ _ h => h) trivial fun j request response mem => ?_
    rcases List.mem_append.1 mem with old | new
    · exact inv.replied j request response old
    · split at new
      · cases List.mem_singleton.1 new
      · cases new

/-- The invariant holds before any thread has started. -/
lemma Inv.new : Threads.new.Inv hash callbacks where
  exclusive := .free
  fresh := nofun
  stored := nofun
  placed _ := trivial
  replied := nofun

/-- Every move keeps the invariant. -/
lemma Inv.step {m : Move} (inv : s.Inv hash callbacks) (st : s.step hash callbacks m = some s') :
    s'.Inv hash callbacks := by
  cases m with
  | go i => exact inv.advance st
  | parse i request =>
    cases st
    split
    case isFalse => exact inv
    case isTrue out =>
      refine ⟨inv.exclusive, inv.fresh, inv.stored, fun j => ?_, inv.replied⟩
      by_cases h : j = i
      · subst h
        dsimp only
        rw [out]
        trivial
      · -- the request of another connection is as it was
        have placed := inv.placed j
        cases e : s.pc j with
        | adding response =>
          rw [e] at placed
          simp only [Placed, Function.update_of_ne h] at placed ⊢
          exact placed
        | unlocking n | deciding n | sending n | closing n =>
          rw [e] at placed
          simp only [Placed, Function.update_of_ne h] at placed ⊢
          exact placed
        | _ => trivial

/-- A state that the threads can get into. -/
def Reached (hash : HTTPRequest → Nat) (callbacks : Bytes → Option ResponseCallback) (moves : List Move)
    (s : Threads) : Prop :=
  moves.foldlM (Threads.step hash callbacks) .new = some s

/-- What every step keeps holds in every state reached. -/
lemma Reached.inv {moves : List Move} (run : Reached hash callbacks moves s) {P : Threads → Prop} (new : P .new)
    (keep : ∀ {s m s'}, P s → s.step hash callbacks m = some s' → P s') : P s := by
  have steps : Steps (fun _ _ => True) (Threads.step hash callbacks) .new moves s :=
    .of_foldlM (fun _ _ _ => trivial) run
  exact steps.inv (fun inv _ st => keep inv st) new

end Threads

/-- In every interleaving of any number of connections, with requests changing under the cache: the lock is taken
    exactly while a connection is between `lock` and `unlock`, there is one such connection at most, and every response
    sent is, up to the decision to close the connection, the one made for a request with the hash of the request it
    is sent to. -/
theorem spinLock_safe (hash : HTTPRequest → Nat) (callbacks : Bytes → Option ResponseCallback)
    (moves : List Threads.Move) (s : Threads) (run : s.Reached hash callbacks moves) :
    (s.lck = true ↔ ∃ i, (s.pc i).holds = true) ∧
    (∀ i j, (s.pc i).holds = true → (s.pc j).holds = true → i = j) ∧
    ∀ i request response, .sent i request response ∈ s.replies → ∃ origin cb, hash origin = hash request ∧
      callbacks origin.path_ = some cb ∧
      response.setCloseConnection false = (cb.run origin .new).setCloseConnection false := by
  have inv : s.Inv hash callbacks := run.inv .new fun inv st => inv.step st
  refine ⟨inv.exclusive.held, inv.exclusive.one, fun i request response mem => ?_⟩
  obtain ⟨origin, eq, cb, registered, same⟩ := inv.replied i request response mem
  exact ⟨origin, cb, eq, registered, same⟩

/-- An empty page. -/
def emptyPage : ResponseCallback where
  run _ response := { response with status_code_ := .k200Ok }
  listed _ := ⟨nofun, nofun⟩

/-- Two connections ask for the page at the same time. -/
def contention : List Threads.Move :=
  [.go 0, .go 1, .go 0, .go 1, .go 0, .go 0, .go 1, .go 0, .go 0, .go 0, .go 0, .go 1, .go 1]

/-- The second thread of two has the lock, alone. -/
theorem spinLock_safe_contention : ∃ s : Threads, s.Reached (fun _ => 0) (fun _ => some emptyPage) contention ∧
    s.pc 1 = .indexing ∧ ∀ j, (s.pc j).holds = true → j = 1 := by
  refine ⟨_, rfl, rfl, fun j holds => ?_⟩
  exact (spinLock_safe (fun _ => 0) (fun _ => some emptyPage) contention _ rfl).2.1 j 1 holds rfl

/-! ## A connection that is not disturbed -/

namespace Threads

/-- The server, with the responses in the nodes. -/
def server (callbacks : Bytes → Option ResponseCallback) (s : Threads) : HTTPServer where
  responseCallbacks_ := callbacks
  kUseRespCache := true
  cache_node_list_ := s.cache_node_list_.map fun node => ⟨node.id, node.req, s.responses node.id⟩
  req_to_cache_node_iter_ := s.req_to_cache_node_iter_
  next_node := s.next_node

/-- The server and the response that a connection is about to send. -/
def outcome (callbacks : Bytes → Option ResponseCallback) (i : ConnId) (s : Threads) :
    Option (HTTPServer × HTTPResponse) :=
  match s.pc i with
  | .sending response => some (s.server callbacks, s.responses response)
  | _ => none

/-- Every node has a number of its own. -/
structure Numbered (s : Threads) : Prop where
  own : (s.cache_node_list_.map SharedNode.id).Nodup
  below : ∀ node ∈ s.cache_node_list_, node.id < s.next_node

section Undisturbed

variable {hash : HTTPRequest → Nat} {callbacks : Bytes → Option ResponseCallback} {s s' : Threads} {i : ConnId}

/-- The empty list of nodes is numbered. -/
lemma Numbered.new : Threads.new.Numbered := ⟨List.nodup_nil, nofun⟩

/-- Moving an element to the front, where it may be already. -/
lemma splice_eq {α : Type} (key : α → Nat) {l : List α} {n : Nat} {a : α} (h : l.find? (key · = n) = some a) :
    (if l.head?.map key = some n then l else a :: l.eraseP (key · = n)) = a :: l.eraseP (key · = n) := by
  split
  case isTrue front =>
    cases l with
    | nil => cases h
    | cons b l =>
      have here : key b = n := Option.some.inj front
      rw [List.find?_cons_of_pos (by simpa using here)] at h
      cases h
      rw [List.eraseP_cons_of_pos (by simpa using here)]
  case isFalse => rfl

/-- Moving a node to the front keeps the numbers distinct. -/
lemma Numbered.index (h : s.Numbered) (st : s.index hash i = some s') : s'.Numbered := by
  obtain ⟨e, _, st⟩ := Option.bind_eq_some_iff.1 st
  obtain ⟨node, here, st⟩ := Option.bind_eq_some_iff.1 st
  cases st
  rw [splice_eq SharedNode.id here]
  have perm := perm_find_eraseP here
  exact ⟨(perm.map SharedNode.id).nodup_iff.2 h.own, fun node mem => h.below node (perm.subset mem)⟩

/-- Evicting a node keeps the numbers distinct. -/
lemma Numbered.evict (h : s.Numbered) (st : s.evict hash = some s') : s'.Numbered := by
  unfold Threads.evict at st
  split at st
  · obtain ⟨back, _, st⟩ := Option.bind_eq_some_iff.1 st
    cases st
    have sub := List.dropLast_sublist s.cache_node_list_
    exact ⟨(sub.map _).nodup h.own, fun node mem => h.below node (sub.subset mem)⟩
  · cases st
    exact h

/-- The next number is new. -/
lemma Numbered.next (h : s.Numbered) : s.next_node ∉ s.cache_node_list_.map SharedNode.id := by
  intro mem
  obtain ⟨node, mem, eq⟩ := List.mem_map.1 mem
  exact (h.below node mem).ne eq

/-- A new node gets a number that no other has. -/
lemma Numbered.add {response : HTTPResponse} (h : s.Numbered) (st : s.add hash i response = some s') :
    s'.Numbered := by
  obtain ⟨s1, evict, st⟩ := Option.bind_eq_some_iff.1 st
  cases st
  have h1 := h.evict evict
  exact ⟨List.nodup_cons.2 ⟨h1.next, h1.own⟩, List.forall_mem_cons.2
    ⟨Nat.lt_succ_self _, fun node mem => Nat.lt_succ_of_lt (h1.below node mem)⟩⟩

/-- Every move keeps the numbers distinct. -/
lemma Numbered.step {m : Move} (h : s.Numbered) (st : s.step hash callbacks m = some s') : s'.Numbered := by
  cases m with
  | parse i request =>
    cases st
    split
    · exact ⟨h.own, h.below⟩
    · exact h
  | go i =>
    unfold Threads.step advance at st
    cases at_ : s.pc i with
    | indexing =>
      simp only [at_] at st
      exact h.index st
    | adding response =>
      simp only [at_] at st
      exact h.add st
    | missed =>
      simp only [at_] at st
      obtain ⟨cb, _, st⟩ := Option.bind_eq_some_iff.1 st
      cases st
      exact ⟨h.own, h.below⟩
    | outside =>
      simp only [at_] at st
      cases st
      split
      · exact ⟨h.own, h.below⟩
      · exact h
    | locking =>
      simp only [at_] at st
      cases st
      unfold Threads.lock
      split
      · exact h
      · exact ⟨h.own, h.below⟩
    | _ =>
      simp only [at_] at st
      cases st
      exact ⟨h.own, h.below⟩

/-- Steps of one connection alone. -/
def alone (hash : HTTPRequest → Nat) (callbacks : Bytes → Option ResponseCallback) (i : ConnId) (steps : Nat)
    (s : Threads) : Option Threads :=
  (List.replicate steps (Move.go i)).foldlM (Threads.step hash callbacks) s

/-- A thread left alone takes one step and then the others. -/
lemma alone_succ {steps : Nat} :
    s.alone hash callbacks i (steps + 1) = (s.advance hash callbacks i).bind (alone hash callbacks i steps) := rfl

/-- The connection takes the lock and looks for its request. -/
lemma alone_lock {steps : Nat} (at_ : s.pc i = .locking) (free : s.lck = false) :
    s.alone hash callbacks i (steps + 2) =
      ({ s with lck := true }.goto i (if (s.findEntry hash i).isSome then .indexing else .missed)).alone
        hash callbacks i steps := by
  have first : s.advance hash callbacks i = some ({ s with lck := true }.goto i .counting) := by
    simp [advance, at_, lock, free]
  have second : ({ s with lck := true }.goto i .counting).advance hash callbacks i =
      some ({ s with lck := true }.goto i (if (s.findEntry hash i).isSome then .indexing else .missed)) := by
    simp only [advance, goto, Function.update_self, Function.update_idem]
    rfl
  rw [alone_succ, first, Option.bind_some, alone_succ, second, Option.bind_some]

/-- The connection gives the lock back and decides whether to close. -/
lemma outcome_unlock {n : Nat} {s : Threads} :
    ((s.goto i (.unlocking n)).alone hash callbacks i 2).bind (outcome callbacks i) =
      some ((s.setResponse n (HTTPServer.closes (s.requests i) (s.responses n))).server callbacks,
        HTTPServer.closes (s.requests i) (s.responses n)) := by
  have first : (s.goto i (.unlocking n)).advance hash callbacks i =
      some ({ s with lck := false }.goto i (.deciding n)) := by
    simp only [advance, unlock, goto, Function.update_self, Function.update_idem]
  have second : ({ s with lck := false }.goto i (.deciding n)).advance hash callbacks i =
      some (({ s with lck := false }.setResponse n
        (HTTPServer.closes (s.requests i) (s.responses n))).goto i (.sending n)) := by
    simp only [advance, setResponse, goto, Function.update_self, Function.update_idem]
  rw [alone_succ, first, Option.bind_some, alone_succ, second, Option.bind_some]
  simp only [alone, List.replicate_zero, List.foldlM_nil, Option.pure_def, Option.bind_some, outcome, goto, setResponse,
    Function.update_self]
  rfl

/-- A response that is in no node does not matter to the server. -/
lemma map_setResponse {n : Nat} {nodes : List SharedNode} (response : HTTPResponse)
    (own : n ∉ nodes.map SharedNode.id) :
    nodes.map (fun node => (⟨node.id, node.req, (s.setResponse n response).responses node.id⟩ : CacheNode)) =
      nodes.map fun node => ⟨node.id, node.req, s.responses node.id⟩ := by
  refine List.map_congr_left fun node mem => ?_
  have ne : node.id ≠ n := fun eq => own (List.mem_map.2 ⟨node, mem, eq⟩)
  simp only [setResponse, Function.update_of_ne ne]

/-- The decision is written to the response of the first node. -/
lemma server_front {node : SharedNode} {nodes : List SharedNode} {response : HTTPResponse}
    (list : s.cache_node_list_ = node :: nodes) (own : node.id ∉ nodes.map SharedNode.id) :
    (s.setResponse node.id response).server callbacks = (s.server callbacks).writeBack response := by
  have others := map_setResponse (s := s) response own
  simp only [setResponse] at others
  simp only [server, setResponse, list, HTTPServer.writeBack, List.map_cons, Function.update_self, others]

/-- A request that is found moves its node to the front, and goes on to unlock. -/
lemma index_eq {e : CacheEntry} (found : s.findEntry hash i = some e) :
    s.index hash i = (s.cache_node_list_.find? (·.id = e.iter)).map fun node =>
      { s with cache_node_list_ := node :: s.cache_node_list_.eraseP (·.id = e.iter) }.goto i (.unlocking node.id) := by
  simp only [index, found, Option.bind_eq_bind, Option.bind_some]
  cases here : s.cache_node_list_.find? (·.id = e.iter) with
  | none => rfl
  | some node =>
    rw [Option.bind_some, splice_eq SharedNode.id here]
    rfl

/-- A connection that finds its request. -/
lemma alone_hit {e : CacheEntry} {cb : ResponseCallback} (h : s.Numbered) (found : s.findEntry hash i = some e) :
    ((s.goto i .indexing).alone hash callbacks i 3).bind (outcome callbacks i) =
      HTTPServer.handleRequest hash s.requests (s.server callbacks) i cb := by
  have entry : (s.server callbacks).findEntry hash s.requests i = some e := found
  have nodes : (s.server callbacks).cache_node_list_.find? (·.id = e.iter) =
      (s.cache_node_list_.find? (·.id = e.iter)).map fun node => ⟨node.id, node.req, s.responses node.id⟩ := by
    rw [server, List.find?_map]
    rfl
  have step : (s.goto i .indexing).advance hash callbacks i =
      (s.cache_node_list_.find? (·.id = e.iter)).map fun node =>
        { s with cache_node_list_ := node :: s.cache_node_list_.eraseP (·.id = e.iter) }.goto i
          (.unlocking node.id) := by
    have found' : (s.goto i .indexing).findEntry hash i = some e := found
    have index : (s.goto i .indexing).advance hash callbacks i = (s.goto i .indexing).index hash i := by
      simp only [advance, goto, Function.update_self]
    rw [index, index_eq found']
    simp only [goto, Function.update_idem]
  rw [alone_succ, step]
  simp only [HTTPServer.handleRequest, HTTPServer.getRespCache, entry, nodes]
  cases here : s.cache_node_list_.find? (·.id = e.iter) with
  | none => rfl
  | some node =>
    have own : node.id ∉ (s.cache_node_list_.eraseP (·.id = e.iter)).map SharedNode.id :=
      (List.nodup_cons.1 (((perm_find_eraseP here).map SharedNode.id).nodup_iff.2 h.own)).1
    rw [Option.map_some, Option.bind_some, outcome_unlock, server_front rfl own]
    rw [here, Option.map_some] at nodes
    have front := splice_eq CacheNode.id nodes
    have enabled : (s.server callbacks).kUseRespCache = true := rfl
    have rest : (s.server callbacks).cache_node_list_.eraseP (·.id = e.iter) =
        (s.cache_node_list_.eraseP (·.id = e.iter)).map fun node => ⟨node.id, node.req, s.responses node.id⟩ := by
      rw [server, List.eraseP_map]
      rfl
    rw [rest] at front
    simp only [Option.map_some, Option.bind_eq_bind, Option.bind_some, enabled, if_true, rest, front]
    rfl

/-- Evicting from the shared list is evicting from the server's. -/
lemma evict_server :
    (s.server callbacks).evict hash s.requests = (s.evict hash).map (server callbacks) := by
  have back : (s.server callbacks).cache_node_list_.getLast? =
      s.cache_node_list_.getLast?.map fun node => ⟨node.id, node.req, s.responses node.id⟩ := by
    rw [server, List.getLast?_map]
  unfold HTTPServer.evict Threads.evict
  rw [back]
  by_cases full : s.req_to_cache_node_iter_.length ≥ HTTPServer.kMaxReqCached
  · rw [if_pos (show (s.server callbacks).req_to_cache_node_iter_.length ≥ _ from full), if_pos full]
    cases s.cache_node_list_.getLast? with
    | none => rfl
    | some node =>
      simp only [Option.map_some, Option.bind_eq_bind, Option.bind_some, server, HTTPServer.eraseEntry,
        List.map_dropLast]
  · rw [if_neg (show ¬(s.server callbacks).req_to_cache_node_iter_.length ≥ _ from full), if_neg full]
    rfl

/-- Evicting does not look at where the threads are. -/
lemma evict_goto {p : Pc} : (s.goto i p).evict hash = (s.evict hash).map (goto · i p) := by
  unfold Threads.evict
  by_cases full : s.req_to_cache_node_iter_.length ≥ HTTPServer.kMaxReqCached
  · rw [if_pos (show (s.goto i p).req_to_cache_node_iter_.length ≥ _ from full), if_pos full]
    cases e : s.cache_node_list_.getLast? with
    | none => simp [goto, e]
    | some node => simp [goto, e]
  · rw [if_neg (show ¬(s.goto i p).req_to_cache_node_iter_.length ≥ _ from full), if_neg full]
    rfl

/-- Pushing a node of a new number onto the shared list is pushing it onto the server's. -/
lemma server_push {response : HTTPResponse} (own : s.next_node ∉ s.cache_node_list_.map SharedNode.id) :
    (s.push hash i response).server callbacks =
      { s.server callbacks with
        cache_node_list_ := ⟨s.next_node, i, response⟩ :: (s.server callbacks).cache_node_list_
        req_to_cache_node_iter_ := (s.server callbacks).emplaceEntry hash s.requests i s.next_node
        next_node := s.next_node + 1 } := by
  have others := map_setResponse (s := s) response own
  simp only [setResponse] at others
  simp only [server, push, List.map_cons, Function.update_self, others, HTTPServer.emplaceEntry]
  rfl

/-- A connection that does not find its request. -/
lemma alone_miss {cb : ResponseCallback} (h : s.Numbered) (missing : s.findEntry hash i = none)
    (registered : callbacks (s.requests i).path_ = some cb) :
    ((s.goto i .missed).alone hash callbacks i 4).bind (outcome callbacks i) =
      HTTPServer.handleRequest hash s.requests (s.server callbacks) i cb := by
  have entry : (s.server callbacks).findEntry hash s.requests i = none := missing
  have first : (s.goto i .missed).advance hash callbacks i =
      some (s.goto i (.adding (cb.run (s.requests i) .new))) := by
    simp only [advance, goto, Function.update_self, Function.update_idem, registered]
    rfl
  have second : (s.goto i (.adding (cb.run (s.requests i) .new))).advance hash callbacks i =
      (s.goto i (.adding (cb.run (s.requests i) .new))).add hash i (cb.run (s.requests i) .new) := by
    simp only [advance, goto, Function.update_self]
  rw [alone_succ, first, Option.bind_some, alone_succ, second, add, evict_goto]
  simp only [HTTPServer.handleRequest, HTTPServer.getRespCache, entry, HTTPServer.addRespCache, evict_server]
  cases evict : s.evict hash with
  | none => rfl
  | some s1 =>
    obtain ⟨_, _, requests, _⟩ := evict_sub evict
    have own := (h.evict evict).next
    have place : ((s1.goto i (.adding (cb.run (s.requests i) .new))).push hash i (cb.run (s.requests i) .new)).goto i
        (.unlocking (s1.goto i (.adding (cb.run (s.requests i) .new))).next_node) =
        (s1.push hash i (cb.run (s.requests i) .new)).goto i (.unlocking s1.next_node) := by
      simp only [push, goto, Function.update_idem]
      rfl
    have response : (s1.push hash i (cb.run (s.requests i) .new)).responses s1.next_node =
        cb.run (s.requests i) .new := by
      simp only [push, Function.update_self]
    have front := @server_front callbacks (s1.push hash i (cb.run (s.requests i) .new)) ⟨s1.next_node, i⟩
      s1.cache_node_list_ (HTTPServer.closes (s.requests i) (cb.run (s.requests i) .new)) rfl own
    have enabled : (s.server callbacks).kUseRespCache = true := rfl
    have requests' : (s1.push hash i (cb.run (s.requests i) .new)).requests i = s.requests i := by
      rw [← requests]
      rfl
    simp only [Option.map_some, Option.bind_eq_bind, Option.bind_some, enabled, if_true]
    rw [place, outcome_unlock, response, requests', front, server_push own, requests]
    rfl

end Undisturbed

/-- Whatever the connections have done before: a connection that waits for the lock and finds it free does, if the
    others let it, exactly what `handleRequest` does, and is undefined where that is. -/
theorem undisturbed_handleRequest (hash : HTTPRequest → Nat) (callbacks : Bytes → Option ResponseCallback)
    (moves : List Move) (s : Threads) (run : s.Reached hash callbacks moves) (i : ConnId) (cb : ResponseCallback)
    (waits : s.pc i = .locking) (free : s.lck = false) (registered : callbacks (s.requests i).path_ = some cb) :
    (s.alone hash callbacks i (if (s.findEntry hash i).isSome then 5 else 6)).bind (outcome callbacks i) =
      HTTPServer.handleRequest hash s.requests (s.server callbacks) i cb := by
  have numbered : s.Numbered := run.inv .new fun h st => h.step st
  have numbered' : { s with lck := true }.Numbered := ⟨numbered.own, numbered.below⟩
  cases found : s.findEntry hash i with
  | none =>
    rw [Option.isSome_none, if_neg Bool.false_ne_true, alone_lock waits free, found]
    exact alone_miss numbered' found registered
  | some e =>
    rw [Option.isSome_some, if_pos rfl, alone_lock waits free, found]
    exact alone_hit numbered' found

/-- The first request of a server, handled alone. -/
theorem undisturbed_handleRequest_first :
    ∃ s : Threads, s.Reached (fun _ => 0) (fun _ => some emptyPage) [.go 0] ∧
      (s.alone (fun _ => 0) (fun _ => some emptyPage) 0 6).bind (outcome (fun _ => some emptyPage) 0) =
        HTTPServer.handleRequest (fun _ => 0) s.requests (s.server fun _ => some emptyPage) 0 emptyPage :=
  ⟨_, rfl, undisturbed_handleRequest (fun _ => 0) (fun _ => some emptyPage) [.go 0] _ rfl 0 emptyPage rfl rfl rfl⟩

end Threads

end WebServer.Http
