import WebServer.Http.Cache
import WebServer.Lib.Lru

/-!
# The cache is an LRU map

`getRespCache` and `addRespCache` on their own, used as `connectionOnRead` uses them: a lookup, and after
a miss an add of the same request. `Usage` is the server with the request objects and with what has been
done to the cache so far: the requests looked up and the responses added. Between lookups the request
objects change, but not those the cache has stored (`Usage.Allowed`).

`cache_is_lru` compares the cache with the history: the list has the most recently looked-up requests in
order, a lookup hits if the request is among them, and a hit returns the response last added for it.
-/

namespace WebServer.Http

open Net Lib

/-- The cache in use. `looked` has the requests looked up, the last one last, and `added` the responses
    added, the last one first. -/
structure Usage where
  server : HTTPServer
  heap : ConnId → HTTPRequest
  looked : List HTTPRequest
  added : List (HTTPRequest × HTTPResponse)

/-- What happens between two lookups, and a lookup. -/
inductive CacheOp where
  /-- The request object `self` changes. -/
  | assign (self : ConnId) (request : HTTPRequest)
  /-- The request `self` is looked up, with the response to add if it is not there. -/
  | lookup (self : ConnId) (response : HTTPResponse)

namespace Usage

variable (hash : HTTPRequest → Nat)

def new (callbacks : Bytes → Option ResponseCallback) (use : Bool) (heap : ConnId → HTTPRequest) :
    Usage where
  server := .new callbacks use
  heap := heap
  looked := []
  added := []

/-- A lookup, followed by an add if it misses; the result is the response of a hit. -/
def lookup (s : Usage) (self : ConnId) (response : HTTPResponse) :
    Option (Usage × Option HTTPResponse) := do
  match ← s.server.getRespCache hash s.heap self with
  | some (server, found) =>
    some ({ s with server, looked := s.looked ++ [s.heap self] }, some found)
  | none =>
    let server ← s.server.addRespCache hash s.heap self response
    some ({ s with
      server
      looked := s.looked ++ [s.heap self]
      added := (s.heap self, response) :: s.added }, none)

def step (s : Usage) : CacheOp → Option Usage
  | .assign self request => some { s with heap := Function.update s.heap self request }
  | .lookup self response => (s.lookup hash self response).map Prod.fst

/-- A request object that the cache has stored is not changed, and a request looked up has a hash of its
    own among those looked up. -/
def Allowed (s : Usage) : CacheOp → Prop
  | .assign self request => (∃ node ∈ s.server.cache_node_list_, node.req = self) → request = s.heap self
  | .lookup self _ => ∀ request ∈ s.looked, hash request = hash (s.heap self) → request = s.heap self

/-- The requests of the list, in its order. -/
def requests (s : Usage) : List HTTPRequest := s.server.cache_node_list_.map fun node => s.heap node.req

/-- The most recently looked-up requests that fit. -/
def recents (s : Usage) : List HTTPRequest := (recent s.looked).take HTTPServer.kMaxReqCached

/-- The cache agrees with its history. -/
structure Inv (s : Usage) : Prop where
  cache : CacheInv hash s.heap s.server
  order : s.requests = s.recents
  responses : ∀ node ∈ s.server.cache_node_list_, s.added.lookup (s.heap node.req) = some node.resp

variable {hash} {s s' : Usage} {self : ConnId} {response : HTTPResponse} {request : HTTPRequest}

/-- The recently used requests are distinct. -/
lemma recents_nodup : s.recents.Nodup := recent_nodup.sublist (List.take_sublist _ _)

/-- The request of every node in the list was looked up. -/
lemma Inv.looked (inv : s.Inv hash) {node : CacheNode} (mem : node ∈ s.server.cache_node_list_) :
    s.heap node.req ∈ s.looked := by
  have hr : s.heap node.req ∈ s.recents := by
    rw [← inv.order]
    exact List.mem_map_of_mem mem
  exact mem_recent.1 (List.mem_of_mem_take hr)

/-- The node of the entry that is found holds the request looked up. -/
lemma Inv.hit (inv : s.Inv hash) (own : s.Allowed hash (.lookup self response)) {e : CacheEntry}
    (hf : s.server.findEntry hash s.heap self = some e) {node : CacheNode}
    (mem : node ∈ s.server.cache_node_list_) (id : node.id = e.iter) : s.heap node.req = s.heap self := by
  have key := List.find?_some hf
  simp only [HTTPServer.matchesKey, decide_eq_true_eq] at key
  -- the entry designates one node only
  have pair := inv.cache.same.subset (List.mem_map_of_mem (List.mem_of_find?_eq_some hf))
  obtain ⟨node', mem', eq⟩ := List.mem_map.1 pair
  obtain ⟨er, ei⟩ := Prod.mk.inj eq
  have same : node = node' := List.inj_on_of_nodup_map inv.cache.ids mem mem' (id.trans ei.symm)
  rw [← same] at er
  refine own _ (inv.looked mem) ?_
  rw [er]
  exact key.2

/-- A request that is not found is not in the list. -/
lemma Inv.miss (inv : s.Inv hash) (hf : s.server.findEntry hash s.heap self = none) {node : CacheNode}
    (mem : node ∈ s.server.cache_node_list_) : s.heap node.req ≠ s.heap self := by
  intro eq
  obtain ⟨e, he, hk, _⟩ := inv.cache.entry mem
  have stored := inv.cache.stored e he
  refine List.find?_eq_none.1 hf e he ?_
  simp only [HTTPServer.matchesKey, decide_eq_true_eq]
  rw [stored, hk, eq]
  exact ⟨rfl, rfl⟩

/-- Taking a node out of the list takes its request out of the requests. -/
lemma map_eraseP_id {f : CacheNode → HTTPRequest} {nodes : List CacheNode} {node : CacheNode}
    (mem : node ∈ nodes) (ids : (nodes.map CacheNode.id).Nodup) (distinct : (nodes.map f).Nodup) :
    (nodes.eraseP (·.id = node.id)).map f = (nodes.map f).erase (f node) := by
  induction nodes with
  | nil => cases mem
  | cons x xs ih =>
    rw [List.map_cons, List.nodup_cons] at ids distinct
    rcases List.mem_cons.1 mem with rfl | mem
    · rw [List.eraseP_cons_of_pos (by simp), List.map_cons, List.erase_cons_head]
    · have hid : ¬x.id = node.id := fun eq => ids.1 (eq ▸ List.mem_map_of_mem mem)
      have hf : f x ≠ f node := fun eq => distinct.1 (eq ▸ List.mem_map_of_mem mem)
      rw [List.eraseP_cons_of_neg (by simpa using hid), List.map_cons, List.map_cons,
        List.erase_cons_tail (by simpa using hf), ih mem ids.2 distinct.2]

/-- The invariant holds of a cache just built. -/
lemma Inv.new (callbacks : Bytes → Option ResponseCallback) (use : Bool)
    (heap : ConnId → HTTPRequest) : (Usage.new callbacks use heap).Inv hash :=
  ⟨.new callbacks use, rfl, nofun⟩

/-- A change to a request object that is not stored. -/
lemma Inv.assign (inv : s.Inv hash) (allowed : s.Allowed hash (.assign self request)) :
    ({ s with heap := Function.update s.heap self request } : Usage).Inv hash := by
  have kept : ∀ node ∈ s.server.cache_node_list_,
      Function.update s.heap self request node.req = s.heap node.req := by
    intro node mem
    by_cases e : node.req = self
    · rw [e, Function.update_self, allowed ⟨node, mem, e⟩]
    · rw [Function.update_of_ne e]
  refine ⟨inv.cache.update fun h => congrArg hash (allowed h), ?_, ?_⟩
  · refine Eq.trans (List.map_congr_left fun node mem => ?_) inv.order
    exact kept node mem
  · intro node mem
    show s.added.lookup (Function.update s.heap self request node.req) = _
    rw [kept node mem]
    exact inv.responses node mem

/-- A hit: the node goes to the front of the list, its request to the front of the history. -/
lemma Inv.lookup_hit (inv : s.Inv hash) (own : s.Allowed hash (.lookup self response)) {e : CacheEntry}
    (hf : s.server.findEntry hash s.heap self = some e) :
    ∃ s' found, s.lookup hash self response = some (s', some found) ∧ s'.Inv hash ∧
      s.heap self ∈ s.recents ∧ s.added.lookup (s.heap self) = some found := by
  obtain ⟨node, get, mem, id, perm⟩ := getRespCache_hit inv.cache.corresponds.designates hf
  have same := inv.hit own hf mem id
  have hr : s.heap self ∈ s.recents := by
    rw [← inv.order, ← same]
    exact List.mem_map_of_mem mem
  have distinct : s.requests.Nodup := by
    rw [inv.order]
    exact recents_nodup
  refine ⟨_, node.resp, by rw [lookup, get]; rfl, ⟨?_, ?_, ?_⟩, hr, ?_⟩
  · exact inv.cache.reorder (perm.map _)
  · show s.heap node.req :: List.map _ _ = (recent (s.looked ++ [s.heap self])).take _
    rw [take_recent_hit hr, ← id, map_eraseP_id mem inv.cache.ids distinct, ← same]
    exact congrArg _ (congrArg (List.erase · _) inv.order)
  · intro node' mem'
    exact inv.responses node' (perm.subset mem')
  · rw [← same]
    exact inv.responses node mem

/-- A miss: the request is put at the front, and the last one goes when as many have been looked up as
    fit. -/
lemma Inv.lookup_miss (inv : s.Inv hash) (hf : s.server.findEntry hash s.heap self = none) :
    ∃ s', s.lookup hash self response = some (s', none) ∧ s'.Inv hash ∧ s.heap self ∉ s.recents := by
  have nr : s.heap self ∉ s.recents := by
    rw [← inv.order]
    intro hr
    obtain ⟨node, mem, eq⟩ := List.mem_map.1 hr
    exact inv.miss hf mem eq
  obtain ⟨server, id, add, nodes⟩ :
    ∃ server id, s.server.addRespCache hash s.heap self response = some server ∧ _ :=
      addRespCache_nodes inv.cache.corresponds.designates
  have value : s.lookup hash self response = some ({ s with
      server, looked := s.looked ++ [s.heap self], added := (s.heap self, response) :: s.added },
      none) := by
    rw [lookup, getRespCache_miss hf]
    simp only [Option.bind_eq_bind, Option.bind_some, add]
  refine ⟨_, value, ⟨inv.cache.addRespCache hf add, ?_, ?_⟩, nr⟩
  · have len : s.recents.length = s.server.req_to_cache_node_iter_.length := by
      rw [← inv.order, ← inv.cache.corresponds.sizes]
      exact List.length_map _
    show List.map _ server.cache_node_list_ = (recent (s.looked ++ [s.heap self])).take _
    rw [take_recent_miss (by decide) nr, nodes]
    show s.heap self :: List.map _ _
      = s.heap self :: if _ ≤ s.recents.length then s.recents.dropLast else s.recents
    rw [len, ← inv.order]
    split
    · rw [requests, List.map_dropLast]
    · rfl
  · intro node mem
    show List.lookup (s.heap node.req) ((s.heap self, response) :: s.added) = _
    rw [nodes] at mem
    rcases List.mem_cons.1 mem with rfl | mem
    · exact List.lookup_cons_self
    · have old : node ∈ s.server.cache_node_list_ := by
        split at mem
        · exact List.mem_of_mem_dropLast mem
        · exact mem
      rw [List.lookup_cons, beq_false_of_ne (inv.miss hf old)]
      exact inv.responses node old

/-- Every allowed operation keeps the invariant. -/
lemma Inv.step (inv : s.Inv hash) {op : CacheOp} (allowed : s.Allowed hash op)
    (st : s.step hash op = some s') : s'.Inv hash := by
  cases op with
  | assign self request =>
    cases st
    exact inv.assign allowed
  | lookup self response =>
    obtain ⟨⟨_, result⟩, e, rfl⟩ := Option.map_eq_some_iff.1 st
    cases hf : s.server.findEntry hash s.heap self with
    | some e' =>
      obtain ⟨s1, found, e1, inv1, _⟩ := inv.lookup_hit allowed hf
      cases e.symm.trans e1
      exact inv1
    | none =>
      obtain ⟨s1, e1, inv1, _⟩ := inv.lookup_miss hf
      cases e.symm.trans e1
      exact inv1

/-- What the next lookup finds. -/
lemma Inv.next (inv : s.Inv hash) (own : s.Allowed hash (.lookup self response)) :
    ∃ s' result, s.lookup hash self response = some (s', result) ∧
      (result.isSome = true ↔ s.heap self ∈ s.recents) ∧
      ∀ found, result = some found → s.added.lookup (s.heap self) = some found := by
  cases hf : s.server.findEntry hash s.heap self with
  | some e =>
    obtain ⟨s', found, e', _, hr, added⟩ := inv.lookup_hit own hf
    refine ⟨s', some found, e', iff_of_true rfl hr, fun found' eq => ?_⟩
    rw [← eq]
    exact added
  | none =>
    obtain ⟨s', e', _, nr⟩ := inv.lookup_miss hf
    exact ⟨s', none, e', iff_of_false (by simp) nr, nofun⟩

end Usage

/-- In every run of lookups, with misses followed by an add of the same request, in which stored request
    objects do not change and the requests looked up have distinct hashes: the list has the
    `kMaxReqCached` most recently looked-up distinct requests in order, list and map hold the same
    entries, and the next lookup hits if and only if the request is one of these, with the response last
    added for it. -/
theorem cache_is_lru (hash : HTTPRequest → Nat) (callbacks : Bytes → Option ResponseCallback) (use : Bool)
    (heap : ConnId → HTTPRequest) (ops : List CacheOp) (s : Usage)
    (run : Steps (Usage.Allowed hash) (Usage.step hash) (.new callbacks use heap) ops s) :
    s.requests = (recent s.looked).take HTTPServer.kMaxReqCached ∧ s.requests.Nodup ∧
    Corresponds hash s.heap s.server ∧
    ∀ self response, s.Allowed hash (.lookup self response) →
      ∃ s' result, s.lookup hash self response = some (s', result) ∧
        (result.isSome = true ↔ s.heap self ∈ (recent s.looked).take HTTPServer.kMaxReqCached) ∧
        ∀ found, result = some found → s.added.lookup (s.heap self) = some found := by
  have inv : s.Inv hash :=
    run.inv (fun inv allowed st => inv.step allowed st) (.new callbacks use heap)
  refine ⟨inv.order, ?_, inv.cache.corresponds, fun self response own => inv.next own⟩
  rw [inv.order]
  exact Usage.recents_nodup

/-- Two request objects with the same request: the second one hits. -/
theorem cache_is_lru_two_objects :
    ∃ s s' : Usage,
      Steps (Usage.Allowed fun _ => 0) (Usage.step fun _ => 0)
        (.new (fun _ => none) true fun _ => .new) [.lookup 0 HTTPServer.not_found_resp_] s ∧
      s.lookup (fun _ => 0) 1 .new = some (s', some HTTPServer.not_found_resp_) := by
  have run : Steps (Usage.Allowed fun _ => 0) (Usage.step fun _ => 0)
      (.new (fun _ => none) true fun _ => .new) [.lookup 0 HTTPServer.not_found_resp_] _ :=
    .cons nofun rfl .nil
  obtain ⟨_, _, _, next⟩ := cache_is_lru _ _ _ _ _ _ run
  obtain ⟨s', result, e, hit, response⟩ := next 1 .new fun request mem _ => List.mem_singleton.1 mem
  have found : result.isSome = true := hit.2 (by decide)
  obtain ⟨r, rfl⟩ := Option.isSome_iff_exists.1 found
  have added := response r rfl
  refine ⟨_, s', run, ?_⟩
  rw [e, ← added]
  rfl

end WebServer.Http
