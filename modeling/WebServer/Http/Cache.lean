import WebServer.Http.Pipeline

/-!
# The response cache

The list of cache nodes and the map from requests to list iterators. `Corresponds` says that they are in
one-to-one correspondence. The key of an entry is the request object of a connection: when the parser
changes it, the hash stored with the entry no longer is that of the key, and the entry cannot be found
again. `cache_corresponds` says that this is the only way to break the correspondence: it holds in every
run of the server in which no request object that is a key of the cache changes its hash.
-/

namespace WebServer.Http

open Net Lib LawfulBuffer TCPConnection

/-- The list and the map are in one-to-one correspondence. -/
structure Corresponds (hash : HTTPRequest → Nat) (heap : ConnId → HTTPRequest) (srv : HTTPServer) :
    Prop where
  /-- Looking up the request of a node finds the entry of that node. -/
  found : ∀ node ∈ srv.cache_node_list_,
    (srv.findEntry hash heap node.req).map CacheEntry.iter = some node.id
  /-- The iterator of an entry designates a node of the list. -/
  designates : ∀ e ∈ srv.req_to_cache_node_iter_, ∃ node ∈ srv.cache_node_list_, node.id = e.iter
  sizes : srv.cache_node_list_.length = srv.req_to_cache_node_iter_.length
  bound : srv.req_to_cache_node_iter_.length ≤ HTTPServer.kMaxReqCached

/-- The invariant: the stored hashes are current and distinct, and entries and nodes are the same up to
    their order. -/
structure CacheInv (hash : HTTPRequest → Nat) (heap : ConnId → HTTPRequest) (srv : HTTPServer) :
    Prop where
  stored : ∀ e ∈ srv.req_to_cache_node_iter_, e.hash = hash (heap e.key)
  distinct : (srv.req_to_cache_node_iter_.map CacheEntry.hash).Nodup
  same : (srv.req_to_cache_node_iter_.map fun e => (e.key, e.iter)).Perm
    (srv.cache_node_list_.map fun node => (node.req, node.id))
  ids : (srv.cache_node_list_.map CacheNode.id).Nodup
  fresh : ∀ node ∈ srv.cache_node_list_, node.id < srv.next_node
  bound : srv.req_to_cache_node_iter_.length ≤ HTTPServer.kMaxReqCached

/-- The element found goes to the front. -/
lemma perm_find_eraseP {α : Type} {l : List α} {p : α → Bool} {a : α} (h : l.find? p = some a) :
    (a :: l.eraseP p).Perm l := by
  induction l with
  | nil => cases h
  | cons x xs ih =>
    cases hx : p x with
    | true =>
      rw [List.find?_cons_of_pos hx] at h
      cases h
      rw [List.eraseP_cons_of_pos hx]
    | false =>
      rw [List.find?_cons_of_neg (by simp [hx])] at h
      rw [List.eraseP_cons_of_neg (by simp [hx])]
      exact (List.Perm.swap x a _).trans ((ih h).cons x)

section Lookup

variable {hash : HTTPRequest → Nat} {heap : ConnId → HTTPRequest} {srv : HTTPServer} {self : ConnId}

/-- When no entry of the map equals the request, `getRespCache` finds nothing. -/
lemma getRespCache_miss (hf : srv.findEntry hash heap self = none) :
    srv.getRespCache hash heap self = some none := by
  unfold HTTPServer.getRespCache
  rw [hf]

variable (designates : ∀ e ∈ srv.req_to_cache_node_iter_, ∃ node ∈ srv.cache_node_list_, node.id = e.iter)
include designates

/-- If no iterator dangles, a hit finds the node of the entry and moves it to the front. -/
lemma getRespCache_hit {e : CacheEntry} (hf : srv.findEntry hash heap self = some e) :
    ∃ node, srv.getRespCache hash heap self = some (some ({ srv with
        cache_node_list_ := node :: srv.cache_node_list_.eraseP (·.id = e.iter) }, node.resp)) ∧
      node ∈ srv.cache_node_list_ ∧ node.id = e.iter ∧
      (node :: srv.cache_node_list_.eraseP (·.id = e.iter)).Perm srv.cache_node_list_ := by
  obtain ⟨n, hn, hid⟩ := designates e (List.mem_of_find?_eq_some hf)
  obtain ⟨node, hnode⟩ := Option.isSome_iff_exists.1
    (List.find?_isSome.2 ⟨n, hn, by simpa using hid⟩ :
      (srv.cache_node_list_.find? fun node => node.id = e.iter).isSome = true)
  have id : node.id = e.iter := by simpa using List.find?_some hnode
  refine ⟨node, ?_, List.mem_of_find?_eq_some hnode, id, perm_find_eraseP hnode⟩
  unfold HTTPServer.getRespCache
  simp only [hf, hnode, Option.bind_eq_bind, Option.bind_some]
  split
  case isTrue first =>
    -- the first node has the number looked for, so it is the one found
    cases hl : srv.cache_node_list_ with
    | nil => simp [hl] at first
    | cons front nodes =>
      rw [hl, List.head?_cons, Option.map_some, Option.some.injEq] at first
      rw [hl, List.find?_cons_of_pos (by simpa using first)] at hnode
      cases hnode
      rw [List.eraseP_cons_of_pos (by simpa using first)]
  case isFalse => rfl

/-- If no iterator dangles, there is a node to evict from a full cache. -/
lemma getLast?_of_full (full : srv.req_to_cache_node_iter_.length ≥ HTTPServer.kMaxReqCached) :
    ∃ back, srv.cache_node_list_.getLast? = some back := by
  obtain ⟨e, he⟩ := List.exists_mem_of_length_pos (Nat.lt_of_lt_of_le (by decide) full)
  obtain ⟨node, hn, _⟩ := designates e he
  exact Option.isSome_iff_exists.1 (List.getLast?_isSome.2 (List.ne_nil_of_mem hn))

/-- If no iterator dangles, evicting is defined and takes the last node from a full cache. -/
lemma evict_nodes : ∃ srv1, srv.evict hash heap = some srv1 ∧ srv1.cache_node_list_ =
    if HTTPServer.kMaxReqCached ≤ srv.req_to_cache_node_iter_.length then srv.cache_node_list_.dropLast
    else srv.cache_node_list_ := by
  unfold HTTPServer.evict
  split
  case isTrue full =>
    obtain ⟨back, hb⟩ := getLast?_of_full designates full
    rw [hb]
    exact ⟨_, rfl, rfl⟩
  case isFalse => exact ⟨srv, rfl, rfl⟩

/-- `addRespCache` puts the new node in front, and drops the last node when the map is full. -/
lemma addRespCache_nodes {resp : HTTPResponse} :
    ∃ srv1 id, srv.addRespCache hash heap self resp = some srv1 ∧ srv1.cache_node_list_ =
      ⟨id, self, resp⟩ :: if HTTPServer.kMaxReqCached ≤ srv.req_to_cache_node_iter_.length then
          srv.cache_node_list_.dropLast
        else srv.cache_node_list_ := by
  obtain ⟨srv1, evicted, nodes⟩ : ∃ srv1, srv.evict hash heap = some srv1 ∧ _ := evict_nodes designates
  rw [HTTPServer.addRespCache, evicted, ← nodes]
  exact ⟨_, _, rfl, rfl⟩

end Lookup

namespace CacheInv

variable {hash : HTTPRequest → Nat} {heap : ConnId → HTTPRequest} {srv srv' : HTTPServer}
  {req : ConnId} {resp : HTTPResponse}

/-- The entry with a given key is the one that is found. -/
lemma findEntry (inv : CacheInv hash heap srv) {e : CacheEntry}
    (he : e ∈ srv.req_to_cache_node_iter_) : srv.findEntry hash heap e.key = some e := by
  have hm : HTTPServer.matchesKey hash heap e.key e = true := by
    simpa [HTTPServer.matchesKey] using inv.stored e he
  obtain ⟨e', h'⟩ := Option.isSome_iff_exists.1
    (List.find?_isSome.2 ⟨e, he, hm⟩ : (srv.findEntry hash heap e.key).isSome = true)
  have k' := List.find?_some h'
  simp only [HTTPServer.matchesKey, decide_eq_true_eq] at k'
  have eq : e' = e := List.inj_on_of_nodup_map inv.distinct (List.mem_of_find?_eq_some h') he
    (k'.1.trans (inv.stored e he).symm)
  rw [← eq]
  exact eq ▸ h'

/-- The entry of a node. -/
lemma entry (inv : CacheInv hash heap srv) {node : CacheNode} (hn : node ∈ srv.cache_node_list_) :
    ∃ e ∈ srv.req_to_cache_node_iter_, e.key = node.req ∧ e.iter = node.id := by
  have := inv.same.symm.subset (List.mem_map_of_mem hn)
  obtain ⟨e, he, eq⟩ := List.mem_map.1 this
  exact ⟨e, he, (Prod.mk.inj eq).1, (Prod.mk.inj eq).2⟩

/-- The invariant of the cache gives the correspondence of map and list. -/
lemma corresponds (inv : CacheInv hash heap srv) : Corresponds hash heap srv where
  found node hn := by
    obtain ⟨e, he, hk, hi⟩ := inv.entry hn
    rw [← hk, inv.findEntry he, Option.map_some, hi]
  designates e he := by
    have := inv.same.subset (List.mem_map_of_mem he)
    obtain ⟨node, hn, eq⟩ := List.mem_map.1 this
    exact ⟨node, hn, (Prod.mk.inj eq).2⟩
  sizes := by simpa using inv.same.length_eq.symm
  bound := inv.bound

/-- The invariant holds of a server just built. -/
lemma new (callbacks : Bytes → Option ResponseCallback) (use : Bool) :
    CacheInv hash heap (.new callbacks use) :=
  ⟨by simp [HTTPServer.new], by simp [HTTPServer.new], by simp [HTTPServer.new],
    by simp [HTTPServer.new], by simp [HTTPServer.new], by simp [HTTPServer.new]⟩

/-- Request objects may change as long as no key changes its hash. -/
lemma update (inv : CacheInv hash heap srv) {self : ConnId} {r : HTTPRequest}
    (keeps : (∃ node ∈ srv.cache_node_list_, node.req = self) → hash r = hash (heap self)) :
    CacheInv hash (Function.update heap self r) srv := by
  refine ⟨fun e he => ?_, inv.distinct, inv.same, inv.ids, inv.fresh, inv.bound⟩
  by_cases hk : e.key = self
  · have := inv.same.subset (List.mem_map_of_mem he)
    obtain ⟨node, hn, eq⟩ := List.mem_map.1 this
    have hs := keeps ⟨node, hn, (Prod.mk.inj eq).1.trans hk⟩
    rw [hk, Function.update_self, hs, ← hk]
    exact inv.stored e he
  · rw [Function.update_of_ne hk]
    exact inv.stored e he

/-- The nodes may come in any order and with any responses. -/
lemma reorder (inv : CacheInv hash heap srv) {nodes : List CacheNode}
    (perm : (nodes.map fun node => (node.req, node.id)).Perm
      (srv.cache_node_list_.map fun node => (node.req, node.id))) :
    CacheInv hash heap { srv with cache_node_list_ := nodes } where
  stored := inv.stored
  distinct := inv.distinct
  same := inv.same.trans perm.symm
  ids := by
    have p2 := perm.map Prod.snd
    simp only [List.map_map] at p2
    exact p2.nodup_iff.2 inv.ids
  fresh node hn := by
    obtain ⟨node', hn', eq⟩ := List.mem_map.1 (perm.subset (List.mem_map_of_mem hn))
    have := inv.fresh node' hn'
    rwa [(Prod.mk.inj eq).2] at this
  bound := inv.bound

/-- Writing a response back to its node keeps the invariant. -/
lemma writeBack (inv : CacheInv hash heap srv) : CacheInv hash heap (srv.writeBack resp) := by
  unfold HTTPServer.writeBack
  split
  · exact inv
  case h_2 node nodes e =>
    apply inv.reorder
    rw [e]
    exact .refl _

/-- A hit moves a node to the front. -/
lemma getRespCache (inv : CacheInv hash heap srv)
    (h : srv.getRespCache hash heap req = some (some (srv', resp))) : CacheInv hash heap srv' := by
  unfold HTTPServer.getRespCache at h
  cases hf : srv.findEntry hash heap req with
  | none => simp [hf] at h
  | some e =>
    simp only [hf] at h
    obtain ⟨node, hn, h⟩ := Option.bind_eq_some_iff.1 h
    cases h
    apply inv.reorder
    split
    · exact .refl _
    · exact (perm_find_eraseP hn).map _

/-- Evicting removes the last node and its entry. -/
lemma evict (inv : CacheInv hash heap srv) (h : srv.evict hash heap = some srv') :
    CacheInv hash heap srv' ∧ srv'.req_to_cache_node_iter_.length < HTTPServer.kMaxReqCached ∧
      srv'.next_node = srv.next_node ∧
      srv'.req_to_cache_node_iter_.Sublist srv.req_to_cache_node_iter_ := by
  unfold HTTPServer.evict at h
  split at h
  case isTrue full =>
    obtain ⟨back, hb, h⟩ := Option.bind_eq_some_iff.1 h
    cases h
    have hmem := List.mem_of_getLast? hb
    -- erasing by the key of the last node finds that node's own entry
    obtain ⟨e, he, hk, hi⟩ := inv.entry hmem
    have sub : (srv.eraseEntry hash heap back.req).Sublist srv.req_to_cache_node_iter_ :=
      List.eraseP_sublist
    have perm : (e :: srv.eraseEntry hash heap back.req).Perm srv.req_to_cache_node_iter_ := by
      apply perm_find_eraseP
      rw [← hk]
      exact inv.findEntry he
    have last : srv.cache_node_list_.dropLast ++ [back] = srv.cache_node_list_ :=
      List.dropLast_append_getLast? back hb
    refine ⟨⟨fun e' he' => inv.stored e' (sub.subset he'), ?_, ?_, ?_, ?_, ?_⟩, ?_, rfl, sub⟩
    · exact (sub.map _).nodup inv.distinct
    · -- both lists lose the pair of the last node
      have whole := (perm.map fun e => (e.key, e.iter)).trans inv.same
      rw [← last, List.map_append, List.map_cons, hk, hi] at whole
      exact (whole.trans List.perm_append_comm).cons_inv
    · exact (List.dropLast_sublist _ |>.map _).nodup inv.ids
    · exact fun node hn => inv.fresh node (List.dropLast_sublist _ |>.subset hn)
    · exact sub.length_le.trans inv.bound
    · have := perm.length_eq
      have := inv.bound
      simp only [List.length_cons] at *
      omega
  case isFalse space =>
    cases h
    exact ⟨inv, by omega, rfl, .refl _⟩

/-- Adding a request that was not found. -/
lemma addRespCache (inv : CacheInv hash heap srv) (miss : srv.findEntry hash heap req = none)
    (h : srv.addRespCache hash heap req resp = some srv') : CacheInv hash heap srv' := by
  unfold HTTPServer.addRespCache at h
  obtain ⟨srv1, e1, h⟩ := Option.bind_eq_some_iff.1 h
  cases h
  obtain ⟨inv1, space, _, sub⟩ := inv.evict e1
  -- the hash of the new request is not stored
  have other : ∀ e ∈ srv1.req_to_cache_node_iter_, e.hash ≠ hash (heap req) := by
    intro e he eq
    have nm := List.find?_eq_none.1 miss e (sub.subset he)
    have hs := inv.stored e (sub.subset he)
    simp [HTTPServer.matchesKey, eq, ← hs] at nm
  have miss1 : srv1.findEntry hash heap req = none := by
    refine List.find?_eq_none.2 fun e he => ?_
    simp [HTTPServer.matchesKey, other e he]
  have entries : srv1.emplaceEntry hash heap req srv1.next_node
      = ⟨hash (heap req), req, srv1.next_node⟩ :: srv1.req_to_cache_node_iter_ := by
    simp [HTTPServer.emplaceEntry, miss1]
  refine ⟨?_, ?_, ?_, ?_, ?_, ?_⟩
  · simp only [entries, List.mem_cons]
    rintro e (rfl | he)
    · rfl
    · exact inv1.stored e he
  · simp only [entries, List.map_cons, List.nodup_cons]
    refine ⟨fun hm => ?_, inv1.distinct⟩
    obtain ⟨e, he, eq⟩ := List.mem_map.1 hm
    exact other e he eq
  · simp only [entries, List.map_cons]
    exact inv1.same.cons _
  · simp only [List.map_cons, List.nodup_cons]
    refine ⟨fun hm => ?_, inv1.ids⟩
    obtain ⟨node, hn, eq⟩ := List.mem_map.1 hm
    have := inv1.fresh node hn
    omega
  · simp only [List.mem_cons]
    rintro node (rfl | hn)
    · exact Nat.lt_succ_self _
    · exact Nat.lt_succ_of_lt (inv1.fresh node hn)
  · simp only [entries, List.length_cons]
    exact space

/-- A whole handled request keeps the invariant. -/
lemma handleRequest (inv : CacheInv hash heap srv) {self : ConnId} {cb : ResponseCallback}
    (h : srv.handleRequest hash heap self cb = some (srv', resp)) : CacheInv hash heap srv' := by
  unfold HTTPServer.handleRequest at h
  split at h
  · obtain ⟨hit, eh, h⟩ := Option.bind_eq_some_iff.1 h
    cases hit with
    | some sr =>
      cases h
      exact (inv.getRespCache eh).writeBack
    | none =>
      obtain ⟨srv1, e1, h⟩ := Option.bind_eq_some_iff.1 h
      cases h
      refine (inv.addRespCache ?_ e1).writeBack
      unfold HTTPServer.getRespCache at eh
      cases hf : srv.findEntry hash heap self with
      | none => rfl
      | some e =>
        simp only [hf] at eh
        obtain ⟨_, _, eh⟩ := Option.bind_eq_some_iff.1 eh
        cases eh
  · cases h
    exact inv

/-- The response is found with the request as the parser left it. -/
lemma respond (inv : CacheInv hash heap srv) {self : ConnId} {ok : Bool} {ctx : HTTPContext}
    {up : Upper} {response : Option HTTPResponse}
    (keeps : (∃ node ∈ srv.cache_node_list_, node.req = self) →
      hash ctx.request_ = hash (heap self))
    (h : respond hash heap self ok ⟨ctx, srv⟩ = some (up, response)) :
    up.context.request_ = ctx.request_ ∧
      CacheInv hash (Function.update heap self ctx.request_) up.server := by
  have inv' := inv.update keeps
  unfold Http.respond at h
  split at h
  · simp only at h
    split at h
    · obtain ⟨⟨srv1, resp1⟩, e1, h⟩ := Option.bind_eq_some_iff.1 h
      cases h
      exact ⟨rfl, inv'.handleRequest e1⟩
    · cases h
      exact ⟨rfl, inv'⟩
  · split at h
    · cases h
      exact ⟨rfl, inv'⟩
    · cases h
      exact ⟨rfl, inv'⟩

end CacheInv

namespace World

variable {B I : Type} [BufferType B I] [LawfulBuffer B I] {hash : HTTPRequest → Nat}

/-- If the request object of the connection is a key of the cache, the bytes that this event lets it read
    do not change the hash of the object. -/
def KeepsKey (hash : HTTPRequest → Nat) (world : World B) (e : Event) : Prop :=
  let c := world.conns e.conn
  let bs := (sysw.read (capacity c.in_buffer_) e.r).2
  (∃ node ∈ world.server.cache_node_list_, node.req = e.conn) →
    ∀ revents, c.poll e.ready = some revents →
    revents.meets (POLLIN ||| POLLRDHUP ||| POLLPRI) = true → bs ≠ [] →
    ∀ ok ctx rest, Parses c.context_ (unread c.in_buffer_ ++ bs) ok ctx rest →
      hash ctx.request_ = hash c.context_.request_

/-- The invariant of the world. -/
def CacheSound (hash : HTTPRequest → Nat) (world : World B) : Prop :=
  (∀ id, (world.conns id).Sound) ∧ CacheInv hash world.heap world.server

/-- Updating a connection updates its request on the heap, and no other. -/
lemma heap_update {world : World B} {id : ConnId} {c : TCPConnection B HTTPContext}
    {srv : HTTPServer} :
    (World.mk srv (Function.update world.conns id c)).heap
      = Function.update world.heap id c.context_.request_ := by
  funext i
  by_cases hi : i = id
  · subst hi
    simp [heap]
  · simp [heap, Function.update_of_ne hi]

/-- A step of the world that keeps the keys of the map keeps its cache sound. -/
lemma step_cacheSound {world world' : World B} {e : Event} (inv : world.CacheSound hash)
    (keeps : world.KeepsKey hash e) (st : world.step hash e = some world') :
    world'.CacheSound hash := by
  rcases step_cases st with rfl | ⟨revents, c', poll, ev, rfl⟩
  · exact inv
  · have s := inv.1 e.conn
    obtain ⟨s', ctx⟩ := handleEvent_served (withContext_sound s _) (s.poll_out poll) ev
    refine ⟨?_, ?_⟩
    · refine (Function.forall_update_iff world.conns fun _ c => c.Sound).2 ⟨?_, ?_⟩
      · exact withContext_sound s' _
      · intro id _
        exact inv.1 id
    · rw [heap_update]
      rcases ctx with same | ⟨pin, response, ⟨ne, p, rs⟩⟩
      · rw [same]
        exact inv.2.update fun _ => rfl
      · obtain ⟨hr, inv'⟩ := inv.2.respond (fun hn => keeps hn revents poll pin ne _ _ _ p) rs
        rw [withContext_context, hr]
        exact inv'

end World

/-- In every run of the server with the cache on in which no request object that is a key of the cache changes its
    hash, the two cache structures are in one-to-one correspondence. The iterators of the linked buffer's deque are
    taken to survive `push_back`. -/
theorem cache_corresponds (hash : HTTPRequest → Nat) (callbacks : Bytes → Option ResponseCallback)
    (es : List Event) :
    (∀ world : World Buffer,
      Steps (World.KeepsKey hash) (World.step hash) (World.new (.new callbacks true)) es world →
        Corresponds hash world.heap world.server) ∧
    (∀ world : World LinkedBuffer,
      Steps (World.KeepsKey hash) (World.step hash) (World.new (.new callbacks true)) es world →
        Corresponds hash world.heap world.server) := by
  constructor
  · intro world run
    exact (run.inv World.step_cacheSound ⟨fun _ => Sound.created _, .new callbacks true⟩).2.corresponds
  · intro world run
    exact (run.inv World.step_cacheSound ⟨fun _ => Sound.created _, .new callbacks true⟩).2.corresponds

/-- A server that answers every path, with the cache. -/
def cachingServer : HTTPServer := .new (fun _ => some homeCallback) true

/-- A hash of the path only. -/
def pathHash (req : HTTPRequest) : Nat := (req.path_.map UInt8.toNat).sum

/-- Connection 0 receives a message. -/
def receives (m : Message) : Event := ⟨0, POLLIN, .data m.encode, .accept 1000, .accept 0⟩

/-- The keys are kept in a run with one request. -/
theorem cache_corresponds_one_request :
    ∃ world : World LinkedBuffer,
      Steps (World.KeepsKey pathHash) (World.step pathHash) (World.new cachingServer) [receives getB]
        world ∧ Corresponds pathHash world.heap world.server := by
  have one : ((World.new cachingServer : World LinkedBuffer).step pathHash (receives getB)).isSome
      = true := by decide +kernel
  obtain ⟨world, e⟩ := Option.isSome_iff_exists.1 one
  have run : Steps (World.KeepsKey pathHash) (World.step pathHash) (World.new cachingServer)
      [receives getB] world := by
    refine .cons (fun hn => ?_) e .nil
    obtain ⟨node, hn, _⟩ := hn
    cases hn
  exact ⟨world, run, (cache_corresponds pathHash (fun _ => some homeCallback) [receives getB]).2
    world run⟩

/-- Two different requests on one connection: looking up the request of either node finds the entry of
    node 1. -/
theorem cached_request_changes :
    ([receives getB, receives getA].foldlM (World.step pathHash)
      (World.new cachingServer : World LinkedBuffer)).map
        (fun world => world.server.cache_node_list_.map fun node =>
          (node.id, (world.server.findEntry pathHash world.heap node.req).map CacheEntry.iter))
      = some [(1, some 1), (0, some 1)] := by
  decide +kernel

end WebServer.Http
