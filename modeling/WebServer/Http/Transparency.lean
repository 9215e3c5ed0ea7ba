import WebServer.Http.Cache
import WebServer.Net.Context

/-!
# The cache and the responses

The server with the response cache against the same server without it. An entry of the cache is found by
hashes alone, and its node holds the response to the request the entry was made for: `origin` keeps that
request, which the server itself does not. `Faithful` is the invariant between the two.

A response from the cache is the wrong one if the request has the hash of another one, and undefined if the
node is gone, which an eviction brings about that does not find the entry of the node it removes.
`cache_transparent` says that nothing else goes wrong: in every run whose steps avoid these, the connections
are those of the server without the cache.
-/

namespace WebServer.Http

open Net Lib LawfulBuffer TCPConnection

/-- The response to send for a request, computed by the callback of its path. -/
def MadeFor (callbacks : Bytes → Option ResponseCallback) (request : HTTPRequest)
    (response : HTTPResponse) : Prop :=
  ∃ cb, callbacks request.path_ = some cb ∧ response = HTTPServer.closes request (cb.run request .new)

/-- Every node holds the response to the request it was made for, every entry the hash of the request its
    node was made for, and no iterator dangles. -/
structure Faithful (hash : HTTPRequest → Nat) (callbacks : Bytes → Option ResponseCallback)
    (origin : Nat → HTTPRequest) (srv : HTTPServer) : Prop where
  enabled : srv.kUseRespCache = true
  registered : srv.responseCallbacks_ = callbacks
  made : ∀ node ∈ srv.cache_node_list_, MadeFor callbacks (origin node.id) node.resp
  fresh : ∀ node ∈ srv.cache_node_list_, node.id < srv.next_node
  stored : ∀ e ∈ srv.req_to_cache_node_iter_, e.hash = hash (origin e.iter)
  designates : ∀ e ∈ srv.req_to_cache_node_iter_, ∃ node ∈ srv.cache_node_list_, node.id = e.iter
  iters : (srv.req_to_cache_node_iter_.map CacheEntry.iter).Nodup

/-- No request in the cache has the hash of this one without being equal to it. -/
def NoCollision (hash : HTTPRequest → Nat) (origin : Nat → HTTPRequest) (srv : HTTPServer)
    (request : HTTPRequest) : Prop :=
  ∀ e ∈ srv.req_to_cache_node_iter_, hash (origin e.iter) = hash request → origin e.iter = request

/-- If the cache is full and does not have the request, the entry found with the request object of the last
    node is the entry of that node. -/
def EvictsOwn (hash : HTTPRequest → Nat) (heap : ConnId → HTTPRequest) (srv : HTTPServer) (self : ConnId) :
    Prop :=
  srv.req_to_cache_node_iter_.length ≥ HTTPServer.kMaxReqCached → srv.findEntry hash heap self = none →
    ∀ back, srv.cache_node_list_.getLast? = some back →
      (srv.findEntry hash heap back.req).map CacheEntry.iter = some back.id

/-- The decision whether to close does not depend on the decision taken before. -/
lemma closes_closes {request : HTTPRequest} {response : HTTPResponse} :
    HTTPServer.closes request (HTTPServer.closes request response)
      = HTTPServer.closes request response := by
  unfold HTTPServer.closes
  cases request.getHeader (bytes "Connection") <;> rfl

namespace Faithful

variable {hash : HTTPRequest → Nat} {callbacks : Bytes → Option ResponseCallback}
  {origin : Nat → HTTPRequest} {heap : ConnId → HTTPRequest} {srv srv' : HTTPServer} {self : ConnId}
  {cb : ResponseCallback}

/-- The empty cache is faithful. -/
lemma new (origin : Nat → HTTPRequest) : Faithful hash callbacks origin (.new callbacks true) :=
  ⟨rfl, rfl, nofun, nofun, nofun, nofun, List.nodup_nil⟩

/-- The number of the next node is not in use. -/
lemma update (h : Faithful hash callbacks origin srv) (request : HTTPRequest) :
    Faithful hash callbacks (Function.update origin srv.next_node request) srv := by
  have old : ∀ node ∈ srv.cache_node_list_,
      Function.update origin srv.next_node request node.id = origin node.id := fun node hn =>
    Function.update_of_ne (h.fresh node hn).ne _ _
  refine ⟨h.enabled, h.registered, fun node hn => ?_, h.fresh, fun e he => ?_, h.designates, h.iters⟩
  · rw [old node hn]
    exact h.made node hn
  · obtain ⟨node, hn, eq⟩ := h.designates e he
    rw [← eq, old node hn, eq]
    exact h.stored e he

/-- The nodes may come in any order, and with any responses that are right. -/
lemma reorder (h : Faithful hash callbacks origin srv) {nodes : List CacheNode}
    (perm : (nodes.map CacheNode.id).Perm (srv.cache_node_list_.map CacheNode.id))
    (made : ∀ node ∈ nodes, MadeFor callbacks (origin node.id) node.resp) :
    Faithful hash callbacks origin { srv with cache_node_list_ := nodes } where
  enabled := h.enabled
  registered := h.registered
  made := made
  fresh node hn := by
    obtain ⟨node', hn', eq⟩ := List.mem_map.1 (perm.subset (List.mem_map_of_mem hn))
    rw [← eq]
    exact h.fresh node' hn'
  stored := h.stored
  designates e he := by
    obtain ⟨node, hn, eq⟩ := h.designates e he
    obtain ⟨node', hn', eq'⟩ := List.mem_map.1 (perm.symm.subset (List.mem_map_of_mem hn))
    exact ⟨node', hn', eq'.trans eq⟩
  iters := h.iters

/-- The eviction is defined, and what is left is faithful if the entry removed is the one of the last node. -/
lemma evict (h : Faithful hash callbacks origin srv) (miss : srv.findEntry hash heap self = none)
    (own : EvictsOwn hash heap srv self) :
    ∃ srv1, srv.evict hash heap = some srv1 ∧ Faithful hash callbacks origin srv1 ∧
      srv1.next_node = srv.next_node ∧ srv1.findEntry hash heap self = none := by
  unfold HTTPServer.evict
  split
  case isTrue full =>
    obtain ⟨back, hb⟩ := getLast?_of_full h.designates full
    obtain ⟨e, he, hid⟩ := Option.map_eq_some_iff.1 (own full miss back hb)
    have perm : (e :: srv.eraseEntry hash heap back.req).Perm srv.req_to_cache_node_iter_ :=
      perm_find_eraseP he
    have sub : (srv.eraseEntry hash heap back.req).Sublist srv.req_to_cache_node_iter_ :=
      List.eraseP_sublist
    have last : srv.cache_node_list_.dropLast ++ [back] = srv.cache_node_list_ :=
      List.dropLast_append_getLast? back hb
    have nodes : ∀ node ∈ srv.cache_node_list_.dropLast, node ∈ srv.cache_node_list_ := fun node hn =>
      List.mem_of_mem_dropLast hn
    -- the entries left are of other nodes than the last
    have other : ∀ e' ∈ srv.eraseEntry hash heap back.req, e'.iter ≠ back.id := by
      intro e' he' eq
      have nodup := (perm.map CacheEntry.iter).nodup_iff.2 h.iters
      rw [List.map_cons, List.nodup_cons, hid, ← eq] at nodup
      exact nodup.1 (List.mem_map_of_mem he')
    rw [hb]
    simp only [Option.bind_eq_bind, Option.bind_some]
    refine ⟨_, rfl, ⟨h.enabled, h.registered, fun node hn => h.made node (nodes node hn),
      fun node hn => h.fresh node (nodes node hn), fun e' he' => h.stored e' (sub.subset he'),
      fun e' he' => ?_, (sub.map _).nodup h.iters⟩, rfl, ?_⟩
    · obtain ⟨node, hn, eq⟩ := h.designates e' (sub.subset he')
      rw [← last, List.mem_append, List.mem_singleton] at hn
      rcases hn with hn | rfl
      · exact ⟨node, hn, eq⟩
      · exact absurd eq.symm (other e' he')
    · refine List.find?_eq_none.2 fun e' he' => ?_
      exact List.find?_eq_none.1 miss e' (sub.subset he')
  case isFalse => exact ⟨srv, rfl, h, rfl, miss⟩

/-- A node for a request that was not found, and its entry. -/
lemma cons (h : Faithful hash callbacks origin srv) {response : HTTPResponse}
    (made : MadeFor callbacks (heap self) response) :
    Faithful hash callbacks (Function.update origin srv.next_node (heap self))
      { srv with
        cache_node_list_ := ⟨srv.next_node, self, response⟩ :: srv.cache_node_list_
        req_to_cache_node_iter_ := ⟨hash (heap self), self, srv.next_node⟩ :: srv.req_to_cache_node_iter_
        next_node := srv.next_node + 1 } := by
  have h' := h.update (heap self)
  refine ⟨h.enabled, h.registered, ?_, ?_, ?_, ?_, ?_⟩
  · refine List.forall_mem_cons.2 ⟨?_, h'.made⟩
    rw [Function.update_self]
    exact made
  · exact List.forall_mem_cons.2 ⟨Nat.lt_succ_self _, fun node hn => Nat.lt_succ_of_lt (h.fresh node hn)⟩
  · refine List.forall_mem_cons.2 ⟨?_, h'.stored⟩
    rw [Function.update_self]
  · refine List.forall_mem_cons.2 ⟨⟨_, List.mem_cons_self, rfl⟩, fun e he => ?_⟩
    obtain ⟨node, hn, eq⟩ := h.designates e he
    exact ⟨node, List.mem_cons_of_mem _ hn, eq⟩
  · refine List.nodup_cons.2 ⟨fun hm => ?_, h.iters⟩
    obtain ⟨e, he, eq⟩ := List.mem_map.1 hm
    obtain ⟨node, hn, eq'⟩ := h.designates e he
    exact (h.fresh node hn).ne (eq'.trans eq)

/-- The entry found has the hash of the request, so it was made for the same request. -/
lemma found (h : Faithful hash callbacks origin srv) {e : CacheEntry}
    (hf : srv.findEntry hash heap self = some e) (clear : NoCollision hash origin srv (heap self)) :
    origin e.iter = heap self := by
  have he := List.mem_of_find?_eq_some hf
  have hm := List.find?_some hf
  simp only [HTTPServer.matchesKey, decide_eq_true_eq] at hm
  exact clear e he ((h.stored e he).symm.trans hm.1)

/-- A request is answered with the response that its callback makes, from the cache or not. -/
lemma handleRequest (h : Faithful hash callbacks origin srv) (reg : callbacks (heap self).path_ = some cb)
    (clear : NoCollision hash origin srv (heap self)) (own : EvictsOwn hash heap srv self) :
    ∃ srv', srv.handleRequest hash heap self cb
        = some (srv', HTTPServer.closes (heap self) (cb.run (heap self) .new)) ∧
      Faithful hash callbacks (Function.update origin srv.next_node (heap self)) srv' := by
  unfold HTTPServer.handleRequest
  simp only [h.enabled, if_true]
  cases hf : srv.findEntry hash heap self with
  | none =>
    obtain ⟨srv1, e1, h1, next, miss1⟩ := h.evict hf own
    have add : srv.addRespCache hash heap self (cb.run (heap self) .new)
        = some { srv1 with
          cache_node_list_ := ⟨srv1.next_node, self, cb.run (heap self) .new⟩ :: srv1.cache_node_list_
          req_to_cache_node_iter_ :=
            ⟨hash (heap self), self, srv1.next_node⟩ :: srv1.req_to_cache_node_iter_
          next_node := srv1.next_node + 1 } := by
      simp [HTTPServer.addRespCache, e1, HTTPServer.emplaceEntry, miss1]
    simp only [getRespCache_miss hf, add, Option.bind_eq_bind, Option.bind_some]
    refine ⟨_, rfl, ?_⟩
    rw [← next]
    exact h1.cons ⟨cb, reg, rfl⟩
  | some e =>
    obtain ⟨node, hit, mem, id, perm⟩ := getRespCache_hit h.designates hf
    have same : origin node.id = heap self := by
      rw [id]
      exact h.found hf clear
    obtain ⟨cb', reg', resp⟩ := h.made node mem
    rw [same] at reg' resp
    cases reg.symm.trans reg'
    simp only [hit, Option.bind_eq_bind, Option.bind_some, resp, closes_closes, HTTPServer.writeBack]
    refine ⟨_, rfl, ?_⟩
    -- the response stored is the one that was there
    rw [← resp]
    have kept := h.reorder (perm.map CacheNode.id) fun n hn => h.made n (perm.subset hn)
    exact kept.update (heap self)

end Faithful

/-! ## The callback of a connection -/

section OnRead

variable {B I : Type} [BufferType B I] {hash : HTTPRequest → Nat}
  {callbacks : Bytes → Option ResponseCallback} {origin : Nat → HTTPRequest}
  {heap : ConnId → HTTPRequest} {srv : HTTPServer} {self : ConnId}

/-- If requests are handled, `connectionOnRead` has a response with texts or waits. -/
lemma respond_defined {P : HTTPServer → Prop} (keep : P srv)
    (handled : ∀ heap cb, ∃ srv' resp, srv.handleRequest hash heap self cb = some (srv', resp) ∧
      P srv' ∧ resp.Listed) (ok : Bool) (ctx : HTTPContext) :
    ∃ ctx' srv' response, respond hash heap self ok ⟨ctx, srv⟩ = some (⟨ctx', srv'⟩, response) ∧
      P srv' ∧ ∀ resp ∈ response, resp.Listed := by
  have not_found : HTTPServer.not_found_resp_.Listed := ⟨by decide, by decide⟩
  have bad_request : HTTPServer.bad_request_resp_.Listed := ⟨by decide, by decide⟩
  unfold respond
  dsimp only
  split
  · split
    case h_1 cb _ =>
      obtain ⟨srv', resp, e, p, listed⟩ := handled (Function.update heap self ctx.resetState.request_) cb
      simp only [e, Option.bind_eq_bind, Option.bind_some]
      exact ⟨_, _, _, rfl, p, by rintro _ ⟨⟩; exact listed⟩
    case h_2 => exact ⟨_, _, _, rfl, keep, by rintro _ ⟨⟩; exact not_found⟩
  · split
    · exact ⟨_, _, _, rfl, keep, nofun⟩
    · exact ⟨_, _, _, rfl, keep, by rintro _ ⟨⟩; exact bad_request⟩

/-- The server without the cache answers with the response the callback makes, and stays as it is. -/
lemma respond_off (off : srv.kUseRespCache = false) (ok : Bool) (ctx : HTTPContext) :
    ∃ ctx' response, respond hash heap self ok ⟨ctx, srv⟩ = some (⟨ctx', srv⟩, response) ∧
      ∀ resp ∈ response, resp.Listed := by
  have handled (heap : ConnId → HTTPRequest) (cb : ResponseCallback) :
      ∃ srv' resp, srv.handleRequest hash heap self cb = some (srv', resp) ∧ srv' = srv ∧ resp.Listed := by
    refine ⟨srv, HTTPServer.closes (heap self) (cb.run (heap self) .new), ?_, rfl,
      closes_listed (cb.listed (heap self))⟩
    simp only [HTTPServer.handleRequest, off]
    rfl
  obtain ⟨ctx', _, response, e, rfl, listed⟩ := @respond_defined hash heap srv self (· = srv) rfl handled ok ctx
  exact ⟨ctx', response, e, listed⟩

/-- With a faithful cache, a request that is finished is answered as without it. -/
lemma Faithful.respond (h : Faithful hash callbacks origin srv) {ok : Bool} {ctx : HTTPContext}
    (good : ctx.state_ = .kGotAll → (callbacks ctx.request_.path_).isSome →
      NoCollision hash origin srv ctx.request_ ∧
        EvictsOwn hash (Function.update heap self ctx.request_) srv self) :
    ∃ ctx' srv' response, respond hash heap self ok ⟨ctx, srv⟩ = some (⟨ctx', srv'⟩, response) ∧
      respond hash heap self ok ⟨ctx, .new callbacks false⟩ = some (⟨ctx', .new callbacks false⟩, response) ∧
      Faithful hash callbacks (Function.update origin srv.next_node ctx'.request_) srv' := by
  unfold Http.respond
  dsimp only
  split
  case isTrue fin =>
    rw [h.registered]
    simp only [HTTPServer.new, HTTPContext.resetState] at fin ⊢
    cases hcb : callbacks ctx.request_.path_ with
    | none => exact ⟨_, _, _, rfl, rfl, h.update _⟩
    | some cb =>
      obtain ⟨clear, own⟩ := good (by simpa [HTTPContext.parseFinished] using fin) (by rw [hcb]; rfl)
      obtain ⟨srv', e', h'⟩ := @handleRequest hash callbacks origin
        (Function.update heap self ctx.request_) srv self cb h (by rwa [Function.update_self])
        (by rwa [Function.update_self]) own
      rw [Function.update_self] at e' h'
      simp only [e', Option.bind_eq_bind, Option.bind_some]
      refine ⟨_, srv', _, rfl, ?_, h'⟩
      simp [HTTPServer.handleRequest]
  case isFalse =>
    split
    · exact ⟨_, _, _, rfl, rfl, h.update _⟩
    · exact ⟨_, _, _, rfl, rfl, h.update _⟩

/-- Sending a response does not look at the context. -/
lemma sendResponse_mapContext {g : Upper → Upper} {conn : TCPConnection B Upper}
    {response : HTTPResponse} {w : WriteResult} :
    sendResponse (conn.mapContext g) response w = (sendResponse conn response w).map (mapContext g) := by
  unfold sendResponse
  cases response.appendToBuffer with
  | none => rfl
  | some cb =>
    simp only [Option.bind_eq_bind, Option.bind_some, send_mapContext]
    cases conn.send cb w with
    | none => rfl
    | some conn =>
      simp only [Option.map_some, Option.bind_some, shutdown_mapContext]
      split <;> rfl

/-- `connectionOnRead` of the server without the cache, which is always the same. -/
def plainOnRead (hash : HTTPRequest → Nat) (callbacks : Bytes → Option ResponseCallback)
    (heap : ConnId → HTTPRequest) (self : ConnId) (w : WriteResult) (conn : TCPConnection B HTTPContext) :
    Option (TCPConnection B HTTPContext) :=
  (connectionOnRead hash heap self w (withContext conn ⟨conn.context_, .new callbacks false⟩)).map
    (mapContext Upper.context)

variable [LawfulBuffer B I] {w : WriteResult}

/-- Without the cache every read is answered or waited for. -/
lemma plainOnRead_keeps :
    Sound.Keeps (plainOnRead (B := B) hash callbacks heap self w) := by
  intro conn h hb
  have h' := withContext_sound h (Upper.mk conn.context_ (.new callbacks false))
  obtain ⟨ok, ctx, b, pb, _, ec⟩ := @connectionOnRead_cases B I _ _ hash heap self
    (withContext conn ⟨conn.context_, .new callbacks false⟩) w hb
  obtain ⟨ctx', response, er, listed⟩ := @respond_off hash heap (.new callbacks false) self rfl ok ctx
  rw [withContext_context, er, Option.bind_some] at ec
  have defined : ∃ conn', connectionOnRead hash heap self w
      (withContext conn ⟨conn.context_, .new callbacks false⟩) = some conn' := by
    rw [ec]
    cases response with
    | none => exact ⟨_, rfl⟩
    | some response => exact sendResponse_listed (parsed_sound h' pb _) (listed response rfl)
  obtain ⟨conn', e'⟩ := defined
  obtain ⟨s', w', _⟩ := connectionOnRead_spec h' hb e'
  refine ⟨conn'.mapContext Upper.context, ?_, withContext_sound s' _, w'⟩
  rw [plainOnRead, e', Option.map_some]

/-- With a faithful cache a read has the same effect on the connection. -/
lemma Faithful.connectionOnRead {conn : TCPConnection B Upper}
    (h : Faithful hash callbacks origin conn.context_.server) (s : conn.Sound)
    (hb : Parsable conn.in_buffer_)
    (good : ∀ request ok rest,
      Parses conn.context_.context (unread conn.in_buffer_) ok ⟨.kGotAll, request⟩ rest →
      (callbacks request.path_).isSome → NoCollision hash origin conn.context_.server request ∧
        EvictsOwn hash (Function.update heap self request) conn.context_.server self) :
    plainOnRead hash callbacks heap self w (conn.mapContext Upper.context)
        = (connectionOnRead hash heap self w conn).map (mapContext Upper.context) ∧
      ∀ conn', connectionOnRead hash heap self w conn = some conn' →
        Faithful hash callbacks (Function.update origin conn.context_.server.next_node
          conn'.context_.context.request_) conn'.context_.server := by
  obtain ⟨ok, ctx, b, e, pb, p⟩ := parseRequest_spec conn.context_.context hb
  obtain ⟨ctx', srv', response, er, er', h'⟩ := @Faithful.respond hash callbacks origin heap
    conn.context_.server self h ok ctx (by
      obtain ⟨state, request⟩ := ctx
      rintro rfl reg
      exact good request ok (unread b) p reg)
  -- the connection of the server without the cache is this one, with another server
  let plain : Upper → Upper := fun up => ⟨up.context, .new callbacks false⟩
  have other : withContext (conn.mapContext Upper.context) ⟨conn.context_.context, .new callbacks false⟩
      = conn.mapContext plain := rfl
  unfold plainOnRead
  rw [show (conn.mapContext Upper.context).context_ = conn.context_.context from rfl, other]
  unfold Http.connectionOnRead
  rw [show (conn.mapContext plain).context_ = ⟨conn.context_.context, .new callbacks false⟩ from rfl,
    mapContext_in]
  simp only [e, er, er', Option.bind_eq_bind, Option.bind_some]
  cases response with
  | none =>
    refine ⟨rfl, ?_⟩
    rintro _ ⟨⟩
    exact h'
  | some response =>
    constructor
    · change (sendResponse ((parsed conn b ⟨ctx', srv'⟩).mapContext plain) response w).map _
        = (sendResponse (parsed conn b ⟨ctx', srv'⟩) response w).map _
      rw [sendResponse_mapContext, Option.map_map]
      rfl
    · intro conn' e'
      obtain ⟨_, _, _, ctx, _⟩ := sendResponse_spec (parsed_sound s pb ⟨ctx', srv'⟩) e'
      rw [ctx]
      exact h'

end OnRead

/-! ## Runs -/

/-- In the event the connection parses `request` to its end. -/
def World.Finishes {B I : Type} [BufferType B I] [LawfulBuffer B I] (world : World B) (e : Event)
    (request : HTTPRequest) : Prop :=
  ∃ revents c ok rest, (world.conns e.conn).poll e.ready = some revents ∧
    (world.conns e.conn).Reads revents e.r c ∧
    Parses c.context_ (unread c.in_buffer_) ok ⟨.kGotAll, request⟩ rest

section Step

variable {B I : Type} [BufferType B I] {hash : HTTPRequest → Nat}
  {callbacks : Bytes → Option ResponseCallback} {world : World B} {e : Event} {revents : Mask}

/-- If `connectionOnRead` has the effect it has without the cache, so does the event. The server is as before
    or as `connectionOnRead` left it. -/
lemma World.step_plain {c : TCPConnection B HTTPContext}
    (hp : (world.conns e.conn).poll e.ready = some revents)
    (plain : (world.conns e.conn).handleEvent revents e.r
      (plainOnRead hash callbacks world.heap e.conn e.onRead) e.onWrite = some c)
    (same : ∀ d : TCPConnection B Upper, d.context_ = ⟨(world.conns e.conn).context_, world.server⟩ →
      (world.conns e.conn).Reads revents e.r (d.mapContext Upper.context) →
      plainOnRead hash callbacks world.heap e.conn e.onRead (d.mapContext Upper.context)
        = (connectionOnRead hash world.heap e.conn e.onRead d).map (mapContext Upper.context)) :
    ∃ up : Upper, up.context = c.context_ ∧
      world.step hash e = some ⟨up.server, Function.update world.conns e.conn c⟩ ∧
      (up.server = world.server ∨
        ∃ d d', d.context_ = ⟨(world.conns e.conn).context_, world.server⟩ ∧
          (world.conns e.conn).Reads revents e.r (d.mapContext Upper.context) ∧
          connectionOnRead hash world.heap e.conn e.onRead d = some d' ∧ up = d'.context_) := by
  generalize hu : withContext (world.conns e.conn) (Upper.mk (world.conns e.conn).context_ world.server) = u
  have back : u.mapContext Upper.context = world.conns e.conn := by rw [← hu]; rfl
  have ctx : u.context_ = ⟨(world.conns e.conn).context_, world.server⟩ := by rw [← hu]; rfl
  have reads {d} (rd : u.Reads revents e.r d) : d.context_ = ⟨(world.conns e.conn).context_, world.server⟩ ∧
      (world.conns e.conn).Reads revents e.r (d.mapContext Upper.context) := by
    refine ⟨(receive_context rd.2.2.2).trans ctx, ?_⟩
    rw [← back]
    exact rd.mapContext
  have whole : (u.mapContext Upper.context).handleEvent revents e.r
      (plainOnRead hash callbacks world.heap e.conn e.onRead) e.onWrite
      = (u.handleEvent revents e.r (connectionOnRead hash world.heap e.conn e.onRead) e.onWrite).map
        (mapContext Upper.context) :=
    handleEvent_mapContext fun d rd => same d (reads rd).1 (reads rd).2
  rw [back, plain] at whole
  obtain ⟨c', ec, rfl⟩ := Option.map_eq_some_iff.1 whole.symm
  refine ⟨c'.context_, rfl, ?_, ?_⟩
  · simp only [World.step, hp, hu, ec, Option.bind_eq_bind, Option.bind_some]
    rfl
  · rcases handleEvent_context ec with same | ⟨d, d', rd, ed, ctx'⟩
    · exact .inl (by rw [same, ctx])
    · exact .inr ⟨d, d', (reads rd).1, (reads rd).2, ed, ctx'⟩

variable [LawfulBuffer B I]

/-- The server without the cache does not change. -/
lemma connectionOnRead_off {heap : ConnId → HTTPRequest} {self : ConnId} {w : WriteResult}
    {conn conn' : TCPConnection B Upper} (off : conn.context_.server.kUseRespCache = false) (s : conn.Sound)
    (hb : Parsable conn.in_buffer_) (ec : connectionOnRead hash heap self w conn = some conn') :
    conn'.context_.server = conn.context_.server := by
  obtain ⟨_, _, ok, ctx, _, response, _, er, _⟩ := connectionOnRead_spec s hb ec
  obtain ⟨ctx', response', er', _⟩ := @respond_off hash heap conn.context_.server self off ok ctx
  rw [er, Option.some.injEq, Prod.mk.injEq] at er'
  rw [er'.1]

end Step

/-- The world, and the requests the cache nodes were made for. -/
structure Watched (B : Type) where
  world : World B
  origin : Nat → HTTPRequest

namespace Watched

variable {B I : Type} [BufferType B I] {hash : HTTPRequest → Nat}
  {callbacks : Bytes → Option ResponseCallback}

/-- A server with the cache. -/
def new (callbacks : Bytes → Option ResponseCallback) : Watched B where
  world := .new (.new callbacks true)
  origin _ := .new

/-- One event. A node made in it is made for the request as the event leaves it. -/
def step (hash : HTTPRequest → Nat) (s : Watched B) (e : Event) : Option (Watched B) := do
  let world ← s.world.step hash e
  some ⟨world, Function.update s.origin s.world.server.next_node (world.heap e.conn)⟩

variable [LawfulBuffer B I] {s s' : Watched B} {e : Event}

/-- A request for a registered path that is finished in the event does not collide with another one in the
    cache, and if it is to be added to a full cache, the eviction removes the entry of the node it removes. -/
def Safe (hash : HTTPRequest → Nat) (s : Watched B) (e : Event) : Prop :=
  ∀ request, s.world.Finishes e request → (s.world.server.responseCallbacks_ request.path_).isSome →
    NoCollision hash s.origin s.world.server request ∧
      EvictsOwn hash (Function.update s.world.heap e.conn request) s.world.server e.conn

/-- The invariant of a run. -/
def Inv (hash : HTTPRequest → Nat) (callbacks : Bytes → Option ResponseCallback) (s : Watched B) : Prop :=
  (∀ id, (s.world.conns id).Sound) ∧ Faithful hash callbacks s.origin s.world.server

/-- A step that is safe is defined and keeps the invariant, and has the same effect on the connections as
    without the cache. -/
lemma Inv.step (inv : s.Inv hash callbacks) (safe : s.Safe hash e) :
    ∃ s', s.step hash e = some s' ∧ s'.Inv hash callbacks ∧
      World.step hash ⟨.new callbacks false, s.world.conns⟩ e
        = some ⟨.new callbacks false, s'.world.conns⟩ := by
  obtain ⟨sound, faithful⟩ := inv
  cases hp : (s.world.conns e.conn).poll e.ready with
  | none =>
    refine ⟨⟨s.world, Function.update s.origin s.world.server.next_node (s.world.heap e.conn)⟩, ?_,
      ⟨sound, faithful.update _⟩, ?_⟩
    · simp only [Watched.step, World.step, hp]
      rfl
    · simp only [World.step, hp]
  | some revents =>
    obtain ⟨c, plain, sc⟩ := (sound e.conn).handleEvent e.r e.onWrite ((sound e.conn).poll_out hp)
      (@plainOnRead_keeps B I _ hash callbacks s.world.heap e.conn _ e.onRead)
    have reads {d : TCPConnection B Upper}
        (rd : (s.world.conns e.conn).Reads revents e.r (d.mapContext Upper.context)) :
        d.Sound ∧ Parsable d.in_buffer_ := by
      obtain ⟨sd, pd⟩ := (sound e.conn).receive_true rd.2.2.2
      exact ⟨withContext_sound sd d.context_, pd⟩
    -- with the cache
    have agree {d : TCPConnection B Upper}
        (ctx : d.context_ = ⟨(s.world.conns e.conn).context_, s.world.server⟩)
        (rd : (s.world.conns e.conn).Reads revents e.r (d.mapContext Upper.context)) :=
      @Faithful.connectionOnRead B I _ hash callbacks s.origin s.world.heap e.conn _ e.onRead d
        (by rw [ctx]; exact faithful) (reads rd).1 (reads rd).2 (by
          intro request ok rest p reg
          rw [ctx]
          rw [← faithful.registered] at reg
          exact safe request ⟨revents, _, ok, rest, hp, rd, p⟩ reg)
    obtain ⟨up, hup, st, server⟩ := World.step_plain hp plain fun d ctx rd => (agree ctx rd).1
    -- without it
    obtain ⟨up0, _, st0, server0⟩ := @World.step_plain B I _ hash callbacks
      ⟨.new callbacks false, s.world.conns⟩ e revents c hp plain (by
        rintro ⟨⟩ rfl _
        rfl)
    have off : up0.server = .new callbacks false := by
      rcases server0 with same | ⟨d, d', ctx, rd, ed, rfl⟩
      · exact same
      · rw [connectionOnRead_off (by rw [ctx]; rfl) (reads rd).1 (reads rd).2 ed, ctx]
    rw [off] at st0
    refine ⟨⟨_, _⟩, by rw [Watched.step, st]; rfl, ⟨?_, ?_⟩, st0⟩
    · refine (Function.forall_update_iff s.world.conns fun _ c => c.Sound).2 ⟨sc, ?_⟩
      intro id _
      exact sound id
    · have own : (World.mk up.server (Function.update s.world.conns e.conn c)).heap e.conn
          = up.context.request_ := by
        rw [World.heap_update, Function.update_self, hup]
      rw [own]
      rcases server with same | ⟨d, d', ctx, rd, ed, rfl⟩
      · rw [same]
        exact faithful.update _
      · have fd := (agree ctx rd).2 d' ed
        rw [ctx] at fd
        exact fd

/-- What holds in a state reached by the events `es`. -/
structure Transparent (hash : HTTPRequest → Nat) (callbacks : Bytes → Option ResponseCallback)
    (es : List Event) (s : Watched B) : Prop where
  /-- The server without the cache has the same connections. -/
  same : es.foldlM (World.step hash) (World.new (.new callbacks false))
    = some ⟨.new callbacks false, s.world.conns⟩
  /-- A request that is found in the cache is equal to the one its response was made for. -/
  hit : ∀ e request, s.Safe hash e → s.world.Finishes e request → (callbacks request.path_).isSome →
    ∀ srv response, s.world.server.getRespCache hash (Function.update s.world.heap e.conn request) e.conn
      = some (some (srv, response)) →
    ∃ node ∈ s.world.server.cache_node_list_, s.origin node.id = request ∧ node.resp = response ∧
      MadeFor callbacks request response
  /-- The next event is defined. -/
  defined : ∀ e, s.Safe hash e → ∃ s', s.step hash e = some s'

/-- A response from the cache is the one that the callback would have made. -/
lemma Inv.hit (inv : s.Inv hash callbacks) {request : HTTPRequest} (safe : s.Safe hash e)
    (fin : s.world.Finishes e request) (reg : (callbacks request.path_).isSome) {srv : HTTPServer}
    {response : HTTPResponse}
    (get : s.world.server.getRespCache hash (Function.update s.world.heap e.conn request) e.conn
      = some (some (srv, response))) :
    ∃ node ∈ s.world.server.cache_node_list_, s.origin node.id = request ∧ node.resp = response ∧
      MadeFor callbacks request response := by
  rw [← inv.2.registered] at reg
  cases hf : s.world.server.findEntry hash (Function.update s.world.heap e.conn request) e.conn with
  | none => cases get.symm.trans (getRespCache_miss hf)
  | some entry =>
    obtain ⟨node, hit, mem, id, _⟩ := getRespCache_hit inv.2.designates hf
    cases get.symm.trans hit
    have same := inv.2.found hf (by rw [Function.update_self]; exact (safe request fin reg).1)
    rw [Function.update_self, ← id] at same
    exact ⟨node, mem, same, rfl, same ▸ inv.2.made node mem⟩

/-- Runs all of whose steps are safe, with the run of the server without the cache. -/
lemma Inv.run {es : List Event} (run : Steps (Safe hash) (Watched.step hash) s es s')
    (inv : s.Inv hash callbacks) :
    s'.Inv hash callbacks ∧ es.foldlM (World.step hash) ⟨.new callbacks false, s.world.conns⟩
      = some ⟨.new callbacks false, s'.world.conns⟩ := by
  obtain ⟨_, plain, inv', rfl⟩ := run.simulate (World.step hash)
    (fun s world => s.Inv hash callbacks ∧ world = ⟨.new callbacks false, s.world.conns⟩)
    (by
      rintro s e s1 _ ⟨inv, rfl⟩ safe st
      obtain ⟨_, st1, inv1, plain⟩ := inv.step safe
      cases st.symm.trans st1
      exact ⟨_, plain, inv1, rfl⟩)
    ⟨inv, rfl⟩
  exact ⟨inv', plain⟩

/-- A safe run is answered with the cache as without it. -/
lemma transparent {es : List Event} (run : Steps (Safe hash) (Watched.step hash) (new callbacks) es s) :
    s.Transparent hash callbacks es := by
  have init : (new callbacks : Watched B).Inv hash callbacks := ⟨fun _ => Sound.created _, .new _⟩
  obtain ⟨inv, plain⟩ := init.run run
  refine ⟨plain, fun e request safe fin reg srv response get => inv.hit safe fin reg get, fun e safe => ?_⟩
  obtain ⟨s', st, _⟩ := inv.step safe
  exact ⟨s', st⟩

end Watched

/-- In every run of the server with the cache in which no request has the hash of another one in the cache and every
    eviction removes the entry of the node it removes, the connections are those of the server without the cache, and
    a response from the cache was made for an equal request. The iterators of the linked buffer's deque are taken to
    survive `push_back`. -/
theorem cache_transparent (hash : HTTPRequest → Nat) (callbacks : Bytes → Option ResponseCallback)
    (es : List Event) :
    (∀ s : Watched Buffer,
      Steps (Watched.Safe hash) (Watched.step hash) (Watched.new callbacks) es s →
        s.Transparent hash callbacks es) ∧
    (∀ s : Watched LinkedBuffer,
      Steps (Watched.Safe hash) (Watched.step hash) (Watched.new callbacks) es s →
        s.Transparent hash callbacks es) :=
  ⟨fun _ run => Watched.transparent run, fun _ run => Watched.transparent run⟩

/-- A callback that answers with the path. -/
def echoCallback : ResponseCallback where
  run req resp := { resp with status_code_ := .k200Ok, body_ := req.path_ }
  listed _ := by simp [HTTPResponse.Listed, HTTPResponse.new]

/-- The same request twice; the second time the response comes from the cache. -/
theorem cache_transparent_repeated_request :
    ∃ s : Watched LinkedBuffer,
      Steps (Watched.Safe pathHash) (Watched.step pathHash) (Watched.new fun _ => some echoCallback)
        [receives getB, receives getB] s ∧
      s.world.server.next_node = 1 ∧
      s.Transparent pathHash (fun _ => some echoCallback) [receives getB, receives getB] := by
  have first : ((Watched.new fun _ => some echoCallback : Watched LinkedBuffer).step pathHash
      (receives getB)).map (fun s => s.world.server.req_to_cache_node_iter_.map CacheEntry.iter)
      = some [0] := by
    decide +kernel
  have made : ((Watched.new fun _ => some echoCallback : Watched LinkedBuffer).step pathHash
      (receives getB)).map (fun s => s.origin 0) = some (getB.onto .new) := by
    decide +kernel
  have reads : ((Watched.new fun _ => some echoCallback : Watched LinkedBuffer).step pathHash
      (receives getB)).map (fun s => ((s.world.conns 0).receive (.data getB.encode)).map fun p =>
        (p.1.context_, p.1.in_buffer_.unread))
      = some (some (⟨.kExpectRequestLine, getB.onto .new⟩, getB.encode)) := by
    decide +kernel
  have hits : (((Watched.new fun _ => some echoCallback : Watched LinkedBuffer).step pathHash
      (receives getB)).bind fun s => s.step pathHash (receives getB)).map
        (fun s => s.world.server.next_node) = some 1 := by
    decide +kernel
  obtain ⟨s1, st1, iters⟩ := Option.map_eq_some_iff.1 first
  rw [st1, Option.map_some, Option.some.injEq] at made reads
  rw [st1, Option.bind_some] at hits
  obtain ⟨s2, st2, next⟩ := Option.map_eq_some_iff.1 hits
  -- the second request is parsed into the object that the first one left
  have again : ∀ request, s1.world.Finishes (receives getB) request → request = getB.onto .new := by
    rintro request ⟨revents, c, ok, rest, _, ⟨_, _, _, rd⟩, p⟩
    change (s1.world.conns 0).receive (.data getB.encode) = some (c, true) at rd
    rw [rd, Option.map_some, Option.some.injEq, Prod.mk.injEq] at reads
    change Parses c.context_ c.in_buffer_.unread ok _ rest at p
    rw [reads.1, reads.2, ← List.append_nil getB.encode] at p
    obtain ⟨_, e, _⟩ := p.det (.message getB (getB.onto .new) [])
    cases e
    decide +kernel
  have safe : s1.Safe pathHash (receives getB) := by
    intro request fin _
    have few : s1.world.server.req_to_cache_node_iter_.length = 1 := by
      simpa using congrArg List.length iters
    refine ⟨fun e he _ => ?_, fun full => absurd full (by rw [few]; decide)⟩
    have : e.iter ∈ [0] := iters ▸ List.mem_map_of_mem he
    rw [List.mem_singleton.1 this, made, again request fin]
  have run : Steps (Watched.Safe pathHash) (Watched.step pathHash)
      (Watched.new fun _ => some echoCallback) [receives getB, receives getB] s2 := by
    refine .cons ?_ st1 (.cons safe st2 .nil)
    exact fun _ _ _ => ⟨nofun, fun full => absurd full (by decide)⟩
  exact ⟨s2, run, next, (cache_transparent pathHash (fun _ => some echoCallback)
    [receives getB, receives getB]).2 s2 run⟩

/-- Two requests with the same hash: the second is answered with the response to the first. -/
theorem collision_answered :
    ([receives getA, receives getB].foldlM (World.step fun _ => 0)
      (World.new (.new (fun _ => some echoCallback) true) : World LinkedBuffer)).map
        (fun world => (responses (world.conns 0).log).map fun bs => bs.drop (bs.length - 2))
      = some [bytes "/a", bytes "/a"] ∧
    ([receives getA, receives getB].foldlM (World.step fun _ => 0)
      (World.new (.new (fun _ => some echoCallback) false) : World LinkedBuffer)).map
        (fun world => (responses (world.conns 0).log).map fun bs => bs.drop (bs.length - 2))
      = some [bytes "/a", bytes "/b"] := by
  decide +kernel

end WebServer.Http
