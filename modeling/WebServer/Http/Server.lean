import WebServer.Http.Parses
import WebServer.Net.ConnectionRun
import WebServer.Net.Text

/-!
# The HTTP server

Model of `http/http_response.h` and `http/http_server.{h,cc}`.

A connection is named by a `ConnId`, and so is its request object: the key of a cache entry is a pointer
to the request of a connection, which goes on changing. `heap` gives the current value of every request
object. A list iterator is the number of a node, never used twice; following one to a node that is no
longer in the list is undefined. `std::unordered_map` keeps the hash of a key as it was when the entry
was made; `hash` stands for `to_hash_value`, which is built from the hash functions of boost.

A handler of one connection can touch its own state and the server, so a connection's context is, while
a handler runs, the pair `Upper` of the `HTTPContext` and the server. In a `World` the connections have
their `HTTPContext` only, and the server is one.
-/

namespace WebServer.Http

open Net Lib

/-! ## Responses -/

/-- `static_cast<size_t>(version)` -/
def HttpVersion.index : HttpVersion → Nat
  | .kHttp10 => 0
  | .kHttp11 => 1
  | .kUnknown => 2

/-- `static_cast<size_t>(status_code)` -/
def HttpStatusCode.index : HttpStatusCode → Nat
  | .k200Ok => 0
  | .k301MovedPermanently => 1
  | .k400BadRequest => 2
  | .k404NotFound => 3
  | .kUnknown => 4

/-- `class HTTPResponse`; the headers are in the order of iteration. -/
structure HTTPResponse where
  version_ : HttpVersion
  status_code_ : HttpStatusCode
  close_connection_ : Bool
  headers_ : List (Bytes × Bytes)
  body_ : Bytes
deriving DecidableEq

namespace HTTPResponse

/-- `HTTPResponse::HTTPResponse` -/
def new : HTTPResponse where
  version_ := .kHttp11
  status_code_ := .kUnknown
  close_connection_ := false
  headers_ := []
  body_ := []

/-- `HTTPResponse::setCloseConnection` -/
def setCloseConnection (resp : HTTPResponse) (close : Bool) : HTTPResponse :=
  { resp with close_connection_ := close }

/-- `HTTPResponse::buf_size` -/
def buf_size : Nat := 64

/-- `HTTPResponse::appendToBuffer`: the strings it appends. The texts of a version and a status code come
    from tables without an entry for the unknown ones. -/
def appendToBuffer (resp : HTTPResponse) : Option SendCallback := do
  let version ← gHttpVersions[resp.version_.index]?
  let code ← gHttpStatusCodes[resp.status_code_.index]?
  let message ← gHttpStatusMessages[resp.status_code_.index]?
  some {
    appends :=
      [snprintf buf_size (gHttpPrefix ++ version ++ bytes " " ++ numeral code ++ bytes " " ++ message ++ kCRLF)] ++
      (if resp.close_connection_ then
        [bytes "Connection: close\r\n"]
      else
        [snprintf buf_size (bytes "Content-Length: " ++ numeral resp.body_.length ++ kCRLF),
          bytes "Connection: Keep-Alive\r\n"]) ++
      resp.headers_.flatMap (fun header => [header.1, bytes ": ", header.2, kCRLF]) ++
      [kCRLF, resp.body_]
    ne_nil := by simp [kCRLF] }

/-- The version and the status code have texts. -/
def Listed (resp : HTTPResponse) : Prop :=
  resp.version_ ≠ .kUnknown ∧ resp.status_code_ ≠ .kUnknown

/-- A response whose headers are all listed can be written out. -/
lemma Listed.appendToBuffer {resp : HTTPResponse} (h : resp.Listed) :
    ∃ cb, resp.appendToBuffer = some cb := by
  obtain ⟨version, code, close, headers, body⟩ := resp
  obtain ⟨hv, hc⟩ := h
  cases version with
  | kUnknown => exact absurd rfl hv
  | _ =>
    cases code with
    | kUnknown => exact absurd rfl hc
    | _ => exact ⟨_, rfl⟩

end HTTPResponse

/-- `HTTPServer::ResponseCallback`: it fills in a new response, with a version and status code that have
    texts. -/
structure ResponseCallback where
  run : HTTPRequest → HTTPResponse → HTTPResponse
  listed : ∀ req, (run req .new).Listed

/-! ## The server -/

/-- A connection, and the request object of its context. -/
abbrev ConnId := Nat

/-- `HTTPServer::CacheNode`, with the number that stands for its address. -/
structure CacheNode where
  id : Nat
  req : ConnId
  resp : HTTPResponse
deriving DecidableEq

/-- An entry of `req_to_cache_node_iter_`: the hash stored, the key and the list iterator. -/
structure CacheEntry where
  hash : Nat
  key : ConnId
  iter : Nat
deriving DecidableEq

/-- `class HTTPServer`; `next_node` is the number of the next node. -/
structure HTTPServer where
  responseCallbacks_ : Bytes → Option ResponseCallback
  kUseRespCache : Bool
  cache_node_list_ : List CacheNode
  req_to_cache_node_iter_ : List CacheEntry
  next_node : Nat

namespace HTTPServer

def kMaxReqCached : Nat := 1024

def bad_request_resp_ : HTTPResponse :=
  { HTTPResponse.new with status_code_ := .k400BadRequest }.setCloseConnection true

def not_found_resp_ : HTTPResponse :=
  { HTTPResponse.new with status_code_ := .k404NotFound }.setCloseConnection true

/-- The server with these callbacks and an empty cache. -/
def new (responseCallbacks : Bytes → Option ResponseCallback) (useRespCache : Bool) : HTTPServer where
  responseCallbacks_ := responseCallbacks
  kUseRespCache := useRespCache
  cache_node_list_ := []
  req_to_cache_node_iter_ := []
  next_node := 0

section Cache

variable (hash : HTTPRequest → Nat) (heap : ConnId → HTTPRequest)

/-- An entry is found by its stored hash and `HTTPRequstPtrEqualTo`, which compares current hashes. -/
def matchesKey (req : ConnId) (e : CacheEntry) : Bool :=
  e.hash = hash (heap req) ∧ hash (heap e.key) = hash (heap req)

/-- `req_to_cache_node_iter_.find(req)` -/
def findEntry (srv : HTTPServer) (req : ConnId) : Option CacheEntry :=
  srv.req_to_cache_node_iter_.find? (matchesKey hash heap req)

/-- `req_to_cache_node_iter_.erase(req)` -/
def eraseEntry (srv : HTTPServer) (req : ConnId) : List CacheEntry :=
  srv.req_to_cache_node_iter_.eraseP (matchesKey hash heap req)

/-- `req_to_cache_node_iter_.emplace(req, iter)` -/
def emplaceEntry (srv : HTTPServer) (req : ConnId) (iter : Nat) : List CacheEntry :=
  if (srv.findEntry hash heap req).isSome then
    srv.req_to_cache_node_iter_
  else
    ⟨hash (heap req), req, iter⟩ :: srv.req_to_cache_node_iter_

/-- The eviction of `HTTPServer::addRespCache`. -/
def evict (srv : HTTPServer) : Option HTTPServer := do
  if srv.req_to_cache_node_iter_.length ≥ kMaxReqCached then
    let back ← srv.cache_node_list_.getLast?
    some { srv with
      req_to_cache_node_iter_ := srv.eraseEntry hash heap back.req
      cache_node_list_ := srv.cache_node_list_.dropLast }
  else
    some srv

/-- `HTTPServer::addRespCache` -/
def addRespCache (srv : HTTPServer) (req : ConnId) (resp : HTTPResponse) : Option HTTPServer := do
  let srv ← srv.evict hash heap
  some { srv with
    cache_node_list_ := ⟨srv.next_node, req, resp⟩ :: srv.cache_node_list_
    req_to_cache_node_iter_ := srv.emplaceEntry hash heap req srv.next_node
    next_node := srv.next_node + 1 }

/-- `HTTPServer::getRespCache`; the inner `none` is `false`. -/
def getRespCache (srv : HTTPServer) (req : ConnId) : Option (Option (HTTPServer × HTTPResponse)) :=
  match srv.findEntry hash heap req with
  | none => some none
  | some e => do
    let node ← srv.cache_node_list_.find? (·.id = e.iter)
    let nodes := if srv.cache_node_list_.head?.map CacheNode.id = some e.iter then
        srv.cache_node_list_
      else
        node :: srv.cache_node_list_.eraseP (·.id = e.iter)
    some (some ({ srv with cache_node_list_ := nodes }, node.resp))

/-- `response` is the object the first node of the list points to; store it there. -/
def writeBack (srv : HTTPServer) (resp : HTTPResponse) : HTTPServer :=
  match srv.cache_node_list_ with
  | [] => srv
  | node :: nodes => { srv with cache_node_list_ := { node with resp } :: nodes }

end Cache

/-- The decision of `connectionOnRead` whether to close the connection. -/
def closes (request : HTTPRequest) (response : HTTPResponse) : HTTPResponse :=
  match request.getHeader (bytes "Connection") with
  | none => response
  | some conn_value => response.setCloseConnection
      (conn_value = bytes "close" ||
        (request.version_ = .kHttp10 && conn_value = bytes "Keep-Alive"))

/-- The response of `connectionOnRead` to a request that can be handled. -/
def handleRequest (hash : HTTPRequest → Nat) (heap : ConnId → HTTPRequest) (srv : HTTPServer)
    (self : ConnId) (cb : ResponseCallback) : Option (HTTPServer × HTTPResponse) := do
  let request := heap self
  if srv.kUseRespCache then
    match ← srv.getRespCache hash heap self with
    | some (srv, response) =>
      some (srv.writeBack (closes request response), closes request response)
    | none =>
      let response := cb.run request .new
      let srv ← srv.addRespCache hash heap self response
      some (srv.writeBack (closes request response), closes request response)
  else
    some (srv, closes request (cb.run request .new))

end HTTPServer

/-- What the handlers of a connection keep outside of it. -/
structure Upper where
  context : HTTPContext
  server : HTTPServer

section OnRead

variable (hash : HTTPRequest → Nat)

/-- `HTTPServer::connectionOnRead` between parsing and sending: the response to send, if any. -/
def respond (heap : ConnId → HTTPRequest) (self : ConnId) (ok : Bool) (up : Upper) :
    Option (Upper × Option HTTPResponse) :=
  if up.context.parseFinished then
    let context := up.context.resetState
    match up.server.responseCallbacks_ context.request_.path_ with
    | some cb => do
      let heap := Function.update heap self context.request_
      let (server, response) ← up.server.handleRequest hash heap self cb
      some (⟨context, server⟩, some response)
    | none => some (⟨context, up.server⟩, some HTTPServer.not_found_resp_)
  else if ok then
    some (up, none)
  else
    some (up, some HTTPServer.bad_request_resp_)

variable {B I : Type} [BufferType B I]

/-- `conn->send` and `conn->shutdown` at the end of `connectionOnRead`. -/
def sendResponse (conn : TCPConnection B Upper) (response : HTTPResponse) (w : WriteResult) :
    Option (TCPConnection B Upper) := do
  let conn ← conn.send (← response.appendToBuffer) w
  if response.close_connection_ then some conn.shutdown else some conn

/-- `HTTPServer::connectionOnRead` -/
def connectionOnRead (heap : ConnId → HTTPRequest) (self : ConnId) (w : WriteResult)
    (conn : TCPConnection B Upper) : Option (TCPConnection B Upper) := do
  let (ok, context, in_buffer) ← conn.context_.context.parseRequest conn.in_buffer_
  let (up, response) ← respond hash heap self ok { conn.context_ with context }
  let conn := { conn with in_buffer_ := in_buffer, context_ := up }
  match response with
  | none => some conn
  | some response => sendResponse conn response w

end OnRead

/-! ## The world -/

/-- The connection with another context. -/
def withContext {B Ctx Ctx' : Type} (c : TCPConnection B Ctx) (context : Ctx') :
    TCPConnection B Ctx' where
  channel_ := c.channel_
  status_ := c.status_
  in_buffer_ := c.in_buffer_
  out_buffer_ := c.out_buffer_
  context_ := context
  interest := c.interest
  log := c.log

/-- The server and its connections. -/
structure World (B : Type) where
  server : HTTPServer
  conns : ConnId → TCPConnection B HTTPContext

/-- The conditions `ready` hold on the fd of a connection; `r` is what a read answers, `onRead` and
    `onWrite` what the write of `connectionOnRead` and that of `handleWrite` answer. -/
structure Event where
  conn : ConnId
  ready : Mask
  r : ReadResult
  onRead : WriteResult
  onWrite : WriteResult

namespace World

variable {B I : Type} [BufferType B I] (hash : HTTPRequest → Nat)

/-- The request objects. -/
def heap (world : World B) (id : ConnId) : HTTPRequest := (world.conns id).context_.request_

/-- A server whose connections have just been created. -/
def new (server : HTTPServer) : World B := ⟨server, fun _ => .created .new⟩

/-- One event of one connection. -/
def step (world : World B) (e : Event) : Option (World B) := do
  let c := world.conns e.conn
  match c.poll e.ready with
  | none => some world
  | some revents =>
    let c ← (withContext c (Upper.mk c.context_ world.server)).handleEvent revents e.r
      (connectionOnRead hash world.heap e.conn e.onRead) e.onWrite
    some ⟨c.context_.server, Function.update world.conns e.conn (withContext c c.context_.context)⟩

end World

end WebServer.Http
