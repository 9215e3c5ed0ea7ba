import WebServer.Net.BufferType

/-!
# Channels and connections

Model of `channel/channel.{h,cc}`, `connection/tcp_connection.{h,cc}` and of the calls they make to the
poller (`poller/epoll_poller.cc`), for one connection.

A `TCPConnection` is a state, and a handler is a partial function on it: undefined when an operation on
a buffer is. Next to the members of the class the state has what the kernel keeps for the fd
(`interest`, the mask last registered with epoll) and a `log` of what the handlers did, oldest first.
The kernel's answers to reads and writes are arguments of the handlers. The assertion of `handleCreate`
and that of `handleWrite` are logged with their outcome; as in the Release build nothing follows from
them. A `SendCallback` is the byte strings it appends, at least one byte in all.

`TCPConnection.poll` is what `epoll_wait` reports of the conditions that are ready on the fd: the
registered ones, `POLLERR` and `POLLHUP`. Callbacks of the upper layer are arguments: the read callback
a function on the connection, and the close callback a log entry.
-/

namespace WebServer.Net

/-- A set of poll events (`size_t events_type_`). -/
abbrev Mask := BitVec 64

def POLLIN : Mask := 0x1
def POLLPRI : Mask := 0x2
def POLLOUT : Mask := 0x4
def POLLERR : Mask := 0x8
def POLLHUP : Mask := 0x10
def POLLNVAL : Mask := 0x20
def POLLRDHUP : Mask := 0x2000

/-- Some event of `t` is in `s`. -/
def Mask.meets (s t : Mask) : Bool := s &&& t != 0

/-- `class Channel`, without its callbacks. -/
structure Channel where
  events_type_ : Mask
deriving DecidableEq, Repr

namespace Channel

def kReadEvent : Mask := POLLIN ||| POLLPRI
def kWriteEvent : Mask := POLLOUT
def kNoneEvent : Mask := 0

def enableReading (ch : Channel) : Channel := ⟨ch.events_type_ ||| kReadEvent⟩
def enableWriting (ch : Channel) : Channel := ⟨ch.events_type_ ||| kWriteEvent⟩
def disableWriting (ch : Channel) : Channel := ⟨ch.events_type_ &&& ~~~kWriteEvent⟩
def isWriting (ch : Channel) : Bool := Mask.meets ch.events_type_ kWriteEvent

@[simp] lemma isWriting_enableWriting (ch : Channel) : ch.enableWriting.isWriting = true := by
  simp only [isWriting, enableWriting, Mask.meets, kWriteEvent, bne_iff_ne, ne_eq]
  intro h
  have hb := congrArg (·.getLsbD 2) h
  simp [POLLOUT] at hb

@[simp] lemma isWriting_disableWriting (ch : Channel) : ch.disableWriting.isWriting = false := by
  simp only [isWriting, disableWriting, Mask.meets, bne_eq_false_iff_eq, BitVec.and_assoc]
  rw [show ~~~kWriteEvent &&& kWriteEvent = 0 from by decide]
  exact BitVec.and_zero

end Channel

/-- `TCPConnection::Status` -/
inductive Status where
  | kConnecting
  | kConnected
  | kDisconnecting
  | kDisconnected
deriving DecidableEq, Repr

/-- What a handler did. -/
inductive Action where
  /-- A send callback appended these bytes to `out_buffer_`. -/
  | append (bs : Bytes)
  /-- `write` or `writev` on the fd. -/
  | write (call : WriteCall)
  /-- `read` or `readv` on the fd, with the value returned. -/
  | read (ret : Int)
  /-- `shutdown(fd, SHUT_WR)` -/
  | shutdownWr
  /-- `epoll_ctl(EPOLL_CTL_ADD)` with this mask. -/
  | addChannel (mask : Mask)
  /-- `epoll_ctl(EPOLL_CTL_MOD)` with this mask. -/
  | updateChannel (mask : Mask)
  /-- `epoll_ctl(EPOLL_CTL_DEL)` -/
  | removeChannel
  /-- The call of `closeCallback_`. -/
  | closeCallback
  /-- An assertion on `status_` was reached; it holds or not. -/
  | assert (holds : Bool)
deriving DecidableEq, Repr

/-- The byte strings a `SendCallback` appends; it appends at least one byte. -/
structure SendCallback where
  appends : List Bytes
  ne_nil : appends.flatten ≠ []

/-- `class TCPConnection`, with the kernel's interest mask for its fd and the log. -/
structure TCPConnection (B Ctx : Type) where
  channel_ : Channel
  status_ : Status
  in_buffer_ : B
  out_buffer_ : B
  context_ : Ctx
  interest : Option Mask
  log : List Action
deriving DecidableEq, Repr

namespace TCPConnection

variable {B I Ctx : Type} [BufferType B I]

/-- `TCPConnection::TCPConnection` -/
def new (context : Ctx) : TCPConnection B Ctx where
  channel_ := ⟨Channel.kNoneEvent⟩
  status_ := .kConnecting
  in_buffer_ := BufferType.new
  out_buffer_ := BufferType.new
  context_ := context
  interest := none
  log := []

section Handlers

variable (c : TCPConnection B Ctx)

def record (a : Action) : TCPConnection B Ctx := { c with log := c.log ++ [a] }

/-- `EventLoop::addChannelInPoller` -/
def addChannelInPoller : TCPConnection B Ctx :=
  { c with interest := some c.channel_.events_type_ }.record (.addChannel c.channel_.events_type_)

/-- `EventLoop::updateChannelInPoller`; the kernel changes the mask of a registered fd only. -/
def updateChannelInPoller : TCPConnection B Ctx :=
  { c with interest := c.interest.map fun _ => c.channel_.events_type_ }.record
    (.updateChannel c.channel_.events_type_)

/-- `EventLoop::removeChannelInPoller` -/
def removeChannelInPoller : TCPConnection B Ctx :=
  { c with interest := none }.record .removeChannel

/-- `TCPConnection::handleCreate`, before `createCallback_`. -/
def handleCreate : TCPConnection B Ctx :=
  let c := c.record (.assert (c.status_ = .kConnecting))
  let c := { c with channel_ := c.channel_.enableReading }.addChannelInPoller
  { c with status_ := .kConnected }

/-- `TCPConnection::handleClose` -/
def handleClose : TCPConnection B Ctx :=
  if c.status_ ≠ .kDisconnected then
    let c := c.removeChannelInPoller
    { c with status_ := .kDisconnected }.record .closeCallback
  else
    c

/-- `TCPConnection::handleError` -/
def handleError : TCPConnection B Ctx := c.handleClose

/-- `TCPConnection::shutdown` -/
def shutdown : TCPConnection B Ctx :=
  if c.status_ = .kDisconnected then
    c
  else
    let c := { c with status_ := .kDisconnecting }
    if !c.channel_.isWriting then c.record .shutdownWr else c

/-- `out_buffer_.readToFD(channel_->fd())` -/
def readToFD (w : WriteResult) : Option (Int × TCPConnection B Ctx) := do
  let (call, out) ← BufferType.readToFD c.out_buffer_ w
  some (call.ret, { c with out_buffer_ := out }.record (.write call))

/-- `TCPConnection::send` -/
def send (cb : SendCallback) (w : WriteResult) : Option (TCPConnection B Ctx) := do
  let out ← cb.appends.foldlM BufferType.append c.out_buffer_
  let c := { c with out_buffer_ := out }.record (.append cb.appends.flatten)
  if !c.channel_.isWriting then
    let (n, c) ← c.readToFD w
    if n < 0 then
      some c.handleError
    else if (← BufferType.readableSize c.out_buffer_) > 0 then
      some { c with channel_ := c.channel_.enableWriting }.updateChannelInPoller
    else
      some c
  else
    some c

/-- `TCPConnection::handleWrite` -/
def handleWrite (w : WriteResult) : Option (TCPConnection B Ctx) := do
  let c := c.record (.assert (c.status_ = .kConnected))
  let (n, c) ← c.readToFD w
  if n < 0 then
    some c.handleError
  else if (← BufferType.readableSize c.out_buffer_) = 0 then
    let c := { c with channel_ := c.channel_.disableWriting }.updateChannelInPoller
    if c.status_ = .kDisconnecting then some c.shutdown else some c
  else
    some c

/-- `TCPConnection::handleRead` -/
def handleRead (r : ReadResult)
    (readCallback_ : TCPConnection B Ctx → Option (TCPConnection B Ctx)) :
    Option (TCPConnection B Ctx) := do
  if c.status_ = .kConnected ∨ c.status_ = .kDisconnecting then
    let (n, in_buffer) ← BufferType.writeFromFD c.in_buffer_ r
    let c := { c with in_buffer_ := in_buffer }.record (.read n)
    if n > 0 then
      readCallback_ c
    else if n = 0 then
      some c.handleClose
    else
      some c.handleError
  else
    some c

/-- `Channel::handleEvent` with the callbacks set by the constructor of `TCPConnection`. -/
def handleEvent (revents : Mask) (r : ReadResult)
    (readCallback_ : TCPConnection B Ctx → Option (TCPConnection B Ctx)) (w : WriteResult) :
    Option (TCPConnection B Ctx) := do
  let c := if revents.meets POLLHUP && !revents.meets POLLIN then c.handleClose else c
  let c := if revents.meets (POLLERR ||| POLLNVAL) then c.handleError else c
  let c ← if revents.meets (POLLIN ||| POLLRDHUP ||| POLLPRI) then c.handleRead r readCallback_
    else some c
  if revents.meets POLLOUT then c.handleWrite w else some c

/-- What `epoll_wait` reports for the fd when the conditions `ready` hold on it. -/
def poll (ready : Mask) : Option Mask := do
  let mask ← c.interest
  let revents := ready &&& (mask ||| POLLERR ||| POLLHUP)
  if revents = 0 then none else some revents

end Handlers

/-- `TCPConnection` after its constructor and `handleCreate`. -/
def created (context : Ctx) : TCPConnection B Ctx := (new context).handleCreate

end TCPConnection

end WebServer.Net
