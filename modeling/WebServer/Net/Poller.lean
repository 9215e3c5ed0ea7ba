import WebServer.Net.TCPConnection
import WebServer.Net.TCPServer

/-!
# The poller of an IO loop and the kernel

Model of `poller/epoll_poller.cc` and `fd_handler/fd_handler.cc` with one IO loop, the connections that the server
gives to it and the file descriptors of the process.

`interest` is the set of fds of the epoll instance, which `epoll_ctl` changes and from which a closed fd goes;
`fd2channels_` is the map of the poller, whose `operator[]` makes an empty entry for a key that it does not have.
`EPOLL_CTL_MOD` changes neither. `epoll_ctl` succeeds on open fds. The number of a closed fd can be given out again
at once, to a connection of this loop or to anything else in the process (`others`).

The fd of a channel is closed after its last owner is gone: the `TCPConnection`, which the registry of the server
holds until the connection is closed, the map, or `active_channels_`. The copy of that list over which the loop
goes and the guard in `Channel::handleEvent` are among its entries until the next poll clears it.

If the main thread takes itself for the thread of the loop, it executes `handleCreate` itself. That is three steps
(`Creating`), between which the IO thread may do others. The IO thread does what it does to its poller in one.
-/

namespace WebServer.Net

/-- A channel of the loop: that of the eventfd or that of a connection. -/
abbrev ChannelPtr := Active Nat

/-- A `TCPConnection` of the loop and its channel. -/
structure PolledConnection where
  fd : Nat
  status_ : Status
  /-- The channel is there, and so its fd is open. -/
  opened : Bool
  /-- The `TCPConnection` is there. -/
  object : Bool
  /-- `closeCallback_` was called. -/
  closed : Bool
deriving DecidableEq, Repr

/-- Where the main thread is in a `handleCreate` that it executes itself. -/
inductive Creating where
  /-- Before `epollCtlWrapper` of `addChannel`. -/
  | ctl (c : Nat)
  /-- Before the assignment to `fd2channels_[fd]`. -/
  | insert (c : Nat)
  /-- Before the assignment to `status_`. -/
  | status (c : Nat)
deriving DecidableEq, Repr

/-- The map `fd2channels_`; `none` is an empty `ChannelPtr`. -/
abbrev ChannelMap := List (Nat × Option ChannelPtr)

namespace ChannelMap

def keys (m : ChannelMap) : List Nat := m.map Prod.fst

/-- `fd2channels_[fd]`: the value, and an empty entry if there was none. -/
def subscript (m : ChannelMap) (fd : Nat) : ChannelMap × Option ChannelPtr :=
  match m.lookup fd with
  | some ch => (m, ch)
  | none => (m ++ [(fd, none)], none)

/-- `fd2channels_[fd] = ch` -/
def assign (m : ChannelMap) (fd : Nat) (ch : ChannelPtr) : ChannelMap :=
  m.filter (fun entry => entry.1 ≠ fd) ++ [(fd, some ch)]

/-- `fd2channels_.erase(fd)` -/
def erase (m : ChannelMap) (fd : Nat) : ChannelMap := m.filter fun entry => entry.1 ≠ fd

/-- The loop of `EpollPoller::poll` over the events. An empty `ChannelPtr` is dereferenced, which is undefined. -/
def collect (m : ChannelMap) : List Nat → Option (ChannelMap × List ChannelPtr)
  | [] => some (m, [])
  | fd :: fds =>
    match m.subscript fd with
    | (_, none) => none
    | (m, some ch) => do
      let (m, chs) ← m.collect fds
      some (m, ch :: chs)

end ChannelMap

structure PolledLoop where
  /-- The tasks are the create tasks of the connections. -/
  loop_ : EventLoop Nat Nat Thread
  wakeup_fd_ : Nat
  fd2channels_ : ChannelMap
  active_channels_ : List ChannelPtr
  /-- The fds of the epoll instance. -/
  interest : List Nat
  conns : List PolledConnection
  /-- The other open fds of the process. -/
  others : List Nat
  /-- A `handleCreate` that the main thread executes. -/
  creating : Option Creating
deriving DecidableEq, Repr

namespace PolledLoop

/-- `EventLoopThread::EventLoopThread`; what else is open in the process is opened by steps. -/
def new (wakeup_fd : Nat) : PolledLoop where
  loop_ := .newThread .main
  wakeup_fd_ := wakeup_fd
  fd2channels_ := [(wakeup_fd, some .wakeup)]
  active_channels_ := []
  interest := [wakeup_fd]
  conns := []
  others := []
  creating := none

def isOpen (s : PolledLoop) (fd : Nat) : Bool :=
  fd = s.wakeup_fd_ || s.others.contains fd || s.conns.any fun conn => conn.opened && conn.fd = fd

/-- `epollCtlWrapper(ch, EPOLL_CTL_ADD)` -/
def epollCtlAdd (s : PolledLoop) (fd : Nat) : PolledLoop :=
  if s.isOpen fd then { s with interest := s.interest.insert fd } else s

/-- `epollCtlWrapper(ch, EPOLL_CTL_DEL)` -/
def epollCtlDel (s : PolledLoop) (fd : Nat) : PolledLoop :=
  if s.isOpen fd then { s with interest := s.interest.filter (· ≠ fd) } else s

def assign (s : PolledLoop) (fd : Nat) (ch : ChannelPtr) : PolledLoop :=
  { s with fd2channels_ := s.fd2channels_.assign fd ch }

/-- `EpollPoller::addChannel` -/
def addChannel (s : PolledLoop) (fd : Nat) (ch : ChannelPtr) : PolledLoop := (s.epollCtlAdd fd).assign fd ch

/-- `EpollPoller::removeChannel` -/
def removeChannel (s : PolledLoop) (fd : Nat) : PolledLoop :=
  { s.epollCtlDel fd with fd2channels_ := s.fd2channels_.erase fd }

def modifyConn (s : PolledLoop) (c : Nat) (f : PolledConnection → PolledConnection) : PolledLoop :=
  { s with conns := s.conns.modify c f }

/-- `TCPConnection::handleCreate`, in the IO thread. -/
def handleCreate (s : PolledLoop) (c : Nat) : Option PolledLoop := do
  let conn ← s.conns[c]?
  if conn.status_ = .kConnecting then
    some ((s.addChannel conn.fd (.other c)).modifyConn c fun conn => { conn with status_ := .kConnected })
  else
    none

/-- `TCPConnection::handleClose` -/
def handleClose (s : PolledLoop) (c : Nat) : Option PolledLoop := do
  let conn ← s.conns[c]?
  if conn.status_ ≠ .kDisconnected then
    some ((s.removeChannel conn.fd).modifyConn c fun conn =>
      { conn with status_ := .kDisconnected, closed := true })
  else
    some s

/-- What the IO thread does when its loop leaves this phase. The callbacks of a connection may close it. -/
def handle (s : PolledLoop) (closes : Bool) : Phase Nat Nat → Option PolledLoop
  -- `EpollPoller::poll` up to `epoll_wait`
  | .check => some { s with active_channels_ := [] }
  | .handling (.other c :: _) => if closes then s.handleClose c else some s
  | .executing (c :: _) => do
    let s' ← s.handleCreate c
    if closes then s'.handleClose c else some s'
  | _ => some s

inductive Move where
  /-- The IO thread enters `EventLoop::startLoop`. -/
  | startLoop
  /-- `epoll_wait` returns with these fds. -/
  | poll (events : List Nat)
  /-- The IO thread goes on. -/
  | next (closes : Bool)
  /-- The main thread accepts a connection with this fd and passes its `handleCreate` to `runInLoop`. -/
  | accept (fd : Nat)
  /-- The main thread goes on with a `handleCreate` that it executes. -/
  | create
  /-- The main thread writes to the eventfd. -/
  | wakeup
  /-- The last reference to the `TCPConnection` goes. -/
  | release (c : Nat)
  /-- The channel goes, and its fd is closed. -/
  | destroy (c : Nat)
  /-- Something else in the process opens an fd. -/
  | openOther (fd : Nat)
  /-- Something else in the process closes an fd. -/
  | closeOther (fd : Nat)
deriving DecidableEq, Repr

/-- A new connection with this fd. -/
def newConn (s : PolledLoop) (fd : Nat) : PolledLoop :=
  { s with conns := s.conns ++ [⟨fd, .kConnecting, true, true, false⟩] }

/-- `runInLoop` with the `handleCreate` of the connection, in the main thread. -/
def runInLoop (s : PolledLoop) (c : Nat) : Option PolledLoop := do
  let loop ← s.loop_.step (.runInLoop .main c)
  some { s with loop_ := loop, creating := if s.loop_.thread_id_ = .main then some (.ctl c) else none }

/-- `acceptorReadCallback` for a connection of this loop. -/
def accept (s : PolledLoop) (fd : Nat) : Option PolledLoop :=
  if s.isOpen fd = true ∨ s.creating ≠ none then none else (s.newConn fd).runInLoop s.conns.length

/-- `handleCreate` in the main thread, step by step; the connection is new. -/
def create (s : PolledLoop) : Option PolledLoop :=
  match s.creating with
  | none => none
  | some (.ctl c) => do
    let conn ← s.conns[c]?
    some { s.epollCtlAdd conn.fd with creating := some (.insert c) }
  | some (.insert c) => do
    let conn ← s.conns[c]?
    some { s.assign conn.fd (.other c) with creating := some (.status c) }
  | some (.status c) =>
    some { s.modifyConn c fun conn => { conn with status_ := .kConnected } with creating := none }

/-- The channel has an owner. -/
def owned (s : PolledLoop) (c : Nat) : Bool :=
  s.conns[c]?.any (·.object) || s.fd2channels_.any (fun entry => entry.2 = some (.other c)) ||
    s.active_channels_.contains (.other c)

def step (s : PolledLoop) : Move → Option PolledLoop
  | .startLoop => do
    let loop ← s.loop_.step (.startLoop (.io 0))
    some { s with loop_ := loop }
  | .poll events =>
    if events.all (s.interest.contains ·) then do
      let (fd2channels, active) ← s.fd2channels_.collect events
      let loop ← s.loop_.step (.poll active)
      some { s with loop_ := loop, fd2channels_ := fd2channels, active_channels_ := active }
    else
      none
  | .next closes => do
    let loop ← s.loop_.step .next
    { s with loop_ := loop }.handle closes s.loop_.phase
  | .accept fd => s.accept fd
  | .create => s.create
  | .wakeup => do
    let loop ← s.loop_.step (.wakeup .main)
    some { s with loop_ := loop }
  | .release c => do
    let conn ← s.conns[c]?
    if conn.closed = true then
      some (s.modifyConn c fun conn => { conn with object := false })
    else
      none
  | .destroy c => do
    let conn ← s.conns[c]?
    if conn.opened = true ∧ s.owned c = false then
      some { s.modifyConn c fun conn => { conn with opened := false } with
        interest := s.interest.filter (· ≠ conn.fd) }
    else
      none
  | .openOther fd => if s.isOpen fd = true then none else some { s with others := fd :: s.others }
  | .closeOther fd => some { s with others := s.others.filter (· ≠ fd) }

end PolledLoop

end WebServer.Net
