import WebServer.Webbench.Exchange

/-!
# The client of the benchmark

Model of the inner loop of `benchcore` in `tests/webbench/webbench.c`: a client that has connected sends its request
and reads what comes, on a socket that does not block. What the kernel answers is an input. The bytes read are stored
in `buf` one after the other, with a limit for each read that is the size of all of `buf`: more bytes than that
overrun it, which is undefined.

A `Joint` is a client and a server, with other connections, where the bytes of each side get to the other one in order
(`Arrives`). In no run of it does the client read anything but the first bytes of the one response to its request
(`webbench_reads`), and if the response fits into `buf`, the client does not overrun it.
-/

namespace WebServer.Webbench

open Net Log Lib Http LawfulBuffer

/-- `sizeof(buf)` -/
def kBufSize : Nat := 65536

/-- The variables of one connection of `benchcore`, and the global `buf`. -/
structure Client where
  wlen : Nat
  /-- `event.events & POLLOUT` -/
  watching : Bool
  requested : Bool
  responsed : Bool
  failed_try : Bool
  /-- The loop has not been left. -/
  running : Bool
  buf : Vector UInt8 kBufSize
  /-- `buf_ptr - buf` -/
  buf_ptr : Nat
  bytes : Int

/-- What the kernel answers in one round of the loop. -/
structure Round where
  timerexpired : Bool
  /-- What `epoll_wait` would report; `none` if it fails. -/
  ready : Option Mask
  write : WriteResult
  read : ReadResult
  /-- The value of `shutdown`. -/
  shutdown : Int

namespace Client

/-- A client that has connected. -/
def new (buf : Vector UInt8 kBufSize) (bytes : Int) : Client :=
  ⟨0, true, false, false, false, true, buf, 0, bytes⟩

/-- `break` -/
def leave (c : Client) : Client := { c with running := false }

/-- `failed_try = 1; break;` -/
def fail (c : Client) : Client := { c with failed_try := true, running := false }

variable (http10 : Nat) (force : Bool) (req : Bytes) (c : Client)

/-- The part of a round for `POLLOUT`. -/
def sends (r : Round) : Client :=
  let c := { c with requested := true }
  let n := sysw.write (req.drop c.wlen) r.write
  if n < 0 then
    if r.write = .error .EAGAIN then c else c.fail
  else
    let c := { c with wlen := c.wlen + n.toNat }
    if c.wlen = req.length then
      let c := { c with watching := false }
      if http10 = 0 ∧ r.shutdown ≠ 0 then
        c.fail
      else if force then
        c.leave
      else
        c
    else
      c

omit c in
/-- What is read into the buffer does not change its size. -/
lemma stored_size {buf : Vector UInt8 kBufSize} {n : Nat} {data : Bytes} (h : n + data.length ≤ kBufSize) :
    (buf.toList.take n ++ data ++ buf.toList.drop (n + data.length)).toArray.size = kBufSize := by
  simp only [List.size_toArray, List.length_append, List.length_take, List.length_drop, Vector.length_toList]
  omega

/-- `read(sock_fd, buf_ptr, sizeof(buf))` and what follows it. -/
def receives (r : Round) : Option Client :=
  let c := { c with responsed := true }
  let (i, data) := sysw.read kBufSize r.read
  if i < 0 then
    some (if r.read = .error .EAGAIN then c else c.fail)
  else if i = 0 then
    some c.leave
  else
    if h : c.buf_ptr + data.length ≤ kBufSize then
      some { c with
        buf := ⟨(c.buf.toList.take c.buf_ptr ++ data ++ c.buf.toList.drop (c.buf_ptr + data.length)).toArray,
          stored_size h⟩
        buf_ptr := c.buf_ptr + data.length
        bytes := c.bytes + i }
    else
      none

/-- What `epoll_wait` reports of what is ready. -/
def poll (ready : Mask) : Mask :=
  ready &&& ((if c.watching then POLLOUT else 0) ||| POLLIN ||| POLLPRI ||| POLLERR ||| POLLHUP)

/-- One round of the loop. -/
def round (r : Round) : Option Client :=
  if ¬c.running then
    some c
  else if r.timerexpired then
    some c.leave
  else
    match r.ready with
    | none => some c.fail
    | some ready =>
      if (c.poll ready).meets POLLOUT then
        some (c.sends http10 force req r)
      else if (c.poll ready).meets (POLLIN ||| POLLPRI) then
        c.receives r
      else if (c.poll ready).meets (POLLERR ||| POLLNVAL) then
        some c.fail
      else
        some c

/-- What the client has sent. -/
def sent : Bytes := req.take c.wlen

/-- What the client has read. -/
def got : Bytes := c.buf.toList.take c.buf_ptr

end Client

/-! ## A client and a server -/

/-- A client, and a server with its connections. -/
structure Joint (B : Type) where
  tally : Tally B
  client : Client

/-- A step of the server or of the client. -/
inductive JointEvent where
  | server (e : Http.Event)
  | client (r : Round)

namespace Joint

variable {B I : Type} [BufferType B I] [LawfulBuffer B I]

def new (callbacks : Bytes → Option ResponseCallback) (buf : Vector UInt8 kBufSize) (bytes : Int) : Joint B :=
  ⟨.new callbacks, .new buf bytes⟩

def step (hash : HTTPRequest → Nat) (force : Bool) (b : Built) (j : Joint B) : JointEvent → Option (Joint B)
  | .server e => do some ⟨← j.tally.step hash e, j.client⟩
  | .client r => do some ⟨j.tally, ← j.client.round b.http10 force b.request r⟩

/-- What a read of the connection `id` or of the client gets is what comes next of the bytes that the other side has
    sent. -/
def Arrives (id : ConnId) (b : Built) (j : Joint B) : JointEvent → Prop
  | .server e => e.conn = id →
      (j.tally.received id).flatten ++ (sysw.read (capacity (j.tally.world.conns id).in_buffer_) e.r).2 <+:
        j.client.sent b.request
  | .client r => j.client.got ++ (sysw.read kBufSize r.read).2 <+: accepted (j.tally.world.conns id).log

end Joint

/-! ## Rounds of the client -/

namespace Client

variable {http10 : Nat} {force : Bool} {req : Bytes} {c c' : Client} {r : Round}

/-- The variables are in their ranges. -/
structure Valid (req : Bytes) (start : Int) (c : Client) : Prop where
  wlen : c.wlen ≤ req.length
  buf_ptr : c.buf_ptr ≤ kBufSize
  bytes : c.bytes = start + c.buf_ptr

/-- As many bytes were read as the position says. -/
lemma got_length (h : c.buf_ptr ≤ kBufSize) : c.got.length = c.buf_ptr := by
  rw [got, List.length_take, Vector.length_toList]
  omega

/-- Sending changes nothing but what has been sent. -/
lemma sends_spec (h : c.wlen ≤ req.length) :
    (c.sends http10 force req r).wlen ≤ req.length ∧ c.wlen ≤ (c.sends http10 force req r).wlen ∧
      (c.sends http10 force req r).buf = c.buf ∧ (c.sends http10 force req r).buf_ptr = c.buf_ptr ∧
      (c.sends http10 force req r).bytes = c.bytes := by
  have le := @sysw.write_le (req.drop c.wlen) r.write
  rw [List.length_drop] at le
  unfold sends
  dsimp only
  split_ifs <;> refine ⟨?_, ?_, rfl, rfl, rfl⟩ <;> simp only [fail, leave] <;> omega

/-- A read that is defined adds what is read to what has been read. -/
lemma receives_cases (h : c.buf_ptr ≤ kBufSize) (e : c.receives r = some c') :
    c'.wlen = c.wlen ∧ c'.buf_ptr ≤ kBufSize ∧ c'.bytes - c'.buf_ptr = c.bytes - c.buf_ptr ∧
      (c'.got = c.got ∨ c'.got = c.got ++ (sysw.read kBufSize r.read).2) := by
  unfold receives at e
  dsimp only at e
  split at e
  case isTrue =>
    cases e
    split_ifs
    · exact ⟨rfl, h, rfl, .inl rfl⟩
    · exact ⟨rfl, h, rfl, .inl rfl⟩
  case isFalse nonneg =>
    split at e
    case isTrue =>
      cases e
      exact ⟨rfl, h, rfl, .inl rfl⟩
    case isFalse nonzero =>
      split at e
      case isTrue room =>
        have count := (sysw.read_pos (show 0 < (sysw.read kBufSize r.read).1 by omega)).1
        have front : (c.buf.toList.take c.buf_ptr).length = c.buf_ptr := got_length h
        cases e
        refine ⟨rfl, room, ?_, .inr ?_⟩
        · dsimp only
          push_cast
          omega
        · refine List.take_left' ?_
          rw [List.length_append, front]
      case isFalse => cases e

/-- A read is defined if `buf` has room for what is read. -/
lemma receives_defined (h : c.buf_ptr ≤ kBufSize)
    (room : (c.got ++ (sysw.read kBufSize r.read).2).length ≤ kBufSize) : ∃ c', c.receives r = some c' := by
  rw [List.length_append, got_length h] at room
  unfold receives
  dsimp only
  split
  case isTrue => exact ⟨_, rfl⟩
  case isFalse =>
    split
    case isTrue => exact ⟨_, rfl⟩
    case isFalse => exact ⟨_, rfl⟩

/-- What a round of the loop does: it sends, it reads or it only goes on or leaves the loop. -/
lemma round_cases (e : c.round http10 force req r = some c') :
    c' = c.sends http10 force req r ∨ c.receives r = some c' ∨
      c'.wlen = c.wlen ∧ c'.buf = c.buf ∧ c'.buf_ptr = c.buf_ptr ∧ c'.bytes = c.bytes := by
  unfold round at e
  split at e
  case isTrue =>
    cases e
    exact .inr (.inr ⟨rfl, rfl, rfl, rfl⟩)
  case isFalse =>
    split at e
    case isTrue =>
      cases e
      exact .inr (.inr ⟨rfl, rfl, rfl, rfl⟩)
    case isFalse =>
      cases ready : r.ready with
      | none =>
        rw [ready] at e
        cases e
        exact .inr (.inr ⟨rfl, rfl, rfl, rfl⟩)
      | some ready' =>
        rw [ready] at e
        dsimp only at e
        split_ifs at e
        · cases e
          exact .inl rfl
        · exact .inr (.inl e)
        · cases e
          exact .inr (.inr ⟨rfl, rfl, rfl, rfl⟩)
        · cases e
          exact .inr (.inr ⟨rfl, rfl, rfl, rfl⟩)

/-- A round of the loop keeps the client valid, and reads nothing or what arrived. -/
lemma round_spec {start : Int} (v : c.Valid req start) (e : c.round http10 force req r = some c') :
    c'.Valid req start ∧ c.wlen ≤ c'.wlen ∧
      (c'.got = c.got ∨ c'.got = c.got ++ (sysw.read kBufSize r.read).2) := by
  obtain ⟨wlen, buf_ptr, bytes⟩ := v
  rcases round_cases e with rfl | read | ⟨sent, buf, ptr, count⟩
  · obtain ⟨le, mono, buf, ptr, count⟩ := @sends_spec http10 force req c r wlen
    refine ⟨⟨le, ptr.trans_le buf_ptr, by rw [count, ptr, bytes]⟩, mono, .inl ?_⟩
    rw [got, got, buf, ptr]
  · obtain ⟨sent, le, count, got⟩ := receives_cases buf_ptr read
    exact ⟨⟨sent.trans_le wlen, le, by omega⟩, sent.ge, got⟩
  · refine ⟨⟨sent.trans_le wlen, ptr.trans_le buf_ptr, by rw [count, ptr, bytes]⟩, sent.ge, .inl ?_⟩
    rw [got, got, buf, ptr]

/-- A round is defined when what arrives fits the buffer. -/
lemma round_defined (h : c.buf_ptr ≤ kBufSize)
    (room : (c.got ++ (sysw.read kBufSize r.read).2).length ≤ kBufSize) :
    ∃ c', c.round http10 force req r = some c' := by
  obtain ⟨c', e⟩ := receives_defined h room
  unfold round
  split
  case isTrue => exact ⟨_, rfl⟩
  case isFalse =>
    split
    case isTrue => exact ⟨_, rfl⟩
    case isFalse =>
      cases r.ready with
      | none => exact ⟨_, rfl⟩
      | some ready =>
        dsimp only
        split_ifs
        · exact ⟨_, rfl⟩
        · exact ⟨c', e⟩
        · exact ⟨_, rfl⟩
        · exact ⟨_, rfl⟩

/-- What was sent is sent. -/
lemma sent_mono (h : c.wlen ≤ c'.wlen) : c.sent req <+: c'.sent req := List.take_prefix_take_left h

end Client

/-! ## Steps of the server -/

section Server

variable {B I : Type} [BufferType B I] [LawfulBuffer B I] {hash : HTTPRequest → Nat}

omit [BufferType B I] [LawfulBuffer B I] in
/-- A connection that goes on extends its log. -/
lemma prefix_of_extends {Ctx : Type} {c c' : TCPConnection B Ctx} {l : List Action} (h : c.Extends c' l) :
    c.log <+: c'.log := by
  rcases h with e | ⟨e, _⟩
  · exact ⟨l, e.symm⟩
  · exact ⟨l ++ [.shutdownWr], by rw [e, List.append_assoc]⟩

open TCPConnection in
/-- The log of a connection only grows. -/
lemma step_log {world world' : World B} {e : Http.Event} (sound : ∀ id, (world.conns id).Sound)
    (st : world.step hash e = some world') (id : ConnId) : (world.conns id).log <+: (world'.conns id).log := by
  rcases World.step_cases st with rfl | ⟨revents, c', hp, ev, rfl⟩
  · exact List.prefix_rfl
  · dsimp only
    by_cases own : id = e.conn
    · subst own
      rw [Function.update_self]
      obtain ⟨_, c2, c3, close, s2, read, write⟩ :=
        handleEvent_stages (withContext_sound (sound e.conn) _) ((sound e.conn).poll_out hp) ev
      have first : (world.conns e.conn).log <+: c2.log := by
        rcases close with rfl | rfl
        · exact List.prefix_rfl
        · rw [handleClose_log]
          exact List.prefix_append _ _
      have second : c2.log <+: c3.log := by
        rcases read with rfl | ⟨_, er⟩
        · exact List.prefix_rfl
        · obtain ⟨_, _, ⟨_, _, l, log, _⟩ | ⟨_, _, _, l, _, ext⟩⟩ := handleRead_served s2 er
          · exact ⟨l, log.symm⟩
          · exact prefix_of_extends ext
      have third : c3.log <+: c'.log := by
        rcases write with rfl | ⟨_, _, l, _, ext⟩
        · exact List.prefix_rfl
        · exact prefix_of_extends ext
      exact first.trans (second.trans third)
    · rw [Function.update_of_ne own]

variable {callbacks : Bytes → Option ResponseCallback} {t t' : Tally B} {e : Http.Event}

/-- What a connection has received in an event. -/
lemma step_received (st : t.step hash e = some t') (id : ConnId) :
    (t'.received id).flatten = (t.received id).flatten ∨
      e.conn = id ∧ (t'.received id).flatten =
        (t.received id).flatten ++ (sysw.read (capacity (t.world.conns id).in_buffer_) e.r).2 := by
  obtain ⟨world, _, eq⟩ := Option.bind_eq_some_iff.1 st
  cases eq
  dsimp only
  by_cases own : id = e.conn
  · subst own
    rw [Function.update_self, List.flatten_append]
    have chunk : (Tally.chunk t.world e).flatten = fetched (t.world.conns e.conn) e := by
      unfold Tally.chunk
      split
      case isTrue nil => rw [nil]; rfl
      case isFalse => simp
    rw [chunk]
    unfold fetched
    split
    · exact .inl (List.append_nil _)
    · split
      case isTrue => exact .inr ⟨rfl, rfl⟩
      case isFalse => exact .inl (List.append_nil _)
  · rw [Function.update_of_ne own]
    exact .inl rfl

end Server

/-! ## Runs -/

namespace Joint

variable {B I : Type} [BufferType B I] [LawfulBuffer B I] {hash : HTTPRequest → Nat}
  {callbacks : Bytes → Option ResponseCallback} {id : ConnId} {force : Bool} {b : Built} {start : Int}
  {j j' : Joint B} {ev : JointEvent}

/-- An event of the server leaves the client as it is. -/
lemma step_server {e : Http.Event} {t' : Tally B} (h : j.tally.step hash e = some t') :
    j.step hash force b (.server e) = some ⟨t', j.client⟩ := by
  rw [step, h]
  rfl

/-- What holds in every state reached. -/
structure Inv (callbacks : Bytes → Option ResponseCallback) (id : ConnId) (b : Built) (start : Int) (j : Joint B) :
    Prop where
  server : j.tally.Inv callbacks
  client : j.client.Valid b.request start
  towards : (j.tally.received id).flatten <+: j.client.sent b.request
  back : j.client.got <+: accepted (j.tally.world.conns id).log

/-- The invariant holds before anything was sent. -/
lemma Inv.new (buf : Vector UInt8 kBufSize) : (new callbacks buf start : Joint B).Inv callbacks id b start where
  server := .new
  client := ⟨Nat.zero_le _, Nat.zero_le _, by simp [Joint.new, Client.new]⟩
  towards := List.nil_prefix
  back := List.nil_prefix

/-- Every event that arrives as it was sent keeps the invariant. -/
lemma Inv.step (inv : j.Inv callbacks id b start) (arrives : j.Arrives id b ev)
    (st : j.step hash force b ev = some j') : j'.Inv callbacks id b start := by
  obtain ⟨server, client, towards, back⟩ := inv
  cases ev with
  | server e =>
    obtain ⟨t', step, eq⟩ := Option.bind_eq_some_iff.1 st
    cases eq
    obtain ⟨t1, step1, inv1⟩ := server.step hash e
    cases step.symm.trans step1
    obtain ⟨world, wst, rfl⟩ : ∃ world, j.tally.world.step hash e = some world ∧ t'.world = world := by
      obtain ⟨world, wst, eq⟩ := Option.bind_eq_some_iff.1 step
      cases eq
      exact ⟨world, wst, rfl⟩
    obtain ⟨l, log⟩ := step_log server.sound wst id
    refine ⟨inv1, client, ?_, ?_⟩
    · rcases step_received step id with same | ⟨own, more⟩
      · rw [same]
        exact towards
      · rw [more]
        exact arrives own
    · refine back.trans ?_
      rw [← log, accepted_append]
      exact List.prefix_append _ _
  | client r =>
    obtain ⟨c', round, eq⟩ := Option.bind_eq_some_iff.1 st
    cases eq
    obtain ⟨valid, mono, got⟩ := Client.round_spec client round
    refine ⟨server, valid, towards.trans (Client.sent_mono mono), ?_⟩
    rcases got with same | more
    · rw [same]
      exact back
    · rw [more]
      exact arrives

/-- The response has a text. -/
lemma served_text {version : Nat} {req : HTTPRequest} : ∃ text, (served callbacks version req).text = some text := by
  have not_found : HTTPServer.not_found_resp_.Listed := ⟨by decide, by decide⟩
  have listed : (served callbacks version req).Listed := by
    unfold served
    cases callbacks req.path_ with
    | none => exact not_found
    | some cb =>
      dsimp only
      split
      case isTrue => exact cb.listed req
      case isFalse => exact cb.listed req
  obtain ⟨cb, e⟩ := listed.appendToBuffer
  exact ⟨cb.appends.flatten, by rw [HTTPResponse.text, e]; rfl⟩

/-- What the server has sent is the first part of the one response, and nothing before the request has come. -/
lemma Inv.accepted_prefix {a : Args} {u : Url} (inv : j.Inv callbacks id b start) (url : a.url = u.text)
    (direct : a.proxyhost = none) (built : a.build_request = some (.ok b)) (versioned : 1 ≤ a.version)
    (clean : u.Clean) (known : a.method.known ≠ none) :
    ∃ req text, Asks a u req ∧ (served callbacks a.version req).text = some text ∧
      accepted (j.tally.world.conns id).log <+: text ∧
      (accepted (j.tally.world.conns id).log ≠ [] → (j.tally.received id).flatten = b.request) := by
  obtain rfl := built_of_ok url direct built
  obtain ⟨method, known⟩ := Option.ne_none_iff_exists'.1 known
  have asks := @asks_message a u method clean known
  obtain ⟨text, ht⟩ := @served_text callbacks a.version ((message a u clean method known).onto .new)
  obtain ⟨service, texts, run, text', stream, _⟩ := inv.server.delivers id
  have encode := encode_message clean known direct versioned
  have fol : (j.tally.received id).flatten <+: (message a u clean method known).encode := by
    rw [encode]
    exact inv.towards.trans (List.take_prefix _ _)
  refine ⟨_, text, asks, ht, ?_⟩
  cases partway_of_runs run fol with
  | unfinished =>
    cases text'
    obtain ⟨none, _⟩ := List.append_eq_nil_iff.1 stream
    rw [none]
    exact ⟨List.nil_prefix, fun ne => absurd rfl ne⟩
  | finished all =>
    rw [answer_served asks] at text'
    have one : texts = [text] := by
      have := text'
      simp [ht] at this
      exact this.symm
    rw [one, List.flatten_singleton] at stream
    exact ⟨⟨_, stream⟩, fun _ => all.trans encode⟩

end Joint

section Reads

variable {B I : Type} [BufferType B I] [LawfulBuffer B I]

/-- What the client has read is part of the response, and the next step is defined if the response fits. -/
def Reads (hash : HTTPRequest → Nat) (callbacks : Bytes → Option ResponseCallback) (force : Bool) (id : ConnId)
    (a : Args) (u : Url) (b : Built) (start : Int) (j : Joint B) : Prop :=
  ∃ req text, Asks a u req ∧ (served callbacks a.version req).text = some text ∧ j.client.got <+: text ∧
    (j.client.got ≠ [] → (j.tally.received id).flatten = b.request) ∧
    j.client.bytes = start + j.client.got.length ∧
    (text.length ≤ kBufSize → ∀ ev, j.Arrives id b ev → ∃ j', j.step hash force b ev = some j')

/-- Of a well-formed url the client reads a prefix of the one response. -/
lemma Joint.Inv.reads {hash : HTTPRequest → Nat} {callbacks : Bytes → Option ResponseCallback} {force : Bool}
    {id : ConnId} {a : Args} {u : Url} {b : Built} {start : Int} {j : Joint B} (inv : j.Inv callbacks id b start)
    (url : a.url = u.text) (direct : a.proxyhost = none) (built : a.build_request = some (.ok b))
    (versioned : 1 ≤ a.version) (clean : u.Clean) (known : a.method.known ≠ none) :
    Reads hash callbacks force id a u b start j := by
  obtain ⟨req, text, asks, ht, pre, complete⟩ := inv.accepted_prefix url direct built versioned clean known
  refine ⟨req, text, asks, ht, inv.back.trans pre, fun ne => complete fun none => ?_, ?_, ?_⟩
  · have back := inv.back
    rw [none] at back
    exact ne (List.prefix_nil.1 back)
  · rw [Client.got_length inv.client.buf_ptr]
    exact inv.client.bytes
  · intro fits ev arrives
    cases ev with
    | server e =>
      obtain ⟨t', step, _⟩ := inv.server.step hash e
      exact ⟨_, Joint.step_server step⟩
    | client r =>
      have room := ((show _ <+: _ from arrives).trans pre).length_le.trans fits
      obtain ⟨c', round⟩ := @Client.round_defined b.http10 force b.request j.client r inv.client.buf_ptr room
      exact ⟨⟨j.tally, c'⟩, by rw [Joint.step, round]; rfl⟩

end Reads

/-- A client of the benchmark that asks a server without the cache, over either type of buffer, for a `GET` or `HEAD`
    on a direct connection. Whatever the other connections do and however much is sent, received, written and read at
    a time: what the client has read is a first part of the one response to its request and was sent after all of the
    request had come, and the client counts the bytes. If the response fits into its buffer, the client does not
    overrun it. The iterators of the linked buffer's deque are taken to survive `push_back`. -/
theorem webbench_reads (a : Args) (u : Url) (b : Built) (url : a.url = u.text) (direct : a.proxyhost = none)
    (built : a.build_request = some (.ok b)) (versioned : 1 ≤ a.version) (clean : u.Clean)
    (known : a.method.known ≠ none) (hash : HTTPRequest → Nat) (callbacks : Bytes → Option ResponseCallback)
    (force : Bool) (id : ConnId) (buf : Vector UInt8 kBufSize) (start : Int) (evs : List JointEvent) :
    (∀ j : Joint Buffer, Steps (Joint.Arrives id b) (Joint.step hash force b) (.new callbacks buf start) evs j →
      Reads hash callbacks force id a u b start j) ∧
    (∀ j : Joint LinkedBuffer, Steps (Joint.Arrives id b) (Joint.step hash force b) (.new callbacks buf start) evs j →
      Reads hash callbacks force id a u b start j) := by
  constructor
  · intro j run
    have inv := run.inv (fun inv arrives st => Joint.Inv.step inv arrives st) (.new buf)
    exact inv.reads url direct built versioned clean known
  · intro j run
    have inv := run.inv (fun inv arrives st => Joint.Inv.step inv arrives st) (.new buf)
    exact inv.reads url direct built versioned clean known

/-- The kernel takes all of the request. -/
def sendRound : Round := ⟨false, some POLLOUT, .accept 1000, .error .EAGAIN, 0⟩

/-- The client has sent the request of the documentation, and the server has received it. -/
theorem webbench_reads_long :
    ∃ j : Joint Buffer, Steps (Joint.Arrives 0 (longArgs.built longUrl))
        (Joint.step (fun _ => 0) false (longArgs.built longUrl))
        (.new (fun _ => none) (Vector.replicate _ 0) 0) [.client sendRound, .server longEvent] j ∧
      (j.tally.received 0).flatten = (longArgs.built longUrl).request ∧
      Reads (fun _ => 0) (fun _ => none) false 0 longArgs longUrl (longArgs.built longUrl) 0 j := by
  have built : longArgs.build_request = some (.ok (longArgs.built longUrl)) := by decide +kernel
  have reads := webbench_reads longArgs longUrl _ (by decide) rfl built (by decide) ⟨by decide, by decide, by decide⟩
    (by decide) (fun _ => 0) (fun _ => none) false 0 (Vector.replicate _ 0) 0
    [.client sendRound, .server longEvent]
  obtain ⟨t, step, _⟩ := @Tally.Inv.step Buffer _ _ _ (fun _ => none) _ .new (fun _ => 0) longEvent
  have received : t.received 0 = _ :=
    received_first (show [longEvent].foldlM (Tally.step fun _ => 0) (.new fun _ => none) = some t from by
      rw [List.foldlM_cons, step]
      rfl)
  have run : Steps (Joint.Arrives 0 (longArgs.built longUrl))
      (Joint.step (fun _ => 0) false (longArgs.built longUrl))
      (.new (fun _ => none) (Vector.replicate _ 0) 0) [.client sendRound, .server longEvent]
      ⟨t, (Client.new (Vector.replicate _ 0) 0).sends 2 false (longArgs.built longUrl).request sendRound⟩ := by
    refine .cons ?_ rfl (.cons ?_ ?_ .nil)
    · exact List.nil_prefix
    · intro _
      decide +kernel
    · exact Joint.step_server step
  exact ⟨_, run, by rw [received]; decide +kernel, reads.1 _ run⟩

end WebServer.Webbench
