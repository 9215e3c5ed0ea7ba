import WebServer.Net.Callbacks

/-!
# Lifetime of a connection

`Channel::handleEvent` on the IO loop, callback by callback, next to the main loop, which runs the erase
task that `TCPServer::connectionCloseCallback` posts to it.

`Life` has, besides the connection, everything that owns it: the entry of `connections_`, the closures in
`pending_callbacks_` and in `excuting_callbacks` of the main loop, and a temporary of
`shared_from_this()` on the IO loop. The connection is destroyed when it has no owner left. The callbacks
of its channel are not owners: they hold `this`.

A handler is one step (`enter`), and its return another one (`leave`). What the main loop does in between
is seen after `enter`: the erase task reads the name of the connection and nothing that a handler writes.
The IO loop is never the main loop, so `runInLoop` in `connectionCloseCallback` queues. Without steps of
the main loop a run is `TCPConnection.handleEvent` (`run_handleEvent`).
-/

namespace WebServer.Net

open Lib

/-- A connection with its owners, and where the IO loop is. -/
structure Life (B Ctx : Type) where
  conn : TCPConnection B Ctx
  /-- The entry of `connections_`. -/
  registry : Bool
  /-- Erase tasks in `pending_callbacks_` of the main loop. -/
  pending : Nat
  /-- Erase tasks in `excuting_callbacks` of the main loop. -/
  executing : Nat
  /-- A temporary of `shared_from_this()` on the IO loop. -/
  held : Bool
  /-- The IO loop is in a handler of the connection. -/
  running : Bool
  /-- The callbacks `Channel::handleEvent` has still to call. -/
  todo : List Callback
  /-- A callback was called on a destroyed connection. -/
  misused : Bool

/-- A step of the IO loop or of the main loop. -/
inductive Move where
  /-- IO loop: the upper layer, which has a pointer to the connection, calls it. -/
  | call (x : TCPConnection.Call)
  /-- IO loop: the poller reports an event and `Channel::handleEvent` begins. -/
  | event (ready : Mask) (r : ReadResult) (script : List TCPConnection.Call) (w : WriteResult)
  /-- IO loop: the next callback is called. -/
  | enter
  /-- IO loop: the handler returns. -/
  | leave
  /-- Main loop: `doPendingCallbacks` takes the tasks over. -/
  | swap
  /-- Main loop: a task erases the entry. -/
  | erase
  /-- Main loop: all tasks have run and `excuting_callbacks` is destroyed. -/
  | finish

namespace Life

variable {B I Ctx : Type} [BufferType B I]

/-- A connection after `handleCreate`, with its entry. -/
def new (context : Ctx) : Life B Ctx where
  conn := .created context
  registry := true
  pending := 0
  executing := 0
  held := false
  running := false
  todo := []
  misused := false

/-- The number of `shared_ptr`s to the connection. -/
def owners (s : Life B Ctx) : Nat := s.registry.toNat + s.pending + s.executing + s.held.toNat

/-- The IO loop is in a handler that led to `c`; each call of `closeCallback_` posted a task. -/
def handling (s : Life B Ctx) (c : TCPConnection B Ctx) (shares : Bool) : Life B Ctx :=
  { s with
    conn := c
    pending := s.pending + s.conn.posts c
    held := shares || 0 < s.conn.posts c
    running := true }

def step (s : Life B Ctx) : Move → Option (Life B Ctx)
  | .call x =>
    if s.todo = [] ∧ s.running = false ∧ 0 < s.owners then do
      let c ← s.conn.call x
      some (s.handling c true)
    else
      none
  | .event ready r script w =>
    if s.todo = [] ∧ s.running = false then do
      let revents ← s.conn.poll ready
      some { s with todo := revents.callbacks r script w }
    else
      none
  | .enter =>
    match s.running, s.todo with
    | false, k :: rest =>
      if s.owners = 0 then
        some { s with misused := true }
      else do
        let c ← s.conn.callback k
        some { s.handling c (s.conn.shares k) with todo := rest }
    | _, _ => none
  | .leave => if s.running = true then some { s with running := false, held := false } else none
  | .swap => if s.executing = 0 then some { s with executing := s.pending, pending := 0 } else none
  | .erase => if 0 < s.executing then some { s with registry := false } else none
  | .finish =>
    if 0 < s.executing ∧ s.registry = false then some { s with executing := 0 } else none

/-- The event calls one callback only, or it calls the read callback, with at least one byte to read, and
    then the write callback. -/
def ClosesLast (s : Life B Ctx) : Move → Prop
  | .event ready r script w =>
    ∀ revents, s.conn.poll ready = some revents →
      (revents.callbacks r script w).length ≤ 1 ∨
      (revents.callbacks r script w = [.read r script, .write w] ∧ r.delivers = true)
  | _ => True

/-! ## The IO loop alone -/

/-- The callbacks of a poll are entered and left one after the other. -/
lemma run_callbacks {ks : List Callback} {s : Life B Ctx} {c : TCPConnection B Ctx}
    (idle : s.running = false) (todo : s.todo = ks) (reg : s.registry = true)
    (e : ks.foldlM TCPConnection.callback s.conn = some c) :
    ∃ s', (ks.flatMap fun _ => [Move.enter, .leave]).foldlM step s = some s' ∧ s'.conn = c := by
  induction ks generalizing s with
  | nil =>
    cases e
    exact ⟨s, rfl, rfl⟩
  | cons k ks ih =>
    rw [List.foldlM_cons] at e
    obtain ⟨c1, e1, e⟩ := Option.bind_eq_some_iff.1 e
    have alive : s.owners ≠ 0 := by simp [owners, reg]
    -- the connection stays in the registry, so the next callback finds it alive
    obtain ⟨s', run, hc⟩ := ih (s := { s.handling c1 (s.conn.shares k) with
      todo := ks
      running := false
      held := false }) rfl rfl reg e
    refine ⟨s', ?_, hc⟩
    rw [List.flatMap_cons, List.foldlM_append]
    simp only [List.foldlM_cons, List.foldlM_nil, step, idle, todo, if_neg alive, e1,
      Option.bind_eq_bind, Option.bind_some, handling, if_true, Option.pure_def]
    exact run

/-- As long as the main loop does nothing, an event and its callbacks are `Channel::handleEvent`. -/
lemma run_handleEvent {s : Life B Ctx} {c : TCPConnection B Ctx} {ready revents : Mask}
    {r : ReadResult} {script : List TCPConnection.Call} {w : WriteResult}
    (idle : s.running = false) (todo : s.todo = []) (reg : s.registry = true)
    (poll : s.conn.poll ready = some revents)
    (e : s.conn.handleEvent revents r (fun c => script.foldlM TCPConnection.call c) w = some c) :
    ∃ s', (.event ready r script w ::
        (revents.callbacks r script w).flatMap fun _ => [Move.enter, .leave]).foldlM step s = some s' ∧
      s'.conn = c := by
  rw [TCPConnection.handleEvent_eq] at e
  obtain ⟨s', run, hc⟩ := @run_callbacks _ _ _ _ _
    { s with todo := revents.callbacks r script w } c idle rfl reg e
  refine ⟨s', ?_, hc⟩
  have first : s.step (.event ready r script w)
      = some { s with todo := revents.callbacks r script w } := by
    rw [step, if_pos ⟨todo, idle⟩, poll]
    rfl
  rw [List.foldlM_cons, first]
  exact run

/-! ## The invariant -/

variable [LawfulBuffer B I]

/-- The callbacks that can be left to call on the connection `c` while it is open. -/
inductive Queue (c : TCPConnection B Ctx) : List Callback → Prop where
  | nil :
    Queue c []
  | close :
    Queue c [.close]
  | error :
    Queue c [.error]
  | read {r script} :
    Queue c [.read r script]
  | write {w} :
    c.channel_.isWriting = true →
    Queue c [.write w]
  | readWrite {r script w} :
    c.channel_.isWriting = true →
    r.delivers = true →
    Queue c [.read r script, .write w]

/-- While the connection is open it is in the registry and no task is on its way; once it is closed no
    callback is left to call. -/
structure Inv (s : Life B Ctx) : Prop where
  sound : s.conn.Sound
  tally : s.conn.Tally
  registered : s.conn.status_ ≠ .kDisconnected → s.registry = true ∧ s.pending = 0 ∧ s.executing = 0
  done : s.conn.status_ = .kDisconnected → s.todo = []
  queue : Queue s.conn s.todo
  released : s.running = false → s.held = false
  safe : s.misused = false

/-- The write callback is called on a writing channel. -/
lemma Queue.write_head {c : TCPConnection B Ctx} {k rest} (h : Queue c (k :: rest)) :
    ∀ w, k = .write w → c.channel_.isWriting = true := by
  rintro w rfl
  cases h with
  | write hw => exact hw

/-- What is left after a callback: nothing, or the write callback and an open connection. -/
lemma Queue.tail {c c' : TCPConnection B Ctx} {k rest} (h : Queue c (k :: rest)) (s : c.Sound)
    (ho : c.status_ ≠ .kDisconnected) (e : c.callback k = some c') :
    Queue c' rest ∧ (c'.status_ = .kDisconnected → rest = []) := by
  cases h with
  | close => exact ⟨.nil, fun _ => rfl⟩
  | error => exact ⟨.nil, fun _ => rfl⟩
  | read => exact ⟨.nil, fun _ => rfl⟩
  | write => exact ⟨.nil, fun _ => rfl⟩
  | readWrite hw hr =>
    obtain ⟨ho', hw'⟩ := TCPConnection.read_open s hw ho hr e
    exact ⟨.write hw', fun hs => absurd hs ho'⟩

omit [LawfulBuffer B I] in
/-- If the callback that is called next closes the connection and another one follows, the main loop can be
    fast enough for that one to be called on a destroyed connection. -/
lemma misuse {s : Life B Ctx} {c : TCPConnection B Ctx} {k k' rest} (idle : s.running = false)
    (todo : s.todo = k :: k' :: rest) (reg : s.registry = true) (pen : s.pending = 0)
    (exe : s.executing = 0) (e : s.conn.callback k = some c) (one : s.conn.posts c = 1) :
    ∃ s', [Move.enter, .leave, .swap, .erase, .finish, .enter].foldlM step s = some s' ∧
      s'.misused = true := by
  refine ⟨{ s with
    conn := c
    registry := false
    pending := 0
    executing := 0
    held := false
    running := false
    todo := k' :: rest
    misused := true }, ?_, rfl⟩
  simp [step, handling, idle, todo, e, one, reg, pen, exe, owners]

namespace Inv

variable {s s' : Life B Ctx}

/-- The invariant holds before anything was run. -/
lemma new (context : Ctx) : (Life.new context : Life B Ctx).Inv where
  sound := .created context
  tally := .created context
  registered _ := ⟨rfl, rfl, rfl⟩
  done := nofun
  queue := .nil
  released _ := rfl
  safe := rfl

/-- An event is reported of an open connection only. -/
lemma poll_open (h : s.Inv) {ready revents : Mask} (e : s.conn.poll ready = some revents) :
    s.conn.status_ ≠ .kDisconnected := by
  intro hs
  rw [TCPConnection.poll, h.sound.removed hs] at e
  cases e

/-- An open connection with callbacks left is alive. -/
lemma alive (h : s.Inv) (ho : s.conn.status_ ≠ .kDisconnected) : s.owners ≠ 0 := by
  obtain ⟨reg, pen, exe⟩ := h.registered ho
  simp [owners, reg]

/-- A handler posts a task only when it closes the connection. -/
lemma handling (h : s.Inv) {c : TCPConnection B Ctx} {shares : Bool} {rest : List Callback}
    (so : c.Sound) (ta : c.Tally) (queue : Queue c rest)
    (done : c.status_ = .kDisconnected → rest = [])
    (stays : s.conn.status_ = .kDisconnected → c.status_ = .kDisconnected) :
    Inv { s.handling c shares with todo := rest } where
  sound := so
  tally := ta
  registered ho := by
    obtain ⟨reg, pen, exe⟩ := h.registered fun hs => ho (stays hs)
    refine ⟨reg, ?_, exe⟩
    show s.pending + s.conn.posts c = 0
    rw [pen, ta.posts_eq_zero ho]
  done := done
  queue := queue
  released := nofun
  safe := h.safe

/-- The callbacks of an event that meets the condition. -/
lemma queue_event (h : s.Inv) {ready revents : Mask} {r : ReadResult}
    {script : List TCPConnection.Call} {w : WriteResult} (e : s.conn.poll ready = some revents)
    (last : (revents.callbacks r script w).length ≤ 1 ∨
      (revents.callbacks r script w = [.read r script, .write w] ∧ r.delivers = true)) :
    Queue s.conn (revents.callbacks r script w) := by
  have hw {w'} (hm : .write w' ∈ revents.callbacks r script w) : s.conn.channel_.isWriting = true :=
    h.sound.poll_out e (Mask.write_mem_callbacks hm)
  rcases last with hl | ⟨hl, hr⟩
  · generalize revents.callbacks r script w = ks at hl hw
    rcases ks with _ | ⟨k, _ | ⟨_, ks⟩⟩
    · exact .nil
    · cases k with
      | close => exact .close
      | error => exact .error
      | read r script => exact .read
      | write w => exact .write (hw (List.mem_singleton.2 rfl))
    · simp at hl
  · rw [hl] at hw ⊢
    exact .readWrite (hw (List.mem_cons_of_mem _ (List.mem_singleton.2 rfl))) hr

/-- A call of the upper layer keeps the invariant. -/
lemma call (h : s.Inv) {x : TCPConnection.Call} (e : s.step (.call x) = some s') : s'.Inv := by
  simp only [Life.step] at e
  split at e
  case isFalse => cases e
  case isTrue g =>
    obtain ⟨c, e1, e⟩ := Option.bind_eq_some_iff.1 e
    cases e
    obtain ⟨c', e2, so, _⟩ := h.sound.call x
    cases e1.symm.trans e2
    have inv : Inv { s.handling c true with todo := [] } :=
      h.handling so (h.tally.call h.sound e1) .nil (fun _ => rfl)
        fun hs => TCPConnection.call_closed h.sound hs e1
    rw [← g.1] at inv
    exact inv

/-- Entering a callback keeps the invariant. -/
lemma enter (h : s.Inv) (e : s.step .enter = some s') : s'.Inv := by
  simp only [Life.step] at e
  split at e
  case h_2 => cases e
  case h_1 k rest run todo =>
    -- there is a callback left to call, so the connection is open and alive
    have ho : s.conn.status_ ≠ .kDisconnected := by
      intro hs
      rw [h.done hs] at todo
      cases todo
    have queue := h.queue
    rw [todo] at queue
    rw [if_neg (h.alive ho)] at e
    obtain ⟨c, e1, e⟩ := Option.bind_eq_some_iff.1 e
    cases e
    obtain ⟨c', e2, so, ta⟩ := TCPConnection.callback_spec h.sound h.tally queue.write_head
    cases e1.symm.trans e2
    obtain ⟨queue', done⟩ := queue.tail h.sound ho e1
    exact h.handling so ta queue' done fun hs => absurd hs ho

/-- A move that closes last keeps the invariant. -/
lemma step {m : Move} (h : s.Inv) (last : s.ClosesLast m) (e : s.step m = some s') : s'.Inv := by
  cases m with
  | call x => exact h.call e
  | event ready r script w =>
    simp only [Life.step] at e
    split at e
    case isFalse => cases e
    case isTrue g =>
      obtain ⟨revents, e1, e⟩ := Option.bind_eq_some_iff.1 e
      cases e
      exact ⟨h.sound, h.tally, h.registered, fun hs => absurd hs (h.poll_open e1),
        h.queue_event e1 (last revents e1), h.released, h.safe⟩
  | enter => exact h.enter e
  | leave =>
    simp only [Life.step] at e
    split at e
    case isFalse => cases e
    case isTrue =>
      cases e
      exact ⟨h.sound, h.tally, h.registered, h.done, h.queue, fun _ => rfl, h.safe⟩
  | swap =>
    simp only [Life.step] at e
    split at e
    case isFalse => cases e
    case isTrue =>
      cases e
      refine ⟨h.sound, h.tally, ?_, h.done, h.queue, h.released, h.safe⟩
      intro ho
      obtain ⟨reg, pen, _⟩ := h.registered ho
      exact ⟨reg, rfl, pen⟩
  | erase =>
    simp only [Life.step] at e
    split at e
    case isFalse => cases e
    case isTrue g =>
      cases e
      refine ⟨h.sound, h.tally, ?_, h.done, h.queue, h.released, h.safe⟩
      -- a task runs only after the close
      intro ho
      rw [(h.registered ho).2.2] at g
      cases g
  | finish =>
    simp only [Life.step] at e
    split at e
    case isFalse => cases e
    case isTrue =>
      cases e
      refine ⟨h.sound, h.tally, ?_, h.done, h.queue, h.released, h.safe⟩
      intro ho
      obtain ⟨reg, pen, _⟩ := h.registered ho
      exact ⟨reg, pen, rfl⟩

/-- The first of two callbacks closes the connection, unless it reads bytes. -/
lemma head_closes (h : s.Inv) {revents : Mask} {r script w k k' rest}
    (ks : revents.callbacks r script w = k :: k' :: rest)
    (hr : revents.callbacks r script w = [.read r script, .write w] → r.delivers = false)
    (ho : s.conn.status_ ≠ .kDisconnected) :
    ∃ c, s.conn.callback k = some c ∧ c.Tally ∧ c.status_ = .kDisconnected := by
  rcases Mask.callbacks_head ks with rfl | rfl | ⟨rfl, rfl, rfl⟩
  · exact ⟨_, rfl, h.tally.handleClose, TCPConnection.handleClose_status⟩
  · exact ⟨_, rfl, h.tally.handleClose, TCPConnection.handleClose_status⟩
  · obtain ⟨c, e, _, ta⟩ := TCPConnection.callback_spec h.sound h.tally
      (fun _ => nofun : ∀ w, Callback.read r script = .write w → _)
    exact ⟨c, e, ta, TCPConnection.read_closes h.sound h.tally ho (hr ks) e⟩

/-- An event that does not meet the condition can lead to a callback on a destroyed connection. -/
lemma misuse_event (h : s.Inv) {m : Move} (not : ¬ s.ClosesLast m) (e : s.step m = some s') :
    ∃ ms s', (m :: ms).foldlM Life.step s = some s' ∧ s'.misused = true := by
  cases m with
  | event ready r script w =>
    simp only [ClosesLast, not_forall, not_or, not_and, Bool.not_eq_true] at not
    obtain ⟨revents, poll, two, hr⟩ := not
    have ho := h.poll_open poll
    have first := e
    simp only [Life.step, poll] at e
    split at e
    case isFalse => cases e
    case isTrue g =>
      cases e
      obtain ⟨k, k', rest, ks⟩ : ∃ k k' rest, revents.callbacks r script w = k :: k' :: rest := by
        generalize revents.callbacks r script w = ks at two
        rcases ks with _ | ⟨k, _ | ⟨k', rest⟩⟩
        · simp at two
        · simp at two
        · exact ⟨k, k', rest, rfl⟩
      obtain ⟨c, ec, ta, closed⟩ := h.head_closes ks hr ho
      obtain ⟨reg, pen, exe⟩ := h.registered ho
      have one := h.tally.posts_eq_one ta ho closed
      obtain ⟨s', run, mis⟩ := misuse (s := { s with todo := revents.callbacks r script w })
        g.2 ks reg pen exe ec one
      refine ⟨[.enter, .leave, .swap, .erase, .finish, .enter], s', ?_, mis⟩
      rw [List.foldlM_cons, first]
      exact run
  | _ => exact absurd trivial not

end Inv

/-- Runs of such moves use only what is alive, and any other move leads to a use after the end. -/
lemma outlives {context : Ctx} {ms : List Move} {s : Life B Ctx}
    (run : Steps ClosesLast step (new context) ms s) :
    s.misused = false ∧
      ∀ m, ¬ s.ClosesLast m → (s.step m).isSome = true →
        ∃ ms' s', (m :: ms').foldlM step s = some s' ∧ s'.misused = true := by
  have inv := run.inv Inv.step (Inv.new context)
  refine ⟨inv.safe, ?_⟩
  intro m not some
  obtain ⟨s1, e⟩ := Option.isSome_iff_exists.1 some
  exact inv.misuse_event not e

/-- In every run of the two loops, interleaved in any way, in which every event calls one callback only or reads bytes
    and then writes, no callback is called on a destroyed connection; and any other event that can come next can lead
    to such a call. The iterators of the linked buffer's deque are taken to survive `push_back`. -/
theorem callbacks_within_lifetime {Ctx : Type} (context : Ctx) (ms : List Move) :
    (∀ s : Life Buffer Ctx, Steps ClosesLast step (new context) ms s →
      s.misused = false ∧
      ∀ m, ¬ s.ClosesLast m → (s.step m).isSome = true →
        ∃ ms' s', (m :: ms').foldlM step s = some s' ∧ s'.misused = true) ∧
    (∀ s : Life LinkedBuffer Ctx, Steps ClosesLast step (new context) ms s →
      s.misused = false ∧
      ∀ m, ¬ s.ClosesLast m → (s.step m).isSome = true →
        ∃ ms' s', (m :: ms').foldlM step s = some s' ∧ s'.misused = true) := by
  constructor
  · intro s run
    exact outlives run
  · intro s run
    exact outlives run

/-- The peer ends its stream. -/
def eof : Move := .event POLLIN (.data []) [] (.accept 0)

/-- The peer resets the connection. -/
def reset : Move := .event (POLLIN ||| POLLERR ||| POLLHUP) (.error (.other 104)) [] (.accept 0)

/-- The read callback closes the connection and the main loop erases it before the callback returns; had the
    peer reset the connection instead, a callback could have been called on a destroyed one. -/
theorem callbacks_within_lifetime_eof :
    (∃ s : Life LinkedBuffer Unit,
      Steps ClosesLast step (new ()) [eof, .enter, .swap, .erase, .finish, .leave] s ∧ s.owners = 0 ∧
        s.misused = false) ∧
    (∃ ms s, (reset :: ms).foldlM step (new () : Life LinkedBuffer Unit) = some s ∧
      s.misused = true) := by
  constructor
  · have gone : ([eof, .enter, .swap, .erase, .finish, .leave].foldlM step
        (new () : Life LinkedBuffer Unit)).map owners = some 0 := by decide +kernel
    obtain ⟨s, run, own⟩ := Option.map_eq_some_iff.1 gone
    have steps : Steps ClosesLast step (new ()) [eof, .enter, .swap, .erase, .finish, .leave] s := by
      rw [List.foldlM_cons] at run
      obtain ⟨s1, e1, run⟩ := Option.bind_eq_some_iff.1 run
      refine .cons ?_ e1 (.of_foldlM (by simp [ClosesLast]) run)
      intro revents poll
      have : revents = POLLIN := Option.some.inj (poll.symm.trans (by decide +kernel))
      subst this
      exact .inl (by decide)
    exact ⟨s, steps, own, ((callbacks_within_lifetime () _).2 s steps).1⟩
  · refine ((callbacks_within_lifetime () []).2 _ .nil).2 reset ?_ (by decide +kernel)
    intro last
    rcases last (POLLIN ||| POLLERR ||| POLLHUP) (by decide +kernel) with two | ⟨_, hr⟩
    · exact absurd two (by decide)
    · cases hr

/-- A reset of the peer: the error callback closes the connection, the main loop erases it and the read
    callback is called on the destroyed connection. -/
theorem read_after_destruction :
    ([reset, .enter, .leave, .swap, .erase, .finish, .enter].foldlM step
      (new () : Life LinkedBuffer Unit)).map (fun s => (s.owners, s.misused)) = some (0, true) := by
  decide +kernel

end Life

end WebServer.Net
