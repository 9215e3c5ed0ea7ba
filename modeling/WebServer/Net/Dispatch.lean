import WebServer.Net.Status

/-!
# Dispatching, handler by handler

A connection from its construction on, in steps as small as its handlers: the accept (`handleCreate`), the
callbacks that `Channel::handleEvent` calls one after the other, and, inside the read callback of the upper
layer, each of its calls of `send` and `shutdown`. So the states of a run are those between two handlers,
also between two of one event, and those inside the read callback.

The events are any sets of poll events; that `POLLOUT` comes only while it is registered is a condition on
steps (`Registered`). Runs of one event are `TCPConnection.handleEvent` (`run_handleEvent`).

From the invariant `Inv` follows that the write interest tracks the pending output
(`write_interest_tracks_output`); `Advances` gives the course of the status (`status_moves_forward`).
-/

namespace WebServer.Net

open Lib LawfulBuffer

/-- A connection, and where the IO loop is in the callbacks of its channel. -/
structure Dispatch (B Ctx : Type) where
  conn : TCPConnection B Ctx
  /-- `handleCreate` was called. -/
  accepted : Bool
  /-- The callbacks `Channel::handleEvent` has still to call. -/
  todo : List Callback
  /-- In the read callback of the upper layer: the calls it has still to make. -/
  calls : Option (List TCPConnection.Call)

namespace Dispatch

/-- A step of the IO loop. -/
inductive Move (Ctx : Type) where
  /-- The task that the acceptor queued calls `handleCreate`. -/
  | accept
  /-- The upper layer calls the connection outside of an event. -/
  | call (x : TCPConnection.Call)
  /-- `Channel::handleEvent` begins. -/
  | event (revents : Mask) (r : ReadResult) (script : List TCPConnection.Call) (w : WriteResult)
  /-- The next callback of the channel, or the next call in the read callback, or its return. -/
  | next
  /-- The read callback takes `n` bytes out of the input and changes the context. -/
  | input (n : Nat) (context : Ctx)

variable {B I Ctx : Type} [BufferType B I]

/-- A connection that was constructed. -/
def new (context : Ctx) : Dispatch B Ctx where
  conn := .new context
  accepted := false
  todo := []
  calls := none

/-- A connection after `handleCreate`. -/
def created (context : Ctx) : Dispatch B Ctx where
  conn := .created context
  accepted := true
  todo := []
  calls := none

/-- The IO loop is not in a handler of the connection. -/
def Idle (s : Dispatch B Ctx) : Prop := s.accepted = true ∧ s.todo = [] ∧ s.calls = none

instance (s : Dispatch B Ctx) : Decidable s.Idle :=
  inferInstanceAs (Decidable (s.accepted = true ∧ s.todo = [] ∧ s.calls = none))

def step (s : Dispatch B Ctx) : Move Ctx → Option (Dispatch B Ctx)
  | .accept =>
    if s.accepted = false then
      some { s with conn := s.conn.handleCreate, accepted := true }
    else
      none
  | .call x =>
    if s.Idle then do
      let c ← s.conn.call x
      some { s with conn := c }
    else
      none
  | .event revents r script w =>
    if s.Idle then some { s with todo := revents.callbacks r script w } else none
  | .next =>
    match s.calls, s.todo with
    | some (x :: xs), _ => do
      let c ← s.conn.call x
      some { s with conn := c, calls := some xs }
    | some [], _ => some { s with calls := none }
    | none, .read r script :: rest => do
      let (c, called) ← s.conn.receive r
      some { s with conn := c, todo := rest, calls := if called then some script else none }
    | none, k :: rest => do
      let c ← s.conn.callback k
      some { s with conn := c, todo := rest }
    | none, [] => none
  | .input n context =>
    match s.calls with
    | some _ => do
      if 0 < n ∧ n ≤ (← BufferType.readableSize s.conn.in_buffer_) then
        let iter ← RandomAccess.plus s.conn.in_buffer_ (BufferType.readerIter s.conn.in_buffer_) n
        let (_, in_buffer) ← BufferType.readUntil s.conn.in_buffer_ iter
        some { s with conn := { s.conn with in_buffer_ := in_buffer, context_ := context } }
      else
        none
    | none => none

/-- `POLLOUT` is delivered only while it is registered. -/
def Registered (s : Dispatch B Ctx) : Move Ctx → Prop
  | .event revents _ _ _ =>
    revents.meets POLLOUT = true → ∃ mask, s.conn.interest = some mask ∧ mask.meets POLLOUT = true
  | _ => True

/-! ## Events -/

/-- What `next` does, case by case. -/
inductive Next (s : Dispatch B Ctx) : Dispatch B Ctx → Prop where
  | call {x xs c} :
    s.calls = some (x :: xs) →
    s.conn.call x = some c →
    Next s { s with conn := c, calls := some xs }
  | return :
    s.calls = some [] →
    Next s { s with calls := none }
  | read {r script rest c called} :
    s.calls = none →
    s.todo = .read r script :: rest →
    s.conn.receive r = some (c, called) →
    Next s { s with conn := c, todo := rest, calls := if called then some script else none }
  | callback {k rest c} :
    s.calls = none →
    s.todo = k :: rest →
    (∀ r script, k ≠ .read r script) →
    s.conn.callback k = some c →
    Next s { s with conn := c, todo := rest }

/-- What one callback of a dispatch can do. -/
lemma next_cases {s s' : Dispatch B Ctx} (e : s.step .next = some s') : s.Next s' := by
  simp only [step] at e
  split at e
  case h_1 calls =>
    obtain ⟨c, e1, e⟩ := Option.bind_eq_some_iff.1 e
    cases e
    exact .call calls e1
  case h_2 calls =>
    cases e
    exact .return calls
  case h_3 calls todo =>
    obtain ⟨⟨c, called⟩, e1, e⟩ := Option.bind_eq_some_iff.1 e
    cases e
    exact .read calls todo e1
  case h_4 not calls todo =>
    obtain ⟨c, e1, e⟩ := Option.bind_eq_some_iff.1 e
    cases e
    exact .callback calls todo (fun r script h => not r script h) e1
  case h_5 => cases e

/-- Taking input changes the input buffer and the context, and nothing else. -/
lemma input_cases {s s' : Dispatch B Ctx} {n : Nat} {context : Ctx}
    (e : s.step (.input n context) = some s') :
    ∃ b, s' = { s with conn := { s.conn with in_buffer_ := b, context_ := context } } := by
  simp only [step] at e
  split at e
  case h_2 => cases e
  case h_1 =>
    obtain ⟨size, _, e⟩ := Option.bind_eq_some_iff.1 e
    split at e
    case isFalse => cases e
    case isTrue =>
      obtain ⟨iter, _, e⟩ := Option.bind_eq_some_iff.1 e
      obtain ⟨⟨_, b⟩, _, e⟩ := Option.bind_eq_some_iff.1 e
      cases e
      exact ⟨b, rfl⟩

/-- The calls of a read callback, one step each, and its return. -/
lemma run_calls {script : List TCPConnection.Call} {s : Dispatch B Ctx} {c : TCPConnection B Ctx}
    (calls : s.calls = some script) (e : script.foldlM TCPConnection.call s.conn = some c) :
    (List.replicate (script.length + 1) Move.next).foldlM step s
      = some { s with conn := c, calls := none } := by
  induction script generalizing s with
  | nil =>
    cases e
    simp [step, calls]
  | cons x script ih =>
    rw [List.foldlM_cons] at e
    obtain ⟨c1, e1, e⟩ := Option.bind_eq_some_iff.1 e
    rw [List.length_cons, List.replicate_succ, List.foldlM_cons]
    have first : s.step .next = some { s with conn := c1, calls := some script } := by
      simp [step, calls, e1]
    rw [first]
    exact ih rfl e

/-- One callback of the channel. -/
lemma run_callback {k : Callback} {rest : List Callback} {s : Dispatch B Ctx}
    {c : TCPConnection B Ctx} (calls : s.calls = none) (todo : s.todo = k :: rest)
    (e : s.conn.callback k = some c) :
    ∃ n, (List.replicate n Move.next).foldlM step s = some { s with conn := c, todo := rest } := by
  cases k with
  | read r script =>
    rw [TCPConnection.callback, TCPConnection.handleRead_eq] at e
    obtain ⟨⟨c1, called⟩, e1, e⟩ := Option.bind_eq_some_iff.1 e
    cases called with
    | false =>
      cases e
      exact ⟨1, by simp [step, calls, todo, e1]⟩
    | true =>
      refine ⟨script.length + 1 + 1, ?_⟩
      have first : s.step .next = some { s with conn := c1, todo := rest, calls := some script } := by
        simp [step, calls, todo, e1]
      rw [List.replicate_succ, List.foldlM_cons, first]
      have run := @run_calls _ _ _ _ script { s with conn := c1, todo := rest, calls := some script } c
        rfl e
      rw [← calls] at run
      exact run
  | _ =>
    refine ⟨1, ?_⟩
    simp [step, calls, todo, e]

/-- The callbacks in front of the list are run one after the other. -/
lemma run_callbacks {ks rest : List Callback} {s : Dispatch B Ctx} {c : TCPConnection B Ctx}
    (calls : s.calls = none) (todo : s.todo = ks ++ rest)
    (e : ks.foldlM TCPConnection.callback s.conn = some c) :
    ∃ n, (List.replicate n Move.next).foldlM step s = some { s with conn := c, todo := rest } := by
  induction ks generalizing s with
  | nil =>
    cases e
    rw [List.nil_append] at todo
    exact ⟨0, by rw [← todo]; rfl⟩
  | cons k ks ih =>
    rw [List.foldlM_cons] at e
    obtain ⟨c1, e1, e⟩ := Option.bind_eq_some_iff.1 e
    obtain ⟨n, run⟩ := run_callback calls todo e1
    obtain ⟨m, run'⟩ := @ih { s with conn := c1, todo := ks ++ rest } calls rfl e
    refine ⟨n + m, ?_⟩
    rw [List.replicate_add, List.foldlM_append, run]
    exact run'

/-- An event and its callbacks are `Channel::handleEvent`. -/
lemma run_handleEvent {s : Dispatch B Ctx} {c : TCPConnection B Ctx} (idle : s.Idle) {revents : Mask}
    {r : ReadResult} {script : List TCPConnection.Call} {w : WriteResult}
    (e : s.conn.handleEvent revents r (fun c => script.foldlM TCPConnection.call c) w = some c) :
    ∃ n, (Move.event revents r script w :: List.replicate n .next).foldlM step s
      = some { s with conn := c } := by
  rw [TCPConnection.handleEvent_eq] at e
  have calls := idle.2.2
  obtain ⟨n, run⟩ := @run_callbacks _ _ _ _ _ [] { s with todo := revents.callbacks r script w } c
    calls (by simp) e
  refine ⟨n, ?_⟩
  have first : s.step (.event revents r script w)
      = some { s with todo := revents.callbacks r script w } := if_pos idle
  rw [List.foldlM_cons, first]
  rw [← idle.2.1] at run
  exact run

/-! ## The status -/

/-- Before the accept nothing else happens. -/
lemma step_new {context : Ctx} {m : Move Ctx} {s' : Dispatch B Ctx}
    (e : (new context).step m = some s') :
    s' = created context := by
  cases m with
  | accept =>
    cases e
    rfl
  | _ => cases e

/-- What holds after the accept and is preserved holds from the accept on. -/
lemma from_accept {context : Ctx} {ok : Dispatch B Ctx → Move Ctx → Prop} {P : Dispatch B Ctx → Prop}
    {ms : List (Move Ctx)} {s : Dispatch B Ctx} (run : Steps ok step (new context) ms s)
    (first : P (created context)) (pres : ∀ {s m s'}, P s → ok s m → s.step m = some s' → P s') :
    s = new context ∨ P s := by
  refine @Steps.inv _ _ ok step (fun s => s = new context ∨ P s) _ _ _ run ?_ (.inl rfl)
  rintro s m s' (rfl | h) hm e
  · obtain rfl := step_new e
    exact .inr first
  · exact .inr (pres h hm e)

/-- Whatever the events and the answers of the kernel are, a step after the accept advances. -/
lemma step_advances {s s' : Dispatch B Ctx} {m : Move Ctx} (acc : s.accepted = true)
    (e : s.step m = some s') : s'.accepted = true ∧ s.conn.Advances s'.conn := by
  cases m with
  | accept => simp [step, acc] at e
  | call x =>
    simp only [step] at e
    split at e
    case isFalse => cases e
    case isTrue =>
      obtain ⟨c, e1, e⟩ := Option.bind_eq_some_iff.1 e
      cases e
      exact ⟨acc, .call e1⟩
  | event revents r script w =>
    simp only [step] at e
    split at e
    case isFalse => cases e
    case isTrue =>
      cases e
      exact ⟨acc, .refl⟩
  | next =>
    cases next_cases e with
    | call _ e1 => exact ⟨acc, .call e1⟩
    | «return» => exact ⟨acc, .refl⟩
    | read _ _ e1 => exact ⟨acc, .receive e1⟩
    | callback _ _ _ e1 => exact ⟨acc, .callback e1⟩
  | input n context =>
    obtain ⟨b, rfl⟩ := input_cases e
    exact ⟨acc, .of_log (l := []) (by simp) (by simp) (by simp) rfl⟩

/-- Creating a connection moves its status forward. -/
lemma created_advances {context : Ctx} :
    (new context : Dispatch B Ctx).conn.Advances (created context : Dispatch B Ctx).conn :=
  .handleCreate rfl

/-- A run is not begun, or the connection was accepted and has advanced since its construction. -/
lemma run_advances {context : Ctx} {ms : List (Move Ctx)} {s : Dispatch B Ctx}
    (run : ms.foldlM step (new context) = some s) :
    s = new context ∨
      s.accepted = true ∧ (new context : Dispatch B Ctx).conn.Advances s.conn := by
  have steps : Steps (fun _ _ => True) step (new context) ms s := .of_foldlM (by simp) run
  refine @from_accept _ _ _ _ _ _ (fun s : Dispatch B Ctx => s.accepted = true ∧
    (new context : Dispatch B Ctx).conn.Advances s.conn) _ _ steps ⟨rfl, created_advances⟩ ?_
  rintro s m s' ⟨acc, adv⟩ _ e
  obtain ⟨acc', adv'⟩ := step_advances acc e
  exact ⟨acc', adv.trans adv'⟩

/-! ## The invariant -/

variable [LawfulBuffer B I]

/-- The write callback comes last and finds a writing channel. -/
inductive Queue (c : TCPConnection B Ctx) : List Callback → Prop where
  | nil :
    Queue c []
  | write {w} :
    c.channel_.isWriting = true →
    Queue c [.write w]
  | cons {k rest} :
    (∀ w, k ≠ .write w) →
    Queue c rest →
    Queue c (k :: rest)

namespace Queue

variable {c c' : TCPConnection B Ctx}

omit [BufferType B I] [LawfulBuffer B I]

/-- The queue stays sound when the connection still waits to write. -/
lemma keep {ks : List Callback} (h : Queue c ks)
    (hw : c.channel_.isWriting = true → c'.channel_.isWriting = true) : Queue c' ks := by
  induction h with
  | nil => exact .nil
  | write h => exact .write (hw h)
  | cons hk _ ih => exact .cons hk ih

/-- A write callback in the queue means that the connection waits to write. -/
lemma isWriting {ks : List Callback} (h : Queue c ks) {w : WriteResult} (hm : .write w ∈ ks) :
    c.channel_.isWriting = true := by
  induction h with
  | nil => simp at hm
  | write h => exact h
  | cons hk _ ih =>
    rcases List.mem_cons.1 hm with e | hm
    · exact absurd e.symm (hk w)
    · exact ih hm

/-- The queue behind a callback that does not write is sound. -/
lemma tail {k : Callback} {rest : List Callback} (h : Queue c (k :: rest)) (hk : ∀ w, k ≠ .write w) :
    Queue c rest := by
  cases h with
  | write _ => exact absurd rfl (hk _)
  | cons _ h => exact h

/-- Callbacks that do not write can stand before a sound queue. -/
lemma append {ks ks' : List Callback} (h : ∀ k ∈ ks, ∀ w, k ≠ .write w) (h' : Queue c ks') :
    Queue c (ks ++ ks') := by
  induction ks with
  | nil => exact h'
  | cons k ks ih =>
    exact .cons (h k (by simp)) (ih fun k hk => h k (List.mem_cons_of_mem _ hk))

/-- The callbacks of a mask are a sound queue when a connection with `POLLOUT` waits to write. -/
lemma callbacks {revents : Mask} {r : ReadResult} {script : List TCPConnection.Call} {w : WriteResult}
    (hw : revents.meets POLLOUT = true → c.channel_.isWriting = true) :
    Queue c (revents.callbacks r script w) := by
  unfold Mask.callbacks
  refine append ?_ ?_
  · intro k hk
    simp only [List.mem_append] at hk
    grind
  · split
    case isTrue out => exact .write (hw out)
    case isFalse => exact .nil

end Queue

/-- The invariant from the accept on. -/
structure Inv (s : Dispatch B Ctx) : Prop where
  accepted : s.accepted = true
  sound : s.conn.Sound
  begun : s.conn.status_ ≠ .kConnecting
  queue : Queue s.conn s.todo
  input : s.calls ≠ none → Parsable s.conn.in_buffer_

/-- The moves that can come next. -/
def Enabled (s : Dispatch B Ctx) : Move Ctx → Prop
  | .accept => s.accepted = false
  | .call _ => s.Idle
  | .event _ _ _ _ => s.Idle
  | .next => s.todo ≠ [] ∨ s.calls ≠ none
  | .input n _ => s.calls ≠ none ∧ 0 < n ∧ n ≤ (unread s.conn.in_buffer_).length

namespace Inv

variable {s s' : Dispatch B Ctx}

/-- The invariant holds of a connection just created. -/
lemma created (context : Ctx) : (Dispatch.created context : Dispatch B Ctx).Inv where
  accepted := rfl
  sound := .created context
  begun := nofun
  queue := .nil
  input h := absurd rfl h

/-- Registered `POLLOUT` means a writing channel. -/
lemma isWriting (h : s.Inv) {mask : Mask} (e : s.conn.interest = some mask)
    (out : mask.meets POLLOUT = true) : s.conn.channel_.isWriting = true := by
  by_cases hs : s.conn.status_ = .kDisconnected
  · rw [h.sound.removed hs] at e
    cases e
  · rw [h.sound.registered hs] at e
    cases e
    exact out

/-- Running the next callback keeps the invariant. -/
lemma next (h : s.Inv) (e : s.Next s') : s'.Inv := by
  cases e with
  | @call x xs c calls e =>
    obtain ⟨c', e1, so, hw⟩ := h.sound.call x
    cases e.symm.trans e1
    refine ⟨h.accepted, so, (TCPConnection.Advances.call e).begun h.begun, h.queue.keep hw, fun _ => ?_⟩
    show Parsable c.in_buffer_
    rw [h.sound.call_in e]
    exact h.input (by simp [calls])
  | «return» calls => exact ⟨h.accepted, h.sound, h.begun, h.queue, fun ne => absurd rfl ne⟩
  | @read r script rest c called calls todo e =>
    obtain ⟨c', called', e1, so, ch, pr⟩ := h.sound.receive h.begun r
    cases e.symm.trans e1
    have queue := h.queue
    rw [todo] at queue
    refine ⟨h.accepted, so, (TCPConnection.Advances.receive e).begun h.begun,
      (queue.tail nofun).keep (by rw [ch]; exact id), fun ne => ?_⟩
    cases called with
    | true => exact pr rfl
    | false => exact absurd rfl ne
  | @callback k rest c calls todo not e =>
    have queue := h.queue
    rw [todo] at queue
    have begun := (TCPConnection.Advances.callback e).begun h.begun
    have input (b : B) : s.calls ≠ none → Parsable b := fun ne => absurd calls ne
    cases k with
    | close =>
      cases e
      exact ⟨h.accepted, h.sound.handleClose, begun, (queue.tail nofun).keep (by simp), input _⟩
    | error =>
      cases e
      exact ⟨h.accepted, h.sound.handleClose, begun, (queue.tail nofun).keep (by simp), input _⟩
    | read r script => exact absurd rfl (not r script)
    | write w =>
      -- nothing is left to call after the write callback
      cases queue with
      | cons not => exact absurd rfl (not w)
      | write hw =>
        obtain ⟨c', e1, so⟩ := h.sound.handleWrite hw w
        cases e.symm.trans e1
        exact ⟨h.accepted, so, begun, .nil, input _⟩

/-- Taking input leaves everything else as it is. -/
lemma take (h : s.Inv) {b : B} {context : Ctx} (pr : Parsable b) :
    Inv { s with conn := { s.conn with in_buffer_ := b, context_ := context } } where
  accepted := h.accepted
  sound := ⟨.inr pr, h.sound.output, h.sound.mask, h.sound.stream, h.sound.pending, h.sound.writing,
    h.sound.registered, h.sound.removed, h.sound.drained⟩
  begun := h.begun
  queue := h.queue.keep id
  input _ := pr

/-- What the read callback takes out is not more than what there is. -/
lemma take_cases (h : s.Inv) (n : Nat) (context : Ctx) (calls : s.calls ≠ none) :
    (0 < n ∧ n ≤ (unread s.conn.in_buffer_).length ∧ ∃ b, Parsable b ∧
      s.step (.input n context)
        = some { s with conn := { s.conn with in_buffer_ := b, context_ := context } }) ∨
    (¬ (0 < n ∧ n ≤ (unread s.conn.in_buffer_).length) ∧ s.step (.input n context) = none) := by
  obtain ⟨xs, calls'⟩ := Option.ne_none_iff_exists'.1 calls
  have pr := h.input calls
  simp only [Dispatch.step, calls', readableSize_spec (LawfulBuffer.ready pr), Option.bind_eq_bind,
    Option.bind_some]
  by_cases hn : 0 < n ∧ n ≤ (unread s.conn.in_buffer_).length
  · obtain ⟨iter, ei, hi⟩ := (represents pr).plus (at_reader pr) (by omega : 0 + n ≤ _) hn.1
    obtain ⟨b, eb, pr', _⟩ := readUntil_spec pr hi
    refine .inl ⟨hn.1, hn.2, b, pr', ?_⟩
    rw [if_pos hn, ei, Option.bind_some, eb, Option.bind_some]
  · exact .inr ⟨hn, if_neg hn⟩

/-- Every move with a registered channel keeps the invariant. -/
lemma step (h : s.Inv) {m : Move Ctx} (reg : s.Registered m) (e : s.step m = some s') : s'.Inv := by
  cases m with
  | accept =>
    simp [Dispatch.step, h.accepted] at e
  | call x =>
    simp only [Dispatch.step] at e
    split at e
    case isFalse => cases e
    case isTrue idle =>
      obtain ⟨c, e1, e⟩ := Option.bind_eq_some_iff.1 e
      cases e
      obtain ⟨c', e2, so, hw⟩ := h.sound.call x
      cases e1.symm.trans e2
      exact ⟨h.accepted, so, (TCPConnection.Advances.call e1).begun h.begun, h.queue.keep hw,
        fun ne => absurd idle.2.2 ne⟩
  | event revents r script w =>
    simp only [Dispatch.step] at e
    split at e
    case isFalse => cases e
    case isTrue idle =>
      cases e
      refine ⟨h.accepted, h.sound, h.begun, .callbacks fun out => ?_, h.input⟩
      obtain ⟨mask, em, out⟩ := reg out
      exact h.isWriting em out
  | next => exact h.next (next_cases e)
  | input n context =>
    have calls : s.calls ≠ none := by
      intro none
      simp [Dispatch.step, none] at e
    rcases h.take_cases n context calls with ⟨_, _, b, pr, e1⟩ | ⟨_, e1⟩
    · cases e.symm.trans e1
      exact h.take pr
    · cases e.symm.trans e1

/-- A step that can come next is defined. -/
lemma progress (h : s.Inv) {m : Move Ctx} (en : s.Enabled m) : (s.step m).isSome = true := by
  cases m with
  | accept =>
    rw [Enabled, h.accepted] at en
    cases en
  | call x =>
    have idle : s.Idle := en
    obtain ⟨c, e, _⟩ := h.sound.call x
    rw [Dispatch.step, if_pos idle, e]
    rfl
  | event revents r script w =>
    have idle : s.Idle := en
    rw [Dispatch.step, if_pos idle]
    rfl
  | next =>
    simp only [Dispatch.step]
    split
    case h_1 x xs _ =>
      obtain ⟨c, e, _⟩ := h.sound.call x
      rw [e]
      rfl
    case h_2 => rfl
    case h_3 r script rest _ _ =>
      obtain ⟨c, called, e, _⟩ := h.sound.receive h.begun r
      rw [e]
      rfl
    case h_4 k rest not calls todo =>
      have queue := h.queue
      rw [todo] at queue
      cases k with
      | close => rfl
      | error => rfl
      | read r script => exact absurd rfl (not r script)
      | write w =>
        cases queue with
        | cons not => exact absurd rfl (not w)
        | write hw =>
          obtain ⟨c, e, _⟩ := h.sound.handleWrite hw w
          rw [TCPConnection.callback, e]
          rfl
    case h_5 calls todo =>
      rcases en with ne | ne
      · exact absurd todo ne
      · exact absurd calls ne
  | input n context =>
    rcases h.take_cases n context en.1 with ⟨_, _, b, _, e⟩ | ⟨not, _⟩
    · rw [e]
      rfl
    · exact absurd en.2 not

end Inv

/-- From the accept on the invariant holds. -/
lemma reached {context : Ctx} {ms : List (Move Ctx)} {s : Dispatch B Ctx}
    (run : Steps Registered step (new context) ms s) : s = new context ∨ s.Inv :=
  from_accept run (.created context) fun h reg e => h.step reg e

/-- Every move that is enabled at first is defined. -/
lemma progress_new {context : Ctx} {m : Move Ctx} (en : (new context : Dispatch B Ctx).Enabled m) :
    ((new context : Dispatch B Ctx).step m).isSome = true := by
  cases m with
  | accept => rfl
  | call x => exact absurd en.1 (by simp [new])
  | event revents r script w => exact absurd en.1 (by simp [new])
  | next => simp [Enabled, new] at en
  | input n context => exact absurd rfl en.1

/-- No step of a run is undefined. -/
lemma progress {context : Ctx} {ms : List (Move Ctx)} {s : Dispatch B Ctx}
    (run : Steps Registered step (new context) ms s) {m : Move Ctx} (en : s.Enabled m) :
    (s.step m).isSome = true := by
  rcases reached run with rfl | inv
  · exact progress_new en
  · exact inv.progress en

/-! ## Results -/

omit [LawfulBuffer B I] in
/-- The status in a state of a run, and how it goes on. -/
lemma course {context : Ctx} {ms : List (Move Ctx)} {s : Dispatch B Ctx}
    (run : ms.foldlM step (new context) = some s) :
    s.conn.log.count .removeChannel = (if s.conn.status_ = .kDisconnected then 1 else 0) ∧
      s.conn.log.count .closeCallback = (if s.conn.status_ = .kDisconnected then 1 else 0) ∧
      ∀ m s', s.step m = some s' → s.conn.Advances s'.conn := by
  rcases run_advances run with rfl | ⟨acc, adv⟩
  · refine ⟨rfl, rfl, fun m s' e => ?_⟩
    obtain rfl := step_new e
    exact created_advances
  · obtain ⟨l, el, rl, cl⟩ := adv.log
    have once : Status.kConnecting.closings s.conn.status_
        = if s.conn.status_ = .kDisconnected then 1 else 0 := by simp [Status.closings]
    rw [el]
    refine ⟨?_, ?_, fun m s' e => (step_advances acc e).2⟩
    · rw [← once]
      exact rl
    · rw [← once]
      exact cl

/-- Write interest and pending output in a state of a run. -/
lemma tracks {context : Ctx} {ms : List (Move Ctx)} {s : Dispatch B Ctx}
    (run : Steps Registered step (new context) ms s)
    (hs : s.conn.status_ = .kConnected ∨ s.conn.status_ = .kDisconnecting) :
    (s.conn.channel_.isWriting = true ↔ unread s.conn.out_buffer_ ≠ []) ∧
      s.conn.interest = some s.conn.channel_.events_type_ := by
  rcases reached run with rfl | inv
  · simp [new, TCPConnection.new] at hs
  · have ho : s.conn.status_ ≠ .kDisconnected := by
      intro hc
      simp [hc] at hs
    exact ⟨⟨inv.sound.pending, inv.sound.writing ho⟩, inv.sound.registered ho⟩

/-- In every run in which `POLLOUT` is delivered only while it is registered, an open connection has write interest
    iff it has unread output, and the mask last given to epoll is that of its channel; no step that can come next is
    undefined. The iterators of the linked buffer's deque are taken to survive `push_back`. -/
theorem write_interest_tracks_output {Ctx : Type} (context : Ctx) (ms : List (Move Ctx)) :
    (∀ s : Dispatch Buffer Ctx, Steps Registered step (new context) ms s →
      (s.conn.status_ = .kConnected ∨ s.conn.status_ = .kDisconnecting →
        (s.conn.channel_.isWriting = true ↔ s.conn.out_buffer_.unread ≠ []) ∧
          s.conn.interest = some s.conn.channel_.events_type_) ∧
      ∀ m, s.Enabled m → (s.step m).isSome = true) ∧
    (∀ s : Dispatch LinkedBuffer Ctx, Steps Registered step (new context) ms s →
      (s.conn.status_ = .kConnected ∨ s.conn.status_ = .kDisconnecting →
        (s.conn.channel_.isWriting = true ↔ s.conn.out_buffer_.unread ≠ []) ∧
          s.conn.interest = some s.conn.channel_.events_type_) ∧
      ∀ m, s.Enabled m → (s.step m).isSome = true) := by
  constructor
  · intro s run
    exact ⟨tracks run, fun _ => progress run⟩
  · intro s run
    exact ⟨tracks run, fun _ => progress run⟩

/-- A response of three bytes, of which the kernel takes `n`. -/
def response (n : Nat) : TCPConnection.Call := .send ⟨[bytes "abc"], by decide⟩ (.accept n)

/-- A request is read, and the response to it is sent and the connection shut down; the kernel takes `n`
    bytes of the response. -/
def respondAndShutdown (n : Nat) : List (Move Unit) :=
  [.accept, .event POLLIN (.data (bytes "x")) [response n, .shutdown] (.accept 0), .next, .next, .next,
    .next]

/-- After a partial write and `shutdown` there is write interest, and after a complete one there is not. -/
theorem write_interest_tracks_output_partial_write :
    (∃ s : Dispatch LinkedBuffer Unit, Steps Registered step (new ()) (respondAndShutdown 1) s ∧
      s.conn.status_ = .kDisconnecting ∧ s.conn.channel_.isWriting = true ∧
      s.conn.out_buffer_.unread ≠ []) ∧
    (∃ s : Dispatch LinkedBuffer Unit, Steps Registered step (new ()) (respondAndShutdown 3) s ∧
      s.conn.status_ = .kDisconnecting ∧ s.conn.channel_.isWriting = false ∧
      s.conn.out_buffer_.unread = []) := by
  have reaches (n : Nat) {s : Dispatch LinkedBuffer Unit}
      (run : (respondAndShutdown n).foldlM step (new ()) = some s) :
      Steps Registered step (new ()) (respondAndShutdown n) s := by
    refine .of_foldlM ?_ run
    have out : POLLIN.meets POLLOUT = false := by decide
    simp [respondAndShutdown, Registered, out]
  constructor
  · have ends : ((respondAndShutdown 1).foldlM step (new () : Dispatch LinkedBuffer Unit)).map
        (fun s => (s.conn.status_, s.conn.channel_.isWriting)) = some (.kDisconnecting, true) := by
      decide +kernel
    obtain ⟨s, run, es⟩ := Option.map_eq_some_iff.1 ends
    obtain ⟨hs, hw⟩ := Prod.mk.injEq .. ▸ es
    exact ⟨s, reaches 1 run, hs, hw,
      (((write_interest_tracks_output () _).2 s (reaches 1 run)).1 (.inr hs)).1.1 hw⟩
  · have ends : ((respondAndShutdown 3).foldlM step (new () : Dispatch LinkedBuffer Unit)).map
        (fun s => (s.conn.status_, s.conn.channel_.isWriting)) = some (.kDisconnecting, false) := by
      decide +kernel
    obtain ⟨s, run, es⟩ := Option.map_eq_some_iff.1 ends
    obtain ⟨hs, hw⟩ := Prod.mk.injEq .. ▸ es
    refine ⟨s, reaches 3 run, hs, hw, ?_⟩
    by_contra ne
    rw [(((write_interest_tracks_output () _).2 s (reaches 3 run)).1 (.inr hs)).1.2 ne] at hw
    cases hw

/-- In every run the status moves forward at each step, and `removeChannelInPoller` and `closeCallback_` are each
    called once in the step that makes it `kDisconnected` and in no other; no step that can come next is undefined as
    long as `POLLOUT` is delivered only while it is registered. The iterators of the linked buffer's deque are taken
    to survive `push_back`. -/
theorem status_moves_forward {Ctx : Type} (context : Ctx) (ms : List (Move Ctx)) :
    (∀ s : Dispatch Buffer Ctx, ms.foldlM step (new context) = some s →
      s.conn.log.count .removeChannel = (if s.conn.status_ = .kDisconnected then 1 else 0) ∧
      s.conn.log.count .closeCallback = (if s.conn.status_ = .kDisconnected then 1 else 0) ∧
      (∀ m s', s.step m = some s' → s.conn.Advances s'.conn) ∧
      (Steps Registered step (new context) ms s → ∀ m, s.Enabled m → (s.step m).isSome = true)) ∧
    (∀ s : Dispatch LinkedBuffer Ctx, ms.foldlM step (new context) = some s →
      s.conn.log.count .removeChannel = (if s.conn.status_ = .kDisconnected then 1 else 0) ∧
      s.conn.log.count .closeCallback = (if s.conn.status_ = .kDisconnected then 1 else 0) ∧
      (∀ m s', s.step m = some s' → s.conn.Advances s'.conn) ∧
      (Steps Registered step (new context) ms s → ∀ m, s.Enabled m → (s.step m).isSome = true)) := by
  constructor
  · intro s run
    obtain ⟨removed, called, adv⟩ := course run
    exact ⟨removed, called, adv, fun steps _ => progress steps⟩
  · intro s run
    obtain ⟨removed, called, adv⟩ := course run
    exact ⟨removed, called, adv, fun steps _ => progress steps⟩

/-- The write of the response fails in the read callback, which then shuts the closed connection down, in one
    event. -/
def brokenPipe : List (Move Unit) :=
  [.accept, .event (POLLIN ||| POLLHUP) (.data (bytes "x"))
    [.send ⟨[bytes "abc"], by decide⟩ (.error .EPIPE), .shutdown] (.accept 0), .next, .next, .next, .next]

/-- A broken pipe takes the connection to its last status. -/
theorem status_moves_forward_broken_pipe :
    ∃ s : Dispatch LinkedBuffer Unit, brokenPipe.foldlM step (new ()) = some s ∧
      s.conn.status_ = .kDisconnected ∧ s.conn.log.count .removeChannel = 1 ∧
      s.conn.log.count .closeCallback = 1 := by
  have ends : (brokenPipe.foldlM step (new () : Dispatch LinkedBuffer Unit)).map
      (fun s => s.conn.status_) = some .kDisconnected := by decide +kernel
  obtain ⟨s, run, hs⟩ := Option.map_eq_some_iff.1 ends
  obtain ⟨removed, called, _⟩ := (status_moves_forward () _).2 s run
  rw [if_pos hs] at removed called
  exact ⟨s, run, hs, removed, called⟩

end Dispatch

end WebServer.Net
