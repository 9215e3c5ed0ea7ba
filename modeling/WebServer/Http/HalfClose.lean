import WebServer.Http.ServerSpec

/-!
# Writing after `SHUT_WR`

After a closing response `connectionOnRead` calls `shutdown`, and the comment in `handleRead` expects that
from then on only EOF is read. The read handler stays active, though, and `send` does not look at
`status_`: bytes that come after `SHUT_WR` and finish a request, or leave a rejected line in the buffer,
are answered with a write. `no_write_after_shutdown` says that this is the only way: in a run of the server
in which such bytes leave the parser waiting, no connection writes after its `SHUT_WR`.
-/

namespace WebServer.Http

open Net Lib LawfulBuffer TCPConnection

/-- No write of one or more bytes comes after a `SHUT_WR`. -/
def NoWriteAfterShut (log : List Action) : Prop :=
  log.Pairwise fun a b => a = Action.shutdownWr → b.writesBytes = false

instance (log : List Action) : Decidable (NoWriteAfterShut log) :=
  inferInstanceAs (Decidable (log.Pairwise _))

/-- The invariant of one connection: after `SHUT_WR` it has no write interest. -/
structure Hushed {B Ctx : Type} (c : TCPConnection B Ctx) : Prop where
  quiet : NoWriteAfterShut c.log
  idle : .shutdownWr ∈ c.log → c.channel_.isWriting = false

/-- Nothing is written after a shutdown that never happens. -/
lemma noWriteAfterShut_of_notMem {l : List Action} (h : .shutdownWr ∉ l) : NoWriteAfterShut l :=
  List.pairwise_of_forall_mem_list fun _ ha _ _ e => absurd (e ▸ ha) h

/-- Actions that neither write nor shut down keep the property. -/
lemma NoWriteAfterShut.silent {l l' : List Action} (h : NoWriteAfterShut l) (s : Silent l') :
    NoWriteAfterShut (l ++ l') :=
  List.pairwise_append.2 ⟨h, noWriteAfterShut_of_notMem s.1, fun _ _ b hb _ => s.2 b hb⟩

namespace Hushed

variable {B Ctx : Type} {c c' : TCPConnection B Ctx}

/-- Logging nothing of the kind keeps the connection hushed. -/
lemma silent (h : Hushed c) {l} (hl : c'.log = c.log ++ l) (s : Silent l)
    (ch : c'.channel_ = c.channel_) : Hushed c' where
  quiet := by
    rw [hl]
    exact h.quiet.silent s
  idle hm := by
    rw [hl, List.mem_append] at hm
    rw [ch]
    exact h.idle (hm.resolve_right s.1)

/-- Before the first `SHUT_WR` anything may be written. -/
lemma of_extends (no : .shutdownWr ∉ c.log) {l} (nl : .shutdownWr ∉ l) (e : c.Extends c' l) :
    Hushed c' := by
  have nol : .shutdownWr ∉ c.log ++ l := by simpa using ⟨no, nl⟩
  rcases e with e | ⟨e, hw⟩
  · refine ⟨?_, fun hm => ?_⟩
    · rw [e]
      exact noWriteAfterShut_of_notMem nol
    · rw [e] at hm
      exact absurd hm nol
  · refine ⟨?_, fun _ => hw⟩
    rw [e]
    refine List.pairwise_append.2 ⟨noWriteAfterShut_of_notMem nol, List.pairwise_singleton _ _, ?_⟩
    intro a ha b _ ea
    exact absurd (ea ▸ ha) nol

/-- A hushed connection stays hushed when its context changes. -/
lemma withContext {Ctx' : Type} (h : Hushed c) (x : Ctx') : Hushed (withContext c x) :=
  ⟨h.quiet, h.idle⟩

variable {I : Type} [BufferType B I]

/-- A hushed connection stays hushed when it is closed. -/
lemma handleClose (h : Hushed c) : Hushed c.handleClose :=
  h.silent handleClose_log silent_closeLog handleClose_channel

end Hushed

namespace World

variable {B I : Type} [BufferType B I] [LawfulBuffer B I] {hash : HTTPRequest → Nat}

/-- If the connection has issued `SHUT_WR`, the bytes that this event lets it read leave its parser
    waiting: they finish no request, and no line is rejected. -/
def Waits (world : World B) (e : Event) : Prop :=
  let c := world.conns e.conn
  let bs := (sysw.read (capacity c.in_buffer_) e.r).2
  ∀ revents, c.poll e.ready = some revents →
    revents.meets (POLLIN ||| POLLRDHUP ||| POLLPRI) = true → .shutdownWr ∈ c.log → bs ≠ [] →
    ∃ ctx rest, Parses c.context_ (unread c.in_buffer_ ++ bs) true ctx rest ∧ ctx.state_ ≠ .kGotAll

/-- The invariant of the world. -/
def AllHushed (world : World B) : Prop := ∀ id, (world.conns id).Sound ∧ Hushed (world.conns id)

/-- No connection of a new world has shut down its writing half. -/
lemma allHushed_new (srv : HTTPServer) : (new srv : World B).AllHushed := by
  intro id
  refine ⟨Sound.created _, noWriteAfterShut_of_notMem ?_, fun hm => ?_⟩
  · simp [new, created, handleCreate, addChannelInPoller, record, TCPConnection.new]
  · simp [new, created, handleCreate, addChannelInPoller, record, TCPConnection.new] at hm

/-- What one event does to its connection. -/
lemma handleEvent_hushed {c c' : TCPConnection B Upper} {revents : Mask} {e : Event}
    {heap : ConnId → HTTPRequest} (h : c.Sound) (hu : Hushed c)
    (out : revents.meets POLLOUT = true → c.channel_.isWriting = true)
    (waits : revents.meets (POLLIN ||| POLLRDHUP ||| POLLPRI) = true → .shutdownWr ∈ c.log →
      (sysw.read (capacity c.in_buffer_) e.r).2 ≠ [] → ∃ ctx rest, Parses c.context_.context
        (unread c.in_buffer_ ++ (sysw.read (capacity c.in_buffer_) e.r).2) true ctx rest ∧
        ctx.state_ ≠ .kGotAll)
    (ev : c.handleEvent revents e.r (connectionOnRead hash heap e.conn e.onRead) e.onWrite
      = some c') : c'.Sound ∧ Hushed c' := by
  obtain ⟨s', c2, c3, close, s2, read, write⟩ := handleEvent_stages h out ev
  refine ⟨s', ?_⟩
  have h2 : Hushed c2 ∧ c2.in_buffer_ = c.in_buffer_ ∧ c2.context_ = c.context_ ∧
      (.shutdownWr ∈ c2.log → .shutdownWr ∈ c.log) := by
    rcases close with rfl | rfl
    · exact ⟨hu, rfl, rfl, id⟩
    · refine ⟨hu.handleClose, handleClose_in, handleClose_context, fun hm => ?_⟩
      rw [handleClose_log, List.mem_append] at hm
      exact hm.resolve_right silent_closeLog.1
  obtain ⟨hu2, in2, ctx2, log2⟩ := h2
  have hu3 : Hushed c3 := by
    rcases read with rfl | ⟨pin, er⟩
    · exact hu2
    · obtain ⟨_, _, ⟨ch, _, l, lg, sl⟩ | ⟨response, ⟨ne, p, rs⟩, wait, l, nl, ext⟩⟩ :=
        handleRead_served s2 er
      · exact hu2.silent lg sl ch
      · by_cases hm : .shutdownWr ∈ c2.log
        · -- the parser waits, so there is no response
          rw [in2] at ne p
          rw [ctx2] at p rs
          obtain ⟨ctx', rest', p', nf⟩ := waits pin (log2 hm) ne
          obtain ⟨rfl, rfl, rfl⟩ := p.det p'
          rw [respond_wait rfl nf] at rs
          cases response with
          | none =>
            obtain ⟨ch, l, lg, sl⟩ := wait rfl
            exact hu2.silent lg sl ch
          | some _ => simp at rs
        · exact .of_extends hm nl ext
  rcases write with rfl | ⟨hw, _, l, nl, ext⟩
  · exact hu3
  · -- a writing channel has not seen `SHUT_WR`
    refine .of_extends (fun hm => ?_) nl ext
    rw [hu3.idle hm] at hw
    cases hw

/-- A step that leaves the parser waiting keeps every connection hushed. -/
lemma step_allHushed {world world' : World B} {e : Event} (inv : world.AllHushed)
    (waits : world.Waits e) (st : world.step hash e = some world') : world'.AllHushed := by
  rcases step_cases st with rfl | ⟨revents, c', poll, ev, rfl⟩
  · exact inv
  · obtain ⟨s, hu⟩ := inv e.conn
    let up : Upper := ⟨(world.conns e.conn).context_, world.server⟩
    obtain ⟨s', hu'⟩ := handleEvent_hushed (e := e) (withContext_sound s up) (hu.withContext up)
      (s.poll_out poll) (waits revents poll) ev
    refine (Function.forall_update_iff world.conns fun _ c => c.Sound ∧ Hushed c).2 ⟨?_, ?_⟩
    · exact ⟨withContext_sound s' _, hu'.withContext _⟩
    · intro id _
      exact inv id

end World

/-- In every run of the server in which the bytes that come after a connection's `SHUT_WR` leave its parser waiting,
    no connection writes a byte after its `SHUT_WR`. The iterators of the linked buffer's deque are taken to survive
    `push_back`. -/
theorem no_write_after_shutdown (hash : HTTPRequest → Nat) (srv : HTTPServer) (es : List Event) :
    (∀ world : World Buffer, Steps World.Waits (World.step hash) (World.new srv) es world →
      ∀ id, NoWriteAfterShut (world.conns id).log) ∧
    (∀ world : World LinkedBuffer, Steps World.Waits (World.step hash) (World.new srv) es world →
      ∀ id, NoWriteAfterShut (world.conns id).log) := by
  constructor
  · intro world run id
    exact (run.inv World.step_allHushed (World.allHushed_new srv) id).2.quiet
  · intro world run id
    exact (run.inv World.step_allHushed (World.allHushed_new srv) id).2.quiet

/-- A server without any path. -/
def bareServer : HTTPServer := .new (fun _ => none) false

/-- A line that is rejected. -/
def badLine : Event := ⟨0, POLLIN, .data (bytes "?\r\n"), .accept 100, .accept 0⟩

/-- EOF -/
def eof : Event := ⟨0, POLLIN, .data [], .accept 100, .accept 0⟩

/-- The end of input after a refused line is a run that waits. -/
theorem no_write_after_shutdown_eof :
    ∃ world : World LinkedBuffer,
      Steps World.Waits (World.step fun _ => 0) (World.new bareServer) [badLine, eof] world ∧
        ∀ id, NoWriteAfterShut (world.conns id).log := by
  have two : (([badLine, eof].foldlM (World.step fun _ => 0)
      (World.new bareServer : World LinkedBuffer))).isSome = true := by decide +kernel
  simp only [List.foldlM_cons, List.foldlM_nil, Option.bind_eq_bind] at two
  obtain ⟨world, run⟩ := Option.isSome_iff_exists.1 two
  obtain ⟨w1, e1, run⟩ := Option.bind_eq_some_iff.1 run
  obtain ⟨w2, e2, run⟩ := Option.bind_eq_some_iff.1 run
  have steps : Steps World.Waits (World.step fun _ => 0) (World.new bareServer : World LinkedBuffer)
      [badLine, eof] w2 := by
    refine .cons (fun _ _ _ hm => ?_) e1 (.cons (fun _ _ _ _ ne => absurd rfl ne) e2 .nil)
    exact absurd hm (by decide)
  exact ⟨w2, steps, (no_write_after_shutdown (fun _ => 0) bareServer [badLine, eof]).2 w2 steps⟩

/-- A rejected line is answered and `SHUT_WR` issued; one more byte, and it is answered again. -/
theorem write_after_shutdown :
    ([badLine, ⟨0, POLLIN, .data (bytes "x"), .accept 100, .accept 0⟩].foldlM
      (World.step fun _ => 0) (World.new bareServer : World LinkedBuffer)).map
        (fun world => decide (NoWriteAfterShut (world.conns 0).log)) = some false := by
  decide +kernel

end WebServer.Http
