import WebServer.Net.Status

/-!
# The context of a connection

A connection keeps the context of the upper layer and never looks at it: its handlers do the same on a
connection with another context. `handleEvent_mapContext` says so for a whole event, if the read callbacks of
the two connections do the same.
-/

namespace WebServer.Net.TCPConnection

variable {B I Ctx Ctx' : Type} [BufferType B I] {g : Ctx → Ctx'} {c : TCPConnection B Ctx}

/-- The connection with another view of its context. -/
def mapContext (g : Ctx → Ctx') (c : TCPConnection B Ctx) : TCPConnection B Ctx' where
  channel_ := c.channel_
  status_ := c.status_
  in_buffer_ := c.in_buffer_
  out_buffer_ := c.out_buffer_
  context_ := g c.context_
  interest := c.interest
  log := c.log

@[simp] lemma mapContext_channel : (c.mapContext g).channel_ = c.channel_ := rfl
@[simp] lemma mapContext_status : (c.mapContext g).status_ = c.status_ := rfl
@[simp] lemma mapContext_in : (c.mapContext g).in_buffer_ = c.in_buffer_ := rfl
@[simp] lemma mapContext_out : (c.mapContext g).out_buffer_ = c.out_buffer_ := rfl

/-- `handleClose` does not look at the context. -/
lemma handleClose_mapContext : (c.mapContext g).handleClose = c.handleClose.mapContext g := by
  unfold handleClose
  rw [apply_ite (mapContext g)]
  rfl

/-- `shutdown` does not look at the context. -/
lemma shutdown_mapContext : (c.mapContext g).shutdown = c.shutdown.mapContext g := by
  unfold shutdown
  rw [apply_ite (mapContext g)]
  dsimp only
  rw [apply_ite (mapContext g)]
  rfl

/-- Writing out the buffer does not look at the context. -/
lemma readToFD_mapContext {w : WriteResult} :
    (c.mapContext g).readToFD w = (c.readToFD w).map (Prod.map id (mapContext g)) := by
  unfold readToFD
  rw [mapContext_out]
  cases BufferType.readToFD c.out_buffer_ w with
  | none => rfl
  | some p => rfl

/-- `send` does not look at the context. -/
lemma send_mapContext {cb : SendCallback} {w : WriteResult} :
    (c.mapContext g).send cb w = (c.send cb w).map (mapContext g) := by
  unfold send
  rw [mapContext_out]
  cases cb.appends.foldlM BufferType.append c.out_buffer_ with
  | none => rfl
  | some out =>
    simp only [Option.bind_eq_bind, Option.bind_some]
    generalize ha : { c with out_buffer_ := out }.record (.append cb.appends.flatten) = a
    have hb : { c.mapContext g with out_buffer_ := out }.record (.append cb.appends.flatten)
        = a.mapContext g := by
      rw [← ha]
      rfl
    rw [hb, readToFD_mapContext, mapContext_channel]
    split
    · cases a.readToFD w with
      | none => rfl
      | some p =>
        obtain ⟨n, d⟩ := p
        simp only [Option.map_some, Option.bind_some, Prod.map_apply, id_eq, mapContext_out]
        split
        · exact congrArg some handleClose_mapContext
        · cases BufferType.readableSize d.out_buffer_ with
          | none => rfl
          | some size =>
            simp only [Option.bind_some]
            split <;> rfl
    · rfl

/-- `handleWrite` does not look at the context. -/
lemma handleWrite_mapContext {w : WriteResult} :
    (c.mapContext g).handleWrite w = (c.handleWrite w).map (mapContext g) := by
  unfold handleWrite
  generalize ha : c.record (.assert (c.status_ = .kConnected)) = a
  have hb : (c.mapContext g).record (.assert ((c.mapContext g).status_ = .kConnected))
      = a.mapContext g := by
    rw [← ha]
    rfl
  simp only [hb, readToFD_mapContext, Option.bind_eq_bind]
  cases a.readToFD w with
  | none => rfl
  | some p =>
    obtain ⟨n, d⟩ := p
    simp only [Option.map_some, Option.bind_some, Prod.map_apply, id_eq, mapContext_out]
    split
    · exact congrArg some handleClose_mapContext
    · cases BufferType.readableSize d.out_buffer_ with
      | none => rfl
      | some size =>
        simp only [Option.bind_some]
        split
        · -- the status is the one of `d`, whatever happens to the channel
          change (if d.status_ = .kDisconnecting then _ else _)
            = Option.map _ (if d.status_ = .kDisconnecting then _ else _)
          have drained := shutdown_mapContext (g := g)
            (c := { d with channel_ := d.channel_.disableWriting }.updateChannelInPoller)
          split
          · exact congrArg some drained
          · rfl
        · rfl

/-- Receiving does not look at the context. -/
lemma receive_mapContext {r : ReadResult} :
    (c.mapContext g).receive r = (c.receive r).map (Prod.map (mapContext g) id) := by
  unfold receive
  rw [mapContext_status, mapContext_in]
  split
  · cases BufferType.writeFromFD c.in_buffer_ r with
    | none => rfl
    | some p =>
      have close := handleClose_mapContext (g := g) (c := { c with in_buffer_ := p.2 }.record (.read p.1))
      simp only [Option.bind_eq_bind, Option.bind_some]
      split
      · rfl
      · split
        · exact congrArg (fun d => some (d, false)) close
        · exact congrArg (fun d => some (d, false)) close
  · rfl

/-- `handleRead` looks at the context in its callback only. -/
lemma handleRead_mapContext {r : ReadResult} {cb : TCPConnection B Ctx → Option (TCPConnection B Ctx)}
    {cb' : TCPConnection B Ctx' → Option (TCPConnection B Ctx')}
    (same : ∀ d, c.receive r = some (d, true) → cb' (d.mapContext g) = (cb d).map (mapContext g)) :
    (c.mapContext g).handleRead r cb' = (c.handleRead r cb).map (mapContext g) := by
  rw [handleRead_eq, handleRead_eq, receive_mapContext]
  cases h : c.receive r with
  | none => rfl
  | some p =>
    obtain ⟨d, called⟩ := p
    cases called with
    | true => exact same d h
    | false => rfl

/-- A closed connection does not read. -/
lemma receive_closed {r : ReadResult} (h : c.status_ = .kDisconnected) : c.receive r = some (c, false) := by
  unfold receive
  rw [if_neg (by simp [h])]

/-- Closing on a hang-up does not look at the context. -/
lemma closeFirst_mapContext {revents : Mask} :
    (c.mapContext g).closeFirst revents = (c.closeFirst revents).mapContext g := by
  unfold closeFirst handleError
  split
  · split
    · rw [handleClose_mapContext, handleClose_mapContext]
    · exact handleClose_mapContext
  · split
    · exact handleClose_mapContext
    · rfl

/-- In an event the read callback is called, with the connection `d`. -/
def Reads (c : TCPConnection B Ctx) (revents : Mask) (r : ReadResult) (d : TCPConnection B Ctx) : Prop :=
  (revents.meets POLLHUP && !revents.meets POLLIN) = false ∧ revents.meets (POLLERR ||| POLLNVAL) = false ∧
    revents.meets (POLLIN ||| POLLRDHUP ||| POLLPRI) = true ∧ c.receive r = some (d, true)

/-- An event reads whatever the context is. -/
lemma Reads.mapContext {revents : Mask} {r : ReadResult} {d : TCPConnection B Ctx} (h : c.Reads revents r d) :
    (c.mapContext g).Reads revents r (d.mapContext g) := by
  obtain ⟨hup, err, hin, rd⟩ := h
  refine ⟨hup, err, hin, ?_⟩
  rw [receive_mapContext, rd]
  rfl

/-- An event of a connection with another view of its context, if the read callbacks do the same on the
    connection they are called with. -/
lemma handleEvent_mapContext {revents : Mask} {r : ReadResult} {w : WriteResult}
    {cb : TCPConnection B Ctx → Option (TCPConnection B Ctx)}
    {cb' : TCPConnection B Ctx' → Option (TCPConnection B Ctx')}
    (same : ∀ d, c.Reads revents r d → cb' (d.mapContext g) = (cb d).map (mapContext g)) :
    (c.mapContext g).handleEvent revents r cb' w = (c.handleEvent revents r cb w).map (mapContext g) := by
  have write (o : Option (TCPConnection B Ctx)) :
      ((o.map (mapContext g)).bind fun c => if revents.meets POLLOUT then c.handleWrite w else some c)
        = (o.bind fun c => if revents.meets POLLOUT then c.handleWrite w else some c).map
          (mapContext g) := by
    cases o with
    | none => rfl
    | some d =>
      simp only [Option.map_some, Option.bind_some]
      split
      · exact handleWrite_mapContext
      · rfl
  rw [handleEvent_closeFirst, handleEvent_closeFirst, closeFirst_mapContext, ← write]
  congr 1
  cases hin : revents.meets (POLLIN ||| POLLRDHUP ||| POLLPRI) with
  | true =>
    refine handleRead_mapContext fun d hd => ?_
    rcases @closeFirst_cases _ _ c revents with ⟨hup, err, e⟩ | ⟨_, e⟩
    · rw [e] at hd
      exact same d ⟨hup, err, hin, hd⟩
    · rw [e, receive_closed handleClose_status] at hd
      cases hd
  | false => rfl

/-- Writing does not touch the context. -/
lemma handleWrite_context {c' : TCPConnection B Ctx} {w : WriteResult} (e : c.handleWrite w = some c') :
    c'.context_ = c.context_ := by
  -- a connection is one without context, seen with its context
  have blank : c = (c.mapContext fun _ => ()).mapContext fun _ => c.context_ := rfl
  rw [blank, handleWrite_mapContext] at e
  obtain ⟨d, _, rfl⟩ := Option.map_eq_some_iff.1 e
  rfl

/-- Receiving leaves the context as it is. -/
lemma receive_context {d : TCPConnection B Ctx} {r : ReadResult} {called : Bool}
    (e : c.receive r = some (d, called)) : d.context_ = c.context_ := by
  have blank : c = (c.mapContext fun _ => ()).mapContext fun _ => c.context_ := rfl
  rw [blank, receive_mapContext] at e
  obtain ⟨⟨d, _⟩, _, e⟩ := Option.map_eq_some_iff.1 e
  cases e
  rfl

/-- Closing on a hang-up leaves the context as it is. -/
lemma closeFirst_context {revents : Mask} : (c.closeFirst revents).context_ = c.context_ := by
  rcases @closeFirst_cases _ _ c revents with ⟨_, _, e⟩ | ⟨_, e⟩
  · rw [e]
  · rw [e, handleClose_context]

/-- An event changes the context in the read callback only. -/
lemma handleEvent_context {revents : Mask} {r : ReadResult} {w : WriteResult} {c' : TCPConnection B Ctx}
    {cb : TCPConnection B Ctx → Option (TCPConnection B Ctx)} (e : c.handleEvent revents r cb w = some c') :
    c'.context_ = c.context_ ∨
      ∃ d d', c.Reads revents r d ∧ cb d = some d' ∧ c'.context_ = d'.context_ := by
  rw [handleEvent_closeFirst] at e
  obtain ⟨c3, e3, e⟩ := Option.bind_eq_some_iff.1 e
  have last : c'.context_ = c3.context_ := by
    split at e
    · exact handleWrite_context e
    · cases e
      rfl
  rw [last]
  split at e3
  case isTrue hin =>
    rw [handleRead_eq] at e3
    obtain ⟨⟨d, called⟩, ed, e3⟩ := Option.bind_eq_some_iff.1 e3
    cases called with
    | true =>
      rcases @closeFirst_cases _ _ c revents with ⟨hup, err, same⟩ | ⟨_, close⟩
      · rw [same] at ed
        exact .inr ⟨d, c3, ⟨hup, err, hin, ed⟩, e3, rfl⟩
      · rw [close, receive_closed handleClose_status] at ed
        cases ed
    | false =>
      cases e3
      exact .inl ((receive_context ed).trans closeFirst_context)
  case isFalse =>
    cases e3
    exact .inl closeFirst_context

section Lawful

open LawfulBuffer

variable [LawfulBuffer B I]

/-- What the read callback is called with. -/
lemma Sound.receive_true {d : TCPConnection B Ctx} {r : ReadResult} (s : c.Sound)
    (e : c.receive r = some (d, true)) : d.Sound ∧ Parsable d.in_buffer_ := by
  have begun : c.status_ ≠ .kConnecting := by
    intro h
    unfold TCPConnection.receive at e
    rw [if_neg (by simp [h])] at e
    cases e
  obtain ⟨d', called, e', s', _, pr⟩ := s.receive begun r
  cases e.symm.trans e'
  exact ⟨s', pr rfl⟩

end Lawful

end WebServer.Net.TCPConnection
