import WebServer.Net.LinkedStrict
import WebServer.Net.OutputBuffer

/-!
# Runs over the linked buffer by the rules of its deque

A connection over `StampedBuffer` does what a connection over `Recorded` does (`Tracks`) up to the first write that is
not timely, and there its behaviour is undefined (`Follows`, `run_strict`). So the runs whose behaviour is defined are
those whose writes are timely, and what is known of every run over a lawful buffer is known of them.
-/

namespace WebServer.Net

open LawfulBuffer

namespace TCPConnection

variable {B B' Ctx : Type}

/-- The same connection over other buffers. -/
def withBuffers (c : TCPConnection B Ctx) (input output : B') : TCPConnection B' Ctx :=
  { c with in_buffer_ := input, out_buffer_ := output }

section WithBuffers

variable {I I' : Type} [BufferType B I] [BufferType B' I'] {c : TCPConnection B Ctx} {i o : B'}

@[simp] lemma withBuffers_channel : (c.withBuffers i o).channel_ = c.channel_ := rfl
@[simp] lemma withBuffers_status : (c.withBuffers i o).status_ = c.status_ := rfl
@[simp] lemma withBuffers_in : (c.withBuffers i o).in_buffer_ = i := rfl
@[simp] lemma withBuffers_out : (c.withBuffers i o).out_buffer_ = o := rfl
@[simp] lemma withBuffers_context : (c.withBuffers i o).context_ = c.context_ := rfl
@[simp] lemma withBuffers_interest : (c.withBuffers i o).interest = c.interest := rfl
@[simp] lemma withBuffers_log : (c.withBuffers i o).log = c.log := rfl

/-- `handleClose` does not look at the buffers. -/
lemma withBuffers_handleClose : (c.withBuffers i o).handleClose = c.handleClose.withBuffers i o := by
  symm
  unfold handleClose
  split
  case isTrue open_ => exact (if_pos open_).symm
  case isFalse closed => exact (if_neg closed).symm

/-- `shutdown` does not look at the buffers. -/
lemma withBuffers_shutdown : (c.withBuffers i o).shutdown = c.shutdown.withBuffers i o := by
  rcases c.shutdown_cases with ⟨closed, e⟩ | ⟨open_, writing, e⟩ | ⟨open_, idle, e⟩
  · rw [e]
    exact if_pos closed
  · rw [e]
    refine (if_neg open_).trans ?_
    simp [withBuffers, writing]
  · rw [e]
    refine (if_neg open_).trans ?_
    simp [withBuffers, idle, record]

/-- Closing on a hang-up does not look at the buffers. -/
lemma withBuffers_closeFirst {revents : Mask} :
    (c.withBuffers i o).closeFirst revents = (c.closeFirst revents).withBuffers i o := by
  unfold closeFirst handleError
  cases revents.meets POLLHUP && !revents.meets POLLIN <;> cases revents.meets (POLLERR ||| POLLNVAL) <;>
    simp [withBuffers_handleClose]

end WithBuffers

/-- The two connections have done the same. -/
inductive Tracks : TCPConnection StampedBuffer Ctx → TCPConnection Recorded Ctx → Prop where
  | mk {c i o} :
    Backs i c.in_buffer_ →
    Backs o c.out_buffer_ →
    Tracks (c.withBuffers i o) c

/-- Over the checked buffer the behaviour is the same, or it is undefined and the record is not timely. -/
def Follows (x : Option (TCPConnection StampedBuffer Ctx)) (c : TCPConnection Recorded Ctx) : Prop :=
  (∃ s, x = some s ∧ Tracks s c) ∨ (x = none ∧ ¬c.out_buffer_.Timely)

variable {s : TCPConnection StampedBuffer Ctx} {c c' : TCPConnection Recorded Ctx}

/-- Connections just created track each other. -/
lemma Tracks.created (context : Ctx) : Tracks (created context) (created context) :=
  @mk _ (TCPConnection.created context) _ _ .new .new

/-- `handleClose` keeps track. -/
lemma Tracks.handleClose (t : Tracks s c) : Tracks s.handleClose c.handleClose := by
  obtain ⟨bi, bo⟩ := t
  rw [withBuffers_handleClose]
  exact .mk (by simpa using bi) (by simpa using bo)

/-- `shutdown` keeps track. -/
lemma Tracks.shutdown (t : Tracks s c) : Tracks s.shutdown c.shutdown := by
  obtain ⟨bi, bo⟩ := t
  rw [withBuffers_shutdown]
  exact .mk (by simpa using bi) (by simpa using bo)

/-- The writes of `send` and of `handleWrite`. -/
lemma Tracks.readToFD (t : Tracks s c) {w : WriteResult} {n : Int} (e : c.readToFD w = some (n, c')) :
    (c.out_buffer_.outdated = false ∧ ∃ s', s.readToFD w = some (n, s') ∧ Tracks s' c' ∧
      c'.out_buffer_.outdated = false) ∨
    (s.readToFD w = none ∧ ¬c'.out_buffer_.Timely) := by
  obtain ⟨bi, bo⟩ := t
  rename_i i o
  obtain ⟨⟨call, out⟩, er, e⟩ := Option.bind_eq_some_iff.1 e
  cases e
  cases late : c.out_buffer_.outdated with
  | false =>
    obtain ⟨o', es, bo', fresh⟩ := bo.readToFD late er
    refine .inl ⟨rfl, (record { c with out_buffer_ := out } (.write call)).withBuffers i o', ?_, .mk bi bo', fresh⟩
    show (BufferType.readToFD o w).bind _ = _
    rw [es]
    rfl
  | true =>
    obtain ⟨es, untimely⟩ := bo.readToFD_late late w
    refine .inr ⟨?_, untimely er⟩
    show (BufferType.readToFD o w).bind _ = _
    rw [es]
    rfl

/-- A handler that writes and then does the same to the two connections, without touching the output. -/
lemma Tracks.write (t : Tracks s c) {w : WriteResult}
    {f : Int × TCPConnection Recorded Ctx → Option (TCPConnection Recorded Ctx)}
    {g : Int × TCPConnection StampedBuffer Ctx → Option (TCPConnection StampedBuffer Ctx)}
    (e : (c.readToFD w).bind f = some c')
    (tail : ∀ {n s1 c1}, Tracks s1 c1 → c1.out_buffer_.outdated = false → f (n, c1) = some c' →
      ∃ s', g (n, s1) = some s' ∧ Tracks s' c')
    (same : ∀ {n c1}, f (n, c1) = some c' → c'.out_buffer_ = c1.out_buffer_) : Follows ((s.readToFD w).bind g) c' := by
  obtain ⟨⟨n, c1⟩, e1, e⟩ := Option.bind_eq_some_iff.1 e
  rcases t.readToFD e1 with ⟨_, s1, es, t1, fresh⟩ | ⟨es, late⟩
  · rw [es]
    exact .inl (tail t1 fresh e)
  · rw [es]
    refine .inr ⟨rfl, ?_⟩
    rwa [same e]

/-- With a valid reader both connections have as much to write. -/
lemma Tracks.readableSize (t : Tracks s c) (fresh : c.out_buffer_.outdated = false) :
    BufferType.readableSize s.out_buffer_ = BufferType.readableSize c.out_buffer_ := by
  obtain ⟨_, bo⟩ := t
  exact bo.readableSize fresh

/-- Updating the channel keeps track. -/
lemma Tracks.updateChannelInPoller (t : Tracks s c) (ch : Channel → Channel) :
    Tracks (TCPConnection.updateChannelInPoller { s with channel_ := ch s.channel_ })
      (TCPConnection.updateChannelInPoller { c with channel_ := ch c.channel_ }) := by
  obtain ⟨bi, bo⟩ := t
  exact @mk _ (TCPConnection.updateChannelInPoller { c with channel_ := ch c.channel_ }) _ _ bi bo

/-- Both connections have the same status. -/
lemma Tracks.status (t : Tracks s c) : s.status_ = c.status_ := by
  obtain ⟨_, _⟩ := t
  rfl

/-- `send` keeps track, or uses an outdated reader. -/
lemma Tracks.send (t : Tracks s c) (sound : c.Sound) (cb : SendCallback) (w : WriteResult) :
    ∃ c', c.send cb w = some c' ∧ Follows (s.send cb w) c' := by
  obtain ⟨c', e, _⟩ := sound.send cb w
  refine ⟨c', e, ?_⟩
  obtain ⟨bi, bo⟩ := t
  rename_i i o
  obtain ⟨o', out, es, er, bo'⟩ := bo.foldlM_append cb.appends
  let c1 : TCPConnection Recorded Ctx := record { c with out_buffer_ := out } (.append cb.appends.flatten)
  have t1 : Tracks (c1.withBuffers i o') c1 := .mk bi bo'
  rw [TCPConnection.send, er] at e
  rw [TCPConnection.send, withBuffers_out, es]
  by_cases idle : (!c.channel_.isWriting) = true
  · have e : (c1.readToFD w).bind _ = some c' := (if_pos idle).symm.trans e
    have written := t1.write (g := fun x => if x.1 < 0 then some x.2.handleError else
      (BufferType.readableSize x.2.out_buffer_).bind fun size => if size > 0 then
        some { x.2 with channel_ := x.2.channel_.enableWriting }.updateChannelInPoller else some x.2) e ?_ ?_
    · exact (congrArg (Follows · c') (if_pos idle)).mpr written
    · intro n s2 c2 t2 fresh e
      dsimp only at e ⊢
      split at e
      case isTrue neg =>
        cases e
        exact ⟨_, if_pos neg, t2.handleClose⟩
      case isFalse nneg =>
        obtain ⟨size, esize, e⟩ := Option.bind_eq_some_iff.1 e
        rw [if_neg nneg, t2.readableSize fresh, esize, Option.bind_some]
        split at e
        case isTrue left =>
          cases e
          exact ⟨_, if_pos left, t2.updateChannelInPoller Channel.enableWriting⟩
        case isFalse all =>
          cases e
          exact ⟨_, if_neg all, t2⟩
    · intro n c2 e
      dsimp only at e
      split at e
      · cases e
        exact handleClose_out
      · obtain ⟨size, _, e⟩ := Option.bind_eq_some_iff.1 e
        split at e
        all_goals
          cases e
          rfl
  · cases (if_neg idle).symm.trans e
    exact .inl ⟨_, if_neg idle, t1⟩

/-- `handleWrite` keeps track, or uses an outdated reader. -/
lemma Tracks.handleWrite (t : Tracks s c) {w : WriteResult} (e : c.handleWrite w = some c') :
    Follows (s.handleWrite w) c' := by
  have t1 : Tracks (s.record (.assert (s.status_ = .kConnected))) (c.record (.assert (c.status_ = .kConnected))) := by
    obtain ⟨bi, bo⟩ := t
    exact @mk _ (c.record _) _ _ bi bo
  refine t1.write e ?_ ?_
  · intro n s2 c2 t2 fresh e
    dsimp only at e ⊢
    split at e
    case isTrue neg =>
      cases e
      exact ⟨_, if_pos neg, t2.handleClose⟩
    case isFalse nneg =>
      obtain ⟨size, esize, e⟩ := Option.bind_eq_some_iff.1 e
      rw [if_neg nneg, t2.readableSize fresh, esize]
      simp only [Option.bind_eq_bind, Option.bind_some]
      have drained := t2.updateChannelInPoller Channel.disableWriting
      split at e
      case isTrue none_ =>
        rw [if_pos none_]
        split at e
        case isTrue closing =>
          cases e
          exact ⟨_, if_pos (drained.status.trans closing), drained.shutdown⟩
        case isFalse open_ =>
          cases e
          exact ⟨_, if_neg fun closing => open_ (drained.status.symm.trans closing), drained⟩
      case isFalse left =>
        cases e
        exact ⟨_, if_neg left, t2⟩
  · intro n c2 e
    dsimp only at e
    split at e
    · cases e
      exact handleClose_out
    · obtain ⟨size, _, e⟩ := Option.bind_eq_some_iff.1 e
      split at e
      · split at e
        · cases e
          exact shutdown_out
        · cases e
          rfl
      · cases e
        rfl

/-- A call of the server keeps track, or uses an outdated reader. -/
lemma Tracks.call (t : Tracks s c) (sound : c.Sound) (x : Call) :
    ∃ c', c.call x = some c' ∧ Follows (s.call x) c' := by
  cases x with
  | send cb w => exact t.send sound cb w
  | shutdown => exact ⟨_, rfl, .inl ⟨_, rfl, t.shutdown⟩⟩

/-- A record that is not timely stays so. -/
lemma untimely_moves (moves : Moves c.output c'.output) (late : ¬c.out_buffer_.Timely) : ¬c'.out_buffer_.Timely := by
  refine moves.keep (P := fun x => ¬x.1.Timely) (fun late move => ?_) late
  cases move with
  | append e =>
    cases e
    exact fun h => late h.of_append
  | wrote e _ =>
    obtain ⟨_, _, e⟩ := Option.map_eq_some_iff.1 e
    cases e
    exact fun h => late h.of_append
  | failed e _ =>
    obtain ⟨_, _, e⟩ := Option.map_eq_some_iff.1 e
    cases e
    exact fun h => late h.of_append
  | close => exact late
  | shutdown _ => exact late

/-- What comes after an undefined call is undefined, and the record stays untimely. -/
lemma Follows.bind {x : Option (TCPConnection StampedBuffer Ctx)}
    {f : TCPConnection StampedBuffer Ctx → Option (TCPConnection StampedBuffer Ctx)}
    (h : Follows x c) (moves : Moves c.output c'.output) (next : ∀ {s}, x = some s → Tracks s c → Follows (f s) c') :
    Follows (x.bind f) c' := by
  rcases h with ⟨s, rfl, t⟩ | ⟨rfl, late⟩
  · exact next rfl t
  · exact .inr ⟨rfl, untimely_moves moves late⟩

/-- The calls of a callback keep track, or use an outdated reader. -/
lemma Tracks.calls (t : Tracks s c) (sound : c.Sound) {script : List Call}
    (e : script.foldlM TCPConnection.call c = some c') : Follows (script.foldlM TCPConnection.call s) c' := by
  induction script generalizing s c with
  | nil =>
    cases e
    exact .inl ⟨s, rfl, t⟩
  | cons x script ih =>
    rw [List.foldlM_cons] at e ⊢
    obtain ⟨c1, e1, e⟩ := Option.bind_eq_some_iff.1 e
    obtain ⟨c1', e1', follows⟩ := t.call sound x
    cases e1.symm.trans e1'
    obtain ⟨c1', e1', sound1, _⟩ := sound.call x
    cases e1.symm.trans e1'
    exact follows.bind (calls_moves e) fun _ t1 => ih t1 sound1 e

/-- `handleRead` keeps track, or uses an outdated reader. -/
lemma Tracks.handleRead (t : Tracks s c) (sound : c.Sound) {r : ReadResult} {script : List Call}
    (e : c.handleRead r (fun c => script.foldlM TCPConnection.call c) = some c') :
    Follows (s.handleRead r fun s => script.foldlM TCPConnection.call s) c' := by
  have status := t.status
  obtain ⟨bi, bo⟩ := t
  rename_i i o
  obtain ⟨i', input, es, er, bi'⟩ := bi.writeFromFD r
  unfold TCPConnection.handleRead at e ⊢
  rw [status]
  by_cases open_ : c.status_ = .kConnected ∨ c.status_ = .kDisconnecting
  · rw [if_pos open_, er] at e
    rw [if_pos open_, withBuffers_in, es]
    simp only [Option.bind_eq_bind, Option.bind_some] at e ⊢
    let c1 : TCPConnection Recorded Ctx := record { c with in_buffer_ := input } (.read (sysw.read kTmpBuffSize r).1)
    have t1 : Tracks (c1.withBuffers i' o) c1 := .mk bi' bo
    by_cases some_ : (sysw.read kTmpBuffSize r).1 > 0
    · rw [if_pos some_] at e ⊢
      obtain ⟨input', er', parsable, _⟩ := writeFromFD_pos sound.input (r := r) some_
      cases er.symm.trans er'
      exact t1.calls (sound.recordRead (.inr parsable) _) e
    · rw [if_neg some_] at e ⊢
      by_cases eof : (sysw.read kTmpBuffSize r).1 = 0
      · rw [if_pos eof] at e ⊢
        cases e
        exact .inl ⟨_, rfl, t1.handleClose⟩
      · rw [if_neg eof] at e ⊢
        cases e
        exact .inl ⟨_, rfl, t1.handleClose⟩
  · rw [if_neg open_] at e ⊢
    cases e
    exact .inl ⟨_, rfl, .mk bi bo⟩

/-- Closing on a hang-up keeps track. -/
lemma Tracks.closeFirst (t : Tracks s c) (revents : Mask) : Tracks (s.closeFirst revents) (c.closeFirst revents) := by
  obtain ⟨bi, bo⟩ := t
  rw [withBuffers_closeFirst]
  rcases @closeFirst_cases _ _ c revents with ⟨_, _, e⟩ | ⟨_, e⟩
  · rw [e]
    exact .mk bi bo
  · rw [e]
    exact .mk (by simpa using bi) (by simpa using bo)

/-- Every event keeps track, or uses an outdated reader. -/
lemma Tracks.step (t : Tracks s c) (sound : c.Sound) {op : Op} (e : c.step op = some c') : Follows (s.step op) c' := by
  cases op with
  | call x =>
    obtain ⟨c1, e1, follows⟩ := t.call sound x
    cases e1.symm.trans e
    exact follows
  | event ready r script w =>
    have poll : s.poll ready = c.poll ready := by
      obtain ⟨_, _⟩ := t
      rfl
    simp only [TCPConnection.step] at e ⊢
    rw [poll]
    cases ep : c.poll ready with
    | none =>
      rw [ep] at e
      cases e
      exact .inl ⟨s, rfl, t⟩
    | some revents =>
      rw [ep] at e
      dsimp only at e ⊢
      rw [handleEvent_closeFirst] at e ⊢
      obtain ⟨c3, e3, e⟩ := Option.bind_eq_some_iff.1 e
      have t2 := t.closeFirst revents
      have sound2 : (c.closeFirst revents).Sound := by
        rcases @closeFirst_cases _ _ c revents with ⟨_, _, e⟩ | ⟨_, e⟩
        · rwa [e]
        · rw [e]
          exact sound.handleClose
      have read : Follows (if revents.meets (POLLIN ||| POLLRDHUP ||| POLLPRI) then
          (s.closeFirst revents).handleRead r (fun s => script.foldlM TCPConnection.call s)
        else some (s.closeFirst revents)) c3 := by
        split at e3
        case isTrue input =>
          rw [if_pos input]
          exact t2.handleRead sound2 e3
        case isFalse input =>
          cases e3
          rw [if_neg input]
          exact .inl ⟨_, rfl, t2⟩
      split at e
      case isTrue out =>
        refine read.bind (handleWrite_moves e) fun _ t3 => ?_
        rw [if_pos out]
        exact t3.handleWrite e
      case isFalse out =>
        cases e
        refine read.bind .refl fun _ t3 => ?_
        rw [if_neg out]
        exact .inl ⟨_, rfl, t3⟩

/-- A run over the checked buffer follows the run over the recorded one. -/
lemma Tracks.run (t : Tracks s c) (sound : c.Sound) {ops : List Op} (e : c.run ops = some c') :
    Follows (s.run ops) c' := by
  induction ops generalizing s c with
  | nil =>
    cases e
    exact .inl ⟨s, rfl, t⟩
  | cons op ops ih =>
    rw [run_cons] at e ⊢
    obtain ⟨c1, e1, e⟩ := Option.bind_eq_some_iff.1 e
    obtain ⟨c1', e1', sound1⟩ := sound.step op
    cases e1.symm.trans e1'
    exact (t.step sound e1).bind (run_moves e) fun _ t1 => ih t1 sound1 e

/-- The run over the recorded buffer is defined, and the one over the checked buffer is if and only if its writes are
    timely; then the two have done the same. -/
lemma run_strict (context : Ctx) (ops : List Op) :
    ∃ c : TCPConnection Recorded Ctx, (TCPConnection.created context).run ops = some c ∧ c.Sound ∧
      ((∃ s, (TCPConnection.created context : TCPConnection StampedBuffer Ctx).run ops = some s) ↔
        c.out_buffer_.Timely) ∧
      ∀ s, (TCPConnection.created context : TCPConnection StampedBuffer Ctx).run ops = some s → Tracks s c := by
  obtain ⟨c, e, sound⟩ := (@Sound.created Recorded _ _ _ _ context).run ops
  refine ⟨c, e, sound, ?_⟩
  rcases (Tracks.created context).run (Sound.created context) e with ⟨s, es, t⟩ | ⟨es, late⟩
  · refine ⟨iff_of_true ⟨s, es⟩ ?_, fun s' es' => ?_⟩
    · obtain ⟨_, bo⟩ := t
      exact bo.timely
    · cases es.symm.trans es'
      exact t
  · rw [es]
    exact ⟨iff_of_false (fun ⟨_, e⟩ => nomatch e) late, fun _ e => nomatch e⟩

/-- Forget the stamps of the buffers. -/
def erase (s : TCPConnection StampedBuffer Ctx) : TCPConnection LinkedBuffer Ctx :=
  s.withBuffers s.in_buffer_.erase s.out_buffer_.erase

/-- The checked connection without its stamps is the recorded one without its record. -/
lemma Tracks.erase_eq (t : Tracks s c) : s.erase = c.withBuffers c.in_buffer_.buffer c.out_buffer_.buffer := by
  obtain ⟨bi, bo⟩ := t
  rw [erase, withBuffers_in, withBuffers_out, bi.erase, bo.erase]
  rfl

/-- In every run over the flat buffer the bytes the kernel accepted and the unread ones are the bytes the send
    callbacks appended, and `SHUT_WR` is issued only when every byte appended before it was accepted. Over the linked
    buffer a run has a defined behaviour, and this property, if and only if no write is made after an append has added
    a node to a deque that was not empty. -/
theorem output_stream_integrity {Ctx : Type} (context : Ctx) (ops : List Op) :
    (∃ c : TCPConnection Buffer Ctx, (created context).run ops = some c ∧
      (c.status_ ≠ .kDisconnected →
        accepted c.log ++ c.out_buffer_.unread = appended c.log) ∧
      ∀ l l', c.log = l ++ .shutdownWr :: l' → accepted l = appended l) ∧
    (∃ r : TCPConnection Recorded Ctx, (created context).run ops = some r ∧
      ((∃ c : TCPConnection StampedBuffer Ctx, (created context).run ops = some c ∧
        (c.status_ ≠ .kDisconnected →
          accepted c.log ++ c.out_buffer_.erase.unread = appended c.log) ∧
        ∀ l l', c.log = l ++ .shutdownWr :: l' → accepted l = appended l) ↔ r.out_buffer_.Timely)) := by
  constructor
  · obtain ⟨c, e, h⟩ := (@Sound.created Buffer _ _ _ _ context).run ops
    exact ⟨c, e, fun _ => h.stream, h.drained⟩
  · obtain ⟨r, e, sound, defined, tracks⟩ := run_strict context ops
    refine ⟨r, e, fun ⟨c, ec, _⟩ => defined.1 ⟨c, ec⟩, fun timely => ?_⟩
    obtain ⟨c, ec⟩ := defined.2 timely
    obtain ⟨_, bo⟩ := tracks c ec
    refine ⟨_, ec, fun _ => ?_, sound.drained⟩
    rw [withBuffers_out, bo.erase]
    exact sound.stream

/-! ## A slow peer -/

/-- A response of 1024 bytes. -/
def kilobyte : SendCallback where
  appends := [List.replicate 1024 (char 'x')]
  ne_nil := by
    rw [List.flatten_singleton]
    exact List.replicate_succ_ne_nil

/-- The peer takes one byte of the first response, and `n` more have to wait; then the fd is writable. -/
def slowPeer (n : Nat) : List Op :=
  .call (.send kilobyte (.accept 1)) ::
    (List.replicate n (.call (.send kilobyte (.accept 0))) ++ [.event POLLOUT (.data []) [] (.accept 0)])

section SlowPeer

variable {c : TCPConnection StampedBuffer Ctx} {outdated : Bool}

/-- The connection waits for the fd to be writable. -/
structure Waiting (c : TCPConnection StampedBuffer Ctx) (outdated : Bool) : Prop where
  channel : c.channel_ = ⟨Channel.kReadEvent ||| Channel.kWriteEvent⟩
  interest : c.interest = some (Channel.kReadEvent ||| Channel.kWriteEvent)
  inv : c.out_buffer_.Inv outdated
  nodes : c.out_buffer_.buffer_.nodes ≠ []

/-- A waiting connection is registered for writing. -/
lemma Waiting.writing (w : Waiting c outdated) : c.channel_.isWriting = true := by
  rw [w.channel]
  decide

/-- Another response is only appended, as a node of its own. -/
lemma Waiting.send (w : Waiting c outdated) (r : WriteResult) :
    ∃ c', c.step (.call (.send kilobyte r)) = some c' ∧ Waiting c' true := by
  have inv := w.inv.append (List.replicate 1024 (char 'x'))
  have pushes : c.out_buffer_.erase.pushes (List.replicate 1024 (char 'x')) = true :=
    LinkedBuffer.pushes_long w.nodes (Nat.le_of_eq List.length_replicate.symm)
  rw [pushes, Bool.or_true] at inv
  refine ⟨record { c with out_buffer_ := c.out_buffer_.append (List.replicate 1024 (char 'x')) }
    (.append kilobyte.appends.flatten), ?_, w.channel, w.interest, inv, (inv.stale rfl).1⟩
  have appended : kilobyte.appends.foldlM BufferType.append c.out_buffer_
      = some (c.out_buffer_.append (List.replicate 1024 (char 'x'))) := rfl
  rw [step, call, TCPConnection.send, appended]
  simp only [Option.bind_eq_bind, Option.bind_some, record_channel, w.writing, Bool.not_true, Bool.false_eq_true,
    if_false]

/-- Any number of further sends only grows what is waiting. -/
lemma Waiting.sends (w : Waiting c true) (r : WriteResult) (n : Nat) :
    ∃ c', c.run (List.replicate n (.call (.send kilobyte r))) = some c' ∧ Waiting c' true := by
  induction n generalizing c with
  | zero => exact ⟨c, rfl, w⟩
  | succ n ih =>
    obtain ⟨c1, e1, w1⟩ := w.send r
    obtain ⟨c', e', w'⟩ := ih w1
    refine ⟨c', ?_, w'⟩
    rw [List.replicate_succ, run_cons, e1, Option.bind_some, e']

/-- When the fd is writable, `numReadableNodes` uses the invalid reader. -/
lemma Waiting.undefined (w : Waiting c true) (r : ReadResult) (script : List Call) (res : WriteResult) :
    c.step (.event POLLOUT r script res) = none := by
  have poll : c.poll POLLOUT = some POLLOUT := by
    rw [TCPConnection.poll, w.interest]
    decide
  have write : BufferType.readToFD c.out_buffer_ res = none := w.inv.readToFD_stale res
  simp only [step, poll]
  rw [handleEvent_closeFirst]
  show c.handleWrite res = none
  simp only [TCPConnection.handleWrite, TCPConnection.readToFD, record_out, write, Option.bind_eq_bind,
    Option.bind_none]

/-- The first response, of which one byte is taken. -/
lemma send_first_kilobyte (context : Ctx) :
    ∃ c : TCPConnection StampedBuffer Ctx,
      (created context).step (.call (.send kilobyte (.accept 1))) = some c ∧ Waiting c false := by
  have many : (List.replicate 1024 (char 'x')).length = 1024 := List.length_replicate
  have appends : kilobyte.appends = [List.replicate 1024 (char 'x')] := rfl
  generalize List.replicate 1024 (char 'x') = bs at many appends
  obtain ⟨st, un⟩ := LinkedBuffer.new_fresh.append_spec bs
  rw [LinkedBuffer.new_fresh.unread, List.nil_append] at un
  have ne : (LinkedBuffer.new.append bs).unread ≠ [] := by
    rw [un]
    exact List.ne_nil_of_length_eq_add_one many
  obtain ⟨lb, e, st', un'⟩ := st.readToFD_spec (st.nodes_ne ne) (.accept 1)
  have ret : sysw.write (LinkedBuffer.new.append bs).unread (.accept 1) = 1 := by
    rw [un, sysw.write, many]
    rfl
  rw [ret] at e un'
  have left : 0 < lb.unread.length := by
    rw [un', un, List.length_drop, many]
    decide
  -- the same over the checked buffer, whose reader is valid
  have inv : (StampedBuffer.new.append bs).Inv false := StampedBuffer.Inv.new.append bs
  obtain ⟨out, written, rfl, fit⟩ := StampedBuffer.checked_fit (StampedBuffer.readToFD_fit inv.fit (w := .accept 1))
    (by rw [StampedBuffer.readToFD_erase, StampedBuffer.append_erase]; exact e)
  have inv' := fit.inv (.inr st')
  have size := inv'.readableSize.trans st'.readableSize
  have first : kilobyte.appends.foldlM BufferType.append (created context : TCPConnection StampedBuffer Ctx).out_buffer_
      = some (StampedBuffer.new.append bs) := by
    rw [appends]
    rfl
  have idle : (created context : TCPConnection StampedBuffer Ctx).channel_.isWriting = false := by
    rw [Sound.created_channel]
    decide
  have written' : BufferType.readToFD (StampedBuffer.new.append bs) (.accept 1) = some (⟨_, 1⟩, out) := written
  simp only [step, call, TCPConnection.send, first, Option.bind_eq_bind, Option.bind_some, record_channel, idle,
    Bool.not_false, if_true, TCPConnection.readToFD, record_out, written', size]
  refine ⟨_, (if_neg (by decide)).trans (if_pos left), ?_, ?_, inv', st'.nodes_ne (List.length_pos_iff.1 left)⟩
  · show Channel.enableWriting (created context : TCPConnection StampedBuffer Ctx).channel_ = _
    rw [Sound.created_channel]
    rfl
  · show some (Channel.enableWriting (created context : TCPConnection StampedBuffer Ctx).channel_).events_type_ = _
    rw [Sound.created_channel]
    rfl

/-- However many responses wait, one or more, the next write is undefined. -/
lemma run_slowPeer (context : Ctx) {n : Nat} (pos : 0 < n) :
    (created context : TCPConnection StampedBuffer Ctx).run (slowPeer n) = none := by
  obtain ⟨c1, e1, w1⟩ := send_first_kilobyte context
  obtain ⟨n, rfl⟩ := Nat.exists_eq_add_of_lt pos
  obtain ⟨c2, e2, w2⟩ := w1.send (.accept 0)
  obtain ⟨c3, e3, w3⟩ := w2.sends (.accept 0) n
  rw [Nat.zero_add, slowPeer, run_cons, e1, Option.bind_some, run_append, List.replicate_succ, run_cons, e2,
    Option.bind_some, e3, Option.bind_some, run_cons, w3.undefined, Option.bind_none]

/-- With 120 responses of 1024 bytes, of which the peer has taken one byte, the next write is undefined. -/
theorem output_stream_undefined :
    ¬∃ c : TCPConnection StampedBuffer Unit, (created ()).run (slowPeer 119) = some c := by
  rw [run_slowPeer () (by decide)]
  exact fun ⟨_, e⟩ => nomatch e

end SlowPeer

end TCPConnection

end WebServer.Net
