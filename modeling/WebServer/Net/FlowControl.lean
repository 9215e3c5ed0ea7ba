import WebServer.Net.StrictRun

/-!
# Flow control

Runs of a connection in which the kernel only ever throttles: a write accepts bytes or would block, a
read delivers bytes or would block, and no error, hang-up or end of file occurs. `send`, `handleWrite`
and `handleRead` take a would-block answer (`-1` with `EAGAIN`) for a failure and close the connection:
`flow_control` says that a connection survives such a run exactly if none of its calls was answered so.
-/

namespace WebServer.Net

open LawfulBuffer

/-- The write accepts bytes or would block. -/
def WriteResult.FlowControl : WriteResult → Prop
  | .accept _ => True
  | .error e => e = .EAGAIN

/-- The read delivers bytes or would block. -/
def ReadResult.FlowControl : ReadResult → Prop
  | .data bs => bs ≠ []
  | .error e => e = .EAGAIN

/-- A write under flow control that would not block is accepted. -/
lemma WriteResult.FlowControl.accepts {w : WriteResult} (h : w.FlowControl)
    (hn : w ≠ .error .EAGAIN) : ∃ n, w = .accept n := by
  cases w with
  | accept n => exact ⟨n, rfl⟩
  | error e =>
    cases h
    exact absurd rfl hn

/-- The read does not end the stream, and fails only if it would block. -/
lemma ReadResult.FlowControl.delivers {r : ReadResult} (h : r.FlowControl) {count} (hc : 0 < count) :
    0 < (sysw.read count r).1 ∨ (r = .error .EAGAIN ∧ (sysw.read count r).1 < 0) := by
  cases r with
  | data bs =>
    left
    have := List.length_pos_iff.2 h
    simp only [sysw.read, List.length_take]
    omega
  | error e =>
    cases h
    exact .inr ⟨rfl, by simp [sysw.read]⟩

/-- A read or write that failed. -/
@[simp] def Action.failed : Action → Bool
  | .read ret => ret < 0
  | .write call => call.ret < 0
  | _ => false

namespace TCPConnection

def Call.FlowControl : Call → Prop
  | .send _ w => w.FlowControl
  | .shutdown => True

/-- Every kernel answer is bytes or would-block, and the fd has neither an error nor a hang-up. -/
def Op.FlowControl : Op → Prop
  | .call x => x.FlowControl
  | .event ready r script w => Mask.meets ready (POLLHUP ||| POLLERR) = false ∧ r.FlowControl ∧
      (∀ x ∈ script, x.FlowControl) ∧ w.FlowControl

def Call.wouldBlock : Call → Prop
  | .send _ w => w = .error .EAGAIN
  | .shutdown => False

/-- Some kernel answer is would-block. -/
def Op.wouldBlock : Op → Prop
  | .call x => x.wouldBlock
  | .event _ r script w => r = .error .EAGAIN ∨ (∃ x ∈ script, x.wouldBlock) ∨ w = .error .EAGAIN

variable {B I Ctx : Type}

/-- The connection is open, no appended byte is lost and unsent bytes have write interest. -/
structure Kept [BufferType B I] [LawfulBuffer B I] (c : TCPConnection B Ctx) : Prop where
  connected : c.status_ ≠ .kDisconnected
  stream : accepted c.log ++ unread c.out_buffer_ = appended c.log
  interest : unread c.out_buffer_ ≠ [] →
    c.channel_.isWriting = true ∧ c.interest = some c.channel_.events_type_

/-- A closed connection is one with a failed read or write; under `p` there is none. -/
structure Blamed (p : Prop) (c : TCPConnection B Ctx) : Prop where
  closed : c.status_ = .kDisconnected ↔ ∃ a ∈ c.log, a.failed = true
  open_ : p → c.status_ ≠ .kDisconnected

/-- Without an error or a hang-up on the fd none is reported. -/
lemma Sound.poll_quiet [BufferType B I] [LawfulBuffer B I] {c : TCPConnection B Ctx} (h : c.Sound)
    {ready revents : Mask} (quiet : ready.meets (POLLHUP ||| POLLERR) = false)
    (e : c.poll ready = some revents) :
    revents.meets POLLHUP = false ∧ revents.meets (POLLERR ||| POLLNVAL) = false := by
  unfold poll at e
  by_cases hs : c.status_ = .kDisconnected
  · rw [h.removed hs] at e
    cases e
  · simp only [h.registered hs, Option.bind_eq_bind, Option.bind_some] at e
    split at e
    · cases e
    · cases e
      rw [Mask.meets_and, Mask.meets_and, h.mask.not_error, h.mask.not_hup]
      exact ⟨Mask.not_meets_mono quiet (by decide), Mask.not_meets_mono quiet (by decide)⟩

namespace Blamed

variable {p : Prop} {c c' : TCPConnection B Ctx}

/-- Without a failure nothing is closed. -/
lemma extend (h : Blamed p c) {l} (hl : c'.log = c.log ++ l) (nf : ∀ a ∈ l, a.failed = false)
    (hs : c'.status_ = .kDisconnected ↔ c.status_ = .kDisconnected) : Blamed p c' := by
  refine ⟨?_, fun hp hd => h.open_ hp (hs.1 hd)⟩
  rw [hs, h.closed, hl]
  constructor
  · rintro ⟨a, ha, hf⟩
    exact ⟨a, List.mem_append_left _ ha, hf⟩
  · rintro ⟨a, ha, hf⟩
    rcases List.mem_append.1 ha with ha | ha
    · exact ⟨a, ha, hf⟩
    · rw [nf a ha] at hf
      cases hf

/-- A connection that has failed is blamed on the write that did. -/
lemma fail (hp : ¬p) {a} (hs : c.status_ = .kDisconnected) (ha : a ∈ c.log)
    (hf : a.failed = true) : Blamed p c :=
  ⟨⟨fun _ => ⟨a, ha, hf⟩, fun _ => hs⟩, fun h => absurd h hp⟩

variable [BufferType B I]

/-- `shutdown` keeps the blame where it is. -/
lemma shutdown (h : Blamed p c) : Blamed p c.shutdown := by
  rcases c.shutdown_cases with ⟨_, e⟩ | ⟨hs, _, e⟩ | ⟨hs, _, e⟩
  · rw [e]
    exact h
  · rw [e]
    exact h.extend (List.append_nil _).symm (by simp) (by simpa using hs)
  · rw [e]
    exact h.extend rfl (by simp) (by simpa using hs)

variable [LawfulBuffer B I]

/-- `send` fails only by a write that takes nothing. -/
lemma send (h : Blamed p c) (sd : c.Sound) {cb w} (hw : p → ∃ n, w = .accept n)
    (e : c.send cb w = some c') : Blamed p c' := by
  obtain ⟨out, _, ⟨_, _, e1⟩ | ⟨_, call, _, ret, _, _, next⟩⟩ := send_cases sd.output cb w
  · cases e.symm.trans e1
    exact h.extend rfl (by simp) Iff.rfl
  · rcases next with ⟨neg, e1⟩ | ⟨pos, _, e1⟩ | ⟨pos, _, e1⟩
    · cases e.symm.trans e1
      refine fail ?_ handleClose_status (a := .write call) (by simp) (by simpa using neg)
      intro hp
      obtain ⟨n, rfl⟩ := hw hp
      rw [ret] at neg
      obtain ⟨_, hn⟩ := sysw.write_neg.1 neg
      cases hn
    · cases e.symm.trans e1
      exact h.extend (l := [.append cb.appends.flatten, .write call, .updateChannel _])
        (by simp; rfl) (by simpa using pos) Iff.rfl
    · cases e.symm.trans e1
      exact h.extend (l := [.append cb.appends.flatten, .write call]) (by simp)
        (by simpa using pos) Iff.rfl

/-- `handleWrite` fails only by a write that takes nothing. -/
lemma handleWrite (h : Blamed p c) (sd : c.Sound) (hc : c.channel_.isWriting = true) {w}
    (hw : p → ∃ n, w = .accept n) (e : c.handleWrite w = some c') : Blamed p c' := by
  have ne := sd.pending hc
  obtain ⟨out, holds, call, _, _, ret, _, next⟩ := handleWrite_cases (sd.ready ne) ne w
  -- the two branches that disable writing
  have emptied (nneg : 0 ≤ call.ret) : Blamed p { c.wrote out [.assert holds] call with
      channel_ := c.channel_.disableWriting }.updateChannelInPoller :=
    h.extend (l := [.assert holds, .write call, .updateChannel _]) (by simp; rfl)
      (by simpa using nneg) Iff.rfl
  rcases next with ⟨neg, e1⟩ | ⟨nneg, _, e1⟩ | ⟨nneg, _, _, e1⟩ | ⟨nneg, _, _, e1⟩
  · cases e.symm.trans e1
    refine fail ?_ handleClose_status (a := .write call) (by simp) (by simpa using neg)
    intro hp
    obtain ⟨n, rfl⟩ := hw hp
    rw [ret] at neg
    obtain ⟨_, hn⟩ := sysw.write_neg.1 neg
    cases hn
  · cases e.symm.trans e1
    exact h.extend (l := [.assert holds, .write call]) (by simp) (by simpa using nneg) Iff.rfl
  · cases e.symm.trans e1
    exact (emptied nneg).shutdown
  · cases e.symm.trans e1
    exact emptied nneg

/-- The calls of a callback fail only by a write that would block. -/
lemma calls (h : Blamed p c) (sd : c.Sound) {script : List Call}
    (hw : p → ∀ x ∈ script, ¬x.wouldBlock) (flow : ∀ x ∈ script, x.FlowControl)
    (e : script.foldlM TCPConnection.call c = some c') : Blamed p c' := by
  induction script generalizing c with
  | nil =>
    cases e
    exact h
  | cons x script ih =>
    obtain ⟨c1, e1, sd1, _⟩ := sd.call x
    simp only [List.foldlM_cons, e1, Option.bind_eq_bind, Option.bind_some] at e
    refine ih ?_ sd1 (fun hp y hy => hw hp y (List.mem_cons_of_mem _ hy))
      (fun y hy => flow y (List.mem_cons_of_mem _ hy)) e
    cases x with
    | send cb w => exact h.send sd (fun hp => (flow _ (.head _)).accepts (hw hp _ (.head _))) e1
    | shutdown =>
      cases e1
      exact h.shutdown

/-- `handleRead` fails only by a read or a write that would block. -/
lemma handleRead (h : Blamed p c) (sd : c.Sound) {r : ReadResult} (flow : r.FlowControl)
    (hr : p → r ≠ .error .EAGAIN) {cb : TCPConnection B Ctx → Option (TCPConnection B Ctx)}
    (blames : ∀ {c c'}, Blamed p c → c.Sound → cb c = some c' → Blamed p c')
    (e : c.handleRead r cb = some c') : Blamed p c' := by
  rcases handleRead_cases sd.input r cb with ⟨_, _, e1⟩ | ⟨_, ⟨np, e1⟩ | ⟨pos, b, pr, _, e1⟩⟩
  · cases e.symm.trans e1
    exact h
  · rcases flow.delivers (capacity_pos c.in_buffer_) with pos | ⟨again, neg⟩
    · omega
    · cases e.symm.trans e1
      refine fail (fun hp => hr hp again) handleClose_status
        (a := .read (sysw.read (capacity c.in_buffer_) r).1) (by simp) (by simpa using neg)
  · refine blames ?_ (sd.recordRead (.inr pr) _) (e1.symm.trans e)
    refine h.extend rfl ?_ Iff.rfl
    simpa using pos.le

/-- In a flow-controlled step only a would-block answer closes the connection. -/
lemma step (h : Blamed p c) (sd : c.Sound) {op : Op} (flow : op.FlowControl)
    (hp : p → ¬op.wouldBlock) (e : c.step op = some c') : Blamed p c' := by
  cases op with
  | call x =>
    cases x with
    | send cb w => exact h.send sd (fun hq => WriteResult.FlowControl.accepts flow (hp hq)) e
    | shutdown =>
      cases e
      exact h.shutdown
  | event ready r script w =>
    obtain ⟨quiet, flowR, flowS, flowW⟩ := flow
    simp only [TCPConnection.step] at e
    cases ep : c.poll ready with
    | none =>
      rw [ep] at e
      cases e
      exact h
    | some revents =>
      rw [ep] at e
      obtain ⟨noHup, noErr⟩ := sd.poll_quiet quiet ep
      have rule : ∃ c', c.handleEvent revents r (fun c => script.foldlM TCPConnection.call c) w
          = some c' ∧ Blamed p c' := by
        refine handleEvent_rule (P := fun c => Blamed p c ∧ c.Sound ∧
          (revents.meets POLLOUT = true → c.channel_.isWriting = true))
          ⟨h, sd, sd.poll_out ep⟩ ?_ ?_ ?_ fun _ _ h => h.1
        · intro hup
          simp [noHup, noErr] at hup
        · rintro c ⟨h, sd, out⟩
          obtain ⟨c1, e1, sd1, w1⟩ := sd.handleRead r (Sound.calls script)
          refine ⟨c1, e1, ?_, sd1, fun o => w1 (out o)⟩
          exact h.handleRead sd flowR (fun hq hr => hp hq (.inl hr))
            (fun h sd e => h.calls sd (fun hq x hx hb => hp hq (.inr (.inl ⟨x, hx, hb⟩))) flowS e) e1
        · rintro out c ⟨h, sd, hw⟩
          obtain ⟨c1, e1, _⟩ := sd.handleWrite (hw out) w
          exact ⟨c1, e1, h.handleWrite sd (hw out)
            (fun hq => flowW.accepts fun hn => hp hq (.inr (.inr hn))) e1⟩
      obtain ⟨c1, e1, h1⟩ := rule
      cases e.symm.trans e1
      exact h1

omit [LawfulBuffer B I] in
/-- A connection just created has not failed. -/
lemma created {context : Ctx} : Blamed p (created context : TCPConnection B Ctx) := by
  refine ⟨?_, fun _ => nofun⟩
  simp [TCPConnection.created, handleCreate, addChannelInPoller, record, new]

/-- What a flow-controlled run leaves. -/
lemma run {context : Ctx} {ops : List Op} (flow : ∀ op ∈ ops, op.FlowControl) :
    ∃ c : TCPConnection B Ctx, (TCPConnection.created context).run ops = some c ∧
      (c.Kept ↔ ∀ a ∈ c.log, a.failed = false) ∧ ((∀ op ∈ ops, ¬op.wouldBlock) → c.Kept) := by
  have go (ops' : List Op) : (∀ op ∈ ops', op ∈ ops) → ∀ {c : TCPConnection B Ctx}, c.Sound →
      Blamed (∀ op ∈ ops, ¬op.wouldBlock) c →
      ∃ c', c.run ops' = some c' ∧ c'.Sound ∧ Blamed (∀ op ∈ ops, ¬op.wouldBlock) c' := by
    induction ops' with
    | nil => exact fun _ c sd h => ⟨c, rfl, sd, h⟩
    | cons op ops' ih =>
      intro sub c sd h
      obtain ⟨c1, e1, sd1⟩ := sd.step op
      have h1 := h.step sd (flow op (sub op (.head _))) (fun hp => hp op (sub op (.head _))) e1
      obtain ⟨c', e', fin⟩ := ih (fun o ho => sub o (.tail _ ho)) sd1 h1
      refine ⟨c', ?_, fin⟩
      unfold TCPConnection.run
      rw [List.foldlM_cons, e1]
      exact e'
  obtain ⟨c, e, sd, h⟩ := go ops (fun _ h => h) (Sound.created context) created
  have kept : c.status_ ≠ .kDisconnected ↔ c.Kept :=
    ⟨fun hs => ⟨hs, sd.stream, fun ne => ⟨sd.writing hs ne, sd.registered hs⟩⟩, fun h => h.connected⟩
  refine ⟨c, e, ?_, fun hp => kept.1 (h.open_ hp)⟩
  rw [← kept, ne_eq, h.closed]
  simp only [not_exists, not_and, Bool.not_eq_true]

end Blamed

/-- A connection over the checked buffer is kept if the one it tracks is. -/
lemma Tracks.kept_iff {s : TCPConnection StampedBuffer Ctx} {c : TCPConnection Recorded Ctx} (t : Tracks s c) :
    s.erase.Kept ↔ c.Kept := by
  rw [t.erase_eq]
  exact ⟨fun h => ⟨h.connected, h.stream, h.interest⟩, fun h => ⟨h.connected, h.stream, h.interest⟩⟩

/-- Over the flat buffer, a flow-controlled run leaves the connection open, with no appended byte dropped and with
    write interest for what is unsent, exactly if no read or write it issued was answered would-block; in particular if
    no answer the kernel had ready was. Over the linked buffer this is so exactly if, besides, no write is made after
    an append has added a node to a deque that was not empty. -/
theorem flow_control {Ctx : Type} (context : Ctx) (ops : List Op)
    (flow : ∀ op ∈ ops, op.FlowControl) :
    (∃ c : TCPConnection Buffer Ctx, (created context).run ops = some c ∧
      (c.Kept ↔ ∀ a ∈ c.log, a.failed = false) ∧ ((∀ op ∈ ops, ¬op.wouldBlock) → c.Kept)) ∧
    (∃ r : TCPConnection Recorded Ctx, (created context).run ops = some r ∧
      ((∃ c : TCPConnection StampedBuffer Ctx, (created context).run ops = some c ∧ c.erase.Kept) ↔
        r.out_buffer_.Timely ∧ ∀ a ∈ r.log, a.failed = false) ∧
      (r.out_buffer_.Timely → (∀ op ∈ ops, ¬op.wouldBlock) →
        ∃ c : TCPConnection StampedBuffer Ctx, (created context).run ops = some c ∧ c.erase.Kept)) := by
  refine ⟨Blamed.run flow, ?_⟩
  obtain ⟨r, e, _, defined, tracks⟩ := run_strict context ops
  obtain ⟨r', e', kept, open_⟩ := @Blamed.run Recorded _ Ctx _ _ context ops flow
  cases e.symm.trans e'
  have strict : r.out_buffer_.Timely → r.Kept →
      ∃ c : TCPConnection StampedBuffer Ctx, (created context).run ops = some c ∧ c.erase.Kept := by
    intro timely k
    obtain ⟨c, ec⟩ := defined.2 timely
    exact ⟨c, ec, (tracks c ec).kept_iff.2 k⟩
  refine ⟨r, e, ⟨fun ⟨c, ec, k⟩ => ?_, fun ⟨timely, none_⟩ => ?_⟩, fun timely none_ => ?_⟩
  · exact ⟨defined.1 ⟨c, ec⟩, kept.1 ((tracks c ec).kept_iff.1 k)⟩
  · exact strict timely (kept.2 none_)
  · exact strict timely (open_ none_)

/-- Two responses of two bytes; the kernel's send buffer is full after the first. -/
def fullSendBuffer : List Op :=
  [.call (.send ⟨[bytes "ab"], by decide⟩ (.accept 2)),
    .call (.send ⟨[bytes "cd"], by decide⟩ (.error .EAGAIN))]

/-- Two bytes, taken by the kernel one after the other. -/
def partialWrite : List Op :=
  [.call (.send ⟨[bytes "ab"], by decide⟩ (.accept 1)), .event POLLOUT (.data [0]) [] (.accept 1)]

/-- A response that is taken in two parts meets the condition over the stamped buffer. -/
theorem flow_control_partial_write :
    ∃ c : TCPConnection StampedBuffer Unit, (created ()).run partialWrite = some c ∧ c.erase.Kept := by
  obtain ⟨r, e, _, kept⟩ := (flow_control () partialWrite (by
    simp [partialWrite, Op.FlowControl, Call.FlowControl, WriteResult.FlowControl, ReadResult.FlowControl]
    decide)).2
  obtain ⟨r', e', _, defined, _⟩ := run_strict () partialWrite
  cases e.symm.trans e'
  have two : ((created () : TCPConnection StampedBuffer Unit).run partialWrite).isSome = true := by decide +kernel
  refine kept (defined.1 (Option.isSome_iff_exists.1 two)) ?_
  simp [partialWrite, Op.wouldBlock, Call.wouldBlock]

/-- One would-block answer to the direct write of `send` closes the connection; the two unsent bytes
    stay behind without write interest and unregistered. -/
theorem wouldBlock_disconnects :
    (∀ op ∈ fullSendBuffer, op.FlowControl) ∧
    ((created () : TCPConnection LinkedBuffer Unit).run fullSendBuffer).map
      (fun c => (c.status_, c.out_buffer_.unread, c.channel_.isWriting, c.interest))
        = some (.kDisconnected, bytes "cd", false, none) := by
  refine ⟨?_, by decide⟩
  simp [fullSendBuffer, Op.FlowControl, Call.FlowControl, WriteResult.FlowControl]

end TCPConnection

end WebServer.Net
