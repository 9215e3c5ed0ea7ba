import WebServer.Http.Framing
import WebServer.Http.Transparency
import WebServer.Lib.Interleave

/-!
# What a server without the cache is for

`Service` is a connection as its peer knows it: a context, bytes that are not parsed yet and the responses given. It
takes the bytes that come in and knows nothing of buffers, of write interest or of how much the kernel accepts in
one write. A connection of a running server, over the flat buffer, is a `Service` whose responses are on their way to
the peer (`server_delivers`), and it takes no notice of the other connections (`connections_isolated`). Over the linked
buffer neither can be said of every run: one whose behaviour is undefined takes the process and all connections with it.
-/

namespace WebServer.Http

open Net Lib LawfulBuffer TCPConnection

/-- What the server does once the bytes received are parsed: the context it goes on with, and the response. -/
def answer (callbacks : Bytes → Option ResponseCallback) (ok : Bool) (ctx : HTTPContext) :
    HTTPContext × Option HTTPResponse :=
  if ctx.parseFinished then
    (ctx.resetState, some (match callbacks ctx.request_.path_ with
      | some cb => HTTPServer.closes ctx.request_ (cb.run ctx.request_ .new)
      | none => HTTPServer.not_found_resp_))
  else
    (ctx, if ok then none else some HTTPServer.bad_request_resp_)

/-- A connection as its peer knows it. -/
structure Service where
  context : HTTPContext
  input : Bytes
  responses : List HTTPResponse

namespace Service

def new : Service := ⟨.new, [], []⟩

/-- The bytes `chunk` come in. -/
inductive Receives (callbacks : Bytes → Option ResponseCallback) : Service → Bytes → Service → Prop where
  | intro {s chunk ok ctx rest} :
    Parses s.context (s.input ++ chunk) ok ctx rest →
    Receives callbacks s chunk
      ⟨(answer callbacks ok ctx).1, rest, s.responses ++ (answer callbacks ok ctx).2.toList⟩

/-- The chunks come in one by one. -/
inductive Runs (callbacks : Bytes → Option ResponseCallback) : List Bytes → Service → Prop where
  | nil :
    Runs callbacks [] .new
  | snoc {chunks chunk s s'} :
    Runs callbacks chunks s →
    Receives callbacks s chunk s' →
    Runs callbacks (chunks ++ [chunk]) s'

end Service

/-! ## The callback of a connection -/

section OnRead

variable {B I : Type} [BufferType B I] {hash : HTTPRequest → Nat} {heap : ConnId → HTTPRequest} {self : ConnId}
  {callbacks : Bytes → Option ResponseCallback}

/-- Without a cache, a parsed request is answered by its callback alone. -/
lemma respond_answer (ok : Bool) (ctx : HTTPContext) :
    respond hash heap self ok ⟨ctx, .new callbacks false⟩ =
      some (⟨(answer callbacks ok ctx).1, .new callbacks false⟩, (answer callbacks ok ctx).2) := by
  unfold respond answer
  dsimp only
  split
  case isTrue =>
    simp only [HTTPServer.new, HTTPContext.resetState]
    cases callbacks ctx.request_.path_ with
    | none => rfl
    | some cb => simp [HTTPServer.handleRequest]
  case isFalse => cases ok <;> rfl

variable [LawfulBuffer B I] {c c' : TCPConnection B Upper} {w : WriteResult}

omit [BufferType B I] [LawfulBuffer B I] in
/-- Actions without an append append nothing. -/
lemma appended_eq_nil {l : List Action} (h : ∀ bs, .append bs ∉ l) : appended l = [] := by
  refine List.flatMap_eq_nil_iff.2 fun a mem => ?_
  cases a with
  | append bs => exact absurd mem (h bs)
  | _ => rfl

omit [BufferType B I] [LawfulBuffer B I] in
/-- What a longer log appends is what the log and its extension append. -/
lemma extends_appended {Ctx : Type} {c c' : TCPConnection B Ctx} {l : List Action} (h : c.Extends c' l) :
    appended c'.log = appended c.log ++ appended l := by
  rcases h with e | ⟨e, _⟩
  · rw [e, appended_append]
  · rw [e, appended_append, appended_append]
    exact List.append_nil _

/-- `connectionOnRead` parses what has been read and appends the response, if there is one. -/
lemma connectionOnRead_answers (s : c.Sound) (hb : Parsable c.in_buffer_)
    (off : c.context_.server = .new callbacks false) (e : connectionOnRead hash heap self w c = some c') :
    c'.Sound ∧ ∃ ok ctx texts, Parses c.context_.context (unread c.in_buffer_) ok ctx (unread c'.in_buffer_) ∧
      c'.context_ = ⟨(answer callbacks ok ctx).1, .new callbacks false⟩ ∧
      (answer callbacks ok ctx).2.toList.mapM HTTPResponse.text = some texts ∧
      appended c'.log = appended c.log ++ texts.flatten := by
  obtain ⟨ok, ctx, b, pb, p, ec⟩ := @connectionOnRead_cases B I _ _ hash heap self c w hb
  rw [ec, off, respond_answer, Option.bind_some] at e
  dsimp only at e
  cases response : (answer callbacks ok ctx).2 with
  | none =>
    rw [response] at e
    cases e
    exact ⟨parsed_sound s pb _, ok, ctx, [], p, rfl, by rw [response]; rfl, by simp [parsed]⟩
  | some resp =>
    rw [response] at e
    obtain ⟨s', _, input, context, cb, l, text, ext, _, na⟩ := sendResponse_spec (parsed_sound s pb _) e
    refine ⟨s', ok, ctx, [cb.appends.flatten], ?_, context, ?_, ?_⟩
    · rw [input]
      exact p
    · simp [response, HTTPResponse.text, text]
    · rw [extends_appended ext]
      simp [parsed, appended_eq_nil na]

end OnRead

/-! ## One event -/

section Event

variable {B I : Type} [BufferType B I] {hash : HTTPRequest → Nat} {heap : ConnId → HTTPRequest} {self : ConnId}
  {callbacks : Bytes → Option ResponseCallback} {w : WriteResult} {c c' : TCPConnection B HTTPContext}

/-- Without the cache the other requests do not matter. -/
lemma plainOnRead_alone : plainOnRead hash callbacks heap self w c =
    plainOnRead (fun _ => 0) callbacks (fun _ => .new) 0 w c := by
  simp only [plainOnRead, connectionOnRead, withContext_context, respond_answer]

/-- An event of a connection of a server without the cache. -/
def ownEvent (callbacks : Bytes → Option ResponseCallback) (c : TCPConnection B HTTPContext) (e : Event) :
    Option (TCPConnection B HTTPContext) :=
  match c.poll e.ready with
  | none => some c
  | some revents =>
    c.handleEvent revents e.r (plainOnRead (fun _ => 0) callbacks (fun _ => .new) 0 e.onRead) e.onWrite

variable [LawfulBuffer B I]

/-- One read parses the input and appends the text of the answer, if there is one. -/
lemma plainOnRead_answers (s : c.Sound) (hb : Parsable c.in_buffer_)
    (e : plainOnRead hash callbacks heap self w c = some c') :
    c'.Sound ∧ ∃ ok texts ctx, Parses c.context_ (unread c.in_buffer_) ok ctx (unread c'.in_buffer_) ∧
      c'.context_ = (answer callbacks ok ctx).1 ∧
      (answer callbacks ok ctx).2.toList.mapM HTTPResponse.text = some texts ∧
      appended c'.log = appended c.log ++ texts.flatten := by
  obtain ⟨d, ed, rfl⟩ := Option.map_eq_some_iff.1 e
  obtain ⟨sd, ok, ctx, texts, p, context, text, log⟩ := connectionOnRead_answers (withContext_sound s _) hb rfl ed
  refine ⟨withContext_sound sd _, ok, texts, ctx, p, ?_, text, log⟩
  exact congrArg Upper.context context

/-- The bytes that `handleRead` gets in an event. -/
def fetched (c : TCPConnection B HTTPContext) (e : Event) : Bytes :=
  match c.poll e.ready with
  | none => []
  | some revents =>
    if revents.meets (POLLIN ||| POLLRDHUP ||| POLLPRI) ∧
        ((c.closeFirst revents).status_ = .kConnected ∨ (c.closeFirst revents).status_ = .kDisconnecting) then
      (sysw.read (capacity c.in_buffer_) e.r).2
    else
      []

/-- Nothing was received and nothing appended. -/
structure Kept (c c' : TCPConnection B HTTPContext) : Prop where
  context : c'.context_ = c.context_
  input : unread c'.in_buffer_ = unread c.in_buffer_
  output : appended c'.log = appended c.log

/-- Nothing was received, or `chunk` was and has been answered. -/
inductive Progress (callbacks : Bytes → Option ResponseCallback) (c : TCPConnection B HTTPContext) :
    Bytes → TCPConnection B HTTPContext → Prop where
  | idle {d} :
    Kept c d →
    Progress callbacks c [] d
  | answered {chunk d ok ctx texts} :
    chunk ≠ [] →
    Parses c.context_ (unread c.in_buffer_ ++ chunk) ok ctx (unread d.in_buffer_) →
    d.context_ = (answer callbacks ok ctx).1 →
    (answer callbacks ok ctx).2.toList.mapM HTTPResponse.text = some texts →
    appended d.log = appended c.log ++ texts.flatten →
    Progress callbacks c chunk d

/-- What is kept twice is kept. -/
lemma Kept.trans {c1 : TCPConnection B HTTPContext} (h : Kept c c1) (h' : Kept c1 c') : Kept c c' :=
  ⟨h'.context.trans h.context, h'.input.trans h.input, h'.output.trans h.output⟩

/-- What is kept before and after does not disturb the progress on a chunk. -/
lemma Progress.kept {chunk : Bytes} {c1 c2 : TCPConnection B HTTPContext} (h : Kept c c1)
    (p : Progress callbacks c1 chunk c2) (h' : Kept c2 c') : Progress callbacks c chunk c' := by
  cases p with
  | idle k => exact .idle (h.trans (k.trans h'))
  | answered ne parses context texts log =>
    rw [h.context, h.input, ← h'.input] at parses
    rw [h.output, ← h'.output] at log
    exact .answered ne parses (h'.context.trans context) texts log

/-- Closing keeps the context, the input and what was appended. -/
lemma handleClose_kept : Kept c c.handleClose := ⟨by simp, by simp, by simp⟩

/-- Closing on a hang-up keeps the context, the input and what was appended. -/
lemma closeFirst_kept {revents : Mask} (s : c.Sound) : (c.closeFirst revents).Sound ∧
    (c.closeFirst revents).channel_ = c.channel_ ∧ (c.closeFirst revents).in_buffer_ = c.in_buffer_ ∧
    Kept c (c.closeFirst revents) := by
  rcases @closeFirst_cases _ _ c revents with ⟨_, _, e⟩ | ⟨_, e⟩
  · rw [e]
    exact ⟨s, rfl, rfl, rfl, rfl, rfl⟩
  · rw [e]
    exact ⟨s.handleClose, handleClose_channel, handleClose_in, handleClose_kept⟩

/-- A read of a sound connection. -/
lemma handleRead_progress {r : ReadResult} (s : c.Sound)
    (e : c.handleRead r (plainOnRead hash callbacks heap self w) = some c') :
    Progress callbacks c
      (if c.status_ = .kConnected ∨ c.status_ = .kDisconnecting then (sysw.read (capacity c.in_buffer_) r).2 else [])
      c' := by
  rcases handleRead_cases s.input r (plainOnRead hash callbacks heap self w) with
    ⟨nc, nd, e1⟩ | ⟨open_, ⟨nonpos, e1⟩ | ⟨pos, b, pr, un, e1⟩⟩
  · cases e.symm.trans e1
    rw [if_neg (by tauto)]
    exact .idle ⟨rfl, rfl, rfl⟩
  · cases e.symm.trans e1
    rw [if_pos open_, sysw.read_nonpos nonpos]
    exact .idle ⟨by simp, by simp, by simp⟩
  · rw [if_pos open_]
    obtain ⟨_, ok, texts, ctx, p, context, text, log⟩ :=
      plainOnRead_answers (s.recordRead (.inr pr) _) pr (e1.symm.trans e)
    rw [record_in, un] at p
    refine .answered (sysw.read_pos pos).2 p context text ?_
    rw [log]
    simp

/-- `handleWrite` receives nothing and appends nothing. -/
lemma handleWrite_kept (s : c.Sound) (hw : c.channel_.isWriting = true) (e : c.handleWrite w = some c') :
    Kept c c' := by
  have ne := s.pending hw
  obtain ⟨out, holds, call, _, _, _, _, next⟩ := handleWrite_cases (s.ready ne) ne w
  rcases next with ⟨_, e1⟩ | ⟨_, _, e1⟩ | ⟨_, _, _, e1⟩ | ⟨_, _, _, e1⟩
  · cases e.symm.trans e1
    exact ⟨by simp, by simp, by simp⟩
  · cases e.symm.trans e1
    exact ⟨by simp, by simp, by simp⟩
  · cases e.symm.trans e1
    refine ⟨by simp, by simp, ?_⟩
    rw [extends_appended shutdown_extends]
    simp
  · cases e.symm.trans e1
    exact ⟨by simp, by simp, by simp⟩

/-- An event of a sound connection. -/
lemma ownEvent_progress {e : Event} (s : c.Sound) :
    ∃ c', ownEvent callbacks c e = some c' ∧ c'.Sound ∧ Progress callbacks c (fetched c e) c' := by
  unfold ownEvent fetched
  cases hp : c.poll e.ready with
  | none => exact ⟨c, rfl, s, .idle ⟨rfl, rfl, rfl⟩⟩
  | some revents =>
    simp only
    have keeps := @plainOnRead_keeps B I _ (fun _ => 0) callbacks (fun _ => .new) 0 _ e.onRead
    obtain ⟨c', ev, s'⟩ := s.handleEvent e.r e.onWrite (s.poll_out hp) keeps
    refine ⟨c', ev, s', ?_⟩
    rw [handleEvent_closeFirst] at ev
    obtain ⟨c3, e3, ev⟩ := Option.bind_eq_some_iff.1 ev
    obtain ⟨s2, channel2, input2, kept2⟩ := @closeFirst_kept B I _ c _ revents s
    -- the read
    have read : c3.Sound ∧ (c.channel_.isWriting = true → c3.channel_.isWriting = true) ∧
        Progress callbacks (c.closeFirst revents)
          (if revents.meets (POLLIN ||| POLLRDHUP ||| POLLPRI) ∧
              ((c.closeFirst revents).status_ = .kConnected ∨ (c.closeFirst revents).status_ = .kDisconnecting) then
            (sysw.read (capacity c.in_buffer_) e.r).2
          else
            []) c3 := by
      split at e3
      case isTrue hin =>
        obtain ⟨c3', e3', s3, w3⟩ := s2.handleRead e.r keeps
        cases e3.symm.trans e3'
        have progress := handleRead_progress s2 e3
        rw [input2] at progress
        simp only [hin, true_and]
        rw [channel2] at w3
        exact ⟨s3, w3, progress⟩
      case isFalse hin =>
        cases e3
        rw [if_neg (fun h => hin h.1), channel2]
        exact ⟨s2, id, .idle ⟨rfl, rfl, rfl⟩⟩
    obtain ⟨s3, w3, progress⟩ := read
    -- the write
    refine progress.kept kept2 ?_
    split at ev
    case isTrue out => exact handleWrite_kept s3 (w3 (s.poll_out hp out)) ev
    case isFalse =>
      cases ev
      exact ⟨rfl, rfl, rfl⟩

/-- An event keeps every connection sound. -/
lemma interleave_sound {conns : ConnId → TCPConnection B HTTPContext} (s : ∀ id, (conns id).Sound) (e : Event) :
    ∃ conns', interleave Event.conn (ownEvent callbacks) conns e = some conns' ∧ ∀ id, (conns' id).Sound := by
  obtain ⟨c, own, sc, _⟩ := @ownEvent_progress B I _ callbacks _ _ e (s e.conn)
  refine ⟨Function.update conns e.conn c, by rw [interleave, own]; rfl, ?_⟩
  exact (Function.forall_update_iff conns fun _ c => c.Sound).2 ⟨sc, fun id _ => s id⟩

/-- An event of a server without the cache is an event of one connection. -/
lemma step_ownEvent {conns : ConnId → TCPConnection B HTTPContext} {e : Event} (s : (conns e.conn).Sound) :
    World.step hash ⟨.new callbacks false, conns⟩ e =
      (interleave Event.conn (ownEvent callbacks) conns e).map fun conns => ⟨.new callbacks false, conns⟩ := by
  unfold interleave
  cases hp : (conns e.conn).poll e.ready with
  | none => simp [World.step, ownEvent, hp]
  | some revents =>
    obtain ⟨c, own, _⟩ := @ownEvent_progress B I _ callbacks _ _ e s
    have alone : plainOnRead (B := B) (fun _ => 0) callbacks (fun _ => .new) 0 e.onRead =
        plainOnRead hash callbacks (World.heap ⟨.new callbacks false, conns⟩) e.conn e.onRead :=
      funext fun c => plainOnRead_alone.symm
    have plain := own
    simp only [ownEvent, hp, alone] at plain
    obtain ⟨up, _, st, server⟩ := @World.step_plain B I _ hash callbacks ⟨.new callbacks false, conns⟩ e revents c hp
      plain (by
        rintro ⟨⟩ rfl _
        rfl)
    have off : up.server = .new callbacks false := by
      rcases server with same | ⟨d, d', ctx, rd, ed, rfl⟩
      · exact same
      · obtain ⟨sd, pd⟩ := s.receive_true rd.2.2.2
        have sound : d.Sound := withContext_sound sd d.context_
        rw [connectionOnRead_off (by rw [ctx]; rfl) sound pd ed, ctx]
    rw [st, own, off]
    rfl

end Event

/-! ## Runs -/

/-- The world, and the chunks each connection has received. -/
structure Tally (B : Type) where
  world : World B
  received : ConnId → List Bytes

namespace Tally

variable {B I : Type} [BufferType B I]

def new (callbacks : Bytes → Option ResponseCallback) : Tally B := ⟨.new (.new callbacks false), fun _ => []⟩

variable [LawfulBuffer B I]

/-- The bytes received in an event, if any. -/
def chunk (world : World B) (e : Event) : List Bytes :=
  if fetched (world.conns e.conn) e = [] then [] else [fetched (world.conns e.conn) e]

def step (hash : HTTPRequest → Nat) (t : Tally B) (e : Event) : Option (Tally B) := do
  let world ← t.world.step hash e
  some ⟨world, Function.update t.received e.conn (t.received e.conn ++ chunk t.world e)⟩

/-- The connection has done what a service does with the chunks: its context and input are those of the service, and
    the bytes the kernel has accepted are the first ones of the responses' texts, with the others waiting. -/
def Delivers (callbacks : Bytes → Option ResponseCallback) (chunks : List Bytes) (c : TCPConnection B HTTPContext) :
    Prop :=
  ∃ service texts, Service.Runs callbacks chunks service ∧ service.responses.mapM HTTPResponse.text = some texts ∧
    accepted c.log ++ unread c.out_buffer_ = texts.flatten ∧ c.context_ = service.context ∧
    unread c.in_buffer_ = service.input

variable {hash : HTTPRequest → Nat} {callbacks : Bytes → Option ResponseCallback} {e : Event}
  {c c' : TCPConnection B HTTPContext} {chunks : List Bytes}

/-- A connection just accepted has delivered nothing. -/
lemma Delivers.created : Delivers callbacks [] (created .new : TCPConnection B HTTPContext) := by
  refine ⟨.new, [], .nil, rfl, ?_, rfl, ?_⟩
  · exact (Sound.created (B := B) HTTPContext.new).stream
  · exact fresh_unread fresh_new

/-- One read with progress delivers the responses to one more chunk. -/
lemma Delivers.progress {chunk : Bytes} (h : Delivers callbacks chunks c) (s : c.Sound) (s' : c'.Sound)
    (p : Progress callbacks c chunk c') : Delivers callbacks (chunks ++ if chunk = [] then [] else [chunk]) c' := by
  obtain ⟨service, texts, run, text, stream, context, input⟩ := h
  cases p with
  | idle k =>
    rw [if_pos rfl, List.append_nil]
    refine ⟨service, texts, run, text, ?_, k.context.trans context, k.input.trans input⟩
    rw [s'.stream, k.output, ← s.stream, stream]
  | answered ne parses context' text' log =>
    rename_i ok ctx texts'
    rw [if_neg ne]
    rw [context, input] at parses
    refine ⟨_, texts ++ texts', .snoc run (.intro parses), ?_, ?_, context', rfl⟩
    · rw [List.mapM_append, text, text']
      rfl
    · rw [s'.stream, log, ← s.stream, stream, List.flatten_append]

/-- What holds in every state reached. -/
structure Inv (callbacks : Bytes → Option ResponseCallback) (t : Tally B) : Prop where
  off : t.world.server = .new callbacks false
  sound : ∀ id, (t.world.conns id).Sound
  delivers : ∀ id, Delivers callbacks (t.received id) (t.world.conns id)

/-- The invariant holds before the first event. -/
lemma Inv.new : (new callbacks : Tally B).Inv callbacks where
  off := rfl
  sound _ := Sound.created _
  delivers _ := Delivers.created

/-- Every event is handled, and keeps the invariant. -/
lemma Inv.step {t : Tally B} (inv : t.Inv callbacks) (hash : HTTPRequest → Nat) (e : Event) :
    ∃ t', t.step hash e = some t' ∧ t'.Inv callbacks := by
  obtain ⟨⟨server, conns⟩, received⟩ := t
  obtain ⟨off, sound, delivers⟩ := inv
  dsimp only at off sound delivers
  subst off
  obtain ⟨c, own, sc, progress⟩ := @ownEvent_progress B I _ callbacks _ _ e (sound e.conn)
  refine ⟨⟨⟨.new callbacks false, Function.update conns e.conn c⟩, Function.update received e.conn
    (received e.conn ++ chunk ⟨.new callbacks false, conns⟩ e)⟩, ?_, rfl, ?_, ?_⟩
  · rw [Tally.step, step_ownEvent (sound e.conn), interleave, own]
    rfl
  · refine (Function.forall_update_iff conns fun _ c => c.Sound).2 ⟨sc, fun id _ => sound id⟩
  · intro id
    by_cases h : id = e.conn
    · subst h
      dsimp only
      rw [Function.update_self, Function.update_self]
      exact (delivers e.conn).progress (sound e.conn) sc progress
    · dsimp only
      rw [Function.update_of_ne h, Function.update_of_ne h]
      exact delivers id

/-- All events are handled, and keep the invariant. -/
lemma run (hash : HTTPRequest → Nat) (callbacks : Bytes → Option ResponseCallback) (es : List Event) :
    ∃ t : Tally B, es.foldlM (step hash) (.new callbacks) = some t ∧ t.Inv callbacks :=
  foldlM_inv (fun _ e inv => inv.step hash e) .new es

end Tally

/-- In every run of a server without the cache, over the flat buffer, every connection does what a service does
    with the chunks it has received: whatever the kernel accepted in each write, the peer has got the first bytes of
    the responses to them, in order, and the others are waiting. -/
theorem server_delivers (hash : HTTPRequest → Nat) (callbacks : Bytes → Option ResponseCallback) (es : List Event) :
    ∃ t : Tally Buffer, es.foldlM (Tally.step hash) (.new callbacks) = some t ∧
      ∀ id, Tally.Delivers callbacks (t.received id) (t.world.conns id) := by
  obtain ⟨t, run, inv⟩ := @Tally.run Buffer _ _ _ hash callbacks es
  exact ⟨t, run, inv.delivers⟩

section Isolation

variable {B I : Type} [BufferType B I] [LawfulBuffer B I]

/-- A run of a server without the cache is a run of its connections side by side. -/
lemma run_interleave (hash : HTTPRequest → Nat) {callbacks : Bytes → Option ResponseCallback}
    {conns : ConnId → TCPConnection B HTTPContext} (s : ∀ id, (conns id).Sound) (es : List Event) :
    es.foldlM (World.step hash) ⟨.new callbacks false, conns⟩ =
      (es.foldlM (interleave Event.conn (ownEvent callbacks)) conns).map fun conns => ⟨.new callbacks false, conns⟩ := by
  induction es generalizing conns with
  | nil => rfl
  | cons e es ih =>
    obtain ⟨conns', st, sound⟩ := @interleave_sound B I _ callbacks _ _ s e
    rw [List.foldlM_cons, List.foldlM_cons, step_ownEvent (s e.conn), st]
    exact ih sound

/-- The connections of a server without the cache do not take notice of each other. -/
lemma isolated (hash : HTTPRequest → Nat) (callbacks : Bytes → Option ResponseCallback) (es : List Event)
    (id : ConnId) :
    ∃ world alone : World B, es.foldlM (World.step hash) (.new (.new callbacks false)) = some world ∧
      (es.filter (·.conn = id)).foldlM (World.step hash) (.new (.new callbacks false)) = some alone ∧
      world.conns id = alone.conns id := by
  have sound (_ : ConnId) : (created .new : TCPConnection B HTTPContext).Sound := Sound.created _
  have defined (es : List Event) : ∃ conns, es.foldlM (interleave Event.conn (ownEvent callbacks))
      (fun _ => (created .new : TCPConnection B HTTPContext)) = some conns := by
    obtain ⟨conns, run, _⟩ := foldlM_inv (fun _ e s => interleave_sound s e) sound es
    exact ⟨conns, run⟩
  obtain ⟨conns, run⟩ := defined es
  obtain ⟨conns', run'⟩ := defined (es.filter (·.conn = id))
  refine ⟨⟨.new callbacks false, conns⟩, ⟨.new callbacks false, conns'⟩, ?_, ?_, ?_⟩
  · rw [World.new, run_interleave hash sound, run]
    rfl
  · rw [World.new, run_interleave hash sound, run']
    rfl
  · have own := interleave_iff.1 run id
    have own' := interleave_iff.1 run' id
    simp only [List.filter_filter, Bool.and_self] at own'
    exact Option.some.inj (own.symm.trans own')

end Isolation

/-- In every run of a server without the cache, over the flat buffer, a connection is in the state it would be in if
    its own events had been the only ones. -/
theorem connections_isolated (hash : HTTPRequest → Nat) (callbacks : Bytes → Option ResponseCallback)
    (es : List Event) (id : ConnId) :
    ∃ world alone : World Buffer, es.foldlM (World.step hash) (.new (.new callbacks false)) = some world ∧
      (es.filter (·.conn = id)).foldlM (World.step hash) (.new (.new callbacks false)) = some alone ∧
      world.conns id = alone.conns id :=
  isolated hash callbacks es id

end WebServer.Http
