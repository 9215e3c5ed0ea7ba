import WebServer.Net.BufferType
import WebServer.Net.LinkedReader

/-!
# The linked buffer by the rules of its deque

`LinkedBuffer` as a buffer type takes the iterators of the deque to survive `push_back`. `StampedBuffer` as a buffer
type does not: an operation is undefined as soon as it uses an iterator that has been made invalid. So what a
connection, a parser or a server does over it is what the program does as long as its behaviour is defined.

An iterator of a parser is the reader or `end()`, or comes from these, and no append is made while it is in use. It is
valid as long as the reader is, and the operations on it check the reader (`StampedBuffer.guarded`).

`Recorded` is the linked buffer, with the calls that have been made on it. `Backs s r` is the simulation between the
two: the same buffer, stamps as the invariant of the stored reader wants them, and no call that looks at the reader
after a node has been added to a deque that was not empty (`Recorded.Timely`). The first call that does so is
undefined over `StampedBuffer` (`Backs.readToFD_late`), and from then on the record is not timely
(`LinkedBuffer.Timely.of_append`).
-/

namespace WebServer.Net

open Lib (Traced)
open LinkedBuffer (Call Timely)

instance : DecidablePred Use.Valid
  | .node valid => inferInstanceAs (Decidable (valid = true))
  | .char valid => inferInstanceAs (Decidable (valid = true))

namespace StampedBuffer

variable (s : StampedBuffer)

/-- The reader has not been made invalid. -/
def readerValid : Bool := s.buffer_.validNode s.reader_iter_ && s.buffer_.validChar s.reader_iter_

/-- An operation on iterators that come from the reader or from `end()`. -/
def guarded {α : Type} (x : Option α) : Option α := if s.readerValid then x else none

/-- The linked buffer, undefined where an invalid iterator is used. -/
instance : BufferType StampedBuffer LinkedBufferIter where
  deref s it := s.guarded (Lib.RandomAccess.deref s.erase it)
  next s it := s.guarded (Lib.RandomAccess.next s.erase it)
  prev s it := s.guarded (Lib.RandomAccess.prev s.erase it)
  plus s it n := s.guarded (Lib.RandomAccess.plus s.erase it n)
  minus s it jt := s.guarded (Lib.RandomAccess.minus s.erase it jt)
  -- iterators are compared only after one of the operations above
  same s := Lib.RandomAccess.same s.erase
  extent s := Lib.RandomAccess.extent s.erase
  new := new
  append s bs := some (s.append bs)
  writeFromFD s r := some ((sysw.read kTmpBuffSize r).1, s.writeFromFD r)
  readToFD s w := (s.readToFD w).checked Use.Valid
  readableSize s := s.readableSize.checked Use.Valid
  readerIter s := s.erase.readerIter
  end_ s := s.erase.end_
  readUntil s it := (s.readUntil it).checked Use.Valid

end StampedBuffer

/-! ## Sequences of calls -/

namespace LinkedBuffer

variable {lb lb' : LinkedBuffer} {outdated : Bool} {calls : List Call} {call : Call}

/-- Whether, after the calls, a node has been added to a deque that was not empty since the last `readAll`. -/
def outdatedBy (lb : LinkedBuffer) (outdated : Bool) : List Call → Bool
  | [] => outdated
  | call :: calls => (call.exec lb).elim outdated fun lb' => outdatedBy lb' (call.outdates lb outdated) calls

/-- One more call. -/
lemma outdatedBy_concat (run : calls.foldlM Call.exec lb = some lb') (defined : (call.exec lb').isSome) :
    lb.outdatedBy outdated (calls ++ [call]) = call.outdates lb' (lb.outdatedBy outdated calls) := by
  induction calls generalizing lb outdated with
  | nil =>
    cases run
    obtain ⟨lb'', e⟩ := Option.isSome_iff_exists.1 defined
    simp only [List.nil_append, outdatedBy, e, Option.elim_some]
  | cons c calls ih =>
    rw [List.foldlM_cons] at run
    obtain ⟨lb1, e1, run⟩ := Option.bind_eq_some_iff.1 run
    rw [List.cons_append, outdatedBy, outdatedBy, e1]
    exact ih run

/-- One more call is timely when it does not read with an outdated reader. -/
lemma timely_concat (run : calls.foldlM Call.exec lb = some lb') :
    Timely lb outdated (calls ++ [call]) ↔
      Timely lb outdated calls ∧ (call.reads = true → lb.outdatedBy outdated calls = false) := by
  induction calls generalizing lb outdated with
  | nil =>
    cases run
    rw [List.nil_append, Timely, Timely, and_iff_right trivial]
    exact and_iff_left fun _ _ => trivial
  | cons c calls ih =>
    rw [List.foldlM_cons] at run
    obtain ⟨lb1, e1, run⟩ := Option.bind_eq_some_iff.1 run
    have next (outdated : Bool) (calls : List Call) :
        (∀ lb2, c.exec lb = some lb2 → Timely lb2 outdated calls) ↔ Timely lb1 outdated calls :=
      ⟨fun h => h _ e1, fun h lb2 e2 => Option.some.inj (e1.symm.trans e2) ▸ h⟩
    rw [List.cons_append, Timely, Timely, next, next, ih run, outdatedBy, e1, and_assoc]
    rfl

/-- The calls up to some point of timely ones are timely. -/
lemma Timely.of_append {calls' : List Call} (h : Timely lb outdated (calls ++ calls')) : Timely lb outdated calls := by
  induction calls generalizing lb outdated with
  | nil => trivial
  | cons call calls ih =>
    obtain ⟨reads, next⟩ := h
    exact ⟨reads, fun lb' e => ih (next lb' e)⟩

/-- Once outdated, a buffer stays so until it is cleared. -/
lemma outdatedBy_stays (keep : call ≠ .readAll) (late : lb.outdatedBy outdated calls = true) :
    lb.outdatedBy outdated (calls ++ [call]) = true := by
  induction calls generalizing lb outdated with
  | nil =>
    have eq : outdated = true := late
    have stays : call.outdates lb true = true := by
      cases call with
      | readAll => exact absurd rfl keep
      | _ => rfl
    rw [List.nil_append, outdatedBy, eq, stays]
    cases call.exec lb with
    | none => rfl
    | some _ => rfl
  | cons c calls ih =>
    rw [outdatedBy] at late
    rw [List.cons_append, outdatedBy]
    cases e : c.exec lb with
    | none =>
      rw [e] at late
      exact late
    | some lb1 =>
      rw [e] at late
      exact ih late

end LinkedBuffer

/-! ## The record of the calls -/

/-- A linked buffer and the calls that have been made on it. -/
structure Recorded where
  buffer : LinkedBuffer
  calls : List Call

namespace Recorded

/-- The operations of the linked buffer, with the calls recorded; a `writeFromFD` that reads nothing is none. -/
instance : BufferType Recorded LinkedBufferIter where
  deref r := Lib.RandomAccess.deref r.buffer
  next r := Lib.RandomAccess.next r.buffer
  prev r := Lib.RandomAccess.prev r.buffer
  plus r := Lib.RandomAccess.plus r.buffer
  minus r := Lib.RandomAccess.minus r.buffer
  same r := Lib.RandomAccess.same r.buffer
  extent r := Lib.RandomAccess.extent r.buffer
  new := ⟨LinkedBuffer.new, []⟩
  append r bs := some ⟨r.buffer.append bs, r.calls ++ [.append bs]⟩
  writeFromFD r res :=
    let (n, lb) := r.buffer.writeFromFD res
    some (n, if n ≤ 0 then r else ⟨lb, r.calls ++ [.writeFromFD res]⟩)
  readToFD r w := (r.buffer.readToFD w).map (Prod.map id fun lb => ⟨lb, r.calls ++ [.readToFD w]⟩)
  readableSize r := r.buffer.readableSize
  readerIter r := r.buffer.readerIter
  end_ r := r.buffer.end_
  readUntil r it := (r.buffer.readUntil it).map (Prod.map id fun lb => ⟨lb, r.calls ++ [.readUntil it]⟩)

/-- Input is recorded only when some of it arrives. -/
lemma writeFromFD_eq {r : Recorded} {res : ReadResult} :
    BufferType.writeFromFD r res = some ((sysw.read kTmpBuffSize res).1,
      if (sysw.read kTmpBuffSize res).1 ≤ 0 then r else
        ⟨r.buffer.append (sysw.read kTmpBuffSize res).2, r.calls ++ [.writeFromFD res]⟩) := by
  show some ((r.buffer.writeFromFD res).1, if (r.buffer.writeFromFD res).1 ≤ 0 then r else
    ⟨(r.buffer.writeFromFD res).2, r.calls ++ [.writeFromFD res]⟩) = _
  rw [LinkedBuffer.writeFromFD_eq]
  by_cases none_ : (sysw.read kTmpBuffSize res).1 ≤ 0
  · simp only [if_pos none_]
  · simp only [if_neg none_]

/-- What the operations do to the unread bytes is what those of the linked buffer do. -/
instance : LawfulBuffer Recorded LinkedBufferIter where
  unread r := r.buffer.unread
  Fresh r := r.buffer.Fresh
  Ready r := r.buffer.Seated
  Parsable r := r.buffer.Packed
  At r := r.buffer.At
  capacity _ := kTmpBuffSize
  fresh_new := LinkedBuffer.new_fresh
  fresh_unread h := h.unread
  ready h := h.seated
  capacity_pos r := LawfulBuffer.capacity_pos r.buffer
  append_spec {r} h bs := ⟨_, rfl, by
    rcases h with h | h
    · exact h.append_spec bs
    · exact h.append_spec bs⟩
  readableSize_spec h := h.readableSize
  readToFD_spec {r} h ne w := by
    obtain ⟨lb, e, spec⟩ := h.readToFD_spec (h.nodes_ne ne) w
    refine ⟨⟨lb, r.calls ++ [.readToFD w]⟩, ?_, spec⟩
    show (r.buffer.readToFD w).map _ = _
    rw [e]
    rfl
  append_parsable h _ ne := ⟨_, rfl, LinkedBuffer.append_spec_packed h ne⟩
  writeFromFD_nonpos {r} _ res none_ := by
    rw [writeFromFD_eq]
    exact congrArg some (Prod.ext rfl (if_pos none_))
  writeFromFD_pos {r} h res pos := by
    have some_ : ¬(sysw.read kTmpBuffSize res).1 ≤ 0 := Int.not_le.2 pos
    refine ⟨⟨r.buffer.append (sysw.read kTmpBuffSize res).2, r.calls ++ [.writeFromFD res]⟩, ?_,
      LinkedBuffer.append_spec_packed h (sysw.read_pos pos).2⟩
    rw [writeFromFD_eq]
    exact congrArg some (Prod.ext rfl (if_neg some_))
  represents h := ⟨h.represents.bound, h.represents.same, h.represents.deref, h.represents.next, h.represents.plus,
    h.represents.minus, h.represents.minus_neg, h.represents.extent⟩
  at_reader h := h.at_reader
  at_end _ := LinkedBuffer.at_end
  readUntil_spec {r} h it p hi := by
    obtain ⟨lb, e, spec⟩ := h.readUntil_spec hi
    refine ⟨⟨lb, r.calls ++ [.readUntil it]⟩, ?_, spec⟩
    show (r.buffer.readUntil it).map _ = _
    rw [e]
    rfl

/-- A node has been added to a deque that was not empty, and the reader has not been set since. -/
def outdated (r : Recorded) : Bool := LinkedBuffer.new.outdatedBy false r.calls

/-- No call has looked at an outdated reader. -/
def Timely (r : Recorded) : Prop := LinkedBuffer.Timely LinkedBuffer.new false r.calls

section Outdated

variable {r r' : Recorded}

/-- An append does not make an outdated reader valid again. -/
lemma append_outdated {bs : Bytes} (e : BufferType.append r bs = some r') (late : r.outdated = true) :
    r'.outdated = true := by
  cases e
  exact LinkedBuffer.outdatedBy_stays (fun h => nomatch h) late

/-- Reading with an outdated reader does not make it valid. -/
lemma readUntil_outdated {it : LinkedBufferIter} {ok : Bool} (e : BufferType.readUntil r it = some (ok, r'))
    (late : r.outdated = true) : r'.outdated = true := by
  obtain ⟨⟨_, _⟩, _, e⟩ := Option.map_eq_some_iff.1 e
  cases e
  exact LinkedBuffer.outdatedBy_stays (fun h => nomatch h) late

end Outdated

end Recorded

/-! ## The simulation -/

namespace StampedBuffer

variable {s s' : StampedBuffer} {outdated : Bool}

/-- A valid reader of a usable buffer. -/
lemma Fit.inv (fit : s.Fit) (usable : s.erase.Fresh ∨ s.erase.Seated) : s.Inv false where
  usable := usable
  roomy := fit.roomy
  current _ := fit.current
  stale h := Bool.noConfusion h

/-- While it is not outdated the reader is valid. -/
lemma Inv.readerValid (inv : s.Inv false) : s.readerValid = true := by
  have node : Use.Valid (.node (s.buffer_.validNode s.reader_iter_)) :=
    Traced.all_record.1 (inv.current rfl).useNode.events
  have char : Use.Valid (.char (s.buffer_.validChar s.reader_iter_)) :=
    Traced.all_record.1 (inv.current rfl).useChar.events
  exact Bool.and_eq_true_iff.2 ⟨node, char⟩

/-- An outdated reader has been made invalid. -/
lemma Inv.readerValid_stale (inv : s.Inv true) : s.readerValid = false := by
  obtain ⟨ne, lt⟩ := inv.stale rfl
  obtain ⟨k, ek⟩ := inv.node ne
  have stale := StampedNodes.useNode_stale ek (Nat.ne_of_lt lt)
  rw [StampedNodes.useNode, Traced.all_record] at stale
  exact Bool.and_eq_false_iff.2 (.inl (Bool.eq_false_iff.2 stale))

/-- While the reader is valid the check is passed. -/
lemma Inv.guarded (inv : s.Inv false) {α : Type} {x : Option α} : s.guarded x = x := if_pos inv.readerValid

/-- The iterators are those of the linked buffer while the reader is valid. -/
lemma Inv.sameAccess (inv : s.Inv false) : Lib.SameAccess s s.erase where
  deref := funext fun _ => inv.guarded
  next := funext fun _ => inv.guarded
  prev := funext fun _ => inv.guarded
  plus := funext fun _ => funext fun _ => inv.guarded
  minus := funext fun _ => funext fun _ => inv.guarded
  same := rfl
  extent := rfl

/-- A call that looks at a valid reader has its value, and leaves a valid reader. -/
lemma checked_fit {α : Type} {x : Traced Use (α × StampedBuffer)} {a : α} {lb : LinkedBuffer}
    (fit : x.Ensures Use.Valid fun res => res.2.Fit)
    (e : x.value.map (Prod.map id erase) = some (a, lb)) :
    ∃ s', x.checked Use.Valid = some (a, s') ∧ s'.erase = lb ∧ s'.Fit := by
  obtain ⟨⟨a', s'⟩, ev, e⟩ := Option.map_eq_some_iff.1 e
  cases e
  exact ⟨s', Traced.checked_eq_some.2 ⟨fit.events, ev⟩, rfl, fit.value ev⟩

/-- While the reader is valid `readableSize` is that of the plain buffer. -/
lemma Inv.readableSize (inv : s.Inv false) : BufferType.readableSize s = s.erase.readableSize := by
  show s.readableSize.checked Use.Valid = _
  rw [StampedBuffer.readableSize, Traced.checked_of_all (sizeLoop_current inv.fit.current).events]
  exact sizeLoop_value

/-- A write uses an outdated reader. -/
lemma Inv.readToFD_stale (inv : s.Inv true) (w : WriteResult) : BufferType.readToFD s w = none := by
  obtain ⟨ne, lt⟩ := inv.stale rfl
  obtain ⟨k, ek⟩ := inv.node ne
  refine Traced.checked_of_not fun all => ?_
  exact StampedNodes.useNode_stale ek (Nat.ne_of_lt lt) all.of_bind.of_bind

end StampedBuffer

/-- The checked buffer has got as far as the recorded one. -/
structure Backs (s : StampedBuffer) (r : Recorded) : Prop where
  erase : s.erase = r.buffer
  replay : r.calls.foldlM Call.exec LinkedBuffer.new = some r.buffer
  inv : s.Inv r.outdated
  timely : r.Timely

namespace Backs

variable {s s' : StampedBuffer} {r r' : Recorded} {lb : LinkedBuffer} {call : Call}

/-- A new checked buffer stands behind a new record. -/
lemma new : Backs BufferType.new BufferType.new where
  erase := rfl
  replay := rfl
  inv := StampedBuffer.Inv.new
  timely := trivial

/-- One more call, made in time. -/
lemma called (b : Backs s r) (exec : call.exec r.buffer = some lb) (erase : s'.erase = lb)
    (inv : s'.Inv (call.outdates r.buffer r.outdated)) (timely : call.reads = true → r.outdated = false) :
    Backs s' ⟨lb, r.calls ++ [call]⟩ where
  erase := erase
  replay := by
    rw [List.foldlM_append, b.replay]
    exact (congrArg (Option.bind · _) exec).trans rfl
  inv := by
    rw [Recorded.outdated, LinkedBuffer.outdatedBy_concat b.replay (by rw [exec]; rfl)]
    exact inv
  timely := (LinkedBuffer.timely_concat b.replay).2 ⟨b.timely, timely⟩

/-- An append keeps the checked buffer behind its record. -/
lemma append (b : Backs s r) (bs : Bytes) :
    Backs (s.append bs) ⟨r.buffer.append bs, r.calls ++ [.append bs]⟩ := by
  refine b.called rfl ?_ ?_ fun h => Bool.noConfusion h
  · rw [StampedBuffer.append_erase, b.erase]
  · have inv := b.inv.append bs
    rwa [b.erase] at inv

/-- Several appends keep the checked buffer behind its record. -/
lemma foldlM_append (b : Backs s r) (bss : List Bytes) :
    ∃ s' r', bss.foldlM BufferType.append s = some s' ∧ bss.foldlM BufferType.append r = some r' ∧ Backs s' r' := by
  induction bss generalizing s r with
  | nil => exact ⟨s, r, rfl, rfl, b⟩
  | cons bs bss ih => exact ih (b.append bs)

/-- A read fills the two buffers alike. -/
lemma writeFromFD (b : Backs s r) (res : ReadResult) :
    ∃ s' r', BufferType.writeFromFD s res = some ((sysw.read kTmpBuffSize res).1, s') ∧
      BufferType.writeFromFD r res = some ((sysw.read kTmpBuffSize res).1, r') ∧ Backs s' r' := by
  rw [Recorded.writeFromFD_eq]
  refine ⟨s.writeFromFD res, _, rfl, rfl, ?_⟩
  have exec : (Call.writeFromFD res).exec r.buffer = some (r.buffer.writeFromFD res).2 := rfl
  rw [LinkedBuffer.writeFromFD_eq] at exec
  by_cases none_ : (sysw.read kTmpBuffSize res).1 ≤ 0
  · have same : s.writeFromFD res = s := if_pos none_
    rw [if_pos none_, same]
    exact b
  · rw [if_neg none_]
    rw [if_neg none_] at exec
    refine b.called exec ?_ ?_ fun h => Bool.noConfusion h
    · rw [StampedBuffer.writeFromFD_erase, LinkedBuffer.writeFromFD_eq, if_neg none_, b.erase]
    · have inv := b.inv.writeFromFD res
      rwa [b.erase] at inv

/-- The reader can be looked at: the size is that of the linked buffer. -/
lemma readableSize (b : Backs s r) (fresh : r.outdated = false) :
    BufferType.readableSize s = BufferType.readableSize r := by
  have inv := b.inv
  rw [fresh] at inv
  rw [inv.readableSize, b.erase]
  rfl

/-- While the reader is valid the checked buffer is read like its record. -/
lemma sameAccess (b : Backs s r) (fresh : r.outdated = false) : Lib.SameAccess s r := by
  have inv := b.inv
  rw [fresh] at inv
  have same := inv.sameAccess
  rw [b.erase] at same
  exact ⟨same.deref, same.next, same.prev, same.plus, same.minus, same.same, same.extent⟩

/-- A call that looks at the reader in time. -/
lemma checked (b : Backs s r) (fresh : r.outdated = false) {α : Type} {x : Traced Use (α × StampedBuffer)} {a : α}
    (fit : s.Fit → x.Ensures Use.Valid fun res => res.2.Fit)
    (erased : x.value.map (Prod.map id StampedBuffer.erase) = some (a, lb)) (exec : call.exec r.buffer = some lb)
    (valid : call.Valid r.buffer) (keep : call.outdates r.buffer false = false) :
    ∃ s', x.checked Use.Valid = some (a, s') ∧ Backs s' ⟨lb, r.calls ++ [call]⟩ ∧
      Recorded.outdated ⟨lb, r.calls ++ [call]⟩ = false := by
  have inv := b.inv
  rw [fresh] at inv
  obtain ⟨s', e, rfl, fit'⟩ := StampedBuffer.checked_fit (fit inv.fit) erased
  have usable := inv.usable
  rw [b.erase] at usable
  refine ⟨s', e, b.called exec rfl ?_ fun _ => fresh, ?_⟩
  · rw [fresh, keep]
    exact fit'.inv (LinkedBuffer.exec_inv usable valid exec)
  · rw [Recorded.outdated, LinkedBuffer.outdatedBy_concat b.replay (by rw [exec]; rfl)]
    rw [Recorded.outdated] at fresh
    rw [fresh, keep]

/-- A write while the reader is valid. -/
lemma readToFD (b : Backs s r) (fresh : r.outdated = false) {w : WriteResult} {call : WriteCall}
    (e : BufferType.readToFD r w = some (call, r')) :
    ∃ s', BufferType.readToFD s w = some (call, s') ∧ Backs s' r' ∧ r'.outdated = false := by
  obtain ⟨⟨call', lb⟩, er, e⟩ := Option.map_eq_some_iff.1 e
  cases e
  have exec : (Call.readToFD w).exec r.buffer = some lb := congrArg (Option.map Prod.snd) er
  refine b.checked fresh (fun fit => StampedBuffer.readToFD_fit fit) ?_ exec trivial rfl
  rw [StampedBuffer.readToFD_erase, b.erase]
  exact er

/-- A write after a node has been added behind another is undefined, and not timely. -/
lemma readToFD_late (b : Backs s r) (late : r.outdated = true) (w : WriteResult) :
    BufferType.readToFD s w = none ∧ ∀ {call r'}, BufferType.readToFD r w = some (call, r') → ¬r'.Timely := by
  have inv := b.inv
  rw [late] at inv
  refine ⟨inv.readToFD_stale w, ?_⟩
  rintro call r' e timely
  obtain ⟨⟨call', lb⟩, er, e⟩ := Option.map_eq_some_iff.1 e
  cases e
  have fresh := ((LinkedBuffer.timely_concat b.replay).1 timely).2 rfl
  exact Bool.noConfusion (late.symm.trans fresh)

/-- A parser takes out what it has parsed while the reader is valid. -/
lemma readUntil (b : Backs s r) (fresh : r.outdated = false) {it : LinkedBufferIter} {bs : Bytes} {ok : Bool}
    (rd : Reads r.buffer.buffer_ it bs) (e : BufferType.readUntil r it = some (ok, r')) :
    ∃ s', BufferType.readUntil s it = some (ok, s') ∧ Backs s' r' ∧ r'.outdated = false := by
  obtain ⟨⟨ok', lb⟩, er, e⟩ := Option.map_eq_some_iff.1 e
  cases e
  have exec : (Call.readUntil it).exec r.buffer = some lb := congrArg (Option.map Prod.snd) er
  have rd' : Reads s.erase.buffer_ it bs := by rwa [b.erase]
  refine b.checked fresh (fun fit => StampedBuffer.readUntil_fit fit rd') ?_ exec ⟨bs, rd⟩ rfl
  rw [StampedBuffer.readUntil_erase, b.erase]
  exact er

end Backs

end WebServer.Net
