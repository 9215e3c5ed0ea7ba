import WebServer.Net.Dispatch

/-!
# Stale events

`Channel::handleEvent` calls its callbacks from a snapshot of the events, so a callback may find the
connection in another state than the one the event was reported in. The close, error and read handlers look
at the status; `handleWrite` does not.

`Mask.Undisturbed` says that no callback of an event closes the connection, `Calm` says the same of the
callbacks still to be called, and `Callback.Leads` says how far a callback takes the status. An event with
`POLLOUT` runs through to the write callback in whatever status the callbacks before it lead to (`run_write`).
-/

namespace WebServer.Net

open Lib LawfulBuffer

/-! ## The callbacks of an event -/

/-- The events do not close the connection: neither the close nor the error callback is called, and the
    read callback only if there are bytes to read. -/
def Mask.Undisturbed (revents : Mask) (r : ReadResult) : Prop :=
  (revents.meets POLLHUP && !revents.meets POLLIN) = false ∧
  revents.meets (POLLERR ||| POLLNVAL) = false ∧
  (revents.meets (POLLIN ||| POLLRDHUP ||| POLLPRI) = true → r.delivers = true)

/-- The write callback comes alone, or after a read callback that finds bytes to read and makes calls that
    meet `P`; or it is not called. -/
inductive Calm (P : List TCPConnection.Call → Prop) : List Callback → Prop where
  | quiet {ks} :
    (∀ w, .write w ∉ ks) →
    Calm P ks
  | write {w} :
    Calm P [.write w]
  | readWrite {r script w} :
    r.delivers = true →
    P script →
    Calm P [.read r script, .write w]

namespace Calm

variable {P : List TCPConnection.Call → Prop} {k : Callback} {rest : List Callback}

/-- The callbacks behind the first are calm. -/
lemma tail (h : Calm P (k :: rest)) : Calm P rest := by
  cases h with
  | quiet h => exact .quiet fun w hm => h w (List.mem_cons_of_mem _ hm)
  | write => exact .quiet (by simp)
  | readWrite _ _ => exact .write

/-- What comes before the write callback. -/
lemma head (h : Calm P (k :: rest)) {w : WriteResult} (hw : .write w ∈ rest) :
    ∃ r script, k = .read r script ∧ r.delivers = true ∧ P script := by
  cases h with
  | quiet h => exact absurd (List.mem_cons_of_mem _ hw) (h w)
  | write => simp at hw
  | readWrite hr hp => exact ⟨_, _, rfl, hr, hp⟩

/-- The callbacks of a mask are calm when its write is undisturbed. -/
lemma callbacks {revents : Mask} {r : ReadResult} {script : List TCPConnection.Call} {w : WriteResult}
    (h : revents.meets POLLOUT = true → revents.Undisturbed r ∧
      (revents.meets (POLLIN ||| POLLRDHUP ||| POLLPRI) = true → P script)) :
    Calm P (revents.callbacks r script w) := by
  cases out : revents.meets POLLOUT with
  | false =>
    refine .quiet fun w hm => ?_
    rw [Mask.write_mem_callbacks hm] at out
    cases out
  | true =>
    obtain ⟨⟨hup, err, hr⟩, hp⟩ := h out
    rw [Mask.callbacks, hup, err, out]
    cases rd : revents.meets (POLLIN ||| POLLRDHUP ||| POLLPRI) with
    | false => exact .write
    | true => exact .readWrite (hr rd) (hp rd)

end Calm

/-! ## What comes before the write callback -/

/-- After the callback the status is the given one or a later one. -/
inductive Callback.Leads : Callback → Status → Prop where
  | close :
    Leads .close .kDisconnected
  | error :
    Leads .error .kDisconnected
  | eof {r script} :
    r.delivers = false →
    Leads (.read r script) .kDisconnected
  | shutdown {r script} :
    .shutdown ∈ script →
    Leads (.read r script) .kDisconnecting

/-- An event with `POLLOUT` ends with the write callback; what comes before it is disturbed if the event
    is. -/
lemma Mask.callbacks_out {revents : Mask} {r : ReadResult} {script : List TCPConnection.Call}
    {w : WriteResult} (out : revents.meets POLLOUT = true) :
    ∃ ks, revents.callbacks r script w = ks ++ [.write w] ∧ (∀ k ∈ ks, ∀ w, k ≠ .write w) ∧
      (¬ revents.Undisturbed r → ∃ k ∈ ks, k.Leads .kDisconnected) ∧
      (revents.meets (POLLIN ||| POLLRDHUP ||| POLLPRI) = true → .read r script ∈ ks) := by
  refine ⟨_, by rw [callbacks, out, if_pos rfl], ?_, fun not => ?_, fun rd => ?_⟩
  · intro k hk
    simp only [List.mem_append] at hk
    grind
  · cases hup : revents.meets POLLHUP && !revents.meets POLLIN with
    | true => exact ⟨.close, by simp, .close⟩
    | false =>
      cases err : revents.meets (POLLERR ||| POLLNVAL) with
      | true => exact ⟨.error, by simp, .error⟩
      | false =>
        have eof : revents.meets (POLLIN ||| POLLRDHUP ||| POLLPRI) = true ∧ r.delivers = false := by
          simpa [Undisturbed, hup, err] using not
        exact ⟨.read r script, by simp [eof.1], .eof eof.2⟩
  · simp [rd]

namespace TCPConnection

variable {B I Ctx : Type} [BufferType B I] [LawfulBuffer B I] {c c' : TCPConnection B Ctx}

omit [LawfulBuffer B I] in
/-- After `shutdown` a connection is disconnecting or further. -/
lemma shutdown_rank : Status.kDisconnecting.rank ≤ c.shutdown.status_.rank := by
  rcases c.shutdown_cases with ⟨hs, e⟩ | ⟨_, _, e⟩ | ⟨_, _, e⟩
  · rw [e, hs]
    decide
  · rw [e]
  · rw [e]

omit [LawfulBuffer B I] in
/-- A script with a `shutdown` leaves the connected state. -/
lemma calls_rank {script : List Call} (hm : .shutdown ∈ script)
    (e : script.foldlM call c = some c') : Status.kDisconnecting.rank ≤ c'.status_.rank := by
  induction script generalizing c with
  | nil => cases hm
  | cons x script ih =>
    rw [List.foldlM_cons] at e
    obtain ⟨c1, e1, e⟩ := Option.bind_eq_some_iff.1 e
    rcases List.mem_cons.1 hm with rfl | hm
    · cases e1
      exact shutdown_rank.trans (Advances.calls e).forward
    · exact ih hm e

/-- A callback that leads to a status leaves the connection there or further. -/
lemma callback_rank {k : Callback} {st : Status} (h : k.Leads st) (s : c.Sound)
    (begun : c.status_ ≠ .kConnecting) (e : c.callback k = some c') :
    st.rank ≤ c'.status_.rank := by
  cases h with
  | close =>
    cases e
    rw [handleClose_status]
  | error =>
    cases e
    rw [handleError_eq, handleClose_status]
  | @eof r script hr =>
    rw [callback, handleRead_eq] at e
    rcases receive_cases s begun r with ⟨hs, e1⟩ | ⟨_, n, ⟨_, e1⟩ | ⟨hr', _⟩⟩
    · rw [e1] at e
      cases e
      rw [hs]
    · rw [e1] at e
      cases e
      rw [handleClose_status]
    · rw [hr] at hr'
      cases hr'
  | @shutdown r script hm =>
    rw [callback, handleRead_eq] at e
    rcases receive_cases s begun r with ⟨hs, e1⟩ | ⟨_, n, ⟨_, e1⟩ | ⟨_, b, _, e1⟩⟩
    · rw [e1] at e
      cases e
      rw [hs]
      decide
    · rw [e1] at e
      cases e
      rw [handleClose_status]
      decide
    · rw [e1] at e
      exact calls_rank hm e

/-- The callbacks before the write callback leave a writing channel writing. -/
lemma callbacks_spec {ks : List Callback} (not : ∀ k ∈ ks, ∀ w, k ≠ .write w) (s : c.Sound)
    (begun : c.status_ ≠ .kConnecting) (hw : c.channel_.isWriting = true) :
    ∃ c', ks.foldlM callback c = some c' ∧ c'.Sound ∧ c'.channel_.isWriting = true ∧ c.Advances c' ∧
      ∀ k ∈ ks, ∀ st, k.Leads st → st.rank ≤ c'.status_.rank := by
  induction ks generalizing c with
  | nil => exact ⟨c, rfl, s, hw, .refl, nofun⟩
  | cons k ks ih =>
    have first : ∃ c1, c.callback k = some c1 ∧ c1.Sound ∧ c1.channel_.isWriting = true := by
      cases k with
      | close => exact ⟨_, rfl, s.handleClose, by rw [handleClose_channel]; exact hw⟩
      | error => exact ⟨_, rfl, s.handleClose, by rw [handleError_eq, handleClose_channel]; exact hw⟩
      | read r script =>
        obtain ⟨c1, e1, s1, hw1⟩ := s.handleRead r (Sound.calls script)
        exact ⟨c1, e1, s1, hw1 hw⟩
      | write w => exact absurd rfl (not _ (by simp) w)
    obtain ⟨c1, e1, s1, hw1⟩ := first
    have adv := Advances.callback e1
    obtain ⟨c', e', s', hw', adv', leads⟩ := ih (fun k hk => not k (List.mem_cons_of_mem _ hk)) s1
      (adv.begun begun) hw1
    refine ⟨c', ?_, s', hw', adv.trans adv', ?_⟩
    · rw [List.foldlM_cons, e1]
      exact e'
    · intro k' hk st hl
      rcases List.mem_cons.1 hk with rfl | hk
      · exact (callback_rank hl s begun e1).trans adv'.forward
      · exact leads k' hk st hl

omit [LawfulBuffer B I] in

/-- `handleWrite` writes, whatever the status is. -/
lemma handleWrite_writes {w : WriteResult} (e : c.handleWrite w = some c') :
    ∃ l call, c'.log = c.log ++ l ∧ .write call ∈ l := by
  obtain ⟨n, c1, e1, adv⟩ := Advances.after_write e
  obtain ⟨l, el, _⟩ := adv.log
  obtain ⟨⟨call, out⟩, _, e1⟩ := Option.bind_eq_some_iff.1 e1
  cases e1
  exact ⟨.assert (c.status_ = .kConnected) :: .write call :: l, call, by simp [el], by simp⟩

end TCPConnection

namespace Dispatch

variable {B I Ctx : Type} [BufferType B I] [LawfulBuffer B I]

/-- An event with `POLLOUT` runs up to the write callback, on a connection that has advanced as far as the
    callbacks before lead, and through it. -/
lemma run_write {s : Dispatch B Ctx} (h : s.Inv) (idle : s.Idle) {revents : Mask} {r : ReadResult}
    {script : List TCPConnection.Call} {w : WriteResult} (reg : s.Registered (.event revents r script w))
    (out : revents.meets POLLOUT = true) :
    s.conn.status_ ≠ .kDisconnected ∧
    ∃ n s' c, (Move.event revents r script w :: List.replicate n .next).foldlM step s = some s' ∧
      c.handleWrite w = some s'.conn ∧ s.conn.Advances c ∧
      (¬ revents.Undisturbed r → c.status_ = .kDisconnected) ∧
      (revents.meets (POLLIN ||| POLLRDHUP ||| POLLPRI) = true → .shutdown ∈ script →
        Status.kDisconnecting.rank ≤ c.status_.rank) := by
  obtain ⟨mask, em, outm⟩ := reg out
  constructor
  · intro hs
    rw [h.sound.removed hs] at em
    cases em
  · obtain ⟨ks, eks, not, dist, reads⟩ := @Mask.callbacks_out revents r script w out
    obtain ⟨c, ec, so, hw, adv, leads⟩ := TCPConnection.callbacks_spec not h.sound h.begun
      (h.isWriting em outm)
    obtain ⟨c', e', _⟩ := so.handleWrite hw w
    have ev : s.conn.handleEvent revents r (fun c => script.foldlM TCPConnection.call c) w = some c' := by
      rw [TCPConnection.handleEvent_eq, eks, List.foldlM_append, ec]
      simp [TCPConnection.callback, e']
    obtain ⟨n, run⟩ := run_handleEvent idle ev
    refine ⟨n, _, c, run, e', adv, fun dis => ?_, fun rd hm => ?_⟩
    · obtain ⟨k, hk, hl⟩ := dist dis
      exact Status.closed_of_rank_le (leads k hk _ hl)
    · exact leads _ (reads rd) _ (.shutdown hm)

omit [LawfulBuffer B I] in
/-- Events come between two handlers only. -/
lemma idle_of_event {s : Dispatch B Ctx} {revents : Mask} {r : ReadResult}
    {script : List TCPConnection.Call} {w : WriteResult}
    (e : (s.step (.event revents r script w)).isSome = true) : s.Idle := by
  by_contra not
  rw [step, if_neg not] at e
  cases e

end Dispatch

end WebServer.Net
