import WebServer.Lib.Run

/-!
# Event loops

Model of `thread/event_loop.{h,cc}` and of the constructor of `thread/event_loop_thread.cc`: one `EventLoop`,
the thread that runs it and any number of threads that hand tasks over to it, interleaved in any way.

The loop thread goes through the phases of `EventLoop::loop`. A section under `mutex_` is one step; the
`push_back` of `queueInLoop` and the write to the eventfd after it are two. The counter of the eventfd grows
with every write up to the kernel's maximum and is reset by a read; the poller reports the wakeup channel only
if it was registered and the counter is positive. What else the poller reports, and how often it returns
without anything (`EINTR`), is not restricted. The histories `queued` and `executed` are those of
`pending_callbacks_`.

Results: tasks are neither lost nor duplicated nor reordered (`tasks_in_order`), and no wakeup is lost
(`no_lost_wakeup`).
-/

namespace WebServer.Net

open Lib

/-- A channel that the poller reports: that of the eventfd or another one. -/
inductive Active (F : Type) where
  | wakeup
  | other (f : F)
deriving DecidableEq, Repr

/-- Where the loop thread is. -/
inductive Phase (F T : Type) where
  /-- Not in `loop()`. -/
  | stopped
  /-- At `while (looping_)`. -/
  | check
  /-- At or in `epoll_wait`. -/
  | polling
  /-- In the loop over `active_channels()`; these are left. -/
  | handling (active : List (Active F))
  /-- In `doPendingCallbacks`, after the swap; these of `excuting_callbacks` are left. -/
  | executing (rest : List T)
deriving DecidableEq, Repr

/-- The largest value of an eventfd counter. -/
def maxCounter : Nat := 2 ^ 64 - 2

/-- `class EventLoop`, with tasks of type `T`, other channels `F` and threads `Θ`. -/
structure EventLoop (F T Θ : Type) where
  thread_id_ : Θ
  looping_ : Bool
  /-- `setWakeupChannel` was called. -/
  wakeup_channel_ : Bool
  /-- The counter of the eventfd. -/
  wakeup_fd_ : Nat
  pending_callbacks_ : List T
  phase : Phase F T
  /-- The threads in `queueInLoop` between the `push_back` and the write. -/
  waking : List Θ
  /-- The tasks queued so far, in the order of their `push_back`. -/
  queued : List T
  /-- The queued tasks that were executed. -/
  executed : List T
deriving DecidableEq, Repr

namespace EventLoop

variable {F T Θ : Type}

/-- `EventLoop::EventLoop`, in the given thread. -/
def new (thread : Θ) : EventLoop F T Θ where
  thread_id_ := thread
  looping_ := false
  wakeup_channel_ := false
  wakeup_fd_ := 0
  pending_callbacks_ := []
  phase := .stopped
  waking := []
  queued := []
  executed := []

/-- `EventLoop::setWakeupChannel` -/
def setWakeupChannel (s : EventLoop F T Θ) : EventLoop F T Θ := { s with wakeup_channel_ := true }

/-- `EventLoopThread::EventLoopThread`: the loop of an IO thread, made by the given one. -/
def newThread (thread : Θ) : EventLoop F T Θ := (new thread).setWakeupChannel

/-- The tasks of the batch swapped out by `doPendingCallbacks` that are not executed yet. -/
def batch (s : EventLoop F T Θ) : List T :=
  match s.phase with
  | .executing rest => rest
  | _ => []

/-- The queued tasks that are left. -/
def left (s : EventLoop F T Θ) : List T := s.batch ++ s.pending_callbacks_

/-- The task that the loop thread executes next, if that is what it does next. -/
def current (s : EventLoop F T Θ) : Option T :=
  match s.phase with
  | .executing (cb :: _) => some cb
  | _ => none

/-- A step of the loop thread or of another one. -/
inductive Move (F T Θ : Type) where
  /-- `startLoop()` up to `loop()`, in this thread. -/
  | startLoop (t : Θ)
  /-- `endLoop()` -/
  | endLoop
  /-- This thread calls `runInLoop`, and `queueInLoop` up to its write if it is not the loop's. -/
  | runInLoop (t : Θ) (cb : T)
  /-- This thread writes to the eventfd. -/
  | wakeup (t : Θ)
  /-- `epoll_wait` returns. -/
  | poll (active : List (Active F))
  /-- The loop thread goes on. -/
  | next

variable [DecidableEq F] [DecidableEq Θ]

/-- The loop thread between two calls of `epoll_wait`. -/
def next (s : EventLoop F T Θ) : Option (EventLoop F T Θ) :=
  match s.phase with
  | .stopped => none
  | .polling => none
  | .check => some { s with phase := if s.looping_ then .polling else .stopped }
  -- `wakeupCallback` reads the counter, which resets it
  | .handling (.wakeup :: active) => some { s with phase := .handling active, wakeup_fd_ := 0 }
  | .handling (.other _ :: active) => some { s with phase := .handling active }
  | .handling [] => some { s with phase := .executing s.pending_callbacks_, pending_callbacks_ := [] }
  | .executing (cb :: rest) =>
    some { s with phase := .executing rest, executed := s.executed ++ [cb] }
  | .executing [] => some { s with phase := .check }

def step (s : EventLoop F T Θ) : Move F T Θ → Option (EventLoop F T Θ)
  | .startLoop t =>
    match s.phase with
    | .stopped => some { s with looping_ := true, thread_id_ := t, phase := .check }
    | _ => none
  | .endLoop => some { s with looping_ := false }
  | .runInLoop t cb =>
    if t ∈ s.waking then
      none
    else if s.thread_id_ = t then
      some s
    else
      some { s with
        pending_callbacks_ := s.pending_callbacks_ ++ [cb]
        queued := s.queued ++ [cb]
        waking := t :: s.waking }
  | .wakeup t =>
    if t ∈ s.waking then
      some { s with wakeup_fd_ := min (s.wakeup_fd_ + 1) maxCounter, waking := s.waking.erase t }
    else
      none
  | .poll active =>
    match s.phase with
    | .polling =>
      if .wakeup ∈ active → s.wakeup_channel_ = true ∧ 0 < s.wakeup_fd_ then
        some { s with phase := .handling active }
      else
        none
    | _ => none
  | .next => s.next

/-! ## What a step does -/

/-- Everything the loop thread does between two calls of `epoll_wait`. -/
inductive Next (s : EventLoop F T Θ) : EventLoop F T Θ → Prop where
  | poll :
    s.phase = .check →
    s.looping_ = true →
    Next s { s with phase := .polling }
  | stop :
    s.phase = .check →
    s.looping_ = false →
    Next s { s with phase := .stopped }
  | wakeupCallback {active} :
    s.phase = .handling (.wakeup :: active) →
    Next s { s with phase := .handling active, wakeup_fd_ := 0 }
  | handleEvent {f active} :
    s.phase = .handling (.other f :: active) →
    Next s { s with phase := .handling active }
  | swap :
    s.phase = .handling [] →
    Next s { s with phase := .executing s.pending_callbacks_, pending_callbacks_ := [] }
  | run {cb rest} :
    s.phase = .executing (cb :: rest) →
    Next s { s with phase := .executing rest, executed := s.executed ++ [cb] }
  | again :
    s.phase = .executing [] →
    Next s { s with phase := .check }

omit [DecidableEq F] [DecidableEq Θ] in
/-- What one step of the loop can do. -/
lemma next_cases {s s' : EventLoop F T Θ} (e : s.next = some s') : s.Next s' := by
  unfold next at e
  split at e
  case h_1 => cases e
  case h_2 => cases e
  case h_3 hp =>
    cases e
    split
    case isTrue hl => exact .poll hp hl
    case isFalse hl => exact .stop hp (Bool.not_eq_true _ ▸ hl)
  case h_4 hp =>
    cases e
    exact .wakeupCallback hp
  case h_5 hp =>
    cases e
    exact .handleEvent hp
  case h_6 hp =>
    cases e
    exact .swap hp
  case h_7 hp =>
    cases e
    exact .run hp
  case h_8 hp =>
    cases e
    exact .again hp

/-- Everything a step can do. -/
inductive Stepped (s : EventLoop F T Θ) : Move F T Θ → EventLoop F T Θ → Prop where
  | startLoop {t} :
    s.phase = .stopped →
    Stepped s (.startLoop t) { s with looping_ := true, thread_id_ := t, phase := .check }
  | endLoop :
    Stepped s .endLoop { s with looping_ := false }
  | inline {t cb} :
    s.thread_id_ = t →
    Stepped s (.runInLoop t cb) s
  | push {t cb} :
    t ∉ s.waking →
    Stepped s (.runInLoop t cb) { s with
      pending_callbacks_ := s.pending_callbacks_ ++ [cb]
      queued := s.queued ++ [cb]
      waking := t :: s.waking }
  | wakeup {t} :
    t ∈ s.waking →
    Stepped s (.wakeup t) { s with
      wakeup_fd_ := min (s.wakeup_fd_ + 1) maxCounter
      waking := s.waking.erase t }
  | poll {active} :
    s.phase = .polling →
    Stepped s (.poll active) { s with phase := .handling active }
  | next {s1} :
    s.Next s1 →
    Stepped s .next s1

variable {s s' : EventLoop F T Θ}

/-- What one move can do, by the loop or by another thread. -/
lemma step_cases {m : Move F T Θ} (e : s.step m = some s') : s.Stepped m s' := by
  cases m with
  | startLoop t =>
    simp only [step] at e
    split at e
    case h_1 hp =>
      cases e
      exact .startLoop hp
    case h_2 => cases e
  | endLoop =>
    cases e
    exact .endLoop
  | runInLoop t cb =>
    simp only [step] at e
    split at e
    case isTrue => cases e
    case isFalse ht =>
      split at e
      case isTrue hi =>
        cases e
        exact .inline hi
      case isFalse =>
        cases e
        exact .push ht
  | wakeup t =>
    simp only [step] at e
    split at e
    case isTrue ht =>
      cases e
      exact .wakeup ht
    case isFalse => cases e
  | poll active =>
    simp only [step] at e
    split at e
    case h_2 => cases e
    case h_1 hp =>
      split at e
      case isTrue =>
        cases e
        exact .poll hp
      case isFalse => cases e
  | next => exact .next (next_cases e)

/-! ## The order of the tasks -/

/-- What was executed, the rest of the batch and what is pending are what was queued. -/
def Ordered (s : EventLoop F T Θ) : Prop :=
  s.executed ++ s.batch ++ s.pending_callbacks_ = s.queued

omit [DecidableEq F] [DecidableEq Θ] in
/-- A step of the loop keeps the tasks in order. -/
lemma Ordered.next (h : s.Ordered) (e : s.Next s') : s'.Ordered := by
  unfold Ordered batch at h ⊢
  cases e with
  | poll hp => simpa [hp] using h
  | stop hp => simpa [hp] using h
  | wakeupCallback hp => simpa [hp] using h
  | handleEvent hp => simpa [hp] using h
  | swap hp => simpa [hp] using h
  | run hp => simpa [hp] using h
  | again hp => simpa [hp] using h

/-- Every move keeps the tasks in order. -/
lemma Ordered.step {m : Move F T Θ} (h : s.Ordered) (e : s.step m = some s') : s'.Ordered := by
  cases step_cases e with
  | startLoop hp =>
    unfold Ordered batch at h ⊢
    simpa [hp] using h
  | endLoop => exact h
  | inline => exact h
  | push =>
    unfold Ordered at h ⊢
    rw [← h, ← List.append_assoc]
    rfl
  | wakeup => exact h
  | poll hp =>
    unfold Ordered batch at h ⊢
    simpa [hp] using h
  | next e => exact h.next e

omit [DecidableEq F] [DecidableEq Θ] in
/-- A step takes from what is left only the task it was executing. -/
lemma Next.left (e : s.Next s') : s.left = s.current.toList ++ s'.left := by
  unfold EventLoop.left batch current
  cases e with
  | poll hp => simp [hp]
  | stop hp => simp [hp]
  | wakeupCallback hp => simp [hp]
  | handleEvent hp => simp [hp]
  | swap hp => simp [hp]
  | run hp => simp [hp]
  | again hp => simp [hp]

omit [DecidableEq F] [DecidableEq Θ] in
/-- A step adds to what was executed only the task it was executing. -/
lemma Next.executed (e : s.Next s') : s'.executed = s.executed ++ s.current.toList := by
  unfold current
  cases e with
  | poll hp => simp [hp]
  | stop hp => simp [hp]
  | wakeupCallback hp => simp [hp]
  | handleEvent hp => simp [hp]
  | swap hp => simp [hp]
  | run hp => simp [hp]
  | again hp => simp [hp]

/-- Only `runInLoop` and the loop thread between two calls of `epoll_wait` change the tasks. -/
lemma step_left {m : Move F T Θ} (e : s.step m = some s') (queues : ∀ t cb, m ≠ .runInLoop t cb)
    (goes_on : m ≠ .next) : s'.left = s.left ∧ s'.executed = s.executed := by
  unfold left batch
  cases step_cases e with
  | startLoop hp => simp [hp]
  | endLoop => exact ⟨rfl, rfl⟩
  | inline => exact ⟨rfl, rfl⟩
  | push => exact absurd rfl (queues _ _)
  | wakeup => exact ⟨rfl, rfl⟩
  | poll hp => simp [hp]
  | next => exact absurd rfl goes_on

/-- A task of another thread is queued, and a task of the loop thread is not. -/
lemma step_runInLoop {t : Θ} {cb : T} (e : s.step (.runInLoop t cb) = some s') :
    s'.left = s.left ++ (if s.thread_id_ = t then [] else [cb]) ∧ s'.executed = s.executed ∧
      s'.phase = s.phase ∧ s'.looping_ = s.looping_ ∧ s'.thread_id_ = s.thread_id_ := by
  simp only [step] at e
  split at e
  case isTrue => cases e
  case isFalse =>
    split at e
    case isTrue hi =>
      cases e
      simp [hi]
    case isFalse hi =>
      cases e
      simp [hi, left, batch]

/-! ## The thread of a loop -/

/-- Whom the loop takes for its thread: the one that made it until its own enters `startLoop`. -/
structure Launched (maker own : Θ) (s : EventLoop F T Θ) : Prop where
  idle : s.phase = .stopped → s.thread_id_ = maker
  busy : s.phase ≠ .stopped → s.thread_id_ = own ∧ s.looping_ = true

variable {maker own : Θ}

omit [DecidableEq F] [DecidableEq Θ] in
/-- Only a loop that has not stopped takes a step. -/
lemma Next.running (e : s.Next s') : s.phase ≠ .stopped := by
  intro hp
  cases e <;> simp_all

omit [DecidableEq F] [DecidableEq Θ] in
/-- A loop that is not told to end goes on. -/
lemma Launched.next (h : s.Launched maker own) (e : s.Next s') :
    s'.phase ≠ .stopped ∧ s'.thread_id_ = own ∧ s'.looping_ = true := by
  obtain ⟨hi, hl⟩ := h.busy e.running
  cases e with
  | stop hp hs =>
    rw [hl] at hs
    cases hs
  | poll => exact ⟨nofun, hi, hl⟩
  | wakeupCallback => exact ⟨nofun, hi, hl⟩
  | handleEvent => exact ⟨nofun, hi, hl⟩
  | swap => exact ⟨nofun, hi, hl⟩
  | run => exact ⟨nofun, hi, hl⟩
  | again => exact ⟨nofun, hi, hl⟩

/-- Every move but the end of the loop keeps it launched by its own thread. -/
lemma Launched.step {m : Move F T Θ} (h : s.Launched maker own) (e : s.step m = some s')
    (started : ∀ t, m = .startLoop t → t = own) (ends : m ≠ .endLoop) : s'.Launched maker own := by
  cases step_cases e with
  | startLoop hp => exact ⟨nofun, fun _ => ⟨started _ rfl, rfl⟩⟩
  | endLoop => exact absurd rfl ends
  | inline => exact h
  | push => exact ⟨h.idle, h.busy⟩
  | wakeup => exact ⟨h.idle, h.busy⟩
  | poll hp => exact ⟨nofun, fun _ => h.busy (by simp [hp])⟩
  | next e =>
    obtain ⟨running, hi, hl⟩ := h.next e
    exact ⟨fun hp => absurd hp running, fun _ => ⟨hi, hl⟩⟩

/-! ## The wakeups -/

/-- While tasks are pending, the counter is positive or will be, or the loop thread is on its way to them. -/
def Awake (s : EventLoop F T Θ) : Prop :=
  s.pending_callbacks_ ≠ [] →
    0 < s.wakeup_fd_ ∨ s.waking ≠ [] ∨ ∃ active, s.phase = .handling active

omit [DecidableEq F] [DecidableEq Θ] in
/-- A step of the loop keeps it awake. -/
lemma Awake.next (h : s.Awake) (e : s.Next s') : s'.Awake := by
  -- outside of `handling` the phase does not matter
  have elsewhere {p : Phase F T} (hp : ∀ active, s.phase ≠ .handling active) :
      Awake { s with phase := p } := by
    intro ne
    rcases h ne with pos | busy | ⟨active, hc⟩
    · exact .inl pos
    · exact .inr (.inl busy)
    · exact absurd hc (hp active)
  cases e with
  | poll hp => exact elsewhere (by simp [hp])
  | stop hp => exact elsewhere (by simp [hp])
  | wakeupCallback hp => exact fun _ => .inr (.inr ⟨_, rfl⟩)
  | handleEvent hp => exact fun _ => .inr (.inr ⟨_, rfl⟩)
  | swap hp => exact fun ne => absurd rfl ne
  | run hp => exact elsewhere (by simp [hp])
  | again hp => exact elsewhere (by simp [hp])

/-- Every move keeps the loop awake. -/
lemma Awake.step {m : Move F T Θ} (h : s.Awake) (e : s.step m = some s') : s'.Awake := by
  cases step_cases e with
  | startLoop hp =>
    intro ne
    rcases h ne with pos | busy | ⟨active, hc⟩
    · exact .inl pos
    · exact .inr (.inl busy)
    · rw [hp] at hc
      cases hc
  | endLoop => exact h
  | inline => exact h
  | push => exact fun _ => .inr (.inl (by simp))
  | wakeup =>
    refine fun _ => .inl ?_
    show 0 < min (s.wakeup_fd_ + 1) maxCounter
    exact Nat.lt_min.2 ⟨Nat.succ_pos _, by decide⟩
  | poll hp => exact fun _ => .inr (.inr ⟨_, rfl⟩)
  | next e => exact h.next e

/-- Nothing unregisters the wakeup channel. -/
lemma step_wakeupChannel {m : Move F T Θ} (h : s.wakeup_channel_ = true) (e : s.step m = some s') :
    s'.wakeup_channel_ = true := by
  cases step_cases e with
  | next e => cases e <;> exact h
  | _ => exact h

/-! ## Results -/

/-- A property that steps preserve holds in every state of a run. -/
lemma run_inv {P : EventLoop F T Θ → Prop} {ms : List (Move F T Θ)}
    (pres : ∀ {s m s'}, P s → s.step m = some s' → P s') (init : P s)
    (run : ms.foldlM step s = some s') : P s' := by
  have steps : Steps (fun _ _ => True) step s ms s' := .of_foldlM (by simp) run
  exact steps.inv (fun h _ e => pres h e) init

/-- In every interleaving, the queued tasks executed so far, followed by those of the swapped batch that are
    not executed yet and by those pending, are the tasks queued in the order of their `push_back`. -/
theorem tasks_in_order (thread : Θ) (loop : EventLoop F T Θ)
    (constructed : loop = new thread ∨ loop = newThread thread) (ms : List (Move F T Θ))
    (s : EventLoop F T Θ) (run : ms.foldlM step loop = some s) :
    s.executed ++ s.batch ++ s.pending_callbacks_ = s.queued := by
  have init : loop.Ordered := by
    rcases constructed with rfl | rfl
    · rfl
    · rfl
  exact run_inv (fun h e => h.step e) init run

/-- Two threads queue tasks before the swap, and one of them queues another one while the batch is run. -/
def handovers : List (Move Unit Nat Nat) :=
  [.startLoop 0, .next, .runInLoop 1 10, .wakeup 1, .poll [.wakeup], .runInLoop 2 20, .next, .next,
    .runInLoop 1 30, .next]

/-- Three tasks, of which one was executed and one is in the batch. -/
theorem tasks_in_order_handovers :
    ∃ s : EventLoop Unit Nat Nat, handovers.foldlM step (newThread 9) = some s ∧ s.executed = [10] ∧
      s.batch = [20] ∧ s.pending_callbacks_ = [30] ∧ s.queued = [10, 20, 30] := by
  have ends : (handovers.foldlM step (newThread 9)).map
      (fun s => (s.executed, s.batch, s.pending_callbacks_)) = some ([10], [20], [30]) := by decide
  obtain ⟨s, run, es⟩ := Option.map_eq_some_iff.1 ends
  simp only [Prod.mk.injEq] at es
  obtain ⟨ex, ba, pe⟩ := es
  have order := tasks_in_order 9 _ (.inr rfl) _ s run
  rw [ex, ba, pe] at order
  exact ⟨s, run, ex, ba, pe, order.symm⟩

/-- In every interleaving, when tasks are pending and the loop thread is at `epoll_wait`, the counter is
    positive, so that `epoll_wait` can return with the wakeup channel, or a thread is between its `push_back`
    and its write. -/
theorem no_lost_wakeup (thread : Θ) (ms : List (Move F T Θ)) (s : EventLoop F T Θ)
    (run : ms.foldlM step (newThread thread) = some s) (at_poll : s.phase = .polling)
    (pending : s.pending_callbacks_ ≠ []) :
    (0 < s.wakeup_fd_ ∧ (s.step (.poll [.wakeup])).isSome = true) ∨ ∃ t, t ∈ s.waking := by
  have awake : s.Awake := run_inv (fun h e => h.step e) (fun ne => absurd rfl ne) run
  have registered : s.wakeup_channel_ = true :=
    @run_inv _ _ _ _ _ _ _ (fun s => s.wakeup_channel_ = true) _ (fun h e => step_wakeupChannel h e) rfl run
  rcases awake pending with pos | busy | ⟨active, hp⟩
  · refine .inl ⟨pos, ?_⟩
    simp [step, at_poll, registered, pos]
  · exact .inr (List.exists_mem_of_ne_nil _ busy)
  · rw [at_poll] at hp
    cases hp

/-- The counter is reset before the task that it announced is swapped out, and a task queued after the swap
    finds it positive again at the next `epoll_wait`. -/
def lateTask : List (Move Unit Nat Nat) :=
  [.startLoop 0, .next, .runInLoop 1 10, .wakeup 1, .poll [.wakeup], .next, .next, .runInLoop 2 20,
    .wakeup 2, .next, .next, .next]

/-- A task that is queued after the batch was taken wakes the next poll. -/
theorem no_lost_wakeup_late_task :
    ∃ s : EventLoop Unit Nat Nat, lateTask.foldlM step (newThread 9) = some s ∧ s.phase = .polling ∧
      s.pending_callbacks_ = [20] ∧ 0 < s.wakeup_fd_ := by
  have ends : (lateTask.foldlM step (newThread 9)).map
      (fun s => (s.phase, s.pending_callbacks_, s.waking)) = some (.polling, [20], []) := by decide
  obtain ⟨s, run, es⟩ := Option.map_eq_some_iff.1 ends
  simp only [Prod.mk.injEq] at es
  obtain ⟨ph, pe, wa⟩ := es
  rcases no_lost_wakeup 9 _ s run ph (by simp [pe]) with ⟨pos, _⟩ | ⟨t, ht⟩
  · exact ⟨s, run, ph, pe, pos⟩
  · rw [wa] at ht
    cases ht

end EventLoop

end WebServer.Net
