import WebServer.Net.Poller
import WebServer.Lib.Run

/-!
# The poller agrees with the kernel

While an IO loop is in its poll, the keys of `fd2channels_` are the fds of the epoll instance, and each is the open
fd of its own channel. `Inv` is the invariant: an fd that is open has one channel, a channel that has an owner is
open, and the two sets differ at most by the fd between the two halves of an `addChannel`.

It holds if the IO thread does not enter `startLoop` while the main thread is in such an `addChannel`, and otherwise
the IO loop can come to poll with the two sets apart (`poller_agrees_with_kernel`).
-/

namespace WebServer.Net

open Lib

/-! ## The map -/

namespace ChannelMap

variable {m : ChannelMap} {fd fd' : Nat} {ch : ChannelPtr}

/-- The keys of the map are those of its entries. -/
lemma mem_keys : fd ∈ m.keys ↔ ∃ v, (fd, v) ∈ m := by
  simp [keys]

/-- Erasing a key takes away its entry, and no other. -/
lemma mem_erase {entry : Nat × Option ChannelPtr} :
    entry ∈ m.erase fd ↔ entry ∈ m ∧ entry.1 ≠ fd := by
  simp [erase]

/-- Assigning to a key replaces its entry, and no other. -/
lemma mem_assign {entry : Nat × Option ChannelPtr} :
    entry ∈ m.assign fd ch ↔ (entry ∈ m ∧ entry.1 ≠ fd) ∨ entry = (fd, some ch) := by
  simp [assign]

/-- The keys after erasing. -/
lemma mem_keys_erase : fd' ∈ (m.erase fd).keys ↔ fd' ∈ m.keys ∧ fd' ≠ fd := by
  simp only [mem_keys, mem_erase, exists_and_right]

/-- The keys after assigning. -/
lemma mem_keys_assign : fd' ∈ (m.assign fd ch).keys ↔ fd' ∈ m.keys ∨ fd' = fd := by
  simp only [mem_keys, mem_assign, Prod.mk.injEq, exists_or, exists_and_right, exists_and_left, exists_eq,
    and_true]
  tauto

/-- Where every entry is that of a channel, the events of its keys find theirs and the map stays as it is. -/
lemma collect_spec {P : ChannelPtr → Nat → Prop} (h : ∀ entry ∈ m, ∃ ch, entry.2 = some ch ∧ P ch entry.1)
    {events : List Nat} (he : ∀ fd ∈ events, fd ∈ m.keys) :
    ∃ chs, m.collect events = some (m, chs) ∧ List.Forall₂ P chs events ∧ ∀ ch ∈ chs, ∃ fd, P ch fd := by
  induction events with
  | nil => exact ⟨[], rfl, .nil, nofun⟩
  | cons fd fds ih =>
    obtain ⟨chs, e, hp, hall⟩ := ih fun fd hfd => he fd (List.mem_cons_of_mem _ hfd)
    have found : (m.lookup fd).isSome = true := by
      obtain ⟨v, hv⟩ := mem_keys.1 (he fd (by simp))
      exact List.lookup_isSome_iff.2 ⟨_, hv, by simp⟩
    obtain ⟨v, hv⟩ := Option.isSome_iff_exists.1 found
    obtain ⟨l₁, l₂, em, _⟩ := List.lookup_eq_some_iff.1 hv
    obtain ⟨ch, rfl, hch⟩ := h (fd, v) (by simp [em])
    refine ⟨ch :: chs, ?_, .cons hch hp, ?_⟩
    · simp [collect, subscript, hv, e]
    · intro ch' hm
      rcases List.mem_cons.1 hm with rfl | hm
      · exact ⟨fd, hch⟩
      · exact hall ch' hm

end ChannelMap

namespace PolledLoop

variable {s s' : PolledLoop} {c d fd fd' : Nat} {ch ch' : ChannelPtr}

/-! ## Channels and their fds -/

/-- The channel is there, and this is its open fd. -/
def HasFd (s : PolledLoop) : ChannelPtr → Nat → Prop
  | .wakeup, fd => fd = s.wakeup_fd_
  | .other c, fd => ∃ conn, s.conns[c]? = some conn ∧ conn.opened = true ∧ conn.fd = fd

/-- A channel has one descriptor. -/
lemma HasFd.unique (h : s.HasFd ch fd) (h' : s.HasFd ch fd') : fd = fd' := by
  cases ch with
  | wakeup => exact h.trans h'.symm
  | other c =>
    obtain ⟨conn, hc, _, rfl⟩ := h
    obtain ⟨conn', hc', _, rfl⟩ := h'
    rw [Option.some.inj (hc.symm.trans hc')]

/-- A connection with a descriptor was accepted. -/
lemma HasFd.lt (h : s.HasFd (.other c) fd) : c < s.conns.length := by
  obtain ⟨conn, hc, _⟩ := h
  exact (List.getElem?_eq_some_iff.1 hc).1

/-- The open descriptors are those of channels, and those in other hands. -/
lemma isOpen_iff : s.isOpen fd = true ↔ (∃ ch, s.HasFd ch fd) ∨ fd ∈ s.others := by
  simp only [isOpen, Bool.or_eq_true, decide_eq_true_eq, List.contains_iff_mem, List.any_eq_true,
    Bool.and_eq_true]
  constructor
  · rintro ((rfl | ho) | ⟨conn, hm, hc⟩)
    · exact .inl ⟨.wakeup, rfl⟩
    · exact .inr ho
    · obtain ⟨c, hc'⟩ := List.getElem?_of_mem hm
      exact .inl ⟨.other c, conn, hc', hc⟩
  · rintro (⟨ch, h⟩ | ho)
    · cases ch with
      | wakeup => exact .inl (.inl h)
      | other c =>
        obtain ⟨conn, hc, h⟩ := h
        exact .inr ⟨conn, List.mem_of_getElem? hc, h⟩
    · exact .inl (.inr ho)

/-- A change of a connection that leaves its channel as it is. -/
lemma hasFd_modifyConn {f : PolledConnection → PolledConnection}
    (hf : ∀ conn, (f conn).opened = conn.opened ∧ (f conn).fd = conn.fd) :
    (s.modifyConn c f).HasFd ch fd ↔ s.HasFd ch fd := by
  cases ch with
  | wakeup => rfl
  | other d =>
    simp only [HasFd, modifyConn, List.getElem?_modify]
    cases s.conns[d]? with
    | none => simp
    | some conn => by_cases hcd : c = d <;> simp [hcd, hf]

/-- The channel of a connection goes. -/
lemma hasFd_close {l : List Nat} : HasFd { s.modifyConn c fun conn => { conn with opened := false } with
      interest := l } ch fd ↔ s.HasFd ch fd ∧ ch ≠ .other c := by
  cases ch with
  | wakeup => simp [HasFd, modifyConn]
  | other d =>
    simp only [HasFd, modifyConn, List.getElem?_modify, ne_eq, Active.other.injEq]
    cases s.conns[d]? with
    | none => simp
    | some conn =>
      by_cases hcd : c = d
      · simp [hcd]
      · simp [hcd, Ne.symm hcd]

/-- A new connection has its descriptor, and the others keep theirs. -/
lemma hasFd_newConn :
    (s.newConn fd).HasFd ch fd' ↔ s.HasFd ch fd' ∨ (ch = .other s.conns.length ∧ fd' = fd) := by
  cases ch with
  | wakeup => simp [HasFd, newConn]
  | other c =>
    simp only [HasFd, newConn, Active.other.injEq]
    rcases Nat.lt_trichotomy c s.conns.length with hlt | rfl | hgt
    · rw [List.getElem?_append_left hlt, or_iff_left]
      rintro ⟨rfl, _⟩
      exact Nat.lt_irrefl _ hlt
    · rw [List.getElem?_concat_length, List.getElem?_eq_none (Nat.le_refl _)]
      constructor
      · rintro ⟨conn, e, _, rfl⟩
        cases e
        exact .inr ⟨rfl, rfl⟩
      · rintro (⟨conn, e, _⟩ | ⟨_, rfl⟩)
        · cases e
        · exact ⟨_, rfl, rfl, rfl⟩
    · have none_old : s.conns[c]? = none := List.getElem?_eq_none (Nat.le_of_lt hgt)
      have none_new : (s.conns ++ [⟨fd, .kConnecting, true, true, false⟩])[c]? = none :=
        List.getElem?_eq_none (by simpa using hgt)
      simp [none_old, none_new, Nat.ne_of_gt hgt]

/-- The connection of a queued `handleCreate`: it is there, and its channel was never in the poller. -/
def Waits (s : PolledLoop) (c : Nat) : Prop :=
  (∃ conn, s.conns[c]? = some conn ∧ conn.object = true ∧ conn.closed = false) ∧
    (∀ entry ∈ s.fd2channels_, entry.2 ≠ some (.other c)) ∧ .other c ∉ s.active_channels_

/-- The connection whose `addChannel` the main thread executes. -/
def adding (s : PolledLoop) : Option Nat :=
  match s.creating with
  | some (.ctl c) => some c
  | some (.insert c) => some c
  | _ => none

/-! ## The invariant -/

structure Inv (s : PolledLoop) : Prop where
  distinct : ∀ {ch ch' fd}, s.HasFd ch fd → s.HasFd ch' fd → ch = ch'
  apart : ∀ {ch fd}, s.HasFd ch fd → fd ∉ s.others
  /-- What has an owner is open: the `TCPConnection`, the map and `active_channels_`. -/
  objects : ∀ (c : Nat) (conn : PolledConnection), s.conns[c]? = some conn → conn.object = true → conn.opened = true
  entries : ∀ entry ∈ s.fd2channels_, ∃ ch, entry.2 = some ch ∧ s.HasFd ch entry.1
  active : ∀ ch ∈ s.active_channels_, ∃ fd, s.HasFd ch fd
  handled : ∀ chs, s.loop_.phase = .handling chs → chs ⊆ s.active_channels_
  agree : ∀ fd, fd ∈ s.interest ↔
    fd ∈ s.fd2channels_.keys ∨ ∃ c, s.creating = some (.insert c) ∧ s.HasFd (.other c) fd
  launched : s.loop_.Launched .main (.io 0)
  /-- The main thread is in the poller only before the IO thread is. -/
  adds : ∀ c, s.adding = some c → s.loop_.phase = .stopped ∧ s.Waits c ∧ c ∉ s.loop_.left
  queued : ∀ c ∈ s.loop_.left, s.Waits c
  once : s.loop_.left.Nodup

namespace Inv

/-- The invariant holds of a new loop. -/
lemma new {wakeup_fd : Nat} : (PolledLoop.new wakeup_fd).Inv where
  distinct {ch ch' fd} hc hc' := by
    cases ch with
    | wakeup =>
      cases ch' with
      | wakeup => rfl
      | other c => simp [HasFd, PolledLoop.new] at hc'
    | other c => simp [HasFd, PolledLoop.new] at hc
  apart _ := List.not_mem_nil
  objects c conn hc := by simp [PolledLoop.new] at hc
  entries entry he := ⟨.wakeup, by simp_all [PolledLoop.new], by simp_all [PolledLoop.new, HasFd]⟩
  active := nofun
  handled := nofun
  agree fd := by simp [PolledLoop.new, ChannelMap.keys]
  launched := ⟨fun _ => rfl, fun hp => absurd rfl hp⟩
  adds := nofun
  queued := nofun
  once := .nil

/-- Once the IO thread is in its loop, the main thread is not in the poller. -/
lemma not_adding (h : s.Inv) (running : s.loop_.phase ≠ .stopped) : s.adding = none := by
  cases ha : s.adding with
  | none => rfl
  | some c => exact absurd (h.adds c ha).1 running

/-- When nothing is being added, no connection is. -/
lemma not_adds (ha : s.adding = none) : s.adding ≠ some c := by
  rw [ha]
  nofun

/-- When nothing is being added, no connection is being inserted. -/
lemma not_inserting (ha : s.adding = none) : s.creating ≠ some (.insert c) := by
  intro hc
  simp [adding, hc] at ha

/-- Then the two sets are the same. -/
lemma same (h : s.Inv) (ha : s.adding = none) : fd ∈ s.interest ↔ fd ∈ s.fd2channels_.keys := by
  rw [h.agree, or_iff_left]
  rintro ⟨c, hc, _⟩
  exact not_inserting ha hc

/-- A connection that waits for its `handleCreate` is open. -/
lemma waits_hasFd (h : s.Inv) (hw : s.Waits c) {conn : PolledConnection} (hc : s.conns[c]? = some conn) :
    s.HasFd (.other c) conn.fd := by
  obtain ⟨⟨conn', hc', ho, _⟩, _⟩ := hw
  obtain rfl : conn = conn' := Option.some.inj (hc.symm.trans hc')
  exact ⟨conn, hc, h.objects c conn hc ho, rfl⟩

/-- A key is the fd of one channel. -/
lemma entry_unique (h : s.Inv) (hch : s.HasFd ch fd) {entry : Nat × Option ChannelPtr}
    (he : entry ∈ s.fd2channels_) (hfd : entry.1 = fd) : entry.2 = some ch := by
  obtain ⟨ch', e, h'⟩ := h.entries entry he
  rw [hfd] at h'
  rw [e, h.distinct h' hch]

/-! ### The loop -/

/-- The loop goes on; the main thread does not get into its way. -/
lemma set_loop (h : s.Inv) {loop : EventLoop Nat Nat Thread}
    (handled : ∀ chs, loop.phase = .handling chs → chs ⊆ s.active_channels_)
    (launched : loop.Launched .main (.io 0)) (left : loop.left.Sublist s.loop_.left)
    (adds : ∀ c, s.adding = some c → loop.phase = .stopped) : Inv { s with loop_ := loop } :=
  { h with
    handled := handled
    launched := launched
    adds := fun c hc => ⟨adds c hc, (h.adds c hc).2.1, fun hl => (h.adds c hc).2.2 (left.subset hl)⟩
    queued := fun c hc => h.queued c (left.subset hc)
    once := h.once.sublist left }

/-! ### Connections -/

/-- Changing a connection keeps waiting what was waiting. -/
lemma waits_modifyConn {f : PolledConnection → PolledConnection} (hw : s.Waits d)
    (keeps : d = c → ∀ conn, (f conn).object = conn.object ∧ (f conn).closed = conn.closed) :
    (s.modifyConn c f).Waits d := by
  obtain ⟨⟨conn, hc, ho, hx⟩, he, ha⟩ := hw
  refine ⟨⟨if c = d then f conn else conn, ?_, ?_⟩, he, ha⟩
  · simp only [modifyConn, List.getElem?_modify, hc]
    rfl
  · split
    case isTrue hcd =>
      obtain ⟨eo, ex⟩ := keeps hcd.symm conn
      exact ⟨eo.trans ho, ex.trans hx⟩
    case isFalse => exact ⟨ho, hx⟩

/-- A connection changes without its channel. -/
lemma modifyConn (h : s.Inv) {f : PolledConnection → PolledConnection}
    (hf : ∀ conn, (f conn).opened = conn.opened ∧ (f conn).fd = conn.fd)
    (ho : ∀ conn, (f conn).object = true → conn.object = true)
    (keeps : s.adding = some c ∨ c ∈ s.loop_.left →
      ∀ conn, (f conn).object = conn.object ∧ (f conn).closed = conn.closed) :
    (s.modifyConn c f).Inv where
  distinct hc hc' := h.distinct ((hasFd_modifyConn hf).1 hc) ((hasFd_modifyConn hf).1 hc')
  apart hc := h.apart ((hasFd_modifyConn hf).1 hc)
  objects d conn hd hobj := by
    simp only [PolledLoop.modifyConn, List.getElem?_modify] at hd
    obtain ⟨conn0, h0, e⟩ := Option.map_eq_some_iff.1 hd
    split at e
    case isTrue =>
      subst e
      exact (hf conn0).1.trans (h.objects d conn0 h0 (ho conn0 hobj))
    case isFalse =>
      subst e
      exact h.objects d conn0 h0 hobj
  entries entry he := by
    obtain ⟨ch, e, hc⟩ := h.entries entry he
    exact ⟨ch, e, (hasFd_modifyConn hf).2 hc⟩
  active ch hch := by
    obtain ⟨fd, hc⟩ := h.active ch hch
    exact ⟨fd, (hasFd_modifyConn hf).2 hc⟩
  handled := h.handled
  agree fd := by
    simp only [hasFd_modifyConn hf]
    exact h.agree fd
  launched := h.launched
  adds d hd := by
    obtain ⟨hp, hw, hl⟩ := h.adds d hd
    exact ⟨hp, waits_modifyConn hw fun e => keeps (.inl (e ▸ hd)), hl⟩
  queued d hd := waits_modifyConn (h.queued d hd) fun e => keeps (.inr (e ▸ hd))
  once := h.once

/-! ### The poller -/

/-- Removing a channel keeps the invariant. -/
lemma removeChannel (h : s.Inv) (ha : s.adding = none) (hc : s.HasFd ch fd) : (s.removeChannel fd).Inv := by
  have open_ : s.isOpen fd = true := isOpen_iff.2 (.inl ⟨ch, hc⟩)
  rw [PolledLoop.removeChannel, epollCtlDel, if_pos open_]
  refine { h with entries := ?_, agree := ?_, adds := ?_, queued := ?_ }
  · exact fun entry he => h.entries entry (ChannelMap.mem_erase.1 he).1
  · intro fd'
    have none_inserted : ¬ ∃ c, s.creating = some (.insert c) ∧ s.HasFd (.other c) fd' :=
      fun ⟨c, hins, _⟩ => not_inserting ha hins
    show fd' ∈ s.interest.filter (· ≠ fd) ↔ fd' ∈ (s.fd2channels_.erase fd).keys ∨
      ∃ c, s.creating = some (.insert c) ∧ s.HasFd (.other c) fd'
    rw [or_iff_left none_inserted, List.mem_filter, decide_eq_true_eq, ChannelMap.mem_keys_erase, h.same ha]
  · exact fun c hadd => absurd hadd (not_adds ha)
  · intro c hq
    obtain ⟨hw, he, hx⟩ := h.queued c hq
    exact ⟨hw, fun entry hent => he entry (ChannelMap.mem_erase.1 hent).1, hx⟩

/-- A channel is put into the map under its own fd. -/
lemma entries_assign (h : s.Inv) (hc : s.HasFd ch fd) :
    ∀ entry ∈ s.fd2channels_.assign fd ch, ∃ ch', entry.2 = some ch' ∧ s.HasFd ch' entry.1 := by
  intro entry he
  rcases ChannelMap.mem_assign.1 he with ⟨he, _⟩ | rfl
  · exact h.entries entry he
  · exact ⟨ch, rfl, hc⟩

/-- The other connections go on waiting then. -/
lemma waits_assign (hw : s.Waits d) (hne : d ≠ c) : (s.assign fd (.other c)).Waits d := by
  obtain ⟨hw, he, hx⟩ := hw
  refine ⟨hw, fun entry hent e => ?_, hx⟩
  rcases ChannelMap.mem_assign.1 hent with ⟨hent, _⟩ | rfl
  · exact he entry hent e
  · cases e
    exact hne rfl

/-- Adding the channel of a connection that is to be created keeps the invariant. -/
lemma addChannel (h : s.Inv) (ha : s.adding = none) (hc : s.HasFd (.other c) fd) (hl : c ∉ s.loop_.left) :
    (s.addChannel fd (.other c)).Inv := by
  have open_ : s.isOpen fd = true := isOpen_iff.2 (.inl ⟨_, hc⟩)
  rw [PolledLoop.addChannel, assign, epollCtlAdd, if_pos open_]
  refine { h with entries := h.entries_assign hc, agree := ?_, adds := ?_, queued := ?_ }
  · intro fd'
    have none_inserted : ¬ ∃ c, s.creating = some (.insert c) ∧ s.HasFd (.other c) fd' :=
      fun ⟨c, hins, _⟩ => not_inserting ha hins
    show fd' ∈ s.interest.insert fd ↔ fd' ∈ (s.fd2channels_.assign fd (.other c)).keys ∨
      ∃ c, s.creating = some (.insert c) ∧ s.HasFd (.other c) fd'
    rw [or_iff_left none_inserted, List.mem_insert_iff, ChannelMap.mem_keys_assign, h.same ha, or_comm]
  · exact fun d hadd => absurd hadd (not_adds ha)
  · exact fun d hq => waits_assign (h.queued d hq) (ne_of_mem_of_not_mem hq hl)

/-- Closing a connection keeps the invariant. -/
lemma handleClose (h : s.Inv) (ha : s.adding = none) (hc : s.HasFd (.other c) fd) (hl : c ∉ s.loop_.left)
    (e : s.handleClose c = some s') : s'.Inv := by
  obtain ⟨conn, hconn, e⟩ := Option.bind_eq_some_iff.1 e
  split at e
  case isFalse =>
    cases e
    exact h
  case isTrue =>
    cases e
    obtain ⟨conn', hconn', _, rfl⟩ := hc
    obtain rfl : conn = conn' := Option.some.inj (hconn.symm.trans hconn')
    have open_ : s.HasFd (.other c) conn.fd := ⟨conn, hconn, ‹_›, rfl⟩
    have removed := h.removeChannel ha open_
    have same : (s.removeChannel conn.fd).adding = s.adding ∧ (s.removeChannel conn.fd).loop_ = s.loop_ := by
      rw [PolledLoop.removeChannel, epollCtlDel]
      split <;> exact ⟨rfl, rfl⟩
    refine removed.modifyConn (fun _ => ⟨rfl, rfl⟩) (fun _ ho => ho) ?_
    rintro (hadd | hq)
    · exact absurd (same.1.symm.trans hadd) (not_adds ha)
    · exact absurd (same.2 ▸ hq) hl

/-- A connection that is taken from the queue is created, and its channel is in the poller then. -/
lemma handleCreate (h : s.Inv) (ha : s.adding = none) (hw : s.Waits c) (hl : c ∉ s.loop_.left)
    (e : s.handleCreate c = some s') :
    s'.Inv ∧ s'.adding = none ∧ s'.loop_ = s.loop_ ∧ ∃ fd, s'.HasFd (.other c) fd := by
  obtain ⟨conn, hconn, e⟩ := Option.bind_eq_some_iff.1 e
  split at e
  case isFalse => cases e
  case isTrue =>
    cases e
    have open_ := h.waits_hasFd hw hconn
    have added := h.addChannel ha open_ hl
    have same : (s.addChannel conn.fd (.other c)).adding = s.adding ∧
        (s.addChannel conn.fd (.other c)).loop_ = s.loop_ ∧
        (s.addChannel conn.fd (.other c)).HasFd (.other c) conn.fd := by
      rw [PolledLoop.addChannel, assign, epollCtlAdd]
      split <;> exact ⟨rfl, rfl, open_⟩
    obtain ⟨adding, loop, hc⟩ := same
    refine ⟨added.modifyConn (fun _ => ⟨rfl, rfl⟩) (fun _ ho => ho) fun _ _ => ⟨rfl, rfl⟩, adding.trans ha, loop,
      conn.fd, ?_⟩
    rw [hasFd_modifyConn]
    · exact hc
    · exact fun _ => ⟨rfl, rfl⟩

/-! ### The steps -/

/-- Starting the loop keeps the invariant. -/
lemma startLoop (h : s.Inv) (ha : s.adding = none) {loop : EventLoop Nat Nat Thread}
    (e : s.loop_.step (.startLoop (.io 0)) = some loop) : Inv { s with loop_ := loop } := by
  have launched := h.launched.step e (fun t et => by cases et; rfl) nofun
  have left := (EventLoop.step_left e (by simp) (by simp)).1
  cases EventLoop.step_cases e with
  | startLoop hp =>
    exact h.set_loop nofun launched (left ▸ .refl _) fun c hc => absurd hc (not_adds ha)

/-- Waking the loop up keeps the invariant. -/
lemma wakeup (h : s.Inv) {loop : EventLoop Nat Nat Thread} (e : s.loop_.step (.wakeup .main) = some loop) :
    Inv { s with loop_ := loop } := by
  have launched := h.launched.step e (by simp) (by simp)
  cases EventLoop.step_cases e with
  | wakeup => exact h.set_loop h.handled launched (.refl _) fun c hc => (h.adds c hc).1

/-- Every event of the kernel finds the channel of its fd, and the map stays as it is. -/
lemma collect (h : s.Inv) (ha : s.adding = none) {events : List Nat} (he : ∀ fd ∈ events, fd ∈ s.interest) :
    ∃ active, s.fd2channels_.collect events = some (s.fd2channels_, active) ∧
      List.Forall₂ (fun ch fd => s.HasFd ch fd ∧ (fd, some ch) ∈ s.fd2channels_) active events ∧
      ∀ ch ∈ active, ∃ fd, s.HasFd ch fd ∧ (fd, some ch) ∈ s.fd2channels_ := by
  refine ChannelMap.collect_spec (fun entry hent => ?_) fun fd hfd => (h.same ha).1 (he fd hfd)
  obtain ⟨fd, v⟩ := entry
  obtain ⟨ch, rfl, hc⟩ := h.entries _ hent
  exact ⟨ch, rfl, hc, hent⟩

/-- A poll that reports descriptors of interest keeps the invariant. -/
lemma poll (h : s.Inv) {events : List Nat} (he : ∀ fd ∈ events, fd ∈ s.interest) {fd2channels : ChannelMap}
    {active : List ChannelPtr} {loop : EventLoop Nat Nat Thread}
    (e : s.fd2channels_.collect events = some (fd2channels, active))
    (e' : s.loop_.step (.poll active) = some loop) :
    Inv { s with loop_ := loop, fd2channels_ := fd2channels, active_channels_ := active } := by
  have launched := h.launched.step e' (by simp) (by simp)
  have left := (EventLoop.step_left e' (by simp) (by simp)).1
  cases EventLoop.step_cases e' with
  | poll hp =>
    have ha : s.adding = none := h.not_adding (by simp [hp])
    obtain ⟨active', ec, _, known⟩ := h.collect ha he
    obtain ⟨rfl, rfl⟩ : s.fd2channels_ = fd2channels ∧ active' = active := by
      rw [e] at ec
      cases ec
      exact ⟨rfl, rfl⟩
    refine { h with active := ?_, handled := ?_, launched := launched, adds := ?_, queued := ?_, once := ?_ }
    · intro ch hch
      obtain ⟨fd, hc, _⟩ := known ch hch
      exact ⟨fd, hc⟩
    · intro chs hchs
      cases hchs
      exact List.Subset.refl _
    · exact fun c hadd => absurd hadd (not_adds ha)
    · intro c hq
      rw [left] at hq
      obtain ⟨hw, hent, _⟩ := h.queued c hq
      refine ⟨hw, hent, fun hact => ?_⟩
      obtain ⟨fd, _, hm⟩ := known _ hact
      exact hent _ hm rfl
    · rw [left]
      exact h.once

/-- `active_channels_.clear()`, outside of the loop over them. -/
lemma clear (h : s.Inv) (hp : ∀ chs, s.loop_.phase ≠ .handling chs) : Inv { s with active_channels_ := [] } :=
  { h with
    active := nofun
    handled := fun chs hc => absurd hc (hp chs)
    adds := fun c hc =>
      have ⟨idle, ⟨hw, hent, _⟩, hl⟩ := h.adds c hc
      ⟨idle, ⟨hw, hent, List.not_mem_nil⟩, hl⟩
    queued := fun c hc =>
      have ⟨hw, hent, _⟩ := h.queued c hc
      ⟨hw, hent, List.not_mem_nil⟩ }

/-- A step of the loop keeps the invariant. -/
lemma next (h : s.Inv) {closes : Bool} {loop : EventLoop Nat Nat Thread} (e : s.loop_.step .next = some loop)
    (e' : ({ s with loop_ := loop } : PolledLoop).handle closes s.loop_.phase = some s') : s'.Inv := by
  have hn := EventLoop.next_cases e
  have ha : s.adding = none := h.not_adding hn.running
  have left := hn.left
  have h1 : Inv { s with loop_ := loop } := by
    refine h.set_loop ?_ (h.launched.step e (by simp) (by simp)) (left ▸ List.sublist_append_right ..) ?_
    · intro chs hc
      cases hn with
      | wakeupCallback hp =>
        cases hc
        exact (List.cons_subset.1 (h.handled _ hp)).2
      | handleEvent hp =>
        cases hc
        exact (List.cons_subset.1 (h.handled _ hp)).2
      | _ => cases hc
    · exact fun c hc => absurd hc (not_adds ha)
  unfold handle at e'
  split at e'
  case h_1 hp =>
    cases e'
    refine h1.clear fun chs hc => ?_
    cases hn <;> simp_all
  case h_2 c active hp =>
    split at e'
    case isFalse =>
      cases e'
      exact h1
    case isTrue =>
      have hact : .other c ∈ s.active_channels_ := (List.cons_subset.1 (h.handled _ hp)).1
      obtain ⟨fd, hc⟩ := h.active _ hact
      refine h1.handleClose ha hc (fun hq => ?_) e'
      have hq : c ∈ s.loop_.left := left ▸ List.mem_append_right _ hq
      exact (h.queued c hq).2.2 hact
  case h_3 c rest hp =>
    have first : s.loop_.left = c :: loop.left := by
      rw [left, EventLoop.current, hp]
      rfl
    have hw : s.Waits c := h.queued c (by simp [first])
    have hl : c ∉ loop.left := by
      have nodup := h.once
      rw [first] at nodup
      exact (List.nodup_cons.1 nodup).1
    obtain ⟨s1, e1, e'⟩ := Option.bind_eq_some_iff.1 e'
    obtain ⟨h2, ha2, hl2, fd, hc⟩ := h1.handleCreate ha hw hl e1
    split at e'
    case isTrue =>
      refine h2.handleClose ha2 hc ?_ e'
      rw [hl2]
      exact hl
    case isFalse =>
      cases e'
      exact h2
  case h_4 =>
    cases e'
    exact h1

/-- A connection that waits was accepted. -/
lemma waits_lt (hw : s.Waits c) : c < s.conns.length := by
  obtain ⟨⟨conn, hc, _⟩, _⟩ := hw
  exact (List.getElem?_eq_some_iff.1 hc).1

/-- What waits goes on waiting. -/
lemma waits_newConn (hw : s.Waits c) : (s.newConn fd).Waits c := by
  obtain ⟨⟨conn, hc, hobj⟩, hent⟩ := hw
  refine ⟨⟨conn, ?_, hobj⟩, hent⟩
  exact (List.getElem?_append_left (List.getElem?_eq_some_iff.1 hc).1).trans hc

/-- A new connection waits, and no task is of it. -/
lemma newConn_waits (h : s.Inv) : (s.newConn fd).Waits s.conns.length ∧ s.conns.length ∉ s.loop_.left := by
  have new : ∀ fd', ¬ s.HasFd (.other s.conns.length) fd' := fun fd' hc => Nat.lt_irrefl _ hc.lt
  refine ⟨⟨⟨_, List.getElem?_concat_length, rfl, rfl⟩, fun entry hent e => ?_, fun hact => ?_⟩, fun hq => ?_⟩
  · obtain ⟨ch, ech, hc⟩ := h.entries entry hent
    rw [ech] at e
    cases e
    exact new _ hc
  · obtain ⟨fd', hc⟩ := h.active _ hact
    exact new _ hc
  · exact Nat.lt_irrefl _ (waits_lt (h.queued _ hq))

/-- A connection with an fd that was not open. -/
lemma newConn (h : s.Inv) (unused : ¬ s.isOpen fd = true) : (s.newConn fd).Inv := by
  rw [isOpen_iff, not_or, not_exists] at unused
  obtain ⟨unused, apart⟩ := unused
  have old {ch : ChannelPtr} {fd' : Nat} (hc : s.HasFd ch fd') : (s.newConn fd).HasFd ch fd' :=
    hasFd_newConn.2 (.inl hc)
  refine { h with
    distinct := ?_, apart := ?_, objects := ?_, entries := ?_, active := ?_, agree := ?_, adds := ?_, queued := ?_ }
  · intro ch ch' fd' hc hc'
    rcases hasFd_newConn.1 hc with was | ⟨rfl, e⟩
    · rcases hasFd_newConn.1 hc' with was' | ⟨_, e⟩
      · exact h.distinct was was'
      · exact absurd (e ▸ was) (unused _)
    · rcases hasFd_newConn.1 hc' with was' | ⟨rfl, _⟩
      · exact absurd (e ▸ was') (unused _)
      · rfl
  · intro ch fd' hc
    rcases hasFd_newConn.1 hc with hc | ⟨_, rfl⟩
    · exact h.apart hc
    · exact apart
  · intro c conn hc hobj
    rw [PolledLoop.newConn, List.getElem?_append] at hc
    split at hc
    case isTrue => exact h.objects c conn hc hobj
    case isFalse =>
      obtain rfl := List.mem_singleton.1 (List.mem_of_getElem? hc)
      rfl
  · intro entry he
    obtain ⟨ch, e, hc⟩ := h.entries entry he
    exact ⟨ch, e, old hc⟩
  · intro ch hch
    obtain ⟨fd', hc⟩ := h.active ch hch
    exact ⟨fd', old hc⟩
  · intro fd'
    rw [PolledLoop.newConn, h.agree]
    refine or_congr_right ⟨?_, ?_⟩
    · rintro ⟨c, hins, hc⟩
      exact ⟨c, hins, old hc⟩
    · rintro ⟨c, hins, hc⟩
      rcases hasFd_newConn.1 hc with was | ⟨e, _⟩
      · exact ⟨c, hins, was⟩
      · cases e
        have hadd : s.adding = some s.conns.length := by
          have : s.creating = some (.insert s.conns.length) := hins
          simp [adding, this]
        exact absurd (waits_lt (h.adds _ hadd).2.1) (Nat.lt_irrefl _)
  · intro c hc
    obtain ⟨idle, hw, hl⟩ := h.adds c hc
    exact ⟨idle, waits_newConn hw, hl⟩
  · exact fun c hc => waits_newConn (h.queued c hc)

/-- The main thread queues the task of a new connection or begins with it itself. -/
lemma runInLoop (h : s.Inv) (idle : s.creating = none) (hw : s.Waits c) (hl : c ∉ s.loop_.left)
    (e : s.runInLoop c = some s') : s'.Inv := by
  obtain ⟨loop, e1, e⟩ := Option.bind_eq_some_iff.1 e
  cases e
  obtain ⟨left, _, phase, _⟩ := EventLoop.step_runInLoop e1
  have launched := h.launched.step e1 (by simp) (by simp)
  have ha : s.adding = none := by simp [adding, idle]
  split
  case isTrue hmain =>
    rw [if_pos hmain, List.append_nil] at left
    have stopped : s.loop_.phase = .stopped := by
      by_contra running
      rw [(h.launched.busy running).1] at hmain
      cases hmain
    refine { h with handled := ?_, agree := ?_, launched := launched, adds := ?_, queued := ?_, once := ?_ }
    · rw [phase]
      exact h.handled
    · intro fd
      rw [h.same ha, or_iff_left]
      rintro ⟨d, hd, _⟩
      cases hd
    · intro d hd
      cases hd
      exact ⟨phase.trans stopped, hw, left ▸ hl⟩
    · rw [left]
      exact h.queued
    · rw [left]
      exact h.once
  case isFalse hmain =>
    rw [if_neg hmain] at left
    refine { h with handled := ?_, agree := ?_, launched := launched, adds := nofun, queued := ?_, once := ?_ }
    · rw [phase]
      exact h.handled
    · intro fd
      rw [h.same ha, or_iff_left]
      rintro ⟨d, hd, _⟩
      cases hd
    · intro d hd
      rw [left] at hd
      rcases List.mem_append.1 hd with hd | hd
      · exact h.queued d hd
      · obtain rfl := List.mem_singleton.1 hd
        exact hw
    · rw [left, ← List.concat_eq_append]
      exact .concat hl h.once

/-- Accepting a connection keeps the invariant. -/
lemma accept (h : s.Inv) (e : s.accept fd = some s') : s'.Inv := by
  unfold PolledLoop.accept at e
  split at e
  case isTrue => cases e
  case isFalse closed =>
    rw [not_or, not_not] at closed
    obtain ⟨hw, hl⟩ := h.newConn_waits
    exact (h.newConn closed.1).runInLoop closed.2 hw hl e

/-- The main thread registers the fd in the kernel. -/
lemma create_ctl (h : s.Inv) (hcr : s.creating = some (.ctl c)) (hc : s.HasFd (.other c) fd) :
    Inv { s with interest := s.interest.insert fd, creating := some (.insert c) } := by
  have hadd : s.adding = some c := by simp [adding, hcr]
  refine { h with agree := ?_, adds := ?_ }
  · intro fd'
    have before : fd' ∈ s.interest ↔ fd' ∈ s.fd2channels_.keys := by
      rw [h.agree, or_iff_left]
      rintro ⟨d, hd, _⟩
      rw [hcr] at hd
      cases hd
    have new : (∃ d, some (Creating.insert c) = some (.insert d) ∧ s.HasFd (.other d) fd') ↔ fd' = fd := by
      constructor
      · rintro ⟨d, hd, hfd⟩
        cases hd
        exact hfd.unique hc
      · rintro rfl
        exact ⟨c, rfl, hc⟩
    show fd' ∈ s.interest.insert fd ↔ fd' ∈ s.fd2channels_.keys ∨
      ∃ d, some (Creating.insert c) = some (.insert d) ∧ s.HasFd (.other d) fd'
    rw [new, List.mem_insert_iff, before, or_comm]
  · intro d hd
    cases hd
    exact h.adds c hadd

/-- The main thread puts the channel into the map. -/
lemma create_insert (h : s.Inv) (hcr : s.creating = some (.insert c)) (hc : s.HasFd (.other c) fd) :
    Inv { s.assign fd (.other c) with creating := some (.status c) } := by
  have hadd : s.adding = some c := by simp [adding, hcr]
  obtain ⟨_, _, hl⟩ := h.adds c hadd
  refine { h with entries := h.entries_assign hc, agree := ?_, adds := nofun, queued := ?_ }
  · intro fd'
    have before : fd' ∈ s.interest ↔ fd' ∈ s.fd2channels_.keys ∨ fd' = fd := by
      rw [h.agree]
      refine or_congr_right ⟨?_, ?_⟩
      · rintro ⟨d, hd, hfd⟩
        rw [hcr] at hd
        cases hd
        exact hfd.unique hc
      · rintro rfl
        exact ⟨c, hcr, hc⟩
    have none_inserted : ¬ ∃ d, some (Creating.status c) = some (.insert d) ∧ s.HasFd (.other d) fd' := by
      rintro ⟨d, hd, _⟩
      cases hd
    show fd' ∈ s.interest ↔ fd' ∈ (s.fd2channels_.assign fd (.other c)).keys ∨
      ∃ d, some (Creating.status c) = some (.insert d) ∧ s.HasFd (.other d) fd'
    rw [or_iff_left none_inserted, ChannelMap.mem_keys_assign, before]
  · exact fun d hq => waits_assign (h.queued d hq) (ne_of_mem_of_not_mem hq hl)

/-- The main thread is done with the poller. -/
lemma create_status (h : s.Inv) (hcr : s.creating = some (.status c)) : Inv { s with creating := none } := by
  refine { h with agree := ?_, adds := nofun }
  intro fd
  rw [h.agree]
  refine or_congr_right ⟨?_, nofun⟩
  rintro ⟨d, hd, _⟩
  rw [hcr] at hd
  cases hd

/-- Creating a connection keeps the invariant. -/
lemma create (h : s.Inv) (e : s.create = some s') : s'.Inv := by
  -- the channel of the connection is open while the main thread adds it
  have hasFd {c : Nat} {conn : PolledConnection} (hadd : s.adding = some c) (hconn : s.conns[c]? = some conn) :
      s.HasFd (.other c) conn.fd := h.waits_hasFd (h.adds c hadd).2.1 hconn
  unfold PolledLoop.create at e
  split at e
  case h_1 => cases e
  case h_2 c hcr =>
    obtain ⟨conn, hconn, e⟩ := Option.bind_eq_some_iff.1 e
    cases e
    have hc := hasFd (by simp [adding, hcr]) hconn
    rw [epollCtlAdd, if_pos (isOpen_iff.2 (.inl ⟨_, hc⟩))]
    exact h.create_ctl hcr hc
  case h_3 c hcr =>
    obtain ⟨conn, hconn, e⟩ := Option.bind_eq_some_iff.1 e
    cases e
    exact h.create_insert hcr (hasFd (by simp [adding, hcr]) hconn)
  case h_4 c hcr =>
    cases e
    have h1 : (s.modifyConn c fun conn => { conn with status_ := .kConnected }).Inv :=
      h.modifyConn (fun _ => ⟨rfl, rfl⟩) (fun _ ho => ho) fun _ _ => ⟨rfl, rfl⟩
    exact h1.create_status hcr

/-- A channel without an owner goes, and with it its fd. -/
lemma destroy (h : s.Inv) {conn : PolledConnection} (hc : s.conns[c]? = some conn) (ho : conn.opened = true)
    (hown : s.owned c = false) :
    Inv { s.modifyConn c fun conn => { conn with opened := false } with
      interest := s.interest.filter (· ≠ conn.fd) } := by
  simp only [owned, hc, Option.any_some, Bool.or_eq_false_iff, List.any_eq_false, decide_eq_true_eq,
    List.contains_eq_mem, decide_eq_false_iff_not] at hown
  obtain ⟨⟨hobj, hent⟩, hact⟩ := hown
  have was : s.HasFd (.other c) conn.fd := ⟨conn, hc, ho, rfl⟩
  have gone {l : List Nat} {ch : ChannelPtr} {fd : Nat} :
      HasFd { s.modifyConn c fun conn => { conn with opened := false } with interest := l } ch fd
        ↔ s.HasFd ch fd ∧ ch ≠ .other c := hasFd_close
  -- a connection that waits has its object
  have waits {l : List Nat} {d : Nat} (hw : s.Waits d) :
      Waits { s.modifyConn c fun conn => { conn with opened := false } with interest := l } d := by
    have := waits_modifyConn (c := c) (f := fun conn => { conn with opened := false }) hw fun _ _ => ⟨rfl, rfl⟩
    exact this
  refine { h with
    distinct := ?_, apart := ?_, objects := ?_, entries := ?_, active := ?_, agree := ?_, adds := ?_, queued := ?_ }
  · exact fun hc hc' => h.distinct (gone.1 hc).1 (gone.1 hc').1
  · exact fun hc => h.apart (gone.1 hc).1
  · intro d conn' hd hobj'
    simp only [PolledLoop.modifyConn, List.getElem?_modify] at hd
    obtain ⟨conn0, h0, e⟩ := Option.map_eq_some_iff.1 hd
    split at e
    case isTrue hcd =>
      subst e hcd
      obtain rfl : conn = conn0 := Option.some.inj (hc.symm.trans h0)
      exact absurd hobj' (by simp [hobj])
    case isFalse =>
      subst e
      exact h.objects d conn0 h0 hobj'
  · intro entry he
    obtain ⟨ch, e, hch⟩ := h.entries entry he
    refine ⟨ch, e, gone.2 ⟨hch, ?_⟩⟩
    rintro rfl
    exact hent entry he e
  · intro ch hch
    obtain ⟨fd, hfd⟩ := h.active ch hch
    refine ⟨fd, gone.2 ⟨hfd, ?_⟩⟩
    rintro rfl
    exact hact hch
  · intro fd
    -- the fd was not in the map, where it would be an entry of this channel
    have unkeyed : fd ∈ s.fd2channels_.keys → fd ≠ conn.fd := by
      rintro hk rfl
      obtain ⟨v, hv⟩ := ChannelMap.mem_keys.1 hk
      exact hent _ hv (h.entry_unique was hv rfl)
    show fd ∈ s.interest.filter (· ≠ conn.fd) ↔ fd ∈ s.fd2channels_.keys ∨ _
    rw [List.mem_filter, decide_eq_true_eq, h.agree]
    constructor
    · rintro ⟨hk | ⟨d, hins, hd⟩, hne⟩
      · exact .inl hk
      · refine .inr ⟨d, hins, gone.2 ⟨hd, ?_⟩⟩
        rintro e
        cases e
        exact hne (hd.unique was)
    · rintro (hk | ⟨d, hins, hd⟩)
      · exact ⟨.inl hk, unkeyed hk⟩
      · obtain ⟨hd, hne⟩ := gone.1 hd
        refine ⟨.inr ⟨d, hins, hd⟩, ?_⟩
        rintro rfl
        exact hne (h.distinct hd was)
  · intro d hd
    obtain ⟨idle, hw, hl⟩ := h.adds d hd
    exact ⟨idle, waits hw, hl⟩
  · exact fun d hd => waits (h.queued d hd)

end Inv

/-- The IO thread does not enter `startLoop` while the main thread is in `addChannel` of its poller. -/
def Settled (s : PolledLoop) : Move → Prop
  | .startLoop => s.adding = none
  | _ => True

/-- Every settled move keeps the invariant. -/
lemma Inv.step (h : s.Inv) {m : Move} (settled : s.Settled m) (e : s.step m = some s') : s'.Inv := by
  cases m with
  | startLoop =>
    obtain ⟨loop, e1, e⟩ := Option.bind_eq_some_iff.1 e
    cases e
    exact h.startLoop settled e1
  | poll events =>
    simp only [PolledLoop.step] at e
    split at e
    case isFalse => cases e
    case isTrue he =>
      obtain ⟨⟨fd2channels, active⟩, e1, e⟩ := Option.bind_eq_some_iff.1 e
      obtain ⟨loop, e2, e⟩ := Option.bind_eq_some_iff.1 e
      cases e
      have inside : ∀ fd ∈ events, fd ∈ s.interest := by simpa using he
      exact h.poll inside e1 e2
  | next closes =>
    obtain ⟨loop, e1, e⟩ := Option.bind_eq_some_iff.1 e
    exact h.next e1 e
  | accept fd => exact h.accept e
  | create => exact h.create e
  | wakeup =>
    obtain ⟨loop, e1, e⟩ := Option.bind_eq_some_iff.1 e
    cases e
    exact h.wakeup e1
  | release c =>
    obtain ⟨conn, hc, e⟩ := Option.bind_eq_some_iff.1 e
    split at e
    case isFalse => cases e
    case isTrue hclosed =>
      cases e
      refine h.modifyConn (fun _ => ⟨rfl, rfl⟩) (fun _ => nofun) fun waits => ?_
      -- a connection that waits was not closed
      have hw : s.Waits c := waits.elim (fun ha => (h.adds c ha).2.1) (h.queued c)
      obtain ⟨⟨conn', hc', _, hopen⟩, _⟩ := hw
      obtain rfl : conn = conn' := Option.some.inj (hc.symm.trans hc')
      rw [hclosed] at hopen
      cases hopen
  | destroy c =>
    obtain ⟨conn, hc, e⟩ := Option.bind_eq_some_iff.1 e
    split at e
    case isFalse => cases e
    case isTrue hd =>
      cases e
      exact h.destroy hc hd.1 hd.2
  | openOther fd =>
    simp only [PolledLoop.step] at e
    split at e
    case isTrue => cases e
    case isFalse unused =>
      cases e
      rw [isOpen_iff, not_or, not_exists] at unused
      refine { h with apart := ?_ }
      intro ch fd' hc hm
      rcases List.mem_cons.1 hm with rfl | hm
      · exact unused.1 ch hc
      · exact h.apart hc hm
  | closeOther fd =>
    cases e
    exact { h with apart := fun hc hm => h.apart hc (List.mem_filter.1 hm).1 }

/-! ## The two sets apart -/

/-- The poll of the loop finds an fd in the kernel that is not in the map. -/
def Astray (s : PolledLoop) : Prop := s.loop_.phase = .polling ∧ ∃ fd ∈ s.interest, fd ∉ s.fd2channels_.keys

/-- A connection whose `addChannel` is not done is not in the map. -/
lemma Inv.unkeyed (h : s.Inv) (hw : s.Waits c) (hc : s.HasFd (.other c) fd) : fd ∉ s.fd2channels_.keys := by
  intro hk
  obtain ⟨v, hv⟩ := ChannelMap.mem_keys.1 hk
  exact hw.2.1 _ hv (h.entry_unique hc hv rfl)

/-- The loop after `startLoop`. -/
def entered (s : PolledLoop) : PolledLoop :=
  { s with loop_ := { s.loop_ with looping_ := true, thread_id_ := .io 0, phase := .check } }

/-- The first half of the `addChannel` of the main thread. -/
lemma create_eq (hcr : s.creating = some (.ctl c)) {conn : PolledConnection} (hconn : s.conns[c]? = some conn)
    (hc : s.HasFd (.other c) conn.fd) :
    s.create = some { s with interest := s.interest.insert conn.fd, creating := some (.insert c) } := by
  have open_ : s.isOpen conn.fd = true := isOpen_iff.2 (.inl ⟨_, hc⟩)
  rw [create, hcr]
  show (s.conns[c]?.bind fun conn => some { s.epollCtlAdd conn.fd with creating := some (.insert c) }) = _
  rw [hconn, Option.bind_some, epollCtlAdd, if_pos open_]

/-- The IO thread enters its loop while the main thread is in `addChannel`, and comes to its poll between the two
    halves of it. -/
lemma Inv.astray (h : s.Inv) (hadd : s.adding = some c) :
    ∃ ms s', (Move.startLoop :: ms).foldlM PolledLoop.step s = some s' ∧ s'.Astray := by
  obtain ⟨idle, hw, _⟩ := h.adds c hadd
  obtain ⟨conn, hconn, _⟩ := hw.1
  have hc := h.waits_hasFd hw hconn
  have enters : s.step .startLoop = some s.entered := by
    simp [PolledLoop.step, EventLoop.step, idle, entered]
  unfold adding at hadd
  split at hadd
  case h_1 hcr =>
    cases hadd
    have adds : s.entered.step .create = some { s.entered with
        interest := s.interest.insert conn.fd, creating := some (.insert c) } :=
      @create_eq s.entered c hcr conn hconn hc
    have run : [Move.startLoop, .create, .next false].foldlM PolledLoop.step s = some { s.entered with
        loop_ := { s.entered.loop_ with phase := .polling }
        active_channels_ := []
        interest := s.interest.insert conn.fd
        creating := some (.insert c) } := by
      rw [List.foldlM_cons, enters, Option.bind_eq_bind, Option.bind_some, List.foldlM_cons, adds]
      rfl
    exact ⟨_, _, run, rfl, conn.fd, List.mem_insert_self, h.unkeyed hw hc⟩
  case h_2 hcr =>
    cases hadd
    have run : [Move.startLoop, .next false].foldlM PolledLoop.step s = some { s.entered with
        loop_ := { s.entered.loop_ with phase := .polling }
        active_channels_ := [] } := by
      rw [List.foldlM_cons, enters]
      rfl
    exact ⟨_, _, run, rfl, conn.fd, (h.agree _).2 (.inr ⟨c, hcr, hc⟩), h.unkeyed hw hc⟩
  case h_3 => cases hadd

/-- In every run of an IO loop, with any connections opened and closed in any order and their fds used again, in
    which the IO thread does not enter `startLoop` while the main thread is in `addChannel` of its poller: when the
    loop is in its poll, the keys of the map are the fds of the epoll instance, each is the open fd of its own
    channel, and whatever events the kernel reports find their channels without a new entry. A thread that enters
    `startLoop` at another time can come to poll with the two sets apart. -/
theorem poller_agrees_with_kernel (wakeup_fd : Nat) (ms : List Move) (s : PolledLoop)
    (run : Steps Settled step (new wakeup_fd) ms s) :
    (s.loop_.phase = .polling →
      (∀ fd, fd ∈ s.fd2channels_.keys ↔ fd ∈ s.interest) ∧
      (∀ entry ∈ s.fd2channels_, ∃ ch, entry.2 = some ch ∧ s.HasFd ch entry.1) ∧
      ∀ events, (∀ fd ∈ events, fd ∈ s.interest) →
        ∃ active, s.fd2channels_.collect events = some (s.fd2channels_, active) ∧
          List.Forall₂ s.HasFd active events) ∧
    ∀ m, ¬ s.Settled m → (s.step m).isSome = true →
      ∃ ms' s', (m :: ms').foldlM step s = some s' ∧ s'.Astray := by
  have inv : s.Inv := run.inv (fun h settled e => h.step settled e) .new
  refine ⟨fun hp => ?_, fun m disturbed _ => ?_⟩
  · have ha : s.adding = none := inv.not_adding (by simp [hp])
    refine ⟨fun fd => (inv.same ha).symm, inv.entries, fun events he => ?_⟩
    obtain ⟨active, e, found, _⟩ := inv.collect ha he
    exact ⟨active, e, found.imp fun _ _ hc => hc.1⟩
  · cases m with
    | startLoop =>
      obtain ⟨c, hadd⟩ := Option.ne_none_iff_exists'.1 disturbed
      exact inv.astray hadd
    | _ => exact absurd trivial disturbed

/-- A connection is accepted and created, its peer hangs up, its object and its channel go, and the next connection
    gets the same fd. -/
def fdReused : List Move :=
  [.startLoop, .next false, .accept 7, .wakeup, .poll [5], .next false, .next false, .next false, .next false,
    .next false, .poll [7], .next true, .release 0, .next false, .next false, .next false, .destroy 0, .accept 7,
    .wakeup, .poll [5], .next false, .next false, .next false, .next false, .next false]

/-- A descriptor is closed, handed out again and polled. -/
theorem poller_agrees_with_kernel_fd_reused :
    ∃ s, Steps Settled step (new 5) fdReused s ∧ s.loop_.phase = .polling ∧ 7 ∈ s.interest ∧
      (∀ fd, fd ∈ s.fd2channels_.keys ↔ fd ∈ s.interest) ∧
      ∃ active, s.fd2channels_.collect [7] = some (s.fd2channels_, active) ∧ List.Forall₂ s.HasFd active [7] := by
  have ends : (fdReused.foldlM step (new 5)).map (fun s => (s.loop_.phase, s.interest))
      = some (.polling, [7, 5]) := by decide
  obtain ⟨s, run, es⟩ := Option.map_eq_some_iff.1 ends
  simp only [Prod.mk.injEq] at es
  obtain ⟨hp, hi⟩ := es
  have steps : Steps Settled step (new 5) fdReused s := by
    rw [fdReused, List.foldlM_cons] at run
    obtain ⟨s1, e1, rest⟩ := Option.bind_eq_some_iff.1 run
    exact .cons rfl e1 (.of_foldlM (by simp [Settled]) rest)
  obtain ⟨same, _, found⟩ := (poller_agrees_with_kernel 5 _ s steps).1 hp
  exact ⟨s, steps, hp, by simp [hi], same, found [7] (by simp [hi])⟩

/-- The main thread has registered the fd of a new connection when the IO thread enters its loop and polls. -/
def polledEarly : List Move := [.accept 7, .create, .startLoop, .next false]

/-- The kernel reports the fd, and the poller dereferences an empty `ChannelPtr`. -/
theorem poll_finds_no_channel :
    ∃ s, polledEarly.foldlM step (new 5) = some s ∧ s.loop_.phase = .polling ∧ s.interest = [7, 5] ∧
      s.fd2channels_.keys = [5] ∧ s.fd2channels_.subscript 7 = (s.fd2channels_ ++ [(7, none)], none) ∧
      s.fd2channels_.collect [7] = none := by
  have ends : (polledEarly.foldlM step (new 5)).map (fun s => (s.loop_.phase, s.interest, s.fd2channels_))
      = some (.polling, [7, 5], [(5, some .wakeup)]) := by decide
  obtain ⟨s, run, es⟩ := Option.map_eq_some_iff.1 ends
  simp only [Prod.mk.injEq] at es
  obtain ⟨hp, hi, hm⟩ := es
  refine ⟨s, run, hp, hi, ?_⟩
  rw [hm]
  decide

end PolledLoop

end WebServer.Net
