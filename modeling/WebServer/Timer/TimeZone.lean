import WebServer.Lib.Timeline
import WebServer.Log.LogStream
import WebServer.Timer.UtcTime

/-!
# Time zones

Model of `timer/time_zone.{h,cc}` without the reading of files: a time zone is a table of transitions between
kinds of local time, and `toLocalTime` and `fromLocalTime` look up in it which kind is in force.

A null `data_` is `none`. An index outside of a vector, `front` of an empty one and `std::lower_bound` on a range
that is not partitioned are undefined, as is an assertion that does not hold.

In a well-formed table (`Data.WellFormed`) the lookup finds the kind of local time in force
(`WellFormed.findLocaltime_eq`), by UTC and by the clock.
-/

namespace WebServer.Timer

open Net Log Lib

/-- `struct Transition` -/
structure Transition where
  gmttime : Int
  localtime : Int
  localtimeIdx : Int
deriving DecidableEq, Repr

/-- `struct Comp` -/
structure Comp where
  compareGmt : Bool

namespace Comp

/-- `Comp::operator()` -/
def less (comp : Comp) (lhs rhs : Transition) : Bool :=
  if comp.compareGmt then lhs.gmttime < rhs.gmttime else lhs.localtime < rhs.localtime

/-- `Comp::equal` -/
def equal (comp : Comp) (lhs rhs : Transition) : Bool :=
  if comp.compareGmt then lhs.gmttime = rhs.gmttime else lhs.localtime = rhs.localtime

end Comp

/-- `struct Localtime` -/
structure Localtime where
  gmtOffset : Int
  isDst : Bool
  arrbIdx : Int
deriving DecidableEq, Repr

/-- `struct TimeZone::Data`; nothing uses `names`. -/
structure Data where
  transitions : List Transition
  localtimes : List Localtime
  abbreviation : Bytes
deriving DecidableEq, Repr

/-- `v[i]` -/
def subscript {α : Type} (v : List α) (i : Int) : Option α := if 0 ≤ i then v[i.toNat]? else none

/-- `std::lower_bound` with `comp(element, value)` as `before`: the first position where it is false. -/
def lower_bound {α : Type} (range : List α) (before : α → Bool) : Option Nat :=
  if range.Pairwise (fun x y => before y → before x) then some (range.findIdx fun x => !before x) else none

/-- `findLocaltime` -/
def findLocaltime (data : Data) (sentry : Transition) (comp : Comp) : Option Localtime :=
  match data.transitions with
  | [] => data.localtimes.head?
  | front :: _ =>
    if comp.less sentry front then
      data.localtimes.head?
    else do
      let transI ← lower_bound data.transitions (comp.less · sentry)
      match data.transitions[transI]? with
      | some transition =>
        if comp.equal sentry transition then
          subscript data.localtimes transition.localtimeIdx
        else if transI = 0 then
          none
        else
          subscript data.localtimes (← data.transitions[transI - 1]?).localtimeIdx
      | none => subscript data.localtimes (← data.transitions.getLast?).localtimeIdx

/-- `gmtime_r`. If the year is not an `int` the result is left as it is, where the C library has written the hour, the
    minute, the second and the weekday by then; such a time is not `Representable`. -/
def gmtime_r (t : Int) (result : Tm) : Tm := if IntType.int.Fits (gmtime t).tm_year then gmtime t else result

/-- `class TimeZone` -/
structure TimeZone where
  data_ : Option Data
deriving DecidableEq, Repr

namespace TimeZone

/-- `TimeZone::TimeZone()` -/
def invalid : TimeZone := ⟨none⟩

/-- `TimeZone::TimeZone(int eastOfUtc, const char* tzname)` -/
def fixed (eastOfUtc : Int) (name : Bytes) : TimeZone := ⟨some ⟨[], [⟨eastOfUtc, false, 0⟩], cstr name⟩⟩

/-- `TimeZone::valid` -/
def valid (tz : TimeZone) : Bool := tz.data_.isSome

/-- `TimeZone::toLocalTime` -/
def toLocalTime (tz : TimeZone) (seconds : Int) : Option Tm := do
  let data ← tz.data_
  let found ← findLocaltime data ⟨seconds, 0, 0⟩ ⟨true⟩
  let localSeconds ← IntType.long.result (seconds + found.gmtOffset)
  let localTime := gmtime_r localSeconds .zero
  -- `operator[]` of a string allows the position after its end
  let name ← if 0 ≤ found.arrbIdx ∧ found.arrbIdx ≤ data.abbreviation.length then
      some (cstr (data.abbreviation.drop found.arrbIdx.toNat))
    else
      none
  some { localTime with
    tm_isdst := if found.isDst then 1 else 0
    tm_gmtoff := found.gmtOffset
    tm_zone := some name }

/-- The correction in `fromLocalTime` for a daylight saving time. -/
def correctDst (tz : TimeZone) (localTm : Tm) (found : Localtime) (seconds : Int) : Option Int :=
  if localTm.tm_isdst ≠ 0 then do
    let tryTm ← tz.toLocalTime (← IntType.long.result (seconds - found.gmtOffset))
    if tryTm.tm_isdst = 0 ∧ tryTm.tm_hour = localTm.tm_hour ∧ tryTm.tm_min = localTm.tm_min then
      IntType.long.result (seconds - 3600)
    else
      some seconds
  else
    some seconds

/-- `TimeZone::fromLocalTime` -/
def fromLocalTime (tz : TimeZone) (localTm : Tm) : Option Int := do
  let data ← tz.data_
  let found ← findLocaltime data ⟨0, timegm localTm, 0⟩ ⟨false⟩
  let seconds ← tz.correctDst localTm found (timegm localTm)
  IntType.long.result (seconds - found.gmtOffset)

end TimeZone

/-! ## The lookup -/

/-- The time of a transition that is compared. -/
def Comp.key (comp : Comp) (transition : Transition) : Int :=
  if comp.compareGmt then transition.gmttime else transition.localtime

/-- Transitions are compared by the key. -/
lemma Comp.less_iff {comp : Comp} {x y : Transition} : comp.less x y = true ↔ comp.key x < comp.key y := by
  unfold less key
  split <;> exact decide_eq_true_iff

/-- Transitions are equal if the keys are. -/
lemma Comp.equal_iff {comp : Comp} {x y : Transition} : comp.equal x y = true ↔ comp.key x = comp.key y := by
  unfold equal key
  split <;> exact decide_eq_true_iff

section Lookup

variable {α : Type} {first : α} {key : Transition → Int} {value : Transition → α} {x : Int}
  {transitions : List Transition}

/-- The value of the transition that `findLocaltime` takes: that of the first key not below `x` if the key is `x`,
    and of the one before it otherwise. -/
def located (first : α) (key : Transition → Int) (value : Transition → α) (x : Int) (transitions : List Transition) :
    α :=
  match transitions[transitions.findIdx fun tr => !decide (key tr < x)]? with
  | some tr =>
    if x = key tr then value tr
    else (transitions[(transitions.findIdx fun tr => !decide (key tr < x)) - 1]?).elim first value
  | none => transitions.getLast?.elim first value

/-- A transition before the last one that is not after `x` makes no difference. -/
lemma located_cons {tr tr' : Transition} (lt : key tr < x) (le : key tr' ≤ x) :
    located first key value x (tr :: tr' :: transitions) = located (value tr) key value x (tr' :: transitions) := by
  have idx : (tr :: tr' :: transitions).findIdx (fun tr => !decide (key tr < x)) =
      (tr' :: transitions).findIdx (fun tr => !decide (key tr < x)) + 1 := by
    rw [List.findIdx_cons]
    simp [lt]
  unfold located
  rw [idx, List.getElem?_cons_succ, Nat.add_sub_cancel, List.getLast?_cons_cons]
  by_cases here : key tr' < x
  · have idx' : (tr' :: transitions).findIdx (fun tr => !decide (key tr < x)) =
        transitions.findIdx (fun tr => !decide (key tr < x)) + 1 := by
      rw [List.findIdx_cons]
      simp [here]
    rw [idx', List.getElem?_cons_succ, Nat.add_sub_cancel, List.getElem?_cons_succ]
    have bound : transitions.findIdx (fun tr => !decide (key tr < x)) < (tr' :: transitions).length :=
      Nat.lt_succ_of_le List.findIdx_le_length
    rw [List.getElem?_eq_getElem bound]
    split
    · rfl
    · rw [List.getLast?_cons]
      rfl
  · have idx' : (tr' :: transitions).findIdx (fun tr => !decide (key tr < x)) = 0 := by
      rw [List.findIdx_cons]
      simp [here]
    rw [idx', List.getElem?_cons_zero]
    dsimp only
    rw [if_pos (by omega), if_pos (by omega)]

/-- It is the last transition that is not after `x`. -/
lemma located_eq (sorted : transitions.Pairwise fun x y => key x < key y)
    (started : ∀ tr, transitions.head? = some tr → key tr ≤ x) :
    located first key value x transitions = inForce first (transitions.map fun tr => (key tr, value tr)) x := by
  induction transitions generalizing first with
  | nil => rfl
  | cons tr transitions ih =>
    have le : key tr ≤ x := started tr rfl
    have ⟨before, sorted'⟩ := List.pairwise_cons.1 sorted
    have passed : inForce first ((tr :: transitions).map fun tr => (key tr, value tr)) x =
        inForce (value tr) (transitions.map fun tr => (key tr, value tr)) x := if_pos le
    rw [passed]
    cases transitions with
    | nil =>
      unfold located
      rw [List.findIdx_cons]
      by_cases lt : key tr < x
      · simp [lt, inForce]
      · simp [inForce, show x = key tr by omega]
    | cons tr' transitions =>
      have lt := before tr' (by simp)
      by_cases le' : key tr' ≤ x
      · rw [located_cons (by omega) le']
        exact ih sorted' (by rintro _ ⟨⟩; exact le')
      · have stop : inForce (value tr) ((tr' :: transitions).map fun tr => (key tr, value tr)) x = value tr :=
          if_neg le'
        rw [stop]
        unfold located
        rw [List.findIdx_cons, List.findIdx_cons]
        by_cases lt : key tr < x
        · simp [lt, show ¬key tr' < x by omega, show x ≠ key tr' by omega]
        · simp [show x = key tr by omega]

end Lookup

/-! ## Well-formed tables -/

namespace Data

/-- The kind of local time that a transition starts. -/
def kind (data : Data) (first : Localtime) (transition : Transition) : Localtime :=
  (subscript data.localtimes transition.localtimeIdx).getD first

/-- The kinds of local time in force, with the times in UTC from which they are. -/
def changes (data : Data) (first : Localtime) : List (Int × Localtime) :=
  data.transitions.map fun tr => (tr.gmttime, data.kind first tr)

/-- A table that can be looked up in: every index is in its range, the transitions are in order by UTC and by the
    clock, and their local times are those that the clock shows after them. -/
structure WellFormed (data : Data) (first : Localtime) : Prop where
  front : data.localtimes.head? = some first
  index : ∀ tr ∈ data.transitions, 0 ≤ tr.localtimeIdx ∧ tr.localtimeIdx < data.localtimes.length
  clock : ∀ tr ∈ data.transitions, tr.localtime = tr.gmttime + (data.kind first tr).gmtOffset
  name : ∀ l ∈ data.localtimes, 0 ≤ l.arrbIdx ∧ l.arrbIdx ≤ data.abbreviation.length
  offset : ∀ l ∈ data.localtimes, IntType.int.Fits l.gmtOffset
  sorted : data.transitions.Pairwise fun x y => x.gmttime < y.gmttime
  clockSorted : data.transitions.Pairwise fun x y => x.localtime < y.localtime

variable {data : Data} {first : Localtime} {x : Int} {sentry : Transition} {comp : Comp}

/-- The index of a transition is that of its kind of local time. -/
lemma WellFormed.subscript (wf : data.WellFormed first) {tr : Transition} (h : tr ∈ data.transitions) :
    subscript data.localtimes tr.localtimeIdx = some (data.kind first tr) := by
  obtain ⟨lo, hi⟩ := wf.index tr h
  have bound : tr.localtimeIdx.toNat < data.localtimes.length := by omega
  rw [kind, Timer.subscript, if_pos lo, List.getElem?_eq_getElem bound, Option.getD_some]

/-- The kind of a transition is in the table. -/
lemma WellFormed.kind_mem (wf : data.WellFormed first) {tr : Transition} (h : tr ∈ data.transitions) :
    data.kind first tr ∈ data.localtimes := by
  have eq := wf.subscript h
  unfold Timer.subscript at eq
  split at eq
  · exact List.mem_of_getElem? eq
  · cases eq

/-- The kind of local time found is the one in force, by UTC or by the clock. -/
lemma WellFormed.findLocaltime_eq (wf : data.WellFormed first)
    (sorted : data.transitions.Pairwise fun x y => comp.key x < comp.key y) :
    findLocaltime data sentry comp =
      some (inForce first (data.transitions.map fun tr => (comp.key tr, data.kind first tr)) (comp.key sentry)) := by
  have before (tr) : (!comp.less tr sentry) = !decide (comp.key tr < comp.key sentry) := by
    rw [Bool.eq_iff_iff]
    simp [← Comp.less_iff]
  unfold findLocaltime
  split
  case h_1 e =>
    rw [e, wf.front]
    rfl
  case h_2 tr transitions e =>
    by_cases early : comp.key sentry < comp.key tr
    · rw [if_pos (Comp.less_iff.2 early), wf.front, e]
      exact congrArg some (if_neg (by omega)).symm
    · have partitioned : data.transitions.Pairwise fun x y => comp.less y sentry → comp.less x sentry := by
        refine sorted.imp fun lt => ?_
        rw [Comp.less_iff, Comp.less_iff]
        exact lt.trans
      have started : ∀ tr', data.transitions.head? = some tr' → comp.key tr' ≤ comp.key sentry := by
        rw [e]
        rintro _ ⟨⟩
        omega
      rw [if_neg (mt Comp.less_iff.1 early), lower_bound, if_pos partitioned, Option.bind_eq_bind, Option.bind_some,
        ← located_eq sorted started, located]
      simp only [before]
      split
      case h_1 tr' here =>
        by_cases equal : comp.key sentry = comp.key tr'
        · rw [if_pos (Comp.equal_iff.2 equal), if_pos equal, wf.subscript (List.mem_of_getElem? here)]
        · have bound := (List.getElem?_eq_some_iff.1 here).1
          have notBelow : ¬comp.key tr' < comp.key sentry := by
            have := List.findIdx_getElem (w := bound)
            rw [(List.getElem?_eq_some_iff.1 here).2] at this
            simpa using this
          have pos : data.transitions.findIdx (fun tr => !decide (comp.key tr < comp.key sentry)) ≠ 0 := by
            intro zero
            rw [zero, e] at here
            cases here
            omega
          have prev := List.getElem?_eq_getElem (l := data.transitions)
            (i := data.transitions.findIdx (fun tr => !decide (comp.key tr < comp.key sentry)) - 1) (by omega)
          rw [if_neg (mt Comp.equal_iff.1 equal), if_neg equal, if_neg pos, prev, Option.bind_eq_bind, Option.bind_some,
            wf.subscript (List.getElem_mem _)]
          rfl
      case h_2 last =>
        have getLast : data.transitions.getLast? = some (data.transitions.getLast (by simp [e])) :=
          List.getLast?_eq_some_getLast _
        rw [getLast, Option.bind_eq_bind, Option.bind_some, wf.subscript (List.getLast_mem _)]
        rfl

/-- The kind in force is in the table. -/
lemma WellFormed.inForce_mem (wf : data.WellFormed first) :
    inForce first (data.changes first) x ∈ data.localtimes := by
  obtain e | mem := @Lib.inForce_mem _ first (data.changes first) x
  · rw [e]
    exact List.mem_of_mem_head? wf.front
  · rw [changes, List.map_map, List.mem_map] at mem
    obtain ⟨tr, h, e⟩ := mem
    exact e ▸ wf.kind_mem h

/-- By the clock, the transitions are at the times it shows. -/
lemma WellFormed.shown_changes (wf : data.WellFormed first) :
    (data.transitions.map fun tr => (tr.localtime, data.kind first tr)) =
      shown Localtime.gmtOffset (data.changes first) := by
  rw [changes, shown, List.map_map]
  refine List.map_congr_left fun tr h => ?_
  rw [wf.clock tr h]
  rfl

/-- The clock shows the changes in order. -/
lemma WellFormed.shown_chronological (wf : data.WellFormed first) :
    Chronological (shown Localtime.gmtOffset (data.changes first)) := by
  rw [← wf.shown_changes, Chronological, List.pairwise_map]
  exact wf.clockSorted

end Data

/-! ## There and back -/

section Local

variable {data : Data} {first : Localtime} {t : Int}

/-- The broken-down time that `toLocalTime` makes of the time that the clock shows. -/
def localTm (data : Data) (kind : Localtime) (shows : Int) : Tm :=
  { gmtime shows with
    tm_isdst := if kind.isDst then 1 else 0
    tm_gmtoff := kind.gmtOffset
    tm_zone := some (cstr (data.abbreviation.drop kind.arrbIdx.toNat)) }

/-- A broken-down local time gives back what the clock shows. -/
lemma timegm_localTm {kind : Localtime} {shows : Int} : timegm (localTm data kind shows) = shows := timegm_gmtime

/-- Times whose local times can be computed in every zone. -/
def Moderate (t : Int) : Prop := -200000000000 ≤ t ∧ t ≤ 40000000000000

/-- An offset in the table is an `int`. -/
lemma Data.WellFormed.offset_mem (wf : data.WellFormed first) {kind : Localtime} (h : kind ∈ data.localtimes) :
    -2147483648 ≤ kind.gmtOffset ∧ kind.gmtOffset ≤ 2147483647 := by
  have ⟨lo, hi⟩ := wf.offset kind h
  simp only [IntType.minValue, IntType.maxValue, IntType.signed, IntType.width, if_true] at lo hi
  omega

/-- On a representable time `gmtime_r` does not fail. -/
lemma gmtime_r_eq {shows : Int} (h : Representable shows) : gmtime_r shows .zero = gmtime shows := by
  have ⟨lo, hi⟩ := (gmtime_inRanges h).year
  rw [gmtime_r, if_pos]
  constructor <;> simp only [IntType.minValue, IntType.maxValue, IntType.signed, IntType.width, if_true] <;> omega

/-- `toLocalTime` gives the time that the clock shows. -/
lemma Data.WellFormed.toLocalTime_eq (wf : data.WellFormed first)
    (h : Representable (t + (inForce first (data.changes first) t).gmtOffset)) :
    TimeZone.toLocalTime ⟨some data⟩ t =
      some (localTm data (inForce first (data.changes first) t)
        (t + (inForce first (data.changes first) t).gmtOffset)) := by
  have found : findLocaltime data ⟨t, 0, 0⟩ ⟨true⟩ = some (inForce first (data.changes first) t) :=
    wf.findLocaltime_eq wf.sorted
  have name := wf.name _ (wf.inForce_mem (x := t))
  have ⟨lo, hi⟩ := h
  rw [TimeZone.toLocalTime, Option.bind_eq_bind, Option.bind_some, found, Option.bind_eq_bind, Option.bind_some,
    long_eq (by omega) (by omega), Option.bind_eq_bind, Option.bind_some]
  dsimp only
  rw [if_pos name, gmtime_r_eq h]
  rfl

/-- The kind of local time that `fromLocalTime` finds for what the clock shows, and the time it returns: an hour
    less if the time found is not a daylight saving time, but the same on the clock. -/
lemma Data.WellFormed.fromLocalTime_eq (wf : data.WellFormed first) {kind found again : Localtime} {shows : Int}
    (offset : -2147483648 ≤ found.gmtOffset ∧ found.gmtOffset ≤ 2147483647) (h : Representable shows)
    (efound : inForce first (shown Localtime.gmtOffset (data.changes first)) shows = found)
    (eagain : inForce first (data.changes first) (shows - found.gmtOffset) = again)
    (same : again.gmtOffset = found.gmtOffset) :
    TimeZone.fromLocalTime ⟨some data⟩ (localTm data kind shows) =
      some (shows - found.gmtOffset - if kind.isDst ∧ ¬again.isDst then 3600 else 0) := by
  have ⟨lo, hi⟩ := h
  have lookup : findLocaltime data ⟨0, shows, 0⟩ ⟨false⟩ = some found := by
    have byClock : findLocaltime data ⟨0, shows, 0⟩ ⟨false⟩ =
        some (inForce first (data.transitions.map fun tr => (tr.localtime, data.kind first tr)) shows) :=
      wf.findLocaltime_eq wf.clockSorted
    rw [byClock, wf.shown_changes, efound]
  have back : shows - found.gmtOffset + again.gmtOffset = shows := by omega
  have retry : TimeZone.toLocalTime ⟨some data⟩ (shows - found.gmtOffset) = some (localTm data again shows) := by
    rw [wf.toLocalTime_eq (by rw [eagain, back]; exact h), eagain, back]
  have corrected : TimeZone.correctDst ⟨some data⟩ (localTm data kind shows) found shows =
      some (shows - if kind.isDst ∧ ¬again.isDst then 3600 else 0) := by
    have dst (kind : Localtime) : (localTm data kind shows).tm_isdst = if kind.isDst then 1 else 0 := rfl
    rw [TimeZone.correctDst, long_eq (by omega) (by omega), Option.bind_eq_bind, Option.bind_some, retry,
      Option.bind_eq_bind, Option.bind_some, dst, dst, long_eq (by omega) (by omega)]
    cases kind.isDst with
    | false => simp
    | true => cases again.isDst with
      | false => simp [localTm]
      | true => simp
  rw [TimeZone.fromLocalTime, Option.bind_eq_bind, Option.bind_some, timegm_localTm, lookup, Option.bind_eq_bind,
    Option.bind_some, corrected, Option.bind_eq_bind, Option.bind_some]
  have hour : 0 ≤ (if kind.isDst ∧ ¬again.isDst then (3600 : Int) else 0) ∧
      (if kind.isDst ∧ ¬again.isDst then (3600 : Int) else 0) ≤ 3600 := by
    split <;> omega
  rw [long_eq (by omega) (by omega), sub_right_comm]

/-- By how much `fromLocalTime` misses the time that `toLocalTime` was given: the time is found after the clock has
    been set back, if it will be, less an hour if that ends a daylight saving time. -/
def miss (first : Localtime) (changes : List (Int × Localtime)) (t : Int) : Int :=
  match upcoming changes t with
  | some (time, next) =>
    if time + next.gmtOffset ≤ t + (inForce first changes t).gmtOffset then
      (inForce first changes t).gmtOffset - next.gmtOffset -
        if (inForce first changes t).isDst ∧ ¬next.isDst then 3600 else 0
    else 0
  | none => 0

/-- A time that the clock shows once comes back. -/
lemma Data.WellFormed.fromLocalTime_once (wf : data.WellFormed first)
    (h : Representable (t + (inForce first (data.changes first) t).gmtOffset))
    (found : inForce first (shown Localtime.gmtOffset (data.changes first))
      (t + (inForce first (data.changes first) t).gmtOffset) = inForce first (data.changes first) t) :
    TimeZone.fromLocalTime ⟨some data⟩ (localTm data (inForce first (data.changes first) t)
      (t + (inForce first (data.changes first) t).gmtOffset)) = some t := by
  have again : inForce first (data.changes first)
      (t + (inForce first (data.changes first) t).gmtOffset - (inForce first (data.changes first) t).gmtOffset) =
      inForce first (data.changes first) t := by
    rw [Int.add_sub_cancel]
  rw [wf.fromLocalTime_eq (wf.offset_mem wf.inForce_mem) h found again rfl]
  simp

/-- By how much `fromLocalTime` misses the time that the broken-down time was made from. -/
lemma Data.WellFormed.fromLocalTime_miss (wf : data.WellFormed first)
    (spaced : Spaced Localtime.gmtOffset first (data.changes first)) (ht : Moderate t) :
    TimeZone.fromLocalTime ⟨some data⟩ (localTm data (inForce first (data.changes first) t)
        (t + (inForce first (data.changes first) t).gmtOffset)) =
      some (t + miss first (data.changes first) t) := by
  have ⟨lo, hi⟩ := ht
  have offset := wf.offset_mem (wf.inForce_mem (x := t))
  have representable : Representable (t + (inForce first (data.changes first) t).gmtOffset) := ⟨by omega, by omega⟩
  have found := inForce_shown (t := t) wf.shown_chronological spaced
  unfold miss
  split at found
  case h_1 time next coming =>
    simp only [coming]
    have nextMem : next ∈ data.localtimes := by
      obtain ⟨tr, h, e⟩ := List.mem_map.1 (List.mem_of_find?_eq_some coming)
      cases e
      exact wf.kind_mem h
    split at found
    case isTrue again =>
      have after := inForce_again spaced coming again
      rw [wf.fromLocalTime_eq (wf.offset_mem nextMem) representable found after rfl, if_pos again,
        Option.some.injEq]
      omega
    case isFalse once =>
      rw [if_neg once, Int.add_zero]
      exact wf.fromLocalTime_once representable found
  case h_2 coming =>
    simp only [coming, Int.add_zero]
    exact wf.fromLocalTime_once representable found

end Local

/-- In every well-formed time zone whose changes are not too close to each other, `toLocalTime` gives a broken-down
    time for every moderate time, and `fromLocalTime` takes it back to the time if and only if the clock does not show
    it again after the next change, or that change ends a daylight saving time by setting the clock back one hour. -/
theorem fromLocalTime_toLocalTime (data : Data) (first : Localtime) (wf : data.WellFormed first)
    (spaced : Spaced Localtime.gmtOffset first (data.changes first)) (t : Int) (ht : Moderate t) :
    ∃ tm, TimeZone.toLocalTime ⟨some data⟩ t = some tm ∧
      (TimeZone.fromLocalTime ⟨some data⟩ tm = some t ↔
        ∀ time next, upcoming (data.changes first) t = some (time, next) →
          time + next.gmtOffset ≤ t + (inForce first (data.changes first) t).gmtOffset →
          (inForce first (data.changes first) t).isDst = true ∧ next.isDst = false ∧
            (inForce first (data.changes first) t).gmtOffset - next.gmtOffset = 3600) := by
  have offset := wf.offset_mem (wf.inForce_mem (x := t))
  have representable : Representable (t + (inForce first (data.changes first) t).gmtOffset) := by
    have ⟨lo, hi⟩ := ht
    exact ⟨by omega, by omega⟩
  refine ⟨_, wf.toLocalTime_eq representable, ?_⟩
  rw [wf.fromLocalTime_miss spaced ht, Option.some.injEq, add_eq_left]
  unfold miss
  cases coming : upcoming (data.changes first) t with
  | none => simp
  | some c =>
    obtain ⟨time, next⟩ := c
    have later : t < time := by simpa using List.find?_some coming
    dsimp only
    split
    case isTrue again =>
      constructor
      · rintro zero _ _ ⟨⟩ -
        split at zero
        case isTrue dst => exact ⟨dst.1, by simpa using dst.2, by omega⟩
        case isFalse => omega
      · intro h
        obtain ⟨dst, std, hour⟩ := h time next rfl again
        rw [if_pos ⟨dst, by simp [std]⟩]
        omega
    case isFalse once =>
      refine iff_of_true rfl ?_
      rintro _ _ ⟨⟩ again
      exact absurd again once

/-- The table of a fixed time zone is well-formed. -/
lemma fixed_wellFormed {eastOfUtc : Int} {name : Bytes} (h : IntType.int.Fits eastOfUtc) :
    (⟨[], [⟨eastOfUtc, false, 0⟩], cstr name⟩ : Data).WellFormed ⟨eastOfUtc, false, 0⟩ where
  front := rfl
  index := by simp
  clock := by simp
  name := by simp
  offset := by simpa using h
  sorted := .nil
  clockSorted := .nil

/-- In a fixed time zone every local time comes back. -/
theorem fixed_roundtrip {eastOfUtc t : Int} {name : Bytes} (h : IntType.int.Fits eastOfUtc) (ht : Moderate t) :
    ∃ tm, (TimeZone.fixed eastOfUtc name).toLocalTime t = some tm ∧
      (TimeZone.fixed eastOfUtc name).fromLocalTime tm = some t := by
  have wf := @fixed_wellFormed eastOfUtc name h
  have ⟨lo, hi⟩ := ht
  have offset : -2147483648 ≤ eastOfUtc ∧ eastOfUtc ≤ 2147483647 := wf.offset_mem (List.mem_singleton_self _)
  have representable : Representable (t + eastOfUtc) := ⟨by omega, by omega⟩
  exact ⟨_, wf.toLocalTime_eq representable, wf.fromLocalTime_once representable rfl⟩

/-- Central European Time in 2020. -/
def cet2020 : Data where
  transitions := [⟨1585443600, 1585450800, 1⟩, ⟨1603587600, 1603591200, 0⟩]
  localtimes := [⟨3600, false, 0⟩, ⟨7200, true, 4⟩]
  abbreviation := bytes "CET" ++ [0] ++ bytes "CEST" ++ [0]

/-- The table of Central European Time is well-formed. -/
lemma cet2020_wellFormed : cet2020.WellFormed ⟨3600, false, 0⟩ where
  front := rfl
  index := by decide
  clock := by decide
  name := by decide
  offset := by decide
  sorted := by decide
  clockSorted := by decide

/-- Half past two in the night in which the clock is set back from three to two, before it is. -/
theorem fromLocalTime_toLocalTime_set_back :
    ∃ tm, TimeZone.toLocalTime ⟨some cet2020⟩ 1603585800 = some tm ∧
      TimeZone.fromLocalTime ⟨some cet2020⟩ tm = some 1603585800 := by
  obtain ⟨tm, e, iff⟩ := fromLocalTime_toLocalTime cet2020 ⟨3600, false, 0⟩ cet2020_wellFormed
    ⟨by decide, by decide, trivial⟩ 1603585800 ⟨by decide, by decide⟩
  refine ⟨tm, e, iff.2 fun time next coming _ => ?_⟩
  have : upcoming (cet2020.changes ⟨3600, false, 0⟩) 1603585800 = some (1603587600, ⟨3600, false, 0⟩) := by decide
  rw [this] at coming
  cases coming
  decide

end WebServer.Timer
