import WebServer.Log.Logger
import WebServer.Timer.Timestamp

/-!
# The log of a thread

Model of what `logger/logger.cc` keeps from one record of a thread to the next: `t_time` has the text of the second
of the last record, and `formatTime` renews it only when the second is another one than `t_lastSecond`.

The records are those that a logger which formats each time anew would write (`logs_plain`), after the records of
the second `0` at the start: `t_lastSecond` is `0` before anything is in `t_time`. As texts, the records of a thread
are in order as their times (`logs_sorted`).
-/

namespace WebServer.Log

open Net Timer

/-- The value of the enumerator. -/
def LogLevel.value : LogLevel → Int
  | .DEBUG => 0
  | .INFO => 1
  | .WARN => 2
  | .ERROR => 3
  | .FATAL => 4

/-- The variables of `namespace curr_thread` that `formatTime` uses. -/
structure CurrThread where
  t_time : Vector UInt8 64
  t_lastSecond : Int

/-- Thread-local variables are zero at first. -/
def CurrThread.initial : CurrThread := ⟨Vector.replicate 64 0, 0⟩

/-- What does not change from record to record. -/
structure Process where
  g_logTimeZone : TimeZone
  g_min_log_level : Int
  /-- `std::this_thread::get_id()` as text -/
  tid : Bytes
  tid_le : tid.length ≤ 20
  /-- `strerror_tl` -/
  strerror : Int → Bytes

/-- A statement `LOG(level) << ...` or `LOGSYS(level) << ...`. The variables `buffer_` and `tm_time` have no value
    before they are written. -/
structure Statement where
  buffer_ : Vector UInt8 kSmallBuffer
  tm_time : Tm
  now : Timestamp
  file : SourceFile
  line : IntType.int.Value
  level : LogLevel
  saved_errno : IntType.int.Value
  ins : List Insertion

/-- `snprintf(t_time, sizeof(t_time), ...)` -/
def printTime (t_time : Vector UInt8 64) (text : Bytes) : Vector UInt8 64 :=
  ⟨(snprintf 64 text ++ [0] ++ t_time.toList.drop ((snprintf 64 text).length + 1)).toArray, by
    simp [snprintf]
    omega⟩

namespace Process

variable (p : Process)

/-- `tm_time` in `formatTime`. -/
def tmTime (seconds : Int) (tm_time : Tm) : Option Tm :=
  if p.g_logTimeZone.valid then p.g_logTimeZone.toLocalTime seconds else some (gmtime_r seconds tm_time)

/-- The text of a second. A failed assertion of its length is undefined here, while the connections take assertions as
    compiled out. -/
def timeText (seconds : Int) (tm_time : Tm) : Option Bytes := do
  let tm_time ← p.tmTime seconds tm_time
  let text := Timestamp.formatTm tm_time
  if text.length = 17 then some text else none

/-- `Logger::formatTime` up to the insertions. -/
def renew (c : CurrThread) (st : Statement) : Option CurrThread :=
  if st.now.secondsSinceEpoch ≠ c.t_lastSecond then do
    let text ← p.timeText st.now.secondsSinceEpoch st.tm_time
    some ⟨printTime c.t_time text, st.now.secondsSinceEpoch⟩
  else
    some c

/-- The life of a logger, with the text of the second in `t_time`; a failed assertion of the length of the microseconds is
    undefined, as in `timeText`. -/
def record (t_time : Vector UInt8 64) (st : Statement) : Option Logger.Output := do
  let zoned := p.g_logTimeZone.valid
  let env : Surroundings := ⟨t_time, zoned, p.tid, p.tid_le, p.strerror⟩
  if (Logger.microseconds zoned st.now.microSecondsSinceEpoch).length = (if zoned then 8 else 9) then
    let l ← Logger.new env st.buffer_ st.file st.line st.level st.saved_errno st.now.microSecondsSinceEpoch
    let l ← l.insertAll st.ins
    l.destroy
  else
    none

/-- The condition of the macros. -/
def enabled (st : Statement) : Bool := p.g_min_log_level ≤ st.level.value

/-- The records of the statements that a thread executes. -/
def logs (c : CurrThread) : List Statement → Option (List Logger.Output)
  | [] => some []
  | st :: sts =>
    if p.enabled st then do
      let c ← p.renew c st
      let out ← p.record c.t_time st
      let outs ← logs c sts
      some (out :: outs)
    else
      logs c sts

/-- The record of a logger that formats the time anew. -/
def plain (st : Statement) : Option Logger.Output := do
  let text ← p.timeText st.now.secondsSinceEpoch st.tm_time
  p.record (printTime CurrThread.initial.t_time text) st

end Process

/-! ## The text of the second -/

section Second

variable {p : Process} {c c' : CurrThread} {st : Statement} {sts : List Statement} {text : Bytes}

/-- What `gmtime_r` gets is not seen. -/
lemma timeText_seconds {t : Timestamp} {tm tm' : Tm} :
    p.timeText t.secondsSinceEpoch tm = p.timeText t.secondsSinceEpoch tm' := by
  rw [Process.timeText, Process.timeText, Process.tmTime, Process.tmTime, Timestamp.gmtime_r_seconds,
    Timestamp.gmtime_r_seconds]

/-- The text of a time has seventeen characters. -/
lemma timeText_length {seconds : Int} {tm : Tm} (h : p.timeText seconds tm = some text) : text.length = 17 := by
  unfold Process.timeText at h
  obtain ⟨tm, _, h⟩ := Option.bind_eq_some_iff.1 h
  dsimp only at h
  split at h
  case isTrue len =>
    cases h
    exact len
  case isFalse => cases h

/-- A text that is printed over another one of its length leaves nothing of it. -/
lemma printTime_printTime {t_time : Vector UInt8 64} {text' : Bytes} (len : text.length = 17)
    (len' : text'.length = 17) :
    printTime (printTime t_time text) text' = printTime t_time text' := by
  have cut : snprintf 64 text = text := List.take_of_length_le (by rw [len]; decide)
  have cut' : snprintf 64 text' = text' := List.take_of_length_le (by rw [len']; decide)
  apply Vector.toList_inj.1
  have rest : (text ++ [0] ++ t_time.toList.drop 18).drop 18 = t_time.toList.drop 18 :=
    List.drop_left' (by rw [List.length_append, len]; rfl)
  simp only [printTime, cut, cut', len, len', Vector.toList_mk, rest]

/-- The text of a time is printed in front of the array. -/
lemma printTime_take {t_time : Vector UInt8 64} (len : text.length = 17) :
    (printTime t_time text).toList.take 17 = text := by
  have cut : snprintf 64 text = text := List.take_of_length_le (by rw [len]; decide)
  simp only [printTime, cut, Vector.toList_mk, List.append_assoc]
  exact List.take_left' len

/-- The text in `t_time` is that of the last second. -/
def Current (p : Process) (c : CurrThread) : Prop :=
  ∃ t : Timestamp, c.t_lastSecond = t.secondsSinceEpoch ∧ ∃ text, p.timeText t.secondsSinceEpoch .zero = some text ∧
    c.t_time = printTime CurrThread.initial.t_time text

/-- After a record the text is current, unless it is the first one and of the second `0`. -/
lemma renew_current (start : Current p c ∨ c = .initial ∧ st.now.secondsSinceEpoch ≠ 0) :
    (p.renew c st = none ∧ p.timeText st.now.secondsSinceEpoch st.tm_time = none) ∨
      ∃ c' text, p.renew c st = some c' ∧ p.timeText st.now.secondsSinceEpoch st.tm_time = some text ∧
        c'.t_time = printTime CurrThread.initial.t_time text ∧ Current p c' := by
  by_cases same : st.now.secondsSinceEpoch = c.t_lastSecond
  · have idle : p.renew c st = some c := if_neg (not_not.2 same)
    rcases start with ⟨t, last, text, shown, time⟩ | ⟨rfl, later⟩
    · rw [← last, ← same, @timeText_seconds _ _ _ st.tm_time] at shown
      exact .inr ⟨c, text, idle, shown, time, t, last, text, by rw [← last, ← same, timeText_seconds, shown], time⟩
    · exact absurd same later
  · cases shown : p.timeText st.now.secondsSinceEpoch st.tm_time with
    | none =>
      refine .inl ⟨?_, rfl⟩
      rw [Process.renew, if_pos same, shown]
      rfl
    | some text =>
      have time : printTime c.t_time text = printTime CurrThread.initial.t_time text := by
        rcases start with ⟨t, _, before, shown', time⟩ | ⟨rfl, _⟩
        · rw [time, printTime_printTime (timeText_length shown') (timeText_length shown)]
        · rfl
      refine .inr ⟨⟨printTime c.t_time text, _⟩, text, ?_, rfl, time, st.now, rfl, text, ?_, time⟩
      · rw [Process.renew, if_pos same, shown]
        rfl
      · rw [timeText_seconds, shown]

/-- The next record, if the text is current after it. -/
lemma logs_cons (start : Current p c ∨ c = .initial ∧ st.now.secondsSinceEpoch ≠ 0) (on : p.enabled st = true)
    (rest : ∀ {c}, Current p c → p.logs c sts = (sts.filter p.enabled).mapM p.plain) :
    p.logs c (st :: sts) = (st :: sts.filter p.enabled).mapM p.plain := by
  rw [Process.logs, if_pos on, List.mapM_cons, Process.plain]
  rcases renew_current start with ⟨stuck, none⟩ | ⟨c', text, renewed, shown, time, current⟩
  · rw [stuck, none]
    rfl
  · rw [renewed, shown]
    simp only [Option.bind_eq_bind, Option.bind_some]
    rw [time, rest current]
    rfl

/-- The records, once there is a text. -/
lemma logs_current (h : Current p c) : p.logs c sts = (sts.filter p.enabled).mapM p.plain := by
  induction sts generalizing c with
  | nil => rfl
  | cons st sts ih =>
    by_cases on : p.enabled st = true
    · rw [List.filter_cons_of_pos on, logs_cons (.inl h) on ih]
    · rw [List.filter_cons_of_neg on, Process.logs, if_neg on, ih h]

/-- When no second is zero, every enabled statement is logged plainly. -/
lemma logs_later (h : ∀ st ∈ sts, st.now.secondsSinceEpoch ≠ 0) :
    p.logs .initial sts = (sts.filter p.enabled).mapM p.plain := by
  induction sts with
  | nil => rfl
  | cons st sts ih =>
    have ⟨later, h⟩ := List.forall_mem_cons.1 h
    by_cases on : p.enabled st = true
    · rw [List.filter_cons_of_pos on, logs_cons (.inr ⟨rfl, later⟩) on logs_current]
    · rw [List.filter_cons_of_neg on, Process.logs, if_neg on, ih h]

/-- For every list of statements that a thread executes: the records before the first one of a second other than
    `0` have the time as 17 zero bytes, and from there on each record has the text of its own second, although the
    text is formatted only when the second has changed. -/
theorem logs_plain (p : Process) (sts : List Statement) :
    p.logs .initial sts = (do
      let early := (sts.filter p.enabled).takeWhile (·.now.secondsSinceEpoch = 0)
      let later := (sts.filter p.enabled).dropWhile (·.now.secondsSinceEpoch = 0)
      some ((← early.mapM (p.record (Vector.replicate 64 0))) ++ (← later.mapM p.plain))) := by
  induction sts with
  | nil => rfl
  | cons st sts ih =>
    by_cases on : p.enabled st = true
    · rw [List.filter_cons_of_pos on]
      by_cases zero : st.now.secondsSinceEpoch = 0
      · have idle : p.renew .initial st = some .initial := if_neg (not_not.2 zero)
        rw [Process.logs, if_pos on, idle, List.takeWhile_cons_of_pos (by simpa using zero),
          List.dropWhile_cons_of_pos (by simpa using zero)]
        simp only [Option.bind_eq_bind, Option.bind_some, ih, List.mapM_cons, Option.bind_assoc]
        rfl
      · rw [List.takeWhile_cons_of_neg (by simpa using zero), List.dropWhile_cons_of_neg (by simpa using zero),
          logs_cons (.inr ⟨rfl, zero⟩) on logs_current]
        simp
    · rw [List.filter_cons_of_neg on, Process.logs, if_neg on, ih]

end Second

/-! ## The order of the records -/

section Order

open Logger

variable {p : Process} {st : Statement} {sts : List Statement} {out text : Bytes}

/-- Insertions only add to the text. -/
lemma prefix_textAfter {ins : List Insertion} : out <+: textAfter out ins := by
  induction ins generalizing out with
  | nil => exact List.prefix_rfl
  | cons x ins ih =>
    refine List.IsPrefix.trans ?_ ih
    unfold Lib.offer
    split
    case isTrue => exact List.prefix_append _ _
    case isFalse => exact List.prefix_rfl

/-- The microseconds are written with six digits and a `Z`. -/
lemma microseconds_utc {t : Timestamp} (h : t.FourDigits) :
    microseconds false t.microSecondsSinceEpoch = bytes "." ++ zeroPaddedTo 6 t.microseconds ++ bytes "Z " ∧
      (microseconds false t.microSecondsSinceEpoch).length = 9 := by
  have ⟨_, _, lo, hi, _⟩ := h.seconds
  have text : microseconds false t.microSecondsSinceEpoch =
      bytes "." ++ zeroPaddedTo 6 t.microseconds ++ bytes "Z " := rfl
  have micro : (zeroPaddedTo 6 t.microseconds).length = 6 := (zeroPaddedTo_spec (by decide) lo hi).1
  refine ⟨text, ?_⟩
  rw [text, List.length_append, List.length_append, micro]
  decide

/-- A text that fits is inserted whole. -/
lemma offer_staticStr {str : StaticStrHolder} (shown : (Insertion.staticStr str).rendering = text)
    (room : out.length + text.length < kSmallBuffer) :
    Lib.offer kSmallBuffer Insertion.rendering Insertion.need out (.staticStr str) = out ++ text := by
  have need : (Insertion.staticStr str).need = text.length + 1 := by
    rw [← shown]
    rfl
  rw [Lib.offer, need, if_pos (by omega), shown]

/-- The header starts with the time. -/
lemma prefix_header {env : Surroundings} {l : Logger} {ins : List Insertion} {micro : Bytes}
    (second : env.t_time.toList.take 17 = text) (utc : env.zoned = false)
    (micros : microseconds false l.time_ = micro) (len : micro.length = 9) :
    text ++ micro <+: textAfter [] (l.header env ++ ins) := by
  have split : ∃ rest, l.header env ++ ins =
      [.staticStr ⟨env.t_time.toList, 17, by simp⟩, .staticStr (microsecondsHolder env.zoned l.time_)] ++ rest :=
    ⟨_, by simp only [header, List.append_assoc]; rfl⟩
  have micro_text : (Insertion.staticStr (microsecondsHolder env.zoned l.time_)).rendering = micro := by
    rw [utc]
    change (snprintf 32 (microseconds false l.time_)).take 9 = micro
    rw [micros, snprintf, List.take_take, List.take_of_length_le (by rw [len]; decide)]
  have second_text : (Insertion.staticStr ⟨env.t_time.toList, 17, by simp⟩).rendering = text := second
  have second_len : text.length = 17 := by
    rw [← second, List.length_take, Vector.length_toList]
    decide
  obtain ⟨rest, split⟩ := split
  rw [split, textAfter_append]
  have both : textAfter [] [.staticStr ⟨env.t_time.toList, 17, by simp⟩,
      .staticStr (microsecondsHolder env.zoned l.time_)] = text ++ micro := by
    rw [textAfter, List.foldl_cons, List.foldl_cons, List.foldl_nil, offer_staticStr second_text, List.nil_append,
      offer_staticStr micro_text]
    · rw [second_len, len]
      decide
    · rw [second_len]
      decide
  rw [both]
  exact prefix_textAfter

/-- In UTC, a record starts with the formatted time. -/
lemma record_prefix (utc : p.g_logTimeZone.valid = false) (h : st.now.FourDigits) :
    ∃ output, p.plain st = some output ∧ st.now.toFormattedString true st.tm_time ++ bytes "Z " <+: output.bytes := by
  have len := Timestamp.formatTm_length h.year
  have ⟨micros, micros_len⟩ := microseconds_utc h
  have shown : p.timeText st.now.secondsSinceEpoch st.tm_time =
      some (Timestamp.formatTm (gmtime st.now.secondsSinceEpoch)) := by
    rw [Process.timeText, Process.tmTime, utc, Timestamp.gmtime_r_seconds]
    exact if_pos len
  obtain ⟨l, l', new, inserted, written⟩ := lifecycle
    ⟨printTime CurrThread.initial.t_time (Timestamp.formatTm (gmtime st.now.secondsSinceEpoch)), false, p.tid, p.tid_le,
      p.strerror⟩
    st.buffer_ st.file st.line st.level st.saved_errno st.now.microSecondsSinceEpoch st.ins
  obtain ⟨flushed, destroyed⟩ := written.destroy
  have plain : p.plain st = l'.destroy := by
    rw [Process.plain, shown, Option.bind_eq_bind, Option.bind_some, Process.record, utc]
    rw [if_pos (show _ = if false = true then 8 else 9 from micros_len), new, Option.bind_eq_bind, Option.bind_some,
      inserted, Option.bind_some]
  refine ⟨_, plain.trans destroyed, ?_⟩
  have whole := @prefix_header _ ⟨printTime CurrThread.initial.t_time (Timestamp.formatTm (gmtime st.now.secondsSinceEpoch)),
    false, p.tid, p.tid_le, p.strerror⟩ ⟨.new st.buffer_, st.file, st.line, st.level, st.saved_errno,
      st.now.microSecondsSinceEpoch⟩ st.ins _ (printTime_take len) rfl rfl micros_len
  rw [micros, List.append_assoc] at whole
  rw [h.text.1, List.append_assoc, List.append_assoc]
  dsimp only
  split
  case isTrue => exact whole.trans (List.prefix_append _ _)
  case isFalse => exact whole

/-- In UTC and in the years from 1970 to 9999, except for the first second of the epoch, each record of a thread
    starts with its formatted time, and of two records the one with the earlier time is before the other in the order
    of texts. -/
theorem logs_sorted (p : Process) (utc : p.g_logTimeZone.valid = false) (sts : List Statement)
    (h : ∀ st ∈ sts, st.now.FourDigits ∧ st.now.secondsSinceEpoch ≠ 0) :
    ∃ outs, p.logs .initial sts = some outs ∧
      List.Forall₂ (fun st output => st.now.toFormattedString true st.tm_time ++ bytes "Z " <+: output.bytes)
        (sts.filter p.enabled) outs ∧
      ∀ x ∈ (sts.filter p.enabled).zip outs, ∀ y ∈ (sts.filter p.enabled).zip outs,
        x.1.now.less y.1.now → x.2.bytes < y.2.bytes := by
  have all : ∀ st ∈ sts.filter p.enabled, ∃ output, p.plain st = some output ∧
      st.now.toFormattedString true st.tm_time ++ bytes "Z " <+: output.bytes :=
    fun st mem => record_prefix utc (h st (List.mem_of_mem_filter mem)).1
  have digits : ∀ st ∈ sts.filter p.enabled, st.now.FourDigits :=
    fun st mem => (h st (List.mem_of_mem_filter mem)).1
  obtain ⟨outs, e, forall₂⟩ := Lib.mapM_forall₂ all
  refine ⟨outs, ?_, forall₂, ?_⟩
  · rw [logs_later fun st mem => (h st mem).2, e]
  · rintro ⟨st, output⟩ mem ⟨st', output'⟩ mem' less
    obtain ⟨rest, hr⟩ := List.forall₂_zip forall₂ mem
    obtain ⟨rest', hr'⟩ := List.forall₂_zip forall₂ mem'
    have hst := digits st (List.of_mem_zip mem).1
    have hst' := digits st' (List.of_mem_zip mem').1
    dsimp only
    rw [← hr, ← hr', List.append_assoc, List.append_assoc, Lib.append_lt_append (hst.text.2.2.trans hst'.text.2.2.symm)]
    exact .inl ((hst.text_lt hst').2 less)

/-- A process in UTC. -/
def Process.utc : Process where
  g_logTimeZone := .invalid
  g_min_log_level := 0
  tid := bytes "1"
  tid_le := Surroundings.epoch.tid_le
  strerror _ := bytes "Success"

/-- A statement that logs nothing but the header. -/
def Statement.bare (now : Timestamp) : Statement where
  buffer_ := Vector.replicate _ 0
  tm_time := .zero
  now := now
  file := .ofPointer (bytes "main.cc")
  line := ⟨1, by decide⟩
  level := .INFO
  saved_errno := ⟨0, by decide⟩
  ins := []

/-- Two records, half a second before a new minute and half a second after it. -/
theorem logs_sorted_minute :
    ∃ output output',
      Process.utc.logs .initial [.bare ⟨1600000019500000, by decide⟩, .bare ⟨1600000020500000, by decide⟩] =
        some [output, output'] ∧ output.bytes < output'.bytes := by
  obtain ⟨outs, e, forall₂, sorted⟩ := logs_sorted .utc rfl
    [.bare ⟨1600000019500000, by decide⟩, .bare ⟨1600000020500000, by decide⟩] (by
      simp only [List.forall_mem_cons, List.not_mem_nil, false_implies, implies_true, and_true]
      exact ⟨⟨⟨by decide, by decide⟩, by decide⟩, ⟨by decide, by decide⟩, by decide⟩)
  obtain ⟨output, _, _, second, rfl⟩ := List.forall₂_cons_left_iff.1 forall₂
  obtain ⟨output', _, _, rest, rfl⟩ := List.forall₂_cons_left_iff.1 second
  cases rest
  refine ⟨output, output', e, sorted _ (.head _) _ (.tail _ (.head _)) ?_⟩
  exact decide_eq_true (show (1600000019500000 : Int) < 1600000020500000 by decide)

end Order

end WebServer.Log
