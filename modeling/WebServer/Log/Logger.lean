import WebServer.Log.LogStream

/-!
# The logger

Model of `logger/logger.{h,cc}`: a `Logger` writes a header into its stream when it is made, the statement that
made it inserts the message, and its destructor adds a newline and passes the bytes to `g_output_func`.

What the header takes from outside is an argument (`Surroundings`): the text of the second in `t_time`, the text
of the thread's id and the texts of `strerror_r`.
-/

namespace WebServer.Log

open Net

/-- `enum LogLevel` -/
inductive LogLevel where
  | DEBUG
  | INFO
  | WARN
  | ERROR
  | FATAL
deriving DecidableEq, Repr

/-- `kLogLevelName` -/
def kLogLevelName : LogLevel → Bytes
  | .DEBUG => bytes "DEBUG "
  | .INFO => bytes "INFO  "
  | .WARN => bytes "WARN  "
  | .ERROR => bytes "ERROR "
  | .FATAL => bytes "FATAL "

/-- What a header takes from outside. The id of a thread is printed as a `pthread_t`. -/
structure Surroundings where
  /-- `curr_thread::t_time`, for the second in question -/
  t_time : Vector UInt8 64
  /-- `g_logTimeZone.valid()` -/
  zoned : Bool
  /-- `std::this_thread::get_id()` as text -/
  tid : Bytes
  tid_le : tid.length ≤ 20
  /-- `strerror_tl` -/
  strerror : Int → Bytes

/-- The text of `%0{width}d`. -/
def zeroPaddedTo (width : Nat) (z : Int) : Bytes :=
  (if z < 0 then [char '-'] else []) ++
    List.replicate (width - (decimal z).length) (char '0') ++ numeral z.natAbs

/-- A padded number has at least the width. -/
lemma zeroPaddedTo_length {width : Nat} {z : Int} : width ≤ (zeroPaddedTo width z).length := by
  have sign : (decimal z).length = (if z < 0 then [char '-'] else []).length + (numeral z.natAbs).length := by
    unfold decimal
    split <;> simp [Nat.add_comm]
  simp only [zeroPaddedTo, List.length_append, List.length_replicate]
  omega

/-- The text of `%20s`. -/
def rightAligned (text : Bytes) : Bytes := List.replicate (20 - text.length) (char ' ') ++ text

/-- `class Logger` -/
structure Logger where
  stream_ : LogStream
  file_ : SourceFile
  line_ : IntType.int.Value
  level_ : LogLevel
  saved_errno_ : IntType.int.Value
  /-- `time_.microSecondsSinceEpoch()` -/
  time_ : Int

namespace Logger

/-- The microseconds in the header: with a `Z` when the time is UTC. -/
def microseconds (zoned : Bool) (time : Int) : Bytes :=
  bytes "." ++ zeroPaddedTo 6 (time.tmod 1000000) ++ if zoned then bytes " " else bytes "Z "

/-- The part of the microseconds that is inserted. -/
def microsecondsHolder (zoned : Bool) (time : Int) : StaticStrHolder where
  str_ := snprintf 32 (microseconds zoned time)
  len_ := if zoned then 8 else 9
  le := by
    have pad := @zeroPaddedTo_length 6 (time.tmod 1000000)
    have dot : (bytes ".").length = 1 := by decide
    have z : (bytes "Z ").length = 2 := by decide
    have blank : (bytes " ").length = 1 := by decide
    cases zoned <;>
      simp only [snprintf, microseconds, List.length_take, List.length_append, dot, z, blank, if_true,
        Bool.false_eq_true, if_false] <;> omega

/-- `curr_thread::tid_str` with its length, after `cacheID`. -/
def tidHolder (env : Surroundings) : StaticStrHolder where
  str_ := snprintf 32 (env.tid ++ bytes " ")
  len_ := (env.tid ++ bytes " ").length
  le := by
    have blank : (bytes " ").length = 1 := by decide
    have le := env.tid_le
    rw [snprintf, List.length_take, List.length_append, blank]
    omega

variable (env : Surroundings) (l : Logger)

/-- Insertions into the stream of the logger. -/
def insertAll (ins : List Insertion) : Option Logger := do
  let stream ← l.stream_.insertAll ins
  some { l with stream_ := stream }

/-- `Logger::formatTime` -/
def formatTime : Option Logger :=
  l.insertAll [.staticStr ⟨env.t_time.toList, 17, by simp⟩, .staticStr (microsecondsHolder env.zoned l.time_)]

/-- `Logger::formatFileAndLine` -/
def formatFileAndLine : Option Logger :=
  l.insertAll [.cstring (some (snprintf 64
    (rightAligned (cstr l.file_.data_) ++ bytes ":" ++ decimal l.line_.1 ++ bytes " ")))]

/-- `Logger::writeHeader` -/
def writeHeader : Option Logger := do
  let l ← l.formatTime env
  let l ← l.insertAll [.staticStr (tidHolder env)]
  let l ← l.formatFileAndLine
  let l ← l.insertAll
    [.staticStr ⟨kLogLevelName l.level_, 6, by cases l.level_ <;> decide⟩, .cstring (some (bytes ": "))]
  if l.saved_errno_.1 ≠ 0 then
    l.insertAll [.cstring (some (env.strerror l.saved_errno_.1)), .cstring (some (bytes " (errno=")),
      .integer .int l.saved_errno_, .cstring (some (bytes ") "))]
  else
    some l

/-- `Logger::Logger`; `saved_errno` is `0` in the constructor without `log_errno` and `errno` in the other. -/
def new (data : Vector UInt8 kSmallBuffer) (file : SourceFile) (line : IntType.int.Value) (level : LogLevel)
    (saved_errno : IntType.int.Value) (now : Int) : Option Logger :=
  (Logger.mk (.new data) file line level saved_errno now).writeHeader env

/-- What `g_output_func` and `g_flush_func` get. -/
structure Output where
  bytes : Bytes
  flushed : Bool

/-- `Logger::~Logger` -/
def destroy : Option Output := do
  let stream ← l.stream_.insert (.char (char '\n'))
  let out ← load stream.buffer_.data_ 0 stream.buffer_.len
  some ⟨out, l.level_ = .FATAL⟩

/-! ## The newline -/

open Insertion in
/-- What `writeHeader` inserts. -/
def header : List Insertion :=
  [staticStr ⟨env.t_time.toList, 17, by simp⟩, staticStr (microsecondsHolder env.zoned l.time_)] ++
  [staticStr (tidHolder env)] ++
  [cstring (some (snprintf 64
    (rightAligned (cstr l.file_.data_) ++ bytes ":" ++ decimal l.line_.1 ++ bytes " ")))] ++
  [staticStr ⟨kLogLevelName l.level_, 6, by cases l.level_ <;> decide⟩, cstring (some (bytes ": "))] ++
  if l.saved_errno_.1 ≠ 0 then
    [cstring (some (env.strerror l.saved_errno_.1)), cstring (some (bytes " (errno=")),
      integer .int l.saved_errno_, cstring (some (bytes ") "))]
  else
    []

variable {env l} {out : Bytes}

/-- The stream of the logger holds the text `out`. -/
def Written (l : Logger) (out : Bytes) : Prop := Holds kSmallBuffer l.stream_.buffer_ out

/-- The text in the buffer after insertions. -/
def textAfter (out : Bytes) (ins : List Insertion) : Bytes :=
  ins.foldl (Lib.offer kSmallBuffer Insertion.rendering Insertion.need) out

/-- Two rows of insertions are offered one after the other. -/
lemma textAfter_append {ins ins' : List Insertion} :
    textAfter out (ins ++ ins') = textAfter (textAfter out ins) ins' :=
  List.foldl_append

/-- What a logger has written, after further insertions. -/
lemma Written.insertAll (h : l.Written out) (ins : List Insertion) :
    ∃ stream, l.insertAll ins = some { l with stream_ := stream } ∧
      Written { l with stream_ := stream } (textAfter out ins) := by
  obtain ⟨stream, e, h'⟩ := Holds.insertAll h ins
  refine ⟨stream, ?_, h'⟩
  rw [Logger.insertAll, e]
  rfl

/-- The header is written, as far as it fits. -/
lemma Written.writeHeader (h : l.Written out) :
    ∃ stream, l.writeHeader env = some { l with stream_ := stream } ∧
      Written { l with stream_ := stream } (textAfter out (l.header env)) := by
  obtain ⟨s1, e1, h1⟩ := h.insertAll
    [.staticStr ⟨env.t_time.toList, 17, by simp⟩, .staticStr (microsecondsHolder env.zoned l.time_)]
  obtain ⟨s2, e2, h2⟩ := h1.insertAll [.staticStr (tidHolder env)]
  obtain ⟨s3, e3, h3⟩ := h2.insertAll [.cstring (some (snprintf 64
    (rightAligned (cstr l.file_.data_) ++ bytes ":" ++ decimal l.line_.1 ++ bytes " ")))]
  obtain ⟨s4, e4, h4⟩ := h3.insertAll
    [.staticStr ⟨kLogLevelName l.level_, 6, by cases l.level_ <;> decide⟩, .cstring (some (bytes ": "))]
  rw [Logger.writeHeader, formatTime, e1, Option.bind_eq_bind, Option.bind_some, e2, Option.bind_some,
    formatFileAndLine, e3, Option.bind_some, e4, Option.bind_some]
  rw [← textAfter_append, ← textAfter_append, ← textAfter_append] at h4
  split
  case isTrue errno =>
    obtain ⟨s5, e5, h5⟩ := h4.insertAll [.cstring (some (env.strerror l.saved_errno_.1)),
      .cstring (some (bytes " (errno=")), .integer .int l.saved_errno_, .cstring (some (bytes ") "))]
    rw [← textAfter_append] at h5
    rw [header, if_pos errno]
    exact ⟨s5, e5, h5⟩
  case isFalse errno =>
    rw [header, if_neg errno, List.append_nil]
    exact ⟨s4, rfl, h4⟩

/-- What the destructor passes on: the text, with a newline if two bytes were free. -/
lemma Written.destroy (h : l.Written out) :
    ∃ flushed, l.destroy = some ⟨if 2 ≤ l.stream_.buffer_.remain then out ++ [char '\n'] else out, flushed⟩ := by
  obtain ⟨stream, e, h'⟩ := Holds.insert h (.char (char '\n'))
  have all : load stream.buffer_.data_ 0 stream.buffer_.len = some (stream.buffer_.data_.take stream.buffer_.curr_) := by
    have le : stream.buffer_.len ≤ stream.buffer_.data_.length := by
      rw [FixedBuffer.len, h'.curr, h'.size]
      exact h'.free.le
    rw [load, if_pos ⟨Nat.zero_le _, le⟩, Lib.slice, List.drop_zero, Nat.sub_zero]
    rfl
  rw [h'.text] at all
  refine ⟨decide (l.level_ = .FATAL), ?_⟩
  rw [Logger.destroy, e, Option.bind_eq_bind, Option.bind_some, all, Option.bind_eq_bind, Option.bind_some, h.remain]
  rfl

/-- A logger from its construction to just before its destruction. -/
lemma lifecycle (env : Surroundings) (data : Vector UInt8 kSmallBuffer) (file : SourceFile)
    (line : IntType.int.Value) (level : LogLevel) (saved_errno : IntType.int.Value) (now : Int)
    (ins : List Insertion) :
    ∃ l l', Logger.new env data file line level saved_errno now = some l ∧ l.insertAll ins = some l' ∧
      l'.Written (textAfter [] (header env ⟨.new data, file, line, level, saved_errno, now⟩ ++ ins)) := by
  have start : Written ⟨.new data, file, line, level, saved_errno, now⟩ [] := Holds.new data
  obtain ⟨stream, el, h⟩ := @Written.writeHeader env _ _ start
  obtain ⟨stream', e, h'⟩ := h.insertAll ins
  rw [← textAfter_append] at h'
  exact ⟨_, _, el, e, h'⟩

end Logger

open Logger in
/-- For every logger and every sequence of insertions into its stream, the bytes that the destructor passes to
    `g_output_func` end with a newline if and only if at least two bytes of the buffer were free before it, or the
    text already ended with a newline. -/
theorem record_ends_with_newline (env : Surroundings) (data : Vector UInt8 kSmallBuffer) (file : SourceFile)
    (line : IntType.int.Value) (level : LogLevel) (saved_errno : IntType.int.Value) (now : Int)
    (ins : List Insertion) :
    ∃ l l' output, Logger.new env data file line level saved_errno now = some l ∧ l.insertAll ins = some l' ∧
      l'.destroy = some output ∧
      (output.bytes.getLast? = some (char '\n') ↔
        2 ≤ l'.stream_.buffer_.remain ∨
          (l'.stream_.buffer_.data_.take l'.stream_.buffer_.len).getLast? = some (char '\n')) := by
  obtain ⟨l, l', el, e, h⟩ := lifecycle env data file line level saved_errno now ins
  obtain ⟨flushed, ed⟩ := h.destroy
  refine ⟨l, l', _, el, e, ed, ?_⟩
  rw [show l'.stream_.buffer_.data_.take l'.stream_.buffer_.len = _ from h.text]
  split
  case isTrue room => simp [room]
  case isFalse full => simp [full]

/-- The surroundings of a logger in the first second of the epoch, in UTC. -/
def Surroundings.epoch : Surroundings where
  t_time := ⟨(bytes "19700101 00:00:00" ++ List.replicate 47 0).toArray, by decide⟩
  zoned := false
  tid := bytes "1"
  tid_le := by decide
  strerror _ := bytes "Success"

open Logger in
/-- A header of 59 bytes and a message of 3940 leave one byte free, and the record is passed on without a
    newline. -/
theorem record_without_newline :
    ∃ l l' output,
      Logger.new .epoch (Vector.replicate _ 0) (.ofPointer (bytes "main.cc")) ⟨1, by decide⟩ .INFO ⟨0, by decide⟩ 0
        = some l ∧
      l.insertAll [.string (List.replicate 3940 (char 'x'))] = some l' ∧ l'.destroy = some output ∧
      output.bytes.getLast? ≠ some (char '\n') := by
  obtain ⟨l, l', el, e, h⟩ := lifecycle .epoch (Vector.replicate _ 0) (.ofPointer (bytes "main.cc"))
    ⟨1, by decide⟩ .INFO ⟨0, by decide⟩ 0 [.string (List.replicate 3940 (char 'x'))]
  have head : (textAfter [] (header .epoch ⟨.new (Vector.replicate _ 0), .ofPointer (bytes "main.cc"), ⟨1, by decide⟩,
      .INFO, ⟨0, by decide⟩, 0⟩)).length = 59 := by decide +kernel
  rw [textAfter_append] at h
  generalize textAfter [] (header _ _) = out at head h
  have fits : textAfter out [.string (List.replicate 3940 (char 'x'))] = out ++ List.replicate 3940 (char 'x') := by
    have room : (Insertion.string (List.replicate 3940 (char 'x'))).need ≤ kSmallBuffer - out.length := by
      simp only [Insertion.need, Insertion.length, Insertion.rendering, List.length_replicate, head, kSmallBuffer]
      omega
    rw [textAfter, List.foldl_cons, List.foldl_nil, Lib.offer, if_pos room]
    rfl
  rw [fits] at h
  obtain ⟨flushed, ed⟩ := h.destroy
  have full : ¬2 ≤ l'.stream_.buffer_.remain := by
    rw [h.remain, List.length_append, List.length_replicate, head, kSmallBuffer]
    omega
  rw [if_neg full] at ed
  refine ⟨l, l', _, el, e, ed, ?_⟩
  rw [List.getLast?_append, List.getLast?_replicate, if_neg (by decide), Option.some_or]
  decide

end WebServer.Log
