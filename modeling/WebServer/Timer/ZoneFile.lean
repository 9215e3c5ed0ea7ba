import WebServer.Timer.TimeZone

/-!
# Zone files

Model of the reading of time zone files in `timer/time_zone.cc`. A file is its bytes, or `none` if it cannot be
opened. The functions of `class File` throw a `logic_error` when the bytes run out; `readTimeZoneFile` catches it,
prints its text and keeps what has been read into `data` by then. `std::vector::reserve` throws a `length_error`, a
`logic_error` too, for a negative number. A variable-length array of negative length is undefined, as is an index
outside of a vector. There is always enough memory.

`ZoneFile` is what a file of the first version of the format says. `readTimeZoneFile` gets to its end exactly on
the encodings of these, followed by anything.
-/

namespace WebServer.Timer

open Net Log Lib

/-- The bytes of the file that have not been read, and the table that is filled in. -/
structure Input where
  rest : Bytes
  data : Data
deriving DecidableEq, Repr

/-- How a reading function ends: it returns, it throws a `logic_error`, or its behaviour is undefined. -/
inductive Outcome (α : Type) where
  | ok (value : α) (input : Input)
  | throw (what : Bytes) (input : Input)
  | undefined
deriving DecidableEq, Repr

def Reading (α : Type) : Type := Input → Outcome α

instance : Monad Reading where
  pure value := fun input => .ok value input
  bind m f := fun input =>
    match m input with
    | .ok value input => f value input
    | .throw what input => .throw what input
    | .undefined => .undefined

namespace Reading

/-- `if (p) throw logic_error(what)` -/
def throwIf (p : Prop) [Decidable p] (what : Bytes) : Reading Unit := fun input =>
  if p then .throw what input else .ok () input

/-- The loop `for (int i = 0; i < n; ++i)`, with what its iterations give. -/
def times {α : Type} : Nat → Reading α → Reading (List α)
  | 0, _ => pure []
  | n + 1, m => do
    let value ← m
    let values ← times n m
    pure (value :: values)

end Reading

open Reading

namespace File

/-- `fread` of so many bytes, or the error. -/
def read (n : Nat) (what : Bytes) : Reading Bytes := fun input =>
  if n ≤ input.rest.length then
    .ok (input.rest.take n) { input with rest := input.rest.drop n }
  else
    .throw what { input with rest := [] }

/-- `File::readBytes` -/
def readBytes (n : Int) : Reading Bytes := fun input =>
  if n < 0 then .undefined else read n.toNat (bytes "no enough data") input

/-- The value of a big-endian number. -/
def bigEndian (bs : Bytes) : Int := bs.foldl (fun n b => 256 * n + b.toNat) 0

/-- `File::readInt32` -/
def readInt32 : Reading Int := do
  let x ← read 4 (bytes "bad int32_t data")
  pure (IntType.int.cast (bigEndian x))

/-- `File::readUInt8` -/
def readUInt8 : Reading Int := do
  let x ← read 1 (bytes "bad uint8_t data")
  pure (bigEndian x)

end File

open File

/-- `trans.reserve(n)` -/
def reserve (n : Int) : Reading Unit := throwIf (n < 0) (bytes "vector::reserve")

/-- `data->localtimes.push_back` -/
def pushLocaltime (l : Localtime) : Reading Unit := fun input =>
  .ok () { input with data := { input.data with localtimes := input.data.localtimes ++ [l] } }

/-- One iteration of the loop over the kinds of local time. -/
def readLocaltime : Reading Unit := do
  let gmtoff ← readInt32
  let isdst ← readUInt8
  let abbrind ← readUInt8
  pushLocaltime ⟨gmtoff, isdst ≠ 0, abbrind⟩

/-- One iteration of the loop over the transitions. -/
def pushTransition (time localIdx : Int) : Reading Unit := fun input =>
  match subscript input.data.localtimes localIdx with
  | some l => .ok () { input with data :=
      { input.data with transitions := input.data.transitions ++ [⟨time, time + l.gmtOffset, localIdx⟩] } }
  | none => .undefined

/-- The loop over the transitions. -/
def pushTransitions : List (Int × Int) → Reading Unit
  | [] => pure ()
  | (time, localIdx) :: rest => do
    pushTransition time localIdx
    pushTransitions rest

/-- `data->abbreviation = abbreviation` -/
def setAbbreviation (abbreviation : Bytes) : Reading Unit := fun input =>
  .ok () { input with data := { input.data with abbreviation } }

/-- The header of the file; the numbers that are used later are `timecnt`, `typecnt` and `charcnt`. -/
def readHeader : Reading (Int × Int × Int) := do
  let head ← readBytes 4
  throwIf (head ≠ bytes "TZif") (bytes "bad head")
  let _version ← readBytes 1
  let _ ← readBytes 15
  let _isgmtcnt ← readInt32
  let _isstdcnt ← readInt32
  let _leapcnt ← readInt32
  let timecnt ← readInt32
  let typecnt ← readInt32
  let charcnt ← readInt32
  pure (timecnt, typecnt, charcnt)

/-- The `try` block of `readTimeZoneFile`. -/
def readZone : Reading Unit := do
  let (timecnt, typecnt, charcnt) ← readHeader
  reserve timecnt
  let trans ← times timecnt.toNat readInt32
  let localtimes ← times timecnt.toNat readUInt8
  let _ ← times typecnt.toNat readLocaltime
  pushTransitions (trans.zip localtimes)
  setAbbreviation (← readBytes charcnt)

/-- `readTimeZoneFile`: its result, the table, and what it writes to `stderr`. -/
def readTimeZoneFile (zonefile : Option Bytes) (data : Data) : Option (Bool × Data × Bytes) :=
  match zonefile with
  | none => some (true, data, [])
  | some content =>
    match readZone ⟨content, data⟩ with
    | .ok _ input => some (true, input.data, [])
    | .throw what input => some (true, input.data, what ++ bytes "\n")
    | .undefined => none

/-- `TimeZone::TimeZone(const char* zonefile)` -/
def TimeZone.ofFile (zonefile : Option Bytes) : Option TimeZone := do
  let (ok, data, _) ← readTimeZoneFile zonefile ⟨[], [], []⟩
  some ⟨if ok then some data else none⟩

/-! ## What a file says -/

/-- A big-endian number of four bytes. -/
def be32 (z : Int) : Bytes :=
  [(z / 2 ^ 24 % 256).toNat.toUInt8, (z / 2 ^ 16 % 256).toNat.toUInt8, (z / 2 ^ 8 % 256).toNat.toUInt8,
    (z % 256).toNat.toUInt8]

/-- A kind of local time in a file. -/
structure KindSpec where
  gmtoff : Int
  isdst : UInt8
  abbrind : UInt8
  fits : IntType.int.Fits gmtoff

namespace KindSpec

def encode (k : KindSpec) : Bytes := be32 k.gmtoff ++ [k.isdst, k.abbrind]

def localtime (k : KindSpec) : Localtime := ⟨k.gmtoff, k.isdst ≠ 0, k.abbrind.toNat⟩

end KindSpec

/-- The transition to the kind of local time with this number. -/
def transitionTo (localtimes : List Localtime) (time localIdx : Int) : Transition :=
  ⟨time, time + ((subscript localtimes localIdx).map Localtime.gmtOffset).getD 0, localIdx⟩

/-- What a zone file says, with the numbers in its header that nothing uses. The number of kinds may be negative
    if there are none. -/
structure ZoneFile where
  version : UInt8
  reserved : Bytes
  isgmtcnt : IntType.int.Value
  isstdcnt : IntType.int.Value
  leapcnt : IntType.int.Value
  typecnt : IntType.int.Value
  times : List IntType.int.Value
  kindOf : List UInt8
  kinds : List KindSpec
  abbreviation : Bytes
  reserved_length : reserved.length = 15
  times_fits : IntType.int.Fits times.length
  kindOf_length : kindOf.length = times.length
  kinds_length : kinds.length = typecnt.1.toNat
  abbreviation_fits : IntType.int.Fits abbreviation.length
  kindOf_lt : ∀ i ∈ kindOf, i.toNat < kinds.length

namespace ZoneFile

def encodeHeader (z : ZoneFile) : Bytes :=
  bytes "TZif" ++ ([z.version] ++ (z.reserved ++ (be32 z.isgmtcnt.1 ++ (be32 z.isstdcnt.1 ++ (be32 z.leapcnt.1 ++
    (be32 z.times.length ++ (be32 z.typecnt.1 ++ be32 z.abbreviation.length)))))))

def encode (z : ZoneFile) : Bytes :=
  z.encodeHeader ++ (z.times.flatMap (fun time => be32 time.1) ++ (z.kindOf ++
    (z.kinds.flatMap KindSpec.encode ++ z.abbreviation)))

/-- The table that the file gives. -/
def data (z : ZoneFile) : Data where
  transitions := List.zipWith (fun time kind => transitionTo (z.kinds.map KindSpec.localtime) time.1 kind.toNat)
    z.times z.kindOf
  localtimes := z.kinds.map KindSpec.localtime
  abbreviation := z.abbreviation

end ZoneFile

/-! ## Big-endian numbers -/

section BigEndian

variable {z : Int} {a b c d : UInt8}

/-- The number of four bytes. -/
lemma bigEndian_four :
    bigEndian [a, b, c, d] = 16777216 * a.toNat + 65536 * b.toNat + 256 * c.toNat + d.toNat := by
  simp only [bigEndian, List.foldl_cons, List.foldl_nil]
  omega

/-- The last byte of a number is its rest. -/
lemma toNat_byte : ((z % 256).toNat.toUInt8.toNat : Int) = z % 256 := by
  rw [Nat.toUInt8, UInt8.toNat_ofNat']
  omega

/-- A byte is determined by the rest it is. -/
lemma byte_eq (h : z % 256 = a.toNat) : (z % 256).toNat.toUInt8 = a := by
  rw [h, Int.toNat_natCast]
  exact UInt8.ofNat_toNat

/-- The bytes of an `int` are read back as it. -/
lemma cast_be32 (fits : IntType.int.Fits z) : IntType.int.cast (bigEndian (be32 z)) = z := by
  obtain ⟨lo, hi⟩ := fits
  simp only [IntType.minValue, IntType.maxValue, IntType.signed, IntType.width, if_true] at lo hi
  rw [be32, bigEndian_four, toNat_byte, toNat_byte, toNat_byte, toNat_byte]
  simp only [IntType.cast, IntType.signed, IntType.width, if_true]
  rw [Int.bmod_def]
  split <;> omega

/-- Conversion to `int` takes away a multiple of `2 ^ 32`. -/
lemma int_cast_shift : ∃ k : Int, IntType.int.cast z = z - 4294967296 * k := by
  simp only [IntType.cast, IntType.signed, IntType.width, if_true]
  rw [Int.bmod_def]
  split
  · exact ⟨z / 4294967296, by omega⟩
  · exact ⟨z / 4294967296 + 1, by omega⟩

/-- Four bytes are those of the `int` that is read. -/
lemma be32_cast {bs : Bytes} (h : bs.length = 4) : be32 (IntType.int.cast (bigEndian bs)) = bs := by
  match bs, h with
  | [a, b, c, d], _ =>
    have ha := a.toNat_lt
    have hb := b.toNat_lt
    have hc := c.toNat_lt
    have hd := d.toNat_lt
    obtain ⟨k, e⟩ := @int_cast_shift (bigEndian [a, b, c, d])
    rw [e, bigEndian_four, be32, byte_eq (a := a) (by omega), byte_eq (a := b) (by omega),
      byte_eq (a := c) (by omega), byte_eq (a := d) (by omega)]

end BigEndian

/-! ## Reading is undoing writing -/

section Reads

variable {α β γ : Type} {m : Reading β} {f : β → Reading γ} {b : β} {c : γ} {input input' : Input}

/-- Two functions succeed one after the other exactly if the first does and the second does on its result. -/
lemma bind_eq_ok : (m >>= f) input = .ok c input' ↔
    ∃ b input1, m input = .ok b input1 ∧ f b input1 = .ok c input' := by
  change (match m input with | .ok value input => f value input | .throw what input => _ | .undefined => _) = _ ↔ _
  cases m input <;> simp

/-- A value is returned without reading. -/
lemma pure_eq_ok {b' : β} : (pure b : Reading β) input = .ok b' input' ↔ b' = b ∧ input' = input := by
  change Outcome.ok b input = .ok b' input' ↔ _
  rw [Outcome.ok.injEq, eq_comm, @eq_comm _ input]

/-- `throwIf` succeeds exactly if the condition does not hold. -/
lemma throwIf_eq_ok {p : Prop} [Decidable p] {what : Bytes} {u : Unit} :
    throwIf p what input = .ok u input' ↔ ¬ p ∧ input' = input := by
  unfold throwIf
  by_cases h : p
  · simp [h]
  · simp only [h, if_false, Outcome.ok.injEq, true_and, not_false_eq_true]
    exact eq_comm

/-- `fread` of `n` bytes succeeds exactly if there are as many. -/
lemma read_eq_ok {n : Nat} {what bs : Bytes} : File.read n what input = .ok bs input' ↔
    bs.length = n ∧ input.rest = bs ++ input'.rest ∧ input'.data = input.data := by
  obtain ⟨rest, data⟩ := input
  obtain ⟨rest', data'⟩ := input'
  unfold File.read
  constructor
  · intro h
    split at h
    case isTrue le =>
      cases h
      exact ⟨List.length_take_of_le le, (List.take_append_drop n _).symm, rfl⟩
    case isFalse => cases h
  · rintro ⟨rfl, e, e'⟩
    dsimp only at e e'
    subst e e'
    simp

/-- `readBytes` gives as many bytes as it is asked for. -/
lemma readBytes_eq_ok {n : Int} {bs : Bytes} : readBytes n input = .ok bs input' ↔
    (bs.length : Int) = n ∧ input.rest = bs ++ input'.rest ∧ input'.data = input.data := by
  unfold readBytes
  by_cases neg : n < 0
  · rw [if_pos neg]
    refine iff_of_false (by simp) fun ⟨h, _⟩ => ?_
    omega
  · rw [if_neg neg, read_eq_ok]
    refine and_congr_left fun _ => ?_
    omega

/-- The function reads exactly what is written for some `a`, gives the value of that `a` and does with it what
    `step` does to the table. -/
def Reads (m : Reading β) (encode : α → Bytes) (value : α → β) (step : Data → α → Data) : Prop :=
  ∀ input b input', m input = .ok b input' ↔
    ∃ a, input.rest = encode a ++ input'.rest ∧ b = value a ∧ input'.data = step input.data a

/-- `readInt32` reads four bytes, in the order of the network. -/
lemma readInt32_reads :
    Reads readInt32 (fun z : IntType.int.Value => be32 z.1) (fun z => z.1) (fun data _ => data) := by
  intro input b input'
  simp only [readInt32, bind_eq_ok, read_eq_ok, pure_eq_ok]
  constructor
  · rintro ⟨bs, _, ⟨four, e, e'⟩, rfl, rfl⟩
    exact ⟨⟨IntType.int.cast (bigEndian bs), IntType.cast_int_fits⟩, by rw [be32_cast four]; exact e, rfl, e'⟩
  · rintro ⟨z, e, rfl, e'⟩
    exact ⟨be32 z.1, input', ⟨rfl, e, e'⟩, (cast_be32 z.2).symm, rfl⟩

/-- `readUInt8` reads one byte. -/
lemma readUInt8_reads :
    Reads readUInt8 (fun b : UInt8 => [b]) (fun b => (b.toNat : Int)) (fun data _ => data) := by
  intro input b input'
  have value (b : UInt8) : bigEndian [b] = b.toNat := by simp [bigEndian]
  simp only [readUInt8, bind_eq_ok, read_eq_ok, pure_eq_ok]
  constructor
  · rintro ⟨bs, _, ⟨one, e, e'⟩, rfl, rfl⟩
    obtain ⟨b, rfl⟩ := List.length_eq_one_iff.1 one
    exact ⟨b, e, value b, e'⟩
  · rintro ⟨b, e, rfl, e'⟩
    exact ⟨[b], input', ⟨rfl, e, e'⟩, (value b).symm, rfl⟩

/-- The table with another kind of local time. -/
def addKind (data : Data) (k : KindSpec) : Data := { data with localtimes := data.localtimes ++ [k.localtime] }

/-- A kind of local time is read and put into the table. -/
lemma readLocaltime_reads : Reads readLocaltime KindSpec.encode (fun _ => ()) addKind := by
  intro input b input'
  have push {l : Localtime} {input input' : Input} : pushLocaltime l input = .ok () input' ↔
      input' = { input with data := { input.data with localtimes := input.data.localtimes ++ [l] } } := by
    simp only [pushLocaltime, Outcome.ok.injEq, true_and]
    exact eq_comm
  simp only [readLocaltime, bind_eq_ok, readInt32_reads _ _ _, readUInt8_reads _ _ _, push]
  constructor
  · rintro ⟨_, i1, ⟨z, e1, rfl, d1⟩, _, i2, ⟨isdst, e2, rfl, d2⟩, _, i3, ⟨abbrind, e3, rfl, d3⟩, rfl⟩
    refine ⟨⟨z.1, isdst, abbrind, z.2⟩, ?_, trivial, ?_⟩
    · rw [e1, e2, e3]
      simp [KindSpec.encode]
    · rw [d3, d2, d1]
      simp [addKind, KindSpec.localtime, ← UInt8.toNat_inj]
  · rintro ⟨k, e, -, d⟩
    refine ⟨_, ⟨k.isdst :: k.abbrind :: input'.rest, input.data⟩, ⟨⟨k.gmtoff, k.fits⟩, ?_, rfl, rfl⟩,
      _, ⟨k.abbrind :: input'.rest, input.data⟩, ⟨k.isdst, rfl, rfl, rfl⟩, _, ⟨input'.rest, input.data⟩,
      ⟨k.abbrind, rfl, rfl, rfl⟩, ?_⟩
    · rw [e]
      simp [KindSpec.encode]
    · obtain ⟨rest', data'⟩ := input'
      dsimp only at d
      subst d
      simp [addKind, KindSpec.localtime, ← UInt8.toNat_inj]

/-- A loop reads a list. -/
lemma times_eq_ok {encode : α → Bytes} {value : α → β} {step : Data → α → Data} (reads : Reads m encode value step)
    {n : Nat} {bs : List β} : times n m input = .ok bs input' ↔
      ∃ as : List α, as.length = n ∧ input.rest = as.flatMap encode ++ input'.rest ∧ bs = as.map value ∧
        input'.data = as.foldl step input.data := by
  induction n generalizing input bs input' with
  | zero =>
    rw [Reading.times, pure_eq_ok]
    constructor
    · rintro ⟨rfl, rfl⟩
      exact ⟨[], rfl, rfl, rfl, rfl⟩
    · rintro ⟨as, nil, e, rfl, d⟩
      obtain rfl := List.length_eq_zero_iff.1 nil
      obtain ⟨rest, data⟩ := input
      obtain ⟨rest', data'⟩ := input'
      cases e
      cases d
      exact ⟨rfl, rfl⟩
  | succ n ih =>
    simp only [Reading.times, bind_eq_ok, reads _ _ _, ih, pure_eq_ok]
    constructor
    · rintro ⟨_, i1, ⟨a, e1, rfl, d1⟩, _, i2, ⟨as, rfl, e2, rfl, d2⟩, rfl, rfl⟩
      refine ⟨a :: as, rfl, ?_, rfl, ?_⟩
      · rw [e1, e2, List.flatMap_cons, List.append_assoc]
      · rw [d2, d1, List.foldl_cons]
    · rintro ⟨as, succ, e, rfl, d⟩
      cases as with
      | nil => cases succ
      | cons a as =>
        rw [List.flatMap_cons, List.append_assoc] at e
        exact ⟨_, ⟨as.flatMap encode ++ input'.rest, step input.data a⟩, ⟨a, e, rfl, rfl⟩, _, input',
          ⟨as, Nat.succ.inj succ, rfl, rfl, d⟩, rfl, rfl⟩

/-- The loop over the transitions looks up the kinds of local time, which must be there. -/
lemma pushTransitions_eq_ok {l : List (Int × Int)} {u : Unit} : pushTransitions l input = .ok u input' ↔
    (∀ p ∈ l, (subscript input.data.localtimes p.2).isSome) ∧ input'.rest = input.rest ∧
      input'.data = { input.data with transitions := input.data.transitions ++
        (l.map fun p => transitionTo input.data.localtimes p.1 p.2) } := by
  induction l generalizing input with
  | nil =>
    rw [pushTransitions, pure_eq_ok]
    obtain ⟨rest, data⟩ := input
    obtain ⟨rest', data'⟩ := input'
    simp
  | cons p l ih =>
    obtain ⟨time, localIdx⟩ := p
    simp only [pushTransitions, bind_eq_ok, ih]
    cases e : subscript input.data.localtimes localIdx with
    | none => simp [pushTransition, e]
    | some k => simp [pushTransition, e, transitionTo]

/-- The header is read exactly if it starts with `TZif` and is complete. -/
lemma readHeader_eq_ok {counts : Int × Int × Int} : readHeader input = .ok counts input' ↔
    ∃ (version : UInt8) (reserved : Bytes)
      (isgmtcnt isstdcnt leapcnt timecnt typecnt charcnt : IntType.int.Value), reserved.length = 15 ∧
      input.rest = bytes "TZif" ++ ([version] ++ (reserved ++ (be32 isgmtcnt.1 ++ (be32 isstdcnt.1 ++
        (be32 leapcnt.1 ++ (be32 timecnt.1 ++ (be32 typecnt.1 ++ (be32 charcnt.1 ++ input'.rest)))))))) ∧
      counts = (timecnt.1, typecnt.1, charcnt.1) ∧ input'.data = input.data := by
  simp only [readHeader, bind_eq_ok, readBytes_eq_ok, readInt32_reads _ _ _, throwIf_eq_ok, pure_eq_ok, not_not]
  constructor
  · rintro ⟨_, i1, ⟨-, e1, d1⟩, _, _, ⟨rfl, rfl⟩, v, i2, ⟨one, e2, d2⟩, r, i3, ⟨len, e3, d3⟩, _, i4, ⟨a, e4, -, d4⟩,
      _, i5, ⟨b, e5, -, d5⟩, _, i6, ⟨c, e6, -, d6⟩, _, i7, ⟨timecnt, e7, rfl, d7⟩, _, i8, ⟨typecnt, e8, rfl, d8⟩,
      _, i9, ⟨charcnt, e9, rfl, d9⟩, rfl, rfl⟩
    obtain ⟨version, rfl⟩ := List.length_eq_one_iff.1 (Int.ofNat.inj one)
    refine ⟨version, r, a, b, c, timecnt, typecnt, charcnt, Int.ofNat.inj len, ?_, rfl, ?_⟩
    · rw [e1, e2, e3, e4, e5, e6, e7, e8, e9]
    · rw [d9, d8, d7, d6, d5, d4, d3, d2, d1]
  · rintro ⟨version, reserved, a, b, c, timecnt, typecnt, charcnt, len, e, rfl, d⟩
    -- the bytes left at each point are read off the ones written
    exact ⟨_, ⟨_, input.data⟩, ⟨rfl, e, rfl⟩, (), _, ⟨rfl, rfl⟩, _, ⟨_, input.data⟩, ⟨rfl, rfl, rfl⟩,
      _, ⟨_, input.data⟩, ⟨congrArg Int.ofNat len, rfl, rfl⟩, _, ⟨_, input.data⟩, ⟨a, rfl, rfl, rfl⟩,
      _, ⟨_, input.data⟩, ⟨b, rfl, rfl, rfl⟩, _, ⟨_, input.data⟩, ⟨c, rfl, rfl, rfl⟩,
      _, ⟨_, input.data⟩, ⟨timecnt, rfl, rfl, rfl⟩, _, ⟨_, input.data⟩, ⟨typecnt, rfl, rfl, rfl⟩,
      _, input', ⟨charcnt, rfl, rfl, d⟩, rfl, rfl⟩

/-- Kinds are put into the table in their order. -/
lemma foldl_addKind {data : Data} {kinds : List KindSpec} : kinds.foldl addKind data =
    { data with localtimes := data.localtimes ++ kinds.map KindSpec.localtime } := by
  induction kinds generalizing data with
  | nil => simp
  | cons k kinds ih => simp [ih, addKind]

/-- The abbreviation is stored. -/
lemma setAbbreviation_eq_ok {abbreviation : Bytes} {u : Unit} :
    setAbbreviation abbreviation input = .ok u input' ↔
      input' = { input with data := { input.data with abbreviation } } := by
  simp only [setAbbreviation, Outcome.ok.injEq, true_and]
  exact eq_comm

/-- The transitions of the loop are the ones of the table. -/
lemma transitions_zip {localtimes : List Localtime} {times : List IntType.int.Value} {kindOf : List UInt8} :
    ((times.map fun time => time.1).zip (kindOf.map fun kind => (kind.toNat : Int))).map
      (fun p => transitionTo localtimes p.1 p.2) =
    List.zipWith (fun time kind => transitionTo localtimes time.1 kind.toNat) times kindOf := by
  rw [List.zip_map, List.map_map, List.zip, List.map_zipWith]
  rfl

/-- The kinds of all transitions are there exactly if their numbers are below that of kinds. -/
lemma kinds_there (localtimes : List Localtime) {times : List IntType.int.Value} {kindOf : List UInt8}
    (len : kindOf.length = times.length) :
    (∀ p ∈ (times.map fun time => time.1).zip (kindOf.map fun kind => (kind.toNat : Int)),
      (subscript localtimes p.2).isSome) ↔ ∀ kind ∈ kindOf, kind.toNat < localtimes.length := by
  have found (kind : UInt8) : (subscript localtimes kind.toNat).isSome ↔ kind.toNat < localtimes.length := by
    simp [subscript]
  rw [List.zip_map]
  constructor
  · intro h kind mem
    have paired : (times.zip kindOf).map Prod.snd = kindOf := List.map_snd_zip (Nat.le_of_eq len)
    rw [← paired] at mem
    obtain ⟨p, here, rfl⟩ := List.mem_map.1 mem
    exact (found p.2).1 (h _ (List.mem_map_of_mem here))
  · intro h p mem
    obtain ⟨q, here, rfl⟩ := List.mem_map.1 mem
    exact (found q.2).2 (h q.2 (List.of_mem_zip here).2)

/-- A zone is read without an exception exactly if the content starts with what it looks like in a file. -/
lemma readZone_eq_ok {content rest : Bytes} {data : Data} :
    readZone ⟨content, ⟨[], [], []⟩⟩ = .ok () ⟨rest, data⟩ ↔ ∃ z : ZoneFile, content = z.encode ++ rest ∧ data = z.data := by
  simp only [readZone, bind_eq_ok, readHeader_eq_ok, reserve, throwIf_eq_ok, times_eq_ok readInt32_reads,
    times_eq_ok readUInt8_reads, times_eq_ok readLocaltime_reads, pushTransitions_eq_ok, readBytes_eq_ok,
    setAbbreviation_eq_ok, List.foldl_fixed, foldl_addKind]
  constructor
  · rintro ⟨_, i1, ⟨version, reserved, isgmtcnt, isstdcnt, leapcnt, timecnt, typecnt, charcnt, len, e1, rfl, d1⟩,
      _, _, ⟨nonneg, rfl⟩, _, i2, ⟨times, timesLen, e2, rfl, d2⟩, _, i3, ⟨kindOf, kindOfLen, e3, rfl, d3⟩,
      _, i4, ⟨kinds, kindsLen, e4, rfl, d4⟩, _, i5, ⟨there, e5, d5⟩, abbreviation, i6, ⟨charLen, e6, d6⟩, e7⟩
    rw [d1] at d2
    rw [d2] at d3
    rw [d3] at d4
    rw [d4] at d5 there
    rw [kinds_there _ (kindOfLen.trans timesLen.symm)] at there
    have timecnt_eq : (times.length : Int) = timecnt.1 := by omega
    refine ⟨⟨version, reserved, isgmtcnt, isstdcnt, leapcnt, typecnt, times, kindOf, kinds, abbreviation, len, ?_,
      kindOfLen.trans timesLen.symm, kindsLen, ?_, ?_⟩, ?_, ?_⟩
    · rw [timecnt_eq]
      exact timecnt.2
    · rw [charLen]
      exact charcnt.2
    · simpa using there
    · cases e7
      rw [e1, e2, e3, e4, ← e5, e6]
      simp [ZoneFile.encode, ZoneFile.encodeHeader, timecnt_eq, charLen]
    · cases e7
      rw [d6, d5, ZoneFile.data, ← transitions_zip]
      simp
  · rintro ⟨z, rfl, rfl⟩
    have there := (kinds_there (z.kinds.map KindSpec.localtime) z.kindOf_length).2
      (by simpa using z.kindOf_lt)
    simp only [ZoneFile.encode, ZoneFile.encodeHeader, List.append_assoc]
    refine ⟨_, ⟨_, ⟨[], [], []⟩⟩, ⟨z.version, z.reserved, z.isgmtcnt, z.isstdcnt, z.leapcnt, ⟨_, z.times_fits⟩,
      z.typecnt, ⟨_, z.abbreviation_fits⟩, z.reserved_length, rfl, rfl, rfl⟩, (), _, ⟨by simp, rfl⟩,
      _, ⟨_, ⟨[], [], []⟩⟩, ⟨z.times, rfl, rfl, rfl, rfl⟩,
      _, ⟨z.kinds.flatMap KindSpec.encode ++ (z.abbreviation ++ rest), ⟨[], [], []⟩⟩,
      ⟨z.kindOf, z.kindOf_length, by rw [List.flatMap_singleton'], rfl, rfl⟩,
      _, ⟨_, ⟨[], z.kinds.map KindSpec.localtime, []⟩⟩, ⟨z.kinds, z.kinds_length, rfl, rfl, rfl⟩,
      (), ⟨_, ⟨z.data.transitions, z.kinds.map KindSpec.localtime, []⟩⟩, ⟨there, rfl, ?_⟩,
      z.abbreviation, ⟨_, _⟩, ⟨rfl, rfl, rfl⟩, rfl⟩
    rw [transitions_zip, ZoneFile.data, List.nil_append]

end Reads

/-- A file is read without an error exactly if it starts with what some zone looks like in a file, and the table is
    then that of the zone. Nothing after it is looked at. -/
theorem readTimeZoneFile_iff (content : Bytes) (data : Data) :
    readTimeZoneFile (some content) ⟨[], [], []⟩ = some (true, data, []) ↔
      ∃ (z : ZoneFile) (rest : Bytes), content = z.encode ++ rest ∧ data = z.data := by
  have reads (rest : Bytes) : readZone ⟨content, ⟨[], [], []⟩⟩ = .ok () ⟨rest, data⟩ ↔
      ∃ z : ZoneFile, content = z.encode ++ rest ∧ data = z.data := readZone_eq_ok
  unfold readTimeZoneFile
  constructor
  · intro h
    dsimp only at h
    split at h
    case h_1 _ input e =>
      cases h
      obtain ⟨z, e⟩ := (reads input.rest).1 e
      exact ⟨z, input.rest, e⟩
    case h_2 => simp [bytes] at h
    case h_3 => cases h
  · rintro ⟨z, rest, e⟩
    simp only [(reads rest).2 ⟨z, e⟩]

/-! ## Any file -/

/-- An index that is defined is in the range of the vector. -/
lemma subscript_range {α : Type} {v : List α} {i : Int} {a : α} (h : subscript v i = some a) :
    0 ≤ i ∧ i < v.length := by
  unfold subscript at h
  split at h
  case isTrue nonneg =>
    have bound := (List.getElem?_eq_some_iff.1 h).1
    omega
  case isFalse => cases h

/-- What can be said about the table at any time while a file is read. -/
structure Data.Sound (data : Data) : Prop where
  index : ∀ tr ∈ data.transitions, 0 ≤ tr.localtimeIdx ∧ tr.localtimeIdx < data.localtimes.length
  clock : ∀ tr ∈ data.transitions, ∀ l, subscript data.localtimes tr.localtimeIdx = some l →
    tr.localtime = tr.gmttime + l.gmtOffset
  name : ∀ l ∈ data.localtimes, 0 ≤ l.arrbIdx ∧ l.arrbIdx < 256
  offset : ∀ l ∈ data.localtimes, IntType.int.Fits l.gmtOffset
  time : ∀ tr ∈ data.transitions, IntType.int.Fits tr.gmttime

/-- The table has the property, whether the function returned or threw, and so has a value that is returned. -/
def Outcome.Meets {α : Type} (P : Data → Prop) (Q : α → Prop) : Outcome α → Prop
  | .ok value input => P input.data ∧ Q value
  | .throw _ input => P input.data
  | .undefined => True

/-- A function that keeps a property of the table. -/
def Reading.Keeps {α : Type} (m : Reading α) (P : Data → Prop) (Q : α → Prop) : Prop :=
  ∀ input, P input.data → (m input).Meets P Q

section Keeps

variable {α β : Type} {m : Reading α} {f : α → Reading β} {P : Data → Prop} {Q : α → Prop} {R : β → Prop}

/-- Two functions that keep a property keep it one after the other. -/
lemma keeps_bind (hm : m.Keeps P Q) (hf : ∀ value, Q value → (f value).Keeps P R) : (m >>= f).Keeps P R := by
  intro input h
  have keeps := hm input h
  change Outcome.Meets P R
    (match m input with | .ok v i => f v i | .throw w i => .throw w i | .undefined => .undefined)
  cases e : m input with
  | ok value input =>
    rw [e] at keeps
    exact hf value keeps.2 input keeps.1
  | throw what input =>
    rw [e] at keeps
    exact keeps
  | undefined => trivial

/-- A value keeps every property. -/
lemma keeps_pure {value : α} (h : Q value) : (pure value : Reading α).Keeps P Q := fun _ hi => ⟨hi, h⟩

/-- What is known of the value can be weakened. -/
lemma keeps_mono {Q' : α → Prop} (hm : m.Keeps P Q) (h : ∀ value, Q value → Q' value) : m.Keeps P Q' := by
  intro input hi
  have keeps := hm input hi
  cases e : m input with
  | ok value input =>
    rw [e] at keeps
    exact ⟨keeps.1, h value keeps.2⟩
  | throw what input =>
    rw [e] at keeps
    exact keeps
  | undefined => trivial

/-- `throwIf` keeps every property. -/
lemma keeps_throwIf {p : Prop} [Decidable p] {what : Bytes} : (throwIf p what).Keeps P fun _ => True := by
  intro input h
  unfold throwIf
  by_cases hp : p
  · rw [if_pos hp]
    exact h
  · rw [if_neg hp]
    exact ⟨h, trivial⟩

/-- `fread` keeps every property and gives as many bytes as it is asked for. -/
lemma keeps_read {n : Nat} {what : Bytes} : (File.read n what).Keeps P (·.length = n) := by
  intro input h
  unfold File.read
  by_cases le : n ≤ input.rest.length
  · rw [if_pos le]
    exact ⟨h, List.length_take_of_le le⟩
  · rw [if_neg le]
    exact h

/-- `readBytes` keeps every property. -/
lemma keeps_readBytes {n : Int} : (readBytes n).Keeps P fun _ => True := by
  intro input h
  unfold readBytes
  by_cases neg : n < 0
  · rw [if_pos neg]
    trivial
  · rw [if_neg neg]
    exact keeps_mono keeps_read (fun _ _ => trivial) input h

/-- `readInt32` keeps every property and gives an `int`. -/
lemma keeps_readInt32 : readInt32.Keeps P IntType.int.Fits :=
  keeps_bind keeps_read fun _ _ => keeps_pure IntType.cast_int_fits

/-- `readUInt8` keeps every property and gives a byte. -/
lemma keeps_readUInt8 : readUInt8.Keeps P fun n => 0 ≤ n ∧ n < 256 := by
  refine keeps_bind keeps_read fun x one => keeps_pure ?_
  obtain ⟨b, rfl⟩ := List.length_eq_one_iff.1 one
  have := b.toNat_lt
  simp only [bigEndian, List.foldl_cons, List.foldl_nil]
  omega

/-- A function that keeps a property keeps it when it is repeated. -/
lemma keeps_times {n : Nat} (hm : m.Keeps P Q) : (times n m).Keeps P fun values => ∀ value ∈ values, Q value := by
  induction n with
  | zero => exact keeps_pure (by simp)
  | succ n ih =>
    refine keeps_bind hm fun value h => keeps_bind ih fun values hs => keeps_pure ?_
    exact List.forall_mem_cons.2 ⟨h, hs⟩

/-- Reading the header keeps every property. -/
lemma keeps_readHeader : readHeader.Keeps P fun _ => True :=
  keeps_bind keeps_readBytes fun _ _ => keeps_bind keeps_throwIf fun _ _ => keeps_bind keeps_readBytes fun _ _ =>
    keeps_bind keeps_readBytes fun _ _ => keeps_bind keeps_readInt32 fun _ _ => keeps_bind keeps_readInt32 fun _ _ =>
    keeps_bind keeps_readInt32 fun _ _ => keeps_bind keeps_readInt32 fun _ _ => keeps_bind keeps_readInt32 fun _ _ =>
    keeps_bind keeps_readInt32 fun _ _ => keeps_pure trivial

/-- Another kind of local time does not move the ones that are there. -/
lemma keeps_readLocaltime : readLocaltime.Keeps Data.Sound fun _ => True := by
  refine keeps_bind keeps_readInt32 fun gmtoff fits => keeps_bind keeps_readUInt8 fun isdst _ =>
    keeps_bind keeps_readUInt8 fun abbrind name => ?_
  rintro ⟨rest, data⟩ h
  refine ⟨⟨fun tr mem => ?_, fun tr mem l found => ?_, fun l mem => ?_, fun l mem => ?_, h.time⟩, trivial⟩
  · have ⟨lo, hi⟩ := h.index tr mem
    rw [List.length_append, List.length_singleton, Nat.cast_succ]
    exact ⟨lo, hi.trans (Int.lt_succ _)⟩
  · have index := h.index tr mem
    refine h.clock tr mem l ?_
    unfold subscript at found ⊢
    rw [if_pos index.1] at found ⊢
    rw [← found, List.getElem?_append_left (by omega)]
  · rcases List.mem_append.1 mem with old | new
    · exact h.name l old
    · obtain rfl := List.mem_singleton.1 new
      exact name
  · rcases List.mem_append.1 mem with old | new
    · exact h.offset l old
    · obtain rfl := List.mem_singleton.1 new
      exact fits

/-- A transition to a kind that is there leaves the table sound. -/
lemma keeps_pushTransition {time localIdx : Int} (fits : IntType.int.Fits time) :
    (pushTransition time localIdx).Keeps Data.Sound fun _ => True := by
  rintro ⟨rest, data⟩ h
  unfold pushTransition
  cases found : subscript data.localtimes localIdx with
  | none => trivial
  | some l =>
    refine ⟨⟨fun tr mem => ?_, fun tr mem l' found' => ?_, h.name, h.offset, fun tr mem => ?_⟩, trivial⟩
    · rcases List.mem_append.1 mem with old | new
      · exact h.index tr old
      · obtain rfl := List.mem_singleton.1 new
        exact subscript_range found
    · rcases List.mem_append.1 mem with old | new
      · exact h.clock tr old l' found'
      · obtain rfl := List.mem_singleton.1 new
        rw [show l' = l from Option.some.inj (found'.symm.trans found)]
    · rcases List.mem_append.1 mem with old | new
      · exact h.time tr old
      · obtain rfl := List.mem_singleton.1 new
        exact fits

/-- So do several transitions. -/
lemma keeps_pushTransitions {l : List (Int × Int)} (fits : ∀ p ∈ l, IntType.int.Fits p.1) :
    (pushTransitions l).Keeps Data.Sound fun _ => True := by
  induction l with
  | nil => exact keeps_pure trivial
  | cons p l ih =>
    obtain ⟨time, localIdx⟩ := p
    have ⟨here, rest⟩ := List.forall_mem_cons.1 fits
    exact keeps_bind (keeps_pushTransition here) fun _ _ => ih rest

/-- The abbreviation leaves the table sound. -/
lemma keeps_setAbbreviation {abbreviation : Bytes} :
    (setAbbreviation abbreviation).Keeps Data.Sound fun _ => True :=
  fun _ h => ⟨⟨h.index, h.clock, h.name, h.offset, h.time⟩, trivial⟩

/-- Reading a zone leaves the table sound, whether it succeeds or throws. -/
lemma keeps_readZone : readZone.Keeps Data.Sound fun _ => True := by
  refine keeps_bind keeps_readHeader fun counts _ => keeps_bind keeps_throwIf fun _ _ =>
    keeps_bind (keeps_times keeps_readInt32) fun trans fits => keeps_bind (keeps_times keeps_readUInt8) fun _ _ =>
    keeps_bind (keeps_times keeps_readLocaltime) fun _ _ => keeps_bind (keeps_pushTransitions ?_) fun _ _ =>
    keeps_bind keeps_readBytes fun _ _ => keeps_setAbbreviation
  exact fun p mem => fits p.1 (List.of_mem_zip mem).1

end Keeps

section Any

variable {data : Data} {first : Localtime}

/-- The empty table is sound. -/
lemma sound_empty : Data.Sound ⟨[], [], []⟩ where
  index := by simp
  clock := by simp
  name := by simp
  offset := by simp
  time := by simp

/-- `readTimeZoneFile` returns true and leaves a sound table, whatever the file holds. -/
lemma readTimeZoneFile_sound {zonefile : Option Bytes} {ok : Bool} {stderr : Bytes}
    (h : readTimeZoneFile zonefile ⟨[], [], []⟩ = some (ok, data, stderr)) : ok = true ∧ data.Sound := by
  cases zonefile with
  | none =>
    cases h
    exact ⟨rfl, sound_empty⟩
  | some content =>
    have keeps := keeps_readZone ⟨content, ⟨[], [], []⟩⟩ sound_empty
    unfold readTimeZoneFile at h
    dsimp only at h
    split at h
    case h_1 _ input e =>
      cases h
      rw [e] at keeps
      exact ⟨rfl, keeps.1⟩
    case h_2 what input e =>
      cases h
      rw [e] at keeps
      exact ⟨rfl, keeps⟩
    case h_3 => cases h

/-- Without a kind of local time there is nothing to be found. -/
lemma Data.Sound.findLocaltime_none (sound : data.Sound) (none : data.localtimes = []) (sentry : Transition)
    (comp : Comp) : findLocaltime data sentry comp = .none := by
  have empty : data.transitions = [] := by
    refine List.eq_nil_iff_forall_not_mem.2 fun tr mem => ?_
    have index := sound.index tr mem
    rw [none, List.length_nil] at index
    omega
  rw [findLocaltime, empty, none]
  rfl

/-- A sound table is well-formed up to what the file says of abbreviations and of the order of transitions. -/
lemma Data.Sound.wellFormed_iff (sound : data.Sound) (front : data.localtimes.head? = some first) :
    data.WellFormed first ↔ (∀ l ∈ data.localtimes, l.arrbIdx ≤ data.abbreviation.length) ∧
      (data.transitions.Pairwise fun x y => x.gmttime < y.gmttime) ∧
      data.transitions.Pairwise fun x y => x.localtime < y.localtime := by
  constructor
  · intro wf
    exact ⟨fun l mem => (wf.name l mem).2, wf.sorted, wf.clockSorted⟩
  · rintro ⟨name, sorted, clockSorted⟩
    refine ⟨front, sound.index, fun tr mem => ?_, fun l mem => ⟨(sound.name l mem).1, name l mem⟩, sound.offset,
      sorted, clockSorted⟩
    obtain ⟨lo, hi⟩ := sound.index tr mem
    have found : subscript data.localtimes tr.localtimeIdx = some (data.kind first tr) := by
      rw [Data.kind, subscript, if_pos lo, List.getElem?_eq_getElem (by omega), Option.getD_some]
    exact sound.clock tr mem _ found

end Any

/-- Whatever a file holds, and if it cannot be opened, the time zone made from it counts as valid. Either it has no
    kind of local time, and then every conversion is undefined, or it has a first one, and then the table is
    well-formed unless an abbreviation is outside of the text or the transitions are not in order. -/
theorem ofFile_valid (zonefile : Option Bytes) (tz : TimeZone) (h : TimeZone.ofFile zonefile = some tz) :
    tz.valid = true ∧ ∃ data, tz.data_ = some data ∧
      ((data.localtimes = [] ∧ (∀ seconds, tz.toLocalTime seconds = none) ∧ ∀ tm, tz.fromLocalTime tm = none) ∨
        ∃ first, data.localtimes.head? = some first ∧
          (data.WellFormed first ↔ (∀ l ∈ data.localtimes, l.arrbIdx ≤ data.abbreviation.length) ∧
            (data.transitions.Pairwise fun x y => x.gmttime < y.gmttime) ∧
            data.transitions.Pairwise fun x y => x.localtime < y.localtime)) := by
  unfold TimeZone.ofFile at h
  obtain ⟨⟨ok, data, stderr⟩, e, h⟩ := Option.bind_eq_some_iff.1 h
  obtain ⟨rfl, sound⟩ := readTimeZoneFile_sound e
  cases h
  refine ⟨rfl, data, rfl, ?_⟩
  cases kinds : data.localtimes with
  | nil =>
    refine .inl ⟨rfl, fun seconds => ?_, fun tm => ?_⟩
    · simp [TimeZone.toLocalTime, sound.findLocaltime_none kinds]
    · simp [TimeZone.fromLocalTime, sound.findLocaltime_none kinds]
  | cons first rest =>
    rw [← kinds]
    exact .inr ⟨first, by rw [kinds]; rfl, sound.wellFormed_iff (by rw [kinds]; rfl)⟩

/-- A file that is not there. -/
theorem ofFile_valid_missing : (⟨some ⟨[], [], []⟩⟩ : TimeZone).valid = true ∧
    ∀ seconds, TimeZone.toLocalTime ⟨some ⟨[], [], []⟩⟩ seconds = none := by
  obtain ⟨valid, data, e, none | ⟨first, front, -⟩⟩ := ofFile_valid none ⟨some ⟨[], [], []⟩⟩ rfl
  · exact ⟨valid, none.2.1⟩
  · cases e
    cases front

/-- Central European Time in 2020, in a file. -/
def cet2020File : Bytes :=
  bytes "TZif2" ++ List.replicate 15 0 ++ [0, 0, 0, 2, 2, 9].flatMap be32 ++ [1585443600, 1603587600].flatMap be32 ++
    [1, 0] ++ be32 3600 ++ [0, 0] ++ be32 7200 ++ [1, 4] ++ cet2020.abbreviation

/-- A file with two transitions. -/
theorem ofFile_valid_cet2020 : TimeZone.ofFile (some cet2020File) = some ⟨some cet2020⟩ ∧
    (⟨some cet2020⟩ : TimeZone).valid = true ∧ cet2020.WellFormed ⟨3600, false, 0⟩ := by
  have read : TimeZone.ofFile (some cet2020File) = some ⟨some cet2020⟩ := by decide +kernel
  obtain ⟨valid, data, e, none | ⟨first, front, wellFormed⟩⟩ := ofFile_valid _ _ read
  · cases e
    cases none.1
  · cases e
    cases front
    exact ⟨read, valid, wellFormed.2 ⟨by decide, by decide, by decide⟩⟩

end WebServer.Timer
