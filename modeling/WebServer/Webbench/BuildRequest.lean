import WebServer.Lib.Range
import WebServer.Log.LogStream

/-!
# The request of the benchmark

Model of `build_request` in `tests/webbench/webbench.c`. The url is a text without NUL. An array of `n` bytes is a
list of that length, and `request`, where everything is appended by `strcat`, is the text in it. To write behind the
end of an array is undefined, and so is to read a text from an array that has no NUL.

`build_request_spec` says which urls are refused, which ones overflow an array, and what is built from the others.
-/

namespace WebServer.Webbench

open Net Log Lib

/-! ## Functions of the C library -/

/-- `strstr(s, pat)` for a pattern that is not empty -/
def strstr (s pat : Bytes) : Option Nat := if searchIdx pat s = s.length then none else some (searchIdx pat s)

/-- `strchr(s, c)` and `index(s, c)` -/
def strchr (s : Bytes) (c : UInt8) : Option Nat := if c ∈ s then some (s.idxOf c) else none

/-- `strcspn(s, reject)` for one character -/
def strcspn (s : Bytes) (c : UInt8) : Nat := s.idxOf c

/-- `tolower` -/
def tolower (c : UInt8) : UInt8 := if 65 ≤ c ∧ c ≤ 90 then c + 32 else c

/-- `strncasecmp(s, t, n) == 0` -/
def sameCase (s t : Bytes) (n : Nat) : Bool := (s.take n).map tolower = (t.take n).map tolower

/-- `strncpy(dest, src, n)` into an array of zeros -/
def strncpy (size : Nat) (src : Bytes) (n : Nat) : Option Bytes :=
  if n ≤ size then some (src.take n ++ List.replicate (size - (src.take n).length) 0) else none

/-- The text in an array. -/
def textIn (mem : Bytes) : Option Bytes := if 0 ∈ mem then some (cstr mem) else none

def isspace (c : UInt8) : Bool := c = 32 ∨ 9 ≤ c ∧ c ≤ 13

/-- The number at the start of a text. -/
def leadingNumber (s : Bytes) : Int :=
  ((s.takeWhile fun d => 48 ≤ d ∧ d ≤ 57).foldl (fun n d => 10 * n + (d.toNat - 48)) 0 : Nat)

/-- `atoi(s)` for a text of less than ten characters -/
def atoi (s : Bytes) : Int :=
  match s.dropWhile isspace with
  | c :: s =>
    if c = char '-' then -leadingNumber s
    else if c = char '+' then leadingNumber s
    else leadingNumber (c :: s)
  | [] => 0

/-! ## The globals -/

/-- `METHOD_GET`, `METHOD_HEAD`, `METHOD_OPTIONS`, `METHOD_TRACE` -/
inductive Method where
  | GET
  | HEAD
  | OPTIONS
  | TRACE
deriving DecidableEq, Repr

def Method.text : Method → Bytes
  | .GET => bytes "GET"
  | .HEAD => bytes "HEAD"
  | .OPTIONS => bytes "OPTIONS"
  | .TRACE => bytes "TRACE"

def MAXHOSTNAMELEN : Nat := 64

def REQUEST_SIZE : Nat := 2048

/-- The options and the url, after `main` has read them. -/
structure Args where
  http10 : Nat
  method : Method
  force_reload : Bool
  proxyhost : Option Bytes
  proxyport : Int
  url : Bytes
  /-- 0 - http/0.9, 1 - http/1.0, 2 - http/1.1 -/
  http10_le : http10 ≤ 2
  url_nul : 0 ∉ url

/-- What `build_request` leaves in the globals. -/
structure Built where
  http10 : Nat
  host : Bytes
  proxyport : Int
  request : Bytes
deriving DecidableEq, Repr

/-- `strcat(request, text)` -/
def strcat (request text : Bytes) : Option Bytes :=
  if request.length + text.length < REQUEST_SIZE then some (request ++ text) else none

/-- The `strcat`s of a list of texts. -/
def strcatAll (request : Bytes) (texts : List Bytes) : Option Bytes := texts.foldlM strcat request

namespace Args

variable (a : Args)

/-- The version that is used. -/
def version : Nat :=
  let http10 := a.http10
  let http10 := if a.force_reload ∧ a.proxyhost ≠ none ∧ http10 < 1 then 1 else http10
  let http10 := if a.method = .HEAD ∧ http10 < 1 then 1 else http10
  let http10 := if a.method = .OPTIONS ∧ http10 < 2 then 2 else http10
  if a.method = .TRACE ∧ http10 < 2 then 2 else http10

/-- The host and the port are taken from the url, after its `i` first characters. -/
def splitHost (i : Nat) : Option (Bytes × Int) :=
  let rest := a.url.drop i
  match strchr rest (char ':'), strchr rest (char '/') with
  | some colon, some slash =>
    if colon < slash then do
      let host ← strncpy MAXHOSTNAMELEN rest colon
      let tmp ← strncpy 10 (rest.drop (colon + 1)) (slash - colon - 1)
      let port := atoi (← textIn tmp)
      some (host, if port = 0 then 80 else port)
    else do
      some (← strncpy MAXHOSTNAMELEN rest (strcspn rest (char '/')), a.proxyport)
  | _, _ => do
    some (← strncpy MAXHOSTNAMELEN rest (strcspn rest (char '/')), a.proxyport)

/-- The host, if it is sent. -/
def hostTexts (host : Bytes) : Option (List Bytes) :=
  if a.proxyhost = none ∧ a.version > 0 then do
    some [bytes "Host: ", ← textIn host, bytes "\r\n"]
  else
    some []

/-- The texts that follow the target in the request. -/
def texts (hostTexts : List Bytes) : List Bytes :=
  (if a.version = 1 then [bytes " HTTP/1.0"] else if a.version = 2 then [bytes " HTTP/1.1"] else []) ++
  [bytes "\r\n"] ++
  (if a.version > 0 then [bytes "User-Agent: WebBench 1.5\r\n"] else []) ++
  hostTexts ++
  (if a.force_reload ∧ a.proxyhost ≠ none then [bytes "Pragma: no-cache\r\n"] else []) ++
  (if a.version > 1 then [bytes "Connection: close\r\n"] else []) ++
  if a.version > 0 then [bytes "\r\n"] else []

/-- The end of `build_request`, from the target on. -/
def finish (request target host : Bytes) (proxyport : Int) : Option (Except Nat Built) := do
  let request ← strcatAll request (target :: a.texts (← a.hostTexts host))
  some (.ok ⟨a.version, host, proxyport, request⟩)

/-- `build_request`; `.error` has the status of `exit`. -/
def build_request : Option (Except Nat Built) := do
  let request ← strcat (← strcat [] a.method.text) (bytes " ")
  match strstr a.url (bytes "://") with
  | none => some (.error 2)
  | some delimiter =>
    if a.url.length > 1500 then
      some (.error 2)
    else if ¬sameCase (bytes "http://") a.url 7 then
      some (.error 2)
    else
      let i := delimiter + 3
      if strchr (a.url.drop i) (char '/') = none then
        some (.error 2)
      else if a.proxyhost = none then do
        let (host, proxyport) ← a.splitHost i
        a.finish request ((a.url.drop i).drop (strcspn (a.url.drop i) (char '/'))) host proxyport
      else
        a.finish request a.url (List.replicate MAXHOSTNAMELEN 0) a.proxyport

end Args

/-! ## Urls -/

/-- The parts of a url. -/
structure Url where
  scheme : Bytes
  host : Bytes
  port : Option Bytes
  target : Bytes
  scheme_http : scheme.map tolower = bytes "http"
  host_colon : char ':' ∉ host
  host_slash : char '/' ∉ host
  port_slash : ∀ p ∈ port, char '/' ∉ p
  target_slash : target.head? = some (char '/')

namespace Url

variable (u : Url)

/-- What follows the scheme. -/
def rest : Bytes := u.host ++ u.port.elim [] (char ':' :: ·) ++ u.target

def text : Bytes := u.scheme ++ bytes "://" ++ u.rest

/-- The host and the port fit into their arrays. -/
def Fits (version : Nat) : Prop :=
  (u.host.length < MAXHOSTNAMELEN ∨ u.host.length = MAXHOSTNAMELEN ∧ version = 0) ∧ ∀ p ∈ u.port, p.length < 10

end Url

/-- A character before the letters is the lower case of itself only. -/
lemma tolower_sep {c d : UInt8} (h : tolower c = d) (hd : d < 65) : c = d := by
  unfold tolower at h
  split at h
  case isTrue upper =>
    subst h
    obtain ⟨lo, hi⟩ := upper
    rw [UInt8.le_iff_toNat_le] at lo hi
    rw [UInt8.lt_iff_toNat_lt, UInt8.toNat_add] at hd
    simp at lo hi hd
    omega
  case isFalse => exact h

/-- The start of a url that is looked at is compared up to the case of the letters. -/
lemma sameCase_iff {url : Bytes} : sameCase (bytes "http://") url 7 = true ↔
    ∃ scheme rest, scheme.map tolower = bytes "http" ∧ url = scheme ++ bytes "://" ++ rest := by
  have lower : ((bytes "http://").take 7).map tolower = bytes "http" ++ bytes "://" := by decide
  rw [sameCase, decide_eq_true_iff, lower]
  constructor
  · intro h
    obtain ⟨scheme, sep, split, hs, hsep⟩ := List.map_eq_append_iff.1 h.symm
    have same : sep = bytes "://" := by
      have sep_eq : sep.map tolower = (bytes "://").map id := hsep
      refine List.map_injective_iff.2 Function.injective_id ?_
      rw [← sep_eq]
      refine List.map_congr_left fun c hc => ?_
      have small : ((bytes "://").all fun d => d < 65) = true := by decide
      have lower : tolower c ∈ sep.map tolower := List.mem_map_of_mem hc
      rw [hsep] at lower
      exact tolower_sep rfl (of_decide_eq_true (List.all_eq_true.1 small _ lower))
    refine ⟨scheme, url.drop 7, hs, ?_⟩
    rw [← same, ← split, List.take_append_drop]
  · rintro ⟨scheme, rest, hs, rfl⟩
    have four : scheme.length = 4 := by
      rw [← List.length_map tolower, hs]
      decide
    have seven : (scheme ++ bytes "://").length = 7 := by
      rw [List.length_append, four]
      decide
    have sep : (bytes "://").map tolower = bytes "://" := by decide
    rw [List.take_left' seven, List.map_append, hs, sep]

section Split

variable {scheme rest : Bytes}

/-- A scheme that reads `http` has four characters. -/
lemma scheme_length (h : scheme.map tolower = bytes "http") : scheme.length = 4 := by
  rw [← List.length_map tolower, h]
  decide

/-- The scheme has no colon. -/
lemma strstr_scheme (h : scheme.map tolower = bytes "http") :
    strstr (scheme ++ bytes "://" ++ rest) (bytes "://") = some 4 := by
  have colon : char ':' ∉ scheme := by
    intro mem
    have mem := List.mem_map_of_mem (f := tolower) mem
    rw [h] at mem
    exact absurd mem (by decide)
  have found : searchIdx (bytes "://") (scheme ++ bytes "://" ++ rest) = scheme.length :=
    searchIdx_of_notMem colon
  have sep : (bytes "://").length = 3 := by decide
  rw [strstr, found, if_neg, scheme_length h]
  rw [List.length_append, List.length_append, sep]
  omega

/-- What stands after the scheme. -/
lemma drop_scheme (h : scheme.map tolower = bytes "http") : (scheme ++ bytes "://" ++ rest).drop (4 + 3) = rest := by
  have sep : (bytes "://").length = 3 := by decide
  refine List.drop_left' ?_
  rw [List.length_append, scheme_length h, sep]

end Split

/-- What follows the scheme of a url, if it has a slash, is split into the parts. -/
lemma Url.exists_rest {scheme rest : Bytes} (h : scheme.map tolower = bytes "http") (slash : char '/' ∈ rest) :
    ∃ u : Url, u.scheme = scheme ∧ u.rest = rest := by
  obtain ⟨authority, target, rfl, no⟩ := List.eq_append_cons_of_mem slash
  by_cases colon : char ':' ∈ authority
  · obtain ⟨host, port, rfl, nc⟩ := List.eq_append_cons_of_mem colon
    rw [List.mem_append, not_or, List.mem_cons, not_or] at no
    refine ⟨⟨scheme, host, some port, char '/' :: target, h, nc, no.1, ?_, rfl⟩, rfl, rfl⟩
    rintro _ ⟨⟩
    exact no.2.2
  · refine ⟨⟨scheme, authority, none, char '/' :: target, h, colon, no, nofun, rfl⟩, rfl, ?_⟩
    simp [Url.rest]

/-! ## The host and the port -/

/-- A text in an array of zeros can be read if a zero is left. -/
lemma textIn_array {s : Bytes} {size : Nat} (nul : 0 ∉ s) :
    textIn (s ++ List.replicate (size - s.length) 0) = if s.length < size then some s else none := by
  unfold textIn
  split
  case isTrue mem =>
    rw [List.mem_append, or_iff_right nul, List.mem_replicate] at mem
    obtain ⟨k, hk⟩ := Nat.exists_eq_succ_of_ne_zero mem.1
    rw [if_pos (by omega), cstr, List.takeWhile_append_of_pos, hk, List.replicate_succ, List.takeWhile_cons_of_neg,
      List.append_nil]
    · simp
    · exact fun c hc => decide_eq_true fun e => nul (e ▸ hc)
  case isFalse notMem =>
    rw [List.mem_append, not_or, List.mem_replicate] at notMem
    rw [if_neg]
    intro lt
    exact notMem.2 ⟨by omega, rfl⟩

/-- Copying a first part needs an array that holds it. -/
lemma strncpy_take {size : Nat} {s t : Bytes} : strncpy size (s ++ t) s.length =
    if s.length ≤ size then some (s ++ List.replicate (size - s.length) 0) else none := by
  rw [strncpy, List.take_left' rfl]

namespace Url

variable {u : Url}

/-- What is before the target. -/
def authority (u : Url) : Bytes := u.host ++ u.port.elim [] (char ':' :: ·)

/-- The authority has no slash. -/
lemma authority_slash : char '/' ∉ u.authority := by
  unfold authority
  cases h : u.port with
  | none =>
    rw [Option.elim_none, List.append_nil]
    exact u.host_slash
  | some p =>
    rw [Option.elim_some, List.mem_append, not_or, List.mem_cons, not_or]
    exact ⟨u.host_slash, by decide, u.port_slash p h⟩

/-- The first slash is that of the target. -/
lemma strchr_slash : strchr u.rest (char '/') = some u.authority.length := by
  obtain ⟨target, e⟩ := List.head?_eq_some_iff.1 u.target_slash
  have rest : u.rest = u.authority ++ char '/' :: target := by rw [← e]; rfl
  rw [strchr, rest, if_pos (by simp), List.idxOf_append_of_notMem authority_slash, List.idxOf_cons_self]
  rfl

/-- The first slash ends the authority. -/
lemma strcspn_slash : strcspn u.rest (char '/') = u.authority.length := by
  have slash := @strchr_slash u
  unfold strchr at slash
  split at slash
  case isTrue => exact Option.some.inj slash
  case isFalse => cases slash

/-- What stands after the authority. -/
lemma drop_authority : u.rest.drop u.authority.length = u.target := List.drop_left' rfl

/-- The number of the port. -/
def portNumber (u : Url) (proxyport : Int) : Int :=
  u.port.elim proxyport fun p => if atoi p = 0 then 80 else atoi p

/-- The array with the host. -/
def hostArray (u : Url) : Bytes := u.host ++ List.replicate (MAXHOSTNAMELEN - u.host.length) 0

end Url

/-- Host and port are taken apart when both fit their arrays. -/
lemma splitHost_eq {a : Args} {u : Url} (h : a.url.drop 7 = u.rest) :
    a.splitHost 7 = if u.host.length ≤ MAXHOSTNAMELEN ∧ ∀ p ∈ u.port, p.length < 10 then
      some (u.hostArray, u.portNumber a.proxyport) else none := by
  have slash := @Url.strchr_slash u
  have copied : strncpy MAXHOSTNAMELEN u.rest u.host.length =
      if u.host.length ≤ MAXHOSTNAMELEN then some u.hostArray else none := by
    rw [Url.rest, List.append_assoc, strncpy_take]
    rfl
  unfold Args.splitHost
  rw [h]
  dsimp only
  rw [slash]
  cases port : u.port with
  | some p =>
    have rest : u.rest = u.host ++ char ':' :: (p ++ u.target) := by
      rw [Url.rest, port, Option.elim_some, List.append_assoc, List.cons_append]
    have authority : u.authority.length = u.host.length + 1 + p.length := by
      rw [Url.authority, port, Option.elim_some, List.length_append, List.length_cons]
      omega
    have colon : strchr u.rest (char ':') = some u.host.length := by
      rw [strchr, rest, if_pos (by simp), List.idxOf_append_of_notMem u.host_colon, List.idxOf_cons_self]
      rfl
    have nul : 0 ∉ p := by
      intro mem
      have inside : 0 ∈ a.url.drop 7 := by
        rw [h, rest]
        simp [mem]
      exact a.url_nul (List.mem_of_mem_drop inside)
    have tmp : strncpy 10 (u.rest.drop (u.host.length + 1)) (u.authority.length - u.host.length - 1) =
        if p.length ≤ 10 then some (p ++ List.replicate (10 - p.length) 0) else none := by
      have after : u.rest.drop (u.host.length + 1) = p ++ u.target := by
        rw [rest, ← List.singleton_append, ← List.append_assoc]
        exact List.drop_left' (by simp)
      rw [after, show u.authority.length - u.host.length - 1 = p.length by omega, strncpy_take]
    rw [colon]
    dsimp only
    rw [if_pos (by omega), copied, tmp, Url.portNumber, port]
    by_cases fits : u.host.length ≤ MAXHOSTNAMELEN
    · by_cases short : p.length < 10
      · have text : textIn (p ++ List.replicate (10 - p.length) 0) = some p := by
          rw [textIn_array nul, if_pos short]
        simp [fits, short, short.le, text]
      · have text : textIn (p ++ List.replicate (10 - p.length) 0) = none := by
          rw [textIn_array nul, if_neg short]
        by_cases full : p.length ≤ 10 <;> simp [fits, short, full, text]
    · simp [fits]
  | none =>
    have authority : u.authority = u.host := by
      rw [Url.authority, port, Option.elim_none, List.append_nil]
    have fallback : (do some (← strncpy MAXHOSTNAMELEN u.rest (strcspn u.rest (char '/')), a.proxyport)) =
        if u.host.length ≤ MAXHOSTNAMELEN ∧ ∀ p ∈ u.port, p.length < 10 then
          some (u.hostArray, u.portNumber a.proxyport) else none := by
      rw [Url.strcspn_slash, authority, copied, Url.portNumber, port]
      by_cases fits : u.host.length ≤ MAXHOSTNAMELEN
      · simp [fits]
      · simp [fits]
    rw [← port, ← fallback]
    cases colon : strchr u.rest (char ':') with
    | none => rfl
    | some c =>
      dsimp only
      refine if_neg ?_
      -- a colon in the target is after the slash
      have rest : u.rest = u.host ++ u.target := by
        rw [Url.rest, port, Option.elim_none, List.append_nil]
      unfold strchr at colon
      split at colon
      case isTrue =>
        rw [← Option.some.inj colon, rest, List.idxOf_append_of_notMem u.host_colon, authority]
        omega
      case isFalse => cases colon

/-! ## The request -/

/-- The texts after the target, with the host of the url. -/
def Args.tail (a : Args) (u : Url) : List Bytes :=
  a.texts (if a.proxyhost = none ∧ a.version > 0 then [bytes "Host: ", u.host, bytes "\r\n"] else [])

/-- What is built from a url. -/
def Args.built (a : Args) (u : Url) : Built where
  http10 := a.version
  host := if a.proxyhost = none then u.hostArray else List.replicate MAXHOSTNAMELEN 0
  proxyport := if a.proxyhost = none then u.portNumber a.proxyport else a.proxyport
  request := a.method.text ++ bytes " " ++ (if a.proxyhost = none then u.target else a.url) ++ (a.tail u).flatten

section Request

variable {a : Args} {u : Url} {request : Bytes} {texts : List Bytes}

/-- Texts that fit the request are appended. -/
lemma strcatAll_eq (h : request.length + texts.flatten.length < REQUEST_SIZE) :
    strcatAll request texts = some (request ++ texts.flatten) := by
  induction texts generalizing request with
  | nil => simp [strcatAll]
  | cons t ts ih =>
    rw [List.flatten_cons, List.length_append] at h
    have first : strcat request t = some (request ++ t) := if_pos (by omega)
    rw [strcatAll, List.foldlM_cons, first, List.flatten_cons, ← List.append_assoc]
    exact ih (by rw [List.length_append]; omega)

/-- The headers are short. -/
lemma tail_length (fits : a.proxyhost = none → u.host.length ≤ MAXHOSTNAMELEN) : (a.tail u).flatten.length ≤ 148 := by
  have version : (if a.version = 1 then [bytes " HTTP/1.0"] else
      if a.version = 2 then [bytes " HTTP/1.1"] else []).flatten.length ≤ 9 := by
    split_ifs <;> decide
  have line : [bytes "\r\n"].flatten.length ≤ 2 := by decide
  have agent : (if a.version > 0 then [bytes "User-Agent: WebBench 1.5\r\n"] else []).flatten.length ≤ 26 := by
    split_ifs <;> decide
  have host : (if a.proxyhost = none ∧ a.version > 0 then [bytes "Host: ", u.host, bytes "\r\n"]
      else []).flatten.length ≤ 72 := by
    have key : (bytes "Host: ").length = 6 := by decide
    have line : (bytes "\r\n").length = 2 := by decide
    split_ifs with sent
    · have fits : u.host.length ≤ 64 := fits sent.1
      simp only [List.flatten_cons, List.flatten_nil, List.length_append, List.length_nil, key, line]
      omega
    · decide
  have reload : (if a.force_reload ∧ a.proxyhost ≠ none then
      [bytes "Pragma: no-cache\r\n"] else []).flatten.length ≤ 18 := by
    split_ifs <;> decide
  have close : (if a.version > 1 then [bytes "Connection: close\r\n"] else []).flatten.length ≤ 19 := by
    split_ifs <;> decide
  have last : (if a.version > 0 then [bytes "\r\n"] else []).flatten.length ≤ 2 := by
    split_ifs <;> decide
  unfold Args.tail Args.texts
  simp only [List.flatten_append, List.length_append]
  omega

/-- A method with its space has at most eight characters. -/
lemma method_length : (a.method.text ++ bytes " ").length ≤ 8 := by
  cases a.method <;> decide

/-- With room for it, the request is finished. -/
lemma finish_eq {target host : Bytes} {proxyport : Int} {lines : List Bytes} (h : a.hostTexts host = some lines)
    (room : request.length + (target.length + (a.texts lines).flatten.length) < REQUEST_SIZE) :
    a.finish request target host proxyport =
      some (.ok ⟨a.version, host, proxyport, request ++ target ++ (a.texts lines).flatten⟩) := by
  have all := @strcatAll_eq request (target :: a.texts lines) (by rw [List.flatten_cons, List.length_append]; exact room)
  rw [Args.finish, h, Option.bind_eq_bind, Option.bind_some, all, List.flatten_cons, List.append_assoc]
  rfl

/-- The host is read only if it is sent. -/
lemma hostTexts_eq (direct : a.proxyhost = none) (nul : 0 ∉ u.host) :
    a.hostTexts u.hostArray =
      if a.version > 0 then
        if u.host.length < MAXHOSTNAMELEN then some [bytes "Host: ", u.host, bytes "\r\n"] else none
      else
        some [] := by
  unfold Args.hostTexts Url.hostArray
  rw [textIn_array nul]
  by_cases sent : a.version > 0
  · by_cases short : u.host.length < MAXHOSTNAMELEN
    · simp [direct, sent, short]
    · simp [direct, sent, short]
  · simp [sent]

/-- The method always fits the request. -/
lemma strcat_method : strcat [] a.method.text = some a.method.text ∧
    strcat a.method.text (bytes " ") = some (a.method.text ++ bytes " ") := by
  cases a.method <;> decide

/-- The url begins like `http://`, in any case. -/
lemma text_form (h : a.url = u.text) : sameCase (bytes "http://") a.url 7 = true :=
  sameCase_iff.2 ⟨u.scheme, u.rest, u.scheme_http, h⟩

/-- A url of the right form and length is not refused. -/
lemma build_request_accepted (h : a.url = u.text) (short : a.url.length ≤ 1500) :
    a.build_request = if a.proxyhost = none then
        (a.splitHost 7).bind fun (host, proxyport) => a.finish (a.method.text ++ bytes " ") u.target host proxyport
      else
        a.finish (a.method.text ++ bytes " ") a.url (List.replicate MAXHOSTNAMELEN 0) a.proxyport := by
  have found : strstr a.url (bytes "://") = some 4 := by
    rw [h]
    exact strstr_scheme u.scheme_http
  have rest : a.url.drop (4 + 3) = u.rest := by
    rw [h]
    exact drop_scheme u.scheme_http
  have form := text_form h
  unfold Args.build_request
  rw [strcat_method.1, Option.bind_eq_bind, Option.bind_some, strcat_method.2, Option.bind_some, found]
  dsimp only
  rw [if_neg (by omega), if_neg (not_not.2 form), rest, Url.strchr_slash, if_neg (by simp), Url.strcspn_slash,
    Url.drop_authority]
  rfl

/-- Any other url is refused. -/
lemma build_request_refused (h : ¬∃ u : Url, a.url = u.text ∧ a.url.length ≤ 1500) :
    a.build_request = some (.error 2) := by
  unfold Args.build_request
  rw [strcat_method.1, Option.bind_eq_bind, Option.bind_some, strcat_method.2, Option.bind_some]
  cases found : strstr a.url (bytes "://") with
  | none => rfl
  | some delimiter =>
    dsimp only
    split
    case isTrue => rfl
    case isFalse short =>
      split
      case isTrue => rfl
      case isFalse form =>
        obtain ⟨scheme, rest, hs, url⟩ := sameCase_iff.1 (not_not.1 form)
        have four := found
        rw [url, strstr_scheme hs] at four
        cases four
        rw [url, drop_scheme hs]
        -- without a slash there is no target
        refine if_pos ?_
        by_contra slash
        have mem : char '/' ∈ rest := by
          by_contra notMem
          exact slash (if_neg notMem)
        obtain ⟨u, rfl, rfl⟩ := Url.exists_rest hs mem
        exact h ⟨u, url, by omega⟩

/-- Parts of a url are no longer than the url, and have no zero byte. -/
lemma rest_length (h : a.url = u.text) : u.target.length ≤ a.url.length ∧ (0 ∉ u.host) := by
  have nul := a.url_nul
  rw [h, Url.text, Url.rest] at nul
  rw [h, Url.text, Url.rest]
  simp only [List.mem_append, not_or] at nul
  simp only [List.length_append]
  exact ⟨by omega, nul.2.1.1⟩

/-- The request for a url of at most 1500 characters fits. -/
lemma request_length (h : a.url = u.text) (short : a.url.length ≤ 1500)
    (fits : a.proxyhost = none → u.host.length ≤ MAXHOSTNAMELEN) :
    (a.method.text ++ bytes " ").length + ((if a.proxyhost = none then u.target else a.url).length +
      (a.tail u).flatten.length) < REQUEST_SIZE := by
  have method := @method_length a
  have tail := tail_length fits
  have target := (rest_length h).1
  have size : REQUEST_SIZE = 2048 := rfl
  split_ifs <;> omega

/-- A proxy gets the whole url. -/
lemma built_proxy (h : a.url = u.text) (short : a.url.length ≤ 1500) (proxy : a.proxyhost ≠ none) :
    a.build_request = some (.ok (a.built u)) ∧ (a.built u).request.length < REQUEST_SIZE := by
  have texts : a.hostTexts (List.replicate MAXHOSTNAMELEN 0) = some [] := if_neg fun h => proxy h.1
  have tail : a.tail u = a.texts [] := by rw [Args.tail, if_neg fun h => proxy h.1]
  have room := request_length h short fun direct => absurd direct proxy
  rw [if_neg proxy, tail] at room
  rw [build_request_accepted h short, if_neg proxy, finish_eq texts room, Args.built, if_neg proxy, if_neg proxy,
    if_neg proxy, tail]
  refine ⟨rfl, ?_⟩
  rwa [List.length_append, List.length_append, Nat.add_assoc]

/-- Without a proxy the request is built when the host and port fit. -/
lemma built_direct (h : a.url = u.text) (short : a.url.length ≤ 1500) (direct : a.proxyhost = none)
    (fits : u.Fits a.version) :
    a.build_request = some (.ok (a.built u)) ∧ (a.built u).request.length < REQUEST_SIZE := by
  have le : u.host.length ≤ MAXHOSTNAMELEN := by
    rcases fits.1 with lt | ⟨eq, _⟩
    · exact lt.le
    · exact eq.le
  have rest : a.url.drop 7 = u.rest := by
    rw [h]
    exact drop_scheme u.scheme_http
  have texts : a.hostTexts u.hostArray =
      some (if a.proxyhost = none ∧ a.version > 0 then [bytes "Host: ", u.host, bytes "\r\n"] else []) := by
    rw [hostTexts_eq direct (rest_length h).2]
    by_cases sent : a.version > 0
    · have lt : u.host.length < MAXHOSTNAMELEN := by
        rcases fits.1 with lt | ⟨_, zero⟩
        · exact lt
        · omega
      rw [if_pos sent, if_pos lt, if_pos ⟨direct, sent⟩]
    · rw [if_neg sent, if_neg fun h => sent h.2]
  have room := request_length h short fun _ => le
  rw [if_pos direct] at room
  rw [build_request_accepted h short, if_pos direct, splitHost_eq rest, if_pos ⟨le, fits.2⟩, Option.bind_some]
  dsimp only
  rw [finish_eq texts room, Args.built, if_pos direct, if_pos direct, if_pos direct]
  refine ⟨rfl, ?_⟩
  rwa [List.length_append, List.length_append, Nat.add_assoc]

/-- Without a proxy an array is overrun when they do not. -/
lemma overrun_direct (h : a.url = u.text) (short : a.url.length ≤ 1500) (direct : a.proxyhost = none)
    (overrun : ¬u.Fits a.version) : a.build_request = none := by
  have rest : a.url.drop 7 = u.rest := by
    rw [h]
    exact drop_scheme u.scheme_http
  rw [build_request_accepted h short, if_pos direct, splitHost_eq rest]
  split
  case isTrue copied =>
    -- the host fills its array, and is read for the header
    have full : u.host.length = MAXHOSTNAMELEN ∧ a.version ≠ 0 := by
      unfold Url.Fits at overrun
      have ⟨le, port⟩ := copied
      by_contra no
      refine overrun ⟨?_, port⟩
      omega
    rw [Option.bind_some]
    dsimp only
    rw [Args.finish, hostTexts_eq direct (rest_length h).2, if_pos (by omega), if_neg (by omega)]
    rfl
  case isFalse => rfl

/-- What is built for a direct connection is built from the parts of the url. -/
lemma built_of_ok {b : Built} (h : a.url = u.text) (direct : a.proxyhost = none)
    (ok : a.build_request = some (.ok b)) : b = a.built u := by
  by_cases short : a.url.length ≤ 1500
  · by_cases fits : u.Fits a.version
    · rw [(built_direct h short direct fits).1] at ok
      cases ok
      rfl
    · rw [overrun_direct h short direct fits] at ok
      cases ok
  · rw [build_request_refused fun ⟨_, _, le⟩ => short le] at ok
    cases ok

end Request

/-- What `build_request` makes of the options and a url. A url that is not of the form `http://host[:port]/...`, with
    the letters of `http` in either case, or is longer than 1500 characters is refused. From any other one a request
    is built that fits into its array, unless the url is for a direct connection and its host or its port are too
    long for their arrays, which are then overrun. -/
theorem build_request_spec (a : Args) :
    (a.build_request = some (.error 2) ∧ ¬∃ u : Url, a.url = u.text ∧ a.url.length ≤ 1500) ∨
      ∃ u : Url, a.url = u.text ∧ a.url.length ≤ 1500 ∧
        (a.proxyhost ≠ none ∨ u.Fits a.version →
          a.build_request = some (.ok (a.built u)) ∧ (a.built u).request.length < REQUEST_SIZE) ∧
        (a.proxyhost = none ∧ ¬u.Fits a.version → a.build_request = none) := by
  by_cases form : ∃ u : Url, a.url = u.text ∧ a.url.length ≤ 1500
  · obtain ⟨u, url, short⟩ := form
    refine .inr ⟨u, url, short, ?_, ?_⟩
    · intro fits
      by_cases direct : a.proxyhost = none
      · exact built_direct url short direct (fits.resolve_left (not_not.2 direct))
      · exact built_proxy url short direct
    · rintro ⟨direct, overrun⟩
      exact overrun_direct url short direct overrun
  · exact .inl ⟨build_request_refused form, form⟩

end WebServer.Webbench
