import WebServer.Lib.Range
import WebServer.Lib.Fifo

/-!
# System calls and memory

Model of the parts of `sys_wrapper/sysw.cc` the connection uses, of `size_t` subtraction and of byte
arrays.

A kernel answer is an input of the model. `ReadResult` and `WriteResult` are what `read`/`readv` and
`write`/`writev` on a socket may answer: bytes (none of them is EOF), a number of accepted bytes, or an
error. The wrappers return `-1` on an error (`sysw::log_error` only logs). The kernel never delivers
more bytes than the buffers it was given hold nor accepts more than it was offered; `sysw.read` and
`sysw.write` cut the answer down to that.

Array accesses are `load` and `store`; one outside the array is undefined (`none`).
-/

namespace WebServer.Net

/-- A sequence of bytes (`char` is a byte). -/
abbrev Bytes := List UInt8

/-- The byte of an ASCII character literal. -/
def char (c : Char) : UInt8 := c.toNat.toUInt8

/-- The bytes of an ASCII string literal. -/
def bytes (s : String) : Bytes := s.toList.map char

/-- The values of `errno` that matter here. -/
inductive Errno where
  | EAGAIN
  | EPIPE
  | other (n : Nat)
deriving DecidableEq, Repr

/-- The kernel's answer to a read. -/
inductive ReadResult where
  | data (bs : Bytes)
  | error (e : Errno)
deriving DecidableEq, Repr

/-- The kernel's answer to a write. -/
inductive WriteResult where
  | accept (n : Nat)
  | error (e : Errno)
deriving DecidableEq, Repr

/-- The value returned by `sysw::read` or `sysw::readv` into `count` bytes, with the bytes delivered. -/
def sysw.read (count : Nat) : ReadResult → Int × Bytes
  | .data bs => ((bs.take count).length, bs.take count)
  | .error _ => (-1, [])

/-- The value returned by `sysw::write` or `sysw::writev` of the offered bytes. -/
def sysw.write (offered : Bytes) : WriteResult → Int
  | .accept n => (min n offered.length : Nat)
  | .error _ => -1

/-- A call of `write` or `writev`: the bytes offered and the value returned. -/
structure WriteCall where
  offered : Bytes
  ret : Int
deriving DecidableEq, Repr

/-- The bytes of a call that the kernel accepted. -/
def WriteCall.accepted (c : WriteCall) : Bytes := c.offered.take c.ret.toNat

/-- `static constexpr size_t kTmpBuffSize` of both buffers. -/
def kTmpBuffSize : Nat := 65536

/-- Subtraction of `size_t`, which wraps. -/
def usub (a b : Nat) : Nat := if b ≤ a then a - b else 2 ^ 64 - (b - a)

@[simp] lemma usub_of_le {a b} (h : b ≤ a) : usub a b = a - b := if_pos h

/-- The bytes at the positions `p, …, q - 1` of an array. -/
def load (mem : Bytes) (p q : Nat) : Option Bytes :=
  if p ≤ q ∧ q ≤ mem.length then some (Lib.slice mem p q) else none

/-- Overwrite an array with `src` from position `p` on. -/
def store (mem : Bytes) (p : Nat) (src : Bytes) : Option Bytes :=
  if p + src.length ≤ mem.length then
    some (mem.take p ++ src ++ mem.drop (p + src.length))
  else
    none

/-- `std::vector::resize` -/
def resize (mem : Bytes) (n : Nat) : Bytes := mem.take n ++ List.replicate (n - mem.length) 0

/-- No more is written than was offered. -/
lemma sysw.write_le {offered : Bytes} {w} : (sysw.write offered w).toNat ≤ offered.length := by
  cases w with
  | accept n => simp [sysw.write]
  | error e => simp [sysw.write]

/-- A negative return value is an error. -/
lemma sysw.write_neg {offered : Bytes} {w} : sysw.write offered w < 0 ↔ ∃ e, w = .error e := by
  cases w with
  | accept n =>
    simp only [sysw.write, reduceCtorEq, exists_false, iff_false]
    omega
  | error e => simp [sysw.write]

/-- The value returned by a read is the number of bytes delivered, or `-1`. -/
lemma sysw.read_pos {count r} (h : 0 < (sysw.read count r).1) :
    (sysw.read count r).1 = (sysw.read count r).2.length ∧ (sysw.read count r).2 ≠ [] := by
  cases r with
  | data bs =>
    refine ⟨rfl, ?_⟩
    intro e
    simp only [sysw.read] at h e
    simp [e] at h
  | error e => simp [sysw.read] at h

/-- A read that returns no positive count stores nothing. -/
lemma sysw.read_nonpos {count r} (h : (sysw.read count r).1 ≤ 0) : (sysw.read count r).2 = [] := by
  cases r with
  | data bs =>
    simp only [sysw.read] at h ⊢
    exact List.length_eq_zero_iff.1 (by omega)
  | error e => rfl

/-- Storing inside the array is defined; it keeps the length and what lies before, and stores. -/
lemma store_spec {mem src : Bytes} {p} (h : p + src.length ≤ mem.length) :
    ∃ mem', store mem p src = some mem' ∧ mem'.length = mem.length ∧ mem'.take p = mem.take p ∧
      Lib.slice mem' p (p + src.length) = src := by
  have hp : (mem.take p).length = p := by rw [List.length_take]; omega
  refine ⟨_, if_pos h, ?_, ?_, ?_⟩
  · simp only [List.length_append, List.length_take, List.length_drop]
    omega
  · rw [List.append_assoc, List.take_append_of_le_length (Nat.le_of_eq hp.symm), List.take_take,
      Nat.min_self]
  · rw [Lib.slice, Nat.add_sub_cancel_left, List.append_assoc, List.drop_left' hp,
      List.take_left' rfl]

/-- Two stores one after the other are one. -/
lemma store_append {mem a b : Bytes} {p : Nat} :
    ((store mem p a).bind fun mem => store mem (p + a.length) b) = store mem p (a ++ b) := by
  by_cases ha : p + a.length ≤ mem.length
  · have hp : (mem.take p ++ a).length = p + a.length := by
      rw [List.length_append, List.length_take, Nat.min_eq_left (by omega)]
    rw [store, if_pos ha, Option.bind_some, store, store]
    simp only [List.length_append, List.length_take, List.length_drop]
    by_cases hb : p + a.length + b.length ≤ mem.length
    · rw [if_pos (by omega), if_pos (by omega), List.take_left' hp, ← List.drop_drop,
        List.drop_left' hp, List.drop_drop, List.append_assoc, List.append_assoc, List.append_assoc,
        List.append_assoc, Nat.add_assoc]
    · rw [if_neg (by omega), if_neg (by omega)]
  · rw [store, if_neg ha, store, if_neg (by rw [List.length_append]; omega)]
    rfl

/-- A store over the first part of another. -/
lemma store_over {mem mem' a a' b : Bytes} {p : Nat} (e : store mem p (a ++ b) = some mem')
    (len : a'.length = a.length) : store mem' p a' = store mem p (a' ++ b) := by
  unfold store at e
  split at e
  case isFalse => cases e
  case isTrue h =>
    cases e
    have hp : (mem.take p).length = p := by
      rw [List.length_take, Nat.min_eq_left (by omega)]
    have hl : (mem.take p ++ (a ++ b) ++ mem.drop (p + (a ++ b).length)).length = mem.length := by
      simp only [List.length_append, List.length_take, List.length_drop] at h ⊢
      omega
    rw [List.length_append] at h
    rw [store, hl, store, if_pos (by omega), if_pos (by rw [List.length_append]; omega)]
    simp only [List.append_assoc, List.length_append, len]
    rw [List.take_left' hp, ← List.drop_drop, List.drop_left' hp, List.drop_left' rfl]

/-- The first part of what was stored is loaded back. -/
lemma load_store {mem mem' a b : Bytes} {p : Nat} (e : store mem p (a ++ b) = some mem') :
    load mem' p (p + a.length) = some a := by
  unfold store at e
  split at e
  case isFalse => cases e
  case isTrue h =>
    cases e
    have hp : (mem.take p).length = p := by
      rw [List.length_take, Nat.min_eq_left (by omega)]
    have inside : p + a.length ≤ (mem.take p ++ (a ++ b) ++ mem.drop (p + (a ++ b).length)).length := by
      simp only [List.length_append, List.length_take, List.length_drop] at h ⊢
      omega
    rw [load, if_pos ⟨Nat.le_add_right _ _, inside⟩, Lib.slice, Nat.add_sub_cancel_left, List.append_assoc,
      List.drop_left' hp, List.append_assoc, List.take_left' rfl]

/-- The storage has the size it was given. -/
lemma resize_length {mem : Bytes} {n} : (resize mem n).length = n := by
  simp only [resize, List.length_append, List.length_take, List.length_replicate]
  omega

/-- Resizing keeps what lies before the new and the old end. -/
lemma resize_take {mem : Bytes} {n q} (h : q ≤ n) (hm : q ≤ mem.length) :
    (resize mem n).take q = mem.take q := by
  rw [resize, List.take_append_of_le_length (by rw [List.length_take]; omega), List.take_take,
    Nat.min_eq_left h]

end WebServer.Net
