import Mathlib.Data.Nat.Notation
import Mathlib.Tactic.Ring

/-!
# Byte strings and little-endian integers

Byte strings are lists of bytes. `leBytes k n` is the `k`-byte little-endian encoding of `n` and
`leNat` the value of a byte string; on encodings that fit they invert each other. `FixedBytes n`
is a byte array of a fixed length, which carries its length.
-/

namespace Lib

/-- Byte strings. -/
abbrev Bytes := List UInt8

/-- The bytes of a text. -/
def utf8 (s : String) : Bytes := s.toUTF8.data.toList

/-- The text a byte string encodes, when it is well-formed UTF-8. -/
def ofUtf8? (bs : Bytes) : Option String := String.fromUTF8? ⟨bs.toArray⟩

theorem ofUtf8?_utf8 (s : String) : ofUtf8? (utf8 s) = some s := by
  have h : (⟨(utf8 s).toArray⟩ : ByteArray) = s.toByteArray := by
    simp [utf8]
  unfold ofUtf8? String.fromUTF8?
  rw [h, dif_pos s.isValidUTF8]
  rfl

theorem ofUtf8?_eq_some {bs : Bytes} {s : String} : ofUtf8? bs = some s ↔ utf8 s = bs := by
  constructor
  · intro h
    unfold ofUtf8? String.fromUTF8? at h
    split at h
    · cases h
      rfl
    · cases h
  · rintro rfl
    exact ofUtf8?_utf8 s

theorem utf8_append (s t : String) : utf8 (s ++ t) = utf8 s ++ utf8 t := by
  simp [utf8]

theorem utf8_injective {s t : String} (h : utf8 s = utf8 t) : s = t := by
  have hs := ofUtf8?_utf8 s
  rw [h, ofUtf8?_utf8 t] at hs
  exact (Option.some.inj hs).symm

/-- `bs[start..start + len]`, when the range lies inside `bs`. -/
def slice? (bs : Bytes) (start len : Nat) : Option Bytes :=
  if start + len ≤ bs.length then some ((bs.drop start).take len) else none

theorem slice?_eq_some {bs a : Bytes} {start len : Nat} :
    slice? bs start len = some a ↔
      ∃ pre post, bs = pre ++ a ++ post ∧ pre.length = start ∧ a.length = len := by
  unfold slice?
  constructor
  · intro h
    split at h
    · rename_i hle
      cases h
      refine ⟨bs.take start, (bs.drop start).drop len, ?_, ?_, ?_⟩
      · rw [List.append_assoc, List.take_append_drop, List.take_append_drop]
      · rw [List.length_take]
        omega
      · rw [List.length_take, List.length_drop]
        omega
    · cases h
  · rintro ⟨pre, post, rfl, rfl, rfl⟩
    rw [if_pos (by simp)]
    simp

theorem slice?_length {bs a : Bytes} {start len : Nat} (h : slice? bs start len = some a) :
    a.length = len := by
  obtain ⟨_, _, _, _, hl⟩ := slice?_eq_some.1 h
  exact hl

/-- A range after a prefix is a range of what follows the prefix. -/
theorem slice?_append (pre bs : Bytes) (start len : Nat) :
    slice? (pre ++ bs) (pre.length + start) len = slice? bs start len := by
  have h : pre.length + start + len ≤ (pre ++ bs).length ↔ start + len ≤ bs.length := by
    rw [List.length_append]
    omega
  simp only [slice?, h, List.drop_append, Nat.add_sub_cancel_left]
  rw [List.drop_eq_nil_of_le (by omega), List.nil_append]

/-! ## Little-endian integers -/

/-- The little-endian value of a byte string. -/
def leNat : Bytes → Nat
  | [] => 0
  | b :: bs => b.toNat + 256 * leNat bs

/-- The low `k` bytes of a number, least significant first. -/
def leBytes : Nat → Nat → Bytes
  | 0, _ => []
  | k + 1, n => UInt8.ofNat n :: leBytes k (n / 256)

@[simp] theorem length_leBytes (k n : Nat) : (leBytes k n).length = k := by
  induction k generalizing n with
  | zero => rfl
  | succ k ih => simp [leBytes, ih]

theorem leNat_lt (bs : Bytes) : leNat bs < 256 ^ bs.length := by
  induction bs with
  | nil => simp [leNat]
  | cons b bs ih =>
    have hb : b.toNat < 256 := b.toNat_lt
    simp only [leNat, List.length_cons, pow_succ]
    omega

theorem leNat_append (a b : Bytes) : leNat (a ++ b) = leNat a + 256 ^ a.length * leNat b := by
  induction a with
  | nil => simp [leNat]
  | cons x a ih =>
    rw [List.cons_append, leNat, leNat, ih, List.length_cons, pow_succ', Nat.mul_add, Nat.mul_assoc]
    omega

theorem leNat_leBytes (k n : Nat) : leNat (leBytes k n) = n % 256 ^ k := by
  induction k generalizing n with
  | zero => simp [leBytes, leNat, Nat.mod_one]
  | succ k ih =>
    have h : n % 256 ^ (k + 1) = n % 256 + 256 * (n / 256 % 256 ^ k) := by
      rw [pow_succ', Nat.mod_mul]
    simp [leBytes, leNat, ih, h]

theorem leBytes_leNat (bs : Bytes) : leBytes bs.length (leNat bs) = bs := by
  induction bs with
  | nil => rfl
  | cons b bs ih =>
    have hb : b.toNat < 256 := b.toNat_lt
    have hdiv : (b.toNat + 256 * leNat bs) / 256 = leNat bs := by omega
    have hmod : UInt8.ofNat (b.toNat + 256 * leNat bs) = b := by
      apply UInt8.toNat_inj.1
      simp
    simp [leBytes, leNat, hdiv, hmod, ih]

/-- The big-endian value of a byte string. -/
def beNat (bs : Bytes) : Nat := bs.foldl (fun n b => 256 * n + b.toNat) 0

theorem beNat_reverse (bs : Bytes) : beNat bs.reverse = leNat bs := by
  rw [beNat, List.foldl_reverse]
  induction bs with
  | nil => rfl
  | cons b bs ih => rw [List.foldr_cons, ih, leNat, Nat.add_comm]

/-! ## Byte arrays of a fixed length -/

/-- Byte arrays of length `n`. -/
structure FixedBytes (n : Nat) where
  bytes : Bytes
  length_eq : bytes.length = n
deriving DecidableEq

namespace FixedBytes

variable {n : Nat}

@[ext] theorem ext {a b : FixedBytes n} (h : a.bytes = b.bytes) : a = b := by
  cases a
  cases b
  cases h
  rfl

/-- The array of a byte string, when it has the right length. -/
def ofBytes? (bs : Bytes) : Option (FixedBytes n) :=
  if h : bs.length = n then some ⟨bs, h⟩ else none

theorem ofBytes?_eq_some {bs : Bytes} {a : FixedBytes n} :
    ofBytes? bs = some a ↔ a.bytes = bs := by
  unfold ofBytes?
  constructor
  · intro h
    split at h
    · cases h
      rfl
    · cases h
  · rintro rfl
    rw [dif_pos a.length_eq]

@[simp] theorem ofBytes?_bytes (a : FixedBytes n) : ofBytes? a.bytes = some a :=
  ofBytes?_eq_some.2 rfl

/-- The big-endian array of a number. -/
def ofNat {n : Nat} (v : Nat) : FixedBytes n := ⟨(leBytes n v).reverse, by simp⟩

/-- The order of byte arrays, byte by byte. -/
def le (a b : FixedBytes n) : Bool := decide (a.bytes ≤ b.bytes)

end FixedBytes

end Lib
