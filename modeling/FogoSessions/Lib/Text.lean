import FogoSessions.Lib.Bytes
import Mathlib.Tactic.Common

/-!
# The bytes of a text, character by character

An ASCII character is one byte, its code; the bytes of any other character are at least 128. So an
ASCII byte of a text is an ASCII character of it.
-/

namespace Lib

theorem utf8_eq_flatMap (s : String) : utf8 s = s.toList.flatMap String.utf8EncodeChar := by
  rw [utf8, String.toUTF8_eq_toByteArray, ← String.utf8Encode_toList, List.utf8Encode,
    List.data_toByteArray]

theorem utf8EncodeChar_ascii {c : Char} (h : c.toNat < 128) :
    String.utf8EncodeChar c = [UInt8.ofNat c.toNat] := by
  have hle : c.val.toNat ≤ 0x7f := Nat.le_of_lt_succ h
  simp only [String.utf8EncodeChar, if_pos hle]
  rfl

/-- An ASCII byte is the only byte of its character. -/
theorem eq_of_mem_utf8EncodeChar {c : Char} {b : UInt8} (h : b ∈ String.utf8EncodeChar c)
    (hb : b.toNat < 128) : c.toNat = b.toNat := by
  have hofNat (v : Nat) (hv : 128 ≤ v) (hlt : v < 256) : ¬ (UInt8.ofNat v).toNat < 128 := by
    have hv' : (UInt8.ofNat v).toNat = v := by simpa using hlt
    omega
  simp only [String.utf8EncodeChar] at h
  split_ifs at h with h1 h2 h3
  · have hv : c.val.toNat % 256 = c.toNat := Nat.mod_eq_of_lt (by omega)
    rw [List.mem_singleton.1 h]
    simpa using hv.symm
  all_goals simp only [List.mem_cons, List.not_mem_nil, or_false] at h
  · rcases h with rfl | rfl <;> exact absurd hb (hofNat _ (by omega) (by omega))
  · rcases h with rfl | rfl | rfl <;> exact absurd hb (hofNat _ (by omega) (by omega))
  · rcases h with rfl | rfl | rfl | rfl <;> exact absurd hb (hofNat _ (by omega) (by omega))

theorem mem_utf8_ascii {s : String} {b : UInt8} (hb : b.toNat < 128) :
    b ∈ utf8 s ↔ ∃ c ∈ s.toList, c.toNat = b.toNat := by
  rw [utf8_eq_flatMap, List.mem_flatMap]
  constructor
  · rintro ⟨c, hc, h⟩
    exact ⟨c, hc, eq_of_mem_utf8EncodeChar h hb⟩
  · rintro ⟨c, hc, h⟩
    refine ⟨c, hc, ?_⟩
    rw [utf8EncodeChar_ascii (h ▸ hb), h, UInt8.ofNat_toNat]
    exact List.mem_singleton_self b

theorem utf8_ascii {s : String} (h : ∀ c ∈ s.toList, c.toNat < 128) :
    utf8 s = s.toList.map fun c => UInt8.ofNat c.toNat := by
  rw [utf8_eq_flatMap]
  generalize s.toList = cs at h
  induction cs with
  | nil => rfl
  | cons c cs ih =>
    rw [List.flatMap_cons, utf8EncodeChar_ascii (h c List.mem_cons_self),
      ih fun d hd => h d (List.mem_cons_of_mem c hd)]
    rfl

/-- Every byte of a text is ASCII with a property if and only if every character is. -/
theorem forall_mem_utf8 {s : String} {P : Nat → Prop} (hP : ∀ n, P n → n < 128) :
    (∀ b ∈ utf8 s, P b.toNat) ↔ ∀ c ∈ s.toList, P c.toNat := by
  constructor
  · intro h c hc
    have hne : String.utf8EncodeChar c ≠ [] := String.utf8EncodeChar_ne_nil
    obtain ⟨b, hb⟩ := List.exists_mem_of_ne_nil _ hne
    have hPb := h b (by rw [utf8_eq_flatMap]; exact List.mem_flatMap.2 ⟨c, hc, hb⟩)
    rwa [eq_of_mem_utf8EncodeChar hb (hP _ hPb)]
  · intro h b hb
    rw [utf8_ascii fun c hc => hP _ (h c hc)] at hb
    obtain ⟨c, hc, rfl⟩ := List.mem_map.1 hb
    have hPc := h c hc
    have hlt : c.toNat < 256 := by
      have := hP _ hPc
      omega
    have hto : (UInt8.ofNat c.toNat).toNat = c.toNat := by simpa using hlt
    rwa [hto]

/-- Every character of the text is ASCII. -/
def IsAscii (s : String) : Prop := ∀ c ∈ s.toList, c.toNat < 128

theorem length_utf8 (s : String) : (utf8 s).length = (s.toList.map Char.utf8Size).sum := by
  rw [utf8_eq_flatMap, List.length_flatMap]
  simp only [String.length_utf8EncodeChar]

theorem utf8Size_eq_one {c : Char} : c.utf8Size = 1 ↔ c.toNat < 128 := by
  rw [Char.utf8Size_eq_one_iff, UInt32.le_iff_toNat_le]
  exact Nat.lt_succ_iff.symm

/-- A text has at least as many bytes as characters, and as many if it is ASCII. -/
theorem length_utf8_spec (s : String) :
    s.length ≤ (utf8 s).length ∧ ((utf8 s).length = s.length ↔ IsAscii s) := by
  rw [length_utf8, ← String.length_toList, IsAscii]
  induction s.toList with
  | nil => simp
  | cons c cs ih =>
    obtain ⟨hle, hiff⟩ := ih
    have hpos := c.utf8Size_pos
    rw [List.map_cons, List.sum_cons, List.length_cons, List.forall_mem_cons, ← hiff,
      ← utf8Size_eq_one]
    omega

end Lib
