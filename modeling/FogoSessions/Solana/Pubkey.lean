import FogoSessions.Lib.Base58
import FogoSessions.Lib.Text
import Mathlib.Tactic.IntervalCases

/-!
# Public keys

Account addresses, their text form, and the addresses of the programs and sysvars that the
programs of this repository know.
-/

namespace FogoSessions.Solana

open Lib

/-- An account address. -/
abbrev Pubkey := FixedBytes 32

instance : LawfulBEq Pubkey := inferInstance

/-- `Pubkey::from_str`: base58 text of at most 44 characters denoting exactly 32 bytes. -/
def Pubkey.fromStr (s : String) : Option Pubkey :=
  if s.utf8ByteSize > 44 then none
  else (Base58.decode s).bind FixedBytes.ofBytes?

/-- The text form of a key. -/
def Pubkey.toString (key : Pubkey) : String := Base58.encode key.bytes

instance : ToString Pubkey := ⟨Pubkey.toString⟩

namespace Pubkey

theorem toString_injective {a b : Pubkey} (h : a.toString = b.toString) : a = b :=
  FixedBytes.ext (Base58.encode_injective h)

/-- The text form of a key has between 32 and 44 characters. -/
theorem length_toString (key : Pubkey) :
    32 ≤ key.toString.length ∧ key.toString.length ≤ 44 := by
  obtain ⟨z, n, hkey⟩ := Base58.exists_bytesOf key.bytes
  have hlen : z + (Nat.digits 256 n).length = 32 := by
    have h := key.length_eq
    rw [hkey] at h
    simpa [Base58.bytesOf] using h
  have hn : n < 58 ^ (44 - z) := by
    calc n < 256 ^ (Nat.digits 256 n).length := Nat.lt_base_pow_length_digits (by decide)
      _ = 256 ^ (32 - z) := by rw [← hlen, Nat.add_sub_cancel_left]
      _ ≤ 58 ^ (44 - z) := by
        have hz : z ≤ 32 := by omega
        interval_cases z <;> norm_num
  have hdigits := (Nat.digits_length_le_iff (by decide) n).2 hn
  have hbytes : (Nat.digits 256 n).length ≤ (Nat.digits 58 n).length := by
    refine (Nat.digits_length_le_iff (by decide) n).2 ?_
    exact (Nat.lt_base_pow_length_digits (by decide)).trans_le (Nat.pow_le_pow_left (by decide) _)
  rw [Pubkey.toString, hkey, Base58.encode_bytesOf, Base58.textOf, String.length_ofList]
  simp only [List.length_map, List.length_append, List.length_replicate, List.length_reverse]
  omega

theorem mem_toString {key : Pubkey} {c : Char} (h : c ∈ key.toString.toList) :
    Base58.IsAlphanumCode c.toNat := Base58.mem_encode h

theorem utf8ByteSize_toString (key : Pubkey) : key.toString.utf8ByteSize = key.toString.length := by
  have hascii : ∀ c ∈ key.toString.toList, c.toNat < 128 := fun c hc => by
    have hcode := mem_toString hc
    unfold Base58.IsAlphanumCode at hcode
    omega
  have h := congrArg List.length (utf8_ascii hascii)
  rw [List.length_map, String.length_toList] at h
  exact h

/-- The text form of a key denotes the key. -/
theorem fromStr_toString (key : Pubkey) : fromStr key.toString = some key := by
  have hle : ¬ key.toString.utf8ByteSize > 44 := by
    rw [utf8ByteSize_toString]
    exact Nat.not_lt.2 key.length_toString.2
  rw [fromStr, if_neg hle, Pubkey.toString, Base58.decode_encode]
  exact FixedBytes.ofBytes?_bytes key

/-- A text that denotes a key is its text form. -/
theorem toString_of_fromStr {s : String} {key : Pubkey} (h : fromStr s = some key) :
    key.toString = s := by
  unfold fromStr at h
  split at h
  · cases h
  · obtain ⟨bs, hbs, hkey⟩ := Option.bind_eq_some_iff.1 h
    rw [Pubkey.toString, FixedBytes.ofBytes?_eq_some.1 hkey, Base58.encode_of_decode hbs]

end Pubkey

namespace Ids

def systemProgram : Pubkey := .ofNat
  0x0000000000000000000000000000000000000000000000000000000000000000
def ed25519Program : Pubkey := .ofNat
  0x037d46d67c93fbbe12f9428f838d40ff0570744927f48a64fcca704480000000
def secp256k1Program : Pubkey := .ofNat
  0x04c6fc20f050ccf05584d7211c9f8cf59ec14785bb166a1e2830e81220000000
def secp256r1Program : Pubkey := .ofNat
  0x06920dec2fea71b5b723814d742da9031c83e75fdb795d568e75478020000000
def computeBudget : Pubkey := .ofNat
  0x0306466fe5211732ffecadba72c39be7bc8ce5bbc5f7126b2c439b3a40000000
def tokenProgram : Pubkey := .ofNat
  0x06ddf6e1d765a193d9cbe146ceeb79ac1cb485ed5f5b37913a8cf5857eff00a9
def associatedTokenProgram : Pubkey := .ofNat
  0x8c97258f4e2489f1bb3d1029148e0d830b5a1399daff1084048e7bd8dbe9f859
def tokenMetadataProgram : Pubkey := .ofNat
  0x0b7065b1e3d17c45389d527f6b04c3cd58b86c731aa0fdb549b6d1bc03f82946
def sysvarInstructions : Pubkey := .ofNat
  0x06a7d517187bd16635dad40455fdc2c0c124c68f215675a5dbbacb5f08000000

/-- The addresses are the ones the text forms denote. -/
example : ∀ p ∈ [
    ("11111111111111111111111111111111", systemProgram),
    ("Ed25519SigVerify111111111111111111111111111", ed25519Program),
    ("KeccakSecp256k11111111111111111111111111111", secp256k1Program),
    ("Secp256r1SigVerify1111111111111111111111111", secp256r1Program),
    ("ComputeBudget111111111111111111111111111111", computeBudget),
    ("TokenkegQfeZyiNwAJbNbGKPFXCWuBvf9Ss623VQ5DA", tokenProgram),
    ("ATokenGPvbdGVxr1b2hvZbsiqW5xWH25efTNsLJA8knL", associatedTokenProgram),
    ("metaqbxxUerdq28cj1RbAWkYQm3ybzjb6a8bt518x1s", tokenMetadataProgram),
    ("Sysvar1nstructions1111111111111111111111111", sysvarInstructions)],
    Pubkey.fromStr p.1 = some p.2 ∧ p.2.toString = p.1 := by decide +kernel

theorem tokenProgram_ne_systemProgram : tokenProgram ≠ systemProgram := by decide

end Ids

end FogoSessions.Solana
