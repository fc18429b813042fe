import FogoSessions.Lib.Borsh
import FogoSessions.Solana.Instruction
import FogoSessions.Solana.SystemProgram

/-!
# The anchor framework

The checks that an `Accounts` struct makes on the accounts of an instruction, and how account data
is read and written back. An account that is only passed on is its address.
-/

namespace FogoSessions.Solana

open Lib

inductive AnchorError where
  | instructionFallbackNotFound
  | instructionDidNotDeserialize
  | constraintMut
  | constraintHasOne
  | constraintSigner
  | constraintClose
  | constraintSeeds
  | constraintOwner
  | constraintAddress
  | constraintSpace
  | constraintRentExempt
  | constraintTokenMint
  | constraintTokenOwner
  | accountDiscriminatorNotFound
  | accountDiscriminatorMismatch
  | accountDidNotDeserialize
  | accountDidNotSerialize
  | accountNotEnoughKeys
  | accountOwnedByWrongProgram
  | invalidProgramId
  | accountNotSigner
  | accountNotInitialized
  | accountNotAssociatedTokenAccount
  | tryingToInitPayerAsProgramAccount
deriving DecidableEq

/-- Why an instruction of a program fails; `ε` is the program's own error code. -/
inductive ProgramError (ε : Type) where
  | anchor (error : AnchorError)
  | custom (error : ε)
  /-- an invoked program failed -/
  | invoked
  /-- an error of another crate -/
  | foreign
  | invalidRealloc
  /-- the runtime refuses a write to an account of another program -/
  | externalAccountDataModified
  | accountDataTooSmall
  | arithmeticOverflow
  | panic
deriving DecidableEq

namespace Anchor

variable {ε T : Type}

def signer (account : AccountMeta) : Except (ProgramError ε) Unit :=
  require account.isSigner (.anchor .accountNotSigner)

/-- The `signer` constraint, on an account of another type than `Signer`. -/
def signerConstraint (account : AccountMeta) : Except (ProgramError ε) Unit :=
  require account.isSigner (.anchor .constraintSigner)

def writable (account : AccountMeta) : Except (ProgramError ε) Unit :=
  require account.isWritable (.anchor .constraintMut)

def address (account : AccountMeta) (key : Pubkey) : Except (ProgramError ε) Unit :=
  require (account.pubkey = key) (.anchor .constraintAddress)

def program (account : AccountMeta) (id : Pubkey) : Except (ProgramError ε) Unit :=
  require (account.pubkey = id) (.anchor .invalidProgramId)

def seeds [Addressing] (account : AccountMeta) (seeds : List Bytes) (programId : Pubkey) :
    Except (ProgramError ε) Unit :=
  require (account.pubkey = derivedAddress seeds programId) (.anchor .constraintSeeds)

/-- The handler of the account type's `try_deserialize`: a discriminator, then the value; what
    follows is ignored. -/
def tryDeserialize (discriminator : Bytes) (c : Codec T) (data : Bytes) : Except AnchorError T := do
  require (discriminator.length ≤ data.length) .accountDiscriminatorNotFound
  require (data.take discriminator.length = discriminator) .accountDiscriminatorMismatch
  match c.decode (data.drop discriminator.length) with
  | .ok (value, _) => return value
  | .error _ => .error .accountDidNotDeserialize

/-- The data of an account that the program owns. -/
def owned (l : Ledger) (key owner : Pubkey) : Except (ProgramError ε) Bytes := do
  require (¬ ((l key).owner = Ids.systemProgram ∧ (l key).lamports = 0))
    (.anchor .accountNotInitialized)
  require ((l key).owner = owner) (.anchor .accountOwnedByWrongProgram)
  return (l key).data

/-- `Account::try_from`. -/
def account (l : Ledger) (key owner : Pubkey) (deserialize : Bytes → Except AnchorError T) :
    Except (ProgramError ε) T := do
  let data ← owned l key owner
  mapErr .anchor (deserialize data)

/-- Writes a value over the front of the account's data. -/
def trySerialize (discriminator : Bytes) (c : Codec T) (value : T) (data : Bytes) :
    Except AnchorError Bytes := do
  let encoded ← mapErr (fun _ => .accountDidNotSerialize) (c.encode value)
  let bytes := discriminator ++ encoded
  require (bytes.length ≤ data.length) .accountDidNotSerialize
  return bytes ++ data.drop bytes.length

/-- `MAX_PERMITTED_DATA_INCREASE`. -/
def maxPermittedDataIncrease : Nat := 10240

/-- `AccountInfo::realloc`, by the program `self`. -/
def realloc (self : Pubkey) (l : Ledger) (key : Pubkey) (newLen : Nat) :
    Except (ProgramError ε) Ledger := do
  let data := (l key).data
  require ((l key).owner = self) .externalAccountDataModified
  require (newLen ≤ data.length + maxPermittedDataIncrease) .invalidRealloc
  return l.setData key (data.take newLen ++ zeros (newLen - data.length))

/-- The `close` constraint. -/
def close (l : Ledger) (key destination : Pubkey) : Ledger := l.close key destination

/-- `try_deserialize_unchecked`: the value behind a discriminator that is not looked at. -/
def tryDeserializeUnchecked (discriminator : Bytes) (c : Codec T) (data : Bytes) :
    Except AnchorError T :=
  match c.decode (data.drop discriminator.length) with
  | .ok (value, _) => .ok value
  | .error _ => .error .accountDidNotDeserialize

/-- Creates the account when it is nobody's, and reads it. -/
def createOrLoad [SystemProgram] (self : Pubkey) (l : Ledger) (payer key : Pubkey) (space : Nat)
    (discriminator : Bytes) (c : Codec T) : Except (ProgramError ε) (T × Ledger) :=
  if (l key).owner = Ids.systemProgram then do
    require ((l key).lamports = 0 ∨ payer ≠ key) (.anchor .tryingToInitPayerAsProgramAccount)
    let l ← okOr (createOrFund l payer key self space) .invoked
    let value ← account l key self (tryDeserializeUnchecked discriminator c)
    return (value, l)
  else do
    let value ← account l key self (tryDeserialize discriminator c)
    return (value, l)

/-- `init_if_needed`, of an account at an address derived for the program `self`. -/
def initIfNeeded [Addressing] [SystemProgram] (self : Pubkey) (l : Ledger) (payer : Pubkey)
    (info : AccountMeta) (seeds : List Bytes) (space : Nat) (discriminator : Bytes) (c : Codec T) :
    Except (ProgramError ε) (T × Ledger) := do
  Anchor.seeds info seeds self
  let (value, l) ← createOrLoad self l payer info.pubkey space discriminator c
  require ((l info.pubkey).data.length = space) (.anchor .constraintSpace)
  require ((l info.pubkey).owner = self) (.anchor .constraintOwner)
  require (SystemProgram.minimumBalance space ≤ (l info.pubkey).lamports)
    (.anchor .constraintRentExempt)
  writable info
  return (value, l)

/-! ## What succeeded -/

theorem signer_eq_ok {a : AccountMeta} {r : Unit} :
    (signer a : Except (ProgramError ε) Unit) = .ok r ↔ a.isSigner = true := require_eq_ok

theorem owned_eq_ok {l : Ledger} {key owner : Pubkey} {data : Bytes}
    (h : (owned l key owner : Except (ProgramError ε) Bytes) = .ok data) :
    (l key).owner = owner ∧ data = (l key).data := by
  simp only [owned, bind_eq_ok, require_eq_ok, pure_eq_ok] at h
  obtain ⟨-, -, -, howner, rfl⟩ := h
  exact ⟨howner, rfl⟩

theorem account_eq_ok {l : Ledger} {key owner : Pubkey} {deserialize : Bytes → Except AnchorError T}
    {value : T} (h : (account l key owner deserialize : Except (ProgramError ε) T) = .ok value) :
    (l key).owner = owner ∧ deserialize (l key).data = .ok value := by
  simp only [account, bind_eq_ok, mapErr_eq_ok] at h
  obtain ⟨data, hdata, hvalue⟩ := h
  obtain ⟨howner, rfl⟩ := owned_eq_ok hdata
  exact ⟨howner, hvalue⟩

theorem tryDeserialize_eq_ok {discriminator : Bytes} {c : Codec T} {data : Bytes} {value : T} :
    tryDeserialize discriminator c data = .ok value ↔
      ∃ body rest, data = discriminator ++ body ∧ c.decode body = .ok (value, rest) := by
  simp only [tryDeserialize, bind_eq_ok, require_eq_ok]
  constructor
  · rintro ⟨-, -, -, htake, h⟩
    split at h
    · rename_i v rest hdecode
      cases pure_eq_ok.1 h
      refine ⟨data.drop discriminator.length, rest, ?_, hdecode⟩
      exact (congrArg (· ++ _) htake ▸ (List.take_append_drop discriminator.length data)).symm
    · cases h
  · rintro ⟨body, rest, rfl, hdecode⟩
    exact ⟨⟨⟩, by simp, ⟨⟩, by simp, by simp [hdecode, pure, Except.pure]⟩

/-- A value written into data of its own length is all of the data. -/
theorem trySerialize_of_length {discriminator : Bytes} {c : Codec T} {value : T}
    {data data' encoded : Bytes} (h : trySerialize discriminator c value data = .ok data')
    (hencode : c.encode value = .ok encoded)
    (hlen : data.length = discriminator.length + encoded.length) :
    data' = discriminator ++ encoded := by
  simp only [trySerialize, hencode, bind_eq_ok, mapErr_eq_ok, require_eq_ok, pure_eq_ok] at h
  obtain ⟨_, ⟨⟩, _, -, rfl⟩ := h
  rw [List.drop_eq_nil_of_le (by simp [hlen]), List.append_nil]

/-- What was written is what is read back. -/
theorem tryDeserialize_encode {discriminator : Bytes} {c : Codec T} {value value' : T} {bs : Bytes}
    (hencode : c.encode value = .ok bs) :
    tryDeserialize discriminator c (discriminator ++ bs) = .ok value' ↔ value = value' := by
  have hdecode : c.decode bs = .ok (value, []) := by
    have h := c.decode_encode [] hencode
    rwa [List.append_nil] at h
  rw [tryDeserialize_eq_ok]
  constructor
  · rintro ⟨body, rest, hdata, h⟩
    rw [← List.append_cancel_left hdata, hdecode] at h
    cases h
    rfl
  · rintro rfl
    exact ⟨bs, [], rfl, hdecode⟩

/-- A value that is written over an account's data is read again. -/
theorem tryDeserialize_trySerialize {discriminator : Bytes} {c : Codec T} {value : T}
    {data data' : Bytes} (h : trySerialize discriminator c value data = .ok data') :
    tryDeserialize discriminator c data' = .ok value := by
  simp only [trySerialize, bind_eq_ok, mapErr_eq_ok, require_eq_ok, pure_eq_ok] at h
  obtain ⟨encoded, hencode, -, -, rfl⟩ := h
  rw [tryDeserialize_eq_ok]
  exact ⟨_, _, List.append_assoc .., c.decode_encode _ hencode⟩

/-- Zeroed data is no account of any type. -/
theorem not_tryDeserialize_zero {discriminator : Bytes} {c : Codec T} {data : Bytes} {value : T}
    (hdiscriminator : ∃ b ∈ discriminator, b ≠ 0) (hzero : ∀ b ∈ data, b = 0) :
    tryDeserialize discriminator c data ≠ .ok value := by
  intro h
  obtain ⟨body, rest, rfl, -⟩ := tryDeserialize_eq_ok.1 h
  obtain ⟨b, hb, hne⟩ := hdiscriminator
  exact hne (hzero b (List.mem_append_left _ hb))

/-- Writing a value back keeps the account's length. -/
theorem trySerialize_length {discriminator : Bytes} {c : Codec T} {value : T} {data data' : Bytes}
    (h : trySerialize discriminator c value data = .ok data') : data'.length = data.length := by
  simp only [trySerialize, bind_eq_ok, mapErr_eq_ok, require_eq_ok, pure_eq_ok] at h
  obtain ⟨encoded, -, -, hle, rfl⟩ := h
  rw [List.length_append, List.length_drop]
  omega

/-- The program's account at the key, which may have been made just now. -/
structure Initialized [SystemProgram] (program payer key : Pubkey) (space : Nat) (discriminator : Bytes)
    (c : Codec T) (value : T) (l l' : Ledger) : Prop where
  made : (l' = l ∧ tryDeserialize discriminator c (l key).data = .ok value) ∨
    (l key).owner = Ids.systemProgram ∧ tryDeserializeUnchecked discriminator c (zeros space) =
      .ok value ∧ ∃ lamports, (0 < lamports → (l payer).owner = Ids.systemProgram) ∧
        l' = l.create payer key lamports (zeros space) program
  owner_eq : (l' key).owner = program
  length_eq : (l' key).data.length = space
  lamports_pos : 0 < (l' key).lamports

theorem initIfNeeded_eq_ok [Addressing] [SystemProgram] {self : Pubkey} {l l' : Ledger}
    {payer : Pubkey} {info : AccountMeta} {seeds : List Bytes} {space : Nat} {discriminator : Bytes}
    {c : Codec T} {value : T}
    (h : (initIfNeeded self l payer info seeds space discriminator c :
      Except (ProgramError ε) (T × Ledger)) = .ok (value, l')) :
    info.pubkey = derivedAddress seeds self ∧
      Initialized self payer info.pubkey space discriminator c value l l' := by
  simp only [initIfNeeded, bind_eq_ok, Anchor.seeds, require_eq_ok, pure_eq_ok, Prod.exists] at h
  obtain ⟨-, haddress, _, _, hmade, -, hlength, -, howner, -, hrent, -, -, ⟨⟩⟩ := h
  have hpos := (SystemProgram.minimumBalance_pos space).trans_le hrent
  refine ⟨haddress, ?_, howner, hlength, hpos⟩
  unfold createOrLoad at hmade
  split at hmade
  · rename_i hsystem
    simp only [bind_eq_ok, require_eq_ok, okOr_eq_ok, pure_eq_ok] at hmade
    obtain ⟨-, -, _, hcreate, _, haccount, ⟨⟩⟩ := hmade
    obtain ⟨-, -, lamports, hpayer, -, rfl⟩ := createOrFund_eq_create hcreate
    obtain ⟨-, hdata⟩ := account_eq_ok haccount
    rw [Ledger.create_data] at hdata
    exact .inr ⟨hsystem, hdata, lamports, hpayer, rfl⟩
  · simp only [bind_eq_ok, pure_eq_ok] at hmade
    obtain ⟨_, haccount, ⟨⟩⟩ := hmade
    exact .inl ⟨rfl, (account_eq_ok haccount).2⟩

theorem realloc_eq_ok {self : Pubkey} {l l' : Ledger} {key : Pubkey} {newLen : Nat}
    (h : (realloc self l key newLen : Except (ProgramError ε) Ledger) = .ok l') :
    (l key).owner = self ∧
      l' = l.setData key ((l key).data.take newLen ++ zeros (newLen - (l key).data.length)) := by
  simp only [realloc, bind_eq_ok, require_eq_ok, pure_eq_ok] at h
  obtain ⟨-, howner, -, -, rfl⟩ := h
  exact ⟨howner, rfl⟩

end Anchor

end FogoSessions.Solana
