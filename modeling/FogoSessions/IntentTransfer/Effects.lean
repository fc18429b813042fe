import FogoSessions.IntentTransfer.Program
import FogoSessions.Solana.Balances
import FogoSessions.Solana.Custody

/-!
# What the intent transfer program does to the ledger

The steps that its instructions are made of: accounts are created, tokens and lamports are moved, a
nonce is read at the start and written at the end, a configuration is written. Each step keeps the
program's own accounts, but for the one it works on.
-/

namespace FogoSessions.IntentTransfer

open Lib Solana Intents

abbrev programIds : List Pubkey := [ProgramIds.intentTransfer]

theorem system_not_mem : Ids.systemProgram ∉ programIds := by decide

theorem token_not_mem : Ids.tokenProgram ∉ programIds := by decide

theorem intentTransfer_ne_tokenProgram : ProgramIds.intentTransfer ≠ Ids.tokenProgram := by decide

theorem mem_programIds {key : Pubkey} : key ∈ programIds ↔ key = ProgramIds.intentTransfer :=
  List.mem_singleton

variable {l l' l'' l₁ l₂ l₃ : Ledger}

/-- An address of the program's is not one that others sign for. -/
theorem not_canSign [Addressing] (seeds : List Bytes) :
    ¬ CanSign programIds (derivedAddress seeds ProgramIds.intentTransfer) :=
  not_canSign_derived (mem_programIds.2 rfl) seeds

/-! ## Accounts of other programs -/

/-- The accounts that a program has already got are as they were. -/
def KeepsUsed (l l' : Ledger) : Prop :=
  ∀ key, (l key).owner ≠ Ids.systemProgram →
    (l' key).owner = (l key).owner ∧ (l' key).data = (l key).data

theorem KeepsUsed.refl : KeepsUsed l l := fun _ _ => ⟨rfl, rfl⟩

theorem KeepsUsed.trans (h : KeepsUsed l l') (h' : KeepsUsed l' l'') : KeepsUsed l l'' := by
  intro key hsystem
  obtain ⟨howner, hdata⟩ := h key hsystem
  obtain ⟨howner', hdata'⟩ := h' key (howner ▸ hsystem)
  exact ⟨howner'.trans howner, hdata'.trans hdata⟩

theorem keepsUsed_create {payer key owner : Pubkey} {n : Nat} {data : Bytes}
    (hkey : (l key).owner = Ids.systemProgram) : KeepsUsed l (l.create payer key n data owner) := by
  intro k hsystem
  refine Ledger.create_content ?_
  rintro rfl
  exact hsystem hkey

/-- The accounts of every program but the system and the token program are as they were. -/
def SameForeign (l l' : Ledger) : Prop :=
  ∀ key, (l key).owner ≠ Ids.systemProgram → (l key).owner ≠ Ids.tokenProgram →
    (l' key).owner = (l key).owner ∧ (l' key).data = (l key).data

theorem SameForeign.trans (h : SameForeign l l') (h' : SameForeign l' l'') : SameForeign l l'' := by
  intro key hsystem htoken
  obtain ⟨howner, hdata⟩ := h key hsystem htoken
  obtain ⟨howner', hdata'⟩ := h' key (howner ▸ hsystem) (howner ▸ htoken)
  exact ⟨howner'.trans howner, hdata'.trans hdata⟩

theorem KeepsUsed.sameForeign (h : KeepsUsed l l') : SameForeign l l' := fun key hsystem _ => h key hsystem

theorem sameForeign_writes (h : TokenWrites l l') : SameForeign l l' :=
  fun key _ htoken => ⟨h.owner_eq key, h.data_eq htoken⟩

theorem sameForeign_close {key destination : Pubkey} (hkey : (l key).owner = Ids.tokenProgram) :
    SameForeign l (l.close key destination) := by
  intro k _ htoken
  refine Ledger.close_content ?_
  rintro rfl
  exact htoken hkey

/-! ## The steps before the transfers -/

section

variable [TokenProgram] {payer key mint wallet : Pubkey}

theorem keepsAll_mayCreate [Addressing] (h : AnchorSpl.MayCreate payer key mint wallet l l') :
    KeepsAll programIds l l' := by
  obtain rfl | ⟨hkey, lamports, data, hpayer, rfl⟩ := h.created
  · exact .refl
  · exact keepsAll_create system_not_mem token_not_mem hkey hpayer

theorem keepsUsed_mayCreate (h : AnchorSpl.MayCreate payer key mint wallet l l') :
    KeepsUsed l l' := by
  obtain rfl | ⟨hkey, lamports, data, -, rfl⟩ := h.created
  · exact .refl
  · exact keepsUsed_create hkey

end

section

variable [Addressing] [SystemProgram]

/-! ## Nonces -/

/-- The two grammars that users sign, each with nonces of its own. -/
inductive Kind where
  | transfer
  | bridge
deriving DecidableEq

def Kind.nonceSeed : Kind → Bytes
  | transfer => intentTransferNonceSeed
  | bridge => bridgeNttNonceSeed

/-- Where the last nonce of a user is kept. -/
def nonceAddress (kind : Kind) (user : Pubkey) : Pubkey :=
  derivedAddress [kind.nonceSeed, user.bytes] ProgramIds.intentTransfer

/-- The nonce that an instruction has got, and the account it is from. -/
theorem initNonce_eq_ok {payer user : Pubkey} {nonce : AccountMeta} {seed : Bytes} {value : Nonce}
    (h : initNonce l payer nonce seed user = .ok (value, l')) :
    nonce.pubkey = derivedAddress [seed, user.bytes] ProgramIds.intentTransfer ∧
      Anchor.Initialized ProgramIds.intentTransfer payer nonce.pubkey Nonce.space
        Nonce.discriminator Nonce.codec value l l' :=
  Anchor.initIfNeeded_eq_ok h

omit [Addressing] in
theorem keepsUsed_initialized {T : Type} {payer key : Pubkey} {space : Nat} {discriminator : Bytes}
    {c : Codec T} {value : T}
    (h : Anchor.Initialized ProgramIds.intentTransfer payer key space discriminator c value l l') :
    KeepsUsed l l' := by
  obtain ⟨rfl, -⟩ | ⟨hkey, -, lamports, -, rfl⟩ := h.made
  · exact .refl
  · exact keepsUsed_create hkey

/-- Making the program's own account keeps the others. -/
theorem keepsExcept_initialized {T : Type} {payer key : Pubkey} {space : Nat} {discriminator : Bytes}
    {c : Codec T} {value : T}
    (h : Anchor.Initialized ProgramIds.intentTransfer payer key space discriminator c value l l') :
    KeepsExcept programIds key l l' := by
  obtain ⟨rfl, -⟩ | ⟨-, -, lamports, hpayer, rfl⟩ := h.made
  · exact KeepsAll.refl.except
  · exact fun k hk => .of_untouched (frameExcept_create system_not_mem hpayer k hk)

omit [Addressing] [SystemProgram] in
theorem verifyAndUpdateNonce_eq_ok {nonce nonce' : Nonce} {newNonce : UInt64}
    (h : verifyAndUpdateNonce nonce newNonce = .ok nonce') :
    newNonce.toNat = nonce.nonce.toNat + 1 ∧ nonce' = ⟨newNonce⟩ := by
  simp only [verifyAndUpdateNonce, bind_eq_ok, okOr_eq_ok, require_eq_ok, pure_eq_ok] at h
  obtain ⟨next, hnext, -, rfl, rfl⟩ := h
  exact ⟨checkedAdd_eq_some.1 hnext, rfl⟩

/-- What the program has written to an account of its own. -/
structure Stores {T : Type} (discriminator : Bytes) (c : Codec T) (value : T) (key : Pubkey)
    (l l' : Ledger) : Prop where
  data_eq : ∃ data, l' = l.setData key data
  holds : Anchor.tryDeserialize discriminator c (l' key).data = .ok value

omit [Addressing] [SystemProgram] in
theorem stores_of_trySerialize {T : Type} {discriminator : Bytes} {c : Codec T} {value : T}
    {key : Pubkey} {data : Bytes}
    (h : Anchor.trySerialize discriminator c value (l key).data = .ok data) :
    Stores discriminator c value key l (l.setData key data) where
  data_eq := ⟨data, rfl⟩
  holds := by
    rw [Ledger.setData_same]
    exact Anchor.tryDeserialize_trySerialize h

omit [Addressing] [SystemProgram] in
theorem exitNonce_eq_ok {key : Pubkey} {nonce : Nonce} (h : exitNonce l key nonce = .ok l') :
    Stores Nonce.discriminator Nonce.codec nonce key l l' := by
  simp only [exitNonce, bind_eq_ok, mapErr_eq_ok, pure_eq_ok] at h
  obtain ⟨data, hserialize, rfl⟩ := h
  exact stores_of_trySerialize hserialize

omit [Addressing] [SystemProgram] in
/-- Writing the nonce back moves no tokens. -/
theorem exitNonce_sameBalances [TokenProgram] {key : Pubkey} {nonce : Nonce}
    (h : exitNonce l key nonce = .ok l') (howner : (l' key).owner ∈ programIds) :
    SameBalances l l' := by
  simp only [exitNonce, bind_eq_ok, mapErr_eq_ok, pure_eq_ok] at h
  obtain ⟨data, -, rfl⟩ := h
  rw [Ledger.setData_owner, mem_programIds] at howner
  apply sameBalances_setData
  rw [howner]
  exact intentTransfer_ne_tokenProgram

omit [Addressing] [SystemProgram] in
theorem exitNonce_lamports {key : Pubkey} {nonce : Nonce} (h : exitNonce l key nonce = .ok l')
    (k : Pubkey) : (l' k).lamports = (l k).lamports := by
  simp only [exitNonce, bind_eq_ok, mapErr_eq_ok, pure_eq_ok] at h
  obtain ⟨data, -, rfl⟩ := h
  exact Ledger.setData_lamports

omit [Addressing] [SystemProgram] in
theorem exitNonce_owner {key : Pubkey} {nonce : Nonce} (h : exitNonce l key nonce = .ok l')
    {k : Pubkey} : (l' k).owner = (l k).owner := by
  obtain ⟨data, rfl⟩ := (exitNonce_eq_ok h).data_eq
  exact Ledger.setData_owner

omit [Addressing] [SystemProgram] in
theorem exitNonce_of_ne {key k : Pubkey} {nonce : Nonce} (h : exitNonce l key nonce = .ok l')
    (hk : k ≠ key) : l' k = l k := by
  obtain ⟨data, rfl⟩ := (exitNonce_eq_ok h).data_eq
  exact Ledger.set_of_ne hk

/-- A nonce account between the start of an instruction and its end: its nonce becomes the next one. -/
structure Advances (key : Pubkey) (nonce : UInt64) (l l' : Ledger) : Prop where
  kept : KeepsExcept programIds key l l'
  before : (l key).owner ∉ programIds ∧ nonce.toNat = 1 ∨ (l key).owner ∈ programIds ∧
    ∃ n : Nonce, Anchor.tryDeserialize Nonce.discriminator Nonce.codec (l key).data = .ok n ∧
      nonce.toNat = n.nonce.toNat + 1
  owner_mem : (l' key).owner ∈ programIds
  holds : Anchor.tryDeserialize Nonce.discriminator Nonce.codec (l' key).data = .ok ⟨nonce⟩
  lamports_pos : 0 < (l' key).lamports

omit [Addressing] [SystemProgram] in
/-- A new nonce account starts at zero. -/
theorem nonce_zero {n : Nonce}
    (h : Anchor.tryDeserializeUnchecked Nonce.discriminator Nonce.codec (zeros Nonce.space) = .ok n) :
    n = ⟨0⟩ := by
  have hzero : Anchor.tryDeserializeUnchecked Nonce.discriminator Nonce.codec (zeros Nonce.space) =
      .ok ⟨0⟩ := by
    decide +kernel
  exact Except.ok.inj (h.symm.trans hzero)

/-- What the accounts phase of an instruction does: accounts are made, the nonce account among them. -/
structure Opens (kind : Kind) (user nonce : Pubkey) (nonceData : Nonce) (l l' : Ledger) : Prop where
  nonce_eq : nonce = nonceAddress kind user
  used : KeepsUsed l l'
  steps : ∃ l₁ l₂ payer, KeepsAll programIds l l₁ ∧ Anchor.Initialized ProgramIds.intentTransfer payer
    nonce Nonce.space Nonce.discriminator Nonce.codec nonceData l₁ l₂ ∧ KeepsAll programIds l₂ l'

/-- From the nonce that is read at the start to the one that is written at the end. -/
theorem Opens.advances {kind : Kind} {user nonce : Pubkey} {value value' : Nonce} {newNonce : UInt64}
    (h : Opens kind user nonce value l l₁) (hkept : KeepsAll programIds l₁ l₂)
    (hupdate : verifyAndUpdateNonce value newNonce = .ok value')
    (hexit : exitNonce l₂ nonce value' = .ok l') : Advances (nonceAddress kind user) newNonce l l' := by
  obtain ⟨rfl, -, l₃, l₄, payer, hfirst, hinitialized, hrest⟩ := h
  obtain ⟨hnext, rfl⟩ := verifyAndUpdateNonce_eq_ok hupdate
  have hlast := hrest.trans hkept
  have howner₄ := mem_programIds.2 hinitialized.owner_eq
  obtain ⟨howner₂, -, hle⟩ := (hlast (nonceAddress kind user)).owned howner₄
  have hstores := exitNonce_eq_ok hexit
  obtain ⟨data, rfl⟩ := hstores.data_eq
  refine ⟨?_, ?_, ?_, hstores.holds, ?_⟩
  · exact (hfirst.except.trans (keepsExcept_initialized hinitialized)).trans
      (hlast.except.trans keepsExcept_set)
  · by_cases howner : (l (nonceAddress kind user)).owner ∈ programIds
    · obtain ⟨howner₃, hdata₃, -⟩ := (hfirst _).owned howner
      obtain ⟨-, hvalue⟩ | ⟨hsystem, -⟩ := hinitialized.made
      · exact .inr ⟨howner, value, hdata₃ ▸ hvalue, hnext⟩
      · exact absurd (hsystem ▸ howner₃ ▸ howner) system_not_mem
    · have howner₃ := (hfirst _).unowned (not_canSign _) howner
      obtain ⟨rfl, -⟩ | ⟨-, hvalue, -⟩ := hinitialized.made
      · exact absurd howner₄ howner₃
      · refine .inl ⟨howner, ?_⟩
        rw [hnext, nonce_zero hvalue]
        rfl
  · rwa [Ledger.setData_owner, howner₂]
  · rw [Ledger.setData_lamports]
    exact hinitialized.lamports_pos.trans_le hle

/-! ## Configuration -/

/-- What the upgrade authority can register. -/
inductive Registration where
  | fee (mint : Pubkey) (config : FeeConfig)
  | ntt (mint : Pubkey) (config : ExpectedNttConfig)
deriving DecidableEq

namespace Registration

/-- The account that a registration is written to. -/
def address : Registration → Pubkey
  | fee mint _ => feeConfigAddress mint
  | ntt mint _ => nttConfigAddress mint

def mint : Registration → Pubkey
  | fee mint _ | ntt mint _ => mint

/-- The account data says what has been registered. -/
def Holds : Registration → Bytes → Prop
  | fee _ config, data =>
    Anchor.tryDeserialize FeeConfig.discriminator FeeConfig.codec data = .ok config
  | ntt _ config, data =>
    Anchor.tryDeserialize ExpectedNttConfig.discriminator ExpectedNttConfig.codec data = .ok config

/-- The upgrade authority has registered it. -/
structure Done (r : Registration) (accounts : List AccountMeta) (l l' : Ledger) : Prop where
  authority : ∃ (signer : AccountMeta) (data : ProgramData), accounts[0]? = some signer ∧
    signer.isSigner = true ∧ loadProgramData l programDataAddress = .ok data ∧
    data.upgradeAuthorityAddress = some signer.pubkey
  kept : KeepsExcept programIds r.address l l'
  owner_mem : (l' r.address).owner ∈ programIds
  holds : r.Holds (l' r.address).data
  lamports_pos : 0 < (l' r.address).lamports

end Registration

omit [SystemProgram] in
/-- The signer may upgrade the program. -/
theorem upgradeAuthority_eq_ok {signer programData : AccountMeta} {authority : Pubkey}
    (h : upgradeAuthority l signer programData = .ok authority) :
    authority = signer.pubkey ∧ signer.isSigner = true ∧ ∃ data : ProgramData,
      loadProgramData l programDataAddress = .ok data ∧
        data.upgradeAuthorityAddress = some signer.pubkey := by
  simp only [upgradeAuthority, bind_eq_ok, Anchor.signer_eq_ok, Anchor.address, Anchor.seeds,
    require_eq_ok, okOr_eq_ok, pure_eq_ok] at h
  obtain ⟨-, hsigner, data, hdata, -, -, _, hsome, -, rfl, -, haddress, rfl⟩ := h
  have hprogramData : programData.pubkey = programDataAddress := haddress
  exact ⟨rfl, hsigner, data, hprogramData ▸ hdata, hsome⟩

theorem registerConfig_eq_ok [TokenProgram] {T : Type} {discriminator : Bytes} {c : Codec T}
    {space : Nat} {seed : Bytes} {update : T → T}
    {signer programData mint config systemProgram : AccountMeta}
    (h : registerConfig discriminator c space seed update l signer programData mint config
      systemProgram = .ok l') :
    ∃ key value, key = derivedAddress [seed, mint.pubkey.bytes] ProgramIds.intentTransfer ∧
      (signer.isSigner = true ∧ ∃ data : ProgramData, loadProgramData l programDataAddress =
        .ok data ∧ data.upgradeAuthorityAddress = some signer.pubkey) ∧
      KeepsExcept programIds key l l' ∧ (l' key).owner ∈ programIds ∧
      Anchor.tryDeserialize discriminator c (l' key).data = .ok (update value) ∧
      0 < (l' key).lamports := by
  simp only [registerConfig, bind_eq_ok, mapErr_eq_ok, pure_eq_ok, Prod.exists] at h
  obtain ⟨authority, hauthority, _, -, _, -, value, l₁, hinit, data, hserialize, rfl⟩ := h
  obtain ⟨rfl, hsigner, hdata⟩ := upgradeAuthority_eq_ok hauthority
  obtain ⟨haddress, hinitialized⟩ := Anchor.initIfNeeded_eq_ok hinit
  have hstores := stores_of_trySerialize hserialize
  refine ⟨config.pubkey, value, haddress, ⟨hsigner, hdata⟩, ?_, ?_, hstores.holds, ?_⟩
  · exact (keepsExcept_initialized hinitialized).trans keepsExcept_set
  · rw [Ledger.setData_owner]
    exact mem_programIds.2 hinitialized.owner_eq
  · rw [Ledger.setData_lamports]
    exact hinitialized.lamports_pos

theorem registerFeeConfig_eq_ok [TokenProgram] {accounts : List AccountMeta} {config : FeeConfig}
    (h : registerFeeConfig accounts config l = .ok l') :
    ∃ mint, accounts[2]? = some mint ∧ (Registration.fee mint.pubkey config).Done accounts l l' := by
  unfold registerFeeConfig at h
  split at h
  · rename_i signer programData mint feeConfig systemProgram _
    obtain ⟨_, _, rfl, ⟨hsigner, data, hdata⟩, hkept, howner, hholds, hpos⟩ :=
      registerConfig_eq_ok h
    exact ⟨mint, rfl, ⟨signer, data, rfl, hsigner, hdata⟩, hkept, howner, hholds, hpos⟩
  · cases h

theorem registerNttConfig_eq_ok [TokenProgram] {accounts : List AccountMeta}
    (h : registerNttConfig accounts l = .ok l') :
    ∃ mint manager, accounts[2]? = some mint ∧ accounts[4]? = some manager ∧
      (Registration.ntt mint.pubkey ⟨manager.pubkey⟩).Done accounts l l' := by
  unfold registerNttConfig at h
  split at h
  · rename_i signer programData mint nttConfig manager systemProgram _
    obtain ⟨_, _, rfl, ⟨hsigner, data, hdata⟩, hkept, howner, hholds, hpos⟩ :=
      registerConfig_eq_ok h
    exact ⟨mint, manager, rfl, rfl, ⟨signer, data, rfl, hsigner, hdata⟩, hkept, howner, hholds, hpos⟩
  · cases h

omit [Addressing] [SystemProgram] in
/-- Two kinds of accounts of the program are told apart by what they start with. -/
theorem tryDeserialize_ne {T T' : Type} {d d' : Bytes} {c : Codec T} {c' : Codec T'} {data : Bytes}
    {value : T} {value' : T'} (hne : d ≠ d') (hlength : d.length = d'.length)
    (h : Anchor.tryDeserialize d c data = .ok value)
    (h' : Anchor.tryDeserialize d' c' data = .ok value') : False := by
  obtain ⟨body, rest, rfl, -⟩ := Anchor.tryDeserialize_eq_ok.1 h
  obtain ⟨body', rest', heq, -⟩ := Anchor.tryDeserialize_eq_ok.1 h'
  exact hne (List.append_inj heq hlength).1

omit [Addressing] [SystemProgram] in
/-- A configuration is no nonce. -/
theorem Registration.Holds.not_nonce {r : Registration} {data : Bytes} {n : Nonce} (h : r.Holds data) :
    Anchor.tryDeserialize Nonce.discriminator Nonce.codec data ≠ .ok n := by
  intro hn
  cases r with
  | fee mint config =>
    have hne : FeeConfig.discriminator ≠ Nonce.discriminator := by decide
    exact tryDeserialize_ne hne rfl h hn
  | ntt mint config =>
    have hne : ExpectedNttConfig.discriminator ≠ Nonce.discriminator := by decide
    exact tryDeserialize_ne hne rfl h hn

omit [SystemProgram] in
theorem Registration.Done.not_nonce {r : Registration} {accounts : List AccountMeta} {key : Pubkey}
    {n : Nonce} (h : r.Done accounts l l') (hkey : r.address = key) :
    Anchor.tryDeserialize Nonce.discriminator Nonce.codec (l' key).data ≠ .ok n :=
  hkey ▸ h.holds.not_nonce

end

end FogoSessions.IntentTransfer
