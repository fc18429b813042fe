import FogoSessions.Solana.Ledger
import FogoSessions.Solana.UiAmount

/-!
# The token program

The SPL token program with the extension for in-session delegation: the programs of this repository
know it by its instructions and by what they read of its accounts.
-/

namespace FogoSessions.Solana

open Lib

/-- What the programs read of a token account. -/
structure TokenAccount where
  mint : Pubkey
  owner : Pubkey
  amount : UInt64
  delegate : Option Pubkey
  delegatedAmount : UInt64
deriving DecidableEq

/-- The length of a token account's data. -/
def TokenAccount.len : Nat := 165

structure Mint where
  decimals : UInt8
deriving DecidableEq

/-! ## What the token program writes -/

/-- The token program, and nothing else, wrote to the ledger. -/
structure TokenWrites (l l' : Ledger) : Prop where
  owner_eq : ∀ key, (l' key).owner = (l key).owner
  unchanged : ∀ key, (l key).owner ≠ Ids.tokenProgram → l' key = l key

namespace TokenWrites

variable {l l' l'' : Ledger}

theorem refl : TokenWrites l l := ⟨fun _ => rfl, fun _ _ => rfl⟩

theorem trans (h : TokenWrites l l') (h' : TokenWrites l' l'') : TokenWrites l l'' where
  owner_eq key := (h'.owner_eq key).trans (h.owner_eq key)
  unchanged key hkey := by
    have hkey' : (l' key).owner ≠ Ids.tokenProgram := by rwa [h.owner_eq key]
    exact (h'.unchanged key hkey').trans (h.unchanged key hkey)

theorem data_eq (h : TokenWrites l l') {key : Pubkey} (hkey : (l key).owner ≠ Ids.tokenProgram) :
    (l' key).data = (l key).data := by
  rw [h.unchanged key hkey]

theorem setData {key : Pubkey} {data : Bytes}
    (h : (l key).owner = Ids.tokenProgram ∨ data = (l key).data) :
    TokenWrites l (l.setData key data) where
  owner_eq _ := Ledger.setData_owner
  unchanged k hk := by
    by_cases hkey : k = key
    · subst hkey
      rw [Ledger.setData, Ledger.set_same, h.resolve_left hk]
    · rw [Ledger.setData, Ledger.set_of_ne hkey]

theorem frame [Addressing] {ids : List Pubkey} (hids : Ids.tokenProgram ∉ ids)
    (h : TokenWrites l l') : Frame ids l l' := by
  intro key
  by_cases hkey : (l key).owner = Ids.tokenProgram
  · refine .of_owner (h.owner_eq key) (hkey ▸ hids) ?_
    rw [hkey]
    exact Ids.tokenProgram_ne_systemProgram
  · rw [h.unchanged key hkey]
    exact .refl

end TokenWrites

/-- Tokens of a mint moved from one token account to another. On an account that is both the source
    and the destination the two sides of `balance` cancel. -/
structure TokenMove (unpack : Bytes → Option TokenAccount) (mint source destination : Pubkey)
    (amount : UInt64) (l l' : Ledger) : Prop where
  writes : TokenWrites l l'
  source_eq : ∃ a, unpack (l source).data = some a ∧ a.mint = mint ∧ amount ≤ a.amount
  destination_eq : ∃ a, unpack (l destination).data = some a ∧ a.mint = mint
  other : ∀ key, key ≠ source → key ≠ destination → l' key = l key
  balance : ∀ key a, unpack (l key).data = some a → ∃ a', unpack (l' key).data = some a' ∧
    a'.mint = a.mint ∧ a'.owner = a.owner ∧
    a'.amount.toNat + (if key = source then amount.toNat else 0) =
      a.amount.toNat + (if key = destination then amount.toNat else 0)

/-! ## Its instructions -/

/-- A program writes to its own accounts only, so on another one an instruction can succeed only if
    it leaves the data as it is. -/
class TokenProgram where
  /-- `Account::unpack`, of an initialized token account's data -/
  unpackAccount : Bytes → Option TokenAccount
  /-- `Mint::unpack` -/
  unpackMint : Bytes → Option Mint
  /-- `try_ui_amount_into_amount`: the decimal text in units of the token -/
  tryUiAmountIntoAmount : String → UInt8 → Option UInt64
  /-- `initialize_account3`: account, mint, owner -/
  initializeAccount : Ledger → Pubkey → Pubkey → Pubkey → Option Ledger
  /-- `transfer`: source, destination, authority, program signer, amount -/
  transfer : Ledger → Pubkey → Pubkey → Pubkey → Option Pubkey → UInt64 → Option Ledger
  /-- `transfer_checked`: source, mint, destination, authority, amount, decimals -/
  transferChecked : Ledger → Pubkey → Pubkey → Pubkey → Pubkey → UInt64 → UInt8 → Option Ledger
  /-- `approve`: source, delegate, authority, amount -/
  approve : Ledger → Pubkey → Pubkey → Pubkey → UInt64 → Option Ledger
  /-- `approve_checked`: source, mint, delegate, authority, amount, decimals -/
  approveChecked : Ledger → Pubkey → Pubkey → Pubkey → Pubkey → UInt64 → UInt8 → Option Ledger
  /-- `revoke`: source, authority -/
  revoke : Ledger → Pubkey → Pubkey → Option Ledger
  /-- `close_account`: account, destination, authority -/
  closeAccount : Ledger → Pubkey → Pubkey → Pubkey → Option Ledger
  initializeAccount_eq_some : ∀ {l l' : Ledger} {account mint owner : Pubkey},
    initializeAccount l account mint owner = some l' →
      (l account).owner = Ids.tokenProgram ∧ unpackAccount (l account).data = none ∧
        ∃ data a, unpackAccount data = some a ∧ a.mint = mint ∧ a.owner = owner ∧
          l' = l.setData account data
  transfer_eq_some : ∀ {l l' : Ledger} {source destination authority : Pubkey}
    {programSigner : Option Pubkey} {amount : UInt64},
    transfer l source destination authority programSigner amount = some l' →
      ∃ mint, TokenMove unpackAccount mint source destination amount l l'
  transferChecked_eq_some : ∀ {l l' : Ledger} {source mint destination authority : Pubkey}
    {amount : UInt64} {decimals : UInt8},
    transferChecked l source mint destination authority amount decimals = some l' →
      TokenMove unpackAccount mint source destination amount l l'
  approve_eq_some : ∀ {l l' : Ledger} {source delegate authority : Pubkey} {amount : UInt64},
    approve l source delegate authority amount = some l' →
      ∃ account data, ((l source).owner = Ids.tokenProgram ∨ data = (l source).data) ∧
        unpackAccount (l source).data = some account ∧
        unpackAccount data =
          some { account with delegate := some delegate, delegatedAmount := amount } ∧
        l' = l.setData source data
  approveChecked_eq_some : ∀ {l l' : Ledger} {source mint delegate authority : Pubkey}
    {amount : UInt64} {decimals : UInt8},
    approveChecked l source mint delegate authority amount decimals = some l' →
      ∃ account data, ((l source).owner = Ids.tokenProgram ∨ data = (l source).data) ∧
        unpackAccount (l source).data = some account ∧ account.mint = mint ∧
        unpackAccount data =
          some { account with delegate := some delegate, delegatedAmount := amount } ∧
        l' = l.setData source data
  revoke_eq_some : ∀ {l l' : Ledger} {source authority : Pubkey},
    revoke l source authority = some l' →
      ∃ account data, ((l source).owner = Ids.tokenProgram ∨ data = (l source).data) ∧
        unpackAccount (l source).data = some account ∧
        unpackAccount data = some { account with delegate := none, delegatedAmount := 0 } ∧
        l' = l.setData source data
  closeAccount_eq_some : ∀ {l l' : Ledger} {account destination authority : Pubkey},
    closeAccount l account destination authority = some l' →
      (l account).owner = Ids.tokenProgram ∧ account ≠ destination ∧
        l' = l.close account destination

/-- The token account at the key, if there is one. -/
def tokenAccountAt [TokenProgram] (l : Ledger) (key : Pubkey) : Option TokenAccount :=
  if (l key).owner = Ids.tokenProgram then TokenProgram.unpackAccount (l key).data else none

theorem tokenAccountAt_eq_some [TokenProgram] {l : Ledger} {key : Pubkey} {a : TokenAccount} :
    tokenAccountAt l key = some a ↔
      (l key).owner = Ids.tokenProgram ∧ TokenProgram.unpackAccount (l key).data = some a := by
  simp [tokenAccountAt]

/-- A move keeps the token accounts, but for the amounts it moves. -/
theorem TokenMove.tokenAccountAt [TokenProgram] {mint source destination : Pubkey} {amount : UInt64}
    {l l' : Ledger}
    (h : TokenMove TokenProgram.unpackAccount mint source destination amount l l') {key : Pubkey}
    {a : TokenAccount} (ha : tokenAccountAt l key = some a) :
    ∃ a', Solana.tokenAccountAt l' key = some a' ∧ a'.mint = a.mint ∧ a'.owner = a.owner ∧
      a'.amount.toNat + (if key = source then amount.toNat else 0) =
        a.amount.toNat + (if key = destination then amount.toNat else 0) := by
  obtain ⟨howner, hunpack⟩ := tokenAccountAt_eq_some.1 ha
  obtain ⟨a', ha', hmove⟩ := h.balance key a hunpack
  exact ⟨a', tokenAccountAt_eq_some.2 ⟨(h.writes.owner_eq key).trans howner, ha'⟩, hmove⟩

/-! ## What the token program reads -/

/-- The token program sees the same accounts of its own. -/
structure SameTokens (l l' : Ledger) : Prop where
  owner_eq : ∀ key, (l' key).owner = (l key).owner
  data_eq : ∀ key, (l key).owner = Ids.tokenProgram → (l' key).data = (l key).data

theorem SameTokens.setData {l l' : Ledger} (h : SameTokens l l') (key : Pubkey) (data : Bytes) :
    SameTokens (l.setData key data) (l'.setData key data) where
  owner_eq k := by rw [Ledger.setData_owner, Ledger.setData_owner, h.owner_eq k]
  data_eq k hk := by
    rw [Ledger.setData_owner] at hk
    by_cases hkey : k = key
    · subst hkey
      rw [Ledger.setData_same, Ledger.setData_same]
    · rw [Ledger.setData, Ledger.set_of_ne hkey, Ledger.setData, Ledger.set_of_ne hkey,
        h.data_eq k hk]

/-- To revoke, the token program reads and writes its own accounts, and lamports do not matter. -/
structure TokenProgram.RevokeReads [TokenProgram] : Prop where
  revoke_eq : ∀ {l l' m : Ledger} {source authority : Pubkey}, SameTokens l l' →
    (l source).owner = Ids.tokenProgram → TokenProgram.revoke l source authority = some m →
      TokenProgram.revoke l' source authority = some (l'.setData source (m source).data)

/-- The conversion of an amount's text is the one that is modelled. -/
structure TokenProgram.ConvertsUiAmounts [TokenProgram] : Prop where
  eq : ∀ uiAmount decimals, TokenProgram.tryUiAmountIntoAmount uiAmount decimals =
    UiAmount.tryUiAmountIntoAmount uiAmount decimals

/-- The token metadata program, as far as the programs read its accounts. -/
class TokenMetadata where
  /-- `Metadata::try_from`: the symbol of a token's metadata account -/
  symbol : Bytes → Option String

end FogoSessions.Solana
