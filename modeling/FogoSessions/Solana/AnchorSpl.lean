import FogoSessions.Solana.Anchor
import FogoSessions.Solana.TokenProgram

/-!
# Token accounts in the anchor framework

What `anchor_spl` adds: accounts of the token program as account types, their constraints, and token
accounts that are created when they are missing.
-/

namespace FogoSessions.Solana

open Lib

/-- The associated token account program. -/
class AssociatedTokenProgram [Addressing] [TokenProgram] where
  /-- `create`: payer, account, wallet, mint -/
  create : Ledger → Pubkey → Pubkey → Pubkey → Pubkey → Option Ledger
  create_eq_some : ∀ {l l' : Ledger} {payer account wallet mint : Pubkey},
    create l payer account wallet mint = some l' →
      account = associatedTokenAddress wallet mint ∧ (l account).owner = Ids.systemProgram ∧
        ∃ lamports data a, (0 < lamports → (l payer).owner = Ids.systemProgram) ∧
          TokenProgram.unpackAccount data = some a ∧ a.mint = mint ∧ a.owner = wallet ∧
          a.amount = 0 ∧ l' = l.create payer account lamports data Ids.tokenProgram

namespace AnchorSpl

variable {ε : Type} [Addressing] [TokenProgram]

section

omit [Addressing]

/-- `Account<TokenAccount>`. -/
def tokenAccount (l : Ledger) (key : Pubkey) : Except (ProgramError ε) TokenAccount := do
  let data ← Anchor.owned l key Ids.tokenProgram
  okOr (TokenProgram.unpackAccount data) .foreign

/-- `Account<Mint>`. -/
def mint (l : Ledger) (key : Pubkey) : Except (ProgramError ε) Mint := do
  let data ← Anchor.owned l key Ids.tokenProgram
  okOr (TokenProgram.unpackMint data) .foreign

/-- The `token::mint` constraint. -/
def tokenMint (account : TokenAccount) (mint : Pubkey) : Except (ProgramError ε) Unit :=
  require (account.mint = mint) (.anchor .constraintTokenMint)

/-- The `token::authority` constraint. -/
def tokenAuthority (account : TokenAccount) (authority : Pubkey) : Except (ProgramError ε) Unit :=
  require (account.owner = authority) (.anchor .constraintTokenOwner)

end

/-- Creates the associated token account when nobody has. -/
def createAssociatedIfNeeded [AssociatedTokenProgram] (l : Ledger)
    (payer account wallet mint : Pubkey) : Except (ProgramError ε) Ledger :=
  if (l account).owner = Ids.systemProgram then
    okOr (AssociatedTokenProgram.create l payer account wallet mint) .invoked
  else return l

/-- `init_if_needed` of an associated token account. -/
def initAssociatedIfNeeded [AssociatedTokenProgram] (l : Ledger) (payer account wallet mint : Pubkey) :
    Except (ProgramError ε) Ledger := do
  let l ← createAssociatedIfNeeded l payer account wallet mint
  let value ← tokenAccount l account
  tokenMint value mint
  tokenAuthority value wallet
  require (account = associatedTokenAddress wallet mint) (.anchor .accountNotAssociatedTokenAccount)
  return l

/-- Creates a token account of the authority's when the address is nobody's. -/
def createTokenIfNeeded [SystemProgram] (l : Ledger) (payer account mint authority : Pubkey) :
    Except (ProgramError ε) Ledger :=
  if (l account).owner = Ids.systemProgram then do
    let l ← okOr (createOrFund l payer account Ids.tokenProgram TokenAccount.len) .invoked
    okOr (TokenProgram.initializeAccount l account mint authority) .invoked
  else return l

/-- `init_if_needed` of a token account at an address derived for the program. -/
def initTokenIfNeeded [SystemProgram] (self : Pubkey) (l : Ledger) (payer : Pubkey)
    (account : AccountMeta) (seeds : List Bytes) (mint authority : Pubkey) :
    Except (ProgramError ε) Ledger := do
  Anchor.seeds account seeds self
  let l ← createTokenIfNeeded l payer account.pubkey mint authority
  let value ← tokenAccount l account.pubkey
  tokenMint value mint
  tokenAuthority value authority
  return l

/-! ## What succeeded -/

omit [Addressing] in
theorem tokenAccount_eq_ok {l : Ledger} {key : Pubkey} {a : TokenAccount}
    (h : (tokenAccount l key : Except (ProgramError ε) TokenAccount) = .ok a) :
    tokenAccountAt l key = some a := by
  simp only [tokenAccount, bind_eq_ok, okOr_eq_ok] at h
  obtain ⟨data, hdata, hunpack⟩ := h
  obtain ⟨howner, rfl⟩ := Anchor.owned_eq_ok hdata
  exact tokenAccountAt_eq_some.2 ⟨howner, hunpack⟩

/-- A new token account may have been made at the key, paid for by the payer. -/
structure MayCreate (payer key mint wallet : Pubkey) (l l' : Ledger) : Prop where
  created : l' = l ∨ (l key).owner = Ids.systemProgram ∧ ∃ lamports data,
    (0 < lamports → (l payer).owner = Ids.systemProgram) ∧
      l' = l.create payer key lamports data Ids.tokenProgram
  holds : ∃ a, tokenAccountAt l' key = some a ∧ a.mint = mint ∧ a.owner = wallet

theorem initAssociatedIfNeeded_eq_ok [AssociatedTokenProgram] {l l' : Ledger}
    {payer account wallet mint : Pubkey}
    (h : (initAssociatedIfNeeded l payer account wallet mint : Except (ProgramError ε) Ledger) =
      .ok l') :
    account = associatedTokenAddress wallet mint ∧ MayCreate payer account mint wallet l l' := by
  simp only [initAssociatedIfNeeded, bind_eq_ok, tokenMint, tokenAuthority, require_eq_ok,
    pure_eq_ok] at h
  obtain ⟨l₁, hcreate, value, hvalue, -, hmint, -, hwallet, -, haddress, rfl⟩ := h
  refine ⟨haddress, ?_, value, tokenAccount_eq_ok hvalue, hmint, hwallet⟩
  unfold createAssociatedIfNeeded at hcreate
  split at hcreate
  · obtain ⟨-, howner, lamports, data, a, hpayer, -, -, -, -, heq⟩ :=
      AssociatedTokenProgram.create_eq_some (okOr_eq_ok.1 hcreate)
    exact .inr ⟨howner, lamports, data, hpayer, heq⟩
  · exact .inl (pure_eq_ok.1 hcreate).symm

theorem initTokenIfNeeded_eq_ok [SystemProgram] {self : Pubkey} {l l' : Ledger} {payer : Pubkey}
    {account : AccountMeta} {seeds : List Bytes} {mint authority : Pubkey}
    (h : (initTokenIfNeeded self l payer account seeds mint authority :
      Except (ProgramError ε) Ledger) = .ok l') :
    account.pubkey = derivedAddress seeds self ∧
      MayCreate payer account.pubkey mint authority l l' := by
  simp only [initTokenIfNeeded, bind_eq_ok, Anchor.seeds, tokenMint, tokenAuthority, require_eq_ok,
    pure_eq_ok] at h
  obtain ⟨-, haddress, l₁, hcreate, value, hvalue, -, hmint, -, howner, rfl⟩ := h
  refine ⟨haddress, ?_, value, tokenAccount_eq_ok hvalue, hmint, howner⟩
  unfold createTokenIfNeeded at hcreate
  split at hcreate
  · simp only [bind_eq_ok, okOr_eq_ok] at hcreate
    obtain ⟨l₂, hcreate, hinitialize⟩ := hcreate
    obtain ⟨howner, -, lamports, hpayer, -, rfl⟩ := createOrFund_eq_create hcreate
    obtain ⟨-, -, data, a, -, -, -, rfl⟩ := TokenProgram.initializeAccount_eq_some hinitialize
    refine .inr ⟨howner, lamports, data, hpayer, ?_⟩
    exact Ledger.create_setData
  · exact .inl (pure_eq_ok.1 hcreate).symm

end AnchorSpl

end FogoSessions.Solana
