import FogoSessions.SessionManager.Symbols
import FogoSessions.Solana.Native
import FogoSessions.Solana.Replay

/-!
# Checks on the intent's tokens

`intent-transfer/src/verify.rs` and `error.rs`: the mint of a transfer is the one that the signer
named, by its address or by its symbol.
-/

namespace FogoSessions.IntentTransfer

open Lib Solana Intents SessionManager

inductive IntentTransferError where
  | noIntentMessageInstruction
  | incorrectInstructionProgramId
  | signatureVerificationUnexpectedHeader
  | parseFailedError
  | deserializeFailedError
  | chainIdMismatch
  | signerSourceMismatch
  | recipientMismatch
  | mintMismatch
  | metadataAccountRequired
  | metadataAccountNotAllowed
  | metadataMismatch
  | symbolMismatch
  | nonceFailure
  | invalidRecipientAddress
  | unsupportedToChainId
  | invalidNttManager
  | unauthorized
  | invalidNttSignedQuote
  | insufficientFeeAmount
deriving DecidableEq

abbrev Error := ProgramError IntentTransferError

section

variable [Addressing] [TokenMetadata]

def verifySymbolOrMint (l : Ledger) (symbolOrMint : SymbolOrMint) (metadata : Option Pubkey)
    (mint : Pubkey) : Except Error Unit :=
  match symbolOrMint, metadata with
  | .symbol symbol, some metadata => do
    require (metadata = metadataAddress mint) (.custom .metadataMismatch)
    let metadataSymbol ← okOr (TokenMetadata.symbol (l metadata).data) .foreign
    require (metadataSymbol = padSymbol symbol) (.custom .symbolMismatch)
  | .symbol _, none => .error (.custom .metadataAccountRequired)
  | .mint expectedMint, none => require (expectedMint = mint) (.custom .mintMismatch)
  | .mint _, some _ => .error (.custom .metadataAccountNotAllowed)

theorem verifySymbolOrMint_symbol {l : Ledger} {s : String} {mint : Pubkey} :
    verifySymbolOrMint l (.symbol s) (some (metadataAddress mint)) mint = .ok () ↔
      TokenMetadata.symbol (l (metadataAddress mint)).data = some (padSymbol s) := by
  simp only [verifySymbolOrMint, bind_eq_ok, require_eq_ok, okOr_eq_ok]
  constructor
  · rintro ⟨-, -, _, hsymbol, rfl⟩
    exact hsymbol
  · intro hsymbol
    exact ⟨(), trivial, _, hsymbol, rfl⟩

/-- **The signed symbol is matched with the stored one** as it should be, in both programs, if and
    only if it is ASCII or another symbol. -/
theorem symbol_matches_iff [TokenProgram] {s r : String} (hs : IsSymbol s) (hr : IsSymbol r)
    {l : Ledger} {mint : Pubkey}
    (hstored : TokenMetadata.symbol (l (metadataAddress mint)).data = some (storedSymbol r)) :
    ((verifySymbolOrMint l (.symbol s) (some (metadataAddress mint)) mint = .ok () ↔ s = r) ↔
      IsAscii s ∨ s ≠ r) ∧
    ∀ (user : Pubkey) (uiTokenAmount : UiTokenAmount)
      (before after : List (SymbolOrMint × UiTokenAmount)) (groups groups' : List (List Pubkey))
      (rest : List Pubkey), OneSymbol l user mint uiTokenAmount before after groups groups' →
      (((∃ approvals, convertRemainingAccountsAndTokenLimitsToPendingApprovals l user
        (before ++ (.symbol s, uiTokenAmount) :: after)
        (oneSymbolAccounts user mint groups groups' rest) = .ok approvals) ↔ s = r) ↔
          IsAscii s ∨ s ≠ r) := by
  have hmatch : TokenMetadata.symbol (l (metadataAddress mint)).data = some (padSymbol s) ↔
      s = r ∧ IsAscii s := by
    rw [hstored, Option.some.injEq, padSymbol_eq_storedSymbol hs hr]
  constructor
  · rw [verifySymbolOrMint_symbol, hmatch]
    tauto
  · intro user uiTokenAmount before after groups groups' rest hone
    rw [convertRemainingAccounts_symbol hone rest, hmatch]
    tauto

end

namespace Verify

def wallet : Pubkey := .ofNat 2
def mint : Pubkey := .ofNat 3
def tokenAccount : Pubkey := .ofNat 4
def metadata : Pubkey := .ofNat 5

def book : AddressBook where
  hashes := []
  wallets := [wallet, mint]
  derived := [
    (([wallet.bytes, Ids.tokenProgram.bytes, mint.bytes], Ids.associatedTokenProgram), tokenAccount,
      255),
    (([utf8 "metadata", Ids.tokenMetadataProgram.bytes, mint.bytes], Ids.tokenMetadataProgram),
      metadata, 255)]
  other := .ofNat 6
  derived_off_curve := by decide +kernel
  other_off_curve := by decide +kernel

scoped instance : Addressing := book.addressing
scoped instance : TokenProgram := Native.tokenProgram
scoped instance : TokenMetadata := Native.tokenMetadata

/-- The ledger with a token of that symbol. -/
def ledger (symbol : String) : Ledger := .ofList [
  (mint, ⟨1461600, Ids.tokenProgram, zeros 44 ++ [6, 1] ++ zeros 36⟩),
  (metadata, ⟨5616720, Ids.tokenMetadataProgram, Native.metadata wallet mint "Token" symbol⟩)]

theorem isSymbol : IsSymbol "FOGO" := ⟨by decide, by decide⟩

theorem oneSymbol : OneSymbol (ledger "FOGO") wallet mint ⟨"1.5"⟩ [] [] [] [] :=
  ⟨⟨[], .nil⟩, ⟨[], .nil⟩, ⟨6⟩, 1500000, by decide +kernel, by decide +kernel⟩

end Verify

open Verify in
theorem symbol_matches_iff_sample :
    verifySymbolOrMint (ledger "FOGO") (.symbol "FOGO") (some (metadataAddress Verify.mint))
      Verify.mint = .ok () ∧
    ∃ approvals, convertRemainingAccountsAndTokenLimitsToPendingApprovals (ledger "FOGO") wallet
      [(.symbol "FOGO", ⟨"1.5"⟩)] (oneSymbolAccounts wallet Verify.mint [] [] []) = .ok approvals := by
  have hascii : IsAscii "FOGO" ∨ "FOGO" ≠ "FOGO" := by
    left
    simp [IsAscii]
  have hstored : TokenMetadata.symbol ((ledger "FOGO") (metadataAddress Verify.mint)).data =
      some (storedSymbol "FOGO") := by
    decide +kernel
  obtain ⟨hverify, hconvert⟩ := symbol_matches_iff isSymbol isSymbol hstored
  exact ⟨(hverify.2 hascii).2 rfl, ((hconvert _ _ _ _ _ _ _ oneSymbol).2 hascii).2 rfl⟩

open Verify in
/-- A symbol that is not ASCII is not matched with itself. -/
theorem verifySymbolOrMint_nonAscii : IsSymbol "é" ∧
    TokenMetadata.symbol ((ledger "é") (metadataAddress Verify.mint)).data = some (storedSymbol "é") ∧
    verifySymbolOrMint (ledger "é") (.symbol "é") (some (metadataAddress Verify.mint)) Verify.mint ≠
      .ok () :=
  ⟨⟨by decide, by decide⟩, by decide +kernel, by decide +kernel⟩

end FogoSessions.IntentTransfer
