import FogoSessions.SdkTs.StartSession
import FogoSessions.SessionManager.Approving
import FogoSessions.Solana.Native
import FogoSessions.Solana.Replay

/-!
# The accounts of the tokens

`sessions-sdk-ts/src/index.ts`: the accounts that are sent along with a session intent, and how the
session manager reads them.
-/

namespace FogoSessions.SdkTs

open Lib Solana Intents SessionManager

section

variable [Addressing]

/-- The accounts of one token; the metadata is looked up for a token with a symbol only. -/
def TokenInfo.accounts (token : TokenInfo) (wallet : Pubkey) : List AccountMeta :=
  [⟨associatedTokenAddress wallet token.mint, false, true⟩, ⟨token.mint, false, false⟩] ++
    match token.symbolOrMint with
    | .symbol _ => [⟨metadataAddress token.mint, false, false⟩]
    | .mint _ => []

/-- `buildStartSessionInstruction`: the accounts after those that the instruction names. -/
def startSessionRemainingAccounts (wallet : Pubkey) (tokens : Option (List TokenInfo)) :
    List AccountMeta :=
  match tokens with
  | none => []
  | some tokens => tokens.flatMap fun token => token.accounts wallet

/-- The keys of the accounts of one token. -/
def TokenInfo.group (wallet : Pubkey) (token : TokenInfo) : List Pubkey :=
  (token.accounts wallet).map AccountMeta.pubkey

theorem TokenInfo.length_group (wallet : Pubkey) (token : TokenInfo) :
    (token.group wallet).length = stride token.entry.1 := by
  rw [group, List.length_map, accounts, entry]
  cases token.symbolOrMint <;> rfl

theorem startSessionRemainingAccounts_pubkey (wallet : Pubkey) (tokens : List TokenInfo) :
    (startSessionRemainingAccounts wallet (some tokens)).map AccountMeta.pubkey =
      (tokens.map (TokenInfo.group wallet)).flatten := by
  rw [startSessionRemainingAccounts, List.map_flatMap, List.flatMap_def]
  rfl

/-- The accounts are those of the tokens, in the groups that the session manager reads. -/
theorem startSessionRemainingAccounts_grouped (wallet : Pubkey) (tokens : List TokenInfo) :
    Grouped (tokens.map TokenInfo.entry)
      ((startSessionRemainingAccounts wallet (some tokens)).map AccountMeta.pubkey)
      (tokens.map (TokenInfo.group wallet)) := by
  refine ⟨?_, ?_⟩
  · rw [List.map_map, List.map_map]
    apply List.map_congr_left
    intro token _
    exact token.length_group wallet
  · rw [startSessionRemainingAccounts_pubkey]

variable [TokenProgram] [TokenMetadata]

/-- **The approvals line up with the signed tokens**, and the accounts that are sent along are those
    of the tokens. -/
theorem startSession_approvals_aligned :
    (∀ (l : Ledger) (user : Pubkey) (tokens : List (SymbolOrMint × UiTokenAmount))
      (accounts : List Pubkey) (approvals : List PendingApproval),
      convertRemainingAccountsAndTokenLimitsToPendingApprovals l user tokens accounts =
        .ok approvals →
      ∃ groups, Grouped tokens accounts groups ∧ approvals.length = tokens.length ∧
        ∀ (i : Nat) (token : SymbolOrMint × UiTokenAmount), tokens[i]? = some token →
          ∃ group approval, groups[i]? = some group ∧ approvals[i]? = some approval ∧
            Approves l user token group approval) ∧
    ∀ (wallet : Pubkey) (tokens : List TokenInfo),
      Grouped (tokens.map TokenInfo.entry)
        ((startSessionRemainingAccounts wallet (some tokens)).map AccountMeta.pubkey)
        (tokens.map (TokenInfo.group wallet)) ∧
      ∀ (l : Ledger) (approvals : List PendingApproval),
        convertRemainingAccountsAndTokenLimitsToPendingApprovals l wallet
          (tokens.map TokenInfo.entry)
          ((startSessionRemainingAccounts wallet (some tokens)).map AccountMeta.pubkey) =
            .ok approvals →
        ∀ (i : Nat) (token : TokenInfo), tokens[i]? = some token →
          ∃ approval, approvals[i]? = some approval ∧
            Approves l wallet token.entry (token.group wallet) approval := by
  constructor
  · intro l user tokens accounts approvals h
    obtain ⟨groups, rest, rfl, haligned⟩ := convertRemainingAccounts_iff.1 h
    exact ⟨groups, haligned.grouped rest, haligned.length_eq, fun _ _ => haligned.getElem?⟩
  · intro wallet tokens
    have hgrouped := startSessionRemainingAccounts_grouped wallet tokens
    refine ⟨hgrouped, ?_⟩
    intro l approvals h i token htoken
    obtain ⟨groups, rest, hsplit, haligned⟩ := convertRemainingAccounts_iff.1 h
    -- the accounts can be read in groups in one way only
    obtain rfl : groups = tokens.map (TokenInfo.group wallet) :=
      (hsplit ▸ haligned.grouped rest).unique hgrouped
    have hentry : (tokens.map TokenInfo.entry)[i]? = some token.entry := by
      rw [List.getElem?_map, htoken]
      rfl
    obtain ⟨group, approval, hgroup, happroval, happroves⟩ := haligned.getElem? hentry
    rw [List.getElem?_map, htoken] at hgroup
    obtain rfl : token.group wallet = group := Option.some.inj hgroup
    exact ⟨approval, happroval, happroves⟩

end

namespace Approvals

def wallet : Pubkey := .ofNat 2
def fogo : Pubkey := .ofNat 3
def usdc : Pubkey := .ofNat 4
def fogoToken : Pubkey := .ofNat 5
def usdcToken : Pubkey := .ofNat 6
def fogoMetadata : Pubkey := .ofNat 7

/-- The addresses of a chain with two tokens, one of which has a symbol. -/
def book : AddressBook where
  hashes := []
  wallets := [wallet, fogo, usdc]
  derived := [
    (([wallet.bytes, Ids.tokenProgram.bytes, fogo.bytes], Ids.associatedTokenProgram), fogoToken, 255),
    (([wallet.bytes, Ids.tokenProgram.bytes, usdc.bytes], Ids.associatedTokenProgram), usdcToken, 255),
    (([utf8 "metadata", Ids.tokenMetadataProgram.bytes, fogo.bytes], Ids.tokenMetadataProgram),
      fogoMetadata, 255)]
  other := .ofNat 8
  derived_off_curve := by decide +kernel
  other_off_curve := by decide +kernel

scoped instance : Addressing := book.addressing
scoped instance : TokenProgram := Native.tokenProgram
scoped instance : TokenMetadata := Native.tokenMetadata

def ledger : Ledger := .ofList [
  (fogo, ⟨1461600, Ids.tokenProgram, zeros 44 ++ [9, 1] ++ zeros 36⟩),
  (usdc, ⟨1461600, Ids.tokenProgram, zeros 44 ++ [6, 1] ++ zeros 36⟩),
  (fogoMetadata, ⟨5616720, Ids.tokenMetadataProgram, Native.metadata wallet fogo "Fogo" "FOGO"⟩)]

def tokens : List TokenInfo := [⟨1500000000, 9, fogo, some "FOGO"⟩, ⟨2500000, 6, usdc, none⟩]

def approvals : List PendingApproval :=
  [⟨fogoToken, fogo, 1500000000, 9⟩, ⟨usdcToken, usdc, 2500000, 6⟩]

end Approvals

open Approvals in
theorem startSession_approvals_aligned_sample :
    (∃ groups, Grouped (tokens.map TokenInfo.entry)
      ((startSessionRemainingAccounts wallet (some tokens)).map AccountMeta.pubkey) groups) ∧
    ∃ approval, approvals[1]? = some approval ∧ Approves ledger wallet
      (TokenInfo.entry ⟨2500000, 6, usdc, none⟩) [usdcToken, usdc] approval := by
  have hrun : convertRemainingAccountsAndTokenLimitsToPendingApprovals ledger wallet
      (tokens.map TokenInfo.entry)
      ((startSessionRemainingAccounts wallet (some tokens)).map AccountMeta.pubkey) =
        .ok approvals :=
    toOption_eq_some.1 (by decide +kernel)
  obtain ⟨halign, hsdk⟩ := startSession_approvals_aligned
  obtain ⟨groups, hgrouped, -⟩ := halign _ _ _ _ _ hrun
  exact ⟨⟨groups, hgrouped⟩, (hsdk wallet tokens).2 ledger approvals hrun 1 _ rfl⟩

end FogoSessions.SdkTs
