import FogoSessions.SessionManager.Program

/-!
# The tokens of an intent and their approvals

`session-manager/src/token/approve.rs`: the remaining accounts are read from left to right, in groups
of two for a mint and of three for a symbol, and the approvals are those of the tokens, in order.
-/

namespace FogoSessions.SessionManager

open Lib Solana Intents

/-- How many accounts a token takes up: the user's account, the mint and, for a symbol, the metadata. -/
def stride : SymbolOrMint → Nat
  | .symbol _ => 3
  | .mint _ => 2

/-- The accounts of one token after the other, from the first account on. -/
structure Grouped (tokens : List (SymbolOrMint × UiTokenAmount)) (accounts : List Pubkey)
    (groups : List (List Pubkey)) : Prop where
  lengths : groups.map List.length = tokens.map fun token => stride token.1
  left_to_right : groups.flatten <+: accounts

/-- There is one way to read the accounts in groups. -/
theorem Grouped.unique {tokens : List (SymbolOrMint × UiTokenAmount)} {accounts : List Pubkey}
    {groups groups' : List (List Pubkey)} (h : Grouped tokens accounts groups)
    (h' : Grouped tokens accounts groups') : groups = groups' := by
  have hlengths := h.lengths.trans h'.lengths.symm
  obtain ⟨rest, hrest⟩ := h.left_to_right
  obtain ⟨rest', hrest'⟩ := h'.left_to_right
  have hflatten : groups.flatten.length = groups'.flatten.length := by
    rw [List.length_flatten, List.length_flatten, hlengths]
  obtain ⟨heq, -⟩ := List.append_inj (hrest.trans hrest'.symm) hflatten
  exact List.eq_iff_flatten_eq.2 ⟨heq, hlengths⟩

section

variable [Addressing] [TokenProgram] [TokenMetadata] {l : Ledger} {user : Pubkey}

/-- The group names the mint as the signer did. -/
def Names (l : Ledger) (userAccount mintAccount : Pubkey) (group : List Pubkey) : SymbolOrMint → Prop
  | .symbol symbol => group = [userAccount, mintAccount, metadataAddress mintAccount] ∧
      TokenMetadata.symbol (l (metadataAddress mintAccount)).data = some (padSymbol symbol)
  | .mint mint => group = [userAccount, mintAccount] ∧ mintAccount = mint

/-- The approval that the signer asked for with the token, of the accounts of the group. -/
structure Approves (l : Ledger) (user : Pubkey) (token : SymbolOrMint × UiTokenAmount)
    (group : List Pubkey) (approval : PendingApproval) : Prop where
  mint : Names l approval.userAccount approval.mintAccount group token.1
  userAccount : approval.userAccount = associatedTokenAddress user approval.mintAccount
  amount : ∃ mintData, TokenProgram.unpackMint (l approval.mintAccount).data = some mintData ∧
    approval.mintDecimals = mintData.decimals ∧
    TokenProgram.tryUiAmountIntoAmount token.2.text mintData.decimals = some approval.amount

/-- One group and one approval for each token, in order. -/
inductive Aligned (l : Ledger) (user : Pubkey) : List (SymbolOrMint × UiTokenAmount) →
    List (List Pubkey) → List PendingApproval → Prop
  | nil : Aligned l user [] [] []
  | cons {token tokens group groups approval approvals} : Approves l user token group approval →
      Aligned l user tokens groups approvals →
      Aligned l user (token :: tokens) (group :: groups) (approval :: approvals)

omit [TokenProgram] in
theorem Names.length {userAccount mintAccount : Pubkey} {group : List Pubkey}
    {symbolOrMint : SymbolOrMint} (h : Names l userAccount mintAccount group symbolOrMint) :
    group.length = stride symbolOrMint := by
  cases symbolOrMint with
  | symbol symbol =>
    rw [h.1]
    rfl
  | mint mint =>
    rw [h.1]
    rfl

omit [Addressing] [TokenProgram] [TokenMetadata] in
theorem nextAccount_eq_ok {accounts rest : List Pubkey} {account : Pubkey} :
    nextAccount accounts = .ok (account, rest) ↔ accounts = account :: rest := by
  cases accounts with
  | nil => simp [nextAccount]
  | cons a as => simp [nextAccount]

omit [TokenProgram] in
theorem resolveAccounts_iff {symbolOrMint : SymbolOrMint} {accounts rest : List Pubkey}
    {userAccount mintAccount : Pubkey} :
    resolveAccounts l symbolOrMint accounts = .ok (userAccount, mintAccount, rest) ↔
      ∃ group, accounts = group ++ rest ∧ Names l userAccount mintAccount group symbolOrMint := by
  cases symbolOrMint with
  | symbol symbol =>
    simp only [resolveAccounts, bind_eq_ok, Prod.exists, nextAccount_eq_ok, require_eq_ok, okOr_eq_ok,
      pure_eq_ok]
    constructor
    · rintro ⟨_, _, rfl, _, _, rfl, _, _, rfl, -, rfl, stored, hstored, -, rfl, ⟨⟩⟩
      exact ⟨_, rfl, rfl, hstored⟩
    · rintro ⟨_, rfl, rfl, hstored⟩
      exact ⟨_, _, rfl, _, _, rfl, _, _, rfl, (), rfl, _, hstored, (), rfl, rfl⟩
  | mint mint =>
    simp only [resolveAccounts, bind_eq_ok, Prod.exists, nextAccount_eq_ok, require_eq_ok, pure_eq_ok]
    constructor
    · rintro ⟨_, _, rfl, _, _, rfl, -, rfl, ⟨⟩⟩
      exact ⟨_, rfl, rfl, rfl⟩
    · rintro ⟨_, rfl, rfl, rfl⟩
      exact ⟨_, _, rfl, _, _, rfl, (), rfl, rfl⟩

omit [Addressing] [TokenMetadata] in
theorem intoAmountInternal_eq_ok {uiTokenAmount : UiTokenAmount} {decimals : UInt8} {amount : UInt64} :
    uiTokenAmount.intoAmountInternal decimals = .ok amount ↔
      TokenProgram.tryUiAmountIntoAmount uiTokenAmount.text decimals = some amount :=
  okOr_eq_ok

theorem resolveApproval_iff {symbolOrMint : SymbolOrMint} {uiTokenAmount : UiTokenAmount}
    {accounts rest : List Pubkey} {approval : PendingApproval} :
    resolveApproval l user symbolOrMint uiTokenAmount accounts = .ok (approval, rest) ↔
      ∃ group, accounts = group ++ rest ∧
        Approves l user (symbolOrMint, uiTokenAmount) group approval := by
  simp only [resolveApproval, bind_eq_ok, Prod.exists, resolveAccounts_iff, require_eq_ok, okOr_eq_ok,
    intoAmountInternal_eq_ok, pure_eq_ok]
  constructor
  · rintro ⟨userAccount, mintAccount, _, ⟨group, rfl, hnames⟩, -, huser, mintData, hmint, amount,
      hamount, ⟨⟩⟩
    exact ⟨group, rfl, hnames, huser, mintData, hmint, rfl, hamount⟩
  · rintro ⟨group, rfl, hnames, huser, mintData, hmint, hdecimals, hamount⟩
    obtain ⟨userAccount, mintAccount, amount, mintDecimals⟩ := approval
    obtain rfl : mintDecimals = mintData.decimals := hdecimals
    exact ⟨_, _, _, ⟨group, rfl, hnames⟩, (), huser, mintData, hmint, amount, hamount, rfl⟩

/-- The approvals are those of the tokens, and no account is read twice. -/
theorem convertRemainingAccounts_iff {tokens : List (SymbolOrMint × UiTokenAmount)} :
    ∀ {accounts : List Pubkey} {approvals : List PendingApproval},
      convertRemainingAccountsAndTokenLimitsToPendingApprovals l user tokens accounts =
        .ok approvals ↔
      ∃ groups rest, accounts = groups.flatten ++ rest ∧ Aligned l user tokens groups approvals := by
  induction tokens with
  | nil =>
    intro accounts approvals
    constructor
    · rintro ⟨⟩
      exact ⟨[], accounts, rfl, .nil⟩
    · rintro ⟨groups, rest, -, h⟩
      cases h
      rfl
  | cons token tokens ih =>
    intro accounts approvals
    obtain ⟨symbolOrMint, uiTokenAmount⟩ := token
    simp only [convertRemainingAccountsAndTokenLimitsToPendingApprovals, bind_eq_ok, Prod.exists,
      resolveApproval_iff, ih, pure_eq_ok]
    constructor
    · rintro ⟨approval, _, ⟨group, rfl, happroval⟩, approvals, ⟨groups, rest, rfl, haligned⟩, rfl⟩
      exact ⟨group :: groups, rest, by simp, .cons happroval haligned⟩
    · rintro ⟨_, rest, rfl, h⟩
      cases h with
      | cons happroval haligned =>
        exact ⟨_, _, ⟨_, by simp, happroval⟩, _, ⟨_, rest, rfl, haligned⟩, rfl⟩

namespace Aligned

variable {tokens : List (SymbolOrMint × UiTokenAmount)} {groups : List (List Pubkey)}
  {approvals : List PendingApproval}

theorem lengths (h : Aligned l user tokens groups approvals) :
    groups.map List.length = tokens.map fun token => stride token.1 := by
  induction h with
  | nil => rfl
  | cons happroval _ ih => rw [List.map_cons, List.map_cons, ih, happroval.mint.length]

theorem grouped (h : Aligned l user tokens groups approvals) (rest : List Pubkey) :
    Grouped tokens (groups.flatten ++ rest) groups :=
  ⟨h.lengths, List.prefix_append _ _⟩

theorem length_eq (h : Aligned l user tokens groups approvals) : approvals.length = tokens.length := by
  induction h with
  | nil => rfl
  | cons _ _ ih => rw [List.length_cons, List.length_cons, ih]

/-- The token, the group and the approval at one place belong together. -/
theorem getElem? (h : Aligned l user tokens groups approvals) {i : Nat}
    {token : SymbolOrMint × UiTokenAmount} (htoken : tokens[i]? = some token) :
    ∃ group approval, groups[i]? = some group ∧ approvals[i]? = some approval ∧
      Approves l user token group approval := by
  induction h generalizing i with
  | nil => cases htoken
  | @cons first _ group _ approval _ happroval _ ih =>
    cases i with
    | zero =>
      obtain rfl : first = token := Option.some.inj htoken
      exact ⟨group, approval, rfl, rfl, happroval⟩
    | succ i => exact ih htoken

end Aligned

end

end FogoSessions.SessionManager
