import FogoSessions.Lib.Text
import FogoSessions.SessionManager.Approving

/-!
# Symbols

What the token metadata program stores of a symbol is padded to ten bytes, and what the programs
compare it with is padded to ten characters.
-/

namespace FogoSessions.SessionManager

open Lib Solana Intents

/-- A symbol that the metadata program can store. -/
structure IsSymbol (s : String) : Prop where
  length_le : (utf8 s).length ≤ 10
  zero_notMem : 0 ∉ utf8 s

/-- The symbol as the metadata program stores it, in ten bytes. -/
def storedSymbol (symbol : String) : String :=
  symbol ++ String.ofList (List.replicate (10 - (utf8 symbol).length) '\x00')

theorem IsSymbol.char_ne_zero {s : String} (h : IsSymbol s) : ∀ c ∈ s.toList, c ≠ '\x00' := by
  intro c hc hzero
  apply h.zero_notMem
  rw [mem_utf8_ascii (by decide)]
  exact ⟨c, hc, by rw [hzero]; rfl⟩

/-- Padding is taken off in one way. -/
theorem append_replicate_inj {α : Type} [DecidableEq α] {a : α} {xs ys : List α} {m n : Nat}
    (hxs : ∀ x ∈ xs, x ≠ a) (hys : ∀ y ∈ ys, y ≠ a) :
    xs ++ List.replicate m a = ys ++ List.replicate n a ↔ xs = ys ∧ m = n := by
  have hfilter {zs : List α} {k : Nat} (hzs : ∀ z ∈ zs, z ≠ a) :
      (zs ++ List.replicate k a).filter (· ≠ a) = zs := by
    rw [List.filter_append, List.filter_eq_self.2 fun z hz => decide_eq_true (hzs z hz),
      List.filter_eq_nil_iff.2 fun z hz => by simp [List.eq_of_mem_replicate hz], List.append_nil]
  constructor
  · intro h
    have heq : xs = ys := by
      rw [← hfilter hxs (k := m), h, hfilter hys]
    have hlength := congrArg List.length h
    rw [heq, List.length_append, List.length_append, List.length_replicate, List.length_replicate]
      at hlength
    exact ⟨heq, by omega⟩
  · rintro ⟨rfl, rfl⟩
    rfl

/-- The two paddings agree on ASCII symbols only. -/
theorem padSymbol_eq_storedSymbol {s r : String} (hs : IsSymbol s) (hr : IsSymbol r) :
    storedSymbol r = padSymbol s ↔ s = r ∧ IsAscii s := by
  have hle := hs.length_le
  obtain ⟨hshort, hascii⟩ := length_utf8_spec s
  rw [storedSymbol, padSymbol, ← String.toList_inj, String.toList_append, String.toList_append,
    String.toList_ofList, String.toList_ofList,
    append_replicate_inj hr.char_ne_zero hs.char_ne_zero, String.toList_inj, ← hascii]
  constructor
  · rintro ⟨rfl, hlength⟩
    exact ⟨rfl, by omega⟩
  · rintro ⟨rfl, hlength⟩
    exact ⟨rfl, by rw [hlength]⟩

section

variable [Addressing] [TokenProgram] [TokenMetadata] {l : Ledger} {user : Pubkey}

theorem Aligned.append {tokens tokens' : List (SymbolOrMint × UiTokenAmount)}
    {groups groups' : List (List Pubkey)} {approvals approvals' : List PendingApproval}
    (h : Aligned l user tokens groups approvals) (h' : Aligned l user tokens' groups' approvals') :
    Aligned l user (tokens ++ tokens') (groups ++ groups') (approvals ++ approvals') := by
  induction h with
  | nil => exact h'
  | cons happroval _ ih => exact .cons happroval ih

/-- A list of tokens that is right but for the symbol of one of them. -/
structure OneSymbol (l : Ledger) (user mint : Pubkey) (uiTokenAmount : UiTokenAmount)
    (before after : List (SymbolOrMint × UiTokenAmount)) (groups groups' : List (List Pubkey)) :
    Prop where
  before : ∃ approvals, Aligned l user before groups approvals
  after : ∃ approvals, Aligned l user after groups' approvals
  amount : ∃ mintData amount, TokenProgram.unpackMint (l mint).data = some mintData ∧
    TokenProgram.tryUiAmountIntoAmount uiTokenAmount.text mintData.decimals = some amount

/-- The accounts of the token between those of the others. -/
def oneSymbolAccounts (user mint : Pubkey) (groups groups' : List (List Pubkey))
    (rest : List Pubkey) : List Pubkey :=
  (groups ++ [associatedTokenAddress user mint, mint, metadataAddress mint] :: groups').flatten ++ rest

/-- The conversion succeeds if and only if the symbol is the one that is stored. -/
theorem convertRemainingAccounts_symbol {mint : Pubkey} {s : String} {uiTokenAmount : UiTokenAmount}
    {before after : List (SymbolOrMint × UiTokenAmount)} {groups groups' : List (List Pubkey)}
    (h : OneSymbol l user mint uiTokenAmount before after groups groups') (rest : List Pubkey) :
    (∃ approvals, convertRemainingAccountsAndTokenLimitsToPendingApprovals l user
      (before ++ (.symbol s, uiTokenAmount) :: after)
      (oneSymbolAccounts user mint groups groups' rest) = .ok approvals) ↔
      TokenMetadata.symbol (l (metadataAddress mint)).data = some (padSymbol s) := by
  obtain ⟨⟨approvals, hbefore⟩, ⟨approvals', hafter⟩, mintData, amount, hmint, hamount⟩ := h
  constructor
  · rintro ⟨_, h⟩
    obtain ⟨_, rest', hsplit, haligned⟩ := convertRemainingAccounts_iff.1 h
    have hgrouped : Grouped (before ++ (.symbol s, uiTokenAmount) :: after)
        (oneSymbolAccounts user mint groups groups' rest)
        (groups ++ [associatedTokenAddress user mint, mint, metadataAddress mint] :: groups') := by
      refine ⟨?_, List.prefix_append _ _⟩
      simp only [List.map_append, List.map_cons, hbefore.lengths, hafter.lengths]
      rfl
    obtain rfl := (hsplit ▸ haligned.grouped rest').unique hgrouped
    have htoken : (before ++ (SymbolOrMint.symbol s, uiTokenAmount) :: after)[before.length]? =
        some (.symbol s, uiTokenAmount) := by
      rw [List.getElem?_append_right (Nat.le_refl _), Nat.sub_self]
      rfl
    obtain ⟨group, approval, hgroup, -, happroves⟩ := haligned.getElem? htoken
    have hlength : groups.length = before.length := by
      simpa using congrArg List.length hbefore.lengths
    rw [← hlength, List.getElem?_append_right (Nat.le_refl _), Nat.sub_self] at hgroup
    obtain ⟨rfl, hsymbol⟩ := happroves.mint
    obtain ⟨-, heq⟩ := List.cons.inj (Option.some.inj hgroup)
    obtain ⟨rfl, -⟩ := List.cons.inj heq
    exact hsymbol
  · intro hsymbol
    have happroves : Approves l user (.symbol s, uiTokenAmount)
        [associatedTokenAddress user mint, mint, metadataAddress mint]
        ⟨associatedTokenAddress user mint, mint, amount, mintData.decimals⟩ :=
      ⟨⟨rfl, hsymbol⟩, rfl, mintData, hmint, rfl, hamount⟩
    exact ⟨_, convertRemainingAccounts_iff.2 ⟨_, rest, rfl, hbefore.append (.cons happroves hafter)⟩⟩

end

end FogoSessions.SessionManager
