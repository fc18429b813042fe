import FogoSessions.Solana.AnchorSpl
import FogoSessions.Solana.Lamports
import FogoSessions.Solana.Runtime

/-!
# Balances

How many tokens and lamports there are at an address, and how the steps of a program change that. A
move is an equation in natural numbers, with what an account gives on the left and what it gets on the
right.
-/

namespace FogoSessions.Solana

open Lib

/-- An amount at one account, and nothing at the others. -/
def portion (key : Pubkey) (amount : Nat) (k : Pubkey) : Nat := if k = key then amount else 0

/-! ## Tokens -/

section

variable [TokenProgram] {l l' l'' : Ledger} {key : Pubkey}

/-- The tokens at the key; without a token account there are none. -/
def tokenBalance (l : Ledger) (key : Pubkey) : Nat :=
  (tokenAccountAt l key).elim 0 fun a => a.amount.toNat

theorem tokenBalance_congr (howner : (l' key).owner = (l key).owner)
    (hdata : (l' key).data = (l key).data) : tokenBalance l' key = tokenBalance l key := by
  unfold tokenBalance tokenAccountAt
  rw [howner, hdata]

theorem tokenBalance_of_account_eq (h : l' key = l key) : tokenBalance l' key = tokenBalance l key :=
  tokenBalance_congr (congrArg Account.owner h) (congrArg Account.data h)

theorem tokenBalance_of_none (h : tokenAccountAt l key = none) : tokenBalance l key = 0 := by
  rw [tokenBalance, h]
  rfl

theorem tokenBalance_of_owner (h : (l key).owner ≠ Ids.tokenProgram) : tokenBalance l key = 0 :=
  tokenBalance_of_none (if_neg h)

theorem tokenBalance_of_account {a : TokenAccount} (h : tokenAccountAt l key = some a) :
    tokenBalance l key = a.amount.toNat := by
  rw [tokenBalance, h]
  rfl

/-- No account got or gave tokens. -/
def SameBalances (l l' : Ledger) : Prop := ∀ key, tokenBalance l' key = tokenBalance l key

theorem SameBalances.refl : SameBalances l l := fun _ => rfl

theorem SameBalances.trans (h : SameBalances l l') (h' : SameBalances l' l'') : SameBalances l l'' :=
  fun key => (h' key).trans (h key)

/-- The account is another program's before and after. -/
theorem sameBalances_of_ne (howner : (l key).owner ≠ Ids.tokenProgram)
    (howner' : (l' key).owner ≠ Ids.tokenProgram)
    (h : ∀ k, k ≠ key → (l' k).owner = (l k).owner ∧ (l' k).data = (l k).data) :
    SameBalances l l' := by
  intro k
  by_cases hk : k = key
  · subst hk
    rw [tokenBalance_of_owner howner, tokenBalance_of_owner howner']
  · exact tokenBalance_congr (h k hk).1 (h k hk).2

theorem sameBalances_create {payer owner : Pubkey} {n : Nat} {data : Bytes}
    (hkey : (l key).owner = Ids.systemProgram) (howner : owner ≠ Ids.tokenProgram) :
    SameBalances l (l.create payer key n data owner) := by
  refine sameBalances_of_ne (?_ : (l key).owner ≠ Ids.tokenProgram) ?_ fun k hk => Ledger.create_content hk
  · rw [hkey]
    exact Ids.tokenProgram_ne_systemProgram.symm
  · rwa [Ledger.create_owner]

theorem sameBalances_setData {data : Bytes} (hkey : (l key).owner ≠ Ids.tokenProgram) :
    SameBalances l (l.setData key data) := by
  refine sameBalances_of_ne hkey ?_ fun k hk => ?_
  · rwa [Ledger.setData_owner]
  · exact ⟨Ledger.setData_owner, by rw [Ledger.setData, Ledger.set_of_ne hk]⟩

/-- A new token account is empty. -/
theorem sameBalances_create_token {payer : Pubkey} {n : Nat} {data : Bytes} {a : TokenAccount}
    (hkey : (l key).owner = Ids.systemProgram) (hunpack : TokenProgram.unpackAccount data = some a)
    (hamount : a.amount = 0) : SameBalances l (l.create payer key n data Ids.tokenProgram) := by
  intro k
  by_cases hk : k = key
  · subst hk
    have hnew : tokenAccountAt (l.create payer k n data Ids.tokenProgram) k = some a :=
      tokenAccountAt_eq_some.2 ⟨Ledger.create_owner, Ledger.create_data ▸ hunpack⟩
    rw [tokenBalance_of_account hnew, hamount, tokenBalance_of_owner]
    · rfl
    · rw [hkey]
      exact Ids.tokenProgram_ne_systemProgram.symm
  · exact tokenBalance_congr (Ledger.create_content hk).1 (Ledger.create_content hk).2

/-- What leaves the source arrives at the destination. -/
theorem TokenMove.tokenBalance_eq {mint source destination : Pubkey} {amount : UInt64}
    (h : TokenMove TokenProgram.unpackAccount mint source destination amount l l') (key : Pubkey) :
    tokenBalance l' key + portion source amount.toNat key =
      tokenBalance l key + portion destination amount.toNat key := by
  unfold portion
  cases hunpack : TokenProgram.unpackAccount (l key).data with
  | none =>
    have hsource : key ≠ source := by
      rintro rfl
      obtain ⟨a, ha, -⟩ := h.source_eq
      rw [hunpack] at ha
      cases ha
    have hdestination : key ≠ destination := by
      rintro rfl
      obtain ⟨a, ha, -⟩ := h.destination_eq
      rw [hunpack] at ha
      cases ha
    have hsame := h.other key hsource hdestination
    rw [if_neg hsource, if_neg hdestination, tokenBalance_of_account_eq hsame]
  | some a =>
    obtain ⟨a', hunpack', -, -, hbalance⟩ := h.balance key a hunpack
    by_cases howner : (l key).owner = Ids.tokenProgram
    · have howner' : (l' key).owner = Ids.tokenProgram := (h.writes.owner_eq key).trans howner
      rw [tokenBalance_of_account (tokenAccountAt_eq_some.2 ⟨howner, hunpack⟩),
        tokenBalance_of_account (tokenAccountAt_eq_some.2 ⟨howner', hunpack'⟩)]
      exact hbalance
    · -- nobody writes to an account of another program, so the amounts cancel
      have hsame := h.writes.unchanged key howner
      rw [hsame, hunpack] at hunpack'
      obtain rfl := Option.some.inj hunpack'
      rw [tokenBalance_of_owner howner, tokenBalance_of_owner (hsame ▸ howner)]
      omega

omit [TokenProgram] in
/-- The destination has at least what was moved. -/
theorem TokenMove.received {unpack : Bytes → Option TokenAccount} {mint source destination : Pubkey}
    {amount : UInt64} (h : TokenMove unpack mint source destination amount l l') :
    ∃ a, unpack (l' destination).data = some a ∧ a.mint = mint ∧ amount ≤ a.amount := by
  obtain ⟨a, ha, hmint⟩ := h.destination_eq
  obtain ⟨a', ha', hmint', -, hbalance⟩ := h.balance destination a ha
  refine ⟨a', ha', hmint'.trans hmint, UInt64.le_iff_toNat_le.2 ?_⟩
  rw [if_pos rfl] at hbalance
  by_cases hsame : destination = source
  · subst hsame
    obtain ⟨b, hb, -, hle⟩ := h.source_eq
    obtain rfl := Option.some.inj (hb.symm.trans ha)
    rw [if_pos rfl] at hbalance
    have hle' := UInt64.le_iff_toNat_le.1 hle
    omega
  · rw [if_neg hsame] at hbalance
    omega

/-- A delegate is written to an account, and the amount stays. -/
theorem sameBalances_delegate {account account' : TokenAccount} {data : Bytes}
    (hdata : (l key).owner = Ids.tokenProgram ∨ data = (l key).data)
    (hunpack : TokenProgram.unpackAccount (l key).data = some account)
    (hunpack' : TokenProgram.unpackAccount data = some account')
    (hamount : account'.amount = account.amount) : SameBalances l (l.setData key data) := by
  by_cases howner : (l key).owner = Ids.tokenProgram
  · intro k
    by_cases hk : k = key
    · subst hk
      have hnew : tokenAccountAt (l.setData k data) k = some account' :=
        tokenAccountAt_eq_some.2
          ⟨Ledger.setData_owner.trans howner, Ledger.setData_same ▸ hunpack'⟩
      rw [tokenBalance_of_account hnew, hamount,
        tokenBalance_of_account (tokenAccountAt_eq_some.2 ⟨howner, hunpack⟩)]
    · exact tokenBalance_of_account_eq (Ledger.set_of_ne hk)
  · exact sameBalances_setData howner

theorem tokenBalance_close {destination k : Pubkey} (hk : k ≠ key) :
    tokenBalance (l.close key destination) k = tokenBalance l k :=
  tokenBalance_congr (Ledger.close_content hk).1 (Ledger.close_content hk).2

end

/-! ## Lamports -/

/-- Lamports went from one account to another. -/
def LamportMove (source destination : Pubkey) (n : Nat) (l l' : Ledger) : Prop :=
  ∀ key, (l' key).lamports + portion source n key = (l key).lamports + portion destination n key

theorem lamportMove_move {l : Ledger} {source destination : Pubkey} {n : Nat}
    (hle : n ≤ (l source).lamports) : LamportMove source destination n l (l.move source destination n) := by
  intro key
  unfold portion Ledger.move
  by_cases hdestination : key = destination
  · subst hdestination
    rw [Ledger.setLamports_same, if_pos rfl]
    by_cases hsource : key = source
    · subst hsource
      rw [Ledger.setLamports_same, if_pos rfl]
      omega
    · rw [Ledger.setLamports_of_ne hsource, if_neg hsource]
      rfl
  · rw [Ledger.setLamports_of_ne hdestination, if_neg hdestination]
    by_cases hsource : key = source
    · subst hsource
      rw [Ledger.setLamports_same, if_pos rfl]
      omega
    · rw [Ledger.setLamports_of_ne hsource, if_neg hsource]

theorem lamportMove_create {l : Ledger} {payer key owner : Pubkey} {n : Nat} {data : Bytes}
    (hle : n ≤ (l payer).lamports) : LamportMove payer key n l (l.create payer key n data owner) := by
  intro k
  rw [Ledger.create, Ledger.setOwner_lamports, Ledger.setData_lamports]
  exact lamportMove_move hle k

/-- A payer pays for a new account what the payer has. -/
theorem createOrFund_lamportMove [SystemProgram] (hsolvent : SystemProgram.Solvent) {l l' : Ledger}
    {payer key owner : Pubkey} {space : Nat} (hne : (l key).lamports = 0 ∨ payer ≠ key)
    (h : createOrFund l payer key owner space = some l') :
    ∃ rent, LamportMove payer key rent l l' := by
  by_cases hkey : payer = key
  · -- an account cannot pay for itself out of nothing
    subst hkey
    have hzero := hne.resolve_right (fun hne => hne rfl)
    unfold createOrFund at h
    rw [if_pos hzero] at h
    have hle := hsolvent.createAccount_le h
    have hpos := SystemProgram.minimumBalance_pos space
    omega
  · have hsum := createOrFund_sameSum hsolvent hkey h
    obtain ⟨-, -, n, -, -, rfl⟩ := createOrFund_eq_create h
    refine ⟨n, lamportMove_create ?_⟩
    have hpayer : (l.create payer key n (zeros space) owner payer).lamports = (l payer).lamports - n := by
      rw [Ledger.create, Ledger.setOwner_lamports, Ledger.setData_lamports, Ledger.move_source hkey]
    have hnew : (l.create payer key n (zeros space) owner key).lamports = (l key).lamports + n := by
      rw [Ledger.create, Ledger.setOwner_lamports, Ledger.setData_lamports,
        Ledger.move_destination (Ne.symm hkey)]
    unfold SameSum at hsum
    omega

/-! ## New accounts -/

section

variable [SystemProgram] [TokenProgram] {ε : Type} {l l' : Ledger}

theorem Anchor.Initialized.sameBalances {T : Type} {self payer key : Pubkey} {space : Nat}
    {discriminator : Bytes} {c : Codec T} {value : T}
    (h : Initialized self payer key space discriminator c value l l')
    (hself : self ≠ Ids.tokenProgram) : SameBalances l l' := by
  obtain ⟨rfl, -⟩ | ⟨hkey, -, lamports, -, rfl⟩ := h.made
  · exact .refl
  · exact sameBalances_create hkey hself

variable [Addressing]

omit [TokenProgram] in
/-- The payer pays for the account, if it is made. -/
theorem Anchor.initIfNeeded_lamportMove (hsolvent : SystemProgram.Solvent) {T : Type}
    {self payer : Pubkey} {info : AccountMeta} {seeds : List Bytes} {space : Nat}
    {discriminator : Bytes} {c : Codec T} {value : T}
    (h : (initIfNeeded self l payer info seeds space discriminator c :
      Except (ProgramError ε) (T × Ledger)) = .ok (value, l')) :
    ∃ rent, LamportMove payer info.pubkey rent l l' := by
  simp only [initIfNeeded, bind_eq_ok, pure_eq_ok, Prod.exists] at h
  obtain ⟨_, -, _, _, hmade, _, -, _, -, _, -, _, -, ⟨⟩⟩ := h
  unfold createOrLoad at hmade
  split at hmade
  · simp only [bind_eq_ok, require_eq_ok, okOr_eq_ok, pure_eq_ok] at hmade
    obtain ⟨_, hne, _, hcreate, _, -, ⟨⟩⟩ := hmade
    exact createOrFund_lamportMove hsolvent hne hcreate
  · simp only [bind_eq_ok, pure_eq_ok] at hmade
    obtain ⟨_, -, ⟨⟩⟩ := hmade
    refine ⟨0, fun key => ?_⟩
    simp [portion]

omit [SystemProgram] in
theorem AnchorSpl.initAssociatedIfNeeded_sameBalances [AssociatedTokenProgram]
    {payer account wallet mint : Pubkey}
    (h : (initAssociatedIfNeeded l payer account wallet mint : Except (ProgramError ε) Ledger) =
      .ok l') : SameBalances l l' := by
  simp only [initAssociatedIfNeeded, bind_eq_ok, tokenMint, tokenAuthority, require_eq_ok,
    pure_eq_ok] at h
  obtain ⟨l₁, hcreate, value, hvalue, -, -, -, -, -, -, rfl⟩ := h
  unfold createAssociatedIfNeeded at hcreate
  split at hcreate
  · obtain ⟨-, howner, lamports, data, a, -, hunpack, -, -, hamount, rfl⟩ :=
      AssociatedTokenProgram.create_eq_some (okOr_eq_ok.1 hcreate)
    exact sameBalances_create_token howner hunpack hamount
  · obtain rfl := pure_eq_ok.1 hcreate
    exact .refl

omit [SystemProgram] [Addressing] in
/-- A token account that may have been made is the only one whose balance is new. -/
theorem AnchorSpl.MayCreate.tokenBalance_eq {payer key mint wallet k : Pubkey}
    (h : MayCreate payer key mint wallet l l') (hk : k ≠ key) :
    tokenBalance l' k = tokenBalance l k := by
  obtain rfl | ⟨-, lamports, data, -, rfl⟩ := h.created
  · rfl
  · exact tokenBalance_congr (Ledger.create_content hk).1 (Ledger.create_content hk).2

end

end FogoSessions.Solana
