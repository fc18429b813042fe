import FogoSessions.Lib.Borsh
import FogoSessions.Solana.AnchorSpl
import FogoSessions.Solana.Lamports

/-!
# Executable native programs

What the programs of this repository assume of the system program and of the token program, carried
out: instances of `SystemProgram` and `TokenProgram` on the accounts as they are laid out on the
chain.
-/

namespace FogoSessions.Solana.Native

open Lib

/-! ## The system program -/

/-- The system program lets the account pay. -/
abbrev CanPay (l : Ledger) (source : Pubkey) (lamports : Nat) : Prop :=
  (l source).owner = Ids.systemProgram ∧ (l source).data = [] ∧ lamports ≤ (l source).lamports

/-- Nobody has used the account. -/
abbrev Unused (l : Ledger) (key : Pubkey) : Prop :=
  (l key).owner = Ids.systemProgram ∧ (l key).data = []

/-- Rent for two years, at 3480 lamports for each byte and year, with 128 bytes for the account
    itself. -/
abbrev systemProgram : SystemProgram where
  minimumBalance space := (128 + space) * 6960
  createAccount l source key lamports space owner :=
    if CanPay l source lamports ∧ Unused l key ∧ (l key).lamports = 0 then
      some (l.create source key lamports (zeros space) owner)
    else none
  transfer l source destination lamports :=
    if CanPay l source lamports then some (l.move source destination lamports) else none
  allocate l key space := if Unused l key then some (l.setData key (zeros space)) else none
  assign l key owner :=
    if (l key).owner = Ids.systemProgram ∨ (l key).owner = owner then some (l.setOwner key owner)
    else none
  intentTransfer l source destination _ lamports :=
    if CanPay l source lamports then some (l.move source destination lamports) else none
  minimumBalance_pos space := by omega
  createAccount_eq_some _ h := by
    obtain ⟨⟨⟨hsource, -⟩, ⟨howner, hdata⟩, hlamports⟩, h⟩ := Option.ite_none_right_eq_some.1 h
    exact ⟨hsource, howner, hdata, hlamports, (Option.some.inj h).symm⟩
  transfer_eq_some _ h := by
    obtain ⟨⟨hsource, -⟩, h⟩ := Option.ite_none_right_eq_some.1 h
    exact ⟨hsource, (Option.some.inj h).symm⟩
  allocate_eq_some h := by
    obtain ⟨⟨howner, hdata⟩, h⟩ := Option.ite_none_right_eq_some.1 h
    exact ⟨howner, hdata, (Option.some.inj h).symm⟩
  assign_eq_some h := by
    obtain ⟨howner, h⟩ := Option.ite_none_right_eq_some.1 h
    exact ⟨howner, (Option.some.inj h).symm⟩
  intentTransfer_eq_some h := by
    obtain ⟨⟨hsource, -, hle⟩, h⟩ := Option.ite_none_right_eq_some.1 h
    exact ⟨fun _ => hsource, hle, (Option.some.inj h).symm⟩

/-- Whoever can pay is served. -/
theorem systemProgram_serves : @SystemProgram.Serves systemProgram :=
  let _ := systemProgram
  { minimumBalance_mono := fun a b hle => Nat.mul_le_mul_right _ (Nat.add_le_add_left hle _)
    transfer_eq := fun howner hdata hle => if_pos ⟨howner, hdata, hle⟩
    createAccount_eq := fun {l _ key _ _ _} howner hdata hle hempty _ => by
      refine if_pos ⟨⟨howner, hdata, hle⟩, ?_⟩
      show ((l key).owner = _ ∧ (l key).data = _) ∧ (l key).lamports = 0
      rw [hempty]
      exact ⟨⟨rfl, rfl⟩, rfl⟩
    allocate_eq := fun howner hdata _ => if_pos ⟨howner, hdata⟩
    assign_eq := fun howner => if_pos (.inl howner) }

/-- Nobody pays more than they have. -/
theorem systemProgram_solvent : @SystemProgram.Solvent systemProgram :=
  let _ := systemProgram
  { transfer_le := fun h => (Option.ite_none_right_eq_some.1 h).1.2.2
    createAccount_le := fun h => (Option.ite_none_right_eq_some.1 h).1.1.2.2 }

/-! ## Token accounts -/

/-- A token account as it is stored; an optional field is a tag and a value. -/
structure TokenState where
  mint : Pubkey
  owner : Pubkey
  amount : UInt64
  delegate : UInt32 × Pubkey
  state : UInt8
  isNative : UInt32 × UInt64
  delegatedAmount : UInt64
  closeAuthority : UInt32 × Pubkey

namespace TokenState

def codec : Codec TokenState :=
  .iso (fun (a, b, c, d, e, f, g, h) => ⟨a, b, c, d, e, f, g, h⟩)
    (fun s => (s.mint, s.owner, s.amount, s.delegate, s.state, s.isNative, s.delegatedAmount,
      s.closeAuthority)) (fun _ => rfl)
    (.pair (.fixed 32) <| .pair (.fixed 32) <| .pair .u64 <| .pair (.pair .u32 (.fixed 32)) <|
      .pair .u8 <| .pair (.pair .u32 .u64) <| .pair .u64 <| .pair .u32 (.fixed 32))

/-- The state of an initialized account. -/
def unpack (data : Bytes) : Option TokenState :=
  (codec.decode.tryFromSlice data).toOption.bind fun s => if s.state = 0 then none else some s

/-- What programs read of it. -/
def account (s : TokenState) : TokenAccount where
  mint := s.mint
  owner := s.owner
  amount := s.amount
  delegate := if s.delegate.1 = 1 then some s.delegate.2 else none
  delegatedAmount := s.delegatedAmount

def withDelegate (s : TokenState) (delegate : Pubkey) (amount : UInt64) : TokenState :=
  { s with delegate := (1, delegate), delegatedAmount := amount }

/-- The key stays where it was. -/
def withoutDelegate (s : TokenState) : TokenState :=
  { s with delegate := (0, s.delegate.2), delegatedAmount := 0 }

/-- Tokens are spent, out of the delegated amount when the authority is the delegate. -/
def spend (s : TokenState) (authority : Pubkey) (amount : UInt64) : Option TokenState :=
  let rest := { s with amount := s.amount - amount }
  if s.delegate = (1, authority) then
    if amount < s.delegatedAmount then
      some { rest with delegatedAmount := s.delegatedAmount - amount }
    else if amount = s.delegatedAmount then some rest.withoutDelegate
    else none
  else some rest

theorem unpack_eq_some {data : Bytes} {s : TokenState} :
    unpack data = some s ↔ codec.decode data = .ok (s, []) ∧ s.state ≠ 0 := by
  simp only [unpack, Option.bind_eq_some_iff, toOption_eq_some, Decoder.tryFromSlice_eq_ok,
    Option.ite_none_left_eq_some]
  constructor
  · rintro ⟨_, hdecode, hstate, ⟨⟩⟩
    exact ⟨hdecode, hstate⟩
  · rintro ⟨hdecode, hstate⟩
    exact ⟨s, hdecode, hstate, rfl⟩

theorem unpack_encode {s : TokenState} {data : Bytes} (h : codec.encode s = .ok data)
    (hstate : s.state ≠ 0) : unpack data = some s := by
  refine unpack_eq_some.2 ⟨?_, hstate⟩
  have hdecode := codec.decode_encode [] h
  rwa [List.append_nil] at hdecode

/-- Spending changes the amount, and the delegation at most. -/
theorem spend_eq_some {s s' : TokenState} {authority : Pubkey} {amount : UInt64}
    (h : s.spend authority amount = some s') :
    s'.mint = s.mint ∧ s'.owner = s.owner ∧ s'.amount = s.amount - amount ∧ s'.state = s.state := by
  unfold spend at h
  dsimp only at h
  split at h
  · split at h
    · cases h
      exact ⟨rfl, rfl, rfl, rfl⟩
    · split at h
      · cases h
        exact ⟨rfl, rfl, rfl, rfl⟩
      · cases h
  · cases h
    exact ⟨rfl, rfl, rfl, rfl⟩

end TokenState

def unpackAccount (data : Bytes) : Option TokenAccount :=
  (TokenState.unpack data).map TokenState.account

/-- The decimals of an initialized mint account. -/
def unpackMint (data : Bytes) : Option Mint :=
  if data.length = 82 ∧ data[45]? = some 1 then data[44]?.map fun decimals => ⟨decimals⟩ else none

/-- A token account of the token program's. -/
def load (l : Ledger) (key : Pubkey) : Option TokenState :=
  if (l key).owner = Ids.tokenProgram then TokenState.unpack (l key).data else none

def loadMint (l : Ledger) (key : Pubkey) : Option Mint :=
  if (l key).owner = Ids.tokenProgram then unpackMint (l key).data else none

def store (l : Ledger) (key : Pubkey) (s : TokenState) : Option Ledger :=
  (TokenState.codec.encode s).toOption.map (l.setData key)

variable {l l' : Ledger} {key : Pubkey} {s : TokenState}

theorem load_eq_some :
    load l key = some s ↔ (l key).owner = Ids.tokenProgram ∧ TokenState.unpack (l key).data = some s :=
  Option.ite_none_right_eq_some

theorem load_account (h : load l key = some s) :
    (l key).owner = Ids.tokenProgram ∧ unpackAccount (l key).data = some s.account ∧ s.state ≠ 0 := by
  obtain ⟨howner, hunpack⟩ := load_eq_some.1 h
  exact ⟨howner, Option.map_eq_some_iff.2 ⟨s, hunpack, rfl⟩, (TokenState.unpack_eq_some.1 hunpack).2⟩

theorem store_eq_some (h : store l key s = some l') (hstate : s.state ≠ 0) :
    ∃ data, unpackAccount data = some s.account ∧ l' = l.setData key data := by
  obtain ⟨data, hdata, rfl⟩ := Option.map_eq_some_iff.1 h
  have hunpack := TokenState.unpack_encode (toOption_eq_some.1 hdata) hstate
  exact ⟨data, Option.map_eq_some_iff.2 ⟨s, hunpack, rfl⟩, rfl⟩

/-! ## Moving tokens -/

/-- A transfer between initialized accounts of one mint; from an account to itself it does
    nothing. -/
def move (l : Ledger) (source destination authority : Pubkey) (amount : UInt64) : Option Ledger := do
  let s ← load l source
  let d ← load l destination
  if s.mint = d.mint ∧ amount ≤ s.amount ∧ s.state = 1 ∧ d.state = 1 then
    if source = destination then some l
    else if d.amount.toNat + amount.toNat < 2 ^ 64 then do
      let s ← s.spend authority amount
      let l ← store l source s
      store l destination { d with amount := d.amount + amount }
    else none
  else none

/-- The account after some of its tokens came or went. -/
structure Rebalanced (a a' : TokenAccount) (debit credit : UInt64) : Prop where
  mint_eq : a'.mint = a.mint
  owner_eq : a'.owner = a.owner
  amount_eq : a'.amount.toNat + debit.toNat = a.amount.toNat + credit.toNat

/-- A debit written to one account and a credit written to another. -/
theorem tokenMove_setData {source destination : Pubkey} {amount : UInt64} {data data' : Bytes}
    {a b a' b' : TokenAccount} (hne : source ≠ destination)
    (howner : (l source).owner = Ids.tokenProgram)
    (howner' : (l destination).owner = Ids.tokenProgram)
    (ha : unpackAccount (l source).data = some a) (hb : unpackAccount (l destination).data = some b)
    (hmint : b.mint = a.mint) (hle : amount ≤ a.amount)
    (hdata : unpackAccount data = some a') (hdata' : unpackAccount data' = some b')
    (hdebit : Rebalanced a a' amount 0) (hcredit : Rebalanced b b' 0 amount) :
    TokenMove unpackAccount a.mint source destination amount l
      ((l.setData source data).setData destination data') where
  writes := (TokenWrites.setData (.inl howner)).trans
    (TokenWrites.setData (.inl (Ledger.setData_owner.trans howner')))
  source_eq := ⟨a, ha, rfl, hle⟩
  destination_eq := ⟨b, hb, hmint⟩
  other key hkey hkey' := by
    rw [Ledger.setData, Ledger.set_of_ne hkey', Ledger.setData, Ledger.set_of_ne hkey]
  balance key c hc := by
    by_cases hkey : key = source
    · subst hkey
      obtain rfl := Option.some.inj (ha.symm.trans hc)
      refine ⟨a', ?_, hdebit.mint_eq, hdebit.owner_eq, ?_⟩
      · rw [Ledger.setData, Ledger.set_of_ne hne, Ledger.setData_same, hdata]
      · rw [if_pos rfl, if_neg hne]
        exact hdebit.amount_eq
    · rw [if_neg hkey]
      by_cases hkey' : key = destination
      · subst hkey'
        obtain rfl := Option.some.inj (hb.symm.trans hc)
        refine ⟨b', ?_, hcredit.mint_eq, hcredit.owner_eq, ?_⟩
        · rw [Ledger.setData_same, hdata']
        · rw [if_pos rfl]
          exact hcredit.amount_eq
      · rw [if_neg hkey']
        refine ⟨c, ?_, rfl, rfl, rfl⟩
        rw [Ledger.setData, Ledger.set_of_ne hkey', Ledger.setData, Ledger.set_of_ne hkey]
        exact hc

theorem move_eq_some {source destination authority : Pubkey} {amount : UInt64}
    (h : move l source destination authority amount = some l') :
    ∃ mint, TokenMove unpackAccount mint source destination amount l l' := by
  simp only [move, Option.bind_eq_bind, Option.bind_eq_some_iff] at h
  obtain ⟨s, hs, d, hd, h⟩ := h
  obtain ⟨⟨hmint, hle, hstate, hstate'⟩, h⟩ := Option.ite_none_right_eq_some.1 h
  obtain ⟨howner, hsource, -⟩ := load_account hs
  obtain ⟨howner', hdestination, -⟩ := load_account hd
  refine ⟨s.mint, ?_⟩
  by_cases hself : source = destination
  · rw [if_pos hself] at h
    cases h
    subst hself
    exact
      { writes := .refl
        source_eq := ⟨_, hsource, rfl, hle⟩
        destination_eq := ⟨_, hdestination, hmint.symm⟩
        other := fun _ _ _ => rfl
        balance := fun key a ha => ⟨a, ha, rfl, rfl, rfl⟩ }
  · rw [if_neg hself] at h
    obtain ⟨hfits, h⟩ := Option.ite_none_right_eq_some.1 h
    obtain ⟨s', hspend, h⟩ := Option.bind_eq_some_iff.1 h
    obtain ⟨l₁, hstore, hstore'⟩ := Option.bind_eq_some_iff.1 h
    obtain ⟨hmint', howner₁, hamount, hstate₁⟩ := TokenState.spend_eq_some hspend
    obtain ⟨data, hdata, rfl⟩ := store_eq_some hstore (by rw [hstate₁, hstate]; decide)
    obtain ⟨data', hdata', rfl⟩ := store_eq_some hstore' (by rw [hstate']; decide)
    refine tokenMove_setData hself howner howner' hsource hdestination hmint.symm hle hdata hdata'
      ⟨hmint', howner₁, ?_⟩ ⟨rfl, rfl, ?_⟩
    · have htoNat := UInt64.toNat_sub_of_le _ _ hle
      have hle' := UInt64.le_iff_toNat_le.1 hle
      change s'.amount.toNat + amount.toNat = s.amount.toNat + 0
      rw [hamount, htoNat]
      omega
    · change (d.amount + amount).toNat + 0 = d.amount.toNat + amount.toNat
      rw [UInt64.toNat_add, Nat.mod_eq_of_lt hfits, Nat.add_zero]

/-! ## The token program -/

/-- The account is initialized by its owner, empty and without delegate. -/
def initializeAccount (l : Ledger) (account mint owner : Pubkey) : Option Ledger :=
  if (l account).owner = Ids.tokenProgram ∧ (l account).data = zeros TokenAccount.len then
    store l account
      { mint, owner, amount := 0, delegate := (0, .ofNat 0), state := 1, isNative := (0, 0),
        delegatedAmount := 0, closeAuthority := (0, .ofNat 0) }
  else none

def approve (l : Ledger) (source delegate : Pubkey) (amount : UInt64) : Option Ledger := do
  let s ← load l source
  store l source (s.withDelegate delegate amount)

def approveChecked (l : Ledger) (source mint delegate : Pubkey) (amount : UInt64)
    (decimals : UInt8) : Option Ledger := do
  let s ← load l source
  let m ← loadMint l mint
  if s.mint = mint ∧ m.decimals = decimals then store l source (s.withDelegate delegate amount)
  else none

def revoke (l : Ledger) (source : Pubkey) : Option Ledger := do
  let s ← load l source
  store l source s.withoutDelegate

def transferChecked (l : Ledger) (source mint destination authority : Pubkey) (amount : UInt64)
    (decimals : UInt8) : Option Ledger := do
  let s ← load l source
  let m ← loadMint l mint
  if s.mint = mint ∧ m.decimals = decimals then move l source destination authority amount
  else none

def closeAccount (l : Ledger) (account destination : Pubkey) : Option Ledger := do
  let s ← load l account
  if s.amount = 0 ∧ account ≠ destination then some (l.close account destination) else none

theorem initializeAccount_eq_some {account mint owner : Pubkey}
    (h : initializeAccount l account mint owner = some l') :
    (l account).owner = Ids.tokenProgram ∧ unpackAccount (l account).data = none ∧
      ∃ data a, unpackAccount data = some a ∧ a.mint = mint ∧ a.owner = owner ∧
        l' = l.setData account data := by
  obtain ⟨⟨howner, hdata⟩, h⟩ := Option.ite_none_right_eq_some.1 h
  obtain ⟨data, hstored, rfl⟩ := store_eq_some h (show (1 : UInt8) ≠ 0 by decide)
  refine ⟨howner, ?_, data, _, hstored, rfl, rfl, rfl⟩
  rw [hdata]
  decide +kernel

theorem approve_eq_some {source delegate : Pubkey} {amount : UInt64}
    (h : approve l source delegate amount = some l') :
    ∃ account data, ((l source).owner = Ids.tokenProgram ∨ data = (l source).data) ∧
      unpackAccount (l source).data = some account ∧
      unpackAccount data =
        some { account with delegate := some delegate, delegatedAmount := amount } ∧
      l' = l.setData source data := by
  obtain ⟨s, hs, hstore⟩ := Option.bind_eq_some_iff.1 h
  obtain ⟨howner, hunpack, hstate⟩ := load_account hs
  obtain ⟨data, hdata, rfl⟩ := store_eq_some hstore hstate
  exact ⟨s.account, data, .inl howner, hunpack, hdata, rfl⟩

theorem approveChecked_eq_some {source mint delegate : Pubkey} {amount : UInt64} {decimals : UInt8}
    (h : approveChecked l source mint delegate amount decimals = some l') :
    ∃ account data, ((l source).owner = Ids.tokenProgram ∨ data = (l source).data) ∧
      unpackAccount (l source).data = some account ∧ account.mint = mint ∧
      unpackAccount data =
        some { account with delegate := some delegate, delegatedAmount := amount } ∧
      l' = l.setData source data := by
  simp only [approveChecked, Option.bind_eq_bind, Option.bind_eq_some_iff] at h
  obtain ⟨s, hs, m, -, h⟩ := h
  obtain ⟨⟨hmint, -⟩, hstore⟩ := Option.ite_none_right_eq_some.1 h
  obtain ⟨howner, hunpack, hstate⟩ := load_account hs
  obtain ⟨data, hdata, rfl⟩ := store_eq_some hstore hstate
  exact ⟨s.account, data, .inl howner, hunpack, hmint, hdata, rfl⟩

theorem revoke_eq_some {source : Pubkey} (h : revoke l source = some l') :
    ∃ account data, ((l source).owner = Ids.tokenProgram ∨ data = (l source).data) ∧
      unpackAccount (l source).data = some account ∧
      unpackAccount data = some { account with delegate := none, delegatedAmount := 0 } ∧
      l' = l.setData source data := by
  obtain ⟨s, hs, hstore⟩ := Option.bind_eq_some_iff.1 h
  obtain ⟨howner, hunpack, hstate⟩ := load_account hs
  obtain ⟨data, hdata, rfl⟩ := store_eq_some hstore hstate
  exact ⟨s.account, data, .inl howner, hunpack, hdata, rfl⟩

theorem transferChecked_eq_some {source mint destination authority : Pubkey} {amount : UInt64}
    {decimals : UInt8}
    (h : transferChecked l source mint destination authority amount decimals = some l') :
    TokenMove unpackAccount mint source destination amount l l' := by
  simp only [transferChecked, Option.bind_eq_bind, Option.bind_eq_some_iff] at h
  obtain ⟨s, hs, m, -, h⟩ := h
  obtain ⟨⟨hmint, -⟩, hmove⟩ := Option.ite_none_right_eq_some.1 h
  obtain ⟨mint', hmove⟩ := move_eq_some hmove
  obtain ⟨a, ha, hmint', -⟩ := hmove.source_eq
  obtain ⟨-, hunpack, -⟩ := load_account hs
  obtain rfl := Option.some.inj (ha.symm.trans hunpack)
  obtain rfl : mint' = mint := hmint'.symm.trans hmint
  exact hmove

theorem closeAccount_eq_some {account destination : Pubkey}
    (h : closeAccount l account destination = some l') :
    (l account).owner = Ids.tokenProgram ∧ account ≠ destination ∧
      l' = l.close account destination := by
  obtain ⟨s, hs, h⟩ := Option.bind_eq_some_iff.1 h
  obtain ⟨⟨-, hne⟩, h⟩ := Option.ite_none_right_eq_some.1 h
  exact ⟨(load_account hs).1, hne, (Option.some.inj h).symm⟩

/-- The token program on accounts of 165 bytes and mints of 82. Who signs is checked by the runtime
    and not here. -/
abbrev tokenProgram : TokenProgram where
  unpackAccount := unpackAccount
  unpackMint := unpackMint
  tryUiAmountIntoAmount := UiAmount.tryUiAmountIntoAmount
  initializeAccount := initializeAccount
  transfer l source destination authority _ amount := move l source destination authority amount
  transferChecked := transferChecked
  approve l source delegate _ amount := approve l source delegate amount
  approveChecked l source mint delegate _ amount decimals :=
    approveChecked l source mint delegate amount decimals
  revoke l source _ := revoke l source
  closeAccount l account destination _ := closeAccount l account destination
  initializeAccount_eq_some := initializeAccount_eq_some
  transfer_eq_some := move_eq_some
  transferChecked_eq_some := transferChecked_eq_some
  approve_eq_some := approve_eq_some
  approveChecked_eq_some := approveChecked_eq_some
  revoke_eq_some := revoke_eq_some
  closeAccount_eq_some := closeAccount_eq_some

theorem tokenProgram_revokeReads : @TokenProgram.RevokeReads tokenProgram :=
  let _ := tokenProgram
  { revoke_eq := fun {l l' m source _} hsame howner h => by
      have howner' : (l' source).owner = Ids.tokenProgram := (hsame.owner_eq source).trans howner
      obtain ⟨s, hs, hstore⟩ := Option.bind_eq_some_iff.1 (show revoke l source = some m from h)
      obtain ⟨data, hdata, rfl⟩ := Option.map_eq_some_iff.1 hstore
      refine Option.bind_eq_some_iff.2 ⟨s, load_eq_some.2 ⟨howner', ?_⟩, ?_⟩
      · rw [hsame.data_eq source howner]
        exact (load_eq_some.1 hs).2
      · rw [Ledger.setData_same]
        exact Option.map_eq_some_iff.2 ⟨data, hdata, rfl⟩ }

theorem tokenProgram_convertsUiAmounts : @TokenProgram.ConvertsUiAmounts tokenProgram :=
  let _ := tokenProgram
  { eq := fun _ _ => rfl }

/-! ## The associated token account program -/

/-- A new account, paid for by the payer and empty. -/
def createAssociated [Addressing] (l : Ledger) (payer account wallet mint : Pubkey) :
    Option Ledger :=
  let _ := systemProgram
  if account = associatedTokenAddress wallet mint then
    (createOrFund l payer account Ids.tokenProgram TokenAccount.len).bind fun l =>
      initializeAccount l account mint wallet
  else none

theorem initializeAccount_empty {account mint owner : Pubkey}
    (h : initializeAccount l account mint owner = some l') :
    ∃ data a, unpackAccount data = some a ∧ a.mint = mint ∧ a.owner = owner ∧ a.amount = 0 ∧
      l' = l.setData account data := by
  obtain ⟨-, h⟩ := Option.ite_none_right_eq_some.1 h
  obtain ⟨data, hstored, rfl⟩ := store_eq_some h (show (1 : UInt8) ≠ 0 by decide)
  exact ⟨data, _, hstored, rfl, rfl, rfl, rfl⟩

theorem createAssociated_eq_some [Addressing] {payer account wallet mint : Pubkey}
    (h : createAssociated l payer account wallet mint = some l') :
    account = associatedTokenAddress wallet mint ∧ (l account).owner = Ids.systemProgram ∧
      ∃ lamports data a, (0 < lamports → (l payer).owner = Ids.systemProgram) ∧
        unpackAccount data = some a ∧ a.mint = mint ∧ a.owner = wallet ∧ a.amount = 0 ∧
        l' = l.create payer account lamports data Ids.tokenProgram := by
  obtain ⟨haddress, h⟩ := Option.ite_none_right_eq_some.1 h
  obtain ⟨l₁, hcreate, hinitialize⟩ := Option.bind_eq_some_iff.1 h
  obtain ⟨howner, -, lamports, hpayer, -, rfl⟩ := @createOrFund_eq_create systemProgram _ _ _ _ _ _ hcreate
  obtain ⟨data, a, hunpack, hmint, hwallet, hamount, rfl⟩ := initializeAccount_empty hinitialize
  exact ⟨haddress, howner, lamports, data, a, hpayer, hunpack, hmint, hwallet, hamount,
    Ledger.create_setData⟩

abbrev associatedTokenProgram [Addressing] : @AssociatedTokenProgram _ tokenProgram :=
  let _ := tokenProgram
  { create := createAssociated
    create_eq_some := createAssociated_eq_some }

/-! ## The token metadata program -/

/-- A metadata account: its tag, the update authority, the mint, the name in 32 bytes and the symbol in
    10, each behind its length. -/
def metadata (updateAuthority mint : Pubkey) (name symbol : String) : Bytes :=
  [4] ++ updateAuthority.bytes ++ mint.bytes ++ leBytes 4 32 ++ utf8 name ++
    zeros (32 - (utf8 name).length) ++ leBytes 4 10 ++ utf8 symbol ++ zeros (10 - (utf8 symbol).length) ++
    zeros 564

abbrev tokenMetadata : TokenMetadata := ⟨fun data => (slice? data 105 10).bind ofUtf8?⟩

end FogoSessions.Solana.Native
