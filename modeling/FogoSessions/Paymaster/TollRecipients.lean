import FogoSessions.Lib.Table
import FogoSessions.Paymaster.LookupTables
import FogoSessions.Solana.Native
import FogoSessions.Solana.Replay

/-!
# Who gets the tolls

The paymaster counts a toll by its amount and its mint, for whichever domain the transaction is
validated. The tollbooth pays it to the recipient of the domain whose session pays.
`credited_iff` says when the recipient of the validated domain gets the fee of the variation.
-/

namespace FogoSessions.Paymaster

open Lib Solana Tollbooth

/-! ## The execution of a transaction -/

/-- The tollbooth. Every other program runs as it likes. -/
def tollboothPrograms [Addressing] [TokenProgram] : Programs where
  ids := [ProgramIds.tollbooth]
  process ctx ix l := (Tollbooth.process ctx ix l).toOption

section

variable (content : Pubkey → List Pubkey) (message : VersionedMessage)

/-- The account at a position of an instruction's accounts, when the lookup tables hold these
    addresses. -/
abbrev loadedKey (ix : CompiledInstruction) (i : Nat) : Option Pubkey :=
  accountKey (fun table n => (content table)[n]?) message ix i

/-- The account that the runtime loads for an index. The signers are the first static keys; which
    accounts are writable is left open. -/
structure LoadsAccount (accountIndex : UInt8) (account : AccountMeta) : Prop where
  pubkey_eq : (accountKeys (fun table n => (content table)[n]?) message)[accountIndex.toNat]? =
    some (some account.pubkey)
  isSigner_eq : account.isSigner = decide (accountIndex < message.header.numRequiredSignatures)

/-- The instruction that the runtime runs for one of the message. -/
structure Loads (ix : CompiledInstruction) (instruction : Instruction) : Prop where
  programId_eq : message.staticAccountKeys[ix.programIdIndex.toNat]? = some instruction.programId
  data_eq : instruction.data = ix.data
  accounts : List.Forall₂ (LoadsAccount content message) ix.accounts instruction.accounts

/-- The instructions of the message ran successfully, all of them, and left these events. -/
structure Executes [External] [TokenProgram] (now : Int64) (l : Ledger)
    (instructions : List Instruction) (es : List Event) (l' : Ledger) : Prop where
  loads : List.Forall₂ (Loads content message) message.instructions instructions
  admissible : Admissible tollboothPrograms.ids instructions
  exec : Exec tollboothPrograms now instructions l instructions.length es l'

variable {content message}

theorem Loads.loadedKey_eq {ix : CompiledInstruction} {instruction : Instruction}
    (h : Loads content message ix instruction) (i : Nat) :
    instruction.accounts[i]?.map AccountMeta.pubkey = loadedKey content message ix i := by
  have haccounts := h.accounts
  unfold loadedKey accountKey
  generalize ix.accounts = indexes at haccounts
  generalize instruction.accounts = accounts at haccounts
  induction haccounts generalizing i with
  | nil => simp
  | @cons accountIndex account indexes accounts haccount _ ih =>
    cases i with
    | zero => simp [haccount.pubkey_eq]
    | succ i => simpa using ih i

end

/-! ## What a domain is credited -/

section

variable [Addressing]

/-- The token account of the domain's toll recipient for a mint. -/
def recipientAccount (domain : String) (mint : Pubkey) : Pubkey :=
  associatedTokenAddress (tollRecipient (DomainRegistry.domainHash domain)) mint

variable [TokenProgram] (feeCoefficients : FeeCoefficients) (domain : String)

omit [Addressing] in
/-- The tokens on an account. -/
def tokens (l : Ledger) (key : Pubkey) : Nat :=
  ((tokenAccountAt l key).map fun a => a.amount.toNat).getD 0

/-- What came to the domain's account for the mint that the instruction names, in lamports. -/
def credited (e : Event) : Nat :=
  match e.instruction.accounts[payTollInstructionMintIndex]? with
  | some mint =>
    let key := recipientAccount domain mint.pubkey
    (tokens e.after key - tokens e.before key) * ((feeCoefficients mint.pubkey).getD 0).toNat
  | none => 0

/-- What the tolls of the transaction brought the domain. -/
def creditedTolls (es : List Event) : Nat :=
  ((es.filter fun e => e.IsOwn).map (credited feeCoefficients domain)).sum

end

/-! ## What the tolls are worth -/

section

variable (content : Pubkey → List Pubkey) (message : VersionedMessage)

/-- The lamports that a toll counts for. -/
def tollWorth (feeCoefficients : FeeCoefficients) (ix : CompiledInstruction) : Nat :=
  match parsePayTollInstruction ix, loadedKey content message ix payTollInstructionMintIndex with
  | .ok amount, some mint => tollLamports feeCoefficients (amount, mint)
  | _, _ => 0

/-- The toll goes to the domain: its destination is the account of the domain's recipient, and its
    source is another one. -/
def paysDomain [Addressing] (domain : String) (ix : CompiledInstruction) : Bool :=
  (loadedKey content message ix payTollInstructionMintIndex).any fun mint =>
    loadedKey content message ix 3 = some (recipientAccount domain mint) ∧
      loadedKey content message ix 2 ≠ some (recipientAccount domain mint)

/-- The tolls of the message. -/
def payTolls : List CompiledInstruction :=
  message.instructions.filter (isTollbooth message.staticAccountKeys)

/-- What the tolls of the message are worth. -/
def paidTolls (feeCoefficients : FeeCoefficients) : Nat :=
  ((payTolls message).map (tollWorth content message feeCoefficients)).sum

/-- What those of them are worth that do not go to the domain. -/
def foreignTolls [Addressing] (feeCoefficients : FeeCoefficients) (domain : String) : Nat :=
  (((payTolls message).filter fun ix => ! paysDomain content message domain ix).map
    (tollWorth content message feeCoefficients)).sum

end

/-! ## Acceptance -/

section

variable [External]

/-- A V1 variation of the domain accepts the transaction. What the cache and the node answered of
    the lookup tables is a prefix of what these hold when the transaction runs. -/
structure Accepts (domain : String) (v : ParsedVariationOrderedInstructionConstraints)
    (feeCoefficients : FeeCoefficients) (content : Pubkey → List Pubkey)
    (transaction : VersionedTransaction) (domainState : DomainState) (sponsor : Pubkey) : Prop where
  domain_eq : ∃ mnemonic config, getDomainState? mnemonic config = .ok (domain, domainState)
  variation_eq : ∃ name, domainState.txVariations.lookup name = some (.v1 v)
  sponsor_mem : sponsor ∈ domainState.sponsors
  accepts : (parseAndValidate transaction feeCoefficients domainState (.v1 v) sponsor).Ends
    (lookupContract (fun table addresses => addresses <+: content table) fun _ _ => True) (.ok ⟨⟩)

variable {domain : String} {v : ParsedVariationOrderedInstructionConstraints}
  {feeCoefficients : FeeCoefficients} {content : Pubkey → List Pubkey}
  {transaction : VersionedTransaction} {domainState : DomainState} {sponsor : Pubkey}

/-- What is accepted pays the fee of the variation, as the paymaster counts the tolls. -/
theorem Accepts.counts (h : Accepts domain v feeCoefficients content transaction domainState sponsor) :
    ∃ total, CountsTolls (fun table addresses => addresses <+: content table) transaction.message
        feeCoefficients transaction.message.instructions total ∧
      v.paymasterFeeLamports.getD 0 ≤ total := by
  obtain ⟨t, hparse, hvalidate⟩ := h.accepts.of_bind
  obtain ⟨-, hcounts⟩ : Parsed transaction t ∧ CountsTolls _ _ _ _ t.totalFeeLamports :=
    (parse_ensures (computePaymasterFees_ensures transaction feeCoefficients)).of_ends hparse
  obtain ⟨_, -, hrest⟩ := Task.Ends.of_bind hvalidate
  obtain ⟨_, hfee, -⟩ := Task.Ends.of_bind hrest
  exact ⟨_, hcounts, require_eq_ok.1 (mapErr_eq_ok.1 (Task.ends_lift hfee))⟩

/-- Every toll of an accepted transaction has an amount and a mint. -/
theorem Accepts.tolls (h : Accepts domain v feeCoefficients content transaction domainState sponsor) :
    ∀ ix ∈ payTolls transaction.message, ∃ amount mint, parsePayTollInstruction ix = .ok amount ∧
      loadedKey content transaction.message ix payTollInstructionMintIndex = some mint := by
  obtain ⟨total, ⟨tolls, htolls, -⟩, -⟩ := h.counts
  intro ix hix
  obtain ⟨toll, -, hamount, hmint⟩ := Lib.Table.exists_right htolls hix
  exact ⟨toll.1, toll.2, hamount, hmint.accountKey_eq⟩

/-- The tolls of an accepted transaction are worth the fee. -/
theorem Accepts.fee_le (h : Accepts domain v feeCoefficients content transaction domainState sponsor) :
    (v.paymasterFeeLamports.getD 0).toNat ≤
      paidTolls content transaction.message feeCoefficients := by
  obtain ⟨total, ⟨tolls, htolls, htotal⟩, hfee⟩ := h.counts
  have hworth : List.Forall₂ (fun a b => a = b)
      ((payTolls transaction.message).map (tollWorth content transaction.message feeCoefficients))
      (tolls.map (tollLamports feeCoefficients)) := by
    refine List.forall₂_map_left_iff.2 (List.forall₂_map_right_iff.2 (htolls.imp fun ix toll h => ?_))
    rw [tollWorth, h.1, loadedKey, h.2.accountKey_eq]
  rw [List.forall₂_eq_eq_eq] at hworth
  have hle := UInt64.le_iff_toNat_le.1 hfee
  rw [paidTolls, hworth]
  omega

/-! ## What an executed toll brings -/

variable [TokenProgram] {message : VersionedMessage} {now : Int64}

omit [External] in
/-- Moving tokens makes no token account. -/
theorem tokenAccountAt_eq_none {mint source destination key : Pubkey} {amount : UInt64}
    {l l' : Ledger} (h : TokenMove TokenProgram.unpackAccount mint source destination amount l l')
    (hkey : tokenAccountAt l key = none) : tokenAccountAt l' key = none := by
  have hsame : l' key = l key := by
    by_cases howner : (l key).owner = Ids.tokenProgram
    · rw [tokenAccountAt, if_pos howner] at hkey
      apply h.other key
      · rintro rfl
        obtain ⟨a, ha, -⟩ := h.source_eq
        cases hkey.symm.trans ha
      · rintro rfl
        obtain ⟨a, ha, -⟩ := h.destination_eq
        cases hkey.symm.trans ha
    · exact h.writes.unchanged key howner
  rw [tokenAccountAt, hsame]
  exact hkey

omit [External] in
/-- Tokens that moved came to their destination, if they did not come from there, and to no other
    account. -/
theorem tokens_sub {mint source destination : Pubkey} {amount : UInt64} {l l' : Ledger}
    (h : TokenMove TokenProgram.unpackAccount mint source destination amount l l')
    (haccount : ∃ a, tokenAccountAt l destination = some a) (key : Pubkey) :
    tokens l' key - tokens l key =
      if key = destination ∧ key ≠ source then amount.toNat else 0 := by
  cases hkey : tokenAccountAt l key with
  | none =>
    have hother : key ≠ destination := by
      rintro rfl
      obtain ⟨a, ha⟩ := haccount
      cases hkey.symm.trans ha
    rw [tokens, tokens, hkey, tokenAccountAt_eq_none h hkey, if_neg fun hkey => hother hkey.1]
    rfl
  | some a =>
    obtain ⟨a', ha', -, -, hbalance⟩ := h.tokenAccountAt hkey
    rw [tokens, tokens, ha', hkey, Option.map_some, Option.map_some, Option.getD_some,
      Option.getD_some]
    by_cases hsource : key = source
    · rw [if_pos hsource] at hbalance
      rw [if_neg fun h => h.2 hsource]
      split at hbalance <;> omega
    · rw [if_neg hsource, Nat.add_zero] at hbalance
      simp only [hbalance, hsource, ne_eq, not_false_eq_true, and_true]
      omega

omit [External] [TokenProgram] in
/-- The program reads the amount that the paymaster read. -/
theorem decode_of_parse {ix : CompiledInstruction} {amount : UInt64}
    (h : parsePayTollInstruction ix = .ok amount) {args : PayToll}
    (hargs : Args.decode ix.data = .ok args) : args.amount = amount := by
  unfold parsePayTollInstruction at h
  split at h
  · exact absurd h bail_ne_ok
  · split at h
    · split at h
      · rename_i payToll hread
        rw [Args.decode, Decoder.tryFromSlice_eq_ok.1 hread] at hargs
        split at hargs
        · cases hargs
          cases h
          rfl
        · cases hargs
      · exact absurd h bail_ne_ok
    · exact absurd h bail_ne_ok

/-- The toll goes to the domain if it goes to the domain's account and is not paid from there. -/
theorem paysDomain_iff {ix : CompiledInstruction} {instruction : Instruction} {l : Ledger}
    {toll : Toll} (domain : String) (hloads : Loads content message ix instruction)
    (hnamed : toll.Named instruction l)
    (hmint : loadedKey content message ix payTollInstructionMintIndex = some toll.mint) :
    paysDomain content message domain ix = true ↔
      recipientAccount domain toll.mint =
          associatedTokenAddress (tollRecipient toll.domainHash) toll.mint ∧
        recipientAccount domain toll.mint ≠ associatedTokenAddress toll.user toll.mint := by
  have hsource := hnamed.source_eq
  have hdestination := hnamed.destination_eq
  rw [hloads.loadedKey_eq] at hsource hdestination
  rw [paysDomain, hmint, hdestination, hsource, Option.any_some, decide_eq_true_iff,
    Option.some_inj, ne_eq, Option.some_inj]
  exact and_congr eq_comm (not_congr eq_comm)

/-- An executed toll of an accepted transaction: the program reads the amount and the mint that the
    paymaster read. -/
theorem exists_toll {ix : CompiledInstruction} {e : Event}
    (hloads : Loads content message ix e.instruction)
    (hprocess : tollboothPrograms.process e.context e.instruction e.before = some e.after)
    {amount : UInt64} {mint : Pubkey} (hamount : parsePayTollInstruction ix = .ok amount)
    (hmint : loadedKey content message ix payTollInstructionMintIndex = some mint) :
    ∃ toll : Toll, toll.Paid e.context e.instruction e.before e.after ∧
      toll.Named e.instruction e.before ∧ toll.mint = mint ∧ toll.amount = amount := by
  obtain ⟨toll, hpaid, hnamed⟩ := process_paid (toOption_eq_some.1 hprocess)
  refine ⟨toll, hpaid, hnamed, ?_, ?_⟩
  · have hread := hloads.loadedKey_eq payTollInstructionMintIndex
    rw [hmint] at hread
    exact Option.some.inj (hpaid.mint_eq.symm.trans hread)
  · obtain ⟨args, hargs, hread⟩ := hpaid.args_eq
    rw [hloads.data_eq] at hargs
    exact hread.symm.trans (decode_of_parse hamount hargs)

/-- A toll brings the domain what it is worth, if it goes to the domain. -/
theorem credited_eq {ix : CompiledInstruction} {e : Event} (domain : String)
    (hloads : Loads content message ix e.instruction)
    (hprocess : tollboothPrograms.process e.context e.instruction e.before = some e.after)
    {amount : UInt64} {mint : Pubkey} (hamount : parsePayTollInstruction ix = .ok amount)
    (hmint : loadedKey content message ix payTollInstructionMintIndex = some mint) :
    credited feeCoefficients domain e =
      if paysDomain content message domain ix then tollWorth content message feeCoefficients ix
      else 0 := by
  obtain ⟨toll, hpaid, hnamed, rfl, rfl⟩ := exists_toll hloads hprocess hamount hmint
  obtain ⟨account, haccount, hpubkey⟩ := Option.map_eq_some_iff.1 hpaid.mint_eq
  have hpays := paysDomain_iff domain hloads hnamed hmint
  rw [credited, payTollInstructionMintIndex, haccount]
  dsimp only
  rw [hpubkey, tokens_sub hpaid.move hnamed.destination_account, tollWorth, hamount, hmint]
  by_cases h : paysDomain content message domain ix = true
  · rw [if_pos (hpays.1 h), if_pos h]
    rfl
  · rw [if_neg fun h' => h (hpays.2 h'), if_neg h, Nat.zero_mul]

section

variable {l l' : Ledger} {instructions : List Instruction} {es : List Event}

/-- Every toll of the message leaves one event. -/
theorem Executes.tolls (h : Executes content message now l instructions es l') :
    List.Forall₂ (fun ix e => Loads content message ix e.instruction ∧
        tollboothPrograms.process e.context e.instruction e.before = some e.after)
      (payTolls message) (es.filter fun e => e.IsOwn).reverse := by
  have hloads : List.Forall₂ (Loads content message) (payTolls message)
      (instructions.filter fun ix => ix.programId ∈ tollboothPrograms.ids) := by
    refine List.rel_filter (fun ix instruction h => ?_) h.loads
    simp [isTollbooth, h.programId_eq, tollboothPrograms]
  have hown := h.exec.own
  rw [List.take_length] at hown
  refine Table.forall₂_trans hloads hown fun ix instruction e _ _ hload hrun => ?_
  exact ⟨hrun.instruction_eq ▸ hload, hrun.process⟩

/-- What the tolls of an execution bring the domain is what those are worth that go to it. -/
theorem creditedTolls_eq
    (haccepts : Accepts domain v feeCoefficients content transaction domainState sponsor)
    (hexec : Executes content transaction.message now l instructions es l') :
    creditedTolls feeCoefficients domain es =
      ((payTolls transaction.message).map fun ix =>
        if paysDomain content transaction.message domain ix then
          tollWorth content transaction.message feeCoefficients ix else 0).sum := by
  have hcredited : List.Forall₂ (fun a b => a = b)
      ((payTolls transaction.message).map fun ix =>
        if paysDomain content transaction.message domain ix then
          tollWorth content transaction.message feeCoefficients ix else 0)
      ((es.filter fun e => e.IsOwn).reverse.map (credited feeCoefficients domain)) := by
    refine List.forall₂_map_left_iff.2 (List.forall₂_map_right_iff.2 ?_)
    refine ((List.forall₂_and_left _ _).2 ⟨haccepts.tolls, hexec.tolls⟩).imp fun ix e h => ?_
    obtain ⟨⟨amount, mint, hamount, hmint⟩, hloads, hprocess⟩ := h
    exact (credited_eq domain hloads hprocess hamount hmint).symm
  rw [List.forall₂_eq_eq_eq] at hcredited
  rw [creditedTolls, hcredited, List.map_reverse, List.sum_reverse]

omit [TokenProgram] in
/-- A toll goes to the domain or elsewhere. -/
theorem sum_tollWorth (ixs : List CompiledInstruction) (domain : String) :
    (ixs.map (tollWorth content message feeCoefficients)).sum =
      ((ixs.filter fun ix => ! paysDomain content message domain ix).map
        (tollWorth content message feeCoefficients)).sum +
      (ixs.map fun ix => if paysDomain content message domain ix then
        tollWorth content message feeCoefficients ix else 0).sum := by
  induction ixs with
  | nil => rfl
  | cons ix ixs ih =>
    by_cases hpays : paysDomain content message domain ix = true
    · rw [List.filter_cons_of_neg (by simp [hpays]), List.map_cons, List.map_cons, List.sum_cons,
        List.sum_cons, if_pos hpays, ih]
      omega
    · rw [List.filter_cons_of_pos (by simp [hpays]), List.map_cons, List.map_cons, List.map_cons,
        List.sum_cons, List.sum_cons, List.sum_cons, if_neg hpays, ih]
      omega

/-- **When the domain gets its fee.** Of a transaction that a variation of the domain accepts and
    that runs successfully, the domain's recipient is credited the fee of the variation exactly if
    the tolls that do not go to the domain are worth no more than what all tolls are worth beyond
    the fee. -/
theorem credited_iff
    (haccepts : Accepts domain v feeCoefficients content transaction domainState sponsor)
    (hexec : Executes content transaction.message now l instructions es l') :
    (v.paymasterFeeLamports.getD 0).toNat ≤ creditedTolls feeCoefficients domain es ↔
      foreignTolls content transaction.message feeCoefficients domain +
        (v.paymasterFeeLamports.getD 0).toNat ≤
          paidTolls content transaction.message feeCoefficients := by
  have hsum : paidTolls content transaction.message feeCoefficients =
      foreignTolls content transaction.message feeCoefficients domain + _ :=
    sum_tollWorth (payTolls transaction.message) domain
  rw [creditedTolls_eq haccepts hexec]
  omega

/-- The domain gets its fee if all tolls are paid in its sessions, by others than its recipient. -/
theorem credited_of_sessions
    (haccepts : Accepts domain v feeCoefficients content transaction domainState sponsor)
    (hexec : Executes content transaction.message now l instructions es l')
    (hsessions : ∀ e ∈ es, ∀ toll : Toll, toll.Paid e.context e.instruction e.before e.after →
      toll.domainHash = DomainRegistry.domainHash domain ∧
        associatedTokenAddress toll.user toll.mint ≠ recipientAccount domain toll.mint) :
    (v.paymasterFeeLamports.getD 0).toNat ≤ creditedTolls feeCoefficients domain es := by
  have hpays : ∀ ix ∈ payTolls transaction.message,
      paysDomain content transaction.message domain ix = true := by
    intro ix hix
    obtain ⟨e, he, hloads, hprocess⟩ := Lib.Table.exists_right hexec.tolls hix
    obtain ⟨amount, mint, hamount, hmint⟩ := haccepts.tolls ix hix
    obtain ⟨toll, hpaid, hnamed, rfl, -⟩ := exists_toll hloads hprocess hamount hmint
    have hmem : e ∈ es := (List.mem_filter.1 (List.mem_reverse.1 he)).1
    obtain ⟨hdomain, hother⟩ := hsessions e hmem toll hpaid
    refine (paysDomain_iff domain hloads hnamed hmint).2 ⟨?_, hother.symm⟩
    rw [recipientAccount, hdomain]
  have hnone : foreignTolls content transaction.message feeCoefficients domain = 0 := by
    rw [foreignTolls, List.filter_eq_nil_iff.2 fun ix hix => by simp [hpays ix hix]]
    rfl
  rw [credited_iff haccepts hexec, hnone, Nat.zero_add]
  exact haccepts.fee_le

end

end

/-! ## A toll for another domain -/

namespace ForeignToll

def sponsor : Pubkey := .ofNat
  0x4dc21aac8658d938f2f37253691ad8462f8e33b7bb0eea4adb7dd5f4cef993a7
def user : Pubkey := .ofNat
  0x25ed471e101be7fd6c78dc0695323a470f64e09bc5f4e03da483384d8e8b65f7
def session : Pubkey := .ofNat
  0x6011fb8faf1f54d11dcc10a0c702e7f1749a75da1e14d1acf8b5a8f0ce73d121
def mint : Pubkey := .ofNat
  0xa10bba45e70638e3dd380c149cc2674ba21baef56ddbb70da2d4e083c6427c2c
def tollboothSigner : Pubkey := .ofNat
  0xeb05e3d5b2f89c0dcc1dbc2cb8475a1f31363713b00f66f1e2e3ed107754855b
def userToken : Pubkey := .ofNat
  0xcc4d03442ed677db81c3372664085b62eb73f7955e1425219a1cc46171bacffb
def hash : FixedBytes 32 := .ofNat
  0xedf7f9dc037c77648e18efe31dc7def8b5d944b898ef788f90b95f2273bf7f2e
def recipient : Pubkey := .ofNat
  0x1dc87abfd7910ba488cff9368ecf5268b73d5fc5097519510be8253ba481861b
def recipientToken : Pubkey := .ofNat
  0x319b0e90683c17762d86245c3986fb41716b6caf92549d9fd6338c7a05040d21
def otherHash : FixedBytes 32 := .ofNat
  0x05dd9bf51cc92c7ab4e707720a9b46968d9060dd23d190419ab206a50862c24b
def otherRecipient : Pubkey := .ofNat
  0x87430b6abdc0bdfb6fb6224151bd409d1401df6c6f1a1f7293cbe335acc0a716
def otherRecipientToken : Pubkey := .ofNat
  0xfca22779062cff64d267f3bc505e447b7371a9c25141746a833172a5c6bc6192

/-- The addresses of a chain with two domains. -/
def book : AddressBook where
  hashes := [(utf8 "https://app.xyz", hash), (utf8 "https://other.xyz", otherHash)]
  wallets := [sponsor, user, session, mint]
  derived := [
    (([programSignerSeed], ProgramIds.tollbooth), tollboothSigner, 253),
    (([tollRecipientSeed, [tollRecipientId], hash.bytes], ProgramIds.tollbooth), recipient, 255),
    (([tollRecipientSeed, [tollRecipientId], otherHash.bytes], ProgramIds.tollbooth),
      otherRecipient, 252),
    (([user.bytes, Ids.tokenProgram.bytes, mint.bytes], Ids.associatedTokenProgram), userToken, 253),
    (([recipient.bytes, Ids.tokenProgram.bytes, mint.bytes], Ids.associatedTokenProgram),
      recipientToken, 254),
    (([otherRecipient.bytes, Ids.tokenProgram.bytes, mint.bytes], Ids.associatedTokenProgram),
      otherRecipientToken, 255)]
  other := .ofNat 1
  derived_off_curve := by decide +kernel
  other_off_curve := by decide +kernel

scoped instance : External :=
  { External.uncalled with toAddressing := book.addressing, sponsorPubkey := fun _ _ _ => sponsor }
scoped instance : TokenProgram := Native.tokenProgram

/-- A variation with a fee of 10 lamports and no constraints. -/
def variation : ParsedVariationOrderedInstructionConstraints where
  name := "v"
  instructions := []
  maxGasSpend := 10000
  paymasterFeeLamports := some 10
  swapIntoFogo := []

/-- The configuration of a domain with that variation. -/
def config (domain : String) : Domain where
  domain := domain
  enableSessionManagement := false
  enablePreflightSimulation := true
  numberOfSigners := 1
  numberOfSigners_pos := defaultOne_pos
  txVariations := AList.singleton "v" (.v1 ⟨"v", [], 10000, some 10, []⟩)

def domainState (domain : String) : DomainState where
  domainRegistryKey := DomainRegistry.getDomainRecordAddress domain
  sponsors := [sponsor]
  sponsors_nonempty := List.cons_ne_nil _ _
  enablePreflightSimulation := true
  txVariations := AList.singleton "v" (.v1 variation)
  nextAutoassignedSponsorIndex := 0

/-- A lamport of the fee is a third of a unit of the mint. -/
def coefficients : FeeCoefficients := fun key => if key = mint then some 3 else none

/-- The session pays 4 units to the recipient of `https://other.xyz`. -/
def transaction : VersionedTransaction where
  signatures := [.ofNat 1, .ofNat 2]
  message := .legacy {
    header := ⟨2, 0, 4⟩
    accountKeys := [sponsor, session, userToken, otherRecipientToken, ProgramIds.tollbooth,
      tollboothSigner, mint, Ids.tokenProgram]
    recentBlockhash := .ofNat 0
    instructions := [⟨4, [1, 5, 2, 3, 6, 7], [0, 4, 0, 0, 0, 0, 0, 0, 0, 0]⟩] }

def instruction : Instruction where
  programId := ProgramIds.tollbooth
  accounts := [⟨session, true, true⟩, ⟨tollboothSigner, false, false⟩, ⟨userToken, false, true⟩,
    ⟨otherRecipientToken, false, true⟩, ⟨mint, false, false⟩, ⟨Ids.tokenProgram, false, false⟩]
  data := [0, 4, 0, 0, 0, 0, 0, 0, 0, 0]

/-- A session of `https://other.xyz`. -/
def otherSession : Sdk.Session where
  sponsor := sponsor
  major := 0
  sessionInfo := .v4 (.active {
    domainHash := otherHash
    activeSessionInfo := {
      user := user
      expiration := 86400
      authorizedPrograms := .specific [⟨ProgramIds.tollbooth, tollboothSigner⟩]
      authorizedTokens := .specific [mint]
      extra := [] } })

def tokenData (owner : Pubkey) (amount : Nat) (delegate : Bytes) (delegated : Nat) : Bytes :=
  mint.bytes ++ owner.bytes ++ leBytes 8 amount ++ delegate ++ [1] ++ zeros 12 ++
    leBytes 8 delegated ++ zeros 36

def ledger : Ledger := .ofList [
  (session, ⟨2700000, ProgramIds.sessionManager,
    Sdk.Session.discriminator ++ ((Sdk.Session.codec.encode otherSession).toOption.getD [])⟩),
  (mint, ⟨1461600, Ids.tokenProgram, zeros 44 ++ [6, 1] ++ zeros 36⟩),
  (userToken, ⟨2039280, Ids.tokenProgram,
    tokenData user 5000 ([1, 0, 0, 0] ++ session.bytes) 1000⟩),
  (recipientToken, ⟨2039280, Ids.tokenProgram, tokenData recipient 0 (zeros 36) 0⟩),
  (otherRecipientToken, ⟨2039280, Ids.tokenProgram, tokenData otherRecipient 0 (zeros 36) 0⟩)]

theorem getDomainState?_config (domain : String) :
    getDomainState? "" (config domain) = .ok (domain, domainState domain) := rfl

theorem parseAndValidate_eq (domain : String) :
    parseAndValidate transaction coefficients (domainState domain) (.v1 variation) sponsor =
      .done (.ok ⟨⟩) := rfl

theorem accepts (domain : String) :
    Accepts domain variation coefficients (fun _ => []) transaction (domainState domain) sponsor where
  domain_eq := ⟨"", config domain, getDomainState?_config domain⟩
  variation_eq := ⟨"v", rfl⟩
  sponsor_mem := List.mem_singleton_self _
  accepts := by
    rw [parseAndValidate_eq]
    exact .done _

theorem executes : ∃ es l', Executes (fun _ => []) transaction.message 1000 ledger [instruction] es l' := by
  have hok : (tollboothPrograms.process ⟨[instruction], 0, 1000⟩ instruction ledger).isSome = true := by
    decide +kernel
  obtain ⟨l', hprocess⟩ := Option.isSome_iff_exists.1 hok
  have hstart : Exec tollboothPrograms 1000 [instruction] ledger 0 [] ledger := .start Frame.refl
  have hid : instruction.programId ∈ tollboothPrograms.ids := List.mem_singleton_self _
  have hallows : AddressBook.Allows book [instruction] := by decide +kernel
  refine ⟨_, l', ?_, hallows.admissible, .program hstart rfl hid hprocess⟩
  refine .cons ⟨rfl, rfl, ?_⟩ .nil
  repeat constructor

/-- The domain of the session is credited the toll. -/
theorem credited_iff_sample :
    ∃ es l', Executes (fun _ => []) transaction.message 1000 ledger [instruction] es l' ∧
      10 ≤ creditedTolls coefficients "https://other.xyz" es := by
  obtain ⟨es, l', hexec⟩ := executes
  refine ⟨es, l', hexec, (credited_iff (accepts "https://other.xyz") hexec).2 ?_⟩
  decide +kernel

/-- Another domain, whose variation accepts the transaction as well, is credited nothing. -/
theorem not_credited :
    ¬ ∀ (_ : External) (_ : TokenProgram) (domain : String)
      (v : ParsedVariationOrderedInstructionConstraints) (feeCoefficients : FeeCoefficients)
      (content : Pubkey → List Pubkey) (transaction : VersionedTransaction)
      (domainState : DomainState) (sponsor : Pubkey) (now : Int64) (l l' : Ledger)
      (instructions : List Instruction) (es : List Event),
      Accepts domain v feeCoefficients content transaction domainState sponsor →
      Executes content transaction.message now l instructions es l' →
      (v.paymasterFeeLamports.getD 0).toNat ≤ creditedTolls feeCoefficients domain es := by
  intro hall
  obtain ⟨es, l', hexec⟩ := executes
  have hle := hall _ _ _ _ _ _ _ _ _ _ _ _ _ _ (accepts "https://app.xyz") hexec
  rw [creditedTolls_eq (accepts "https://app.xyz") hexec] at hle
  revert hle
  decide +kernel

end ForeignToll

end FogoSessions.Paymaster
