import FogoSessions.IntentTransfer.Effects

/-!
# What a transfer costs

What the instructions take out of a user's accounts and where it goes, in the terms of the text that
the user has signed.
-/

namespace FogoSessions.IntentTransfer

open Lib Solana Intents SessionManager

/-- The terms of a signed text: what is transferred, and for how much. -/
structure Terms where
  chainId : String
  symbolOrMint : SymbolOrMint
  amount : String
  feeSymbolOrMint : SymbolOrMint
  feeAmount : String

def Message.terms (message : Message) : Terms where
  chainId := message.chainId
  symbolOrMint := message.symbolOrMint
  amount := message.amount
  feeSymbolOrMint := message.feeSymbolOrMint
  feeAmount := message.feeAmount

def NttMessage.terms (message : NttMessage) : Terms where
  chainId := message.fromChainId
  symbolOrMint := message.symbolOrMint
  amount := message.amount
  feeSymbolOrMint := message.feeSymbolOrMint
  feeAmount := message.feeAmount

/-- The tokens an instruction takes from a user, and the fee it takes. -/
structure Charge where
  source : Pubkey
  mint : Pubkey
  amount : UInt64
  feeSource : Pubkey
  feeMint : Pubkey
  fee : UInt64
  feeDestination : Pubkey

section

variable [Addressing] [TokenProgram] [TokenMetadata] {l l' l₁ l₂ l₃ : Ledger}

/-- The text names the mint: by its address, or by the symbol in its metadata. -/
def Names (l : Ledger) (symbolOrMint : SymbolOrMint) (mint : Pubkey) : Prop :=
  match symbolOrMint with
  | .mint expectedMint => expectedMint = mint
  | .symbol symbol =>
    TokenMetadata.symbol (l (metadataAddress mint)).data = some (padSymbol symbol)

/-- The text names the mint by what is found in `m`, the ledger that the instruction has got to. Where
    another program had the account of the metadata in `l`, that is what was found there. -/
structure Named (l m : Ledger) (symbolOrMint : SymbolOrMint) (mint : Pubkey) : Prop where
  found : Names m symbolOrMint mint
  before : (l (metadataAddress mint)).owner ≠ Ids.systemProgram →
    (l (metadataAddress mint)).owner ≠ Ids.tokenProgram → Names l symbolOrMint mint

omit [TokenProgram] in
theorem SameForeign.named {symbolOrMint : SymbolOrMint} {mint : Pubkey} (h : SameForeign l l')
    (hnames : Names l' symbolOrMint mint) : Named l l' symbolOrMint mint where
  found := hnames
  before hsystem htoken := by
    obtain ⟨-, hdata⟩ := h (metadataAddress mint) hsystem htoken
    cases symbolOrMint with
    | mint expectedMint => exact hnames
    | symbol symbol =>
      unfold Names at hnames
      rwa [hdata] at hnames

/-- The text says so many tokens of the mint. -/
def Amounts (l : Ledger) (mint : Pubkey) (text : String) (amount : UInt64) : Prop :=
  ∃ data : Mint, (AnchorSpl.mint l mint : Except Error Mint) = .ok data ∧
    TokenProgram.tryUiAmountIntoAmount text data.decimals = some amount

/-- The user holds tokens of the mint in the account. -/
def HeldBy (l : Ledger) (key user mint : Pubkey) : Prop :=
  ∃ a, tokenAccountAt l key = some a ∧ a.owner = user ∧ a.mint = mint

/-- The charge is what the user has signed, and what is registered for the fee's token; the fee is for
    a signer of the instruction. The token is looked up in `m`. -/
structure Charge.Agreed (c : Charge) (user : Pubkey) (terms : Terms) (feeOf : FeeConfig → UInt64)
    (accounts : List AccountMeta) (l m : Ledger) : Prop where
  chainId_eq : ChainId.onLedger l = some ⟨terms.chainId⟩
  source_held : HeldBy l c.source user c.mint
  named : Named l m terms.symbolOrMint c.mint
  amount_eq : Amounts l c.mint terms.amount c.amount
  feeSource_held : HeldBy l c.feeSource user c.feeMint
  fee_le : ∃ limit, Amounts l c.feeMint terms.feeAmount limit ∧ c.fee ≤ limit
  fee_eq : ∃ config, loadFeeConfig l (feeConfigAddress c.feeMint) = .ok config ∧ feeOf config = c.fee
  feeDestination_eq : ∃ sponsor ∈ accounts, sponsor.isSigner = true ∧
    c.feeDestination = associatedTokenAddress sponsor.pubkey c.feeMint

omit [TokenProgram] in
theorem verifySymbolOrMint_eq_ok {symbolOrMint : SymbolOrMint} {metadata : Option Pubkey}
    {mint : Pubkey} {r : Unit} (h : verifySymbolOrMint l symbolOrMint metadata mint = .ok r) :
    Names l symbolOrMint mint := by
  unfold verifySymbolOrMint at h
  split at h
  · simp only [bind_eq_ok, require_eq_ok, okOr_eq_ok] at h
    obtain ⟨-, rfl, _, hsymbol, rfl⟩ := h
    exact hsymbol
  · cases h
  · rename_i expectedMint
    have hmint : expectedMint = mint := require_eq_ok.1 h
    exact hmint
  · cases h

/-- The fee is within the limit, and what is taken is the fee. -/
theorem verifyAndCollectFee_eq_ok {accounts : VerifyAndCollectAccounts} {feeAmount : UInt64}
    {intentFeeAmount : String} {feeSymbolOrMint : SymbolOrMint}
    (h : verifyAndCollectFee accounts feeAmount intentFeeAmount feeSymbolOrMint l = .ok l') :
    Names l feeSymbolOrMint accounts.feeMint ∧
      (∃ limit, TokenProgram.tryUiAmountIntoAmount intentFeeAmount accounts.feeMintData.decimals =
        some limit ∧ feeAmount ≤ limit) ∧
      TokenMove TokenProgram.unpackAccount accounts.feeMint accounts.feeSource
        accounts.feeDestination feeAmount l l' := by
  simp only [verifyAndCollectFee, amountOf, bind_eq_ok, okOr_eq_ok, require_eq_ok] at h
  obtain ⟨_, hnames, limit, hlimit, -, hle, htransfer⟩ := h
  exact ⟨verifySymbolOrMint_eq_ok hnames, ⟨limit, hlimit, hle⟩,
    TokenProgram.transferChecked_eq_some htransfer⟩

/-- The accounts for a fee, as they were found: the user's, and one of the sponsor's. -/
structure VerifyAndCollectAccounts.Opened (fees : VerifyAndCollectAccounts) (user : Pubkey)
    (feeConfig : FeeConfig) (accounts : List AccountMeta) (l : Ledger) : Prop where
  source_held : HeldBy l fees.feeSource user fees.feeMint
  mint_eq : (AnchorSpl.mint l fees.feeMint : Except Error Mint) = .ok fees.feeMintData
  config_eq : loadFeeConfig l (feeConfigAddress fees.feeMint) = .ok feeConfig
  destination_eq : ∃ sponsor ∈ accounts, sponsor.isSigner = true ∧
    fees.feeDestination = associatedTokenAddress sponsor.pubkey fees.feeMint

/-! ## Sending tokens -/

variable [SystemProgram]

/-- What `send_tokens` takes. -/
def SendTokens.charge (self : SendTokens) (amount : UInt64) : Charge where
  source := self.source
  mint := self.mint
  amount
  feeSource := self.fees.feeSource
  feeMint := self.fees.feeMint
  fee := self.feeConfig.intrachainTransferFee
  feeDestination := self.fees.feeDestination

/-- `send_tokens` moves the amount to the recipient and the fee to the sponsor, and nothing else. The
    token is looked up when the accounts have been opened, and the one of the fee after the transfer. -/
structure TokensSent [AssociatedTokenProgram] (user : Pubkey) (message : Message)
    (accounts : List AccountMeta) (l l' : Ledger) : Prop where
  charged : ∃ (self : SendTokens) (amount : UInt64) (m m' : Ledger),
    SendTokens.tryAccounts l accounts = .ok (self, m) ∧
    (self.charge amount).Agreed user message.terms FeeConfig.intrachainTransferFee accounts l m ∧
    TokenProgram.transferChecked m self.source self.mint self.destination
      self.fees.intentTransferSetter amount self.mintData.decimals = some m' ∧
    Named l m' message.feeSymbolOrMint self.fees.feeMint ∧
    let c := self.charge amount
    ∀ key, tokenBalance l' key + portion c.source c.amount.toNat key +
        portion c.feeSource c.fee.toNat key =
      tokenBalance l key + portion (associatedTokenAddress message.recipient c.mint) c.amount.toNat key +
        portion c.feeDestination c.fee.toNat key

/-- The accounts of `send_tokens`, as they were found. -/
structure SendTokens.Opened (s : SendTokens) (accounts : List AccountMeta) (l l' : Ledger) :
    Prop where
  chainId_eq : ChainId.onLedger l = some s.chainId
  source_held : HeldBy l s.source s.sourceData.owner s.mint
  mint_eq : (AnchorSpl.mint l s.mint : Except Error Mint) = .ok s.mintData
  destination_eq : s.destination = associatedTokenAddress s.destinationOwner s.mint
  fees : s.fees.Opened s.sourceData.owner s.feeConfig accounts l
  balances : SameBalances l l'
  opens : Opens .transfer s.sourceData.owner s.nonce s.nonceData l l'

omit [TokenProgram] [TokenMetadata] [SystemProgram] in
theorem onLedger_of_load {key : Pubkey} {chainId : ChainId} (h : loadChainId l key = .ok chainId)
    (hkey : key = derivedAddress [ChainId.seed] ProgramIds.chainId) :
    ChainId.onLedger l = some chainId := by
  subst hkey
  obtain ⟨howner, hdata⟩ := Anchor.account_eq_ok h
  have howner' : (l ChainId.address).owner = ProgramIds.chainId := howner
  rw [ChainId.onLedger, if_pos howner']
  exact toOption_eq_some.2 hdata

omit [TokenMetadata] in
theorem SendTokens.tryAccounts_eq_ok [AssociatedTokenProgram] {accounts : List AccountMeta}
    {self : SendTokens} (h : SendTokens.tryAccounts l accounts = .ok (self, l')) :
    self.Opened accounts l l' := by
  unfold SendTokens.tryAccounts at h
  split at h
  · rename_i chainId sysvarInstructions intentTransferSetter source destination mint metadata nonce
      sponsor destinationOwner feeSource feeDestination feeMint feeMetadata feeConfig systemProgram
      tokenProgram associatedTokenProgram _
    simp only [bind_eq_ok, pure_eq_ok, Prod.exists, Anchor.signer_eq_ok, AnchorSpl.tokenMint,
      AnchorSpl.tokenAuthority, Anchor.seeds, Anchor.program, Anchor.writable, Anchor.address,
      require_eq_ok, exists_const] at h
    obtain ⟨chainIdData, hchainId, sourceData, hsource, mintData, hmint, hsigner, feeSourceData,
      hfeeSource, feeMintData, hfeeMint, feeConfigData, hfeeConfig, -, -, -, l₁, hdestination, -,
      nonceData, l₂, hnonce, l₃, hfeeDestination, -, hchainIdKey, -, -, -, hsourceMint, -, -,
      hfeeSourceMint, hfeeSourceOwner, hfeeConfigKey, ⟨⟩⟩ := h
    obtain ⟨hdestinationKey, hmade⟩ := AnchorSpl.initAssociatedIfNeeded_eq_ok hdestination
    obtain ⟨hfeeDestinationKey, hfeeMade⟩ := AnchorSpl.initAssociatedIfNeeded_eq_ok hfeeDestination
    obtain ⟨hnonceKey, hinitialized⟩ := initNonce_eq_ok hnonce
    refine ⟨onLedger_of_load hchainId hchainIdKey,
      ⟨_, AnchorSpl.tokenAccount_eq_ok hsource, rfl, hsourceMint⟩, hmint, hdestinationKey, ?_, ?_, ?_⟩
    · refine ⟨⟨_, AnchorSpl.tokenAccount_eq_ok hfeeSource, hfeeSourceOwner, hfeeSourceMint⟩, hfeeMint,
        ?_, sponsor, by simp, hsigner, hfeeDestinationKey⟩
      have hkey : feeConfig.pubkey = feeConfigAddress feeMint.pubkey := hfeeConfigKey
      exact hkey ▸ hfeeConfig
    · exact (AnchorSpl.initAssociatedIfNeeded_sameBalances hdestination).trans
        ((hinitialized.sameBalances intentTransfer_ne_tokenProgram).trans
          (AnchorSpl.initAssociatedIfNeeded_sameBalances hfeeDestination))
    · refine ⟨hnonceKey, ?_, l₁, l₂, _, keepsAll_mayCreate hmade, hinitialized,
        keepsAll_mayCreate hfeeMade⟩
      exact (keepsUsed_mayCreate hmade).trans
        ((keepsUsed_initialized hinitialized).trans (keepsUsed_mayCreate hfeeMade))
  · cases h

omit [Addressing] [TokenProgram] [TokenMetadata] [SystemProgram] in
theorem loadIntent_eq_ok [LegacyOffchain] {M : Type} {parse : Bytes → Except Unit M} {ctx : Context}
    {intent : Intent M} (h : loadIntent parse ctx = .ok intent) :
    Intent.load parse ctx.instructions ctx.index = .ok intent := mapErr_eq_ok.1 h

/-- `send_tokens` is what the user has signed, with the next nonce. -/
theorem sendTokens_eq_ok [AssociatedTokenProgram] [LegacyOffchain] {ctx : Context}
    {accounts : List AccountMeta} (h : sendTokens ctx accounts l = .ok l') :
    ∃ intent, Intent.load Message.tryFrom ctx.instructions ctx.index = .ok intent ∧
      Advances (nonceAddress .transfer intent.signer) intent.message.nonce l l' ∧
      TokensSent intent.signer intent.message accounts l l' := by
  simp only [sendTokens, bind_eq_ok, Prod.exists, verifySignerMatchesSource, amountOf, require_eq_ok,
    okOr_eq_ok, exists_const] at h
  obtain ⟨self, l₁, haccounts, intent, hintent, hchainId, _, hnamed, hsigner, hrecipient, nonce, hnonce,
    amount, hamount, l₂, htransfer, l₃, hfee, hexit⟩ := h
  have hopened := SendTokens.tryAccounts_eq_ok haccounts
  have hmove := TokenProgram.transferChecked_eq_some htransfer
  obtain ⟨hfeeNamed, ⟨limit, hlimit, hle⟩, hfeeMove⟩ := verifyAndCollectFee_eq_ok hfee
  have hkept : KeepsAll programIds l₁ l₃ := (hmove.writes.frame token_not_mem).keepsAll.trans
    (hfeeMove.writes.frame token_not_mem).keepsAll
  have hadvances := hopened.opens.advances hkept hnonce hexit
  have hforeign := hopened.opens.used.sameForeign
  refine ⟨intent, loadIntent_eq_ok hintent, hsigner ▸ hadvances, ?_⟩
  have hfeeNamed' := (hforeign.trans (sameForeign_writes hmove.writes)).named hfeeNamed
  refine ⟨self, amount, l₁, l₂, haccounts, ?_, htransfer, hfeeNamed', fun key => ?_⟩
  · exact
      { chainId_eq := by
          rw [hopened.chainId_eq]
          exact congrArg _ (congrArg ChainId.mk hchainId)
        source_held := hsigner ▸ hopened.source_held
        named := hforeign.named (verifySymbolOrMint_eq_ok hnamed)
        amount_eq := ⟨_, hopened.mint_eq, hamount⟩
        feeSource_held := hsigner ▸ hopened.fees.source_held
        fee_le := ⟨limit, ⟨_, hopened.fees.mint_eq, hlimit⟩, hle⟩
        fee_eq := ⟨_, hopened.fees.config_eq, rfl⟩
        feeDestination_eq := hopened.fees.destination_eq }
  · have hdestination : associatedTokenAddress intent.message.recipient self.mint = self.destination := by
      rw [hrecipient, hopened.destination_eq]
    have hopen := hopened.balances key
    have hsent := hmove.tokenBalance_eq key
    have hpaid := hfeeMove.tokenBalance_eq key
    have hwritten := exitNonce_sameBalances hexit (hopened.opens.nonce_eq ▸ hadvances.owner_mem) key
    show tokenBalance l' key + portion self.source amount.toNat key +
        portion self.fees.feeSource self.feeConfig.intrachainTransferFee.toNat key =
      tokenBalance l key +
        portion (associatedTokenAddress intent.message.recipient self.mint) amount.toNat key +
        portion self.fees.feeDestination self.feeConfig.intrachainTransferFee.toNat key
    rw [hdestination]
    omega

/-! ## Sending the native token -/

/-- `send_native` moves the amount to the recipient, takes no fee, and leaves the tokens alone; the
    sponsor may have paid for the nonce account. -/
structure NativeSent (user : Pubkey) (message : Message) (accounts : List AccountMeta)
    (l l' : Ledger) : Prop where
  chainId_eq : ChainId.onLedger l = some ⟨message.chainId⟩
  symbolOrMint_eq : message.symbolOrMint = .symbol "FOGO"
  moved : ∃ amount, TokenProgram.tryUiAmountIntoAmount message.amount fogoDecimals = some amount ∧
    ∃ sponsor ∈ accounts, sponsor.isSigner = true ∧ ∃ rent, ∀ key,
      (l' key).lamports + portion user amount.toNat key + portion sponsor.pubkey rent key =
        (l key).lamports + portion message.recipient amount.toNat key +
          portion (nonceAddress .transfer user) rent key
  balances : SameBalances l l'

/-- The accounts of `send_native`, as they were found. -/
structure SendNative.Opened (s : SendNative) (accounts : List AccountMeta) (l l' : Ledger) :
    Prop where
  chainId_eq : ChainId.onLedger l = some s.chainId
  balances : SameBalances l l'
  opens : Opens .transfer s.source s.nonce s.nonceData l l'
  paid : SystemProgram.Solvent → ∃ sponsor ∈ accounts, sponsor.isSigner = true ∧ ∃ rent,
    LamportMove sponsor.pubkey s.nonce rent l l'

omit [TokenMetadata] in
theorem SendNative.tryAccounts_eq_ok {accounts : List AccountMeta} {self : SendNative}
    (h : SendNative.tryAccounts l accounts = .ok (self, l')) : self.Opened accounts l l' := by
  unfold SendNative.tryAccounts at h
  split at h
  · rename_i chainId sysvarInstructions intentTransferSetter source destination nonce sponsor feeSource
      feeDestination feeMint feeMetadata feeConfig systemProgram tokenProgram associatedTokenProgram _
    simp only [bind_eq_ok, pure_eq_ok, Prod.exists, Anchor.signer_eq_ok, Anchor.seeds, Anchor.program,
      Anchor.writable, Anchor.address, require_eq_ok, exists_const] at h
    obtain ⟨chainIdData, hchainId, hsigner, feeMintData, -, feeConfigData, -, -, -, -, nonceData, l₁,
      hnonce, hchainIdKey, -, -, -, -, -, -, ⟨⟩⟩ := h
    obtain ⟨hnonceKey, hinitialized⟩ := initNonce_eq_ok hnonce
    refine ⟨onLedger_of_load hchainId hchainIdKey,
      hinitialized.sameBalances intentTransfer_ne_tokenProgram, ?_, fun hsolvent => ?_⟩
    · exact ⟨hnonceKey, keepsUsed_initialized hinitialized, l, _, _, .refl, hinitialized, .refl⟩
    · exact ⟨sponsor, by simp, hsigner, Anchor.initIfNeeded_lamportMove hsolvent hnonce⟩
  · cases h

omit [TokenMetadata] in
/-- `send_native` is what the user has signed, with the next nonce. -/
theorem sendNative_eq_ok [LegacyOffchain] {ctx : Context} {accounts : List AccountMeta}
    (h : sendNative ctx accounts l = .ok l') :
    ∃ intent, Intent.load Message.tryFrom ctx.instructions ctx.index = .ok intent ∧
      Advances (nonceAddress .transfer intent.signer) intent.message.nonce l l' ∧
      (SystemProgram.Solvent → NativeSent intent.signer intent.message accounts l l') := by
  simp only [sendNative, bind_eq_ok, Prod.exists, verifySignerMatchesSource, amountOf, require_eq_ok,
    okOr_eq_ok, exists_const] at h
  obtain ⟨self, l₁, hopened, intent, hintent, hchainId, hsymbol, hsigner, hrecipient, nonce, hnonce,
    amount, hamount, l₂, htransfer, hexit⟩ := h
  have hopened := SendNative.tryAccounts_eq_ok hopened
  obtain ⟨hsource, hle, rfl⟩ := SystemProgram.intentTransfer_eq_some htransfer
  have hkept : KeepsAll programIds l₁ (l₁.move self.source self.destination amount.toNat) :=
    (frame_move system_not_mem hsource).keepsAll
  have hadvances := hopened.opens.advances hkept hnonce hexit
  refine ⟨intent, loadIntent_eq_ok hintent, hsigner ▸ hadvances, fun hsolvent => ?_⟩
  obtain ⟨sponsor, hmem, hsponsor, rent, hrent⟩ := hopened.paid hsolvent
  refine ⟨?_, hsymbol, ?_, ?_⟩
  · rw [hopened.chainId_eq]
    exact congrArg _ (congrArg ChainId.mk hchainId)
  · refine ⟨amount, hamount, sponsor, hmem, hsponsor, rent, fun key => ?_⟩
    have hopen := hrent key
    have hmoved : LamportMove self.source self.destination amount.toNat l₁ _ := lamportMove_move hle
    have hmove := hmoved key
    have hwritten := exitNonce_lamports hexit key
    rw [hopened.opens.nonce_eq] at hopen
    rw [hsigner, hrecipient]
    omega
  · refine hopened.balances.trans (SameBalances.trans (fun key => ?_)
      (exitNonce_sameBalances hexit (hopened.opens.nonce_eq ▸ hadvances.owner_mem)))
    exact tokenBalance_congr Ledger.move_owner Ledger.move_data

/-! ## Bridging tokens -/

/-- What the programs that bridge are told: the NTT manager that is registered for the token gets the
    amount, the chain and the recipient of the text, and may take the amount out of an account that
    nobody else has. -/
structure HandsOver (c : Charge) (message : NttMessage) (intermediate : Pubkey)
    (instructions : List Instruction) (l l' : Ledger) : Prop where
  told : ∃ (config : ExpectedNttConfig) (chain : WormholeChainId) (recipient : FixedBytes 32)
    (burn : TransferBurn) (release : ReleaseWormholeOutbound) (relay : RelayNttMessage)
    (relayArgs : RelayNttMessageArgs),
    loadNttConfig l (nttConfigAddress c.mint) = .ok config ∧
    convertChainIdToWormhole message.toChainId = some chain ∧
    parseRecipientAddress message.recipientAddress = .ok recipient ∧
    instructions = [burn.instruction ⟨c.amount, chain.toU16, recipient, false⟩ config.manager,
      release.instruction true config.manager, relay.instruction relayArgs] ∧
    burn.source = intermediate ∧ burn.mint = c.mint ∧ relayArgs.recipientChain = chain.toU16 ∧
    ∃ a, tokenAccountAt l' intermediate = some a ∧ a.mint = c.mint ∧ c.amount ≤ a.amount ∧
      a.delegate = some burn.sessionAuthority ∧ a.delegatedAmount = c.amount

/-- The accounts of `bridge_ntt_tokens`, as they were found. -/
structure BridgeNttTokens.Opened (s : BridgeNttTokens) (accounts : List AccountMeta)
    (l l' : Ledger) : Prop where
  chainId_eq : ChainId.onLedger l = some s.fromChainId
  source_held : HeldBy l s.source s.sourceData.owner s.mint
  mint_eq : (AnchorSpl.mint l s.mint : Except Error Mint) = .ok s.mintData
  nttConfig_eq : loadNttConfig l (nttConfigAddress s.mint) = .ok s.expectedNttConfig
  fees : s.fees.Opened s.sourceData.owner s.feeConfig accounts l
  intermediate_owner : (l' s.intermediateTokenAccount).owner = Ids.tokenProgram
  balances : ∀ key, key ≠ s.intermediateTokenAccount → tokenBalance l' key = tokenBalance l key
  opens : Opens .bridge s.sourceData.owner s.nonce s.nonceData l l'

omit [TokenMetadata] in
theorem BridgeNttTokens.tryAccounts_eq_ok [AssociatedTokenProgram] {accounts : List AccountMeta}
    {self : BridgeNttTokens} (h : BridgeNttTokens.tryAccounts l accounts = .ok (self, l')) :
    self.Opened accounts l l' := by
  unfold BridgeNttTokens.tryAccounts at h
  split at h
  · rename_i fromChainId sysvarInstructions intentTransferSetter source intermediate mint metadata
      expectedNttConfig nonce sponsor feeSource feeDestination feeMint feeMetadata feeConfig
      systemProgram tokenProgram associatedTokenProgram rest
    simp only [bind_eq_ok, pure_eq_ok, Prod.exists, Anchor.signer_eq_ok, AnchorSpl.tokenMint,
      AnchorSpl.tokenAuthority, Anchor.seeds, Anchor.program, Anchor.writable, Anchor.address,
      require_eq_ok, exists_const] at h
    obtain ⟨chainIdData, hchainId, sourceData, hsource, mintData, hmint, nttConfig, hnttConfig,
      hsigner, feeSourceData, hfeeSource, feeMintData, hfeeMint, feeConfigData, hfeeConfig, -, -, -,
      ntt, -, l₁, hintermediate, -, nonceData, l₂, hnonce, l₃, hfeeDestination, -, hchainIdKey, -, -,
      -, hsourceMint, -, hnttConfigKey, -, -, hfeeSourceMint, hfeeSourceOwner, hfeeConfigKey, ⟨⟩⟩ := h
    obtain ⟨-, hmade⟩ := AnchorSpl.initTokenIfNeeded_eq_ok hintermediate
    obtain ⟨hfeeDestinationKey, hfeeMade⟩ := AnchorSpl.initAssociatedIfNeeded_eq_ok hfeeDestination
    obtain ⟨hnonceKey, hinitialized⟩ := initNonce_eq_ok hnonce
    refine ⟨onLedger_of_load hchainId hchainIdKey,
      ⟨_, AnchorSpl.tokenAccount_eq_ok hsource, rfl, hsourceMint⟩, hmint, ?_, ?_, ?_, ?_, ?_⟩
    · have hkey : expectedNttConfig.pubkey = nttConfigAddress mint.pubkey := hnttConfigKey
      exact hkey ▸ hnttConfig
    · refine ⟨⟨_, AnchorSpl.tokenAccount_eq_ok hfeeSource, hfeeSourceOwner, hfeeSourceMint⟩, hfeeMint,
        ?_, sponsor, by simp, hsigner, hfeeDestinationKey⟩
      have hkey : feeConfig.pubkey = feeConfigAddress feeMint.pubkey := hfeeConfigKey
      exact hkey ▸ hfeeConfig
    · obtain ⟨a, ha, -⟩ := hmade.holds
      have howner := (tokenAccountAt_eq_some.1 ha).1
      have hused := (keepsUsed_initialized hinitialized).trans (keepsUsed_mayCreate hfeeMade)
      refine (hused intermediate.pubkey ?_).1.trans howner
      rw [howner]
      exact Ids.tokenProgram_ne_systemProgram
    · intro key hkey
      rw [AnchorSpl.initAssociatedIfNeeded_sameBalances hfeeDestination,
        hinitialized.sameBalances intentTransfer_ne_tokenProgram, hmade.tokenBalance_eq hkey]
    · refine ⟨hnonceKey, ?_, l₁, l₂, _, keepsAll_mayCreate hmade, hinitialized,
        keepsAll_mayCreate hfeeMade⟩
      exact (keepsUsed_mayCreate hmade).trans
        ((keepsUsed_initialized hinitialized).trans (keepsUsed_mayCreate hfeeMade))
  · cases h

/-- What `bridge_ntt_tokens` takes. -/
def BridgeNttTokens.charge (self : BridgeNttTokens) (amount : UInt64) : Charge where
  source := self.source
  mint := self.mint
  amount
  feeSource := self.fees.feeSource
  feeMint := self.fees.feeMint
  fee := self.feeConfig.bridgeTransferFee
  feeDestination := self.fees.feeDestination

/-- The ledgers that `bridge_ntt_tokens` comes to: `opened` when there are the accounts, `m` when the
    account in the middle may be drawn on, and `m'` after the instructions to the other programs. -/
structure BridgeNttTokens.Passes [AssociatedTokenProgram] [Invocation programIds]
    (self : BridgeNttTokens) (amount : UInt64) (instructions : List Instruction)
    (accounts : List AccountMeta) (l opened m m' : Ledger) : Prop where
  accounts_eq : BridgeNttTokens.tryAccounts l accounts = .ok (self, opened)
  approved : ∃ funded, TokenProgram.transferChecked opened self.source self.mint
      self.intermediateTokenAccount self.fees.intentTransferSetter amount self.mintData.decimals =
        some funded ∧
    TokenProgram.approve funded self.intermediateTokenAccount self.ntt.nttSessionAuthority
      self.fees.intentTransferSetter amount = some m
  invoked : instructions.foldlM (Invocation.invoke programIds) m = some m'

/-- `bridge_ntt_tokens` takes the amount out of the user's account and hands it over. Afterwards the
    account in the middle is gone, and the fee is paid; an account that is not handed over as a writable
    one has lost and got nothing else. The token is looked up when the accounts have been opened, and
    the one of the fee when the account in the middle has been closed. -/
structure Bridged [AssociatedTokenProgram] [Invocation programIds] (user : Pubkey)
    (message : NttMessage) (accounts : List AccountMeta) (l l' : Ledger) : Prop where
  charged : ∃ (self : BridgeNttTokens) (amount : UInt64) (instructions : List Instruction)
      (opened m m' : Ledger),
    self.Passes amount instructions accounts l opened m m' ∧
    let c := self.charge amount
    let intermediate := self.intermediateTokenAccount
    c.Agreed user message.terms FeeConfig.bridgeTransferFee accounts l opened ∧
    HandsOver c message intermediate instructions l m ∧
    Named m' (m'.close intermediate self.sponsor) message.feeSymbolOrMint c.feeMint ∧
    l' intermediate = .empty ∧
    (∀ key, key ≠ intermediate →
      tokenBalance m key + portion c.source c.amount.toNat key = tokenBalance l key) ∧
    (∀ key, tokenBalance l' key + portion c.feeSource c.fee.toNat key =
      (if key = intermediate then 0 else tokenBalance m' key) +
        portion c.feeDestination c.fee.toNat key) ∧
    ∀ key, key ≠ intermediate → (∀ ix ∈ instructions, ∀ account ∈ ix.accounts,
        account.pubkey = key → account.isWritable = false) →
      tokenBalance l' key + portion c.source c.amount.toNat key +
          portion c.feeSource c.fee.toNat key =
        tokenBalance l key + portion c.feeDestination c.fee.toNat key

omit [TokenProgram] [TokenMetadata] [SystemProgram] in
/-- Invocations leave alone what is not handed over as writable. -/
theorem foldlM_invoke_other [Invocation programIds] {key : Pubkey} :
    ∀ {instructions : List Instruction} {m m' : Ledger},
      instructions.foldlM (Invocation.invoke programIds) m = some m' →
      (∀ ix ∈ instructions, ∀ account ∈ ix.accounts, account.pubkey = key →
        account.isWritable = false) → m' key = m key
  | [], m, m', h, _ => by
    cases h
    rfl
  | ix :: instructions, m, m', h, hkey => by
    rw [List.foldlM_cons, Option.bind_eq_bind, Option.bind_eq_some_iff] at h
    obtain ⟨m₁, hinvoke, hrest⟩ := h
    obtain ⟨hhead, htail⟩ := List.forall_mem_cons.1 hkey
    exact (foldlM_invoke_other hrest htail).trans (Invocation.invoke_other hinvoke key hhead)

omit [TokenProgram] [TokenMetadata] [SystemProgram] in
theorem foldlM_invoke_frame [Invocation programIds] :
    ∀ {instructions : List Instruction} {m m' : Ledger},
      instructions.foldlM (Invocation.invoke programIds) m = some m' → Frame programIds m m'
  | [], m, m', h => by
    cases h
    exact .refl
  | ix :: instructions, m, m', h => by
    rw [List.foldlM_cons, Option.bind_eq_bind, Option.bind_eq_some_iff] at h
    obtain ⟨m₁, hinvoke, hrest⟩ := h
    exact (Invocation.invoke_frame hinvoke).trans (foldlM_invoke_frame hrest)

omit [Addressing] [TokenProgram] [TokenMetadata] [SystemProgram] in
theorem computeRelayNttArgs_eq_ok {chain : WormholeChainId} {quote : Bytes} {payRent : Bool}
    {args : RelayNttMessageArgs} (h : computeRelayNttArgs chain quote payRent = .ok args) :
    args.recipientChain = chain.toU16 := by
  unfold computeRelayNttArgs at h
  split at h
  · simp only [bind_eq_ok, pure_eq_ok] at h
    obtain ⟨_, -, _, -, rfl⟩ := h
    rfl
  · cases h

omit [TokenProgram] [TokenMetadata] [SystemProgram] in
/-- The three instructions, in their order. -/
theorem BridgeNttTokens.handOver_eq_ok [Invocation programIds] {self : BridgeNttTokens}
    {args : BridgeNttTokensArgs} {chain : WormholeChainId} {transferArgs : TransferArgs}
    (h : self.handOver args chain transferArgs l = .ok l') :
    ∃ relayArgs : RelayNttMessageArgs, relayArgs.recipientChain = chain.toU16 ∧
      [self.transferBurn.instruction transferArgs self.ntt.nttManager,
        self.releaseWormholeOutbound.instruction true self.ntt.nttManager,
        self.relayNttMessage.instruction relayArgs].foldlM (Invocation.invoke programIds) l =
          some l' := by
  simp only [handOver, bind_eq_ok, okOr_eq_ok] at h
  obtain ⟨l₁, hburn, l₂, hrelease, relayArgs, hargs, hrelay⟩ := h
  refine ⟨relayArgs, computeRelayNttArgs_eq_ok hargs, ?_⟩
  simp only [List.foldlM_cons, List.foldlM_nil, Option.bind_eq_bind, Option.bind_eq_some_iff,
    Option.pure_def, Option.some.injEq]
  exact ⟨l₁, hburn, l₂, hrelease, l', hrelay, rfl⟩

omit [Addressing] [TokenMetadata] [SystemProgram] in
/-- A delegate for the amount is all that is written to the account. -/
theorem approve_delegate {source delegate authority : Pubkey} {amount : UInt64}
    (h : TokenProgram.approve l source delegate authority amount = some l')
    (howner : (l source).owner = Ids.tokenProgram) :
    TokenWrites l l' ∧ SameBalances l l' ∧
      ∃ a a', tokenAccountAt l source = some a ∧ tokenAccountAt l' source = some a' ∧
        a' = { a with delegate := some delegate, delegatedAmount := amount } := by
  obtain ⟨a, data, hdata, hunpack, hunpack', rfl⟩ := TokenProgram.approve_eq_some h
  refine ⟨.setData hdata, sameBalances_delegate hdata hunpack hunpack' rfl, a, _,
    tokenAccountAt_eq_some.2 ⟨howner, hunpack⟩, tokenAccountAt_eq_some.2 ⟨?_, ?_⟩, rfl⟩
  · rwa [Ledger.setData_owner]
  · rwa [Ledger.setData_same]

/-- `bridge_ntt_tokens` is what the user has signed, with the next nonce. -/
theorem processNttBridge_eq_ok [AssociatedTokenProgram] [Invocation programIds]
    {self : BridgeNttTokens} {message : NttMessage} {signer : Pubkey} {args : BridgeNttTokensArgs}
    {accounts : List AccountMeta}
    (haccounts : BridgeNttTokens.tryAccounts l accounts = .ok (self, l₁))
    (h : self.processNttBridge message signer args l₁ = .ok l') :
    Advances (nonceAddress .bridge signer) message.nonce l l' ∧
      Bridged signer message accounts l l' := by
  have hopened := BridgeNttTokens.tryAccounts_eq_ok haccounts
  simp only [BridgeNttTokens.processNttBridge, bind_eq_ok, verifySignerMatchesSource, amountOf,
    verifyNttManager, require_eq_ok, okOr_eq_ok, exists_const] at h
  obtain ⟨hchainId, _, hnamed, hsigner, nonce, hnonce, hmanager, amount, hamount, l₂, htransfer, chain,
    hchain, recipient, hrecipient, l₃, happrove, l₄, hhandOver, l₅, hclose, l₆, hfee, hexit⟩ := h
  have hmove := TokenProgram.transferChecked_eq_some htransfer
  obtain ⟨hfeeNamed, ⟨limit, hlimit, hle⟩, hfeeMove⟩ := verifyAndCollectFee_eq_ok hfee
  have howner₂ : (l₂ self.intermediateTokenAccount).owner = Ids.tokenProgram :=
    (hmove.writes.owner_eq _).trans hopened.intermediate_owner
  obtain ⟨hwrites, hsame, a, a', ha, ha', rfl⟩ := approve_delegate happrove howner₂
  obtain ⟨relayArgs, hrelayChain, hinvoked⟩ := BridgeNttTokens.handOver_eq_ok hhandOver
  obtain ⟨hclosed, -, rfl⟩ := TokenProgram.closeAccount_eq_some hclose
  have hframe := foldlM_invoke_frame hinvoked
  have hbefore : KeepsAll programIds l₁ l₄ := (hmove.writes.frame token_not_mem).keepsAll.trans
    ((hwrites.frame token_not_mem).keepsAll.trans hframe.keepsAll)
  have hafter : KeepsAll programIds l₄ l₆ := (keepsAll_close system_not_mem (hclosed ▸ token_not_mem)).trans
    (hfeeMove.writes.frame token_not_mem).keepsAll
  have hadvances := hopened.opens.advances (hbefore.trans hafter) hnonce hexit
  refine ⟨hsigner ▸ hadvances, ?_⟩
  have hspent : ∀ key, key ≠ self.intermediateTokenAccount →
      tokenBalance l₃ key + portion self.source amount.toNat key = tokenBalance l key := by
    intro key hkey
    have hsent := hmove.tokenBalance_eq key
    rw [hsame key, ← hopened.balances key hkey, hsent, portion, if_neg hkey]
    rfl
  have hgone : l' self.intermediateTokenAccount = .empty := by
    have howner := hopened.opens.nonce_eq ▸ hadvances.owner_mem
    have hne : self.intermediateTokenAccount ≠ self.nonce := by
      intro hkey
      have hsystem : (l₆ self.intermediateTokenAccount).owner = Ids.systemProgram := by
        rw [hfeeMove.writes.owner_eq, Ledger.close_owner]
      rw [hkey, ← exitNonce_owner hexit] at hsystem
      exact system_not_mem (hsystem ▸ howner)
    rw [exitNonce_of_ne hexit hne, hfeeMove.writes.unchanged _ ?_, Ledger.close_same]
    rw [Ledger.close_owner]
    exact Ids.tokenProgram_ne_systemProgram.symm
  have hpaid : ∀ key, tokenBalance l' key +
      portion self.fees.feeSource self.feeConfig.bridgeTransferFee.toNat key =
        (if key = self.intermediateTokenAccount then 0 else tokenBalance l₄ key) +
          portion self.fees.feeDestination self.feeConfig.bridgeTransferFee.toNat key := by
    intro key
    have hwritten := exitNonce_sameBalances hexit (hopened.opens.nonce_eq ▸ hadvances.owner_mem) key
    rw [hwritten, hfeeMove.tokenBalance_eq key]
    by_cases hkey : key = self.intermediateTokenAccount
    · subst hkey
      rw [if_pos rfl, tokenBalance_of_owner]
      rw [Ledger.close_owner]
      exact Ids.tokenProgram_ne_systemProgram.symm
    · rw [if_neg hkey, tokenBalance_close hkey]
  refine ⟨self, amount, _, l₁, l₃, l₄, ⟨haccounts, ⟨l₂, htransfer, happrove⟩, hinvoked⟩, ?_, ?_, ?_,
    hgone, hspent, hpaid, ?_⟩
  · exact
      { chainId_eq := by
          rw [hopened.chainId_eq]
          exact congrArg _ (congrArg ChainId.mk hchainId)
        source_held := hsigner ▸ hopened.source_held
        named := hopened.opens.used.sameForeign.named (verifySymbolOrMint_eq_ok hnamed)
        amount_eq := ⟨_, hopened.mint_eq, hamount⟩
        feeSource_held := hsigner ▸ hopened.fees.source_held
        fee_le := ⟨limit, ⟨_, hopened.fees.mint_eq, hlimit⟩, hle⟩
        fee_eq := ⟨_, hopened.fees.config_eq, rfl⟩
        feeDestination_eq := hopened.fees.destination_eq }
  · obtain ⟨b, hb, hmint, hfunded⟩ := hmove.received
    obtain rfl := Option.some.inj (hb.symm.trans (tokenAccountAt_eq_some.1 ha).2)
    refine ⟨self.expectedNttConfig, chain, recipient, self.transferBurn, self.releaseWormholeOutbound,
      self.relayNttMessage, relayArgs, hopened.nttConfig_eq, hchain, hrecipient, ?_, rfl, rfl,
      hrelayChain, _, ha', hmint, hfunded, rfl, rfl⟩
    rw [hmanager]
    rfl
  · exact (sameForeign_close hclosed).named hfeeNamed
  · intro key hkey hother
    have hspentKey := hspent key hkey
    have hpaidKey := hpaid key
    have hheld := tokenBalance_of_account_eq (foldlM_invoke_other hinvoked hother)
    rw [if_neg hkey] at hpaidKey
    show tokenBalance l' key + portion self.source amount.toNat key +
        portion self.fees.feeSource self.feeConfig.bridgeTransferFee.toNat key =
      tokenBalance l key + portion self.fees.feeDestination self.feeConfig.bridgeTransferFee.toNat key
    omega

theorem bridgeNttTokens_eq_ok [AssociatedTokenProgram] [Invocation programIds] [LegacyOffchain]
    {ctx : Context} {accounts : List AccountMeta} {args : BridgeNttTokensArgs}
    (h : bridgeNttTokens ctx accounts args l = .ok l') :
    ∃ signer message, Intent.load BridgeMessage.tryFrom ctx.instructions ctx.index =
        .ok ⟨signer, .ntt message⟩ ∧
      Advances (nonceAddress .bridge signer) message.nonce l l' ∧
      Bridged signer message accounts l l' := by
  simp only [bridgeNttTokens, bind_eq_ok, Prod.exists] at h
  obtain ⟨self, l₁, hopened, ⟨signer, message⟩, hintent, hprocess⟩ := h
  cases message with
  | ntt message =>
    exact ⟨signer, message, loadIntent_eq_ok hintent,
      processNttBridge_eq_ok hopened hprocess⟩

end

end FogoSessions.IntentTransfer
