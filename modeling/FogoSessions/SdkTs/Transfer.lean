import FogoSessions.IntentTransfer.Message
import FogoSessions.Lib.Decimal
import FogoSessions.SdkTs.Intent

/-!
# The transfer intents

`sessions-sdk-ts/src/index.ts`: the messages that transfer tokens, transfer native tokens and
bridge tokens out, and what the intent transfer program reads of them.
-/

namespace FogoSessions.SdkTs

open Lib Solana Intents Parser IntentTransfer

/-- `TRANSFER_MESSAGE_HEADER`. -/
def transferMessageHeader : String :=
  "Fogo Transfer:\nSigning this intent will transfer the tokens as described below.\n"

/-- `BRIDGE_OUT_MESSAGE_HEADER`. -/
def bridgeOutMessageHeader : String :=
  "Fogo Bridge Transfer:\nSigning this intent will bridge out the tokens as described below.\n"

def currentIntentTransferMajor : String := "0"
def currentIntentTransferMinor : String := "2"
def currentBridgeOutMajor : String := "0"
def currentBridgeOutMinor : String := "2"
def fogoDecimals : UInt8 := 9

/-- The number after the one of the nonce account, 1 without an account. -/
def nextNonce : Option UInt64 → Nat
  | none => 1
  | some nonce => nonce.toNat + 1

/-- The values of a transfer's body. -/
structure TransferValues where
  chainId : String
  token : String
  amount : String
  recipient : Pubkey
  feeToken : String
  feeAmount : String
  nonce : Nat

/-- The body of both kinds of transfer, in the order of its keys. -/
def transferBody (values : TransferValues) : Record :=
  [("version", currentIntentTransferMajor ++ "." ++ currentIntentTransferMinor),
   ("chain_id", values.chainId),
   ("token", values.token),
   ("amount", values.amount),
   ("recipient", values.recipient.toString),
   ("fee_token", values.feeToken),
   ("fee_amount", values.feeAmount),
   ("nonce", values.nonce.repr)]

/-- The message of `buildIntentInstruction` for a transfer. -/
def transferMessage (values : TransferValues) : Except String Bytes :=
  buildIntentMessage transferMessageHeader (transferBody values) none

structure SendTransferOptions where
  chainId : String
  mint : Pubkey
  amount : UInt64
  recipient : Pubkey

def SendTransferOptions.values (options : SendTransferOptions) (decimals : UInt8)
    (symbol : Option String) (feeToken feeAmount : String) (nonce : Option UInt64) :
    TransferValues where
  chainId := options.chainId
  token := symbol.getD options.mint.toString
  amount := amountToString options.amount decimals
  recipient := options.recipient
  feeToken := feeToken
  feeAmount := feeAmount
  nonce := nextNonce nonce

def buildTransferIntentMessage (options : SendTransferOptions) (decimals : UInt8)
    (symbol : Option String) (feeToken feeAmount : String) (nonce : Option UInt64) :
    Except String Bytes :=
  transferMessage (options.values decimals symbol feeToken feeAmount nonce)

structure SendNativeTransferOptions where
  chainId : String
  amount : UInt64
  recipient : Pubkey

def SendNativeTransferOptions.values (options : SendNativeTransferOptions)
    (feeToken feeAmount : String) (nonce : Option UInt64) : TransferValues where
  chainId := options.chainId
  token := "FOGO"
  amount := amountToString options.amount fogoDecimals
  recipient := options.recipient
  feeToken := feeToken
  feeAmount := feeAmount
  nonce := nextNonce nonce

def buildNativeTransferIntentMessage (options : SendNativeTransferOptions)
    (feeToken feeAmount : String) (nonce : Option UInt64) : Except String Bytes :=
  transferMessage (options.values feeToken feeAmount nonce)

/-- The values of a bridge transfer's body. -/
structure BridgeOutValues where
  fromChainId : String
  toChainId : String
  token : String
  amount : String
  recipientAddress : String
  feeToken : String
  feeAmount : String
  nonce : Nat

def bridgeOutBody (values : BridgeOutValues) : Record :=
  [("version", currentBridgeOutMajor ++ "." ++ currentBridgeOutMinor),
   ("from_chain_id", values.fromChainId),
   ("to_chain_id", values.toChainId),
   ("token", values.token),
   ("amount", values.amount),
   ("recipient_address", values.recipientAddress),
   ("fee_token", values.feeToken),
   ("fee_amount", values.feeAmount),
   ("nonce", values.nonce.repr)]

def bridgeOutMessage (values : BridgeOutValues) : Except String Bytes :=
  buildIntentMessage bridgeOutMessageHeader (bridgeOutBody values) none

structure SendBridgeOutOptions where
  chainId : String
  walletPublicKey : Pubkey
  fromTokenMint : Pubkey
  amount : UInt64

def SendBridgeOutOptions.values (options : SendBridgeOutOptions) (decimals : UInt8)
    (symbol : Option String) (feeToken feeAmount : String) (nonce : Option UInt64) :
    BridgeOutValues where
  fromChainId := options.chainId
  toChainId := "solana"
  token := symbol.getD options.fromTokenMint.toString
  amount := amountToString options.amount decimals
  recipientAddress := options.walletPublicKey.toString
  feeToken := feeToken
  feeAmount := feeAmount
  nonce := nextNonce nonce

def buildBridgeOutIntentMessage (options : SendBridgeOutOptions) (decimals : UInt8)
    (symbol : Option String) (feeToken feeAmount : String) (nonce : Option UInt64) :
    Except String Bytes :=
  bridgeOutMessage (options.values decimals symbol feeToken feeAmount nonce)

/-! ## The messages are read back -/

/-- The token is the one the text says: the mint with that address, or else the symbol. -/
def Names (text : String) (token : SymbolOrMint) : Prop :=
  token.text = text ∧ ∀ mint : Pubkey, mint.toString = text → token = .mint mint

theorem names_fromStr (text : String) : Names text (SymbolOrMint.fromStr text) := by
  refine ⟨SymbolOrMint.text_fromStr text, ?_⟩
  rintro mint rfl
  exact SymbolOrMint.fromStr_mint mint

theorem parseSymbolOrMint_utf8 (text : String) :
    parseSymbolOrMint (utf8 text) = some (SymbolOrMint.fromStr text) := by
  rw [parseSymbolOrMint, parseStr, ofUtf8?_utf8, Option.bind_some]

theorem parseStr_pubkey (key : Pubkey) : parseStr Pubkey.fromStr (utf8 key.toString) = some key := by
  rw [parseStr, ofUtf8?_utf8, Option.bind_some, Pubkey.fromStr_toString]

theorem parseU64_repr {n : Nat} (h : n < 2 ^ 64) : parseU64 (utf8 n.repr) = some (UInt64.ofNat n) := by
  rw [parseU64, parseUnsigned_repr h, Option.map_some]

theorem singleLine_repr (n : Nat) : SingleLine n.repr := by
  refine singleLine_of_digits fun c hc => Or.inl ?_
  rw [Nat.repr_eq_ofList_toDigits, String.toList_ofList] at hc
  exact Nat.isDigit_of_mem_toDigits (by decide) (by decide) hc

/-- The line of the version. -/
theorem versionLine_entry {s : String} (hline : SingleLine s)
    (hs : parseStr Version.fromStr (utf8 s) = some ⟨0, 2⟩) (rest : Bytes) :
    versionLine (entryBytes "version" s ++ rest) = some (⟨0, 2⟩, rest) :=
  verify_eq_some.2 ⟨tagKeyValue_entry hline hs rest, by decide⟩

/-- The texts are on one line. -/
structure TransferValues.SingleLines (values : TransferValues) : Prop where
  chainId : SingleLine values.chainId
  token : SingleLine values.token
  amount : SingleLine values.amount
  feeToken : SingleLine values.feeToken
  feeAmount : SingleLine values.feeAmount

structure BridgeOutValues.SingleLines (values : BridgeOutValues) : Prop where
  fromChainId : SingleLine values.fromChainId
  toChainId : SingleLine values.toChainId
  token : SingleLine values.token
  amount : SingleLine values.amount
  recipientAddress : SingleLine values.recipientAddress
  feeToken : SingleLine values.feeToken
  feeAmount : SingleLine values.feeAmount

theorem singleLine_amountToString (amount : UInt64) (decimals : UInt8) :
    SingleLine (amountToString amount decimals) :=
  singleLine_of_digits fun _ hc => mem_amountToString hc

/-- A symbol without a line break, or the mint in its place. -/
theorem singleLine_symbol_or_mint {symbol : Option String} (h : ∀ s ∈ symbol, SingleLine s)
    (mint : Pubkey) : SingleLine (symbol.getD mint.toString) := by
  cases symbol with
  | none => exact singleLine_toString mint
  | some symbol => exact h symbol rfl

section

variable {symbol : Option String} {feeToken feeAmount : String}

theorem SendTransferOptions.singleLines {options : SendTransferOptions}
    (hchain : SingleLine options.chainId) (hsymbol : ∀ s ∈ symbol, SingleLine s)
    (hfeeToken : SingleLine feeToken) (hfeeAmount : SingleLine feeAmount) (decimals : UInt8)
    (nonce : Option UInt64) :
    (options.values decimals symbol feeToken feeAmount nonce).SingleLines :=
  ⟨hchain, singleLine_symbol_or_mint hsymbol options.mint,
    singleLine_amountToString options.amount decimals, hfeeToken, hfeeAmount⟩

theorem SendNativeTransferOptions.singleLines {options : SendNativeTransferOptions}
    (hchain : SingleLine options.chainId) (hfeeToken : SingleLine feeToken)
    (hfeeAmount : SingleLine feeAmount) (nonce : Option UInt64) :
    (options.values feeToken feeAmount nonce).SingleLines := by
  have htoken : SingleLine "FOGO" := by decide
  exact ⟨hchain, htoken, singleLine_amountToString options.amount fogoDecimals, hfeeToken,
    hfeeAmount⟩

theorem SendBridgeOutOptions.singleLines {options : SendBridgeOutOptions}
    (hchain : SingleLine options.chainId) (hsymbol : ∀ s ∈ symbol, SingleLine s)
    (hfeeToken : SingleLine feeToken) (hfeeAmount : SingleLine feeAmount) (decimals : UInt8)
    (nonce : Option UInt64) :
    (options.values decimals symbol feeToken feeAmount nonce).SingleLines := by
  have hto : SingleLine "solana" := by decide
  exact ⟨hchain, hto, singleLine_symbol_or_mint hsymbol options.fromTokenMint,
    singleLine_amountToString options.amount decimals, singleLine_toString options.walletPublicKey,
    hfeeToken, hfeeAmount⟩

end

theorem tryFrom_transferMessage {values : TransferValues} (h : values.SingleLines)
    (hnonce : values.nonce < 2 ^ 64) :
    ∃ bytes, transferMessage values = .ok bytes ∧
      Message.tryFrom bytes = .ok
        { version := ⟨0, 2⟩, chainId := values.chainId
          symbolOrMint := .fromStr values.token, amount := values.amount
          recipient := values.recipient, feeAmount := values.feeAmount
          feeSymbolOrMint := .fromStr values.feeToken, nonce := .ofNat values.nonce } := by
  refine ⟨_, buildIntentMessage_none _ (List.cons_ne_nil _ _), okOr_eq_ok.2 <|
    Option.map_eq_some_iff.2 ⟨(_, []), ?_, rfl⟩⟩
  have hversion : parseStr Version.fromStr
      (utf8 (currentIntentTransferMajor ++ "." ++ currentIntentTransferMinor)) = some ⟨0, 2⟩ := by
    decide +kernel
  simp only [messageV0, delimited_eq_some, bind_eq_some, pure_eq_some]
  refine ⟨_, _, preceded_tag_lineEnding messagePrefix _, [], ?_, [], eof_eq_some.2 ⟨rfl, rfl, rfl⟩⟩
  simp only [transferBody, List.flatMap_cons, List.flatMap_nil]
  exact ⟨_, _, versionLine_entry (by decide) hversion _,
    _, _, tagKeyValue_entry h.chainId (ofUtf8?_utf8 _) _,
    _, _, tagKeyValue_entry h.token (parseSymbolOrMint_utf8 _) _,
    _, _, tagKeyValue_entry h.amount (ofUtf8?_utf8 _) _,
    _, _, tagKeyValue_entry (singleLine_toString _) (parseStr_pubkey _) _,
    _, _, tagKeyValue_entry h.feeToken (parseSymbolOrMint_utf8 _) _,
    _, _, tagKeyValue_entry h.feeAmount (ofUtf8?_utf8 _) _,
    _, _, tagKeyValue_entry (singleLine_repr _) (parseU64_repr hnonce) _, rfl, rfl⟩

theorem tryFrom_bridgeOutMessage {values : BridgeOutValues} (h : values.SingleLines)
    (hnonce : values.nonce < 2 ^ 64) :
    ∃ bytes, bridgeOutMessage values = .ok bytes ∧
      BridgeMessage.tryFrom bytes = .ok (.ntt
        { version := ⟨0, 2⟩, fromChainId := values.fromChainId
          symbolOrMint := .fromStr values.token, amount := values.amount
          toChainId := values.toChainId, recipientAddress := values.recipientAddress
          feeAmount := values.feeAmount, feeSymbolOrMint := .fromStr values.feeToken
          nonce := .ofNat values.nonce }) := by
  refine ⟨_, buildIntentMessage_none _ (List.cons_ne_nil _ _), okOr_eq_ok.2 <|
    Option.map_eq_some_iff.2 ⟨(_, []), ?_, rfl⟩⟩
  have hversion : parseStr Version.fromStr
      (utf8 (currentBridgeOutMajor ++ "." ++ currentBridgeOutMinor)) = some ⟨0, 2⟩ := by
    decide +kernel
  simp only [messageNtt, delimited_eq_some, bind_eq_some, pure_eq_some]
  refine ⟨_, _, preceded_tag_lineEnding bridgeMessagePrefix _, [], ?_, [],
    eof_eq_some.2 ⟨rfl, rfl, rfl⟩⟩
  simp only [bridgeOutBody, List.flatMap_cons, List.flatMap_nil]
  exact ⟨_, _, versionLine_entry (by decide) hversion _,
    _, _, tagKeyValue_entry h.fromChainId (ofUtf8?_utf8 _) _,
    _, _, tagKeyValue_entry h.toChainId (ofUtf8?_utf8 _) _,
    _, _, tagKeyValue_entry h.token (parseSymbolOrMint_utf8 _) _,
    _, _, tagKeyValue_entry h.amount (ofUtf8?_utf8 _) _,
    _, _, tagKeyValue_entry h.recipientAddress (ofUtf8?_utf8 _) _,
    _, _, tagKeyValue_entry h.feeToken (parseSymbolOrMint_utf8 _) _,
    _, _, tagKeyValue_entry h.feeAmount (ofUtf8?_utf8 _) _,
    _, _, tagKeyValue_entry (singleLine_repr _) (parseU64_repr hnonce) _, rfl, rfl⟩

/-- The message holds the values, each in its own role. -/
structure TransferValues.ReadAs (values : TransferValues) (m : Message) : Prop where
  version : m.version = ⟨0, 2⟩
  chainId : m.chainId = values.chainId
  token : Names values.token m.symbolOrMint
  amount : m.amount = values.amount
  recipient : m.recipient = values.recipient
  feeToken : Names values.feeToken m.feeSymbolOrMint
  feeAmount : m.feeAmount = values.feeAmount
  nonce : m.nonce.toNat = values.nonce

structure BridgeOutValues.ReadAs (values : BridgeOutValues) (m : NttMessage) : Prop where
  version : m.version = ⟨0, 2⟩
  fromChainId : m.fromChainId = values.fromChainId
  toChainId : m.toChainId = values.toChainId
  token : Names values.token m.symbolOrMint
  amount : m.amount = values.amount
  recipientAddress : m.recipientAddress = values.recipientAddress
  feeToken : Names values.feeToken m.feeSymbolOrMint
  feeAmount : m.feeAmount = values.feeAmount
  nonce : m.nonce.toNat = values.nonce

/-- **The round trip of the transfer intents**: the messages of transfers (native or not) and of
    bridge transfers are accepted and hold the values they were built from. -/
theorem transferIntents_readBack :
    (∀ values : TransferValues, values.SingleLines → values.nonce < 2 ^ 64 →
      ∃ bytes m, transferMessage values = .ok bytes ∧ Message.tryFrom bytes = .ok m ∧
        values.ReadAs m) ∧
    (∀ values : BridgeOutValues, values.SingleLines → values.nonce < 2 ^ 64 →
      ∃ bytes m, bridgeOutMessage values = .ok bytes ∧
        BridgeMessage.tryFrom bytes = .ok (.ntt m) ∧ values.ReadAs m) := by
  constructor
  · intro values h hnonce
    obtain ⟨bytes, hbytes, hm⟩ := tryFrom_transferMessage h hnonce
    exact ⟨bytes, _, hbytes, hm, rfl, rfl, names_fromStr _, rfl, rfl, names_fromStr _, rfl,
      UInt64.toNat_ofNat_of_lt hnonce⟩
  · intro values h hnonce
    obtain ⟨bytes, hbytes, hm⟩ := tryFrom_bridgeOutMessage h hnonce
    exact ⟨bytes, _, hbytes, hm, rfl, rfl, rfl, names_fromStr _, rfl, rfl, names_fromStr _, rfl,
      UInt64.toNat_ofNat_of_lt hnonce⟩

/-- A transfer of the native token is for the token `FOGO`, in units of nine decimals. -/
theorem buildNativeTransferIntentMessage_readBack {options : SendNativeTransferOptions}
    {feeToken feeAmount : String} {nonce : Option UInt64} (hchain : SingleLine options.chainId)
    (hfeeToken : SingleLine feeToken) (hfeeAmount : SingleLine feeAmount)
    (hnonce : nextNonce nonce < 2 ^ 64) :
    ∃ bytes m, buildNativeTransferIntentMessage options feeToken feeAmount nonce = .ok bytes ∧
      Message.tryFrom bytes = .ok m ∧ m.symbolOrMint = .symbol "FOGO" ∧
      m.amount = amountToString options.amount fogoDecimals ∧
      m.recipient = options.recipient ∧ m.nonce.toNat = nextNonce nonce := by
  have hlines := SendNativeTransferOptions.singleLines hchain hfeeToken hfeeAmount nonce
  obtain ⟨bytes, hbytes, hm⟩ := tryFrom_transferMessage hlines hnonce
  have htoken : (options.values feeToken feeAmount nonce).token = "FOGO" := rfl
  have hsymbol : SymbolOrMint.fromStr (options.values feeToken feeAmount nonce).token =
      .symbol "FOGO" := by
    rw [htoken]
    decide +kernel
  exact ⟨bytes, _, hbytes, hm, hsymbol, rfl, rfl, UInt64.toNat_ofNat_of_lt hnonce⟩

theorem transferIntents_readBack_sample :
    let recipient : Pubkey := .ofNat 1
    (∃ bytes m,
      buildTransferIntentMessage ⟨"fogo", .ofNat 2, 1500000, recipient⟩ 6 none "USDC" "0.1" none =
        .ok bytes ∧ Message.tryFrom bytes = .ok m ∧ m.symbolOrMint = .mint (.ofNat 2) ∧
        m.amount = "1.5" ∧ m.feeAmount = "0.1" ∧ m.nonce.toNat = 1) ∧
    (∃ bytes m,
      buildBridgeOutIntentMessage ⟨"fogo", recipient, .ofNat 2, 7⟩ 0 (some "USDC") "FOGO" "0.2"
        (some 41) = .ok bytes ∧ BridgeMessage.tryFrom bytes = .ok (.ntt m) ∧
        m.toChainId = "solana" ∧ m.recipientAddress = recipient.toString ∧ m.nonce.toNat = 42) := by
  intro recipient
  have hline : SingleLine "fogo" ∧ SingleLine "USDC" ∧ SingleLine "FOGO" ∧ SingleLine "0.1" ∧
      SingleLine "0.2" := by decide
  have hamount : amountToString 1500000 6 = "1.5" := by decide +kernel
  obtain ⟨hfogo, husdc, htoken, hfee, hfee'⟩ := hline
  constructor
  · obtain ⟨bytes, m, hbytes, hm, hread⟩ := transferIntents_readBack.1
      (SendTransferOptions.values ⟨"fogo", .ofNat 2, 1500000, recipient⟩ 6 none "USDC" "0.1" none)
      (SendTransferOptions.singleLines hfogo (by simp) husdc hfee 6 none) (by decide)
    have hm' : m.amount = "1.5" := by
      rw [hread.amount, SendTransferOptions.values, hamount]
    exact ⟨bytes, m, hbytes, hm, hread.token.2 _ rfl, hm', hread.feeAmount, hread.nonce⟩
  · have hsymbol : ∀ s ∈ some "USDC", SingleLine s := by simpa using husdc
    obtain ⟨bytes, m, hbytes, hm, hread⟩ := transferIntents_readBack.2
      (SendBridgeOutOptions.values ⟨"fogo", recipient, .ofNat 2, 7⟩ 0 (some "USDC") "FOGO" "0.2"
        (some 41))
      (SendBridgeOutOptions.singleLines hfogo hsymbol htoken hfee' 0 (some 41)) (by decide)
    exact ⟨bytes, m, hbytes, hm, hread.toChainId, hread.recipientAddress, hread.nonce⟩

end FogoSessions.SdkTs
