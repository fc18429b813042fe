import FogoSessions.Intents.KeyValue
import FogoSessions.Lib.Result

/-!
# The transfer intents

`intent-transfer/src/intrachain/message.rs` and `bridge/message.rs`: the texts a user signs to
transfer tokens and to bridge them out.
-/

namespace FogoSessions.IntentTransfer

open Lib Solana Intents Parser

/-- `ParseTo<SymbolOrMint>`: every text is one or the other. -/
def parseSymbolOrMint : Bytes → Option SymbolOrMint :=
  parseStr fun s => some (SymbolOrMint.fromStr s)

/-- The version with which a message starts. -/
def versionLine : Parser Version :=
  verify (tagKeyValue "version" (parseStr Version.fromStr)) fun version =>
    version.major = 0 ∧ version.minor = 2

/-! ## Transfers -/

/-- `MESSAGE_PREFIX`. -/
def messagePrefix : Bytes :=
  utf8 "Fogo Transfer:\nSigning this intent will transfer the tokens as described below.\n"

structure Message where
  version : Version
  chainId : String
  symbolOrMint : SymbolOrMint
  amount : String
  recipient : Pubkey
  feeAmount : String
  feeSymbolOrMint : SymbolOrMint
  nonce : UInt64
deriving DecidableEq

def messageV0 : Parser Message :=
  delimited (preceded (tag messagePrefix) lineEnding)
    (do
      let version ← versionLine
      let chainId ← tagKeyValue "chain_id" ofUtf8?
      let symbolOrMint ← tagKeyValue "token" parseSymbolOrMint
      let amount ← tagKeyValue "amount" ofUtf8?
      let recipient ← tagKeyValue "recipient" (parseStr Pubkey.fromStr)
      let feeSymbolOrMint ← tagKeyValue "fee_token" parseSymbolOrMint
      let feeAmount ← tagKeyValue "fee_amount" ofUtf8?
      let nonce ← tagKeyValue "nonce" parseU64
      return {
        version, chainId, symbolOrMint, amount, recipient, feeAmount, feeSymbolOrMint, nonce })
    eof

/-- `TryFrom<Vec<u8>>`; which parse error it is makes no difference. -/
def Message.tryFrom (message : Bytes) : Except Unit Message :=
  okOr ((messageV0 message).map Prod.fst) ⟨⟩

/-! ## Bridge transfers -/

/-- `BRIDGE_MESSAGE_PREFIX`. -/
def bridgeMessagePrefix : Bytes :=
  utf8 "Fogo Bridge Transfer:\nSigning this intent will bridge out the tokens as described below.\n"

structure NttMessage where
  version : Version
  fromChainId : String
  symbolOrMint : SymbolOrMint
  amount : String
  toChainId : String
  recipientAddress : String
  feeAmount : String
  feeSymbolOrMint : SymbolOrMint
  nonce : UInt64
deriving DecidableEq

inductive BridgeMessage where
  | ntt (message : NttMessage)
deriving DecidableEq

def messageNtt : Parser NttMessage :=
  delimited (preceded (tag bridgeMessagePrefix) lineEnding)
    (do
      let version ← versionLine
      let fromChainId ← tagKeyValue "from_chain_id" ofUtf8?
      let toChainId ← tagKeyValue "to_chain_id" ofUtf8?
      let symbolOrMint ← tagKeyValue "token" parseSymbolOrMint
      let amount ← tagKeyValue "amount" ofUtf8?
      let recipientAddress ← tagKeyValue "recipient_address" ofUtf8?
      let feeSymbolOrMint ← tagKeyValue "fee_token" parseSymbolOrMint
      let feeAmount ← tagKeyValue "fee_amount" ofUtf8?
      let nonce ← tagKeyValue "nonce" parseU64
      return {
        version, fromChainId, symbolOrMint, amount, toChainId, recipientAddress, feeAmount,
        feeSymbolOrMint, nonce })
    eof

def BridgeMessage.tryFrom (message : Bytes) : Except Unit BridgeMessage :=
  okOr ((messageNtt message).map fun (message, _) => .ntt message) ⟨⟩

end FogoSessions.IntentTransfer
