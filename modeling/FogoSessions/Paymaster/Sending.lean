import FogoSessions.Lib.Calls
import FogoSessions.Paymaster.Swap

/-!
# Sending a transaction

`rpc.rs`: a signed transaction goes to the RPC node, whose websocket then tells what became of it, or
to the FTL service, which does both. What the node, the websocket and the service answer is theirs.
-/

namespace FogoSessions.Paymaster

open Lib Solana

/-- The reply to a request that failed: the HTTP status and the text. -/
structure ErrorResponse where
  status : Nat
  message : String
deriving DecidableEq

def StatusCode.code : StatusCode → Nat
  | badRequest => 400
  | notFound => 404
  | internalServerError => 500
  | badGateway => 502
  | serviceUnavailable => 503

def ErrorReply.response (e : ErrorReply) : ErrorResponse := ⟨e.status.code, e.message⟩

def badGateway (message : String) : ErrorResponse := ⟨502, message⟩

/-- A signature is shown in base58. -/
def signatureText (signature : Signature) : String := Base58.encode signature.bytes

inductive ParseSignatureError where
  | wrongSize
  | invalid
deriving DecidableEq

def ParseSignatureError.text : ParseSignatureError → String
  | wrongSize => "string decoded to wrong size for signature"
  | invalid => "failed to decode string to signature"

/-- `Signature::from_str`: base58 text denoting exactly 64 bytes. A text that is too long for them is
    of the wrong size whatever its characters are. -/
def signatureFromStr (s : String) : Except ParseSignatureError Signature :=
  match Base58.decode s with
  | some bytes => okOr (FixedBytes.ofBytes? bytes) .wrongSize
  | none => .error (if 88 < s.utf8ByteSize then .wrongSize else .invalid)

theorem signatureFromStr_signatureText (signature : Signature) :
    signatureFromStr (signatureText signature) = .ok signature := by
  rw [signatureFromStr, signatureText, Base58.decode_encode]
  exact okOr_eq_ok.2 (FixedBytes.ofBytes?_bytes signature)

/-- A `VersionedTransaction` whose first signature slot is the fee payer's signature. -/
structure SignedVersionedTransaction where
  transaction : VersionedTransaction
  nonempty : transaction.signatures ≠ []

namespace SignedVersionedTransaction

def new (transaction : VersionedTransaction) (signature : Signature) :
    Except ErrorReply SignedVersionedTransaction :=
  match transaction.signatures with
  | [] => .error (badRequest "Transaction must have at least one signature slot")
  | _ :: signatures =>
    .ok ⟨{ transaction with signatures := signature :: signatures }, List.cons_ne_nil _ _⟩

def signature (self : SignedVersionedTransaction) : Signature :=
  self.transaction.signatures.head self.nonempty

end SignedVersionedTransaction

inductive CommitmentLevel where
  | processed
  | confirmed
  | finalized
deriving DecidableEq

inductive UiTransactionEncoding where
  | base58
  | base64
deriving DecidableEq

/-- The fields of `RpcSendTransactionConfig` that are set. -/
structure RpcSendTransactionConfig where
  skipPreflight : Bool
  preflightCommitment : Option CommitmentLevel
  encoding : Option UiTransactionEncoding
deriving DecidableEq

/-- How the RPC client fails: `ErrorKind`, as far as it is told apart. An `RpcError` may have the
    transaction error of a failed simulation. -/
inductive ErrorKind where
  | rpcError (simulation : Option String)
  | transactionError (error : String)
  | other
deriving DecidableEq

/-- `client_error::Error`, with its text. -/
structure ClientError where
  kind : ErrorKind
  text : String
deriving DecidableEq

/-- `get_transaction_error`. -/
def ClientError.transactionError? (err : ClientError) : Option String :=
  match err.kind with
  | .rpcError simulation => simulation
  | .transactionError error => some error
  | .other => none

def toErrorResponse (err : ClientError) : ErrorResponse :=
  badGateway s!"Failed SVM RPC call: {err.text}"

/-- The result of a transaction, as the websocket notifies it. -/
inductive RpcSignatureResult where
  | processedSignature (err : Option String)
  | receivedSignature
deriving DecidableEq

/-- What a subscription's stream yields within the timeout, and why it is not waited for longer. -/
structure Notifications where
  responses : List RpcSignatureResult
  timeout : Bool
deriving DecidableEq

/-- The parameters of the FTL service's `sendTransaction`. -/
structure FtlParams where
  txBase64 : String
  config : RpcSendTransactionConfig
  confirm : Bool
deriving DecidableEq

inductive SendOp where
  | rpcSendTransaction (transaction : SignedVersionedTransaction) (config : RpcSendTransactionConfig)
  | ftlSendTransaction (params : FtlParams)
  /-- `pubsub.client.load()` -/
  | loadClient
  | signatureSubscribe (client : Nat) (signature : Signature)
  | reconnectPubsub
  | stream (subscription : Nat)
  | unsubscribe (subscription : Nat)

@[reducible] def SendAns : SendOp → Type
  | .rpcSendTransaction _ _ => Except ClientError Signature
  | .ftlSendTransaction _ => Except ClientError String
  | .loadClient => Nat
  | .signatureSubscribe _ _ => Except Unit Nat
  | .reconnectPubsub => Except ErrorResponse Unit
  | .stream _ => Notifications
  | .unsubscribe _ => Unit

/-- A step of sending; it may reply with an error. -/
abbrev Sender (α : Type) := Task SendOp SendAns (Fault ErrorResponse) α

def Sender.fail {α : Type} (e : ErrorResponse) : Sender α := .lift (.error (.err e))

/-! ## Confirmation -/

/-- The first processed notification ends the wait. -/
def processed? (responses : List RpcSignatureResult) : Option (Option String) :=
  responses.findSome? fun
    | .processedSignature err => some err
    | .receivedSignature => none

/-- What waiting for the stream comes to. -/
def waitResult (notifications : Notifications) : Except ErrorResponse (Option String) :=
  match processed? notifications.responses with
  | some err => .ok err
  | none =>
    if notifications.timeout then .error ⟨504, "Unable to confirm transaction"⟩
    else .error (badGateway "Signature subscription stream ended unexpectedly")

/-- One try, and what to do when the subscription fails. -/
def subscribeOr (otherwise : Sender (Option String)) (signature : Signature) :
    Sender (Option String) := do
  let client ← .perform .loadClient
  let subscribeResult ← .perform (.signatureSubscribe client signature)
  match (subscribeResult : Except Unit Nat) with
  | .ok subscription => do
    let notifications ← .perform (.stream subscription)
    let _ ← .perform (.unsubscribe subscription)
    .lift (mapErr .err (waitResult notifications))
  | .error _ => otherwise

/-- `subscribe_and_wait_for_signature`, without reconnecting. -/
def subscribeOnce (signature : Signature) : Sender (Option String) :=
  subscribeOr (.fail (badGateway "Failed to subscribe to signature")) signature

/-- Waits for the transaction to be processed; when the subscription fails it reconnects and calls
    itself, with `reconnect` false. -/
def subscribeAndWaitForSignature (signature : Signature) (reconnect : Bool) :
    Sender (Option String) :=
  if reconnect then
    subscribeOr (do
      let reconnected ← .perform .reconnectPubsub
      .lift (mapErr .err reconnected)
      subscribeOnce signature) signature
  else subscribeOnce signature

def confirmTransaction (signature : Signature) : Sender ConfirmationResultInternal := do
  let signatureResult ← Task.mapError (fun
    | .err e => .err { e with
        message := s!"Failed to confirm transaction {signatureText signature}: {e.message}" }
    | .panic => .panic) (subscribeAndWaitForSignature signature true)
  match signatureResult with
  | some err => return .failed signature err
  | none => return .success signature

/-! ## The two ways to send -/

/-- Third-party code that sending relies on. -/
class Wire where
  /-- `bincode::serde::encode_to_vec` -/
  encodeTransaction : VersionedTransaction → Option Bytes
  encodeBase64 : Bytes → String

def sendAndConfirmTransaction (transaction : SignedVersionedTransaction)
    (config : RpcSendTransactionConfig) : Sender ConfirmationResultInternal := do
  let sent ← .perform (.rpcSendTransaction transaction config)
  match (sent : Except ClientError Signature) with
  | .ok signature => confirmTransaction signature
  | .error err =>
    match err.transactionError? with
    | some error => return .unconfirmedPreflightFailure transaction.signature error
    | none => .fail (toErrorResponse err)

section

variable [Wire]

/-- The parameters of a request to the FTL service, which is to confirm the transaction. -/
def ftlParams (transaction : SignedVersionedTransaction) (config : RpcSendTransactionConfig) :
    Except ErrorResponse FtlParams := do
  let txBytes ← okOr (Wire.encodeTransaction transaction.transaction)
    ⟨500, "Failed to serialize transaction"⟩
  return {
    txBase64 := Wire.encodeBase64 txBytes
    config := { config with
      encoding := some (config.encoding.getD .base64)
      preflightCommitment := some (config.preflightCommitment.getD .finalized) }
    confirm := true }

def sendAndConfirmTransactionFtl (transaction : SignedVersionedTransaction)
    (config : RpcSendTransactionConfig) : Sender ConfirmationResultInternal := do
  let params ← .lift (mapErr .err (ftlParams transaction config))
  let sent ← .perform (.ftlSendTransaction params)
  match (sent : Except ClientError String) with
  | .ok text => do
    let signature ← .lift (mapErr
      (fun e => .err (badGateway s!"Failed to parse signature: {e.text}")) (signatureFromStr text))
    return .success signature
  | .error err =>
    match err.transactionError? with
    | some error =>
      match err.kind with
      | .rpcError _ => return .unconfirmedPreflightFailure transaction.signature error
      | _ => return .failed transaction.signature error
    | none => .fail (toErrorResponse err)

end

end FogoSessions.Paymaster
