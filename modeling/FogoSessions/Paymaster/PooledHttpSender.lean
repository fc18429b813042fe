import FogoSessions.Lib.Json
import FogoSessions.Lib.Parser
import FogoSessions.Paymaster.Delivery

/-!
# The pooled HTTP sender

`pooled_http_sender.rs`: how a JSON-RPC request reaches the RPC node or the FTL service. One of the
clients of the pool posts it, again when the server had too many requests, and the reply is read as a
result or as one of the errors that tell what became of a transaction.
-/

namespace FogoSessions.Paymaster

open Lib Solana

/-! ## Errors -/

/-- `RpcResponseErrorData`; a failed preflight has the error of the simulation. -/
inductive RpcResponseErrorData where
  | empty
  | sendTransactionPreflightFailure (err : Option String)
  | nodeUnhealthy (numSlotsBehind : Option UInt64)
deriving DecidableEq

inductive SendError where
  /-- the request got no response, or one whose body is no JSON -/
  | reqwest (text : String)
  /-- the response has the status of an error -/
  | status (code : Nat)
  /-- the error object cannot be read -/
  | rpcRequestError
  | rpcResponseError (code : Int) (message : String) (data : RpcResponseErrorData)
  | transactionError (err : String)
  /-- the result is not of the expected type -/
  | serdeJson
deriving DecidableEq

/-- Third-party decoders of what the servers reply, and the texts of the errors. -/
class RpcTypes where
  /-- `RpcSimulateTransactionResult`, to its transaction error -/
  simulateTransactionResult : Json → Option (Option String)
  /-- `NodeUnhealthyErrorData` -/
  nodeUnhealthyErrorData : Json → Option (Option UInt64)
  /-- `TransactionError` -/
  transactionError : Json → Option String
  display : SendError → String

/-- What the RPC client makes of the error. -/
def SendError.kind : SendError → ErrorKind
  | reqwest _ | status _ | serdeJson => .other
  | rpcRequestError => .rpcError none
  | rpcResponseError _ _ (.sendTransactionPreflightFailure err) => .rpcError err
  | rpcResponseError _ _ _ => .rpcError none
  | transactionError err => .transactionError err

def SendError.clientError [RpcTypes] (e : SendError) : ClientError := ⟨e.kind, RpcTypes.display e⟩

/-! ## The reply -/

/-- `json[name]`: `null` when there is no such field. -/
def field (name : String) : Json → Json
  | .object fields => (fields.lookup name).getD .null
  | _ => .null

def isObject : Json → Bool
  | .object _ => true
  | _ => false

structure RpcErrorObject where
  code : Int
  message : String

/-- An `i64`. -/
def i64? : Json → Option Int
  | .number n => if -2 ^ 63 ≤ n ∧ n < 2 ^ 63 then some n else none
  | _ => none

def RpcErrorObject.deserialize (json : Json) : Option RpcErrorObject := do
  let fields ← Json.fields? ["code", "message"] json
  return {
    code := ← Json.required fields "code" i64?
    message := ← Json.required fields "message" Json.string? }

/-- `JSON_RPC_SERVER_ERROR_SEND_TRANSACTION_PREFLIGHT_FAILURE`. -/
def sendTransactionPreflightFailure : Int := -32002

/-- `JSON_RPC_SERVER_ERROR_NODE_UNHEALTHY`. -/
def nodeUnhealthy : Int := -32005

/-- `TRANSACTION_CONFIRMED_FAILED`. -/
def transactionConfirmedFailed : Int := -32604

section

variable [RpcTypes]

/-- `RpcTransactionFailedResult`, to its error. -/
def transactionFailedResult (json : Json) : Option String := do
  let fields ← Json.fields? ["err"] json
  Json.required fields "err" RpcTypes.transactionError

/-- The error of a reply with this error object. -/
def classifyError (error : Json) : SendError :=
  match RpcErrorObject.deserialize error with
  | none => .rpcRequestError
  | some ⟨code, message⟩ =>
    let data := field "data" error
    if code = sendTransactionPreflightFailure then
      match RpcTypes.simulateTransactionResult data with
      | some err => .rpcResponseError code message (.sendTransactionPreflightFailure err)
      | none => .rpcResponseError code message .empty
    else if code = nodeUnhealthy then
      match RpcTypes.nodeUnhealthyErrorData data with
      | some numSlotsBehind => .rpcResponseError code message (.nodeUnhealthy numSlotsBehind)
      | none => .rpcResponseError code message .empty
    else if code = transactionConfirmedFailed then
      match transactionFailedResult data with
      | some err => .transactionError err
      | none => .rpcResponseError code message .empty
    else .rpcResponseError code message .empty

/-- The result in a reply. Taking it out of a value that has no fields panics. -/
def readReply (json : Json) : Outcome ErrorResponse (Except SendError Json) :=
  if isObject (field "error" json) then .ok (.error (classifyError (field "error" json)))
  else
    match json with
    | .object _ | .null => .ok (.ok (field "result" json))
    | _ => .error .panic

end

/-! ## Posting -/

structure HttpResponse where
  status : Nat
  /-- the header, if it is text -/
  retryAfter : Option String
  /-- the body, read as JSON -/
  json : Except String Json

namespace HttpResponse

def isSuccess (response : HttpResponse) : Bool := 200 ≤ response.status ∧ response.status < 300

def tooManyRequests (response : HttpResponse) : Bool := response.status = 429

/-- How long to wait, in milliseconds. -/
def delay (response : HttpResponse) : Nat :=
  match response.retryAfter.bind fun text => parseUnsigned 64 (utf8 text) with
  | some retryAfter => if retryAfter < 120 then 1000 * retryAfter else 500
  | none => 500

/-- `error_for_status().unwrap_err()`: only the statuses from 400 to 599 are errors. -/
def errorForStatus (response : HttpResponse) : Outcome ErrorResponse (Except SendError Json) :=
  if 400 ≤ response.status ∧ response.status < 600 then
    .ok (.error (.status response.status))
  else .error .panic

/-- What a response is read as, unless it is retried. -/
def read [RpcTypes] (response : HttpResponse) : Outcome ErrorResponse (Except SendError Json) :=
  if response.isSuccess then
    match response.json with
    | .ok json => readReply json
    | .error text => .ok (.error (.reqwest text))
  else response.errorForStatus

end HttpResponse

inductive HttpOp where
  /-- `request_id.fetch_add(1)` -/
  | fetchAdd
  | post (client : Nat) (body : Json)
  | sleep (milliseconds : Nat)

@[reducible] def HttpAns : HttpOp → Type
  | .fetchAdd => Nat
  | .post _ _ => Except String HttpResponse
  | .sleep _ => Unit

abbrev Transport (α : Type) := Task HttpOp HttpAns (Fault ErrorResponse) α

/-- `build_request_json` -/
def buildRequestJson (id : Nat) (method : String) (params : Json) : Json :=
  .object [("jsonrpc", .string "2.0"), ("id", .ofNat id), ("method", .string method),
    ("params", params)]

section

variable [RpcTypes]

/-- What the sender makes of the last answer; no answer is an error of the client. -/
def readAnswer : Except String HttpResponse → Outcome ErrorResponse (Except SendError Json)
  | .ok response => response.read
  | .error text => .ok (.error (.reqwest text))

/-- The server is asked again later. -/
def retryAfter? : Except String HttpResponse → Option Nat
  | .ok response => if response.tooManyRequests then some response.delay else none
  | .error _ => none

/-- The loop, with the retries that are left. -/
def sendLoop (client : Nat) (body : Json) : Nat → Transport (Except SendError Json)
  | 0 => do
    let answer ← .perform (.post client body)
    .lift (readAnswer answer)
  | retries + 1 => do
    let answer ← .perform (.post client body)
    match retryAfter? answer with
    | some duration => do
      let _ ← .perform (.sleep duration)
      sendLoop client body retries
    | none => .lift (readAnswer answer)

/-- `send`, over a pool of so many clients. -/
def pooledSend (clients : Nat) (method : String) (params : Json) :
    Transport (Except SendError Json) := do
  let requestId ← .perform .fetchAdd
  if clients = 0 then .lift (.error .panic)
  else sendLoop (requestId % clients) (buildRequestJson requestId method params) 5

/-- The result as a text. -/
def resultText : Except SendError Json → Except ClientError String
  | .ok json => mapErr SendError.clientError (okOr json.string? .serdeJson)
  | .error e => .error e.clientError

/-- `RpcClient::send`, for a text. -/
def rpcSendText (clients : Nat) (method : String) (params : Json) :
    Transport (Except ClientError String) := do
  let result ← pooledSend clients method params
  return resultText result

end

/-! ## What is posted -/

/-- A post that is refused for too many requests, and the wait that the refusal asks for, if it asks
    for one. -/
def refusal (client : Nat) (body : Json) (response : HttpResponse) : List (Sigma HttpAns) :=
  [⟨.post client body, .ok response⟩, ⟨.sleep response.delay, ⟨⟩⟩]

/-- A body is posted until it is not refused, or there are no retries left; nothing is called but the
    posts and the waits between them. -/
structure Retried (client : Nat) (body : Json) (retries : Nat) (calls : List (Sigma HttpAns))
    (last : Except String HttpResponse) : Prop where
  intro ::
  exists_refused : ∃ refused : List HttpResponse,
    calls = refused.flatMap (refusal client body) ++ [⟨.post client body, last⟩] ∧
      (∀ response ∈ refused, response.tooManyRequests = true) ∧ refused.length ≤ retries ∧
      (retryAfter? last ≠ none → refused.length = retries)

theorem retryAfter?_eq_some {answer : Except String HttpResponse} {duration : Nat} :
    retryAfter? answer = some duration ↔ ∃ response, answer = .ok response ∧
      response.tooManyRequests = true ∧ response.delay = duration := by
  cases answer with
  | error text => simp [retryAfter?]
  | ok response => simp [retryAfter?]

section

variable [RpcTypes]

theorem sendLoop_performs {client : Nat} {body : Json} {retries : Nat}
    {calls : List (Sigma HttpAns)} {r : Outcome ErrorResponse (Except SendError Json)}
    (h : (sendLoop client body retries).Performs calls r) :
    ∃ last, Retried client body retries calls last ∧ r = readAnswer last := by
  induction retries generalizing calls with
  | zero =>
    obtain ⟨answer, rest, rfl, hrest⟩ := Task.performs_perform_bind h
    obtain ⟨rfl, rfl⟩ := Task.performs_lift hrest
    exact ⟨answer, ⟨[], rfl, List.forall_mem_nil _, Nat.le_refl 0, fun _ => rfl⟩, rfl⟩
  | succ retries ih =>
    obtain ⟨answer, rest, rfl, hrest⟩ := Task.performs_perform_bind h
    cases hretry : retryAfter? answer with
    | none =>
      simp only [hretry] at hrest
      obtain ⟨rfl, rfl⟩ := Task.performs_lift hrest
      exact ⟨answer,
        ⟨[], rfl, List.forall_mem_nil _, Nat.zero_le _, fun hne => absurd hretry hne⟩, rfl⟩
    | some duration =>
      simp only [hretry] at hrest
      obtain ⟨_, rest, rfl, hagain⟩ := Task.performs_perform_bind hrest
      obtain ⟨last, ⟨refused, rfl, hrefused, hlength, hlast⟩, rfl⟩ := ih hagain
      obtain ⟨response, rfl, htoomany, rfl⟩ := retryAfter?_eq_some.1 hretry
      refine ⟨last, ⟨response :: refused, rfl, ?_, Nat.succ_le_succ hlength, ?_⟩, rfl⟩
      · exact List.forall_mem_cons.2 ⟨htoomany, hrefused⟩
      · exact fun hne => congrArg (· + 1) (hlast hne)

end

/-! ## The FTL service over HTTP -/

def CommitmentLevel.text : CommitmentLevel → String
  | processed => "processed"
  | confirmed => "confirmed"
  | finalized => "finalized"

def UiTransactionEncoding.text : UiTransactionEncoding → String
  | base58 => "base58"
  | base64 => "base64"

/-- A missing value is written as `null`. -/
def nullable {α : Type} (text : α → String) : Option α → Json
  | some a => .string (text a)
  | none => .null

/-- `json!([tx_base64, config_value])` -/
def FtlParams.json (params : FtlParams) : Json :=
  .array [.string params.txBase64, .object [
    ("skipPreflight", .bool params.config.skipPreflight),
    ("preflightCommitment", nullable CommitmentLevel.text params.config.preflightCommitment),
    ("encoding", nullable UiTransactionEncoding.text params.config.encoding),
    ("maxRetries", .null), ("minContextSlot", .null), ("confirm", .bool params.confirm)]]

section

variable [RpcTypes] {transaction : SignedVersionedTransaction}

abbrev HttpSendAns : HttpOp ⊕ SendOp → Type := Sum.elim HttpAns SendAns

/-- Requests to the FTL service go through the pooled sender. -/
def overHttp (clients : Nat) (op : SendOp) :
    Task (HttpOp ⊕ SendOp) HttpSendAns (Fault ErrorResponse) (SendAns op) :=
  match op with
  | .ftlSendTransaction params =>
    (rpcSendText clients "sendTransaction" params.json).rename .inl fun _ x => x
  | op => .call (.inr op) fun x => .done (.ok x)

/-- What the FTL service's reply says of the transaction. -/
inductive Says (transaction : SignedVersionedTransaction) (json : Json) :
    ConfirmationResultInternal → Prop where
  | success {text : String} {signature : Signature} :
    isObject (field "error" json) = false → field "result" json = .string text →
      signatureFromStr text = .ok signature → Says transaction json (.success signature)
  | failed {message err : String} : isObject (field "error" json) = true →
    RpcErrorObject.deserialize (field "error" json) = some ⟨transactionConfirmedFailed, message⟩ →
      transactionFailedResult (field "data" (field "error" json)) = some err →
        Says transaction json (.failed transaction.signature err)
  | preflightFailure {message err : String} : isObject (field "error" json) = true →
    RpcErrorObject.deserialize (field "error" json) =
        some ⟨sendTransactionPreflightFailure, message⟩ →
      RpcTypes.simulateTransactionResult (field "data" (field "error" json)) = some (some err) →
        Says transaction json (.unconfirmedPreflightFailure transaction.signature err)

/-- What is replied to what the service answered. -/
def ftlReport (transaction : SignedVersionedTransaction) :
    Except SendError Json → Outcome ErrorResponse ConfirmationResultInternal
  | .ok json =>
    match json.string? with
    | some text =>
      mapErr (fun e => .err (badGateway s!"Failed to parse signature: {e.text}"))
        (ConfirmationResultInternal.success <$> signatureFromStr text)
    | none => .error (.err (toErrorResponse (SendError.clientError .serdeJson)))
  | .error (.transactionError err) => .ok (.failed transaction.signature err)
  | .error (.rpcResponseError _ _ (.sendTransactionPreflightFailure (some err))) =>
    .ok (.unconfirmedPreflightFailure transaction.signature err)
  | .error e => .error (.err (toErrorResponse e.clientError))

theorem classifyError_eq_transactionError {error : Json} {err : String} :
    classifyError error = .transactionError err ↔
      ∃ message, RpcErrorObject.deserialize error = some ⟨transactionConfirmedFailed, message⟩ ∧
        transactionFailedResult (field "data" error) = some err := by
  unfold classifyError
  cases hobject : RpcErrorObject.deserialize error with
  | none => simp
  | some object =>
    obtain ⟨code, message⟩ := object
    have hne : transactionConfirmedFailed ≠ sendTransactionPreflightFailure ∧
        transactionConfirmedFailed ≠ nodeUnhealthy := by decide
    simp only [Option.some.injEq, RpcErrorObject.mk.injEq]
    constructor
    · intro h
      split_ifs at h with hpreflight hunhealthy hfailed
      · split at h <;> cases h
      · split at h <;> cases h
      · cases hresult : transactionFailedResult (field "data" error) with
        | none =>
          rw [hresult] at h
          cases h
        | some err' =>
          rw [hresult] at h
          cases h
          exact ⟨message, ⟨hfailed, rfl⟩, rfl⟩
    · rintro ⟨_, ⟨rfl, rfl⟩, hresult⟩
      rw [if_neg hne.1, if_neg hne.2, if_pos rfl, hresult]

theorem classifyError_eq_preflightFailure {error : Json} {code : Int} {message err : String} :
    classifyError error =
        .rpcResponseError code message (.sendTransactionPreflightFailure (some err)) ↔
      code = sendTransactionPreflightFailure ∧
        RpcErrorObject.deserialize error = some ⟨code, message⟩ ∧
          RpcTypes.simulateTransactionResult (field "data" error) = some (some err) := by
  unfold classifyError
  cases hobject : RpcErrorObject.deserialize error with
  | none => simp
  | some object =>
    obtain ⟨code', message'⟩ := object
    simp only [Option.some.injEq, RpcErrorObject.mk.injEq]
    constructor
    · intro h
      split_ifs at h with hpreflight hunhealthy hfailed
      · cases hresult : RpcTypes.simulateTransactionResult (field "data" error) with
        | none =>
          rw [hresult] at h
          cases h
        | some err' =>
          rw [hresult] at h
          cases h
          exact ⟨hpreflight, ⟨rfl, rfl⟩, rfl⟩
      · split at h <;> cases h
      · split at h <;> cases h
      · cases h
    · rintro ⟨rfl, ⟨rfl, rfl⟩, hresult⟩
      rw [if_pos rfl, hresult]

theorem readReply_eq_error {json : Json} {e : SendError} :
    readReply json = .ok (.error e) ↔
      isObject (field "error" json) = true ∧ classifyError (field "error" json) = e := by
  unfold readReply
  cases isObject (field "error" json) with
  | true => simp
  | false =>
    simp only [Bool.false_eq_true, if_false, false_and, iff_false]
    split <;> simp

theorem readReply_eq_ok {json result : Json} :
    readReply json = .ok (.ok result) ↔ isObject (field "error" json) = false ∧
      ((∃ fields, json = .object fields) ∨ json = .null) ∧ field "result" json = result := by
  unfold readReply
  cases isObject (field "error" json) with
  | true => simp
  | false => cases json <;> simp

/-- The reply that is read is what the answer says. -/
theorem says_iff {json : Json} {verdict : ConfirmationResultInternal} :
    Says transaction json verdict ↔
      ∃ result, readReply json = .ok result ∧ ftlReport transaction result = .ok verdict := by
  constructor
  · intro h
    cases h with
    | @success text signature herror hresult hparse =>
      refine ⟨.ok (.string text), readReply_eq_ok.2 ⟨herror, ?_, hresult⟩, ?_⟩
      · cases json with
        | object fields => exact .inl ⟨fields, rfl⟩
        | null => exact .inr rfl
        | _ => cases hresult
      · change mapErr _ (_ <$> signatureFromStr text) = _
        rw [hparse]
        rfl
    | failed hobject herror hresult =>
      exact ⟨_, readReply_eq_error.2 ⟨hobject,
        classifyError_eq_transactionError.2 ⟨_, herror, hresult⟩⟩, rfl⟩
    | preflightFailure hobject herror hresult =>
      exact ⟨_, readReply_eq_error.2 ⟨hobject,
        classifyError_eq_preflightFailure.2 ⟨rfl, herror, hresult⟩⟩, rfl⟩
  · rintro ⟨result, hread, hreport⟩
    cases result with
    | ok result =>
      obtain ⟨herror, -, hresult⟩ := readReply_eq_ok.1 hread
      cases result with
      | string text =>
        obtain ⟨signature, hparse, rfl⟩ := map_eq_ok.1 (mapErr_eq_ok.1 hreport)
        exact .success herror hresult hparse
      | _ => cases hreport
    | error e =>
      obtain ⟨hobject, hclassify⟩ := readReply_eq_error.1 hread
      unfold ftlReport at hreport
      split at hreport
      next heq => cases heq
      next err heq =>
        cases heq
        cases hreport
        obtain ⟨message, herror, hresult⟩ := classifyError_eq_transactionError.1 hclassify
        exact .failed hobject herror hresult
      next code message err heq =>
        cases heq
        cases hreport
        obtain ⟨rfl, herror, hresult⟩ := classifyError_eq_preflightFailure.1 hclassify
        exact .preflightFailure hobject herror hresult
      · cases hreport

theorem pooledSend_performs {clients : Nat} {method : String} {params : Json}
    {calls : List (Sigma HttpAns)} {r : Outcome ErrorResponse (Except SendError Json)}
    (h : (pooledSend clients method params).Performs calls r) :
    ∃ id rest, calls = ⟨.fetchAdd, id⟩ :: rest ∧
      (clients = 0 ∧ rest = [] ∧ r = .error .panic ∨
        0 < clients ∧ ∃ last,
          Retried (id % clients) (buildRequestJson id method params) 5 rest last ∧
            r = readAnswer last) := by
  obtain ⟨id, rest, rfl, hrest⟩ := Task.performs_perform_bind h
  refine ⟨id, rest, rfl, ?_⟩
  split at hrest
  next hzero =>
    obtain ⟨rfl, rfl⟩ := Task.performs_lift hrest
    exact .inl ⟨hzero, rfl, rfl⟩
  next hpos => exact .inr ⟨Nat.pos_of_ne_zero hpos, sendLoop_performs hrest⟩

theorem rpcSendText_performs {clients : Nat} {method : String} {params : Json}
    {calls : List (Sigma HttpAns)} {r : Outcome ErrorResponse (Except ClientError String)}
    (h : (rpcSendText clients method params).Performs calls r) :
    ∃ r', (pooledSend clients method params).Performs calls r' ∧ r = resultText <$> r' := by
  obtain ⟨e, rfl, hfails⟩ | ⟨result, before, after, rfl, hresult, hend⟩ := h.of_bind
  · exact ⟨_, hfails, rfl⟩
  · obtain ⟨rfl, rfl⟩ := Task.performs_lift hend
    exact ⟨_, (List.append_nil before).symm ▸ hresult, rfl⟩

omit [RpcTypes] in
theorem eq_map_inl {http : List (Sigma HttpAns)} {calls : List (Sigma HttpSendAns)}
    (h : List.Forall₂ (fun x y => ∃ a : HttpSendAns (.inl x.1), y = ⟨.inl x.1, a⟩ ∧ a = x.2)
      http calls) : calls = http.map fun x => ⟨.inl x.1, x.2⟩ := by
  induction h with
  | nil => rfl
  | cons hxy _ ih =>
    obtain ⟨a, rfl, rfl⟩ := hxy
    rw [ih, List.map_cons]

/-- A run of the FTL path makes its one request, and replies what the answer is reported as. -/
theorem ftl_performs [Wire] {config : RpcSendTransactionConfig} {clients : Nat}
    {calls : List (Sigma HttpSendAns)} {r : Outcome ErrorResponse ConfirmationResultInternal}
    (h : ((sendAndConfirmTransactionFtl transaction config).handle (overHttp clients)).Performs
      calls r) :
    (∃ e, ftlParams transaction config = .error e ∧ calls = [] ∧ r = .error (.err e)) ∨
      ∃ params http r', ftlParams transaction config = .ok params ∧
        calls = http.map (fun x => ⟨.inl x.1, x.2⟩) ∧
        (pooledSend clients "sendTransaction" params.json).Performs http r' ∧
          r = r' >>= ftlReport transaction := by
  rw [sendAndConfirmTransactionFtl, Task.handle_lift_bind] at h
  cases hparams : ftlParams transaction config with
  | error e =>
    rw [hparams] at h
    obtain ⟨rfl, rfl⟩ := Task.performs_lift h
    exact .inl ⟨e, rfl, rfl, rfl⟩
  | ok params =>
    rw [hparams] at h
    refine .inr ⟨params, ?_⟩
    obtain ⟨e, rfl, hfails⟩ | ⟨answer, before, after, rfl, hanswer, hrest⟩ :=
      Task.Performs.of_bind (t := overHttp clients (.ftlSendTransaction params)) h
    · obtain ⟨http, hrun, hcalls⟩ := Task.Performs.of_rename hfails
      obtain ⟨r', hrun, hr'⟩ := rpcSendText_performs hrun
      refine ⟨http, r', rfl, eq_map_inl hcalls, hrun, ?_⟩
      cases r' with
      | ok result => cases hr'
      | error e' => exact congrArg Except.error (Except.error.inj hr')
    · obtain ⟨http, hrun, hcalls⟩ := Task.Performs.of_rename hanswer
      obtain ⟨r', hsent, hr'⟩ := rpcSendText_performs hrun
      obtain ⟨result, rfl, rfl⟩ := map_eq_ok.1 hr'.symm
      -- once the answer is there nothing more is called
      have hreply : (Task.lift (ftlReport transaction result)).Performs after r := by
        convert hrest using 1
        cases result with
        | ok json =>
          cases json with
          | string text =>
            change Task.lift (mapErr _ (_ <$> signatureFromStr text)) =
              Task.handle _ (Task.lift (mapErr _ (signatureFromStr text)) >>= _)
            cases signatureFromStr text <;> rfl
          | _ => rfl
        | error e =>
          cases e with
          | rpcResponseError code message data =>
            cases data with
            | sendTransactionPreflightFailure err => cases err <;> rfl
            | _ => rfl
          | _ => rfl
      obtain ⟨rfl, rfl⟩ := Task.performs_lift hreply
      exact ⟨http, _, rfl, (List.append_nil before).symm ▸ eq_map_inl hcalls, hsent, rfl⟩

/-- The last answer is a success that has a JSON value with `P`. -/
def Replied (last : Except String HttpResponse) (P : Json → Prop) : Prop :=
  ∃ response json, last = .ok response ∧ response.isSuccess = true ∧ response.json = .ok json ∧ P json

/-- The last answer is one that the sender cannot stand: a status that is neither a success nor an
    error, or a JSON value that is neither an object nor `null`. -/
def Crashing (last : Except String HttpResponse) : Prop :=
  (∃ response, last = .ok response ∧ response.isSuccess = false ∧
    ¬ (400 ≤ response.status ∧ response.status < 600)) ∨
  Replied last fun json => isObject json = false ∧ json ≠ .null

theorem readReply_eq_panic {json : Json} :
    readReply json = .error .panic ↔ isObject json = false ∧ json ≠ .null := by
  unfold readReply
  cases json with
  | object fields =>
    split <;> simp [isObject]
  | _ => simp [isObject, field]

theorem readAnswer_eq_panic {last : Except String HttpResponse} :
    readAnswer last = .error .panic ↔ Crashing last := by
  cases last with
  | error text => simp [readAnswer, Crashing, Replied]
  | ok response =>
    change response.read = _ ↔ _
    unfold HttpResponse.read HttpResponse.errorForStatus Crashing Replied
    cases hsuccess : response.isSuccess with
    | false =>
      by_cases hstatus : 400 ≤ response.status ∧ response.status < 600
      · simp [hsuccess, hstatus]
      · exact iff_of_true ((if_neg Bool.false_ne_true).trans (if_neg hstatus))
          (.inl ⟨response, rfl, hsuccess, hstatus⟩)
    | true =>
      cases hjson : response.json with
      | error text => simp [hsuccess, hjson]
      | ok json =>
        simp only [if_true]
        rw [readReply_eq_panic]
        simp [hsuccess, hjson]

/-- The verdict is what the last answer says. -/
theorem report_eq_ok {last : Except String HttpResponse} {verdict : ConfirmationResultInternal} :
    (readAnswer last >>= ftlReport transaction) = .ok verdict ↔
      Replied last (Says transaction · verdict) := by
  rw [bind_eq_ok]
  constructor
  · rintro ⟨result, hread, hreport⟩
    cases last with
    | error text =>
      cases hread
      cases hreport
    | ok response =>
      change response.read = _ at hread
      unfold HttpResponse.read HttpResponse.errorForStatus at hread
      split at hread
      next hsuccess =>
        split at hread
        next json hjson =>
          exact ⟨response, json, rfl, hsuccess, hjson, says_iff.2 ⟨_, hread, hreport⟩⟩
        · cases hread
          cases hreport
      · split at hread
        · cases hread
          cases hreport
        · cases hread
  · rintro ⟨response, json, rfl, hsuccess, hjson, hsays⟩
    obtain ⟨result, hread, hreport⟩ := says_iff.1 hsays
    refine ⟨result, ?_, hreport⟩
    change response.read = _
    rw [HttpResponse.read, if_pos hsuccess, hjson]
    exact hread

/-- Reporting does not panic. -/
theorem report_eq_panic {last : Except String HttpResponse} :
    (readAnswer last >>= ftlReport transaction) = .error .panic ↔ Crashing last := by
  rw [← readAnswer_eq_panic]
  cases hread : readAnswer last with
  | error e => simp [error_bind]
  | ok result =>
    have hreport : NoPanic (ftlReport transaction result) := by
      unfold ftlReport
      split
      · split
        · exact noPanic_mapErr
        · simp [NoPanic]
      all_goals simp [NoPanic]
    exact iff_of_false hreport (by simp)

/-- **What the FTL service says is what is reported.** However often the service is asked, it is asked
    with one body, by one client, and again only after it refused for too many requests and was given
    the time it asked for. The transaction is reported to have landed, to have failed or to have failed
    the preflight exactly when the service's last answer says so of it. -/
theorem ftl_verdict [Wire] {config : RpcSendTransactionConfig} {clients : Nat} (hclients : 0 < clients)
    {calls : List (Sigma HttpSendAns)} {r : Outcome ErrorResponse ConfirmationResultInternal}
    (h : ((sendAndConfirmTransactionFtl transaction config).handle (overHttp clients)).Performs
      calls r) :
    (∃ e, ftlParams transaction config = .error e ∧ calls = [] ∧ r = .error (.err e)) ∨
      ∃ params id http last, ftlParams transaction config = .ok params ∧
        calls = (⟨.fetchAdd, id⟩ :: http).map (fun x => ⟨.inl x.1, x.2⟩) ∧
        Retried (id % clients) (buildRequestJson id "sendTransaction" params.json) 5 http last ∧
        (∀ verdict, r = .ok verdict ↔ Replied last (Says transaction · verdict)) ∧
        (r = .error .panic ↔ Crashing last) := by
  obtain hfails | ⟨params, http, r', hparams, rfl, hsent, rfl⟩ := ftl_performs h
  · exact .inl hfails
  obtain ⟨id, http, rfl, ⟨hzero, -, -⟩ | ⟨-, last, hretried, rfl⟩⟩ := pooledSend_performs hsent
  · exact absurd hzero (Nat.ne_of_gt hclients)
  · exact .inr ⟨params, id, http, last, hparams, rfl, hretried, fun _ => report_eq_ok, report_eq_panic⟩

end

/-! ## A transaction that fails after a retry -/

namespace FtlSample

scoped instance : Wire := ⟨fun _ => some [], fun _ => "AA=="⟩

scoped instance : RpcTypes where
  simulateTransactionResult _ := none
  nodeUnhealthyErrorData _ := none
  transactionError := Json.string?
  display _ := ""

def transaction : SignedVersionedTransaction where
  transaction := ⟨[.ofNat 9], .legacy ⟨⟨1, 0, 0⟩, [.ofNat 7], .ofNat 0, []⟩⟩
  nonempty := List.cons_ne_nil _ _

def config : RpcSendTransactionConfig := ⟨true, some .processed, none⟩

def params : FtlParams := ⟨"AA==", ⟨true, some .processed, some .base64⟩, true⟩

def body : Json := buildRequestJson 8 "sendTransaction" params.json

def busy : HttpResponse := ⟨429, some "2", .error ""⟩

def confirmedFailed : HttpResponse where
  status := 200
  retryAfter := none
  json := .ok (.object [("error", .object [("code", .number (-32604)), ("message", .string "failed"),
    ("data", .object [("err", .string "AccountNotFound")])])])

/-- The eighth request, which the service answers when it is asked again. -/
def calls : List (Sigma HttpSendAns) := [
  ⟨.inl .fetchAdd, (8 : Nat)⟩,
  ⟨.inl (.post 2 body), .ok busy⟩,
  ⟨.inl (.sleep 2000), ⟨⟩⟩,
  ⟨.inl (.post 2 body), .ok confirmedFailed⟩]

theorem calls_performed :
    ((sendAndConfirmTransactionFtl transaction config).handle (overHttp 6)).Performs calls
      (.ok (.failed (.ofNat 9) "AccountNotFound")) :=
  .call _ (.call _ (.call _ (.call _ (.done _))))

theorem ftl_verdict_sample : ∃ id http last,
    calls = (⟨.fetchAdd, id⟩ :: http).map (fun x => ⟨.inl x.1, x.2⟩) ∧
      Retried (id % 6) (buildRequestJson id "sendTransaction" params.json) 5 http last ∧
        Replied last (Says transaction · (.failed (.ofNat 9) "AccountNotFound")) := by
  obtain ⟨e, hparams, -, -⟩ | ⟨params', id, http, last, hparams, hcalls, hretried, hverdict, -⟩ :=
    ftl_verdict (Nat.zero_lt_succ 5) calls_performed
  · cases hparams
  · obtain rfl : params = params' := Except.ok.inj hparams
    exact ⟨id, http, last, hcalls, hretried, (hverdict _).1 rfl⟩

end FtlSample

end FogoSessions.Paymaster
