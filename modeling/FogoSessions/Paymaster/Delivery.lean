import FogoSessions.Paymaster.Sending
import FogoSessions.Paymaster.Signing

/-!
# What is sent, and what is reported

`sponsorAndSend` is the sponsor handler with the sending spelled out. It sends nothing but the
request's transaction with the sponsor's signature, once, and what it replies is what it was told.
-/

namespace FogoSessions.Paymaster

open Lib Solana

/-! ## Subscriptions -/

section

variable {signature : Signature} {calls : List (Sigma SendAns)}

/-- The runs of `subscribe_and_wait_for_signature`. -/
inductive Waits (signature : Signature) : (reconnect : Bool) → List (Sigma SendAns) →
    Outcome ErrorResponse (Option String) → Prop where
  /-- the stream is waited for and closed, whatever it yields -/
  | subscribed (reconnect : Bool) (client subscription : Nat) (notifications : Notifications) :
    Waits signature reconnect
      [⟨.loadClient, client⟩, ⟨.signatureSubscribe client signature, .ok subscription⟩,
        ⟨.stream subscription, notifications⟩, ⟨.unsubscribe subscription, ⟨⟩⟩]
      (mapErr .err (waitResult notifications))
  | failed (client : Nat) (e : Unit) :
    Waits signature false
      [⟨.loadClient, client⟩, ⟨.signatureSubscribe client signature, .error e⟩]
      (.error (.err (badGateway "Failed to subscribe to signature")))
  | disconnected (client : Nat) (e : Unit) (error : ErrorResponse) :
    Waits signature true
      [⟨.loadClient, client⟩, ⟨.signatureSubscribe client signature, .error e⟩,
        ⟨.reconnectPubsub, .error error⟩]
      (.error (.err error))
  | reconnected (client : Nat) (e : Unit) {rest : List (Sigma SendAns)}
      {r : Outcome ErrorResponse (Option String)} : Waits signature false rest r →
    Waits signature true
      (⟨.loadClient, client⟩ :: ⟨.signatureSubscribe client signature, .error e⟩ ::
        ⟨.reconnectPubsub, .ok ⟨⟩⟩ :: rest) r

theorem subscribeOr_performs {otherwise : Sender (Option String)}
    {r : Outcome ErrorResponse (Option String)} {reconnect : Bool}
    (h : (subscribeOr otherwise signature).Performs calls r)
    (hotherwise : ∀ client e rest, otherwise.Performs rest r → Waits signature reconnect
      (⟨.loadClient, client⟩ :: ⟨.signatureSubscribe client signature, .error e⟩ :: rest) r) :
    Waits signature reconnect calls r := by
  obtain ⟨client, _, rfl, hsubscribe⟩ := Task.performs_perform_bind h
  obtain ⟨result, _, rfl, hresult⟩ := Task.performs_perform_bind hsubscribe
  cases result with
  | ok subscription =>
    obtain ⟨notifications, _, rfl, hclose⟩ := Task.performs_perform_bind hresult
    obtain ⟨_, _, rfl, hend⟩ := Task.performs_perform_bind hclose
    obtain ⟨rfl, rfl⟩ := Task.performs_lift hend
    exact .subscribed reconnect client subscription notifications
  | error e => exact hotherwise client e _ hresult

theorem subscribeOnce_performs {r : Outcome ErrorResponse (Option String)}
    (h : (subscribeOnce signature).Performs calls r) : Waits signature false calls r := by
  refine subscribeOr_performs h fun client e rest hrest => ?_
  obtain ⟨rfl, rfl⟩ := Task.performs_lift hrest
  exact .failed client e

theorem subscribeAndWaitForSignature_performs {reconnect : Bool}
    {r : Outcome ErrorResponse (Option String)}
    (h : (subscribeAndWaitForSignature signature reconnect).Performs calls r) :
    Waits signature reconnect calls r := by
  cases reconnect with
  | false => exact subscribeOnce_performs h
  | true =>
    refine subscribeOr_performs h fun client e rest hrest => ?_
    obtain ⟨reconnected, _, rfl, hagain⟩ := Task.performs_perform_bind hrest
    cases reconnected with
    | ok _ => exact .reconnected client e (subscribeOnce_performs hagain)
    | error error =>
      obtain ⟨rfl, rfl⟩ := Task.performs_lift hagain
      exact .disconnected client e error

end

/-! ## Sending one transaction -/

/-- The call gives a transaction away. -/
def SendOp.isSend : SendOp → Bool
  | rpcSendTransaction _ _ | ftlSendTransaction _ => true
  | _ => false

def SendOp.isSubscribe : SendOp → Bool
  | signatureSubscribe _ _ => true
  | _ => false

def SendOp.isReconnect : SendOp → Bool
  | reconnectPubsub => true
  | _ => false

/-- What was given away, in order. -/
def sends (calls : List (Sigma SendAns)) : List SendOp := (calls.map Sigma.fst).filter SendOp.isSend

/-- The subscription that the call opened. -/
def opened? : Sigma SendAns → Option Nat
  | ⟨.signatureSubscribe _ _, answer⟩ => Except.toOption answer
  | _ => none

/-- The subscription that the call closed. -/
def closed? : Sigma SendAns → Option Nat
  | ⟨.unsubscribe subscription, _⟩ => some subscription
  | _ => none

/-- The websocket is tried twice at most, with a new client the second time, and nothing stays open. -/
structure Tidy (calls : List (Sigma SendAns)) : Prop where
  subscriptions : (calls.countP fun call => call.1.isSubscribe) ≤ 2
  reconnections : (calls.countP fun call => call.1.isReconnect) ≤ 1
  closed : calls.filterMap closed? = calls.filterMap opened?

/-- The websocket notified what became of the transaction with the signature. -/
def Notified (calls : List (Sigma SendAns)) (signature : Signature) (err : Option String) : Prop :=
  ∃ client subscription notifications,
    ⟨.signatureSubscribe client signature, .ok subscription⟩ ∈ calls ∧
    ⟨.stream subscription, notifications⟩ ∈ calls ∧ processed? notifications.responses = some err

section

variable {signature : Signature} {calls : List (Sigma SendAns)}
  {r : Outcome ErrorResponse (Option String)}

theorem Waits.sends_eq {reconnect : Bool} (h : Waits signature reconnect calls r) :
    sends calls = [] := by
  induction h with
  | subscribed | failed | disconnected => rfl
  | reconnected client e _ ih => exact ih

theorem Waits.tidy_false (h : Waits signature false calls r) :
    (calls.countP fun call => call.1.isSubscribe) ≤ 1 ∧
      (calls.countP fun call => call.1.isReconnect) = 0 ∧
      calls.filterMap closed? = calls.filterMap opened? := by
  cases h with
  | subscribed _ client subscription notifications =>
    exact ⟨Nat.le_refl 1, rfl, rfl⟩
  | failed client e => exact ⟨Nat.le_refl 1, rfl, rfl⟩

theorem Waits.tidy {reconnect : Bool} (h : Waits signature reconnect calls r) : Tidy calls := by
  cases h with
  | subscribed _ client subscription notifications => exact ⟨Nat.le_succ 1, Nat.zero_le 1, rfl⟩
  | failed client e => exact ⟨Nat.le_succ 1, Nat.zero_le 1, rfl⟩
  | disconnected client e error => exact ⟨Nat.le_succ 1, Nat.le_refl 1, rfl⟩
  | @reconnected client e rest _ h =>
    obtain ⟨hsubscriptions, hreconnections, hclosed⟩ := h.tidy_false
    refine ⟨?_, ?_, hclosed⟩
    · rw [List.countP_cons_of_neg Bool.false_ne_true, List.countP_cons_of_pos rfl,
        List.countP_cons_of_neg Bool.false_ne_true]
      omega
    · rw [List.countP_cons_of_neg Bool.false_ne_true, List.countP_cons_of_neg Bool.false_ne_true,
        List.countP_cons_of_pos rfl]
      omega

theorem waitResult_eq_ok {notifications : Notifications} {err : Option String}
    (h : waitResult notifications = .ok err) : processed? notifications.responses = some err := by
  unfold waitResult at h
  split at h
  · rename_i err' hprocessed
    cases h
    exact hprocessed
  · split at h <;> cases h

/-- A result was notified. -/
theorem Waits.notified {reconnect : Bool} {err : Option String}
    (h : Waits signature reconnect calls (.ok err)) : Notified calls signature err := by
  generalize hr : (.ok err : Outcome ErrorResponse (Option String)) = r at h
  induction h with
  | subscribed reconnect client subscription notifications =>
    have hwait := waitResult_eq_ok (mapErr_eq_ok.1 hr.symm)
    exact ⟨client, subscription, notifications, by simp, by simp, hwait⟩
  | failed | disconnected => cases hr
  | reconnected client e _ ih =>
    obtain ⟨client', subscription, notifications, hopen, hstream, hprocessed⟩ := ih hr
    refine ⟨client', subscription, notifications, ?_, ?_, hprocessed⟩
    · simp [hopen]
    · simp [hstream]

theorem confirmTransaction_performs {result : Outcome ErrorResponse ConfirmationResultInternal}
    (h : (confirmTransaction signature).Performs calls result) :
    sends calls = [] ∧ Tidy calls ∧
      (∀ s, result = .ok (.success s) → s = signature ∧ Notified calls signature none) ∧
      (∀ s err, result = .ok (.failed s err) → s = signature ∧ Notified calls signature (some err)) ∧
      ∀ s err, result ≠ .ok (.unconfirmedPreflightFailure s err) := by
  obtain ⟨e, rfl, hfails⟩ | ⟨err, before, after, rfl, hwaits, hrest⟩ := h.of_bind
  · obtain ⟨r, hwaits, -⟩ := hfails.of_mapError
    have hwaits := subscribeAndWaitForSignature_performs hwaits
    exact ⟨hwaits.sends_eq, hwaits.tidy, by simp, by simp, by simp⟩
  · obtain ⟨r, hwaits, hr⟩ := hwaits.of_mapError
    have hwaits := subscribeAndWaitForSignature_performs hwaits
    have hr := mapErr_eq_ok.1 hr.symm
    subst hr
    have hnotified := hwaits.notified
    cases err with
    | none =>
      obtain ⟨rfl, rfl⟩ := Task.performs_lift hrest
      rw [List.append_nil]
      refine ⟨hwaits.sends_eq, hwaits.tidy, fun s hs => ?_, by simp, by simp⟩
      cases hs
      exact ⟨rfl, hnotified⟩
    | some err =>
      obtain ⟨rfl, rfl⟩ := Task.performs_lift hrest
      rw [List.append_nil]
      refine ⟨hwaits.sends_eq, hwaits.tidy, by simp, fun s e hs => ?_, by simp⟩
      cases hs
      exact ⟨rfl, hnotified⟩

end

section

variable [Wire] {transaction : SignedVersionedTransaction} {config : RpcSendTransactionConfig}
  {calls : List (Sigma SendAns)} {r : Outcome ErrorResponse ConfirmationResultInternal}

/-- The call gives this transaction away, with this configuration. -/
def Gives (transaction : SignedVersionedTransaction) (config : RpcSendTransactionConfig) :
    SendOp → Prop
  | .rpcSendTransaction transaction' config' => transaction' = transaction ∧ config' = config
  | .ftlSendTransaction params => ftlParams transaction config = .ok params
  | _ => False

/-- What is reported of the transaction is what the node, its websocket or the service has answered. -/
def Told (transaction : SignedVersionedTransaction) (config : RpcSendTransactionConfig)
    (calls : List (Sigma SendAns)) : ConfirmationResultInternal → Prop
  | .success s =>
    (⟨.rpcSendTransaction transaction config, .ok s⟩ ∈ calls ∧ Notified calls s none) ∨
      ∃ params text, ⟨.ftlSendTransaction params, .ok text⟩ ∈ calls ∧
        signatureFromStr text = .ok s
  | .failed s err =>
    (⟨.rpcSendTransaction transaction config, .ok s⟩ ∈ calls ∧ Notified calls s (some err)) ∨
      s = transaction.signature ∧ ∃ params answer,
        ⟨.ftlSendTransaction params, .error answer⟩ ∈ calls ∧ answer.kind = .transactionError err
  | .unconfirmedPreflightFailure s err => s = transaction.signature ∧ ∃ answer : ClientError,
      answer.transactionError? = some err ∧
        (⟨.rpcSendTransaction transaction config, .error answer⟩ ∈ calls ∨
          answer.kind = .rpcError (some err) ∧
            ∃ params, ⟨.ftlSendTransaction params, .error answer⟩ ∈ calls)

/-- A run that sends one transaction. -/
structure Sent (transaction : SignedVersionedTransaction) (config : RpcSendTransactionConfig)
    (calls : List (Sigma SendAns)) (r : Outcome ErrorResponse ConfirmationResultInternal) : Prop where
  once : sends calls = [] ∨ ∃ op, Gives transaction config op ∧ sends calls = [op]
  tidy : Tidy calls
  told : ∀ result, r = .ok result → Told transaction config calls result

omit [Wire] in
theorem Notified.cons {signature : Signature} {err : Option String} (h : Notified calls signature err)
    (call : Sigma SendAns) : Notified (call :: calls) signature err := by
  obtain ⟨client, subscription, notifications, hopen, hstream, hprocessed⟩ := h
  exact ⟨client, subscription, notifications, List.mem_cons_of_mem _ hopen,
    List.mem_cons_of_mem _ hstream, hprocessed⟩

theorem sendAndConfirmTransaction_sent
    (h : (sendAndConfirmTransaction transaction config).Performs calls r) :
    Sent transaction config calls r := by
  obtain ⟨answer, rest, rfl, hrest⟩ := Task.performs_perform_bind h
  have hgives : Gives transaction config (.rpcSendTransaction transaction config) := ⟨rfl, rfl⟩
  cases answer with
  | ok signature =>
    obtain ⟨hsends, htidy, hsuccess, hfailed, hpreflight⟩ := confirmTransaction_performs hrest
    refine ⟨.inr ⟨_, hgives, ?_⟩, ⟨htidy.subscriptions, htidy.reconnections, htidy.closed⟩, ?_⟩
    · change SendOp.rpcSendTransaction transaction config :: sends rest = _
      rw [hsends]
    · intro result hresult
      cases result with
      | success s =>
        obtain ⟨rfl, hnotified⟩ := hsuccess s hresult
        exact .inl ⟨List.mem_cons_self, hnotified.cons _⟩
      | failed s err =>
        obtain ⟨rfl, hnotified⟩ := hfailed s err hresult
        exact .inl ⟨List.mem_cons_self, hnotified.cons _⟩
      | unconfirmedPreflightFailure s err => exact absurd hresult (hpreflight s err)
  | error answer =>
    cases herror : answer.transactionError? with
    | some err =>
      simp only [herror] at hrest
      obtain ⟨rfl, rfl⟩ := Task.performs_lift hrest
      refine ⟨.inr ⟨_, hgives, rfl⟩, ⟨Nat.zero_le 2, Nat.zero_le 1, rfl⟩, fun result hresult => ?_⟩
      cases hresult
      exact ⟨rfl, answer, herror, .inl List.mem_cons_self⟩
    | none =>
      simp only [herror] at hrest
      obtain ⟨rfl, rfl⟩ := Task.performs_lift hrest
      exact ⟨.inr ⟨_, hgives, rfl⟩, ⟨Nat.zero_le 2, Nat.zero_le 1, rfl⟩, fun result hresult => by
        cases hresult⟩

theorem sendAndConfirmTransactionFtl_sent
    (h : (sendAndConfirmTransactionFtl transaction config).Performs calls r) :
    Sent transaction config calls r := by
  have htidy {params : FtlParams} {answer : Except ClientError String} :
      Tidy [⟨.ftlSendTransaction params, answer⟩] := ⟨Nat.zero_le 2, Nat.zero_le 1, rfl⟩
  obtain ⟨e, rfl, hfails⟩ | ⟨params, before, after, rfl, hparams, hsend⟩ := h.of_bind
  · obtain ⟨rfl, -⟩ := Task.performs_lift hfails
    exact ⟨.inl rfl, ⟨Nat.zero_le 2, Nat.zero_le 1, rfl⟩, by simp⟩
  obtain ⟨rfl, hok⟩ := Task.performs_lift hparams
  have hgives : Gives transaction config (.ftlSendTransaction params) := mapErr_eq_ok.1 hok.symm
  obtain ⟨answer, rest, rfl, hrest⟩ := Task.performs_perform_bind hsend
  rw [List.nil_append]
  cases answer with
  | ok text =>
    obtain ⟨e, rfl, hfails⟩ | ⟨signature, before, after, rfl, hparse, hend⟩ := hrest.of_bind
    · obtain ⟨rfl, -⟩ := Task.performs_lift hfails
      exact ⟨.inr ⟨_, hgives, rfl⟩, htidy, by simp⟩
    · obtain ⟨rfl, hok⟩ := Task.performs_lift hparse
      obtain ⟨rfl, rfl⟩ := Task.performs_lift hend
      refine ⟨.inr ⟨_, hgives, rfl⟩, htidy, fun result hresult => ?_⟩
      cases hresult
      exact .inr ⟨params, text, List.mem_cons_self, mapErr_eq_ok.1 hok.symm⟩
  | error answer =>
    cases herror : answer.transactionError? with
    | none =>
      simp only [herror] at hrest
      obtain ⟨rfl, rfl⟩ := Task.performs_lift hrest
      exact ⟨.inr ⟨_, hgives, rfl⟩, htidy, fun result hresult => by cases hresult⟩
    | some err =>
      simp only [herror] at hrest
      cases hkind : answer.kind with
      | rpcError simulation =>
        simp only [hkind] at hrest
        obtain ⟨rfl, rfl⟩ := Task.performs_lift hrest
        refine ⟨.inr ⟨_, hgives, rfl⟩, htidy, fun result hresult => ?_⟩
        cases hresult
        have hsimulation : simulation = some err := by
          rw [← herror, ClientError.transactionError?, hkind]
        refine ⟨rfl, answer, herror, .inr ⟨?_, params, List.mem_cons_self⟩⟩
        rw [hkind, hsimulation]
      | transactionError error =>
        simp only [hkind] at hrest
        obtain ⟨rfl, rfl⟩ := Task.performs_lift hrest
        refine ⟨.inr ⟨_, hgives, rfl⟩, htidy, fun result hresult => ?_⟩
        cases hresult
        have herr : some error = some err := by
          rw [← herror, ClientError.transactionError?, hkind]
        refine .inr ⟨rfl, params, answer, List.mem_cons_self, ?_⟩
        rw [hkind, Option.some.inj herr]
      | other =>
        rw [ClientError.transactionError?, hkind] at herror
        cases herror

end

end FogoSessions.Paymaster
