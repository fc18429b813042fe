import FogoSessions.Paymaster.Delivery

/-!
# Sponsoring and sending

The sponsor handler with the sending spelled out. It first prepares a signed transaction, calling
nothing but the lookup tables and the signer, and then gives it away once.
-/

namespace FogoSessions.Paymaster

open Lib Solana

section

variable [External]

/-! ## The handler -/

/-- What is sent, whether the node simulates it first, and what is left to do afterwards. -/
structure Prepared where
  transaction : SignedVersionedTransaction
  enablePreflightSimulation : Bool
  transactionSponsor : Pubkey
  gasSpend : UInt64
  swapIntoFogo : List MintSwapRate

/-- The handler up to the signature. -/
def prepare (state : ServerState) (request : SponsorAndSendRequest) : Handler Prepared := do
  let domain ← .lift (mapErr .err (getDomainName request.domain request.origin))
  let domainState ← .lift (mapErr .err (getDomainState state.domains domain))
  let transaction ← .lift (mapErr .err (decodeTransaction request.transaction))
  let feePayer ← .lift (mapErr .err (okOr transaction.message.staticAccountKeys.head?
    (badRequest "The transaction must have a fee payer")))
  .lift (require (isEnoughBalance (state.balances feePayer) state.minimumBalanceLamports)
    (.err ⟨.serviceUnavailable, s!"Paymaster wallet {feePayer} is out of funds"⟩))
  let transactionSponsor ← .lift (mapErr .err (okOr (domainState.sponsors.find? (· = feePayer))
    (notASponsor domainState feePayer)))
  let transactionToValidate ← TransactionToValidate.parse transaction state.feeCoefficients
  let variation ← domainState.validateTransaction transactionToValidate transactionSponsor
    request.variation
  let signature ← call (.signMessage transactionSponsor (External.serialize transaction.message))
  let signedTransaction ← .lift (mapErr .err (SignedVersionedTransaction.new transaction signature))
  return {
    transaction := signedTransaction
    enablePreflightSimulation := domainState.enablePreflightSimulation
    transactionSponsor
    gasSpend := transactionToValidate.gasSpend
    swapIntoFogo := variation.swapIntoFogo }

/-- A task that is spawned and not waited for. -/
inductive Background where
  /-- `fetch_transaction_cost_details` -/
  | fetchCosts (signature : Signature) (gasSpend : UInt64)
  /-- `swap_tokens_probabilistic` -/
  | swapTokens (mintSwapRates : List MintSwapRate) (transactionSponsor : Pubkey)
deriving DecidableEq

/-- What the handler calls: before it sends, while it sends, and afterwards. -/
abbrev ServerOp := Op ⊕ SendOp ⊕ Background

abbrev ServerAns : ServerOp → Type := Sum.elim Ans (Sum.elim SendAns fun _ => Unit)

/-- A step of the server. -/
abbrev Server (α : Type) := Task ServerOp ServerAns (Fault ErrorResponse) α

omit [External] in
/-- The handler's errors as replies. -/
def faultResponse : Fault ErrorReply → Fault ErrorResponse
  | .err e => .err e.response
  | .panic => .panic

omit [External] in
def rpcConfig (enablePreflightSimulation : Bool) : RpcSendTransactionConfig where
  skipPreflight := !enablePreflightSimulation
  preflightCommitment := some .processed
  encoding := none

/-- The transaction landed, well or not. -/
def ConfirmationResultInternal.landed? : ConfirmationResultInternal → Option Signature
  | success signature | failed signature _ => some signature
  | unconfirmedPreflightFailure _ _ => none

def spawn (background : Background) : Server Unit :=
  .call (.inr (.inr background)) fun _ => .done (.ok ⟨⟩)

/-- What is spawned once the transaction has landed. -/
def Prepared.follows (prepared : Prepared) (signature : Signature) : List Background :=
  .fetchCosts signature prepared.gasSpend ::
    if prepared.swapIntoFogo = [] then []
    else [.swapTokens prepared.swapIntoFogo prepared.transactionSponsor]

/-- The handler; the FTL service sends if there is one. -/
def sponsorAndSend [Wire] (ftlRpc : Bool) (state : ServerState) (request : SponsorAndSendRequest) :
    Server ConfirmationResultInternal := do
  let prepared ← ((prepare state request).mapError faultResponse).rename .inl fun _ x => x
  let config := rpcConfig prepared.enablePreflightSimulation
  let send := if ftlRpc then sendAndConfirmTransactionFtl prepared.transaction config
    else sendAndConfirmTransaction prepared.transaction config
  let result ← send.rename (.inr ∘ .inl) fun _ x => x
  match result.landed? with
  | some signature => (prepared.follows signature).forM spawn
  | none => pure ⟨⟩
  return result

/-- `sponsorAndSendHandler` is this handler, with the sending in one call. -/
theorem sponsorAndSendHandler_eq (state : ServerState) (request : SponsorAndSendRequest) :
    sponsorAndSendHandler state request = (do
      let prepared ← prepare state request
      let result ← call (.sendAndConfirm prepared.transaction.transaction
        (¬ prepared.enablePreflightSimulation))
      .lift (mapErr .err result)) := by
  have hsign (prepared : SignedVersionedTransaction → Prepared) (transaction : VersionedTransaction)
      (signature : Signature) (send : VersionedTransaction → Handler ConfirmationResult) :
      (.lift (mapErr .err (signedVersionedTransaction transaction signature)) >>= send) =
        (.lift (mapErr .err (SignedVersionedTransaction.new transaction signature)) >>= fun signed =>
          pure (prepared signed) >>= fun _ => send signed.transaction) := by
    obtain ⟨signatures, message⟩ := transaction
    cases signatures <;> rfl
  simp only [sponsorAndSendHandler, prepare, Task.bind_assoc]
  refine bind_congr fun domain => bind_congr fun domainState => bind_congr fun transaction =>
    bind_congr fun feePayer => bind_congr fun _ => bind_congr fun sponsor => bind_congr fun t =>
    bind_congr fun variation => bind_congr fun signature => ?_
  exact hsign (fun signed => ⟨signed, domainState.enablePreflightSimulation, sponsor, t.gasSpend,
    variation.swapIntoFogo⟩) transaction signature _

/-! ## What preparing calls -/

/-- The call looks something up. -/
def Op.IsLookup : Op → Prop
  | .lookupTableCacheGet _ | .rpcGetAccount _ | .lookupTableCacheInsert _ _ | .selectOk _ => True
  | .signMessage _ _ | .sendAndConfirm _ _ => False

section

variable {t : TransactionToValidate}

theorem resolve_callsOnly (message : VersionedMessage) (ix : InstructionWithIndex) (i : Nat) :
    (ChainIndex.resolveInstructionAccountPubkey message ix i).CallsOnly Op.IsLookup := by
  have hupdate (table : Pubkey) : (ChainIndex.updateLookupTable table).CallsOnly Op.IsLookup := by
    refine (Task.callsOnly_perform trivial).bind fun answer => ?_
    split
    · trivial
    · split
      · trivial
      · exact (Task.callsOnly_perform trivial).bind fun _ => trivial
  unfold ChainIndex.resolveInstructionAccountPubkey
  split
  · trivial
  · dsimp only
    split
    · trivial
    · refine Task.callsOnly_lift.bind fun position => ?_
      unfold ChainIndex.findAndQueryLookupTable
      split
      · have hquery (table : Pubkey) (index : Nat) :
            (ChainIndex.queryLookupTable table index).CallsOnly Op.IsLookup :=
          (Task.callsOnly_perform trivial).bind fun _ => trivial
        refine (hquery _ _).bind fun entry => ?_
        split
        · trivial
        · refine (hupdate _).bind fun addresses => ?_
          split <;> trivial
      · trivial
    · trivial

theorem parse_callsOnly (transaction : VersionedTransaction) (feeCoefficients : FeeCoefficients) :
    (TransactionToValidate.parse transaction feeCoefficients).CallsOnly Op.IsLookup := by
  refine Task.callsOnly_lift.bind fun _ => Task.callsOnly_lift.bind fun _ =>
    Task.CallsOnly.bind (Task.callsOnly_foldlM (fun total ix => ?_) 0) fun _ => trivial
  refine Task.callsOnly_lift.bind fun programId => ?_
  split
  · exact Task.callsOnly_lift.bind fun _ => (resolve_callsOnly _ _ _).bind fun _ => trivial
  · trivial

theorem validateInstruction_callsOnly (c : ParsedInstructionConstraint) (ix : InstructionWithIndex)
    (keys : ContextualDomainKeys) (variationName : String) :
    (c.validateInstruction t ix keys variationName).CallsOnly Op.IsLookup := by
  refine Task.callsOnly_lift.bind fun programId => ?_
  split
  · trivial
  · refine Task.CallsOnly.bind (Task.callsOnly_forM fun account => ?_) fun _ => Task.callsOnly_lift
    exact (resolve_callsOnly _ _ _).bind fun _ => Task.callsOnly_lift

theorem matchConstraints_callsOnly (v : ParsedVariationOrderedInstructionConstraints)
    (keys : ContextualDomainKeys) :
    ∀ (i : Nat) (constraints : List ParsedInstructionConstraint) (ixs : List InstructionWithIndex),
      (v.matchConstraints t keys i constraints ixs).CallsOnly Op.IsLookup
  | _, [], _ => trivial
  | i, c :: constraints, ixs => by
    have hnext : (v.validateNext t keys i c ixs).CallsOnly Op.IsLookup := by
      cases ixs with
      | nil => trivial
      | cons ix ixs => exact validateInstruction_callsOnly c ix keys v.name
    refine hnext.attempt.bind fun result => ?_
    split
    · exact matchConstraints_callsOnly v keys _ _ _
    · split
      · trivial
      · exact matchConstraints_callsOnly v keys _ _ _

theorem tryVariation_callsOnly (domainState : DomainState) (sponsor : Pubkey)
    (variation : ParsedTransactionVariation) :
    (domainState.tryVariation t sponsor variation).CallsOnly Op.IsLookup := by
  refine Task.CallsOnly.bind ?_ fun _ => trivial
  cases variation with
  | v0 v => trivial
  | v1 v =>
    refine Task.callsOnly_lift.bind fun _ => Task.callsOnly_lift.bind fun _ =>
      (matchConstraints_callsOnly v _ _ _ _).bind fun rest => ?_
    split <;> trivial

theorem validateTransaction_callsOnly (domainState : DomainState) (sponsor : Pubkey)
    (variationName : Option String) :
    (domainState.validateTransaction t sponsor variationName).CallsOnly Op.IsLookup := by
  refine Task.callsOnly_lift.bind fun _ => ?_
  have hfutures : ∀ future ∈ (domainState.candidates variationName).map
      (domainState.tryVariation t sponsor), future.CallsOnly Op.IsLookup := by
    intro future hmem
    obtain ⟨variation, -, rfl⟩ := List.mem_map.1 hmem
    exact tryVariation_callsOnly domainState sponsor variation
  have hfirst {e : ErrorReply} : ∀ {futures : List (Handler ParsedTransactionVariation)},
      (∀ future ∈ futures, future.CallsOnly Op.IsLookup) →
        (DomainState.firstOk e futures).CallsOnly Op.IsLookup := by
    intro futures h
    induction futures with
    | nil => trivial
    | cons future futures ih =>
      obtain ⟨hfuture, hrest⟩ := List.forall_mem_cons.1 h
      refine hfuture.attempt.bind fun result => ?_
      split
      · trivial
      · exact ih hrest
  dsimp only
  split
  · trivial
  · trivial
  · rename_i future _ _ hlist
    exact hfutures future (hlist ▸ List.mem_cons_self)
  · refine (Task.callsOnly_perform trivial).bind fun order => hfirst fun future hmem => ?_
    obtain ⟨i, _, hi⟩ := List.mem_filterMap.1 hmem
    exact hfutures future (List.mem_of_getElem? hi)

theorem prepare_callsOnly (state : ServerState) (request : SponsorAndSendRequest) :
    (prepare state request).CallsOnly fun op => ∀ transaction skipPreflight,
      op ≠ .sendAndConfirm transaction skipPreflight := by
  have hlookup : ∀ op : Op, op.IsLookup → ∀ transaction skipPreflight,
      op ≠ .sendAndConfirm transaction skipPreflight := by
    rintro op hop transaction skipPreflight rfl
    exact hop
  unfold prepare
  refine Task.callsOnly_lift.bind fun domain => Task.callsOnly_lift.bind fun domainState =>
    Task.callsOnly_lift.bind fun transaction => Task.callsOnly_lift.bind fun feePayer =>
    Task.callsOnly_lift.bind fun _ => Task.callsOnly_lift.bind fun sponsor => ?_
  refine Task.CallsOnly.bind ((parse_callsOnly _ _).weaken (fun _ _ h => h) hlookup) fun t => ?_
  refine Task.CallsOnly.bind ((validateTransaction_callsOnly domainState sponsor
    request.variation).weaken (fun _ _ h => h) hlookup) fun variation => ?_
  refine (Task.callsOnly_perform (by simp)).bind fun signature => ?_
  exact Task.callsOnly_lift.bind fun signed => trivial

end

/-! ## What is due -/

/-- The request entitles its sender to have the transaction sent: it is the request's, with the
    signature of its sponsor in the first slot, and every signature verifies. -/
structure Due (known : Pubkey → List Pubkey → Prop) (state : ServerState)
    (request : SponsorAndSendRequest) (transaction : SignedVersionedTransaction)
    (config : RpcSendTransactionConfig) : Prop where
  requested : ∃ domain domainState requested sponsor,
    getDomainName request.domain request.origin = .ok domain ∧
    state.domains.lookup domain = some domainState ∧
    decodeTransaction request.transaction = .ok requested ∧
    Sponsorable known state request.variation domainState requested sponsor ∧
    transaction.transaction.message = requested.message ∧
    transaction.transaction.signatures.tail = requested.signatures.tail ∧
    config = rpcConfig domainState.enablePreflightSimulation
  verified : ∀ (i : Nat) signature account, transaction.transaction.signatures[i]? = some signature →
    transaction.transaction.message.staticAccountKeys[i]? = some account →
    Ed25519.verifyStrict account (External.serialize transaction.transaction.message) signature = true

/-- The signer's signatures verify. -/
def SignsProperly : (op : Op) → Ans op → Prop
  | .signMessage sponsor message, signature => Ed25519.verifyStrict sponsor message signature = true
  | _, _ => True

/-- The lookup tables answer what is known, and the signer signs properly. -/
def signingContract (known : Pubkey → List Pubkey → Prop) (signs : Pubkey → Bytes → Prop) :
    Task.Contract Op Ans where
  rely op answer := (lookupContract known signs).rely op answer ∧ SignsProperly op answer
  guar := (lookupContract known signs).guar

section

variable {known : Pubkey → List Pubkey → Prop} {state : ServerState}
  {request : SponsorAndSendRequest}

omit [External] in
theorem new_eq_ok {transaction : VersionedTransaction} {signature : Signature}
    {signed : SignedVersionedTransaction}
    (h : SignedVersionedTransaction.new transaction signature = .ok signed) :
    signed.transaction.message = transaction.message ∧
      signed.transaction.signatures = signature :: transaction.signatures.tail := by
  obtain ⟨signatures, message⟩ := transaction
  cases signatures with
  | nil => cases h
  | cons first signatures =>
    cases h
    exact ⟨rfl, rfl⟩

theorem prepare_due (known : Pubkey → List Pubkey → Prop) (state : ServerState)
    (request : SponsorAndSendRequest) :
    (prepare state request).Ensures (signingContract known (Entitled known state request))
      fun prepared =>
        Due known state request prepared.transaction (rpcConfig prepared.enablePreflightSimulation) := by
  unfold prepare
  refine (Task.ensures_lift.2 fun _ h => mapErr_eq_ok.1 h).bind fun domain hdomain => ?_
  refine (Task.ensures_lift.2 fun _ h => okOr_eq_ok.1 (mapErr_eq_ok.1 h)).bind
    fun domainState hstate => ?_
  refine (Task.ensures_lift.2 fun _ h => mapErr_eq_ok.1 h).bind fun transaction hdecode => ?_
  refine (Task.ensures_lift.2 fun _ h => okOr_eq_ok.1 (mapErr_eq_ok.1 h)).bind
    fun feePayer hpayer => ?_
  refine (Task.ensures_lift.2 fun _ _ => trivial).bind fun _ _ => ?_
  refine (Task.ensures_lift.2 fun _ h => okOr_eq_ok.1 (mapErr_eq_ok.1 h)).bind
    fun sponsor hsponsor => ?_
  have hfees : (computePaymasterFees transaction state.feeCoefficients).Ensures
      (lookupContract known (Entitled known state request))
      (CountsTolls known transaction.message state.feeCoefficients transaction.message.instructions) :=
    computePaymasterFees_ensures transaction state.feeCoefficients
  have hparse := parse_ensures hfees
  refine Task.Ensures.bind (hparse.weaken (fun _ _ h => h.1) fun _ h => h) fun t ht => ?_
  have hvalidate : (domainState.validateTransaction t sponsor request.variation).Ensures
      (lookupContract known (Entitled known state request)) _ :=
    validateTransaction_ensures ht.1 ht.2 domainState sponsor request.variation
  refine Task.Ensures.bind (hvalidate.weaken (fun _ _ h => h.1) fun _ h => h) fun variation hvalid => ?_
  -- the sponsor that is found is the fee payer
  have heq : sponsor = feePayer := by simpa using List.find?_some hsponsor
  have hsponsorable : Sponsorable known state request.variation domainState transaction sponsor :=
    ⟨heq ▸ hpayer, List.mem_of_find?_eq_some hsponsor, hvalid.1, hvalid.2⟩
  have hentitled : Entitled known state request sponsor (External.serialize transaction.message) :=
    ⟨domain, domainState, transaction, hdomain, hstate, hdecode, rfl, hsponsorable⟩
  refine Task.ensures_perform_bind hentitled fun signature hsignature => ?_
  refine (Task.ensures_lift.2 fun _ h => new_eq_ok (mapErr_eq_ok.1 h)).bind fun signed hsigned => ?_
  obtain ⟨hmessage, hsignatures⟩ := hsigned
  have htail : signed.transaction.signatures.tail = transaction.signatures.tail := by
    rw [hsignatures, List.tail_cons]
  refine ⟨⟨domain, domainState, transaction, sponsor, hdomain, hstate, hdecode, hsponsorable,
    hmessage, htail, rfl⟩, fun i s account hs haccount => ?_⟩
  rw [hsignatures] at hs
  rw [hmessage] at haccount ⊢
  cases i with
  | zero =>
    -- the fee payer's slot
    rw [List.getElem?_cons_zero, Option.some.injEq] at hs
    rw [← List.head?_eq_getElem?, hsponsorable.feePayer, Option.some.injEq] at haccount
    rw [← hs, ← haccount]
    exact hsignature.2
  | succ i =>
    rw [List.getElem?_cons_succ, List.getElem?_tail] at hs
    exact hvalid.1 (i + 1) s account (Nat.succ_pos i) hs haccount

end

/-! ## Runs of the handler -/

/-- The calls that send. -/
def sendCalls (calls : List (Sigma ServerAns)) : List (Sigma SendAns) :=
  calls.filterMap fun
    | ⟨.inr (.inl op), answer⟩ => some ⟨op, answer⟩
    | _ => none

/-- What was spawned. -/
def spawned (calls : List (Sigma ServerAns)) : List Background :=
  calls.filterMap fun
    | ⟨.inr (.inr background), _⟩ => some background
    | _ => none

/-- The answers to the calls before anything is sent are as the contract says. -/
def ServerRely (c : Task.Contract Op Ans) : (op : ServerOp) → ServerAns op → Prop
  | .inl op, answer => c.rely op answer
  | .inr _, _ => True

section

variable {calls : List (Sigma ServerAns)}

omit [External] in
theorem sendCalls_append (calls calls' : List (Sigma ServerAns)) :
    sendCalls (calls ++ calls') = sendCalls calls ++ sendCalls calls' := List.filterMap_append

omit [External] in
theorem spawned_append (calls calls' : List (Sigma ServerAns)) :
    spawned (calls ++ calls') = spawned calls ++ spawned calls' := List.filterMap_append

omit [External] in
theorem spawn_performs {backgrounds : List Background} {r : Outcome ErrorResponse Unit}
    (h : Task.Performs (backgrounds.forM spawn : Server Unit) calls r) :
    r = .ok ⟨⟩ ∧ sendCalls calls = [] ∧ spawned calls = backgrounds := by
  induction backgrounds generalizing calls with
  | nil =>
    obtain ⟨rfl, rfl⟩ := Task.performs_lift h
    exact ⟨rfl, rfl, rfl⟩
  | cons background backgrounds ih =>
    cases h with
    | call x h =>
      obtain ⟨rfl, hsend, hspawned⟩ := ih h
      exact ⟨rfl, hsend, congrArg (background :: ·) hspawned⟩

omit [External] in
/-- Calls of another part are not calls that send, and spawn nothing. -/
theorem sendCalls_inl {calls' : List (Sigma Ans)} {calls : List (Sigma ServerAns)}
    (h : List.Forall₂ (fun x y => ∃ a, y = ⟨Sum.inl x.1, a⟩ ∧ a = x.2) calls' calls) :
    sendCalls calls = [] ∧ spawned calls = [] ∧
      ∀ x ∈ calls', (⟨.inl x.1, x.2⟩ : Sigma ServerAns) ∈ calls := by
  induction h with
  | nil => exact ⟨rfl, rfl, fun x hx => absurd hx List.not_mem_nil⟩
  | cons hcall _ ih =>
    obtain ⟨a, rfl, rfl⟩ := hcall
    obtain ⟨hsend, hspawned, hmem⟩ := ih
    refine ⟨hsend, hspawned, List.forall_mem_cons.2 ⟨List.mem_cons_self, fun x hx => ?_⟩⟩
    exact List.mem_cons_of_mem _ (hmem x hx)

omit [External] in
theorem sendCalls_inr {calls' : List (Sigma SendAns)} {calls : List (Sigma ServerAns)}
    (h : List.Forall₂ (fun x y => ∃ a, y = ⟨(Sum.inr ∘ Sum.inl) x.1, a⟩ ∧ a = x.2) calls' calls) :
    sendCalls calls = calls' ∧ spawned calls = [] := by
  induction h with
  | nil => exact ⟨rfl, rfl⟩
  | cons hcall _ ih =>
    obtain ⟨a, rfl, rfl⟩ := hcall
    obtain ⟨hsend, hspawned⟩ := ih
    exact ⟨congrArg _ hsend, hspawned⟩

variable [Wire] {known : Pubkey → List Pubkey → Prop} {ftlRpc : Bool} {state : ServerState}
  {request : SponsorAndSendRequest} {r : Outcome ErrorResponse ConfirmationResultInternal}

/-- What a run of the handler has done in the world, and what it reports. -/
inductive Delivered (known : Pubkey → List Pubkey → Prop) (state : ServerState)
    (request : SponsorAndSendRequest) (calls : List (Sigma ServerAns)) :
    Outcome ErrorResponse ConfirmationResultInternal → Prop where
  /-- nothing was sent -/
  | refused (e : Fault ErrorResponse) : sendCalls calls = [] → spawned calls = [] →
      Delivered known state request calls (.error e)
  /-- what was due was sent, and did not go through or is in doubt -/
  | failed (e : Fault ErrorResponse) (transaction : SignedVersionedTransaction)
      (config : RpcSendTransactionConfig) : Due known state request transaction config →
      Sent transaction config (sendCalls calls) (.error e) → spawned calls = [] →
      Delivered known state request calls (.error e)
  /-- what was due was sent, and what is reported was told -/
  | reported (result : ConfirmationResultInternal) (prepared : Prepared) :
      Due known state request prepared.transaction (rpcConfig prepared.enablePreflightSimulation) →
      Sent prepared.transaction (rpcConfig prepared.enablePreflightSimulation) (sendCalls calls)
        (.ok result) →
      spawned calls = (result.landed?.map prepared.follows).getD [] →
      Delivered known state request calls (.ok result)

/-- The sending is spelled out: the handler does not make it in one call. -/
theorem sponsorAndSend_callsOnly (ftlRpc : Bool) (state : ServerState)
    (request : SponsorAndSendRequest) :
    (sponsorAndSend ftlRpc state request).CallsOnly fun op => ∀ transaction skipPreflight,
      op ≠ .inl (.sendAndConfirm transaction skipPreflight) := by
  have hright : ∀ op : SendOp ⊕ Background, ∀ transaction skipPreflight,
      (.inr op : ServerOp) ≠ .inl (.sendAndConfirm transaction skipPreflight) := by simp
  refine Task.CallsOnly.bind ((prepare_callsOnly state request).mapError.rename fun op hop => ?_)
    fun prepared => Task.CallsOnly.bind ?_ fun result => ?_
  · exact fun transaction skipPreflight heq => hop transaction skipPreflight (Sum.inl.inj heq)
  · exact (Task.callsOnly_of_forall (fun _ => trivial) _).rename fun op _ => hright (.inl op)
  · have hspawn (backgrounds : List Background) :
        Task.CallsOnly (fun op : ServerOp => ∀ transaction skipPreflight,
          op ≠ .inl (.sendAndConfirm transaction skipPreflight)) (backgrounds.forM spawn) :=
      Task.callsOnly_forM fun background => ⟨hright (.inr background), fun _ _ => trivial⟩
    dsimp only
    split
    · exact (hspawn _).bind fun _ => trivial
    · trivial

/-- **What the paymaster sends.** Whatever the chain, the node, the websocket and the FTL service
    answer, a run of the handler sends at most one transaction, once: the one of the request, with the
    sponsor's signature in the first slot and nothing else changed, when a variation of the domain
    admits it and all its signatures verify. It replies with a result only if the node, its websocket or
    the service has told it, leaves no subscription open, and goes on to fetch costs and to swap only
    when the transaction has landed. -/
theorem sponsorAndSend_delivers (hrun : (sponsorAndSend ftlRpc state request).Performs calls r)
    (hrely : ∀ call ∈ calls,
      ServerRely (signingContract known (Entitled known state request)) call.1 call.2) :
    Delivered known state request calls r ∧ ∀ call ∈ calls, ∀ transaction skipPreflight,
      call.1 ≠ .inl (.sendAndConfirm transaction skipPreflight) := by
  refine ⟨?_, (sponsorAndSend_callsOnly ftlRpc state request).performs hrun⟩
  obtain ⟨e, rfl, hprepare⟩ | ⟨prepared, before, after, rfl, hprepare, hrest⟩ := hrun.of_bind
  · obtain ⟨calls', -, hcalls⟩ := hprepare.of_rename
    obtain ⟨hsend, hspawned, -⟩ := sendCalls_inl hcalls
    exact .refused e hsend hspawned
  -- the transaction is prepared
  obtain ⟨calls', hprepare, hcalls⟩ := hprepare.of_rename
  obtain ⟨r', hprepare, hr'⟩ := hprepare.of_mapError
  obtain ⟨hnosend, hnospawn, hmem⟩ := sendCalls_inl hcalls
  have hr' := mapErr_eq_ok.1 hr'.symm
  subst hr'
  have hdue := ((prepare_due known state request).performs hprepare fun x hx =>
    hrely ⟨.inl x.1, x.2⟩ (List.mem_append_left _ (hmem x hx))).2
  -- it is sent
  have hsent {calls : List (Sigma SendAns)} {r : Outcome ErrorResponse ConfirmationResultInternal}
      (h : (if ftlRpc then sendAndConfirmTransactionFtl prepared.transaction
          (rpcConfig prepared.enablePreflightSimulation)
        else sendAndConfirmTransaction prepared.transaction
          (rpcConfig prepared.enablePreflightSimulation)).Performs calls r) :
      Sent prepared.transaction (rpcConfig prepared.enablePreflightSimulation) calls r := by
    cases ftlRpc with
    | true => exact sendAndConfirmTransactionFtl_sent h
    | false => exact sendAndConfirmTransaction_sent h
  obtain ⟨e, rfl, hsend⟩ | ⟨result, sending, following, rfl, hsend, hfollow⟩ := hrest.of_bind
  · obtain ⟨calls'', hsend, hcalls''⟩ := hsend.of_rename
    obtain ⟨heq, hspawned⟩ := sendCalls_inr hcalls''
    refine .failed e _ _ hdue ?_ ?_
    · rw [sendCalls_append, hnosend, List.nil_append, heq]
      exact hsent hsend
    · rw [spawned_append, hnospawn, hspawned, List.append_nil]
  · obtain ⟨calls'', hsend, hcalls''⟩ := hsend.of_rename
    obtain ⟨heq, hspawned⟩ := sendCalls_inr hcalls''
    have hfollows : r = .ok result ∧ sendCalls following = [] ∧
        spawned following = (result.landed?.map prepared.follows).getD [] := by
      cases hlanded : result.landed? with
      | none =>
        simp only [hlanded] at hfollow
        obtain ⟨rfl, rfl⟩ := Task.performs_lift hfollow
        exact ⟨rfl, rfl, rfl⟩
      | some signature =>
        simp only [hlanded] at hfollow
        obtain ⟨e, -, hspawn⟩ | ⟨_, spawning, ending, rfl, hspawn, hend⟩ := hfollow.of_bind
        · exact nomatch (spawn_performs hspawn).1
        · obtain ⟨-, hquiet, hbackground⟩ := spawn_performs hspawn
          obtain ⟨rfl, rfl⟩ := Task.performs_lift hend
          rw [List.append_nil]
          exact ⟨rfl, hquiet, hbackground⟩
    obtain ⟨rfl, hquiet, hbackground⟩ := hfollows
    refine .reported result prepared hdue ?_ ?_
    · rw [sendCalls_append, sendCalls_append, hnosend, hquiet, List.nil_append, List.append_nil, heq]
      exact hsent hsend
    · rw [spawned_append, spawned_append, hnospawn, hspawned, hbackground, List.nil_append,
        List.nil_append]

end

end

/-! ## A transaction that is sent -/

namespace SponsorSample

def sponsor : Pubkey := .ofNat 7

/-- A transaction that only pays its fee, not signed yet. -/
def requested : VersionedTransaction where
  signatures := [.ofNat 0]
  message := .legacy
    { header := ⟨1, 0, 0⟩, accountKeys := [sponsor], recentBlockhash := .ofNat 0, instructions := [] }

def signature : Signature := .ofNat 9

scoped instance : External :=
  { External.uncalled with
    verifyStrict := fun _ _ s => s = signature
    decodeBase64 := fun _ => some []
    decodeTransaction := fun _ => some requested }

scoped instance : Wire := ⟨fun _ => none, fun _ => ""⟩

def domainState : DomainState where
  domainRegistryKey := .ofNat 1
  sponsors := [sponsor]
  sponsors_nonempty := List.cons_ne_nil _ _
  enablePreflightSimulation := true
  txVariations := AList.singleton "fees" (.v0 ⟨"fees", []⟩)
  nextAutoassignedSponsorIndex := 0

def state : ServerState where
  domains := AList.singleton "app.xyz" domainState
  balances _ := none
  minimumBalanceLamports := 0
  feeCoefficients _ := none

def request : SponsorAndSendRequest := ⟨some "app.xyz", none, some "fees", ""⟩

def signed : SignedVersionedTransaction :=
  ⟨{ requested with signatures := [signature] }, List.cons_ne_nil _ _⟩

/-- The node takes the transaction, and the websocket notifies its success. -/
def calls : List (Sigma ServerAns) := [
  ⟨.inl (.signMessage sponsor []), signature⟩,
  ⟨.inr (.inl (.rpcSendTransaction signed (rpcConfig true))), .ok signature⟩,
  ⟨.inr (.inl .loadClient), (0 : Nat)⟩,
  ⟨.inr (.inl (.signatureSubscribe 0 signature)), .ok 5⟩,
  ⟨.inr (.inl (.stream 5)), (⟨[.receivedSignature, .processedSignature none], false⟩ : Notifications)⟩,
  ⟨.inr (.inl (.unsubscribe 5)), ⟨⟩⟩,
  ⟨.inr (.inr (.fetchCosts signature 5000)), ⟨⟩⟩]

theorem calls_performed :
    (sponsorAndSend false state request).Performs calls (.ok (.success signature)) :=
  .call _ (.call _ (.call _ (.call _ (.call _ (.call _ (.call _ (.done _)))))))

theorem sponsorAndSend_delivers_sample :
    Delivered (fun _ _ => False) state request calls (.ok (.success signature)) ∧
      ∀ call ∈ calls, ∀ transaction skipPreflight,
        call.1 ≠ .inl (.sendAndConfirm transaction skipPreflight) := by
  refine sponsorAndSend_delivers calls_performed ?_
  have hsign : ServerRely (signingContract (fun _ _ => False) (Entitled (fun _ _ => False) state request))
      (.inl (.signMessage sponsor [])) signature := ⟨trivial, rfl⟩
  simpa only [calls, List.forall_mem_cons, ServerRely, true_and, and_true, List.not_mem_nil,
    false_implies, implies_true] using hsign

end SponsorSample

end FogoSessions.Paymaster
