import FogoSessions.Paymaster.Admission

/-!
# What the sponsors sign

The sponsor handler signs a message only when its transaction is one that a variation of the domain
admits. The handler runs among other requests that share the lookup-table cache, and the futures of
its own variations run concurrently; the statement is about every answer that the world may give.
-/

namespace FogoSessions.Paymaster

open Lib Solana

variable [External]

/-- A variation of the domain, the one with the name if there is a name, admits the transaction. -/
def AdmittedBy (known : Pubkey → List Pubkey → Prop) (feeCoefficients : FeeCoefficients)
    (variationName : Option String) (domainState : DomainState) (transaction : VersionedTransaction)
    (sponsor : Pubkey) : Prop :=
  ∃ name variation, domainState.txVariations.lookup name = some variation ∧
    (∀ n, variationName = some n → n = name) ∧
    Admits known transaction ⟨domainState.domainRegistryKey, sponsor⟩ feeCoefficients variation

/-- The request entitles `sponsor` to sign the transaction: it pays for it, it is one of the
    domain's sponsors, the other signatures verify, and a variation of the domain, the one that the
    request names if it names one, admits the transaction. -/
structure Sponsorable (known : Pubkey → List Pubkey → Prop) (state : ServerState)
    (variationName : Option String) (domainState : DomainState) (transaction : VersionedTransaction)
    (sponsor : Pubkey) : Prop where
  feePayer : transaction.message.staticAccountKeys.head? = some sponsor
  isSponsor : sponsor ∈ domainState.sponsors
  othersVerified : OthersVerified transaction
  admitted : AdmittedBy known state.feeCoefficients variationName domainState transaction sponsor

/-- The request entitles `sponsor` to sign `message`. -/
def Entitled (known : Pubkey → List Pubkey → Prop) (state : ServerState)
    (request : SponsorAndSendRequest) (sponsor : Pubkey) (message : Bytes) : Prop :=
  ∃ domain domainState transaction, getDomainName request.domain request.origin = .ok domain ∧
    state.domains.lookup domain = some domainState ∧
    decodeTransaction request.transaction = .ok transaction ∧
    message = External.serialize transaction.message ∧
    Sponsorable known state request.variation domainState transaction sponsor

section

variable {known : Pubkey → List Pubkey → Prop} {signs : Pubkey → Bytes → Prop}

omit [External] in
theorem mem_candidates {domainState : DomainState} {variationName : Option String}
    {variation : ParsedTransactionVariation}
    (h : variation ∈ domainState.candidates variationName) : ∃ name,
      domainState.txVariations.lookup name = some variation ∧
        ∀ n, variationName = some n → n = name := by
  obtain ⟨⟨name, _⟩, hmem, rfl⟩ := List.mem_map.1 h
  obtain ⟨hentry, hname⟩ := List.mem_filter.1 hmem
  refine ⟨name, AList.mem_lookup_iff.2 hentry, fun n hn => ?_⟩
  subst hn
  exact (of_decide_eq_true hname).symm

omit [External] in
/-- The first success among tasks that all ensure `P` satisfies `P`. -/
theorem firstOk_ensures {α : Type} {c : Task.Contract Op Ans} {P : α → Prop} {e : ErrorReply} :
    ∀ {futures : List (Handler α)}, (∀ future ∈ futures, future.Ensures c P) →
      (DomainState.firstOk e futures).Ensures c P
  | [], _ => trivial
  | future :: _, h =>
    (h future List.mem_cons_self).attempt_bind (fun _ ha => ha) fun _ =>
      firstOk_ensures fun future' hmem => h future' (List.mem_cons_of_mem future hmem)

theorem selectOk_ensures {α : Type} {P : α → Prop} {e : ErrorReply} {futures : List (Handler α)}
    (h : ∀ future ∈ futures, future.Ensures (lookupContract known signs) P) :
    (DomainState.selectOk e futures).Ensures (lookupContract known signs) P := by
  refine Task.ensures_perform_bind trivial fun order _ => firstOk_ensures fun future hmem => ?_
  obtain ⟨i, _, hi⟩ := List.mem_filterMap.1 hmem
  exact h future (List.mem_of_getElem? hi)

theorem validateTransaction_ensures {transaction : VersionedTransaction} {t : TransactionToValidate}
    {feeCoefficients : FeeCoefficients} (ht : Parsed transaction t)
    (hfee : CountsTolls known transaction.message feeCoefficients transaction.message.instructions
      t.totalFeeLamports)
    (domainState : DomainState) (sponsor : Pubkey) (variationName : Option String) :
    (domainState.validateTransaction t sponsor variationName).Ensures (lookupContract known signs)
      fun _ => OthersVerified transaction ∧
        AdmittedBy known feeCoefficients variationName domainState transaction sponsor := by
  refine (Task.ensures_lift.2 fun _ h => h).bind fun _ hverify => ?_
  have hothers := othersVerified_of_verifyOtherSigners ht hverify
  have hfutures : ∀ future ∈ (domainState.candidates variationName).map
      (domainState.tryVariation t sponsor), future.Ensures (lookupContract known signs) fun _ =>
        OthersVerified transaction ∧
          AdmittedBy known feeCoefficients variationName domainState transaction sponsor := by
    intro future hmem
    obtain ⟨variation, hvariation, rfl⟩ := List.mem_map.1 hmem
    obtain ⟨name, hlookup, hname⟩ := mem_candidates hvariation
    exact (validateTransaction_admits ht hothers hfee domainState sponsor variation).bind
      fun _ hadmits => ⟨hothers, name, variation, hlookup, hname, hadmits⟩
  dsimp only
  split
  · trivial
  · trivial
  · rename_i future _ _ hlist
    exact hfutures future (hlist ▸ List.mem_cons_self)
  · exact selectOk_ensures hfutures

/-- **The sponsors sign nothing else.** For every state of the server and every request, in every
    run of the handler, whatever the cache, the chain and the other requests answer: it calls for a
    signature only of a sponsor and a message that the request entitles to. `known` is any relation
    that holds of all contents of lookup tables that the cache and the chain answer. -/
theorem sponsorAndSendHandler_sound (known : Pubkey → List Pubkey → Prop) (state : ServerState)
    (request : SponsorAndSendRequest) :
    (sponsorAndSendHandler state request).Meets
      (lookupContract known (Entitled known state request)) fun _ => True := by
  have hensures : (sponsorAndSendHandler state request).Ensures
      (lookupContract known (Entitled known state request)) fun _ => True := by
    unfold sponsorAndSendHandler
    refine (Task.ensures_lift.2 fun _ h => mapErr_eq_ok.1 h).bind fun domain hdomain => ?_
    refine (Task.ensures_lift.2 fun _ h => okOr_eq_ok.1 (mapErr_eq_ok.1 h)).bind
      fun domainState hstate => ?_
    refine (Task.ensures_lift.2 fun _ h => mapErr_eq_ok.1 h).bind fun transaction hdecode => ?_
    refine (Task.ensures_lift.2 fun _ h => okOr_eq_ok.1 (mapErr_eq_ok.1 h)).bind
      fun feePayer hpayer => ?_
    refine (Task.ensures_lift.2 fun _ _ => trivial).bind fun _ _ => ?_
    refine (Task.ensures_lift.2 fun _ h => okOr_eq_ok.1 (mapErr_eq_ok.1 h)).bind
      fun sponsor hsponsor => ?_
    refine (parse_ensures (computePaymasterFees_ensures transaction state.feeCoefficients)).bind
      fun t ht => ?_
    refine (validateTransaction_ensures ht.1 ht.2 domainState sponsor request.variation).bind
      fun _ hvalid => ?_
    -- the sponsor that is found is the fee payer
    have heq : sponsor = feePayer := by simpa using List.find?_some hsponsor
    have hentitled : Entitled known state request sponsor (External.serialize transaction.message) :=
      ⟨domain, domainState, transaction, hdomain, hstate, hdecode, rfl,
        heq ▸ hpayer, List.mem_of_find?_eq_some hsponsor, hvalid.1, hvalid.2⟩
    refine Task.ensures_perform_bind hentitled fun signature _ => ?_
    refine (Task.ensures_lift.2 fun _ _ => trivial).bind fun signedTransaction _ => ?_
    refine Task.ensures_perform_bind trivial fun result _ => ?_
    exact Task.ensures_lift.2 fun _ _ => trivial
  exact Task.Meets.mono (fun _ _ => trivial) hensures

end

end FogoSessions.Paymaster
