import FogoSessions.Paymaster.DomainState

/-!
# Malformed transactions

A request's transaction is not sanitized, so every index in it may be out of range. The one index
that is not guarded is the program id index: `validation_safe_iff` says that parsing and validating
a transaction never panics, whatever the chain answers, exactly when all of them are in range.
-/

namespace FogoSessions.Paymaster

open Lib Solana IntentTransfer

/-- All program id indexes of the message are in range. -/
def ProgramsInRange (message : VersionedMessage) : Prop :=
  ∀ ix ∈ message.instructions, ix.programIdIndex.toNat < message.staticAccountKeys.length

theorem noPanic_programId_iff {ε : Type} {ix : CompiledInstruction} {keys : List Pubkey} :
    NoPanic (ix.programId keys : Outcome ε Pubkey) ↔ ix.programIdIndex.toNat < keys.length := by
  rw [CompiledInstruction.programId, index]
  cases h : keys[ix.programIdIndex.toNat]? with
  | none => simpa [okOr, NoPanic] using List.getElem?_eq_none_iff.1 h
  | some key =>
    have hlt := (List.getElem?_eq_some_iff.1 h).1
    simp [okOr, NoPanic, hlt]

/-! ## Parsing -/

theorem noPanic_substantive? {ε : Type} {ix : CompiledInstruction} {keys : List Pubkey}
    (h : ix.programIdIndex.toNat < keys.length) :
    NoPanic (substantive? keys ix : Outcome ε _) :=
  (noPanic_programId_iff.2 h).bind fun _ _ => noPanic_pure

theorem noPanic_parseSubstantiveInstructions {ε : Type} {message : VersionedMessage}
    (h : ProgramsInRange message) :
    NoPanic (parseSubstantiveInstructions message : Outcome ε _) :=
  (noPanic_filterMapM fun ix hix => noPanic_substantive? (h ix hix)).bind fun _ _ => noPanic_pure

/-- The first instruction with an index out of range stops the parsing. -/
theorem filterMapM_substantive?_panic {ε : Type} {keys : List Pubkey} :
    ∀ {ixs : List CompiledInstruction}, (∃ ix ∈ ixs, keys.length ≤ ix.programIdIndex.toNat) →
      ixs.filterMapM (substantive? keys) = (.error .panic : Outcome ε _)
  | [], h => by simp at h
  | ix :: ixs, h => by
    rw [List.filterMapM_cons]
    rcases Nat.lt_or_ge ix.programIdIndex.toNat keys.length with hlt | hge
    · -- this one is in range, so a later one is not
      have ih : ixs.filterMapM (substantive? keys) = (.error .panic : Outcome ε _) := by
        refine filterMapM_substantive?_panic ?_
        obtain ⟨ix', hmem, hge⟩ := h
        rcases List.mem_cons.1 hmem with rfl | hmem
        · omega
        · exact ⟨ix', hmem, hge⟩
      rw [substantive?, CompiledInstruction.programId, index, List.getElem?_eq_getElem hlt, ih]
      simp only [okOr, Bind.bind, Except.bind, pure, Except.pure]
      split <;> rfl
    · rw [substantive?, CompiledInstruction.programId, index, List.getElem?_eq_none hge]
      rfl

theorem parseSubstantiveInstructions_panic {ε : Type} {message : VersionedMessage}
    (h : ¬ ProgramsInRange message) :
    parseSubstantiveInstructions message = (.error .panic : Outcome ε _) := by
  have hex : ∃ ix ∈ message.instructions,
      message.staticAccountKeys.length ≤ ix.programIdIndex.toNat := by
    simpa [ProgramsInRange] using h
  rw [parseSubstantiveInstructions, filterMapM_substantive?_panic hex]
  rfl

theorem noPanic_note (r : BudgetRequests) (cuIx : ComputeBudgetInstruction) :
    NoPanic (r.note cuIx) := by
  cases cuIx <;> simp only [BudgetRequests.note] <;> first | exact noPanic_bail | split
  all_goals first | exact noPanic_bail | exact noPanic_ok

theorem noPanic_visit {keys : List Pubkey} {ix : CompiledInstruction}
    (h : ix.programIdIndex.toNat < keys.length) (r : BudgetRequests) :
    NoPanic (r.visit keys ix) := by
  refine (noPanic_programId_iff.2 h).bind fun programId _ => ?_
  split
  · exact noPanic_pure
  · split
    · exact noPanic_note r _
    · exact noPanic_bail

theorem noPanic_computeGasSpend {transaction : VersionedTransaction}
    (h : ProgramsInRange transaction.message) : NoPanic (computeGasSpend transaction) := by
  have hcount : NoPanic (getNumberPrecompileSignatures transaction) :=
    (noPanic_mapM fun ix hix => (noPanic_programId_iff.2 (h ix hix)).bind fun programId _ => by
      split <;> exact noPanic_pure).bind fun _ _ => noPanic_pure
  have hbudget : NoPanic (processComputeBudgetInstructions transaction) :=
    (noPanic_foldlM (fun r ix hix => noPanic_visit (h ix hix) r) _).bind fun _ _ => noPanic_pure
  exact hcount.bind fun _ _ => hbudget.bind fun _ _ => noPanic_pure

theorem noPanic_parsePayTollInstruction (ix : CompiledInstruction) :
    NoPanic (parsePayTollInstruction ix) := by
  unfold parsePayTollInstruction
  split
  · exact noPanic_bail
  · split
    · split
      · exact noPanic_ok
      · exact noPanic_bail
    · exact noPanic_bail

section Chain

variable [External]

omit [External] in
theorem safe_reply {α : Type} {P : α → Prop} (e : ErrorReply) : (reply e : Handler α).Safe P :=
  show (Fault.err e : Fault ErrorReply) ≠ .panic by simp

namespace ChainIndex

theorem safe_updateLookupTable (table : Pubkey) :
    (updateLookupTable table).Safe fun _ => True := by
  refine Task.safe_perform_bind fun answer => ?_
  split
  · exact safe_reply _
  · split
    · exact safe_reply _
    · exact Task.safe_perform_bind fun _ => trivial

theorem safe_queryLookupTableWithRetry (table : Pubkey) (index : Nat) :
    (queryLookupTableWithRetry table index).Safe fun _ => True := by
  refine Task.Safe.bind (P := fun _ => True)
    (Task.safe_perform_bind fun _ => Task.safe_pure.2 trivial) fun entry _ => ?_
  split
  · trivial
  · refine (safe_updateLookupTable table).bind fun addresses _ => ?_
    split
    · trivial
    · exact safe_reply _

/-- Every account index is guarded. -/
theorem safe_resolve (message : VersionedMessage) (ix : InstructionWithIndex) (i : Nat) :
    (resolveInstructionAccountPubkey message ix i).Safe fun _ => True := by
  unfold resolveInstructionAccountPubkey
  split
  · exact safe_reply _
  · dsimp only
    split
    · trivial
    · rename_i hkey _
      rw [subtract_of_le (List.getElem?_eq_none_iff.1 hkey)]
      change (findAndQueryLookupTable _ _).Safe _
      unfold findAndQueryLookupTable
      split
      · exact safe_queryLookupTableWithRetry _ _
      · exact safe_reply _
    · exact safe_reply _

end ChainIndex

theorem safe_computePaymasterFees {transaction : VersionedTransaction}
    (h : ProgramsInRange transaction.message) (feeCoefficients : FeeCoefficients) :
    (computePaymasterFees transaction feeCoefficients).Safe fun _ => True := by
  refine Task.safe_foldlM (fun total ix hix => ?_) _
  have hrange := h _ (instruction_mem_of_mem_enumerate hix)
  refine Task.safe_lift_bind (noPanic_programId_iff.2 hrange) fun programId _ => ?_
  split
  · refine Task.safe_lift_bind (noPanic_parsePayTollInstruction _).mapFault fun amount _ => ?_
    exact (ChainIndex.safe_resolve _ _ _).bind fun _ _ => trivial
  · trivial

theorem safe_parse {transaction : VersionedTransaction} (h : ProgramsInRange transaction.message)
    (feeCoefficients : FeeCoefficients) :
    (TransactionToValidate.parse transaction feeCoefficients).Safe (Parsed transaction) := by
  unfold TransactionToValidate.parse
  refine Task.safe_lift_bind (noPanic_parseSubstantiveInstructions h) fun ixs hixs => ?_
  refine Task.safe_lift_bind (noPanic_computeGasSpend h).mapFault fun gas hgas => ?_
  exact (safe_computePaymasterFees h feeCoefficients).bind fun _ _ =>
    ⟨rfl, rfl, hixs, mapFault_eq_ok.1 hgas⟩

/-! ## Data constraints -/

theorem noPanic_recoverSignerPubkey (signedQuote : SignedQuote) :
    NoPanic (recoverSignerPubkey signedQuote) := by
  refine noPanic_mapErr.bind fun body _ => noPanic_mapErr.bind fun components _ => ?_
  obtain ⟨signature, recoveryIndex⟩ := components
  refine (noPanic_mapErr (f := id)).bind fun secpPubkey _ => ?_
  -- the last 20 bytes of a hash are an address
  obtain ⟨address, haddress⟩ : ∃ address : H160,
      FixedBytes.ofBytes? ((External.keccak (secpPubkey.bytes.drop 1)).bytes.drop 12) =
        some address := by
    unfold FixedBytes.ofBytes?
    rw [dif_pos (by rw [List.length_drop, FixedBytes.length_eq])]
    exact ⟨_, rfl⟩
  dsimp only
  rw [haddress]
  exact noPanic_require.bind fun _ _ => noPanic_pure

omit [External] in
/-- The one byte of a one-byte range is there. -/
theorem noPanic_head {ε : Type} {data : Bytes} (hdata : data.length = 1) :
    NoPanic (okOr data.head? .panic : Outcome ε UInt8) := by
  obtain ⟨byte, rfl⟩ := List.length_eq_one_iff.1 hdata
  exact noPanic_ok

theorem noPanic_checkBytes {data : Bytes} {c : ParsedDataConstraintSpecification}
    (hdata : data.length = c.byteLength) : NoPanic (c.checkBytes data) := by
  cases c with
  | u8 constraint => exact (noPanic_head hdata).bind fun _ _ => noPanic_pure
  | bool constraint => exact (noPanic_head hdata).bind fun _ _ => noPanic_pure
  | u16 constraint => exact noPanic_okOr.bind fun _ _ => noPanic_pure
  | u32 constraint => exact noPanic_okOr.bind fun _ _ => noPanic_pure
  | u64 constraint => exact noPanic_okOr.bind fun _ _ => noPanic_pure
  | pubkey constraint => exact noPanic_okOr.bind fun _ _ => noPanic_pure
  | bytes constraint => exact noPanic_pure
  | nttSignedQuoter constraint =>
    refine noPanic_mapErr.bind fun quote _ => ?_
    obtain ⟨signedQuote, _⟩ := quote
    exact (noPanic_recoverSignerPubkey signedQuote).bind fun _ _ => noPanic_pure

theorem noPanic_checkData (c : ParsedDataConstraint) (ix : InstructionWithIndex) :
    NoPanic (c.checkData ix) := by
  unfold ParsedDataConstraint.checkData
  dsimp only
  split
  · exact noPanic_bail
  · rename_i data hdata
    exact (noPanic_checkBytes (slice?_length hdata)).bind fun _ _ => noPanic_mapErr

/-! ## Validation -/

section Validation

variable {transaction : VersionedTransaction} {t : TransactionToValidate}

theorem safe_validateAccount (ix : InstructionWithIndex) (keys : ContextualDomainKeys)
    (c : AccountConstraint) :
    (ParsedInstructionConstraint.validateAccount t ix keys c).Safe fun _ => True :=
  (ChainIndex.safe_resolve _ _ _).bind fun _ _ =>
    Task.safe_lift.2 ⟨noPanic_mapErr, fun _ _ => trivial⟩

theorem safe_validateInstruction (c : ParsedInstructionConstraint) {ix : InstructionWithIndex}
    (hix : ix.instruction.programIdIndex.toNat < t.message.staticAccountKeys.length)
    (keys : ContextualDomainKeys) (variationName : String) :
    (c.validateInstruction t ix keys variationName).Safe fun _ => True := by
  refine Task.safe_lift_bind (noPanic_programId_iff.2 hix) fun programId _ => ?_
  split
  · exact safe_reply _
  · refine (Task.safe_forM fun account _ => safe_validateAccount ix keys account).bind fun _ _ => ?_
    exact Task.safe_lift.2
      ⟨noPanic_forM fun d _ => (noPanic_checkData d ix).mapFault, fun _ _ => trivial⟩

theorem safe_matchConstraints (v : ParsedVariationOrderedInstructionConstraints)
    (keys : ContextualDomainKeys) :
    ∀ (i : Nat) (constraints : List ParsedInstructionConstraint) (ixs : List InstructionWithIndex),
      (∀ ix ∈ ixs, ix.instruction.programIdIndex.toNat < t.message.staticAccountKeys.length) →
        (v.matchConstraints t keys i constraints ixs).Safe fun _ => True
  | _, [], _, _ => trivial
  | i, c :: constraints, ixs, hixs => by
    have hnext : (v.validateNext t keys i c ixs).Safe fun _ => True := by
      cases ixs with
      | nil => exact safe_reply _
      | cons ix ixs => exact safe_validateInstruction c (hixs ix List.mem_cons_self) keys v.name
    refine hnext.attempt_bind (fun _ _ => ?_) fun e => ?_
    · exact safe_matchConstraints v keys _ _ _ fun ix hix => hixs ix (List.mem_of_mem_tail hix)
    · dsimp only
      split
      · exact safe_reply e
      · exact safe_matchConstraints v keys _ _ _ hixs

theorem safe_validateTransactionAgainstVariation (ht : Parsed transaction t)
    (h : ProgramsInRange transaction.message) (domainState : DomainState)
    (variation : ParsedTransactionVariation) (sponsor : Pubkey) :
    (domainState.validateTransactionAgainstVariation t variation sponsor).Safe fun _ => True := by
  rw [← ht.message_eq] at h
  cases variation with
  | v0 v =>
    refine Task.safe_lift.2 ⟨noPanic_forM fun ix hix => ?_, fun _ _ => trivial⟩
    exact (noPanic_programId_iff.2 (h ix hix)).bind fun _ _ => noPanic_require
  | v1 v =>
    refine Task.safe_lift_bind noPanic_require fun _ _ => ?_
    refine Task.safe_lift_bind noPanic_mapErr fun _ _ => ?_
    refine (safe_matchConstraints v _ _ _ _ fun ix hix => h _ ?_).bind fun rest _ => ?_
    · have hmem := List.mem_map_of_mem (f := (·.instruction)) hix
      rw [ht.map_instruction] at hmem
      exact ht.message_eq ▸ List.mem_of_mem_filter hmem
    · split
      · trivial
      · exact safe_reply _

/-- Parsing a transaction and validating it against a variation of a domain. -/
def parseAndValidate (transaction : VersionedTransaction) (feeCoefficients : FeeCoefficients)
    (domainState : DomainState) (variation : ParsedTransactionVariation) (sponsor : Pubkey) :
    Handler Unit := do
  let t ← TransactionToValidate.parse transaction feeCoefficients
  domainState.validateTransactionAgainstVariation t variation sponsor

/-- **When a malformed transaction cannot crash the validator.** Whatever the chain and the other
    requests answer, parsing the transaction and validating it against any variation of any domain
    returns and does not panic, exactly when every program id index of the message is in range. -/
theorem validation_safe_iff (transaction : VersionedTransaction) :
    (∀ feeCoefficients domainState variation sponsor,
      (parseAndValidate transaction feeCoefficients domainState variation sponsor).Safe
        fun _ => True) ↔
      ProgramsInRange transaction.message := by
  constructor
  · intro hsafe
    by_contra h
    let key : Pubkey := DomainRegistry.getDomainRecordAddress ""
    have hpanic := hsafe (fun _ => none)
      { domainRegistryKey := key, sponsors := [key], sponsors_nonempty := List.cons_ne_nil _ _
        enablePreflightSimulation := true, txVariations := ∅, nextAutoassignedSponsorIndex := 0 }
      (.v0 ⟨"", []⟩) key
    rw [parseAndValidate, TransactionToValidate.parse, parseSubstantiveInstructions_panic h] at hpanic
    exact hpanic rfl
  · intro h feeCoefficients domainState variation sponsor
    exact (safe_parse h feeCoefficients).bind fun t ht =>
      safe_validateTransactionAgainstVariation ht h domainState variation sponsor

end Validation

end Chain

/-! ## A transaction that crashes the validator -/

namespace OutOfRange

/-- One key, one instruction, and a program id index of 1. -/
def transaction : VersionedTransaction where
  signatures := [.ofNat 1]
  message := .legacy
    { header := ⟨1, 0, 0⟩, accountKeys := [.ofNat 7], recentBlockhash := .ofNat 0
      instructions := [⟨1, [], []⟩] }

theorem validation_panics :
    letI := External.uncalled
    (∀ feeCoefficients domainState variation sponsor,
      parseAndValidate transaction feeCoefficients domainState variation sponsor =
        .done (.error .panic)) ∧
      ¬ ∀ feeCoefficients domainState variation sponsor,
        (parseAndValidate transaction feeCoefficients domainState variation sponsor).Safe
          fun _ => True := by
  let _ := External.uncalled
  refine ⟨fun _ _ _ _ => rfl, fun hsafe => ?_⟩
  exact hsafe (fun _ => none)
    { domainRegistryKey := .ofNat 0, sponsors := [.ofNat 7], sponsors_nonempty := by decide
      enablePreflightSimulation := true, txVariations := ∅, nextAutoassignedSponsorIndex := 0 }
    (.v0 ⟨"", []⟩) (.ofNat 7) rfl

end OutOfRange

end FogoSessions.Paymaster
