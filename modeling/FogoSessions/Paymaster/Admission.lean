import FogoSessions.Lib.Matching
import FogoSessions.Paymaster.DomainState

/-!
# What a variation admits

The declarative meaning of a variation. `Admits` says which transactions are meant to be sponsored;
`validateTransaction_admits` that the validation accepts no others. The loop over a V1 variation's
constraints amounts to a strictly increasing map from the substantive instructions to the
constraints.
-/

namespace FogoSessions.Paymaster

open Lib Solana

variable [External]

/-! ## Admitted transactions -/

/-- The account is a static key that signed the message, and not the fee payer's slot. -/
def SignedBy (transaction : VersionedTransaction) (account : Pubkey) : Prop :=
  ∃ i signature, 1 ≤ i ∧ transaction.signatures[i]? = some signature ∧
    transaction.message.staticAccountKeys[i]? = some account ∧
    Ed25519.verifyStrict account (External.serialize transaction.message) signature = true

/-- The account is the one, or one of those, that a constraint means. -/
def Denotes (transaction : VersionedTransaction) (keys : ContextualDomainKeys) (account : Pubkey) :
    ContextualPubkey → Prop
  | .explicit pubkey => account = pubkey
  | .sponsor => account = keys.sponsor
  | .nonFeePayerSigner => SignedBy transaction account
  | .domainRegistry => account = keys.domainRegistry

/-- The account satisfies the constraint on it. -/
structure AccountConstraint.Holds (transaction : VersionedTransaction) (keys : ContextualDomainKeys)
    (account : Pubkey) (c : AccountConstraint) : Prop where
  excludes : ∀ excluded ∈ c.excludes, ¬ Denotes transaction keys account excluded
  includes : c.includes = [] ∨ ∃ included ∈ c.includes, Denotes transaction keys account included

section

variable (known : Pubkey → List Pubkey → Prop) (transaction : VersionedTransaction)
  (keys : ContextualDomainKeys)

/-- The instruction satisfies the constraint: its program is the constraint's, and every account
    and data constraint holds. -/
structure Satisfies (ix : CompiledInstruction) (c : ParsedInstructionConstraint) : Prop where
  program : transaction.message.staticAccountKeys[ix.programIdIndex.toNat]? = some c.program.pubkey
  accounts : ∀ a ∈ c.accounts, ∃ account,
    Resolves known transaction.message ix a.index.toNat account ∧ a.Holds transaction keys account
  data : ∀ d ∈ c.data, ∃ bytes,
    slice? ix.data d.startByte.toNat d.constraint.byteLength = some bytes ∧
      d.constraint.checkBytes bytes = .ok (.ok ⟨⟩)

/-- A V0 variation admits the transactions of its programs. -/
def VariationProgramWhitelist.Admits (v : VariationProgramWhitelist) : Prop :=
  ∀ ix ∈ transaction.message.instructions, ∃ programId ∈ v.whitelistedPrograms,
    transaction.message.staticAccountKeys[ix.programIdIndex.toNat]? = some programId

/-- A V1 variation admits the transactions whose gas spend is within its cap, whose tolls pay its
    fee, and whose substantive instructions, all of them, match its constraints in order, so that no
    required constraint is left out. -/
structure ParsedVariationOrderedInstructionConstraints.Admits (feeCoefficients : FeeCoefficients)
    (v : ParsedVariationOrderedInstructionConstraints) : Prop where
  gas : ∃ gasSpend, computeGasSpend transaction = .ok gasSpend ∧ gasSpend ≤ v.maxGasSpend
  fee : ∃ fee, CountsTolls known transaction.message feeCoefficients
      transaction.message.instructions fee ∧ v.paymasterFeeLamports.getD 0 ≤ fee
  instructions : ∃ f, IsMatching (Satisfies known transaction keys)
    (fun c : ParsedInstructionConstraint => c.required = true)
    (transaction.message.instructions.filter (isSubstantive transaction.message.staticAccountKeys))
    v.instructions f

def Admits (feeCoefficients : FeeCoefficients) : ParsedTransactionVariation → Prop
  | .v0 v => v.Admits transaction
  | .v1 v => v.Admits known transaction keys feeCoefficients

end

/-! ## The checks -/

section

variable {known : Pubkey → List Pubkey → Prop} {signs : Pubkey → Bytes → Prop}
  {transaction : VersionedTransaction} {t : TransactionToValidate} {keys : ContextualDomainKeys}

/-- Every signature but the fee payer's verifies. -/
def OthersVerified (transaction : VersionedTransaction) : Prop :=
  ∀ i signature account, 1 ≤ i → transaction.signatures[i]? = some signature →
    transaction.message.staticAccountKeys[i]? = some account →
    Ed25519.verifyStrict account (External.serialize transaction.message) signature = true

theorem othersVerified_of_verifyOtherSigners (ht : Parsed transaction t)
    (h : DomainState.verifyOtherSigners t = .ok ⟨⟩) : OthersVerified transaction := by
  intro i signature account hi hsignature haccount
  have hzip : (t.signatures.zip t.message.staticAccountKeys)[i]? = some (signature, account) := by
    rw [List.getElem?_zip_eq_some, ht.signatures_eq, ht.message_eq]
    exact ⟨hsignature, haccount⟩
  have hmem : (signature, account) ∈ DomainState.otherSigners t := by
    refine List.mem_iff_getElem?.2 ⟨i - 1, ?_⟩
    rw [DomainState.otherSigners, List.getElem?_drop, show 1 + (i - 1) = i by omega]
    exact hzip
  have hverify := require_eq_ok.1 (forM_eq_ok.1 h (signature, account) hmem)
  rwa [ht.message_eq] at hverify

/-- The keys in the signers' slots are those that signed. -/
theorem mem_signers_iff (h : OthersVerified transaction) {account : Pubkey} :
    account ∈ (transaction.message.staticAccountKeys.take transaction.signatures.length).drop 1 ↔
      SignedBy transaction account := by
  rw [List.mem_iff_getElem?]
  constructor
  · rintro ⟨j, hj⟩
    rw [List.getElem?_drop, List.getElem?_take] at hj
    split at hj
    · rename_i hlt
      obtain ⟨signature, hsignature⟩ : ∃ s, transaction.signatures[1 + j]? = some s :=
        ⟨_, List.getElem?_eq_getElem hlt⟩
      exact ⟨1 + j, signature, by omega, hsignature, hj, h _ _ _ (by omega) hsignature hj⟩
    · cases hj
  · rintro ⟨i, signature, hi, hsignature, haccount, _⟩
    have hlt := (List.getElem?_eq_some_iff.1 hsignature).1
    refine ⟨i - 1, ?_⟩
    rw [List.getElem?_drop, List.getElem?_take, show 1 + (i - 1) = i by omega, if_pos hlt]
    exact haccount

theorem denotes_iff (h : OthersVerified transaction) (c : ContextualPubkey) (account : Pubkey) :
    c.denotes account (transaction.message.staticAccountKeys.take transaction.signatures.length)
      keys = true ↔ Denotes transaction keys account c := by
  cases c with
  | nonFeePayerSigner => simp only [ContextualPubkey.denotes, decide_eq_true_eq, mem_signers_iff h]; rfl
  | explicit pubkey => simp [ContextualPubkey.denotes, Denotes]
  | sponsor => simp [ContextualPubkey.denotes, Denotes]
  | domainRegistry => simp [ContextualPubkey.denotes, Denotes]

omit [External] in
theorem matchesAccount_eq_ok {c : ContextualPubkey} {account : Pubkey} {signers : List Pubkey}
    {expectInclude : Bool} {i : Nat} {r : Unit} :
    c.matchesAccount account signers keys expectInclude i = .ok r ↔
      expectInclude = c.denotes account signers keys := require_eq_ok

/-- An account that passes the check satisfies the constraint. -/
theorem checkAccount_holds (h : OthersVerified transaction) {c : AccountConstraint}
    {account : Pubkey} {i : Nat} {r : Unit}
    (hcheck : c.checkAccount account
      (transaction.message.staticAccountKeys.take transaction.signatures.length) keys i = .ok r) :
    c.Holds transaction keys account := by
  obtain ⟨_, hexcludes, hincludes⟩ := bind_eq_ok.1 hcheck
  rw [forM_eq_ok] at hexcludes
  refine ⟨fun excluded hmem hdenotes => ?_, ?_⟩
  · have hnot := matchesAccount_eq_ok.1 (hexcludes excluded hmem)
    rw [(denotes_iff h excluded account).2 hdenotes] at hnot
    cases hnot
  · split at hincludes
    · right
      obtain ⟨included, hmem, hok⟩ := List.any_eq_true.1 (require_eq_ok.1 hincludes)
      refine ⟨included, hmem, (denotes_iff h included account).1 ?_⟩
      cases hmatch : included.matchesAccount account _ keys true i with
      | ok r => exact (matchesAccount_eq_ok.1 hmatch).symm
      | error e => simp [hmatch, Except.isOk, Except.toBool] at hok
    · rename_i hempty
      left
      simpa using hempty

theorem validateAccount_ensures (ht : Parsed transaction t) (h : OthersVerified transaction)
    (ix : InstructionWithIndex) (a : AccountConstraint) :
    (ParsedInstructionConstraint.validateAccount t ix keys a).Ensures (lookupContract known signs)
      fun _ => ∃ account, Resolves known transaction.message ix.instruction a.index.toNat account ∧
        a.Holds transaction keys account := by
  unfold ParsedInstructionConstraint.validateAccount
  rw [ht.message_eq, ht.signatures_eq]
  refine (ChainIndex.resolve_ensures _ _ _).bind fun account haccount => ?_
  exact Task.ensures_lift.2 fun _ hcheck =>
    ⟨account, haccount, checkAccount_holds h (mapErr_eq_ok.1 hcheck)⟩

theorem checkData_eq_ok {d : ParsedDataConstraint} {ix : InstructionWithIndex} {r : Unit}
    (hcheck : d.checkData ix = .ok r) : ∃ bytes,
      slice? ix.instruction.data d.startByte.toNat d.constraint.byteLength = some bytes ∧
        d.constraint.checkBytes bytes = .ok (.ok ⟨⟩) := by
  unfold ParsedDataConstraint.checkData at hcheck
  dsimp only at hcheck
  split at hcheck
  · cases hcheck
  · rename_i bytes hbytes
    obtain ⟨result, hresult, hcheck⟩ := bind_eq_ok.1 hcheck
    rw [mapErr_eq_ok] at hcheck
    exact ⟨bytes, hbytes, hcheck ▸ hresult⟩

/-- An instruction that passes the validation satisfies the constraint. -/
theorem validateInstruction_ensures (ht : Parsed transaction t) (h : OthersVerified transaction)
    (ix : InstructionWithIndex) (c : ParsedInstructionConstraint) (variationName : String) :
    (c.validateInstruction t ix keys variationName).Ensures (lookupContract known signs)
      fun _ => Satisfies known transaction keys ix.instruction c := by
  refine (Task.ensures_lift.2 fun _ h => index_eq_ok.1 h).bind fun programId hprogram => ?_
  split
  · trivial
  · rename_i hid
    refine (Task.ensures_forM fun a _ => validateAccount_ensures ht h ix a).bind fun _ haccounts => ?_
    refine Task.ensures_lift.2 fun _ hdata => ⟨?_, haccounts, fun d hd => ?_⟩
    · rw [← ht.message_eq, hprogram, not_not.1 hid]
    · exact checkData_eq_ok (mapFault_eq_ok.1 (forM_eq_ok.1 hdata d hd))

/-- The loop: the instructions it consumes are a prefix and match the constraints. -/
theorem matchConstraints_ensures (ht : Parsed transaction t) (h : OthersVerified transaction)
    (v : ParsedVariationOrderedInstructionConstraints) :
    ∀ (i : Nat) (constraints : List ParsedInstructionConstraint) (ixs : List InstructionWithIndex),
      (v.matchConstraints t keys i constraints ixs).Ensures (lookupContract known signs) fun rest =>
        ∃ consumed, ixs = consumed ++ rest ∧
          Matches (fun ix c => Satisfies known transaction keys ix.instruction c)
            (fun c : ParsedInstructionConstraint => c.required = true) consumed constraints
  | _, [], ixs => ⟨[], rfl, .nil⟩
  | i, c :: constraints, ixs => by
    have hnext : (v.validateNext t keys i c ixs).Ensures (lookupContract known signs)
        fun _ => ∃ ix rest, ixs = ix :: rest ∧ Satisfies known transaction keys ix.instruction c := by
      cases ixs with
      | nil => trivial
      | cons ix rest =>
        exact (validateInstruction_ensures ht h ix c v.name).mono fun _ hsat => ⟨ix, rest, rfl, hsat⟩
    refine hnext.attempt_bind (fun _ hsat => ?_) fun e => ?_
    · -- the instruction is consumed
      obtain ⟨ix, tail, rfl, hsat⟩ := hsat
      refine (matchConstraints_ensures ht h v (i + 1) constraints tail).mono fun rest hrest => ?_
      obtain ⟨consumed, rfl, hmatches⟩ := hrest
      exact ⟨ix :: consumed, rfl, .take hsat hmatches⟩
    · dsimp only
      split
      · trivial
      · -- the constraint is skipped
        rename_i hrequired
        refine (matchConstraints_ensures ht h v (i + 1) constraints ixs).mono fun rest hrest => ?_
        obtain ⟨consumed, hixs, hmatches⟩ := hrest
        exact ⟨consumed, hixs, .skip hrequired hmatches⟩

theorem validateInstructionConstraints_ensures (ht : Parsed transaction t)
    (h : OthersVerified transaction) (v : ParsedVariationOrderedInstructionConstraints) :
    (v.validateInstructionConstraints t keys).Ensures (lookupContract known signs) fun _ =>
      ∃ f, IsMatching (Satisfies known transaction keys)
        (fun c : ParsedInstructionConstraint => c.required = true)
        (transaction.message.instructions.filter
          (isSubstantive transaction.message.staticAccountKeys)) v.instructions f := by
  refine (matchConstraints_ensures ht h v 0 v.instructions _).bind fun rest hrest => ?_
  obtain ⟨consumed, hconsumed, hmatches⟩ := hrest
  cases rest with
  | cons ix rest => trivial
  | nil =>
    rw [List.append_nil] at hconsumed
    rw [← hconsumed] at hmatches
    exact ht.map_instruction ▸ hmatches.map.strictMono

/-- The validation against a variation accepts only what the variation admits. -/
theorem validateTransaction_admits {feeCoefficients : FeeCoefficients} (ht : Parsed transaction t)
    (h : OthersVerified transaction)
    (hfee : CountsTolls known transaction.message feeCoefficients transaction.message.instructions
      t.totalFeeLamports)
    (domainState : DomainState) (sponsor : Pubkey) (variation : ParsedTransactionVariation) :
    (domainState.validateTransactionAgainstVariation t variation sponsor).Ensures
      (lookupContract known signs) fun _ =>
        Admits known transaction ⟨domainState.domainRegistryKey, sponsor⟩ feeCoefficients
          variation := by
  cases variation with
  | v0 v =>
    refine Task.ensures_lift.2 fun _ hok ix hix => ?_
    rw [← ht.message_eq] at hix ⊢
    obtain ⟨programId, hprogram, hmem⟩ := bind_eq_ok.1 (forM_eq_ok.1 hok ix hix)
    exact ⟨programId, require_eq_ok.1 hmem, index_eq_ok.1 hprogram⟩
  | v1 v =>
    refine (Task.ensures_lift.2 fun _ hok => require_eq_ok.1 hok).bind fun _ hgas => ?_
    refine (Task.ensures_lift.2 fun _ hok => require_eq_ok.1 (mapErr_eq_ok.1 hok)).bind
      fun _ hpaid => ?_
    refine (validateInstructionConstraints_ensures ht h v).mono fun _ hmatching => ?_
    exact ⟨⟨_, ht.gasSpend_eq, hgas⟩, ⟨_, hfee, hpaid⟩, hmatching⟩

end

end FogoSessions.Paymaster
