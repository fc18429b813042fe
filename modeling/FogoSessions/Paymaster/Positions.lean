import FogoSessions.Lib.Calls
import FogoSessions.Paymaster.GasCap
import FogoSessions.Paymaster.Malformed

/-!
# Where the substantive instructions stand

The parser means to store the position of every substantive instruction in the message, for the
error messages of the validators, but it numbers the instructions after it has dropped the others.
`parse_positions_iff` says for which messages the two numberings are the same, and
`refused_at_position` that an error then names the instruction at which the message was refused.
-/

namespace FogoSessions.Paymaster

open Lib Solana

/-! ## Numbering before and after a filter -/

section

variable {α : Type} {p : α → Bool}

/-- Nothing that is filtered out stands before something that is kept. -/
def KeptFirst (p : α → Bool) (as : List α) : Prop := as.Pairwise fun a b => p b → p a

theorem keptFirst_cons_of_pos {a : α} {as : List α} (ha : p a) :
    KeptFirst p (a :: as) ↔ KeptFirst p as := by
  unfold KeptFirst
  rw [List.pairwise_cons]
  exact and_iff_right fun b _ _ => ha

theorem keptFirst_cons_of_neg {a : α} {as : List α} (ha : ¬ p a) :
    KeptFirst p (a :: as) ↔ as.filter p = [] := by
  unfold KeptFirst
  rw [List.pairwise_cons, List.filter_eq_nil_iff]
  constructor
  · intro h b hb hpb
    exact ha (h.1 b hb hpb)
  · intro h
    refine ⟨fun b hb hpb => absurd hpb (h b hb), ?_⟩
    apply List.pairwise_of_forall_mem_list
    intro b _ c hc hpc
    exact absurd hpc (h c hc)

theorem le_of_mem_zipIdx_filter {as : List α} {start : Nat} {x : α × Nat}
    (h : x ∈ (as.zipIdx start).filter fun x => p x.1) : start ≤ x.2 :=
  List.le_snd_of_mem_zipIdx (List.mem_of_mem_filter h)

/-- The two numberings agree exactly when the kept elements come first. -/
theorem zipIdx_filter_iff (as : List α) (start : Nat) :
    (as.filter p).zipIdx start = (as.zipIdx start).filter (fun x => p x.1) ↔ KeptFirst p as := by
  induction as generalizing start with
  | nil => exact iff_of_true rfl List.Pairwise.nil
  | cons a as ih =>
    rw [List.zipIdx_cons]
    by_cases ha : p a
    · rw [List.filter_cons_of_pos ha, List.filter_cons_of_pos (p := fun x : α × Nat => p x.1) ha,
        List.zipIdx_cons, keptFirst_cons_of_pos ha, ← ih (start + 1)]
      exact List.cons_inj_right _
    · rw [List.filter_cons_of_neg ha, List.filter_cons_of_neg (p := fun x : α × Nat => p x.1) ha,
        keptFirst_cons_of_neg ha]
      constructor
      · intro h
        cases hkept : as.filter p with
        | nil => rfl
        | cons b bs =>
          -- the first kept element has the number `start` on one side only
          rw [hkept, List.zipIdx_cons] at h
          have hmem : (b, start) ∈ (as.zipIdx (start + 1)).filter fun x => p x.1 :=
            h ▸ List.mem_cons_self
          have hle := le_of_mem_zipIdx_filter hmem
          omega
      · intro hnone
        rw [hnone, List.zipIdx_nil]
        symm
        rw [List.filter_eq_nil_iff] at hnone ⊢
        intro x hx
        exact hnone x.1 (List.fst_mem_of_mem_zipIdx hx)

end

/-! ## The errors that name an instruction -/

section

/-- The texts that name an instruction, with the number they name it by. -/
inductive Numbered (index : Nat) : String → Prop where
  | account (account : Pubkey) (complaint : String) :
      Numbered index s!"Instruction {index}: Account {account} {complaint}"
  | accountIncludes (account : Pubkey) : Numbered index
      (s!"Instruction {index}: Account {account} does not match any include constraints")
  | dataRange (startByte : UInt16) (last length : Nat) : Numbered index
      (s!"Instruction {index}: Data constraint byte range {startByte}-{last} is out of bounds "
        ++ s!"for data length {length}")
  | data (err : String) :
      Numbered index s!"Instruction {index}: Data constraint not satisfied: {err}"
  | program (programId expected : Pubkey) (variationName : String) : Numbered index
      (s!"Transaction instruction {index} program ID {programId} does not match "
        ++ s!"expected ID {expected} for variation {variationName}")
  | accountIndex (i : Nat) :
      Numbered index s!"Account index {i} out of bounds for instruction {index}"
  | lookupTables (i : Nat) : Numbered index
      (s!"Account index {i} for instruction {index} expected to be in the address table "
        ++ "lookup but the transaction does not reference any address table lookups")
  | leftOver (variationName : String) : Numbered index
      (s!"Ran out of constraints while validating instruction {index} for variation {variationName}")

variable [External]

/-- The errors of a lookup and of a conversion, which name no instruction. -/
inductive Unnumbered : ErrorReply → Prop where
  | lookup {lookups : List (Pubkey × UInt8)} {position : Nat} {calls : List (Sigma Ans)}
      {e : ErrorReply} : (ChainIndex.findAndQueryLookupTable lookups position).Performs calls
        (.error (.err e)) → Unnumbered e
  | conversion {constraint : ParsedDataConstraintSpecification} {bytes : Bytes} {message : String} :
      constraint.checkBytes bytes = .error (.err message) → Unnumbered (badRequest message)

/-- The error names this instruction, or none. -/
def Blames (ix : InstructionWithIndex) (e : ErrorReply) : Prop :=
  Numbered ix.index e.message ∨ Unnumbered e

omit [External] in
theorem AccountConstraint.checkAccount_numbered {c : AccountConstraint} {account : Pubkey} {signers : List Pubkey}
    {keys : ContextualDomainKeys} {index : Nat} {message : String}
    (h : c.checkAccount account signers keys index = .error message) : Numbered index message := by
  obtain hexcluded | ⟨_, -, hincludes⟩ := bind_eq_error.1 h
  · obtain ⟨excluded, -, hmatches⟩ := forM_eq_error hexcluded
    obtain ⟨-, rfl⟩ := require_eq_error.1 hmatches
    exact .account ..
  · split at hincludes
    · obtain ⟨-, rfl⟩ := require_eq_error.1 hincludes
      exact .accountIncludes _
    · cases hincludes

theorem ParsedDataConstraint.checkData_blames {c : ParsedDataConstraint} {ix : InstructionWithIndex} {message : String}
    (h : c.checkData ix = .error (.err message)) : Blames ix (badRequest message) := by
  unfold checkData at h
  dsimp only at h
  split at h
  · cases h
    exact .inl (.dataRange ..)
  · obtain hbytes | ⟨_, -, hcheck⟩ := bind_eq_error.1 h
    · exact .inr (.conversion hbytes)
    · obtain ⟨err, -, herr⟩ := mapErr_eq_error.1 hcheck
      cases herr
      exact .inl (.data err)

variable {calls : List (Sigma Ans)} {e : ErrorReply}

theorem ChainIndex.resolve_blames {message : VersionedMessage} {ix : InstructionWithIndex} {i : Nat}
    (h : (ChainIndex.resolveInstructionAccountPubkey message ix i).Performs calls (.error (.err e))) :
    Blames ix e := by
  unfold resolveInstructionAccountPubkey at h
  split at h
  · cases h
    exact .inl (.accountIndex i)
  · dsimp only at h
    split at h
    · cases h
    · obtain ⟨_, he, hsubtract⟩ | ⟨_, _, _, -, -, hlookup⟩ := Task.Performs.of_bind h
      · cases he
        obtain ⟨-, hsubtract⟩ := Task.performs_lift hsubtract
        unfold subtract at hsubtract
        split at hsubtract <;> cases hsubtract
      · exact .inr (.lookup hlookup)
    · cases h
      exact .inl (.lookupTables i)

theorem ParsedInstructionConstraint.validateAccount_blames {transaction : TransactionToValidate} {ix : InstructionWithIndex}
    {keys : ContextualDomainKeys} {a : AccountConstraint}
    (h : (ParsedInstructionConstraint.validateAccount transaction ix keys a).Performs calls
      (.error (.err e))) : Blames ix e := by
  obtain ⟨_, he, hresolve⟩ | ⟨account, _, _, -, -, hcheck⟩ := Task.Performs.of_bind h
  · cases he
    exact ChainIndex.resolve_blames hresolve
  · obtain ⟨-, hcheck⟩ := Task.performs_lift hcheck
    obtain ⟨message, hfails, he⟩ := mapErr_eq_error.1 hcheck.symm
    cases he
    exact .inl (AccountConstraint.checkAccount_numbered hfails)

theorem ParsedInstructionConstraint.validateInstruction_blames {c : ParsedInstructionConstraint}
    {transaction : TransactionToValidate} {ix : InstructionWithIndex} {keys : ContextualDomainKeys}
    {variationName : String}
    (h : (c.validateInstruction transaction ix keys variationName).Performs calls (.error (.err e))) :
    Blames ix e := by
  obtain ⟨_, he, hprogram⟩ | ⟨programId, _, _, -, -, hchecks⟩ := Task.Performs.of_bind h
  · cases he
    obtain ⟨-, hprogram⟩ := Task.performs_lift hprogram
    cases (okOr_eq_error.1 hprogram.symm).2
  · split at hchecks
    · cases hchecks
      exact .inl (.program ..)
    · obtain ⟨_, he, haccounts⟩ | ⟨_, _, _, -, -, hdata⟩ := Task.Performs.of_bind hchecks
      · cases he
        obtain ⟨a, -, _, haccount⟩ := Task.Performs.of_forM haccounts
        exact validateAccount_blames haccount
      · obtain ⟨-, hdata⟩ := Task.performs_lift hdata
        obtain ⟨d, -, hfails⟩ := forM_eq_error hdata.symm
        obtain ⟨fault, hcheck, hfault⟩ := mapErr_eq_error.1 hfails
        cases fault with
        | panic => cases hfault
        | err message =>
          cases hfault
          exact ParsedDataConstraint.checkData_blames hcheck

namespace ParsedVariationOrderedInstructionConstraints

variable {v : ParsedVariationOrderedInstructionConstraints} {transaction : TransactionToValidate}
  {keys : ContextualDomainKeys}

/-- The variation refuses the transaction at this instruction: one of its constraints does not
    accept the instruction, or none is left for it. -/
inductive RefusesAt (v : ParsedVariationOrderedInstructionConstraints)
    (transaction : TransactionToValidate) (keys : ContextualDomainKeys) (ix : InstructionWithIndex)
    (e : ErrorReply) : Prop where
  | constraint {c : ParsedInstructionConstraint} {calls : List (Sigma Ans)} : c ∈ v.instructions →
      (c.validateInstruction transaction ix keys v.name).Performs calls (.error (.err e)) →
      RefusesAt v transaction keys ix e
  | leftOver : e = badRequest
      (s!"Ran out of constraints while validating instruction {ix.index} for variation {v.name}") →
      RefusesAt v transaction keys ix e

theorem RefusesAt.blames {ix : InstructionWithIndex} (h : v.RefusesAt transaction keys ix e) :
    Blames ix e := by
  cases h with
  | constraint _ h => exact ParsedInstructionConstraint.validateInstruction_blames h
  | leftOver h =>
    subst h
    exact .inl (.leftOver v.name)

/-- A constraint found no instruction to check. -/
def RunsOut (v : ParsedVariationOrderedInstructionConstraints) (e : ErrorReply) : Prop :=
  ∃ i : Nat, e = badRequest
    (s!"Ran out of instructions while validating constraint {i} for variation {v.name}")

/-- How the loop over the constraints ends: with instructions that it had to check, or with an error
    at one of them. -/
def Ends (v : ParsedVariationOrderedInstructionConstraints) (transaction : TransactionToValidate)
    (keys : ContextualDomainKeys) (ixs : List InstructionWithIndex) :
    Except (Fault ErrorReply) (List InstructionWithIndex) → Prop
  | .ok rest => rest ⊆ ixs
  | .error (.err e) => (∃ ix ∈ ixs, v.RefusesAt transaction keys ix e) ∨ v.RunsOut e
  | .error .panic => True

theorem Ends.of_tail {ixs : List InstructionWithIndex}
    {r : Except (Fault ErrorReply) (List InstructionWithIndex)}
    (h : v.Ends transaction keys ixs.tail r) : v.Ends transaction keys ixs r := by
  match r, h with
  | .ok _, h => exact List.Subset.trans h (List.tail_subset ixs)
  | .error (.err _), .inl ⟨ix, hix, hrefuses⟩ => exact .inl ⟨ix, List.mem_of_mem_tail hix, hrefuses⟩
  | .error (.err _), .inr h => exact .inr h
  | .error .panic, _ => trivial

theorem validateNext_refuses {c : ParsedInstructionConstraint} (hc : c ∈ v.instructions) {i : Nat}
    {ixs : List InstructionWithIndex}
    (h : (v.validateNext transaction keys i c ixs).Performs calls (.error (.err e))) :
    (∃ ix ∈ ixs, v.RefusesAt transaction keys ix e) ∨ v.RunsOut e := by
  cases ixs with
  | nil =>
    cases h
    exact .inr ⟨i, rfl⟩
  | cons ix ixs => exact .inl ⟨ix, List.mem_cons_self, .constraint hc h⟩

/-- By induction on the constraints that are left. -/
theorem matchConstraints_ends {constraints : List ParsedInstructionConstraint}
    (hconstraints : ∀ c ∈ constraints, c ∈ v.instructions) {i : Nat}
    {ixs : List InstructionWithIndex} {calls : List (Sigma Ans)}
    {r : Except (Fault ErrorReply) (List InstructionWithIndex)}
    (h : (v.matchConstraints transaction keys i constraints ixs).Performs calls r) :
    v.Ends transaction keys ixs r := by
  induction constraints generalizing i ixs calls with
  | nil =>
    obtain ⟨-, rfl⟩ := Task.performs_lift h
    exact List.Subset.refl ixs
  | cons c constraints ih =>
    obtain ⟨hc, hconstraints⟩ := List.forall_mem_cons.1 hconstraints
    obtain ⟨fault, rfl, hpanics⟩ | ⟨checked, _, _, -, hnext, hrest⟩ := Task.Performs.of_bind h
    · obtain ⟨_, hr, -⟩ | ⟨_, hr, -⟩ | ⟨hr, -⟩ := hpanics.of_attempt
      · cases hr
      · cases hr
      · cases hr
        trivial
    · obtain ⟨_, hr, -⟩ | ⟨e, hr, hfails⟩ | ⟨hr, -⟩ := hnext.of_attempt
      · cases hr
        exact .of_tail (ih hconstraints hrest)
      · cases hr
        dsimp only at hrest
        split at hrest
        · cases hrest
          exact validateNext_refuses hc hfails
        · exact ih hconstraints hrest
      · cases hr

/-- An error of the ordered matching is one at an instruction of the transaction, unless the
    instructions ran out. -/
theorem validateInstructionConstraints_refuses
    (h : (v.validateInstructionConstraints transaction keys).Performs calls (.error (.err e))) :
    (∃ ix ∈ transaction.substantiveInstructions, v.RefusesAt transaction keys ix e) ∨
      v.RunsOut e := by
  obtain ⟨_, he, hmatch⟩ | ⟨rest, _, _, -, hmatch, hrest⟩ := Task.Performs.of_bind h
  · cases he
    exact matchConstraints_ends (fun c hc => hc) hmatch
  · have hsubset : rest ⊆ _ := matchConstraints_ends (fun c hc => hc) hmatch
    split at hrest
    · cases hrest
    · cases hrest
      exact .inl ⟨_, hsubset List.mem_cons_self, .leftOver rfl⟩

end ParsedVariationOrderedInstructionConstraints

end

/-! ## The parser -/

/-- The substantive instructions of the message, each with its position in the message. -/
def positioned (message : VersionedMessage) : List InstructionWithIndex :=
  (enumerate message.instructions).filter fun ix =>
    isSubstantive message.staticAccountKeys ix.instruction

/-- No compute-budget or tollbooth instruction stands before a substantive one. -/
def SubstantiveFirst (message : VersionedMessage) : Prop :=
  KeptFirst (isSubstantive message.staticAccountKeys) message.instructions

theorem mem_enumerate {ixs : List CompiledInstruction} {ix : InstructionWithIndex} :
    ix ∈ enumerate ixs ↔ ixs[ix.index]? = some ix.instruction := by
  simp only [enumerate, List.mem_map, Prod.exists, List.mk_mem_zipIdx_iff_getElem?]
  constructor
  · rintro ⟨instruction, index, hget, rfl⟩
    exact hget
  · intro hget
    exact ⟨ix.instruction, ix.index, hget, rfl⟩

theorem enumerate_filter_iff (message : VersionedMessage) :
    enumerate (message.instructions.filter (isSubstantive message.staticAccountKeys)) =
        positioned message ↔ SubstantiveFirst message := by
  unfold SubstantiveFirst positioned
  rw [← zipIdx_filter_iff _ 0, enumerate, enumerate, List.filter_map]
  apply List.map_inj_right
  rintro ⟨ix, i⟩ ⟨ix', i'⟩ h
  cases h
  rfl

theorem substantive?_of_lt {ε : Type} {keys : List Pubkey} {ix : CompiledInstruction}
    (h : ix.programIdIndex.toNat < keys.length) :
    substantive? keys ix =
      (.ok (if isSubstantive keys ix then some ix else none) : Outcome ε _) := by
  have hkey := List.getElem?_eq_getElem h
  have hload : (ix.programId keys : Outcome ε Pubkey) = .ok keys[ix.programIdIndex.toNat] :=
    index_eq_ok.2 hkey
  unfold substantive?
  rw [hload]
  by_cases hmem : keys[ix.programIdIndex.toNat] ∈ nonSubstantiveProgramIds
  · simp [isSubstantive, hkey, hmem, Bind.bind, Except.bind, pure, Except.pure]
  · simp [isSubstantive, hkey, hmem, Bind.bind, Except.bind, pure, Except.pure]

theorem filterMapM_substantive?_of_lt {ε : Type} {keys : List Pubkey}
    {ixs : List CompiledInstruction} (h : ∀ ix ∈ ixs, ix.programIdIndex.toNat < keys.length) :
    ixs.filterMapM (substantive? keys) =
      (.ok (ixs.filter (isSubstantive keys)) : Outcome ε _) := by
  induction ixs with
  | nil => rfl
  | cons ix ixs ih =>
    have ih := ih fun ix' hix' => h ix' (List.mem_cons_of_mem ix hix')
    rw [List.filterMapM_cons, substantive?_of_lt (h ix List.mem_cons_self), ih]
    by_cases hix : isSubstantive keys ix
    · rw [if_pos hix, List.filter_cons_of_pos hix]
      rfl
    · rw [if_neg hix, List.filter_cons_of_neg hix]
      rfl

/-- In range, the instructions are the substantive ones of the message, numbered from 0. -/
theorem parseSubstantiveInstructions_eq {ε : Type} {message : VersionedMessage}
    (h : ProgramsInRange message) :
    parseSubstantiveInstructions message = (.ok (enumerate (message.instructions.filter
      (isSubstantive message.staticAccountKeys))) : Outcome ε _) := by
  unfold parseSubstantiveInstructions
  rw [filterMapM_substantive?_of_lt h]
  rfl

/-- With the substantive instructions first, the instruction that an error of the ordered matching
    names is the one in the message at which the transaction was refused. -/
theorem refused_at_position [External] {message : VersionedMessage} (hrange : ProgramsInRange message)
    (hfirst : SubstantiveFirst message) {t : TransactionToValidate}
    (hparse : parseSubstantiveInstructions message =
      (.ok t.substantiveInstructions : Outcome ErrorReply _))
    {v : ParsedVariationOrderedInstructionConstraints} {keys : ContextualDomainKeys}
    {calls : List (Sigma Ans)} {e : ErrorReply}
    (h : (v.validateInstructionConstraints t keys).Performs calls (.error (.err e))) :
    (∃ ix, message.instructions[ix.index]? = some ix.instruction ∧ v.RefusesAt t keys ix e ∧
      Blames ix e) ∨ v.RunsOut e := by
  rw [parseSubstantiveInstructions_eq hrange, (enumerate_filter_iff message).2 hfirst] at hparse
  have hpositioned := Except.ok.inj hparse
  obtain ⟨ix, hix, hrefuses⟩ | hout := v.validateInstructionConstraints_refuses h
  · rw [← hpositioned] at hix
    exact .inl ⟨ix, mem_enumerate.1 (List.mem_of_mem_filter hix), hrefuses, hrefuses.blames⟩
  · exact .inr hout

/-- **When the substantive instructions keep their positions.** Parsing a transaction whose program
    id indexes are in range yields the substantive instructions of its message in order; they carry
    their positions in the message, so that the instruction an error names is the offending one
    (`refused_at_position`), exactly when no other instruction stands before a substantive one. -/
theorem parse_positions_iff [External] (transaction : VersionedTransaction)
    (h : ProgramsInRange transaction.message) :
    ∃ ixs, parseSubstantiveInstructions transaction.message = (.ok ixs : Outcome ErrorReply _) ∧
      (∀ feeCoefficients, (TransactionToValidate.parse transaction feeCoefficients).Ensures .free
        fun t => t.substantiveInstructions = ixs) ∧
      ixs.map (·.instruction) = transaction.message.instructions.filter
        (isSubstantive transaction.message.staticAccountKeys) ∧
      (ixs = positioned transaction.message ∧
          (∀ ix ∈ ixs, transaction.message.instructions[ix.index]? = some ix.instruction) ↔
        SubstantiveFirst transaction.message) := by
  have hparse := parseSubstantiveInstructions_eq (ε := ErrorReply) h
  refine ⟨_, hparse, fun feeCoefficients => ?_, map_instruction_enumerate _, ?_⟩
  · refine (parse_ensures (Task.ensures_true _)).mono fun t ht => ?_
    have heq := ht.1.substantive_eq.symm.trans hparse
    exact Except.ok.inj heq
  · rw [enumerate_filter_iff]
    constructor
    · exact And.left
    · intro hfirst
      refine ⟨hfirst, fun ix hix => ?_⟩
      rw [(enumerate_filter_iff _).2 hfirst] at hix
      exact mem_enumerate.1 (List.mem_of_mem_filter hix)

/-! ## A transaction whose error names the wrong instruction -/

namespace Misnumbered

/-- A compute-unit limit, and a system instruction after it. -/
def transaction : VersionedTransaction where
  signatures := [.ofNat 1]
  message := .legacy
    { header := ⟨1, 0, 2⟩
      accountKeys := [.ofNat 7, Ids.computeBudget, Ids.systemProgram]
      recentBlockhash := .ofNat 0
      instructions := [⟨1, [], [2, 160, 134, 1, 0]⟩, ⟨2, [], []⟩] }

/-- A variation that allows no instruction. -/
def variation : ParsedVariationOrderedInstructionConstraints where
  name := "none"
  instructions := []
  maxGasSpend := 5000
  paymasterFeeLamports := none
  swapIntoFogo := []

/-- The system instruction is the second one of the message, and the error calls it number 0, which
    is the compute-budget instruction's. -/
theorem error_names_other :
    letI := External.uncalled
    parseSubstantiveInstructions transaction.message ≠
        (.ok (positioned transaction.message) : Outcome ErrorReply _) ∧
      parseSubstantiveInstructions transaction.message =
        (.ok [⟨0, ⟨2, [], []⟩⟩] : Outcome ErrorReply _) ∧
      transaction.message.instructions[0]? = some ⟨1, [], [2, 160, 134, 1, 0]⟩ ∧
      validateV1 transaction (fun _ => none) variation ⟨.ofNat 0, .ofNat 7⟩ =
        reply (badRequest
          "Ran out of constraints while validating instruction 0 for variation none") := by
  have hparse : parseSubstantiveInstructions transaction.message =
      (.ok [⟨0, ⟨2, [], []⟩⟩] : Outcome ErrorReply _) := by decide +kernel
  have hpositioned : positioned transaction.message = [⟨1, ⟨2, [], []⟩⟩] := by decide +kernel
  refine ⟨?_, hparse, rfl, rfl⟩
  rw [hparse, hpositioned]
  decide

end Misnumbered

/-- With the compute-unit limit after it, the system instruction keeps its position. -/
theorem parse_positions_iff_trailing :
    letI message : VersionedMessage := .legacy
      { header := ⟨1, 0, 2⟩
        accountKeys := [.ofNat 7, Ids.computeBudget, Ids.systemProgram]
        recentBlockhash := .ofNat 0
        instructions := [⟨2, [], []⟩, ⟨1, [], [2, 160, 134, 1, 0]⟩] }
    ∃ ixs, parseSubstantiveInstructions message = (.ok ixs : Outcome ErrorReply _) ∧
      ixs = positioned message ∧
      ∀ ix ∈ ixs, message.instructions[ix.index]? = some ix.instruction := by
  let _ := External.uncalled
  have hrange : ∀ ix ∈ [(⟨2, [], []⟩ : CompiledInstruction), ⟨1, [], [2, 160, 134, 1, 0]⟩],
      ix.programIdIndex.toNat < 3 := by simp
  obtain ⟨ixs, hparse, -, -, hiff⟩ := parse_positions_iff
    { signatures := [.ofNat 1]
      message := .legacy
        { header := ⟨1, 0, 2⟩
          accountKeys := [.ofNat 7, Ids.computeBudget, Ids.systemProgram]
          recentBlockhash := .ofNat 0
          instructions := [⟨2, [], []⟩, ⟨1, [], [2, 160, 134, 1, 0]⟩] } } hrange
  obtain ⟨heq, hget⟩ := hiff.2 (by unfold SubstantiveFirst KeptFirst; decide +kernel)
  exact ⟨ixs, hparse, heq, hget⟩

end FogoSessions.Paymaster
