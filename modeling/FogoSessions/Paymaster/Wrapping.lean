import FogoSessions.Paymaster.Config
import FogoSessions.Paymaster.Greedy

/-!
# Constraints on wrapping native tokens

`requires_wrapped_native_tokens` adds optional constraints around a constraint. Because instructions
are matched greedily, an added constraint can take an instruction that a later constraint needs;
where none does, the flag only widens the variation.
-/

namespace FogoSessions.Paymaster

open Lib Solana

/-! ## The flag of some constraints -/

/-- The constraint with its flag set to `flag` if it is chosen. -/
def InstructionConstraint.setWrapped (flag : Bool) (c : InstructionConstraint) (chosen : Bool) :
    InstructionConstraint :=
  if chosen then { c with requiresWrappedNativeTokens := flag } else c

namespace VariationOrderedInstructionConstraints

/-- The constraints, each with whether its position is chosen. -/
def choices (v : VariationOrderedInstructionConstraints) (chosen : Nat → Bool) :
    List (InstructionConstraint × Bool) :=
  v.instructions.mapIdx fun i c => (c, chosen i)

/-- The variation with the flags of the chosen constraints set to `flag`. -/
def setWrapped (v : VariationOrderedInstructionConstraints) (chosen : Nat → Bool) (flag : Bool) :
    VariationOrderedInstructionConstraints :=
  { v with instructions := (v.choices chosen).map fun (c, b) => c.setWrapped flag b }

end VariationOrderedInstructionConstraints

/-- The constraints of a chosen constraint with its flag set, those that the flag adds marked; and
    the constraints of one that is not chosen, none of them marked. -/
def expandMarked (c : InstructionConstraint) (chosen : Bool) :
    Except String (List (ParsedInstructionConstraint × Bool)) :=
  if chosen then do
    let parsed ← ParsedInstructionConstraint.tryFrom c
    return [(.sessionWrapInstructionConstraint, true),
      (.createAtaIdempotentInstructionConstraint, true), (.syncNativeInstructionConstraint, true),
      (parsed, false), (.closeTokenAccountConstraint, true)]
  else List.map (·, false) <$> expand c

/-- The constraints that are not marked. -/
def unmarked (marked : List (ParsedInstructionConstraint × Bool)) :
    List ParsedInstructionConstraint :=
  (marked.filter fun x => ¬ x.2).map Prod.fst

def VariationOrderedInstructionConstraints.marked (v : VariationOrderedInstructionConstraints)
    (chosen : Nat → Bool) : Except String (List (ParsedInstructionConstraint × Bool)) :=
  List.flatten <$> (v.choices chosen).mapM fun (c, b) => expandMarked c b

/-- Setting the flag adds the marked constraints. -/
theorem expand_setWrapped_true (c : InstructionConstraint) (chosen : Bool) :
    expand (c.setWrapped true chosen) = List.map Prod.fst <$> expandMarked c chosen := by
  cases chosen with
  | false =>
    rw [expandMarked, if_neg Bool.false_ne_true]
    cases h : expand c with
    | error e => exact h
    | ok parsed =>
      refine h.trans (congrArg Except.ok ?_)
      simp [Function.comp_def]
  | true =>
    rw [expandMarked, if_pos rfl]
    change (ParsedInstructionConstraint.tryFrom c >>= _) = _
    cases ParsedInstructionConstraint.tryFrom c with
    | error e => rfl
    | ok parsed => rfl

/-- Clearing the flag leaves the others. -/
theorem expand_setWrapped_false (c : InstructionConstraint) (chosen : Bool) :
    expand (c.setWrapped false chosen) = unmarked <$> expandMarked c chosen := by
  cases chosen with
  | false =>
    rw [expandMarked, if_neg Bool.false_ne_true]
    cases h : expand c with
    | error e => exact h
    | ok parsed =>
      refine h.trans (congrArg Except.ok ?_)
      simp [unmarked, List.filter_map, Function.comp_def]
  | true =>
    rw [expandMarked, if_pos rfl]
    change (ParsedInstructionConstraint.tryFrom c >>= _) = _
    cases ParsedInstructionConstraint.tryFrom c with
    | error e => rfl
    | ok parsed => rfl

/-- The parsed variation with the given constraints. -/
def VariationOrderedInstructionConstraints.withConstraints
    (v : VariationOrderedInstructionConstraints) (constraints : List ParsedInstructionConstraint) :
    ParsedVariationOrderedInstructionConstraints where
  name := v.name
  instructions := constraints
  maxGasSpend := v.maxGasSpend
  paymasterFeeLamports := v.paymasterFeeLamports
  swapIntoFogo := v.swapIntoFogo.filter (·.nonzero)

theorem tryFrom_setWrapped {v : VariationOrderedInstructionConstraints} {chosen : Nat → Bool}
    {flag : Bool} {g : List (ParsedInstructionConstraint × Bool) → List ParsedInstructionConstraint}
    (hg : ∀ c b, expand (InstructionConstraint.setWrapped flag c b) = g <$> expandMarked c b)
    (hflatten : ∀ xs, (List.map g xs).flatten = g xs.flatten) :
    ParsedVariationOrderedInstructionConstraints.tryFrom (v.setWrapped chosen flag) =
      (fun marked => v.withConstraints (g marked)) <$> v.marked chosen := by
  have hmap : (v.setWrapped chosen flag).instructions.mapM expand =
      List.map g <$> (v.choices chosen).mapM fun (c, b) => expandMarked c b := by
    rw [VariationOrderedInstructionConstraints.setWrapped, List.mapM_map]
    exact mapM_map_result (fun x : InstructionConstraint × Bool => hg x.1 x.2) _
  rw [ParsedVariationOrderedInstructionConstraints.tryFrom, hmap,
    VariationOrderedInstructionConstraints.marked]
  cases (v.choices chosen).mapM fun (c, b) => expandMarked c b with
  | error e => rfl
  | ok lists =>
    change Except.ok (v.withConstraints (List.map g lists).flatten) = _
    rw [hflatten]
    rfl

theorem tryFrom_setWrapped_true (v : VariationOrderedInstructionConstraints)
    (chosen : Nat → Bool) :
    ParsedVariationOrderedInstructionConstraints.tryFrom (v.setWrapped chosen true) =
      (fun marked => v.withConstraints (marked.map Prod.fst)) <$> v.marked chosen :=
  tryFrom_setWrapped expand_setWrapped_true fun _ => List.map_flatten.symm

theorem tryFrom_setWrapped_false (v : VariationOrderedInstructionConstraints)
    (chosen : Nat → Bool) :
    ParsedVariationOrderedInstructionConstraints.tryFrom (v.setWrapped chosen false) =
      (fun marked => v.withConstraints (unmarked marked)) <$> v.marked chosen := by
  refine tryFrom_setWrapped expand_setWrapped_false fun xs => ?_
  rw [unmarked, List.filter_flatten, List.map_flatten, List.map_map]
  rfl

/-! ## The flag widens, without ambiguity -/

section

variable [External] {view : View} {t : TransactionToValidate} {keys : ContextualDomainKeys}

omit [External] in
theorem inRange_of_parsed {transaction : VersionedTransaction} (ht : Parsed transaction t) :
    InRange t t.substantiveInstructions := by
  intro ix hix
  have hmem : ix.instruction ∈ t.substantiveInstructions.map (·.instruction) :=
    List.mem_map_of_mem hix
  rw [ht.map_instruction, ← ht.message_eq] at hmem
  have hsubstantive := (List.mem_filter.1 hmem).2
  rw [isSubstantive, Option.any_eq_true] at hsubstantive
  obtain ⟨programId, hprogram, -⟩ := hsubstantive
  exact (List.getElem?_eq_some_iff.1 hprogram).1

/-- The validation decides whether the gas spend and the fee are in order and the greedy matching
    consumes all instructions. -/
theorem validateTransaction_decides (v : ParsedVariationOrderedInstructionConstraints)
    (hrange : InRange t t.substantiveInstructions) :
    (v.validateTransaction t keys).Meets (view.contract t.message)
      (Task.Decides fun _ => t.gasSpend ≤ v.maxGasSpend ∧
        t.totalFeeLamports ≥ v.paymasterFeeLamports.getD 0 ∧
        GreedyMatch view t keys t.substantiveInstructions v.instructions []) := by
  refine Task.meets_decides_bind (meets_lift_decides noPanic_require) (fun _ hgas => ?_)
    fun _ h => ⟨⟨⟩, require_eq_ok.2 h.1⟩
  refine Task.meets_decides_bind (meets_lift_decides noPanic_mapErr) (fun _ hfee => ?_)
    fun _ h => ⟨⟨⟩, mapErr_eq_ok.2 (require_eq_ok.2 h.2.1)⟩
  refine Task.meets_decides_mono (validateInstructionConstraints_decides v hrange) fun _ => ?_
  have hgas := require_eq_ok.1 hgas
  have hfee := require_eq_ok.1 (mapErr_eq_ok.1 hfee)
  exact ⟨fun h => ⟨hgas, hfee, h⟩, fun h => h.2.2⟩

/-- No substantive instruction passes both a marked constraint and a later one that is not. -/
def NoCapture (view : View) (t : TransactionToValidate) (keys : ContextualDomainKeys)
    (marked : List (ParsedInstructionConstraint × Bool)) : Prop :=
  marked.Pairwise fun x y => x.2 = true → y.2 = false →
    ∀ ix ∈ t.substantiveInstructions, Passes view t keys ix x.1 → ¬ Passes view t keys ix y.1

omit [External] in
/-- The marked constraints are optional. -/
theorem not_required_of_marked {c : InstructionConstraint} {chosen : Bool}
    {marked : List (ParsedInstructionConstraint × Bool)} (h : expandMarked c chosen = .ok marked) :
    ∀ x ∈ marked, x.2 = true → x.1.required = false := by
  unfold expandMarked at h
  split at h
  · obtain ⟨parsed, -, h⟩ := bind_eq_ok.1 h
    cases pure_eq_ok.1 h
    simp [ParsedInstructionConstraint.sessionWrapInstructionConstraint,
      ParsedInstructionConstraint.createAtaIdempotentInstructionConstraint,
      ParsedInstructionConstraint.syncNativeInstructionConstraint,
      ParsedInstructionConstraint.closeTokenAccountConstraint]
  · obtain ⟨parsed, -, rfl⟩ := map_eq_ok.1 h
    intro x hx
    obtain ⟨c, -, rfl⟩ := List.mem_map.1 hx
    exact nofun

omit [External] in
theorem not_required_of_mem_marked {v : VariationOrderedInstructionConstraints}
    {chosen : Nat → Bool} {marked : List (ParsedInstructionConstraint × Bool)}
    (h : v.marked chosen = .ok marked) : ∀ x ∈ marked, x.2 = true → x.1.required = false := by
  obtain ⟨lists, hlists, rfl⟩ := map_eq_ok.1 h
  intro x hx
  obtain ⟨list, hlist, hx⟩ := List.mem_flatten.1 hx
  obtain ⟨_, -, hexpand⟩ := exists_of_mem_mapM hlists list hlist
  exact not_required_of_marked hexpand x hx

/-- Marked constraints that capture nothing leave a complete greedy matching complete. -/
theorem greedyMatch_of_unmarked {marked : List (ParsedInstructionConstraint × Bool)}
    (hopt : ∀ x ∈ marked, x.2 = true → x.1.required = false)
    (hcapture : NoCapture view t keys marked)
    (h : GreedyMatch view t keys t.substantiveInstructions (unmarked marked) []) :
    GreedyMatch view t keys t.substantiveInstructions (marked.map Prod.fst) [] := by
  refine greedy_map.2 (@Greedy.of_filter _ _ _ _ Prod.snd _ _ (fun x hx hadded => ?_) hcapture
    (greedy_map.1 h))
  rw [hopt x hx hadded]
  exact Bool.false_ne_true

/-- **The flag only widens a variation, where the constraints it adds are unambiguous**: setting the
    flags of chosen constraints adds the marked ones. If no substantive instruction passes both a
    marked constraint and a later one that is not marked, a transaction that a run accepts without
    the flags is accepted in every run with them. -/
theorem requiresWrapped_widens {v : VariationOrderedInstructionConstraints} {chosen : Nat → Bool}
    {a : ParsedVariationOrderedInstructionConstraints}
    (ha : ParsedVariationOrderedInstructionConstraints.tryFrom (v.setWrapped chosen false) = .ok a) :
    ∃ marked b, v.marked chosen = .ok marked ∧
      ParsedVariationOrderedInstructionConstraints.tryFrom (v.setWrapped chosen true) = .ok b ∧
      a.instructions = unmarked marked ∧ b.instructions = marked.map Prod.fst ∧
      ∀ (view : View) (transaction : VersionedTransaction) (t : TransactionToValidate)
        (keys : ContextualDomainKeys), Parsed transaction t → NoCapture view t keys marked →
        (a.validateTransaction t keys).Ends (view.contract t.message) (.ok ⟨⟩) →
        (b.validateTransaction t keys).Meets (view.contract t.message)
          fun result => result = .ok ⟨⟩ := by
  rw [tryFrom_setWrapped_false] at ha
  obtain ⟨marked, hmarked, rfl⟩ := map_eq_ok.1 ha
  refine ⟨marked, v.withConstraints (marked.map Prod.fst), hmarked, ?_, rfl, rfl, ?_⟩
  · rw [tryFrom_setWrapped_true, hmarked]
    rfl
  · intro view transaction t keys ht hcapture hends
    have hrange := inRange_of_parsed ht
    obtain ⟨hgas, hfee, hgreedy⟩ := (validateTransaction_decides _ hrange).of_ends hends
    have hgreedy' := greedyMatch_of_unmarked (not_required_of_mem_marked hmarked) hcapture hgreedy
    refine Task.Meets.mono (fun result h => ?_) (validateTransaction_decides _ hrange)
    exact Task.eq_ok_of_decides h ⟨hgas, hfee, hgreedy'⟩

end

/-- A variation of one required instruction of the system program with the given number. -/
def systemVariation (instruction : UInt32) : VariationOrderedInstructionConstraints where
  name := "v"
  instructions := [{
    program := ⟨Ids.systemProgram, systemProgram_substantive⟩
    accounts := []
    data := [⟨0, .equalTo [.u32 instruction]⟩]
    required := true
    requiresWrappedNativeTokens := false }]
  maxGasSpend := 5000
  paymasterFeeLamports := none
  swapIntoFogo := []

/-- A transaction of one instruction of the system program. -/
def systemTransaction (data : Bytes) : VersionedTransaction where
  signatures := [.ofNat 0]
  message := .legacy {
    header := ⟨1, 0, 1⟩
    accountKeys := [.ofNat 10, Ids.systemProgram]
    recentBlockhash := .ofNat 0
    instructions := [⟨1, [], data⟩] }

def systemTransactionToValidate (data : Bytes) : TransactionToValidate where
  message := (systemTransaction data).message
  signatures := (systemTransaction data).signatures
  substantiveInstructions := [⟨0, ⟨1, [], data⟩⟩]
  gasSpend := 5000
  totalFeeLamports := 0

theorem requiresWrapped_widens_sample :
    let _ : External := .uncalled
    let view : View := ⟨fun _ _ => none, fun _ => True⟩
    let t := systemTransactionToValidate [2, 0, 0, 0]
    let keys : ContextualDomainKeys := ⟨.ofNat 1, .ofNat 10⟩
    ∃ b, ParsedVariationOrderedInstructionConstraints.tryFrom
        ((systemVariation 2).setWrapped (fun _ => true) true) = .ok b ∧
      b.instructions.length = 5 ∧
      (b.validateTransaction t keys).Meets (view.contract t.message)
        fun result => result = .ok ⟨⟩ := by
  intro _ view t keys
  have hparsed : Parsed (systemTransaction [2, 0, 0, 0]) t := by
    refine ⟨rfl, rfl, ?_, ?_⟩ <;> decide +kernel
  have ha : ParsedVariationOrderedInstructionConstraints.tryFrom
      ((systemVariation 2).setWrapped (fun _ => true) false) =
        .ok ((systemVariation 2).withConstraints [systemConstraint 2]) := rfl
  obtain ⟨marked, b, hmarked, hb, -, hinstructions, hwidens⟩ := requiresWrapped_widens ha
  have hlist : (systemVariation 2).marked (fun _ => true) =
      .ok [(.sessionWrapInstructionConstraint, true),
        (.createAtaIdempotentInstructionConstraint, true), (.syncNativeInstructionConstraint, true),
        (systemConstraint 2, false), (.closeTokenAccountConstraint, true)] := rfl
  cases hlist.symm.trans hmarked
  refine ⟨b, hb, by rw [hinstructions]; rfl, hwidens view _ t keys hparsed ?_ (.done _)⟩
  -- no added constraint is for a system transfer
  refine List.pairwise_of_forall_mem_list fun x hx y _ hadded _ ix hix hpasses => ?_
  rw [List.mem_singleton.1 hix] at hpasses
  simp only [List.mem_cons, List.not_mem_nil, or_false] at hx
  rcases hx with rfl | rfl | rfl | rfl | rfl
  · exact nomatch hpasses.data _ List.mem_cons_self
  · exact absurd hpasses.program (by decide +kernel)
  · exact absurd hpasses.program (by decide +kernel)
  · cases hadded
  · exact absurd hpasses.program (by decide +kernel)

/-- The wrap constraint takes the only instruction, and the required constraint behind it is left
    without one. -/
theorem requiresWrapped_captures :
    let _ : External := .uncalled
    let t := systemTransactionToValidate [0, 9, 61, 0]
    let keys : ContextualDomainKeys := ⟨.ofNat 1, .ofNat 10⟩
    ∃ a b e, ParsedVariationOrderedInstructionConstraints.tryFrom
        ((systemVariation 4000000).setWrapped (fun _ => true) false) = .ok a ∧
      ParsedVariationOrderedInstructionConstraints.tryFrom
        ((systemVariation 4000000).setWrapped (fun _ => true) true) = .ok b ∧
      Parsed (systemTransaction [0, 9, 61, 0]) t ∧
      a.validateTransaction t keys = .done (.ok ⟨⟩) ∧
      b.validateTransaction t keys = .done (.error (.err e)) := by
  intro _ t keys
  refine ⟨_, _, _, rfl, rfl, ⟨rfl, rfl, ?_, ?_⟩, rfl, rfl⟩ <;> decide +kernel

end FogoSessions.Paymaster
