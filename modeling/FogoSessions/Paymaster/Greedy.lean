import FogoSessions.Lib.Matching
import FogoSessions.Paymaster.LookupTables

/-!
# What the greedy validation decides

While the lookups of a request find the same entries, validating an instruction against a constraint
is a predicate, `Passes`, and the loop over the constraints is the greedy matching of the
substantive instructions with them. It is incomplete in general; where optional constraints are
unambiguous it finds every matching.
-/

namespace FogoSessions.Paymaster

open Lib Solana

/-! ## Lookups that agree -/

/-- What the lookups of a request find: the entries that its message names, and whether a table is
    fetched from the node or only found in the cache. -/
structure View where
  entry : Pubkey → Nat → Option Pubkey
  fetched : Pubkey → Prop

/-- A lookup of the message names the entry. -/
def Named (message : VersionedMessage) (table : Pubkey) (n : Nat) : Prop :=
  ∃ index : UInt8, (table, index) ∈ ChainIndex.lookupAccounts (message.addressTableLookups.getD []) ∧
    index.toNat = n

/-- The entry of a cached table, if it is cached. -/
def cachedEntry (answer : Option (List Pubkey)) (n : Nat) : Option Pubkey := answer.bind (·[n]?)

section

variable [External]

/-- The entry of an answer of the node, if it is a table. -/
def fetchedEntry (answer : Except String Bytes) (n : Nat) : Option Pubkey :=
  match answer with
  | .error _ => none
  | .ok data =>
    match External.deserializeLookupTable data with
    | .error _ => none
    | .ok addresses => addresses[n]?

/-- The cache and the node answer what is in view. A table that is fetched need not be cached, and
    fetching a table that is not may fail. -/
def View.contract (view : View) (message : VersionedMessage) : Task.Contract Op Ans where
  rely
    | .lookupTableCacheGet table, answer => ∀ n, Named message table n →
        cachedEntry answer n = view.entry table n ∨ view.fetched table ∧ cachedEntry answer n = none
    | .rpcGetAccount table, answer => ∀ n, Named message table n →
        fetchedEntry answer n = view.entry table n ∨
          ¬ view.fetched table ∧ fetchedEntry answer n = none
    | _, _ => True
  guar _ := True

variable {view : View} {message : VersionedMessage}

namespace ChainIndex

/-- What a fetch came to: the entries of the table, or a returned error. -/
def Answered (view : View) (message : VersionedMessage) (table : Pubkey) :
    Except (Fault ErrorReply) (List Pubkey) → Prop
  | .ok addresses => ∀ n, Named message table n →
      addresses[n]? = view.entry table n ∨ ¬ view.fetched table ∧ addresses[n]? = none
  | .error (.err _) => ∀ n, Named message table n → view.entry table n = none ∨ ¬ view.fetched table
  | .error .panic => False

theorem updateLookupTable_answered (table : Pubkey) :
    (updateLookupTable table).Meets (view.contract message) (Answered view message table) := by
  refine Task.meets_perform_bind.2 ⟨trivial, fun answer hanswer => ?_⟩
  have hnone (h : ∀ n, fetchedEntry answer n = none) (n : Nat) (hn : Named message table n) :
      view.entry table n = none ∨ ¬ view.fetched table := by
    rcases hanswer n hn with hentry | ⟨hfetched, -⟩
    · exact Or.inl (hentry.symm.trans (h n))
    · exact Or.inr hfetched
  cases answer with
  | error err => exact hnone fun _ => rfl
  | ok data =>
    dsimp only
    split
    · rename_i e hdecode
      exact hnone fun n => by rw [fetchedEntry, hdecode]
    · rename_i addresses hdecode
      refine ⟨trivial, fun _ _ n hn => ?_⟩
      have hentry := hanswer n hn
      rw [fetchedEntry, hdecode] at hentry
      exact hentry

theorem queryLookupTable_meets {table : Pubkey} {n : Nat} {f : Option Pubkey → Handler Pubkey}
    {P : Except (Fault ErrorReply) Pubkey → Prop}
    (h : ∀ answer, (view.contract message).rely (.lookupTableCacheGet table) answer →
      (f (cachedEntry answer n)).Meets (view.contract message) P) :
    (queryLookupTable table n >>= f).Meets (view.contract message) P :=
  ⟨trivial, h⟩

theorem queryLookupTableWithRetry_decides {table : Pubkey} {n : Nat}
    (hn : Named message table n) :
    (queryLookupTableWithRetry table n).Meets (view.contract message)
      (Task.Decides fun pubkey => view.entry table n = some pubkey) := by
  refine queryLookupTable_meets fun answer hanswer => ?_
  have hcached := hanswer n hn
  cases hfound : cachedEntry answer n with
  | some pubkey =>
    rcases hcached with h | ⟨-, h⟩
    · exact h.symm.trans hfound
    · rw [h] at hfound
      cases hfound
  | none =>
    have hmissing : view.entry table n = none ∨ view.fetched table := by
      rcases hcached with h | ⟨h, -⟩
      · exact Or.inl (h.symm.trans hfound)
      · exact Or.inr h
    refine (updateLookupTable_answered table).bind (fun addresses haddresses => ?_)
      fun e herror => ?_
    · have hentry := haddresses n hn
      split
      · rename_i pubkey hpubkey
        rw [hpubkey] at hentry
        rcases hentry with hentry | ⟨-, hentry⟩
        · exact hentry.symm
        · cases hentry
      · rename_i hnone
        rw [hnone] at hentry
        intro pubkey hpubkey
        rw [hpubkey] at hentry hmissing
        simp_all
    · cases e with
      | panic => exact herror
      | err e =>
        intro pubkey hpubkey
        have hentry := herror n hn
        rw [hpubkey] at hentry hmissing
        simp_all

/-- The resolution decides which key the account has. -/
theorem resolve_decides (ix : InstructionWithIndex) (i : Nat) :
    (resolveInstructionAccountPubkey message ix i).Meets (view.contract message)
      (Task.Decides fun pubkey => accountKey view.entry message ix.instruction i = some pubkey) := by
  unfold resolveInstructionAccountPubkey
  split
  · rename_i hindex
    intro pubkey h
    rw [accountKey, hindex] at h
    cases h
  · rename_i accountIndex hindex
    have hkey : accountKey view.entry message ix.instruction i =
        (accountKeys view.entry message)[accountIndex.toNat]?.join := by
      rw [accountKey, hindex, Option.bind_some]
    rw [hkey]
    dsimp only
    split
    · rename_i hstatic
      rw [accountKeys_static hstatic, Option.join_some]
      exact rfl
    · rename_i lookups hstatic hlookups
      rw [accountKeys_loaded hstatic, hlookups, subtract_of_le (List.getElem?_eq_none_iff.1 hstatic)]
      change (findAndQueryLookupTable _ _).Meets _ _
      unfold findAndQueryLookupTable
      split
      · rename_i table index hentry
        have hn : Named message table index.toNat :=
          ⟨index, by rw [hlookups]; exact List.mem_of_getElem? hentry, rfl⟩
        rw [Option.getD_some, hentry]
        exact queryLookupTableWithRetry_decides hn
      · rename_i hentry
        rw [Option.getD_some, hentry]
        rintro _ ⟨⟩
    · rename_i hstatic hlookups
      rw [accountKeys_loaded hstatic, hlookups]
      rintro _ ⟨⟩

end ChainIndex

/-! ## Instructions -/

/-- The instruction passes the checks of the constraint, on the accounts in view. -/
structure Passes (view : View) (t : TransactionToValidate) (keys : ContextualDomainKeys)
    (ix : InstructionWithIndex) (c : ParsedInstructionConstraint) : Prop where
  program : t.message.staticAccountKeys[ix.instruction.programIdIndex.toNat]? =
    some c.program.pubkey
  accounts : ∀ a ∈ c.accounts, ∃ account,
    accountKey view.entry t.message ix.instruction a.index.toNat = some account ∧
      a.checkAccount account (t.message.staticAccountKeys.take t.signatures.length) keys ix.index =
        .ok ⟨⟩
  data : ∀ d ∈ c.data, d.checkData ix = .ok ⟨⟩

variable {t : TransactionToValidate} {keys : ContextualDomainKeys}

omit [External] in
/-- A computation that does not panic decides whether it succeeds. -/
theorem meets_lift_decides {c : Task.Contract Op Ans} {x : Outcome ErrorReply Unit}
    (hx : NoPanic x) : (Task.lift x : Handler Unit).Meets c (Task.Decides fun _ => x = .ok ⟨⟩) := by
  rw [Task.meets_lift]
  cases x with
  | ok r => rfl
  | error e =>
    cases e with
    | err e => exact fun _ h => nomatch h
    | panic => exact hx rfl

theorem validateAccount_decides (ix : InstructionWithIndex) (a : AccountConstraint) :
    (ParsedInstructionConstraint.validateAccount t ix keys a).Meets (view.contract t.message)
      (Task.Decides fun _ => ∃ account,
        accountKey view.entry t.message ix.instruction a.index.toNat = some account ∧
          a.checkAccount account (t.message.staticAccountKeys.take t.signatures.length) keys
            ix.index = .ok ⟨⟩) := by
  refine Task.meets_decides_bind (ChainIndex.resolve_decides ix a.index.toNat)
    (fun account haccount => ?_) fun _ h => ⟨h.choose, h.choose_spec.1⟩
  refine Task.meets_decides_mono (meets_lift_decides noPanic_mapErr) fun _ => ?_
  rw [mapErr_eq_ok, haccount]
  simp

theorem validateInstruction_decides {ix : InstructionWithIndex}
    (hix : ix.instruction.programIdIndex.toNat < t.message.staticAccountKeys.length)
    (c : ParsedInstructionConstraint) (variationName : String) :
    (c.validateInstruction t ix keys variationName).Meets (view.contract t.message)
      (Task.Decides fun _ => Passes view t keys ix c) := by
  have hprogram := List.getElem?_eq_getElem hix
  have hload : (ix.instruction.programId t.message.staticAccountKeys : Outcome ErrorReply Pubkey) =
      .ok t.message.staticAccountKeys[ix.instruction.programIdIndex.toNat] := index_eq_ok.2 hprogram
  unfold ParsedInstructionConstraint.validateInstruction
  rw [hload]
  change (ite _ _ _ : Handler Unit).Meets _ _
  split
  · rename_i hne
    intro _ hpasses
    exact hne (Option.some.inj (hprogram.symm.trans hpasses.program))
  · rename_i heq
    refine Task.meets_decides_bind
      (Task.meets_decides_forM fun a _ => validateAccount_decides ix a)
      (fun _ haccounts => ?_) fun _ h => ⟨⟨⟩, h.accounts⟩
    have hdata : NoPanic (c.data.forM fun d => mapFault badRequest (d.checkData ix)) :=
      noPanic_forM fun d _ => (noPanic_checkData d ix).mapFault
    refine Task.meets_decides_mono (meets_lift_decides hdata) fun _ => ?_
    rw [forM_eq_ok]
    constructor
    · exact fun h => ⟨hprogram.trans (congrArg some (not_not.1 heq)), haccounts,
        fun d hd => mapFault_eq_ok.1 (h d hd)⟩
    · exact fun h d hd => mapFault_eq_ok.2 (h.data d hd)

/-! ## The loop -/

/-- The greedy matching of the instructions with the constraints. -/
abbrev GreedyMatch (view : View) (t : TransactionToValidate) (keys : ContextualDomainKeys) :
    List InstructionWithIndex → List ParsedInstructionConstraint → List InstructionWithIndex → Prop :=
  Greedy (Passes view t keys) fun c => c.required = true

/-- The program id indexes of the instructions are in range. -/
def InRange (t : TransactionToValidate) (ixs : List InstructionWithIndex) : Prop :=
  ∀ ix ∈ ixs, ix.instruction.programIdIndex.toNat < t.message.staticAccountKeys.length

theorem matchConstraints_decides (v : ParsedVariationOrderedInstructionConstraints) :
    ∀ (i : Nat) (constraints : List ParsedInstructionConstraint) (ixs : List InstructionWithIndex),
      InRange t ixs → (v.matchConstraints t keys i constraints ixs).Meets (view.contract t.message)
        (Task.Decides (GreedyMatch view t keys ixs constraints))
  | _, [], ixs, _ => .done ixs
  | i, c :: constraints, ixs, hixs => by
    have hnext : (v.validateNext t keys i c ixs).Meets (view.contract t.message)
        (Task.Decides fun _ => ∃ ix ∈ ixs.head?, Passes view t keys ix c) := by
      cases ixs with
      | nil => simp [ParsedVariationOrderedInstructionConstraints.validateNext, reply, Task.Decides]
      | cons ix ixs =>
        refine Task.meets_decides_mono
          (validateInstruction_decides (hixs ix List.mem_cons_self) c v.name) fun _ => ?_
        simp
    refine Task.meets_decides_attempt_bind hnext (fun _ hpasses => ?_) fun e hfails => ?_
    · -- the instruction is consumed
      obtain ⟨ix, hix, hpasses⟩ := hpasses
      obtain ⟨tail, rfl⟩ := List.head?_eq_some_iff.1 hix
      refine Task.meets_decides_mono (matchConstraints_decides v (i + 1) constraints tail
        fun ix' hix' => hixs ix' (List.mem_cons_of_mem ix hix')) fun rest => ?_
      exact (greedy_cons_of_sat hpasses).symm
    · have hskip : ∀ ix ∈ ixs.head?, ¬ Passes view t keys ix c :=
        fun ix hix hpasses => hfails ⟨⟩ ⟨ix, hix, hpasses⟩
      dsimp only
      split
      · rename_i hrequired
        intro rest h
        exact ((greedy_cons_of_not_sat hskip).1 h).1 hrequired
      · -- the constraint is skipped
        rename_i hrequired
        refine Task.meets_decides_mono (matchConstraints_decides v (i + 1) constraints ixs hixs)
          fun rest => ?_
        exact ((greedy_cons_of_not_sat hskip).trans (and_iff_right hrequired)).symm

/-- The validation decides whether the greedy matching consumes all instructions. -/
theorem validateInstructionConstraints_decides (v : ParsedVariationOrderedInstructionConstraints)
    (hrange : InRange t t.substantiveInstructions) :
    (v.validateInstructionConstraints t keys).Meets (view.contract t.message)
      (Task.Decides fun _ => GreedyMatch view t keys t.substantiveInstructions v.instructions []) := by
  refine Task.meets_decides_bind (matchConstraints_decides v 0 v.instructions _ hrange)
    (fun rest hrest => ?_) fun _ h => ⟨[], h⟩
  cases rest with
  | nil => exact hrest
  | cons ix rest =>
    intro _ h
    cases h.unique hrest

omit [External] in
theorem inRange_of_matches [External] {constraints : List ParsedInstructionConstraint}
    {required : ParsedInstructionConstraint → Prop} {ixs : List InstructionWithIndex}
    (h : Matches (Passes view t keys) required ixs constraints) : InRange t ixs := by
  intro ix hix
  obtain ⟨c, -, hpasses⟩ := h.exists_sat ix hix
  exact (List.getElem?_eq_some_iff.1 hpasses.program).1

/-- **The greedy validation is complete without ambiguity**: when no substantive instruction passes
    both an optional constraint and a later one, every matching of all substantive instructions that
    leaves out no required constraint makes the validation succeed. -/
theorem validateInstructionConstraints_complete {v : ParsedVariationOrderedInstructionConstraints}
    (hamb : Unambiguous (Passes view t keys) (fun c => c.required = true)
      t.substantiveInstructions v.instructions)
    {f : Fin t.substantiveInstructions.length → Fin v.instructions.length}
    (hf : IsMatching (Passes view t keys) (fun c => c.required = true) t.substantiveInstructions
      v.instructions f) :
    (v.validateInstructionConstraints t keys).Meets (view.contract t.message)
      fun result => result = .ok ⟨⟩ := by
  have hmatches := hf.matches
  have hgreedy := hmatches.greedy hamb
  exact Task.Meets.mono (fun _ h => Task.eq_ok_of_decides h hgreedy)
    (validateInstructionConstraints_decides v (inRange_of_matches hmatches))

end

/-- A system transfer, as the only instruction of a transaction. -/
def sampleTransfer : TransactionToValidate where
  message := .legacy {
    header := ⟨1, 0, 1⟩
    accountKeys := [.ofNat 10, Ids.systemProgram]
    recentBlockhash := .ofNat 0
    instructions := [⟨1, [], [2, 0, 0, 0]⟩] }
  signatures := [.ofNat 0]
  substantiveInstructions := [⟨0, ⟨1, [], [2, 0, 0, 0]⟩⟩]
  gasSpend := 5000
  totalFeeLamports := 0

/-- An instruction of the system program with the given number. -/
def systemConstraint (instruction : UInt32) : ParsedInstructionConstraint where
  program := ⟨Ids.systemProgram, systemProgram_substantive⟩
  accounts := []
  data := [⟨0, .u32 (.equalTo [instruction])⟩]
  required := true

theorem validateInstructionConstraints_complete_sample :
    let _ : External := .uncalled
    let view : View := ⟨fun _ _ => none, fun _ => True⟩
    let v : ParsedVariationOrderedInstructionConstraints :=
      { name := "v", instructions := [.sessionWrapInstructionConstraint, systemConstraint 2],
        maxGasSpend := 5000, paymasterFeeLamports := none, swapIntoFogo := [] }
    (v.validateInstructionConstraints sampleTransfer ⟨.ofNat 1, .ofNat 10⟩).Meets
      (view.contract sampleTransfer.message) fun result => result = .ok ⟨⟩ := by
  intro _ view v
  have hwrap : ¬ Passes view sampleTransfer ⟨.ofNat 1, .ofNat 10⟩ ⟨0, ⟨1, [], [2, 0, 0, 0]⟩⟩
      .sessionWrapInstructionConstraint := fun h => nomatch h.data _ List.mem_cons_self
  have hbase : Passes view sampleTransfer ⟨.ofNat 1, .ofNat 10⟩ ⟨0, ⟨1, [], [2, 0, 0, 0]⟩⟩
      (systemConstraint 2) := by
    refine ⟨rfl, List.forall_mem_nil _, fun d hd => ?_⟩
    rw [List.mem_singleton.1 hd]
    rfl
  have hamb : Unambiguous (Passes view sampleTransfer ⟨.ofNat 1, .ofNat 10⟩)
      (fun c => c.required = true) sampleTransfer.substantiveInstructions v.instructions := by
    refine List.pairwise_pair.2 fun _ ix hix hpasses => ?_
    rw [List.mem_singleton.1 hix] at hpasses
    exact absurd hpasses hwrap
  have hf : IsMatching (Passes view sampleTransfer ⟨.ofNat 1, .ofNat 10⟩)
      (fun c => c.required = true) sampleTransfer.substantiveInstructions v.instructions
      fun _ => ⟨1, by decide⟩ := by
    have hone : Subsingleton (Fin sampleTransfer.substantiveInstructions.length) :=
      inferInstanceAs (Subsingleton (Fin 1))
    refine ⟨Subsingleton.strictMono _, fun i => ?_, fun j hj => ?_⟩
    · rw [Subsingleton.elim i ⟨0, by decide⟩]
      exact hbase
    · match j, hj with
      | ⟨0, _⟩, hj => cases hj
      | ⟨1, _⟩, _ => exact ⟨⟨0, by decide⟩, rfl⟩
  exact validateInstructionConstraints_complete hamb hf

end FogoSessions.Paymaster
