import FogoSessions.Paymaster.GasCap
import FogoSessions.Paymaster.Malformed

/-!
# The gas spend, exactly

`computeGasSpend_exact`: for which transactions the paymaster computes a figure, which figure it is,
and that neither depends on the order of the instructions.
-/

namespace FogoSessions.Paymaster

open Lib Solana

/-- The kinds of compute-budget instructions. -/
inductive BudgetKind where
  | unused
  | heapFrame
  | unitLimit
  | unitPrice
  | loadedAccountsDataSizeLimit
deriving DecidableEq

def ComputeBudgetInstruction.kind : ComputeBudgetInstruction → BudgetKind
  | .unused => .unused
  | .requestHeapFrame _ => .heapFrame
  | .setComputeUnitLimit _ => .unitLimit
  | .setComputeUnitPrice _ => .unitPrice
  | .setLoadedAccountsDataSizeLimit _ => .loadedAccountsDataSizeLimit

/-! ## What the instructions ask for -/

section

variable (keys : List Pubkey) (ixs : List CompiledInstruction)

/-- The compute-budget instructions that decode, in their order. -/
def budgetRequests : List ComputeBudgetInstruction := ixs.filterMap (budgetInstruction keys)

/-- A compute-budget instruction whose data does not decode completely. -/
def Undecodable (ix : CompiledInstruction) : Prop :=
  keys[ix.programIdIndex.toNat]? = some Ids.computeBudget ∧
    ∀ cuIx, ComputeBudgetInstruction.decode.tryFromSlice ix.data ≠ .ok cuIx

/-- What the paymaster refuses in the compute-budget instructions. -/
inductive BudgetDefect : Prop
  | undecodable (ix : CompiledInstruction) (hmem : ix ∈ ixs) (hix : Undecodable keys ix)
  | unused (hmem : .unused ∈ budgetRequests keys ixs)
  | sameKind (hdup : ¬ ((budgetRequests keys ixs).map (·.kind)).Nodup)

end

/-- The value that a request gives, the default one if none gives any. -/
def ValueIs (value? : ComputeBudgetInstruction → Option Nat) (default : Nat)
    (requests : List ComputeBudgetInstruction) (value : Nat) : Prop :=
  (∃ cuIx ∈ requests, value? cuIx = some value) ∨
    (∀ cuIx ∈ requests, value? cuIx = none) ∧ value = default

theorem budgetInstruction_eq_none_of_undecodable {keys : List Pubkey} {ix : CompiledInstruction}
    (h : Undecodable keys ix) : budgetInstruction keys ix = none := by
  rw [budgetInstruction, if_pos h.1]
  cases hdecode : ComputeBudgetInstruction.decode.tryFromSlice ix.data with
  | ok cuIx => exact absurd hdecode (h.2 cuIx)
  | error e => rfl

/-! ## The loop -/

/-- An instruction of this kind was seen. -/
def BudgetRequests.Noted (r : BudgetRequests) : BudgetKind → Prop
  | .unused => False
  | .heapFrame => r.requestHeapFrame = true
  | .unitLimit => r.cuLimit.isSome = true
  | .unitPrice => r.microLamportsPerCu.isSome = true
  | .loadedAccountsDataSizeLimit => r.setLoadedAccountsDataSizeLimit = true

theorem not_noted_none (kind : BudgetKind) : ¬ BudgetRequests.none.Noted kind := by
  cases kind <;> simp [BudgetRequests.Noted, BudgetRequests.none]

/-- Noting a request fails when it is unused or its kind was seen, and adds its kind otherwise. -/
theorem note_spec (r : BudgetRequests) (cuIx : ComputeBudgetInstruction) :
    ((cuIx = .unused ∨ r.Noted cuIx.kind) ∧ ∃ e, r.note cuIx = .error (.err e)) ∨
      (cuIx ≠ .unused ∧ ¬ r.Noted cuIx.kind) ∧
        ∃ r', r.note cuIx = .ok r' ∧ ∀ kind, r'.Noted kind ↔ r.Noted kind ∨ kind = cuIx.kind := by
  cases cuIx with
  | unused => exact .inl ⟨.inl rfl, _, rfl⟩
  | requestHeapFrame bytes =>
    by_cases h : r.requestHeapFrame = true
    · exact .inl ⟨.inr h, _, if_pos h⟩
    · refine .inr ⟨⟨by simp, h⟩, _, if_neg h, fun kind => ?_⟩
      cases kind <;> simp [BudgetRequests.Noted, ComputeBudgetInstruction.kind]
  | setComputeUnitLimit units =>
    by_cases h : r.cuLimit.isSome = true
    · exact .inl ⟨.inr h, _, if_pos h⟩
    · refine .inr ⟨⟨by simp, h⟩, _, if_neg h, fun kind => ?_⟩
      cases kind <;> simp [BudgetRequests.Noted, ComputeBudgetInstruction.kind]
  | setComputeUnitPrice microLamports =>
    by_cases h : r.microLamportsPerCu.isSome = true
    · exact .inl ⟨.inr h, _, if_pos h⟩
    · refine .inr ⟨⟨by simp, h⟩, _, if_neg h, fun kind => ?_⟩
      cases kind <;> simp [BudgetRequests.Noted, ComputeBudgetInstruction.kind]
  | setLoadedAccountsDataSizeLimit bytes =>
    by_cases h : r.setLoadedAccountsDataSizeLimit = true
    · exact .inl ⟨.inr h, _, if_pos h⟩
    · refine .inr ⟨⟨by simp, h⟩, _, if_neg h, fun kind => ?_⟩
      cases kind <;> simp [BudgetRequests.Noted, ComputeBudgetInstruction.kind]

/-- One round, in terms of what the instruction asks for. -/
theorem visit_cases {keys : List Pubkey} {ix : CompiledInstruction} (r : BudgetRequests)
    (hrange : ix.programIdIndex.toNat < keys.length) :
    (¬ Undecodable keys ix ∧ budgetInstruction keys ix = none ∧ r.visit keys ix = .ok r) ∨
      (Undecodable keys ix ∧ ∃ e, r.visit keys ix = .error (.err e)) ∨
      ∃ cuIx, budgetInstruction keys ix = some cuIx ∧ r.visit keys ix = r.note cuIx := by
  have hkey := List.getElem?_eq_getElem hrange
  have hprogram : (ix.programId keys : Outcome String Pubkey) = .ok _ := index_eq_ok.2 hkey
  by_cases hid : keys[ix.programIdIndex.toNat] = Ids.computeBudget
  · rw [hid] at hkey hprogram
    refine .inr ?_
    cases hdecode : ComputeBudgetInstruction.decode.tryFromSlice ix.data with
    | ok cuIx =>
      refine .inr ⟨cuIx, ?_, ?_⟩
      · rw [budgetInstruction, if_pos hkey, hdecode]
        rfl
      · rw [BudgetRequests.visit, hprogram, hdecode]
        rfl
    | error e =>
      refine .inl ⟨⟨hkey, fun cuIx h => ?_⟩, "Invalid compute budget instruction data", ?_⟩
      · rw [hdecode] at h
        cases h
      · rw [BudgetRequests.visit, hprogram, hdecode]
        rfl
  · have hother : ¬ keys[ix.programIdIndex.toNat]? = some Ids.computeBudget := by
      rw [hkey]
      exact fun h => hid (Option.some.inj h)
    refine .inl ⟨fun h => hother h.1, if_neg hother, ?_⟩
    rw [BudgetRequests.visit, hprogram]
    exact if_pos hid

theorem not_budgetDefect_iff {keys : List Pubkey} {ixs : List CompiledInstruction} :
    ¬ BudgetDefect keys ixs ↔ (∀ ix ∈ ixs, ¬ Undecodable keys ix) ∧
      .unused ∉ budgetRequests keys ixs ∧ ((budgetRequests keys ixs).map (·.kind)).Nodup := by
  constructor
  · intro h
    exact ⟨fun ix hmem hix => h (.undecodable ix hmem hix), fun hmem => h (.unused hmem),
      not_not.1 fun hdup => h (.sameKind hdup)⟩
  · rintro ⟨hdecodes, hused, hdistinct⟩ h
    cases h with
    | undecodable ix hmem hix => exact hdecodes ix hmem hix
    | unused hmem => exact hused hmem
    | sameKind hdup => exact hdup hdistinct

/-- The whole loop passes exactly when every instruction decodes, to a request of a kind not seen
    before. -/
theorem foldlM_visit_isOk_iff {keys : List Pubkey} (ixs : List CompiledInstruction)
    (r : BudgetRequests) (hrange : ∀ ix ∈ ixs, ix.programIdIndex.toNat < keys.length) :
    (∃ r', ixs.foldlM (BudgetRequests.visit keys) r = .ok r') ↔
      ¬ BudgetDefect keys ixs ∧ ∀ cuIx ∈ budgetRequests keys ixs, ¬ r.Noted cuIx.kind := by
  rw [not_budgetDefect_iff]
  induction ixs generalizing r with
  | nil => simp [budgetRequests, pure_eq_ok]
  | cons ix ixs ih =>
    obtain ⟨hix, hixs⟩ := List.forall_mem_cons.1 hrange
    rw [List.foldlM_cons, List.forall_mem_cons]
    rcases visit_cases r hix with ⟨hdecodes, hnone, hvisit⟩ | ⟨hundecodable, e, hvisit⟩ |
        ⟨cuIx, hsome, hvisit⟩
    · -- not a compute-budget instruction
      have hrequests : budgetRequests keys (ix :: ixs) = budgetRequests keys ixs :=
        List.filterMap_cons_none hnone
      rw [hvisit, hrequests, and_iff_right hdecodes]
      exact ih r hixs
    · rw [hvisit]
      constructor
      · rintro ⟨r', h⟩
        cases h
      · intro h
        exact absurd hundecodable h.1.1.1
    · have hrequests : budgetRequests keys (ix :: ixs) = cuIx :: budgetRequests keys ixs :=
        List.filterMap_cons_some hsome
      have hdecodes : ¬ Undecodable keys ix := fun h => by
        rw [budgetInstruction_eq_none_of_undecodable h] at hsome
        cases hsome
      rw [hvisit, hrequests, List.map_cons, List.nodup_cons, List.forall_mem_cons, List.mem_cons,
        and_iff_right hdecodes]
      rcases note_spec r cuIx with ⟨hbad, e, hnote⟩ | ⟨⟨hused, hnew⟩, r', hnote, hnoted⟩
      · rw [hnote]
        constructor
        · rintro ⟨r', h⟩
          cases h
        · rintro ⟨⟨_, hused, _⟩, hnew, _⟩
          rcases hbad with rfl | hseen
          · exact absurd (.inl rfl) hused
          · exact absurd hseen hnew
      · rw [hnote]
        refine (ih r' hixs).trans ?_
        -- the kind of this request is now noted, so the later ones must differ from it
        simp only [hnoted, not_or, List.mem_map, not_exists, not_and]
        constructor
        · rintro ⟨⟨hall, hunused, hnodup⟩, hlater⟩
          exact ⟨⟨hall, ⟨Ne.symm hused, hunused⟩, fun c hc => (hlater c hc).2, hnodup⟩, hnew,
            fun c hc => (hlater c hc).1⟩
        · rintro ⟨⟨hall, ⟨_, hunused⟩, hfirst, hnodup⟩, _, hlater⟩
          exact ⟨⟨hall, hunused, hnodup⟩, fun c hc => ⟨hlater c hc, hfirst c hc⟩⟩

/-! ## The figure -/

/-- The value of the first request that gives one. -/
theorem valueIs_budgetValue {keys : List Pubkey} {ixs : List CompiledInstruction}
    (value? : ComputeBudgetInstruction → Option Nat) (default : Nat) :
    ValueIs value? default (budgetRequests keys ixs)
      ((budgetValue keys value? ixs).getD default) := by
  have hfirst : budgetValue keys value? ixs = (budgetRequests keys ixs).findSome? value? := by
    rw [budgetValue, budgetRequests, ← List.head?_filterMap, ← List.head?_filterMap,
      List.filterMap_filterMap]
  rw [hfirst]
  cases h : (budgetRequests keys ixs).findSome? value? with
  | none => exact .inr ⟨List.findSome?_eq_none_iff.1 h, rfl⟩
  | some value => exact .inl (List.exists_of_findSome?_eq_some h)

/-- A value that requests of one kind give is the only one, when the requests are of different
    kinds. -/
theorem ValueIs.unique {value? : ComputeBudgetInstruction → Option Nat} {default : Nat}
    (kind : BudgetKind) (hkind : ∀ cuIx value, value? cuIx = some value → cuIx.kind = kind)
    {requests : List ComputeBudgetInstruction} (hdistinct : (requests.map (·.kind)).Nodup)
    {value value' : Nat} (h : ValueIs value? default requests value)
    (h' : ValueIs value? default requests value') : value = value' := by
  rcases h with ⟨cuIx, hmem, hvalue⟩ | ⟨hnone, hdefault⟩
  · rcases h' with ⟨cuIx', hmem', hvalue'⟩ | ⟨hnone', hdefault'⟩
    · have hsame : cuIx.kind = cuIx'.kind :=
        (hkind cuIx value hvalue).trans (hkind cuIx' value' hvalue').symm
      obtain rfl := List.inj_on_of_nodup_map hdistinct hmem hmem' hsame
      exact Option.some.inj (hvalue.symm.trans hvalue')
    · rw [hnone' cuIx hmem] at hvalue
      cases hvalue
  · rcases h' with ⟨cuIx', hmem', hvalue'⟩ | ⟨hnone', hdefault'⟩
    · rw [hnone cuIx' hmem'] at hvalue'
      cases hvalue'
    · exact hdefault.trans hdefault'.symm

theorem kind_of_limit? (cuIx : ComputeBudgetInstruction) (value : Nat)
    (h : cuIx.limit? = some value) : cuIx.kind = .unitLimit := by
  cases cuIx <;> first | rfl | cases h

theorem kind_of_price? (cuIx : ComputeBudgetInstruction) (value : Nat)
    (h : cuIx.price? = some value) : cuIx.kind = .unitPrice := by
  cases cuIx <;> first | rfl | cases h

theorem getNumberPrecompileSignatures_isOk {tx : VersionedTransaction}
    (hrange : ProgramsInRange tx.message) :
    ∃ count, getNumberPrecompileSignatures tx = .ok count := by
  have hcounts : ∃ counts, tx.message.instructions.mapM
      (precompileSignatures tx.message.staticAccountKeys) = .ok counts := by
    apply mapM_isOk.2
    intro ix hix
    have hprogram := List.getElem?_eq_getElem (hrange ix hix)
    rw [precompileSignatures, CompiledInstruction.programId, index_eq_ok.2 hprogram]
    simp only [Bind.bind, Except.bind]
    split
    · exact ⟨_, rfl⟩
    · exact ⟨_, rfl⟩
  obtain ⟨counts, hcounts⟩ := hcounts
  exact ⟨_, bind_eq_ok.2 ⟨counts, hcounts, rfl⟩⟩

/-- The paymaster computes a figure exactly when the compute-budget instructions have no defect. -/
theorem computeGasSpend_isOk_iff {tx : VersionedTransaction} (hrange : ProgramsInRange tx.message) :
    (∃ g, computeGasSpend tx = .ok g) ↔ ¬ BudgetDefect (Charge.keys tx) tx.message.instructions := by
  have hloop := foldlM_visit_isOk_iff tx.message.instructions .none hrange
  have hnew : ∀ cuIx ∈ budgetRequests (Charge.keys tx) tx.message.instructions,
      ¬ BudgetRequests.none.Noted cuIx.kind := fun cuIx _ => not_noted_none cuIx.kind
  rw [← and_iff_left (a := ¬ BudgetDefect _ _) hnew]
  refine Iff.trans ?_ hloop
  constructor
  · rintro ⟨g, hg⟩
    obtain ⟨precompile, _, h⟩ := bind_eq_ok.1 hg
    obtain ⟨fee, hfee, _⟩ := bind_eq_ok.1 h
    obtain ⟨r, hr, _⟩ := bind_eq_ok.1 hfee
    exact ⟨r, hr⟩
  · rintro ⟨r, hr⟩
    obtain ⟨precompile, hprecompile⟩ := getNumberPrecompileSignatures_isOk hrange
    exact ⟨_, bind_eq_ok.2 ⟨precompile, hprecompile,
      bind_eq_ok.2 ⟨_, bind_eq_ok.2 ⟨r, hr, rfl⟩, rfl⟩⟩⟩

/-! ## The order of the instructions -/

section

variable {keys : List Pubkey} {ixs ixs' : List CompiledInstruction}

theorem BudgetDefect.perm (hperm : ixs.Perm ixs') (h : BudgetDefect keys ixs) :
    BudgetDefect keys ixs' := by
  have hrequests : (budgetRequests keys ixs).Perm (budgetRequests keys ixs') :=
    hperm.filterMap _
  cases h with
  | undecodable ix hmem hix => exact .undecodable ix (hperm.mem_iff.1 hmem) hix
  | unused hmem => exact .unused (hrequests.mem_iff.1 hmem)
  | sameKind hdup => exact .sameKind fun hnodup => hdup ((hrequests.map _).nodup_iff.2 hnodup)

theorem ValueIs.perm {value? : ComputeBudgetInstruction → Option Nat} {default value : Nat}
    (hperm : ixs.Perm ixs') (h : ValueIs value? default (budgetRequests keys ixs) value) :
    ValueIs value? default (budgetRequests keys ixs') value := by
  have hrequests : (budgetRequests keys ixs).Perm (budgetRequests keys ixs') :=
    hperm.filterMap _
  rcases h with ⟨cuIx, hmem, hvalue⟩ | ⟨hnone, hdefault⟩
  · exact .inl ⟨cuIx, hrequests.mem_iff.1 hmem, hvalue⟩
  · exact .inr ⟨fun cuIx hmem => hnone cuIx (hrequests.mem_iff.2 hmem), hdefault⟩

end

/-- What two orders of the same instructions make of the figure. -/
theorem computeGasSpend_perm {tx tx' : VersionedTransaction} {g g' : UInt64}
    (hsignatures : tx'.signatures.length = tx.signatures.length)
    (hkeys : Charge.keys tx' = Charge.keys tx)
    (hperm : tx'.message.instructions.Perm tx.message.instructions)
    (hfit : ¬ BudgetDefect (Charge.keys tx) tx.message.instructions)
    (hg : computeGasSpend tx = .ok g) (hg' : computeGasSpend tx' = .ok g') : g' = g := by
  have hdistinct := (not_budgetDefect_iff.1 hfit).2.2
  have hcount : Charge.signatures tx' = Charge.signatures tx := by
    rw [Charge.signatures, Charge.signatures, hsignatures, hkeys, (hperm.map _).sum_eq]
  have hlimit : (Charge.setLimit tx').getD 200000 = (Charge.setLimit tx).getD 200000 := by
    refine ValueIs.unique .unitLimit kind_of_limit? hdistinct ?_ (valueIs_budgetValue _ _)
    rw [← hkeys]
    exact (valueIs_budgetValue _ _).perm hperm
  have hprice : Charge.price tx' = Charge.price tx := by
    refine ValueIs.unique .unitPrice kind_of_price? hdistinct ?_ (valueIs_budgetValue _ _)
    rw [← hkeys]
    exact (valueIs_budgetValue _ _).perm hperm
  apply UInt64.toNat_inj.1
  rw [computeGasSpend_toNat hg, computeGasSpend_toNat hg', hcount, paymasterPriorityFee, hlimit,
    hprice, paymasterPriorityFee]

/-- **The gas spend, exactly.** With program ids in range, the paymaster refuses a transaction
    exactly when a compute-budget instruction does not decode completely, is the unused one, or is
    of the kind of another one. Otherwise the figure is 5000 lamports for each signature and the
    price times the limit, rounded down, with the limit and the price of the only requests for
    them. The order of the instructions does not matter. -/
theorem computeGasSpend_exact (tx : VersionedTransaction) (hrange : ProgramsInRange tx.message) :
    ((∃ e, computeGasSpend tx = .error (.err e)) ↔
      BudgetDefect (Charge.keys tx) tx.message.instructions) ∧
    (¬ BudgetDefect (Charge.keys tx) tx.message.instructions →
      ∃ g limit price, computeGasSpend tx = .ok g ∧
        ValueIs (·.limit?) 200000 (budgetRequests (Charge.keys tx) tx.message.instructions) limit ∧
        ValueIs (·.price?) 0 (budgetRequests (Charge.keys tx) tx.message.instructions) price ∧
        g.toNat = min (5000 * Charge.signatures tx + min (limit * price) u64Max / 1000000) u64Max) ∧
    ∀ tx' : VersionedTransaction, tx'.signatures.length = tx.signatures.length →
      Charge.keys tx' = Charge.keys tx →
      tx'.message.instructions.Perm tx.message.instructions →
      (computeGasSpend tx').toOption = (computeGasSpend tx).toOption := by
  have hok := computeGasSpend_isOk_iff hrange
  have hsafe := noPanic_computeGasSpend hrange
  refine ⟨?_, fun hfit => ?_, fun tx' hsignatures hkeys hperm => ?_⟩
  · rw [← not_iff_not, ← hok]
    cases h : computeGasSpend tx with
    | ok g => simp
    | error e =>
      cases e with
      | err e => simp
      | panic => exact absurd h hsafe
  · obtain ⟨g, hg⟩ := hok.2 hfit
    exact ⟨g, _, _, hg, valueIs_budgetValue _ _, valueIs_budgetValue _ _, computeGasSpend_toNat hg⟩
  · have hrange' : ProgramsInRange tx'.message := by
      intro ix hix
      have hlt := hrange ix (hperm.mem_iff.1 hix)
      rwa [← Charge.keys, ← hkeys] at hlt
    have hok' := computeGasSpend_isOk_iff hrange'
    by_cases hdefect : BudgetDefect (Charge.keys tx) tx.message.instructions
    · have hdefect' : BudgetDefect (Charge.keys tx') tx'.message.instructions := by
        rw [hkeys]
        exact hdefect.perm hperm.symm
      have hnone : (computeGasSpend tx).toOption = none := by
        apply Option.eq_none_iff_forall_ne_some.2
        intro g hg
        exact hok.1 ⟨g, toOption_eq_some.1 hg⟩ hdefect
      rw [hnone]
      apply Option.eq_none_iff_forall_ne_some.2
      intro g hg
      exact hok'.1 ⟨g, toOption_eq_some.1 hg⟩ hdefect'
    · obtain ⟨g, hg⟩ := hok.2 hdefect
      obtain ⟨g', hg'⟩ := hok'.2 fun h => hdefect (by
        rw [hkeys] at h
        exact h.perm hperm)
      rw [hg, hg', computeGasSpend_perm hsignatures hkeys hperm hdefect hg hg']

/-- One signature, one that an ed25519 instruction declares, and half a lamport for each of 200000
    compute units. -/
theorem computeGasSpend_exact_declared :
    letI tx : VersionedTransaction :=
      { signatures := [.ofNat 1]
        message := .legacy
          { header := ⟨1, 0, 2⟩
            accountKeys := [.ofNat 7, Ids.computeBudget, Ids.ed25519Program]
            recentBlockhash := .ofNat 0
            instructions := [⟨2, [], [1]⟩, ⟨1, [], [3, 32, 161, 7, 0, 0, 0, 0, 0]⟩] } }
    computeGasSpend tx = .ok 110000 ∧
      ¬ BudgetDefect (Charge.keys tx) tx.message.instructions := by
  have hfits (tx : VersionedTransaction) (hrange : ProgramsInRange tx.message)
      (hg : computeGasSpend tx = .ok 110000) :
      computeGasSpend tx = .ok 110000 ∧
        ¬ BudgetDefect (Charge.keys tx) tx.message.instructions := by
    refine ⟨hg, fun hdefect => ?_⟩
    obtain ⟨e, he⟩ := (computeGasSpend_exact tx hrange).1.2 hdefect
    rw [hg] at he
    cases he
  apply hfits _ _ (by decide +kernel)
  intro ix hix
  simp only [VersionedMessage.instructions, List.mem_cons, List.not_mem_nil, or_false] at hix
  rcases hix with rfl | rfl <;> decide

end FogoSessions.Paymaster
