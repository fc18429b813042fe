import FogoSessions.Paymaster.DomainState

/-!
# Tenant isolation of the configuration

The states of all domains are built in one pass from the configurations of all tenants, and one
configuration whose variations clash with the session-management templates fails the whole pass.
`isolated_iff` says when two configurations that differ in one tenant's variations give the other
tenants the same states: exactly when both passes fail or neither does.
-/

namespace FogoSessions.Paymaster

open Lib Solana

/-- The names of the templates that session management adds. -/
def sessionManagementNames : List String := ["Session Establishment", "Session Revocation"]

/-- The domain has session management on and a variation of its own under the name of a template,
    one that converts and so is not skipped. -/
def Domain.Clashes (d : Domain) : Prop :=
  d.enableSessionManagement = true ∧
    ∃ name ∈ sessionManagementNames, ∃ variation parsed,
      d.txVariations.lookup name = some variation ∧
        ParsedTransactionVariation.tryFrom variation = .ok parsed

/-! ## When the pass succeeds -/

theorem mem_insertParsed {name : String} {parsed : NameMap ParsedTransactionVariation}
    {entry : Sigma fun _ : String => TransactionVariation} :
    name ∈ insertParsed parsed entry ↔
      name ∈ parsed ∨ name = entry.1 ∧ ∃ p, ParsedTransactionVariation.tryFrom entry.2 = .ok p := by
  unfold insertParsed
  split <;> simp_all [or_comm]

/-- The names in a map that grows by the entries that convert. -/
theorem mem_foldl_insertParsed {name : String} :
    ∀ (entries : List (Sigma fun _ : String => TransactionVariation))
      (parsed : NameMap ParsedTransactionVariation),
      name ∈ entries.foldl insertParsed parsed ↔
        name ∈ parsed ∨ ∃ entry ∈ entries, name = entry.1 ∧
          ∃ p, ParsedTransactionVariation.tryFrom entry.2 = .ok p
  | [], parsed => by simp
  | entry :: entries, parsed => by
    rw [List.foldl_cons, mem_foldl_insertParsed entries, mem_insertParsed, or_assoc]
    simp only [List.mem_cons, exists_eq_or_imp]

theorem mem_parseVariations {name : String} {txVariations : NameMap TransactionVariation} :
    name ∈ parseVariations txVariations ↔ ∃ variation p,
      txVariations.lookup name = some variation ∧
        ParsedTransactionVariation.tryFrom variation = .ok p := by
  rw [parseVariations, mem_foldl_insertParsed]
  constructor
  · rintro (habsurd | ⟨⟨_, variation⟩, hmem, rfl, p, hp⟩)
    · exact absurd habsurd (AList.notMem_empty name)
    · exact ⟨variation, p, AList.mem_lookup_iff.2 hmem, hp⟩
  · rintro ⟨variation, p, hlookup, hp⟩
    exact .inr ⟨⟨name, variation⟩, AList.mem_lookup_iff.1 hlookup, rfl, p, hp⟩

theorem insertTemplateVariation_eq_ok {m m' : NameMap ParsedTransactionVariation}
    {v : ParsedTransactionVariation} :
    insertTemplateVariation m v = .ok m' ↔ v.name ∉ m ∧ m.insert v.name v = m' := by
  unfold insertTemplateVariation
  dsimp only
  split <;> simp_all

theorem insertSessionManagementVariations_isOk (m : NameMap ParsedTransactionVariation) :
    (∃ m', insertSessionManagementVariations m = .ok m') ↔
      ∀ name ∈ sessionManagementNames, name ∉ m := by
  have hne : (ParsedTransactionVariation.sessionRevocationVariation defaultTemplateMaxGasSpend).name ≠
      (ParsedTransactionVariation.sessionEstablishmentVariation defaultTemplateMaxGasSpend).name := by
    decide
  simp only [insertSessionManagementVariations, bind_eq_ok, insertTemplateVariation_eq_ok]
  constructor
  · rintro ⟨_, _, ⟨hest, rfl⟩, hrev, _⟩ name hname
    rw [AList.mem_insert, not_or] at hrev
    rcases List.mem_pair.1 hname with rfl | rfl
    · exact hest
    · exact hrev.2
  · intro h
    refine ⟨_, _, ⟨h _ (List.mem_pair.2 (.inl rfl)), rfl⟩, ?_, rfl⟩
    rw [AList.mem_insert, not_or]
    exact ⟨hne, h _ (List.mem_pair.2 (.inr rfl))⟩

theorem intoParsedTransactionVariations_isOk (d : Domain) :
    (∃ m, Domain.intoParsedTransactionVariations d.txVariations d.enableSessionManagement = .ok m) ↔
      ¬ d.Clashes := by
  unfold Domain.intoParsedTransactionVariations Domain.Clashes
  dsimp only
  by_cases hesm : d.enableSessionManagement
  · rw [if_pos hesm, insertSessionManagementVariations_isOk]
    simp [hesm, mem_parseVariations]
  · simp [hesm]

section Passes

variable [External]

theorem getDomainState?_isOk (mnemonic : String) (d : Domain) :
    (∃ s, getDomainState? mnemonic d = .ok s) ↔ ¬ d.Clashes := by
  rw [← intoParsedTransactionVariations_isOk]
  simp only [getDomainState?, bind_eq_ok, pure_eq_ok]
  constructor
  · rintro ⟨_, m, hm, -⟩
    exact ⟨m, hm⟩
  · rintro ⟨m, hm⟩
    exact ⟨_, m, hm, rfl⟩

theorem getDomainState?_name {mnemonic : String} {d : Domain} {s : String × DomainState}
    (h : getDomainState? mnemonic d = .ok s) : s.1 = d.domain := by
  simp only [getDomainState?, bind_eq_ok, pure_eq_ok] at h
  obtain ⟨_, _, rfl⟩ := h
  rfl

theorem getDomainStateMap_isOk (mnemonic : String) (domains : List Domain) :
    (∃ m, getDomainStateMap domains mnemonic = .ok m) ↔ ¬ ∃ d ∈ domains, d.Clashes := by
  simp only [getDomainStateMap, bind_eq_ok, pure_eq_ok]
  constructor
  · rintro ⟨_, states, h, _⟩
    rintro ⟨d, hd, hclash⟩
    exact (getDomainState?_isOk mnemonic d).1 (mapM_isOk.1 ⟨states, h⟩ d hd) hclash
  · intro h
    obtain ⟨states, h⟩ := mapM_isOk.2 fun d hd =>
      (getDomainState?_isOk mnemonic d).2 fun hclash => h ⟨d, hd, hclash⟩
    exact ⟨_, states, h, rfl⟩

/-! ## What the passes give the other tenants -/

/-- The configurations are the same, up to the transaction variations of the domain `b`. -/
def DifferOnlyAt (b : String) : List Domain → List Domain → Prop :=
  List.Forall₂ fun d₁ d₂ =>
    d₁ = d₂ ∨ d₁.domain = b ∧ d₂ = { d₁ with txVariations := d₂.txVariations }

/-- The entries of the two passes name the same domain, and agree unless it is `b`. -/
def AgreeExcept (b : String) (s₁ s₂ : String × DomainState) : Prop :=
  s₁.1 = s₂.1 ∧ (s₁.1 ≠ b → s₁ = s₂)

theorem mapM_agreeExcept {mnemonic b : String} {cfg₁ cfg₂ : List Domain}
    (hcfg : DifferOnlyAt b cfg₁ cfg₂) :
    ∀ {states₁ states₂ : List (String × DomainState)},
      cfg₁.mapM (getDomainState? mnemonic) = .ok states₁ →
      cfg₂.mapM (getDomainState? mnemonic) = .ok states₂ →
      List.Forall₂ (AgreeExcept b) states₁ states₂ := by
  induction hcfg with
  | nil =>
    intro states₁ states₂ h₁ h₂
    rw [List.mapM_nil, pure_eq_ok] at h₁ h₂
    exact h₁ ▸ h₂ ▸ .nil
  | @cons d₁ d₂ _ _ hd _ ih =>
    intro states₁ states₂ h₁ h₂
    simp only [List.mapM_cons, bind_eq_ok, pure_eq_ok] at h₁ h₂
    obtain ⟨s₁, hs₁, rest₁, hrest₁, rfl⟩ := h₁
    obtain ⟨s₂, hs₂, rest₂, hrest₂, rfl⟩ := h₂
    refine .cons ?_ (ih hrest₁ hrest₂)
    have hname₁ := getDomainState?_name hs₁
    have hname₂ := getDomainState?_name hs₂
    rcases hd with rfl | ⟨hb, hd⟩
    · exact ⟨hname₁.trans hname₂.symm, fun _ => Except.ok.inj (hs₁.symm.trans hs₂)⟩
    · have hdomain : d₂.domain = d₁.domain := by rw [hd]
      exact ⟨hname₁.trans (hdomain ▸ hname₂).symm, fun hne => absurd (hname₁.trans hb) hne⟩

omit [External] in
/-- The loop that collects the map, seen at a domain other than `b`. -/
theorem lookup_foldl_insert {a b : String} (hab : a ≠ b)
    {states₁ states₂ : List (String × DomainState)}
    (h : List.Forall₂ (AgreeExcept b) states₁ states₂) :
    ∀ {m₁ m₂ : NameMap DomainState}, m₁.lookup a = m₂.lookup a →
      (states₁.foldl (fun map state => map.insert state.1 state.2) m₁).lookup a =
        (states₂.foldl (fun map state => map.insert state.1 state.2) m₂).lookup a := by
  induction h with
  | nil => exact fun hm => hm
  | @cons s₁ s₂ _ _ hs _ ih =>
    intro m₁ m₂ hm
    refine ih ?_
    obtain ⟨hname, hagree⟩ := hs
    by_cases hs₁ : s₁.1 = a
    · obtain rfl := hagree (hs₁ ▸ hab)
      subst hs₁
      rw [AList.lookup_insert, AList.lookup_insert]
    · rw [AList.lookup_insert_ne (Ne.symm hs₁),
        AList.lookup_insert_ne (hname ▸ Ne.symm hs₁), hm]

theorem lookup_getDomainStateMap {mnemonic a b : String} {cfg₁ cfg₂ : List Domain} (hab : a ≠ b)
    (hcfg : DifferOnlyAt b cfg₁ cfg₂) {m₁ m₂ : NameMap DomainState}
    (h₁ : getDomainStateMap cfg₁ mnemonic = .ok m₁)
    (h₂ : getDomainStateMap cfg₂ mnemonic = .ok m₂) : m₁.lookup a = m₂.lookup a := by
  simp only [getDomainStateMap, bind_eq_ok, pure_eq_ok] at h₁ h₂
  obtain ⟨states₁, hstates₁, rfl⟩ := h₁
  obtain ⟨states₂, hstates₂, rfl⟩ := h₂
  exact lookup_foldl_insert hab (mapM_agreeExcept hcfg hstates₁ hstates₂) rfl

/-! ## Isolation -/

/-- The state a domain has after the start, if it has one; a failed pass leaves none. -/
def stateAtStart (domains : List Domain) (mnemonic a : String) : Option DomainState :=
  (getDomainStateMap domains mnemonic).toOption.bind (·.lookup a)

/-- Every domain other than `b` has the same state under both configurations, after the start and
    after a refresh of any states. -/
structure Isolated (mnemonic b : String) (cfg₁ cfg₂ : List Domain) : Prop where
  start : ∀ a, a ≠ b → stateAtStart cfg₁ mnemonic a = stateAtStart cfg₂ mnemonic a
  refresh : ∀ current a, a ≠ b →
    (refresh current cfg₁ mnemonic).lookup a = (refresh current cfg₂ mnemonic).lookup a

/-- A failed pass keeps the states as they are, a successful one does not look at them: some refresh
    tells the two apart. -/
theorem exists_lookup_ne (b : String) (m : NameMap DomainState) :
    ∃ (current : NameMap DomainState) (a : String), a ≠ b ∧ m.lookup a ≠ current.lookup a := by
  have hne : b ++ "." ≠ b := fun h => by simpa using congrArg String.length h
  cases hm : m.lookup (b ++ ".") with
  | some _ => exact ⟨∅, b ++ ".", hne, by simp [hm]⟩
  | none =>
    let key := DomainRegistry.getDomainRecordAddress b
    let state : DomainState := {
      domainRegistryKey := key, sponsors := [key], sponsors_nonempty := List.cons_ne_nil _ _
      enablePreflightSimulation := false, txVariations := ∅, nextAutoassignedSponsorIndex := 0 }
    refine ⟨AList.insert (b ++ ".") state ∅, b ++ ".", hne, ?_⟩
    rw [hm, AList.lookup_insert]
    exact (Option.some_ne_none _).symm

/-- **Tenant isolation of the configuration.** Two configurations that differ in the variations of
    the domain `b` give every other domain the same state, at the start and at every refresh, if and
    only if both contain a clash with the session-management templates or neither does. -/
theorem isolated_iff (mnemonic b : String) {cfg₁ cfg₂ : List Domain}
    (hcfg : DifferOnlyAt b cfg₁ cfg₂) :
    Isolated mnemonic b cfg₁ cfg₂ ↔
      ((∃ d ∈ cfg₁, d.Clashes) ↔ ∃ d ∈ cfg₂, d.Clashes) := by
  rw [← not_iff_not (a := ∃ d ∈ cfg₁, d.Clashes), ← getDomainStateMap_isOk mnemonic cfg₁,
    ← getDomainStateMap_isOk mnemonic cfg₂]
  cases h₁ : getDomainStateMap cfg₁ mnemonic with
  | error e₁ =>
    cases h₂ : getDomainStateMap cfg₂ mnemonic with
    | error e₂ =>
      have hisolated : Isolated mnemonic b cfg₁ cfg₂ :=
        ⟨fun a _ => by rw [stateAtStart, stateAtStart, h₁, h₂]; rfl, fun current a _ => by
          simp only [refresh, h₁, h₂]⟩
      simpa using hisolated
    | ok m₂ =>
      obtain ⟨current, a, hab, hne⟩ := exists_lookup_ne b m₂
      have hnot : ¬ Isolated mnemonic b cfg₁ cfg₂ := fun h =>
        hne (by simpa only [refresh, h₁, h₂] using (h.refresh current a hab).symm)
      simpa using hnot
  | ok m₁ =>
    cases h₂ : getDomainStateMap cfg₂ mnemonic with
    | error e₂ =>
      obtain ⟨current, a, hab, hne⟩ := exists_lookup_ne b m₁
      have hnot : ¬ Isolated mnemonic b cfg₁ cfg₂ := fun h =>
        hne (by simpa only [refresh, h₁, h₂] using h.refresh current a hab)
      simpa using hnot
    | ok m₂ =>
      have hlookup : ∀ a, a ≠ b → m₁.lookup a = m₂.lookup a := fun a hab =>
        lookup_getDomainStateMap hab hcfg h₁ h₂
      have hisolated : Isolated mnemonic b cfg₁ cfg₂ :=
        ⟨fun a hab => by simpa [stateAtStart, h₁, h₂, Except.toOption] using hlookup a hab,
          fun current a hab => by simpa only [refresh, h₁, h₂] using hlookup a hab⟩
      simpa using hisolated

end Passes

/-! ## One tenant keeps another out -/

namespace Tenants

/-- The hash, the record addresses and the sponsors of the domains `https://a.example` and
    `https://b.example`, for a mnemonic that is fixed. -/
@[reducible] def host : External :=
  { External.uncalled with
    sha256 := fun bytes =>
      if bytes = utf8 "https://a.example" then
        .ofNat 0x38612c965a9c4c35d713439919804ad960eb54d0ad41b4362ffd85343d4bbb4f
      else .ofNat 0x35b22c6cbc7988f80d8ed1be0ec1bf8dea41c1b5e35c750530e44f02244751f1
    findProgramAddress := fun seeds _ =>
      if seeds = [DomainRegistry.domainRecordSeed, (FixedBytes.ofNat
          0x38612c965a9c4c35d713439919804ad960eb54d0ad41b4362ffd85343d4bbb4f : FixedBytes 32).bytes]
      then (.ofNat 0xd991a1e79ce08e14df4f0b4e950442c621bed0344cb6f2bfe19d0c39897c14e9, 255)
      else (.ofNat 0x85f7fe79cfcab955ba35a5a7ef609e0e4f523494df56681322263a27eaa1d987, 254)
    sponsorPubkey := fun _ domain _ =>
      if domain = "https://a.example" then
        .ofNat 0xd80a9106656d8f65b7822d2cb522937dc8cb6d8ec8c2b7e9a3470e019ae08537
      else .ofNat 0xc1dc15d7980c7d1fcf9730c0a4382de436c813c4ace68c696e985fa308df04e5 }

def mnemonic : String := "test test test test test test test test test test test junk"

/-- A tenant with session management and one sponsor. -/
def tenant (domain : String) (txVariations : NameMap TransactionVariation) : Domain where
  domain
  enableSessionManagement := true
  enablePreflightSimulation := true
  numberOfSigners := 1
  numberOfSigners_pos := by decide
  txVariations

/-- A variation under the name of a template. -/
def clashing : NameMap TransactionVariation :=
  AList.insert "Session Establishment" (.v0 ⟨"Session Establishment", []⟩) ∅

def before : List Domain := [tenant "https://a.example" ∅, tenant "https://b.example" ∅]

def after : List Domain := [tenant "https://a.example" ∅, tenant "https://b.example" clashing]

/-- The clashing variation of `https://b.example` takes the state of `https://a.example` away at the
    start, and keeps it from getting one at a refresh. -/
theorem not_isolated :
    letI := host
    DifferOnlyAt "https://b.example" before after ∧
      (stateAtStart before mnemonic "https://a.example").isSome ∧
      stateAtStart after mnemonic "https://a.example" = none ∧
      ((refresh ∅ before mnemonic).lookup "https://a.example").isSome ∧
      (refresh ∅ after mnemonic).lookup "https://a.example" = none ∧
      ¬ Isolated mnemonic "https://b.example" before after := by
  let _ := host
  have hbefore : (stateAtStart before mnemonic "https://a.example").isSome := by decide +kernel
  have hafter : stateAtStart after mnemonic "https://a.example" = none := by
    rw [← Option.isNone_iff_eq_none]
    decide +kernel
  refine ⟨.cons (.inl rfl) (.cons (.inr ⟨rfl, rfl⟩) .nil), hbefore, hafter, by decide +kernel, ?_, ?_⟩
  · rw [← Option.isNone_iff_eq_none]
    decide +kernel
  · intro h
    have hsame := h.start "https://a.example" (by decide)
    rw [hafter] at hsame
    simp [hsame] at hbefore

end Tenants

/-- The rule at the two configurations above, of which only the second has a clash. -/
theorem isolated_iff_tenants :
    letI := Tenants.host
    Isolated Tenants.mnemonic "https://b.example" Tenants.before Tenants.after ↔
      ((∃ d ∈ Tenants.before, d.Clashes) ↔ ∃ d ∈ Tenants.after, d.Clashes) :=
  letI := Tenants.host
  isolated_iff _ _ (.cons (.inl rfl) (.cons (.inr ⟨rfl, rfl⟩) .nil))

end FogoSessions.Paymaster
