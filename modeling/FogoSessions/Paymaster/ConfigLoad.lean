import FogoSessions.Paymaster.ConfigSync

/-!
# What is loaded of the written rows

A variation whose numbers fit the columns is read back from what is written of it. When the rows of
a domain and of its variations are in the tables, in any order, the domain is loaded as it was.
-/

namespace FogoSessions.Paymaster

open Lib Solana

/-! ## One variation -/

/-- The gas and the fee fit in an `i64`. -/
def TransactionVariation.FitsI64 : TransactionVariation → Prop
  | v0 _ => True
  | v1 v => v.maxGasSpend.toNat < 2 ^ 63 ∧ ∀ fee ∈ v.paymasterFeeLamports, fee.toNat < 2 ^ 63

/-- The swap rates are numbers from 0 to 1. -/
def TransactionVariation.RatesInRange : TransactionVariation → Prop
  | v0 _ => True
  | v1 v => ∀ rate ∈ v.swapIntoFogo, rate.InRange

theorem u64TryFrom_toInt64 {v : UInt64} (h : v.toNat < 2 ^ 63) : u64TryFrom v.toInt64 = some v := by
  have hnonneg : v.toInt64.toInt = v.toNat := by
    change v.toBitVec.toInt = _
    rw [BitVec.toInt_eq_toNat_of_lt (by rw [UInt64.toNat_toBitVec]; omega), UInt64.toNat_toBitVec]
  rw [u64TryFrom, if_neg (by omega), UInt64.toUInt64_toInt64]

theorem i64TryFrom_eq_ok {v : UInt64} {name : String} {n : Int64} :
    i64TryFrom v name = .ok n ↔ v.toNat < 2 ^ 63 ∧ v.toInt64 = n := by
  unfold i64TryFrom
  split <;> simp_all

namespace TransactionVariation

variable {v : TransactionVariation} {columns : VariationColumns}

/-- What fits can be written. -/
theorem columns_isOk (h : v.FitsI64) : ∃ columns, v.columns = .ok columns := by
  cases v with
  | v0 v => exact ⟨_, rfl⟩
  | v1 v =>
    obtain ⟨hgas, hfee⟩ := h
    have hgas' : i64TryFrom v.maxGasSpend "max_gas_spend" = .ok v.maxGasSpend.toInt64 :=
      i64TryFrom_eq_ok.2 ⟨hgas, rfl⟩
    have hfee' : ∃ fee, (v.paymasterFeeLamports.mapM fun val =>
        i64TryFrom val "paymaster_fee_lamports") = .ok fee := by
      cases hv : v.paymasterFeeLamports with
      | none => exact ⟨none, rfl⟩
      | some fee =>
        refine ⟨some fee.toInt64, ?_⟩
        rw [Option.mapM_some, i64TryFrom_eq_ok.2 ⟨hfee fee hv, rfl⟩]
        rfl
    obtain ⟨fee, hfee'⟩ := hfee'
    simp only [TransactionVariation.columns, bind_eq_ok, pure_eq_ok]
    exact ⟨_, _, hgas', _, hfee', rfl⟩

theorem columns_name (h : v.columns = .ok columns) : columns.name = v.name := by
  cases v with
  | v0 v =>
    cases h
    rfl
  | v1 v =>
    simp only [TransactionVariation.columns, bind_eq_ok, pure_eq_ok] at h
    obtain ⟨_, _, _, _, rfl⟩ := h
    rfl

/-- What was written of a variation is read back as the variation. -/
theorem load_columns (h : v.columns = .ok columns) (hrates : v.RatesInRange) {row : VariationRow}
    (hrow : row.toVariationColumns = columns) : row.selected.load = .ok v := by
  subst hrow
  cases v with
  | v0 v =>
    have hcolumns : row.toVariationColumns = _ := (Except.ok.inj h).symm
    have hstrings : (v.whitelistedPrograms.map fun k => Json.string k.toString).filterMap
        Json.string? = v.whitelistedPrograms.map Pubkey.toString := by
      rw [List.filterMap_map, ← List.filterMap_eq_map]
      rfl
    have hkeys : ((v.whitelistedPrograms.map Pubkey.toString).mapM fun s =>
        okOr (Pubkey.fromStr s) LoadError.parsePubkey) = .ok v.whitelistedPrograms :=
      mapM_map_eq_ok fun k _ => okOr_eq_ok.2 (Pubkey.fromStr_toString k)
    simp only [Variation.load, VariationRow.selected, hcolumns, VariationVersion.text, if_true,
      handleTransactionVariationV0, hstrings, hkeys]
    rfl
  | v1 v =>
    simp only [TransactionVariation.columns, bind_eq_ok, pure_eq_ok, i64TryFrom_eq_ok] at h
    obtain ⟨gas, ⟨hgas, rfl⟩, fee, hfee, h⟩ := h
    have hcolumns : row.toVariationColumns = _ := h.symm
    have hinstructions := Json.list?_map v.instructions fun c _ =>
      InstructionConstraint.deserialize_serialize c
    have hswap := Json.list?_map v.swapIntoFogo fun r hr =>
      MintSwapRate.deserialize_serialize (hrates r hr)
    have hfee' (e : LoadError) : (fee.mapM fun n => okOr (u64TryFrom n) e) =
        .ok v.paymasterFeeLamports := by
      cases hv : v.paymasterFeeLamports with
      | none =>
        rw [hv] at hfee
        cases hfee
        rfl
      | some val =>
        rw [hv, Option.mapM_some, map_eq_ok] at hfee
        obtain ⟨n, hn, rfl⟩ := hfee
        obtain ⟨hval, rfl⟩ := i64TryFrom_eq_ok.1 hn
        rw [Option.mapM_some, u64TryFrom_toInt64 hval]
        rfl
    have hversion : ¬ ("v1" = "v0") := by decide
    simp only [Variation.load, VariationRow.selected, hcolumns, VariationVersion.text,
      if_neg hversion, if_true, handleTransactionVariationV1, bind_eq_ok, okOr_eq_ok, pure_eq_ok]
    exact ⟨_, rfl, _, u64TryFrom_toInt64 hgas, _, hinstructions, _, hswap, _, hfee' _, rfl⟩

end TransactionVariation

/-! ## One domain -/

/-- Every variation is kept under its own name. -/
def Domain.Keyed (d : Domain) : Prop := ∀ entry ∈ d.txVariations.entries, entry.1 = entry.2.name

/-- So the configuration file keeps them. -/
theorem deserializeTransactionVariations_keyed {variations : List TransactionVariation}
    {txVariations : NameMap TransactionVariation}
    (h : deserializeTransactionVariations variations = .ok txVariations) :
    ∀ entry ∈ txVariations.entries, entry.1 = entry.2.name := by
  refine foldlM_invariant
    (P := fun m : NameMap TransactionVariation => ∀ entry ∈ m.entries, entry.1 = entry.2.name)
    ?_ variations ∅ txVariations (List.forall_mem_nil _) h
  intro m v m' hm hinsert
  simp only [insertVariation] at hinsert
  split at hinsert
  · cases hinsert
  · cases hinsert
    intro entry hentry
    rw [AList.entries_insert] at hentry
    rcases List.mem_cons.1 hentry with rfl | hentry
    · rfl
    · exact hm entry ((List.kerase_sublist _ _).subset hentry)

/-- The same domain, but for the number of signers. -/
structure Domain.Same (d d' : Domain) : Prop where
  domain : d.domain = d'.domain
  enableSessionManagement : d.enableSessionManagement = d'.enableSessionManagement
  enablePreflightSimulation : d.enablePreflightSimulation = d'.enablePreflightSimulation
  txVariations : ∀ name, d.txVariations.lookup name = d'.txVariations.lookup name

/-- The rows of one domain. -/
structure DomainGroup where
  row : DomainConfigRow
  variations : List VariationRow

/-- The row holds the variation of the entry, for the domain. -/
def HoldsEntry (id : Uuid) (entry : Sigma fun _ : String => TransactionVariation)
    (row : VariationRow) : Prop :=
  row.domainConfigId = id ∧ entry.2.columns = .ok row.toVariationColumns

/-- The rows hold the domain. -/
structure Stored (networkEnvironment : NetworkEnvironment) (d : Domain) (g : DomainGroup) : Prop where
  domain : g.row.domain = d.domain
  networkEnvironment : g.row.networkEnvironment = networkEnvironment
  enableSessionManagement : g.row.enableSessionManagement = d.enableSessionManagement
  enablePreflightSimulation : g.row.enablePreflightSimulation = d.enablePreflightSimulation
  variations : List.Forall₂ (HoldsEntry g.row.id) d.txVariations.entries g.variations

/-- Adding a variation changes nothing else. -/
theorem addRow_fields (d : Domain) (row : Variation) :
    (d.addRow row).domain = d.domain ∧
      (d.addRow row).enableSessionManagement = d.enableSessionManagement ∧
      (d.addRow row).enablePreflightSimulation = d.enablePreflightSimulation := by
  unfold Domain.addRow
  split <;> exact ⟨rfl, rfl, rfl⟩

theorem foldl_addRow_fields : ∀ (rows : List Variation) (d : Domain),
    (rows.foldl Domain.addRow d).domain = d.domain ∧
      (rows.foldl Domain.addRow d).enableSessionManagement = d.enableSessionManagement ∧
      (rows.foldl Domain.addRow d).enablePreflightSimulation = d.enablePreflightSimulation
  | [], _ => ⟨rfl, rfl, rfl⟩
  | row :: rows, d => by
    obtain ⟨h₁, h₂, h₃⟩ := addRow_fields d row
    obtain ⟨h₁', h₂', h₃'⟩ := foldl_addRow_fields rows (d.addRow row)
    exact ⟨h₁'.trans h₁, h₂'.trans h₂, h₃'.trans h₃⟩

theorem lookup_addRow_ne {d : Domain} {row : Variation} {name : String}
    (h : ∀ v, row.load = .ok v → v.name ≠ name) :
    (d.addRow row).txVariations.lookup name = d.txVariations.lookup name := by
  unfold Domain.addRow
  split
  · rename_i v hv
    exact AList.lookup_insert_ne (h v hv).symm
  · rfl

theorem lookup_addRow_of_load {d : Domain} {row : Variation} {v : TransactionVariation}
    (h : row.load = .ok v) : (d.addRow row).txVariations.lookup v.name = some v := by
  simp only [Domain.addRow, h]
  exact AList.lookup_insert d.txVariations

/-- A name that no row has is not added. -/
theorem lookup_foldl_addRow_ne {name : String} :
    ∀ {rows : List Variation} (d : Domain),
      (∀ row ∈ rows, ∀ v, row.load = .ok v → v.name ≠ name) →
        (rows.foldl Domain.addRow d).txVariations.lookup name = d.txVariations.lookup name
  | [], _, _ => rfl
  | row :: rows, d, h => by
    rw [List.foldl_cons,
      lookup_foldl_addRow_ne (d.addRow row) fun r hr => h r (List.mem_cons_of_mem row hr)]
    exact lookup_addRow_ne (h row List.mem_cons_self)

/-- A variation is added, whatever the order, if no other has its name. -/
theorem lookup_foldl_addRow {v : TransactionVariation} :
    ∀ {rows : List Variation} (d : Domain),
      (∀ row ∈ rows, ∀ w, row.load = .ok w → w.name = v.name → w = v) →
        ((∃ row ∈ rows, row.load = .ok v) ∨ d.txVariations.lookup v.name = some v) →
          (rows.foldl Domain.addRow d).txVariations.lookup v.name = some v
  | [], d, _, h => by
    rcases h with ⟨row, hrow, _⟩ | h
    · cases hrow
    · exact h
  | row :: rows, d, hunique, h => by
    refine lookup_foldl_addRow (d.addRow row)
      (fun r hr => hunique r (List.mem_cons_of_mem row hr)) ?_
    by_cases hload : row.load = .ok v
    · exact .inr (lookup_addRow_of_load hload)
    · have hne (w : TransactionVariation) (hw : row.load = .ok w) : w.name ≠ v.name := by
        intro hname
        exact hload (hunique row List.mem_cons_self w hw hname ▸ hw)
      rcases h with ⟨r, hr, hv⟩ | h
      · rcases List.mem_cons.1 hr with rfl | hr
        · exact absurd hv hload
        · exact .inl ⟨r, hr, hv⟩
      · exact .inr ((lookup_addRow_ne hne).trans h)

/-- The rows of a domain, in any order, give the domain. -/
theorem Stored.same_foldl_addRow {networkEnvironment : NetworkEnvironment} {d : Domain} {g : DomainGroup}
    (h : Stored networkEnvironment d g) (hkeyed : d.Keyed)
    (hrates : ∀ entry ∈ d.txVariations.entries, entry.2.RatesInRange) {rows : List Variation}
    (hrows : ∀ row, row ∈ rows ↔ row ∈ g.variations.map (·.selected)) :
    d.Same (rows.foldl Domain.addRow g.row.selected.toDomain) := by
  obtain ⟨hdomain, hsession, hpreflight⟩ := foldl_addRow_fields rows g.row.selected.toDomain
  -- what a row loads is the variation of an entry
  have hload (row : Variation) (hrow : row ∈ rows) (v : TransactionVariation)
      (hv : row.load = .ok v) : ⟨v.name, v⟩ ∈ d.txVariations.entries := by
    obtain ⟨stored, hstored, rfl⟩ := List.mem_map.1 ((hrows row).1 hrow)
    obtain ⟨entry, hentry, _, hcolumns⟩ := Table.exists_left h.variations hstored
    have hv' := TransactionVariation.load_columns hcolumns (hrates entry hentry) rfl
    cases hv.symm.trans hv'
    rw [← hkeyed entry hentry]
    exact hentry
  refine ⟨h.domain.symm.trans hdomain.symm, h.enableSessionManagement.symm.trans hsession.symm,
    h.enablePreflightSimulation.symm.trans hpreflight.symm, fun name => ?_⟩
  cases hlookup : d.txVariations.lookup name with
  | none =>
    rw [lookup_foldl_addRow_ne]
    · rfl
    · intro row hrow v hv hname
      rw [← hname, AList.mem_lookup_iff.2 (hload row hrow v hv)] at hlookup
      cases hlookup
  | some v =>
    have hentry : ⟨name, v⟩ ∈ d.txVariations.entries := AList.mem_lookup_iff.1 hlookup
    have hname : name = v.name := hkeyed _ hentry
    subst hname
    refine (lookup_foldl_addRow _ ?_ (.inl ?_)).symm
    · intro row hrow w hw hname
      have hw' := AList.mem_lookup_iff.2 (hload row hrow w hw)
      rw [hname, hlookup] at hw'
      cases hw'
      rfl
    · obtain ⟨stored, hstored, _, hcolumns⟩ := Table.exists_right h.variations hentry
      refine ⟨stored.selected, (hrows _).2 (List.mem_map_of_mem hstored), ?_⟩
      exact TransactionVariation.load_columns hcolumns (hrates _ hentry) rfl

/-! ## All domains -/

theorem lookup_foldl_insertDomain_ne {id : Uuid} :
    ∀ {rows : List DomainConfig} (m : UuidMap Domain), (∀ row ∈ rows, row.id ≠ id) →
      (rows.foldl insertDomain m).lookup id = m.lookup id
  | [], _, _ => rfl
  | row :: rows, m, h => by
    rw [List.foldl_cons,
      lookup_foldl_insertDomain_ne _ fun r hr => h r (List.mem_cons_of_mem row hr)]
    exact AList.lookup_insert_ne (h row List.mem_cons_self).symm

theorem lookup_foldl_insertDomain {row : DomainConfig} :
    ∀ {rows : List DomainConfig} (m : UuidMap Domain), (rows.map (·.id)).Nodup → row ∈ rows →
      (rows.foldl insertDomain m).lookup row.id = some row.toDomain
  | first :: rows, m, hnodup, hrow => by
    rw [List.map_cons, List.nodup_cons] at hnodup
    rw [List.foldl_cons]
    rcases List.mem_cons.1 hrow with rfl | hrow
    · rw [lookup_foldl_insertDomain_ne]
      · exact AList.lookup_insert m
      · intro r hr hid
        exact hnodup.1 (hid ▸ List.mem_map_of_mem hr)
    · exact lookup_foldl_insertDomain _ hnodup.2 hrow

theorem lookup_addVariation (m : UuidMap Domain) (row : Variation) (id : Uuid) :
    (addVariation m row).lookup id =
      (m.lookup id).map fun d => if row.domainConfigId = id then d.addRow row else d := by
  unfold addVariation
  by_cases hid : row.domainConfigId = id
  · subst hid
    simp only [if_true]
    cases hlookup : m.lookup row.domainConfigId with
    | none => exact hlookup
    | some d => exact AList.lookup_insert m
  · simp only [if_neg hid, Option.map_id']
    cases m.lookup row.domainConfigId with
    | none => rfl
    | some d => exact AList.lookup_insert_ne (Ne.symm hid)

/-- A domain gets the variations that belong to it. -/
theorem lookup_foldl_addVariation (id : Uuid) :
    ∀ (rows : List Variation) (m : UuidMap Domain),
      (rows.foldl addVariation m).lookup id =
        (m.lookup id).map (List.foldl Domain.addRow · (rows.filter (·.domainConfigId = id)))
  | [], m => by simp
  | row :: rows, m => by
    rw [List.foldl_cons, lookup_foldl_addVariation id rows, lookup_addVariation, Option.map_map]
    by_cases hid : row.domainConfigId = id
    · simp [hid, Function.comp_def]
    · simp [hid, Function.comp_def]

/-- Groups of distinct domains, with the rows of each in it. -/
structure Grouped (networkEnvironment : NetworkEnvironment) (groups : List DomainGroup) (db : Database) :
    Prop where
  domainConfigs : db.domainConfigs = groups.map (·.row)
  variations : db.variations = groups.flatMap (·.variations)
  ids : (groups.map (·.row.id)).Nodup
  networkEnvironment : ∀ g ∈ groups, g.row.networkEnvironment = networkEnvironment
  domainConfigId : ∀ g ∈ groups, ∀ row ∈ g.variations, row.domainConfigId = g.row.id

namespace Grouped

variable {networkEnvironment : NetworkEnvironment} {groups : List DomainGroup} {db : Database}

theorem selectDomainConfigs_eq (h : Grouped networkEnvironment groups db) :
    db.selectDomainConfigs networkEnvironment = groups.map fun g => g.row.selected := by
  have hall : db.domainConfigs.filter (·.networkEnvironment = networkEnvironment) =
      db.domainConfigs := by
    apply List.filter_eq_self.2
    intro row hrow
    rw [h.domainConfigs] at hrow
    obtain ⟨g, hg, rfl⟩ := List.mem_map.1 hrow
    exact decide_eq_true (h.networkEnvironment g hg)
  rw [Database.selectDomainConfigs, hall, h.domainConfigs, List.map_map]
  rfl

theorem mem_selectVariations (h : Grouped networkEnvironment groups db) {row : Variation} :
    row ∈ db.selectVariations networkEnvironment ↔
      ∃ g ∈ groups, row ∈ g.variations.map (·.selected) := by
  simp only [Database.selectVariations, List.mem_flatMap, List.mem_map, List.mem_filter,
    h.domainConfigs, h.variations, decide_eq_true_eq]
  constructor
  · rintro ⟨stored, ⟨g, hg, hstored⟩, _, _, rfl⟩
    exact ⟨g, hg, stored, hstored, rfl⟩
  · rintro ⟨g, hg, stored, hstored, rfl⟩
    refine ⟨stored, ⟨g, hg, hstored⟩, g.row, ⟨⟨g, hg, rfl⟩, ?_⟩, rfl⟩
    exact ⟨h.domainConfigId g hg stored hstored, h.networkEnvironment g hg⟩

/-- The rows that are joined with a domain are those of its group. -/
theorem mem_filter_id (h : Grouped networkEnvironment groups db) {variationRows : List Variation}
    (hrows : variationRows.Perm (db.selectVariations networkEnvironment)) {g : DomainGroup}
    (hg : g ∈ groups) (row : Variation) :
    row ∈ variationRows.filter (·.domainConfigId = g.row.id) ↔
      row ∈ g.variations.map (·.selected) := by
  rw [List.mem_filter, hrows.mem_iff, h.mem_selectVariations, decide_eq_true_eq]
  constructor
  · rintro ⟨⟨g', hg', hrow⟩, hid⟩
    obtain ⟨stored, hstored, rfl⟩ := List.mem_map.1 hrow
    have hid' : g'.row.id = g.row.id := (h.domainConfigId g' hg' stored hstored).symm.trans hid
    rwa [← Table.eq_of_key h.ids hg' hg hid']
  · intro hrow
    refine ⟨⟨g, hg, hrow⟩, ?_⟩
    obtain ⟨stored, hstored, rfl⟩ := List.mem_map.1 hrow
    exact h.domainConfigId g hg stored hstored

end Grouped

/-- The selected rows of the tables that hold the domains, in any order, give the domains. -/
theorem loadConfig_same {networkEnvironment : NetworkEnvironment} {domains : List Domain}
    {groups : List DomainGroup} {db : Database} (hgrouped : Grouped networkEnvironment groups db)
    (hstored : List.Forall₂ (Stored networkEnvironment) domains groups)
    (hkeyed : ∀ d ∈ domains, d.Keyed)
    (hrates : ∀ d ∈ domains, ∀ entry ∈ d.txVariations.entries, entry.2.RatesInRange)
    {domainRows : List DomainConfig} {variationRows : List Variation}
    (hdomainRows : domainRows.Perm (db.selectDomainConfigs networkEnvironment))
    (hvariationRows : variationRows.Perm (db.selectVariations networkEnvironment)) :
    ∃ loaded, loaded.Perm (loadConfig domainRows variationRows).domains ∧
      List.Forall₂ Domain.Same domains loaded := by
  rw [hgrouped.selectDomainConfigs_eq] at hdomainRows
  have hids : (domainRows.map (·.id)).Nodup := by
    rw [(hdomainRows.map (·.id)).nodup_iff, List.map_map]
    exact hgrouped.ids
  -- what the map has for the domain of a group
  have hlookup (g : DomainGroup) (hg : g ∈ groups) :
      (variationRows.foldl addVariation (domainRows.foldl insertDomain ∅)).lookup g.row.id =
        some ((variationRows.filter (·.domainConfigId = g.row.id)).foldl Domain.addRow
          g.row.selected.toDomain) := by
    have hrow : g.row.selected ∈ domainRows := hdomainRows.mem_iff.2 (List.mem_map_of_mem hg)
    rw [lookup_foldl_addVariation]
    have hdomain := lookup_foldl_insertDomain ∅ hids hrow
    exact congrArg (Option.map _) hdomain
  have hmem (id : Uuid) : id ∈ variationRows.foldl addVariation (domainRows.foldl insertDomain ∅) ↔
      id ∈ groups.map (·.row.id) := by
    rw [← AList.lookup_isSome]
    constructor
    · intro h
      by_contra hid
      rw [lookup_foldl_addVariation, lookup_foldl_insertDomain_ne] at h
      · cases h
      · intro row hrow hrowId
        obtain ⟨g, hg, rfl⟩ := List.mem_map.1 (hdomainRows.mem_iff.1 hrow)
        exact hid (List.mem_map.2 ⟨g, hg, hrowId⟩)
    · intro h
      obtain ⟨g, hg, rfl⟩ := List.mem_map.1 h
      rw [hlookup g hg]
      rfl
  obtain ⟨loaded, hperm, hloaded⟩ := Table.exists_values hgrouped.ids hmem
  refine ⟨loaded, hperm, ?_⟩
  rw [List.forall₂_map_left_iff] at hloaded
  refine Table.forall₂_trans hstored hloaded ?_
  intro d g value hd hg hdg hvalue
  rw [hlookup g hg] at hvalue
  cases hvalue
  exact hdg.same_foldl_addRow (hkeyed d hd) (hrates d hd)
    (hgrouped.mem_filter_id hvariationRows hg)

end FogoSessions.Paymaster
