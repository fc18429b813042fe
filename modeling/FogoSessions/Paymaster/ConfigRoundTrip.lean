import FogoSessions.Paymaster.ConfigLoad

/-!
# Configurations survive the database

Syncing a configuration into an empty database and loading it gives the configuration back, and
syncing it again changes nothing. The first sync meets no row of the domains it writes, so it appends
their groups of rows; a second one finds each row with the values already.
-/

namespace FogoSessions.Paymaster

open Lib Solana

/-! ## Users and apps -/

/-- The owner of an app is the user of the registrable domain. -/
structure Accounts (db : Database) : Prop where
  usernames : (db.users.map (·.username)).Nodup
  wallets : ∀ user ∈ db.users, user.walletAddress = s!"wallet-address-{user.username}"
  owners : ∀ app ∈ db.apps, ∃ user ∈ db.users,
    user.id = app.userId ∧ user.username = registrableDomain app.name

theorem walletAddress_injective {a b : String}
    (h : s!"wallet-address-{a}" = s!"wallet-address-{b}") : a = b :=
  (String.append_right_inj "wallet-address-").1 h

/-- The user of a host: the one there is, or a new one. -/
theorem insertOrReturnUser_spec (now : Nat → Timestamp) (host : String) {s : Session}
    (h : Accounts s.db) :
    ∃ id users, insertOrReturnUser now host s = .ok (id, ⟨{ s.db with users }, s.generated + 1⟩) ∧
      Accounts { s.db with users } ∧
      (∃ user ∈ users, user.id = id ∧ user.username = registrableDomain host) ∧
      ((∃ user ∈ s.db.users, user.username = registrableDomain host) → users = s.db.users) := by
  by_cases htaken : ∃ user ∈ s.db.users, user.username = registrableDomain host
  · obtain ⟨found, hfound, hmem, hname⟩ := Table.exists_find? htaken
    refine ⟨found.id, s.db.users, ?_, h, ⟨found, hmem, rfl, hname⟩, fun _ => rfl⟩
    have hinsert (new : UserRow) (hnew : new.username = registrableDomain host) :
        s.db.insertUser new = .ok (none, s.db) := by
      rw [Database.insertUser, Table.insertNew_taken hmem (hname.trans hnew.symm)]
    have hselect : s.db.selectUser (registrableDomain host) = .ok found.id := by
      rw [Database.selectUser, hfound]
      rfl
    simp only [insertOrReturnUser, bind_eq_ok]
    exact ⟨_, hinsert _ rfl, bind_eq_ok.2 ⟨_, hselect, rfl⟩⟩
  · have hfree : ∀ user ∈ s.db.users, user.username ≠ registrableDomain host :=
      fun user huser hname => htaken ⟨user, huser, hname⟩
    let new := newUser now s.generated (registrableDomain host)
    have hinsert : s.db.insertUser new =
        .ok (some new.id, { s.db with users := s.db.users ++ [new] }) := by
      have hinsert : Table.insertNew (·.username) new s.db.users = some (s.db.users ++ [new]) :=
        Table.insertNew_free hfree
      rw [Database.insertUser, hinsert]
      refine bind_eq_ok.2 ⟨⟨⟩, require_eq_ok.2 fun user huser hsame => ?_, rfl⟩
      rw [h.wallets user huser] at hsame
      exact hfree user huser (walletAddress_injective hsame)
    refine ⟨new.id, s.db.users ++ [new], ?_, ?_, ?_, fun ht => absurd ht htaken⟩
    · simp only [insertOrReturnUser, bind_eq_ok]
      exact ⟨_, hinsert, rfl⟩
    · refine ⟨Table.nodup_append h.usernames hfree, ?_, ?_⟩
      · intro user huser
        rcases List.mem_append.1 huser with huser | huser
        · exact h.wallets user huser
        · rw [List.mem_singleton.1 huser]
          rfl
      · intro app happ
        obtain ⟨user, huser, howner⟩ := h.owners app happ
        exact ⟨user, List.mem_append_left _ huser, howner⟩
    · exact ⟨_, List.mem_append_right _ (List.mem_singleton_self _), rfl, rfl⟩

/-- The app of a host, which belongs to the user of the host. -/
theorem insertOrReturnApp_spec (now : Nat → Timestamp) (host : String) {userId : Uuid} {s : Session}
    (h : Accounts s.db)
    (huser : ∃ user ∈ s.db.users, user.id = userId ∧ user.username = registrableDomain host) :
    ∃ id apps,
      insertOrReturnApp now userId host s = .ok (id, ⟨{ s.db with apps }, s.generated + 1⟩) ∧
        Accounts { s.db with apps } ∧ (∃ app ∈ apps, app.id = id ∧ app.name = host) ∧
        s.db.apps ⊆ apps ∧ ((∃ app ∈ s.db.apps, app.name = host) → apps = s.db.apps) := by
  obtain ⟨user, huser, rfl, husername⟩ := huser
  by_cases htaken : ∃ app ∈ s.db.apps, app.name = host
  · obtain ⟨taken, htaken, hname⟩ := htaken
    -- the owner of the app is the user
    have howner : taken.userId = user.id := by
      obtain ⟨owner, howner, hid, howns⟩ := h.owners taken htaken
      rw [hname, ← husername] at howns
      rw [← hid, Table.eq_of_key h.usernames howner huser howns]
    obtain ⟨found, hfound, hmem, hfoundUser, hfoundName⟩ := Table.exists_find?
      (p := fun app : AppRow => app.userId = user.id ∧ app.name = host) ⟨taken, htaken, howner, hname⟩
    refine ⟨found.id, s.db.apps, ?_, h, ⟨found, hmem, rfl, hfoundName⟩, List.Subset.refl _,
      fun _ => rfl⟩
    have hinsert (new : AppRow) (hnew : new.name = host) :
        s.db.insertApp new = .ok (none, s.db) := by
      rw [Database.insertApp, Table.insertNew_taken htaken (hname.trans hnew.symm)]
    have hselect : s.db.selectApp user.id host = .ok found.id := by
      rw [Database.selectApp, hfound]
      rfl
    simp only [insertOrReturnApp, bind_eq_ok]
    exact ⟨_, hinsert _ rfl, bind_eq_ok.2 ⟨_, hselect, rfl⟩⟩
  · have hfree : ∀ app ∈ s.db.apps, app.name ≠ host :=
      fun app happ hname => htaken ⟨app, happ, hname⟩
    let new := newApp now s.generated user.id host
    have hinsert : s.db.insertApp new =
        .ok (some new.id, { s.db with apps := s.db.apps ++ [new] }) := by
      have hinsert : Table.insertNew (·.name) new s.db.apps = some (s.db.apps ++ [new]) :=
        Table.insertNew_free hfree
      rw [Database.insertApp, hinsert]
      exact bind_eq_ok.2 ⟨⟨⟩, require_eq_ok.2 ⟨user, huser, rfl⟩, rfl⟩
    refine ⟨new.id, s.db.apps ++ [new], ?_, ?_, ?_, List.subset_append_left _ _,
      fun ht => absurd ht htaken⟩
    · simp only [insertOrReturnApp, bind_eq_ok]
      exact ⟨_, hinsert, rfl⟩
    · refine ⟨h.usernames, h.wallets, ?_⟩
      intro app happ
      rcases List.mem_append.1 happ with happ | happ
      · exact h.owners app happ
      · rw [List.mem_singleton.1 happ]
        exact ⟨user, huser, rfl, husername⟩
    · exact ⟨_, List.mem_append_right _ (List.mem_singleton_self _), rfl, rfl⟩

/-! ## Domains and variations -/

section

variable {networkEnvironment : NetworkEnvironment} {s : Session} (now : Nat → Timestamp)

theorem insertOrUpdateDomainConfig_new {appId : Uuid} {d : Domain}
    (happ : ∃ app ∈ s.db.apps, app.id = appId)
    (hfree : ∀ row ∈ s.db.domainConfigs, row.key ≠ (d.domain, networkEnvironment)) :
    insertOrUpdateDomainConfig now appId d networkEnvironment s =
      .ok (s.generated,
        ⟨{ s.db with
            domainConfigs := s.db.domainConfigs ++
              [newDomainConfig now s.generated appId d networkEnvironment] },
          s.generated + 1⟩) := by
  let new := newDomainConfig now s.generated appId d networkEnvironment
  have hupsert : s.db.upsertDomainConfig new =
      .ok (new.id, { s.db with domainConfigs := s.db.domainConfigs ++ [new] }) := by
    refine bind_eq_ok.2 ⟨⟨⟩, require_eq_ok.2 (.inr happ), ?_⟩
    dsimp only
    rw [Table.upsert_free hfree]
    rfl
  exact bind_eq_ok.2 ⟨_, hupsert, rfl⟩

theorem insertOrUpdateDomainConfig_same (appId : Uuid) {d : Domain}
    (hnodup : (s.db.domainConfigs.map DomainConfigRow.key).Nodup) {row : DomainConfigRow}
    (hrow : row ∈ s.db.domainConfigs) (hkey : row.key = (d.domain, networkEnvironment))
    (hsession : row.enableSessionManagement = d.enableSessionManagement)
    (hpreflight : row.enablePreflightSimulation = d.enablePreflightSimulation) :
    insertOrUpdateDomainConfig now appId d networkEnvironment s =
      .ok (row.id, ⟨s.db, s.generated + 1⟩) := by
  let new := newDomainConfig now s.generated appId d networkEnvironment
  have hkey : row.key = new.key := hkey
  have hupsert : s.db.upsertDomainConfig new = .ok (row.id, s.db) := by
    refine bind_eq_ok.2 ⟨⟨⟩, require_eq_ok.2 (.inl ⟨row, hrow, hkey⟩), ?_⟩
    dsimp only
    rw [Table.upsert_same hnodup hrow hkey]
    · rfl
    · -- the update writes the flags that are there
      change { row with enableSessionManagement := d.enableSessionManagement,
                        enablePreflightSimulation := d.enablePreflightSimulation } = row
      rw [← hsession, ← hpreflight]
  exact bind_eq_ok.2 ⟨_, hupsert, rfl⟩

theorem insertOrUpdateVariation_new {id : Uuid} {v : TransactionVariation}
    {columns : VariationColumns} (hcolumns : v.columns = .ok columns)
    (hdomain : ∃ dc ∈ s.db.domainConfigs, dc.id = id)
    (hfree : ∀ row ∈ s.db.variations, row.key ≠ (id, v.name)) :
    insertOrUpdateVariation now id v s =
      .ok ⟨{ s.db with
              variations := s.db.variations ++ [newVariation now s.generated id columns] },
            s.generated + 1⟩ := by
  refine bind_eq_ok.2 ⟨columns, hcolumns, ?_⟩
  let new := newVariation now s.generated id columns
  rw [← TransactionVariation.columns_name hcolumns] at hfree
  have hupsert : s.db.upsertVariation new =
      .ok (new.id, { s.db with variations := s.db.variations ++ [new] }) := by
    refine bind_eq_ok.2 ⟨⟨⟩, require_eq_ok.2 (.inr hdomain), ?_⟩
    dsimp only
    rw [Table.upsert_free hfree]
    rfl
  exact bind_eq_ok.2 ⟨_, hupsert, rfl⟩

theorem insertOrUpdateVariation_same {id : Uuid} {v : TransactionVariation}
    (hnodup : (s.db.variations.map VariationRow.key).Nodup) {row : VariationRow}
    (hrow : row ∈ s.db.variations) (hid : row.domainConfigId = id)
    (hcolumns : v.columns = .ok row.toVariationColumns) :
    insertOrUpdateVariation now id v s = .ok ⟨s.db, s.generated + 1⟩ := by
  refine bind_eq_ok.2 ⟨row.toVariationColumns, hcolumns, ?_⟩
  let new := newVariation now s.generated id row.toVariationColumns
  have hkey : row.key = new.key := congrArg (·, row.name) hid
  have hupsert : s.db.upsertVariation new = .ok (row.id, s.db) := by
    refine bind_eq_ok.2 ⟨⟨⟩, require_eq_ok.2 (.inl ⟨row, hrow, hkey⟩), ?_⟩
    dsimp only
    rw [Table.upsert_same hnodup hrow hkey rfl]
    rfl
  exact bind_eq_ok.2 ⟨_, hupsert, rfl⟩

/-- The variations of a domain that has none yet are appended. -/
theorem syncVariations_new {id : Uuid} :
    ∀ (entries : List (Sigma fun _ : String => TransactionVariation)) (s : Session),
      (∃ dc ∈ s.db.domainConfigs, dc.id = id) → (∀ entry ∈ entries, entry.2.FitsI64) →
      (entries.map (·.2.name)).Nodup →
      (∀ row ∈ s.db.variations, row.domainConfigId = id → row.name ∉ entries.map (·.2.name)) →
        ∃ rows generated,
          entries.foldlM (fun s entry => insertOrUpdateVariation now id entry.2 s) s =
            .ok ⟨{ s.db with variations := s.db.variations ++ rows }, generated⟩ ∧
          s.generated ≤ generated ∧ List.Forall₂ (HoldsEntry id) entries rows
  | [], s, _, _, _, _ => by
    refine ⟨[], s.generated, ?_, le_refl _, .nil⟩
    rw [List.append_nil]
    rfl
  | entry :: entries, s, hdomain, hfits, hnodup, hfree => by
    rw [List.map_cons, List.nodup_cons] at hnodup
    obtain ⟨columns, hcolumns⟩ :=
      TransactionVariation.columns_isOk (hfits entry List.mem_cons_self)
    have hfirst := insertOrUpdateVariation_new now hcolumns hdomain fun row hrow hkey => by
      obtain ⟨hid, hname⟩ := Prod.mk.inj hkey
      exact hfree row hrow hid (hname ▸ List.mem_cons_self)
    let new := newVariation now s.generated id columns
    let next : Session := ⟨{ s.db with variations := s.db.variations ++ [new] }, s.generated + 1⟩
    obtain ⟨rows, generated, hrest, hle, hrows⟩ := syncVariations_new entries next hdomain
      (fun e he => hfits e (List.mem_cons_of_mem entry he)) hnodup.2 (by
        intro row hrow hid
        rcases List.mem_append.1 hrow with hrow | hrow
        · exact fun hname => hfree row hrow hid (List.mem_cons_of_mem _ hname)
        · rw [List.mem_singleton.1 hrow]
          change columns.name ∉ _
          rw [TransactionVariation.columns_name hcolumns]
          exact hnodup.1)
    refine ⟨new :: rows, generated, ?_, Nat.le_of_succ_le hle, .cons ⟨rfl, hcolumns⟩ hrows⟩
    rw [List.append_cons, List.foldlM_cons, hfirst]
    exact hrest

/-- The variations that are there already are left as they are. -/
theorem syncVariations_same (id : Uuid) {db : Database}
    (hnodup : (db.variations.map VariationRow.key).Nodup) :
    ∀ (entries : List (Sigma fun _ : String => TransactionVariation)) (generated : Nat),
      (∀ entry ∈ entries, ∃ row ∈ db.variations, HoldsEntry id entry row) →
        ∃ generated',
          entries.foldlM (fun s entry => insertOrUpdateVariation now id entry.2 s) ⟨db, generated⟩ =
            .ok ⟨db, generated'⟩
  | [], generated, _ => ⟨generated, rfl⟩
  | entry :: entries, generated, h => by
    obtain ⟨row, hrow, hid, hcolumns⟩ := h entry List.mem_cons_self
    obtain ⟨generated', hrest⟩ := syncVariations_same id hnodup entries (generated + 1)
      fun e he => h e (List.mem_cons_of_mem entry he)
    refine ⟨generated', ?_⟩
    rw [List.foldlM_cons,
      insertOrUpdateVariation_same (s := ⟨db, generated⟩) now hnodup hrow hid hcolumns]
    exact hrest

end

/-! ## The first sync -/

section

variable [UrlParser] {networkEnvironment : NetworkEnvironment} (now : Nat → Timestamp)

/-- The database holds the domains and nothing else of the environment. -/
structure Synced (networkEnvironment : NetworkEnvironment) (domains : List Domain) (s : Session) :
    Prop where
  accounts : Accounts s.db
  hosts : ∀ d ∈ domains, ∃ app ∈ s.db.apps, app.name = hostOf d.domain
  groups : ∃ groups, Grouped networkEnvironment groups s.db ∧
    List.Forall₂ (Stored networkEnvironment) domains groups ∧ ∀ g ∈ groups, g.row.id < s.generated

theorem synced_empty (generated : Nat) :
    Synced networkEnvironment [] ⟨Database.empty, generated⟩ where
  accounts := ⟨List.nodup_nil, List.forall_mem_nil _, List.forall_mem_nil _⟩
  hosts := List.forall_mem_nil _
  groups := ⟨[], ⟨rfl, rfl, List.nodup_nil, List.forall_mem_nil _, List.forall_mem_nil _⟩, .nil,
    List.forall_mem_nil _⟩

omit [UrlParser] in
/-- The names of the variations of a domain are distinct. -/
theorem Domain.Keyed.nodup {d : Domain} (h : d.Keyed) :
    (d.txVariations.entries.map (·.2.name)).Nodup := by
  have hkeys : d.txVariations.entries.map (·.2.name) = d.txVariations.keys := by
    apply List.map_congr_left
    intro entry hentry
    exact (h entry hentry).symm
  rw [hkeys]
  exact d.txVariations.keys_nodup

/-- A domain that is not there yet is added with its variations. -/
theorem syncDomain_new {domains : List Domain} {s : Session} {d : Domain}
    (h : Synced networkEnvironment domains s) (hnew : d.domain ∉ domains.map (·.domain))
    (hkeyed : d.Keyed) (hfits : ∀ entry ∈ d.txVariations.entries, entry.2.FitsI64) :
    ∃ s', syncDomain now networkEnvironment s d = .ok s' ∧
      Synced networkEnvironment (domains ++ [d]) s' := by
  obtain ⟨groups, hgrouped, hstored, hids⟩ := h.groups
  obtain ⟨userId, users, huser, haccounts, howner, _⟩ :=
    insertOrReturnUser_spec now (hostOf d.domain) h.accounts
  obtain ⟨appId, apps, happ, haccounts, ⟨app, hmem, happId, happName⟩, hsubset, _⟩ :=
    insertOrReturnApp_spec now (hostOf d.domain)
      (s := ⟨{ s.db with users }, s.generated + 1⟩) haccounts howner
  let beforeDomain : Session := ⟨{ s.db with users, apps }, s.generated + 1 + 1⟩
  let row := newDomainConfig now beforeDomain.generated appId d networkEnvironment
  let beforeVariations : Session :=
    ⟨{ beforeDomain.db with domainConfigs := s.db.domainConfigs ++ [row] },
      beforeDomain.generated + 1⟩
  have hdomainConfig : insertOrUpdateDomainConfig now appId d networkEnvironment beforeDomain =
      .ok (row.id, beforeVariations) := by
    apply insertOrUpdateDomainConfig_new now ⟨app, hmem, happId⟩
    intro existing hexisting hkey
    obtain ⟨g, hg, rfl⟩ := List.mem_map.1 (hgrouped.domainConfigs ▸ hexisting)
    obtain ⟨d', hd', hstored'⟩ := Table.exists_left hstored hg
    have hname : d'.domain = d.domain := hstored'.domain.symm.trans (Prod.mk.inj hkey).1
    exact hnew (hname ▸ List.mem_map_of_mem hd')
  have hfresh (g : DomainGroup) (hg : g ∈ groups) : g.row.id ≠ row.id :=
    Nat.ne_of_lt (Nat.lt_succ_of_lt (Nat.lt_succ_of_lt (hids g hg)))
  have hvariation (existing : VariationRow) (hexisting : existing ∈ s.db.variations) :
      existing.domainConfigId ≠ row.id := by
    rw [hgrouped.variations] at hexisting
    obtain ⟨g, hg, hexisting⟩ := List.mem_flatMap.1 hexisting
    rw [hgrouped.domainConfigId g hg existing hexisting]
    exact hfresh g hg
  obtain ⟨rows, generated, hvariations, hle, hrows⟩ :=
    syncVariations_new now d.txVariations.entries beforeVariations
      ⟨row, List.mem_append_right _ (List.mem_singleton_self row), rfl⟩ hfits hkeyed.nodup
      fun existing hexisting hid => absurd hid (hvariation existing hexisting)
  refine ⟨_, bind_eq_ok.2 ⟨_, huser, bind_eq_ok.2 ⟨_, happ,
    bind_eq_ok.2 ⟨_, hdomainConfig, hvariations⟩⟩⟩, ?_⟩
  have hgenerated : s.generated ≤ generated := by
    have hle : s.generated + 1 + 1 + 1 ≤ generated := hle
    omega
  refine ⟨⟨haccounts.usernames, haccounts.wallets, haccounts.owners⟩, ?_,
    groups ++ [⟨row, rows⟩], ⟨?_, ?_, ?_, ?_, ?_⟩, ?_, ?_⟩
  · intro d' hd'
    rcases List.mem_append.1 hd' with hd' | hd'
    · obtain ⟨app', happ', hname⟩ := h.hosts d' hd'
      exact ⟨app', hsubset happ', hname⟩
    · rw [List.mem_singleton.1 hd']
      exact ⟨app, hmem, happName⟩
  · rw [List.map_append, ← hgrouped.domainConfigs]
    rfl
  · rw [List.flatMap_append, ← hgrouped.variations, List.flatMap_singleton]
  · exact Table.nodup_append hgrouped.ids hfresh
  · intro g hg
    rcases List.mem_append.1 hg with hg | hg
    · exact hgrouped.networkEnvironment g hg
    · rw [List.mem_singleton.1 hg]
      rfl
  · intro g hg existing hexisting
    rcases List.mem_append.1 hg with hg | hg
    · exact hgrouped.domainConfigId g hg existing hexisting
    · rw [List.mem_singleton.1 hg] at hexisting ⊢
      obtain ⟨_, _, hid, _⟩ := Table.exists_left hrows hexisting
      exact hid
  · exact List.rel_append hstored (.cons ⟨rfl, rfl, rfl, rfl, hrows⟩ .nil)
  · intro g hg
    rcases List.mem_append.1 hg with hg | hg
    · exact (hids g hg).trans_le hgenerated
    · rw [List.mem_singleton.1 hg]
      exact hle

/-- All domains of a configuration are added. -/
theorem syncFromConfig_new :
    ∀ {added domains : List Domain} {s : Session}, Synced networkEnvironment added s →
      ((added ++ domains).map (·.domain)).Nodup → (∀ d ∈ domains, d.Keyed) →
      (∀ d ∈ domains, ∀ entry ∈ d.txVariations.entries, entry.2.FitsI64) →
        ∃ s', domains.foldlM (syncDomain now networkEnvironment) s = .ok s' ∧
          Synced networkEnvironment (added ++ domains) s'
  | added, [], s, h, _, _, _ => ⟨s, rfl, by rwa [List.append_nil]⟩
  | added, d :: domains, s, h, hnodup, hkeyed, hfits => by
    have hnew : d.domain ∉ added.map (·.domain) := by
      rw [List.map_append, List.map_cons] at hnodup
      intro hmem
      exact (List.nodup_append'.1 hnodup).2.2 hmem List.mem_cons_self
    obtain ⟨s₁, hfirst, hsynced⟩ := syncDomain_new now h hnew (hkeyed d List.mem_cons_self)
      (hfits d List.mem_cons_self)
    rw [List.append_cons] at hnodup ⊢
    obtain ⟨s', hrest, hsynced⟩ := syncFromConfig_new hsynced hnodup
      (fun d' hd' => hkeyed d' (List.mem_cons_of_mem d hd'))
      (fun d' hd' => hfits d' (List.mem_cons_of_mem d hd'))
    exact ⟨s', by rw [List.foldlM_cons, hfirst]; exact hrest, hsynced⟩

/-! ## The second sync -/

omit [UrlParser] in
theorem Grouped.nodup_domainConfigs {groups : List DomainGroup} {db : Database} {domains : List Domain}
    (h : Grouped networkEnvironment groups db)
    (hstored : List.Forall₂ (Stored networkEnvironment) domains groups)
    (hnames : (domains.map (·.domain)).Nodup) :
    (db.domainConfigs.map DomainConfigRow.key).Nodup := by
  have hkeys : db.domainConfigs.map DomainConfigRow.key =
      (domains.map (·.domain)).map fun name => (name, networkEnvironment) := by
    rw [h.domainConfigs, List.map_map, List.map_map]
    clear h hnames
    induction hstored with
    | nil => rfl
    | @cons d g _ _ hdg _ ih =>
      rw [List.map_cons, List.map_cons, ih]
      have hkey : g.row.key = (d.domain, networkEnvironment) := by
        rw [DomainConfigRow.key, hdg.domain, hdg.networkEnvironment]
      exact congrArg (· :: _) hkey
  rw [hkeys]
  exact hnames.map fun a b hab => (Prod.mk.inj hab).1

omit [UrlParser] in
theorem Stored.nodup_names {d : Domain} {g : DomainGroup} (h : Stored networkEnvironment d g)
    (hkeyed : d.Keyed) : (g.variations.map (·.name)).Nodup := by
  have hnames : g.variations.map (·.name) = d.txVariations.entries.map (·.2.name) := by
    have hrows := h.variations
    generalize g.variations = rows, d.txVariations.entries = entries at hrows
    induction hrows with
    | nil => rfl
    | cons hrow _ ih =>
      rw [List.map_cons, List.map_cons, ih, TransactionVariation.columns_name hrow.2]
  rw [hnames]
  exact hkeyed.nodup

omit [UrlParser] in
theorem Grouped.nodup_variations {groups : List DomainGroup} {db : Database} {domains : List Domain}
    (h : Grouped networkEnvironment groups db)
    (hstored : List.Forall₂ (Stored networkEnvironment) domains groups)
    (hkeyed : ∀ d ∈ domains, d.Keyed) : (db.variations.map VariationRow.key).Nodup := by
  rw [h.variations, List.map_flatMap, List.nodup_flatMap]
  constructor
  · intro g hg
    obtain ⟨d, hd, hdg⟩ := Table.exists_left hstored hg
    have hnames := hdg.nodup_names (hkeyed d hd)
    have hname : g.variations.map (·.name) = (g.variations.map VariationRow.key).map Prod.snd := by
      rw [List.map_map]
      rfl
    exact (hname ▸ hnames).of_map Prod.snd
  · -- the rows of different groups belong to different domains
    refine (List.pairwise_map.1 h.ids).imp_of_mem ?_
    intro g g' hg hg' hne key hkey hkey'
    obtain ⟨row, hrow, rfl⟩ := List.mem_map.1 hkey
    obtain ⟨row', hrow', hsame⟩ := List.mem_map.1 hkey'
    apply hne
    rw [← h.domainConfigId g hg row hrow, ← h.domainConfigId g' hg' row' hrow']
    exact (Prod.mk.inj hsame).1.symm

/-- A domain that is there already is left as it is. -/
theorem syncDomain_same {domains : List Domain} {s : Session} (h : Synced networkEnvironment domains s)
    (hnames : (domains.map (·.domain)).Nodup) (hkeyed : ∀ d ∈ domains, d.Keyed) {d d' : Domain}
    (hd : d ∈ domains) (hsame : d.Same d') (generated : Nat) :
    ∃ generated', syncDomain now networkEnvironment ⟨s.db, generated⟩ d' =
      .ok ⟨s.db, generated'⟩ := by
  obtain ⟨groups, hgrouped, hstored, _⟩ := h.groups
  obtain ⟨app, happ, hname⟩ := h.hosts d hd
  rw [hsame.domain] at hname
  obtain ⟨owner, howner, _, hownerName⟩ := h.accounts.owners app happ
  rw [hname] at hownerName
  obtain ⟨userId, users, huser, _, hown, hkept⟩ :=
    insertOrReturnUser_spec now (hostOf d'.domain) (s := ⟨s.db, generated⟩) h.accounts
  cases hkept ⟨owner, howner, hownerName⟩
  obtain ⟨appId, apps, happ', _, _, _, hkept⟩ :=
    insertOrReturnApp_spec now (hostOf d'.domain) (s := ⟨s.db, generated + 1⟩) h.accounts hown
  cases hkept ⟨app, happ, hname⟩
  obtain ⟨g, hg, hdg⟩ := Table.exists_right hstored hd
  have hrow : g.row ∈ s.db.domainConfigs := hgrouped.domainConfigs ▸ List.mem_map_of_mem hg
  have hkey : g.row.key = (d'.domain, networkEnvironment) := by
    rw [DomainConfigRow.key, hdg.domain, hdg.networkEnvironment, hsame.domain]
  have hdomainConfig := insertOrUpdateDomainConfig_same (s := ⟨s.db, generated + 1 + 1⟩) now
    appId (hgrouped.nodup_domainConfigs hstored hnames) hrow hkey
    (hdg.enableSessionManagement.trans hsame.enableSessionManagement)
    (hdg.enablePreflightSimulation.trans hsame.enablePreflightSimulation)
  obtain ⟨generated', hvariations⟩ := syncVariations_same now g.row.id
    (hgrouped.nodup_variations hstored hkeyed) d'.txVariations.entries (generated + 1 + 1 + 1) (by
      intro entry hentry
      have hentry' : entry ∈ d.txVariations.entries := by
        rw [← AList.mem_lookup_iff, hsame.txVariations, AList.mem_lookup_iff]
        exact hentry
      obtain ⟨row, hrow, hholds⟩ := Table.exists_right hdg.variations hentry'
      exact ⟨row, hgrouped.variations ▸ List.mem_flatMap_of_mem hg hrow, hholds⟩)
  refine ⟨generated', ?_⟩
  exact bind_eq_ok.2 ⟨_, huser, bind_eq_ok.2 ⟨_, happ', bind_eq_ok.2 ⟨_, hdomainConfig, hvariations⟩⟩⟩

theorem syncFromConfig_same {domains : List Domain} {s : Session}
    (h : Synced networkEnvironment domains s) (hnames : (domains.map (·.domain)).Nodup)
    (hkeyed : ∀ d ∈ domains, d.Keyed) :
    ∀ {ds ds' : List Domain}, ds ⊆ domains → List.Forall₂ Domain.Same ds ds' → ∀ generated : Nat,
      ∃ generated', ds'.foldlM (syncDomain now networkEnvironment) ⟨s.db, generated⟩ =
        .ok ⟨s.db, generated'⟩
  | _, _, _, .nil, generated => ⟨generated, rfl⟩
  | _, _, hsubset, .cons hsame hrest, generated => by
    obtain ⟨hd, hsubset⟩ := List.cons_subset.1 hsubset
    obtain ⟨generated₁, hfirst⟩ := syncDomain_same now h hnames hkeyed hd hsame generated
    obtain ⟨generated', hrest⟩ := syncFromConfig_same h hnames hkeyed hsubset hrest generated₁
    exact ⟨generated', by rw [List.foldlM_cons, hfirst]; exact hrest⟩

/-! ## The round trip -/

/-- Syncing into an empty database and loading, with the rows in any order, gives the domains back
    in some order; syncing the same domains again changes nothing in the tables. -/
theorem syncFromConfig_roundTrip (config : Config) (generated : Nat)
    (hnames : (config.domains.map (·.domain)).Nodup) (hkeyed : ∀ d ∈ config.domains, d.Keyed)
    (hfits : ∀ d ∈ config.domains, ∀ entry ∈ d.txVariations.entries, entry.2.FitsI64)
    (hrates : ∀ d ∈ config.domains, ∀ entry ∈ d.txVariations.entries, entry.2.RatesInRange) :
    ∃ s, syncFromConfig now config networkEnvironment ⟨Database.empty, generated⟩ = .ok s ∧
      (∀ domainRows variationRows, domainRows.Perm (s.db.selectDomainConfigs networkEnvironment) →
        variationRows.Perm (s.db.selectVariations networkEnvironment) →
          ∃ loaded, loaded.Perm (loadConfig domainRows variationRows).domains ∧
            List.Forall₂ Domain.Same config.domains loaded) ∧
      ∀ (now' : Nat → Timestamp) (config' : Config) (generated' : Nat),
        List.Forall₂ Domain.Same config.domains config'.domains →
          ∃ generated'', syncFromConfig now' config' networkEnvironment ⟨s.db, generated'⟩ =
            .ok ⟨s.db, generated''⟩ := by
  obtain ⟨s, hsync, hsynced⟩ :=
    syncFromConfig_new now (synced_empty generated) hnames hkeyed hfits
  obtain ⟨groups, hgrouped, hstored, _⟩ := hsynced.groups
  refine ⟨s, hsync, ?_, ?_⟩
  · intro domainRows variationRows hdomainRows hvariationRows
    exact loadConfig_same hgrouped hstored hkeyed hrates hdomainRows hvariationRows
  · intro now' config' generated' hsame
    exact syncFromConfig_same now' hsynced hnames hkeyed (List.Subset.refl _) hsame generated'

end

/-! ### A configuration with a variation of each version -/

namespace Sample

@[reducible] def hosts : UrlParser where
  hostStr domain := if domain = "https://test.brasa.finance" then some "test.brasa.finance" else none

def transfer : InstructionConstraint where
  program := ⟨Ids.tokenProgram, tokenProgram_substantive⟩
  accounts := [
    { index := 0, includes := [.nonFeePayerSigner], excludes := [.explicit Ids.systemProgram] },
    { index := 1, includes := [.domainRegistry, .sponsor], excludes := [] }]
  data := [
    ⟨0, .equalTo [.u8 12]⟩, ⟨1, .lessThan (.u64 18446744073709551615)⟩, ⟨9, .greaterThan (.u16 3)⟩,
    ⟨11, .neq [.bytes "0xab", .bytes "CD"]⟩, ⟨12, .equalTo [.pubkey Ids.tokenProgram]⟩,
    ⟨44, .equalTo [.nttSignedQuoter (.ofNat 0xabcd)]⟩, ⟨209, .neq [.bool true]⟩]
  required := true
  requiresWrappedNativeTokens := true

def programs : TransactionVariation := .v0 ⟨"Programs", [Ids.systemProgram, Ids.tokenProgram]⟩

def transfers : TransactionVariation := .v1 {
  name := "Transfers"
  instructions := [transfer]
  maxGasSpend := 15000
  paymasterFeeLamports := some 9223372036854775807
  swapIntoFogo := [⟨Ids.systemProgram, MintSwapRate.oneBits⟩] }

def brasa : Domain where
  domain := "https://test.brasa.finance"
  enableSessionManagement := true
  enablePreflightSimulation := false
  numberOfSigners := 2
  numberOfSigners_pos := by decide
  txVariations := ⟨[⟨"Programs", programs⟩, ⟨"Transfers", transfers⟩], by simp [List.NodupKeys]⟩

def onLocalhost : Domain where
  domain := "localhost"
  enableSessionManagement := false
  enablePreflightSimulation := true
  numberOfSigners := 1
  numberOfSigners_pos := defaultOne_pos
  txVariations := ∅

def config : Config := ⟨[brasa, onLocalhost]⟩

theorem forall_entries {P : TransactionVariation → Prop} (h₀ : P programs) (h₁ : P transfers) :
    ∀ d ∈ config.domains, ∀ entry ∈ d.txVariations.entries, P entry.2 := by
  intro d hd entry hentry
  simp only [config, List.mem_cons, List.not_mem_nil, or_false] at hd
  rcases hd with rfl | rfl
  · simp only [brasa, List.mem_cons, List.not_mem_nil, or_false] at hentry
    rcases hentry with rfl | rfl
    · exact h₀
    · exact h₁
  · cases hentry

theorem keyed : ∀ d ∈ config.domains, d.Keyed := by
  intro d hd
  simp only [config, List.mem_cons, List.not_mem_nil, or_false] at hd
  rcases hd with rfl | rfl
  · intro entry hentry
    simp only [brasa, List.mem_cons, List.not_mem_nil, or_false] at hentry
    rcases hentry with rfl | rfl <;> rfl
  · exact List.forall_mem_nil _

end Sample

theorem syncFromConfig_roundTrip_sample :
    ∃ s, @syncFromConfig (fun n => n) Sample.hosts Sample.config .mainnet ⟨Database.empty, 0⟩ = .ok s ∧
      (∀ domainRows variationRows, domainRows.Perm (s.db.selectDomainConfigs .mainnet) →
        variationRows.Perm (s.db.selectVariations .mainnet) →
          ∃ loaded, loaded.Perm (loadConfig domainRows variationRows).domains ∧
            List.Forall₂ Domain.Same Sample.config.domains loaded) ∧
      ∀ (now' : Nat → Timestamp) (config' : Config) (generated' : Nat),
        List.Forall₂ Domain.Same Sample.config.domains config'.domains →
          ∃ generated'', @syncFromConfig now' Sample.hosts config' .mainnet ⟨s.db, generated'⟩ =
            .ok ⟨s.db, generated''⟩ := by
  apply @syncFromConfig_roundTrip Sample.hosts
  · simp [Sample.config, Sample.brasa, Sample.onLocalhost]
  · exact Sample.keyed
  · refine Sample.forall_entries ⟨⟩ ⟨by decide, ?_⟩
    intro fee hfee
    cases hfee
    decide
  · refine Sample.forall_entries ⟨⟩ ?_
    intro rate hrate
    rw [List.mem_singleton.1 hrate]
    decide

end FogoSessions.Paymaster
