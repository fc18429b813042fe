import FogoSessions.Lib.Decimal
import FogoSessions.Lib.RoundRobin
import FogoSessions.Paymaster.Tenants

/-!
# Giving out the sponsors

`api.rs`: an app asks the paymaster which sponsor to name as the fee payer. The next sponsor of a domain
is counted in an atomic integer that lives in the domain's state; the config refresher replaces the
states, with counters that start anew, while requests that loaded the former states go on with them.
-/

namespace FogoSessions.Paymaster

open Lib Solana

inductive IndexSelector where
  | autoassign
  | index (i : UInt8)
deriving DecidableEq

/-- `IndexSelector::try_from`. -/
def IndexSelector.tryFrom (value : String) : Except String IndexSelector :=
  if value = "autoassign" then .ok .autoassign
  else do
    let i ← okOr (parseUnsigned 8 (utf8 value))
      s!"Invalid index value: {value}. Use a number between 0 and 255 or 'autoassign'"
    return .index (UInt8.ofNat i)

/-- The numeral of an index is read as that index. -/
theorem IndexSelector.tryFrom_repr (i : UInt8) :
    IndexSelector.tryFrom i.toNat.repr = .ok (.index i) := by
  have hread : parseUnsigned 8 (utf8 i.toNat.repr) = some i.toNat := parseUnsigned_repr i.toNat_lt
  have hne : i.toNat.repr ≠ "autoassign" := by
    intro heq
    have hnone : parseUnsigned 8 (utf8 "autoassign") = none := by decide
    rw [heq, hnone] at hread
    cases hread
  rw [tryFrom, if_neg hne, hread, okOr_some, ok_bind, UInt8.ofNat_toNat]
  rfl

structure SponsorPubkeyQuery where
  domain : Option String
  index : Option IndexSelector
deriving DecidableEq

/-- The query from its texts. -/
def SponsorPubkeyQuery.deserialize (domain index : Option String) :
    Except String SponsorPubkeyQuery := do
  return { domain, index := ← index.mapM IndexSelector.tryFrom }

namespace DomainState

/-- `fetch_add(1)` on the counter, an `AtomicUsize`. -/
def fetchAdd (self : DomainState) : DomainState :=
  { self with
    nextAutoassignedSponsorIndex := (self.nextAutoassignedSponsorIndex + 1) % 2 ^ 64 }

/-- The index that the query selects, and the state it leaves. -/
def selectSponsor (self : DomainState) (domain : String) :
    Option IndexSelector → Except ErrorReply (Nat × DomainState)
  | some .autoassign =>
    .ok (self.nextAutoassignedSponsorIndex % self.sponsors.length, self.fetchAdd)
  | some (.index i) =>
    let index := i.toNat
    if self.sponsors.length ≤ index then
      .error (badRequest (s!"Sponsor index {index} is out of bounds for domain {domain} with "
        ++ s!"{self.sponsors.length} sponsors"))
    else .ok (index, self)
  | none => .ok (0, self)

end DomainState

/-- The key that is replied, and the states with the counter it leaves. -/
def sponsorPubkeyHandler (domains : NameMap DomainState) (origin : Option String)
    (query : SponsorPubkeyQuery) : Outcome ErrorReply (String × NameMap DomainState) := do
  let domain ← mapErr .err (getDomainName query.domain origin)
  let domainState ← mapErr .err (getDomainState domains domain)
  let (sponsorIndex, domainState') ← mapErr .err (domainState.selectSponsor domain query.index)
  let sponsor ← Lib.index domainState.sponsors sponsorIndex
  return (sponsor.toString, domains.insert domain domainState')

/-! ## The paymaster over time -/

/-- A key that was replied. -/
structure SponsorReply where
  generation : Nat
  origin : Option String
  query : SponsorPubkeyQuery
  sponsor : String

/-- The domain the reply is for. -/
def SponsorReply.domain? (r : SponsorReply) : Option String := r.query.domain.or r.origin

/-- All states that were ever stored, oldest first, each with its counters as they are now; the newest
    are the ones that a new request loads. -/
structure SponsorPool where
  generations : List (NameMap DomainState)
  replies : List SponsorReply

inductive SponsorInput where
  /-- the refresher loads the configuration from the database -/
  | refresh (loaded : Except String (List Domain))
  /-- a request that loaded the states of this generation is answered -/
  | request (generation : Nat) (origin domain index : Option String)

namespace SponsorPool

/-- The keys that were assigned for a domain out of one generation, oldest first. -/
def autoassigned (s : SponsorPool) (generation : Nat) (domain : String) : List String :=
  (s.replies.filter fun r => r.generation = generation ∧ r.domain? = some domain ∧
    r.query.index = some .autoassign).map (·.sponsor)

/-- A request is answered out of the states it loaded. -/
def answer (s : SponsorPool) (generation : Nat) (origin domain index : Option String) :
    Option SponsorPool := do
  let domains ← s.generations[generation]?
  let query ← (SponsorPubkeyQuery.deserialize domain index).toOption
  let (sponsor, domains') ← (sponsorPubkeyHandler domains origin query).toOption
  return { generations := s.generations.set generation domains'
           replies := s.replies ++ [{ generation, origin, query, sponsor }] }

variable [External]

/-- The paymaster starts with the states of the configuration, or not at all. -/
def start (domains : List Domain) (mnemonic : String) : Except String SponsorPool := do
  return { generations := [← getDomainStateMap domains mnemonic], replies := [] }

def step (mnemonic : String) (s : SponsorPool) : SponsorInput → SponsorPool
  | .refresh loaded =>
    match loaded >>= (getDomainStateMap · mnemonic) with
    | .ok newDomains => { s with generations := s.generations ++ [newDomains] }
    | .error _ => s
  | .request generation origin domain index => (s.answer generation origin domain index).getD s

def run (mnemonic : String) (s : SponsorPool) (inputs : List SponsorInput) : SponsorPool :=
  inputs.foldl (step mnemonic) s

end SponsorPool

/-! ## One request -/

/-- A selected index is one of a sponsor; only an assignment counts. -/
theorem DomainState.selectSponsor_eq_ok {ds ds' : DomainState} {domain : String}
    {selector : Option IndexSelector} {index : Nat}
    (h : ds.selectSponsor domain selector = .ok (index, ds')) :
    index < ds.sponsors.length ∧
      (selector = some .autoassign ∧ ds' = ds.fetchAdd ∧
          index = ds.nextAutoassignedSponsorIndex % ds.sponsors.length ∨
        selector ≠ some .autoassign ∧ ds' = ds) := by
  have hpos : 0 < ds.sponsors.length := List.length_pos_iff.2 ds.sponsors_nonempty
  unfold selectSponsor at h
  split at h
  · cases h
    exact ⟨Nat.mod_lt _ hpos, .inl ⟨rfl, rfl, rfl⟩⟩
  · dsimp only at h
    split at h
    · cases h
    next hindex =>
      cases h
      exact ⟨Nat.lt_of_not_le hindex, .inr ⟨by simp, rfl⟩⟩
  · cases h
    exact ⟨hpos, .inr ⟨by simp, rfl⟩⟩

theorem DomainState.selectSponsor_sponsors {ds ds' : DomainState} {domain : String}
    {selector : Option IndexSelector} {index : Nat}
    (h : ds.selectSponsor domain selector = .ok (index, ds')) : ds'.sponsors = ds.sponsors := by
  obtain ⟨-, ⟨-, rfl, -⟩ | ⟨-, rfl⟩⟩ := selectSponsor_eq_ok h <;> rfl

theorem getDomainName_eq_ok {explicit origin : Option String} {domain : String} :
    getDomainName explicit origin = .ok domain ↔ explicit.or origin = some domain := okOr_eq_ok

theorem getDomainState_eq_ok {domains : NameMap DomainState} {domain : String} {ds : DomainState} :
    getDomainState domains domain = .ok ds ↔ domains.lookup domain = some ds := okOr_eq_ok

/-- What a request that got a key found and left. -/
structure Answered (domains domains' : NameMap DomainState) (origin : Option String)
    (query : SponsorPubkeyQuery) (sponsor : String) : Prop where
  intro ::
  exists_domain : ∃ domain ds ds' index key, query.domain.or origin = some domain ∧
    domains.lookup domain = some ds ∧ ds.selectSponsor domain query.index = .ok (index, ds') ∧
    ds.sponsors[index]? = some key ∧ key.toString = sponsor ∧
    domains' = domains.insert domain ds'

theorem sponsorPubkeyHandler_eq_ok {domains domains' : NameMap DomainState}
    {origin : Option String} {query : SponsorPubkeyQuery} {sponsor : String}
    (h : sponsorPubkeyHandler domains origin query = .ok (sponsor, domains')) :
    Answered domains domains' origin query sponsor := by
  simp only [sponsorPubkeyHandler, bind_eq_ok, mapErr_eq_ok, getDomainName_eq_ok,
    getDomainState_eq_ok, index_eq_ok, pure_eq_ok, Prod.exists, Prod.mk.injEq] at h
  obtain ⟨domain, hdomain, ds, hds, index, ds', hselect, key, hkey, hsponsor, rfl⟩ := h
  exact ⟨domain, ds, ds', index, key, hdomain, hds, hselect, hkey, hsponsor, rfl⟩

/-- The handler indexes no sponsor that is not there. -/
theorem noPanic_sponsorPubkeyHandler (domains : NameMap DomainState) (origin : Option String)
    (query : SponsorPubkeyQuery) : NoPanic (sponsorPubkeyHandler domains origin query) := by
  refine noPanic_mapErr.bind fun domain _ => noPanic_mapErr.bind fun ds _ =>
    noPanic_mapErr.bind fun selected hselect => ?_
  have hindex := (DomainState.selectSponsor_eq_ok (mapErr_eq_ok.1 hselect)).1
  refine NoPanic.bind ?_ fun sponsor _ => noPanic_pure
  rw [Lib.index, List.getElem?_eq_getElem hindex]
  exact noPanic_ok

/-! ## What is kept -/

section Runs

variable [External]

/-- The sponsors that are derived from the mnemonic for a domain with so many signers. -/
def derivedSponsors (mnemonic domain : String) (numberOfSigners : Nat) : List Pubkey :=
  (List.range numberOfSigners).map fun i => External.sponsorPubkey mnemonic domain (UInt8.ofNat i)

/-- The keys that were assigned out of a domain's state are its sponsors in turn, as its counter says. -/
structure Assigned (mnemonic domain : String) (ds : DomainState) (keys : List String) : Prop where
  derived : ds.sponsors = derivedSponsors mnemonic domain ds.sponsors.length
  counter : ds.nextAutoassignedSponsorIndex = keys.length % 2 ^ 64
  inTurn : keys = (List.range keys.length).map fun i =>
    (inTurn ds.sponsors ds.sponsors_nonempty (i % 2 ^ 64)).toString

theorem getDomainState?_assigned {mnemonic domain : String} {d : Domain} {ds : DomainState}
    (h : getDomainState? mnemonic d = .ok (domain, ds)) : Assigned mnemonic domain ds [] := by
  simp only [getDomainState?, bind_eq_ok, pure_eq_ok, Prod.mk.injEq] at h
  obtain ⟨_, -, rfl, rfl⟩ := h
  refine ⟨?_, rfl, rfl⟩
  simp only [derivedSponsors, List.length_map, List.length_range]

omit [External] in
theorem mem_of_lookup_foldl_insert {name : String} {ds : DomainState} :
    ∀ {states : List (String × DomainState)} {m : NameMap DomainState},
      (states.foldl (fun map state => map.insert state.1 state.2) m).lookup name = some ds →
        (name, ds) ∈ states ∨ m.lookup name = some ds
  | [], _, h => .inr h
  | state :: states, m, h => by
    rw [List.foldl_cons] at h
    rcases mem_of_lookup_foldl_insert h with hmem | hlookup
    · exact .inl (List.mem_cons_of_mem _ hmem)
    · by_cases hname : name = state.1
      · subst hname
        rw [AList.lookup_insert] at hlookup
        obtain rfl := Option.some.inj hlookup
        exact .inl List.mem_cons_self
      · rw [AList.lookup_insert_ne hname] at hlookup
        exact .inr hlookup

/-- The state of a domain comes from a configured domain. -/
theorem assigned_getDomainStateMap {domains : List Domain} {mnemonic : String}
    {states : NameMap DomainState} (h : getDomainStateMap domains mnemonic = .ok states)
    {domain : String} {ds : DomainState} (hds : states.lookup domain = some ds) :
    Assigned mnemonic domain ds [] := by
  simp only [getDomainStateMap, bind_eq_ok, pure_eq_ok] at h
  obtain ⟨list, hlist, rfl⟩ := h
  rcases mem_of_lookup_foldl_insert hds with hmem | hempty
  · obtain ⟨d, -, hd⟩ := exists_of_mem_mapM hlist _ hmem
    exact getDomainState?_assigned hd
  · cases hempty

theorem Assigned.fetchAdd {mnemonic domain : String} {ds : DomainState} {keys : List String}
    (h : Assigned mnemonic domain ds keys) {key : Pubkey}
    (hkey : ds.sponsors[ds.nextAutoassignedSponsorIndex % ds.sponsors.length]? = some key) :
    Assigned mnemonic domain ds.fetchAdd (keys ++ [key.toString]) := by
  have hturn : Lib.inTurn ds.sponsors ds.sponsors_nonempty (keys.length % 2 ^ 64) = key := by
    rw [← h.counter]
    exact (List.getElem?_eq_some_iff.1 hkey).2
  refine ⟨h.derived, ?_, ?_⟩
  · change (ds.nextAutoassignedSponsorIndex + 1) % 2 ^ 64 = _
    rw [List.length_append, List.length_singleton, h.counter, Nat.mod_add_mod]
  · rw [List.length_append, List.length_singleton, List.range_succ, List.map_append, ← hturn]
    exact congrArg (· ++ _) h.inTurn

/-- A selected key is assigned when it was asked to be. -/
theorem Assigned.select {mnemonic domain name : String} {ds ds' : DomainState} {keys : List String}
    (h : Assigned mnemonic domain ds keys) {selector : Option IndexSelector} {index : Nat}
    {key : Pubkey} (hselect : ds.selectSponsor name selector = .ok (index, ds'))
    (hkey : ds.sponsors[index]? = some key) :
    Assigned mnemonic domain ds'
      (keys ++ if selector = some .autoassign then [key.toString] else []) := by
  obtain ⟨-, ⟨hselector, rfl, rfl⟩ | ⟨hselector, rfl⟩⟩ := DomainState.selectSponsor_eq_ok hselect
  · rw [if_pos hselector]
    exact h.fetchAdd hkey
  · rw [if_neg hselector, List.append_nil]
    exact h

omit [External] in
theorem find?_eq_self {key : Pubkey} : ∀ {keys : List Pubkey}, key ∈ keys →
    keys.find? (· = key) = some key
  | k :: keys, h => by
    by_cases hk : k = key
    · rw [List.find?_cons_of_pos (by simp [hk]), hk]
    · rw [List.find?_cons_of_neg (by simp [hk])]
      exact find?_eq_self ((List.mem_cons.1 h).resolve_left (Ne.symm hk))

theorem Assigned.getElem?_sponsors {mnemonic domain : String} {ds : DomainState} {keys : List String}
    (h : Assigned mnemonic domain ds keys) {index : Nat} (hindex : index < ds.sponsors.length) :
    ds.sponsors[index]? = some (External.sponsorPubkey mnemonic domain (UInt8.ofNat index)) := by
  rw [h.derived, derivedSponsors, List.getElem?_map, List.getElem?_range hindex]
  rfl

theorem Assigned.find?_sponsor {mnemonic domain : String} {ds : DomainState} {keys : List String}
    (h : Assigned mnemonic domain ds keys) {index : Nat} (hindex : index < ds.sponsors.length) :
    ds.sponsors.find? (· = External.sponsorPubkey mnemonic domain (UInt8.ofNat index)) =
      some (External.sponsorPubkey mnemonic domain (UInt8.ofNat index)) :=
  find?_eq_self (List.mem_of_getElem? (h.getElem?_sponsors hindex))

/-- No sponsor is assigned more than once more than another, until the counter wraps. -/
theorem Assigned.balanced {mnemonic domain : String} {ds : DomainState} {keys : List String}
    (h : Assigned mnemonic domain ds keys) (hnodup : ds.sponsors.Nodup)
    (hlength : keys.length ≤ 2 ^ 64) {a b : Pubkey} (ha : a ∈ ds.sponsors) (hb : b ∈ ds.sponsors) :
    keys.count a.toString ≤ keys.count b.toString + 1 := by
  have hkeys : keys = ((List.range keys.length).map
      (Lib.inTurn ds.sponsors ds.sponsors_nonempty)).map Pubkey.toString := by
    rw [List.map_map]
    refine h.inTurn.trans (List.map_congr_left fun i hi => ?_)
    have hi' : i % 2 ^ 64 = i := Nat.mod_eq_of_lt (by have := List.mem_range.1 hi; omega)
    rw [hi', Function.comp_apply]
  have hinjective : Function.Injective Pubkey.toString := fun _ _ => Pubkey.toString_injective
  rw [hkeys, List.count_map_of_injective _ _ hinjective, List.count_map_of_injective _ _ hinjective]
  exact count_inTurn_le ds.sponsors_nonempty hnodup _ ha hb

/-- A replied key was a sponsor of the domain in the states it was taken from. -/
structure SponsorReply.FromStates (mnemonic : String) (generations : List (NameMap DomainState))
    (r : SponsorReply) : Prop where
  intro ::
  exists_index : ∃ domains domain ds index, generations[r.generation]? = some domains ∧
    r.domain? = some domain ∧ domains.lookup domain = some ds ∧ index < ds.sponsors.length ∧
    (External.sponsorPubkey mnemonic domain (UInt8.ofNat index)).toString = r.sponsor

/-- Every state is still there, with its sponsors. -/
def KeepsSponsors (generations generations' : List (NameMap DomainState)) : Prop :=
  ∀ (generation : Nat) (states : NameMap DomainState), generations[generation]? = some states →
    ∀ domain ds, states.lookup domain = some ds →
      ∃ (states' : NameMap DomainState) (ds' : DomainState),
        generations'[generation]? = some states' ∧ states'.lookup domain = some ds' ∧
          ds'.sponsors = ds.sponsors

theorem SponsorReply.FromStates.keep {mnemonic : String}
    {generations generations' : List (NameMap DomainState)} {r : SponsorReply}
    (h : r.FromStates mnemonic generations) (hkeep : KeepsSponsors generations generations') :
    r.FromStates mnemonic generations' := by
  obtain ⟨states, domain, ds, index, hstates, hdomain, hds, hindex, hkey⟩ := h
  obtain ⟨states', ds', hstates', hds', hsponsors⟩ := hkeep r.generation states hstates domain ds hds
  exact ⟨states', domain, ds', index, hstates', hdomain, hds', hsponsors ▸ hindex, hkey⟩

omit [External] in
theorem keepsSponsors_append (generations : List (NameMap DomainState))
    (states : NameMap DomainState) : KeepsSponsors generations (generations ++ [states]) := by
  intro generation found hfound domain ds hds
  have hlt := (List.getElem?_eq_some_iff.1 hfound).1
  exact ⟨found, ds, (List.getElem?_append_left hlt).trans hfound, hds, rfl⟩

omit [External] in
theorem keepsSponsors_set {generations : List (NameMap DomainState)} {generation : Nat}
    {states : NameMap DomainState} (hstates : generations[generation]? = some states)
    {name : String} {ds ds' : DomainState} (hds : states.lookup name = some ds)
    (hsponsors : ds'.sponsors = ds.sponsors) :
    KeepsSponsors generations (generations.set generation (states.insert name ds')) := by
  intro generation' found hfound domain dsFound hdsFound
  by_cases hgen : generation = generation'
  · subst hgen
    obtain rfl := Option.some.inj (hstates.symm.trans hfound)
    have hset := List.getElem?_set_self (a := states.insert name ds')
      (List.getElem?_eq_some_iff.1 hstates).1
    by_cases hname : domain = name
    · subst hname
      obtain rfl := Option.some.inj (hds.symm.trans hdsFound)
      exact ⟨_, ds', hset, AList.lookup_insert _, hsponsors⟩
    · exact ⟨_, dsFound, hset, (AList.lookup_insert_ne hname).trans hdsFound, rfl⟩
  · exact ⟨found, dsFound, (List.getElem?_set_ne hgen).trans hfound, hdsFound, rfl⟩

namespace SponsorPool

/-- What every reachable pool keeps. -/
structure Consistent (mnemonic : String) (s : SponsorPool) : Prop where
  assigned : ∀ generation domains, s.generations[generation]? = some domains →
    ∀ domain ds, domains.lookup domain = some ds →
      Assigned mnemonic domain ds (s.autoassigned generation domain)
  fromStates : ∀ r ∈ s.replies, r.FromStates mnemonic s.generations

theorem Consistent.generation_lt {mnemonic : String} {s : SponsorPool} (h : s.Consistent mnemonic)
    {r : SponsorReply} (hr : r ∈ s.replies) : r.generation < s.generations.length := by
  obtain ⟨domains, _, _, _, hdomains, -⟩ := h.fromStates r hr
  exact (List.getElem?_eq_some_iff.1 hdomains).1

omit [External] in
/-- Another reply adds to the assigned keys when it is an assignment for the domain. -/
theorem autoassigned_append (s : SponsorPool) (generations : List (NameMap DomainState))
    (r : SponsorReply) (generation : Nat) (domain : String) :
    (mk generations (s.replies ++ [r])).autoassigned generation domain =
      s.autoassigned generation domain ++
        if r.generation = generation ∧ r.domain? = some domain ∧ r.query.index = some .autoassign
        then [r.sponsor] else [] := by
  rw [autoassigned, autoassigned, List.filter_append, List.map_append]
  congr 1
  by_cases hr : r.generation = generation ∧ r.domain? = some domain ∧
      r.query.index = some .autoassign <;> simp [hr]

/-! ### The steps -/

theorem consistent_empty (mnemonic : String) : (mk [] []).Consistent mnemonic :=
  ⟨fun _ _ hfound => by simp at hfound, List.forall_mem_nil _⟩

/-- New states have assigned nothing yet. -/
theorem Consistent.append {mnemonic : String} {s : SponsorPool} (h : s.Consistent mnemonic)
    {domains : List Domain} {states : NameMap DomainState}
    (hstates : getDomainStateMap domains mnemonic = .ok states) :
    { s with generations := s.generations ++ [states] }.Consistent mnemonic := by
  refine ⟨fun generation found hfound domain ds hds => ?_, fun r hr => ?_⟩
  · rcases Nat.lt_or_ge generation s.generations.length with hlt | hge
    · rw [List.getElem?_append_left hlt] at hfound
      exact h.assigned generation found hfound domain ds hds
    · rw [List.getElem?_append_right hge, List.getElem?_singleton] at hfound
      split at hfound
      · obtain rfl := Option.some.inj hfound
        have hnone : s.autoassigned generation domain = [] := by
          rw [autoassigned, List.map_eq_nil_iff, List.filter_eq_nil_iff]
          intro r hr
          have hlt := h.generation_lt hr
          simp only [decide_eq_true_eq]
          omega
        exact hnone ▸ assigned_getDomainStateMap hstates hds
      · cases hfound
  · exact (h.fromStates r hr).keep (keepsSponsors_append _ _)

/-- A reply puts the counter forward when it is an assignment, and leaves the other states alone. -/
theorem Consistent.answer {mnemonic : String} {s s' : SponsorPool} (h : s.Consistent mnemonic)
    {generation : Nat} {origin domain index : Option String}
    (hs : s.answer generation origin domain index = some s') : s'.Consistent mnemonic := by
  simp only [SponsorPool.answer, Option.bind_eq_bind, Option.bind_eq_some_iff,
    Option.pure_def, Option.some.injEq, Prod.exists] at hs
  obtain ⟨states, hstates, query, -, sponsor, states', hhandler, rfl⟩ := hs
  obtain ⟨name, ds, ds', i, key, hname, hds, hselect, hkey, hsponsor, rfl⟩ :=
    sponsorPubkeyHandler_eq_ok (toOption_eq_some.1 hhandler)
  have hi := (DomainState.selectSponsor_eq_ok hselect).1
  have hgeneration : generation < s.generations.length := (List.getElem?_eq_some_iff.1 hstates).1
  have hset : (s.generations.set generation (states.insert name ds'))[generation]? =
      some (states.insert name ds') := List.getElem?_set_self hgeneration
  have hassigned := h.assigned generation states hstates name ds hds
  have hsponsors := DomainState.selectSponsor_sponsors hselect
  refine ⟨fun generation' found hfound domain' dsFound hdsFound => ?_, fun r hr => ?_⟩
  · rw [autoassigned_append]
    by_cases hthis : generation = generation' ∧ name = domain'
    · -- the states the request was answered from, at its domain
      obtain ⟨rfl, rfl⟩ := hthis
      obtain rfl := Option.some.inj (hset.symm.trans hfound)
      rw [AList.lookup_insert] at hdsFound
      obtain rfl := Option.some.inj hdsFound
      have hthis : (generation = generation ∧
          SponsorReply.domain? ⟨generation, origin, query, sponsor⟩ = some name ∧
            query.index = some .autoassign) ↔ query.index = some .autoassign :=
        ⟨fun hr => hr.2.2, fun hindex => ⟨rfl, hname, hindex⟩⟩
      rw [if_congr hthis rfl rfl, ← hsponsor]
      exact hassigned.select hselect hkey
    · have hother : ¬ (generation = generation' ∧
          SponsorReply.domain? ⟨generation, origin, query, sponsor⟩ = some domain' ∧
            query.index = some .autoassign) := fun hr =>
        hthis ⟨hr.1, Option.some.inj (hname.symm.trans hr.2.1)⟩
      rw [if_neg hother, List.append_nil]
      by_cases hgen : generation = generation'
      · subst hgen
        obtain rfl := Option.some.inj (hset.symm.trans hfound)
        have hne : domain' ≠ name := fun heq => hthis ⟨rfl, heq.symm⟩
        rw [AList.lookup_insert_ne hne] at hdsFound
        exact h.assigned generation states hstates domain' dsFound hdsFound
      · rw [List.getElem?_set_ne hgen] at hfound
        exact h.assigned generation' found hfound domain' dsFound hdsFound
  · rcases List.mem_append.1 hr with hr | hr
    · exact (h.fromStates r hr).keep (keepsSponsors_set hstates hds hsponsors)
    · obtain rfl := List.mem_singleton.1 hr
      refine ⟨_, name, ds', i, hset, hname, AList.lookup_insert _, hsponsors ▸ hi, ?_⟩
      rw [hassigned.getElem?_sponsors hi] at hkey
      rw [← hsponsor, ← Option.some.inj hkey]

theorem Consistent.step {mnemonic : String} {s : SponsorPool} (h : s.Consistent mnemonic)
    (input : SponsorInput) : (s.step mnemonic input).Consistent mnemonic := by
  cases input with
  | refresh loaded =>
    unfold SponsorPool.step
    dsimp only
    split
    next states hstates =>
      obtain ⟨domains, -, hstates⟩ := bind_eq_ok.1 hstates
      exact h.append hstates
    · exact h
  | request generation origin domain index =>
    unfold SponsorPool.step
    dsimp only
    cases hs : s.answer generation origin domain index with
    | none => exact h
    | some s' => exact h.answer hs

theorem Consistent.run {mnemonic : String} {s : SponsorPool} (h : s.Consistent mnemonic)
    (inputs : List SponsorInput) : (s.run mnemonic inputs).Consistent mnemonic := by
  induction inputs generalizing s with
  | nil => exact h
  | cons input inputs ih => exact ih (h.step input)

theorem start_consistent {domains : List Domain} {mnemonic : String} {s : SponsorPool}
    (h : start domains mnemonic = .ok s) : s.Consistent mnemonic := by
  simp only [start, bind_eq_ok, pure_eq_ok] at h
  obtain ⟨states, hstates, rfl⟩ := h
  exact (consistent_empty mnemonic).append hstates

/-! ## Every run -/

/-- **The sponsors are assigned in turn.** In every run, with refreshes and requests in any order, the
    keys that were assigned for a domain out of one generation of its state are its sponsors over and
    over, in their order, up to the wrap of the counter; so, until then, no sponsor has been assigned
    more than once more than another. -/
theorem autoassigned_in_turn {domains : List Domain} {mnemonic : String} {s : SponsorPool}
    (hstart : start domains mnemonic = .ok s) (inputs : List SponsorInput) {generation : Nat}
    {states : NameMap DomainState} {domain : String} {ds : DomainState}
    (hstates : (s.run mnemonic inputs).generations[generation]? = some states)
    (hds : states.lookup domain = some ds) :
    let keys := (s.run mnemonic inputs).autoassigned generation domain
    (keys = (List.range keys.length).map fun i =>
      (inTurn ds.sponsors ds.sponsors_nonempty (i % 2 ^ 64)).toString) ∧
    (ds.sponsors.Nodup → keys.length ≤ 2 ^ 64 → ∀ a ∈ ds.sponsors, ∀ b ∈ ds.sponsors,
      keys.count a.toString ≤ keys.count b.toString + 1) := by
  intro keys
  have h := ((start_consistent hstart).run inputs).assigned generation states hstates domain ds hds
  exact ⟨h.inTurn, fun hnodup hlength a ha b hb => h.balanced hnodup hlength ha hb⟩

/-- **A replied key is a fee payer that is taken.** A key that was replied for a domain is, in every
    later state of the domain that has at least as many signers, a sponsor that a transaction's fee
    payer is found to be. -/
theorem reply_finds_sponsor {domains : List Domain} {mnemonic : String} {s : SponsorPool}
    (hstart : start domains mnemonic = .ok s) (inputs : List SponsorInput) {r : SponsorReply}
    (hr : r ∈ (s.run mnemonic inputs).replies) :
    ∃ key : Pubkey, key.toString = r.sponsor ∧ ∃ domain states ds, r.domain? = some domain ∧
      (s.run mnemonic inputs).generations[r.generation]? = some states ∧
      states.lookup domain = some ds ∧ ds.sponsors.find? (· = key) = some key ∧
      ∀ states' ∈ (s.run mnemonic inputs).generations, ∀ ds', states'.lookup domain = some ds' →
        ds.sponsors.length ≤ ds'.sponsors.length → ds'.sponsors.find? (· = key) = some key := by
  have h := (start_consistent hstart).run inputs
  obtain ⟨states, domain, ds, index, hstates, hdomain, hds, hindex, hkey⟩ := h.fromStates r hr
  have hassigned := h.assigned r.generation states hstates domain ds hds
  refine ⟨_, hkey, domain, states, ds, hdomain, hstates, hds, hassigned.find?_sponsor hindex, ?_⟩
  intro states' hmem ds' hds' hlength
  obtain ⟨generation', hstates'⟩ := List.getElem?_of_mem hmem
  exact (h.assigned generation' states' hstates' domain ds' hds').find?_sponsor
    (Nat.lt_of_lt_of_le hindex hlength)

end SponsorPool

end Runs

namespace SponsorPoolSample

/-- Sponsors with small keys. -/
@[reducible] def external : External :=
  { External.uncalled with sponsorPubkey := fun _ _ i => .ofNat (i.toNat + 1) }

def config (numberOfSigners : UInt8) (hpos : numberOfSigners ≠ 0) : Domain where
  domain := "https://app.xyz"
  enableSessionManagement := false
  enablePreflightSimulation := false
  numberOfSigners := numberOfSigners
  numberOfSigners_pos := hpos
  txVariations := ∅

theorem two_ne_zero : (2 : UInt8) ≠ 0 := by decide

theorem three_ne_zero : (3 : UInt8) ≠ 0 := by decide

def assign (generation : Nat) : SponsorInput :=
  .request generation (some "https://app.xyz") none (some "autoassign")

/-- The states are replaced between two assignments out of the first ones, and a failed refresh leaves
    them as they are. -/
def inputs : List SponsorInput :=
  [assign 0, .refresh (.ok [config 3 three_ne_zero]), assign 0, .refresh (.error "timeout"), assign 0,
    assign 1, .request 1 none (some "https://app.xyz") (some "2"), .request 1 none none (some "2")]

def domainState : DomainState where
  domainRegistryKey := .ofNat 0
  sponsors := [.ofNat 1, .ofNat 2]
  sponsors_nonempty := List.cons_ne_nil _ _
  enablePreflightSimulation := false
  txVariations := ∅
  nextAutoassignedSponsorIndex := 0

def pool : SponsorPool := ⟨[(∅ : NameMap DomainState).insert "https://app.xyz" domainState], []⟩

theorem start_pool :
    @SponsorPool.start external [config 2 two_ne_zero] "" = .ok pool := rfl

/-- The pool after the inputs. -/
def after : SponsorPool := @SponsorPool.run external "" pool inputs

theorem autoassigned_in_turn_sample : ∃ states ds, after.generations[0]? = some states ∧
    states.lookup "https://app.xyz" = some ds ∧ ∀ a ∈ ds.sponsors, ∀ b ∈ ds.sponsors,
      (after.autoassigned 0 "https://app.xyz").count a.toString ≤
        (after.autoassigned 0 "https://app.xyz").count b.toString + 1 := by
  have hsome : (after.generations[0]?.bind (·.lookup "https://app.xyz")).any
      (fun ds => decide ds.sponsors.Nodup) = true := by decide +kernel
  have hlength : (after.autoassigned 0 "https://app.xyz").length ≤ 2 ^ 64 := by decide +kernel
  obtain ⟨ds, hfound, hnodup⟩ := (Option.any_eq_true _ _).1 hsome
  obtain ⟨states, hstates, hds⟩ := Option.bind_eq_some_iff.1 hfound
  exact ⟨states, ds, hstates, hds, (@SponsorPool.autoassigned_in_turn external _ _ _ start_pool inputs
    _ _ _ _ hstates hds).2 (of_decide_eq_true hnodup) hlength⟩

theorem reply_finds_sponsor_sample : ∃ r ∈ after.replies, ∃ key : Pubkey, key.toString = r.sponsor ∧
    ∃ states ds, after.generations[r.generation]? = some states ∧
      states.lookup "https://app.xyz" = some ds ∧ ds.sponsors.find? (· = key) = some key := by
  have hany : after.replies.any (fun r => decide (r.generation = 1 ∧
      r.domain? = some "https://app.xyz")) = true := by decide +kernel
  obtain ⟨r, hr, hthis⟩ := List.any_eq_true.1 hany
  obtain ⟨key, hkey, domain, states, ds, hdomain, hstates, hds, hfind, -⟩ :=
    @SponsorPool.reply_finds_sponsor external _ _ _ start_pool inputs r hr
  obtain rfl := Option.some.inj ((of_decide_eq_true hthis).2.symm.trans hdomain)
  exact ⟨r, hr, key, hkey, states, ds, hstates, hds, hfind⟩

end SponsorPoolSample

end FogoSessions.Paymaster
