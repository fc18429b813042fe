import FogoSessions.Lib.Interleave
import FogoSessions.Paymaster.Malformed

/-!
# Lookup tables that grow

Requests resolve their accounts concurrently through one cache of lookup tables, while the tables on
the chain are extended and the node may answer with any earlier state of them. `resolution_agrees`
says that a resolved key is nevertheless the one the runtime uses.
-/

namespace FogoSessions.Paymaster

open Lib Solana

/-! ## The runtime's accounts -/

/-- The accounts of a message in the order of the runtime: the static keys, what the lookups load as
    writable, and what they load as readonly. A loaded account is an entry of its table, if the
    table has it. -/
def accountKeys (entry : Pubkey → Nat → Option Pubkey) (message : VersionedMessage) :
    List (Option Pubkey) :=
  let lookups := message.addressTableLookups.getD []
  message.staticAccountKeys.map some
    ++ lookups.flatMap (fun x => x.writableIndexes.map fun y => entry x.accountKey y.toNat)
    ++ lookups.flatMap (fun x => x.readonlyIndexes.map fun y => entry x.accountKey y.toNat)

/-- The account at a position of an instruction's accounts. -/
def accountKey (entry : Pubkey → Nat → Option Pubkey) (message : VersionedMessage)
    (ix : CompiledInstruction) (i : Nat) : Option Pubkey :=
  ix.accounts[i]?.bind fun accountIndex => (accountKeys entry message)[accountIndex.toNat]?.join

section

variable {entry : Pubkey → Nat → Option Pubkey} {message : VersionedMessage} {n : Nat}

theorem accountKeys_eq : accountKeys entry message =
    message.staticAccountKeys.map some ++
      (ChainIndex.lookupAccounts (message.addressTableLookups.getD [])).map
        fun (table, index) => entry table index.toNat := by
  simp only [accountKeys, ChainIndex.lookupAccounts, List.map_append, List.map_flatMap,
    List.map_map, List.append_assoc]
  rfl

theorem accountKeys_static {pubkey : Pubkey} (h : message.staticAccountKeys[n]? = some pubkey) :
    (accountKeys entry message)[n]? = some (some pubkey) := by
  have hlt := (List.getElem?_eq_some_iff.1 h).1
  rw [accountKeys_eq, List.getElem?_append_left (by simpa using hlt), List.getElem?_map, h]
  rfl

theorem accountKeys_loaded (h : message.staticAccountKeys[n]? = none) :
    (accountKeys entry message)[n]? =
      (ChainIndex.lookupAccounts (message.addressTableLookups.getD []))[n -
        message.staticAccountKeys.length]?.map fun (table, index) => entry table index.toNat := by
  have hle := List.getElem?_eq_none_iff.1 h
  rw [accountKeys_eq, List.getElem?_append_right (by simpa using hle), List.length_map,
    List.getElem?_map]

end

/-- A key that resolves through prefixes of the tables is the runtime's. -/
theorem Resolves.accountKey_eq {content : Pubkey → List Pubkey} {message : VersionedMessage}
    {ix : CompiledInstruction} {i : Nat} {pubkey : Pubkey}
    (h : Resolves (fun table addresses => addresses <+: content table) message ix i pubkey) :
    accountKey (fun table n => (content table)[n]?) message ix i = some pubkey := by
  obtain ⟨accountIndex, hindex, hkey⟩ := h
  rw [accountKey, hindex, Option.bind_some]
  rcases hkey with hkey | ⟨hkey, lookups, table, index, addresses, hlookups, hentry, hpre, hpubkey⟩
  · rw [accountKeys_static hkey, Option.join_some]
  · obtain ⟨later, hcontent⟩ := hpre
    have hlt := (List.getElem?_eq_some_iff.1 hpubkey).1
    rw [accountKeys_loaded hkey, hlookups, Option.getD_some, hentry, Option.map_some,
      Option.join_some]
    change (content table)[index.toNat]? = some pubkey
    rw [← hcontent, List.getElem?_append_left hlt, hpubkey]

/-! ## The tables and their cache -/

/-- The tables on the chain, and what the paymaster cached of them. -/
structure Tables where
  content : Pubkey → List Pubkey
  cache : Pubkey → Option (List Pubkey)

variable [External]

/-- The node fails or answers with a state of the table at or before the present, which is a prefix
    of the present one. No other operation is called. -/
inductive Tables.Answers : Tables → (op : Op) → Ans op → Tables → Prop where
  | get (s : Tables) (table : Pubkey) : Answers s (.lookupTableCacheGet table) (s.cache table) s
  | insert (s : Tables) (table : Pubkey) (addresses : List Pubkey) :
      Answers s (.lookupTableCacheInsert table addresses) ⟨⟩
        { s with cache := fun t => if t = table then some addresses else s.cache t }
  | fetchFailed (s : Tables) (table : Pubkey) (err : String) :
      Answers s (.rpcGetAccount table) (.error err) s
  | fetch (s : Tables) (table : Pubkey) (data : Bytes)
      (h : ∀ addresses, External.deserializeLookupTable data = .ok addresses →
        addresses <+: s.content table) :
      Answers s (.rpcGetAccount table) (.ok data) s

/-- Tables only grow. -/
def Tables.Grows (s s' : Tables) : Prop := ∀ table, s.content table <+: s'.content table

/-- Requests share the cache, while others extend the tables. -/
def tables : Task.Sharing Op Ans Tables where
  answers := Tables.Answers
  moves s s' := s.Grows s' ∧ s'.cache = s.cache

/-- What is cached of a table is a prefix of it. -/
def Tables.CachePrefix (s : Tables) : Prop :=
  ∀ table addresses, s.cache table = some addresses → addresses <+: s.content table

/-- The contents that a request can learn of. -/
def Tables.contract (s : Tables) : Task.Contract Op Ans :=
  lookupContract (fun table addresses => addresses <+: s.content table) fun _ _ => True

theorem tables_respects : Task.Respects tables Tables.CachePrefix Tables.Grows Tables.contract where
  refl _ _ := List.prefix_rfl
  trans h h' table := (h table).trans (h' table)
  move := by
    rintro s s' hcache ⟨hgrows, heq⟩
    refine ⟨fun table addresses h => ?_, hgrows⟩
    rw [heq] at h
    exact (hcache table addresses h).trans (hgrows table)
  call := by
    intro s s' op x hcache hguar hanswer
    cases hanswer with
    | get table =>
      exact ⟨hcache, fun _ => List.prefix_rfl, fun s'' hle addresses h =>
        (hcache table addresses h).trans (hle table)⟩
    | insert table addresses =>
      refine ⟨fun t xs h => ?_, fun _ => List.prefix_rfl, fun _ _ => trivial⟩
      by_cases ht : t = table
      · subst ht
        cases (if_pos rfl).symm.trans h
        exact hguar
      · exact hcache t xs ((if_neg ht).symm.trans h)
    | fetchFailed table err =>
      exact ⟨hcache, fun _ => List.prefix_rfl, fun _ _ _ _ h => nomatch h⟩
    | fetch table data hpre =>
      refine ⟨hcache, fun _ => List.prefix_rfl, fun s'' hle data' addresses hdata haddresses => ?_⟩
      cases hdata
      exact (hpre addresses haddresses).trans (hle table)

/-! ## Resolutions -/

/-- What is to be resolved: a position of an instruction's accounts. -/
structure Resolution where
  message : VersionedMessage
  ix : InstructionWithIndex
  position : Nat

/-- The key that the runtime uses, given the tables. -/
def Resolution.key (r : Resolution) (s : Tables) : Option Pubkey :=
  accountKey (fun table n => (s.content table)[n]?) r.message r.ix.instruction r.position

def Resolution.start (r : Resolution) : Handler Pubkey :=
  ChainIndex.resolveInstructionAccountPubkey r.message r.ix r.position

/-- The result is the runtime's key. Where there is none, an error is returned, and no subtraction
    underflows. -/
structure Resolution.Agrees (r : Resolution) (s : Tables) (result : Except (Fault ErrorReply) Pubkey) :
    Prop where
  key : ∀ pubkey, result = .ok pubkey → r.key s = some pubkey
  missing : r.key s = none → ∃ e, result = .error (.err e)
  noUnderflow : result ≠ .error .panic

omit [External] in
theorem Resolution.agrees_of {r : Resolution} {s : Tables}
    {result : Except (Fault ErrorReply) Pubkey}
    (hkey : ∀ pubkey, result = .ok pubkey → r.key s = some pubkey) (hpanic : result ≠ .error .panic) :
    r.Agrees s result := by
  refine ⟨hkey, fun hnone => ?_, hpanic⟩
  cases result with
  | ok pubkey =>
    rw [hkey pubkey rfl] at hnone
    cases hnone
  | error e =>
    cases e with
    | err e => exact ⟨e, rfl⟩
    | panic => exact absurd rfl hpanic

theorem Resolution.start_meets (r : Resolution) (s : Tables) :
    r.start.Meets s.contract (r.Agrees s) := by
  have hkey : r.start.Ensures s.contract (Resolves _ r.message r.ix.instruction r.position) :=
    ChainIndex.resolve_ensures r.message r.ix r.position
  have hsafe : r.start.Safe fun _ => True :=
    ChainIndex.safe_resolve r.message r.ix r.position
  refine Task.Meets.mono (fun result h => ?_) (hkey.and_free hsafe)
  obtain ⟨hresolves, hnoPanic⟩ := h
  cases result with
  | ok pubkey =>
    refine agrees_of (fun pubkey' h => ?_) nofun
    cases h
    exact hresolves.accountKey_eq
  | error e => exact agrees_of (fun _ h => nomatch h) fun h => hnoPanic (Except.error.inj h)

/-- **Lookup-table resolution agrees with the runtime**: whatever the order in which resolutions and
    extensions of the tables interleave, the cache holds prefixes of the tables, and every
    resolution that is done agrees with the tables. -/
theorem resolution_agrees {s : Tables} (hs : s.CachePrefix)
    {p : Task.Pool Op Ans (Fault ErrorReply) Pubkey Resolution Tables}
    (hrun : Task.Runs tables Resolution.start s p) :
    p.state.CachePrefix ∧
      ∀ r result, (r, .done result) ∈ p.tasks → r.Agrees p.state result :=
  ⟨(tables_respects.run Resolution.start_meets hs hrun).1,
    fun _ _ hdone => tables_respects.done Resolution.start_meets hs hrun hdone⟩

/-- The first account of an instruction, loaded from entry 1 of a table. -/
def sampleResolution : Resolution where
  message := .v0 {
    header := ⟨1, 0, 1⟩
    accountKeys := [.ofNat 10, .ofNat 11]
    recentBlockhash := .ofNat 0
    instructions := [⟨1, [2], []⟩]
    addressTableLookups := [⟨.ofNat 20, [1], []⟩] }
  ix := ⟨0, ⟨1, [2], []⟩⟩
  position := 0

omit [External] in
theorem resolution_agrees_sample :
    let _ : External := .uncalled
    let before : Tables := ⟨fun _ => [.ofNat 30, .ofNat 31], fun _ => some [.ofNat 30, .ofNat 31]⟩
    let after : Tables := { before with content := fun _ => [.ofNat 30, .ofNat 31, .ofNat 32] }
    ∃ p, Task.Runs tables Resolution.start before p ∧ p.state = after ∧
      (sampleResolution, .done (.ok (.ofNat 31))) ∈ p.tasks ∧
      sampleResolution.key after = some (.ofNat 31) := by
  intro _ before after
  have hbefore : before.CachePrefix := fun _ _ h => Option.some.inj h ▸ List.prefix_rfl
  have hmove : tables.moves before after := ⟨fun _ => ⟨[.ofNat 32], rfl⟩, rfl⟩
  obtain ⟨next, hstart, hnext⟩ : ∃ next,
      sampleResolution.start = .call (Op.lookupTableCacheGet (.ofNat 20)) next ∧
        next (some [.ofNat 30, .ofNat 31]) = .done (.ok (.ofNat 31)) := ⟨_, rfl, rfl⟩
  have hcall : Task.Step tables Resolution.start
      ⟨after, [(sampleResolution, .call (Op.lookupTableCacheGet (.ofNat 20)) next)]⟩
      ⟨after, [(sampleResolution, next (some [.ofNat 30, .ofNat 31]))]⟩ :=
    @Task.Step.call _ _ _ _ _ _ tables Resolution.start after after [] [] _ _ _ _
      (.get after (.ofNat 20))
  rw [← hstart, hnext] at hcall
  -- the request is started, the table is extended, and the cache is read
  have hrun := ((Relation.ReflTransGen.single (Task.Step.spawn sampleResolution)).tail
    (.move hmove)).tail hcall
  have hagrees := (resolution_agrees hbefore hrun).2 _ _ List.mem_cons_self
  exact ⟨_, hrun, rfl, List.mem_cons_self, hagrees.key _ rfl⟩

end FogoSessions.Paymaster
