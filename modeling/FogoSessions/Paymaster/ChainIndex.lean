import FogoSessions.Paymaster.External

/-!
# Resolving account indexes

`rpc.rs`, `ChainIndex`: the key an instruction's account index stands for, among the static keys of
the message or the entries of its address lookup tables.
-/

namespace FogoSessions.Paymaster

open Lib Solana

/-- An instruction and its position, for error messages. -/
structure InstructionWithIndex where
  index : Nat
  instruction : CompiledInstruction
deriving DecidableEq

namespace ChainIndex

variable [External]

/-- The cached entry, if the table is cached and has one at `index`. -/
def queryLookupTable (table : Pubkey) (index : Nat) : Handler (Option Pubkey) := do
  let entry ← call (.lookupTableCacheGet table)
  return entry.bind (·[index]?)

/-- Fetches the table from the RPC node, caches it and returns it. -/
def updateLookupTable (table : Pubkey) : Handler (List Pubkey) := do
  match ← call (.rpcGetAccount table) with
  | .error err =>
    reply ⟨.internalServerError,
      s!"Failed to fetch lookup table account {table} from RPC: {err}"⟩
  | .ok data =>
    match External.deserializeLookupTable data with
    | .error e =>
      reply ⟨.internalServerError, s!"Failed to deserialize lookup table account {table}: {e}"⟩
    | .ok addresses =>
      call (.lookupTableCacheInsert table addresses)
      return addresses

def queryLookupTableWithRetry (table : Pubkey) (index : Nat) : Handler Pubkey := do
  match ← queryLookupTable table index with
  | some pubkey => return pubkey
  | none =>
    let addresses ← updateLookupTable table
    match addresses[index]? with
    | some pubkey => return pubkey
    | none => reply (badRequest s!"Lookup table {table} does not contain index {index}")

def findAndQueryLookupTable (lookupAccounts : List (Pubkey × UInt8)) (accountPosition : Nat) :
    Handler Pubkey :=
  match lookupAccounts[accountPosition]? with
  | some (tableToQuery, indexToQuery) =>
    queryLookupTableWithRetry tableToQuery indexToQuery.toNat
  | none =>
    reply (badRequest
      s!"Account position {accountPosition} out of bounds for lookup table invoked accounts")

/-- The accounts the lookups name: all writable ones, then all readonly ones. -/
def lookupAccounts (lookupTables : List MessageAddressTableLookup) : List (Pubkey × UInt8) :=
  lookupTables.flatMap (fun x => x.writableIndexes.map fun y => (x.accountKey, y))
    ++ lookupTables.flatMap (fun x => x.readonlyIndexes.map fun y => (x.accountKey, y))

/-- The key of the account at a position of an instruction's account list. -/
def resolveInstructionAccountPubkey (message : VersionedMessage) (ix : InstructionWithIndex)
    (accountIndexWithinInstruction : Nat) : Handler Pubkey :=
  let keys := message.staticAccountKeys
  match ix.instruction.accounts[accountIndexWithinInstruction]? with
  | none => reply (badRequest
      s!"Account index {accountIndexWithinInstruction} out of bounds for instruction {ix.index}")
  | some accountIndex =>
    match keys[accountIndex.toNat]?, message.addressTableLookups with
    | some pubkey, _ => return pubkey
    | none, some lookupTables => do
      let accountIndexWithinLookupTables ← .lift (subtract accountIndex.toNat keys.length)
      findAndQueryLookupTable (lookupAccounts lookupTables) accountIndexWithinLookupTables
    | none, none => reply (badRequest
        (s!"Account index {accountIndexWithinInstruction} for instruction {ix.index} expected to be in the address table "
          ++ "lookup but the transaction does not reference any address table lookups"))

end ChainIndex

/-! ## What a resolution may rely on -/

/-- The world as far as lookup tables go: every content of a table that the cache or the node
    answers is `known`, and in return nothing else is written to the cache. Of the keys that sign,
    the task ensures `signs`. -/
def lookupContract [External] (known : Pubkey → List Pubkey → Prop) (signs : Pubkey → Bytes → Prop) :
    Task.Contract Op Ans where
  rely
    | .lookupTableCacheGet table, answer => ∀ addresses, answer = some addresses → known table addresses
    | .rpcGetAccount table, answer => ∀ data addresses, answer = .ok data →
        External.deserializeLookupTable data = .ok addresses → known table addresses
    | _, _ => True
  guar
    | .lookupTableCacheInsert table addresses => known table addresses
    | .signMessage sponsor message => signs sponsor message
    | _ => True

/-- `pubkey` is what position `i` of the instruction's accounts stands for, given the known table
    contents: a static key, or the entry of a table that the message's lookups name at that
    position. -/
def Resolves (known : Pubkey → List Pubkey → Prop) (message : VersionedMessage)
    (ix : CompiledInstruction) (i : Nat) (pubkey : Pubkey) : Prop :=
  ∃ accountIndex, ix.accounts[i]? = some accountIndex ∧
    (message.staticAccountKeys[accountIndex.toNat]? = some pubkey ∨
      message.staticAccountKeys[accountIndex.toNat]? = none ∧
        ∃ lookupTables table index addresses, message.addressTableLookups = some lookupTables ∧
          (ChainIndex.lookupAccounts lookupTables)[accountIndex.toNat -
            message.staticAccountKeys.length]? = some (table, index) ∧
          known table addresses ∧ addresses[index.toNat]? = some pubkey)

namespace ChainIndex

variable [External] {known : Pubkey → List Pubkey → Prop} {signs : Pubkey → Bytes → Prop}

theorem queryLookupTable_ensures (table : Pubkey) (index : Nat) :
    (queryLookupTable table index).Ensures (lookupContract known signs) fun entry =>
      ∀ pubkey, entry = some pubkey →
        ∃ addresses, known table addresses ∧ addresses[index]? = some pubkey := by
  refine Task.ensures_perform_bind trivial fun answer hanswer pubkey hpubkey => ?_
  obtain ⟨addresses, rfl, hindex⟩ := Option.bind_eq_some_iff.1 hpubkey
  exact ⟨addresses, hanswer addresses rfl, hindex⟩

theorem updateLookupTable_ensures (table : Pubkey) :
    (updateLookupTable table).Ensures (lookupContract known signs) (known table) := by
  refine Task.ensures_perform_bind trivial fun answer hanswer => ?_
  cases answer with
  | error err => trivial
  | ok data =>
    dsimp only
    split
    · trivial
    · rename_i addresses hdecode
      have hknown : known table addresses := hanswer data addresses rfl hdecode
      exact Task.ensures_perform_bind hknown fun _ _ => hknown

theorem queryLookupTableWithRetry_ensures (table : Pubkey) (index : Nat) :
    (queryLookupTableWithRetry table index).Ensures (lookupContract known signs) fun pubkey =>
      ∃ addresses, known table addresses ∧ addresses[index]? = some pubkey := by
  refine (queryLookupTable_ensures table index).bind fun entry hentry => ?_
  cases entry with
  | some pubkey => exact hentry pubkey rfl
  | none =>
    refine (updateLookupTable_ensures table).bind fun addresses haddresses => ?_
    split
    · rename_i pubkey hpubkey
      exact ⟨addresses, haddresses, hpubkey⟩
    · trivial

/-- A resolved key is the one its index stands for. -/
theorem resolve_ensures (message : VersionedMessage) (ix : InstructionWithIndex) (i : Nat) :
    (resolveInstructionAccountPubkey message ix i).Ensures (lookupContract known signs)
      (Resolves known message ix.instruction i) := by
  unfold resolveInstructionAccountPubkey
  split
  · trivial
  · rename_i accountIndex hindex
    dsimp only
    split
    · rename_i pubkey _ hkey
      exact ⟨accountIndex, hindex, Or.inl hkey⟩
    · rename_i lookupTables hkey hlookups
      rw [subtract_of_le (List.getElem?_eq_none_iff.1 hkey)]
      change (findAndQueryLookupTable _ _).Ensures _ _
      unfold findAndQueryLookupTable
      split
      · rename_i table index hentry
        refine (queryLookupTableWithRetry_ensures table index.toNat).mono fun pubkey h => ?_
        obtain ⟨addresses, hknown, hpubkey⟩ := h
        exact ⟨accountIndex, hindex, Or.inr ⟨hkey, lookupTables, table, index, addresses, hlookups,
          hentry, hknown, hpubkey⟩⟩
      · trivial
    · trivial

end ChainIndex

end FogoSessions.Paymaster
