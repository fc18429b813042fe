import FogoSessions.Paymaster.Database

/-!
# Syncing the configuration into the database

`bin/config_sync.rs`: the configuration of a file is written into the tables, domain by domain and
variation by variation, over what is there.
-/

namespace FogoSessions.Paymaster

open Lib Solana

/-! ## The configuration file -/

/-- Adds a variation under its own name, which must be free. -/
def insertVariation (txVariations : NameMap TransactionVariation)
    (variation : TransactionVariation) : Except String (NameMap TransactionVariation) :=
  let key := variation.name
  if key ∈ txVariations then .error s!"Duplicate transaction variation '{key}'"
  else .ok (txVariations.insert key variation)

def deserializeTransactionVariations (variations : List TransactionVariation) :
    Except String (NameMap TransactionVariation) :=
  variations.foldlM insertVariation ∅

/-! ## Statements -/

inductive SyncError where
  | uniqueViolation (constraint : String)
  | foreignKeyViolation (constraint : String)
  | rowNotFound
  | message (text : String)
deriving DecidableEq

/-- The URL parser: the host of a text that is a URL with a host. -/
class UrlParser where
  hostStr : String → Option String

/-- The database and the number of identifiers generated so far. -/
structure Session where
  db : Database
  generated : Nat

namespace Database

/-- Returns the identifier if the row was inserted. -/
def insertUser (db : Database) (row : UserRow) : Except SyncError (Option Uuid × Database) :=
  match Table.insertNew (·.username) row db.users with
  | none => .ok (none, db)
  | some users => do
    require (∀ user ∈ db.users, user.walletAddress ≠ row.walletAddress)
      (.uniqueViolation "user_wallet_address_key")
    return (some row.id, { db with users })

def selectUser (db : Database) (username : String) : Except SyncError Uuid :=
  okOr ((db.users.find? (·.username = username)).map (·.id)) .rowNotFound

def insertApp (db : Database) (row : AppRow) : Except SyncError (Option Uuid × Database) :=
  match Table.insertNew (·.name) row db.apps with
  | none => .ok (none, db)
  | some apps => do
    require (∃ user ∈ db.users, user.id = row.userId) (.foreignKeyViolation "app_user_id_fkey")
    return (some row.id, { db with apps })

def selectApp (db : Database) (userId : Uuid) (name : String) : Except SyncError Uuid :=
  okOr ((db.apps.find? fun app => app.userId = userId ∧ app.name = name).map (·.id)) .rowNotFound

def upsertDomainConfig (db : Database) (row : DomainConfigRow) :
    Except SyncError (Uuid × Database) := do
  -- an update keeps the reference, which is checked when the row is inserted
  require ((∃ existing ∈ db.domainConfigs, existing.key = row.key) ∨
      ∃ app ∈ db.apps, app.id = row.appId)
    (.foreignKeyViolation "domain_config_app_id_fkey")
  let update := fun existing : DomainConfigRow => { existing with
    enableSessionManagement := row.enableSessionManagement
    enablePreflightSimulation := row.enablePreflightSimulation }
  let (returned, domainConfigs) := Table.upsert DomainConfigRow.key update row db.domainConfigs
  return (returned.id, { db with domainConfigs })

def upsertVariation (db : Database) (row : VariationRow) : Except SyncError (Uuid × Database) := do
  require ((∃ existing ∈ db.variations, existing.key = row.key) ∨
      ∃ dc ∈ db.domainConfigs, dc.id = row.domainConfigId)
    (.foreignKeyViolation "variation_domain_config_id_fkey")
  let update := fun existing : VariationRow => { existing with
    version := row.version
    maxGasSpend := row.maxGasSpend
    transactionVariation := row.transactionVariation
    swapIntoFogo := row.swapIntoFogo
    paymasterFeeLamports := row.paymasterFeeLamports }
  let (returned, variations) := Table.upsert VariationRow.key update row db.variations
  return (returned.id, { db with variations })

end Database

/-! ## Syncing -/

/-- The registrable domain of a host: `test.brasa.finance` to `brasa.finance`. -/
def registrableDomain (host : String) : String :=
  let parts := (host.splitOn ".").reverse
  match parts with
  | last :: previous :: _ => s!"{previous}.{last}"
  | _ => host

/-- `i64::try_from` for a column. -/
def i64TryFrom (v : UInt64) (name : String) : Except SyncError Int64 :=
  if v.toNat < 2 ^ 63 then .ok v.toInt64
  else .error (.message s!"failed to convert {name} to i64")

/-- What is written of a variation. -/
def TransactionVariation.columns : TransactionVariation → Except SyncError VariationColumns
  | .v0 v =>
    .ok {
      name := v.name
      version := .v0
      maxGasSpend := none
      transactionVariation := .array (v.whitelistedPrograms.map fun k => .string k.toString)
      swapIntoFogo := none
      paymasterFeeLamports := none }
  | .v1 v => do
    let maxGasSpend ← i64TryFrom v.maxGasSpend "max_gas_spend"
    let paymasterFeeLamports ← v.paymasterFeeLamports.mapM fun val =>
      i64TryFrom val "paymaster_fee_lamports"
    return {
      name := v.name
      version := .v1
      maxGasSpend := some maxGasSpend
      transactionVariation := .array (v.instructions.map InstructionConstraint.serialize)
      swapIntoFogo := some (.array (v.swapIntoFogo.map MintSwapRate.serialize))
      paymasterFeeLamports }

section

-- `now n` is `now()` in the statement that takes the `n`-th generated identifier
variable (now : Nat → Timestamp)

def newUser (id : Uuid) (username : String) : UserRow where
  id
  username
  walletAddress := s!"wallet-address-{username}"
  createdAt := now id
  updatedAt := now id

def insertOrReturnUser (host : String) (s : Session) : Except SyncError (Uuid × Session) := do
  let username := registrableDomain host
  let (inserted, db) ← s.db.insertUser (newUser now s.generated username)
  let id ← match inserted with
    | some id => .ok id
    | none => db.selectUser username
  return (id, ⟨db, s.generated + 1⟩)

def newApp (id userId : Uuid) (name : String) : AppRow where
  id
  name
  userId
  createdAt := now id
  updatedAt := now id

def insertOrReturnApp (userId : Uuid) (name : String) (s : Session) :
    Except SyncError (Uuid × Session) := do
  let (inserted, db) ← s.db.insertApp (newApp now s.generated userId name)
  let id ← match inserted with
    | some id => .ok id
    | none => db.selectApp userId name
  return (id, ⟨db, s.generated + 1⟩)

def newDomainConfig (id appId : Uuid) (domain : Domain) (networkEnvironment : NetworkEnvironment) :
    DomainConfigRow where
  id
  appId
  domain := domain.domain
  networkEnvironment
  enableSessionManagement := domain.enableSessionManagement
  enablePreflightSimulation := domain.enablePreflightSimulation
  createdAt := now id
  updatedAt := now id

def insertOrUpdateDomainConfig (appId : Uuid) (domain : Domain)
    (networkEnvironment : NetworkEnvironment) (s : Session) :
    Except SyncError (Uuid × Session) := do
  let (id, db) ← s.db.upsertDomainConfig
    (newDomainConfig now s.generated appId domain networkEnvironment)
  return (id, ⟨db, s.generated + 1⟩)

def newVariation (id domainConfigId : Uuid) (columns : VariationColumns) : VariationRow where
  toVariationColumns := columns
  id
  domainConfigId
  createdAt := now id
  updatedAt := now id

def insertOrUpdateVariation (domainConfigId : Uuid) (variation : TransactionVariation)
    (s : Session) : Except SyncError Session := do
  let columns ← variation.columns
  let (_, db) ← s.db.upsertVariation (newVariation now s.generated domainConfigId columns)
  return ⟨db, s.generated + 1⟩

variable [UrlParser]

/-- The host of a domain that is a URL, and any other domain as it is. -/
def hostOf (domain : String) : String := (UrlParser.hostStr domain).getD domain

def syncDomain (networkEnvironment : NetworkEnvironment) (s : Session) (domain : Domain) :
    Except SyncError Session := do
  let host := hostOf domain.domain
  let (user, s) ← insertOrReturnUser now host s
  let (app, s) ← insertOrReturnApp now user host s
  let (domainConfig, s) ← insertOrUpdateDomainConfig now app domain networkEnvironment s
  domain.txVariations.entries.foldlM
    (fun s entry => insertOrUpdateVariation now domainConfig entry.2 s) s

def syncFromConfig (config : Config) (networkEnvironment : NetworkEnvironment) (s : Session) :
    Except SyncError Session :=
  config.domains.foldlM (syncDomain now networkEnvironment) s

end

end FogoSessions.Paymaster
