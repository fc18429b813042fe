import FogoSessions.Lib.Table
import FogoSessions.Paymaster.ConfigJson

/-!
# The database

The tables of `migrations/` and the loader `db/config.rs`, which rebuilds the configuration from
their rows. The store itself is taken to keep every text and JSON value as it is given, and a
statement to fail only on a constraint of the schema.
-/

namespace FogoSessions.Paymaster

open Lib Solana

/-- Identifiers are random and taken never to repeat: they are numbered as they are generated. -/
abbrev Uuid := Nat

abbrev Timestamp := Nat

inductive NetworkEnvironment where
  | mainnet
  | testnet
  | localnet
deriving DecidableEq

/-- The kinds of variations, as the column `version` has them. -/
inductive VariationVersion where
  | v0
  | v1
deriving DecidableEq

/-! ## Tables -/

/-- A row of the table `user`. -/
structure UserRow where
  id : Uuid
  username : String
  walletAddress : String
  createdAt : Timestamp
  updatedAt : Timestamp

/-- A row of the table `app`: an application of a user. -/
structure AppRow where
  id : Uuid
  name : String
  userId : Uuid
  createdAt : Timestamp
  updatedAt : Timestamp

/-- A row of the table `domain_config`: a domain of an application in one environment. -/
structure DomainConfigRow where
  id : Uuid
  appId : Uuid
  domain : String
  networkEnvironment : NetworkEnvironment
  enableSessionManagement : Bool
  enablePreflightSimulation : Bool
  createdAt : Timestamp
  updatedAt : Timestamp

/-- The columns of a variation that its configuration decides. -/
structure VariationColumns where
  name : String
  version : VariationVersion
  maxGasSpend : Option Int64
  transactionVariation : Json
  swapIntoFogo : Option Json
  paymasterFeeLamports : Option Int64

/-- A row of the table `variation`: a variation of a domain. -/
structure VariationRow extends VariationColumns where
  id : Uuid
  domainConfigId : Uuid
  createdAt : Timestamp
  updatedAt : Timestamp

structure Database where
  users : List UserRow
  apps : List AppRow
  domainConfigs : List DomainConfigRow
  variations : List VariationRow

def Database.empty : Database := ⟨[], [], [], []⟩

/-- The key of `domain_config_domain_network_environment_unique`. -/
def DomainConfigRow.key (row : DomainConfigRow) : String × NetworkEnvironment :=
  (row.domain, row.networkEnvironment)

/-- The key of `variation_domain_name_unique`. -/
def VariationRow.key (row : VariationRow) : Uuid × String := (row.domainConfigId, row.name)

/-! ## The selected rows -/

/-- What the loader reads of a domain. -/
structure DomainConfig where
  id : Uuid
  domain : String
  enableSessionManagement : Bool
  enablePreflightSimulation : Bool

/-- What the loader reads of a variation. -/
structure Variation where
  domainConfigId : Uuid
  version : String
  name : String
  maxGasSpend : Option Int64
  transactionVariation : Json
  swapIntoFogo : Option Json
  paymasterFeeLamports : Option Int64

/-- `version::text` -/
def VariationVersion.text : VariationVersion → String
  | v0 => "v0"
  | v1 => "v1"

def DomainConfigRow.selected (row : DomainConfigRow) : DomainConfig where
  id := row.id
  domain := row.domain
  enableSessionManagement := row.enableSessionManagement
  enablePreflightSimulation := row.enablePreflightSimulation

def VariationRow.selected (row : VariationRow) : Variation where
  domainConfigId := row.domainConfigId
  version := row.version.text
  name := row.name
  maxGasSpend := row.maxGasSpend
  transactionVariation := row.transactionVariation
  swapIntoFogo := row.swapIntoFogo
  paymasterFeeLamports := row.paymasterFeeLamports

/-- The domains of the environment. -/
def Database.selectDomainConfigs (db : Database) (networkEnvironment : NetworkEnvironment) :
    List DomainConfig :=
  (db.domainConfigs.filter (·.networkEnvironment = networkEnvironment)).map (·.selected)

/-- The join: each variation, once for each domain of the environment that it belongs to. -/
def Database.selectVariations (db : Database) (networkEnvironment : NetworkEnvironment) :
    List Variation :=
  db.variations.flatMap fun row =>
    (db.domainConfigs.filter fun dc =>
      row.domainConfigId = dc.id ∧ dc.networkEnvironment = networkEnvironment).map fun _ =>
        row.selected

/-! ## Loading -/

/-- What keeps a row from being loaded. -/
inductive LoadError where
  | message (text : String)
  | json
  | parsePubkey
deriving DecidableEq

/-- `u64::try_from` of a column. -/
def u64TryFrom (n : Int64) : Option UInt64 := if n.toInt < 0 then none else some n.toUInt64

/-- The text of the error when an integer does not fit. -/
def tryFromIntError : String := "out of range integral type conversion attempted"

/-- Items that are not texts are left out. -/
def handleTransactionVariationV0 (transactionVariation : Json) (name : String) :
    Except LoadError TransactionVariation :=
  match transactionVariation with
  | .array items => do
    let strings := items.filterMap Json.string?
    let whitelistedPrograms ← strings.mapM fun s => okOr (Pubkey.fromStr s) .parsePubkey
    return .v0 { name, whitelistedPrograms }
  | _ => .error (.message "Missing or invalid whitelisted_programs field")

def handleTransactionVariationV1 (transactionVariation : Json) (name : String)
    (maxGasSpend : UInt64) (paymasterFeeLamports : Option Int64) (swapIntoFogo : Option Json) :
    Except LoadError TransactionVariation := do
  let instructions ← okOr (Json.list? InstructionConstraint.deserialize transactionVariation) .json
  let swapIntoFogo ← match swapIntoFogo with
    | some v => okOr (Json.list? MintSwapRate.deserialize v) .json
    | none => .ok []
  let paymasterFeeLamports ← paymasterFeeLamports.mapM fun v =>
    okOr (u64TryFrom v) (.message s!"Invalid paymaster fee lamports: {tryFromIntError}")
  return .v1 { name, instructions, maxGasSpend, paymasterFeeLamports, swapIntoFogo }

/-- The variation of a row, by its version; `v1` *requires* `max_gas_spend`. -/
def Variation.load (row : Variation) : Except LoadError TransactionVariation :=
  if row.version = "v0" then handleTransactionVariationV0 row.transactionVariation row.name
  else if row.version = "v1" then do
    let max ← okOr row.maxGasSpend (.message "v1 row missing max_gas_spend")
    let maxGasSpend ← okOr (u64TryFrom max) (.message s!"Invalid max gas spend: {tryFromIntError}")
    handleTransactionVariationV1 row.transactionVariation row.name maxGasSpend
      row.paymasterFeeLamports row.swapIntoFogo
  else .error (.message "Invalid transaction_variation version")

/-- The configuration of the service, as far as it is stored. -/
structure Config where
  domains : List Domain

/-- A `HashMap` from identifiers. -/
abbrev UuidMap (α : Type) := AList fun _ : Uuid => α

/-- A domain without variations yet. -/
def DomainConfig.toDomain (row : DomainConfig) : Domain where
  domain := row.domain
  enableSessionManagement := row.enableSessionManagement
  enablePreflightSimulation := row.enablePreflightSimulation
  numberOfSigners := 1
  numberOfSigners_pos := defaultOne_pos
  txVariations := ∅

/-- Adds a domain under its identifier. -/
def insertDomain (domainMap : UuidMap Domain) (row : DomainConfig) : UuidMap Domain :=
  domainMap.insert row.id row.toDomain

/-- Adds the variation of a row under its own name; a row that does not load is skipped. -/
def Domain.addRow (domain : Domain) (row : Variation) : Domain :=
  match row.load with
  | .ok variation =>
    { domain with txVariations := domain.txVariations.insert variation.name variation }
  | .error _ => domain

/-- A variation of a domain that is not there is left out. -/
def addVariation (domainMap : UuidMap Domain) (row : Variation) : UuidMap Domain :=
  match domainMap.lookup row.domainConfigId with
  | some domain => domainMap.insert row.domainConfigId (domain.addRow row)
  | none => domainMap

/-- `load_config`, on the selected rows in the order in which they arrive. -/
def loadConfig (domainRows : List DomainConfig) (variationRows : List Variation) : Config where
  domains := (variationRows.foldl addVariation (domainRows.foldl insertDomain ∅)).entries.map (·.2)

end FogoSessions.Paymaster
