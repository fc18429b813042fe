import FogoSessions.Lib.Json
import FogoSessions.Paymaster.Config

/-!
# The JSON form of constraints

The derived and the hand-written serialization of `constraint/config.rs` and `constraint/mod.rs`:
how the instruction constraints and the swap rates of a variation are written into a JSON column and
read back.
-/

namespace FogoSessions.Paymaster

open Lib Solana IntentTransfer

/-! ## Keys -/

/-- `DisplayFromStr` for keys. -/
def displayFromStr? (json : Json) : Option Pubkey := json.string?.bind Pubkey.fromStr

inductive ParseSubstantiveProgramIdError where
  | nonSubstantiveProgramId (pubkey : Pubkey)
  | parsePubkeyError
deriving DecidableEq

def SubstantiveProgramId.fromStr (s : String) :
    Except ParseSubstantiveProgramIdError SubstantiveProgramId := do
  let pubkey ← okOr (Pubkey.fromStr s) .parsePubkeyError
  if h : pubkey ∉ nonSubstantiveProgramIds then return ⟨pubkey, h⟩
  else throw (.nonSubstantiveProgramId pubkey)

/-- `DisplayFromStr` for programs. -/
def SubstantiveProgramId.displayFromStr? (json : Json) : Option SubstantiveProgramId :=
  json.string?.bind fun s => (fromStr s).toOption

namespace ContextualPubkey

def serialize : ContextualPubkey → Json
  | explicit pubkey => .object [("Explicit", .object [("pubkey", .string pubkey.toString)])]
  | sponsor => .string "Sponsor"
  | nonFeePayerSigner => .string "NonFeePayerSigner"
  | domainRegistry => .string "DomainRegistry"

/-- A variant that is its name. -/
def ofUnit (content : Option Json) (value : ContextualPubkey) : Option ContextualPubkey :=
  if Json.isUnit content then some value else none

def deserialize (json : Json) : Option ContextualPubkey := do
  let (name, content) ← json.variant?
  if name = "Explicit" then
    let fields ← (← content).members?
    return .explicit (← Json.required fields "pubkey" displayFromStr?)
  else if name = "Sponsor" then ofUnit content .sponsor
  else if name = "NonFeePayerSigner" then ofUnit content .nonFeePayerSigner
  else if name = "DomainRegistry" then ofUnit content .domainRegistry
  else none

end ContextualPubkey

namespace AccountConstraint

def serialize (c : AccountConstraint) : Json :=
  .object [
    ("index", .ofNat c.index.toNat),
    ("include", .array (c.includes.map ContextualPubkey.serialize)),
    ("exclude", .array (c.excludes.map ContextualPubkey.serialize))]

def deserialize (json : Json) : Option AccountConstraint := do
  let fields ← json.fields? ["index", "include", "exclude"]
  let index ← Json.required fields "index" Json.u16?
  let includes ← Json.defaulted fields "include" [] (Json.list? ContextualPubkey.deserialize)
  let excludes ← Json.defaulted fields "exclude" [] (Json.list? ContextualPubkey.deserialize)
  return { index, includes, excludes }

end AccountConstraint

/-! ## Data constraints -/

/-- The derived form of a key: the array of its bytes. -/
def serializePubkey (key : Pubkey) : Json := .array (key.bytes.map fun b => .ofNat b.toNat)

def deserializePubkey (json : Json) : Option Pubkey :=
  (Json.list? Json.u8? json).bind FixedBytes.ofBytes?

namespace NttSignedQuoter

def serialize (address : H160) : Json := .string ("0x" ++ Hex.encode address.bytes)

def deserialize (json : Json) : Option H160 := do
  let s ← json.string?
  let bytes ← (Hex.decode (stripHexMark s)).toOption
  FixedBytes.ofBytes? bytes

end NttSignedQuoter

namespace DataValue

def serialize : DataValue → Json
  | u8 v => .object [("U8", .ofNat v.toNat)]
  | u16 v => .object [("U16", .ofNat v.toNat)]
  | u32 v => .object [("U32", .ofNat v.toNat)]
  | u64 v => .object [("U64", .ofNat v.toNat)]
  | bool v => .object [("Bool", .bool v)]
  | pubkey key => .object [("Pubkey", serializePubkey key)]
  | bytes text => .object [("Bytes", .string text)]
  | nttSignedQuoter address => .object [("NttSignedQuoter", NttSignedQuoter.serialize address)]

def deserialize : Json → Option DataValue := Json.tagged? [
  ("U8", fun content => content.u8?.map u8),
  ("U16", fun content => content.u16?.map u16),
  ("U32", fun content => content.u32?.map u32),
  ("U64", fun content => content.u64?.map u64),
  ("Bool", fun content => content.bool?.map bool),
  ("Pubkey", fun content => (deserializePubkey content).map pubkey),
  ("Bytes", fun content => content.string?.map bytes),
  ("NttSignedQuoter", fun content => (NttSignedQuoter.deserialize content).map nttSignedQuoter)]

end DataValue

namespace DataConstraintSpecification

def serialize : DataConstraintSpecification → Json
  | lessThan value => .object [("LessThan", value.serialize)]
  | greaterThan value => .object [("GreaterThan", value.serialize)]
  | equalTo values => .object [("EqualTo", .array (values.map DataValue.serialize))]
  | neq values => .object [("Neq", .array (values.map DataValue.serialize))]

def deserialize : Json → Option DataConstraintSpecification := Json.tagged? [
  ("LessThan", fun content => (DataValue.deserialize content).map lessThan),
  ("GreaterThan", fun content => (DataValue.deserialize content).map greaterThan),
  ("EqualTo", fun content => (Json.list? DataValue.deserialize content).map equalTo),
  ("Neq", fun content => (Json.list? DataValue.deserialize content).map neq)]

end DataConstraintSpecification

namespace DataConstraint

def serialize (c : DataConstraint) : Json :=
  .object [("start_byte", .ofNat c.startByte.toNat), ("constraint", c.constraint.serialize)]

def deserialize (json : Json) : Option DataConstraint := do
  let fields ← json.fields? ["start_byte", "constraint"]
  let startByte ← Json.required fields "start_byte" Json.u16?
  let constraint ← Json.required fields "constraint" DataConstraintSpecification.deserialize
  return { startByte, constraint }

end DataConstraint

/-! ## Instruction constraints -/

namespace InstructionConstraint

def serialize (c : InstructionConstraint) : Json :=
  .object [
    ("program", .string c.program.pubkey.toString),
    ("accounts", .array (c.accounts.map AccountConstraint.serialize)),
    ("data", .array (c.data.map DataConstraint.serialize)),
    ("required", .bool c.required),
    ("requires_wrapped_native_tokens", .bool c.requiresWrappedNativeTokens)]

def deserialize (json : Json) : Option InstructionConstraint := do
  let fields ← json.fields?
    ["program", "accounts", "data", "required", "requires_wrapped_native_tokens"]
  let program ← Json.required fields "program" SubstantiveProgramId.displayFromStr?
  let accounts ← Json.defaulted fields "accounts" [] (Json.list? AccountConstraint.deserialize)
  let data ← Json.defaulted fields "data" [] (Json.list? DataConstraint.deserialize)
  let required ← Json.required fields "required" Json.bool?
  let requiresWrappedNativeTokens ←
    Json.defaulted fields "requires_wrapped_native_tokens" false Json.bool?
  return { program, accounts, data, required, requiresWrappedNativeTokens }

end InstructionConstraint

/-! ## Swap rates

Rates are doubles, here in terms of their bits: those of the positive ones are in their order, the
negative ones have the sign bit, and what lies above infinity is not a number. -/

namespace MintSwapRate

def oneBits : UInt64 := 0x3ff0000000000000
def infinityBits : UInt64 := 0x7ff0000000000000
def signBit : UInt64 := 0x8000000000000000

/-- `clamp(0.0, 1.0)`: neither a negative zero nor what is not a number changes. -/
def clampRate (rate : UInt64) : UInt64 :=
  if infinityBits < rate % signBit then rate
  else if signBit < rate then 0
  else if oneBits < rate ∧ rate < signBit then oneBits
  else rate

/-- A rate is written as a number if it is finite. -/
def serializeRate (rate : UInt64) : Json :=
  if rate % signBit < infinityBits then .float rate else .null

/-- The rate that is read, clamped. An integer, as a double and clamped, is 0 or 1. -/
def deserializeRate : Json → Option UInt64
  | .float rate => some (clampRate rate)
  | .number n => some (if n ≤ 0 then 0 else oneBits)
  | _ => none

def serialize (r : MintSwapRate) : Json :=
  .object [("mint", .string r.mint.toString), ("rate", serializeRate r.rate)]

def deserialize (json : Json) : Option MintSwapRate := do
  let fields ← json.fields? ["mint", "rate"]
  let mint ← Json.required fields "mint" displayFromStr?
  let rate ← Json.required fields "rate" deserializeRate
  return { mint, rate }

/-- A rate from 0 to 1, as `MintSwapRate::new` leaves every rate that is a number. -/
def InRange (r : MintSwapRate) : Prop := r.rate ≤ oneBits ∨ r.rate = signBit

instance (r : MintSwapRate) : Decidable r.InRange :=
  inferInstanceAs (Decidable (r.rate ≤ oneBits ∨ r.rate = signBit))

end MintSwapRate

/-! ## Round trips -/

@[simp] theorem displayFromStr?_toString (key : Pubkey) :
    displayFromStr? (.string key.toString) = some key := Pubkey.fromStr_toString key

theorem SubstantiveProgramId.fromStr_eq_ok {s : String} {program : SubstantiveProgramId} :
    fromStr s = .ok program ↔ Pubkey.fromStr s = some program.pubkey := by
  unfold fromStr
  simp only [bind_eq_ok, okOr_eq_ok]
  constructor
  · rintro ⟨pubkey, hpubkey, h⟩
    split at h
    · cases pure_eq_ok.1 h
      exact hpubkey
    · exact absurd h throw_ne_ok
  · intro h
    exact ⟨program.pubkey, h, by rw [dif_pos program.substantive]; rfl⟩

@[simp] theorem SubstantiveProgramId.displayFromStr?_toString (program : SubstantiveProgramId) :
    displayFromStr? (.string program.pubkey.toString) = some program := by
  apply toOption_eq_some.2
  exact fromStr_eq_ok.2 (Pubkey.fromStr_toString program.pubkey)

@[simp] theorem ContextualPubkey.deserialize_serialize (c : ContextualPubkey) :
    deserialize c.serialize = some c := by
  cases c <;> simp [serialize, deserialize, Json.variant?, Json.members?, Json.required, ofUnit,
    Json.isUnit]

@[simp] theorem AccountConstraint.deserialize_serialize (c : AccountConstraint) :
    deserialize c.serialize = some c := by
  have hlist (cs : List ContextualPubkey) :=
    Json.list?_map cs fun c _ => ContextualPubkey.deserialize_serialize c
  simp [serialize, deserialize, Json.fields?, Json.required, Json.defaulted, List.lookup_cons, hlist]

@[simp] theorem deserializePubkey_serializePubkey (key : Pubkey) :
    deserializePubkey (serializePubkey key) = some key := by
  have hlist := Json.list?_map key.bytes fun b _ => Json.u8?_ofNat b
  rw [deserializePubkey, serializePubkey, hlist]
  exact FixedBytes.ofBytes?_bytes key

theorem stripHexMark_mark (s : String) : stripHexMark ("0x" ++ s) = s := by
  have h : ("0x" ++ s).toList = '0' :: 'x' :: s.toList := String.toList_append
  rw [stripHexMark, h]
  exact String.ofList_toList

@[simp] theorem NttSignedQuoter.deserialize_serialize (address : H160) :
    deserialize (serialize address) = some address := by
  simp [serialize, deserialize, Json.string?, stripHexMark_mark, Hex.decode_encode, Except.toOption]

@[simp] theorem DataValue.deserialize_serialize (value : DataValue) :
    deserialize value.serialize = some value := by
  cases value <;> simp [serialize, deserialize, List.lookup_cons, Json.bool?, Json.string?]

@[simp] theorem DataConstraintSpecification.deserialize_serialize
    (spec : DataConstraintSpecification) : deserialize spec.serialize = some spec := by
  have hlist (values : List DataValue) :=
    Json.list?_map values fun value _ => DataValue.deserialize_serialize value
  cases spec <;> simp [serialize, deserialize, List.lookup_cons, hlist]

@[simp] theorem DataConstraint.deserialize_serialize (c : DataConstraint) :
    deserialize c.serialize = some c := by
  simp [serialize, deserialize, Json.fields?, Json.required, List.lookup_cons]

@[simp] theorem InstructionConstraint.deserialize_serialize (c : InstructionConstraint) :
    deserialize c.serialize = some c := by
  have haccounts :=
    Json.list?_map c.accounts fun a _ => AccountConstraint.deserialize_serialize a
  have hdata := Json.list?_map c.data fun d _ => DataConstraint.deserialize_serialize d
  simp [serialize, deserialize, Json.fields?, Json.required, Json.defaulted, List.lookup_cons,
    haccounts, hdata, Json.bool?]

/-- A rate from 0 to 1 is finite and is not changed by clamping. -/
theorem MintSwapRate.deserializeRate_serializeRate {r : MintSwapRate} (h : r.InRange) :
    deserializeRate (serializeRate r.rate) = some r.rate := by
  have hfinite : r.rate % signBit < infinityBits := by
    rcases h with h | h
    · simp only [UInt64.lt_iff_toNat_lt, UInt64.toNat_mod, UInt64.le_iff_toNat_le, oneBits, signBit,
        infinityBits, UInt64.reduceToNat] at h ⊢
      omega
    · rw [h]
      decide
  have hclamp : clampRate r.rate = r.rate := by
    have hmagnitude : ¬ infinityBits < r.rate % signBit := by
      simp only [UInt64.lt_iff_toNat_lt] at hfinite ⊢
      omega
    rw [clampRate, if_neg hmagnitude]
    rcases h with h | h
    · simp only [UInt64.lt_iff_toNat_lt, UInt64.le_iff_toNat_le, oneBits, signBit,
        UInt64.reduceToNat] at h ⊢
      rw [if_neg (by omega), if_neg (by omega)]
    · rw [h]
      decide
  rw [serializeRate, if_pos hfinite, deserializeRate, hclamp]

theorem MintSwapRate.deserialize_serialize {r : MintSwapRate} (h : r.InRange) :
    deserialize r.serialize = some r := by
  simp [serialize, deserialize, Json.fields?, Json.required, List.lookup_cons,
    deserializeRate_serializeRate h]

end FogoSessions.Paymaster
