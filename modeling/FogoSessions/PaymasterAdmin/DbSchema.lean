import FogoSessions.Lib.Hex
import FogoSessions.Lib.Json

/-!
# The schema of the admin application

`apps/paymaster-admin/src/db-schema.ts`: what the admin application accepts as the instruction
constraints of a variation, and the JSON it stores of them. An accepted value is of the type the
schema infers, which carries what the checks have established; keys that a schema does not name are
stripped.
-/

namespace FogoSessions.PaymasterAdmin

open Lib

/-! ## Combinators -/

section

variable {α : Type}

/-- `z.union`: the output of the first schema that accepts. -/
def union (schemas : List (Json → Option α)) (json : Json) : Option α :=
  schemas.findSome? fun schema => schema json

/-- `z.object` with one key. -/
def objectOf (key : String) (schema : Json → Option α) (json : Json) : Option α := do
  Json.required (← json.members?) key schema

/-- `.optional()` -/
def optional (fields : List (String × Json)) (key : String) (schema : Json → Option α) :
    Option (Option α) :=
  Json.defaulted fields key none fun json => (schema json).map some

/-- `z.literal` -/
def literal (text : String) (value : α) : Json → Option α
  | .string s => if s = text then some value else none
  | _ => none

end

/-! ## Primitive values -/

/-- A range of a character class. -/
def InRange (first last c : Char) : Prop := first.toNat ≤ c.toNat ∧ c.toNat ≤ last.toNat

instance (first last c : Char) : Decidable (InRange first last c) :=
  inferInstanceAs (Decidable (first.toNat ≤ c.toNat ∧ c.toNat ≤ last.toNat))

/-- The character class `[1-9A-HJ-NP-Za-km-z]`. -/
def IsBase58Char (c : Char) : Prop :=
  InRange '1' '9' c ∨ InRange 'A' 'H' c ∨ InRange 'J' 'N' c ∨ InRange 'P' 'Z' c ∨
    InRange 'a' 'k' c ∨ InRange 'm' 'z' c

instance (c : Char) : Decidable (IsBase58Char c) :=
  inferInstanceAs (Decidable (InRange '1' '9' c ∨ InRange 'A' 'H' c ∨ InRange 'J' 'N' c ∨
    InRange 'P' 'Z' c ∨ InRange 'a' 'k' c ∨ InRange 'm' 'z' c))

def IsBase58 (text : String) : Prop := ∀ c ∈ text.toList, IsBase58Char c

instance (text : String) : Decidable (IsBase58 text) := List.decidableBAll IsBase58Char text.toList

/-- A text of 32 to 44 base58 characters, which need not denote a key. -/
structure Base58Pubkey where
  text : String
  chars : IsBase58 text
  min : 32 ≤ text.length
  max : text.length ≤ 44

def base58Pubkey : Json → Option Base58Pubkey
  | .string text =>
    if h : IsBase58 text ∧ 32 ≤ text.length ∧ text.length ≤ 44 then
      some ⟨text, h.1, h.2.1, h.2.2⟩
    else none
  | _ => none

/-- The character class `[0-9a-fA-F]`. -/
def IsHex (text : String) : Prop := ∀ c ∈ text.toList, Hex.IsDigitCode c.toNat

instance (text : String) : Decidable (IsHex text) :=
  List.decidableBAll (fun c : Char => Hex.IsDigitCode c.toNat) text.toList

/-- A text of hexadecimal digits, of any number. -/
structure HexText where
  text : String
  digits : IsHex text

def hexText : Json → Option HexText
  | .string text =>
    if h : IsHex text then some ⟨text, h⟩ else none
  | _ => none

/-- `0x` and 40 hexadecimal digits. -/
structure AddressText extends HexText where
  length : text.length = 40

def addressText : Json → Option AddressText
  | .string text =>
    match text.toList with
    | '0' :: 'x' :: rest =>
      if h : IsHex (String.ofList rest) ∧ (String.ofList rest).length = 40 then
        some { text := String.ofList rest, digits := h.1, length := h.2 }
      else none
    | _ => none
  | _ => none

def maxSafeInteger : Nat := 9007199254740991

/-- An integer that a number represents exactly. -/
structure SafeInteger where
  value : Nat
  le : value ≤ maxSafeInteger

/-- `z.number().int().min(0).max(Number.MAX_SAFE_INTEGER)` -/
def u64 : Json → Option SafeInteger
  | .number n => if h : 0 ≤ n ∧ n.toNat ≤ maxSafeInteger then some ⟨n.toNat, h.2⟩ else none
  | _ => none

inductive PrimitiveDataValue where
  | u8 (value : UInt8)
  | u16 (value : UInt16)
  | u32 (value : UInt32)
  | u64 (value : SafeInteger)
  | bool (value : Bool)
  | pubkey (key : Base58Pubkey)
  | bytes (hex : HexText)
  | nttSignedQuoter (address : AddressText)

def primitiveDataValueSchema : Json → Option PrimitiveDataValue := union [
  objectOf "U8" fun json => json.u8?.map .u8,
  objectOf "U16" fun json => json.u16?.map .u16,
  objectOf "U32" fun json => json.u32?.map .u32,
  objectOf "U64" fun json => (u64 json).map .u64,
  objectOf "Bool" fun json => json.bool?.map .bool,
  objectOf "Pubkey" fun json => (base58Pubkey json).map .pubkey,
  objectOf "Bytes" fun json => (hexText json).map .bytes,
  objectOf "NttSignedQuoter" fun json => (addressText json).map .nttSignedQuoter]

inductive PrimitiveDataType where
  | u8
  | u16
  | u32
  | u64
  | bool
  | pubkey
  | bytes (length : SafeInteger)

def primitiveDataTypeSchema : Json → Option PrimitiveDataType := union [
  literal "U8" .u8, literal "U16" .u16, literal "U32" .u32, literal "U64" .u64,
  literal "Bool" .bool, literal "Pubkey" .pubkey,
  objectOf "Bytes" (objectOf "length" fun json => (u64 json).map .bytes)]

/-! ## Constraints -/

inductive DataConstraintSpecification where
  | lessThan (value : PrimitiveDataValue)
  | greaterThan (value : PrimitiveDataValue)
  | equalTo (values : List PrimitiveDataValue) (nonempty : values ≠ [])
  | neq (values : List PrimitiveDataValue) (nonempty : values ≠ [])

/-- `z.array(PrimitiveDataValueSchema).min(1)` -/
def valuesSchema (json : Json) : Option { values : List PrimitiveDataValue // values ≠ [] } := do
  let values ← json.list? primitiveDataValueSchema
  if h : values ≠ [] then some ⟨values, h⟩ else none

def dataConstraintSpecificationSchema : Json → Option DataConstraintSpecification := union [
  objectOf "LessThan" fun json => (primitiveDataValueSchema json).map .lessThan,
  objectOf "GreaterThan" fun json => (primitiveDataValueSchema json).map .greaterThan,
  objectOf "EqualTo" fun json => (valuesSchema json).map fun v => .equalTo v.1 v.2,
  objectOf "Neq" fun json => (valuesSchema json).map fun v => .neq v.1 v.2]

structure DataConstraint where
  constraint : DataConstraintSpecification
  dataType : Option PrimitiveDataType
  startByte : UInt16

def dataConstraintSchema (json : Json) : Option DataConstraint := do
  let fields ← json.members?
  let constraint ← Json.required fields "constraint" dataConstraintSpecificationSchema
  let dataType ← optional fields "data_type" primitiveDataTypeSchema
  let startByte ← Json.required fields "start_byte" Json.u16?
  return { constraint, dataType, startByte }

inductive ContextualPubkey where
  | explicit (pubkey : Base58Pubkey)
  | sponsor
  | nonFeePayerSigner
  | domainRegistry

def contextualPubkeySchema : Json → Option ContextualPubkey := union [
  objectOf "Explicit" (objectOf "pubkey" fun json => (base58Pubkey json).map .explicit),
  literal "Sponsor" .sponsor,
  literal "NonFeePayerSigner" .nonFeePayerSigner,
  literal "DomainRegistry" .domainRegistry]

structure AccountConstraint where
  excludes : List ContextualPubkey
  includes : List ContextualPubkey
  index : UInt16

def accountConstraintSchema (json : Json) : Option AccountConstraint := do
  let fields ← json.members?
  let excludes ← Json.defaulted fields "exclude" [] (Json.list? contextualPubkeySchema)
  let includes ← Json.defaulted fields "include" [] (Json.list? contextualPubkeySchema)
  let index ← Json.required fields "index" Json.u16?
  return { excludes, includes, index }

structure InstructionConstraint where
  accounts : List AccountConstraint
  data : List DataConstraint
  program : Base58Pubkey
  required : Bool
  requiresWrappedNativeTokens : Option Bool

def instructionConstraintSchema (json : Json) : Option InstructionConstraint := do
  let fields ← json.members?
  let accounts ← Json.defaulted fields "accounts" [] (Json.list? accountConstraintSchema)
  let data ← Json.defaulted fields "data" [] (Json.list? dataConstraintSchema)
  let program ← Json.required fields "program" base58Pubkey
  let required ← Json.required fields "required" Json.bool?
  let requiresWrappedNativeTokens ← optional fields "requires_wrapped_native_tokens" Json.bool?
  return { accounts, data, program, required, requiresWrappedNativeTokens }

abbrev TransactionVariations := List InstructionConstraint

def transactionVariations : Json → Option TransactionVariations :=
  Json.list? instructionConstraintSchema

/-! ## The stored JSON

`JSON.stringify` of a value; what is undefined is left out. -/

def PrimitiveDataValue.toJson : PrimitiveDataValue → Json
  | u8 v => .object [("U8", .ofNat v.toNat)]
  | u16 v => .object [("U16", .ofNat v.toNat)]
  | u32 v => .object [("U32", .ofNat v.toNat)]
  | u64 v => .object [("U64", .ofNat v.value)]
  | bool v => .object [("Bool", .bool v)]
  | pubkey key => .object [("Pubkey", .string key.text)]
  | bytes hex => .object [("Bytes", .string hex.text)]
  | nttSignedQuoter address => .object [("NttSignedQuoter", .string ("0x" ++ address.text))]

def PrimitiveDataType.toJson : PrimitiveDataType → Json
  | u8 => .string "U8"
  | u16 => .string "U16"
  | u32 => .string "U32"
  | u64 => .string "U64"
  | bool => .string "Bool"
  | pubkey => .string "Pubkey"
  | bytes length => .object [("Bytes", .object [("length", .ofNat length.value)])]

def DataConstraintSpecification.toJson : DataConstraintSpecification → Json
  | lessThan value => .object [("LessThan", value.toJson)]
  | greaterThan value => .object [("GreaterThan", value.toJson)]
  | equalTo values _ => .object [("EqualTo", .array (values.map PrimitiveDataValue.toJson))]
  | neq values _ => .object [("Neq", .array (values.map PrimitiveDataValue.toJson))]

/-- A field that is left out when it is undefined. -/
def optionalField {α : Type} (key : String) (toJson : α → Json) :
    Option α → List (String × Json)
  | some value => [(key, toJson value)]
  | none => []

def DataConstraint.toJson (c : DataConstraint) : Json :=
  .object (("constraint", c.constraint.toJson) ::
    optionalField "data_type" PrimitiveDataType.toJson c.dataType ++
    [("start_byte", .ofNat c.startByte.toNat)])

def ContextualPubkey.toJson : ContextualPubkey → Json
  | explicit pubkey => .object [("Explicit", .object [("pubkey", .string pubkey.text)])]
  | sponsor => .string "Sponsor"
  | nonFeePayerSigner => .string "NonFeePayerSigner"
  | domainRegistry => .string "DomainRegistry"

def AccountConstraint.toJson (c : AccountConstraint) : Json :=
  .object [
    ("exclude", .array (c.excludes.map ContextualPubkey.toJson)),
    ("include", .array (c.includes.map ContextualPubkey.toJson)),
    ("index", .ofNat c.index.toNat)]

def InstructionConstraint.toJson (c : InstructionConstraint) : Json :=
  .object ([
    ("accounts", .array (c.accounts.map AccountConstraint.toJson)),
    ("data", .array (c.data.map DataConstraint.toJson)),
    ("program", .string c.program.text),
    ("required", .bool c.required)] ++
    optionalField "requires_wrapped_native_tokens" .bool c.requiresWrappedNativeTokens)

def TransactionVariations.toJson (variations : TransactionVariations) : Json :=
  .array (variations.map InstructionConstraint.toJson)

/-! ## What is stored is accepted again -/

@[simp] theorem union_nil {α : Type} (json : Json) : union ([] : List (Json → Option α)) json = none :=
  rfl

@[simp] theorem union_cons {α : Type} (schema : Json → Option α) (schemas : List (Json → Option α))
    (json : Json) : union (schema :: schemas) json = (schema json).or (union schemas json) := by
  rw [union, List.findSome?_cons]
  cases schema json <;> rfl

@[simp] theorem objectOf_object {α : Type} (key : String) (schema : Json → Option α)
    (fields : List (String × Json)) :
    objectOf key schema (.object fields) = (fields.lookup key).bind schema := rfl

@[simp] theorem objectOf_string {α : Type} (key : String) (schema : Json → Option α) (s : String) :
    objectOf key schema (.string s) = none := rfl

@[simp] theorem base58Pubkey_text (key : Base58Pubkey) :
    base58Pubkey (.string key.text) = some key := dif_pos ⟨key.chars, key.min, key.max⟩

@[simp] theorem hexText_text (hex : HexText) : hexText (.string hex.text) = some hex :=
  dif_pos hex.digits

@[simp] theorem addressText_text (address : AddressText) :
    addressText (.string ("0x" ++ address.text)) = some address := by
  have htext : ("0x" ++ address.text).toList = '0' :: 'x' :: address.text.toList :=
    String.toList_append
  have hrest : String.ofList address.text.toList = address.text := String.ofList_toList
  simp only [addressText, htext, hrest]
  exact dif_pos ⟨address.digits, address.length⟩

@[simp] theorem u64_ofNat (n : SafeInteger) : u64 (.ofNat n.value) = some n := by
  have hle : (0 : Int) ≤ (n.value : Int) ∧ (n.value : Int).toNat ≤ maxSafeInteger :=
    ⟨Int.natCast_nonneg _, n.le⟩
  exact dif_pos hle

@[simp] theorem primitiveDataValueSchema_toJson (value : PrimitiveDataValue) :
    primitiveDataValueSchema value.toJson = some value := by
  cases value <;> simp [primitiveDataValueSchema, PrimitiveDataValue.toJson, List.lookup_cons, Json.bool?]

@[simp] theorem primitiveDataTypeSchema_toJson (type : PrimitiveDataType) :
    primitiveDataTypeSchema type.toJson = some type := by
  cases type <;> simp [primitiveDataTypeSchema, PrimitiveDataType.toJson, literal]

theorem valuesSchema_toJson {values : List PrimitiveDataValue} (h : values ≠ []) :
    valuesSchema (.array (values.map PrimitiveDataValue.toJson)) = some ⟨values, h⟩ := by
  have hvalues := Json.list?_map values fun value _ => primitiveDataValueSchema_toJson value
  simp [valuesSchema, hvalues, h]

@[simp] theorem dataConstraintSpecificationSchema_toJson (spec : DataConstraintSpecification) :
    dataConstraintSpecificationSchema spec.toJson = some spec := by
  cases spec <;> simp [dataConstraintSpecificationSchema, DataConstraintSpecification.toJson,
    List.lookup_cons, valuesSchema_toJson, *]

@[simp] theorem dataConstraintSchema_toJson (c : DataConstraint) :
    dataConstraintSchema c.toJson = some c := by
  obtain ⟨constraint, dataType, startByte⟩ := c
  cases dataType <;> simp [dataConstraintSchema, DataConstraint.toJson, Json.members?, Json.required,
    optional, Json.defaulted, optionalField, List.lookup_cons]

@[simp] theorem contextualPubkeySchema_toJson (key : ContextualPubkey) :
    contextualPubkeySchema key.toJson = some key := by
  cases key <;> simp [contextualPubkeySchema, ContextualPubkey.toJson, literal]

@[simp] theorem accountConstraintSchema_toJson (c : AccountConstraint) :
    accountConstraintSchema c.toJson = some c := by
  have hlist (keys : List ContextualPubkey) :=
    Json.list?_map keys fun key _ => contextualPubkeySchema_toJson key
  simp [accountConstraintSchema, AccountConstraint.toJson, Json.members?, Json.required,
    Json.defaulted, List.lookup_cons, hlist]

@[simp] theorem instructionConstraintSchema_toJson (c : InstructionConstraint) :
    instructionConstraintSchema c.toJson = some c := by
  obtain ⟨accounts, data, program, required, wrapped⟩ := c
  have haccounts := Json.list?_map accounts fun a _ => accountConstraintSchema_toJson a
  have hdata := Json.list?_map data fun d _ => dataConstraintSchema_toJson d
  cases wrapped <;> simp [instructionConstraintSchema, InstructionConstraint.toJson, Json.members?,
    Json.required, optional, Json.defaulted, optionalField, List.lookup_cons, haccounts, hdata,
    Json.bool?]

/-- A stored value is accepted as it is. -/
theorem transactionVariations_toJson (variations : TransactionVariations) :
    transactionVariations variations.toJson = some variations :=
  Json.list?_map variations fun c _ => instructionConstraintSchema_toJson c

end FogoSessions.PaymasterAdmin
