import FogoSessions.Paymaster.Database
import FogoSessions.Paymaster.DataRefinement
import FogoSessions.PaymasterAdmin.DbSchema

/-!
# Which accepted variations the paymaster enforces

The schema of the admin application and the reader of the paymaster are two definitions of one
format. Here is exactly which of the values that the schema accepts are loaded and converted: those
whose texts denote keys, whose program is one that constraints apply to, and whose data values the
reader knows and can compare.
-/

namespace FogoSessions.PaymasterAdmin

open Lib Solana

/-! ## What is enforceable -/

/-- What a value is compared as. -/
inductive Shape where
  | u8
  | u16
  | u32
  | u64
  | bool
  | bytes (length : Nat)
  | nttSignedQuoter
deriving DecidableEq

def Shape.IsInteger : Shape → Prop
  | u8 => True
  | u16 => True
  | u32 => True
  | u64 => True
  | _ => False

/-- A key has none, and neither has an odd number of hexadecimal digits. -/
def PrimitiveDataValue.shape? : PrimitiveDataValue → Option Shape
  | u8 _ => some .u8
  | u16 _ => some .u16
  | u32 _ => some .u32
  | u64 _ => some .u64
  | bool _ => some .bool
  | pubkey _ => none
  | bytes hex => if hex.text.length % 2 = 0 then some (.bytes (hex.text.length / 2)) else none
  | nttSignedQuoter _ => some .nttSignedQuoter

/-- A bound is an integer; the values of a list are of one shape. -/
def DataConstraintSpecification.Enforceable : DataConstraintSpecification → Prop
  | lessThan value => ∃ shape, value.shape? = some shape ∧ shape.IsInteger
  | greaterThan value => ∃ shape, value.shape? = some shape ∧ shape.IsInteger
  | equalTo values _ => ∃ shape, ∀ value ∈ values, value.shape? = some shape
  | neq values _ => ∃ shape, ∀ value ∈ values, value.shape? = some shape

/-- A key that is written out is one. -/
def ContextualPubkey.Enforceable : ContextualPubkey → Prop
  | explicit pubkey => ∃ key, Pubkey.fromStr pubkey.text = some key
  | _ => True

structure InstructionConstraint.Enforceable (c : InstructionConstraint) : Prop where
  program : ∃ key, Pubkey.fromStr c.program.text = some key ∧ key ∉ Paymaster.nonSubstantiveProgramIds
  excludes : ∀ account ∈ c.accounts, ∀ key ∈ account.excludes, key.Enforceable
  includes : ∀ account ∈ c.accounts, ∀ key ∈ account.includes, key.Enforceable
  data : ∀ constraint ∈ c.data, constraint.constraint.Enforceable

def TransactionVariations.Enforceable (variations : TransactionVariations) : Prop :=
  ∀ c ∈ variations, c.Enforceable

/-! ## Values -/

/-- A text of digits has no `0x`. -/
theorem stripHexMark_digits (hex : HexText) : Paymaster.stripHexMark hex.text = hex.text := by
  unfold Paymaster.stripHexMark
  split
  · rename_i rest htext
    have hx := hex.digits 'x' (by rw [htext]; simp)
    exact absurd hx (by decide)
  · rfl

theorem decodeHexBytes_digits (hex : HexText) (length : Nat) :
    (∃ bytes, Paymaster.decodeHexBytes hex.text = .ok bytes ∧ bytes.length = length) ↔
      hex.text.length = 2 * length := by
  rw [← Hex.decode_eq_ok_iff hex.digits]
  simp only [Paymaster.decodeHexBytes, mapErr_eq_ok, stripHexMark_digits]

/-- Forty digits are an address. -/
theorem exists_address (address : AddressText) :
    ∃ quoter, Paymaster.NttSignedQuoter.deserialize (.string ("0x" ++ address.text)) = some quoter := by
  obtain ⟨bytes, hbytes, hlength⟩ :=
    (Hex.decode_eq_ok_iff address.digits 20).2 address.length
  refine ⟨⟨bytes, hlength⟩, ?_⟩
  simp [Paymaster.NttSignedQuoter.deserialize, Json.string?, Paymaster.stripHexMark_mark, hbytes,
    Except.toOption, FixedBytes.ofBytes?, hlength]

namespace Shape

/-- The type that values of the shape have for the paymaster. -/
def type : Shape → Paymaster.DataType
  | u8 => .u8
  | u16 => .u16
  | u32 => .u32
  | u64 => .u64
  | bool => .bool
  | bytes _ => .bytes
  | nttSignedQuoter => .nttSignedQuoter

/-- The length that values of the shape have for the paymaster. -/
def length : Shape → Nat
  | u8 => 1
  | u16 => 2
  | u32 => 4
  | u64 => 8
  | bool => 1
  | bytes length => length
  | nttSignedQuoter => 165

theorem eq_of_type_of_length {s t : Shape} (htype : s.type = t.type) (hlength : s.length = t.length) :
    s = t := by
  cases s <;> cases t <;> first | rfl | exact congrArg bytes hlength | cases htype

end Shape

/-- What the reader makes of a stored value. -/
def PrimitiveDataValue.Reads (value : PrimitiveDataValue) (x : Paymaster.DataValue) : Prop :=
  Paymaster.DataValue.deserialize value.toJson = some x

/-- A key is written as a text and read as an array. -/
theorem not_reads_pubkey {value : PrimitiveDataValue} {key : Pubkey} :
    ¬ value.Reads (.pubkey key) := by
  cases value <;> simp [PrimitiveDataValue.Reads, Paymaster.DataValue.deserialize,
    PrimitiveDataValue.toJson, List.lookup_cons, Paymaster.deserializePubkey, Json.list?]

theorem shape?_eq_some_of_reads {value : PrimitiveDataValue} {x : Paymaster.DataValue} {s : Shape}
    (hread : value.Reads x) (hshape : value.shape? = some s) (htype : x.type = s.type)
    (hlength : x.byteLength? = some s.length) {shape : Shape} :
    value.shape? = some shape ↔
      ∃ x, value.Reads x ∧ x.type = shape.type ∧ x.byteLength? = some shape.length := by
  constructor
  · intro h
    cases hshape.symm.trans h
    exact ⟨x, hread, htype, hlength⟩
  · rintro ⟨y, hy, htype', hlength'⟩
    cases hread.symm.trans hy
    rw [hshape, Shape.eq_of_type_of_length (htype.symm.trans htype')
      (Option.some.inj (hlength.symm.trans hlength'))]

/-- The values of a shape are those that are read with its type and length. -/
theorem shape?_eq_some {value : PrimitiveDataValue} {shape : Shape} :
    value.shape? = some shape ↔
      ∃ x, value.Reads x ∧ x.type = shape.type ∧ x.byteLength? = some shape.length := by
  cases value with
  | u8 v =>
    have hread : (PrimitiveDataValue.u8 v).Reads (.u8 v) :=
      Paymaster.DataValue.deserialize_serialize (.u8 v)
    exact shape?_eq_some_of_reads hread rfl rfl rfl
  | u16 v =>
    have hread : (PrimitiveDataValue.u16 v).Reads (.u16 v) :=
      Paymaster.DataValue.deserialize_serialize (.u16 v)
    exact shape?_eq_some_of_reads hread rfl rfl rfl
  | u32 v =>
    have hread : (PrimitiveDataValue.u32 v).Reads (.u32 v) :=
      Paymaster.DataValue.deserialize_serialize (.u32 v)
    exact shape?_eq_some_of_reads hread rfl rfl rfl
  | u64 v =>
    have hlt : v.value < UInt64.size := lt_of_le_of_lt v.le (by decide)
    have hread : (PrimitiveDataValue.u64 v).Reads (.u64 (UInt64.ofNat v.value)) := by
      simp [PrimitiveDataValue.Reads, Paymaster.DataValue.deserialize, PrimitiveDataValue.toJson,
        List.lookup_cons, Json.u64?, Json.natBelow?_ofNat hlt]
    exact shape?_eq_some_of_reads hread rfl rfl rfl
  | bool v =>
    have hread : (PrimitiveDataValue.bool v).Reads (.bool v) :=
      Paymaster.DataValue.deserialize_serialize (.bool v)
    exact shape?_eq_some_of_reads hread rfl rfl rfl
  | pubkey key =>
    -- the reader takes the array of the bytes of a key, not its text
    have hread (x : Paymaster.DataValue) : ¬ (PrimitiveDataValue.pubkey key).Reads x := by
      simp [PrimitiveDataValue.Reads, Paymaster.DataValue.deserialize, PrimitiveDataValue.toJson,
        List.lookup_cons, Paymaster.deserializePubkey, Json.list?]
    simp [PrimitiveDataValue.shape?, hread]
  | bytes hex =>
    have hread : (PrimitiveDataValue.bytes hex).Reads (.bytes hex.text) :=
      Paymaster.DataValue.deserialize_serialize (.bytes hex.text)
    have hlength (length : Nat) : (Paymaster.DataValue.bytes hex.text).byteLength? = some length ↔
        hex.text.length = 2 * length :=
      Paymaster.byteLength?_bytes.trans (decodeHexBytes_digits hex length)
    by_cases heven : hex.text.length % 2 = 0
    · refine shape?_eq_some_of_reads hread (if_pos heven) rfl ((hlength _).2 ?_)
      change _ = 2 * (hex.text.length / 2)
      omega
    · rw [PrimitiveDataValue.shape?, if_neg heven]
      constructor
      · intro h
        cases h
      · rintro ⟨x, hx, _, hx'⟩
        cases hread.symm.trans hx
        have hodd := (hlength _).1 hx'
        omega
  | nttSignedQuoter address =>
    obtain ⟨quoter, hquoter⟩ := exists_address address
    have hread : (PrimitiveDataValue.nttSignedQuoter address).Reads (.nttSignedQuoter quoter) := by
      simp [PrimitiveDataValue.Reads, Paymaster.DataValue.deserialize, PrimitiveDataValue.toJson,
        List.lookup_cons, hquoter]
    exact shape?_eq_some_of_reads hread rfl rfl rfl

/-- Whatever is read with a length has a shape. -/
theorem exists_shape {value : PrimitiveDataValue} {x : Paymaster.DataValue} {length : Nat}
    (hread : value.Reads x) (hlength : x.byteLength? = some length) :
    ∃ shape : Shape, shape.type = x.type ∧ shape.length = length := by
  cases x with
  | u8 _ => exact ⟨.u8, rfl, Option.some.inj hlength⟩
  | u16 _ => exact ⟨.u16, rfl, Option.some.inj hlength⟩
  | u32 _ => exact ⟨.u32, rfl, Option.some.inj hlength⟩
  | u64 _ => exact ⟨.u64, rfl, Option.some.inj hlength⟩
  | bool _ => exact ⟨.bool, rfl, Option.some.inj hlength⟩
  | pubkey key => exact absurd hread not_reads_pubkey
  | bytes _ => exact ⟨.bytes length, rfl, rfl⟩
  | nttSignedQuoter _ => exact ⟨.nttSignedQuoter, rfl, Option.some.inj hlength⟩

/-! ## Specifications -/

/-- The bounds are those that are read as integers. -/
theorem enforceable_bound {value : PrimitiveDataValue} :
    (∃ shape, value.shape? = some shape ∧ shape.IsInteger) ↔
      ∃ x, value.Reads x ∧ x.type.IsInteger := by
  have htype (shape : Shape) : shape.IsInteger ↔ shape.type.IsInteger := by cases shape <;> rfl
  constructor
  · rintro ⟨shape, hshape, hinteger⟩
    obtain ⟨x, hx, hxtype, _⟩ := shape?_eq_some.1 hshape
    exact ⟨x, hx, by rw [hxtype, ← htype]; exact hinteger⟩
  · rintro ⟨x, hx, hinteger⟩
    have hlength : ∃ length, x.byteLength? = some length := by
      cases x with
      | bytes _ => exact hinteger.elim
      | _ => exact ⟨_, rfl⟩
    obtain ⟨length, hlength⟩ := hlength
    obtain ⟨shape, hshape, rfl⟩ := exists_shape hx hlength
    exact ⟨shape, shape?_eq_some.2 ⟨x, hx, hshape.symm, hlength⟩, by rwa [htype, hshape]⟩

/-- The lists of values of one shape are those that are read as uniform ones. -/
theorem enforceable_values {values : List PrimitiveDataValue} (hne : values ≠ []) :
    (∃ shape, ∀ value ∈ values, value.shape? = some shape) ↔
      ∃ xs, List.Forall₂ PrimitiveDataValue.Reads values xs ∧ ¬ Paymaster.MalformedValues xs := by
  constructor
  · rintro ⟨shape, hshape⟩
    obtain ⟨xs, hxs, huniform⟩ := Json.exists_list?.2 fun value hvalue =>
      shape?_eq_some.1 (hshape value hvalue)
    rw [Json.list?_array] at hxs
    refine ⟨xs, hxs, Paymaster.not_malformedValues_iff.2 ⟨?_, shape.type, shape.length, huniform⟩⟩
    rintro rfl
    cases hxs
    exact hne rfl
  · rintro ⟨xs, hxs, hwellformed⟩
    obtain ⟨_, type, length, huniform⟩ := Paymaster.not_malformedValues_iff.1 hwellformed
    obtain ⟨first, hfirst⟩ := List.exists_mem_of_ne_nil values hne
    obtain ⟨x, hx, hread⟩ := Table.exists_right hxs hfirst
    obtain ⟨shape, hshape, rfl⟩ := exists_shape hread (huniform x hx).2
    refine ⟨shape, fun value hvalue => shape?_eq_some.2 ?_⟩
    obtain ⟨y, hy, hready⟩ := Table.exists_right hxs hvalue
    obtain ⟨hytype, hylength⟩ := huniform y hy
    exact ⟨y, hready, hytype.trans ((huniform x hx).1.symm.trans hshape.symm), hylength⟩

/-- What the paymaster converts. -/
def Convertible : Paymaster.DataConstraintSpecification → Prop
  | .lessThan value => value.type.IsInteger
  | .greaterThan value => value.type.IsInteger
  | .equalTo values => ¬ Paymaster.MalformedValues values
  | .neq values => ¬ Paymaster.MalformedValues values

theorem convertible_iff {spec : Paymaster.DataConstraintSpecification} :
    (∃ parsed, Paymaster.ParsedDataConstraintSpecification.tryFrom spec = .ok parsed) ↔
      Convertible spec := by
  -- the conversion calls none of the third-party code
  rw [@Paymaster.tryFrom_isOk_iff Paymaster.External.uncalled spec]
  cases spec with
  | lessThan value =>
    exact ⟨fun h => not_not.1 fun hx => h (.lessThan value hx), fun h hx => by cases hx; contradiction⟩
  | greaterThan value =>
    exact ⟨fun h => not_not.1 fun hx => h (.greaterThan value hx),
      fun h hx => by cases hx; contradiction⟩
  | equalTo values => exact not_congr ⟨fun h => by cases h; assumption, .equalTo values⟩
  | neq values => exact not_congr ⟨fun h => by cases h; assumption, .neq values⟩

theorem reads_values {values : List PrimitiveDataValue} {xs : List Paymaster.DataValue} :
    Json.list? Paymaster.DataValue.deserialize (.array (values.map PrimitiveDataValue.toJson)) =
        some xs ↔
      List.Forall₂ PrimitiveDataValue.Reads values xs := Json.list?_array

/-- A stored specification is read and converted if and only if it is enforceable. -/
theorem enforceable_specification {spec : DataConstraintSpecification} :
    (∃ x, Paymaster.DataConstraintSpecification.deserialize spec.toJson = some x ∧
        ∃ parsed, Paymaster.ParsedDataConstraintSpecification.tryFrom x = .ok parsed) ↔
      spec.Enforceable := by
  simp only [convertible_iff]
  cases spec with
  | lessThan value =>
    refine Iff.trans ?_ enforceable_bound.symm
    simp [Paymaster.DataConstraintSpecification.deserialize, DataConstraintSpecification.toJson,
      PrimitiveDataValue.Reads, Convertible]
  | greaterThan value =>
    refine Iff.trans ?_ enforceable_bound.symm
    simp [Paymaster.DataConstraintSpecification.deserialize, DataConstraintSpecification.toJson,
      List.lookup_cons, PrimitiveDataValue.Reads, Convertible]
  | equalTo values hne =>
    refine Iff.trans ?_ (enforceable_values hne).symm
    simp [Paymaster.DataConstraintSpecification.deserialize, DataConstraintSpecification.toJson,
      List.lookup_cons, reads_values, Convertible]
  | neq values hne =>
    refine Iff.trans ?_ (enforceable_values hne).symm
    simp [Paymaster.DataConstraintSpecification.deserialize, DataConstraintSpecification.toJson,
      List.lookup_cons, reads_values, Convertible]

/-! ## Constraints -/

theorem enforceable_dataConstraint {c : DataConstraint} :
    (∃ x, Paymaster.DataConstraint.deserialize c.toJson = some x ∧
        ∃ parsed, Paymaster.ParsedDataConstraint.tryFrom x = .ok parsed) ↔
      c.constraint.Enforceable := by
  have hread : Paymaster.DataConstraint.deserialize c.toJson =
      (Paymaster.DataConstraintSpecification.deserialize c.constraint.toJson).map
        fun spec => ⟨c.startByte, spec⟩ := by
    obtain ⟨constraint, dataType, startByte⟩ := c
    cases dataType <;> simp [Paymaster.DataConstraint.deserialize, DataConstraint.toJson,
      Json.fields?, Json.required, optionalField, List.lookup_cons, Option.map_eq_bind]
  have hconvert (spec : Paymaster.DataConstraintSpecification) :
      (∃ parsed, Paymaster.ParsedDataConstraint.tryFrom ⟨c.startByte, spec⟩ = .ok parsed) ↔
        ∃ parsed, Paymaster.ParsedDataConstraintSpecification.tryFrom spec = .ok parsed := by
    simp only [Paymaster.ParsedDataConstraint.tryFrom, bind_eq_ok, pure_eq_ok]
    constructor
    · rintro ⟨_, parsed, h, _⟩
      exact ⟨parsed, h⟩
    · rintro ⟨parsed, h⟩
      exact ⟨_, parsed, h, rfl⟩
  rw [← enforceable_specification, hread]
  simp [hconvert]

theorem enforceable_contextualPubkey {key : ContextualPubkey} :
    (∃ x, Paymaster.ContextualPubkey.deserialize key.toJson = some x) ↔ key.Enforceable := by
  cases key with
  | explicit pubkey =>
    have hread : Paymaster.ContextualPubkey.deserialize (ContextualPubkey.explicit pubkey).toJson =
        (Pubkey.fromStr pubkey.text).map .explicit := by
      simp [Paymaster.ContextualPubkey.deserialize, ContextualPubkey.toJson, Json.variant?,
        Json.members?, Json.required, Paymaster.displayFromStr?, Json.string?, Option.map_eq_bind]
    simp [hread, ContextualPubkey.Enforceable]
  | _ =>
    simp [Paymaster.ContextualPubkey.deserialize, ContextualPubkey.toJson, Json.variant?,
      Paymaster.ContextualPubkey.ofUnit, Json.isUnit, ContextualPubkey.Enforceable]

theorem enforceable_accountConstraint {c : AccountConstraint} :
    (∃ x, Paymaster.AccountConstraint.deserialize c.toJson = some x) ↔
      (∀ key ∈ c.excludes, key.Enforceable) ∧ ∀ key ∈ c.includes, key.Enforceable := by
  have hkeys (keys : List ContextualPubkey) :
      (∃ xs, Json.list? Paymaster.ContextualPubkey.deserialize
        (.array (keys.map ContextualPubkey.toJson)) = some xs) ↔ ∀ key ∈ keys, key.Enforceable := by
    simp only [Json.list?_isSome, enforceable_contextualPubkey]
  rw [← hkeys, ← hkeys]
  simp [Paymaster.AccountConstraint.deserialize, AccountConstraint.toJson, Json.fields?, Json.required,
    Json.defaulted, List.lookup_cons, Option.bind_eq_some_iff]
  exact and_comm

theorem enforceable_program {key : Base58Pubkey} :
    (∃ program, Paymaster.SubstantiveProgramId.displayFromStr? (.string key.text) = some program) ↔
      ∃ pubkey, Pubkey.fromStr key.text = some pubkey ∧
        pubkey ∉ Paymaster.nonSubstantiveProgramIds := by
  simp only [Paymaster.SubstantiveProgramId.displayFromStr?, Json.string?, Option.bind_some,
    toOption_eq_some, Paymaster.SubstantiveProgramId.fromStr_eq_ok]
  constructor
  · rintro ⟨program, h⟩
    exact ⟨program.pubkey, h, program.substantive⟩
  · rintro ⟨pubkey, h, hsubstantive⟩
    exact ⟨⟨pubkey, hsubstantive⟩, h⟩

/-- Expanding a constraint converts its data constraints. -/
theorem expand_isOk {base : Paymaster.InstructionConstraint} :
    (∃ parsed, Paymaster.expand base = .ok parsed) ↔
      ∀ d ∈ base.data, ∃ parsed, Paymaster.ParsedDataConstraint.tryFrom d = .ok parsed := by
  rw [← mapM_isOk]
  simp only [Paymaster.expand, Paymaster.ParsedInstructionConstraint.tryFrom, bind_eq_ok, pure_eq_ok]
  constructor
  · rintro ⟨_, _, ⟨data, hdata, _⟩, _⟩
    exact ⟨data, hdata⟩
  · rintro ⟨data, hdata⟩
    split
    · exact ⟨_, _, ⟨data, hdata, rfl⟩, rfl⟩
    · exact ⟨_, _, ⟨data, hdata, rfl⟩, rfl⟩

/-- Reading a stored constraint reads its parts. -/
theorem deserialize_toJson (c : InstructionConstraint) :
    Paymaster.InstructionConstraint.deserialize c.toJson = do
      let program ← Paymaster.SubstantiveProgramId.displayFromStr? (.string c.program.text)
      let accounts ← Json.list? Paymaster.AccountConstraint.deserialize
        (.array (c.accounts.map AccountConstraint.toJson))
      let data ← Json.list? Paymaster.DataConstraint.deserialize
        (.array (c.data.map DataConstraint.toJson))
      return {
        program := program
        accounts := accounts
        data := data
        required := c.required
        requiresWrappedNativeTokens := c.requiresWrappedNativeTokens.getD false } := by
  obtain ⟨accounts, data, program, required, wrapped⟩ := c
  cases wrapped <;> simp [Paymaster.InstructionConstraint.deserialize, InstructionConstraint.toJson,
    Json.fields?, Json.required, Json.defaulted, optionalField, List.lookup_cons, Json.bool?]

/-- A stored constraint is read and converted if and only if it is enforceable. -/
theorem enforceable_instructionConstraint {c : InstructionConstraint} :
    (∃ x, Paymaster.InstructionConstraint.deserialize c.toJson = some x ∧
        ∃ parsed, Paymaster.expand x = .ok parsed) ↔ c.Enforceable := by
  have haccounts : (∃ xs, Json.list? Paymaster.AccountConstraint.deserialize
      (.array (c.accounts.map AccountConstraint.toJson)) = some xs) ↔
        ∀ account ∈ c.accounts, (∀ key ∈ account.excludes, key.Enforceable) ∧
          ∀ key ∈ account.includes, key.Enforceable := by
    simp only [Json.list?_isSome, enforceable_accountConstraint]
  have hdata : (∃ xs, Json.list? Paymaster.DataConstraint.deserialize
      (.array (c.data.map DataConstraint.toJson)) = some xs ∧
        ∀ x ∈ xs, ∃ parsed, Paymaster.ParsedDataConstraint.tryFrom x = .ok parsed) ↔
          ∀ constraint ∈ c.data, constraint.constraint.Enforceable := by
    simp only [Json.exists_list?, enforceable_dataConstraint]
  simp only [expand_isOk, deserialize_toJson, bind, Option.bind_eq_some_iff]
  constructor
  · rintro ⟨x, ⟨program, hprogram, accounts, haccounts', data, hdata', hx⟩, hconverts⟩
    cases hx
    have hkeys := haccounts.1 ⟨accounts, haccounts'⟩
    exact {
      program := enforceable_program.1 ⟨program, hprogram⟩
      excludes := fun account haccount => (hkeys account haccount).1
      includes := fun account haccount => (hkeys account haccount).2
      data := hdata.1 ⟨data, hdata', hconverts⟩ }
  · intro h
    obtain ⟨program, hprogram⟩ := enforceable_program.2 h.program
    obtain ⟨accounts, haccounts'⟩ := haccounts.2 fun account haccount =>
      ⟨h.excludes account haccount, h.includes account haccount⟩
    obtain ⟨data, hdata', hconverts⟩ := hdata.2 h.data
    exact ⟨_, ⟨program, hprogram, accounts, haccounts', data, hdata', rfl⟩, hconverts⟩

/-! ## Variations -/

/-- The stored variation is loaded, and what is loaded is converted. -/
def Loads (stored : Json) (name : String) (maxGasSpend : UInt64)
    (paymasterFeeLamports : Option Int64) (swapIntoFogo : Option Json) : Prop :=
  ∃ variation,
    Paymaster.handleTransactionVariationV1 stored name maxGasSpend paymasterFeeLamports
      swapIntoFogo = .ok variation ∧
    ∃ parsed, Paymaster.ParsedTransactionVariation.tryFrom variation = .ok parsed

theorem tryFrom_v1_isOk {v : Paymaster.VariationOrderedInstructionConstraints} :
    (∃ parsed, Paymaster.ParsedTransactionVariation.tryFrom (.v1 v) = .ok parsed) ↔
      ∀ base ∈ v.instructions, ∃ parsed, Paymaster.expand base = .ok parsed := by
  rw [← mapM_isOk]
  simp only [Paymaster.ParsedTransactionVariation.tryFrom, map_eq_ok,
    Paymaster.ParsedVariationOrderedInstructionConstraints.tryFrom, bind_eq_ok, pure_eq_ok]
  constructor
  · rintro ⟨_, _, ⟨constraints, hconstraints, _⟩, _⟩
    exact ⟨constraints, hconstraints⟩
  · rintro ⟨constraints, hconstraints⟩
    exact ⟨_, _, ⟨constraints, hconstraints, rfl⟩, rfl⟩

theorem enforceable_iff_reads {variations : TransactionVariations} :
    (∃ instructions,
        Json.list? Paymaster.InstructionConstraint.deserialize variations.toJson = some instructions ∧
        ∀ base ∈ instructions, ∃ parsed, Paymaster.expand base = .ok parsed) ↔
      variations.Enforceable := by
  simp only [TransactionVariations.toJson, Json.exists_list?, enforceable_instructionConstraint,
    TransactionVariations.Enforceable]

/-- A column that is not negative is read. -/
theorem mapM_u64TryFrom {paymasterFeeLamports : Option Int64}
    (h : ∀ fee ∈ paymasterFeeLamports, 0 ≤ fee.toInt) (e : Paymaster.LoadError) :
    ∃ fee, (paymasterFeeLamports.mapM fun v => okOr (Paymaster.u64TryFrom v) e) = .ok fee := by
  cases paymasterFeeLamports with
  | none => exact ⟨none, rfl⟩
  | some v =>
    have hv : Paymaster.u64TryFrom v = some v.toUInt64 := if_neg (Int.not_lt.2 (h v rfl))
    exact ⟨some v.toUInt64, by rw [Option.mapM_some, hv]; rfl⟩

/-- Beside the constraints, whose conversion is all that can fail, the columns are read. -/
theorem loads_iff {stored : Json} {name : String} {maxGasSpend : UInt64}
    {paymasterFeeLamports : Option Int64} (hfee : ∀ fee ∈ paymasterFeeLamports, 0 ≤ fee.toInt)
    {swapIntoFogo : Option Json}
    (hswap : ∀ json ∈ swapIntoFogo,
      ∃ rates, Json.list? Paymaster.MintSwapRate.deserialize json = some rates) :
    Loads stored name maxGasSpend paymasterFeeLamports swapIntoFogo ↔
      ∃ instructions,
        Json.list? Paymaster.InstructionConstraint.deserialize stored = some instructions ∧
        ∀ base ∈ instructions, ∃ parsed, Paymaster.expand base = .ok parsed := by
  obtain ⟨fee, hfee⟩ := mapM_u64TryFrom hfee
    (.message s!"Invalid paymaster fee lamports: {Paymaster.tryFromIntError}")
  have hread (instructions : List Paymaster.InstructionConstraint)
      (h : Json.list? Paymaster.InstructionConstraint.deserialize stored = some instructions) :
      ∃ rates, Paymaster.handleTransactionVariationV1 stored name maxGasSpend paymasterFeeLamports
        swapIntoFogo = .ok (.v1 ⟨name, instructions, maxGasSpend, fee, rates⟩) := by
    have hinstructions := (okOr_eq_ok (e := Paymaster.LoadError.json)).2 h
    cases swapIntoFogo with
    | none =>
      exact ⟨[], bind_eq_ok.2 ⟨instructions, hinstructions, bind_eq_ok.2 ⟨[], rfl,
        bind_eq_ok.2 ⟨fee, hfee, rfl⟩⟩⟩⟩
    | some json =>
      obtain ⟨rates, hrates⟩ := hswap json rfl
      exact ⟨rates, bind_eq_ok.2 ⟨instructions, hinstructions, bind_eq_ok.2 ⟨rates,
        okOr_eq_ok.2 hrates, bind_eq_ok.2 ⟨fee, hfee, rfl⟩⟩⟩⟩
  constructor
  · rintro ⟨variation, hvariation, hconverts⟩
    obtain ⟨instructions, hinstructions, _⟩ := bind_eq_ok.1 hvariation
    obtain ⟨rates, hread⟩ := hread instructions (okOr_eq_ok.1 hinstructions)
    cases hread.symm.trans hvariation
    exact ⟨instructions, okOr_eq_ok.1 hinstructions, tryFrom_v1_isOk.1 hconverts⟩
  · rintro ⟨instructions, hinstructions, hconverts⟩
    obtain ⟨rates, hread⟩ := hread instructions hinstructions
    exact ⟨_, hread, tryFrom_v1_isOk.2 hconverts⟩

/-- **Which accepted variations are enforced.** A value that the schema accepts, stored in a `v1` row
    whose other columns are valid, is loaded and converted if and only if it is enforceable. -/
theorem accepted_loads_iff {raw : Json} {variations : TransactionVariations}
    (_haccepted : transactionVariations raw = some variations) (name : String)
    (maxGasSpend : UInt64) {paymasterFeeLamports : Option Int64}
    (hfee : ∀ fee ∈ paymasterFeeLamports, 0 ≤ fee.toInt) {swapIntoFogo : Option Json}
    (hswap : ∀ json ∈ swapIntoFogo,
      ∃ rates, Json.list? Paymaster.MintSwapRate.deserialize json = some rates) :
    Loads variations.toJson name maxGasSpend paymasterFeeLamports swapIntoFogo ↔
      variations.Enforceable :=
  (loads_iff hfee hswap).trans enforceable_iff_reads

/-! ### A variation that is enforced and one that is dropped -/

namespace Sample

def tokenProgram : Base58Pubkey where
  text := "TokenkegQfeZyiNwAJbNbGKPFXCWuBvf9Ss623VQ5DA"
  chars := by decide +kernel
  min := by decide
  max := by decide

/-- The wire form of `dropped`. -/
def raw : Json := .array [.object [
  ("program", .string "TokenkegQfeZyiNwAJbNbGKPFXCWuBvf9Ss623VQ5DA"),
  ("data", .array [.object [
    ("start_byte", .number 1),
    ("constraint", .object [("EqualTo", .array [
      .object [("Pubkey", .string "TokenkegQfeZyiNwAJbNbGKPFXCWuBvf9Ss623VQ5DA")]])])]]),
  ("required", .bool true)]]

/-- A constraint that a part of the data is a given key. -/
def dropped : TransactionVariations := [{
  accounts := []
  data := [⟨.equalTo [.pubkey tokenProgram] (List.cons_ne_nil _ _), none, 1⟩]
  program := tokenProgram
  required := true
  requiresWrappedNativeTokens := none }]

theorem raw_accepted : transactionVariations raw = some dropped := by
  have hkey : base58Pubkey (.string "TokenkegQfeZyiNwAJbNbGKPFXCWuBvf9Ss623VQ5DA") =
      some tokenProgram := base58Pubkey_text tokenProgram
  have hvalue : primitiveDataValueSchema
      (.object [("Pubkey", .string "TokenkegQfeZyiNwAJbNbGKPFXCWuBvf9Ss623VQ5DA")]) =
        some (.pubkey tokenProgram) := primitiveDataValueSchema_toJson (.pubkey tokenProgram)
  simp [transactionVariations, raw, Json.list?, instructionConstraintSchema, Json.members?,
    Json.required, Json.defaulted, optional, List.lookup_cons, hkey, dataConstraintSchema, hvalue,
    dataConstraintSpecificationSchema, valuesSchema, Json.bool?, Json.u16?, Json.natBelow?, dropped]

/-- Transfers of up to a million tokens by one of two kinds of instruction. -/
def transfers : TransactionVariations := [{
  accounts := [{ excludes := [.sponsor], includes := [.explicit tokenProgram], index := 0 }]
  data := [
    ⟨.equalTo [.bytes ⟨"0c", by decide +kernel⟩, .bytes ⟨"03", by decide +kernel⟩] (List.cons_ne_nil _ _),
      none, 0⟩,
    ⟨.lessThan (.u64 ⟨1000000, by decide⟩), some .u64, 1⟩]
  program := tokenProgram
  required := true
  requiresWrappedNativeTokens := some true }]

theorem fromStr_tokenProgram : Pubkey.fromStr tokenProgram.text = some Ids.tokenProgram := by
  decide +kernel

theorem transfers_enforceable : transfers.Enforceable := by
  refine List.forall_mem_singleton.2 ⟨?_, ?_, ?_, ?_⟩
  · exact ⟨_, fromStr_tokenProgram, Paymaster.tokenProgram_substantive⟩
  · exact List.forall_mem_singleton.2 (List.forall_mem_singleton.2 trivial)
  · exact List.forall_mem_singleton.2 (List.forall_mem_singleton.2 ⟨_, fromStr_tokenProgram⟩)
  · refine List.forall_mem_cons.2 ⟨⟨.bytes 1, ?_⟩, List.forall_mem_singleton.2 ⟨.u64, rfl, trivial⟩⟩
    exact List.forall_mem_cons.2 ⟨by decide, List.forall_mem_singleton.2 (by decide)⟩

end Sample

/-- A key among the values keeps a variation from being loaded. -/
theorem accepted_not_loads :
    transactionVariations Sample.raw = some Sample.dropped ∧
      ¬ Loads Sample.dropped.toJson "Transfers" 15000 none none := by
  refine ⟨Sample.raw_accepted, fun h => ?_⟩
  rw [loads_iff (by simp) (by simp), enforceable_iff_reads] at h
  obtain ⟨shape, hshape⟩ := (h _ List.mem_cons_self).data _ List.mem_cons_self
  cases hshape _ List.mem_cons_self

theorem accepted_loads_iff_transfers :
    transactionVariations Sample.transfers.toJson = some Sample.transfers ∧
      Loads Sample.transfers.toJson "Transfers" 15000 (some 5) none := by
  have haccepted := transactionVariations_toJson Sample.transfers
  have hfee (fee : Int64) (h : fee ∈ some (5 : Int64)) : 0 ≤ fee.toInt := by
    cases h
    decide
  exact ⟨haccepted, (accepted_loads_iff haccepted "Transfers" 15000 hfee (by simp)).2
    Sample.transfers_enforceable⟩

end FogoSessions.PaymasterAdmin
