import FogoSessions.Paymaster.Config

/-!
# What a configured data constraint means

A data constraint as it is configured compares the value at a place of the data with listed ones:
`Holds` says which value data holds, `Satisfied` how it has to compare. A specification that is not
malformed has values of one type and one length, and those are the ones that are converted.
-/

namespace FogoSessions.Paymaster

open Lib Solana IntentTransfer

/-! ## The meaning of a specification -/

/-- The types of values that data holds. -/
inductive DataType where
  | u8
  | u16
  | u32
  | u64
  | bool
  | pubkey
  | bytes
  | nttSignedQuoter
deriving DecidableEq

/-- The unsigned integers. -/
def DataType.IsInteger : DataType → Prop
  | .u8 | .u16 | .u32 | .u64 => True
  | _ => False

/-- A value, with all integers alike. -/
inductive Value where
  | integer (value : Nat)
  | bool (value : Bool)
  | pubkey (key : Pubkey)
  | bytes (value : Bytes)
  | quoter (address : H160)

namespace DataValue

def type : DataValue → DataType
  | u8 _ => .u8
  | u16 _ => .u16
  | u32 _ => .u32
  | u64 _ => .u64
  | bool _ => .bool
  | pubkey _ => .pubkey
  | bytes _ => .bytes
  | nttSignedQuoter _ => .nttSignedQuoter

/-- The value that is written, unless it is a text that spells no bytes. -/
def value? : DataValue → Option Value
  | u8 v => some (.integer v.toNat)
  | u16 v => some (.integer v.toNat)
  | u32 v => some (.integer v.toNat)
  | u64 v => some (.integer v.toNat)
  | bool v => some (.bool v)
  | pubkey key => some (.pubkey key)
  | bytes text => (decodeHexBytes text).toOption.map .bytes
  | nttSignedQuoter address => some (.quoter address)

/-- How many bytes of the data the value is compared with. -/
def byteLength? : DataValue → Option Nat
  | u8 _ => some 1
  | u16 _ => some 2
  | u32 _ => some 4
  | u64 _ => some 8
  | bool _ => some 1
  | pubkey _ => some 32
  | bytes text => (decodeHexBytes text).toOption.map List.length
  | nttSignedQuoter _ => some 165

end DataValue

namespace DataConstraintSpecification

/-- The values that are written in the specification. -/
def values : DataConstraintSpecification → List DataValue
  | lessThan value => [value]
  | greaterThan value => [value]
  | equalTo values => values
  | neq values => values

/-- The value is below or above the bound, or one of the listed ones, or none of them. -/
def Satisfied (v : Value) : DataConstraintSpecification → Prop
  | lessThan bound => ∃ n b, v = .integer n ∧ bound.value? = some (.integer b) ∧ n < b
  | greaterThan bound => ∃ n b, v = .integer n ∧ bound.value? = some (.integer b) ∧ b < n
  | equalTo values => ∃ listed ∈ values, listed.value? = some v
  | neq values => ∀ listed ∈ values, listed.value? ≠ some v

end DataConstraintSpecification

/-- What is wrong with the values of an `EqualTo` or a `Neq`. -/
inductive MalformedValues (values : List DataValue) : Prop
  | empty (h : values = [])
  | mixed (v : DataValue) (hv : v ∈ values) (w : DataValue) (hw : w ∈ values)
      (hne : v.type ≠ w.type)
  | invalidHex (text : String) (hmem : .bytes text ∈ values)
      (hhex : ∀ bytes, decodeHexBytes text ≠ .ok bytes)
  | unequalLengths (text : String) (hmem : .bytes text ∈ values) (text' : String)
      (hmem' : .bytes text' ∈ values) (bytes bytes' : Bytes) (hhex : decodeHexBytes text = .ok bytes)
      (hhex' : decodeHexBytes text' = .ok bytes') (hne : bytes.length ≠ bytes'.length)

/-- What is wrong with a specification. -/
inductive MalformedSpecification : DataConstraintSpecification → Prop
  | lessThan (bound : DataValue) (h : ¬ bound.type.IsInteger) :
      MalformedSpecification (.lessThan bound)
  | greaterThan (bound : DataValue) (h : ¬ bound.type.IsInteger) :
      MalformedSpecification (.greaterThan bound)
  | equalTo (values : List DataValue) (h : MalformedValues values) :
      MalformedSpecification (.equalTo values)
  | neq (values : List DataValue) (h : MalformedValues values) :
      MalformedSpecification (.neq values)

section

variable [External]

/-- The bytes carry a signature of their first 100 bytes, and their stated quoter is its signer. -/
def SignsQuote (data : Bytes) (quoter : H160) : Prop :=
  ∃ (signature : FixedBytes 64) (recoveryIndex : UInt8) (key : FixedBytes 65),
    data.drop 100 = signature.bytes ++ [recoveryIndex] ∧
    External.secp256k1Recover (External.keccak (data.take 100)) signature recoveryIndex = .ok key ∧
    quoter.bytes = (External.keccak (key.bytes.drop 1)).bytes.drop 12 ∧
    quoter.bytes = (data.drop 4).take 20

/-- The value that data of a type holds. -/
inductive Holds : DataType → Bytes → Value → Prop
  | integer {type : DataType} (htype : type.IsInteger) (data : Bytes) :
      Holds type data (.integer (leNat data))
  | bool (byte : UInt8) : Holds .bool [byte] (.bool (byte ≠ 0))
  | pubkey (key : Pubkey) : Holds .pubkey key.bytes (.pubkey key)
  | bytes (data : Bytes) : Holds .bytes data (.bytes data)
  | nttSignedQuoter (data : Bytes) (quoter : H160) (h : SignsQuote data quoter) :
      Holds .nttSignedQuoter data (.quoter quoter)

end

/-! ## Which specifications are converted -/

/-- `EqualTo` or `Neq`. -/
def exactMatch (isEqual : Bool) (values : List DataValue) : DataConstraintSpecification :=
  if isEqual then .equalTo values else .neq values

theorem exactMatch_values (isEqual : Bool) (values : List DataValue) :
    (exactMatch isEqual values).values = values := by
  cases isEqual <;> rfl

/-- The values are those of one type exactly when the mapper of the type selects them all. -/
theorem extractValues_eq_ok {T : Type} {ctor : T → DataValue} {mapper : DataValue → Option T}
    (hmapper : ∀ x t, mapper x = some t ↔ x = ctor t) :
    ∀ {values : List DataValue} {parsed : List T},
      extractValues values mapper = .ok parsed ↔ values = parsed.map ctor
  | [], parsed => by
    rw [extractValues, List.mapM_nil, pure_eq_ok]
    constructor
    · rintro rfl
      rfl
    · intro h
      exact (List.map_eq_nil_iff.1 h.symm).symm
  | value :: values, parsed => by
    have ih : ∀ {parsed : List T}, extractValues values mapper = .ok parsed ↔
        values = parsed.map ctor := extractValues_eq_ok hmapper
    rw [extractValues, List.mapM_cons, bind_eq_ok]
    constructor
    · rintro ⟨t, ht, h⟩
      obtain ⟨ts, hts, h⟩ := bind_eq_ok.1 h
      cases pure_eq_ok.1 h
      rw [List.map_cons, ← (hmapper value t).1 (okOr_eq_ok.1 ht), ← ih.1 hts]
    · intro h
      obtain ⟨t, ts, rfl, ht, hts⟩ := List.map_eq_cons_iff.1 h.symm
      refine ⟨t, okOr_eq_ok.2 ((hmapper value t).2 ht.symm), bind_eq_ok.2 ⟨ts, ?_, rfl⟩⟩
      exact ih.2 hts.symm

/-- A byte string of the list, and the text that spells it. -/
def SpelledBy (length : Nat) (value : DataValue) (bytes : Bytes) : Prop :=
  ∃ text, value = .bytes text ∧ decodeHexBytes text = .ok bytes ∧ bytes.length = length

theorem extractBytes_eq_ok {length : Nat} :
    ∀ {values : List DataValue} {parsed : List Bytes},
      extractBytes values length = .ok parsed ↔ List.Forall₂ (SpelledBy length) values parsed
  | [], parsed => by
    rw [extractBytes, List.mapM_nil, pure_eq_ok, List.forall₂_nil_left_iff, eq_comm]
  | value :: values, parsed => by
    have ih : ∀ {parsed : List Bytes}, extractBytes values length = .ok parsed ↔
        List.Forall₂ (SpelledBy length) values parsed := extractBytes_eq_ok
    rw [extractBytes, List.mapM_cons, bind_eq_ok]
    constructor
    · rintro ⟨bytes, hbytes, h⟩
      obtain ⟨rest, hrest, h⟩ := bind_eq_ok.1 h
      cases pure_eq_ok.1 h
      cases value with
      | bytes text =>
        obtain ⟨bytes', hdecode, hbytes⟩ := bind_eq_ok.1 hbytes
        obtain ⟨_, hlength, hbytes⟩ := bind_eq_ok.1 hbytes
        cases pure_eq_ok.1 hbytes
        exact .cons ⟨text, rfl, hdecode, require_eq_ok.1 hlength⟩ (ih.1 hrest)
      | _ => cases hbytes
    · intro h
      obtain ⟨bytes, rest, ⟨text, rfl, hdecode, hlength⟩, hrest, rfl⟩ :=
        List.forall₂_cons_left_iff.1 h
      refine ⟨bytes, ?_, bind_eq_ok.2 ⟨rest, ih.2 hrest, rfl⟩⟩
      exact bind_eq_ok.2 ⟨bytes, hdecode, bind_eq_ok.2 ⟨⟨⟩, require_eq_ok.2 hlength, rfl⟩⟩

/-- The converted form of an `EqualTo` or a `Neq`, by the type of the values. -/
inductive ExactParsed (isEqual : Bool) : List DataValue → ParsedDataConstraintSpecification → Prop
  | u8 (vs : List UInt8) : ExactParsed isEqual (vs.map .u8) (.u8 (.exactMatch isEqual vs))
  | u16 (vs : List UInt16) : ExactParsed isEqual (vs.map .u16) (.u16 (.exactMatch isEqual vs))
  | u32 (vs : List UInt32) : ExactParsed isEqual (vs.map .u32) (.u32 (.exactMatch isEqual vs))
  | u64 (vs : List UInt64) : ExactParsed isEqual (vs.map .u64) (.u64 (.exactMatch isEqual vs))
  | bool (vs : List Bool) : ExactParsed isEqual (vs.map .bool) (.bool (.exactMatch isEqual vs))
  | pubkey (vs : List Pubkey) :
      ExactParsed isEqual (vs.map .pubkey) (.pubkey (.exactMatch isEqual vs))
  | bytes (length : Nat) (values : List DataValue) (vs : List Bytes)
      (h : List.Forall₂ (SpelledBy length) values vs) :
      ExactParsed isEqual values (.bytes (if isEqual then .equalTo length vs else .neq length vs))
  | nttSignedQuoter (vs : List H160) :
      ExactParsed isEqual (vs.map .nttSignedQuoter) (.nttSignedQuoter (.exactMatch isEqual vs))

theorem exactParsed_of_extractValues {T : Type} {ctor : T → DataValue}
    {mapper : DataValue → Option T} {isEqual : Bool} {values : List DataValue}
    {build : List T → ParsedDataConstraintSpecification}
    {parsed : ParsedDataConstraintSpecification}
    (hbuild : ∀ vs : List T, ExactParsed isEqual (vs.map ctor) (build vs))
    (hmapper : ∀ x t, mapper x = some t ↔ x = ctor t)
    (h : (do let vs ← extractValues values mapper; pure (build vs)) = .ok parsed) :
    ExactParsed isEqual values parsed := by
  obtain ⟨vs, hvs, h⟩ := bind_eq_ok.1 h
  cases pure_eq_ok.1 h
  rw [(extractValues_eq_ok hmapper).1 hvs]
  exact hbuild vs

theorem parseExactMatchValues_eq_ok {values : List DataValue} {isEqual : Bool}
    {parsed : ParsedDataConstraintSpecification}
    (h : parseExactMatchValues values isEqual = .ok parsed) :
    values ≠ [] ∧ ExactParsed isEqual values parsed := by
  obtain ⟨first, hfirst, h⟩ := bind_eq_ok.1 h
  have hne : values ≠ [] := by
    rintro rfl
    cases hfirst
  refine ⟨hne, ?_⟩
  cases first with
  | u8 v => exact exactParsed_of_extractValues .u8 (fun x t => by cases x <;> simp) h
  | u16 v => exact exactParsed_of_extractValues .u16 (fun x t => by cases x <;> simp) h
  | u32 v => exact exactParsed_of_extractValues .u32 (fun x t => by cases x <;> simp) h
  | u64 v => exact exactParsed_of_extractValues .u64 (fun x t => by cases x <;> simp) h
  | bool v => exact exactParsed_of_extractValues .bool (fun x t => by cases x <;> simp) h
  | pubkey v => exact exactParsed_of_extractValues .pubkey (fun x t => by cases x <;> simp) h
  | bytes text =>
    obtain ⟨bytes, hbytes, h⟩ := bind_eq_ok.1 h
    obtain ⟨vs, hvs, h⟩ := bind_eq_ok.1 h
    cases pure_eq_ok.1 h
    exact .bytes _ _ vs (extractBytes_eq_ok.1 hvs)
  | nttSignedQuoter v =>
    exact exactParsed_of_extractValues .nttSignedQuoter (fun x t => by cases x <;> simp) h

/-- The values are all of one type and of one length. -/
def Uniform (values : List DataValue) (type : DataType) (length : Nat) : Prop :=
  ∀ x ∈ values, x.type = type ∧ x.byteLength? = some length

/-- Only the length of a byte string depends on its value. -/
theorem byteLength?_of_type {x y : DataValue} (htype : x.type = y.type) (hne : y.type ≠ .bytes) :
    (∃ length, y.byteLength? = some length) ∧ x.byteLength? = y.byteLength? := by
  cases y with
  | bytes text => exact absurd rfl hne
  | _ => cases x <;> first | exact ⟨⟨_, rfl⟩, rfl⟩ | cases htype

theorem exists_text_of_type {x : DataValue} (h : x.type = .bytes) : ∃ text, x = .bytes text := by
  cases x <;> first | exact ⟨_, rfl⟩ | cases h

theorem byteLength?_bytes {text : String} {length : Nat} :
    (DataValue.bytes text).byteLength? = some length ↔
      ∃ bytes, decodeHexBytes text = .ok bytes ∧ bytes.length = length := by
  simp only [DataValue.byteLength?, Option.map_eq_some_iff, toOption_eq_some]

/-- Values are malformed unless there is one and they are uniform. -/
theorem not_malformedValues_iff {values : List DataValue} :
    ¬ MalformedValues values ↔ values ≠ [] ∧ ∃ type length, Uniform values type length := by
  constructor
  · intro h
    have hne : values ≠ [] := fun hempty => h (.empty hempty)
    obtain ⟨first, hfirst⟩ := List.exists_mem_of_ne_nil values hne
    have htype (x : DataValue) (hx : x ∈ values) : x.type = first.type :=
      not_not.1 fun hmixed => h (.mixed x hx first hfirst hmixed)
    refine ⟨hne, first.type, ?_⟩
    by_cases hbytes : first.type = .bytes
    · -- byte strings: all decode, to the length of the first
      have hdecode (text : String) (hmem : .bytes text ∈ values) :
          ∃ bytes, decodeHexBytes text = .ok bytes := by
        by_contra hhex
        exact h (.invalidHex text hmem fun bytes hdecode => hhex ⟨bytes, hdecode⟩)
      obtain ⟨text, rfl⟩ := exists_text_of_type hbytes
      obtain ⟨bytes, htext⟩ := hdecode text hfirst
      refine ⟨bytes.length, fun x hx => ⟨htype x hx, ?_⟩⟩
      obtain ⟨text', rfl⟩ := exists_text_of_type (htype x hx)
      obtain ⟨bytes', htext'⟩ := hdecode text' hx
      refine byteLength?_bytes.2 ⟨bytes', htext', ?_⟩
      by_contra hlength
      exact h (.unequalLengths text' hx text hfirst bytes' bytes htext' htext hlength)
    · obtain ⟨length, hlength⟩ := (byteLength?_of_type rfl hbytes).1
      refine ⟨length, fun x hx => ⟨htype x hx, ?_⟩⟩
      rw [(byteLength?_of_type (htype x hx) hbytes).2, hlength]
  · rintro ⟨hne, type, length, huniform⟩ h
    cases h with
    | empty h => exact hne h
    | mixed v hv w hw hmixed => exact hmixed ((huniform v hv).1.trans (huniform w hw).1.symm)
    | invalidHex text hmem hhex =>
      obtain ⟨bytes, hdecode, _⟩ := byteLength?_bytes.1 (huniform _ hmem).2
      exact hhex bytes hdecode
    | unequalLengths text hmem text' hmem' bytes bytes' hhex hhex' hlength =>
      obtain ⟨_, hdecode, rfl⟩ := byteLength?_bytes.1 (huniform _ hmem).2
      obtain ⟨_, hdecode', hsame⟩ := byteLength?_bytes.1 (huniform _ hmem').2
      rw [hhex] at hdecode
      rw [hhex'] at hdecode'
      cases hdecode
      cases hdecode'
      exact hlength hsame.symm

/-- A mapper that selects all the values. -/
theorem extractValues_isOk {T : Type} {values : List DataValue} {mapper : DataValue → Option T}
    {type : DataType} (htype : ∀ x ∈ values, x.type = type)
    (hmapper : ∀ x : DataValue, x.type = type → (mapper x).isSome)
    (build : List T → ParsedDataConstraintSpecification) :
    ∃ parsed, (do let vs ← extractValues values mapper; pure (build vs)) = .ok parsed := by
  have hvs : ∃ vs, extractValues values mapper = .ok vs := by
    apply mapM_isOk.2
    intro x hx
    obtain ⟨t, ht⟩ := Option.isSome_iff_exists.1 (hmapper x (htype x hx))
    exact ⟨t, okOr_eq_ok.2 ht⟩
  obtain ⟨vs, hvs⟩ := hvs
  exact ⟨build vs, bind_eq_ok.2 ⟨vs, hvs, rfl⟩⟩

theorem parseExactMatchValues_of_uniform {values : List DataValue} {type : DataType} {length : Nat}
    (hne : values ≠ []) (h : Uniform values type length) (isEqual : Bool) :
    ∃ parsed, parseExactMatchValues values isEqual = .ok parsed := by
  cases values with
  | nil => exact absurd rfl hne
  | cons first rest =>
    obtain ⟨hfirst, hlength⟩ := h first List.mem_cons_self
    have htype (x : DataValue) (hx : x ∈ first :: rest) : x.type = first.type :=
      (h x hx).1.trans hfirst.symm
    cases first with
    | bytes text =>
      obtain ⟨bytes, hdecode, rfl⟩ := byteLength?_bytes.1 hlength
      have hvs : ∃ vs, extractBytes (.bytes text :: rest) bytes.length = .ok vs := by
        apply mapM_isOk.2
        intro x hx
        obtain ⟨text', rfl⟩ := exists_text_of_type (htype x hx)
        obtain ⟨bytes', hdecode', hsame⟩ := byteLength?_bytes.1 (h _ hx).2
        exact ⟨bytes', bind_eq_ok.2 ⟨bytes', hdecode', bind_eq_ok.2 ⟨⟨⟩, require_eq_ok.2 hsame, rfl⟩⟩⟩
      obtain ⟨vs, hvs⟩ := hvs
      exact ⟨_, bind_eq_ok.2 ⟨_, rfl, bind_eq_ok.2 ⟨bytes, hdecode, bind_eq_ok.2 ⟨vs, hvs, rfl⟩⟩⟩⟩
    | _ => exact extractValues_isOk htype (fun x hx => by cases x <;> first | rfl | cases hx) _

end FogoSessions.Paymaster
