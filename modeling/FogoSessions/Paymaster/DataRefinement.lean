import FogoSessions.Paymaster.DataSpec
import FogoSessions.Paymaster.Malformed

/-!
# The check of a converted data constraint

`dataConstraint_refines`: which configured data constraints are converted, and that the check of the
converted form accepts exactly the data whose value is as the configured form says.
-/

namespace FogoSessions.Paymaster

open Lib Solana IntentTransfer

/-! ## Listed values and bounds -/

section

variable {T : Type} [DecidableEq T] {isEqual : Bool} {vs : List T} {t : T} {r : Unit}

theorem IntegerConstraint.check_exactMatch [LT T] [DecidableLT T] :
    (IntegerConstraint.exactMatch isEqual vs).check t = .ok r ↔
      if isEqual then t ∈ vs else t ∉ vs := by
  cases isEqual with
  | true => exact checkEqualTo_eq_ok
  | false => exact checkNeq_eq_ok

theorem ScalarConstraint.check_exactMatch :
    (ScalarConstraint.exactMatch isEqual vs).check t = .ok r ↔
      if isEqual then t ∈ vs else t ∉ vs := by
  cases isEqual with
  | true => exact checkEqualTo_eq_ok
  | false => exact checkNeq_eq_ok

omit [DecidableEq T] in
theorem satisfied_exactMatch {ctor : T → DataValue} (value : T → Value)
    (hvalue : ∀ t, (ctor t).value? = some (value t)) (hinj : ∀ t u, value t = value u → t = u) :
    (exactMatch isEqual (vs.map ctor)).Satisfied (value t) ↔
      if isEqual then t ∈ vs else t ∉ vs := by
  have hmem : (∃ listed ∈ vs.map ctor, listed.value? = some (value t)) ↔ t ∈ vs := by
    constructor
    · rintro ⟨listed, hlisted, hv⟩
      obtain ⟨u, hu, rfl⟩ := List.mem_map.1 hlisted
      rw [hvalue u] at hv
      rwa [← hinj u t (Option.some.inj hv)]
    · intro ht
      exact ⟨ctor t, List.mem_map_of_mem ht, hvalue t⟩
  cases isEqual with
  | true => exact hmem
  | false =>
    refine Iff.trans ?_ (not_congr hmem)
    simp [exactMatch, DataConstraintSpecification.Satisfied]

end

theorem satisfied_lessThan {bound : DataValue} {n b : Nat}
    (hbound : bound.value? = some (.integer b)) :
    (DataConstraintSpecification.lessThan bound).Satisfied (.integer n) ↔ n < b := by
  constructor
  · rintro ⟨n, b', hn, hb, hlt⟩
    rw [hbound] at hb
    cases hn
    cases hb
    exact hlt
  · intro hlt
    exact ⟨n, b, rfl, hbound, hlt⟩

theorem satisfied_greaterThan {bound : DataValue} {n b : Nat}
    (hbound : bound.value? = some (.integer b)) :
    (DataConstraintSpecification.greaterThan bound).Satisfied (.integer n) ↔ b < n := by
  constructor
  · rintro ⟨n, b', hn, hb, hlt⟩
    rw [hbound] at hb
    cases hn
    cases hb
    exact hlt
  · intro hlt
    exact ⟨n, b, rfl, hbound, hlt⟩

section

variable [External]

theorem holds_integer_iff (type : DataType) (htype : type.IsInteger) {data : Bytes} {v : Value} :
    Holds type data v ↔ v = .integer (leNat data) := by
  constructor
  · intro h
    cases h with
    | integer => rfl
    | bool byte => exact htype.elim
    | pubkey key => exact htype.elim
    | bytes data => exact htype.elim
    | nttSignedQuoter data quoter h => exact htype.elim
  · rintro rfl
    exact .integer htype data

/-- A signature that does not recover the stated quoter. -/
def FailsToRecover (bytes : Bytes) (e : String) : Prop :=
  (∃ (signature : FixedBytes 64) (recoveryIndex : UInt8),
    bytes.drop 100 = signature.bytes ++ [recoveryIndex] ∧
    External.secp256k1Recover (External.keccak (bytes.take 100)) signature recoveryIndex = .error e) ∨
  e = "Recovered quoter address does not match stated quoter address"

/-- The check of a range's bytes fails of its own only on the signature of a quote: it does not
    recover a signer, or not the stated one. -/
def FailsOnQuote (constraint : ParsedDataConstraintSpecification) (bytes : Bytes)
    (fault : Fault String) : Prop :=
  (∃ c, constraint = .nttSignedQuoter c) ∧
    ∃ e, fault = .err e ∧ FailsToRecover bytes e

/-- The converted form checks what the specification says. -/
structure Refines (parsed : ParsedDataConstraintSpecification) (spec : DataConstraintSpecification)
    (type : DataType) (length : Nat) : Prop where
  uniform : Uniform spec.values type length
  byteLength_eq : parsed.byteLength = length
  check_iff : ∀ bytes : Bytes, bytes.length = length →
    (parsed.checkBytes bytes = .ok (.ok ⟨⟩) ↔ ∃ v, Holds type bytes v ∧ spec.Satisfied v)
  fails : ∀ bytes : Bytes, bytes.length = length →
    ∀ fault, parsed.checkBytes bytes = .error fault → FailsOnQuote parsed bytes fault

/-- A form that reads one value from the bytes, and then checks it. -/
theorem Refines.of_reads {T : Type} (value : T → Value) {check : T → Except String Unit}
    {parsed : ParsedDataConstraintSpecification} {spec : DataConstraintSpecification}
    {type : DataType} {length : Nat} (huniform : Uniform spec.values type length)
    (hlength : parsed.byteLength = length)
    (hreads : ∀ bytes : Bytes, bytes.length = length → ∃ t, parsed.checkBytes bytes = .ok (check t) ∧
      ∀ v, Holds type bytes v ↔ v = value t)
    (hcheck : ∀ t, check t = .ok ⟨⟩ ↔ spec.Satisfied (value t)) : Refines parsed spec type length where
  uniform := huniform
  byteLength_eq := hlength
  check_iff bytes hbytes := by
    obtain ⟨t, ht, hholds⟩ := hreads bytes hbytes
    rw [ht, Except.ok.injEq, hcheck]
    constructor
    · intro h
      exact ⟨value t, (hholds _).2 rfl, h⟩
    · rintro ⟨v, hv, h⟩
      rwa [← (hholds v).1 hv]
  fails bytes hbytes fault h := by
    obtain ⟨t, ht, _⟩ := hreads bytes hbytes
    rw [ht] at h
    cases h

omit [External] in
theorem exactly_isOk {n : Nat} {name : String} {bytes : Bytes} (h : bytes.length = n) :
    exactly n name bytes = .ok ⟨bytes, h⟩ := exactly_eq_ok.2 rfl

/-- A form that reads the bytes as an integer. -/
theorem Refines.of_word {T : Type} {toNat : T → Nat} {read : Bytes → T} {check : T → Except String Unit}
    {parsed : ParsedDataConstraintSpecification} {spec : DataConstraintSpecification}
    {type : DataType} {length : Nat} (htype : type.IsInteger) (huniform : Uniform spec.values type length)
    (hlength : parsed.byteLength = length)
    (hreads : ∀ bytes : Bytes, bytes.length = length →
      parsed.checkBytes bytes = .ok (check (read bytes)) ∧
        (leNat bytes < 256 ^ length → toNat (read bytes) = leNat bytes))
    (hcheck : ∀ t, check t = .ok ⟨⟩ ↔ spec.Satisfied (.integer (toNat t))) :
    Refines parsed spec type length := by
  refine .of_reads (fun t => .integer (toNat t)) huniform hlength (fun bytes hbytes => ?_) hcheck
  obtain ⟨hread, hvalue⟩ := hreads bytes hbytes
  have hlt := leNat_lt bytes
  rw [hbytes] at hlt
  refine ⟨read bytes, hread, fun v => ?_⟩
  rw [hvalue hlt]
  exact holds_integer_iff type htype

theorem refines_u8 {c : IntegerConstraint UInt8} {spec : DataConstraintSpecification}
    (huniform : Uniform spec.values .u8 1)
    (hcheck : ∀ t, c.check t = .ok ⟨⟩ ↔ spec.Satisfied (.integer t.toNat)) :
    Refines (.u8 c) spec .u8 1 := by
  refine .of_reads (fun t : UInt8 => .integer t.toNat) huniform rfl (fun bytes hbytes => ?_) hcheck
  obtain ⟨byte, rfl⟩ := List.length_eq_one_iff.1 hbytes
  exact ⟨byte, rfl, fun v => holds_integer_iff .u8 trivial⟩

theorem refines_u16 {c : IntegerConstraint UInt16} {spec : DataConstraintSpecification}
    (huniform : Uniform spec.values .u16 2)
    (hcheck : ∀ t, c.check t = .ok ⟨⟩ ↔ spec.Satisfied (.integer t.toNat)) :
    Refines (.u16 c) spec .u16 2 := by
  refine .of_word trivial huniform rfl (fun bytes hbytes => ⟨?_, UInt16.toNat_ofNat_of_lt'⟩) hcheck
  rw [ParsedDataConstraintSpecification.checkBytes, exactly_isOk hbytes]
  rfl

theorem refines_u32 {c : IntegerConstraint UInt32} {spec : DataConstraintSpecification}
    (huniform : Uniform spec.values .u32 4)
    (hcheck : ∀ t, c.check t = .ok ⟨⟩ ↔ spec.Satisfied (.integer t.toNat)) :
    Refines (.u32 c) spec .u32 4 := by
  refine .of_word trivial huniform rfl (fun bytes hbytes => ⟨?_, UInt32.toNat_ofNat_of_lt'⟩) hcheck
  rw [ParsedDataConstraintSpecification.checkBytes, exactly_isOk hbytes]
  rfl

theorem refines_u64 {c : IntegerConstraint UInt64} {spec : DataConstraintSpecification}
    (huniform : Uniform spec.values .u64 8)
    (hcheck : ∀ t, c.check t = .ok ⟨⟩ ↔ spec.Satisfied (.integer t.toNat)) :
    Refines (.u64 c) spec .u64 8 := by
  refine .of_word trivial huniform rfl (fun bytes hbytes => ⟨?_, UInt64.toNat_ofNat_of_lt'⟩) hcheck
  rw [ParsedDataConstraintSpecification.checkBytes, exactly_isOk hbytes]
  rfl

theorem refines_bool {c : ScalarConstraint Bool} {spec : DataConstraintSpecification}
    (huniform : Uniform spec.values .bool 1)
    (hcheck : ∀ t, c.check t = .ok ⟨⟩ ↔ spec.Satisfied (.bool t)) :
    Refines (.bool c) spec .bool 1 := by
  refine .of_reads .bool huniform rfl (fun bytes hbytes => ?_) hcheck
  obtain ⟨byte, rfl⟩ := List.length_eq_one_iff.1 hbytes
  refine ⟨byte ≠ 0, rfl, fun v => ⟨fun h => ?_, ?_⟩⟩
  · cases h with
    | integer htype => exact htype.elim
    | bool byte => rfl
  · rintro rfl
    exact .bool byte

theorem refines_pubkey {c : ScalarConstraint Pubkey} {spec : DataConstraintSpecification}
    (huniform : Uniform spec.values .pubkey 32)
    (hcheck : ∀ t, c.check t = .ok ⟨⟩ ↔ spec.Satisfied (.pubkey t)) :
    Refines (.pubkey c) spec .pubkey 32 := by
  refine .of_reads .pubkey huniform rfl (fun bytes hbytes => ?_) hcheck
  refine ⟨⟨bytes, hbytes⟩, ?_, fun v => ⟨fun h => ?_, ?_⟩⟩
  · rw [ParsedDataConstraintSpecification.checkBytes, exactly_isOk hbytes]
    rfl
  · cases h with
    | integer htype => exact htype.elim
    | pubkey key => rfl
  · rintro rfl
    exact .pubkey ⟨bytes, hbytes⟩

theorem refines_bytes {c : BytesConstraint} {spec : DataConstraintSpecification} {length : Nat}
    (huniform : Uniform spec.values .bytes length)
    (hlength : (ParsedDataConstraintSpecification.bytes c).byteLength = length)
    (hcheck : ∀ t, c.check t = .ok ⟨⟩ ↔ spec.Satisfied (.bytes t)) :
    Refines (.bytes c) spec .bytes length := by
  refine .of_reads .bytes huniform hlength (fun bytes _ => ?_) hcheck
  refine ⟨bytes, rfl, fun v => ⟨fun h => ?_, ?_⟩⟩
  · cases h with
    | integer htype => exact htype.elim
    | bytes => rfl
  · rintro rfl
    exact .bytes bytes

/-! ### Quotes -/

/-- What recovering the signer of a quote comes to. -/
theorem recoverSignerPubkey_spec {quote : SignedQuote} {bytes : Bytes}
    (hquote : SignedQuote.codec.encode quote = .ok bytes) :
    (∃ address, recoverSignerPubkey quote = .ok address ∧
        ∀ quoter, SignsQuote bytes quoter ↔ quoter = address) ∨
      ∃ e, recoverSignerPubkey quote = .error (.err e) ∧ FailsToRecover bytes e ∧
        ∀ quoter, ¬ SignsQuote bytes quoter := by
  obtain ⟨body, hbody, hbodyBytes⟩ := SignedQuote.tryGetMessageBody_of_encode hquote
  obtain ⟨signature, recoveryIndex, hcomponents, hsignature⟩ :=
    quote.tryGetSignatureComponents_isOk
  obtain ⟨-, hquoter, htail⟩ := SignedQuote.encode_layout hquote
  rw [hsignature] at htail
  -- the signature and the index are what follows the body
  have hsame {signature' : FixedBytes 64} {recoveryIndex' : UInt8}
      (h : bytes.drop 100 = signature'.bytes ++ [recoveryIndex']) :
      signature' = signature ∧ recoveryIndex' = recoveryIndex := by
    obtain ⟨hs, hr⟩ := List.append_inj (h.symm.trans htail)
      (signature'.length_eq.trans signature.length_eq.symm)
    exact ⟨FixedBytes.ext hs, List.singleton_inj.1 hr⟩
  unfold recoverSignerPubkey
  rw [hbody, hcomponents]
  simp only [mapErr, Bind.bind, Except.bind, hbodyBytes]
  cases hrecover :
      External.secp256k1Recover (External.keccak (bytes.take 100)) signature recoveryIndex with
  | error e =>
    refine .inr ⟨e, rfl, .inl ⟨signature, recoveryIndex, htail, hrecover⟩, ?_⟩
    rintro quoter ⟨signature', recoveryIndex', key, htail', hkey, _⟩
    obtain ⟨rfl, rfl⟩ := hsame htail'
    rw [hrecover] at hkey
    cases hkey
  | ok key =>
    obtain ⟨address, haddress⟩ : ∃ address : H160,
        address.bytes = (External.keccak (key.bytes.drop 1)).bytes.drop 12 :=
      ⟨⟨(External.keccak (key.bytes.drop 1)).bytes.drop 12, by
        rw [List.length_drop, FixedBytes.length_eq]⟩, rfl⟩
    have hsigns (quoter : H160) :
        SignsQuote bytes quoter ↔ quoter = address ∧ address = quote.header.quoterAddress := by
      constructor
      · rintro ⟨signature', recoveryIndex', key', htail', hkey, hhash, hstated⟩
        obtain ⟨rfl, rfl⟩ := hsame htail'
        rw [hrecover] at hkey
        cases hkey
        obtain rfl : quoter = address := FixedBytes.ext (hhash.trans haddress.symm)
        exact ⟨rfl, FixedBytes.ext (hstated.trans hquoter)⟩
      · rintro ⟨rfl, hstated⟩
        refine ⟨signature, recoveryIndex, key, htail, hrecover, haddress, ?_⟩
        rw [hquoter, hstated]
    have hof : FixedBytes.ofBytes? ((External.keccak (key.bytes.drop 1)).bytes.drop 12) =
        some address := FixedBytes.ofBytes?_eq_some.2 haddress
    simp only [hof, okOr, require]
    by_cases hstated : address = quote.header.quoterAddress
    · refine .inl ⟨address, ?_, fun quoter => (hsigns quoter).trans (and_iff_left hstated)⟩
      rw [if_pos hstated]
      rfl
    · refine .inr ⟨_, ?_, .inr rfl, fun quoter h => hstated ((hsigns quoter).1 h).2⟩
      rw [if_neg hstated]

theorem holds_quoter_iff {data : Bytes} {v : Value} :
    Holds .nttSignedQuoter data v ↔ ∃ quoter, v = .quoter quoter ∧ SignsQuote data quoter := by
  constructor
  · intro h
    cases h with
    | integer htype => exact htype.elim
    | nttSignedQuoter _ quoter h => exact ⟨quoter, rfl, h⟩
  · rintro ⟨quoter, rfl, h⟩
    exact .nttSignedQuoter data quoter h

theorem refines_nttSignedQuoter {c : ScalarConstraint H160} {spec : DataConstraintSpecification}
    (huniform : Uniform spec.values .nttSignedQuoter 165)
    (hcheck : ∀ t, c.check t = .ok ⟨⟩ ↔ spec.Satisfied (.quoter t)) :
    Refines (.nttSignedQuoter c) spec .nttSignedQuoter 165 := by
  -- the 165 bytes decode, to the quote that they encode
  have hdecode {bytes : Bytes} (hbytes : bytes.length = 165) :
      ∃ quote, SignedQuote.codec.encode quote = .ok bytes ∧
        ParsedDataConstraintSpecification.checkBytes bytes (.nttSignedQuoter c) =
          (recoverSignerPubkey quote).map fun quoter => c.check quoter := by
    obtain ⟨quote, hquote⟩ := SignedQuote.covers_codec bytes hbytes
    have hread := SignedQuote.codec.decode_encode [] hquote
    rw [List.append_nil] at hread
    refine ⟨quote, hquote, ?_⟩
    simp only [ParsedDataConstraintSpecification.checkBytes, hread, mapErr, Bind.bind, Except.bind]
    cases recoverSignerPubkey quote <;> rfl
  refine ⟨huniform, rfl, fun bytes hbytes => ?_, fun bytes hbytes fault h => ?_⟩
  · obtain ⟨quote, hquote, hchecks⟩ := hdecode hbytes
    rw [hchecks]
    rcases recoverSignerPubkey_spec hquote with ⟨address, hrecover, hsigns⟩ |
        ⟨e, hrecover, _, hnone⟩
    · rw [hrecover, Except.map, Except.ok.injEq, hcheck]
      constructor
      · intro h
        exact ⟨.quoter address, holds_quoter_iff.2 ⟨address, rfl, (hsigns address).2 rfl⟩, h⟩
      · rintro ⟨v, hv, h⟩
        obtain ⟨quoter, rfl, hquoter⟩ := holds_quoter_iff.1 hv
        rwa [← (hsigns quoter).1 hquoter]
    · rw [hrecover]
      constructor
      · intro h
        cases h
      · rintro ⟨v, hv, _⟩
        obtain ⟨quoter, _, hquoter⟩ := holds_quoter_iff.1 hv
        exact absurd hquoter (hnone quoter)
  · obtain ⟨quote, hquote, hchecks⟩ := hdecode hbytes
    rw [hchecks] at h
    rcases recoverSignerPubkey_spec hquote with ⟨address, hrecover, _⟩ | ⟨e, hrecover, hfails, _⟩
    · rw [hrecover] at h
      cases h
    · rw [hrecover] at h
      cases h
      exact ⟨⟨c, rfl⟩, e, rfl, hfails⟩

/-! ### All forms -/

omit [External] in
theorem uniform_exactMatch {T : Type} {ctor : T → DataValue} {isEqual : Bool} {vs : List T}
    {type : DataType} {length : Nat}
    (h : ∀ t, (ctor t).type = type ∧ (ctor t).byteLength? = some length) :
    Uniform (exactMatch isEqual (vs.map ctor)).values type length := by
  rw [exactMatch_values]
  intro x hx
  obtain ⟨t, _, rfl⟩ := List.mem_map.1 hx
  exact h t

omit [External] in
/-- Byte strings as they are listed and as they are decoded. -/
theorem satisfied_bytes {length : Nat} {values : List DataValue} {vs : List Bytes}
    (h : List.Forall₂ (SpelledBy length) values vs) (isEqual : Bool) (t : Bytes) :
    (exactMatch isEqual values).Satisfied (.bytes t) ↔ if isEqual then t ∈ vs else t ∉ vs := by
  have hmem : (∃ listed ∈ values, listed.value? = some (.bytes t)) ↔ t ∈ vs := by
    induction h with
    | nil => simp
    | cons hfirst hrest ih =>
      obtain ⟨text, rfl, hdecode, _⟩ := hfirst
      rw [List.mem_cons, ← ih, List.exists_mem_cons_iff]
      simp [DataValue.value?, hdecode, Except.toOption, eq_comm]
  cases isEqual with
  | true => exact hmem
  | false =>
    refine Iff.trans ?_ (not_congr hmem)
    simp [exactMatch, DataConstraintSpecification.Satisfied]

omit [External] in
theorem uniform_of_spelledBy {length : Nat} {values : List DataValue} {vs : List Bytes}
    (h : List.Forall₂ (SpelledBy length) values vs) : Uniform values .bytes length := by
  induction h with
  | nil => exact List.forall_mem_nil _
  | cons hfirst hrest ih =>
    obtain ⟨text, rfl, hdecode, hlength⟩ := hfirst
    exact List.forall_mem_cons.2 ⟨⟨rfl, byteLength?_bytes.2 ⟨_, hdecode, hlength⟩⟩, ih⟩

/-- The converted form of listed values. -/
theorem ExactParsed.refines {isEqual : Bool} {values : List DataValue}
    {parsed : ParsedDataConstraintSpecification} (h : ExactParsed isEqual values parsed) :
    ∃ type length, Refines parsed (exactMatch isEqual values) type length := by
  cases h with
  | u8 vs =>
    refine ⟨_, _, refines_u8 (uniform_exactMatch fun t => ⟨rfl, rfl⟩) fun t => ?_⟩
    exact IntegerConstraint.check_exactMatch.trans (satisfied_exactMatch
      (fun t : UInt8 => .integer t.toNat) (fun _ => rfl)
      fun _ _ h => UInt8.toNat_inj.1 (Value.integer.inj h)).symm
  | u16 vs =>
    refine ⟨_, _, refines_u16 (uniform_exactMatch fun t => ⟨rfl, rfl⟩) fun t => ?_⟩
    exact IntegerConstraint.check_exactMatch.trans (satisfied_exactMatch
      (fun t : UInt16 => .integer t.toNat) (fun _ => rfl)
      fun _ _ h => UInt16.toNat_inj.1 (Value.integer.inj h)).symm
  | u32 vs =>
    refine ⟨_, _, refines_u32 (uniform_exactMatch fun t => ⟨rfl, rfl⟩) fun t => ?_⟩
    exact IntegerConstraint.check_exactMatch.trans (satisfied_exactMatch
      (fun t : UInt32 => .integer t.toNat) (fun _ => rfl)
      fun _ _ h => UInt32.toNat_inj.1 (Value.integer.inj h)).symm
  | u64 vs =>
    refine ⟨_, _, refines_u64 (uniform_exactMatch fun t => ⟨rfl, rfl⟩) fun t => ?_⟩
    exact IntegerConstraint.check_exactMatch.trans (satisfied_exactMatch
      (fun t : UInt64 => .integer t.toNat) (fun _ => rfl)
      fun _ _ h => UInt64.toNat_inj.1 (Value.integer.inj h)).symm
  | bool vs =>
    refine ⟨_, _, refines_bool (uniform_exactMatch fun t => ⟨rfl, rfl⟩) fun t => ?_⟩
    exact ScalarConstraint.check_exactMatch.trans
      (satisfied_exactMatch .bool (fun _ => rfl) fun _ _ => Value.bool.inj).symm
  | pubkey vs =>
    refine ⟨_, _, refines_pubkey (uniform_exactMatch fun t => ⟨rfl, rfl⟩) fun t => ?_⟩
    exact ScalarConstraint.check_exactMatch.trans
      (satisfied_exactMatch .pubkey (fun _ => rfl) fun _ _ => Value.pubkey.inj).symm
  | bytes length values vs h =>
    refine ⟨_, length, refines_bytes ?_ ?_ fun t => ?_⟩
    · rw [exactMatch_values]
      exact uniform_of_spelledBy h
    · cases isEqual <;> rfl
    · rw [satisfied_bytes h]
      cases isEqual with
      | true => exact checkEqualTo_eq_ok
      | false => exact checkNeq_eq_ok
  | nttSignedQuoter vs =>
    refine ⟨_, _, refines_nttSignedQuoter (uniform_exactMatch fun t => ⟨rfl, rfl⟩) fun t => ?_⟩
    exact ScalarConstraint.check_exactMatch.trans
      (satisfied_exactMatch .quoter (fun _ => rfl) fun _ _ => Value.quoter.inj).symm

omit [External] in
theorem uniform_singleton {x : DataValue} {type : DataType} {length : Nat}
    (h : x.type = type ∧ x.byteLength? = some length) : Uniform [x] type length :=
  List.forall_mem_singleton.2 h

/-- What is converted has at least one value, and checks what the specification says. -/
theorem tryFrom_refines {spec : DataConstraintSpecification}
    {parsed : ParsedDataConstraintSpecification}
    (h : ParsedDataConstraintSpecification.tryFrom spec = .ok parsed) :
    spec.values ≠ [] ∧ ∃ type length, Refines parsed spec type length := by
  cases spec with
  | lessThan bound =>
    refine ⟨List.cons_ne_nil _ _, ?_⟩
    cases bound with
    | u8 b =>
      cases h
      refine ⟨_, _, refines_u8 (uniform_singleton ⟨rfl, rfl⟩) fun t => ?_⟩
      rw [satisfied_lessThan rfl, ← UInt8.lt_iff_toNat_lt]
      exact require_eq_ok
    | u16 b =>
      cases h
      refine ⟨_, _, refines_u16 (uniform_singleton ⟨rfl, rfl⟩) fun t => ?_⟩
      rw [satisfied_lessThan rfl, ← UInt16.lt_iff_toNat_lt]
      exact require_eq_ok
    | u32 b =>
      cases h
      refine ⟨_, _, refines_u32 (uniform_singleton ⟨rfl, rfl⟩) fun t => ?_⟩
      rw [satisfied_lessThan rfl, ← UInt32.lt_iff_toNat_lt]
      exact require_eq_ok
    | u64 b =>
      cases h
      refine ⟨_, _, refines_u64 (uniform_singleton ⟨rfl, rfl⟩) fun t => ?_⟩
      rw [satisfied_lessThan rfl, ← UInt64.lt_iff_toNat_lt]
      exact require_eq_ok
    | _ => cases h
  | greaterThan bound =>
    refine ⟨List.cons_ne_nil _ _, ?_⟩
    cases bound with
    | u8 b =>
      cases h
      refine ⟨_, _, refines_u8 (uniform_singleton ⟨rfl, rfl⟩) fun t => ?_⟩
      rw [satisfied_greaterThan rfl, ← UInt8.lt_iff_toNat_lt]
      exact require_eq_ok
    | u16 b =>
      cases h
      refine ⟨_, _, refines_u16 (uniform_singleton ⟨rfl, rfl⟩) fun t => ?_⟩
      rw [satisfied_greaterThan rfl, ← UInt16.lt_iff_toNat_lt]
      exact require_eq_ok
    | u32 b =>
      cases h
      refine ⟨_, _, refines_u32 (uniform_singleton ⟨rfl, rfl⟩) fun t => ?_⟩
      rw [satisfied_greaterThan rfl, ← UInt32.lt_iff_toNat_lt]
      exact require_eq_ok
    | u64 b =>
      cases h
      refine ⟨_, _, refines_u64 (uniform_singleton ⟨rfl, rfl⟩) fun t => ?_⟩
      rw [satisfied_greaterThan rfl, ← UInt64.lt_iff_toNat_lt]
      exact require_eq_ok
    | _ => cases h
  | equalTo values =>
    obtain ⟨hne, hparsed⟩ := parseExactMatchValues_eq_ok h
    exact ⟨hne, hparsed.refines⟩
  | neq values =>
    obtain ⟨hne, hparsed⟩ := parseExactMatchValues_eq_ok h
    exact ⟨hne, hparsed.refines⟩

/-- Exactly the specifications that are not malformed are converted. -/
theorem tryFrom_isOk_iff {spec : DataConstraintSpecification} :
    (∃ parsed, ParsedDataConstraintSpecification.tryFrom spec = .ok parsed) ↔
      ¬ MalformedSpecification spec := by
  constructor
  · rintro ⟨parsed, hparsed⟩ h
    obtain ⟨hne, type, length, hrefines⟩ := tryFrom_refines hparsed
    cases h with
    | lessThan bound h => cases bound <;> first | exact h trivial | cases hparsed
    | greaterThan bound h => cases bound <;> first | exact h trivial | cases hparsed
    | equalTo values h =>
      exact not_malformedValues_iff.2 ⟨hne, type, length, hrefines.uniform⟩ h
    | neq values h =>
      exact not_malformedValues_iff.2 ⟨hne, type, length, hrefines.uniform⟩ h
  · intro h
    cases spec with
    | lessThan bound =>
      cases bound <;> first | exact ⟨_, rfl⟩ | exact absurd (.lessThan _ id) h
    | greaterThan bound =>
      cases bound <;> first | exact ⟨_, rfl⟩ | exact absurd (.greaterThan _ id) h
    | equalTo values =>
      have hvalues : ¬ MalformedValues values := fun hv => h (.equalTo values hv)
      obtain ⟨hne, type, length, huniform⟩ := not_malformedValues_iff.1 hvalues
      exact parseExactMatchValues_of_uniform hne huniform true
    | neq values =>
      have hvalues : ¬ MalformedValues values := fun hv => h (.neq values hv)
      obtain ⟨hne, type, length, huniform⟩ := not_malformedValues_iff.1 hvalues
      exact parseExactMatchValues_of_uniform hne huniform false

/-! ## Constraints on instructions -/

/-- **What a configured data constraint means.** It is converted unless it is malformed. The
    converted form accepts exactly the instructions whose data reaches to the end of the value and
    holds there a value that the specification is satisfied by; and on data that reaches so far,
    the only errors beside an unsatisfied constraint are those of a quote's signature. -/
theorem dataConstraint_refines (startByte : UInt16) (spec : DataConstraintSpecification) :
    ((∃ parsed, ParsedDataConstraint.tryFrom ⟨startByte, spec⟩ = .ok parsed) ↔
      ¬ MalformedSpecification spec) ∧
    ∀ parsed, ParsedDataConstraint.tryFrom ⟨startByte, spec⟩ = .ok parsed →
      ∃ type length, spec.values ≠ [] ∧
        (∀ x ∈ spec.values, x.type = type ∧ x.byteLength? = some length) ∧
        ∀ ix : InstructionWithIndex,
          (parsed.checkData ix = .ok ⟨⟩ ↔
            startByte.toNat + length ≤ ix.instruction.data.length ∧
            ∃ v, Holds type ((ix.instruction.data.drop startByte.toNat).take length) v ∧
              spec.Satisfied v) ∧
          NoPanic (parsed.checkData ix) ∧
          (startByte.toNat + length ≤ ix.instruction.data.length → ∀ fault,
            parsed.constraint.checkBytes
                ((ix.instruction.data.drop startByte.toNat).take length) = .error fault →
              FailsOnQuote parsed.constraint
                ((ix.instruction.data.drop startByte.toNat).take length) fault) := by
  have hconverts {parsed : ParsedDataConstraint} :
      ParsedDataConstraint.tryFrom ⟨startByte, spec⟩ = .ok parsed ↔
        ParsedDataConstraintSpecification.tryFrom spec = .ok parsed.constraint ∧
          parsed.startByte = startByte := by
    constructor
    · intro h
      obtain ⟨constraint, hconstraint, h⟩ := bind_eq_ok.1 h
      cases pure_eq_ok.1 h
      exact ⟨hconstraint, rfl⟩
    · rintro ⟨hconstraint, rfl⟩
      exact bind_eq_ok.2 ⟨_, hconstraint, rfl⟩
  refine ⟨?_, fun parsed hparsed => ?_⟩
  · rw [← tryFrom_isOk_iff]
    constructor
    · rintro ⟨parsed, hparsed⟩
      exact ⟨parsed.constraint, (hconverts.1 hparsed).1⟩
    · rintro ⟨constraint, hconstraint⟩
      exact ⟨⟨startByte, constraint⟩, hconverts.2 ⟨hconstraint, rfl⟩⟩
  · obtain ⟨hconstraint, rfl⟩ := hconverts.1 hparsed
    obtain ⟨hne, type, length, hrefines⟩ := tryFrom_refines hconstraint
    refine ⟨type, length, hne, hrefines.uniform, fun ix => ⟨?_, noPanic_checkData parsed ix, ?_⟩⟩
    · rw [ParsedDataConstraint.checkData_eq_ok, hrefines.byteLength_eq]
      unfold slice?
      split
      · rename_i hle
        rw [and_iff_right hle]
        have hlength : ((ix.instruction.data.drop parsed.startByte.toNat).take length).length =
            length := by
          rw [List.length_take, List.length_drop]
          omega
        rw [← hrefines.check_iff _ hlength]
        simp
      · rename_i hgt
        simp [hgt]
    · intro hle fault hfault
      refine hrefines.fails _ ?_ fault hfault
      rw [List.length_take, List.length_drop]
      omega

end

/-- A bound on two bytes after the first one: 299 is below it, and data that ends before the second
    of them is out of bounds. -/
theorem dataConstraint_refines_lessThan :
    letI := External.uncalled
    letI parsed : ParsedDataConstraint := ⟨1, .u16 (.lessThan 300)⟩
    parsed.checkData ⟨0, ⟨0, [], [9, 43, 1]⟩⟩ = .ok ⟨⟩ ∧
      parsed.checkData ⟨0, ⟨0, [], [9, 43]⟩⟩ ≠ .ok ⟨⟩ := by
  let _ := External.uncalled
  obtain ⟨type, length, -, huniform, hcheck⟩ :=
    (dataConstraint_refines 1 (.lessThan (.u16 300))).2 ⟨1, .u16 (.lessThan 300)⟩ rfl
  obtain ⟨rfl, hlength⟩ := huniform _ List.mem_cons_self
  obtain rfl := Option.some.inj hlength
  constructor
  · have hinteger : DataType.IsInteger .u16 := trivial
    exact (hcheck _).1.2
      ⟨by decide, _, .integer hinteger _, 299, 300, rfl, rfl, by decide⟩
  · intro h
    exact absurd ((hcheck _).1.1 h).1 (by decide)

end FogoSessions.Paymaster
