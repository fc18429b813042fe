import FogoSessions.Paymaster.DomainState
import Mathlib.Algebra.Order.Floor.Div

/-!
# Quoting a fee

`cli.rs` and `api.rs`: the fee coefficients that the operator configures at startup, and the handler
that quotes the fee of a variation in a mint. The quote is a division by the mint's coefficient;
`feeHandler_safe_iff` says when it can fault.
-/

namespace FogoSessions.Paymaster

open Lib Solana

/-! ## The coefficients -/

/-- Reading the operator's option. -/
class CoefficientText where
  /-- `serde_json::from_str::<HashMap<String, u64>>`; the entries stand in the order in which the
      map is iterated -/
  fromStr : String → Except String (NameMap UInt64)
  /-- the text of the `ParsePubkeyError` of a text that is no key -/
  parsePubkeyError : String → String

/-- `HashMap::insert`. -/
def FeeCoefficients.insert (coefficients : FeeCoefficients) (mint : Pubkey) (value : UInt64) :
    FeeCoefficients :=
  fun key => if key = mint then some value else coefficients key

section

variable [CoefficientText]

/-- One round of the loop over the texts. -/
def insertCoefficient (result : FeeCoefficients) (entry : Sigma fun _ : String => UInt64) :
    Except String FeeCoefficients := do
  let pubkey ← okOr (Pubkey.fromStr entry.1)
    s!"Invalid Pubkey '{entry.1}': {CoefficientText.parsePubkeyError entry.1}"
  return result.insert pubkey entry.2

def parseFeeCoefficients (s : String) : Except String FeeCoefficients := do
  let stringMap ← mapErr (fun e => s!"Invalid JSON for fee coefficients: {e}")
    (CoefficientText.fromStr s)
  stringMap.entries.foldlM insertCoefficient fun _ => none

/-- The loop adds the values of the texts to the result so far; every text is that of a key. -/
theorem foldlM_insertCoefficient {entries : List (Sigma fun _ : String => UInt64)}
    {result coefficients : FeeCoefficients} (hkeys : entries.NodupKeys)
    (h : entries.foldlM insertCoefficient result = .ok coefficients) :
    (∀ mint, coefficients mint = (entries.dlookup mint.toString).or (result mint)) ∧
      ∀ entry ∈ entries, ∃ mint : Pubkey, mint.toString = entry.1 := by
  induction entries generalizing result with
  | nil =>
    cases pure_eq_ok.1 h
    exact ⟨fun mint => rfl, List.forall_mem_nil _⟩
  | cons entry entries ih =>
    obtain ⟨next, hnext, h⟩ := bind_eq_ok.1 h
    simp only [insertCoefficient, bind_eq_ok, okOr_eq_ok, pure_eq_ok] at hnext
    obtain ⟨pubkey, hpubkey, rfl⟩ := hnext
    have htext := Pubkey.toString_of_fromStr hpubkey
    obtain ⟨key, value⟩ := entry
    obtain rfl : pubkey.toString = key := htext
    obtain ⟨hnotin, hkeys⟩ := List.nodupKeys_cons.1 hkeys
    obtain ⟨hlookup, htexts⟩ := ih hkeys h
    refine ⟨fun mint => ?_, List.forall_mem_cons.2 ⟨⟨pubkey, rfl⟩, htexts⟩⟩
    rw [hlookup, FeeCoefficients.insert]
    by_cases heq : mint = pubkey
    · subst heq
      rw [if_pos rfl, List.dlookup_cons_eq, List.dlookup_eq_none.2 hnotin]
      rfl
    · have hne : mint.toString ≠ pubkey.toString := fun hs => heq (Pubkey.toString_injective hs)
      rw [if_neg heq, List.dlookup_cons_ne _ _ hne]

/-- The coefficient of a mint is the value of its text. -/
theorem parseFeeCoefficients_eq_ok {s : String} {coefficients : FeeCoefficients}
    (h : parseFeeCoefficients s = .ok coefficients) :
    ∃ stringMap, CoefficientText.fromStr s = .ok stringMap ∧
      (∀ mint, coefficients mint = stringMap.lookup mint.toString) ∧
      ∀ entry ∈ stringMap.entries, ∃ mint : Pubkey, mint.toString = entry.1 := by
  simp only [parseFeeCoefficients, bind_eq_ok, mapErr_eq_ok] at h
  obtain ⟨stringMap, hmap, h⟩ := h
  obtain ⟨hlookup, htexts⟩ := foldlM_insertCoefficient stringMap.nodupKeys h
  refine ⟨stringMap, hmap, fun mint => ?_, htexts⟩
  rw [hlookup, Option.or_none]
  rfl

end

/-! ## The handler -/

/-- `u64::div_ceil`: division by zero panics. -/
def divCeil {ε : Type} (a b : UInt64) : Outcome ε UInt64 :=
  if b = 0 then .error .panic
  else
    let quotient := a / b
    if 0 < a % b then .ok (quotient + 1) else .ok quotient

/-- Otherwise it rounds up. -/
theorem divCeil_of_ne_zero {ε : Type} {a b : UInt64} (hb : b ≠ 0) :
    ∃ q, (divCeil a b : Outcome ε UInt64) = .ok q ∧ q.toNat = a.toNat ⌈/⌉ b.toNat := by
  have hpos : 0 < b.toNat := Nat.pos_of_ne_zero fun h => hb (UInt64.toNat_inj.1 h)
  have ha : a.toNat < 2 ^ 64 := a.toNat_lt
  have hdiv := Nat.div_add_mod a.toNat b.toNat
  have hmod := Nat.mod_lt a.toNat hpos
  unfold divCeil
  rw [if_neg hb, Nat.ceilDiv_eq_add_pred_div]
  dsimp only
  split
  · rename_i hrem
    have hrem : 0 < a.toNat % b.toNat := by simpa [UInt64.lt_iff_toNat_lt] using hrem
    have hle : 2 * (a.toNat / b.toNat) ≤ b.toNat * (a.toNat / b.toNat) :=
      Nat.mul_le_mul_right _ (by omega)
    have hsum : a.toNat + b.toNat - 1 = a.toNat % b.toNat - 1 + b.toNat * (a.toNat / b.toNat + 1) := by
      rw [Nat.mul_add, Nat.mul_one]
      omega
    refine ⟨_, rfl, ?_⟩
    rw [hsum, Nat.add_mul_div_left _ _ hpos, Nat.div_eq_of_lt (by omega), UInt64.toNat_add,
      UInt64.toNat_div, UInt64.toNat_one, Nat.mod_eq_of_lt (by omega), Nat.zero_add]
  · rename_i hrem
    have hrem : a.toNat % b.toNat = 0 := by simpa [UInt64.lt_iff_toNat_lt] using hrem
    have hsum : a.toNat + b.toNat - 1 = b.toNat - 1 + b.toNat * (a.toNat / b.toNat) := by omega
    refine ⟨_, rfl, ?_⟩
    rw [hsum, Nat.add_mul_div_left _ _ hpos, Nat.div_eq_of_lt (by omega), UInt64.toNat_div,
      Nat.zero_add]

theorem noPanic_divCeil {ε : Type} {a b : UInt64} :
    NoPanic (divCeil a b : Outcome ε UInt64) ↔ b ≠ 0 := by
  constructor
  · rintro h rfl
    exact h rfl
  · intro hb
    obtain ⟨q, hq, -⟩ := divCeil_of_ne_zero (ε := ε) (a := a) hb
    rw [hq]
    exact noPanic_ok

structure FeeQuery where
  domain : Option String
  origin : Option String
  variation : String
  mint : Pubkey

/-- The fee a variation requires. -/
def ParsedTransactionVariation.fee : ParsedTransactionVariation → UInt64
  | .v0 _ => 0
  | .v1 v => v.paymasterFeeLamports.getD 0

def feeHandler (state : ServerState) (query : FeeQuery) : Outcome ErrorReply UInt64 := do
  let domain ← mapErr .err (getDomainName query.domain query.origin)
  let domainState ← mapErr .err (getDomainState state.domains domain)
  let variation ← okOr (domainState.txVariations.lookup query.variation)
    (.err ⟨.notFound, s!"Variation {query.variation} not found for domain {domain}"⟩)
  let feeCoefficient ← okOr (state.feeCoefficients query.mint)
    (.err ⟨.notFound, s!"Paying paymaster fees in mint {query.mint} are not supported"⟩)
  divCeil variation.fee feeCoefficient

/-- What the query names is known: the domain, its variation and a coefficient of the mint. -/
structure Finds (state : ServerState) (query : FeeQuery) (variation : ParsedTransactionVariation)
    (coefficient : UInt64) : Prop where
  variation_eq : ∃ domain domainState, getDomainName query.domain query.origin = .ok domain ∧
    getDomainState state.domains domain = .ok domainState ∧
    domainState.txVariations.lookup query.variation = some variation
  coefficient_eq : state.feeCoefficients query.mint = some coefficient

/-- The handler divides exactly when it finds everything. -/
theorem feeHandler_of_finds {state : ServerState} {query : FeeQuery}
    {variation : ParsedTransactionVariation} {coefficient : UInt64}
    (h : Finds state query variation coefficient) :
    feeHandler state query = divCeil variation.fee coefficient := by
  obtain ⟨⟨domain, domainState, hname, hstate, hvariation⟩, hcoefficient⟩ := h
  simp only [feeHandler, hname, hcoefficient, mapErr, okOr, Bind.bind, Except.bind, hstate,
    hvariation]

theorem noPanic_feeHandler_of_not_finds {state : ServerState} {query : FeeQuery}
    (h : ∀ variation coefficient, ¬ Finds state query variation coefficient) :
    NoPanic (feeHandler state query) := by
  refine (noPanic_mapErr (f := id)).bind fun domain hname => ?_
  refine (noPanic_mapErr (f := id)).bind fun domainState hstate => ?_
  refine noPanic_okOr.bind fun variation hvariation => ?_
  refine noPanic_okOr.bind fun coefficient hcoefficient => ?_
  refine absurd ?_ (h variation coefficient)
  exact ⟨⟨domain, domainState, mapErr_eq_ok.1 hname, mapErr_eq_ok.1 hstate,
    okOr_eq_ok.1 hvariation⟩, okOr_eq_ok.1 hcoefficient⟩

/-- A query cannot fault exactly when it does not find a coefficient of zero. -/
theorem noPanic_feeHandler_iff {state : ServerState} {query : FeeQuery} :
    NoPanic (feeHandler state query) ↔ ∀ variation, ¬ Finds state query variation 0 := by
  constructor
  · intro hsafe variation hfinds
    rw [feeHandler_of_finds hfinds] at hsafe
    exact noPanic_divCeil.1 hsafe rfl
  · intro hzero
    by_cases hfound : ∃ variation coefficient, Finds state query variation coefficient
    · obtain ⟨variation, coefficient, hfinds⟩ := hfound
      rw [feeHandler_of_finds hfinds]
      apply noPanic_divCeil.2
      rintro rfl
      exact hzero variation hfinds
    · refine noPanic_feeHandler_of_not_finds fun variation coefficient hfinds => ?_
      exact hfound ⟨variation, coefficient, hfinds⟩

/-! ## Every query -/

/-- The state of a paymaster with one domain, named `domain`, that has one variation `variation`. -/
def singleDomain (coefficients : FeeCoefficients) (variation : ParsedTransactionVariation) :
    ServerState where
  domains := AList.singleton "domain"
    { domainRegistryKey := .ofNat 0, sponsors := [.ofNat 1], sponsors_nonempty := List.cons_ne_nil _ _
      enablePreflightSimulation := true, txVariations := AList.singleton "variation" variation
      nextAutoassignedSponsorIndex := 0 }
  balances := fun _ => none
  minimumBalanceLamports := 0
  feeCoefficients := coefficients

theorem singleDomain_finds {coefficients : FeeCoefficients}
    {variation : ParsedTransactionVariation} {mint : Pubkey} {coefficient : UInt64}
    (h : coefficients mint = some coefficient) :
    Finds (singleDomain coefficients variation) ⟨some "domain", none, "variation", mint⟩ variation
      coefficient :=
  ⟨⟨"domain", _, rfl, okOr_eq_ok.2 (List.dlookup_cons_eq ..), List.dlookup_cons_eq ..⟩, h⟩

/-- **When quoting a fee cannot fault.** With coefficients that were accepted at startup, a query
    faults exactly when it finds its variation and a coefficient of zero; no query of any state of
    the domains faults exactly when the operator configured no coefficient of zero. -/
theorem feeHandler_safe_iff [CoefficientText] (s : String) (coefficients : FeeCoefficients)
    (h : parseFeeCoefficients s = .ok coefficients) :
    (∀ state query, state.feeCoefficients = coefficients →
      (NoPanic (feeHandler state query) ↔ ∀ variation, ¬ Finds state query variation 0)) ∧
    ((∀ state query, state.feeCoefficients = coefficients → NoPanic (feeHandler state query)) ↔
      ∀ stringMap, CoefficientText.fromStr s = .ok stringMap →
        ∀ entry ∈ stringMap.entries, entry.2 ≠ 0) := by
  refine ⟨fun _ _ _ => noPanic_feeHandler_iff, ?_⟩
  obtain ⟨stringMap, hmap, hlookup, htexts⟩ := parseFeeCoefficients_eq_ok h
  constructor
  · intro hsafe stringMap' hmap' entry hentry hzero
    rw [hmap] at hmap'
    cases hmap'
    obtain ⟨mint, hmint⟩ := htexts entry hentry
    have hcoefficient : coefficients mint = some 0 := by
      rw [hlookup, hmint, ← hzero]
      exact AList.mem_lookup_iff.2 hentry
    have hfinds : Finds (singleDomain coefficients (.v0 ⟨"variation", []⟩)) _ _ 0 :=
      singleDomain_finds hcoefficient
    exact noPanic_feeHandler_iff.1 (hsafe _ _ rfl) _ hfinds
  · intro hnonzero state query hstate
    apply noPanic_feeHandler_iff.2
    intro variation hfinds
    have hzero := hfinds.coefficient_eq
    rw [hstate, hlookup] at hzero
    exact hnonzero stringMap hmap _ (AList.mem_lookup_iff.1 hzero) rfl

/-! ## A coefficient of zero -/

namespace ZeroCoefficient

/-- The mint of wrapped native tokens. -/
def mintText : String := "So11111111111111111111111111111111111111112"

/-- The option's text, with one coefficient for that mint. -/
def text (value : UInt64) : String := s!"\x7b\"{mintText}\":{value}\x7d"

/-- Reads the options of that form. -/
@[reducible] def reader (value : UInt64) : CoefficientText where
  fromStr s :=
    if s = text value then .ok (AList.singleton mintText value) else .error "expected value"
  parsePubkeyError _ := ""

theorem mintText_parses : ∃ mint, Pubkey.fromStr mintText = some mint := by
  have h : (Pubkey.fromStr mintText).isSome = true := by decide +kernel
  exact Option.isSome_iff_exists.1 h

theorem parse_text (value : UInt64) {mint : Pubkey} (hmint : Pubkey.fromStr mintText = some mint) :
    letI := reader value
    parseFeeCoefficients (text value) =
      .ok (FeeCoefficients.insert (fun _ => none) mint value) := by
  let _ := reader value
  have hread : CoefficientText.fromStr (text value) = .ok (AList.singleton mintText value) :=
    if_pos rfl
  rw [parseFeeCoefficients, hread]
  change [(⟨mintText, value⟩ : Sigma fun _ : String => UInt64)].foldlM insertCoefficient _ = _
  simp [insertCoefficient, hmint, okOr]

/-- Whatever the variation costs, quoting its fee divides by zero. -/
theorem feeHandler_panics :
    letI := reader 0
    ∃ coefficients mint, parseFeeCoefficients (text 0) = .ok coefficients ∧
      ∀ variation, feeHandler (singleDomain coefficients variation)
        ⟨some "domain", none, "variation", mint⟩ = .error .panic := by
  obtain ⟨mint, hmint⟩ := mintText_parses
  refine ⟨_, mint, parse_text 0 hmint, fun variation => ?_⟩
  rw [feeHandler_of_finds (singleDomain_finds (if_pos rfl))]
  rfl

end ZeroCoefficient

/-- A coefficient of one lamport faults no query. -/
theorem feeHandler_safe_iff_one :
    letI := ZeroCoefficient.reader 1
    ∃ coefficients, parseFeeCoefficients (ZeroCoefficient.text 1) = .ok coefficients ∧
      ∀ state query, state.feeCoefficients = coefficients → NoPanic (feeHandler state query) := by
  let _ := ZeroCoefficient.reader 1
  obtain ⟨mint, hmint⟩ := ZeroCoefficient.mintText_parses
  have hparse := ZeroCoefficient.parse_text 1 hmint
  refine ⟨_, hparse, (feeHandler_safe_iff _ _ hparse).2.2 fun stringMap hmap => ?_⟩
  obtain rfl : AList.singleton ZeroCoefficient.mintText 1 = stringMap :=
    Except.ok.inj ((if_pos rfl).symm.trans hmap)
  intro entry hentry
  rw [List.mem_singleton.1 hentry]
  decide

end FogoSessions.Paymaster
