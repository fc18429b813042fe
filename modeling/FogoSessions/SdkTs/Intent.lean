import FogoSessions.Intents.Lines
import FogoSessions.Lib.Decimal
import FogoSessions.Lib.Result

/-!
# The text the wallet signs

`sessions-sdk-ts/src/index.ts`: every intent is a header and a record whose entries are written one
a line; the token list of a session intent stands on lines of its own.
-/

namespace FogoSessions.SdkTs

open Lib Solana Intents Parser

/-- A `Record<string, string>`, in the order of its entries. -/
abbrev Record := List (String × String)

/-- `.join("\n")`. -/
def joinLines : List String → String
  | [] => ""
  | [line] => line
  | line :: lines => line ++ "\n" ++ joinLines lines

theorem joinLines_cons (line next : String) (lines : List String) :
    joinLines (line :: next :: lines) = line ++ "\n" ++ joinLines (next :: lines) := rfl

/-- `startsWith("\n")`. -/
def startsWithLineBreak (value : String) : Bool := value.toList.head? = some '\n'

def serializeKeyValue (key value : String) : String :=
  key ++ ":" ++ (if startsWithLineBreak value then "" else " ") ++ value

def serializeKV (data : Record) : String :=
  joinLines (data.map fun (key, value) => serializeKeyValue key value)

/-- A lowercase ASCII letter, or also a digit. -/
def isLower (c : Char) : Bool := 'a' ≤ c ∧ c ≤ 'z'
def isLowerOrDigit (c : Char) : Bool := isLower c ∨ '0' ≤ c ∧ c ≤ '9'

/-- The rest of `(_[a-z0-9]+)*$`, in a segment that has a character already if `nonempty`. -/
def matchesSegments : Bool → List Char → Bool
  | nonempty, [] => nonempty
  | nonempty, '_' :: cs => nonempty && matchesSegments false cs
  | _, c :: cs => isLowerOrDigit c && matchesSegments true cs

/-- The rest of `[a-z]+(_[a-z0-9]+)*$`, in the first segment. -/
def matchesHead : Bool → List Char → Bool
  | nonempty, [] => nonempty
  | nonempty, '_' :: cs => nonempty && matchesSegments false cs
  | _, c :: cs => isLower c && matchesHead true cs

/-- Refuses by throwing an error with a text. -/
def serializeExtra (extra : Record) : Except String String := do
  extra.forM fun (key, value) => do
    require (matchesHead false key.toList) s!"Extra key must be a snake_case string: {key}"
    require ('\n' ∉ value.toList) s!"Extra value must not contain a line break: {value}"
  return serializeKV extra

/-- An absent `extra` is joined as an empty text. -/
def serializeOptionalExtra : Option Record → Except String String
  | none => .ok ""
  | some extra => serializeExtra extra

/-- The message that `buildIntentInstruction` has the wallet sign. -/
def buildIntentMessage (header : String) (body : Record) (extra : Option Record) :
    Except String Bytes := do
  let extra ← serializeOptionalExtra extra
  return utf8 (joinLines [header, serializeKV body, extra])

/-! ## Amounts -/

/-- `padStart(length, "0")`. -/
def padStart (length : Nat) (cs : List Char) : List Char :=
  List.replicate (length - cs.length) '0' ++ cs

/-- `replace(/0+$/, "")`. -/
def trimZeros (cs : List Char) : List Char := (cs.reverse.dropWhile (· = '0')).reverse

/-- `whole` and `decimal`: the digits before and from the last `decimals` ones. -/
def splitDecimals (asStr : List Char) (decimals : Nat) : List Char × List Char :=
  if asStr.length > decimals then
    (asStr.take (asStr.length - decimals), asStr.drop (asStr.length - decimals))
  else (['0'], asStr)

def amountToString (amount : UInt64) (decimals : UInt8) : String :=
  let (whole, decimal) := splitDecimals (Nat.toDigits 10 amount.toNat) decimals.toNat
  let decimalPadded := padStart decimals.toNat decimal
  let decimalTruncated := trimZeros decimalPadded
  String.ofList (whole ++ if decimalTruncated = [] then [] else '.' :: decimalTruncated)

example : (amountToString 1500000 6, amountToString 25 3, amountToString 700 0) =
    ("1.5", "0.025", "700") := by decide +kernel

theorem mem_padStart {length : Nat} {cs : List Char} {c : Char} (h : c ∈ padStart length cs) :
    c = '0' ∨ c ∈ cs := by
  rcases List.mem_append.1 h with h | h
  · exact Or.inl (List.eq_of_mem_replicate h)
  · exact Or.inr h

theorem mem_trimZeros {cs : List Char} {c : Char} (h : c ∈ trimZeros cs) : c ∈ cs :=
  List.mem_reverse.1 ((List.dropWhile_sublist _).subset (List.mem_reverse.1 h))

theorem mem_splitDecimals {asStr : List Char} {decimals : Nat} {c : Char}
    (h : c ∈ (splitDecimals asStr decimals).1 ∨ c ∈ (splitDecimals asStr decimals).2) :
    c = '0' ∨ c ∈ asStr := by
  unfold splitDecimals at h
  split at h
  · exact Or.inr (h.elim List.mem_of_mem_take List.mem_of_mem_drop)
  · exact h.imp List.mem_singleton.1 id

theorem isDigits_splitDecimals {asStr : List Char} (h : IsDigits asStr) (decimals : Nat) :
    IsDigits (splitDecimals asStr decimals).1 ∧
      IsDigits (trimZeros (padStart decimals (splitDecimals asStr decimals).2)) := by
  have hdigit {c : Char} (hc : c = '0' ∨ c ∈ asStr) : c.isDigit = true := by
    rcases hc with rfl | hc
    · rfl
    · exact h c hc
  constructor
  · intro c hc
    exact hdigit (mem_splitDecimals (Or.inl hc))
  · intro c hc
    rcases mem_padStart (mem_trimZeros hc) with rfl | hc
    · rfl
    · exact hdigit (mem_splitDecimals (Or.inr hc))

/-- Amounts are written in digits and dots. -/
theorem mem_amountToString {amount : UInt64} {decimals : UInt8} {c : Char}
    (h : c ∈ (amountToString amount decimals).toList) : c.isDigit = true ∨ c = '.' := by
  obtain ⟨hwhole, hfraction⟩ := isDigits_splitDecimals (isDigits_toDigits amount.toNat) decimals.toNat
  simp only [amountToString, String.toList_ofList] at h
  rcases List.mem_append.1 h with h | h
  · exact Or.inl (hwhole c h)
  · split at h
    · cases h
    · rcases List.mem_cons.1 h with rfl | h
      · exact Or.inr rfl
      · exact Or.inl (hfraction c h)

theorem splitDecimals_whole_ne_nil (asStr : List Char) (decimals : Nat) :
    (splitDecimals asStr decimals).1 ≠ [] := by
  unfold splitDecimals
  split
  · intro hempty
    have hlength := congrArg List.length hempty
    rw [List.length_take, List.length_nil] at hlength
    omega
  · exact List.cons_ne_nil _ _

/-- Zeros are put before the digits only. -/
theorem splitDecimals_padStart (asStr : List Char) (decimals : Nat) :
    ∃ n, (splitDecimals asStr decimals).1 ++ padStart decimals (splitDecimals asStr decimals).2 =
        List.replicate n '0' ++ asStr ∧
      (padStart decimals (splitDecimals asStr decimals).2).length = decimals := by
  unfold splitDecimals padStart
  split
  case isTrue hlong =>
    refine ⟨0, ?_, ?_⟩
    · have hlength : (asStr.drop (asStr.length - decimals)).length = decimals := by
        rw [List.length_drop]
        omega
      rw [hlength, Nat.sub_self]
      exact List.take_append_drop _ asStr
    · rw [List.length_append, List.length_replicate, List.length_drop]
      omega
  case isFalse hshort =>
    refine ⟨decimals - asStr.length + 1, ?_, ?_⟩
    · rw [List.replicate_succ]
      rfl
    · rw [List.length_append, List.length_replicate]
      exact Nat.sub_add_cancel (Nat.le_of_not_lt hshort)

/-- The parts of an amount's text denote the amount. -/
theorem splitDecimals_decimalOf (amount decimals : Nat) :
    DecimalOf amount decimals (splitDecimals (Nat.toDigits 10 amount) decimals).1
      (trimZeros (padStart decimals (splitDecimals (Nat.toDigits 10 amount) decimals).2)) := by
  obtain ⟨n, hsplit, hlength⟩ := splitDecimals_padStart (Nat.toDigits 10 amount) decimals
  obtain ⟨hwhole, hfraction⟩ := isDigits_splitDecimals (isDigits_toDigits amount) decimals
  refine ⟨hwhole, splitDecimals_whole_ne_nil _ _, hfraction, ?_, ?_⟩
  · exact (List.rdropWhile_prefix _ _).length_le.trans_eq hlength
  · have hpad := rightpad_rdropWhile (x := '0') hlength.le
    rw [rightpad_of_length '0' hlength] at hpad
    rw [show (trimZeros _).rightpad decimals '0' = _ from hpad, hsplit, ofDigitChars_leftpad,
      Nat.ofDigitChars_ten_toDigits]

/-! ## Texts on one line -/

/-- Text without a line break. -/
def SingleLine (s : String) : Prop := ∀ c ∈ s.toList, c ≠ '\n' ∧ c ≠ '\r'

instance (s : String) : Decidable (SingleLine s) :=
  List.decidableBAll (fun c => c ≠ '\n' ∧ c ≠ '\r') s.toList

theorem SingleLine.noBreak {s : String} (h : SingleLine s) : NoBreak (utf8 s) := by
  have hnot {b : UInt8} {c : Char} (hb : b.toNat < 128) (hc : c.toNat = b.toNat)
      (hs : c ∉ s.toList) : b ∉ utf8 s := by
    intro hmem
    obtain ⟨d, hd, hcode⟩ := (mem_utf8_ascii hb).1 hmem
    have heq : d = c := Char.toNat_inj.1 (hcode.trans hc.symm)
    exact hs (heq ▸ hd)
  intro b hb
  constructor
  · rintro rfl
    exact hnot (c := '\n') (by decide) rfl (fun hc => (h _ hc).1 rfl) hb
  · rintro rfl
    exact hnot (c := '\r') (by decide) rfl (fun hc => (h _ hc).2 rfl) hb

theorem singleLine_toString (key : Pubkey) : SingleLine key.toString := by
  intro c hc
  have hcode := Pubkey.mem_toString hc
  unfold Base58.IsAlphanumCode at hcode
  constructor <;> rintro rfl <;> revert hcode <;> decide

theorem singleLine_of_digits {s : String} (h : ∀ c ∈ s.toList, c.isDigit = true ∨ c = '.') :
    SingleLine s := by
  intro c hc
  constructor <;> rintro rfl <;> exact absurd (h _ hc) (by decide)

theorem SingleLine.not_startsWith {s : String} (h : SingleLine s) :
    startsWithLineBreak s = false := by
  rw [startsWithLineBreak, decide_eq_false_iff_not]
  intro hhead
  exact (h '\n' (List.mem_of_mem_head? hhead)).1 rfl

/-! ## The bytes of a message -/

/-- The line of one entry, with its line break. -/
def entryBytes (key value : String) : Bytes := utf8 (serializeKeyValue key value) ++ [10]

theorem utf8_joinLines {lines : List String} (h : lines ≠ []) :
    utf8 (joinLines lines) ++ [10] = lines.flatMap fun line => utf8 line ++ [10] := by
  have hbreak : utf8 "\n" = [10] := by decide
  induction lines with
  | nil => exact absurd rfl h
  | cons line lines ih =>
    cases lines with
    | nil => simp [joinLines]
    | cons line' lines =>
      rw [joinLines_cons, utf8_append, utf8_append, hbreak, List.append_assoc,
        ih (List.cons_ne_nil _ _), List.flatMap_cons]
      simp

/-- Without extra entries, a message is its header and its entries, every line with a line break
    behind it. -/
theorem buildIntentMessage_none (header : String) {body : Record} (hbody : body ≠ []) :
    buildIntentMessage header body none =
      .ok (utf8 header ++ 10 :: body.flatMap fun (key, value) => entryBytes key value) := by
  have hbreak : utf8 "\n" = [10] := by decide
  have hempty : utf8 "" = [] := by decide
  have hne : body.map (fun (key, value) => serializeKeyValue key value) ≠ [] := by
    simpa using hbody
  have hentries := utf8_joinLines hne
  have hmessage : buildIntentMessage header body none =
      .ok (utf8 (joinLines [header, serializeKV body, ""])) := rfl
  rw [hmessage, joinLines_cons, joinLines_cons, joinLines, utf8_append, utf8_append, utf8_append,
    utf8_append, hbreak, hempty, List.append_nil, serializeKV, hentries, List.flatMap_map]
  simp [entryBytes]

theorem entryBytes_line {value : String} (h : SingleLine value) (key : String) (rest : Bytes) :
    entryBytes key value ++ rest = utf8 key ++ 58 :: 32 :: (utf8 value ++ 10 :: rest) := by
  have hcolon : utf8 ":" = [58] := by decide
  have hspace : utf8 " " = [32] := by decide
  simp only [entryBytes, serializeKeyValue, h.not_startsWith, Bool.false_eq_true, if_false,
    utf8_append, hcolon, hspace]
  simp

/-- An entry of the record is read back from its line. -/
theorem tagKeyValue_entry {O : Type} {key value : String} {parseTo : Bytes → Option O} {o : O}
    (hvalue : SingleLine value) (ho : parseTo (utf8 value) = some o) (rest : Bytes) :
    tagKeyValue key parseTo (entryBytes key value ++ rest) = some (o, rest) := by
  rw [entryBytes_line hvalue]
  exact tagKeyValue_line hvalue.noBreak ho rest

end FogoSessions.SdkTs
