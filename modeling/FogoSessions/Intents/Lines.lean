import FogoSessions.Intents.KeyValue
import FogoSessions.Lib.ParserLaws

/-!
# The lines of an intent

What a `key: value` line accepts, as equations on the text: a value is on the line of its key, or
on the lines below that start with a dash, or missing at the end of the text.
-/

namespace FogoSessions.Intents

open Lib Parser

variable {bs rest : Bytes}

theorem lineEndingOrEof_eq_some {ending : Bytes} :
    lineEndingOrEof bs = some (ending, rest) ↔ bs = ending ++ rest ∧ IsLineEnd ending rest := by
  simp only [lineEndingOrEof, alt_eq_some, lineEnding_eq_some, eof_eq_some]
  constructor
  · rintro (⟨h | h, rfl⟩ | ⟨-, rfl, rfl, rfl⟩)
    · exact ⟨rfl, Or.inl h⟩
    · exact ⟨rfl, Or.inr (Or.inl h)⟩
    · exact ⟨rfl, Or.inr (Or.inr ⟨rfl, rfl⟩)⟩
  · rintro ⟨rfl, h | h | ⟨rfl, rfl⟩⟩
    · exact Or.inl ⟨Or.inl h, rfl⟩
    · exact Or.inl ⟨Or.inr h, rfl⟩
    · exact Or.inr ⟨rfl, rfl, rfl, rfl⟩

theorem lineEnd_unique {a b restA restB : Bytes} (ha : IsLineEnd a restA) (hb : IsLineEnd b restB)
    (h : a ++ restA = b ++ restB) : restA = restB := by
  have hreadA := lineEndingOrEof_eq_some.2 ⟨rfl, ha⟩
  have hreadB := lineEndingOrEof_eq_some.2 ⟨rfl, hb⟩
  rw [h, hreadB] at hreadA
  cases hreadA
  rfl

/-- The rest of a line after a mark. -/
theorem markedLine_eq_some {mark line : Bytes} :
    delimited (tag mark) notLineEnding lineEndingOrEof bs = some (line, rest) ↔
      ∃ ending, bs = mark ++ (line ++ (ending ++ rest)) ∧ NoBreak line ∧ IsLineEnd ending rest := by
  simp only [delimited_eq_some, tag_eq_some, notLineEnding_eq_some, lineEndingOrEof_eq_some]
  constructor
  · rintro ⟨_, _, ⟨rfl, rfl⟩, _, ⟨rfl, hline, -⟩, ending, rfl, hending⟩
    exact ⟨ending, rfl, hline, hending⟩
  · rintro ⟨ending, rfl, hline, hending⟩
    exact ⟨mark, _, ⟨rfl, rfl⟩, ending ++ rest, ⟨rfl, hline, ending, rest, rfl, hending⟩, ending,
      rfl, hending⟩

/-- A line of a value below its key. -/
def dashLine : Parser Bytes := delimited (tag (utf8 "-")) notLineEnding lineEndingOrEof

theorem dashLine_eq_some {line : Bytes} :
    dashLine bs = some (line, rest) ↔
      ∃ ending, bs = 45 :: (line ++ (ending ++ rest)) ∧ NoBreak line ∧ IsLineEnd ending rest :=
  markedLine_eq_some

theorem shrinks_dashLine : Shrinks dashLine := by
  intro bs line rest h
  obtain ⟨ending, rfl, -, -⟩ := dashLine_eq_some.1 h
  simp only [List.length_cons, List.length_append]
  omega

/-- Lines with a dash are a prefix of the text, and they are all of that prefix. -/
theorem many_dashLine_prefix {lines : List Bytes} (h : Many dashLine bs lines rest) :
    ∃ consumed, bs = consumed ++ rest ∧ Many dashLine consumed lines [] := by
  induction h with
  | stop => exact ⟨[], rfl, .stop rfl⟩
  | @round bs mid rest line lines hline _ ih =>
    obtain ⟨consumed, rfl, hconsumed⟩ := ih
    obtain ⟨ending, rfl, hbreak, hending⟩ := dashLine_eq_some.1 hline
    refine ⟨45 :: (line ++ (ending ++ consumed)), by simp, .round (dashLine_eq_some.2
      ⟨ending, rfl, hbreak, ?_⟩) hconsumed⟩
    rcases hending with h | h | ⟨h, hnil⟩
    · exact Or.inl h
    · exact Or.inr (Or.inl h)
    · exact Or.inr (Or.inr ⟨h, (List.append_eq_nil_iff.1 hnil).1⟩)

/-! ## Values -/

/-- The value on the line of its key. -/
def IsInline (bs v rest : Bytes) : Prop :=
  ∃ ending, bs = 32 :: (v ++ (ending ++ rest)) ∧ NoBreak v ∧ IsLineEnd ending rest

/-- The value on the lines below its key. -/
def IsBlock (bs v rest : Bytes) (lines : List Bytes) : Prop :=
  ∃ ending, (ending = [10] ∨ ending = [13, 10]) ∧ bs = ending ++ (v ++ rest) ∧
    Many dashLine (v ++ rest) lines rest

theorem recognize_dashLines {v : Bytes} :
    recognize (many0 dashLine) bs = some (v, rest) ↔
      bs = v ++ rest ∧ ∃ lines, Many dashLine bs lines rest := by
  simp only [recognize, Option.map_eq_some_iff, Prod.exists, many0_eq_some shrinks_dashLine]
  constructor
  · rintro ⟨lines, rest', hmany, heq⟩
    obtain ⟨consumed, rfl, -⟩ := many_dashLine_prefix hmany
    cases heq
    refine ⟨by simp, lines, hmany⟩
  · rintro ⟨rfl, lines, hmany⟩
    exact ⟨lines, rest, hmany, by simp⟩

theorem value_eq_some {v : Bytes} :
    value bs = some (v, rest) ↔
      IsInline bs v rest ∨ (∃ lines, IsBlock bs v rest lines) ∨ bs = [] ∧ v = [] ∧ rest = [] := by
  have hinline : delimited (tag (utf8 " ")) notLineEnding lineEndingOrEof bs = some (v, rest) ↔
      IsInline bs v rest := markedLine_eq_some
  have hblock : preceded lineEnding (recognize (many0 dashLine)) bs = some (v, rest) ↔
      ∃ lines, IsBlock bs v rest lines := by
    simp only [preceded_eq_some, lineEnding_eq_some, recognize_dashLines]
    constructor
    · rintro ⟨ending, _, ⟨hending, rfl⟩, rfl, lines, hmany⟩
      exact ⟨lines, ending, hending, rfl, hmany⟩
    · rintro ⟨lines, ending, hending, rfl, hmany⟩
      exact ⟨ending, _, ⟨hending, rfl⟩, rfl, lines, hmany⟩
  -- the three ways start differently, so it does not matter that they are tried in order
  have hnotInline (h : ∀ bs', bs ≠ 32 :: bs') :
      delimited (tag (utf8 " ")) notLineEnding lineEndingOrEof bs = none := by
    cases hread : delimited (tag (utf8 " ")) notLineEnding lineEndingOrEof bs with
    | none => rfl
    | some r =>
      obtain ⟨v, rest⟩ := r
      obtain ⟨ending, hbs, -, -⟩ := markedLine_eq_some.1 hread
      exact absurd hbs (h _)
  have hdef : value bs = ((delimited (tag (utf8 " ")) notLineEnding lineEndingOrEof bs).or
      ((preceded lineEnding (recognize (many0 dashLine)) bs).or (eof bs))) := rfl
  rw [hdef, Option.or_eq_some_iff, Option.or_eq_some_iff, hinline, hblock, eof_eq_some]
  constructor
  · rintro (h | ⟨-, h | ⟨-, rfl, rfl, rfl⟩⟩)
    · exact Or.inl h
    · exact Or.inr (Or.inl h)
    · exact Or.inr (Or.inr ⟨rfl, rfl, rfl⟩)
  · rintro (h | ⟨lines, ending, hending, rfl, hmany⟩ | ⟨rfl, rfl, rfl⟩)
    · exact Or.inl h
    · refine Or.inr ⟨hnotInline ?_, Or.inl ⟨lines, ending, hending, rfl, hmany⟩⟩
      rcases hending with rfl | rfl <;> simp
    · exact Or.inr ⟨rfl, Or.inr ⟨rfl, rfl, rfl, rfl⟩⟩

/-- The value of a key, before the rest of the text. -/
def IsValue (bs v rest : Bytes) : Prop :=
  IsInline bs v rest ∨ (∃ lines, IsBlock bs v rest lines) ∨ bs = [] ∧ v = [] ∧ rest = []

theorem isValue_iff {v : Bytes} : IsValue bs v rest ↔ value bs = some (v, rest) := value_eq_some.symm

theorem IsValue.suffix {v : Bytes} (h : IsValue bs v rest) : ∃ consumed, bs = consumed ++ rest := by
  rcases h with ⟨ending, rfl, -⟩ | ⟨_, ending, -, rfl, -⟩ | ⟨rfl, -, rfl⟩
  · exact ⟨32 :: (v ++ ending), by simp⟩
  · exact ⟨ending ++ v, by simp⟩
  · exact ⟨[], rfl⟩

/-! ## Keys and values -/

theorem keyValueWithKeyType_eq_some {K O : Type} {key : Parser K} {parseTo : Bytes → Option O}
    {k : K} {o : O} :
    keyValueWithKeyType key parseTo bs = some ((k, o), rest) ↔
      ∃ mid v, key bs = some (k, 58 :: mid) ∧ value mid = some (v, rest) ∧ parseTo v = some o := by
  simp only [keyValueWithKeyType, mapOpt_eq_some, Prod.exists, separatedPair_eq_some, char,
    tag_eq_some, Option.map_eq_some_iff, Prod.mk.injEq]
  constructor
  · rintro ⟨_, v, ⟨_, hkey, _, mid, ⟨-, rfl⟩, hv⟩, _, ho, rfl, rfl⟩
    exact ⟨mid, v, hkey, hv, ho⟩
  · rintro ⟨mid, v, hkey, hv, ho⟩
    exact ⟨k, v, ⟨_, hkey, _, mid, ⟨rfl, rfl⟩, hv⟩, o, ho, rfl, rfl⟩

theorem tagKeyValue_eq_some {O : Type} {key : String} {parseTo : Bytes → Option O} {o : O} :
    tagKeyValue key parseTo bs = some (o, rest) ↔
      ∃ mid v, bs = utf8 key ++ 58 :: mid ∧ value mid = some (v, rest) ∧ parseTo v = some o := by
  simp only [tagKeyValue, map_eq_some, Prod.exists, keyValueWithKeyType_eq_some, tag_eq_some]
  constructor
  · rintro ⟨_, _, ⟨mid, v, ⟨-, rfl⟩, hv, ho⟩, rfl⟩
    exact ⟨mid, v, rfl, hv, ho⟩
  · rintro ⟨mid, v, rfl, hv, ho⟩
    exact ⟨utf8 key, o, ⟨mid, v, ⟨rfl, rfl⟩, hv, ho⟩, rfl⟩

/-- A line `key: value` reads as its value. -/
theorem tagKeyValue_line {O : Type} {key : String} {parseTo : Bytes → Option O} {o : O} {v : Bytes}
    (hv : NoBreak v) (ho : parseTo v = some o) (rest : Bytes) :
    tagKeyValue key parseTo (utf8 key ++ 58 :: 32 :: (v ++ 10 :: rest)) = some (o, rest) :=
  tagKeyValue_eq_some.2 ⟨_, v, rfl,
    value_eq_some.2 (Or.inl ⟨[10], rfl, hv, Or.inl rfl⟩), ho⟩

/-- Lines with a dash, each with its line break. -/
def dashText (lines : List Bytes) : Bytes := lines.flatMap fun line => 45 :: (line ++ [10])

theorem many_dashText {lines : List Bytes} (h : ∀ line ∈ lines, NoBreak line)
    (hrest : dashLine rest = none) : Many dashLine (dashText lines ++ rest) lines rest := by
  induction lines with
  | nil => exact .stop hrest
  | cons line lines ih =>
    have hline : dashLine (dashText (line :: lines) ++ rest) =
        some (line, dashText lines ++ rest) :=
      dashLine_eq_some.2 ⟨[10], by simp [dashText], h line List.mem_cons_self, Or.inl rfl⟩
    exact .round hline (ih fun l hl => h l (List.mem_cons_of_mem line hl))

/-- A key with its value on lines with a dash reads as these lines. -/
theorem tagKeyValue_block {O : Type} {key : String} {parseTo : Bytes → Option O} {o : O}
    {lines : List Bytes} (h : ∀ line ∈ lines, NoBreak line) (ho : parseTo (dashText lines) = some o)
    (hrest : dashLine rest = none) :
    tagKeyValue key parseTo (utf8 key ++ 58 :: 10 :: (dashText lines ++ rest)) = some (o, rest) :=
  tagKeyValue_eq_some.2 ⟨_, dashText lines, rfl, value_eq_some.2 (Or.inr (Or.inl
    ⟨lines, [10], Or.inl rfl, rfl, many_dashText h hrest⟩)), ho⟩

end FogoSessions.Intents
