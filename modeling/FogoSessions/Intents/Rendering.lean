import FogoSessions.Intents.Trailing

/-!
# Rendering lines

`many0(key_value)` against the other direction: pairs written as lines `key: value` are read back,
a step takes the key and the colon at least, and a value is one line or lines with a dash.
-/

namespace FogoSessions.Intents

open Lib Parser

/-! ## Lines -/

/-- A pair that fits on a line. -/
structure Line where
  key : Bytes
  value : String
  isKey : IsKey key
  noBreak : NoBreak (utf8 value)

inductive Ending where
  | lf
  | crlf
deriving DecidableEq

def Ending.text : Ending → Bytes
  | lf => [10]
  | crlf => [13, 10]

theorem Ending.text_eq (ending : Ending) : ending.text = [10] ∨ ending.text = [13, 10] := by
  cases ending with
  | lf => exact Or.inl rfl
  | crlf => exact Or.inr rfl

namespace Line

def pair (line : Line) : Bytes × String := (line.key, line.value)

/-- The line without its end. -/
def text (line : Line) : Bytes := line.key ++ 58 :: 32 :: utf8 line.value

/-- One line, read back. -/
theorem keyValue_text (line : Line) {ending rest : Bytes} (h : IsLineEnd ending rest) :
    keyValue ofUtf8? (line.text ++ (ending ++ rest)) = some (line.pair, rest) := by
  have hvalue : IsValue (32 :: (utf8 line.value ++ (ending ++ rest))) (utf8 line.value) rest :=
    Or.inl ⟨ending, rfl, line.noBreak, h⟩
  have htext : line.text ++ (ending ++ rest) =
      line.key ++ 58 :: 32 :: (utf8 line.value ++ (ending ++ rest)) := by
    simp [text]
  rw [htext]
  exact keyValue_eq_some.2 ⟨line.isKey, _, _, rfl, hvalue, ofUtf8?_utf8 line.value⟩

end Line

/-- Lines with their ends, and at the end of the text possibly one that has none. -/
def render : List (Line × Ending) → Option Line → Bytes
  | [], none => []
  | [], some last => last.text
  | (line, ending) :: lines, last => line.text ++ (ending.text ++ render lines last)

theorem keyValue_nil {O : Type} {parseTo : Bytes → Option O} : keyValue parseTo [] = none := by
  cases h : keyValue parseTo [] with
  | none => rfl
  | some r =>
    have hread : keyValue parseTo [] = some (r.1, r.2) := h
    exact absurd (shrinks_keyValue hread) (Nat.not_lt_zero _)

theorem many_render (lines : List (Line × Ending)) (last : Option Line) :
    Many (keyValue ofUtf8?) (render lines last)
      ((lines.map Prod.fst ++ last.toList).map Line.pair) [] := by
  induction lines with
  | nil =>
    cases last with
    | none => exact .stop keyValue_nil
    | some last =>
      have hlast : keyValue ofUtf8? (render [] (some last)) = some (last.pair, []) := by
        have hend : IsLineEnd [] [] := Or.inr (Or.inr ⟨rfl, rfl⟩)
        have hread := last.keyValue_text hend
        rwa [List.append_nil, List.append_nil] at hread
      exact .round hlast (.stop keyValue_nil)
  | cons entry lines ih =>
    obtain ⟨line, ending⟩ := entry
    have hend : IsLineEnd ending.text (render lines last) :=
      ending.text_eq.imp_right Or.inl
    exact .round (line.keyValue_text hend) ih

/-! ## Values below their key -/

/-- Lines that start with a dash, the last of which may end with the text. -/
inductive DashLines : Bytes → Prop where
  | none : DashLines []
  | last {line : Bytes} (noBreak : NoBreak line) : DashLines (45 :: line)
  | line {line ending more : Bytes} (noBreak : NoBreak line)
      (isEnding : ending = [10] ∨ ending = [13, 10]) (rest : DashLines more) :
      DashLines (45 :: (line ++ (ending ++ more)))

theorem dashLines_of_many {v rest : Bytes} {lines : List Bytes} (h : Many dashLine v lines rest)
    (hrest : rest = []) : DashLines v := by
  induction h with
  | stop =>
    subst hrest
    exact .none
  | round hline _ ih =>
    obtain ⟨ending, rfl, hbreak, hending⟩ := dashLine_eq_some.1 hline
    rcases hending with h | h | ⟨rfl, rfl⟩
    · exact .line hbreak (Or.inl h) (ih hrest)
    · exact .line hbreak (Or.inr h) (ih hrest)
    · rw [List.append_nil, List.append_nil]
      exact .last hbreak

/-- The value of a key and what follows it: on the line of the key, on the lines below, or missing
    at the end of the text. -/
inductive Placed : Bytes → Bytes → Bytes → Prop where
  | sameLine {v ending rest : Bytes} (noBreak : NoBreak v) (isEnd : IsLineEnd ending rest) :
      Placed (32 :: (v ++ (ending ++ rest))) v rest
  | below {ending v rest : Bytes} (isEnding : ending = [10] ∨ ending = [13, 10])
      (dashes : DashLines v) : Placed (ending ++ (v ++ rest)) v rest
  | missing : Placed [] [] []

theorem IsValue.placed {bs v rest : Bytes} (h : IsValue bs v rest) : Placed bs v rest := by
  rcases h with ⟨ending, rfl, hbreak, hend⟩ | ⟨lines, ending, hending, rfl, hmany⟩ | ⟨rfl, rfl, rfl⟩
  · exact .sameLine hbreak hend
  · obtain ⟨consumed, hconsumed, hlines⟩ := many_dashLine_prefix hmany
    have hv : v = consumed := List.append_cancel_right hconsumed
    subst hv
    exact .below hending (dashLines_of_many hlines rfl)
  · exact .missing

/-! ## The repetition -/

/-- What a successful step read: the key, the colon, and a value that stands where values stand. -/
structure Step {O : Type} (parseTo : Bytes → Option O) (bs key : Bytes) (o : O) (rest : Bytes) :
    Prop where
  isKey : IsKey key
  read : ∃ text v, bs = key ++ 58 :: text ∧ Placed text v rest ∧ parseTo v = some o
  progress : rest.length + 2 ≤ bs.length

theorem keyValue_step {O : Type} {parseTo : Bytes → Option O} {bs key rest : Bytes} {o : O}
    (h : keyValue parseTo bs = some ((key, o), rest)) : Step parseTo bs key o rest := by
  obtain ⟨hkey, text, v, rfl, hvalue, ho⟩ := keyValue_eq_some.1 h
  have hlength : rest.length + 2 ≤ (key ++ 58 :: text).length := by
    have hpos := List.length_pos_iff.2 hkey.1
    obtain ⟨consumed, rfl⟩ := hvalue.suffix
    simp only [List.length_append, List.length_cons]
    omega
  exact { isKey := hkey, read := ⟨text, v, rfl, hvalue.placed, ho⟩, progress := hlength }

/-- **The lines of an intent read back as they were written**, and no text keeps the repetition
    going. -/
theorem keyValue_inverts_render :
    (∀ (lines : List (Line × Ending)) (last : Option Line),
      many0 (keyValue ofUtf8?) (render lines last) =
        some ((lines.map Prod.fst ++ last.toList).map Line.pair, [])) ∧
    (∀ (O : Type) (parseTo : Bytes → Option O) (bs : Bytes),
      (∀ (key rest : Bytes) (o : O),
        keyValue parseTo bs = some ((key, o), rest) → Step parseTo bs key o rest) ∧
      ∃ pairs rest, many0 (keyValue parseTo) bs = some (pairs, rest)) := by
  constructor
  · intro lines last
    exact (many0_eq_some shrinks_keyValue).2 (many_render lines last)
  · intro O parseTo bs
    refine ⟨fun key rest o h => keyValue_step h, ?_⟩
    have hshrinks : Shrinks (keyValue parseTo) := shrinks_keyValue
    obtain ⟨pairs, rest, hmany⟩ := hshrinks.exists_many bs
    exact ⟨pairs, rest, (many0_eq_some shrinks_keyValue).2 hmany⟩

namespace RenderingSample

def amount : Line where
  key := utf8 "max_amount"
  value := "1.5 ¢"
  isKey := isKey_iff.2 (by decide +kernel)
  noBreak := noBreak_iff.2 (by decide +kernel)

def recipient : Line where
  key := utf8 "to"
  value := ""
  isKey := isKey_iff.2 (by decide +kernel)
  noBreak := noBreak_iff.2 (by decide +kernel)

theorem render_eq : render [(recipient, .crlf), (amount, .lf)] (some recipient) =
    utf8 "to: \r\nmax_amount: 1.5 ¢\nto: " := by
  decide +kernel

end RenderingSample

open RenderingSample in
theorem keyValue_inverts_render_sample :
    many0 (keyValue ofUtf8?) (utf8 "to: \r\nmax_amount: 1.5 ¢\nto: ") =
        some ([recipient.pair, amount.pair, recipient.pair], []) ∧
      Step ofUtf8? (utf8 "list:\r\n-a\r\n-b\nto: ") (utf8 "list") "-a\r\n-b\n" (utf8 "to: ") := by
  constructor
  · rw [← render_eq]
    exact keyValue_inverts_render.1 [(recipient, .crlf), (amount, .lf)] (some recipient)
  · have hread : keyValue ofUtf8? (utf8 "list:\r\n-a\r\n-b\nto: ") =
        some ((utf8 "list", "-a\r\n-b\n"), utf8 "to: ") := by
      decide +kernel
    exact (keyValue_inverts_render.2 String ofUtf8? _).1 _ _ _ hread

end FogoSessions.Intents
