import FogoSessions.Lib.Parser
import Mathlib.Data.List.TakeWhile

/-!
# What the combinators accept

Each combinator is characterized by the inputs it accepts, so that a grammar built from them is
inverted by rewriting. The repetition is characterized by the rounds it makes, `Many`.
-/

namespace Lib.Parser

variable {α β γ : Type} {bs rest : Bytes}

theorem map_eq_some {p : Parser α} {f : α → β} {b : β} :
    (f <$> p) bs = some (b, rest) ↔ ∃ a, p bs = some (a, rest) ∧ f a = b := by
  rw [← bind_pure_comp, bind_eq_some]
  constructor
  · rintro ⟨a, _, ha, hpure⟩
    obtain ⟨rfl, rfl⟩ := pure_eq_some.1 hpure
    exact ⟨a, ha, rfl⟩
  · rintro ⟨a, ha, rfl⟩
    exact ⟨a, rest, ha, pure_eq_some.2 ⟨rfl, rfl⟩⟩

theorem mapOpt_eq_some {p : Parser α} {f : α → Option β} {b : β} :
    mapOpt p f bs = some (b, rest) ↔ ∃ a, p bs = some (a, rest) ∧ f a = some b := by
  simp only [mapOpt, Option.bind_eq_some_iff, Option.map_eq_some_iff, Prod.mk.injEq, Prod.exists]
  constructor
  · rintro ⟨a, _, ha, _, hb, rfl, rfl⟩
    exact ⟨a, ha, hb⟩
  · rintro ⟨a, ha, hb⟩
    exact ⟨a, rest, ha, b, hb, rfl, rfl⟩

theorem verify_eq_some {p : Parser α} {f : α → Bool} {a : α} :
    verify p f bs = some (a, rest) ↔ p bs = some (a, rest) ∧ f a = true := by
  rw [verify, mapOpt_eq_some]
  constructor
  · rintro ⟨b, hb, hf⟩
    split at hf
    · rename_i hfb
      cases hf
      exact ⟨hb, hfb⟩
    · cases hf
  · rintro ⟨ha, hf⟩
    exact ⟨a, ha, if_pos hf⟩

theorem alt_eq_some {p q : Parser α} {r : α × Bytes} :
    alt p q bs = some r ↔ p bs = some r ∨ p bs = none ∧ q bs = some r := Option.or_eq_some_iff

theorem preceded_eq_some {p : Parser α} {q : Parser β} {r : β × Bytes} :
    preceded p q bs = some r ↔ ∃ a mid, p bs = some (a, mid) ∧ q mid = some r := bind_eq_some

theorem delimited_eq_some {p : Parser α} {q : Parser β} {r : Parser γ} {b : β} :
    delimited p q r bs = some (b, rest) ↔
      ∃ a mid, p bs = some (a, mid) ∧ ∃ mid', q mid = some (b, mid') ∧ ∃ c, r mid' = some (c, rest) := by
  simp only [delimited, bind_eq_some, pure_eq_some]
  constructor
  · rintro ⟨a, mid, ha, _, mid', hb, c, _, hc, rfl, rfl⟩
    exact ⟨a, mid, ha, mid', hb, c, hc⟩
  · rintro ⟨a, mid, ha, mid', hb, c, hc⟩
    exact ⟨a, mid, ha, b, mid', hb, c, rest, hc, rfl, rfl⟩

theorem separatedPair_eq_some {p : Parser α} {sep : Parser β} {q : Parser γ} {a : α} {c : γ} :
    separatedPair p sep q bs = some ((a, c), rest) ↔
      ∃ mid, p bs = some (a, mid) ∧ ∃ b mid', sep mid = some (b, mid') ∧ q mid' = some (c, rest) := by
  simp only [separatedPair, bind_eq_some, pure_eq_some, Prod.mk.injEq]
  constructor
  · rintro ⟨_, mid, ha, b, mid', hb, _, _, hc, ⟨rfl, rfl⟩, rfl⟩
    exact ⟨mid, ha, b, mid', hb, hc⟩
  · rintro ⟨mid, ha, b, mid', hb, hc⟩
    exact ⟨a, mid, ha, b, mid', hb, c, rest, hc, ⟨rfl, rfl⟩, rfl⟩

theorem eof_eq_some {a : Bytes} : eof bs = some (a, rest) ↔ a = [] ∧ bs = [] ∧ rest = [] := by
  unfold eof
  cases bs <;> simp [eq_comm]

theorem tag_append (t rest : Bytes) : tag t (t ++ rest) = some (t, rest) :=
  tag_eq_some.2 ⟨rfl, rfl⟩

theorem takeWhile_append_stop {p : UInt8 → Bool} {a rest : Bytes} (ha : ∀ c ∈ a, p c = true)
    (hrest : ∀ c ∈ rest.head?, p c = false) :
    (a ++ rest).takeWhile p = a ∧ (a ++ rest).dropWhile p = rest := by
  rw [List.takeWhile_append_of_pos ha, List.dropWhile_append_of_pos ha]
  cases rest with
  | nil => simp
  | cons c rest => simp [hrest c rfl]

theorem takeWhile1_eq_some {p : UInt8 → Bool} {a : Bytes} :
    takeWhile1 p bs = some (a, rest) ↔
      a ≠ [] ∧ bs = a ++ rest ∧ (∀ c ∈ a, p c = true) ∧ ∀ c ∈ rest.head?, p c = false := by
  unfold takeWhile1
  constructor
  · intro h
    split at h
    · cases h
    · rename_i hne
      cases h
      refine ⟨by simpa using hne, List.takeWhile_append_dropWhile.symm,
        fun _ hc => List.mem_takeWhile_imp hc, fun c hc => ?_⟩
      have hhead := List.head?_dropWhile_not p bs
      rw [Option.mem_def.1 hc] at hhead
      simpa using hhead
  · rintro ⟨hne, rfl, ha, hrest⟩
    obtain ⟨htake, hdrop⟩ := takeWhile_append_stop ha hrest
    rw [htake, hdrop, if_neg (by simpa using hne)]

/-- The bytes up to one that does not count. -/
theorem takeWhile1_eq_some_of_stop {p : UInt8 → Bool} {a : Bytes} {stop : UInt8} (h : p stop = false) :
    takeWhile1 p bs = some (a, stop :: rest) ↔
      (a ≠ [] ∧ ∀ c ∈ a, p c = true) ∧ bs = a ++ stop :: rest := by
  rw [takeWhile1_eq_some]
  constructor
  · rintro ⟨hne, rfl, hchars, -⟩
    exact ⟨⟨hne, hchars⟩, rfl⟩
  · rintro ⟨⟨hne, hchars⟩, rfl⟩
    refine ⟨hne, rfl, hchars, ?_⟩
    rintro c ⟨⟩
    exact h

/-! ## Lines -/

/-- A text on one line. -/
def NoBreak (line : Bytes) : Prop := ∀ c ∈ line, c ≠ 10 ∧ c ≠ 13

theorem noBreak_iff {line : Bytes} :
    NoBreak line ↔ (line.all fun c => c != 10 && c != 13) = true := by
  simp [NoBreak, List.all_eq_true]

theorem NoBreak.append {a b : Bytes} (ha : NoBreak a) (hb : NoBreak b) : NoBreak (a ++ b) :=
  fun c hc => (List.mem_append.1 hc).elim (ha c) (hb c)

/-- What ends a line, given what follows it. -/
def IsLineEnd (ending rest : Bytes) : Prop :=
  ending = [10] ∨ ending = [13, 10] ∨ ending = [] ∧ rest = []

theorem lineEnding_eq_some {a : Bytes} :
    lineEnding bs = some (a, rest) ↔ (a = [10] ∨ a = [13, 10]) ∧ bs = a ++ rest := by
  simp only [lineEnding, alt_eq_some, tag_eq_some]
  constructor
  · rintro (⟨rfl, rfl⟩ | ⟨-, rfl, rfl⟩)
    · exact ⟨Or.inl rfl, rfl⟩
    · exact ⟨Or.inr rfl, rfl⟩
  · rintro ⟨rfl | rfl, rfl⟩
    · exact Or.inl ⟨rfl, rfl⟩
    · exact Or.inr ⟨by simp [tag], rfl, rfl⟩

/-- A header on its own line. -/
theorem preceded_tag_lineEnding (header rest : Bytes) :
    preceded (tag header) lineEnding (header ++ 10 :: rest) = some ([10], rest) :=
  preceded_eq_some.2 ⟨header, 10 :: rest, tag_append header _,
    lineEnding_eq_some.2 ⟨Or.inl rfl, rfl⟩⟩

/-- What is left of a line is its end. -/
def AtLineEnd (rest : Bytes) : Prop :=
  ∃ ending after, rest = ending ++ after ∧ IsLineEnd ending after

theorem notLineEnding_eq_some {line : Bytes} :
    notLineEnding bs = some (line, rest) ↔ bs = line ++ rest ∧ NoBreak line ∧ AtLineEnd rest := by
  let text : UInt8 → Bool := fun c => ¬ (c = 10 ∨ c = 13)
  constructor
  · intro h
    have hline : NoBreak (bs.takeWhile text) := fun c hc => by
      simpa [text] using List.mem_takeWhile_imp hc
    have hhead := List.head?_dropWhile_not text bs
    have hsplit : bs.takeWhile text ++ bs.dropWhile text = bs := List.takeWhile_append_dropWhile
    simp only [notLineEnding] at h
    split at h
    · rename_i after hrest
      cases h
      exact ⟨hsplit.symm, hline, [13, 10], after, hrest, Or.inr (Or.inl rfl)⟩
    · cases h
    · rename_i hcrlf hcr
      cases h
      refine ⟨hsplit.symm, hline, ?_⟩
      cases hrest : bs.dropWhile text with
      | nil => exact ⟨[], [], rfl, Or.inr (Or.inr ⟨rfl, rfl⟩)⟩
      | cons c after =>
        rw [hrest] at hhead
        have hc : c = 10 ∨ c = 13 := by simpa [text, or_iff_not_imp_left] using hhead
        rcases hc with rfl | rfl
        · exact ⟨[10], after, rfl, Or.inl rfl⟩
        · exact absurd hrest (hcr after)
  · rintro ⟨rfl, hline, ending, after, rfl, hending⟩
    have htext : ∀ c ∈ line, text c = true := fun c hc => by simpa [text] using hline c hc
    have hstop : ∀ c ∈ (ending ++ after).head?, text c = false := by
      rcases hending with rfl | rfl | ⟨rfl, rfl⟩ <;> simp [text]
    obtain ⟨htake, hdrop⟩ := takeWhile_append_stop htext hstop
    simp only [notLineEnding]
    rw [htake, hdrop]
    rcases hending with rfl | rfl | ⟨rfl, rfl⟩ <;> rfl

/-- One line splits one way from what follows it. -/
theorem line_unique {a b restA restB : Bytes} (ha : NoBreak a) (hb : NoBreak b)
    (hendA : AtLineEnd restA) (hendB : AtLineEnd restB) (h : a ++ restA = b ++ restB) :
    a = b ∧ restA = restB := by
  have hreadA := notLineEnding_eq_some.2 ⟨rfl, ha, hendA⟩
  have hreadB := notLineEnding_eq_some.2 ⟨rfl, hb, hendB⟩
  rw [h, hreadB] at hreadA
  cases hreadA
  exact ⟨rfl, rfl⟩

/-! ## Repetition -/

/-- A success consumes something. -/
def Shrinks (p : Parser α) : Prop :=
  ∀ ⦃bs : Bytes⦄ ⦃a : α⦄ ⦃rest : Bytes⦄, p bs = some (a, rest) → rest.length < bs.length

/-- The rounds of a repetition, until the parser fails. -/
inductive Many (p : Parser α) : Bytes → List α → Bytes → Prop where
  | stop {bs : Bytes} (h : p bs = none) : Many p bs [] bs
  | round {bs mid rest : Bytes} {a : α} {as : List α} (h : p bs = some (a, mid))
      (more : Many p mid as rest) : Many p bs (a :: as) rest

theorem Many.unique {p : Parser α} {as as' : List α} {rest' : Bytes} (h : Many p bs as rest)
    (h' : Many p bs as' rest') : as = as' ∧ rest = rest' := by
  induction h generalizing as' with
  | stop hstop =>
    cases h' with
    | stop => exact ⟨rfl, rfl⟩
    | round hround => rw [hstop] at hround; cases hround
  | round hround _ ih =>
    cases h' with
    | stop hstop => rw [hround] at hstop; cases hstop
    | round hround' more' =>
      rw [hround] at hround'
      cases hround'
      obtain ⟨rfl, rfl⟩ := ih more'
      exact ⟨rfl, rfl⟩

theorem Many.of_nil {p : Parser α} {as : List α} (h : Many p [] as rest) (hp : Shrinks p) :
    as = [] ∧ rest = [] := by
  cases h with
  | stop => exact ⟨rfl, rfl⟩
  | round hround => exact absurd (hp hround) (Nat.not_lt_zero _)

theorem many0Fuel_eq_some {p : Parser α} (hp : Shrinks p) :
    ∀ {fuel : Nat} {bs rest : Bytes} {as : List α}, bs.length ≤ fuel →
      (many0Fuel p fuel bs = some (as, rest) ↔ Many p bs as rest) := by
  intro fuel
  induction fuel with
  | zero =>
    intro bs rest as hfuel
    have hnil : bs = [] := List.eq_nil_of_length_eq_zero (Nat.le_zero.1 hfuel)
    subst hnil
    have hstop : p [] = none := by
      cases h : p [] with
      | none => rfl
      | some r =>
        have hread : p [] = some (r.1, r.2) := h
        exact absurd (hp hread) (Nat.not_lt_zero _)
    constructor
    · intro h
      simp only [many0Fuel, hstop, Option.some.injEq, Prod.mk.injEq] at h
      obtain ⟨rfl, rfl⟩ := h
      exact .stop hstop
    · intro h
      obtain ⟨rfl, rfl⟩ := h.unique (.stop hstop)
      simp [many0Fuel, hstop]
  | succ fuel ih =>
    intro bs rest as hfuel
    cases h : p bs with
    | none =>
      constructor
      · intro hmany
        simp only [many0Fuel, h, Option.some.injEq, Prod.mk.injEq] at hmany
        obtain ⟨rfl, rfl⟩ := hmany
        exact .stop h
      · intro hmany
        obtain ⟨rfl, rfl⟩ := hmany.unique (.stop h)
        simp [many0Fuel, h]
    | some r =>
      obtain ⟨a, mid⟩ := r
      have hlt : mid.length < bs.length := hp h
      have hunfold : many0Fuel p (fuel + 1) bs =
          (many0Fuel p fuel mid).map fun round => (a :: round.1, round.2) := by
        rw [many0Fuel, h]
        exact if_neg (Nat.ne_of_lt hlt)
      rw [hunfold, Option.map_eq_some_iff]
      constructor
      · rintro ⟨⟨as', rest'⟩, hmany, heq⟩
        cases heq
        exact .round h ((ih (by omega)).1 hmany)
      · intro hmany
        cases hmany with
        | stop hstop => rw [h] at hstop; cases hstop
        | round hround more =>
          rw [h] at hround
          cases hround
          exact ⟨_, (ih (by omega)).2 more, rfl⟩

theorem many0_eq_some {p : Parser α} (hp : Shrinks p) {as : List α} :
    many0 p bs = some (as, rest) ↔ Many p bs as rest := many0Fuel_eq_some hp (Nat.le_refl _)

/-- A parser that always consumes something stops after finitely many rounds. -/
theorem Shrinks.exists_many {p : Parser α} (hp : Shrinks p) (bs : Bytes) :
    ∃ as rest, Many p bs as rest := by
  induction hlength : bs.length using Nat.strong_induction_on generalizing bs with
  | _ n ih =>
    subst hlength
    cases h : p bs with
    | none => exact ⟨[], bs, .stop h⟩
    | some r =>
      obtain ⟨a, mid⟩ := r
      obtain ⟨as, rest, hmore⟩ := ih mid.length (hp h) mid rfl
      exact ⟨a :: as, rest, .round h hmore⟩

theorem many1_eq_some {p : Parser α} (hp : Shrinks p) {as : List α} :
    many1 p bs = some (as, rest) ↔ as ≠ [] ∧ Many p bs as rest := by
  simp only [many1, bind_eq_some, pure_eq_some, many0_eq_some hp]
  constructor
  · rintro ⟨a, mid, ha, as', _, has, rfl, rfl⟩
    exact ⟨List.cons_ne_nil a as', .round ha has⟩
  · rintro ⟨hne, hmany⟩
    cases hmany with
    | stop => exact absurd rfl hne
    | round ha more => exact ⟨_, _, ha, _, _, more, rfl, rfl⟩

end Lib.Parser
