import FogoSessions.Intents.Lines

/-!
# A text with a line more

What is read of a text when a line is added at its end: every entry but the last is the same, and
the last one ends where the text ended.
-/

namespace FogoSessions.Intents

open Lib Parser

variable {bs rest sep added : Bytes}

/-- What has to stand between a text and a further line: nothing if the last line is ended. -/
def Closes (text sep : Bytes) : Prop :=
  text.getLast? = some 10 ∧ sep = [] ∨ text.getLast? ≠ some 10 ∧ (sep = [10] ∨ sep = [13, 10])

namespace Closes

variable {text : Bytes}

theorem suffix {front : Bytes} (h : Closes (front ++ text) sep) (hne : text ≠ []) :
    Closes text sep := by
  unfold Closes at h ⊢
  rwa [List.getLast?_append_of_ne_nil front hne] at h

theorem eq_nil (h : Closes text sep) (hlast : text.getLast? = some 10) : sep = [] :=
  h.elim And.right fun hopen => absurd hlast hopen.1

theorem isBreak (h : Closes text sep) (hlast : text.getLast? ≠ some 10) :
    sep = [10] ∨ sep = [13, 10] :=
  h.elim (fun hended => absurd hended.1 hlast) And.right

end Closes

/-- What is left of the longer text where `rest` was left of the text. -/
def extend (rest sep added : Bytes) : Bytes := if rest = [] then added else rest ++ (sep ++ added)

theorem extend_nil : extend [] sep added = added := if_pos rfl

theorem extend_of_ne (h : rest ≠ []) : extend rest sep added = rest ++ (sep ++ added) := if_neg h

theorem head?_extend {c : UInt8} (hrest : rest.head? ≠ some c) (hadded : added.head? ≠ some c) :
    (extend rest sep added).head? ≠ some c := by
  cases rest with
  | nil => rwa [extend_nil]
  | cons b rest => rwa [extend_of_ne (List.cons_ne_nil b rest)]

theorem getLast?_lineBreak (front : Bytes) {ending : Bytes} (h : ending = [10] ∨ ending = [13, 10]) :
    (front ++ ending).getLast? = some 10 := by
  rcases h with rfl | rfl
  · exact List.getLast?_concat
  · exact List.getLast?_append_cons front 13 [10]

theorem getLast?_noBreak {c : UInt8} {line : Bytes} (hc : c ≠ 10) (h : NoBreak line) :
    (c :: line).getLast? ≠ some 10 := by
  intro hlast
  rcases List.mem_cons.1 (List.mem_of_getLast? hlast) with hmem | hmem
  · exact hc hmem.symm
  · exact (h 10 hmem).1 rfl

/-- A line ends in the longer text as well, if only at its new end. -/
theorem lineEnd_extend {c : UInt8} {line ending : Bytes} (hc : c ≠ 10) (hline : NoBreak line)
    (hending : IsLineEnd ending rest) (hsep : Closes (c :: (line ++ (ending ++ rest))) sep)
    (added : Bytes) :
    ∃ ending', IsLineEnd ending' (extend rest sep added) ∧
      ending ++ rest ++ (sep ++ added) = ending' ++ extend rest sep added := by
  by_cases hrest : rest = []
  · subst hrest
    rw [extend_nil, List.append_nil]
    rw [List.append_nil] at hsep
    by_cases hnil : ending = []
    · subst hnil
      rw [List.append_nil] at hsep
      have hbreak := hsep.isBreak (getLast?_noBreak hc hline)
      exact ⟨sep, hbreak.imp_right Or.inl, rfl⟩
    · have hbreak : ending = [10] ∨ ending = [13, 10] := by
        rcases hending with h | h | ⟨h, -⟩
        · exact Or.inl h
        · exact Or.inr h
        · exact absurd h hnil
      have hsepNil : sep = [] := hsep.eq_nil (getLast?_lineBreak (c :: line) hbreak)
      subst hsepNil
      exact ⟨ending, hbreak.imp_right Or.inl, rfl⟩
  · refine ⟨ending, ?_, by rw [extend_of_ne hrest, List.append_assoc]⟩
    rcases hending with h | h | ⟨-, h⟩
    · exact Or.inl h
    · exact Or.inr (Or.inl h)
    · exact absurd h hrest

/-! ## Values -/

theorem dashLine_eq_none (h : bs.head? ≠ some 45) : dashLine bs = none := by
  cases hread : dashLine bs with
  | none => rfl
  | some r =>
    obtain ⟨line, rest⟩ := r
    obtain ⟨ending, rfl, -, -⟩ := dashLine_eq_some.1 hread
    exact absurd rfl h

theorem many_dashLine_extend {lines : List Bytes} (h : Many dashLine bs lines rest)
    (hsep : bs ≠ [] → Closes bs sep) (hrest : rest.head? ≠ some 45)
    (hadded : added.head? ≠ some 45) :
    Many dashLine (extend bs sep added) lines (extend rest sep added) := by
  induction h with
  | stop => exact .stop (dashLine_eq_none (head?_extend hrest hadded))
  | @round bs mid rest line lines hline _ ih =>
    obtain ⟨ending, rfl, hbreak, hending⟩ := dashLine_eq_some.1 hline
    have hclose := hsep (List.cons_ne_nil _ _)
    obtain ⟨ending', hending', heq⟩ := lineEnd_extend (by decide) hbreak hending hclose added
    have hread : dashLine (extend (45 :: (line ++ (ending ++ mid))) sep added) =
        some (line, extend mid sep added) := by
      rw [extend_of_ne (List.cons_ne_nil _ _), dashLine_eq_some]
      refine ⟨ending', ?_, hbreak, hending'⟩
      rw [← heq]
      simp
    refine .round hread (ih (fun hmid => ?_) hrest)
    have hsplit : 45 :: (line ++ (ending ++ mid)) = (45 :: (line ++ ending)) ++ mid := by simp
    rw [hsplit] at hclose
    exact hclose.suffix hmid

/-- The value of a key, in the longer text. -/
theorem IsValue.extend {v : Bytes} (h : IsValue bs v rest) (hsep : Closes (58 :: bs) sep)
    (hrest : rest.head? ≠ some 45) (hadded : added.head? ≠ some 45) :
    ∃ v', IsValue (bs ++ (sep ++ added)) v' (extend rest sep added) := by
  rcases h with ⟨ending, rfl, hbreak, hending⟩ | ⟨lines, ending, hending, rfl, hmany⟩ |
    ⟨rfl, rfl, rfl⟩
  · have hclose : Closes (32 :: (v ++ (ending ++ rest))) sep :=
      (show Closes ([58] ++ 32 :: (v ++ (ending ++ rest))) sep from hsep).suffix (List.cons_ne_nil _ _)
    obtain ⟨ending', hending', heq⟩ := lineEnd_extend (by decide) hbreak hending hclose added
    refine ⟨v, Or.inl ⟨ending', ?_, hbreak, hending'⟩⟩
    rw [← heq]
    simp
  · have hclose : v ++ rest ≠ [] → Closes (v ++ rest) sep := by
      intro hne
      have hsplit : 58 :: (ending ++ (v ++ rest)) = (58 :: ending) ++ (v ++ rest) := by simp
      rw [hsplit] at hsep
      exact hsep.suffix hne
    have hmany' := many_dashLine_extend hmany hclose hrest hadded
    obtain ⟨v', hv', -⟩ := many_dashLine_prefix hmany'
    have htext : v ++ rest ++ (sep ++ added) = Intents.extend (v ++ rest) sep added := by
      by_cases hnil : v ++ rest = []
      · rw [hnil, List.append_nil] at hsep
        rw [hnil, extend_nil, hsep.eq_nil (getLast?_lineBreak [58] hending)]
        rfl
      · exact (extend_of_ne hnil).symm
    refine ⟨v', Or.inr (Or.inl ⟨lines, ending, hending, ?_, ?_⟩)⟩
    · rw [List.append_assoc, htext, hv']
    · rwa [← hv']
  · have hbreak : sep = [10] ∨ sep = [13, 10] := hsep.isBreak (by decide)
    refine ⟨[], Or.inr (Or.inl ⟨[], sep, hbreak, by rw [extend_nil]; rfl, ?_⟩)⟩
    rw [extend_nil]
    exact .stop (dashLine_eq_none hadded)

theorem IsValue.unique {v v' rest' : Bytes} (h : IsValue bs v rest) (h' : IsValue bs v' rest') :
    v = v' ∧ rest = rest' := by
  have hread := isValue_iff.1 h
  rw [isValue_iff.1 h'] at hread
  cases hread
  exact ⟨rfl, rfl⟩

/-! ## Entries -/

/-- A key in snake case. -/
def IsKey (key : Bytes) : Prop := key ≠ [] ∧ ∀ c ∈ key, isAlphanum c = true ∨ c = 95

/-- The check of a key, as it can be run. -/
theorem isKey_iff {key : Bytes} :
    IsKey key ↔ (!key.isEmpty && key.all fun c => isAlphanum c || c == 95) = true := by
  simp [IsKey, List.all_eq_true]

theorem IsKey.head? {key : Bytes} (h : IsKey key) (tail : Bytes) :
    (key ++ tail).head? ≠ some 45 := by
  obtain ⟨c, key, rfl⟩ := List.exists_cons_of_ne_nil h.1
  intro hhead
  have hc : c = 45 := Option.some.inj hhead
  have hchar := h.2 c List.mem_cons_self
  rw [hc] at hchar
  revert hchar
  decide

theorem takeWhile1_key {key tail : Bytes} :
    takeWhile1 (fun c => isAlphanum c ∨ c = 95) bs = some (key, 58 :: tail) ↔
      IsKey key ∧ bs = key ++ 58 :: tail := by
  rw [takeWhile1_eq_some_of_stop (by decide)]
  simp [IsKey]

/-- The colon ends the key. -/
theorem key_unique {key key' mid mid' : Bytes} (hkey : IsKey key) (hkey' : IsKey key')
    (h : key ++ 58 :: mid = key' ++ 58 :: mid') : key = key' ∧ mid = mid' := by
  have hread : takeWhile1 (fun c => isAlphanum c ∨ c = 95) (key ++ 58 :: mid) = some (key, 58 :: mid) :=
    takeWhile1_key.2 ⟨hkey, rfl⟩
  have hread' := takeWhile1_key.2 ⟨hkey', h⟩
  rw [hread] at hread'
  cases hread'
  exact ⟨rfl, rfl⟩

theorem keyValue_eq_some {O : Type} {parseTo : Bytes → Option O} {key : Bytes} {o : O} :
    keyValue parseTo bs = some ((key, o), rest) ↔
      IsKey key ∧ ∃ mid v, bs = key ++ 58 :: mid ∧ IsValue mid v rest ∧ parseTo v = some o := by
  simp only [keyValue, keyValueWithKeyType_eq_some, takeWhile1_key, isValue_iff]
  constructor
  · rintro ⟨mid, v, ⟨hkey, rfl⟩, hv, ho⟩
    exact ⟨hkey, mid, v, rfl, hv, ho⟩
  · rintro ⟨hkey, mid, v, rfl, hv, ho⟩
    exact ⟨mid, v, ⟨hkey, rfl⟩, hv, ho⟩

theorem shrinks_keyValue {O : Type} {parseTo : Bytes → Option O} : Shrinks (keyValue parseTo) := by
  intro bs pair rest h
  obtain ⟨key, o⟩ := pair
  obtain ⟨-, mid, v, rfl, hvalue, -⟩ := keyValue_eq_some.1 h
  obtain ⟨consumed, rfl⟩ := hvalue.suffix
  simp only [List.length_append, List.length_cons]
  omega

/-- Keys with their values, one after another, before the rest of the text. -/
inductive Entries : Bytes → List (Bytes × Bytes) → Bytes → Prop where
  | done {rest : Bytes} : Entries rest [] rest
  | entry {key mid v mid' rest : Bytes} {pairs : List (Bytes × Bytes)} (hkey : IsKey key)
      (hvalue : IsValue mid v mid') (more : Entries mid' pairs rest) :
      Entries (key ++ 58 :: mid) ((key, v) :: pairs) rest

namespace Entries

variable {pairs : List (Bytes × Bytes)}

theorem append {mid : Bytes} {pairs' : List (Bytes × Bytes)} (h : Entries bs pairs mid)
    (h' : Entries mid pairs' rest) : Entries bs (pairs ++ pairs') rest := by
  induction h with
  | done => exact h'
  | entry hkey hvalue _ ih => exact .entry hkey hvalue (ih h')

theorem ne_nil {pair : Bytes × Bytes} (h : Entries bs (pair :: pairs) rest) : bs ≠ [] := by
  cases h with
  | entry => simp

theorem isKey (h : Entries bs pairs rest) : ∀ key ∈ pairs.map Prod.fst, IsKey key := by
  induction h with
  | done => exact List.forall_mem_nil _
  | entry hkey _ _ ih => exact List.forall_mem_cons.2 ⟨hkey, ih⟩

/-- A text that is not empty starts with an entry. -/
theorem exists_entry (h : Entries bs pairs []) (hne : bs ≠ []) :
    ∃ key mid v mid' pairs', bs = key ++ 58 :: mid ∧ pairs = (key, v) :: pairs' ∧ IsKey key ∧
      IsValue mid v mid' ∧ Entries mid' pairs' [] := by
  cases h with
  | done => exact absurd rfl hne
  | entry hkey hvalue more => exact ⟨_, _, _, _, _, rfl, rfl, hkey, hvalue, more⟩

theorem head? (h : Entries bs pairs []) : bs.head? ≠ some 45 := by
  by_cases hne : bs = []
  · subst hne
    intro hhead
    cases hhead
  · obtain ⟨key, mid, _, _, _, rfl, -, hkey, -, -⟩ := h.exists_entry hne
    exact hkey.head? _

/-- **Entries in the longer text**: first those of the text, with the keys they had, and then those
    of what was added. -/
theorem extend {pairs' : List (Bytes × Bytes)} (h : Entries bs pairs [])
    (hsep : bs ≠ [] → Closes bs sep) (hadded : added.head? ≠ some 45)
    (h' : Entries (extend bs sep added) pairs' []) :
    ∃ more, pairs'.map Prod.fst = pairs.map Prod.fst ++ more.map Prod.fst ∧
      Entries added more [] := by
  generalize hend : ([] : Bytes) = rest at h
  induction h generalizing pairs' with
  | done =>
    subst hend
    rw [extend_nil] at h'
    exact ⟨pairs', rfl, h'⟩
  | @entry key mid v mid' rest pairs hkey hvalue more ih =>
    subst hend
    have hne : key ++ 58 :: mid ≠ [] := by simp
    rw [extend_of_ne hne, List.append_assoc, List.cons_append] at h'
    obtain ⟨key', text, v', mid'', pairs'', htext, rfl, hkey', hvalue', more'⟩ :=
      h'.exists_entry (by simp)
    obtain ⟨rfl, rfl⟩ := key_unique hkey hkey' htext
    obtain ⟨v'', hvalue''⟩ :=
      hvalue.extend ((hsep hne).suffix (List.cons_ne_nil 58 mid)) more.head? hadded
    obtain ⟨rfl, rfl⟩ := hvalue'.unique hvalue''
    obtain ⟨consumed, rfl⟩ := hvalue.suffix
    have hclose : mid' ≠ [] → Closes mid' sep := by
      intro hmid
      have hsplit : key ++ 58 :: (consumed ++ mid') = (key ++ 58 :: consumed) ++ mid' := by simp
      have hwhole := hsep hne
      rw [hsplit] at hwhole
      exact hwhole.suffix hmid
    obtain ⟨more, hkeys, hmore⟩ := ih hclose more' rfl
    exact ⟨more, by rw [List.map_cons, List.map_cons, hkeys, List.cons_append], hmore⟩

end Entries

end FogoSessions.Intents
