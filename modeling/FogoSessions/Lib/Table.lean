import Mathlib.Data.List.AList
import Mathlib.Data.List.Perm.Basic

/-!
# Tables with a unique key

A table is the list of its rows. `insertNew` and `upsert` are the two ways of inserting a row whose
key may be taken: leaving the table as it is, and updating the row that has the key. On a key that
is free both append the row; on one that is taken by a row with the values already, neither changes
the table.
-/

namespace Lib.Table

variable {Row Key : Type} [DecidableEq Key]

/-- `INSERT … ON CONFLICT (key) DO NOTHING`: the rows with the new one, unless its key is taken. -/
def insertNew (key : Row → Key) (new : Row) (rows : List Row) : Option (List Row) :=
  if ∃ row ∈ rows, key row = key new then none else some (rows ++ [new])

/-- `INSERT … ON CONFLICT (key) DO UPDATE`: the inserted or updated row, and the rows. -/
def upsert (key : Row → Key) (update : Row → Row) (new : Row) (rows : List Row) : Row × List Row :=
  match rows.find? fun row => key row = key new with
  | some row => (update row, rows.map fun r => if key r = key new then update r else r)
  | none => (new, rows ++ [new])

variable {key : Row → Key} {update : Row → Row} {new : Row} {rows : List Row}

omit [DecidableEq Key] in
theorem exists_find? {p : Row → Prop} [DecidablePred p] (h : ∃ row ∈ rows, p row) :
    ∃ found, (rows.find? fun row => p row) = some found ∧ found ∈ rows ∧ p found := by
  obtain ⟨row, hrow, hp⟩ := h
  have hsome : (rows.find? fun row => p row).isSome :=
    List.find?_isSome.2 ⟨row, hrow, decide_eq_true hp⟩
  obtain ⟨found, hfound⟩ := Option.isSome_iff_exists.1 hsome
  exact ⟨found, hfound, List.mem_of_find?_eq_some hfound, by simpa using List.find?_some hfound⟩

theorem insertNew_free (h : ∀ row ∈ rows, key row ≠ key new) :
    insertNew key new rows = some (rows ++ [new]) := by
  apply if_neg
  rintro ⟨row, hrow, hkey⟩
  exact h row hrow hkey

theorem insertNew_taken {row : Row} (hrow : row ∈ rows) (hkey : key row = key new) :
    insertNew key new rows = none := if_pos ⟨row, hrow, hkey⟩

theorem upsert_free (h : ∀ row ∈ rows, key row ≠ key new) :
    upsert key update new rows = (new, rows ++ [new]) := by
  have hfind : (rows.find? fun row => key row = key new) = none := by
    apply List.find?_eq_none.2
    intro row hrow
    simpa using h row hrow
  rw [upsert, hfind]

omit [DecidableEq Key] in
/-- A new key keeps the keys distinct. -/
theorem nodup_append (hnodup : (rows.map key).Nodup) (h : ∀ row ∈ rows, key row ≠ key new) :
    ((rows ++ [new]).map key).Nodup := by
  rw [List.map_append, List.map_singleton]
  refine List.nodup_append'.2 ⟨hnodup, List.nodup_singleton _, ?_⟩
  intro k hk hnew
  obtain ⟨row, hrow, rfl⟩ := List.mem_map.1 hk
  exact h row hrow (List.mem_singleton.1 hnew)

omit [DecidableEq Key] in
/-- Rows with one key are one row. -/
theorem eq_of_key (hnodup : (rows.map key).Nodup) {row row' : Row} (hrow : row ∈ rows)
    (hrow' : row' ∈ rows) (hkey : key row = key row') : row = row' :=
  List.inj_on_of_nodup_map hnodup hrow hrow' hkey

/-- Updating a row to what it is changes nothing. -/
theorem upsert_same (hnodup : (rows.map key).Nodup) {row : Row} (hrow : row ∈ rows)
    (hkey : key row = key new) (hupdate : update row = row) :
    upsert key update new rows = (row, rows) := by
  obtain ⟨found, hfound, hmem, hfoundKey⟩ :=
    exists_find? (p := fun r => key r = key new) ⟨row, hrow, hkey⟩
  have hsame : found = row := eq_of_key hnodup hmem hrow (hfoundKey.trans hkey.symm)
  have hrows : (rows.map fun r => if key r = key new then update r else r) = rows := by
    nth_rewrite 2 [← List.map_id rows]
    apply List.map_congr_left
    intro r hr
    split
    · rename_i hr'
      rw [eq_of_key hnodup hr hrow (hr'.trans hkey.symm), hupdate]
      rfl
    · rfl
  rw [upsert, hfound]
  simp only [hsame, hupdate, hrows]

/-! ## Rows that correspond to data, one by one -/

section

variable {α β γ : Type} {R : α → β → Prop} {xs : List α} {ys : List β}

theorem exists_right (h : List.Forall₂ R xs ys) {x : α} (hx : x ∈ xs) : ∃ y ∈ ys, R x y := by
  induction h with
  | nil => cases hx
  | @cons x' y' xs ys hxy _ ih =>
    rcases List.mem_cons.1 hx with rfl | hx
    · exact ⟨y', List.mem_cons_self, hxy⟩
    · obtain ⟨y, hy, h⟩ := ih hx
      exact ⟨y, List.mem_cons_of_mem y' hy, h⟩

theorem exists_left (h : List.Forall₂ R xs ys) {y : β} (hy : y ∈ ys) : ∃ x ∈ xs, R x y :=
  exists_right (R := flip R) h.flip hy

/-- Two correspondences that share the data in the middle. -/
theorem forall₂_trans {S : β → γ → Prop} {T : α → γ → Prop} {zs : List γ}
    (hR : List.Forall₂ R xs ys) (hS : List.Forall₂ S ys zs)
    (hT : ∀ x y z, x ∈ xs → y ∈ ys → R x y → S y z → T x z) : List.Forall₂ T xs zs := by
  induction hR generalizing zs with
  | nil =>
    cases hS
    exact .nil
  | cons hxy _ ih =>
    cases hS with
    | cons hyz hS =>
      refine .cons (hT _ _ _ List.mem_cons_self List.mem_cons_self hxy hyz) (ih hS ?_)
      intro x y z hx hy
      exact hT x y z (List.mem_cons_of_mem _ hx) (List.mem_cons_of_mem _ hy)

end

/-- The values of a map, in the order of any list of its keys. -/
theorem exists_values {α : Type} {m : AList fun _ : Key => α} {ids : List Key} (hnodup : ids.Nodup)
    (hmem : ∀ id, id ∈ m ↔ id ∈ ids) :
    ∃ values, values.Perm (m.entries.map (·.2)) ∧
      List.Forall₂ (fun id value => m.lookup id = some value) ids values := by
  have hkeys : ids.Perm m.keys := by
    apply (List.perm_ext_iff_of_nodup hnodup m.keys_nodup).2
    intro id
    rw [← hmem, AList.mem_keys]
  have hentries : List.Forall₂ (fun id value => m.lookup id = some value) m.keys
      (m.entries.map (·.2)) := by
    change List.Forall₂ _ (m.entries.map Sigma.fst) _
    rw [List.forall₂_map_left_iff, List.forall₂_map_right_iff, List.forall₂_same]
    intro entry hentry
    exact AList.mem_lookup_iff.2 hentry
  obtain ⟨values, hvalues, hperm⟩ := List.perm_comp_forall₂ hkeys hentries
  exact ⟨values, hperm, hvalues⟩

end Lib.Table
