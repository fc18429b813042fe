import FogoSessions.Intents.Trailing
import FogoSessions.SessionManager.Reading

/-!
# The extra entries of a session intent

What an accepted message consists of: its header, the entries of the reserved keys, and extra entries
whose keys are neither reserved nor repeated.
-/

namespace FogoSessions.SessionManager

open Lib Solana Sdk Intents Parser

/-! ## What is collected -/

/-- The entries of a map, as they stand in a text. -/
def extraBytes (extra : List (String × String)) : List (Bytes × Bytes) :=
  extra.map (Prod.map utf8 utf8)

/-- No key is reserved or repeated. -/
structure Unambiguous (extra : List (String × String)) : Prop where
  nodup : (extra.map Prod.fst).Nodup
  unreserved : ∀ key ∈ extra.map Prod.fst, key ∉ reservedKeys

theorem isKey_reserved {key : String} (h : key ∈ reservedKeys) : IsKey (utf8 key) := by
  have hall : (reservedKeys.all fun key =>
      !(utf8 key).isEmpty && (utf8 key).all fun c => isAlphanum c || c == 95) = true := by
    decide +kernel
  exact isKey_iff.2 (List.all_eq_true.1 hall key h)

theorem collectExtra_concat {pairs : List (Bytes × String)} {bytes : Bytes} {value : String}
    {extra : List (String × String)} (h : collectExtra (pairs ++ [(bytes, value)]) = some extra) :
    ∃ m key, collectExtra pairs = some m ∧ utf8 key = bytes ∧ key ∉ reservedKeys ∧
      key ∉ m.map Prod.fst ∧ extra = m ++ [(key, value)] := by
  rw [collectExtra, List.foldlM_append] at h
  obtain ⟨m, hm, hstep⟩ := Option.bind_eq_some_iff.1 h
  rw [List.foldlM_cons] at hstep
  obtain ⟨m', hstep, hdone⟩ := Option.bind_eq_some_iff.1 hstep
  obtain ⟨key, hkey, hstep⟩ := Option.bind_eq_some_iff.1 hstep
  obtain ⟨hfresh, heq⟩ := Option.ite_none_left_eq_some.1 hstep
  obtain ⟨hreserved, hrepeated⟩ := not_or.1 hfresh
  cases heq
  cases hdone
  exact ⟨m, key, hm, ofUtf8?_eq_some.1 hkey, hreserved, hrepeated, rfl⟩

theorem Unambiguous.concat {extra : List (String × String)} (h : Unambiguous extra) {key : String}
    (hreserved : key ∉ reservedKeys) (hrepeated : key ∉ extra.map Prod.fst) (value : String) :
    Unambiguous (extra ++ [(key, value)]) := by
  constructor
  · rw [List.map_append, List.nodup_append]
    refine ⟨h.nodup, List.nodup_singleton key, ?_⟩
    intro a ha b hb heq
    rw [heq, List.mem_singleton.1 hb] at ha
    exact hrepeated ha
  · intro k hk
    rw [List.map_append] at hk
    rcases List.mem_append.1 hk with hk | hk
    · exact h.unreserved k hk
    · rwa [List.mem_singleton.1 hk]

/-- What is collected are the pairs, and they are unambiguous. -/
theorem collectExtra_eq_some {pairs : List (Bytes × String)} {extra : List (String × String)}
    (h : collectExtra pairs = some extra) :
    Unambiguous extra ∧ pairs = extra.map (Prod.map utf8 id) := by
  induction pairs using List.reverseRecOn generalizing extra with
  | nil =>
    cases h
    exact ⟨⟨List.nodup_nil, fun _ hkey => absurd hkey List.not_mem_nil⟩, rfl⟩
  | append_singleton pairs pair ih =>
    obtain ⟨bytes, value⟩ := pair
    obtain ⟨m, key, hm, rfl, hreserved, hrepeated, rfl⟩ := collectExtra_concat h
    obtain ⟨hunambiguous, rfl⟩ := ih hm
    exact ⟨hunambiguous.concat hreserved hrepeated value, by simp⟩

/-! ## What a message consists of -/

/-- An accepted text: the header on a line of its own, the reserved entries, and the extra ones. -/
structure Layout (bs : Bytes) (m : Message) (body : Bytes) (fields : List (Bytes × Bytes)) : Prop where
  header : ∃ ending, (ending = [10] ∨ ending = [13, 10]) ∧ bs = messagePrefix ++ (ending ++ body)
  fields_keys : fields.map Prod.fst = reservedKeys.map utf8
  entries : Entries body (fields ++ extraBytes m.extra) []
  extra : Unambiguous m.extra

theorem entries_tagKeyValue {O : Type} {key : String} {parseTo : Bytes → Option O} {bs rest : Bytes}
    {o : O} (hkey : key ∈ reservedKeys) (h : tagKeyValue key parseTo bs = some (o, rest)) :
    ∃ v, Entries bs [(utf8 key, v)] rest := by
  obtain ⟨mid, v, rfl, hv, -⟩ := tagKeyValue_eq_some.1 h
  exact ⟨v, .entry (isKey_reserved hkey) (isValue_iff.2 hv) .done⟩

theorem entries_of_many {bs rest : Bytes} {extra : List (String × String)}
    (h : Many (keyValue ofUtf8?) bs (extra.map (Prod.map utf8 id)) rest) :
    Entries bs (extraBytes extra) rest := by
  induction extra generalizing bs with
  | nil =>
    cases h
    exact .done
  | cons pair extra ih =>
    cases h with
    | round hentry more =>
      obtain ⟨hkey, mid, v, rfl, hvalue, hv⟩ := keyValue_eq_some.1 hentry
      rw [← ofUtf8?_eq_some.1 hv] at hvalue
      exact .entry hkey hvalue (ih more)

theorem messageV0_layout [Chrono] {bs rest : Bytes} {m : Message}
    (h : messageV0 bs = some (m, rest)) : rest = [] ∧ ∃ body fields, Layout bs m body fields := by
  simp only [messageV0, delimited_eq_some, bind_eq_some, pure_eq_some, mapOpt_eq_some,
    preceded_eq_some, tag_eq_some, lineEnding_eq_some, eof_eq_some] at h
  obtain ⟨ending, body, ⟨_, _, ⟨rfl, rfl⟩, hending, rfl⟩, _, h, _, -, rfl, hrest⟩ := h
  obtain ⟨_, _, ⟨_, hversion, -⟩, _, _, hchainId, _, _, hdomain, _, _, hexpires, _, _, hsessionKey,
    _, _, htokens, extra, _, ⟨pairs, hpairs, hextra⟩, rfl, rfl⟩ := h
  obtain ⟨hunambiguous, rfl⟩ := collectExtra_eq_some hextra
  obtain ⟨v₁, h₁⟩ := entries_tagKeyValue (by decide) hversion
  obtain ⟨v₂, h₂⟩ := entries_tagKeyValue (by decide) hchainId
  obtain ⟨v₃, h₃⟩ := entries_tagKeyValue (by decide) hdomain
  obtain ⟨v₄, h₄⟩ := entries_tagKeyValue (by decide) hexpires
  obtain ⟨v₅, h₅⟩ := entries_tagKeyValue (by decide) hsessionKey
  obtain ⟨v₆, h₆⟩ := entries_tagKeyValue (by decide) htokens
  have hentries := entries_of_many ((many0_eq_some shrinks_keyValue).1 hpairs)
  have hfields := ((((h₁.append h₂).append h₃).append h₄).append h₅).append h₆
  exact ⟨hrest, body, _, ⟨ending, hending, rfl⟩, rfl, hfields.append hentries, hunambiguous⟩

theorem Message.tryFrom_layout [Chrono] {bs : Bytes} {m : Message} (h : Message.tryFrom bs = .ok m) :
    messageV0 bs = some (m, []) ∧ ∃ body fields, Layout bs m body fields := by
  obtain ⟨⟨_, rest⟩, hparse, rfl⟩ := Option.map_eq_some_iff.1 (okOr_eq_ok.1 h)
  obtain ⟨rfl, hlayout⟩ := messageV0_layout hparse
  exact ⟨hparse, hlayout⟩

/-! ## A line more -/

theorem extraBytes_keys (extra : List (String × String)) :
    (extraBytes extra).map Prod.fst = (extra.map Prod.fst).map utf8 := by
  rw [extraBytes, List.map_map, List.map_map]
  rfl

theorem Layout.body_ne {bs body : Bytes} {m : Message} {fields : List (Bytes × Bytes)}
    (h : Layout bs m body fields) : body ≠ [] := by
  cases fields with
  | nil => exact absurd h.fields_keys (by decide)
  | cons pair fields => exact h.entries.ne_nil

/-- The keys of the longer text are those of the text, and then those of the lines more. -/
theorem Layout.extend {bs body body' sep added : Bytes} {m m' : Message}
    {fields fields' : List (Bytes × Bytes)} (h : Layout bs m body fields)
    (h' : Layout (bs ++ (sep ++ added)) m' body' fields') (hsep : Closes bs sep)
    (hadded : added.head? ≠ some 45) :
    ∃ more, (m'.extra.map Prod.fst).map utf8 =
        (m.extra.map Prod.fst).map utf8 ++ more.map Prod.fst ∧ Entries added more [] := by
  obtain ⟨ending, hending, rfl⟩ := h.header
  obtain ⟨ending', hending', heq⟩ := h'.header
  rw [List.append_assoc, List.append_assoc] at heq
  have hbody : body ++ (sep ++ added) = body' :=
    lineEnd_unique (hending.imp_right Or.inl) (hending'.imp_right Or.inl)
      (List.append_cancel_left heq)
  have hclose : body ≠ [] → Closes body sep := (hsep.suffix (by simp [h.body_ne])).suffix
  have hentries := h'.entries
  rw [← hbody, ← extend_of_ne h.body_ne] at hentries
  obtain ⟨more, hkeys, hmore⟩ := h.entries.extend hclose hadded hentries
  refine ⟨more, ?_, hmore⟩
  rw [List.map_append, List.map_append, h.fields_keys, h'.fields_keys, List.append_assoc,
    extraBytes_keys, extraBytes_keys] at hkeys
  exact List.append_cancel_left hkeys

/-- **Extra entries are unambiguous**: an accepted text is its header, the reserved entries and the
    extra ones, and a line more that has a key of these is refused. -/
theorem Message.tryFrom_extra [Chrono] {bs : Bytes} {m : Message} (h : Message.tryFrom bs = .ok m) :
    (messageV0 bs = some (m, []) ∧ ∃ body fields, Layout bs m body fields) ∧
    ∀ (key : String) (sep tail : Bytes), key ∈ m.extra.map Prod.fst ∨ key ∈ reservedKeys →
      Closes bs sep → Message.tryFrom (bs ++ (sep ++ (utf8 key ++ 58 :: tail))) = .error () := by
  have hlayout := Message.tryFrom_layout h
  refine ⟨hlayout, ?_⟩
  intro key sep tail hkey hsep
  obtain ⟨-, body, fields, hlayout⟩ := hlayout
  have hinjective : Function.Injective utf8 := fun _ _ heq => utf8_injective heq
  have hmem {keys : List String} : utf8 key ∈ keys.map utf8 ↔ key ∈ keys :=
    List.mem_map_of_injective hinjective
  have hsnake : IsKey (utf8 key) := by
    rcases hkey with hkey | hkey
    · refine hlayout.entries.isKey _ ?_
      rw [List.map_append, extraBytes_keys]
      exact List.mem_append_right _ (hmem.2 hkey)
    · exact isKey_reserved hkey
  cases h' : Message.tryFrom (bs ++ (sep ++ (utf8 key ++ 58 :: tail))) with
  | error e => rfl
  | ok m' =>
    obtain ⟨-, body', fields', hlayout'⟩ := Message.tryFrom_layout h'
    obtain ⟨more, hkeys, hmore⟩ := hlayout.extend hlayout' hsep (hsnake.head? _)
    obtain ⟨key', mid, v, mid', more', htext, rfl, hkey', -, -⟩ := hmore.exists_entry (by simp)
    obtain ⟨rfl, -⟩ := key_unique hsnake hkey' htext
    rw [List.map_cons] at hkeys
    have hextra := hlayout'.extra
    rcases hkey with hkey | hkey
    · -- the key stands twice
      have hnodup := hextra.nodup.map hinjective
      rw [hkeys] at hnodup
      have hdisjoint := (List.nodup_append.1 hnodup).2.2
      exact absurd rfl (hdisjoint _ (hmem.2 hkey) _ List.mem_cons_self)
    · have hused : utf8 key ∈ (m'.extra.map Prod.fst).map utf8 := by
        rw [hkeys]
        exact List.mem_append_right _ List.mem_cons_self
      exact absurd hkey (hextra.unreserved key (hmem.1 hused))

/-- A text with an extra entry, and the same with that key once more. -/
theorem Message.tryFrom_extra_repeated :
    let _ : Chrono := ⟨fun _ => some ⟨0⟩⟩
    let text := sampleText "0.4" (" " ++ tokenlessPermissionsValue ++ "\nkey1: value1")
    ∃ m, Message.tryFrom text = .ok m ∧ m.extra = [("key1", "value1")] ∧
      Message.tryFrom (text ++ ([] ++ (utf8 "key1" ++ 58 :: utf8 " value2"))) = .error () := by
  intro _ text
  have hextra : (Message.tryFrom text).map Message.extra = .ok [("key1", "value1")] := by
    decide +kernel
  cases h : Message.tryFrom text with
  | error e =>
    rw [h] at hextra
    cases hextra
  | ok m =>
    rw [h] at hextra
    have hm : m.extra = [("key1", "value1")] := Except.ok.inj hextra
    have hkey : "key1" ∈ m.extra.map Prod.fst := by
      rw [hm]
      exact List.mem_cons_self
    have hended : Closes text [] := Or.inl ⟨by decide +kernel, rfl⟩
    exact ⟨m, rfl, hm, (Message.tryFrom_extra h).2 "key1" [] (utf8 " value2") (Or.inl hkey) hended⟩

end FogoSessions.SessionManager
