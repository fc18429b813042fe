import FogoSessions.Solana.Runtime

/-!
# Replaying transactions

A runtime that can be run: transactions of the programs under study in which other programs do
nothing, on an address book in place of the search for addresses. What it replays is a run of the
runtime.
-/

namespace FogoSessions.Solana

open Lib

/-! ## Known addresses -/

/-- The hashes, wallets and derived addresses that are known; every other one is `other`. -/
structure AddressBook where
  hashes : List (Bytes × FixedBytes 32)
  wallets : List Pubkey
  derived : List ((List Bytes × Pubkey) × (Pubkey × UInt8))
  other : Pubkey
  derived_off_curve : ∀ entry ∈ derived, entry.2.1 ∉ wallets
  other_off_curve : other ∉ wallets

namespace AddressBook

variable (book : AddressBook)

def sha256 (data : Bytes) : FixedBytes 32 :=
  ((book.hashes.find? fun entry => entry.1 = data).map Prod.snd).getD book.other

def findProgramAddress (seeds : List Bytes) (program : Pubkey) : Pubkey × UInt8 :=
  ((book.derived.find? fun entry => entry.1 = (seeds, program)).map Prod.snd).getD (book.other, 0)

variable {book}

theorem findProgramAddress_cases (seeds : List Bytes) (program : Pubkey) :
    ((seeds, program), book.findProgramAddress seeds program) ∈ book.derived ∨
      book.findProgramAddress seeds program = (book.other, 0) := by
  unfold findProgramAddress
  cases hfind : book.derived.find? fun entry => entry.1 = (seeds, program) with
  | none => exact .inr rfl
  | some entry =>
    obtain ⟨name, address⟩ := entry
    have hname : name = (seeds, program) := by simpa using List.find?_some hfind
    subst hname
    exact .inl (List.mem_of_find?_eq_some hfind)

abbrev addressing (book : AddressBook) : Addressing where
  sha256 := book.sha256
  onCurve key := decide (key ∈ book.wallets)
  findProgramAddress := book.findProgramAddress
  derived_off_curve seeds program := by
    rw [decide_eq_false_iff_not]
    rcases book.findProgramAddress_cases seeds program with hmem | heq
    · exact book.derived_off_curve _ hmem
    · rw [heq]
      exact book.other_off_curve

/-- An address that is known to be derived for another program may sign. -/
theorem canSign {ids : List Pubkey} {key : Pubkey} (hother : key ≠ book.other)
    (h : ∀ entry ∈ book.derived, entry.2.1 = key → entry.1.2 ∉ ids) :
    @CanSign book.addressing ids key := by
  rintro p hp seeds rfl
  rcases book.findProgramAddress_cases seeds p with hmem | heq
  · exact h _ hmem rfl hp
  · exact hother (congrArg Prod.fst heq)

end AddressBook

/-! ## The first transaction -/

/-- The ledger with these accounts. -/
def Ledger.ofList (accounts : List (Pubkey × Account)) : Ledger := fun key =>
  ((accounts.find? fun entry => entry.1 = key).map Prod.snd).getD .empty

/-- Accounts that other programs can make on an empty ledger. -/
theorem frame_ofList [Addressing] {ids : List Pubkey} {accounts : List (Pubkey × Account)}
    (hsystem : Ids.systemProgram ∉ ids) (hids : ∀ entry ∈ accounts, entry.2.owner ∉ ids)
    (h : ∀ entry ∈ accounts, CanSign ids entry.1 ∨
      entry.2.owner = Ids.systemProgram ∧ entry.2.data = []) :
    Frame ids .empty (.ofList accounts) := by
  intro key
  unfold Ledger.ofList
  cases hfind : accounts.find? fun entry => entry.1 = key with
  | none => exact .refl
  | some entry =>
    have hmem := List.mem_of_find?_eq_some hfind
    have hkey : entry.1 = key := by simpa using List.find?_some hfind
    exact
      { owned := fun ha => absurd ha hsystem
        acquired := fun ha => absurd ha (hids entry hmem)
        derived := fun hs _ => (h entry hmem).resolve_left (hkey ▸ hs) }

variable {P : Programs}

theorem Reachable.genesis [Addressing] [Ed25519] {l : Ledger} (now : Int64)
    (h : Frame P.ids .empty l) : Reachable P ⟨l.purge, now, []⟩ :=
  have hnone : Admissible P.ids [] := ⟨by rintro ix ⟨⟩, by rintro ix ⟨⟩⟩
  .transaction (.init now) hnone (.start h)

/-- A ledger of accounts that are other programs' and not at addresses derived for these. -/
theorem AddressBook.genesis [Ed25519] {book : AddressBook} {accounts : List (Pubkey × Account)}
    (now : Int64) (hsystem : Ids.systemProgram ∉ P.ids)
    (howners : ∀ entry ∈ accounts, entry.2.owner ∉ P.ids)
    (hkeys : ∀ entry ∈ accounts, entry.1 ≠ book.other ∧
      ∀ d ∈ book.derived, d.2.1 = entry.1 → d.1.2 ∉ P.ids) :
    @Reachable book.addressing _ P ⟨(Ledger.ofList accounts).purge, now, []⟩ := by
  let _ := book.addressing
  refine .genesis now (frame_ofList hsystem howners fun entry hentry => .inl ?_)
  obtain ⟨hother, hderived⟩ := hkeys entry hentry
  exact book.canSign hother hderived

/-! ## Transactions -/

/-- Runs what is left of a transaction's instructions, from number `n` on. -/
def Programs.replay (P : Programs) (now : Int64) (instructions : List Instruction) :
    List Instruction → Nat → List Event → Ledger → Option (List Event × Ledger)
  | [], _, es, l => some (es, l)
  | ix :: rest, n, es, l =>
    if ix.programId ∈ P.ids then
      (P.process ⟨instructions, n, now⟩ ix l).bind fun l' =>
        P.replay now instructions rest (n + 1) (⟨⟨instructions, n, now⟩, ix, l, l'⟩ :: es) l'
    else P.replay now instructions rest (n + 1) es l

/-- Runs a transaction. -/
def World.run (P : Programs) (w : World) (instructions : List Instruction) : Option World :=
  (P.replay w.now instructions instructions 0 [] w.ledger).map fun (es, l') =>
    ⟨l'.purge, w.now, es ++ w.log⟩

/-- Runs transactions, each at its time. -/
def World.runAll (P : Programs) : List (Int64 × List Instruction) → World → Option World
  | [], w => some w
  | (now, instructions) :: rest, w =>
    if w.now ≤ now then (World.run P { w with now } instructions).bind (World.runAll P rest)
    else none

/-- The transactions succeed, and what they lead to is checked. -/
theorem World.exists_runAll {w : World} {schedule : List (Int64 × List Instruction)}
    {post : World → Prop} [DecidablePred post]
    (h : (w.runAll P schedule).any (fun w' => decide (post w')) = true) :
    ∃ w', w.runAll P schedule = some w' ∧ post w' := by
  obtain ⟨w', hw', hpost⟩ := (Option.any_eq_true _ _).1 h
  exact ⟨w', hw', of_decide_eq_true hpost⟩

section

variable [Addressing]

/-- What is replayed from the middle of a transaction ends the transaction. -/
theorem Exec.replay {now : Int64} {instructions : List Instruction} {l₀ : Ledger}
    {before rest : List Instruction} {es es' : List Event} {l l' : Ledger}
    (hsplit : instructions = before ++ rest)
    (hexec : Exec P now instructions l₀ before.length es l)
    (h : P.replay now instructions rest before.length es l = some (es', l')) :
    Exec P now instructions l₀ instructions.length es' l' := by
  induction rest generalizing before es l with
  | nil =>
    cases h
    rw [List.append_nil] at hsplit
    subst hsplit
    exact hexec
  | cons ix rest ih =>
    have hix : instructions[before.length]? = some ix := by simp [hsplit]
    have hsplit' : instructions = (before ++ [ix]) ++ rest := by simp [hsplit]
    have hlen : (before ++ [ix]).length = before.length + 1 := by simp
    rw [Programs.replay] at h
    split at h
    · rename_i hid
      obtain ⟨l₁, hprocess, hrest⟩ := Option.bind_eq_some_iff.1 h
      exact ih hsplit' (hlen ▸ .program hexec hix hid hprocess) (hlen ▸ hrest)
    · rename_i hid
      exact ih hsplit' (hlen ▸ .done hexec hix hid) (hlen ▸ h)

variable [Ed25519]

theorem Reachable.run {w w' : World} {instructions : List Instruction} (hw : Reachable P w)
    (hadmissible : Admissible P.ids instructions) (h : w.run P instructions = some w') :
    Reachable P w' := by
  obtain ⟨⟨es, l'⟩, hreplay, rfl⟩ := Option.map_eq_some_iff.1 h
  have hstart : Exec P w.now instructions w.ledger ([] : List Instruction).length [] w.ledger :=
    .start Frame.refl
  exact .transaction hw hadmissible (hstart.replay rfl hreplay)

/-- What is replayed is reachable. -/
theorem Reachable.runAll {w w' : World} {schedule : List (Int64 × List Instruction)}
    (hw : Reachable P w) (hadmissible : ∀ entry ∈ schedule, Admissible P.ids entry.2)
    (h : w.runAll P schedule = some w') : Reachable P w' := by
  induction schedule generalizing w with
  | nil =>
    cases h
    exact hw
  | cons entry rest ih =>
    obtain ⟨now, instructions⟩ := entry
    rw [World.runAll] at h
    split at h
    · rename_i hle
      obtain ⟨w₁, hrun, hrest⟩ := Option.bind_eq_some_iff.1 h
      have hw₁ : Reachable P w₁ :=
        Reachable.run (.tick hw hle) (hadmissible _ List.mem_cons_self) hrun
      exact ih hw₁ (fun entry hentry => hadmissible entry (List.mem_cons_of_mem _ hentry)) hrest
    · cases h

end

namespace AddressBook

variable [Ed25519] {book : AddressBook}

/-- The ed25519 instructions succeed and nobody signs but wallets. -/
def Allows (book : AddressBook) (instructions : List Instruction) : Prop :=
  Verified instructions ∧ ∀ ix ∈ instructions, ∀ account ∈ ix.accounts, account.isSigner = true →
    account.pubkey ∈ book.wallets

instance (instructions : List Instruction) : Decidable (book.Allows instructions) :=
  inferInstanceAs (Decidable ((∀ ix ∈ instructions, _ → _) ∧ _))

/-- The wallets may sign. -/
theorem Allows.admissible {ids : List Pubkey} {instructions : List Instruction}
    (h : book.Allows instructions) : @Admissible book.addressing _ ids instructions :=
  @Admissible.mk book.addressing _ ids instructions h.1 fun ix hix account haccount hsigner =>
    @canSign_of_onCurve book.addressing _ _ (decide_eq_true (h.2 ix hix account haccount hsigner))

/-- A schedule whose transactions are checked one by one. -/
theorem admissible_of_allows {ids : List Pubkey} {schedule : List (Int64 × List Instruction)}
    (h : ∀ entry ∈ schedule, book.Allows entry.2) :
    ∀ entry ∈ schedule, @Admissible book.addressing _ ids entry.2 :=
  fun entry hentry => (h entry hentry).admissible

end AddressBook

end FogoSessions.Solana
