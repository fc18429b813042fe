import FogoSessions.Lib.Task
import FogoSessions.Paymaster.Sending

/-!
# A sponsor's recent transactions

`bin/tx_validator.rs`: the validator fetches the signatures of a sponsor's newest transactions from the
RPC node, page by page, each page from before the last signature of the one before. The sponsor goes on
being used while the pages are fetched.
-/

namespace FogoSessions.Paymaster

open Lib Solana

inductive PageOp where
  /-- `get_signatures_for_address_with_config` -/
  | getSignatures (address : Pubkey) (limit : Nat) (before : Option Signature)

/-- The node answers with the texts of signatures, newest first. -/
@[reducible] def PageAns : PageOp → Type
  | .getSignatures _ _ _ => Except String (List String)

/-- The error of a request, with its context before it. -/
def fetchError (sponsorPubkey : Pubkey) (e : String) : String :=
  s!"Failed to fetch signatures for sponsor {sponsorPubkey}: {e}"

def invalidSignature (s : String) (e : ParseSignatureError) : String :=
  s!"{e.text}: Invalid signature from RPC: {s}"

abbrev Fetch (α : Type) := Task PageOp PageAns (Fault String) α

/-- The loop; every page that is not empty lowers `number`, so that many rounds are enough. -/
def fetchLoop (sponsorPubkey : Pubkey) :
    (rounds number : Nat) → Option Signature → List String → Fetch (List String)
  | 0, _, _, signatures => pure signatures
  | rounds + 1, number, before, signatures =>
    if number = 0 then pure signatures
    else do
      let page ← .perform (.getSignatures sponsorPubkey (min number 1000) before)
      match (page : Except String (List String)) with
      | .error e => .lift (.error (.err (fetchError sponsorPubkey e)))
      | .ok newSignatures => do
        let number ← .lift (subtract number newSignatures.length)
        match newSignatures.getLast? with
        | none => pure signatures
        | some last =>
          fetchLoop sponsorPubkey rounds number (signatureFromStr last).toOption
            (signatures ++ newSignatures)

def fetchRecentSponsorSignatures (sponsorPubkey : Pubkey) (number : Nat) : Fetch (List Signature) := do
  let signatures ← fetchLoop sponsorPubkey number number none []
  .lift (signatures.mapM fun s =>
    mapErr (fun e => .err (invalidSignature s e)) (signatureFromStr s))

/-! ## The node -/

/-- The signatures that are older than the given one. -/
def olderThan : Option Signature → List Signature → List Signature
  | none, signatures => signatures
  | some before, signatures => (signatures.dropWhile (· ≠ before)).drop 1

/-- The node has the sponsor's signatures of the time of the first request, newest first, and since then
    it may have got newer ones. -/
inductive Pages (history : List Signature) (limit : Nat) : Option Signature → List String → Prop where
  | first : Pages history limit none ((history.take limit).map signatureText)
  | next (newer : List Signature) (before : Signature) : (newer ++ history).Nodup →
    Pages history limit (some before)
      (((olderThan (some before) (newer ++ history)).take limit).map signatureText)

/-- The node answers with a page, or fails if it may; it is asked for at most a thousand signatures. -/
def nodeContract (mayFail : Bool) (sponsorPubkey : Pubkey) (history : List Signature) :
    Task.Contract PageOp PageAns where
  rely
    | .getSignatures _ limit before, .ok page => Pages history limit before page
    | .getSignatures _ _ _, .error _ => mayFail = true
  guar
    | .getSignatures address limit _ => address = sponsorPubkey ∧ 0 < limit ∧ limit ≤ 1000

/-- Newer signatures do not change what is older than a given one. -/
theorem olderThan_append {newer newest older : List Signature} {before : Signature}
    (hnodup : (newer ++ (newest ++ before :: older)).Nodup) :
    olderThan (some before) (newer ++ (newest ++ before :: older)) = older := by
  have hnotin : ∀ s ∈ newer ++ newest, s ≠ before := by
    rw [← List.append_assoc] at hnodup
    intro s hs heq
    exact (List.disjoint_of_nodup_append hnodup) hs (heq ▸ List.mem_cons_self)
  rw [olderThan, ← List.append_assoc, List.dropWhile_append_of_pos (by simpa using hnotin)]
  rw [List.dropWhile_cons_of_neg (by simp)]
  rfl

/-! ## The loop -/

variable {mayFail : Bool} {sponsorPubkey : Pubkey} {history : List Signature}

/-- What the loop has once it got `k` signatures: the newest of them, and the last to go on from. -/
structure Fetched (history : List Signature) (k : Nat) (before : Option Signature)
    (signatures : List String) : Prop where
  le : k ≤ history.length
  texts : signatures = (history.take k).map signatureText
  before : before = (history.take k).getLast?

/-- The next page goes on where the last one ended. -/
theorem Fetched.page {k limit : Nat} {before : Option Signature} {signatures page : List String}
    (h : Fetched history k before signatures) (hpage : Pages history limit before page) :
    page = ((history.drop k).take limit).map signatureText := by
  cases hpage with
  | first =>
    have hempty := List.getLast?_eq_none_iff.1 h.before.symm
    have hk : history.drop k = history := by
      rcases List.take_eq_nil_iff.1 hempty with rfl | rfl
      · rfl
      · exact List.drop_nil
    rw [hk]
  | next newer last hnodup =>
    obtain ⟨newest, hnewest⟩ := List.getLast?_eq_some_iff.1 h.before.symm
    have hsplit : history = newest ++ last :: history.drop k := by
      conv_lhs => rw [← List.take_append_drop k history, hnewest, List.append_assoc]
      rfl
    rw [hsplit] at hnodup
    conv_lhs => rw [hsplit, olderThan_append hnodup]

theorem length_page {k limit : Nat} {page : List String}
    (hpage : page = ((history.drop k).take limit).map signatureText) :
    page.length = min limit (history.length - k) := by
  rw [hpage, List.length_map, List.length_take, List.length_drop]

theorem Fetched.append {k limit : Nat} {before : Option Signature} {signatures page : List String}
    (h : Fetched history k before signatures)
    (hpage : page = ((history.drop k).take limit).map signatureText) {last : String}
    (hlast : page.getLast? = some last) :
    Fetched history (k + page.length) (signatureFromStr last).toOption (signatures ++ page) := by
  have hlength := length_page hpage
  have htake : history.take (k + page.length) = history.take k ++ (history.drop k).take limit := by
    rw [List.take_add, hlength, ← List.length_drop, ← List.take_eq_take_min]
  have hle := h.le
  refine ⟨by omega, ?_, ?_⟩
  · rw [htake, List.map_append, ← h.texts, ← hpage]
  · rw [hpage, List.getLast?_map, Option.map_eq_some_iff] at hlast
    obtain ⟨signature, hsignature, rfl⟩ := hlast
    rw [signatureFromStr_signatureText, htake, List.getLast?_append, hsignature]
    rfl

/-- How fetching the newest `total` signatures ends: with them, or with the error of a request. -/
def FetchEnds (mayFail : Bool) (sponsorPubkey : Pubkey) {α : Type} (newest : α) :
    Outcome String α → Prop
  | .ok signatures => signatures = newest
  | .error e => mayFail = true ∧ ∃ text, e = .err (fetchError sponsorPubkey text)

/-- The rounds that are left are enough for what is still asked for. -/
theorem fetchLoop_meets {rounds total k : Nat} {before : Option Signature}
    {signatures : List String} (hk : k ≤ total) (hrounds : total - k ≤ rounds)
    (h : Fetched history k before signatures) :
    (fetchLoop sponsorPubkey rounds (total - k) before signatures).Meets
      (nodeContract mayFail sponsorPubkey history)
      (FetchEnds mayFail sponsorPubkey ((history.take total).map signatureText)) := by
  induction rounds generalizing k before signatures with
  | zero =>
    have hdone : k = total := by omega
    subst hdone
    exact h.texts
  | succ rounds ih =>
    unfold fetchLoop
    by_cases hzero : total - k = 0
    · have hdone : k = total := by omega
      subst hdone
      rw [if_pos hzero]
      exact h.texts
    rw [if_neg hzero]
    refine ⟨⟨rfl, by omega, by omega⟩, fun answer hanswer => ?_⟩
    cases answer with
    | error e => exact ⟨hanswer, e, rfl⟩
    | ok page =>
      have hpage := h.page hanswer
      have hlength := length_page hpage
      have hle : page.length ≤ total - k := by omega
      have hrest : total - k - page.length = total - (k + page.length) := by omega
      change ((Task.lift (subtract (total - k) page.length) : Fetch Nat) >>= _).Meets _ _
      rw [subtract_of_le hle, hrest]
      change (match page.getLast? with
        | none => pure signatures
        | some last => fetchLoop sponsorPubkey rounds (total - (k + page.length))
          (signatureFromStr last).toOption (signatures ++ page) : Fetch (List String)).Meets _ _
      cases hlast : page.getLast? with
      | none =>
        -- the node has no older ones
        have hempty : page.length = 0 := by rw [List.getLast?_eq_none_iff.1 hlast, List.length_nil]
        have hall : history.length ≤ k := by omega
        change signatures = _
        rw [h.texts, List.take_of_length_le hall, List.take_of_length_le (hall.trans hk)]
      | some last =>
        have hpos : page.length ≠ 0 := by
          intro hnone
          rw [List.length_eq_zero_iff.1 hnone] at hlast
          cases hlast
        exact ih (by omega) (by omega) (h.append hpage hlast)

theorem mapM_signatureText (signatures : List Signature) :
    ((signatures.map signatureText).mapM fun s =>
      mapErr (fun e => Fault.err (invalidSignature s e)) (signatureFromStr s)) = .ok signatures :=
  mapM_map_eq_ok fun s _ => mapErr_eq_ok.2 (signatureFromStr_signatureText s)

/-- **The newest transactions are fetched, each once.** While the node goes on getting newer signatures of
    the sponsor, the pages it answers with put together are the newest of those it had at the first
    request, as many as asked for or all of them, in their order. The only error is that of a request
    that failed, so there is none when every request is answered with a page. -/
theorem fetchRecentSponsorSignatures_newest (number : Nat) :
    (fetchRecentSponsorSignatures sponsorPubkey number).Meets
      (nodeContract mayFail sponsorPubkey history)
      (FetchEnds mayFail sponsorPubkey (history.take number)) := by
  have hstart : Fetched history 0 none [] := ⟨Nat.zero_le _, rfl, rfl⟩
  have hloop : (fetchLoop sponsorPubkey number (number - 0) none []).Meets
      (nodeContract mayFail sponsorPubkey history) _ :=
    fetchLoop_meets (Nat.zero_le number) (Nat.le_refl _) hstart
  refine Task.Meets.bind hloop (fun signatures hsignatures => ?_) fun e he => he
  obtain rfl : signatures = _ := hsignatures
  change FetchEnds mayFail sponsorPubkey _ (List.mapM _ _)
  rw [mapM_signatureText]
  exact rfl

end FogoSessions.Paymaster
