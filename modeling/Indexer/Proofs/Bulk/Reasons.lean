import Indexer.Proofs.Bulk.Reconciliation

/-! What a failure says of itself. A destination may put any value where it tells why an
item failed. The status of a failure is a whole number all the same, the type of its
error a text that came from the destination, and its reason a text, with one exception: a
failure message of an item without an error is handed on as it is. -/
namespace Indexer

namespace Json

variable {item : Json}

def isText : Json → Bool
  | .str _ => true
  | _ => false

/-- An item says in a text why it failed: it has an error, whatever that is, or a failure message
that is a text or says nothing. -/
def givesText (item : Json) : Bool :=
  (item.told "error").any (fun error => !error.isNull) ||
    (item.told "failureMessage").all fun message => !message.truthy || message.isText

/-- The error of the item is of a type of this name: it is an object that says so, or anything else
whose text starts with the name of an exception. -/
def NamesType (item : Json) (name : String) : Prop :=
  (∃ body, item.told "error" = some (.obj body) ∧ lookup body "type" = some (.str name)) ∨
    ∃ error, item.told "error" = some error ∧ (∀ body, error ≠ .obj body) ∧
      ErrorName.ofText? error.bare = some name

theorem exists_toInt?_of_toStatus? {status : Json} {q : Quantity} (h : status.toStatus? = some q) :
    ∃ n, q.toInt? = some n := by
  unfold toStatus? at h
  split at h
  · next n =>
      cases h
      exact ⟨n, rfl⟩
  · next b =>
      cases h
      exact ⟨if b then 1 else 0, rfl⟩
  · cases h

theorem namesType_of_type? {e : ItemError} {name : String}
    (hError : (item.told "error").bind ItemError.ofJson? = some e) (hType : e.type? = some name) :
    item.NamesType name := by
  obtain ⟨error, hTold, hRead⟩ := Option.bind_eq_some_iff.mp hError
  unfold ItemError.ofJson? at hRead
  split at hRead
  · cases hRead
  · next body =>
      cases hRead
      dsimp only [ItemError.type?] at hType
      split at hType
      · next s hLookup =>
          cases hType
          exact .inl ⟨body, hTold, hLookup⟩
      · cases hType
  · next hNoObject =>
      cases hRead
      exact .inr ⟨error, hTold, hNoObject, hType⟩

end Json

/-- What a failure says of itself is what its item tells, brought to whole numbers and texts. -/
structure ItemFailure.Tells (f : ItemFailure) (item : Json) : Prop where
  reason : f.reason.isText = item.givesText
  status : ∀ q, f.status = some q → ∃ n, q.toInt? = some n
  errorType : ∀ name, f.errorType = some name → item.NamesType name

namespace ItemResult

variable {item : Json} {result : ItemResult}

theorem Reads.isText_reason (hRead : result.Reads item) (hFailed : result.failed = true) :
    result.reason.isText = item.givesText := by
  have hSome : result.error.isSome = (item.told "error").any fun error => !error.isNull := by
    rw [hRead.error]
    cases item.told "error" with
    | none => rfl
    | some error => exact Json.isSome_ofJson? error
  rw [hRead.reason hFailed, Json.givesText, ← hSome]
  cases result.error with
  | some e => rfl
  | none =>
      cases item.told "failureMessage" with
      | none => rfl
      | some message => cases hSays : message.truthy <;> simp [hSays, Json.isText]

theorem Reads.tells (hRead : result.Reads item) (hFailed : result.failed = true) (op : Operation) :
    ItemFailure.Tells ⟨op, result.reason, result.status, result.error.bind ItemError.type?⟩ item where
  reason := hRead.isText_reason hFailed
  status q hStatus := by
    obtain ⟨status, _, hWhole⟩ := Option.bind_eq_some_iff.mp (hRead.status.symm.trans hStatus)
    exact Json.exists_toInt?_of_toStatus? hWhole
  errorType name hName := by
    obtain ⟨e, hError, hType⟩ := Option.bind_eq_some_iff.mp hName
    exact Json.namesType_of_type? (hRead.error.symm.trans hError) hType

end ItemResult

namespace Outcome

variable {sent : List Operation} {results : List ItemResult} {items : List Json}

/-- The failures of a request are told by its failed items, in their order. -/
theorem failed_divide (hRead : List.Forall₂ ItemResult.Reads results items)
    (hLength : sent.length = items.length) :
    List.Forall₂ ItemFailure.Tells (divide sent results).failed (items.filter Json.tellsFailure) := by
  induction hRead generalizing sent with
  | nil =>
      rw [List.length_eq_zero_iff.mp hLength]
      exact .nil
  | @cons result item results items hItem _ ih =>
      cases sent with
      | nil => cases hLength
      | cons op sent =>
          have hRest := ih (Nat.succ.inj hLength)
          have hDivide : divide (op :: sent) (result :: results) =
              cons op result (divide sent results) := rfl
          rw [hDivide, cons, List.filter_cons, ← hItem.failed]
          cases hFailed : result.failed with
          | false => exact hRest
          | true => exact .cons (hItem.tells hFailed op) hRest

theorem isText_reasons_iff {failed : List ItemFailure}
    (h : List.Forall₂ ItemFailure.Tells failed items) :
    (∀ f ∈ failed, f.reason.isText = true) ↔ ∀ item ∈ items, item.givesText = true := by
  induction h with
  | nil => simp
  | cons hFirst _ ih => rw [List.forall_mem_cons, List.forall_mem_cons, ih, hFirst.reason]

/-- **What the failures of a taken response say of themselves.** There is one for each failed item,
in their order; its status is a whole number or none, and the type of its error none or a text that
the item has. All reasons are texts exactly if every failed item without an error has a failure message
that is a text or says nothing. -/
theorem failures_are_told_in_texts {sent : List Operation} {raw : Json} {o : Outcome}
    (hTaken : (ofResponse sent raw).2 = .ok o) :
    ∃ items, raw.field? "items" = some (.arr items) ∧
      List.Forall₂ ItemFailure.Tells o.failed (items.filter Json.tellsFailure) ∧
      ((∀ f ∈ o.failed, f.reason.isText = true) ↔
        ∀ item ∈ items, item.tellsFailure = true → item.givesText = true) := by
  obtain ⟨items, hMirrors⟩ := mirrors_of_ok hTaken
  obtain ⟨results, hRead, hMade, _⟩ := exists_of_mirrors hMirrors
  obtain rfl : divide sent results = o := Except.ok.inj (hMade.symm.trans hTaken)
  have hTells := failed_divide hRead hMirrors.2.2.length_eq
  refine ⟨items, hMirrors.1, hTells, (isText_reasons_iff hTells).trans ?_⟩
  simp only [List.mem_filter, and_imp]

/-- An item that failed with an error that is a list, and one that failed with a message. -/
theorem rejection_is_told_in_texts :
    let sent : List Operation := [⟨.delete, "a", none, 0⟩, ⟨.delete, "b", none, 0⟩]
    let raw := Json.obj [("items", .arr
      [.obj [("delete", .obj [("error", .arr [.nat 1]), ("status", .bool true)])],
        .obj [("delete", .obj [("failed", .str "yes"), ("failureMessage", .str "rejected")])]])]
    ∃ o, (ofResponse sent raw).2 = .ok o ∧
      o.failed.length = 2 ∧ ∀ f ∈ o.failed, f.reason.isText = true := by
  intro sent raw
  obtain ⟨o, hTaken⟩ : ∃ o, (ofResponse sent raw).2 = .ok o := ⟨_, rfl⟩
  obtain ⟨items, hItems, hTells, hTexts⟩ := failures_are_told_in_texts hTaken
  cases hItems
  refine ⟨o, hTaken, hTells.length_eq.trans (by decide), hTexts.mpr ?_⟩
  intro item hItem _
  rcases List.mem_cons.mp hItem with rfl | hItem
  · rfl
  · rw [List.mem_singleton.mp hItem]
    rfl

/-- A failure message that is a number is handed on as the reason. -/
theorem number_is_handed_on :
    let sent : List Operation := [⟨.delete, "a", none, 0⟩]
    let raw := Json.obj [("items", .arr [.obj [("delete", .obj [("_id", .str "a"),
      ("failed", .bool true), ("failureMessage", .nat 7)])]])]
    ∃ o, (ofResponse sent raw).2 = .ok o ∧ ∃ f ∈ o.failed, ∀ text, f.reason ≠ .str text := by
  intro sent raw
  exact ⟨_, rfl, _, List.mem_singleton_self _, nofun⟩

end Outcome
end Indexer
