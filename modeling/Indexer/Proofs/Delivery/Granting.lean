import Indexer.Proofs.Delivery.Endings

/-! Destinations that acknowledge every operation. They report nothing and end no
run, so all that comes in is acknowledged in the end; and there is an answer of
this kind to every request. -/
namespace Indexer

/-- All operations of the request succeeded. -/
def Outcome.granted (batch : Batch) : Outcome := ⟨batch, []⟩

namespace Outcome

/-- An answer that says nothing against any operation. -/
def grant (batch : Batch) : Json :=
  .obj [("items", .arr (batch.map fun op => .obj [(op.kind.name, .obj [])]))]

theorem ofJson_granted (op : Operation) :
    ItemResult.ofJson (.obj [(op.kind.name, .obj [])]) = .ok (.ofContent op.kind []) := by
  cases hKind : op.kind <;> rfl

theorem pair_granted (raw : Json) (batch : Batch) :
    (pair raw batch (batch.map fun op => .ofContent op.kind [])).2 = .ok (granted batch) := by
  induction batch with
  | nil => rfl
  | cons op batch ih =>
      have hKind : (ItemResult.ofContent op.kind []).kind = op.kind := rfl
      simp only [List.map_cons, pair, if_pos hKind, ih]
      rfl

theorem mapM_granted (batch : Batch) :
    (batch.map fun op => Json.obj [(op.kind.name, .obj [])]).mapM ItemResult.ofJson =
      .ok (batch.map fun op => .ofContent op.kind []) := by
  induction batch with
  | nil => rfl
  | cons op batch ih =>
      rw [List.map_cons, List.mapM_cons, ofJson_granted, ih]
      rfl

/-- Every request can be acknowledged in full. -/
theorem ofResponse_grant {batch : Batch} (h : batch ≠ []) :
    (ofResponse batch (grant batch)).2 = .ok (granted batch) := by
  cases batch with
  | nil => exact absurd rfl h
  | cons op batch =>
      have hItems := mapM_granted (op :: batch)
      have hRead : BulkResponse.ofJson (grant (op :: batch)) =
          .ok ⟨none, (op :: batch).map fun op => .ofContent op.kind []⟩ := by
        rw [List.map_cons] at hItems
        simp only [BulkResponse.ofJson, grant, Json.lookup, List.find?, decide_true, Option.map_some,
          List.map_cons, hItems]
        rfl
      have hPair := pair_granted (grant (op :: batch)) (op :: batch)
      rw [ofResponse, hRead]
      simp only [List.length_map, ne_eq, not_true_eq_false, if_false]
      split
      · next log f hError =>
          rw [hError] at hPair
          cases hPair
      · next log o hOk =>
          rw [hOk] at hPair
          exact hPair

end Outcome

namespace Delivery

/-- A request that ends now is acknowledged in full, at a time that can be kept. -/
def Grants (d : Delivery) (e : Event) : Prop :=
  ∀ x, d.ending? e = some x → x.now.IsReading ∧ x.result = .ok (.granted x.batch)

variable {d : Delivery}

/-- A destination that acknowledges everything ends no run. -/
theorem run_fatal_of_grants (hOrderly : d.Orderly) (events : List Event)
    (hGrants : d.Throughout Grants events) (hOut : ∀ op ∈ d.outstanding, op.Writable)
    (hAdded : ∀ op ∈ d.collect accepted events, op.Writable) : (d.run events).fatal = d.fatal := by
  refine run_fatal (fun hOrderly hOut hGrants hEnding => ?_) hOrderly events hGrants hOut hAdded
  obtain ⟨hNow, hResult⟩ := hGrants _ hEnding
  refine fatal_of_ending hOrderly hEnding hResult hNow (List.Subset.refl _) hOut
    fun committed hCommit => ⟨[], ?_⟩
  rw [Coordinator.onOutcome_of_committed hCommit]
  rfl

/-- Nothing is taken in any more. -/
def IsShut (d : Delivery) (e : Event) : Prop := d.stage.isParting = true → d.accepted e = []

theorem grants_of_other {e : Event} (h : e.isEnd = false) : d.Grants e := by
  intro x hEnding
  rw [ending?_of_other h] at hEnding
  cases hEnding

theorem grants_of_answer {batch : Batch} (hFlight : d.inFlight = some batch) {now : DateTime}
    (hNow : now.IsReading) {raw : Json}
    (hRaw : (Outcome.ofResponse batch raw).2 = .ok (.granted batch)) :
    d.Grants (.answer now (.ok raw)) := by
  intro x hEnding
  rw [ending?_of_answer hFlight, Option.some.injEq] at hEnding
  subst hEnding
  exact ⟨hNow, by rw [interpret, hRaw]; rfl⟩

end Delivery
end Indexer
