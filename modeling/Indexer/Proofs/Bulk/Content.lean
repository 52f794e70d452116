import Indexer.Bulk.Outcome
import Mathlib.Algebra.Order.Group.Multiset

/-! Operations apart from their attempts, and how a response divides the
operations of a request. Copies of an operation that were sent at different
times have the same content, so contents can be counted over a whole run. -/
namespace Indexer

/-- An operation without the count of its attempts. -/
def Operation.content (op : Operation) : Operation := { op with attempts := 0 }

@[simp] theorem Operation.content_again (op : Operation) : op.again.content = op.content := rfl

/-- The contents of operations, each counted as often as it occurs. -/
def contents (ops : List Operation) : Multiset Operation :=
  (ops : Multiset Operation).map Operation.content

@[simp] theorem contents_nil : contents [] = 0 := rfl

@[simp] theorem contents_append (ops more : List Operation) :
    contents (ops ++ more) = contents ops + contents more := by
  simp [contents, ← Multiset.coe_add]

theorem contents_map_again (ops : List Operation) :
    contents (ops.map Operation.again) = contents ops := by
  simp [contents, Function.comp_def]

theorem card_contents (ops : List Operation) : (contents ops).card = ops.length := by
  simp [contents]

theorem contents_perm {ops more : List Operation} (h : ops.Perm more) :
    contents ops = contents more := by
  rw [contents, contents, Multiset.coe_eq_coe.mpr h]

/-- The operations of a request that a response acknowledges: those whose item,
paired with them by position, did not fail. A response that cannot be brought
together with the request acknowledges nothing. -/
def Batch.acknowledged (batch : Batch) (raw : Json) : List Operation :=
  match (Outcome.ofResponse batch raw).2, BulkResponse.ofJson raw with
  | .ok _, .ok response => ((batch.zip response.items).filter fun p => !p.2.failed).map (·.1)
  | _, _ => []

namespace Outcome

theorem pair_ok_cons {raw : Json} {op : Operation} {ops : List Operation} {item : ItemResult}
    {items : List ItemResult} {o : Outcome} (h : (pair raw (op :: ops) (item :: items)).2 = .ok o) :
    ∃ rest, (pair raw ops items).2 = .ok rest ∧ o = cons op item rest := by
  rw [pair] at h
  split at h
  · cases hRest : (pair raw ops items).2 with
    | error f => simp [hRest, Except.map] at h
    | ok rest =>
        simp only [hRest, Except.map, Except.ok.injEq] at h
        exact ⟨rest, rfl, h.symm⟩
  · cases h

/-- Pairing puts each operation on the side that its item says. -/
theorem pair_sides (raw : Json) (ops : List Operation) (items : List ItemResult) (o : Outcome)
    (h : (pair raw ops items).2 = .ok o) :
    o.succeeded = ((ops.zip items).filter fun p => !p.2.failed).map (·.1) ∧
    o.failed.map (·.op) = ((ops.zip items).filter fun p => p.2.failed).map (·.1) := by
  induction ops generalizing items o with
  | nil =>
      cases h
      simp
  | cons op ops ih =>
      cases items with
      | nil =>
          cases h
          simp
      | cons item items =>
          obtain ⟨rest, hRest, rfl⟩ := pair_ok_cons h
          obtain ⟨hSucceeded, hFailed⟩ := ih items rest hRest
          cases hItem : item.failed <;> simp [cons, hItem, hSucceeded, hFailed]

theorem ofResponse_ok {sent : List Operation} {raw : Json} {o : Outcome}
    (h : (ofResponse sent raw).2 = .ok o) :
    ∃ response, BulkResponse.ofJson raw = .ok response ∧
      response.items.length = sent.length ∧ (pair raw sent response.items).2 = .ok o := by
  unfold ofResponse at h
  cases hRead : BulkResponse.ofJson raw with
  | error f => simp [hRead] at h
  | ok response =>
      simp only [hRead] at h
      split at h
      · cases h
      · next hLength =>
          refine ⟨response, rfl, not_not.mp hLength, ?_⟩
          cases hPair : pair raw sent response.items with
          | mk log result => cases result <;> simp_all

/-- What a usable response acknowledges is what succeeded. -/
theorem acknowledged_eq {batch : Batch} {raw : Json} {o : Outcome}
    (h : (ofResponse batch raw).2 = .ok o) : batch.acknowledged raw = o.succeeded := by
  obtain ⟨response, hRead, _, hPair⟩ := ofResponse_ok h
  rw [Batch.acknowledged, h, hRead, (pair_sides raw batch response.items o hPair).1]

theorem acknowledged_of_error {batch : Batch} {raw : Json} {f : Fault}
    (h : (ofResponse batch raw).2 = .error f) : batch.acknowledged raw = [] := by
  rw [Batch.acknowledged, h]

theorem zip_items {batch : Batch} {items : List ItemResult} (h : items.length = batch.length) :
    (batch.zip items).map (·.1) = batch := List.map_fst_zip (Nat.le_of_eq h.symm)

/-- What failed are operations of the request in their order. -/
theorem failed_sublist {batch : Batch} {raw : Json} {o : Outcome}
    (h : (ofResponse batch raw).2 = .ok o) : (o.failed.map (·.op)).Sublist batch := by
  obtain ⟨response, _, hLength, hPair⟩ := ofResponse_ok h
  rw [(pair_sides raw batch response.items o hPair).2]
  conv_rhs => rw [← zip_items hLength]
  exact List.filter_sublist.map _

/-- Every operation of a request either succeeded or failed, and only once. -/
theorem perm_sides {batch : Batch} {raw : Json} {o : Outcome}
    (h : (ofResponse batch raw).2 = .ok o) : (o.succeeded ++ o.failed.map (·.op)).Perm batch := by
  obtain ⟨response, _, hLength, hPair⟩ := ofResponse_ok h
  obtain ⟨hSucceeded, hFailed⟩ := pair_sides raw batch response.items o hPair
  have hSplit : ((batch.zip response.items).filter (fun p => !p.2.failed) ++
      (batch.zip response.items).filter (fun p => p.2.failed)).Perm (batch.zip response.items) := by
    simpa using List.filter_append_perm (fun p : Operation × ItemResult => !p.2.failed)
      (batch.zip response.items)
  rw [hSucceeded, hFailed, ← List.map_append]
  conv_rhs => rw [← zip_items hLength]
  exact hSplit.map _

theorem contents_sides {batch : Batch} {raw : Json} {o : Outcome}
    (h : (ofResponse batch raw).2 = .ok o) :
    contents o.succeeded + contents (o.failed.map (·.op)) = contents batch := by
  rw [← contents_append, contents_perm (perm_sides h)]

end Outcome
end Indexer
