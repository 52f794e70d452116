import Indexer.Proofs.Bulk.Content
import Indexer.Proofs.Fallible

/-! Reconciliation of a response with its request. A response is taken exactly if it
mirrors the request, item by item. It then divides the operations into those that
succeeded and those that failed; what the failed items say of their failure is
carried along, and nothing else in the response makes a difference. -/
namespace Indexer

/-- The keys that the item for an operation of this kind can be wrapped in. -/
def OpKind.keys : OpKind → List String
  | .index => ["index", "create", "update"]
  | .delete => ["delete"]

namespace Json

/-- The item is one for an operation of this kind. -/
def IsFor (item : Json) (kind : OpKind) : Prop :=
  ∃ key ∈ kind.keys, ∃ content, item = .obj [(key, .obj content)]

/-- What an item says under a key, inside of what it is wrapped in. -/
def told (item : Json) (key : String) : Option Json :=
  match item with
  | .obj [(_, content)] => content.field? key
  | _ => none

/-- The item is marked as failed, or it has an error. -/
def tellsFailure (item : Json) : Bool :=
  (item.told "failed").any truthy || (item.told "error").any fun error => !error.isNull

/-- Neither item tells of a failure, or both tell the same of one. -/
def SameFate (item other : Json) : Prop :=
  item.tellsFailure = other.tellsFailure ∧
    (item.tellsFailure = true →
      ∀ key ∈ ["error", "failureMessage", "status"], item.told key = other.told key)

/-- The response has an item for each operation, in the order of the request and of its kind. -/
def Mirrors (raw : Json) (sent : List Operation) (items : List Json) : Prop :=
  raw.field? "items" = some (.arr items) ∧ items ≠ [] ∧
    List.Forall₂ (fun op item => item.IsFor op.kind) sent items

theorem isSome_ofJson? (error : Json) : (ItemError.ofJson? error).isSome = !error.isNull := by
  cases error <;> rfl

end Json

namespace ItemResult

variable {item other : Json} {result : ItemResult}

theorem kindOfKey?_eq_some_iff {key : String} {kind : OpKind} :
    kindOfKey? key = some kind ↔ key ∈ kind.keys := by
  unfold kindOfKey?
  cases kind <;> by_cases hIndex : key = "index" ∨ key = "create" ∨ key = "update" <;>
    by_cases hDelete : key = "delete" <;> simp_all [OpKind.keys]

/-- What a result says of a failure is what the item tells. -/
structure Reads (result : ItemResult) (item : Json) : Prop where
  wrapped : item.IsFor result.kind
  failed : result.failed = item.tellsFailure
  status : result.status = (item.told "status").bind Json.toStatus?
  error : result.error = (item.told "error").bind ItemError.ofJson?
  reason : result.failed = true → result.reason =
    match result.error with
    | some e => .str e.reason
    | none =>
      let text := (item.told "failureMessage").getD .null
      if text.truthy then text
      else .str ("failed with status " ++ ((item.told "status").getD .null).bare)

theorem reads_ofContent {kind : OpKind} {key : String} (hKey : key ∈ kind.keys)
    (content : List (String × Json)) :
    (ofContent kind content).Reads (.obj [(key, .obj content)]) where
  wrapped := ⟨key, hKey, content, rfl⟩
  failed := by
    simp only [ofContent, Json.tellsFailure, Json.told, Json.field?]
    cases Json.lookup content "failed" <;> cases Json.lookup content "error" <;>
      simp [Json.isSome_ofJson?, Json.truthy]
  status := rfl
  error := rfl
  reason hFailed := by
    simp only [ofContent] at hFailed ⊢
    rw [if_pos hFailed]
    rfl

theorem ofJson_reads (h : ofJson item = .ok result) : result.Reads item := by
  unfold ofJson at h
  split at h
  · next key content =>
      split at h
      · next kind fields hKind =>
          cases h
          exact reads_ofContent (kindOfKey?_eq_some_iff.mp hKind) fields
      · cases h
  · cases h

/-- An item of a known kind can be read. -/
theorem exists_ofJson {kind : OpKind} (h : item.IsFor kind) :
    ∃ result, ofJson item = .ok result ∧ result.kind = kind := by
  obtain ⟨key, hKey, content, rfl⟩ := h
  rw [← kindOfKey?_eq_some_iff] at hKey
  exact ⟨ofContent kind content, by simp [ofJson, hKey], rfl⟩

theorem ofJson_error {f : Fault} (h : ofJson item = .error f) :
    ∃ message, f = .protocol message item := by
  unfold ofJson at h
  split at h
  · split at h
    · cases h
    · cases h
      exact ⟨_, rfl⟩
  · cases h
    exact ⟨_, rfl⟩

end ItemResult

theorem BulkResponse.ofJson_of_items {fields : List (String × Json)} {items : List Json}
    (hItems : Json.lookup fields "items" = some (.arr items)) (hSome : items ≠ []) :
    ofJson (.obj fields) = (items.mapM ItemResult.ofJson).map fun results =>
      ⟨(Json.lookup fields "errors").bind Json.asBool?, results⟩ := by
  cases items with
  | nil => exact absurd rfl hSome
  | cons item rest => simp only [ofJson, hItems]

/-- A response can be read exactly if it has items and each of them can. -/
theorem BulkResponse.ofJson_eq_ok_iff {raw : Json} {results : List ItemResult} :
    (∃ errors, ofJson raw = .ok ⟨errors, results⟩) ↔
      ∃ items, raw.field? "items" = some (.arr items) ∧ items ≠ [] ∧
        List.Forall₂ (fun item result => ItemResult.ofJson item = .ok result) items results := by
  constructor
  · rintro ⟨errors, hRead⟩
    unfold ofJson at hRead
    split at hRead
    · next fields =>
        split at hRead
        · next item rest hItems =>
            refine ⟨item :: rest, hItems, List.cons_ne_nil item rest, mapM_eq_ok_iff.mp ?_⟩
            cases hResults : (item :: rest).mapM ItemResult.ofJson with
            | error f =>
                rw [hResults] at hRead
                cases hRead
            | ok read =>
                rw [hResults] at hRead
                cases hRead
                rfl
        · cases hRead
    · cases hRead
  · rintro ⟨items, hItems, hSome, hResults⟩
    cases raw with
    | obj fields =>
        rw [ofJson_of_items hItems hSome, mapM_eq_ok_iff.mpr hResults]
        exact ⟨_, rfl⟩
    | null | bool b | number n | str s | arr items => cases hItems

theorem BulkResponse.ofJson_error {raw : Json} {f : Fault} (h : ofJson raw = .error f) :
    ∃ message value, f = .protocol message value := by
  unfold ofJson at h
  split at h
  · split at h
    · next item rest _ =>
        cases hRead : (item :: rest).mapM ItemResult.ofJson with
        | error g =>
            rw [hRead] at h
            cases h
            obtain ⟨bad, _, hBad⟩ := exists_of_mapM_error hRead
            obtain ⟨message, rfl⟩ := ItemResult.ofJson_error hBad
            exact ⟨message, bad, rfl⟩
        | ok results =>
            rw [hRead] at h
            cases h
    · cases h
      exact ⟨_, _, rfl⟩
  · cases h
    exact ⟨_, _, rfl⟩

namespace Outcome

/-- What some results make of the operations that they are about. -/
def divide (sent : List Operation) (results : List ItemResult) : Outcome :=
  (sent.zip results).foldr (fun p => cons p.1 p.2) ⟨[], []⟩

variable {raw : Json} {sent : List Operation} {results more : List ItemResult}

theorem pair_of_kinds (h : List.Forall₂ (fun op result => result.kind = op.kind) sent results) :
    (pair raw sent results).2 = .ok (divide sent results) := by
  induction h with
  | nil => rfl
  | cons hKind _ ih =>
      simp only [pair, hKind, if_true, ih]
      rfl

theorem kinds_of_pair {o : Outcome} (hLength : results.length = sent.length)
    (h : (pair raw sent results).2 = .ok o) :
    List.Forall₂ (fun op result => result.kind = op.kind) sent results := by
  induction sent generalizing results o with
  | nil => rw [List.length_eq_zero_iff.mp hLength]; exact .nil
  | cons op sent ih =>
      cases results with
      | nil => cases hLength
      | cons result results =>
          obtain ⟨rest, hRest, _⟩ := pair_ok_cons h
          refine .cons ?_ (ih (Nat.succ.inj hLength) hRest)
          by_contra hOther
          simp [pair, hOther] at h

theorem pair_error {f : Fault} (h : (pair raw sent results).2 = .error f) :
    ∃ message, f = .protocol message raw := by
  induction sent generalizing results with
  | nil => cases h
  | cons op sent ih =>
      cases results with
      | nil => cases h
      | cons result results =>
          rw [pair] at h
          split at h
          · cases hRest : (pair raw sent results).2 with
            | error g =>
                simp only [hRest, Except.map, Except.error.injEq] at h
                subst h
                exact ih hRest
            | ok o => simp [hRest, Except.map] at h
          · cases h
            exact ⟨_, rfl⟩

/-- A response that is not taken is a malformed one, whatever is wrong with it. -/
theorem ofResponse_error {f : Fault} (h : (ofResponse sent raw).2 = .error f) :
    ∃ message value, f = .protocol message value := by
  unfold ofResponse at h
  split at h
  · next g hRead =>
      cases h
      exact BulkResponse.ofJson_error hRead
  · next response hRead =>
      split at h
      · cases h
        exact ⟨_, _, rfl⟩
      · split at h
        · next log g hPair =>
            cases h
            obtain ⟨message, rfl⟩ := pair_error (congrArg Prod.snd hPair)
            exact ⟨message, raw, rfl⟩
        · cases h

/-- Whatever else two items say, what one makes of an operation the other makes of it too. -/
theorem cons_of_sameFate {item other : Json} {result more : ItemResult} (hRead : result.Reads item)
    (hMore : more.Reads other) (hFate : item.SameFate other) (op : Operation) (o : Outcome) :
    cons op result o = cons op more o := by
  obtain ⟨hFails, hSays⟩ := hFate
  have hFailed : result.failed = more.failed := by rw [hRead.failed, hMore.failed, hFails]
  cases hResult : result.failed with
  | false => simp [cons, hResult, ← hFailed]
  | true =>
      have hTells := hSays (hRead.failed.symm.trans hResult)
      have hError : result.error = more.error := by
        rw [hRead.error, hMore.error, hTells "error" (by simp)]
      have hStatus : result.status = more.status := by
        rw [hRead.status, hMore.status, hTells "status" (by simp)]
      have hReason : result.reason = more.reason := by
        rw [hRead.reason hResult, hMore.reason (hFailed ▸ hResult), hError,
          hTells "status" (by simp), hTells "failureMessage" (by simp)]
      simp [cons, hResult, ← hFailed, hReason, hStatus, hError]

theorem divide_of_sameFate {items others : List Json}
    (hRead : List.Forall₂ ItemResult.Reads results items)
    (hMore : List.Forall₂ ItemResult.Reads more others)
    (hFate : List.Forall₂ Json.SameFate items others) :
    divide sent results = divide sent more := by
  induction hFate generalizing results more sent with
  | nil =>
      cases hRead
      cases hMore
      rfl
  | cons hItem _ ih =>
      cases hRead with
      | cons hFirst hRest =>
          cases hMore with
          | cons hOther hOthers =>
              cases sent with
              | nil => rfl
              | cons op sent =>
                  have hTail : divide sent _ = divide sent _ := ih hRest hOthers
                  simp only [divide, List.zip_cons_cons, List.foldr_cons] at hTail ⊢
                  rw [hTail, cons_of_sameFate hFirst hOther hItem]

/-- What is taken of a response that mirrors the request. -/
theorem exists_of_mirrors {items : List Json} (h : raw.Mirrors sent items) :
    ∃ results, List.Forall₂ ItemResult.Reads results items ∧
      (ofResponse sent raw).2 = .ok (divide sent results) ∧
      (pair raw sent results).2 = .ok (divide sent results) := by
  obtain ⟨hItems, hSome, hKinds⟩ := h
  have hResults : ∃ results, List.Forall₂ (fun item result => ItemResult.ofJson item = .ok result)
      items results ∧ List.Forall₂ (fun op result => result.kind = op.kind) sent results := by
    clear hItems hSome
    induction hKinds with
    | nil => exact ⟨[], .nil, .nil⟩
    | cons hItem _ ih =>
        obtain ⟨result, hResult, hKind⟩ := ItemResult.exists_ofJson hItem
        obtain ⟨results, hRead, hKinds⟩ := ih
        exact ⟨result :: results, .cons hResult hRead, .cons hKind hKinds⟩
  obtain ⟨results, hRead, hAgree⟩ := hResults
  obtain ⟨errors, hResponse⟩ := BulkResponse.ofJson_eq_ok_iff.mpr ⟨items, hItems, hSome, hRead⟩
  have hPair : (pair raw sent results).2 = .ok (divide sent results) := pair_of_kinds hAgree
  refine ⟨results, hRead.flip.imp fun _ _ => ItemResult.ofJson_reads, ?_, hPair⟩
  simp only [ofResponse, hResponse, ne_eq, hAgree.length_eq, not_true_eq_false, if_false]
  cases hBoth : pair raw sent results with
  | mk log made =>
      rw [hBoth] at hPair
      cases hPair
      rfl

/-- A response that is taken mirrors the request. -/
theorem mirrors_of_ok {o : Outcome} (h : (ofResponse sent raw).2 = .ok o) :
    ∃ items, raw.Mirrors sent items := by
  obtain ⟨response, hResponse, hLength, hPair⟩ := ofResponse_ok h
  obtain ⟨items, hItems, hSome, hRead⟩ :=
    BulkResponse.ofJson_eq_ok_iff.mp ⟨response.errors, hResponse⟩
  have hKinds := kinds_of_pair hLength hPair
  refine ⟨items, hItems, hSome, List.forall₂_iff_get.mpr ⟨?_, fun i hSent hItem => ?_⟩⟩
  · rw [hRead.length_eq, hKinds.length_eq]
  · have hResult : i < response.items.length := hKinds.length_eq ▸ hSent
    rw [← hKinds.get hSent hResult]
    exact (ItemResult.ofJson_reads (hRead.get hItem hResult)).wrapped

theorem filter_zip_reads {items : List Json} (hRead : List.Forall₂ ItemResult.Reads results items)
    (keep : Bool → Bool) :
    ((sent.zip results).filter fun p => keep p.2.failed).map (·.1) =
      ((sent.zip items).filter fun p => keep p.2.tellsFailure).map (·.1) := by
  induction hRead generalizing sent with
  | nil => simp
  | cons hItem _ ih =>
      cases sent with
      | nil => rfl
      | cons op sent =>
          simp only [List.zip_cons_cons, List.filter_cons, hItem.failed]
          split <;> simp [ih]

/-- A response is taken exactly if it mirrors the request, and everything else is refused
as malformed. What is taken is divided by what the items tell: an operation whose item
tells of a failure failed, the others succeeded, each in the order of the request. The
outcome depends on nothing but the failures that the items tell of. -/
theorem response_is_taken_iff_it_mirrors (sent : List Operation) (raw : Json) :
    ((∃ o, (ofResponse sent raw).2 = .ok o) ↔ ∃ items, raw.Mirrors sent items) ∧
    (∀ f, (ofResponse sent raw).2 = .error f → ∃ message value, f = .protocol message value) ∧
    ∀ items o, raw.Mirrors sent items → (ofResponse sent raw).2 = .ok o →
      o.succeeded = ((sent.zip items).filter fun p => !p.2.tellsFailure).map (·.1) ∧
      o.failed.map (·.op) = ((sent.zip items).filter fun p => p.2.tellsFailure).map (·.1) ∧
      (o.succeeded ++ o.failed.map (·.op)).Perm sent ∧
      ∀ other others, other.Mirrors sent others → List.Forall₂ Json.SameFate items others →
        (ofResponse sent other).2 = .ok o := by
  refine ⟨⟨fun ⟨_, hTaken⟩ => mirrors_of_ok hTaken, fun ⟨_, hMirrors⟩ => ?_⟩,
    fun _ => ofResponse_error, fun items o hMirrors hTaken => ?_⟩
  · obtain ⟨results, _, hTaken, _⟩ := exists_of_mirrors hMirrors
    exact ⟨_, hTaken⟩
  · obtain ⟨results, hRead, hMade, hPair⟩ := exists_of_mirrors hMirrors
    obtain rfl : divide sent results = o := Except.ok.inj (hMade.symm.trans hTaken)
    obtain ⟨hSucceeded, hFailed⟩ := pair_sides raw sent results _ hPair
    have hSides := And.intro (hSucceeded.trans (filter_zip_reads hRead (!·)))
      (hFailed.trans (filter_zip_reads hRead id))
    refine ⟨hSides.1, hSides.2, ?_, fun other others hOther hFate => ?_⟩
    · have hAll : (sent.zip items).map (·.1) = sent :=
        List.map_fst_zip (hMirrors.2.2.length_eq.le)
      rw [hSides.1, hSides.2, ← List.map_append]
      conv_rhs => rw [← hAll]
      refine List.Perm.map _ ((List.perm_append_comm).trans ?_)
      exact List.filter_append_perm (fun p => p.2.tellsFailure) (sent.zip items)
    · obtain ⟨more, hMore, hOtherwise, _⟩ := exists_of_mirrors hOther
      rw [hOtherwise, divide_of_sameFate hRead hMore hFate]

/-- Two deletions, the second of which fails. -/
theorem taken_with_a_failure :
    let sent : List Operation := [⟨.delete, "a", none, 0⟩, ⟨.delete, "b", none, 0⟩]
    let items : List Json := [.obj [("delete", .obj [("_id", .str "a")])],
      .obj [("delete", .obj [("failed", .bool true), ("status", .nat 503)])]]
    let others : List Json := [.obj [("delete", .obj [("error", .null)])],
      .obj [("delete", .obj [("_id", .str "c"), ("failed", .bool true), ("status", .nat 503)])]]
    let raw := Json.obj [("items", .arr items)]
    let other := Json.obj [("errors", .bool false), ("items", .arr others)]
    ∃ o, (ofResponse sent raw).2 = .ok o ∧ o.succeeded = [⟨.delete, "a", none, 0⟩] ∧
      o.failed.map (·.op) = [⟨.delete, "b", none, 0⟩] ∧ (ofResponse sent other).2 = .ok o := by
  intro sent items others raw other
  have hDelete : ∀ content : List (String × Json),
      Json.IsFor (.obj [("delete", .obj content)]) .delete := fun content =>
    ⟨"delete", List.mem_singleton_self _, content, rfl⟩
  have hMirrors : raw.Mirrors sent items :=
    ⟨rfl, List.cons_ne_nil _ _, .cons (hDelete _) (.cons (hDelete _) .nil)⟩
  have hOther : other.Mirrors sent others :=
    ⟨rfl, List.cons_ne_nil _ _, .cons (hDelete _) (.cons (hDelete _) .nil)⟩
  have hFate : List.Forall₂ Json.SameFate items others :=
    .cons (by simp [Json.SameFate, Json.tellsFailure, Json.told, Json.field?, Json.lookup,
        Json.isNull])
      (.cons (by simp [Json.SameFate, Json.tellsFailure, Json.told, Json.field?, Json.lookup])
        .nil)
  obtain ⟨hTaken, _, hDivided⟩ := response_is_taken_iff_it_mirrors sent raw
  obtain ⟨o, hOutcome⟩ := hTaken.mpr ⟨items, hMirrors⟩
  obtain ⟨hSucceeded, hFailed, _, hSame⟩ := hDivided items o hMirrors hOutcome
  exact ⟨o, hOutcome, hSucceeded, hFailed, hSame other others hOther hFate⟩

end Outcome
end Indexer
