import Indexer.Proofs.Bulk.Calls
import Indexer.Proofs.Delivery.Escalation

/-! What the counts of attempts stand for. An operation that is sent again is a
new operation for the coordinator, and nothing but its count tells of the requests
that carried it before. So a run is told by journeys: each operation that was
added makes one, from request to request, and what a request carries are the
journeys that stop at it. The count of a copy is then the number of the stops
before. -/
namespace Indexer

/-- What is, in some order, the image of a list is the image of the list in some order. -/
theorem exists_of_perm_map {α β : Type} {f : α → β} {l : List α} {images : List β}
    (h : images.Perm (l.map f)) : ∃ l' : List α, l'.Perm l ∧ l'.map f = images := by
  generalize hImages : l.map f = others at h
  induction h generalizing l with
  | nil => exact ⟨[], by simp [List.map_eq_nil_iff.mp hImages], rfl⟩
  | cons b _ ih =>
      obtain ⟨a, rest, rfl, rfl, hRest⟩ := List.map_eq_cons_iff.mp hImages
      obtain ⟨l', hPerm, hMap⟩ := ih hRest
      exact ⟨a :: l', hPerm.cons a, by rw [List.map_cons, hMap]⟩
  | swap b b' images =>
      obtain ⟨a, rest, rfl, rfl, hRest⟩ := List.map_eq_cons_iff.mp hImages
      obtain ⟨a', rest', rfl, rfl, rfl⟩ := List.map_eq_cons_iff.mp hRest
      exact ⟨a' :: a :: rest', .swap a a' rest', rfl⟩
  | trans _ _ ih ih' =>
      obtain ⟨l', hPerm', hMap'⟩ := ih' hImages
      obtain ⟨l'', hPerm, hMap⟩ := ih hMap'
      exact ⟨l'', hPerm.trans hPerm', hMap⟩

/-- So the list can be divided as its image is. -/
theorem exists_of_append_perm_map {α β : Type} {f : α → β} {l : List α} {front back : List β}
    (h : (front ++ back).Perm (l.map f)) :
    ∃ l₁ l₂ : List α, (l₁ ++ l₂).Perm l ∧ l₁.map f = front ∧ l₂.map f = back := by
  obtain ⟨l', hPerm, hMap⟩ := exists_of_perm_map h
  obtain ⟨l₁, l₂, rfl, hFront, hBack⟩ := List.map_eq_append_iff.mp hMap
  exact ⟨l₁, l₂, hPerm, hFront, hBack⟩

theorem exists_of_append_subperm_map {α β : Type} {f : α → β} {l : List α} {front back : List β}
    (h : (front ++ back).Subperm (l.map f)) :
    ∃ l₁ l₂ : List α, (l₁ ++ l₂).Perm l ∧ l₁.map f = front ∧ back.Subperm (l₂.map f) := by
  obtain ⟨part, hPart, hSublist⟩ := h
  obtain ⟨rest, hRest⟩ := hSublist.exists_perm_append
  have hAll : (front ++ (back ++ rest)).Perm (l.map f) := by
    rw [← List.append_assoc]
    exact (hPart.symm.append_right rest).trans hRest.symm
  obtain ⟨l₁, l₂, hPerm, hFront, hBack⟩ := exists_of_append_perm_map hAll
  exact ⟨l₁, l₂, hPerm, hFront, hBack ▸ (List.sublist_append_left back rest).subperm⟩

namespace Delivery

/-- The response to the request was malformed. -/
def Ending.isMalformed (x : Ending) : Bool :=
  match x.result with
  | .error (.protocol _ _) => true
  | _ => false

/-- The way of an operation through a run, by the numbers of the requests that carried it. -/
structure Journey where
  op : Operation
  stops : List Nat
  deriving DecidableEq

namespace Journey

/-- The copy of the operation that a request carries: its attempts are the requests before. -/
def carried (i : Nat) (j : Journey) : Operation := { j.op with attempts := j.stops.countP (· < i) }

/-- The copy that the next request will carry. -/
def next (j : Journey) : Operation := { j.op with attempts := j.stops.length }

/-- The journey with one more stop. -/
def depart (n : Nat) (j : Journey) : Journey := { j with stops := j.stops ++ [n] }

/-- The number of stops at requests that ended in a malformed response. -/
def setbacks (endings : List Ending) (j : Journey) : Nat :=
  j.stops.countP fun i => endings[i]?.any Ending.isMalformed

variable {i n bound : Nat} {j : Journey} {js : List Journey}

@[simp] theorem depart_op (n : Nat) (j : Journey) : (j.depart n).op = j.op := rfl

@[simp] theorem depart_stops (n : Nat) (j : Journey) : (j.depart n).stops = j.stops ++ [n] := rfl

theorem next_depart (n : Nat) (j : Journey) : (j.depart n).next = j.next.again := by
  simp [next, Operation.again]

theorem carried_depart (h : i ≤ n) (j : Journey) : (j.depart n).carried i = j.carried i := by
  simp [carried, h]

/-- The request after all stops carries the copy that comes next. -/
theorem carried_eq_next (h : ∀ s ∈ j.stops, s < n) : j.carried n = j.next := by
  have hAll : j.stops.countP (· < n) = j.stops.length :=
    List.countP_eq_length.mpr fun s hs => decide_eq_true (h s hs)
  rw [carried, next, hAll]

theorem setbacks_le (xs ys : List Ending) (j : Journey) : j.setbacks xs ≤ j.setbacks (xs ++ ys) := by
  refine List.countP_mono_left fun i _ hEnded => ?_
  obtain ⟨x, hx, hMalformed⟩ := Option.any_eq_true _ _ |>.mp hEnded
  rw [List.getElem?_append_left (List.getElem?_eq_some_iff.mp hx).1, hx]
  exact hMalformed

theorem setbacks_depart (endings : List Ending) (n : Nat) (j : Journey) :
    (j.depart n).setbacks endings =
      j.setbacks endings + if endings[n]?.any Ending.isMalformed then 1 else 0 := by
  rw [setbacks, depart_stops, List.countP_append, List.countP_singleton]
  rfl

/-- The stops are in order and among the first `n` requests, and there are not more of them than
`bound`. -/
structure Within (n bound : Nat) (j : Journey) : Prop where
  ascending : j.stops.Pairwise (· < ·)
  known : ∀ s ∈ j.stops, s < n
  length : j.stops.length ≤ bound

theorem Within.mono {n' bound' : Nat} (h : j.Within n bound) (hn : n ≤ n') (hBound : bound ≤ bound') :
    j.Within n' bound' :=
  ⟨h.ascending, fun s hs => (h.known s hs).trans_le hn, h.length.trans hBound⟩

theorem Within.depart (h : j.Within n bound) : (j.depart n).Within (n + 1) (bound + 1) where
  ascending := by
    rw [depart_stops, List.pairwise_append]
    refine ⟨h.ascending, List.pairwise_singleton _ _, fun s hs t ht => ?_⟩
    rw [List.mem_singleton.mp ht]
    exact h.known s hs
  known s hs := by
    rcases List.mem_append.mp hs with hOld | hNew
    · exact (h.known s hOld).trans (Nat.lt_succ_self n)
    · rw [List.mem_singleton.mp hNew]
      exact Nat.lt_succ_self n
  length := by
    rw [depart_stops, List.length_append]
    exact Nat.succ_le_succ h.length

end Journey

open Journey

/-- What a request carries of journeys. -/
def cargo (i : Nat) (js : List Journey) : List Operation :=
  (js.filter fun j => i ∈ j.stops).map (carried i)

section
variable {i n : Nat} {js more : List Journey}

theorem cargo_append (i : Nat) (js more : List Journey) :
    cargo i (js ++ more) = cargo i js ++ cargo i more := by
  rw [cargo, List.filter_append, List.map_append]
  rfl

theorem cargo_perm (h : js.Perm more) : (cargo i js).Perm (cargo i more) := (h.filter _).map _

theorem cargo_of_never (h : ∀ j ∈ js, i ∉ j.stops) : cargo i js = [] := by
  have hNone : js.filter (fun j => i ∈ j.stops) = [] :=
    List.filter_eq_nil_iff.mpr fun j hj hStops => h j hj (of_decide_eq_true hStops)
  rw [cargo, hNone, List.map_nil]

/-- A later stop changes nothing about what a request carries. -/
theorem cargo_depart_of_lt (h : i < n) (js : List Journey) :
    cargo i (js.map (depart n)) = cargo i js := by
  have hStops : (fun j : Journey => decide (i ∈ j.stops)) ∘ depart n =
      fun j => decide (i ∈ j.stops) := by
    funext j
    simp [h.ne]
  rw [cargo, List.filter_map, hStops, List.map_map, cargo]
  exact List.map_congr_left fun j _ => carried_depart h.le j

/-- The request of the last stop carries what was to come next. -/
theorem cargo_depart (h : ∀ j ∈ js, ∀ s ∈ j.stops, s < n) :
    cargo n (js.map (depart n)) = js.map next := by
  have hAll : (js.map (depart n)).filter (fun j => n ∈ j.stops) = js.map (depart n) := by
    refine List.filter_eq_self.mpr fun j hj => ?_
    obtain ⟨before, _, rfl⟩ := List.mem_map.mp hj
    simp
  rw [cargo, hAll, List.map_map]
  refine List.map_congr_left fun j hj => ?_
  rw [Function.comp_apply, carried_depart le_rfl, carried_eq_next (h j hj)]

end

/-- Journeys tell the requests of a run: everything that was added makes one of them, and each request
carried those that stop at it. -/
structure Told (requests : List Batch) (added : List Operation) (journeys : List Journey) : Prop where
  added : (journeys.map (·.op)).Perm added
  requests : ∀ (i : Nat) (batch : Batch), requests[i]? = some batch → batch.Perm (cargo i journeys)

namespace Told

variable {requests : List Batch} {added fresh : List Operation} {journeys others : List Journey}

theorem perm (h : Told requests added journeys) (hPerm : journeys.Perm others) :
    Told requests added others where
  added := (hPerm.map _).symm.trans h.added
  requests i batch hBatch := (h.requests i batch hBatch).trans (cargo_perm hPerm)

/-- Operations that are added set out. -/
theorem setOut (h : Told requests added journeys) (fresh : List Operation) :
    Told requests (added ++ fresh) (journeys ++ fresh.map fun op => ⟨op, []⟩) where
  added := by
    have hOps : ((fresh.map fun op => Journey.mk op []).map (·.op)) = fresh := by
      rw [List.map_map]
      exact List.map_id fresh
    rw [List.map_append, hOps]
    exact h.added.append_right fresh
  requests i batch hBatch := by
    have hNone : cargo i (fresh.map fun op => ⟨op, []⟩) = [] :=
      cargo_of_never fun j hj => by
        obtain ⟨op, _, rfl⟩ := List.mem_map.mp hj
        exact List.not_mem_nil
    rw [cargo_append, hNone, List.append_nil]
    exact h.requests i batch hBatch

/-- A request is made with the next copies of some journeys. -/
theorem send (h : Told requests added (journeys ++ others))
    (hKnown : ∀ j ∈ journeys ++ others, ∀ s ∈ j.stops, s < requests.length) :
    Told (requests ++ [journeys.map next]) added (journeys.map (depart requests.length) ++ others) where
  added := by
    have hSame : (journeys.map (depart requests.length)).map (·.op) = journeys.map (·.op) := by
      rw [List.map_map]
      rfl
    rw [List.map_append, hSame, ← List.map_append]
    exact h.added
  requests i batch hBatch := by
    rw [cargo_append]
    rcases Nat.lt_or_ge i requests.length with hOld | hNew
    · rw [List.getElem?_append_left hOld] at hBatch
      rw [cargo_depart_of_lt hOld, ← cargo_append]
      exact h.requests i batch hBatch
    · rw [List.getElem?_append_right hNew, List.getElem?_singleton] at hBatch
      split at hBatch
      · obtain rfl := Option.some.inj hBatch
        obtain rfl : i = requests.length := by omega
        have hElsewhere : cargo requests.length others = [] :=
          cargo_of_never fun j hj hStop => (hKnown j (List.mem_append_right _ hj) _ hStop).false
        rw [cargo_depart fun j hj => hKnown j (List.mem_append_left _ hj), hElsewhere, List.append_nil]
      · cases hBatch

end Told

/-- The operations that wait for a request, in the line or with the sender at rest. -/
def toSend (d : Delivery) : List Operation := d.sender.resting ++ d.waiting

variable {d d' : Delivery} {e : Event} {x : Ending}

theorem outstanding_eq_flight (d : Delivery) : d.outstanding = d.inFlight.getD [] ++ d.toSend := by
  cases hSender : d.sender <;> simp [outstanding, inFlight, toSend, Sender.held, Sender.resting, hSender]

theorem toSend_of_flight {batch : Batch} (h : d.inFlight = some batch) : d.toSend = d.waiting := by
  unfold inFlight at h
  split at h
  · next hSender => simp [toSend, hSender, Sender.resting]
  · cases h

theorem outstanding_of_rest (h : d.inFlight = none) : d.outstanding = d.toSend := by
  rw [outstanding_eq_flight, h, Option.getD_none, List.nil_append]

/-- A sender at rest starts no request with what it places. -/
theorem Placed.inFlight {ops : List Operation} (h : Placed d ops d') (hSender : d.sender = .idle) :
    d'.inFlight = Option.none := by
  cases h <;> simp [Delivery.inFlight, hSender]

/-- What becomes of the operations of a request: some are sent again, those that have retries left or
come back from a malformed response; there is a report for each that is refused; and the rest is done
or lost. -/
structure Dealt (c c' : Coordinator) (x : Ending) (tried kept : List Operation)
    (refused : List ItemFailure) : Prop where
  batch : x.batch.Perm (tried ++ kept ++ refused.map (·.op))
  left : ∀ op ∈ tried, c.mayRetry op = true ∨ x.isMalformed = true
  reports : c'.tally.failed = c.tally.failed ++ refused.map Coordinator.reportOf
  named : ∀ f ∈ refused, ∃ o, x.result = .ok o ∧ f ∈ o.failed

/-- Where nothing is sent again and nothing is reported, all is done or lost. -/
theorem dealt_of_nothing {c c' : Coordinator} (h : c'.tally = c.tally) : Dealt c c' x [] x.batch [] where
  batch := by simp
  left := by simp
  reports := by simp [h]
  named := by simp

theorem dealt_of_outcome {c : Coordinator} {o : Outcome} {again : List Operation}
    (hResult : x.result = .ok o) (hSides : (o.succeeded ++ o.failed.map (·.op)).Perm x.batch)
    (hAgain : (c.onOutcome x.now o).requeued = .ok again) :
    ∃ tried kept refused, Dealt c (c.onOutcome x.now o).coordinator x tried kept refused ∧
      again = tried.map Operation.again := by
  obtain ⟨hResent, committed, hCommit, hCoordinator⟩ := Coordinator.onOutcome_ok hAgain
  obtain ⟨store, _, rfl⟩ := Coordinator.acknowledge_eq_ok_iff.mp hCommit
  let spared := o.failed.filter fun f => (c.verdict f).isNone
  let refused := o.failed.filter fun f => (c.verdict f).isSome
  refine ⟨spared.map (·.op), o.succeeded, refused, ⟨?_, fun op hOp => ?_, ?_, fun f hf => ?_⟩, ?_⟩
  · have hFailed : (o.failed.map (·.op)).Perm (spared.map (·.op) ++ refused.map (·.op)) := by
      rw [← List.map_append]
      exact ((c.perm_verdicts o.failed).map _).symm
    refine hSides.symm.trans ((hFailed.append_left _).trans ?_)
    rw [List.append_assoc]
    exact List.perm_append_comm_assoc _ _ _
  · obtain ⟨f, hf, rfl⟩ := List.mem_map.mp hOp
    exact .inl (Coordinator.mayRetry_of_verdict
      (Option.isNone_iff_eq_none.mp (List.mem_filter.mp hf).2))
  · rw [hCoordinator, Coordinator.reports_eq]
    rfl
  · exact ⟨o, hResult, List.mem_of_mem_filter hf⟩
  · rw [hResent, List.map_map]
    rfl

theorem dealt_of_failure {c : Coordinator} {f : Fault} {again : List Operation}
    (hResult : x.result = .error f) (hAgain : (c.onFailure x.batch f).requeued = .ok again) :
    Dealt c (c.onFailure x.batch f).coordinator x x.batch [] [] ∧
      again = x.batch.map Operation.again := by
  obtain ⟨hBatch, n, hCoordinator, _⟩ := Coordinator.onFailure_ok hAgain
  refine ⟨⟨by simp, fun op hOp => ?_, by simp [hCoordinator, Coordinator.countRetries], by simp⟩, hBatch⟩
  cases f with
  | protocol text raw => exact .inr (by rw [Ending.isMalformed, hResult])
  | connection text | timeout text =>
      have hRetry : (c.retryAll x.batch _).requeued = .ok again := hAgain
      exact .inl (List.all_eq_true.mp (Coordinator.retryAll_ok hRetry).1 op hOp)
  | _ => cases hAgain

/-- What becomes of the operations of a request when it ends. If the run is given up then, nothing is
sent again. -/
theorem dealt_of_ending (h : d.ending? e = some x) :
    ∃ tried kept refused, Dealt d.coordinator (d.resolve x).coordinator x tried kept refused ∧
      ((d.resolve x).requeued = .ok (tried.map Operation.again) ∨
        tried = [] ∧ ∃ f, (d.resolve x).requeued = .error f) := by
  cases hRequeued : (d.resolve x).requeued with
  | error f =>
      refine ⟨[], x.batch, [], dealt_of_nothing ?_, .inr ⟨rfl, f, rfl⟩⟩
      unfold resolve at hRequeued ⊢
      cases hResult : x.result with
      | ok o =>
          simp only [hResult] at hRequeued ⊢
          rw [(Coordinator.onOutcome_error hRequeued).1]
          rfl
      | error g =>
          simp only [hResult] at hRequeued ⊢
          split at hRequeued
          · next hTransport =>
              obtain ⟨n, hSame⟩ := Coordinator.onFailure_error hRequeued
              rw [if_pos hTransport, hSame]
              rfl
          · next hOther => rw [if_neg hOther]
  | ok again =>
      unfold resolve at hRequeued ⊢
      cases hResult : x.result with
      | ok o =>
          simp only [hResult] at hRequeued ⊢
          obtain ⟨raw, _, _, hResponse⟩ := answer_of_ending h hResult
          obtain ⟨tried, kept, refused, hDealt, rfl⟩ :=
            dealt_of_outcome hResult (Outcome.perm_sides hResponse) hRequeued
          exact ⟨tried, kept, refused, hDealt, .inl rfl⟩
      | error f =>
          simp only [hResult] at hRequeued ⊢
          split at hRequeued
          · next hTransport =>
              obtain ⟨hDealt, rfl⟩ := dealt_of_failure hResult hRequeued
              rw [if_pos hTransport]
              exact ⟨x.batch, [], [], hDealt, .inl rfl⟩
          · cases hRequeued

/-- What can become of the request under way in a step that ends none: it stays as it is, one is made
where there was none, or nobody waits for it any longer. -/
inductive Continues (d : Delivery) (fresh : List Operation) (d' : Delivery) : Prop where
  | stays (hFlight : d'.inFlight = d.inFlight) (hRequests : d'.requests = d.requests)
  | made (batch : Batch) (hFresh : fresh = []) (hWhole : d.IsWhole) (hNone : d.inFlight = none)
      (hSome : d'.inFlight = some batch) (hRequests : d'.requests = d.requests ++ [batch])
  | dropped (hFresh : fresh = []) (hSome : d.inFlight.isSome) (hNone : d'.inFlight = none)
      (hRequests : d'.requests = d.requests) (hNotWhole : ¬d'.IsWhole) (hToSend : d'.toSend = d.toSend)

theorem Move.continues {added : List Batch} {acked : List Receipt} {refused : List Operation}
    (h : Move d added acked refused d')
    (hQuiet : ∀ batch, d.sender = .sending batch → d'.sender = .sending batch) :
    Continues d added.flatten d' := by
  cases h with
  | stay | arrange | discard | abort | join | leave | mark | finish => exact .stays rfl rfl
  | start hStage hSender hQueue => exact .stays (by simp [inFlight, hSender]) rfl
  | send batch rest hStage hSender hQueue hWhole =>
      exact .made batch rfl hWhole (by simp [inFlight, hSender]) rfl rfl
  | conclude batch acked refused d' hSender hEnds =>
      exact absurd (hQuiet batch hSender) (hEnds.sender_ne batch)
  | wake ops d' hSender hPlaced hAwake =>
      exact .stays (by simp [inFlight, hSender, hAwake]) hPlaced.frame.2.1
  | abandon hStage =>
      refine .stays ?_ rfl
      cases hSender : d.sender with
      | sending batch => cases hQuiet batch hSender
      | idle | pausing => simp [inFlight, hSender]

theorem abandon_continues (hOrderly : d.Orderly) : Continues d [] d.abandon := by
  unfold abandon
  split
  · next hStage =>
      cases hSender : d.sender with
      | sending batch =>
          refine .dropped rfl (by simp [inFlight, hSender]) rfl rfl (fun hWhole => ?_) ?_
          · simp [IsWhole, hOrderly.stopping hStage] at hWhole
          · simp [toSend, waiting, hSender, Sender.resting]
      | idle | pausing => exact .stays (by simp [inFlight, hSender]) rfl
  · exact .stays rfl rfl

theorem step_continues (hOrderly : d.Orderly) (hNone : d.ending? e = none) :
    Continues d (d.accepted e) (d.step e) := by
  by_cases hAbandon : e = .abandon
  · subst hAbandon
    exact abandon_continues hOrderly
  · rw [← flatten_groups]
    exact (step_move hOrderly e).continues fun batch hSender =>
      sender_of_unended hOrderly hSender hNone hAbandon

/-- With the end of a request nothing is under way, and what is to be sent then was so before, or is
sent again. -/
theorem step_of_dealt (hOrderly : d.Orderly) (h : d.ending? e = some x) {tried : List Operation}
    (hAgain : (d.resolve x).requeued = .ok (tried.map Operation.again) ∨
      tried = [] ∧ ∃ f, (d.resolve x).requeued = .error f) :
    (d.step e).coordinator = (d.resolve x).coordinator ∧ (d.step e).inFlight = none ∧
      (d.step e).requests = d.requests ∧
      (d.step e).toSend.Subperm (tried.map Operation.again ++ d.toSend) := by
  have hFlight : d.inFlight = some x.batch := by rw [inFlight, (step_of_ending h).1]
  rw [toSend_of_flight hFlight]
  rcases hAgain with hAgain | ⟨rfl, f, hFault⟩
  · obtain ⟨n, log, hPlaced⟩ := placed_of_ending hOrderly h hAgain
    obtain ⟨lost, hPerm, _⟩ := hPlaced.perm rfl
    obtain ⟨hCoordinator, hRequests, _⟩ := hPlaced.frame
    have hRest : (d.step e).inFlight = none := hPlaced.inFlight rfl
    rw [outstanding_of_rest hRest] at hPerm
    exact ⟨hCoordinator, hRest, hRequests,
      (List.sublist_append_left _ lost).subperm.trans hPerm.subperm⟩
  · obtain ⟨n, log, hStep⟩ := givenUp_of_ending h hFault
    rw [hStep]
    exact ⟨rfl, rfl, rfl, .refl _⟩

/-- The report says what the last request of a journey brought: the reason that the destination gave,
or that the operation was given up after as many attempts as there were requests. -/
def Reports (endings : List Ending) (j : Journey) (r : Report) : Prop :=
  ∃ i x o f, j.stops.getLast? = some i ∧ endings[i]? = some x ∧ x.result = .ok o ∧ f ∈ o.failed ∧
    f.op = j.carried i ∧
    r = ⟨j.op.id, j.op.kind,
      if FailureClass.of f.status f.errorType = .permanent then f.reason
      else .str (f.reason.bare ++ " (gave up after " ++ Text.signedDecimal j.stops.length
        ++ " attempts)")⟩

theorem Reports.append {xs : List Ending} {j : Journey} {r : Report} (h : Reports xs j r)
    (ys : List Ending) : Reports (xs ++ ys) j r := by
  obtain ⟨i, x, o, f, hLast, hEnded, hRest⟩ := h
  refine ⟨i, x, o, f, hLast, ?_, hRest⟩
  rw [List.getElem?_append_left (List.getElem?_eq_some_iff.mp hEnded).1, hEnded]

/-- The coordinator reports a refused operation as its journey has it. -/
theorem reports_of_refused {xs : List Ending} {j : Journey} {o : Outcome} {f : ItemFailure}
    (hKnown : ∀ s ∈ j.stops, s < xs.length) (hResult : x.result = .ok o) (hf : f ∈ o.failed)
    (hCopy : j.next = f.op) :
    Reports (xs ++ [x]) (j.depart xs.length) (Coordinator.reportOf f) := by
  refine ⟨xs.length, x, o, f, by simp, by simp, hResult, hf, ?_, ?_⟩
  · rw [carried_depart le_rfl, carried_eq_next hKnown, hCopy]
  · have hStops : (((j.depart xs.length).stops.length : Nat) : Int) = f.op.attempts + 1 := by
      rw [← hCopy, depart_stops, List.length_append]
      rfl
    rw [Coordinator.reportOf, hStops, ← hCopy]
    rfl

theorem forall₂_reports {xs : List Ending} {js : List Journey} {refused : List ItemFailure}
    (hKnown : ∀ j ∈ js, ∀ s ∈ j.stops, s < xs.length)
    (hNamed : ∀ f ∈ refused, ∃ o, x.result = .ok o ∧ f ∈ o.failed)
    (hCopies : js.map next = refused.map (·.op)) :
    List.Forall₂ (Reports (xs ++ [x])) (js.map (depart xs.length))
      (refused.map Coordinator.reportOf) := by
  have hPairs : List.Forall₂ (fun j f => j.next = f.op) js refused := by
    have hSame : List.Forall₂ Eq (js.map next) (refused.map (·.op)) := by
      rw [hCopies]
      exact List.forall₂_refl _
    rwa [List.forall₂_map_left_iff, List.forall₂_map_right_iff] at hSame
  rw [List.forall₂_map_left_iff, List.forall₂_map_right_iff, List.forall₂_iff_zip]
  refine ⟨hPairs.length_eq, fun {j f} hPair => ?_⟩
  obtain ⟨hj, hf⟩ := List.of_mem_zip hPair
  obtain ⟨o, hResult, hFailed⟩ := hNamed f hf
  exact reports_of_refused (hKnown j hj) hResult hFailed ((List.forall₂_iff_zip.mp hPairs).2 hPair)

/-- A journey that comes back from a request had a retry left, or the response was malformed. -/
theorem Journey.Within.back {m : Nat} {xs : List Ending} {j : Journey} {c : Coordinator}
    (h : j.Within xs.length (m + j.setbacks xs)) (hRetries : c.maxRetries.isBelow (m + 1) = true)
    (hLeft : c.mayRetry j.next = true ∨ x.isMalformed = true) :
    (j.depart xs.length).Within (xs ++ [x]).length (m + (j.depart xs.length).setbacks (xs ++ [x])) := by
  have hStops := h.depart
  have hSetbacks := setbacks_le xs [x] j
  rw [List.length_append]
  rcases hLeft with hRetry | hMalformed
  · have hAttempts : ((j.stops.length : Nat) : Int) < m :=
      Coordinator.attempts_lt_of_mayRetry hRetries hRetry
    refine ⟨hStops.ascending, hStops.known, ?_⟩
    rw [depart_stops, List.length_append, List.length_singleton]
    omega
  · have hHere : ((xs ++ [x])[xs.length]?).any Ending.isMalformed = true := by simpa using hMalformed
    refine hStops.mono le_rfl ?_
    rw [setbacks_depart, if_pos hHere]
    omega

/-- A delivery with at most `m` retries, told by journeys: those that wait for a request, or were lost
while they waited; those that the request under way carries; those that are over; and those that ended
in a report. -/
structure Traced (m : Nat) (d : Delivery) (xs : List Ending) (added : List Operation)
    (waits flies past given : List Journey) : Prop where
  retries : d.coordinator.maxRetries.isBelow (m + 1) = true
  told : Told d.requests added (waits ++ flies.map (depart xs.length) ++ past ++ given)
  toSend : d.toSend.Subperm (waits.map next)
  inFlight : (d.inFlight.getD []).Perm (flies.map next)
  ready : ∀ j ∈ waits ++ flies, j.Within xs.length (m + j.setbacks xs)
  past : ∀ j ∈ past ++ given, j.Within d.requests.length (1 + m + j.setbacks xs)
  reports : List.Forall₂ (Reports xs) given d.coordinator.tally.failed
  within : xs.map (·.batch) <+: d.requests
  aligned : d.IsWhole ∨ d.inFlight.isSome → d.requests = xs.map (·.batch) ++ d.inFlight.toList

theorem traced_create {m : Nat} (settings : Settings) (store : Store)
    (hRetries : settings.maxRetries.isBelow (m + 1) = true) :
    (create settings store).Traced m [] [] [] [] [] [] where
  retries := hRetries
  told := ⟨.nil, by simp [create]⟩
  toSend := .refl []
  inFlight := .nil
  ready := by simp
  past := by simp
  reports := .nil
  within := List.prefix_refl []
  aligned _ := rfl

namespace Traced

variable {m : Nat} {xs : List Ending} {added fresh : List Operation}
  {waits flies past given : List Journey}

theorem length_le (h : d.Traced m xs added waits flies past given) : xs.length ≤ d.requests.length := by
  simpa using h.within.length_le

theorem flies_eq_nil (h : d.Traced m xs added waits flies past given) (hNone : d.inFlight = none) :
    flies = [] := by
  have hFlight := h.inFlight
  rw [hNone, Option.getD_none] at hFlight
  exact List.map_eq_nil_iff.mp hFlight.nil_eq.symm

theorem length_of_flight (h : d.Traced m xs added waits flies past given)
    (hFlight : d.inFlight.isSome) : d.requests.length = xs.length + 1 := by
  obtain ⟨batch, hBatch⟩ := Option.isSome_iff_exists.mp hFlight
  rw [h.aligned (.inr hFlight), hBatch]
  simp

/-- No journey has more stops than it may have. -/
theorem bounded (h : d.Traced m xs added waits flies past given) :
    ∀ j ∈ waits ++ flies.map (depart xs.length) ++ past ++ given,
      j.Within d.requests.length (1 + m + j.setbacks xs) := by
  intro j hj
  simp only [List.mem_append, List.mem_map, or_assoc] at hj
  rcases hj with hWaits | ⟨before, hBefore, rfl⟩ | hPast
  · exact (h.ready j (List.mem_append_left _ hWaits)).mono h.length_le (by omega)
  · have hFlight : d.inFlight.isSome := by
      by_contra hNone
      simp [h.flies_eq_nil (Option.not_isSome_iff_eq_none.mp hNone)] at hBefore
    refine (h.ready before (List.mem_append_right _ hBefore)).depart.mono
      (h.length_of_flight hFlight).ge ?_
    rw [setbacks_depart]
    omega
  · exact h.past j (List.mem_append.mpr hPast)

/-- What is outstanding moves about, is lost, or comes in. -/
theorem shift (h : d.Traced m xs added waits flies past given)
    (hCoordinator : d'.coordinator = d.coordinator) (hFlight : d'.inFlight = d.inFlight)
    (hRequests : d'.requests = d.requests) (hWhole : d'.IsWhole → d.IsWhole)
    (hCarried : d'.toSend.Subperm (d.toSend ++ fresh)) (hFresh : ∀ op ∈ fresh, op.attempts = 0) :
    d'.Traced m xs (added ++ fresh) (waits ++ fresh.map fun op => ⟨op, []⟩) flies past given := by
  have hSetOut : (fresh.map fun op => Journey.mk op []).map next = fresh := by
    rw [List.map_map]
    refine (List.map_congr_left fun op hOp => ?_).trans (List.map_id fresh)
    rw [Function.comp_apply, next, List.length_nil, Nat.cast_zero, ← hFresh op hOp]
    rfl
  refine ⟨hCoordinator ▸ h.retries, ?_, ?_, hFlight ▸ h.inFlight, fun j hj => ?_, hRequests ▸ h.past,
    hCoordinator ▸ h.reports, hRequests ▸ h.within, ?_⟩
  · rw [hRequests]
    refine (h.told.setOut fresh).perm ?_
    rw [List.perm_iff_count]
    intro j
    simp only [List.count_append]
    omega
  · rw [List.map_append, hSetOut]
    exact hCarried.trans (List.Subperm.append h.toSend (.refl fresh))
  · simp only [List.mem_append, List.mem_map, or_assoc] at hj
    rcases hj with hWaits | ⟨op, _, rfl⟩ | hFlies
    · exact h.ready j (List.mem_append_left _ hWaits)
    · exact ⟨.nil, by simp, Nat.zero_le _⟩
    · exact h.ready j (List.mem_append_right _ hFlies)
  · rw [hRequests, hFlight]
    exact fun hStill => h.aligned (hStill.imp_left hWhole)

/-- A request is made with operations that waited for it. -/
theorem send {batch : Batch} (h : d.Traced m xs added waits flies past given)
    (hCoordinator : d'.coordinator = d.coordinator) (hWhole : d.IsWhole) (hNone : d.inFlight = none)
    (hSome : d'.inFlight = some batch) (hRequests : d'.requests = d.requests ++ [batch])
    (hCarried : (batch ++ d'.toSend).Subperm d.toSend) :
    ∃ waits flies, d'.Traced m xs added waits flies past given := by
  obtain rfl := h.flies_eq_nil hNone
  have hAligned : d.requests = xs.map (·.batch) := by
    simpa [hNone] using h.aligned (.inl hWhole)
  have hLength : d.requests.length = xs.length := by rw [hAligned, List.length_map]
  obtain ⟨leaving, left, hSplit, hLeaving, hLeft⟩ :=
    exists_of_append_subperm_map (hCarried.trans h.toSend)
  refine ⟨left, leaving, hCoordinator ▸ h.retries, ?_, hLeft, by rw [hSome, Option.getD_some, hLeaving],
    fun j hj => ?_, fun j hj => ?_, hCoordinator ▸ h.reports, ?_, fun _ => ?_⟩
  · have hBefore : (waits ++ [].map (depart xs.length) ++ past ++ given).Perm
        (leaving ++ (left ++ past ++ given)) := by
      simpa only [List.map_nil, List.append_nil, List.append_assoc] using
        (hSplit.symm.append_right (past ++ given))
    have hSent := (h.told.perm hBefore).send fun j hj => (h.bounded j (hBefore.symm.subset hj)).known
    rw [hLeaving, ← hRequests, hLength] at hSent
    refine hSent.perm ?_
    simpa only [List.append_assoc] using List.perm_append_comm_assoc _ _ _
  · exact h.ready j (List.mem_append_left _ (hSplit.subset (List.perm_append_comm.subset hj)))
  · rw [hRequests, List.length_append]
    exact (h.past j hj).mono (Nat.le_add_right _ _) le_rfl
  · rw [hRequests, hAligned]
    exact List.prefix_append _ _
  · rw [hRequests, hAligned, hSome]
    rfl

/-- The journeys that a request under way carries are over if nobody waits for it any longer. -/
theorem drop (h : d.Traced m xs added waits flies past given)
    (hCoordinator : d'.coordinator = d.coordinator) (hFlight : d.inFlight.isSome)
    (hNone : d'.inFlight = none) (hRequests : d'.requests = d.requests) (hNotWhole : ¬d'.IsWhole)
    (hToSend : d'.toSend = d.toSend) :
    d'.Traced m xs added waits [] (flies.map (depart xs.length) ++ past) given := by
  have hLength := h.length_of_flight hFlight
  refine ⟨hCoordinator ▸ h.retries, ?_, hToSend ▸ h.toSend, by rw [hNone]; rfl, fun j hj => ?_,
    fun j hj => ?_, hCoordinator ▸ h.reports, hRequests ▸ h.within, ?_⟩
  · rw [hRequests]
    simpa only [List.map_nil, List.append_nil, List.append_assoc] using h.told
  · rw [List.append_nil] at hj
    exact h.ready j (List.mem_append_left _ hj)
  · rw [hRequests]
    rw [List.append_assoc, List.mem_append] at hj
    rcases hj with hFlies | hPast
    · obtain ⟨before, hBefore, rfl⟩ := List.mem_map.mp hFlies
      have hStops := (h.ready before (List.mem_append_right _ hBefore)).depart
      rw [setbacks_depart]
      exact hStops.mono hLength.ge (by omega)
    · exact h.past j hPast
  · rw [hNone]
    rintro (hWhole | hSome)
    · exact absurd hWhole hNotWhole
    · cases hSome

/-- The journeys that a request carries are divided as its operations are. -/
theorem divide {tried kept : List Operation} {refused : List ItemFailure}
    (h : d.Traced m xs added waits flies past given) (hFlight : d.inFlight = some x.batch)
    (hBatch : x.batch.Perm (tried ++ kept ++ refused.map (·.op))) :
    ∃ returns ends refusals : List Journey, (returns ++ ends ++ refusals).Perm flies ∧
      returns.map next = tried ∧ refusals.map next = refused.map (·.op) := by
  have hFlies := h.inFlight
  rw [hFlight, Option.getD_some] at hFlies
  obtain ⟨others, refusals, hPerm, hOthers, hRefusals⟩ :=
    exists_of_append_perm_map (hBatch.symm.trans hFlies)
  obtain ⟨returns, ends, rfl, hReturns, _⟩ := List.map_eq_append_iff.mp hOthers
  exact ⟨returns, ends, refusals, hPerm, hReturns, hRefusals⟩

/-- With the end of a request, each journey that it carried waits again, is over, or ends in a report. -/
theorem conclude {tried kept : List Operation} {refused : List ItemFailure}
    (h : d.Traced m xs added waits flies past given) (hFlight : d.inFlight = some x.batch)
    (hDealt : Dealt d.coordinator d'.coordinator x tried kept refused)
    (hRetries : d'.coordinator.maxRetries = d.coordinator.maxRetries) (hNone : d'.inFlight = none)
    (hRequests : d'.requests = d.requests)
    (hCarried : d'.toSend.Subperm (tried.map Operation.again ++ d.toSend)) :
    ∃ waits past given, d'.Traced m (xs ++ [x]) added waits [] past given := by
  have hAligned : d.requests = (xs ++ [x]).map (·.batch) := by
    rw [h.aligned (.inr (by rw [hFlight]; rfl)), hFlight, List.map_append]
    rfl
  have hLength : d.requests.length = xs.length + 1 := h.length_of_flight (by rw [hFlight]; rfl)
  obtain ⟨returns, ends, refusals, hFlies, hReturns, hRefusals⟩ := h.divide hFlight hDealt.batch
  have hCarry : ∀ j ∈ returns ++ ends ++ refusals, j.Within xs.length (m + j.setbacks xs) :=
    fun j hj => h.ready j (List.mem_append_right _ (hFlies.subset hj))
  refine ⟨returns.map (depart xs.length) ++ waits, past ++ ends.map (depart xs.length),
    given ++ refusals.map (depart xs.length), hRetries ▸ h.retries, ?_, ?_, by rw [hNone]; rfl,
    fun j hj => ?_, fun j hj => ?_, ?_, ?_, fun _ => ?_⟩
  · rw [hRequests]
    refine h.told.perm ?_
    have hDeparted := hFlies.map (depart xs.length)
    rw [List.perm_iff_count] at hDeparted ⊢
    intro j
    have hCount := hDeparted j
    simp only [List.count_append, List.map_append, List.map_nil, List.count_nil] at hCount ⊢
    omega
  · have hAgain : (returns.map (depart xs.length)).map next = tried.map Operation.again := by
      rw [← hReturns, List.map_map, List.map_map]
      exact List.map_congr_left fun j _ => next_depart xs.length j
    rw [List.map_append, hAgain]
    exact hCarried.trans (List.Subperm.append (.refl _) h.toSend)
  · simp only [List.append_nil, List.mem_append, List.mem_map] at hj
    rcases hj with ⟨before, hBefore, rfl⟩ | hWaits
    · refine (hCarry before (by simp [hBefore])).back h.retries (hDealt.left _ ?_)
      rw [← hReturns]
      exact List.mem_map_of_mem hBefore
    · refine (h.ready j (List.mem_append_left _ hWaits)).mono (by simp) ?_
      exact Nat.add_le_add_left (setbacks_le xs [x] j) m
  · rw [hRequests]
    have hOld (before : Journey) (hBefore : before ∈ past ++ given) :
        before.Within d.requests.length (1 + m + before.setbacks (xs ++ [x])) :=
      (h.past before hBefore).mono le_rfl (Nat.add_le_add_left (setbacks_le xs [x] before) _)
    have hNew (before : Journey) (hBefore : before ∈ returns ++ ends ++ refusals) :
        (before.depart xs.length).Within d.requests.length
          (1 + m + (before.depart xs.length).setbacks (xs ++ [x])) := by
      refine (hCarry before hBefore).depart.mono hLength.ge ?_
      have hSetbacks := setbacks_le xs [x] before
      rw [setbacks_depart]
      omega
    simp only [List.mem_append, List.mem_map, or_assoc] at hj
    rcases hj with hj | ⟨before, hBefore, rfl⟩ | hj | ⟨before, hBefore, rfl⟩
    · exact hOld j (List.mem_append_left _ hj)
    · exact hNew before (by simp [hBefore])
    · exact hOld j (List.mem_append_right _ hj)
    · exact hNew before (by simp [hBefore])
  · rw [hDealt.reports]
    refine List.rel_append (h.reports.imp fun j r hReports => hReports.append [x]) ?_
    exact forall₂_reports (fun j hj => (hCarry j (List.mem_append_right _ hj)).known) hDealt.named
      hRefusals
  · exact (hRequests.trans hAligned).symm ▸ List.prefix_refl _
  · rw [hRequests, hAligned, hNone]
    simp

theorem step (h : d.Traced m xs added waits flies past given) (hOrderly : d.Orderly)
    (hFresh : ∀ op ∈ d.accepted e, op.attempts = 0) :
    ∃ waits flies past given, (d.step e).Traced m (xs ++ d.endings e) (added ++ d.accepted e) waits flies
      past given := by
  unfold endings
  cases hEnding : d.ending? e with
  | some x =>
      obtain ⟨tried, kept, refused, hDealt, hAgain⟩ := dealt_of_ending hEnding
      obtain ⟨hCoordinator, hNone, hRequests, hCarried⟩ := step_of_dealt hOrderly hEnding hAgain
      have hFlight : d.inFlight = some x.batch := by rw [Delivery.inFlight, (step_of_ending hEnding).1]
      rw [← hCoordinator] at hDealt
      rw [accepted_of_ending hEnding, List.append_nil]
      obtain ⟨waits, past, given, hNext⟩ := h.conclude hFlight hDealt (step_maxRetries hOrderly e) hNone
        hRequests hCarried
      exact ⟨waits, [], past, given, hNext⟩
  | none =>
      rw [Option.toList_none, List.append_nil]
      obtain ⟨_, _, hShifts⟩ := step_shifts hOrderly hEnding
      have hCarried : (d.step e).outstanding.Subperm (d.outstanding ++ d.accepted e) := by
        obtain ⟨lost, hPerm, _⟩ := hShifts.carried
        rw [flatten_groups] at hPerm
        exact (List.sublist_append_left _ lost).subperm.trans hPerm.subperm
      rw [outstanding_eq_flight, outstanding_eq_flight] at hCarried
      have hContinues := step_continues hOrderly hEnding
      generalize d.accepted e = fresh at hCarried hContinues hFresh
      cases hContinues with
      | stays hFlight hRequests =>
          rw [hFlight, List.append_assoc, List.subperm_append_left] at hCarried
          exact ⟨_, flies, past, given, h.shift hShifts.coordinator hFlight hRequests
            (step_move hOrderly e).whole hCarried hFresh⟩
      | made batch hNothing hWhole hNone hSome hRequests =>
          rw [hNothing, hNone, hSome, List.append_nil, Option.getD_none, Option.getD_some,
            List.nil_append] at hCarried
          rw [hNothing, List.append_nil]
          obtain ⟨waits, flies, hNext⟩ := h.send hShifts.coordinator hWhole hNone hSome hRequests
            hCarried
          exact ⟨waits, flies, past, given, hNext⟩
      | dropped hNothing hSome hNone hRequests hNotWhole hToSend =>
          rw [hNothing, List.append_nil]
          exact ⟨waits, [], _, given, h.drop hShifts.coordinator hSome hNone hRequests hNotWhole hToSend⟩

theorem run (h : d.Traced m xs added waits flies past given) (hOrderly : d.Orderly)
    (events : List Event)
    (hFresh : ∀ op ∈ d.collect accepted events, op.attempts = 0) :
    ∃ waits flies past given, (d.run events).Traced m (xs ++ d.collect endings events)
      (added ++ d.collect accepted events) waits flies past given := by
  induction events generalizing d xs added waits flies past given with
  | nil => exact ⟨waits, flies, past, given, by simpa [collect, Delivery.run] using h⟩
  | cons e events ih =>
      obtain ⟨_, _, _, _, hStep⟩ := h.step hOrderly fun op hOp => hFresh op (List.mem_append_left _ hOp)
      rw [collect, collect, ← List.append_assoc, ← List.append_assoc]
      exact ih hStep (hOrderly.move (step_move hOrderly e))
        fun op hOp => hFresh op (List.mem_append_right _ hOp)

end Traced

/-- **What attempts stand for.** The requests of a run are told by journeys, one for each operation that
was added: a request carries those that stop at it, each with as many attempts as it has stops before.
With at most `m` retries a journey has no more than `1 + m` stops, and one for each malformed response
that it met with. All that is reported are last stops of journeys, and a report that an operation was
given up names the number of their stops. -/
theorem attempts_are_requests (settings : Settings) (store : Store) (events : List Event) (m : Nat)
    (hRetries : settings.maxRetries.isBelow (m + 1) = true)
    (hFresh : ∀ op ∈ (create settings store).collect accepted events, op.attempts = 0) :
    let requests := ((create settings store).run events).requests
    let endings := (create settings store).collect endings events
    endings.map (·.batch) <+: requests ∧
    ∃ journeys reported : List Journey,
      (journeys.map (·.op)).Perm ((create settings store).collect accepted events) ∧
      (∀ (i : Nat) (batch : Batch), requests[i]? = some batch →
        batch.Perm ((journeys.filter fun j => i ∈ j.stops).map (carried i))) ∧
      (∀ j ∈ journeys, j.Within requests.length (1 + m + j.setbacks endings)) ∧
      reported.Subperm journeys ∧
      List.Forall₂ (Reports endings) reported
        ((create settings store).run events).coordinator.tally.failed := by
  intro requests endings
  obtain ⟨waits, flies, past, given, hRun⟩ :=
    (traced_create settings store hRetries).run (orderly_create settings store) events hFresh
  rw [List.nil_append, List.nil_append] at hRun
  exact ⟨hRun.within, _, given, hRun.told.added, hRun.told.requests, hRun.bounded,
    (List.sublist_append_right _ _).subperm, hRun.reports⟩

/-- With one retry, two operations come back from a malformed response, and then the first one is
turned away. -/
def malformedThenBusy : List Event :=
  [.start, .add [⟨.delete, "a", none, 0⟩, ⟨.delete, "b", none, 0⟩], .close, .take,
    .answer ⟨⟨0⟩, none⟩ (.ok .null), .wake, .proceed, .proceed, .take,
    reply [turnedAway "busy" 429, []]]

theorem attempts_of_malformedThenBusy :
    let start := create { Settings.initial ⟨0, []⟩ with maxRetries := .whole 1 } .empty
    (start.run malformedThenBusy).requests.map (·.map (·.attempts)) = [[0, 0], [1, 1]] ∧
    (start.run malformedThenBusy).coordinator.tally.failed.map (·.reason.bare) =
      ["busy (gave up after 2 attempts)"] ∧
    ∃ journeys : List Journey,
      (journeys.map (·.op)).Perm [⟨.delete, "a", none, 0⟩, ⟨.delete, "b", none, 0⟩] ∧
      ∀ j ∈ journeys, j.stops.length ≤ 2 + j.setbacks (start.collect endings malformedThenBusy) := by
  intro start
  have hFresh : ∀ op ∈ start.collect accepted malformedThenBusy, op.attempts = 0 := by decide +kernel
  have hAccepted : start.collect accepted malformedThenBusy =
      [⟨.delete, "a", none, 0⟩, ⟨.delete, "b", none, 0⟩] := by decide +kernel
  obtain ⟨_, journeys, _, hJourneys, _, hWithin, _⟩ := attempts_are_requests
    { Settings.initial ⟨0, []⟩ with maxRetries := .whole 1 } .empty malformedThenBusy 1
    (by decide +kernel) hFresh
  rw [hAccepted] at hJourneys
  exact ⟨by decide +kernel, by decide +kernel, journeys, hJourneys, fun j hj => (hWithin j hj).length⟩

/-- The stops before a request, counted request by request. -/
theorem Journey.Within.countP_eq {n bound i : Nat} {j : Journey} (h : j.Within n bound) :
    j.stops.countP (· < i) = (List.range i).countP fun k => k ∈ j.stops := by
  have hNodup : (j.stops.filter (· < i)).Nodup := (h.ascending.imp Nat.ne_of_lt).filter _
  have hSame : (j.stops.filter (· < i)).Perm ((List.range i).filter fun k => k ∈ j.stops) := by
    refine (List.perm_ext_iff_of_nodup hNodup (List.nodup_range.filter _)).mpr fun k => ?_
    simp [and_comm]
  rw [List.countP_eq_length_filter, List.countP_eq_length_filter, hSame.length_eq]

/-- Among journeys of distinct operations, a request carries an operation only if its journey stops
there. -/
theorem Told.any_iff {requests : List Batch} {added : List Operation} {journeys : List Journey}
    (h : Told requests added journeys) (hDistinct : (added.map Operation.content).Nodup) {k : Nat}
    {batch : Batch} (hBatch : requests[k]? = some batch) {j : Journey} (hj : j ∈ journeys) :
    (∃ op ∈ batch, op.content = j.op.content) ↔ k ∈ j.stops := by
  have hContents : (journeys.map fun j => j.op.content).Nodup := by
    have hPerm := h.added.map Operation.content
    rw [List.map_map] at hPerm
    exact hPerm.nodup_iff.mpr hDistinct
  have hCargo (op : Operation) : op ∈ batch ↔ ∃ j ∈ journeys, k ∈ j.stops ∧ j.carried k = op := by
    simp [(h.requests k batch hBatch).mem_iff, cargo, and_assoc]
  constructor
  · rintro ⟨op, hOp, hContent⟩
    obtain ⟨other, hOther, hStop, rfl⟩ := (hCargo op).mp hOp
    obtain rfl := List.inj_on_of_nodup_map hContents hOther hj hContent
    exact hStop
  · exact fun hStop => ⟨j.carried k, (hCargo _).mpr ⟨j, hj, hStop, rfl⟩, rfl⟩

/-- Where no two operations that were added are the same, the attempts of a copy are the number of the
requests before that carried the operation. -/
theorem attempts_of_distinct (settings : Settings) (store : Store) (events : List Event) (m : Nat)
    (hRetries : settings.maxRetries.isBelow (m + 1) = true)
    (hFresh : ∀ op ∈ (create settings store).collect accepted events, op.attempts = 0)
    (hDistinct : (((create settings store).collect accepted events).map Operation.content).Nodup)
    {i : Nat} {batch : Batch} (hBatch : ((create settings store).run events).requests[i]? = some batch)
    {op : Operation} (hOp : op ∈ batch) :
    op.attempts = (List.range i).countP fun k =>
      ((create settings store).run events).requests[k]?.any fun earlier =>
        earlier.any fun other => other.content = op.content := by
  obtain ⟨waits, flies, past, given, hRun⟩ :=
    (traced_create settings store hRetries).run (orderly_create settings store) events hFresh
  rw [List.nil_append, List.nil_append] at hRun
  obtain ⟨j, hj, hCopy⟩ := List.mem_map.mp ((hRun.told.requests i batch hBatch).subset hOp)
  have hJourney := List.mem_of_mem_filter hj
  rw [← hCopy]
  refine (congrArg Nat.cast (hRun.bounded j hJourney).countP_eq).trans (congrArg Nat.cast ?_)
  refine List.countP_congr fun k hk => ?_
  have hKnown : k < ((create settings store).run events).requests.length :=
    (List.mem_range.mp hk).trans (List.getElem?_eq_some_iff.mp hBatch).1
  rw [List.getElem?_eq_getElem hKnown]
  simp only [Option.any_some, List.any_eq_true, decide_eq_true_eq]
  exact (hRun.told.any_iff hDistinct (List.getElem?_eq_getElem hKnown) hJourney).symm

end Delivery
end Indexer
