import Indexer.Proofs.Delivery.Accounts

/-! The crawl state during a run. It is what the acknowledgements made of it, in
their order and with nothing else, and what is settled is not sent again. -/
namespace Indexer

theorem exists_of_contents_le {ops more : List Operation} (h : contents ops ≤ contents more)
    {op : Operation} (hOp : op ∈ ops) : ∃ other ∈ more, other.content = op.content := by
  have hContent : op.content ∈ contents more :=
    Multiset.mem_of_le h (Multiset.mem_map_of_mem _ (Multiset.mem_coe.mpr hOp))
  obtain ⟨other, hOther, hSame⟩ := Multiset.mem_map.mp hContent
  exact ⟨other, Multiset.mem_coe.mp hOther, hSame⟩

/-- Whatever operations have to do with the crawl state can be written to it. -/
def Operation.Writable (op : Operation) : Prop := ∀ u, op.update = some u → u.Writable

theorem Operation.eq_of_content {op other : Operation} (h : other.content = op.content) :
    other.action = op.action ∧ other.id = op.id ∧ other.update = op.update := by
  simpa [Operation.content] using h

/-- An acknowledgement that can be recorded. -/
structure Receipt.Sound (r : Receipt) : Prop where
  now : r.now.IsReading
  writable : r.op.Writable

theorem Store.record_sound (s : Store) {r : Receipt} (h : r.Sound) : ∃ t, s.record r = .ok t := by
  rw [record]
  cases hUpdate : r.op.update with
  | none => exact ⟨s, rfl⟩
  | some u => exact commit_writable s h.now (h.writable u hUpdate)

theorem Store.foldlM_record_sound (s : Store) {receipts : List Receipt}
    (h : ∀ r ∈ receipts, r.Sound) : ∃ t, receipts.foldlM record s = .ok t := by
  induction receipts generalizing s with
  | nil => exact ⟨s, rfl⟩
  | cons r receipts ih =>
      obtain ⟨t, hRecord⟩ := s.record_sound (h r List.mem_cons_self)
      rw [List.foldlM_cons, hRecord]
      exact ih t fun other hOther => h other (List.mem_cons_of_mem r hOther)

namespace Delivery

/-- A property that copies of an operation share spreads from what comes in to
what is outstanding and to what is acknowledged. -/
theorem Move.spreads {P : Operation → Prop}
    (hCopy : ∀ op other : Operation, other.content = op.content → P other → P op)
    {d d' : Delivery} {added : List Batch} {acked : List Receipt}
    {refused : List Operation} (hOrderly : d.Orderly)
    (h : Move d added acked refused d') (hOut : ∀ op ∈ d.outstanding, P op)
    (hAdded : ∀ op ∈ added.flatten, P op) :
    (∀ op ∈ d'.outstanding, P op) ∧ ∀ r ∈ acked, P r.op := by
  obtain ⟨lost, hBalance, _⟩ := h.balance hOrderly
  have hLe : contents (d'.outstanding ++ acked.map (·.op)) ≤ contents (d.outstanding ++ added.flatten) := by
    rw [contents_append, contents_append, ← hBalance, add_assoc _ (contents refused)]
    exact Multiset.le_add_right _ _
  have hAll : ∀ op ∈ d'.outstanding ++ acked.map (·.op), P op := by
    intro op hOp
    obtain ⟨other, hOther, hSame⟩ := exists_of_contents_le hLe hOp
    refine hCopy op other hSame ?_
    exact (List.mem_append.mp hOther).elim (hOut other) (hAdded other)
  exact ⟨fun op hOp => hAll op (List.mem_append_left _ hOp),
    fun r hr => hAll r.op (List.mem_append_right _ (List.mem_map_of_mem hr))⟩

/-- A step records exactly what it acknowledges. -/
theorem Move.store {d d' : Delivery} {added : List Batch} {acked : List Receipt}
    {refused : List Operation} (h : Move d added acked refused d') (hSound : ∀ r ∈ acked, r.Sound) :
    acked.foldlM Store.record d.coordinator.store = .ok d'.coordinator.store := by
  cases h with
  | conclude batch acked refused d' hSender hEnds =>
      cases hEnds with
      | settle hSettled hContents hRetried hPlaced =>
          rw [hPlaced.frame.1]
          exact hSettled.store
      | fail m n log f hAbort hContents hLost =>
          rcases hLost with rfl | ⟨g, hError⟩
          · rfl
          · obtain ⟨t, hOk⟩ := d.coordinator.store.foldlM_record_sound hSound
            rw [hOk] at hError
            cases hError
  | wake ops d' hSender hPlaced hAwake =>
      rw [hPlaced.frame.1]
      rfl
  | _ => rfl

theorem writable_of_copy (op other : Operation) (h : other.content = op.content)
    (hOther : other.Writable) : op.Writable := by
  intro u hUpdate
  exact hOther u ((Operation.eq_of_content h).2.2.trans hUpdate)

/-- A property that copies of an operation share holds of all that a run
acknowledges, if it holds of what is outstanding and of what comes in. -/
theorem run_spreads {P : Operation → Prop}
    (hCopy : ∀ op other : Operation, other.content = op.content → P other → P op)
    {d : Delivery} (h : d.Orderly) (events : List Event) (hOut : ∀ op ∈ d.outstanding, P op)
    (hAdded : ∀ op ∈ d.collect accepted events, P op) : ∀ r ∈ d.collect receipts events, P r.op := by
  induction events generalizing d with
  | nil => simp [collect]
  | cons e events ih =>
      have hStep := step_move h e
      rw [collect, ← flatten_groups] at hAdded
      obtain ⟨hOutNext, hAcked⟩ := hStep.spreads hCopy h hOut
        fun op hOp => hAdded op (List.mem_append_left _ hOp)
      intro r hr
      rcases List.mem_append.mp hr with hNow | hLater
      · exact hAcked r hNow
      · have hLaterAdded := fun op hOp => hAdded op (List.mem_append_right _ hOp)
        exact ih (h.move hStep) hOutNext hLaterAdded r hLater

/-- Along a run the crawl state is what the receipts say. -/
theorem run_store {d : Delivery} (h : d.Orderly) (events : List Event)
    (hSound : ∀ r ∈ d.collect receipts events, r.Sound) :
    (d.collect receipts events).foldlM Store.record d.coordinator.store =
      .ok (d.run events).coordinator.store := by
  induction events generalizing d with
  | nil => rfl
  | cons e events ih =>
      have hStep := step_move h e
      rw [collect] at hSound ⊢
      rw [List.foldlM_append, hStep.store fun r hr => hSound r (List.mem_append_left _ hr)]
      exact ih (h.move hStep) fun r hr => hSound r (List.mem_append_right _ hr)

/-- A request is made of what is outstanding. -/
theorem Move.requests {d d' : Delivery} {added : List Batch} {acked : List Receipt}
    {refused : List Operation} (h : Move d added acked refused d') :
    d'.requests = d.requests ∨
      ∃ batch, d'.requests = d.requests ++ [batch] ∧ contents batch ≤ contents d'.outstanding := by
  cases h with
  | send batch rest hStage hSender hQueue hWhole =>
      refine .inr ⟨batch, rfl, ?_⟩
      rw [contents_outstanding]
      exact Multiset.le_add_right _ _
  | conclude batch acked refused d' hSender hEnds =>
      cases hEnds with
      | settle hSettled hContents hRetried hPlaced =>
          exact .inl hPlaced.frame.2.1
      | fail => exact .inl rfl
  | wake ops d' hSender hPlaced hAwake => exact .inl hPlaced.frame.2.1
  | _ => exact .inl rfl

/-- What a step leaves outstanding was outstanding or has come in. -/
theorem Move.outstanding_le {d d' : Delivery} {added : List Batch} {acked : List Receipt}
    {refused : List Operation} (hOrderly : d.Orderly) (h : Move d added acked refused d') :
    contents d'.outstanding ≤ contents d.outstanding + contents added.flatten := by
  obtain ⟨lost, hBalance, _⟩ := h.balance hOrderly
  rw [← hBalance, add_assoc, add_assoc]
  exact Multiset.le_add_right _ _

/-- The requests of a run are made of what was outstanding at its start and of
what came in later. -/
theorem run_requests {d : Delivery} (h : d.Orderly) (events : List Event) :
    ∃ later, (d.run events).requests = d.requests ++ later ∧
      ∀ batch ∈ later,
        contents batch ≤ contents d.outstanding + contents (d.collect accepted events) := by
  induction events generalizing d with
  | nil => exact ⟨[], by simp [run], by simp⟩
  | cons e events ih =>
      have hStep := step_move h e
      have hOut := hStep.outstanding_le h
      obtain ⟨later, hLater, hWithin⟩ := ih (h.move hStep)
      have hAll : contents (d.step e).outstanding + contents ((d.step e).collect accepted events) ≤
          contents d.outstanding + contents (d.collect accepted (e :: events)) := by
        rw [collect, contents_append, ← add_assoc, ← flatten_groups]
        exact add_le_add_left hOut _
      rcases hStep.requests with hSame | ⟨batch, hNew, hBatch⟩
      · exact ⟨later, hLater.trans (by rw [hSame]), fun b hb => (hWithin b hb).trans hAll⟩
      · refine ⟨batch :: later, hLater.trans (by rw [hNew, List.append_assoc]; rfl), ?_⟩
        intro b hb
        rcases List.mem_cons.mp hb with rfl | hb
        · exact hBatch.trans ((Multiset.le_add_right _ _).trans hAll)
        · exact (hWithin b hb).trans hAll

/-- The crawl state is at all times what the acknowledgements so far have made
of it, one after the other. And what was acknowledged or reported is settled:
a later request is made of other operations that were added. -/
theorem acknowledged_is_recorded_and_settled (settings : Settings) (store : Store)
    (before after : List Event) (hTimed : ∀ e ∈ before, e.IsTimed)
    (hWritable : ∀ op ∈ (create settings store).collect accepted before, op.Writable) :
    let d := create settings store
    let settled := d.collect acknowledged before ++ d.collect reported before
    (d.collect receipts before).foldlM Store.record store =
      .ok (d.run before).coordinator.store ∧
    (d.run before).coordinator.tally.failed.map Report.name =
      (d.collect reported before).map Operation.name ∧
    ∃ later, (d.run (before ++ after)).requests = (d.run before).requests ++ later ∧
      ∀ batch ∈ later,
        contents batch + contents settled ≤ contents (d.collect accepted (before ++ after)) ∧
        ((contents (d.collect accepted (before ++ after))).Nodup →
          ∀ op ∈ batch, ∀ other ∈ settled, op.content ≠ other.content) := by
  intro d settled
  have hStart : d.Orderly := orderly_create settings store
  have hNothing : d.outstanding = [] := rfl
  obtain ⟨lost, hBalance, _⟩ := run_balance hStart before
  obtain ⟨later, hLater, hWithin⟩ := run_requests (hStart.run before) after
  refine ⟨?_, run_reports hStart before, later, by rw [run_append, hLater], ?_⟩
  · refine run_store hStart before fun r hr => ⟨now_of_run hTimed hr, ?_⟩
    exact run_spreads writable_of_copy hStart before (by simp [hNothing]) hWritable r hr
  · intro batch hBatch
    have hCount : contents batch + contents settled ≤
        contents (d.collect accepted (before ++ after)) := by
      rw [hNothing, contents_nil, zero_add] at hBalance
      rw [collect_append, contents_append, contents_append]
      calc contents batch +
            (contents (d.collect acknowledged before) + contents (d.collect reported before))
          ≤ contents (d.run before).outstanding + contents ((d.run before).collect accepted after) +
            (contents (d.collect acknowledged before) + contents (d.collect reported before)) :=
            add_le_add_left (hWithin batch hBatch) _
        _ ≤ contents (d.run before).outstanding + contents ((d.run before).collect accepted after) +
            (contents (d.collect acknowledged before) + contents (d.collect reported before)) +
            lost := Multiset.le_add_right _ _
        _ = contents (d.collect accepted before) +
            contents ((d.run before).collect accepted after) := by
            rw [← hBalance]
            abel
    refine ⟨hCount, fun hDistinct op hOp other hOther hSame => ?_⟩
    have hDisjoint := (Multiset.nodup_add.mp (Multiset.nodup_of_le hCount hDistinct)).2.2
    have hContent := Multiset.mem_map_of_mem Operation.content (Multiset.mem_coe.mpr hOp)
    refine Multiset.disjoint_left.mp hDisjoint hContent ?_
    rw [hSame]
    exact Multiset.mem_map_of_mem _ (Multiset.mem_coe.mpr hOther)

/-- The first operation is on record when the second is sent again. -/
theorem turnedAwayOnce_is_recorded_and_settled :
    let d := create (.initial ⟨0, []⟩) .empty
    let before := turnedAwayOnce.take 5
    (d.collect acknowledged before).map (·.id) = ["a"] ∧
    (d.run before).coordinator.store.rows.map (·.path) = ["/r/a"] ∧
    (d.collect receipts before).foldlM Store.record .empty =
      .ok (d.run before).coordinator.store ∧
    ∃ later, (d.run turnedAwayOnce).requests = (d.run before).requests ++ later ∧
      ∀ batch ∈ later, contents batch + contents (d.collect acknowledged before) ≤
        contents (d.collect accepted turnedAwayOnce) := by
  intro d before
  have hTimed : ∀ e ∈ before, e.IsTimed := by decide +kernel
  have hAccepted : (d.collect accepted before).filterMap (·.update) =
      [⟨"/r", "/r/a", none, some ⟨⟨0⟩, none⟩, false⟩, ⟨"/r", "/r/b", none, none, true⟩] := by
    decide +kernel
  have hWritable : ∀ op ∈ d.collect accepted before, op.Writable := by
    intro op hOp u hUpdate
    have hMem : u ∈ (d.collect accepted before).filterMap (·.update) :=
      List.mem_filterMap.mpr ⟨op, hOp, hUpdate⟩
    rw [hAccepted, List.mem_pair] at hMem
    rcases hMem with rfl | rfl
    · exact StateUpdate.writable_of_reading rfl (by decide)
    · exact StateUpdate.writable_of_remove rfl
  obtain ⟨hStore, _, later, hLater, hCount⟩ := acknowledged_is_recorded_and_settled
    (.initial ⟨0, []⟩) .empty before (turnedAwayOnce.drop 5) hTimed hWritable
  refine ⟨by decide +kernel, by decide +kernel, hStore, later, hLater, fun batch hBatch => ?_⟩
  refine le_trans ?_ (hCount batch hBatch).1
  rw [contents_append, ← add_assoc]
  exact Multiset.le_add_right _ _

end Delivery
end Indexer
