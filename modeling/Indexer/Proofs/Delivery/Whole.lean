import Indexer.Proofs.Delivery.Accounts

/-! Runs that stay whole. A delivery is given up because a fault has ended its run,
or by order; a run that had neither has recorded all that was acknowledged. -/
namespace Indexer

namespace Delivery

theorem Ends.aborting {d d' : Delivery} {batch : Batch} {acked : List Receipt}
    {refused : List Operation} (h : Ends d batch acked refused d') : d'.aborting = d.aborting := by
  cases h with
  | settle hSettled hContents hRetried hPlaced => exact hPlaced.frame.2.2.2
  | fail => rfl

theorem answer_aborting {d : Delivery} (h : d.Orderly) (now : DateTime) (reply : Except Fault Json) :
    (d.answer now reply).aborting = d.aborting := by
  cases hSender : d.sender with
  | sending batch => exact (answer_ends h hSender now reply).aborting
  | idle | pausing ops => rw [answer, hSender]

theorem flushToClose_aborting {d : Delivery} (h : d.fatal = none) :
    d.flushToClose.aborting = d.aborting := by
  obtain ⟨_, _, hFrame⟩ := d.flushAll_frame
  rw [flushToClose, h, hFrame]

theorem start_aborting (d : Delivery) : (d.step .start).aborting = d.aborting := by
  simp only [step, start]
  split
  · split <;> rfl
  · rfl

theorem take_aborting (d : Delivery) : d.take.aborting = d.aborting := by
  unfold take
  split
  · rfl
  · split
    · rfl
    · split <;> rfl
  · rfl

theorem expire_aborting {d : Delivery} (h : d.Orderly) (now : DateTime) :
    (d.expire now).aborting = d.aborting := by
  unfold expire
  split
  · exact answer_aborting h now _
  · rfl

theorem wake_aborting (d : Delivery) : d.wake.aborting = d.aborting := by
  unfold wake
  split
  · next ops _ =>
      obtain ⟨_, _, _, hFrame⟩ := { d with sender := .idle : Delivery }.requeue_frame ops
      rw [hFrame]
  · rfl

theorem close_aborting {d : Delivery} (h : d.fatal = none) : d.close.aborting = d.aborting := by
  unfold close
  split
  · exact flushToClose_aborting h
  · rfl

theorem proceed_aborting {d : Delivery} (h : d.fatal = none) : d.proceed.aborting = d.aborting := by
  rcases d.proceed_frame with ⟨_, _, hFrame⟩ | ⟨_, hFlush⟩
  · rw [hFrame]
  · rw [hFlush]
    exact flushToClose_aborting h

theorem abandon_aborting (d : Delivery) : d.abandon.aborting = d.aborting := by
  unfold abandon
  split <;> rfl

/-- As long as no fault has ended it, a delivery is given up only by order. -/
theorem step_aborting {d : Delivery} (h : d.Orderly) (hFatal : d.fatal = none) {e : Event}
    (hOrder : e ≠ .abort) : (d.step e).aborting = d.aborting := by
  cases e with
  | start => exact d.start_aborting
  | add group =>
      obtain ⟨_, _, hFrame⟩ := d.addGroup_frame group
      rw [step, hFrame]
  | flush =>
      obtain ⟨_, _, hFrame⟩ := d.flush_frame
      rw [step, hFrame]
  | flushAll =>
      obtain ⟨_, _, hFrame⟩ := d.flushAll_frame
      rw [step, hFrame]
  | tick =>
      obtain ⟨_, _, hFrame⟩ := d.tick_frame
      rw [step, hFrame]
  | take => exact d.take_aborting
  | answer now reply => exact answer_aborting h now reply
  | expire now => exact expire_aborting h now
  | wake => exact d.wake_aborting
  | close => exact close_aborting hFatal
  | proceed => exact proceed_aborting hFatal
  | abort => exact absurd rfl hOrder
  | abandon => exact d.abandon_aborting

/-- A fault that has ended a run stays. -/
theorem Move.fatal_none {d d' : Delivery} {added : List Batch} {acked : List Receipt}
    {refused : List Operation} (hOrderly : d.Orderly) (h : Move d added acked refused d')
    (hNone : d'.fatal = none) : d.fatal = none := by
  rcases h.shifts_or_ends hOrderly with ⟨_, _, hShifts⟩ | ⟨_, batch, _, hEnds⟩
  · exact hShifts.fatal.symm.trans hNone
  · cases hEnds with
    | settle hSettled hContents hRetried hPlaced => exact hPlaced.frame.2.2.1.symm.trans hNone
    | fail => cases hNone

theorem fatal_of_run {d : Delivery} (h : d.Orderly) (events : List Event)
    (hNone : (d.run events).fatal = none) : d.fatal = none := by
  induction events generalizing d with
  | nil => exact hNone
  | cons e events ih =>
      have hStep := step_move h e
      exact hStep.fatal_none h (ih (h.move hStep) hNone)

/-- Without an order to give it up, a run is whole unless a fault has ended it. -/
theorem run_aborting {d : Delivery} (h : d.Orderly) (hAborting : d.aborting = false)
    {events : List Event} (hOrders : .abort ∉ events) (hFatal : (d.run events).fatal = none) :
    (d.run events).aborting = false := by
  induction events generalizing d with
  | nil => exact hAborting
  | cons e events ih =>
      have hStep := step_move h e
      have hNext : (d.step e).fatal = none := fatal_of_run (h.move hStep) events hFatal
      have hOrder : e ≠ .abort := fun hAbort => hOrders (hAbort ▸ List.mem_cons_self)
      refine ih (h.move hStep) ?_ (fun hLater => hOrders (List.mem_cons_of_mem e hLater)) hFatal
      rw [step_aborting h (hStep.fatal_none h hNext) hOrder, hAborting]

/-- A step that ends no run records what it acknowledges. -/
theorem Move.store_of_whole {d d' : Delivery} {added : List Batch} {acked : List Receipt}
    {refused : List Operation} (hOrderly : d.Orderly) (h : Move d added acked refused d')
    (hWhole : d'.IsWhole) :
    acked.foldlM Store.record d.coordinator.store = .ok d'.coordinator.store := by
  rcases h.shifts_or_ends hOrderly with ⟨rfl, _, hShifts⟩ | ⟨_, batch, _, hEnds⟩
  · rw [hShifts.coordinator]
    rfl
  · cases hEnds with
    | settle hSettled hContents hRetried hPlaced =>
        rw [hPlaced.frame.1]
        exact hSettled.store
    | fail => cases hWhole.1

/-- The crawl state of a run that is whole is what the acknowledgements made of it. -/
theorem run_store_of_whole {d : Delivery} (h : d.Orderly) (events : List Event)
    (hWhole : (d.run events).IsWhole) :
    (d.collect receipts events).foldlM Store.record d.coordinator.store =
      .ok (d.run events).coordinator.store := by
  induction events generalizing d with
  | nil => rfl
  | cons e events ih =>
      have hStep := step_move h e
      have hNext := h.move hStep
      rw [collect, List.foldlM_append, hStep.store_of_whole h (run_whole hNext events hWhole)]
      exact ih hNext hWhole

end Delivery
end Indexer
