import Indexer.Proofs.Delivery.Step

/-! What closing leaves behind. Once all that was flushed is settled, the owner of a delivery looks at
the buffer and finds it empty. It looks neither again nor at the queue, so what comes to wait for a request
from then on is not waited for, and a fault is not noticed. If there is neither, nothing is left when the
sender stops. -/
namespace Indexer

/-- The owner has found the buffer empty, and does not look again. -/
def Stage.isParting : Stage → Bool
  | .leaving | .sealed => true
  | _ => false

namespace Delivery

/-- The places in requests that are taken, in those that were made and by what waits for one. -/
def booked (d : Delivery) : Nat := d.requests.flatten.length + d.waiting.length

/-- From one state to another nothing comes to wait for a request, and no fault ends the run, after the
owner has looked for the last time. -/
def IsPrompt (d d' : Delivery) : Prop :=
  d.stage.isParting = true → d'.booked ≤ d.booked ∧ d'.fatal.isNone = true

instance (d d' : Delivery) : Decidable (d.IsPrompt d') := inferInstanceAs (Decidable (_ → _))

/-- What an event brings about comes in time. -/
def InTime (d : Delivery) (e : Event) : Prop := d.IsPrompt (d.step e)

instance (d : Delivery) (e : Event) : Decidable (d.InTime e) :=
  inferInstanceAs (Decidable (d.IsPrompt _))

/-- What is not waited for any more is nothing, and no fault goes unnoticed. -/
structure Tidy (d : Delivery) : Prop where
  parting : d.stage.isParting = true → d.buffered = [] ∧ d.fatal = none
  /-- No operation is behind the stop mark. -/
  marked : d.stage = .sealed → ((d.queue.getD []).drop d.mark).flatten = []
  rested : d.stage = .idle → d.waiting = [] ∧ (d.aborting = true ∨ d.fatal = none)

/-- At rest nothing may wait, and no fault may have gone unnoticed. -/
theorem tidy_of_idle {d : Delivery} (hIdle : d.stage = .idle)
    (hRested : d.waiting = [] ∧ (d.aborting = true ∨ d.fatal = none)) : d.Tidy where
  parting h := by simp [hIdle, Stage.isParting] at h
  marked h := by simp [hIdle] at h
  rested _ := hRested

theorem tidy_create (settings : Settings) (store : Store) : (create settings store).Tidy :=
  tidy_of_idle rfl ⟨rfl, .inr rfl⟩

/-- In other stages there is nothing to keep. -/
theorem tidy_of_stage {d : Delivery} (hOpen : d.stage.isParting = false) (hRunning : d.stage ≠ .idle) :
    d.Tidy where
  parting h := by simp [hOpen] at h
  marked h := by simp [h, Stage.isParting] at hOpen
  rested h := absurd h hRunning

theorem Tidy.of_eq {d d' : Delivery} (h : d.Tidy)
    (hSame : d'.stage = d.stage ∧ d'.aborting = d.aborting ∧ d'.fatal = d.fatal ∧ d'.queue = d.queue ∧
      d'.mark = d.mark ∧ d'.buffer = d.buffer) :
    d'.Tidy := by
  obtain ⟨hStage, hAborting, hFatal, hQueue, hMark, hBuffer⟩ := hSame
  refine ⟨?_, ?_, ?_⟩
  · rw [hStage, buffered, hBuffer, hFatal]
    exact h.parting
  · rw [hStage, hQueue, hMark]
    exact h.marked
  · rw [hStage, waiting, hQueue, hBuffer, hAborting, hFatal]
    exact h.rested

/-- Batches that are cut while there are no operations hold none. -/
theorem Tidy.packs {d : Delivery} (h : d.Tidy) {queue batches : List Batch} {b last : Buffer}
    {added : List Batch} (hQueue : d.queue = some queue) (hPacks : b.Packs d.limit added batches last)
    (hNothing : b.groups.flatten ++ added.flatten = []) :
    { d with buffer := last, queue := some (queue ++ batches) : Delivery }.Tidy := by
  have hCut := hPacks.flatten
  rw [hNothing, List.append_eq_nil_iff] at hCut
  obtain ⟨hBatches, hLast⟩ := hCut
  refine ⟨fun hStage => ⟨hLast, (h.parting hStage).2⟩, fun hStage => ?_, fun hStage => ?_⟩
  · have hMarked := h.marked hStage
    rw [hQueue] at hMarked
    simp only [Option.getD_some, List.drop_append, List.flatten_append] at hMarked ⊢
    rw [hMarked, List.nil_append, List.flatten_eq_nil_iff]
    exact fun batch hBatch => List.flatten_eq_nil_iff.mp hBatches batch (List.mem_of_mem_drop hBatch)
  · obtain ⟨hWaiting, hNoticed⟩ := h.rested hStage
    rw [waiting_of_queue hQueue, List.append_eq_nil_iff] at hWaiting
    exact ⟨by simp [waiting, line, hWaiting.1, hBatches, hLast], hNoticed⟩

/-- Groups come in in time, or there are none. -/
theorem Tidy.arrange {d : Delivery} (h : d.Tidy) {queue batches : List Batch} {b : Buffer}
    {added : List Batch} (hQueue : d.queue = some queue)
    (hPacks : d.buffer.Packs d.limit added batches b) (hRefused : d.stage = .idle → added = [])
    (hInTime : d.stage.isParting = true →
      (queue.flatten ++ d.buffered).length + added.flatten.length ≤ (queue.flatten ++ d.buffered).length) :
    { d with buffer := b, queue := some (queue ++ batches) : Delivery }.Tidy := by
  by_cases hIdle : d.stage = .idle
  · have hWaiting := (h.rested hIdle).1
    rw [waiting_of_queue hQueue, List.append_eq_nil_iff] at hWaiting
    refine h.packs hQueue hPacks ?_
    rw [hRefused hIdle, List.flatten_nil, List.append_nil]
    exact hWaiting.2
  · cases hParting : d.stage.isParting with
    | false => exact tidy_of_stage hParting hIdle
    | true =>
        have hLength := hInTime hParting
        have hNone : added.flatten = [] := List.eq_nil_of_length_eq_zero (by omega)
        refine h.packs hQueue hPacks ?_
        rw [hNone, List.append_nil]
        exact (h.parting hParting).1

/-- A batch in front is taken from the queue. -/
theorem Tidy.take {d : Delivery} (h : d.Tidy) {batch : Batch} {rest : List Batch}
    (hQueue : d.queue = some (batch :: rest)) (hStage : d.stage ≠ .idle) :
    { d with queue := some rest, mark := d.mark - 1 : Delivery }.Tidy := by
  refine ⟨h.parting, fun hSealed => ?_, fun hIdle => absurd hIdle hStage⟩
  have hMarked := h.marked hSealed
  rw [hQueue] at hMarked
  cases hMark : d.mark with
  | zero =>
      rw [hMark] at hMarked
      exact (List.append_eq_nil_iff.mp hMarked).2
  | succ n => simpa [hMark] using hMarked

/-- Operations are placed in time, or there are none. -/
theorem Placed.tidy {d d' : Delivery} {ops : List Operation} (hPlaced : Placed d ops d') (h : d.Tidy)
    (hStage : d.stage ≠ .idle)
    (hInTime : d.stage.isParting = true → d'.booked ≤ d.booked) : d'.Tidy := by
  cases hPlaced with
  | none hNone => exact h
  | rest hAborting => exact h.of_eq ⟨rfl, rfl, rfl, rfl, rfl, rfl⟩
  | front queue batches b hQueue hPacks hAborting =>
      cases hParting : d.stage.isParting with
      | false => exact tidy_of_stage hParting hStage
      | true =>
          have hLength := hInTime hParting
          rw [booked, booked, waiting, line_of_packs hPacks, waiting_of_queue hQueue, buffered,
            Buffer.flatten_pushFront] at hLength
          simp only [List.length_append, List.flatten_nil, List.length_nil] at hLength
          have hNone : ops = [] := List.eq_nil_of_length_eq_zero (by omega)
          refine h.packs hQueue hPacks ?_
          rw [Buffer.flatten_pushFront, hNone, List.flatten_nil, List.append_nil, List.nil_append]
          exact (h.parting hParting).1
  | dropped log hAborting => exact h.of_eq ⟨rfl, rfl, rfl, rfl, rfl, rfl⟩

theorem Tidy.move {d d' : Delivery} {added : List Batch} {acked : List Receipt}
    {refused : List Operation} (h : d.Tidy) (hOrderly : d.Orderly) (hMove : Move d added acked refused d')
    (hInTime : d.IsPrompt d') : d'.Tidy := by
  cases hMove with
  | stay => exact h
  | start | abort | join => exact tidy_of_stage rfl (by simp)
  | arrange added s queue batches b hNext hQueue hPacks hRefused =>
      rcases hNext with rfl | ⟨rfl, _⟩
      · refine h.arrange hQueue hPacks (fun hIdle => hRefused (.inl hIdle)) fun hParting => ?_
        have hLength := (hInTime hParting).1
        rw [booked, booked, waiting, line_of_packs hPacks, waiting_of_queue hQueue] at hLength
        rw [← List.length_append]
        exact Nat.le_of_add_le_add_left hLength
      · exact tidy_of_stage rfl (by simp)
  | send batch rest hStage hSender hQueue hWhole =>
      exact (h.take hQueue hStage).of_eq ⟨rfl, rfl, rfl, rfl, rfl, rfl⟩
  | discard batch rest hStage hQueue hNotWhole => exact h.take hQueue hStage
  | conclude batch acked refused d' hSender hEnds =>
      have hStage := hOrderly.stage_of_busy (by simp [hSender])
      cases hEnds with
      | settle hSettled hContents hRetried hPlaced =>
          exact hPlaced.tidy (h.of_eq ⟨rfl, rfl, rfl, rfl, rfl, rfl⟩) hStage
            fun hParting => (hInTime hParting).1
      | fail m n log f hAbort hContents hLost =>
          cases hParting : d.stage.isParting with
          | false => exact tidy_of_stage hParting hStage
          | true => cases (hInTime hParting).2
  | wake ops d' hSender hPlaced hAwake =>
      have hStage := hOrderly.stage_of_busy (by simp [hSender])
      exact hPlaced.tidy (h.of_eq ⟨rfl, rfl, rfl, rfl, rfl, rfl⟩) hStage
        fun hParting => (hInTime hParting).1
  | leave hStage hFatal hBuffer =>
      exact ⟨fun _ => ⟨by rw [buffered, hBuffer]; rfl, hFatal⟩, by simp, by simp⟩
  | mark hStage =>
      exact ⟨fun _ => h.parting (by simp [hStage, Stage.isParting]), by simp, by simp⟩
  | finish hStage hSender hAhead =>
      refine tidy_of_idle rfl ?_
      change d.waiting = [] ∧ _
      rcases hStage with hSealed | hStopping
      · obtain ⟨hBuffered, hFatal⟩ := h.parting (by rw [hSealed]; rfl)
        have hQueue : ((d.queue.getD []).take d.mark).flatten = [] := by
          rw [ahead, hSealed] at hAhead
          exact congrArg List.flatten hAhead
        refine ⟨?_, .inr hFatal⟩
        rw [waiting, line, ← List.take_append_drop d.mark (d.queue.getD []), List.flatten_append, hQueue,
          h.marked hSealed, List.nil_append, List.nil_append]
        exact hBuffered
      · have hAborting := hOrderly.stopping hStopping
        exact ⟨waiting_of_cleared (hOrderly.givenUp hAborting), .inl hAborting⟩
  | abandon hStage =>
      have hAborting := hOrderly.stopping hStage
      exact tidy_of_idle rfl ⟨waiting_of_cleared (hOrderly.givenUp hAborting), .inl hAborting⟩

theorem Tidy.step {d : Delivery} (h : d.Tidy) (hOrderly : d.Orderly) {e : Event} (hInTime : d.InTime e) :
    (d.step e).Tidy :=
  h.move hOrderly (step_move hOrderly e) hInTime

theorem Tidy.run {d : Delivery} (h : d.Tidy) (hOrderly : d.Orderly) (events : List Event)
    (hInTime : d.Throughout InTime events) : (d.run events).Tidy := by
  induction events generalizing d with
  | nil => exact h
  | cons e events ih =>
      exact ih (h.step hOrderly hInTime.1) (hOrderly.move (step_move hOrderly e)) hInTime.2

/-- Nobody waits for what is left of a delivery that is given up. -/
theorem tidy_abort {d : Delivery} (h : d.stage = .idle → d.Tidy) : d.abort.Tidy := by
  unfold abort
  split
  · next hIdle => exact h hIdle
  · dsimp only
    split <;> exact tidy_of_stage rfl nofun

theorem Tidy.abandon {d : Delivery} (h : d.Tidy) (hOrderly : d.Orderly) : d.abandon.Tidy := by
  refine h.step (e := .abandon) hOrderly fun hParting => ?_
  have hStays : d.step .abandon = d := by
    cases hStage : d.stage <;> simp [Delivery.step, Delivery.abandon, hStage]
    simp [hStage, Stage.isParting] at hParting
  rw [hStays, (h.parting hParting).2]
  exact ⟨Nat.le_refl _, rfl⟩

/-- The sender takes a batch from the queue to send it. -/
theorem Tidy.booked_take {d : Delivery} (h : d.Tidy) (hOrderly : d.Orderly)
    (hParting : d.stage.isParting = true) : d.take.booked = d.booked := by
  have hFatal := (h.parting hParting).2
  unfold Delivery.take
  split
  · rfl
  · next batch rest hSender hQueue hStage =>
      have hKept : d.aborting = false := by
        cases hAborting : d.aborting with
        | false => rfl
        | true => simpa [hQueue] using (hOrderly.givenUp hAborting).1
      split
      · rfl
      · simp only [hFatal, hKept, Option.isSome_none, Bool.or_self, Bool.false_eq_true, if_false]
        simp only [booked, waiting, line, hQueue, Option.getD_some, List.flatten_cons,
          List.flatten_append, List.flatten_nil, List.length_append, List.length_nil]
        omega
  · rfl

/-- If what the sender takes is answered at once, it comes in time as one event or as two. -/
theorem Tidy.inTime_take {d : Delivery} (h : d.Tidy) (hOrderly : d.Orderly) {e : Event}
    (hPrompt : d.IsPrompt (d.take.step e)) : d.InTime .take ∧ d.take.InTime e := by
  obtain ⟨_, _, _, _, hFrame⟩ := d.take_frame
  have hStage : d.take.stage = d.stage := by rw [hFrame]
  have hFatal : d.take.fatal = d.fatal := by rw [hFrame]
  refine ⟨fun hParting => ⟨(h.booked_take hOrderly hParting).le, ?_⟩, fun hParting => ?_⟩
  · change d.take.fatal.isNone = true
    rw [hFatal, (h.parting hParting).2]
    rfl
  · rw [hStage] at hParting
    rw [h.booked_take hOrderly hParting]
    exact hPrompt hParting

/-- A delivery that is closed without a fault has met none. -/
theorem Tidy.fatal_of_closed {d : Delivery} (h : d.Tidy) (hIdle : d.stage = .idle)
    (hClosed : d.closed = .ok ()) : d.fatal = none := by
  rcases (h.rested hIdle).2 with hAborting | hNone
  · cases hFatal : d.fatal with
    | none => rfl
    | some f => simp [closed, hAborting, hFatal] at hClosed
  · exact hNone

/-- Nothing is left of a delivery at rest. -/
theorem Tidy.outstanding {d : Delivery} (h : d.Tidy) (hOrderly : d.Orderly) (hRest : d.stage = .idle) :
    d.outstanding = [] := by
  rw [Delivery.outstanding, hOrderly.rested hRest, (h.rested hRest).1]
  rfl

/-- If all happens in time, a delivery that has come to rest has left nothing behind. -/
theorem outstanding_of_inTime (settings : Settings) (store : Store) (events : List Event)
    (hInTime : (create settings store).Throughout InTime events)
    (hRest : ((create settings store).run events).stage = .idle) :
    ((create settings store).run events).outstanding = [] := by
  have hStart := orderly_create settings store
  have hTidy := (tidy_create settings store).run hStart events hInTime
  exact hTidy.outstanding (hStart.run events) hRest

end Delivery
end Indexer
