import Indexer.Proofs.Delivery.Budget
import Mathlib.Data.Prod.Lex

/-! The end of a delivery. As long as it is closing or stopping, somebody has a
turn: the destination has to answer, the sender to go on, or the owner to do
so. Each answer takes from the requests that can still be made, and every
other turn brings operations closer to a request or to their end. So a delivery
to which nothing is added comes to rest, whatever the answers are. -/
namespace Indexer.Delivery

/-- Closing has begun, or the delivery is given up, and it is not over. -/
def IsEnding (d : Delivery) : Prop := d.stage ≠ .idle ∧ d.stage ≠ .running

/-- The owner waits for nothing but its turn. -/
def isReady (d : Delivery) : Bool :=
  match d.stage with
  | .joined | .leaving => true
  | _ => d.isDrained

/-- The turn of somebody for whom the delivery waits. -/
def isDue (d : Delivery) (e : Event) : Bool :=
  match d.sender, e with
  | .sending _, .answer _ _ | .sending _, .expire _ | .pausing _, .wake => true
  | .idle, .take => !d.ahead.isEmpty
  | _, .proceed => d.isReady
  | _, _ => false

theorem isReady_of_drained {d : Delivery} (h : d.isDrained = true) : d.isReady = true := by
  unfold isReady
  split
  · rfl
  · rfl
  · exact h

/-- There is always a turn to take. -/
theorem exists_due (d : Delivery) : ∃ e, d.isDue e = true := by
  cases hSender : d.sender with
  | sending batch => exact ⟨.expire ⟨⟨0⟩, none⟩, by simp only [isDue, hSender]⟩
  | pausing ops => exact ⟨.wake, by simp only [isDue, hSender]⟩
  | idle =>
      cases hAhead : d.ahead with
      | nil =>
          have hReady := isReady_of_drained (isDrained_iff.mpr ⟨hSender, hAhead⟩)
          exact ⟨.proceed, by simp only [isDue, hSender, hReady]⟩
      | cons batch rest =>
          exact ⟨.take, by simp only [isDue, hSender, hAhead, List.isEmpty_cons, Bool.not_false]⟩

end Indexer.Delivery

namespace Indexer

/-- What it takes a sender to be done with its operations. -/
def Sender.toil : Sender → Nat
  | .idle => 0
  | .sending batch => batch.length
  | .pausing ops => 5 * ops.length + 1

/-- The turns of the owner that a stage is away from the end. -/
def Stage.toil : Stage → Nat
  | .closing => 4
  | .joined => 3
  | .leaving => 2
  | .sealed => 1
  | .idle | .running | .stopping => 0

namespace Delivery

/-- The turns that it takes, apart from answers, until everything is sent. -/
def toil (d : Delivery) : Nat :=
  d.sender.toil + 2 * d.queued.length + 4 * d.buffered.length + d.stage.toil

/-- The work that is left: requests first, then turns. -/
def work (m : Nat) (d : Delivery) : ℕ ×ₗ ℕ := toLex (d.allowance m, d.toil)

variable {m : Nat} {d d' : Delivery} {acked : List Receipt} {refused : List Operation}

theorem work_le (hAllowance : d'.allowance m ≤ d.allowance m) (hToil : d'.toil ≤ d.toil) :
    d'.work m ≤ d.work m := Prod.Lex.toLex_mono ⟨hAllowance, hToil⟩

theorem work_lt_of_allowance (h : d'.allowance m < d.allowance m) : d'.work m < d.work m :=
  Prod.Lex.toLex_lt_toLex.mpr (.inl h)

theorem work_lt_of_toil (hAllowance : d'.allowance m ≤ d.allowance m) (hToil : d'.toil < d.toil) :
    d'.work m < d.work m := by
  rcases hAllowance.lt_or_eq with hLess | hSame
  · exact work_lt_of_allowance hLess
  · exact Prod.Lex.toLex_lt_toLex.mpr (.inr ⟨hSame, hToil⟩)

/-- Cutting batches brings operations closer to a request. -/
theorem length_packs {limit : Quantity} {b last : Buffer} {batches : List Batch}
    (h : b.Packs limit [] batches last) :
    batches.flatten.length + last.groups.flatten.length = b.groups.flatten.length := by
  have hFlatten := congrArg List.length h.flatten
  simpa using hFlatten

/-- Nothing but a rest takes more turns than the operations that are placed. -/
theorem Placed.toil_le {ops : List Operation} (h : Placed d ops d') (hAwake : d'.sender = .idle) :
    d'.toil ≤ d.toil + 4 * ops.length := by
  cases h with
  | none hNone => omega
  | rest hAborting => cases hAwake
  | front queue batches b hQueue hPacks hAborting =>
      have hLength := length_packs hPacks
      rw [Buffer.flatten_pushFront, List.length_append] at hLength
      simp only [toil, queued, buffered, hQueue, Option.getD_some, List.flatten_append,
        List.length_append] at hLength ⊢
      omega
  | dropped log hAborting =>
      simp only [toil, queued, buffered]
      omega

theorem length_buffered_pos (hFilled : d.Filled) (hGroups : d.buffer.groups ≠ []) :
    0 < d.buffered.length :=
  List.length_pos_iff.mpr (Buffer.flatten_ne_nil hFilled.groups hGroups)

/-- A step that adds nothing leaves no more work, or the end is reached. -/
theorem Move.work_le (hGoverned : d.Governed m) (h : Move d [] acked refused d')
    (hEnding : d.IsEnding) : d'.stage = .idle ∨ (d'.IsEnding ∧ d'.work m ≤ d.work m) := by
  have hAllowance : d'.allowance m ≤ d.allowance m := by simpa using h.allowance_le hGoverned
  cases h with
  | stay => exact .inr ⟨hEnding, le_refl _⟩
  | start hStage hSender hQueue => exact absurd hStage hEnding.1
  | arrange added s queue batches b hNext hQueue hPacks hRefused =>
      have hLength := length_packs hPacks
      rcases hNext with rfl | ⟨rfl, hRunning | ⟨hJoined, hGroups, hEmpty⟩⟩
      · refine .inr ⟨hEnding, Delivery.work_le hAllowance ?_⟩
        simp only [toil, queued, buffered, hQueue, Option.getD_some, List.flatten_append,
          List.length_append]
        omega
      · exact absurd hRunning hEnding.2
      · refine .inr ⟨⟨by simp, by simp⟩, Delivery.work_le hAllowance ?_⟩
        have hWaits := length_buffered_pos hGoverned.filled hGroups
        simp only [toil, queued, buffered, hQueue, hJoined, hEmpty, Stage.toil, Option.getD_some,
          List.flatten_append, List.length_append, List.flatten_nil, List.length_nil] at *
        omega
  | send batch rest hStage hSender hQueue hWhole =>
      refine .inr ⟨hEnding, Delivery.work_le hAllowance ?_⟩
      simp only [toil, queued, buffered, hQueue, hSender, Sender.toil, Option.getD_some,
        List.flatten_cons, List.length_append]
      omega
  | discard batch rest hStage hQueue hNotWhole =>
      refine .inr ⟨hEnding, Delivery.work_le hAllowance ?_⟩
      simp only [toil, queued, buffered, hQueue, Option.getD_some, List.flatten_cons,
        List.length_append]
      omega
  | conclude batch acked refused d' hSender hEnds =>
      have hLess := (hEnds.allowance_lt hSender hGoverned.filled hGoverned.retries).1
      refine .inr ⟨?_, (work_lt_of_allowance hLess).le⟩
      rw [IsEnding, hEnds.stage]
      exact hEnding
  | wake ops d' hSender hPlaced hAwake =>
      have hToil := hPlaced.toil_le hAwake
      refine .inr ⟨?_, Delivery.work_le hAllowance ?_⟩
      · rw [IsEnding, hPlaced.stage]
        exact hEnding
      · simp only [toil, queued, buffered, hSender, Sender.toil] at hToil ⊢
        omega
  | abort log hStage =>
      refine .inr ⟨⟨by simp, by simp⟩, Delivery.work_le hAllowance ?_⟩
      have hNothing : ((d.queue.map fun _ => ([] : List Batch)).getD []).flatten = [] := by
        cases d.queue <;> rfl
      simp only [toil, queued, buffered, hNothing, Buffer.empty, List.flatten_nil, List.length_nil]
      exact Nat.add_le_add (Nat.add_le_add (Nat.le_add_right _ _) (Nat.zero_le _)) (Nat.zero_le _)
  | join hStage | leave hStage | mark hStage =>
      refine .inr ⟨⟨by simp, by simp⟩, Delivery.work_le hAllowance ?_⟩
      simp only [toil, queued, buffered, hStage, Stage.toil]
      omega
  | finish | abandon => exact .inl rfl

theorem answer_work_lt (h : d.Governed m) {batch : Batch} (hSender : d.sender = .sending batch)
    (now : DateTime) (reply : Except Fault Json) : (d.answer now reply).work m < d.work m :=
  work_lt_of_allowance
    ((answer_ends h.orderly hSender now reply).allowance_lt hSender h.filled h.retries).1

theorem wake_work_lt (h : d.Governed m) {ops : List Operation} (hSender : d.sender = .pausing ops) :
    d.wake.work m < d.work m := by
  obtain ⟨queue, hQueue⟩ := h.orderly.exists_queue (h.orderly.stage_of_busy (by simp [hSender]))
  have hAllowance : d.wake.allowance m ≤ d.allowance m := by
    simpa using (wake_move h.orderly).allowance_le h
  have hWake : d.wake = ({ d with sender := .idle }.requeue ops).1 := by simp [wake, hSender]
  refine work_lt_of_toil hAllowance ?_
  rw [hWake]
  have hPlaced : Placed { d with sender := .idle } ops ({ d with sender := .idle }.requeue ops).1 :=
    requeue_placed hQueue
  have hToil := hPlaced.toil_le (requeue_sender { d with sender := .idle } ops)
  have hBefore : d.toil = { d with sender := .idle : Delivery }.toil + 5 * ops.length + 1 := by
    simp only [toil, hSender, Sender.toil, queued, buffered]
    omega
  omega

theorem take_work_lt (h : d.Governed m) (hRunning : d.stage ≠ .idle) (hSender : d.sender = .idle)
    (hAhead : d.ahead ≠ []) : d.take.work m < d.work m := by
  have hAllowance : d.take.allowance m ≤ d.allowance m := by
    simpa using (take_move d).allowance_le h
  refine work_lt_of_toil hAllowance ?_
  obtain ⟨queue, hQueue⟩ := h.orderly.exists_queue hRunning
  cases queue with
  | nil =>
      refine absurd ?_ hAhead
      unfold ahead
      split <;> simp [hQueue]
  | cons batch rest =>
      have hBatch : 0 < batch.length :=
        List.length_pos_iff.mpr (h.filled.queue batch (by simp [hQueue]))
      unfold take
      split
      · exact absurd ‹_› hRunning
      · next taken left _ hSome _ =>
          rw [hQueue] at hSome
          obtain ⟨rfl, rfl⟩ := List.cons.inj (Option.some.inj hSome)
          rw [if_neg (by simpa using hAhead)]
          split <;>
            simp only [toil, queued, buffered, hSender, hQueue, Sender.toil, Option.getD_some,
              List.flatten_cons, List.length_append] <;>
            omega
      · next hOther => exact absurd hQueue (hOther _ _ hSender)

theorem toil_abort (d : Delivery) (hRunning : d.stage ≠ .idle) : d.abort.toil = d.sender.toil := by
  have hNothing : ((d.queue.map fun _ => ([] : List Batch)).getD []).flatten = [] := by
    cases d.queue <;> rfl
  unfold abort
  split
  · exact absurd ‹_› hRunning
  · dsimp only
    split <;> simp only [toil, queued, buffered, note, hNothing, Buffer.empty, List.flatten_nil,
      List.length_nil] <;> rfl

/-- Flushing once more brings what waits closer to a request, or all of it to its end. -/
theorem flushToClose_toil_lt (h : d.Governed m) (hStage : d.stage = .joined)
    (hMore : d.fatal = none → d.buffer.groups ≠ []) : d.flushToClose.toil < d.toil := by
  have hRunning : d.stage ≠ .idle := by simp [hStage]
  cases hFatal : d.fatal with
  | some f =>
      simp only [flushToClose, hFatal, toil_abort d hRunning]
      simp only [toil, hStage, Stage.toil]
      omega
  | none =>
      have hWaits := length_buffered_pos h.filled (hMore hFatal)
      obtain ⟨queue, hQueue⟩ := h.orderly.exists_queue hRunning
      obtain ⟨batches, b, hFlush, hPacks, hEmpty⟩ := flushAll_eq hQueue
      have hLength := length_packs hPacks
      rw [hEmpty, List.flatten_nil, List.length_nil] at hLength
      simp only [flushToClose, hFatal, hFlush, toil, queued, buffered, hEmpty, hQueue, hStage, Stage.toil,
        Option.getD_some, List.flatten_append, List.length_append, List.flatten_nil,
        List.length_nil] at hWaits ⊢
      omega

/-- A turn of the owner brings the delivery to rest, or closer to it. -/
theorem proceed_work_lt (h : d.Governed m) (hEnding : d.IsEnding) (hReady : d.isReady = true) :
    d.proceed.stage = .idle ∨ d.proceed.work m < d.work m := by
  have hAllowance : d.proceed.allowance m ≤ d.allowance m := by
    simpa using (proceed_move h.orderly).allowance_le h
  cases hStage : d.stage with
  | idle => exact absurd hStage hEnding.1
  | running => exact absurd hStage hEnding.2
  | joined =>
      right
      refine work_lt_of_toil hAllowance ?_
      simp only [proceed, hStage, look]
      split
      · simp only [toil, queued, buffered, hStage, Stage.toil]
        omega
      · next hMore => exact flushToClose_toil_lt h hStage fun hFatal => by simpa [hFatal] using hMore
  | leaving =>
      right
      refine work_lt_of_toil hAllowance ?_
      simp only [proceed, toil, queued, buffered, hStage, Stage.toil]
      omega
  | closing =>
      right
      refine work_lt_of_toil hAllowance ?_
      have hDrained : d.isDrained = true := by simpa only [isReady, hStage] using hReady
      simp only [proceed, hStage, hDrained, if_true, toil, queued, buffered, Stage.toil]
      omega
  | sealed | stopping =>
      left
      have hDrained : d.isDrained = true := by simpa only [isReady, hStage] using hReady
      simp only [proceed, hStage, hDrained, if_true]

theorem stage_proceed (hIdle : d.stage = .idle) : d.proceed.stage = .idle := by
  simp only [proceed, hIdle]

/-- A turn that is due leaves less work, or the end is reached. -/
theorem due_work_lt (h : d.Governed m) (hEnding : d.IsEnding) {e : Event} (hDue : d.isDue e = true) :
    (d.step e).stage = .idle ∨ (d.step e).work m < d.work m := by
  unfold isDue at hDue
  split at hDue
  · next batch now reply hSender => exact .inr (answer_work_lt h hSender now reply)
  · next batch now hSender =>
      right
      change (d.expire now).work m < d.work m
      rw [expire, hSender]
      exact answer_work_lt h hSender now _
  · next ops hSender => exact .inr (wake_work_lt h hSender)
  · next hSender => exact .inr (take_work_lt h hEnding.1 hSender (by simpa using hDue))
  · exact proceed_work_lt h hEnding hDue
  · cases hDue

/-- The states that a schedule of events goes through. -/
def along (d : Delivery) (schedule : Nat → Event) : Nat → Delivery
  | 0 => d
  | k + 1 => (d.along schedule k).step (schedule k)

theorem along_eq_run (d : Delivery) (schedule : Nat → Event) (k : Nat) :
    d.along schedule k = d.run ((List.range k).map schedule) := by
  induction k with
  | zero => rfl
  | succ k ih =>
      rw [along, ih, List.range_succ, List.map_append, run_append]
      rfl

/-- What holds of each state and its event holds throughout the first events. -/
theorem throughout_along {P : Delivery → Event → Prop} {schedule : Nat → Event}
    (h : ∀ j, P (d.along schedule j) (schedule j)) (k : Nat) :
    d.Throughout P ((List.range k).map schedule) := by
  induction k with
  | zero => trivial
  | succ k ih =>
      rw [List.range_succ, List.map_append, throughout_append, ← along_eq_run]
      exact ⟨ih, h k, trivial⟩

/-- Nothing comes in any more. -/
def AddsNothing (d : Delivery) (schedule : Nat → Event) : Prop :=
  ∀ k, (d.along schedule k).accepted (schedule k) = []

/-- As long as it is not over, somebody takes a turn that is due, sooner or later: a request is
answered or times out, the sender goes on, or the owner does. -/
def IsFair (d : Delivery) (schedule : Nat → Event) : Prop :=
  ∀ k, (d.along schedule k).stage ≠ .idle → ∃ j, k ≤ j ∧ (d.along schedule j).isDue (schedule j) = true

variable {schedule : Nat → Event}

/-- Until the end is reached there is never more work. -/
theorem along_work_le (h : d.Governed m) (hAdds : d.AddsNothing schedule) {k : Nat}
    (hEnding : (d.along schedule k).IsEnding) (n : Nat) :
    (∃ j, (d.along schedule j).stage = .idle) ∨
      ((d.along schedule (k + n)).IsEnding ∧
        (d.along schedule (k + n)).work m ≤ (d.along schedule k).work m) := by
  induction n with
  | zero => exact .inr ⟨hEnding, le_refl _⟩
  | succ n ih =>
      rcases ih with hOver | ⟨hStill, hWork⟩
      · exact .inl hOver
      · have hNow : (d.along schedule (k + n)).Governed m := by
          rw [along_eq_run]
          exact h.run _
        have hStep := step_move hNow.orderly (schedule (k + n))
        rw [groups_eq_nil (hAdds (k + n))] at hStep
        rcases hStep.work_le hNow hStill with hIdle | ⟨hNext, hLess⟩
        · exact .inl ⟨k + n + 1, hIdle⟩
        · exact .inr ⟨hNext, hLess.trans hWork⟩

/-- A delivery that is closing or stopping, and to which nothing is added, comes to rest. -/
theorem along_rests (h : d.Governed m) (hAdds : d.AddsNothing schedule) (hFair : d.IsFair schedule)
    (k : Nat) (hEnding : (d.along schedule k).IsEnding) :
    ∃ j, (d.along schedule j).stage = .idle := by
  induction hWork : (d.along schedule k).work m using WellFoundedLT.induction generalizing k with
  | ind w ih =>
      obtain ⟨j, hLater, hDue⟩ := hFair k hEnding.1
      obtain ⟨n, rfl⟩ := Nat.exists_eq_add_of_le hLater
      rcases along_work_le h hAdds hEnding n with hOver | ⟨hStill, hKept⟩
      · exact hOver
      · have hNow : (d.along schedule (k + n)).Governed m := by
          rw [along_eq_run]
          exact h.run _
        rcases due_work_lt hNow hStill hDue with hIdle | hLess
        · exact ⟨k + n + 1, hIdle⟩
        · rcases along_work_le h hAdds hEnding (n + 1) with hOver | ⟨hNext, _⟩
          · exact hOver
          · exact ih _ (hWork ▸ hLess.trans_le hKept) (k + n + 1) hNext rfl

/-- With at most `m` retries, `n` operations take at most `2 * n * (m + 1) + 2` requests, whatever the
answers are. So closing comes to its end: there is always a turn to take, and once nothing comes in and
the turns are taken, the delivery rests. If all happens in time, nothing is left by then. What
ended it before its time, if anything, is an abort. -/
theorem closing_ends_after_bounded_requests (settings : Settings) (store : Store)
    (events : List Event) (m : Nat) (hRetries : settings.maxRetries.isBelow (m + 1) = true)
    (hAttempts : ∀ op ∈ (create settings store).collect accepted events, 0 ≤ op.attempts) :
    let d := (create settings store).run events
    d.requests.length ≤
      2 * ((create settings store).collect accepted events).length * (m + 1) + 2 ∧
    (d.IsEnding → (∃ e, d.isDue e = true) ∧
      ∀ schedule : Nat → Event, d.AddsNothing schedule → d.IsFair schedule →
        ∃ k, (d.along schedule k).stage = .idle ∧ (d.along schedule k).sender = .idle ∧
          ((create settings store).Throughout InTime events →
            (∀ j, (d.along schedule j).InTime (schedule j)) → (d.along schedule k).outstanding = []) ∧
          ((d.along schedule k).fatal = none ∨
            ∃ f, (d.along schedule k).fatal = some f ∧ f.isAbort = true)) := by
  intro d
  have hGoverned : d.Governed m := (governed_create settings store hRetries).run events
  refine ⟨?_, fun hEnding => ⟨d.exists_due, fun schedule hAdds hFair => ?_⟩⟩
  · have hRequests := length_requests_le settings store events hRetries
    have hBudget := budget_le_of_attempts (m := m) hAttempts
    rw [Nat.mul_assoc]
    exact hRequests.trans (by omega)
  · obtain ⟨k, hIdle⟩ := along_rests hGoverned hAdds hFair 0 hEnding
    have hThen : (d.along schedule k).Governed m := by
      rw [along_eq_run]
      exact hGoverned.run _
    refine ⟨k, hIdle, hThen.orderly.rested hIdle, fun hBefore hAfter => ?_, ?_⟩
    · rw [along_eq_run, ← run_append] at hIdle ⊢
      exact outstanding_of_inTime settings store _
        (throughout_append.mpr ⟨hBefore, throughout_along hAfter k⟩) hIdle
    · cases hFatal : (d.along schedule k).fatal with
      | none => exact .inl rfl
      | some f => exact .inr ⟨f, rfl, hThen.fatal f hFatal⟩

/-- A delivery is closed while its only request is under way. -/
def closedEarly : List Event :=
  [.start, .add [⟨.delete, "a", none, 0⟩], .close, .take]

/-- The request is answered by nonsense. After a rest it is sent again, and that succeeds. -/
def nonsenseOnce : Nat → Event
  | 0 => .answer ⟨⟨0⟩, none⟩ (.ok .null)
  | 1 => .wake
  | 2 | 3 => .proceed
  | 4 => .take
  | 5 => reply [[]]
  | _ => .proceed

theorem closedEarly_ends :
    let settings := { Settings.initial ⟨0, []⟩ with retryBackoff := .whole 1 }
    let d := (create settings .empty).run closedEarly
    (d.along nonsenseOnce 10).requests.length = 2 ∧ d.requests.length ≤ 2 * 1 * (3 + 1) + 2 ∧
    ∃ k, (d.along nonsenseOnce k).stage = .idle ∧ (d.along nonsenseOnce k).outstanding = [] := by
  intro settings d
  have hAttempts : ∀ op ∈ (create settings .empty).collect accepted closedEarly, 0 ≤ op.attempts := by
    decide +kernel
  have hOne : ((create settings .empty).collect accepted closedEarly).length = 1 := by decide +kernel
  have hAdds : d.AddsNothing nonsenseOnce := by
    rintro (_ | _ | _ | _ | _ | _ | k) <;> rfl
  have hRested (k : Nat) : (d.along nonsenseOnce (k + 10)).stage = .idle := by
    induction k with
    | zero => decide +kernel
    | succ k ih => exact stage_proceed ih
  have hFirst : ∀ k < 10, (d.along nonsenseOnce k).isDue (nonsenseOnce k) = true ∧
      (d.along nonsenseOnce k).InTime (nonsenseOnce k) := by decide +kernel
  have hFair : d.IsFair nonsenseOnce := by
    intro k hRunning
    by_cases hLate : 10 ≤ k
    · obtain ⟨j, rfl⟩ := Nat.exists_eq_add_of_le' hLate
      exact absurd (hRested j) hRunning
    · exact ⟨k, le_refl _, (hFirst k (by omega)).1⟩
  have hInTime (k : Nat) : (d.along nonsenseOnce k).InTime (nonsenseOnce k) := by
    by_cases hLate : 10 ≤ k
    · obtain ⟨j, rfl⟩ := Nat.exists_eq_add_of_le' hLate
      intro hParting
      rw [hRested j] at hParting
      cases hParting
    · exact (hFirst k (by omega)).2
  obtain ⟨hBound, hEnds⟩ := closing_ends_after_bounded_requests settings .empty closedEarly 3
    (by decide +kernel) hAttempts
  rw [hOne] at hBound
  obtain ⟨_, hRests⟩ := hEnds ⟨by decide +kernel, by decide +kernel⟩
  obtain ⟨k, hIdle, _, hOutstanding, _⟩ := hRests nonsenseOnce hAdds hFair
  exact ⟨by decide +kernel, hBound, k, hIdle, hOutstanding (by decide +kernel) hInTime⟩

end Delivery
end Indexer
