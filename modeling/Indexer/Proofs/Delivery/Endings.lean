import Indexer.Proofs.Delivery.Accounts
import Indexer.Proofs.Delivery.Receipts

/-! How requests end, event by event. A move says that a request came to its end
and what was settled by it; here is said which event ended it, with which result,
and what exactly the delivery then does. -/
namespace Indexer

namespace Delivery

/-- A request that has come to its end. -/
structure Ending where
  now : DateTime
  batch : Batch
  /-- What became of its operations, or the fault that kept this from being known. -/
  result : Except Fault Outcome

/-- The fault that a request is said to have ended with. -/
def cause (d : Delivery) (batch : Batch) (f : Fault) : Fault :=
  if f.osKind? = some .timeout then d.timedOut batch else f

/-- What a reply says about a request. -/
def interpret (d : Delivery) (batch : Batch) : Except Fault Json → Except Fault Outcome
  | .ok raw => (Outcome.ofResponse batch raw).2.mapError (d.cause batch)
  | .error f => .error (d.cause batch f)

/-- How the request under way ends with an event, if it does. -/
def ending? (d : Delivery) (e : Event) : Option Ending :=
  match d.sender, e with
  | .sending batch, .answer now reply => some ⟨now, batch, d.interpret batch reply⟩
  | .sending batch, .expire now => some ⟨now, batch, d.interpret batch (.error (d.timedOut batch))⟩
  | _, _ => none

theorem ending?_of_other {d : Delivery} {e : Event} (h : e.isEnd = false) : d.ending? e = none := by
  unfold ending?
  split
  · cases h
  · cases h
  · rfl

theorem ending?_of_answer {d : Delivery} {batch : Batch} (h : d.inFlight = some batch)
    (now : DateTime) (reply : Except Fault Json) :
    d.ending? (.answer now reply) = some ⟨now, batch, d.interpret batch reply⟩ := by
  unfold inFlight at h
  split at h
  · next other hSender =>
      obtain rfl := Option.some.inj h
      simp only [ending?, hSender]
  · cases h

/-- What the coordinator decides when a request has ended. A fault that says nothing about the request
is not its business. -/
def resolve (d : Delivery) (x : Ending) : Decision :=
  match x.result with
  | .ok o => d.coordinator.onOutcome x.now o
  | .error f =>
    if f.isTransport then d.coordinator.onFailure x.batch f else ⟨d.coordinator, [], .error f⟩

/-- The operations that are sent again because of an event. -/
def resent (d : Delivery) (e : Event) : List Operation :=
  match d.ending? e with
  | none => []
  | some x =>
    match (d.resolve x).requeued with
    | .ok again => again
    | .error _ => []

theorem failed_eq (d : Delivery) (now : DateTime) (batch : Batch) (f : Fault) :
    d.failed batch f = d.follow true (d.resolve ⟨now, batch, .error (d.cause batch f)⟩) := by
  unfold failed
  change (if (d.cause batch f).isTransport = true then _ else d.giveUp (d.cause batch f)) = _
  unfold resolve
  dsimp only
  split
  · rfl
  · simp [follow]

theorem responded_eq (d : Delivery) (now : DateTime) (batch : Batch) (raw : Json) :
    ∃ failed n log, d.responded now batch raw =
      { d with answered := n, log := log }.follow failed
        (d.resolve ⟨now, batch, d.interpret batch (.ok raw)⟩) := by
  cases hOutcome : Outcome.ofResponse batch raw with
  | mk log outcome =>
      unfold responded
      cases outcome with
      | error f =>
          have hRead : d.interpret batch (.ok raw) = .error (d.cause batch f) := by simp [interpret, hOutcome]
          rw [hOutcome, hRead]
          exact ⟨true, d.answered, d.log ++ log, failed_eq { d with log := d.log ++ log } now batch f⟩
      | ok o =>
          have hRead : d.interpret batch (.ok raw) = .ok o := by simp [interpret, hOutcome]
          rw [hOutcome, hRead]
          exact ⟨false, d.answered + 1, d.log ++ log, rfl⟩

theorem answer_eq {d : Delivery} {batch : Batch} (hSender : d.sender = .sending batch)
    (now : DateTime) (reply : Except Fault Json) :
    ∃ failed n log, d.answer now reply =
      { d with sender := .idle, answered := n, log := log }.follow failed
        (d.resolve ⟨now, batch, d.interpret batch reply⟩) := by
  unfold answer
  rw [hSender]
  cases reply with
  | ok raw => exact responded_eq { d with sender := .idle } now batch raw
  | error f => exact ⟨true, d.answered, d.log, failed_eq { d with sender := .idle } now batch f⟩

/-- The delivery follows what was decided about the request. -/
theorem step_of_ending {d : Delivery} {e : Event} {x : Ending} (h : d.ending? e = some x) :
    d.sender = .sending x.batch ∧
      ∃ failed n log, d.step e =
        { d with sender := .idle, answered := n, log := log }.follow failed (d.resolve x) := by
  unfold ending? at h
  split at h
  · next batch now reply hSender =>
      cases h
      exact ⟨hSender, answer_eq hSender now reply⟩
  · next batch now hSender =>
      cases h
      rw [step, expire, hSender]
      exact ⟨rfl, answer_eq hSender now (.error (d.timedOut batch))⟩
  · cases h

theorem accepted_of_ending {d : Delivery} {e : Event} {x : Ending} (h : d.ending? e = some x) :
    d.accepted e = [] := by
  unfold ending? at h
  split at h <;> first | rfl | cases h

/-- A request that ended with an outcome was answered by a response. -/
theorem answer_of_ending {d : Delivery} {e : Event} {x : Ending} (h : d.ending? e = some x)
    {o : Outcome} (hResult : x.result = .ok o) :
    ∃ raw, e = .answer x.now (.ok raw) ∧ d.inFlight = some x.batch ∧
      (Outcome.ofResponse x.batch raw).2 = .ok o := by
  unfold ending? at h
  split at h
  · next batch now reply hSender =>
      cases h
      cases reply with
      | error f => cases hResult
      | ok raw =>
          refine ⟨raw, rfl, by simp [inFlight, hSender], ?_⟩
          cases hOutcome : (Outcome.ofResponse batch raw).2 with
          | error f => simp [interpret, hOutcome] at hResult
          | ok other => simpa [interpret, hOutcome] using hResult
  · cases h
    cases hResult
  · cases h

/-- What succeeded is acknowledged. -/
theorem receipts_of_ending {d : Delivery} {e : Event} {x : Ending} (h : d.ending? e = some x)
    {o : Outcome} (hResult : x.result = .ok o) :
    d.receipts e = o.succeeded.map (Receipt.mk x.now) := by
  obtain ⟨raw, rfl, hFlight, hOutcome⟩ := answer_of_ending h hResult
  simp only [receipts, hFlight, Outcome.acknowledged_eq hOutcome]

/-- Operations that are to be sent again are placed. -/
theorem placed_of_ending {d : Delivery} (hOrderly : d.Orderly) {e : Event} {x : Ending}
    (h : d.ending? e = some x) {again : List Operation}
    (hAgain : (d.resolve x).requeued = .ok again) :
    ∃ n log, Placed { d with
      sender := .idle, coordinator := (d.resolve x).coordinator, answered := n, log := log } again
      (d.step e) := by
  obtain ⟨hSender, failed, n, log, hStep⟩ := step_of_ending h
  obtain ⟨queue, hQueue⟩ := hOrderly.exists_queue (hOrderly.stage_of_busy (by simp [hSender]))
  obtain ⟨log', hPlaced⟩ := follow_ok { d with sender := .idle, answered := n, log := log } failed
    hAgain hQueue
  exact ⟨n, log', hStep ▸ hPlaced⟩

/-- The fault that a delivery is given up with. -/
def asAbort (f : Fault) : Fault := if f.isAbort then f else .senderFailed f

/-- Or the run is given up. -/
theorem givenUp_of_ending {d : Delivery} {e : Event} {x : Ending} (h : d.ending? e = some x)
    {f : Fault} (hFault : (d.resolve x).requeued = .error f) :
    ∃ n log, d.step e = { d with
      sender := .idle, coordinator := (d.resolve x).coordinator, answered := n, log := log,
      fatal := some (asAbort f) } := by
  obtain ⟨_, failed, n, log, hStep⟩ := step_of_ending h
  rw [hStep]
  unfold follow asAbort
  simp only [hFault, giveUp]
  split
  · exact ⟨n, _, rfl⟩
  · exact ⟨n, _, rfl⟩

section
variable {d : Delivery} {batch : Batch}

theorem abort_sender (d : Delivery) : d.abort.sender = d.sender := by
  unfold abort
  split
  · rfl
  · dsimp only
    split <;> rfl

theorem flushToClose_sender (d : Delivery) : d.flushToClose.sender = d.sender := by
  unfold flushToClose
  split
  · exact d.abort_sender
  · obtain ⟨_, _, hFrame⟩ := d.flushAll_frame
    rw [hFrame]

/-- Only its end, and nobody else's turn, takes a request from the sender. -/
theorem step_sender (hOrderly : d.Orderly) (hSender : d.sender = .sending batch) {e : Event}
    (hEnd : e.isEnd = false) (hWaits : e ≠ .abandon) : (d.step e).sender = d.sender := by
  cases e with
  | start =>
      have hStage := hOrderly.stage_of_busy (by simp [hSender])
      simp only [step, start, ite_self]
  | add group =>
      obtain ⟨_, _, hFrame⟩ := d.addGroup_frame group
      rw [step, hFrame]
  | flush =>
      obtain ⟨_, _, hFrame⟩ := d.flush_frame
      rw [step, hFrame]
  | flushAll =>
      obtain ⟨_, _, hFrame⟩ := d.flushAll_frame
      rw [step, hFrame]
  | tick =>
      obtain ⟨_, _, hFrame⟩ := d.tick_frame
      rw [step, hFrame]
  | take =>
      change d.take.sender = _
      unfold take
      split
      · rfl
      · next hIdle _ _ => simp [hSender] at hIdle
      · rfl
  | answer now reply => cases hEnd
  | expire now => cases hEnd
  | wake => simp only [step, wake, hSender]
  | close =>
      change d.close.sender = _
      unfold close
      split
      · exact d.flushToClose_sender
      · rfl
  | proceed =>
      change d.proceed.sender = _
      rcases d.proceed_frame with ⟨_, _, hFrame⟩ | ⟨_, hFlush⟩
      · rw [hFrame]
      · rw [hFlush, flushToClose_sender]
  | abort => exact d.abort_sender
  | abandon => exact absurd rfl hWaits

theorem sender_of_unended (hOrderly : d.Orderly) (hSender : d.sender = .sending batch) {e : Event}
    (hNone : d.ending? e = none) (hWaits : e ≠ .abandon) : (d.step e).sender = .sending batch := by
  have hEnd : e.isEnd = false := by
    cases e <;> simp_all [ending?, Event.isEnd]
  exact (step_sender hOrderly hSender hEnd hWaits).trans hSender

end

/-- The sender of a delivery that ends a request is at rest, at least from sending. -/
theorem Ends.sender_ne {d d' : Delivery} {batch : Batch} {acked : List Receipt}
    {refused : List Operation} (h : Ends d batch acked refused d') (other : Batch) :
    d'.sender ≠ .sending other := by
  cases h with
  | settle hSettled hContents hRetried hPlaced => cases hPlaced <;> simp
  | fail => simp

/-- Without the end of a request, operations are only moved about. -/
theorem step_shifts {d : Delivery} (h : d.Orderly) {e : Event} (hNone : d.ending? e = none) :
    d.receipts e = [] ∧ d.reported e = [] ∧ Shifts d (d.groups e) (d.step e) := by
  by_cases hAbandon : e = .abandon
  · subst hAbandon
    refine ⟨rfl, rfl, ?_⟩
    change Shifts d [] d.abandon
    unfold abandon
    split
    · next hStage =>
        refine ⟨rfl, rfl, d.sender.held, ?_, fun hWhole => ?_⟩
        · rw [List.flatten_nil, List.append_nil]
          exact List.perm_append_comm
        · simp [IsWhole, h.stopping hStage] at hWhole
    · exact ⟨rfl, rfl, [], by simp, fun _ => rfl⟩
  · rcases (step_move h e).shifts_or_ends h with hShifts | ⟨_, batch, hSender, hEnds⟩
    · exact hShifts
    · exact absurd (sender_of_unended h hSender hNone hAbandon) (hEnds.sender_ne batch)

/-- An outcome whose successes can be put on record ends no run, unless the coordinator gives up. -/
theorem fatal_of_ending {d : Delivery} (hOrderly : d.Orderly) {e : Event} {x : Ending}
    (h : d.ending? e = some x) {o : Outcome} (hResult : x.result = .ok o) (hNow : x.now.IsReading)
    (hBatch : o.succeeded ⊆ x.batch) (hOut : ∀ op ∈ d.outstanding, op.Writable)
    (hRequeued : ∀ committed,
      (d.coordinator.afterMalformed 0).acknowledge x.now o.succeeded = .ok committed →
        ∃ again, (d.coordinator.onOutcome x.now o).requeued = .ok again) :
    (d.step e).fatal = d.fatal := by
  obtain ⟨hSender, _⟩ := step_of_ending h
  have hSound : ∀ r ∈ o.succeeded.map (Receipt.mk x.now), r.Sound := by
    intro r hr
    obtain ⟨op, hOp, rfl⟩ := List.mem_map.mp hr
    refine ⟨hNow, hOut op ?_⟩
    rw [d.outstanding_eq, hSender]
    exact List.mem_append_left _ (hBatch hOp)
  obtain ⟨store, hStore⟩ := d.coordinator.store.foldlM_record_sound hSound
  have hCommit : ∃ committed, (d.coordinator.afterMalformed 0).acknowledge x.now o.succeeded =
      .ok committed := by
    rw [Coordinator.acknowledge_eq, Coordinator.afterMalformed_store, hStore]
    exact ⟨_, rfl⟩
  obtain ⟨committed, hCommit⟩ := hCommit
  obtain ⟨again, hAgain⟩ := hRequeued committed hCommit
  have hResolve : (d.resolve x).requeued = .ok again := by rw [resolve, hResult, hAgain]
  obtain ⟨n, log, hPlaced⟩ := placed_of_ending hOrderly h hResolve
  exact hPlaced.frame.2.2.1

/-- A run is not ended by a fault if none of its requests brings one. -/
theorem run_fatal {P : Delivery → Event → Prop}
    (hEnding : ∀ {d : Delivery} {e : Event} {x : Ending}, d.Orderly →
      (∀ op ∈ d.outstanding, op.Writable) → P d e → d.ending? e = some x → (d.step e).fatal = d.fatal)
    {d : Delivery} (hOrderly : d.Orderly) (events : List Event) (h : d.Throughout P events)
    (hOut : ∀ op ∈ d.outstanding, op.Writable)
    (hAdded : ∀ op ∈ d.collect accepted events, op.Writable) : (d.run events).fatal = d.fatal := by
  induction events generalizing d with
  | nil => rfl
  | cons e events ih =>
      obtain ⟨hNow, hLater⟩ := h
      have hStep := step_move hOrderly e
      rw [collect, ← flatten_groups] at hAdded
      obtain ⟨hOutNext, _⟩ := hStep.spreads writable_of_copy hOrderly hOut
        fun op hOp => hAdded op (List.mem_append_left _ hOp)
      have hNext : (d.step e).fatal = d.fatal := by
        cases hEnds : d.ending? e with
        | none => exact (step_shifts hOrderly hEnds).2.2.fatal
        | some x => exact hEnding hOrderly hOut hNow hEnds
      exact (ih (hOrderly.move hStep) hLater hOutNext
        fun op hOp => hAdded op (List.mem_append_right _ hOp)).trans hNext

/-- The destination cannot be reached. -/
def refuses : Event := .answer ⟨⟨0⟩, none⟩ (.error (.connection "refused"))

end Delivery
end Indexer
