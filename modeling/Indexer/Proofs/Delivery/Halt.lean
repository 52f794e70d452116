import Indexer.Proofs.Delivery.Endings

/-! What happens to a delivery once it is given up, by order or by a fault. Nothing new
is sent from then on, wherever the operations are. A request that is under way at that
moment still comes to its end like any other, as long as it is waited for. -/
namespace Indexer

/-- The state once all of the receipts are recorded, or none of them if they cannot be. -/
def Store.recordAll (s : Store) (receipts : List Receipt) : Store :=
  match receipts.foldlM record s with
  | .ok t => t
  | .error _ => s

namespace Delivery

/-- The event neither ends a request nor the wait for it. -/
def Event.isCalm : Event → Bool
  | .answer _ _ | .expire _ | .abandon => false
  | _ => true

theorem Event.other_of_calm {e : Event} (h : e.isCalm = true) : e.isEnd = false ∧ e ≠ .abandon := by
  cases e <;> first | cases h; done | exact ⟨rfl, nofun⟩

section
variable {d d' : Delivery} {added : List Batch} {acked : List Receipt} {refused : List Operation}
  {batch : Batch}

theorem inFlight_eq_some : d.inFlight = some batch ↔ d.sender = .sending batch := by
  unfold inFlight
  split
  · next other hSender => rw [hSender, Option.some.injEq, Sender.sending.injEq]
  · next hOther => exact ⟨nofun, fun hSender => absurd hSender (hOther batch)⟩

theorem inFlight_eq_none : d.inFlight = none ↔ ∀ batch, d.sender ≠ .sending batch := by
  rw [Option.eq_none_iff_forall_ne_some]
  exact forall_congr' fun batch => not_congr inFlight_eq_some

theorem ending?_of_rest (h : d.inFlight = none) (e : Event) : d.ending? e = none := by
  rw [inFlight_eq_none] at h
  unfold ending?
  split
  · next hSender => exact absurd hSender (h _)
  · next hSender => exact absurd hSender (h _)
  · rfl

/-- Only a delivery that is neither at rest nor given up makes a request. -/
theorem Move.requests_or_whole (h : Move d added acked refused d') :
    d'.requests = d.requests ∨ (d.IsWhole ∧ d.stage ≠ .idle) := by
  cases h with
  | send batch rest hStage hSender hQueue hWhole => exact .inr ⟨hWhole, hStage⟩
  | conclude batch acked refused d' hSender hEnds =>
      cases hEnds with
      | settle hSettled hContents hRetried hPlaced => exact .inl hPlaced.frame.2.1
      | fail => exact .inl rfl
  | wake ops d' hSender hPlaced hAwake => exact .inl hPlaced.frame.2.1
  | _ => exact .inl rfl

/-- Once a delivery is given up, no request is under way any more if none was. -/
theorem Move.inFlight_of_lost (h : Move d added acked refused d') (hLost : ¬d.IsWhole)
    (hRest : d.inFlight = none) : d'.inFlight = none := by
  rw [inFlight_eq_none] at hRest ⊢
  cases h with
  | send batch rest hStage hSender hQueue hWhole => exact absurd hWhole hLost
  | conclude batch acked refused d' hSender hEnds => exact absurd hSender (hRest batch)
  | wake ops d' hSender hPlaced hAwake => simp [hAwake]
  | start | abandon => exact nofun
  | _ => exact hRest

theorem run_requests_of_lost (h : d.Orderly) (hLost : ¬d.IsWhole) (events : List Event) :
    (d.run events).requests = d.requests := by
  induction events generalizing d with
  | nil => rfl
  | cons e events ih =>
      have hStep := step_move h e
      have hNow := hStep.requests_or_whole.resolve_right fun hWhole => hLost hWhole.1
      exact (ih (h.move hStep) (mt hStep.whole hLost)).trans hNow

/-- Nothing is counted or recorded any more either. -/
theorem run_coordinator_of_lost (h : d.Orderly) (hLost : ¬d.IsWhole) (hRest : d.inFlight = none)
    (events : List Event) : (d.run events).coordinator = d.coordinator := by
  induction events generalizing d with
  | nil => rfl
  | cons e events ih =>
      have hStep := step_move h e
      have hLater := ih (h.move hStep) (mt hStep.whole hLost) (hStep.inFlight_of_lost hLost hRest)
      exact hLater.trans (step_shifts h (ending?_of_rest hRest e)).2.2.coordinator

/-- Only operations of the request under way are acknowledged. -/
theorem Move.acked_le (h : Move d added acked refused d') :
    contents (acked.map (·.op)) ≤ contents d.sender.held := by
  cases h with
  | conclude batch acked refused d' hSender hEnds =>
      rw [hSender]
      cases hEnds with
      | settle hSettled hContents hRetried hPlaced =>
          rw [Sender.held, ← hContents, add_assoc]
          exact Multiset.le_add_right _ _
      | fail m n log f hAbort hContents hLost => exact hContents
  | _ => exact Multiset.zero_le _

/-- A delivery at rest stays there until it is started. -/
theorem stage_of_rest (h : d.Orderly) (hIdle : d.stage = .idle) {e : Event} (hStart : e ≠ .start) :
    (d.step e).stage = .idle := by
  have hSender := h.rested hIdle
  cases e with
  | start => exact absurd rfl hStart
  | add group =>
      obtain ⟨_, _, hFrame⟩ := d.addGroup_frame group
      rw [step, hFrame]
      exact hIdle
  | flush =>
      obtain ⟨_, _, hFrame⟩ := d.flush_frame
      rw [step, hFrame]
      exact hIdle
  | flushAll =>
      obtain ⟨_, _, hFrame⟩ := d.flushAll_frame
      rw [step, hFrame]
      exact hIdle
  | tick =>
      obtain ⟨_, _, hFrame⟩ := d.tick_frame
      rw [step, hFrame]
      exact hIdle
  | answer now reply => simp only [step, answer, hSender, hIdle]
  | expire now => simp only [step, expire, hSender, hIdle]
  | wake => simp only [step, wake, hSender, hIdle]
  | take => simp only [step, take, hIdle]
  | close => simp only [step, close, hIdle]
  | proceed => simp only [step, proceed, hIdle]
  | abort => simp only [step, abort, hIdle]
  | abandon => simp only [step, abandon, hIdle]

/-- And nothing happens in it. -/
theorem run_of_rest (h : d.Orderly) (hIdle : d.stage = .idle) {events : List Event}
    (hStart : .start ∉ events) :
    (d.run events).requests = d.requests ∧ (d.run events).coordinator = d.coordinator := by
  induction events generalizing d with
  | nil => exact ⟨rfl, rfl⟩
  | cons e events ih =>
      rw [List.mem_cons, not_or] at hStart
      have hStep := step_move h e
      have hNext := stage_of_rest h hIdle (Ne.symm hStart.1)
      have hRest : d.inFlight = none := by simp [inFlight, h.rested hIdle]
      obtain ⟨hRequests, hCoordinator⟩ := ih (h.move hStep) hNext hStart.2
      have hNow := hStep.requests_or_whole.resolve_right fun hRunning => hRunning.2 hIdle
      exact ⟨hRequests.trans hNow,
        hCoordinator.trans (step_shifts h (ending?_of_rest hRest e)).2.2.coordinator⟩

/-- As long as a request is waited for, nothing but its end counts. -/
theorem run_calm (h : d.Orderly) (hSender : d.sender = .sending batch) {events : List Event}
    (hCalm : ∀ e ∈ events, e.isCalm = true) :
    (d.run events).sender = .sending batch ∧ (d.run events).coordinator = d.coordinator ∧
      (d.run events).settings = d.settings := by
  induction events generalizing d with
  | nil => exact ⟨hSender, rfl, rfl⟩
  | cons e events ih =>
      have hStep := step_move h e
      obtain ⟨hEnd, hWaits⟩ := Event.other_of_calm (hCalm e List.mem_cons_self)
      have hStill := (step_sender h hSender hEnd hWaits).trans hSender
      obtain ⟨hLater, hCoordinator, hSettings⟩ :=
        ih (h.move hStep) hStill fun later hIn => hCalm later (List.mem_cons_of_mem e hIn)
      exact ⟨hLater, hCoordinator.trans (step_shifts h (ending?_of_other hEnd)).2.2.coordinator,
        hSettings.trans hStep.settings⟩

/-- How a request ends depends only on the request and its event. -/
theorem ending?_congr (hSender : d'.sender = d.sender) (hSettings : d'.settings = d.settings)
    (e : Event) : d'.ending? e = d.ending? e := by
  have hTimedOut : d'.timedOut = d.timedOut := by
    funext batch
    simp only [timedOut, hSettings]
  have hCause : d'.cause = d.cause := by
    funext batch f
    simp only [cause, hTimedOut]
  have hInterpret : d'.interpret = d.interpret := by
    funext batch reply
    cases reply <;> simp only [interpret, hCause]
  simp only [ending?, hSender, hTimedOut, hInterpret]

theorem resolve_congr (hCoordinator : d'.coordinator = d.coordinator) (x : Ending) :
    d'.resolve x = d.resolve x := by
  simp only [resolve, hCoordinator]

theorem exists_ending (hSender : d.sender = .sending batch) {e : Event} (hEnd : e.isEnd = true) :
    ∃ x, d.ending? e = some x ∧ x.batch = batch := by
  cases e with
  | answer now reply =>
      exact ⟨⟨now, batch, d.interpret batch reply⟩, by simp only [ending?, hSender], rfl⟩
  | expire now =>
      exact ⟨⟨now, batch, d.interpret batch (.error (d.timedOut batch))⟩,
        by simp only [ending?, hSender], rfl⟩
  | _ => cases hEnd

theorem coordinator_of_ending (h : d.Orderly) {e : Event} {x : Ending}
    (hEnds : d.ending? e = some x) :
    (d.step e).coordinator = (d.resolve x).coordinator := by
  cases hRequeued : (d.resolve x).requeued with
  | ok again =>
      obtain ⟨n, log, hPlaced⟩ := placed_of_ending h hEnds hRequeued
      exact hPlaced.frame.1
  | error f =>
      obtain ⟨n, log, hStep⟩ := givenUp_of_ending hEnds hRequeued
      rw [hStep]

theorem inFlight_of_ending (h : d.Orderly) {e : Event} {x : Ending} (hEnds : d.ending? e = some x) :
    (d.step e).inFlight = none := by
  cases hRequeued : (d.resolve x).requeued with
  | ok again =>
      obtain ⟨n, log, hPlaced⟩ := placed_of_ending h hEnds hRequeued
      generalize d.step e = next at hPlaced
      cases hPlaced <;> rfl
  | error f =>
      obtain ⟨n, log, hStep⟩ := givenUp_of_ending hEnds hRequeued
      rw [hStep]
      rfl

/-- What a step acknowledges is recorded, or a fault keeps all of it from being recorded. -/
theorem Move.recordAll (h : Move d added acked refused d') :
    d'.coordinator.store = d.coordinator.store.recordAll acked := by
  cases h with
  | conclude batch acked refused d' hSender hEnds =>
      cases hEnds with
      | settle hSettled hContents hRetried hPlaced =>
          rw [hPlaced.frame.1, Store.recordAll, hSettled.store]
      | fail m n log f hAbort hContents hLost =>
          rcases hLost with rfl | ⟨g, hError⟩
          · rfl
          · rw [Store.recordAll, hError]
            rfl
  | wake ops d' hSender hPlaced hAwake => exact congrArg _ hPlaced.frame.1
  | _ => rfl

/-- What a request comes to, however long it is waited for and whatever happens meanwhile. -/
theorem run_to_ending (h : d.Orderly) (hSender : d.sender = .sending batch) {wait : List Event}
    (hCalm : ∀ e ∈ wait, e.isCalm = true) {e : Event} {x : Ending} (hEnds : d.ending? e = some x) :
    (d.run (wait ++ [e])).coordinator = (d.resolve x).coordinator ∧
      (d.run (wait ++ [e])).inFlight = none := by
  obtain ⟨hStill, hCoordinator, hSettings⟩ := run_calm h hSender hCalm
  have hStillEnds : (d.run wait).ending? e = some x :=
    (ending?_congr (hStill.trans hSender.symm) hSettings e).trans hEnds
  rw [run_append, ← resolve_congr hCoordinator]
  exact ⟨coordinator_of_ending (h.run wait) hStillEnds, inFlight_of_ending (h.run wait) hStillEnds⟩

theorem abort_running (hStage : d.stage ≠ .idle) :
    ¬d.abort.IsWhole ∧ d.abort.sender = d.sender ∧ d.abort.coordinator = d.coordinator ∧
      d.abort.requests = d.requests ∧ d.abort.stage = .stopping ∧ d.abort.settings = d.settings := by
  unfold abort
  split
  · exact absurd ‹_› hStage
  · dsimp only
    split <;> exact ⟨fun hWhole => by simp [IsWhole] at hWhole, rfl, rfl, rfl, rfl, rfl⟩

/-- After an order to give up nothing is sent, and a delivery without a request takes in nothing. -/
theorem run_abort (h : d.Orderly) (hStage : d.stage ≠ .idle) (after : List Event) :
    (d.run (.abort :: after)).requests = d.requests ∧
      (d.inFlight = none → (d.run (.abort :: after)).coordinator = d.coordinator) := by
  have hAborted : d.abort.Orderly := h.move (step_move h .abort)
  obtain ⟨hLost, hSender, hCoordinator, hRequests, _⟩ := abort_running hStage
  refine ⟨(run_requests_of_lost hAborted hLost after).trans hRequests, fun hQuiet => ?_⟩
  have hStill : d.abort.inFlight = none := by
    rw [inFlight_eq_none] at hQuiet ⊢
    rwa [hSender]
  exact (run_coordinator_of_lost hAborted hLost hStill after).trans hCoordinator

/-- A request that is under way then, and waited for, comes to what it would have come to. -/
theorem run_abort_to_ending (h : d.Orderly) (hSender : d.sender = .sending batch)
    {wait : List Event} (hCalm : ∀ e ∈ wait, e.isCalm = true) {e : Event} {x : Ending}
    (hEnds : d.ending? e = some x) (later : List Event) :
    (d.run (.abort :: (wait ++ e :: later))).coordinator = (d.resolve x).coordinator := by
  have hAborted : d.abort.Orderly := h.move (step_move h .abort)
  obtain ⟨hLost, hSame, hCoordinator, _, _, hSettings⟩ :=
    abort_running (h.stage_of_busy (by simp [hSender]))
  have hEndsAborted := (ending?_congr hSame hSettings e).trans hEnds
  obtain ⟨hTaken, hQuiet⟩ := run_to_ending hAborted (hSame.trans hSender) hCalm hEndsAborted
  calc (d.run (.abort :: (wait ++ e :: later))).coordinator
      = ((d.abort.run (wait ++ [e])).run later).coordinator := by
        rw [← run_append d.abort, List.append_assoc]
        rfl
    _ = (d.abort.run (wait ++ [e])).coordinator :=
        run_coordinator_of_lost (hAborted.run _) (mt (run_whole hAborted _) hLost) hQuiet later
    _ = (d.resolve x).coordinator := by rw [hTaken, resolve_congr hCoordinator]

/-- The wait for the sender of a delivery that is given up lasts as long as the request does. -/
theorem Move.stopping (h : Move d added acked refused d') (hStage : d.stage = .stopping)
    (hSender : d.sender = .sending batch) (hStill : d'.sender = .sending batch) :
    d'.stage = .stopping := by
  cases h with
  | stay | send | discard => exact hStage
  | start hIdle => simp [hStage] at hIdle
  | arrange added s queue batches b hNext =>
      rcases hNext with rfl | ⟨_, hOpen | ⟨hOpen, _⟩⟩
      · exact hStage
      · simp [hStage] at hOpen
      · simp [hStage] at hOpen
  | conclude batch acked refused d' hSender hEnds => exact absurd hStill (hEnds.sender_ne _)
  | wake ops d' hPausing => simp [hSender] at hPausing
  | abort => rfl
  | join hOpen | leave hOpen | mark hOpen => simp [hStage] at hOpen
  | finish _ hIdle => simp [hSender] at hIdle
  | abandon => cases hStill

theorem run_stopping (h : d.Orderly) (hStage : d.stage = .stopping)
    (hSender : d.sender = .sending batch) {events : List Event}
    (hCalm : ∀ e ∈ events, e.isCalm = true) : (d.run events).stage = .stopping := by
  induction events generalizing d with
  | nil => exact hStage
  | cons e events ih =>
      have hStep := step_move h e
      obtain ⟨hEnd, hWaits⟩ := Event.other_of_calm (hCalm e List.mem_cons_self)
      have hStill := (step_sender h hSender hEnd hWaits).trans hSender
      exact ih (h.move hStep) (hStep.stopping hStage hSender hStill) hStill
        fun later hIn => hCalm later (List.mem_cons_of_mem e hIn)

end

/-- If nobody waits for it any longer, the request comes to nothing: what the destination
did with it is neither recorded nor counted. -/
theorem abandoned_request_comes_to_nothing (settings : Settings) (store : Store)
    (before : List Event) :
    let d := (create settings store).run before
    ∀ batch, d.inFlight = some batch → ∀ wait later, (∀ e ∈ wait, e.isCalm = true) →
      (d.run (.abort :: (wait ++ .abandon :: later))).coordinator = d.coordinator := by
  intro d batch hFlight wait later hCalm
  have hOrderly : d.Orderly := (orderly_create settings store).run before
  rw [inFlight_eq_some] at hFlight
  obtain ⟨hLost, hSender, hCoordinator, _, hStage, _⟩ :=
    abort_running (hOrderly.stage_of_busy (by simp [hFlight]))
  have hAborted : d.abort.Orderly := hOrderly.move (step_move hOrderly .abort)
  have hSending : d.abort.sender = .sending batch := hSender.trans hFlight
  obtain ⟨_, hWaited, _⟩ := run_calm hAborted hSending hCalm
  have hStopping := run_stopping hAborted hStage hSending hCalm
  have hAbandoned : (d.abort.run wait).step .abandon =
      { d.abort.run wait with stage := .idle, sender := .idle } := by
    simp only [step, abandon, hStopping]
  have hNext := (hAborted.run wait).move (step_move (hAborted.run wait) .abandon)
  have hLostNext : ¬((d.abort.run wait).step .abandon).IsWhole :=
    mt (step_move (hAborted.run wait) .abandon).whole (mt (run_whole hAborted wait) hLost)
  calc (d.run (.abort :: (wait ++ .abandon :: later))).coordinator
      = (((d.abort.run wait).step .abandon).run later).coordinator := by
        rw [run, List.foldl_cons, List.foldl_append]
        rfl
    _ = ((d.abort.run wait).step .abandon).coordinator :=
        run_coordinator_of_lost hNext hLostNext (by simp [hAbandoned, inFlight]) later
    _ = (d.abort.run wait).coordinator := by rw [hAbandoned]
    _ = d.coordinator := hWaited.trans hCoordinator

/-- Once a delivery is given up nothing new is sent, and nothing of what waits is recorded
or counted. The request under way at an order to give up is taken in as if there had been
no order, provided that it is waited for: whatever happens meanwhile, it comes to the same,
and nothing comes after it. -/
theorem nothing_new_once_given_up (settings : Settings) (store : Store) (before : List Event) :
    let d := (create settings store).run before
    (d.fatal ≠ none → ∀ after,
      (d.run after).requests = d.requests ∧ (d.run after).coordinator = d.coordinator) ∧
    (∀ after, (d.stage = .idle → .start ∉ after) →
      (d.run (.abort :: after)).requests = d.requests ∧
      (d.inFlight = none → (d.run (.abort :: after)).coordinator = d.coordinator)) ∧
    ∀ batch, d.inFlight = some batch →
      ∀ wait calm, (∀ e ∈ wait, e.isCalm = true) → (∀ e ∈ calm, e.isCalm = true) →
        (d.run (.abort :: wait)).inFlight = some batch ∧
        (d.run (.abort :: wait)).coordinator = d.coordinator ∧
        ∀ e later, e.isEnd = true →
          let halted := d.run (.abort :: (wait ++ e :: later))
          halted.coordinator = (d.run (calm ++ [e])).coordinator ∧
          halted.coordinator.store = d.coordinator.store.recordAll (d.receipts e) ∧
          contents (d.acknowledged e) ≤ contents batch := by
  intro d
  have hOrderly : d.Orderly := (orderly_create settings store).run before
  have hFilled : d.Filled := (filled_create settings store).run (orderly_create settings store) before
  have hAborted : d.abort.Orderly := hOrderly.move (step_move hOrderly .abort)
  refine ⟨fun hFatal after => ?_, fun after hRest => ?_, fun batch hFlight wait calm hWait hCalm => ?_⟩
  case refine_1 =>
    have hLost : ¬d.IsWhole := fun hWhole => hFatal hWhole.1
    have hQuiet : d.inFlight = none :=
      inFlight_eq_none.mpr fun batch hSender => hFatal (hFilled.underWay batch hSender).2
    exact ⟨run_requests_of_lost hOrderly hLost after,
      run_coordinator_of_lost hOrderly hLost hQuiet after⟩
  case refine_2 =>
    by_cases hStage : d.stage = .idle
    · have hStart : .start ∉ .abort :: after := fun hIn =>
        (List.mem_cons.mp hIn).elim nofun (hRest hStage)
      obtain ⟨hRequests, hCoordinator⟩ := run_of_rest hOrderly hStage hStart
      exact ⟨hRequests, fun _ => hCoordinator⟩
    · exact run_abort hOrderly hStage after
  case refine_3 =>
    have hSending := inFlight_eq_some.mp hFlight
    obtain ⟨_, hSender, hCoordinator, _⟩ :=
      abort_running (hOrderly.stage_of_busy (by simp [hSending]))
    obtain ⟨hWaited, hSame, _⟩ := run_calm hAborted (hSender.trans hSending) hWait
    refine ⟨inFlight_eq_some.mpr hWaited, hSame.trans hCoordinator, fun e later hEnd => ?_⟩
    obtain ⟨x, hEnds, _⟩ := exists_ending hSending hEnd
    have hHalted := run_abort_to_ending hOrderly hSending hWait hEnds later
    have hStep := step_move hOrderly e
    refine ⟨hHalted.trans (run_to_ending hOrderly hSending hCalm hEnds).1.symm, ?_, ?_⟩
    · rw [hHalted, ← coordinator_of_ending hOrderly hEnds, hStep.recordAll]
    · have hAcked := hStep.acked_le
      rwa [hSending] at hAcked

/-- The credentials are not accepted. -/
def rejected : Event := .answer ⟨⟨0⟩, none⟩ (.error (.credentials (.whole 401) "rejected"))

/-- The request is answered after the order to give up: the first operation is recorded, and
the second, which was turned away, is not sent again. Or the credentials are not accepted,
and a delivery that was told to close makes no request any more. -/
theorem turnedAwayOnce_given_up :
    let start := create (.initial ⟨0, []⟩) .empty
    let d := start.run (turnedAwayOnce.take 4)
    let lost := start.run (turnedAwayOnce.take 4 ++ [rejected])
    let after := turnedAwayOnce.drop 5
    let halted := d.run (.abort :: turnedAwayOnce[4] :: after)
    halted.requests = d.requests ∧
    halted.coordinator = (d.run [turnedAwayOnce[4]]).coordinator ∧
    halted.coordinator.store.rows.map (·.path) = ["/r/a"] ∧
    (lost.run (.flush :: after)).requests = lost.requests := by
  intro start d lost after halted
  obtain ⟨_, hSent, hTaken⟩ :=
    nothing_new_once_given_up (.initial ⟨0, []⟩) .empty (turnedAwayOnce.take 4)
  obtain ⟨hLost, _⟩ :=
    nothing_new_once_given_up (.initial ⟨0, []⟩) .empty (turnedAwayOnce.take 4 ++ [rejected])
  have hFatal : lost.fatal.isSome = true := by decide +kernel
  have hBatch : d.inFlight.isSome = true := by decide +kernel
  obtain ⟨batch, hFlight⟩ := Option.isSome_iff_exists.mp hBatch
  have hRunning : d.stage = .idle → .start ∉ turnedAwayOnce.drop 4 := fun hIdle => by
    have hStage : d.stage = .closing := by decide +kernel
    simp [hStage] at hIdle
  obtain ⟨_, _, hEnds⟩ := hTaken batch hFlight [] [] nofun nofun
  exact ⟨(hSent _ hRunning).1, (hEnds turnedAwayOnce[4] after rfl).1, by decide +kernel,
    (hLost (Option.isSome_iff_ne_none.mp hFatal) _).1⟩

/-- The same answer, if nobody waits for it: the first operation is not recorded. -/
theorem turnedAwayOnce_abandoned :
    let d := (create (.initial ⟨0, []⟩) .empty).run (turnedAwayOnce.take 4)
    ¬∀ wait e, (∀ w ∈ wait, w.isEnd = false) → e.isEnd = true →
      (d.run (.abort :: (wait ++ [e]))).coordinator = (d.run [e]).coordinator := by
  intro d hSame
  have hAnswered := hSame [.abandon] turnedAwayOnce[4] (by decide +kernel) (by decide +kernel)
  have hPaths := congrArg (fun c => c.store.rows.map (·.path)) hAnswered
  revert hPaths
  decide +kernel

end Delivery
end Indexer
