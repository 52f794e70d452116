import Indexer.Proofs.Delivery.Move

/-! Each step of a delivery is a move, and every state of a run is orderly. -/
namespace Indexer

theorem settled_of_failure {c : Coordinator} (n : Nat) (again : List Operation) :
    Settled c [] [] again ((c.afterMalformed n).countRetries again) where
  store := rfl
  indexed := by simp [Coordinator.countRetries]
  deleted := by simp [Coordinator.countRetries]
  retried := rfl
  reports := by simp [Coordinator.countRetries]
  maxRetries := rfl

theorem settled_of_outcome {c committed : Coordinator} {now : DateTime} {o : Outcome}
    (h : (c.afterMalformed 0).acknowledge now o.succeeded = .ok committed) (again : List Operation) :
    Settled c (o.succeeded.map (Receipt.mk now)) (c.refused o.failed) again
      ((committed.report (o.failed.filterMap c.report?)).countRetries again) := by
  rw [Coordinator.acknowledge_eq] at h
  cases hStore : (o.succeeded.map (Receipt.mk now)).foldlM Store.record c.store with
  | error f => simp [hStore, Except.map] at h
  | ok store =>
      simp only [Coordinator.afterMalformed_store, hStore, Except.map, Except.ok.injEq] at h
      subst h
      refine ⟨hStore, by rw [Receipt.ops_map]; rfl, by rw [Receipt.ops_map]; rfl, rfl, ?_, rfl⟩
      rw [← Coordinator.reports_refused, ← List.map_append]
      rfl

theorem Coordinator.acknowledge_malformed {c committed : Coordinator} {now : DateTime}
    {ops : List Operation} {n : Nat} (h : (c.afterMalformed n).acknowledge now ops = .ok committed) :
    committed.malformed = n := by
  rw [acknowledge_eq] at h
  cases hStore : (ops.map (Receipt.mk now)).foldlM Store.record c.store with
  | error f => simp [hStore, Except.map] at h
  | ok store =>
      simp only [afterMalformed_store, hStore, Except.map, Except.ok.injEq] at h
      rw [← h]
      rfl

theorem record_error_of_acknowledge {c : Coordinator} {now : DateTime} {ops : List Operation}
    {f : Fault} (h : (c.afterMalformed 0).acknowledge now ops = .error f) :
    ∃ g, (ops.map (Receipt.mk now)).foldlM Store.record c.store = .error g := by
  rw [Coordinator.acknowledge_eq] at h
  cases hStore : (ops.map (Receipt.mk now)).foldlM Store.record c.store with
  | error g => exact ⟨g, rfl⟩
  | ok store => simp [hStore, Except.map] at h

namespace Delivery

theorem enqueue_eq {d : Delivery} {queue : List Batch} (h : d.queue = some queue)
    (cut : List Batch × Buffer) :
    d.enqueue cut = ({ d with buffer := cut.2, queue := some (queue ++ cut.1) }, .ok ()) := by
  obtain ⟨batches, b⟩ := cut
  unfold enqueue
  cases batches with
  | nil => simp [← h]
  | cons batch batches => simp [h]

section
variable (d : Delivery)

/-- Handing batches to the queue touches nothing but the buffer and the queue. -/
theorem enqueue_frame (cut : List Batch × Buffer) :
    ∃ b queue, (d.enqueue cut).1 = { d with buffer := b, queue := queue } := by
  unfold enqueue
  split
  · exact ⟨_, _, rfl⟩
  · exact ⟨_, _, rfl⟩
  · split <;> exact ⟨_, _, rfl⟩

theorem flush_frame : ∃ b queue, d.flush.1 = { d with buffer := b, queue := queue } := by
  unfold flush
  split
  · exact ⟨_, _, rfl⟩
  · exact d.enqueue_frame _

theorem flushAll_frame : ∃ b queue, d.flushAll.1 = { d with buffer := b, queue := queue } :=
  d.enqueue_frame _

theorem addGroup_frame (group : Batch) :
    ∃ b queue, (d.addGroup group).1 = { d with buffer := b, queue := queue } := by
  unfold addGroup
  split
  · exact ⟨_, _, rfl⟩
  · split
    · exact ⟨_, _, rfl⟩
    · split
      · exact ⟨_, _, rfl⟩
      · exact d.enqueue_frame _

theorem tick_frame : ∃ b queue, d.tick = { d with buffer := b, queue := queue } := by
  unfold tick
  split
  · exact d.flushAll_frame
  · exact ⟨_, _, rfl⟩

theorem requeue_frame (ops : List Operation) :
    ∃ b queue log, (d.requeue ops).1 = { d with buffer := b, queue := queue, log := log } := by
  unfold requeue
  split
  · exact ⟨_, _, _, rfl⟩
  · split
    · exact ⟨_, _, _, rfl⟩
    · obtain ⟨b, queue, hEnqueue⟩ := { d with buffer := d.buffer.pushFront ops : Delivery }.enqueue_frame
        ((d.buffer.pushFront ops).cutWhileFull d.limit)
      exact ⟨b, queue, d.log, hEnqueue⟩

theorem requeue_sender (ops : List Operation) : (d.requeue ops).1.sender = d.sender := by
  obtain ⟨_, _, _, hFrame⟩ := d.requeue_frame ops
  rw [hFrame]

end

/-- Flushing changes nothing but where the batches are cut. -/
theorem flush_eq {d : Delivery} {queue : List Batch} (h : d.queue = some queue) :
    ∃ batches b, d.flush.1 = { d with buffer := b, queue := some (queue ++ batches) } ∧
      d.buffer.Packs d.limit [] batches b := by
  unfold flush
  cases hCut : d.buffer.cut d.limit with
  | none => exact ⟨[], d.buffer, by simp [← h], .done d.buffer⟩
  | some cut => exact ⟨[cut.1], cut.2, by simp [enqueue_eq h], .cut hCut (.done cut.2)⟩

theorem flushAll_eq {d : Delivery} {queue : List Batch} (h : d.queue = some queue) :
    ∃ batches b, d.flushAll.1 = { d with buffer := b, queue := some (queue ++ batches) } ∧
      d.buffer.Packs d.limit [] batches b ∧ b.groups = [] := by
  refine ⟨_, _, ?_, Buffer.packs_cutAll d.limit d.buffer, Buffer.groups_cutAll d.limit d.buffer⟩
  simp [flushAll, enqueue_eq h]

theorem Orderly.exists_queue {d : Delivery} (h : d.Orderly) (hStage : d.stage ≠ .idle) :
    ∃ queue, d.queue = some queue := Option.isSome_iff_exists.mp (h.queue hStage)

theorem requeue_placed {d : Delivery} {ops : List Operation} {queue : List Batch}
    (h : d.queue = some queue) : Placed d ops (d.requeue ops).1 := by
  unfold requeue
  split
  · next hNone => exact .none (List.isEmpty_iff.mp hNone)
  · split
    · next hAborting => exact .dropped _ hAborting
    · next hAborting =>
        have hEnqueue := enqueue_eq (d := { d with buffer := d.buffer.pushFront ops }) h
          ((d.buffer.pushFront ops).cutWhileFull d.limit)
        simp only [hEnqueue]
        exact .front queue _ _ h (Buffer.packs_cutWhileFull _ _) (by simpa using hAborting)

theorem giveUp_eq (d : Delivery) (f : Fault) :
    ∃ g log, g.isAbort = true ∧ d.giveUp f = { d with fatal := some g, log := log } := by
  unfold giveUp
  split
  · next hAbort => exact ⟨f, d.log, hAbort, rfl⟩
  · exact ⟨_, _, rfl, rfl⟩

theorem follow_error (d : Delivery) (batchFailed : Bool) {decision : Decision} {f : Fault}
    (h : decision.requeued = .error f) :
    ∃ g log, g.isAbort = true ∧ d.follow batchFailed decision =
      { d with coordinator := decision.coordinator, fatal := some g, log := log } := by
  unfold follow
  simp only [h]
  exact giveUp_eq { d with coordinator := decision.coordinator, log := d.log ++ decision.log } f

theorem follow_ok (d : Delivery) (batchFailed : Bool) {decision : Decision}
    {again : List Operation} {queue : List Batch} (h : decision.requeued = .ok again)
    (hQueue : d.queue = some queue) :
    ∃ log, Placed { d with coordinator := decision.coordinator, log := log } again
      (d.follow batchFailed decision) := by
  unfold follow
  refine ⟨d.log ++ decision.log, ?_⟩
  simp only [h]
  cases again with
  | nil => exact .none rfl
  | cons op rest =>
      simp only
      split
      · next hAborting => exact .dropped (d.log ++ decision.log) hAborting
      · next hAborting =>
          split
          · exact .rest (by simpa using hAborting)
          · exact requeue_placed hQueue

/-- A request without a usable outcome is sent again as a whole, or ends the run. -/
theorem failed_ends {d : Delivery} {queue : List Batch} (hQueue : d.queue = some queue)
    (batch : Batch) (log : List LogRecord) (f : Fault) :
    Ends d batch [] [] ({ d with sender := .idle, log := log }.failed batch f) := by
  unfold failed
  generalize (if f.osKind? = some .timeout then _ else f) = cause
  dsimp only
  split
  · cases hDecision : (d.coordinator.onFailure batch cause).requeued with
    | error g =>
        obtain ⟨m, hCoordinator⟩ := Coordinator.onFailure_error hDecision
        obtain ⟨g, log', hAbort, hFollow⟩ :=
          follow_error { d with sender := .idle, log := log } true hDecision
        rw [hFollow, hCoordinator]
        exact .fail m d.answered log' g hAbort (Multiset.zero_le _) (.inl rfl)
    | ok again =>
        obtain ⟨rfl, m, hCoordinator, hWhy⟩ := Coordinator.onFailure_ok hDecision
        obtain ⟨log', hPlaced⟩ :=
          follow_ok { d with sender := .idle, log := log } true hDecision hQueue
        rw [hCoordinator] at hPlaced
        refine .settle (settled_of_failure m _) ?_ ?_ hPlaced
        · rw [contents_map_again]
          simp
        · rcases hWhy with ⟨hFirst, rfl⟩ | ⟨hRetry, rfl⟩
          · exact .malformed _ hFirst rfl
          · exact .unreached _ (List.all_eq_true.mp hRetry) rfl
  · obtain ⟨g, log', hAbort, hGivenUp⟩ := giveUp_eq { d with sender := .idle, log := log } cause
    rw [hGivenUp]
    exact .fail d.coordinator.malformed d.answered log' g hAbort (Multiset.zero_le _) (.inl rfl)

/-- A response settles a request, or ends the run. -/
theorem responded_ends {d : Delivery} {queue : List Batch} (hQueue : d.queue = some queue)
    {batch : Batch} (hSender : d.sender = .sending batch) (now : DateTime) (raw : Json) :
    Ends d batch (d.receipts (.answer now (.ok raw))) (d.reported (.answer now (.ok raw)))
      ({ d with sender := .idle }.responded now batch raw) := by
  have hFlight : d.inFlight = some batch := by simp [inFlight, hSender]
  unfold responded
  simp only [receipts, reported, hFlight]
  cases hOutcome : Outcome.ofResponse batch raw with
  | mk remarks outcome =>
      cases outcome with
      | error f =>
          rw [Outcome.acknowledged_of_error (by rw [hOutcome])]
          exact failed_ends hQueue batch (d.log ++ remarks) f
      | ok o =>
          have hOk : (Outcome.ofResponse batch raw).2 = .ok o := by rw [hOutcome]
          rw [Outcome.acknowledged_eq hOk]
          have hSides := Outcome.contents_sides hOk
          dsimp only
          cases hDecision : (d.coordinator.onOutcome now o).requeued with
          | error g =>
              obtain ⟨hCoordinator, hLost⟩ := Coordinator.onOutcome_error hDecision
              obtain ⟨g, log, hAbort, hFollow⟩ := follow_error { d with
                sender := .idle, answered := d.answered + 1, log := d.log ++ remarks } false hDecision
              rw [hFollow, hCoordinator]
              refine .fail 0 _ log g hAbort ?_ ?_
              · rw [Receipt.ops_map, ← hSides]
                exact Multiset.le_add_right _ _
              · exact hLost.imp (fun hNone => by rw [hNone, List.map_nil]) record_error_of_acknowledge
          | ok again =>
              obtain ⟨rfl, committed, hCommit, hCoordinator⟩ := Coordinator.onOutcome_ok hDecision
              obtain ⟨log, hPlaced⟩ := follow_ok { d with
                sender := .idle, answered := d.answered + 1, log := d.log ++ remarks } false
                hDecision hQueue
              rw [hCoordinator] at hPlaced
              refine .settle (settled_of_outcome hCommit _) ?_ ?_ hPlaced
              · rw [Receipt.ops_map, add_assoc, add_comm (contents (d.coordinator.refused _)),
                  Coordinator.contents_resent_refused, hSides]
              · obtain ⟨tried, hTried, hRetry, hAgain⟩ := d.coordinator.exists_of_resent o.failed
                rw [hAgain]
                have hReset : committed.malformed = 0 := Coordinator.acknowledge_malformed hCommit
                exact .answered tried _ (hTried.trans (Outcome.failed_sublist hOk)) hRetry hReset

/-- A request under way comes to its end with the answer. -/
theorem answer_ends {d : Delivery} (h : d.Orderly) {batch : Batch}
    (hSender : d.sender = .sending batch) (now : DateTime) (reply : Except Fault Json) :
    Ends d batch (d.receipts (.answer now reply)) (d.reported (.answer now reply))
      (d.answer now reply) := by
  obtain ⟨queue, hQueue⟩ := h.exists_queue (h.stage_of_busy (by simp [hSender]))
  rw [answer, hSender]
  cases reply with
  | ok raw => exact responded_ends hQueue hSender now raw
  | error f => exact failed_ends hQueue batch d.log f

theorem answer_move {d : Delivery} (h : d.Orderly) (now : DateTime) (reply : Except Fault Json) :
    Move d [] (d.receipts (.answer now reply)) (d.reported (.answer now reply))
      (d.answer now reply) := by
  cases hSender : d.sender with
  | sending batch => exact .conclude batch _ _ _ hSender (answer_ends h hSender now reply)
  | idle | pausing ops =>
      have hFlight : d.inFlight = none := by simp [inFlight, hSender]
      rw [answer, hSender]
      cases reply with
      | ok raw =>
          simp only [receipts, reported, hFlight]
          exact .stay
      | error f => exact .stay

theorem expire_move {d : Delivery} (h : d.Orderly) (now : DateTime) :
    Move d [] [] [] (d.expire now) := by
  unfold expire
  split
  · exact answer_move h now (.error _)
  · exact .stay

theorem take_move (d : Delivery) : Move d [] [] [] d.take := by
  unfold take
  split
  · exact .stay
  · next batch rest hSender hQueue hStage =>
      split
      · exact .stay
      · split
        · next hLost =>
            refine .discard batch rest hStage hQueue fun hWhole => ?_
            simp [hWhole.1, hWhole.2] at hLost
        · next hWhole =>
            refine .send batch rest hStage hSender hQueue ?_
            simpa [IsWhole] using hWhole
  · exact .stay

theorem wake_move {d : Delivery} (h : d.Orderly) : Move d [] [] [] d.wake := by
  unfold wake
  split
  · next ops hSender =>
      obtain ⟨queue, hQueue⟩ := h.exists_queue (h.stage_of_busy (by simp [hSender]))
      exact .wake ops _ hSender (requeue_placed hQueue) (requeue_sender _ ops)
  · exact .stay

theorem abort_move (d : Delivery) : Move d [] [] [] d.abort := by
  unfold abort
  split
  · exact .stay
  · next hStage =>
      dsimp only
      split
      · exact .abort d.log hStage
      · exact .abort _ hStage

theorem flush_of_empty {d : Delivery} (h : d.buffer.groups = []) : d.flush.1 = d := by
  rw [flush, Buffer.cut_eq_none_iff.mpr h]

theorem flushAll_of_empty {d : Delivery} (h : d.buffer.groups = []) : d.flushAll.1 = d := by
  simp only [flushAll, Buffer.cutAll_of_empty h]
  rfl

theorem flush_move {d : Delivery} (h : d.Orderly) : Move d [] [] [] d.flush.1 := by
  cases hQueue : d.queue with
  | none =>
      rw [flush_of_empty (h.unopened hQueue)]
      exact .stay
  | some queue =>
      obtain ⟨batches, b, hFlush, hPacks⟩ := flush_eq hQueue
      rw [hFlush]
      exact .arrange [] d.stage queue batches b (.inl rfl) hQueue hPacks fun _ => rfl

theorem flushAll_move {d : Delivery} (h : d.Orderly) : Move d [] [] [] d.flushAll.1 := by
  cases hQueue : d.queue with
  | none =>
      rw [flushAll_of_empty (h.unopened hQueue)]
      exact .stay
  | some queue =>
      obtain ⟨batches, b, hFlush, hPacks, _⟩ := flushAll_eq hQueue
      rw [hFlush]
      exact .arrange [] d.stage queue batches b (.inl rfl) hQueue hPacks fun _ => rfl

theorem flushToClose_move {d : Delivery} (h : d.Orderly)
    (hStage : d.stage = .running ∨ d.stage = .joined)
    (hBuffer : d.stage = .joined → d.fatal = none → d.buffer.groups ≠ []) :
    Move d [] [] [] d.flushToClose := by
  unfold flushToClose
  split
  · exact abort_move d
  · next hFatal =>
      obtain ⟨queue, hQueue⟩ := h.exists_queue (by rcases hStage with h | h <;> simp [h])
      obtain ⟨batches, b, hFlush, hPacks, hEmpty⟩ := flushAll_eq hQueue
      rw [hFlush]
      refine .arrange [] .closing queue batches b (.inr ⟨rfl, ?_⟩) hQueue hPacks fun _ => rfl
      exact hStage.imp_right fun hJoined => ⟨hJoined, hBuffer hJoined hFatal, hEmpty⟩

theorem close_move {d : Delivery} (h : d.Orderly) : Move d [] [] [] d.close := by
  unfold close
  split
  · next hStage => exact flushToClose_move h (.inl hStage) (by simp [hStage])
  · exact .stay

/-- Until the stop mark is in the queue, the sender is going to take all of it. -/
theorem ahead_eq {d : Delivery} (h : d.stage ≠ .sealed) : d.ahead = d.queue.getD [] := by
  unfold ahead
  split
  · exact absurd ‹_› h
  · rfl

/-- A delivery that is drained keeps the sender at rest, with nothing to take. -/
theorem isDrained_iff {d : Delivery} : d.isDrained = true ↔ d.sender = .idle ∧ d.ahead = [] := by
  unfold isDrained
  split <;> simp_all

theorem take_frame (d : Delivery) :
    ∃ queue m s r, d.take = { d with queue := queue, mark := m, sender := s, requests := r } := by
  unfold take
  split
  · exact ⟨_, _, _, _, rfl⟩
  · split
    · exact ⟨_, _, _, _, rfl⟩
    · split <;> exact ⟨_, _, _, _, rfl⟩
  · exact ⟨_, _, _, _, rfl⟩

/-- Closing goes on in the stage only, unless the buffer is flushed once more. -/
theorem proceed_frame (d : Delivery) :
    (∃ s m, d.proceed = { d with stage := s, mark := m }) ∨
      (d.stage = .joined ∧ d.proceed = d.flushToClose) := by
  unfold proceed
  split
  · split <;> exact .inl ⟨_, _, rfl⟩
  · next hStage =>
      unfold look
      split
      · exact .inl ⟨_, _, rfl⟩
      · exact .inr ⟨hStage, rfl⟩
  · exact .inl ⟨_, _, rfl⟩
  · split <;> exact .inl ⟨_, _, rfl⟩
  · split <;> exact .inl ⟨_, _, rfl⟩
  · exact .inl ⟨_, _, rfl⟩
  · exact .inl ⟨_, _, rfl⟩

theorem look_move {d : Delivery} (h : d.Orderly) (hStage : d.stage = .joined) :
    Move d [] [] [] d.look := by
  unfold look
  split
  · next hDone =>
      obtain ⟨hFatal, hBuffer⟩ : d.fatal = none ∧ d.buffer.groups = [] := by simpa using hDone
      exact .leave hStage hFatal hBuffer
  · next hMore =>
      refine flushToClose_move h (.inr hStage) fun _ hFatal => ?_
      simpa [hFatal] using hMore

theorem proceed_move {d : Delivery} (h : d.Orderly) : Move d [] [] [] d.proceed := by
  unfold proceed
  split
  · next hStage =>
      split
      · next hDrained =>
          obtain ⟨hSender, hAhead⟩ := isDrained_iff.mp hDrained
          exact .join hStage hSender ((ahead_eq (by simp [hStage])).symm.trans hAhead)
      · exact .stay
  · next hStage => exact look_move h hStage
  · next hStage => exact .mark hStage
  · next hStage =>
      split
      · next hDrained =>
          obtain ⟨hSender, hAhead⟩ := isDrained_iff.mp hDrained
          exact .finish (.inl hStage) hSender hAhead
      · exact .stay
  · next hStage =>
      split
      · next hDrained =>
          obtain ⟨hSender, hAhead⟩ := isDrained_iff.mp hDrained
          exact .finish (.inr hStage) hSender hAhead
      · exact .stay
  · exact .stay
  · exact .stay

theorem addGroup_move {d : Delivery} (h : d.Orderly) (group : Batch) :
    Move d (d.groups (.add group)) [] [] (d.addGroup group).1 := by
  unfold groups
  cases hFatal : d.fatal with
  | some f =>
      simp only [addGroup, hFatal]
      exact .stay
  | none =>
      by_cases hIdle : (d.stage = .idle || d.aborting) = true
      · simp only [addGroup, hFatal, if_pos hIdle]
        exact .stay
      · simp only [addGroup, hFatal, if_neg hIdle]
        have hOpen : ¬(d.stage = .idle ∨ d.aborting = true) := by simpa using hIdle
        cases group with
        | nil => exact .stay
        | cons op group =>
            obtain ⟨queue, hQueue⟩ := h.exists_queue fun hStage => hOpen (.inl hStage)
            simp only [List.isEmpty_cons, Bool.false_eq_true, if_false, enqueue_eq hQueue]
            exact .arrange [op :: group] d.stage queue _ _ (.inl rfl) hQueue
              (Buffer.packs_add d.limit d.buffer (List.cons_ne_nil op group))
              fun hRefused => absurd hRefused hOpen

/-- Every step is a move. -/
theorem step_move {d : Delivery} (h : d.Orderly) (e : Event) :
    Move d (d.groups e) (d.receipts e) (d.reported e) (d.step e) := by
  cases e with
  | start =>
      change Move d [] [] [] (if (d.queue.getD []).isEmpty then d.start else d)
      split
      · next hQueue =>
          unfold start
          split
          · next hStage => exact .start hStage (h.rested hStage) (List.isEmpty_iff.mp hQueue)
          · exact .stay
      · exact .stay
  | add group => exact addGroup_move h group
  | flush => exact flush_move h
  | flushAll => exact flushAll_move h
  | tick =>
      change Move d [] [] [] d.tick
      unfold tick
      split
      · exact flushAll_move h
      · exact .stay
  | take => exact take_move d
  | answer now reply => exact answer_move h now reply
  | expire now => exact expire_move h now
  | wake => exact wake_move h
  | close => exact close_move h
  | proceed => exact proceed_move h
  | abort => exact abort_move d
  | abandon =>
      change Move d [] [] [] d.abandon
      unfold abandon
      split
      · next hStage => exact .abandon hStage
      · exact .stay

theorem Orderly.run {d : Delivery} (h : d.Orderly) (events : List Event) :
    (d.run events).Orderly := by
  induction events generalizing d with
  | nil => exact h
  | cons e events ih => exact ih (h.move (step_move h e))

theorem Filled.run {d : Delivery} (h : d.Filled) (hOrderly : d.Orderly) (events : List Event) :
    (d.run events).Filled := by
  induction events generalizing d with
  | nil => exact h
  | cons e events ih =>
      have hStep := step_move hOrderly e
      exact ih (h.move hStep) (hOrderly.move hStep)

theorem run_settings {d : Delivery} (h : d.Orderly) (events : List Event) :
    (d.run events).settings = d.settings := by
  induction events generalizing d with
  | nil => rfl
  | cons e events ih =>
      have hStep := step_move h e
      exact (ih (h.move hStep)).trans hStep.settings

end Delivery
end Indexer
