import Indexer.Proofs.Bulk.Reconciliation
import Indexer.Proofs.Delivery.Budget
import Indexer.Proofs.Delivery.Endings

/-! Giving up a destination that is out of reach. An operation has one count of
attempts, and whatever sends it again adds to it. So a run is given up once an
operation was often enough in requests that did not reach the destination or that
set it back in another way, and not only for the former. -/
namespace Indexer

/-- The run was given up because the destination was out of reach. -/
def Fault.isOutOfReach : Fault → Bool
  | .unreachable _ _ | .connectivityLost _ _ => true
  | _ => false

theorem Fault.isAbort_of_outOfReach {f : Fault} (h : f.isOutOfReach = true) : f.isAbort = true := by
  cases f <;> first | rfl | cases h

/-- A response that cannot be used is a fault of the request. -/
theorem Outcome.isTransport_of_ofResponse {sent : List Operation} {raw : Json} {f : Fault}
    (h : (ofResponse sent raw).2 = .error f) : f.isTransport = true := by
  obtain ⟨message, value, rfl⟩ := ofResponse_error h
  rfl

theorem Store.isAbort_of_apply {now : Float} {s : Store} {u : StateUpdate} {f : Fault}
    (h : apply now s u = .error f) : f.isAbort = false := by
  unfold apply at h
  split at h
  · cases h
  · unfold modified at h
    cases hModified : u.lastModified with
    | none =>
        rw [hModified] at h
        cases h
        rfl
    | some d =>
        cases hSeconds : d.toSeconds with
        | error e =>
            simp only [hModified, hSeconds, mapError_error, Except.map, Except.error.injEq] at h
            rw [← h]
            rfl
        | ok seconds => simp [hModified, hSeconds, Except.map] at h

/-- What keeps updates from being committed does not end the run by itself. -/
theorem Store.isAbort_of_commit {s : Store} {now : DateTime} {updates : List StateUpdate} {f : Fault}
    (h : s.commit now updates = .error f) : f.isAbort = false := by
  cases hNow : now.toSeconds with
  | error e =>
      rw [commit, hNow] at h
      cases h
      rfl
  | ok seconds =>
      rw [commit_ok hNow] at h
      induction updates generalizing s with
      | nil => cases h
      | cons u updates ih =>
          rw [List.foldlM_cons] at h
          cases hApply : apply seconds s u with
          | error g =>
              rw [hApply] at h
              cases h
              exact isAbort_of_apply hApply
          | ok t =>
              rw [hApply] at h
              exact ih h

namespace Coordinator

theorem isAbort_of_acknowledge {c : Coordinator} {now : DateTime} {ops : List Operation} {f : Fault}
    (h : c.acknowledge now ops = .error f) : f.isAbort = false := by
  unfold acknowledge at h
  split at h
  · cases h
  · cases hCommit : c.store.commit now (ops.filterMap (·.update)) with
    | error g =>
        simp only [hCommit, Except.map, Except.error.injEq] at h
        exact h ▸ Store.isAbort_of_commit hCommit
    | ok store => simp [hCommit, Except.map] at h

/-- Sending everything again fails because of an operation that has no retries left. -/
theorem spent_of_retryAll {c : Coordinator} {ops : List Operation} {escalation f : Fault}
    (h : (c.retryAll ops escalation).requeued = .error f) : ∃ op ∈ ops, c.mayRetry op = false := by
  unfold retryAll at h
  split at h
  · cases h
  · next hSpent => simpa using hSpent

/-- A run is given up after a response only if all items tell of a lost connection, and one of the
operations has no retries left. -/
theorem onOutcome_outOfReach {c : Coordinator} {now : DateTime} {o : Outcome} {f : Fault}
    (h : (c.onOutcome now o).requeued = .error f) (hLoss : f.isOutOfReach = true) :
    o.succeeded = [] ∧ o.failed ≠ [] ∧ allUnreachable o.failed = true ∧
      ∃ op ∈ o.failed.map (·.op), c.mayRetry op = false := by
  cases hCommit : (c.afterMalformed 0).acknowledge now o.succeeded with
  | error g =>
      rw [onOutcome_of_uncommitted hCommit] at h
      obtain rfl := Except.error.inj h
      have hNone := isAbort_of_acknowledge hCommit
      rw [Fault.isAbort_of_outOfReach hLoss] at hNone
      cases hNone
  | ok committed =>
      rw [onOutcome_of_committed hCommit] at h
      cases hFailed : o.failed with
      | nil => simp [hFailed] at h
      | cons first rest =>
          simp only [hFailed] at h
          split at h
          · next hLost =>
              rw [Bool.and_eq_true, List.isEmpty_iff] at hLost
              obtain ⟨op, hOp, hSpent⟩ := spent_of_retryAll h
              refine ⟨hLost.1, List.cons_ne_nil _ _, hLost.2, op, hOp, ?_⟩
              rwa [mayRetry, acknowledge_maxRetries hCommit] at hSpent
          · cases h

/-- Or after a request that did not reach the destination. -/
theorem onFailure_outOfReach {c : Coordinator} {batch : Batch} {f g : Fault}
    (h : (c.onFailure batch f).requeued = .error g) (hLoss : g.isOutOfReach = true) :
    (∃ text, f = .connection text ∨ f = .timeout text) ∧ ∃ op ∈ batch, c.mayRetry op = false := by
  change (c.judge batch f).requeued = .error g at h
  unfold judge at h
  split at h
  · cases h
    cases hLoss
  · simp only at h
    split at h
    · cases h
      cases hLoss
    · cases h
  · exact ⟨⟨_, .inl rfl⟩, spent_of_retryAll h⟩
  · exact ⟨⟨_, .inr rfl⟩, spent_of_retryAll h⟩
  · cases h
    cases hLoss

/-- An operation without retries left has made as many attempts as there are retries. -/
theorem attempts_of_spent {c : Coordinator} {op : Operation} {m : Nat}
    (hRetries : c.maxRetries.isBelow m = false) (hSpent : c.mayRetry op = false) :
    (m : Int) ≤ op.attempts := by
  by_contra hLeft
  rw [mayRetry, Bool.not_eq_false'] at hSpent
  have hBelow := Quantity.isBelow_of_le hSpent (show op.attempts + 1 ≤ m by omega)
  rw [hBelow] at hRetries
  cases hRetries

end Coordinator

namespace Delivery

namespace Ending

/-- The request did not reach the destination: there was no connection, no answer in time, or an answer
in which every item tells of a lost connection. -/
def isUnreached (x : Ending) : Bool :=
  match x.result with
  | .ok o => o.succeeded.isEmpty && !o.failed.isEmpty && Coordinator.allUnreachable o.failed
  | .error (.connection _) | .error (.timeout _) => true
  | .error _ => false

/-- The operation was set back although the destination was reached: its item failed, or the response
was malformed. -/
def setsBack (x : Ending) (op : Operation) : Bool :=
  match x.result with
  | .ok o => !x.isUnreached && o.failed.any fun f => f.op.content = op.content
  | .error (.protocol _ _) => x.batch.any fun other => other.content = op.content
  | .error _ => false

/-- A request that did not reach the destination sets nothing back. -/
theorem setsBack_of_unreached {x : Ending} (h : x.isUnreached = true) (op : Operation) :
    x.setsBack op = false := by
  unfold setsBack
  rw [h]
  unfold isUnreached at h
  split at h
  · next hResult => simp [hResult]
  · next hResult => simp [hResult]
  · next hResult => simp [hResult]
  · cases h

end Ending

/-- The requests that an event ends. -/
def endings (d : Delivery) (e : Event) : List Ending := (d.ending? e).toList

/-- How often the requests of a run have cost an operation an attempt, at most. -/
def strikes (xs : List Ending) (op : Operation) : Nat :=
  xs.countP Ending.isUnreached + xs.countP fun x => x.setsBack op

theorem strikes_append (xs ys : List Ending) (op : Operation) :
    strikes (xs ++ ys) op = strikes xs op + strikes ys op := by
  rw [strikes, strikes, strikes, List.countP_append, List.countP_append]
  omega

theorem strikes_again (xs : List Ending) (op : Operation) : strikes xs op.again = strikes xs op := by
  have hSame : (fun x : Ending => x.setsBack op.again) = fun x => x.setsBack op := rfl
  rw [strikes, strikes, hSame]

/-- The fault of a reply is about the request, and not about the run. -/
def Event.IsPlain : Event → Prop
  | .answer _ (.error f) => f.isAbort = false
  | _ => True

variable {d : Delivery} {e : Event} {x : Ending}

theorem one_le_strikes {op : Operation} (h : x.isUnreached = true ∨ x.setsBack op = true) :
    1 ≤ strikes [x] op := by
  rw [strikes, List.countP_singleton, List.countP_singleton]
  rcases h with h | h <;> simp [h]

/-- Whatever is sent again was in the request, and that cost it an attempt. -/
theorem strikes_of_resent (h : d.ending? e = some x) {again : List Operation}
    (hAgain : (d.resolve x).requeued = .ok again) :
    ∀ op ∈ again, ∃ first ∈ x.batch, op = first.again ∧ 1 ≤ strikes [x] first := by
  intro op hOp
  unfold resolve at hAgain
  cases hResult : x.result with
  | ok o =>
      obtain ⟨raw, _, _, hResponse⟩ := answer_of_ending h hResult
      simp only [hResult] at hAgain
      obtain ⟨rfl, _⟩ := Coordinator.onOutcome_ok hAgain
      obtain ⟨f, hf, rfl⟩ := List.mem_map.mp hOp
      have hFailed : f ∈ o.failed := List.mem_of_mem_filter hf
      refine ⟨f.op, (Outcome.failed_sublist hResponse).subset (List.mem_map_of_mem hFailed), rfl, ?_⟩
      apply one_le_strikes
      cases hReached : x.isUnreached with
      | true => exact .inl rfl
      | false =>
          right
          simp only [Ending.setsBack, hResult, hReached, Bool.not_false, Bool.true_and,
            List.any_eq_true]
          exact ⟨f, hFailed, decide_eq_true rfl⟩
  | error f =>
      simp only [hResult] at hAgain
      split at hAgain
      · obtain ⟨rfl, _⟩ := Coordinator.onFailure_ok hAgain
        obtain ⟨first, hFirst, rfl⟩ := List.mem_map.mp hOp
        refine ⟨first, hFirst, rfl, one_le_strikes ?_⟩
        cases f with
        | connection text | timeout text => exact .inl (by rw [Ending.isUnreached, hResult])
        | protocol text raw =>
            right
            simp only [Ending.setsBack, hResult, List.any_eq_true]
            exact ⟨first, hFirst, decide_eq_true rfl⟩
        | _ => cases hAgain
      · cases hAgain

/-- A fault that is not one of the request is one that its reply brought. -/
theorem isAbort_of_ending (h : d.ending? e = some x) (hPlain : e.IsPlain) {f : Fault}
    (hResult : x.result = .error f) (hOther : f.isTransport = false) : f.isAbort = false := by
  unfold ending? at h
  split at h
  · next batch now reply hSender =>
      cases h
      cases reply with
      | ok raw =>
          cases hOutcome : (Outcome.ofResponse batch raw).2 with
          | ok o => simp [interpret, hOutcome] at hResult
          | error g =>
              have hTransport := Outcome.isTransport_of_ofResponse hOutcome
              obtain rfl : d.cause batch g = f := by simpa [interpret, hOutcome] using hResult
              unfold cause at hOther
              split at hOther
              · cases hOther
              · simp [hTransport] at hOther
      | error g =>
          obtain rfl : d.cause batch g = f := Except.error.inj hResult
          unfold cause
          split
          · rfl
          · exact hPlain
  · next batch now hSender =>
      cases h
      obtain rfl : d.cause batch (d.timedOut batch) = f := Except.error.inj hResult
      unfold cause
      split <;> rfl
  · cases h

/-- A run that is given up as out of reach was so because of a request that did not reach the
destination, and of an operation in it without retries left. -/
theorem outOfReach_of_ending (h : d.ending? e = some x) (hPlain : e.IsPlain) {f : Fault}
    (hFault : (d.resolve x).requeued = .error f) (hLoss : (asAbort f).isOutOfReach = true) :
    x.isUnreached = true ∧ ∃ op ∈ x.batch, d.coordinator.mayRetry op = false := by
  have hLost : f.isOutOfReach = true := by
    unfold asAbort at hLoss
    split at hLoss
    · exact hLoss
    · cases hLoss
  unfold resolve at hFault
  cases hResult : x.result with
  | ok o =>
      obtain ⟨raw, _, _, hResponse⟩ := answer_of_ending h hResult
      simp only [hResult] at hFault
      obtain ⟨hNone, hSome, hAll, op, hOp, hSpent⟩ := Coordinator.onOutcome_outOfReach hFault hLost
      refine ⟨?_, op, (Outcome.failed_sublist hResponse).subset hOp, hSpent⟩
      rw [Ending.isUnreached, hResult]
      simp [hNone, hSome, hAll]
  | error g =>
      simp only [hResult] at hFault
      split at hFault
      · obtain ⟨⟨text, hText⟩, op, hOp, hSpent⟩ := Coordinator.onFailure_outOfReach hFault hLost
        refine ⟨?_, op, hOp, hSpent⟩
        rcases hText with rfl | rfl <;> rw [Ending.isUnreached, hResult]
      · next hOther =>
          obtain rfl := Except.error.inj hFault
          have hNone := isAbort_of_ending h hPlain hResult (by simpa using hOther)
          rw [Fault.isAbort_of_outOfReach hLost] at hNone
          cases hNone

/-- The history of a run with at least `m` retries. An operation has made no more attempts than the
requests so far have cost it, and a run that is given up as out of reach has used up an operation. -/
structure Counted (m : Nat) (d : Delivery) (xs : List Ending) : Prop where
  retries : d.coordinator.maxRetries.isBelow m = false
  attempts : ∀ op ∈ d.outstanding, op.attempts ≤ strikes xs op
  givenUp : ∀ f, d.fatal = some f → f.isOutOfReach = true →
    ∃ before x, xs = before ++ [x] ∧ x.isUnreached = true ∧ ∃ op ∈ x.batch, m ≤ strikes before op

theorem step_maxRetries (hOrderly : d.Orderly) (e : Event) :
    (d.step e).coordinator.maxRetries = d.coordinator.maxRetries := by
  rcases (step_move hOrderly e).shifts_or_ends hOrderly with ⟨_, _, hShifts⟩ | ⟨_, _, _, hEnds⟩
  · rw [hShifts.coordinator]
  · exact hEnds.maxRetries

variable {m : Nat} {xs : List Ending}

theorem Counted.shift (h : d.Counted m xs) (hShifts : Shifts d (d.groups e) (d.step e))
    (hFresh : ∀ op ∈ d.accepted e, op.attempts ≤ 0) : (d.step e).Counted m xs := by
  refine ⟨by rw [hShifts.coordinator]; exact h.retries, fun op hOp => ?_, ?_⟩
  · obtain ⟨lost, hPerm, _⟩ := hShifts.carried
    have hFrom := hPerm.mem_iff.mp (List.mem_append_left lost hOp)
    rw [flatten_groups] at hFrom
    rcases List.mem_append.mp hFrom with hOld | hNew
    · exact h.attempts op hOld
    · have := hFresh op hNew
      omega
  · rw [hShifts.fatal]
    exact h.givenUp

theorem Counted.settle (h : d.Counted m xs) (hOrderly : d.Orderly) (hFilled : d.Filled)
    (hEnding : d.ending? e = some x) {again : List Operation}
    (hAgain : (d.resolve x).requeued = .ok again) : (d.step e).Counted m (xs ++ [x]) := by
  obtain ⟨hSender, _⟩ := step_of_ending hEnding
  obtain ⟨n, log, hPlaced⟩ := placed_of_ending hOrderly hEnding hAgain
  obtain ⟨hCoordinator, _, hFatal, _⟩ := hPlaced.frame
  refine ⟨by rw [step_maxRetries hOrderly]; exact h.retries, fun op hOp => ?_, fun f hSome => ?_⟩
  · obtain ⟨lost, hPerm, _⟩ := hPlaced.perm rfl
    rw [strikes_append]
    rcases List.mem_append.mp (hPerm.mem_iff.mp (List.mem_append_left lost hOp)) with hSent | hWaits
    · obtain ⟨first, hFirst, rfl, hStrike⟩ := strikes_of_resent hEnding hAgain op hSent
      have hBefore := h.attempts first (by
        rw [d.outstanding_eq, hSender]
        exact List.mem_append_left _ hFirst)
      rw [strikes_again, strikes_again]
      simp only [Operation.again]
      omega
    · have hBefore := h.attempts op (List.mem_append_right _ hWaits)
      omega
  · rw [hFatal] at hSome
    have hNone := (hFilled.underWay x.batch hSender).2
    rw [hNone] at hSome
    cases hSome

theorem Counted.giveUp (h : d.Counted m xs) (hOrderly : d.Orderly) (hPlain : e.IsPlain)
    (hEnding : d.ending? e = some x) {f : Fault} (hFault : (d.resolve x).requeued = .error f) :
    (d.step e).Counted m (xs ++ [x]) := by
  obtain ⟨hSender, _⟩ := step_of_ending hEnding
  obtain ⟨n, log, hStep⟩ := givenUp_of_ending hEnding hFault
  have hRetries := step_maxRetries hOrderly e
  rw [hStep] at hRetries ⊢
  refine ⟨by rw [hRetries]; exact h.retries, fun op hOp => ?_, fun g hSome hLoss => ?_⟩
  · have hBefore := h.attempts op (List.mem_append_right _ hOp)
    rw [strikes_append]
    omega
  · obtain rfl := Option.some.inj hSome
    obtain ⟨hUnreached, op, hOp, hSpent⟩ := outOfReach_of_ending hEnding hPlain hFault hLoss
    have hAttempts := h.attempts op (by
      rw [d.outstanding_eq, hSender]
      exact List.mem_append_left _ hOp)
    have hLeast := Coordinator.attempts_of_spent h.retries hSpent
    exact ⟨xs, x, rfl, hUnreached, op, hOp, by omega⟩

theorem Counted.step (h : d.Counted m xs) (hOrderly : d.Orderly) (hFilled : d.Filled)
    (hPlain : e.IsPlain) (hFresh : ∀ op ∈ d.accepted e, op.attempts ≤ 0) :
    (d.step e).Counted m (xs ++ d.endings e) := by
  unfold endings
  cases hEnding : d.ending? e with
  | none =>
      rw [Option.toList_none, List.append_nil]
      exact h.shift (step_shifts hOrderly hEnding).2.2 hFresh
  | some x =>
      rw [Option.toList_some]
      cases hRequeued : (d.resolve x).requeued with
      | ok again => exact h.settle hOrderly hFilled hEnding hRequeued
      | error f => exact h.giveUp hOrderly hPlain hEnding hRequeued

theorem Counted.run (h : d.Counted m xs) (hOrderly : d.Orderly) (hFilled : d.Filled)
    (events : List Event) (hPlain : ∀ e ∈ events, e.IsPlain)
    (hFresh : ∀ op ∈ d.collect accepted events, op.attempts ≤ 0) :
    (d.run events).Counted m (xs ++ d.collect endings events) := by
  induction events generalizing d xs with
  | nil => simpa [collect, Delivery.run] using h
  | cons e events ih =>
      have hMove := step_move hOrderly e
      have hStep := h.step hOrderly hFilled (hPlain e List.mem_cons_self)
        fun op hOp => hFresh op (List.mem_append_left _ hOp)
      rw [collect, ← List.append_assoc]
      exact ih hStep (hOrderly.move hMove) (hFilled.move hMove)
        (fun later hLater => hPlain later (List.mem_cons_of_mem e hLater))
        fun op hOp => hFresh op (List.mem_append_right _ hOp)

/-- A run is given up as out of reach only after a request that did not reach the destination, for an
operation in it that requests have cost `m` attempts before: each of them did not reach the destination
either, or set this operation back. So with operations that were never set back, the destination was
missed more than `m` times. -/
theorem outOfReach_after_strikes (settings : Settings) (store : Store) (events : List Event) (m : Nat)
    (hRetries : settings.maxRetries.isBelow m = false) (hPlain : ∀ e ∈ events, e.IsPlain)
    (hFresh : ∀ op ∈ (create settings store).collect accepted events, op.attempts ≤ 0) {f : Fault}
    (hFatal : ((create settings store).run events).fatal = some f) (hLoss : f.isOutOfReach = true) :
    ∃ before x, (create settings store).collect endings events = before ++ [x] ∧
      x.isUnreached = true ∧
      (∃ op ∈ x.batch, m ≤ before.countP Ending.isUnreached + before.countP fun y => y.setsBack op) ∧
      ((∀ op ∈ x.batch, ∀ y ∈ before, y.setsBack op = false) →
        m + 1 ≤ ((create settings store).collect endings events).countP Ending.isUnreached) := by
  have hStart : (create settings store).Counted m [] :=
    ⟨hRetries, by simp [outstanding, waiting, line, create, Sender.held, Buffer.empty], nofun⟩
  have hRun := hStart.run (orderly_create settings store) (filled_create settings store) events hPlain
    hFresh
  obtain ⟨before, x, hEndings, hUnreached, op, hOp, hStrikes⟩ := hRun.givenUp f hFatal hLoss
  rw [List.nil_append] at hEndings
  refine ⟨before, x, hEndings, hUnreached, ⟨op, hOp, hStrikes⟩, fun hNever => ?_⟩
  have hNone : (before.countP fun y => y.setsBack op) = 0 := by
    rw [List.countP_eq_zero]
    intro y hy
    simp [hNever op hOp y hy]
  rw [hEndings, List.countP_append, List.countP_singleton, hUnreached]
  rw [strikes, hNone] at hStrikes
  simpa using hStrikes

/-- With one retry, an operation does not reach the destination twice. -/
def missedTwice : List Event :=
  [.start, .add [⟨.delete, "a", none, 0⟩], .close, .take, refuses, .wake, .proceed, .proceed,
    .take, refuses]

theorem missedTwice_after_strikes :
    let start := create { Settings.initial ⟨0, []⟩ with maxRetries := .whole 1 } .empty
    (start.run missedTwice).fatal.map Fault.message =
      some "Destination unreachable after 1 retries: refused" ∧
    2 ≤ (start.collect endings missedTwice).countP Ending.isUnreached := by
  intro start
  have hPlain : ∀ e ∈ missedTwice, e.IsPlain := by
    simp [missedTwice, refuses, Event.IsPlain, Fault.isAbort]
  have hFresh : ∀ op ∈ start.collect accepted missedTwice, op.attempts ≤ 0 := by decide +kernel
  have hLost : (start.run missedTwice).fatal.any Fault.isOutOfReach = true := by decide +kernel
  have hAll : (start.collect endings missedTwice).all Ending.isUnreached = true := by decide +kernel
  obtain ⟨f, hFatal, hLoss⟩ := Option.any_eq_true _ _ |>.mp hLost
  obtain ⟨before, x, hEndings, _, _, hMissed⟩ := outOfReach_after_strikes
    { Settings.initial ⟨0, []⟩ with maxRetries := .whole 1 } .empty missedTwice 1 (by decide +kernel)
    hPlain hFresh hFatal hLoss
  refine ⟨by decide +kernel, hMissed fun op _ y hy => Ending.setsBack_of_unreached ?_ op⟩
  rw [hEndings, List.all_append, Bool.and_eq_true] at hAll
  exact List.all_eq_true.mp hAll.1 y hy

/-- With one retry, an operation is turned away and does not reach the destination after that. -/
def missedOnce : List Event :=
  [.start, .add [⟨.delete, "a", none, 0⟩], .close, .take, reply [turnedAway "busy" 429], .proceed,
    .proceed, .take, refuses]

/-- So a run with one retry can be given up as out of reach after it missed the destination once. -/
theorem givenUp_though_missedOnce :
    let start := create { Settings.initial ⟨0, []⟩ with maxRetries := .whole 1 } .empty
    ¬((start.run missedOnce).fatal.any Fault.isOutOfReach = true →
      1 + 1 ≤ (start.collect endings missedOnce).countP Ending.isUnreached) ∧
    (start.run missedOnce).fatal.map Fault.message =
      some "Destination unreachable after 1 retries: refused" := by
  decide +kernel

end Delivery
end Indexer
