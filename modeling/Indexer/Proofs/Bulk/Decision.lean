import Indexer.Bulk.Coordinator
import Indexer.Proofs.Bulk.Content

/-! Decisions of the coordinator. Each failure of a request is either sent
again or reported, and a decision that ends the run has recorded nothing. What
is said here of a decision is all that the delivery needs to know of it. -/
namespace Indexer

/-- How messages name an operation. -/
def Operation.name (op : Operation) : OpKind × String := (op.kind, op.id)

/-- The name of the operation that a report is about. -/
def Report.name (r : Report) : OpKind × String := (r.kind, r.id)

namespace Coordinator

@[simp] theorem countDone_nil (t : Tally) : countDone t [] = t := by
  simp [countDone]

/-- The retry budget is all that a verdict depends on. -/
theorem verdict_congr {c c' : Coordinator} (h : c'.maxRetries = c.maxRetries) :
    c'.verdict = c.verdict := by
  funext f
  rw [verdict, verdict, mayRetry, mayRetry, h]

theorem report?_congr {c c' : Coordinator} (h : c'.maxRetries = c.maxRetries) :
    c'.report? = c.report? := by
  funext f
  simp only [report?, verdict_congr h]

/-- The failures of a request that are sent again, for their next attempt. -/
def resent (c : Coordinator) (failed : List ItemFailure) : List Operation :=
  (failed.filter fun f => (c.verdict f).isNone).map fun f => f.op.again

/-- The operations of the failures that are reported. -/
def refused (c : Coordinator) (failed : List ItemFailure) : List Operation :=
  (failed.filter fun f => (c.verdict f).isSome).map (·.op)

/-- The coordinator with reports added. -/
def report (c : Coordinator) (reports : List Report) : Coordinator :=
  { c with tally := { c.tally with failed := c.tally.failed ++ reports } }

@[simp] theorem report_nil (c : Coordinator) : c.report [] = c := by
  simp [report]

/-- Each failure is sent again or refused, and only one of the two. -/
theorem perm_verdicts (c : Coordinator) (failed : List ItemFailure) :
    (failed.filter (fun f => (c.verdict f).isNone) ++
      failed.filter (fun f => (c.verdict f).isSome)).Perm failed := by
  simpa using List.filter_append_perm (fun f : ItemFailure => (c.verdict f).isNone) failed

theorem contents_resent_refused (c : Coordinator) (failed : List ItemFailure) :
    contents (c.resent failed) + contents (c.refused failed) = contents (failed.map (·.op)) := by
  have hAgain : contents (c.resent failed) =
      contents ((failed.filter fun f => (c.verdict f).isNone).map (·.op)) := by
    rw [← contents_map_again (List.map _ _), List.map_map]
    rfl
  rw [hAgain, refused, ← contents_append, ← List.map_append]
  exact contents_perm ((c.perm_verdicts failed).map _)

/-- The reports name the refused operations in order. -/
theorem reports_refused (c : Coordinator) (failed : List ItemFailure) :
    (failed.filterMap c.report?).map Report.name = (c.refused failed).map Operation.name := by
  induction failed with
  | nil => rfl
  | cons f rest ih =>
      rw [refused] at ih ⊢
      cases hVerdict : c.verdict f <;> simp [report?, hVerdict, ih, Report.name, Operation.name]

theorem verdict_of_mayRetry {c : Coordinator} {f : ItemFailure}
    (hClass : FailureClass.of f.status f.errorType = .connectivity)
    (hRetry : c.mayRetry f.op = true) : c.verdict f = none := by
  simp [verdict, hClass, hRetry]

/-- A failed request that may be tried again as a whole has no failure to refuse. -/
theorem verdict_of_unreachable {c : Coordinator} {failed : List ItemFailure}
    (hUnreachable : allUnreachable failed = true)
    (hRetry : (failed.map (·.op)).all c.mayRetry = true) :
    ∀ f ∈ failed, c.verdict f = none := by
  intro f hf
  rw [allUnreachable, List.all_eq_true] at hUnreachable
  rw [List.all_eq_true] at hRetry
  exact verdict_of_mayRetry (by simpa using hUnreachable f hf)
    (hRetry f.op (List.mem_map_of_mem hf))

theorem mayRetry_of_verdict {c : Coordinator} {f : ItemFailure} (h : c.verdict f = none) :
    c.mayRetry f.op = true := by
  unfold verdict at h
  split at h
  · cases h
  · by_contra hSpent
    simp [hSpent] at h

/-- What is sent again are failures with retries left, for their next attempt. -/
theorem exists_of_resent (c : Coordinator) (failed : List ItemFailure) :
    ∃ tried : List Operation, tried.Sublist (failed.map (·.op)) ∧ (∀ op ∈ tried, c.mayRetry op = true) ∧
      c.resent failed = tried.map Operation.again := by
  refine ⟨(failed.filter fun f => (c.verdict f).isNone).map (·.op), ?_, ?_, ?_⟩
  · exact List.filter_sublist.map _
  · intro op hOp
    obtain ⟨f, hf, rfl⟩ := List.mem_map.mp hOp
    exact mayRetry_of_verdict (Option.isNone_iff_eq_none.mp (List.mem_filter.mp hf).2)
  · rw [resent, List.map_map]
    rfl

theorem acknowledge_maxRetries {c c' : Coordinator} {now : DateTime} {ops : List Operation}
    (h : c.acknowledge now ops = .ok c') : c'.maxRetries = c.maxRetries := by
  unfold acknowledge at h
  split at h
  · cases h
    rfl
  · cases hCommit : c.store.commit now (ops.filterMap (·.update)) <;> simp_all [Except.map]
    rw [← h]

theorem retryAll_ok {c : Coordinator} {ops again : List Operation} {escalation : Fault}
    (h : (c.retryAll ops escalation).requeued = .ok again) :
    ops.all c.mayRetry = true ∧ again = ops.map Operation.again ∧
      (c.retryAll ops escalation).coordinator = c.countRetries again := by
  unfold retryAll at h ⊢
  split at h
  · next hRetry =>
      cases h
      rw [if_pos hRetry]
      exact ⟨hRetry, rfl, rfl⟩
  · cases h

theorem retryAll_error {c : Coordinator} {ops : List Operation} {escalation f : Fault}
    (h : (c.retryAll ops escalation).requeued = .error f) :
    (c.retryAll ops escalation).coordinator = c := by
  unfold retryAll at h ⊢
  split at h
  · cases h
  · next hRetry => rw [if_neg hRetry]

/-- The coordinator after some number of malformed responses. -/
def afterMalformed (c : Coordinator) (n : Nat) : Coordinator := { c with malformed := n }

@[simp] theorem afterMalformed_store (c : Coordinator) (n : Nat) :
    (c.afterMalformed n).store = c.store := rfl

@[simp] theorem afterMalformed_tally (c : Coordinator) (n : Nat) :
    (c.afterMalformed n).tally = c.tally := rfl

@[simp] theorem afterMalformed_maxRetries (c : Coordinator) (n : Nat) :
    (c.afterMalformed n).maxRetries = c.maxRetries := rfl

theorem onOutcome_of_uncommitted {c : Coordinator} {now : DateTime} {o : Outcome} {f : Fault}
    (h : (c.afterMalformed 0).acknowledge now o.succeeded = .error f) :
    c.onOutcome now o = ⟨c.afterMalformed 0, [], .error f⟩ := by
  rw [afterMalformed] at h ⊢
  unfold onOutcome
  dsimp only
  rw [h]

theorem onOutcome_of_committed {c committed : Coordinator} {now : DateTime} {o : Outcome}
    (h : (c.afterMalformed 0).acknowledge now o.succeeded = .ok committed) :
    c.onOutcome now o =
      match o.failed with
      | [] => ⟨committed, [], .ok []⟩
      | first :: rest =>
        if o.succeeded.isEmpty && allUnreachable (first :: rest) then
          committed.retryAll ((first :: rest).map (·.op))
            (.connectivityLost (rest.length + 1) first.reason)
        else committed.sortFailures (first :: rest) := by
  rw [afterMalformed] at h
  unfold onOutcome
  dsimp only
  rewrite [h]
  rfl

theorem resent_of_retryAll {c : Coordinator} {failed : List ItemFailure}
    (hVerdict : ∀ f ∈ failed, c.verdict f = none) :
    c.resent failed = (failed.map (·.op)).map Operation.again ∧ failed.filterMap c.report? = [] := by
  constructor
  · rw [resent, List.filter_eq_self.mpr (by simpa using hVerdict), List.map_map]
    rfl
  · rw [List.filterMap_eq_nil_iff]
    intro f hf
    rw [report?, hVerdict f hf, Option.map_none]

/-- A decision that sends operations again has committed what succeeded, has
reported what was refused, and sends the rest of the failures. -/
theorem onOutcome_ok {c : Coordinator} {now : DateTime} {o : Outcome} {again : List Operation}
    (h : (c.onOutcome now o).requeued = .ok again) :
    again = c.resent o.failed ∧
    ∃ committed, (c.afterMalformed 0).acknowledge now o.succeeded = .ok committed ∧
      (c.onOutcome now o).coordinator =
        (committed.report (o.failed.filterMap c.report?)).countRetries again := by
  cases hCommit : (c.afterMalformed 0).acknowledge now o.succeeded with
  | error f =>
      rw [onOutcome_of_uncommitted hCommit] at h
      cases h
  | ok committed =>
      have hMax : committed.maxRetries = c.maxRetries := by
        rw [acknowledge_maxRetries hCommit, afterMalformed_maxRetries]
      rw [onOutcome_of_committed hCommit] at h ⊢
      cases hFailed : o.failed with
      | nil =>
          simp only [hFailed, Except.ok.injEq] at h
          subst h
          exact ⟨rfl, committed, rfl, by simp [countRetries]⟩
      | cons first rest =>
          simp only [hFailed] at h ⊢
          split at h
          · next hLost =>
              rw [if_pos hLost]
              obtain ⟨hRetry, hAgain, hCoordinator⟩ := retryAll_ok h
              rw [Bool.and_eq_true] at hLost
              have hVerdict : ∀ f ∈ first :: rest, c.verdict f = none := by
                rw [← verdict_congr hMax]
                exact verdict_of_unreachable hLost.2 hRetry
              obtain ⟨hResent, hReports⟩ := resent_of_retryAll hVerdict
              refine ⟨hAgain.trans hResent.symm, committed, rfl, ?_⟩
              rw [hCoordinator, hReports, report_nil, hAgain]
          · next hReached =>
              rw [if_neg hReached]
              simp only [sortFailures, Except.ok.injEq] at h ⊢
              rw [verdict_congr hMax] at h
              subst h
              refine ⟨rfl, committed, rfl, ?_⟩
              rw [report?_congr hMax, verdict_congr hMax]
              rfl

/-- A decision that ends the run leaves everything as it is recorded. Either
nothing succeeded, or what succeeded could not be committed. -/
theorem onOutcome_error {c : Coordinator} {now : DateTime} {o : Outcome} {f : Fault}
    (h : (c.onOutcome now o).requeued = .error f) :
    (c.onOutcome now o).coordinator = c.afterMalformed 0 ∧
    (o.succeeded = [] ∨ (c.afterMalformed 0).acknowledge now o.succeeded = .error f) := by
  cases hCommit : (c.afterMalformed 0).acknowledge now o.succeeded with
  | error g =>
      rw [onOutcome_of_uncommitted hCommit] at h ⊢
      exact ⟨rfl, .inr (congrArg Except.error (Except.error.inj h))⟩
  | ok committed =>
      rw [onOutcome_of_committed hCommit] at h ⊢
      cases hFailed : o.failed with
      | nil => simp [hFailed] at h
      | cons first rest =>
          simp only [hFailed] at h ⊢
          split at h
          · next hLost =>
              rw [if_pos hLost, retryAll_error h]
              have hNothing : o.succeeded = [] := by simp_all
              rw [hNothing, acknowledge] at hCommit
              simp only [List.filterMap_nil, countDone_nil, Except.ok.injEq] at hCommit
              exact ⟨hCommit.symm, .inl hNothing⟩
          · cases h

/-- Without a usable outcome either the whole request is sent again. It is the first malformed
response in a row, or each operation has retries left. -/
theorem onFailure_ok {c : Coordinator} {batch : Batch} {f : Fault} {again : List Operation}
    (h : (c.onFailure batch f).requeued = .ok again) :
    again = batch.map Operation.again ∧
    ∃ n, (c.onFailure batch f).coordinator = (c.afterMalformed n).countRetries again ∧
      (c.malformed = 0 ∧ n = 1 ∨ (batch.all c.mayRetry = true ∧ n = c.malformed)) := by
  change (c.judge batch f).requeued = .ok again at h
  change again = _ ∧ ∃ n, (c.judge batch f).coordinator = _ ∧ _
  unfold judge at h ⊢
  split at h
  · cases h
  · simp only at h ⊢
    split at h
    · cases h
    · next hFirst =>
        cases h
        rw [if_neg hFirst]
        have hNone : c.malformed = 0 := by omega
        exact ⟨rfl, _, rfl, .inl ⟨hNone, congrArg (· + 1) hNone⟩⟩
  · obtain ⟨hRetry, rfl, hCoordinator⟩ := retryAll_ok h
    exact ⟨rfl, c.malformed, hCoordinator, .inr ⟨hRetry, rfl⟩⟩
  · obtain ⟨hRetry, rfl, hCoordinator⟩ := retryAll_ok h
    exact ⟨rfl, c.malformed, hCoordinator, .inr ⟨hRetry, rfl⟩⟩
  · cases h

/-- Or the run ends, and nothing is recorded. -/
theorem onFailure_error {c : Coordinator} {batch : Batch} {f g : Fault}
    (h : (c.onFailure batch f).requeued = .error g) :
    ∃ n, (c.onFailure batch f).coordinator = c.afterMalformed n := by
  change (c.judge batch f).requeued = .error g at h
  change ∃ n, (c.judge batch f).coordinator = _
  unfold judge at h ⊢
  split at h
  · exact ⟨c.malformed, rfl⟩
  · simp only at h ⊢
    split at h
    · next hAgain =>
        rw [if_pos hAgain]
        exact ⟨_, rfl⟩
    · cases h
  · exact ⟨c.malformed, retryAll_error h⟩
  · exact ⟨c.malformed, retryAll_error h⟩
  · exact ⟨c.malformed, rfl⟩

end Coordinator
end Indexer
