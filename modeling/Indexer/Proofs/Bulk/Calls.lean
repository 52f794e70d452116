import Indexer.Proofs.Bulk.Decision
import Mathlib.Data.List.Induction

/-! The calls of a coordinator. Whatever calls came before, a call either ends the
run, and then neither the store nor the tally have changed, or it deals with every
failed operation once: it is sent again for its next attempt, or it is reported.
Which of the two is told by the call and by one fact about the calls before it. -/
namespace Indexer

/-- What a store becomes when updates are committed; nothing is done where there are none. -/
def Store.Commits (s : Store) (now : DateTime) (updates : List StateUpdate) (t : Store) : Prop :=
  if updates = [] then t = s else s.commit now updates = .ok t

namespace Coordinator

theorem acknowledge_eq_ok_iff {c committed : Coordinator} {now : DateTime} {ops : List Operation} :
    c.acknowledge now ops = .ok committed ↔
      ∃ store, c.store.Commits now (ops.filterMap (·.update)) store ∧
        committed = { c with store, tally := countDone c.tally ops } := by
  unfold acknowledge Store.Commits
  cases ops.filterMap (·.update) with
  | nil => simp [eq_comm]
  | cons u updates =>
      simp only [reduceCtorEq, if_false]
      cases c.store.commit now (u :: updates) with
      | error f => simp [Except.map]
      | ok store => simp [Except.map, eq_comm]

/-- A call of a coordinator: the outcome of a request, or the failure of a request as a whole. -/
inductive Call where
  | outcome (now : DateTime) (o : Outcome)
  | failure (batch : Batch) (f : Fault)

def Call.isOutcome : Call → Bool
  | .outcome _ _ => true
  | .failure _ _ => false

/-- The call tells of a malformed response. -/
def Call.isMalformed : Call → Bool
  | .failure _ (.protocol _ _) => true
  | _ => false

/-- What the coordinator decides at a call. -/
def answer (c : Coordinator) : Call → Decision
  | .outcome now o => c.onOutcome now o
  | .failure batch f => c.onFailure batch f

/-- The coordinator after some calls, whatever came of them. -/
def after (c : Coordinator) (calls : List Call) : Coordinator :=
  calls.foldl (fun c call => (c.answer call).coordinator) c

/-- A malformed response is among the calls since the last outcome. -/
def malformedSince (calls : List Call) : Bool :=
  (calls.reverse.takeWhile fun call => !call.isOutcome).any Call.isMalformed

variable {c : Coordinator} {m : Nat} {now : DateTime} {o : Outcome} {batch : Batch} {f : Fault}

theorem retryAll_coordinator (ops : List Operation) (escalation : Fault) :
    (c.retryAll ops escalation).coordinator.maxRetries = c.maxRetries ∧
      (c.retryAll ops escalation).coordinator.malformed = c.malformed := by
  unfold retryAll
  split <;> exact ⟨rfl, rfl⟩

theorem onOutcome_coordinator (c : Coordinator) (now : DateTime) (o : Outcome) :
    (c.onOutcome now o).coordinator.maxRetries = c.maxRetries ∧
      (c.onOutcome now o).coordinator.malformed = 0 := by
  cases hRequeued : (c.onOutcome now o).requeued with
  | error f =>
      rw [(onOutcome_error hRequeued).1]
      exact ⟨rfl, rfl⟩
  | ok again =>
      obtain ⟨_, committed, hCommit, hCoordinator⟩ := onOutcome_ok hRequeued
      obtain ⟨store, _, rfl⟩ := acknowledge_eq_ok_iff.mp hCommit
      rw [hCoordinator]
      exact ⟨rfl, rfl⟩

theorem onFailure_coordinator (c : Coordinator) (batch : Batch) (f : Fault) :
    (c.onFailure batch f).coordinator.maxRetries = c.maxRetries ∧
      (c.onFailure batch f).coordinator.malformed =
        if (Call.failure batch f).isMalformed then c.malformed + 1 else c.malformed := by
  change (c.judge batch f).coordinator.maxRetries = _ ∧ (c.judge batch f).coordinator.malformed = _
  cases f with
  | protocol text raw =>
      simp only [judge]
      split <;> exact ⟨rfl, rfl⟩
  | connection text | timeout text => exact retryAll_coordinator batch _
  | _ => exact ⟨rfl, rfl⟩

theorem after_append (c : Coordinator) (calls : List Call) (call : Call) :
    c.after (calls ++ [call]) = ((c.after calls).answer call).coordinator := by
  rw [after, List.foldl_append]
  rfl

theorem after_maxRetries (c : Coordinator) (calls : List Call) :
    (c.after calls).maxRetries = c.maxRetries := by
  induction calls using List.reverseRecOn with
  | nil => rfl
  | append_singleton calls call ih =>
      rw [after_append, ← ih]
      cases call with
      | outcome now o => exact (onOutcome_coordinator _ now o).1
      | failure batch f => exact (onFailure_coordinator _ batch f).1

/-- What the coordinator counts as malformed are responses since the last outcome. -/
theorem malformed_after (maxRetries : Quantity) (store : Store) (calls : List Call) :
    0 < ((start maxRetries store).after calls).malformed ↔ malformedSince calls = true := by
  induction calls using List.reverseRecOn with
  | nil => simp [after, start, malformedSince]
  | append_singleton calls call ih =>
      rw [after_append]
      cases call with
      | outcome now o =>
          have hReset := (onOutcome_coordinator ((start maxRetries store).after calls) now o).2
          simp [answer, hReset, malformedSince, Call.isOutcome]
      | failure batch f =>
          rw [answer, (onFailure_coordinator _ batch f).2]
          cases hMalformed : (Call.failure batch f).isMalformed with
          | true => simp [malformedSince, Call.isOutcome, hMalformed]
          | false => simpa [malformedSince, Call.isOutcome, hMalformed] using ih

/-! ### What a call comes to -/

/-- The outcome ends the run: nothing succeeded, all failures tell of a lost connection, and one of
the operations has made as many attempts as there are retries. -/
def Exhausted (m : Nat) (o : Outcome) : Prop :=
  o.succeeded = [] ∧ o.failed ≠ [] ∧
    (∀ f ∈ o.failed, FailureClass.of f.status f.errorType = .connectivity) ∧
    ∃ f ∈ o.failed, (m : Int) ≤ f.op.attempts

/-- The failure of a request as a whole ends the run: the credentials are refused, the response is
malformed and so was another one, or an operation that did not reach the destination has made as many
attempts as there are retries. So does a failure of no known kind. -/
def Fatal (m : Nat) (malformedBefore : Bool) (batch : Batch) : Fault → Prop
  | .credentials _ _ => True
  | .protocol _ _ => malformedBefore = true
  | .connection _ | .timeout _ => ∃ op ∈ batch, (m : Int) ≤ op.attempts
  | _ => True

/-- The failed operation is worth another attempt and has one left. -/
def isSentAgain (m : Nat) (f : ItemFailure) : Bool :=
  FailureClass.of f.status f.errorType ≠ .permanent && f.op.attempts < m

/-- How a failed operation is reported. -/
def reportOf (f : ItemFailure) : Report where
  id := f.op.id
  kind := f.op.kind
  reason :=
    if FailureClass.of f.status f.errorType = .permanent then f.reason
    else .str (f.reason.bare ++ " (gave up after " ++ Text.signedDecimal (f.op.attempts + 1)
      ++ " attempts)")

/-- The decision ends the run and leaves what was recorded and counted as it was. -/
structure EndsRun (c : Coordinator) (d : Decision) : Prop where
  requeued : ∃ f, d.requeued = .error f ∧ f.isAbort = true
  store : d.coordinator.store = c.store
  tally : d.coordinator.tally = c.tally

/-- The decision deals with an outcome: what succeeded is committed and counted by its kind, and of
what failed each operation is sent again or reported, in their order. -/
structure Settles (m : Nat) (c : Coordinator) (now : DateTime) (o : Outcome) (d : Decision) : Prop where
  requeued : d.requeued = .ok ((o.failed.filter (isSentAgain m)).map fun f =>
    { f.op with attempts := f.op.attempts + 1 })
  store : c.store.Commits now (o.succeeded.filterMap (·.update)) d.coordinator.store
  tally : d.coordinator.tally = {
    indexed := c.tally.indexed + o.succeeded.countP (·.kind = .index)
    deleted := c.tally.deleted + o.succeeded.countP (·.kind = .delete)
    retried := c.tally.retried + o.failed.countP (isSentAgain m)
    failed := c.tally.failed ++ (o.failed.filter fun f => !isSentAgain m f).map reportOf }

/-- The decision sends a whole request again. -/
structure Repeats (c : Coordinator) (batch : Batch) (d : Decision) : Prop where
  requeued : d.requeued = .ok (batch.map fun op => { op with attempts := op.attempts + 1 })
  store : d.coordinator.store = c.store
  tally : d.coordinator.tally = { c.tally with retried := c.tally.retried + batch.length }

theorem mayRetry_iff (hMax : c.maxRetries = .whole m) (op : Operation) :
    c.mayRetry op = decide (op.attempts < m) := by
  rw [mayRetry, hMax, Quantity.isBelow_whole, Bool.eq_iff_iff]
  simp only [Bool.not_eq_true', decide_eq_false_iff_not, decide_eq_true_eq]
  omega

theorem retryAll_of_spent (hMax : c.maxRetries = .whole m) {ops : List Operation}
    (hSpent : ∃ op ∈ ops, (m : Int) ≤ op.attempts) {escalation : Fault}
    (hAbort : escalation.isAbort = true) : EndsRun c (c.retryAll ops escalation) := by
  have hSome : ops.all c.mayRetry = false := by
    obtain ⟨op, hOp, hAttempts⟩ := hSpent
    refine List.all_eq_false.mpr ⟨op, hOp, ?_⟩
    rw [mayRetry_iff hMax, decide_eq_true_eq]
    omega
  rw [retryAll, hSome]
  exact ⟨⟨escalation, rfl, hAbort⟩, rfl, rfl⟩

theorem retryAll_of_left (hMax : c.maxRetries = .whole m) {ops : List Operation}
    (hLeft : ¬∃ op ∈ ops, (m : Int) ≤ op.attempts) (escalation : Fault) :
    Repeats c ops (c.retryAll ops escalation) := by
  have hAll : ops.all c.mayRetry = true := by
    refine List.all_eq_true.mpr fun op hOp => ?_
    rw [mayRetry_iff hMax, decide_eq_true_eq]
    exact not_le.mp fun hSpent => hLeft ⟨op, hOp, hSpent⟩
  rw [retryAll, hAll]
  exact ⟨rfl, rfl, by simp [countRetries]⟩

/-- What is not sent again is reported, however many retries there are. -/
theorem report?_eq (c : Coordinator) (f : ItemFailure) :
    c.report? f = if (c.verdict f).isNone then none else some (reportOf f) := by
  unfold report? verdict reportOf
  cases hClass : FailureClass.of f.status f.errorType with
  | permanent => simp
  | transient | connectivity => by_cases hLeft : c.mayRetry f.op = true <;> simp [hLeft]

theorem reports_eq (c : Coordinator) (failed : List ItemFailure) :
    failed.filterMap c.report? = (failed.filter fun f => (c.verdict f).isSome).map reportOf := by
  induction failed with
  | nil => rfl
  | cons f rest ih =>
      rw [List.filterMap_cons, report?_eq, ih]
      cases hVerdict : c.verdict f <;> simp [hVerdict]

theorem verdict_isNone (hMax : c.maxRetries = .whole m) (f : ItemFailure) :
    (c.verdict f).isNone = isSentAgain m f := by
  unfold verdict isSentAgain
  cases hClass : FailureClass.of f.status f.errorType with
  | permanent => simp
  | transient | connectivity =>
      simp only [mayRetry_iff hMax]
      by_cases hLeft : f.op.attempts < m <;> simp [hLeft]

theorem verdict_isSome (hMax : c.maxRetries = .whole m) (f : ItemFailure) :
    (c.verdict f).isSome = !isSentAgain m f := by
  rw [← verdict_isNone hMax, Option.not_isNone]

theorem resent_eq (hMax : c.maxRetries = .whole m) (failed : List ItemFailure) :
    c.resent failed = (failed.filter (isSentAgain m)).map fun f =>
      { f.op with attempts := f.op.attempts + 1 } := by
  simp only [resent, verdict_isNone hMax]
  rfl

theorem onOutcome_of_exhausted (hMax : c.maxRetries = .whole m) (h : Exhausted m o) :
    EndsRun c (c.onOutcome now o) := by
  obtain ⟨hNone, hSome, hLost, f, hf, hSpent⟩ := h
  have hCommit : (c.afterMalformed 0).acknowledge now o.succeeded = .ok (c.afterMalformed 0) := by
    rw [hNone, acknowledge, List.filterMap_nil, countDone_nil]
  rw [onOutcome_of_committed hCommit]
  cases hFailed : o.failed with
  | nil => exact absurd hFailed hSome
  | cons first rest =>
      rw [hFailed] at hLost hf
      have hUnreachable : allUnreachable (first :: rest) = true := by
        rw [allUnreachable, List.all_eq_true]
        exact fun g hg => decide_eq_true (hLost g hg)
      simp only [hNone, hUnreachable, List.isEmpty_nil, Bool.and_self, if_true]
      have hSame : (c.afterMalformed 0).maxRetries = .whole m := hMax
      have hEnds : EndsRun (c.afterMalformed 0) ((c.afterMalformed 0).retryAll
          ((first :: rest).map (·.op)) (.connectivityLost (rest.length + 1) first.reason)) :=
        retryAll_of_spent hSame ⟨f.op, List.mem_map_of_mem hf, hSpent⟩ rfl
      exact ⟨hEnds.requeued, hEnds.store, hEnds.tally⟩

theorem requeued_of_spared (hMax : c.maxRetries = .whole m)
    (hCommits : ∃ t, c.store.Commits now (o.succeeded.filterMap (·.update)) t) (h : ¬Exhausted m o) :
    ∃ again, (c.onOutcome now o).requeued = .ok again := by
  obtain ⟨committed, hCommit, hSame⟩ : ∃ committed,
      (c.afterMalformed 0).acknowledge now o.succeeded = .ok committed ∧
        committed.maxRetries = .whole m := by
    obtain ⟨store, hStore⟩ := hCommits
    exact ⟨_, acknowledge_eq_ok_iff.mpr ⟨store, hStore, rfl⟩, hMax⟩
  rw [onOutcome_of_committed hCommit]
  cases hFailed : o.failed with
  | nil => exact ⟨[], rfl⟩
  | cons first rest =>
      dsimp only
      split
      · next hLost =>
          rw [Bool.and_eq_true, List.isEmpty_iff, allUnreachable, List.all_eq_true] at hLost
          refine ⟨_, (retryAll_of_left hSame (fun hSpent => h ?_) _).requeued⟩
          obtain ⟨op, hOp, hAttempts⟩ := hSpent
          obtain ⟨f, hf, rfl⟩ := List.mem_map.mp hOp
          rw [Exhausted, hFailed]
          exact ⟨hLost.1, List.cons_ne_nil _ _, fun g hg => of_decide_eq_true (hLost.2 g hg), f, hf,
            hAttempts⟩
      · exact ⟨_, rfl⟩

theorem onOutcome_of_spared (hMax : c.maxRetries = .whole m)
    (hCommits : ∃ t, c.store.Commits now (o.succeeded.filterMap (·.update)) t) (h : ¬Exhausted m o) :
    Settles m c now o (c.onOutcome now o) := by
  obtain ⟨again, hRequeued⟩ := requeued_of_spared hMax hCommits h
  obtain ⟨hAgain, committed, hCommit, hCoordinator⟩ := onOutcome_ok hRequeued
  obtain ⟨store, hStore, rfl⟩ := acknowledge_eq_ok_iff.mp hCommit
  rw [resent_eq hMax] at hAgain
  refine ⟨hRequeued.trans (congrArg Except.ok hAgain), ?_, ?_⟩
  · rw [hCoordinator]
    exact hStore
  · rw [hCoordinator, reports_eq, hAgain]
    simp [countRetries, report, countDone, List.countP_eq_length_filter, verdict_isSome hMax]

theorem onFailure_of_fatal (hMax : c.maxRetries = .whole m) {before : Bool}
    (hBefore : 0 < c.malformed ↔ before = true) (h : Fatal m before batch f) :
    EndsRun c (c.onFailure batch f) := by
  suffices hJudge : EndsRun c (c.judge batch f) from ⟨hJudge.requeued, hJudge.store, hJudge.tally⟩
  cases f with
  | protocol text raw =>
      have hAgain : 1 < c.malformed + 1 := Nat.succ_lt_succ (hBefore.mpr h)
      simp only [judge, if_pos hAgain]
      exact ⟨⟨_, rfl, rfl⟩, rfl, rfl⟩
  | connection text | timeout text => exact retryAll_of_spent hMax h rfl
  | _ => exact ⟨⟨_, rfl, rfl⟩, rfl, rfl⟩

theorem onFailure_of_mild (hMax : c.maxRetries = .whole m) {before : Bool}
    (hBefore : 0 < c.malformed ↔ before = true) (h : ¬Fatal m before batch f) :
    Repeats c batch (c.onFailure batch f) := by
  suffices hJudge : Repeats c batch (c.judge batch f) from
    ⟨hJudge.requeued, hJudge.store, hJudge.tally⟩
  cases f with
  | protocol text raw =>
      have hFirst : ¬1 < c.malformed + 1 := fun hAgain => h (hBefore.mp (Nat.lt_of_succ_lt_succ hAgain))
      simp only [judge, if_neg hFirst]
      exact ⟨rfl, rfl, by simp [countRetries]⟩
  | connection text | timeout text => exact retryAll_of_left hMax h _
  | _ => exact absurd trivial h

/-- **What the calls of a coordinator come to.** After any calls, an outcome whose updates can be
committed either is exhausted and ends the run, or it is settled; and the failure of a request as a
whole either is fatal and ends the run, or the request is sent again as a whole. A call that ends the
run has changed neither the store nor the tally. -/
theorem calls_are_exact (m : Nat) (store : Store) (calls : List Call) :
    let c := (start (.whole m) store).after calls
    (∀ now o, (∃ t, c.store.Commits now (o.succeeded.filterMap (·.update)) t) →
      (Exhausted m o → EndsRun c (c.onOutcome now o)) ∧
      (¬Exhausted m o → Settles m c now o (c.onOutcome now o))) ∧
    ∀ batch f,
      (Fatal m (malformedSince calls) batch f → EndsRun c (c.onFailure batch f)) ∧
      (¬Fatal m (malformedSince calls) batch f → Repeats c batch (c.onFailure batch f)) := by
  intro c
  have hMax : c.maxRetries = .whole m := after_maxRetries (start (.whole m) store) calls
  have hBefore : 0 < c.malformed ↔ malformedSince calls = true := malformed_after _ store calls
  exact ⟨fun now o hCommits => ⟨onOutcome_of_exhausted hMax, onOutcome_of_spared hMax hCommits⟩,
    fun batch f => ⟨onFailure_of_fatal hMax hBefore, onFailure_of_mild hMax hBefore⟩⟩

/-- The deletion of a document. -/
def deletionOf (id : String) (attempts : Int) : Operation := ⟨.delete, id, none, attempts⟩

/-- One operation succeeds, and another one loses its connection with no retries left. -/
def halfLost : Outcome where
  succeeded := [deletionOf "1" 0]
  failed := [⟨deletionOf "2" 1, .str "gone", none, some "node_disconnected_exception"⟩]

/-- After a malformed response, with one retry: another one ends the run, while an outcome in which
something succeeded is settled. -/
theorem calls_after_malformed :
    let c := (start (.whole 1) .empty).after [.failure [deletionOf "1" 0] (.protocol "no items" .null)]
    EndsRun c (c.onFailure [deletionOf "1" 1] (.protocol "no items" .null)) ∧
      Settles 1 c ⟨⟨0⟩, none⟩ halfLost (c.onOutcome ⟨⟨0⟩, none⟩ halfLost) := by
  intro c
  obtain ⟨hOutcome, hFailure⟩ :=
    calls_are_exact 1 .empty [.failure [deletionOf "1" 0] (.protocol "no items" .null)]
  refine ⟨(hFailure _ _).1 rfl, (hOutcome _ _ ⟨c.store, ?_⟩).2 fun hLost => ?_⟩
  · have hNone : halfLost.succeeded.filterMap (·.update) = [] := rfl
    rw [hNone, Store.Commits, if_pos rfl]
    rfl
  · exact List.cons_ne_nil _ _ hLost.1

end Coordinator
end Indexer
