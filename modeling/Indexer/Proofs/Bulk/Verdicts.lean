import Indexer.Proofs.Bulk.Decision
import Mathlib.Algebra.BigOperators.Group.Multiset.Basic

/-! Destinations whose verdict on an operation depends on the operation alone,
with the attempts made so far. What becomes of an operation in the end then
depends on nothing else either: not on the operations that it shares requests
with, and not on when it is sent. -/
namespace Indexer

/-- How an operation is turned away. -/
structure Refusal where
  reason : Json
  status : Option Quantity
  errorType : Option String

def Refusal.failure (r : Refusal) (op : Operation) : ItemFailure :=
  ⟨op, r.reason, r.status, r.errorType⟩

/-- What a destination makes of each operation: it takes it, or turns it away. -/
def Verdicts : Type := Operation → Option Refusal

/-- What became of an operation once nothing is tried any more. -/
structure Lot where
  content : Operation
  /-- How often it was sent again. -/
  retries : Nat
  /-- How it was reported; an operation without a report is acknowledged. -/
  report : Option Report

namespace Lot

def again (lot : Lot) : Lot := { lot with retries := lot.retries + 1 }

/-- All retries of some operations. -/
def retried (lots : Multiset Lot) : Nat := (lots.map retries).sum

/-- The reports about some operations. -/
def reports (lots : Multiset Lot) : Multiset Report := lots.filterMap report

/-- The contents of the operations that are acknowledged. -/
def acknowledged (lots : Multiset Lot) : Multiset Operation :=
  (lots.filter fun lot => lot.report.isNone = true).map content

variable (lots more : Multiset Lot) (lot : Lot)

@[simp] theorem retried_cons : retried (lot ::ₘ lots) = lot.retries + retried lots := by
  simp [retried]

@[simp] theorem retried_add : retried (lots + more) = retried lots + retried more := by
  simp [retried]

@[simp] theorem reports_add : reports (lots + more) = reports lots + reports more :=
  Multiset.filterMap_add _ _ _

theorem reports_cons : reports (lot ::ₘ lots) = (lot.report.toList : Multiset Report) + reports lots := by
  cases hReport : lot.report with
  | none => simp [reports, Multiset.filterMap_cons_none _ _ hReport]
  | some r => simp [reports, Multiset.filterMap_cons_some _ _ _ hReport]

@[simp] theorem acknowledged_add :
    acknowledged (lots + more) = acknowledged lots + acknowledged more := by
  simp [acknowledged]

theorem acknowledged_cons : acknowledged (lot ::ₘ lots) =
    (if lot.report.isNone then {lot.content} else 0) + acknowledged lots := by
  cases hReport : lot.report <;> simp [acknowledged, hReport]

end Lot

namespace Verdicts

/-- What a request comes to. -/
def outcome (v : Verdicts) (batch : Batch) : Outcome where
  succeeded := batch.filter fun op => (v op).isNone
  failed := batch.filterMap fun op => (v op).map (·.failure op)

/-- No verdict tells of a lost connection. -/
def IsReached (v : Verdicts) : Prop :=
  ∀ op r, v op = some r → FailureClass.of r.status r.errorType ≠ .connectivity

section
variable (v : Verdicts) (c : Coordinator)

/-- The report about an operation that is sent now, if it is refused for good. -/
def report? (op : Operation) : Option Report := (v op).bind fun r => c.report? (r.failure op)

/-- The operation is turned away now and sent again. -/
def triesAgain (op : Operation) : Bool := (v op).isSome && (v.report? c op).isNone

/-- What becomes of an operation: its next verdict decides, or leads to another attempt. -/
inductive Leads : Operation → Lot → Prop where
  | acknowledged {op : Operation} (hTaken : v op = none) : Leads op ⟨op.content, 0, none⟩
  | refused {op : Operation} {r : Report} (hReport : v.report? c op = some r) :
      Leads op ⟨op.content, 0, some r⟩
  | again {op : Operation} {lot : Lot} (hAgain : v.triesAgain c op = true)
      (hLater : Leads op.again lot) : Leads op lot.again

end

variable {v : Verdicts} {c : Coordinator}

theorem report?_of_taken {op : Operation} (h : v op = none) : v.report? c op = none := by
  rw [report?, h, Option.bind_none]

theorem triesAgain_of_taken {op : Operation} (h : v op = none) : v.triesAgain c op = false := by
  rw [triesAgain, h, Option.isSome_none, Bool.false_and]

theorem triesAgain_of_report {op : Operation} {r : Report} (h : v.report? c op = some r) :
    v.triesAgain c op = false := by
  rw [triesAgain, h, Option.isNone_some, Bool.and_false]

theorem leads_congr {c c' : Coordinator} (h : c'.maxRetries = c.maxRetries) :
    v.Leads c' = v.Leads c := by
  have hReport : v.report? c' = v.report? c := by
    funext op
    simp only [report?, Coordinator.report?_congr h]
  have hAgain : v.triesAgain c' = v.triesAgain c := by
    funext op
    simp only [triesAgain, hReport]
  funext op lot
  refine propext ⟨fun hLeads => ?_, fun hLeads => ?_⟩
  · induction hLeads with
    | acknowledged hTaken => exact .acknowledged hTaken
    | refused hRefused => exact .refused (hReport ▸ hRefused)
    | again hNow _ ih => exact .again (hAgain ▸ hNow) ih
  · induction hLeads with
    | acknowledged hTaken => exact .acknowledged hTaken
    | refused hRefused => exact .refused (hReport ▸ hRefused)
    | again hNow _ ih => exact .again (hAgain ▸ hNow) ih

/-- Only one thing can become of an operation. -/
theorem Leads.unique {op : Operation} {lot other : Lot} (h : v.Leads c op lot)
    (hOther : v.Leads c op other) : lot = other := by
  induction h generalizing other with
  | acknowledged hTaken =>
      cases hOther with
      | acknowledged => rfl
      | refused hReport => simp [report?_of_taken hTaken] at hReport
      | again hAgain => simp [triesAgain_of_taken hTaken] at hAgain
  | refused hReport =>
      cases hOther with
      | acknowledged hTaken => simp [report?_of_taken hTaken] at hReport
      | refused hSame => rw [Option.some.inj (hReport.symm.trans hSame)]
      | again hAgain => simp [triesAgain_of_report hReport] at hAgain
  | again hAgain _ ih =>
      cases hOther with
      | acknowledged hTaken => simp [triesAgain_of_taken hTaken] at hAgain
      | refused hReport => simp [triesAgain_of_report hReport] at hAgain
      | again _ hLater => rw [ih hLater]

theorem lots_unique {ops : Multiset Operation} {lots others : Multiset Lot}
    (h : Multiset.Rel (v.Leads c) ops lots) (hOther : Multiset.Rel (v.Leads c) ops others) :
    lots = others := by
  induction h generalizing others with
  | zero => exact (Multiset.rel_zero_left.mp hOther).symm
  | cons hLeads _ ih =>
      obtain ⟨lot, rest, hLot, hRest, rfl⟩ := Multiset.rel_cons_left.mp hOther
      rw [hLeads.unique hLot, ih hRest]

/-- What becomes of the operations of a request is what its response settles, and what becomes of
those that are sent again. -/
theorem lots_of_batch {batch : Batch} {later : Multiset Lot}
    (h : Multiset.Rel (v.Leads c)
      (((batch.filter (v.triesAgain c)).map Operation.again : List Operation) : Multiset Operation)
      later) :
    ∃ lots, Multiset.Rel (v.Leads c) (batch : Multiset Operation) lots ∧
      Lot.retried lots = Lot.retried later + (batch.filter (v.triesAgain c)).length ∧
      Lot.reports lots = (batch.filterMap (v.report? c) : Multiset Report) + Lot.reports later ∧
      Lot.acknowledged lots =
        contents (batch.filter fun op => (v op).isNone) + Lot.acknowledged later := by
  induction batch generalizing later with
  | nil =>
      obtain rfl := Multiset.rel_zero_left.mp h
      exact ⟨0, .zero, rfl, rfl, rfl⟩
  | cons op batch ih =>
      cases hVerdict : v op with
      | none =>
          have hReport := report?_of_taken (c := c) hVerdict
          have hAgain := triesAgain_of_taken (c := c) hVerdict
          simp only [List.filter_cons, hAgain, List.filterMap_cons, hReport, hVerdict] at h ⊢
          obtain ⟨lots, hLots, hRetried, hReports, hTaken⟩ := ih h
          refine ⟨_, .cons (.acknowledged hVerdict) hLots, ?_, ?_, ?_⟩
          · simpa using hRetried
          · simpa [Lot.reports_cons] using hReports
          · rw [Lot.acknowledged_cons, hTaken, ← add_assoc]
            rfl
      | some r =>
          cases hReport : v.report? c op with
          | some report =>
              have hAgain := triesAgain_of_report hReport
              simp only [List.filter_cons, hAgain, List.filterMap_cons, hReport, hVerdict] at h ⊢
              obtain ⟨lots, hLots, hRetried, hReports, hTaken⟩ := ih h
              refine ⟨_, .cons (.refused hReport) hLots, ?_, ?_, ?_⟩
              · simpa using hRetried
              · rw [Lot.reports_cons, hReports, ← add_assoc]
                rfl
              · simpa [Lot.acknowledged_cons] using hTaken
          | none =>
              have hAgain : v.triesAgain c op = true := by simp [triesAgain, hVerdict, hReport]
              simp only [List.filter_cons, hAgain, List.filterMap_cons, hReport, hVerdict, if_true,
                List.map_cons] at h ⊢
              rw [← Multiset.cons_coe] at h
              obtain ⟨lot, rest, hLot, hRest, rfl⟩ := Multiset.rel_cons_left.mp h
              obtain ⟨lots, hLots, hRetried, hReports, hTaken⟩ := ih hRest
              refine ⟨_, .cons (.again hAgain hLot) hLots, ?_, ?_, ?_⟩
              · simp only [Lot.retried_cons, hRetried, Lot.again, List.length_cons]
                omega
              · rw [Lot.reports_cons, Lot.reports_cons, hReports, add_left_comm]
                rfl
              · simp only [Lot.acknowledged_cons, hTaken, Lot.again]
                exact add_left_comm _ _ _

theorem resent_outcome (batch : Batch) :
    c.resent (v.outcome batch).failed = (batch.filter (v.triesAgain c)).map Operation.again := by
  induction batch with
  | nil => rfl
  | cons op batch ih =>
      rw [Coordinator.resent] at ih ⊢
      cases hVerdict : v op with
      | none =>
          have hSame : (v.outcome (op :: batch)).failed = (v.outcome batch).failed := by
            simp [outcome, hVerdict]
          rw [hSame, ih, List.filter_cons, triesAgain_of_taken hVerdict]
          rfl
      | some r =>
          have hMore : (v.outcome (op :: batch)).failed =
              r.failure op :: (v.outcome batch).failed := by
            simp [outcome, hVerdict]
          have hReport : v.report? c op = c.report? (r.failure op) := by simp [report?, hVerdict]
          rw [hMore, List.filter_cons, List.filter_cons, triesAgain, hVerdict, hReport,
            Coordinator.report?]
          cases c.verdict (r.failure op) with
          | none => exact congrArg (op.again :: ·) ih
          | some reason => exact ih

theorem reports_outcome (batch : Batch) :
    (v.outcome batch).failed.filterMap c.report? = batch.filterMap (v.report? c) := by
  rw [outcome, List.filterMap_filterMap]
  refine List.filterMap_congr fun op _ => ?_
  cases hVerdict : v op <;> simp [report?, hVerdict]

/-- A destination that is reached has its verdicts followed, once what it takes is on record. -/
theorem IsReached.requeued {committed : Coordinator} {now : DateTime} (h : v.IsReached)
    {batch : Batch}
    (hCommit : (c.afterMalformed 0).acknowledge now (v.outcome batch).succeeded = .ok committed) :
    ∃ again, (c.onOutcome now (v.outcome batch)).requeued = .ok again := by
  rw [Coordinator.onOutcome_of_committed hCommit]
  cases hFailed : (v.outcome batch).failed with
  | nil => exact ⟨[], rfl⟩
  | cons first rest =>
      have hFirst : first ∈ (v.outcome batch).failed := hFailed ▸ List.mem_cons_self
      obtain ⟨op, _, hVerdict⟩ := List.mem_filterMap.mp hFirst
      obtain ⟨r, hRefusal, rfl⟩ := Option.map_eq_some_iff.mp hVerdict
      have hClass := h op r hRefusal
      have hNotLost : Coordinator.allUnreachable (r.failure op :: rest) = false := by
        rw [Coordinator.allUnreachable, List.all_cons, Refusal.failure]
        simp [hClass]
      simp only [hNotLost, Bool.and_false, Bool.false_eq_true, if_false]
      exact ⟨_, rfl⟩

end Verdicts
end Indexer
