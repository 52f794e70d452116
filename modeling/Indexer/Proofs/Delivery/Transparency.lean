import Indexer.Proofs.Bulk.Verdicts
import Indexer.Proofs.Delivery.Endings
import Indexer.Proofs.Delivery.Whole
import Indexer.Proofs.Store.Order

/-! Batching is transparent. As long as the verdicts on operations depend on the
operations alone, what a run comes to is the sum of what becomes of each
operation. So two runs that add the same operations come to the same, however
they cut their batches. -/
namespace Indexer

/-- Each request that ends does so at the given time, with the verdicts on its operations. -/
def Verdicts.Meets (v : Verdicts) (now : DateTime) (d : Delivery) (e : Delivery.Event) : Prop :=
  ∀ x, d.ending? e = some x → x.now = now ∧ x.result = .ok (v.outcome x.batch)

theorem Coordinator.acknowledge_failed {c committed : Coordinator} {now : DateTime}
    {ops : List Operation} {n : Nat} (h : (c.afterMalformed n).acknowledge now ops = .ok committed) :
    committed.tally.failed = c.tally.failed := by
  rw [acknowledge_eq] at h
  cases hStore : (ops.map (Receipt.mk now)).foldlM Store.record c.store with
  | error f => simp [hStore, Except.map] at h
  | ok store =>
      simp only [afterMalformed_store, hStore, Except.map, Except.ok.injEq] at h
      rw [← h]
      rfl

namespace Delivery

variable {v : Verdicts} {now : DateTime} {d : Delivery}

/-- The reports so far, in any order. -/
def reports (d : Delivery) : Multiset Report := d.coordinator.tally.failed

/-- What a run comes to, beyond what was there at its start: what becomes of the operations. -/
structure Sums (v : Verdicts) (d last : Delivery) (ops : Multiset Operation)
    (acked : Multiset Operation) (lots : Multiset Lot) : Prop where
  leads : Multiset.Rel (v.Leads d.coordinator) ops lots
  retried : last.coordinator.tally.retried = d.coordinator.tally.retried + Lot.retried lots
  reports : last.reports = d.reports + Lot.reports lots
  acknowledged : acked = Lot.acknowledged lots

theorem resolve_of_meets {e : Event} {x : Ending} (hMeets : v.Meets now d e)
    (h : d.ending? e = some x) :
    d.resolve x = d.coordinator.onOutcome now (v.outcome x.batch) := by
  obtain ⟨hNow, hResult⟩ := hMeets x h
  rw [resolve, hResult, hNow]

/-- What a request comes to that ends now, told by the verdicts on its operations. -/
structure Judged (v : Verdicts) (d : Delivery) (batch : Batch) (acked : List Operation)
    (next : Delivery) : Prop where
  outstanding : next.outstanding.Perm
    ((batch.filter (v.triesAgain d.coordinator)).map Operation.again ++ d.waiting)
  maxRetries : next.coordinator.maxRetries = d.coordinator.maxRetries
  retried : next.coordinator.tally.retried =
    d.coordinator.tally.retried + (batch.filter (v.triesAgain d.coordinator)).length
  reports : next.reports = d.reports + (batch.filterMap (v.report? d.coordinator) : Multiset Report)
  acknowledged : acked = batch.filter fun op => (v op).isNone

theorem judged_of_ending (hOrderly : d.Orderly) {e : Event} {x : Ending} (hMeets : v.Meets now d e)
    (h : d.ending? e = some x) (hWhole : (d.step e).IsWhole) :
    Judged v d x.batch (d.acknowledged e) (d.step e) := by
  have hResolve := resolve_of_meets hMeets h
  cases hRequeued : (d.resolve x).requeued with
  | error f =>
      obtain ⟨n, log, hStep⟩ := givenUp_of_ending h hRequeued
      rw [hStep] at hWhole
      cases hWhole.1
  | ok again =>
      obtain ⟨n, log, hPlaced⟩ := placed_of_ending hOrderly h hRequeued
      rw [hResolve] at hRequeued hPlaced
      obtain ⟨hAgain, committed, hCommit, hCoordinator⟩ := Coordinator.onOutcome_ok hRequeued
      have hSettled := settled_of_outcome hCommit again
      rw [← hCoordinator] at hSettled
      obtain ⟨hSame, _, _, _⟩ := hPlaced.frame
      replace hSame : (d.step e).coordinator =
        (d.coordinator.onOutcome now (v.outcome x.batch)).coordinator := hSame
      obtain ⟨lost, hPerm, hLost⟩ := hPlaced.perm rfl
      rw [hLost hWhole, List.append_nil] at hPerm
      rw [Verdicts.resent_outcome] at hAgain
      refine ⟨hAgain ▸ hPerm, hSame ▸ hSettled.maxRetries, ?_, ?_, ?_⟩
      · rw [hSame, hSettled.retried, hAgain, List.length_map]
      · rw [reports, hSame, hCoordinator, reports, ← Verdicts.reports_outcome,
          ← Coordinator.acknowledge_failed hCommit, Multiset.coe_add]
        rfl
      · rw [acknowledged, receipts_of_ending h (hMeets x h).2, Receipt.ops_map]
        rfl

/-- A step that ends a request adds to the sums what its verdicts settle. -/
theorem sums_of_ending (hOrderly : d.Orderly) {e : Event} {x : Ending} (hMeets : v.Meets now d e)
    (h : d.ending? e = some x) (hWhole : (d.step e).IsWhole) {last : Delivery}
    {more acked : Multiset Operation} {lots : Multiset Lot}
    (hSums : Sums v (d.step e) last ((d.step e).outstanding + more) acked lots) :
    ∃ lots, Sums v d last (d.outstanding + more) (contents (d.acknowledged e) + acked) lots := by
  obtain ⟨hSender, _⟩ := step_of_ending h
  have hJudged := judged_of_ending hOrderly hMeets h hWhole
  -- what the sums are about is divided into what is sent again and the rest
  have hLeads := hSums.leads
  rw [Multiset.coe_eq_coe.mpr hJudged.outstanding, ← Multiset.coe_add, add_assoc,
    Verdicts.leads_congr hJudged.maxRetries, Multiset.rel_add_left] at hLeads
  obtain ⟨later, rest, hLater, hRest, rfl⟩ := hLeads
  obtain ⟨settled, hBatch, hRetried, hReports, hAcked⟩ := Verdicts.lots_of_batch hLater
  refine ⟨settled + rest, ?_, ?_, ?_, ?_⟩
  · rw [d.outstanding_eq, hSender, ← Multiset.coe_add, add_assoc]
    exact hBatch.add hRest
  · rw [hSums.retried, hJudged.retried, Lot.retried_add, Lot.retried_add, hRetried]
    omega
  · rw [hSums.reports, hJudged.reports, Lot.reports_add, Lot.reports_add, hReports]
    abel
  · rw [hSums.acknowledged, hJudged.acknowledged, Lot.acknowledged_add, Lot.acknowledged_add, hAcked,
      add_assoc]

/-- A step that ends no request leaves the sums as they are. -/
theorem sums_of_shifts {e : Event} (hShifts : Shifts d (d.groups e) (d.step e))
    (hReceipts : d.receipts e = []) (hWhole : (d.step e).IsWhole) {last : Delivery}
    {more acked : Multiset Operation} {lots : Multiset Lot}
    (hSums : Sums v (d.step e) last ((d.step e).outstanding + more) acked lots) :
    Sums v d last (d.outstanding + ((d.accepted e : Multiset Operation) + more))
      (contents (d.acknowledged e) + acked) lots := by
  obtain ⟨lost, hPerm, hLost⟩ := hShifts.carried
  rw [hLost hWhole, List.append_nil, flatten_groups] at hPerm
  obtain ⟨hLeads, hRetried, hReports, hAcked⟩ := hSums
  rw [Multiset.coe_eq_coe.mpr hPerm, ← Multiset.coe_add, add_assoc] at hLeads
  rw [hShifts.coordinator] at hLeads hRetried
  refine ⟨hLeads, hRetried, ?_, ?_⟩
  · rw [hReports, reports, reports, hShifts.coordinator]
  · rw [acknowledged, hReceipts, List.map_nil, contents_nil, zero_add, hAcked]

/-- What a whole run comes to that leaves nothing outstanding. -/
theorem run_sums (hOrderly : d.Orderly) (events : List Event)
    (hMeets : d.Throughout (v.Meets now) events) (hWhole : (d.run events).IsWhole)
    (hRest : (d.run events).outstanding = []) :
    ∃ lots, Sums v d (d.run events)
      ((d.outstanding : Multiset Operation) + (d.collect accepted events : Multiset Operation))
      (contents (d.collect acknowledged events)) lots := by
  induction events generalizing d with
  | nil =>
      refine ⟨0, ?_, ?_, ?_, rfl⟩
      · rw [show d.outstanding = [] from hRest]
        exact .zero
      · exact (add_zero _).symm
      · exact (add_zero _).symm
  | cons e events ih =>
      obtain ⟨hNow, hLater⟩ := hMeets
      have hNext := hOrderly.move (step_move hOrderly e)
      have hWholeNext : (d.step e).IsWhole := run_whole hNext events hWhole
      obtain ⟨lots, hSums⟩ := ih hNext hLater hWhole hRest
      rw [collect, collect, contents_append, ← Multiset.coe_add]
      cases hEnding : d.ending? e with
      | none =>
          obtain ⟨hReceipts, _, hShifts⟩ := step_shifts hOrderly hEnding
          exact ⟨lots, sums_of_shifts hShifts hReceipts hWholeNext hSums⟩
      | some x =>
          rw [accepted_of_ending hEnding, Multiset.coe_nil, zero_add]
          exact sums_of_ending hOrderly hNow hEnding hWholeNext hSums

/-- A destination that is reached ends no run, as long as all that comes in can be put on record. -/
theorem run_fatal_of_meets (hOrderly : d.Orderly) (hReached : v.IsReached) (hNow : now.IsReading)
    (events : List Event) (hMeets : d.Throughout (v.Meets now) events)
    (hOut : ∀ op ∈ d.outstanding, op.Writable)
    (hAdded : ∀ op ∈ d.collect accepted events, op.Writable) : (d.run events).fatal = d.fatal := by
  refine run_fatal (fun hOrderly hOut hMeets hEnding => ?_) hOrderly events hMeets hOut hAdded
  obtain ⟨hTime, hResult⟩ := hMeets _ hEnding
  exact fatal_of_ending hOrderly hEnding hResult (hTime ▸ hNow) (List.filter_subset_self _) hOut
    fun committed => hReached.requeued

/-- Everything is acknowledged at the one time that the requests end at. -/
theorem receipts_of_meets (hOrderly : d.Orderly) (events : List Event)
    (hMeets : d.Throughout (v.Meets now) events) :
    d.collect receipts events = (d.collect acknowledged events).map (Receipt.mk now) := by
  induction events generalizing d with
  | nil => rfl
  | cons e events ih =>
      obtain ⟨hNow, hLater⟩ := hMeets
      have hNext := ih (hOrderly.move (step_move hOrderly e)) hLater
      have hStep : d.receipts e = (d.acknowledged e).map (Receipt.mk now) := by
        rw [acknowledged]
        cases hEnding : d.ending? e with
        | none => simp [(step_shifts hOrderly hEnding).1]
        | some x =>
            obtain ⟨hTime, hResult⟩ := hNow x hEnding
            rw [receipts_of_ending hEnding hResult, Receipt.ops_map, hTime]
      rw [collect, collect, List.map_append, hStep, hNext]

/-- What two runs come to is the same. -/
structure SameResult (d d' : Delivery) : Prop where
  store : d.coordinator.store.Same d'.coordinator.store
  indexed : d.coordinator.tally.indexed = d'.coordinator.tally.indexed
  deleted : d.coordinator.tally.deleted = d'.coordinator.tally.deleted
  retried : d.coordinator.tally.retried = d'.coordinator.tally.retried
  failed : d.coordinator.tally.failed.Perm d'.coordinator.tally.failed

/-- What a run that has come to rest comes to, told by the operations that were added. -/
theorem sums_of_close {settings : Settings} {store : Store} {events : List Event}
    (hReached : v.IsReached) (hNow : now.IsReading)
    (hMeets : (create settings store).Throughout (v.Meets now) events)
    (hWritable : ∀ op ∈ (create settings store).collect accepted events, op.Writable)
    (hOrders : .abort ∉ events) (hInTime : (create settings store).Throughout InTime events)
    (hRest : ((create settings store).run events).stage = .idle) :
    ((create settings store).run events).IsWhole ∧
    ∃ lots, Sums v (create settings store) ((create settings store).run events)
      ((create settings store).collect accepted events : Multiset Operation)
      (contents ((create settings store).collect acknowledged events)) lots := by
  have hStart := orderly_create settings store
  have hFatal : ((create settings store).run events).fatal = none :=
    run_fatal_of_meets hStart hReached hNow events hMeets (by simp [outstanding, create, waiting,
      line, Sender.held, Buffer.empty]) hWritable
  have hWhole : ((create settings store).run events).IsWhole :=
    ⟨hFatal, run_aborting hStart rfl hOrders hFatal⟩
  have hNothing := outstanding_of_inTime settings store events hInTime hRest
  obtain ⟨lots, hSums⟩ := run_sums hStart events hMeets hWhole hNothing
  refine ⟨hWhole, lots, ?_⟩
  rw [show (create settings store).outstanding = [] from rfl, Multiset.coe_nil, zero_add] at hSums
  exact hSums

/-- The store at the end of a run that has come to rest is made by its acknowledgements, in whatever
order. -/
theorem stores_of_perm {settings settings' : Settings} {store : Store} {events events' : List Event}
    (hNow : now.IsReading) (hMeets : (create settings store).Throughout (v.Meets now) events)
    (hMeets' : (create settings' store).Throughout (v.Meets now) events')
    (hWritable : ∀ op ∈ (create settings store).collect accepted events, op.Writable)
    (hKeys : ((((create settings store).collect accepted events).filterMap (·.update)).map
      StateUpdate.key).Nodup)
    (hWhole : ((create settings store).run events).IsWhole)
    (hWhole' : ((create settings' store).run events').IsWhole)
    (hAcked : (((create settings store).collect acknowledged events).map Operation.content).Perm
      (((create settings' store).collect acknowledged events').map Operation.content)) :
    ((create settings store).run events).coordinator.store.Same
      ((create settings' store).run events').coordinator.store := by
  have hStart := orderly_create settings store
  have hStore := run_store_of_whole hStart events hWhole
  have hStore' := run_store_of_whole (orderly_create settings' store) events' hWhole'
  rw [receipts_of_meets hStart events hMeets, ← Store.foldlM_record_contents] at hStore
  rw [receipts_of_meets (orderly_create settings' store) events' hMeets',
    ← Store.foldlM_record_contents] at hStore'
  refine Store.same_of_perm hNow hAcked ?_ ?_ hStore hStore'
  · obtain ⟨lost, hBalance, _⟩ := run_balance hStart events
    refine Operation.pairwise_apart_of_contents ?_ hKeys
    rw [show (create settings store).outstanding = [] from rfl, contents_nil, zero_add] at hBalance
    rw [← hBalance, add_comm (contents _) (contents _), add_assoc, add_assoc]
    exact Multiset.le_add_right _ _
  · intro op hOp
    obtain ⟨first, hFirst, rfl⟩ := List.mem_map.mp hOp
    rw [collect_acknowledged] at hFirst
    obtain ⟨r, hr, rfl⟩ := List.mem_map.mp hFirst
    exact run_spreads writable_of_copy hStart events
      (by simp [show (create settings store).outstanding = [] from rfl]) hWritable r hr

/-- Kinds are counted by content. -/
theorem length_filter_kind {ops more : List Operation}
    (h : (ops.map Operation.content).Perm (more.map Operation.content)) (kind : OpKind) :
    (ops.filter (·.kind = kind)).length = (more.filter (·.kind = kind)).length := by
  have hLength := (h.filter (·.kind = kind)).length_eq
  rwa [List.filter_map, List.filter_map, List.length_map, List.length_map] at hLength

/-- Batching is transparent. Two runs that add the same operations come to the same, as far as the
verdicts depend on the operations and their attempts alone, no matter how many operations make a batch,
when batches are cut and which operations share a request, as long as all happens in time. -/
theorem batching_is_transparent (v : Verdicts) (now : DateTime) (settings settings' : Settings)
    (store : Store) (events events' : List Event) (hReached : v.IsReached) (hNow : now.IsReading)
    (hRetries : settings'.maxRetries = settings.maxRetries)
    (hAdded : ((create settings' store).collect accepted events').Perm
      ((create settings store).collect accepted events))
    (hWritable : ∀ op ∈ (create settings store).collect accepted events, op.Writable)
    (hKeys : ((((create settings store).collect accepted events).filterMap (·.update)).map
      StateUpdate.key).Nodup)
    (hMeets : (create settings store).Throughout (v.Meets now) events)
    (hMeets' : (create settings' store).Throughout (v.Meets now) events')
    (hOrders : .abort ∉ events) (hOrders' : .abort ∉ events')
    (hInTime : (create settings store).Throughout InTime events)
    (hInTime' : (create settings' store).Throughout InTime events')
    (hRest : ((create settings store).run events).stage = .idle)
    (hRest' : ((create settings' store).run events').stage = .idle) :
    let d := (create settings store).run events
    let d' := (create settings' store).run events'
    d.IsWhole ∧ d'.IsWhole ∧ d.SameResult d' := by
  intro d d'
  have hWritable' : ∀ op ∈ (create settings' store).collect accepted events', op.Writable :=
    fun op hOp => hWritable op (hAdded.mem_iff.mp hOp)
  obtain ⟨hWhole, lots, hSums⟩ := sums_of_close hReached hNow hMeets hWritable hOrders hInTime hRest
  obtain ⟨hWhole', lots', hSums'⟩ :=
    sums_of_close hReached hNow hMeets' hWritable' hOrders' hInTime' hRest'
  -- the same operations have the same lots, since an operation has only one
  obtain rfl : lots = lots' := by
    refine Verdicts.lots_unique hSums.leads ?_
    have hLeads : v.Leads (create settings' store).coordinator =
        v.Leads (create settings store).coordinator := Verdicts.leads_congr hRetries
    rw [← Multiset.coe_eq_coe.mpr hAdded, ← hLeads]
    exact hSums'.leads
  have hAcked : (((create settings store).collect acknowledged events).map Operation.content).Perm
      (((create settings' store).collect acknowledged events').map Operation.content) :=
    Multiset.coe_eq_coe.mp (hSums.acknowledged.trans hSums'.acknowledged.symm)
  obtain ⟨hIndexed, hDeleted⟩ := run_done (orderly_create settings store) events hWhole
  obtain ⟨hIndexed', hDeleted'⟩ := run_done (orderly_create settings' store) events' hWhole'
  refine ⟨hWhole, hWhole', ?_, ?_, ?_, ?_, ?_⟩
  · exact stores_of_perm hNow hMeets hMeets' hWritable hKeys hWhole hWhole' hAcked
  · rw [hIndexed, hIndexed']
    exact congrArg (fun n : Nat => (0 : Int) + n) (length_filter_kind hAcked .index)
  · rw [hDeleted, hDeleted']
    exact congrArg (fun n : Nat => (0 : Int) + n) (length_filter_kind hAcked .delete)
  · rw [hSums.retried, hSums'.retried]
    rfl
  · exact Multiset.coe_eq_coe.mp (hSums.reports.trans hSums'.reports.symm)

theorem meets_of_other {e : Event} (h : e.isEnd = false) : v.Meets now d e := by
  intro x hEnding
  rw [ending?_of_other h] at hEnding
  cases hEnding

theorem meets_of_answer (batch : Batch) {raw : Json} (hFlight : d.inFlight = some batch)
    (hRaw : (Outcome.ofResponse batch raw).2 = .ok (v.outcome batch)) :
    v.Meets now d (.answer now (.ok raw)) := by
  intro x hEnding
  rw [ending?_of_answer hFlight, Option.some.injEq] at hEnding
  subst hEnding
  exact ⟨rfl, by rw [interpret, hRaw]; rfl⟩

/-- The second of three operations is turned away on its first attempt, and the third for good. -/
def picky : Verdicts := fun op =>
  if op.id = "b" ∧ op.attempts = 0 then some ⟨.str "busy", some (.whole 429), none⟩
  else if op.id = "c" then some ⟨.str "broken", some (.whole 400), none⟩
  else none

/-- Operations for different files. -/
def three : Batch :=
  [⟨.delete, "a", some ⟨"/r", "/r/a", none, some ⟨⟨0⟩, none⟩, false⟩, 0⟩,
    ⟨.delete, "b", some ⟨"/r", "/r/b", none, some ⟨⟨0⟩, none⟩, false⟩, 0⟩,
    ⟨.delete, "c", some ⟨"/r", "/r/c", none, none, true⟩, 0⟩]

/-- The operations share a request. -/
def together : List Event :=
  [.start, .add three, .close, .take, reply [[], turnedAway "busy" 429, turnedAway "broken" 400],
    .proceed, .proceed, .take, reply [[]], .proceed, .proceed, .proceed, .proceed]

/-- With batches of two, the third operation shares a request with the second attempt of the second. -/
def mixed : List Event :=
  [.start, .add (three.take 1), .add ((three.drop 1).take 1), .take,
    reply [[], turnedAway "busy" 429], .add (three.drop 2), .take, reply [[], turnedAway "broken" 400],
    .close, .proceed, .proceed, .proceed, .proceed]

theorem together_and_mixed_come_to_the_same :
    let d := (create (.initial ⟨0, []⟩) .empty).run together
    let d' := (create { Settings.initial ⟨0, []⟩ with bulkSize := .whole 2 } .empty).run mixed
    d.requests.map (·.map fun op => (op.id, op.attempts)) =
      [[("a", 0), ("b", 0), ("c", 0)], [("b", 1)]] ∧
    d'.requests.map (·.map fun op => (op.id, op.attempts)) =
      [[("a", 0), ("b", 0)], [("b", 1), ("c", 0)]] ∧
    d.coordinator.store.rows.map (·.path) = ["/r/a", "/r/b"] ∧ d.SameResult d' := by
  intro d d'
  have hAccepted : (create (.initial ⟨0, []⟩) .empty).collect accepted together = three := by
    decide +kernel
  have hAccepted' : (create { Settings.initial ⟨0, []⟩ with bulkSize := .whole 2 } .empty).collect
      accepted mixed = three := by decide +kernel
  have hReached : picky.IsReached := by
    intro op r hVerdict
    unfold picky at hVerdict
    split at hVerdict
    · cases hVerdict
      decide +kernel
    · split at hVerdict
      · cases hVerdict
        decide +kernel
      · cases hVerdict
  have hWritable : ∀ op ∈ three, op.Writable := by
    intro op hOp u hUpdate
    simp only [three, List.mem_cons, List.not_mem_nil, or_false] at hOp
    rcases hOp with rfl | rfl | rfl <;> cases hUpdate
    · exact StateUpdate.writable_of_reading rfl (by decide)
    · exact StateUpdate.writable_of_reading rfl (by decide)
    · exact StateUpdate.writable_of_remove rfl
  have hMeets :
      (create (.initial ⟨0, []⟩) .empty).Throughout (picky.Meets ⟨⟨0⟩, none⟩) together :=
    ⟨meets_of_other rfl, meets_of_other rfl, meets_of_other rfl, meets_of_other rfl,
      meets_of_answer three (by decide +kernel) rfl, meets_of_other rfl, meets_of_other rfl,
      meets_of_other rfl,
      meets_of_answer [⟨.delete, "b", some ⟨"/r", "/r/b", none, some ⟨⟨0⟩, none⟩, false⟩, 1⟩]
        (by decide +kernel) rfl, meets_of_other rfl, meets_of_other rfl, meets_of_other rfl,
      meets_of_other rfl, trivial⟩
  have hMeets' : (create { Settings.initial ⟨0, []⟩ with bulkSize := .whole 2 } .empty).Throughout
      (picky.Meets ⟨⟨0⟩, none⟩) mixed :=
    ⟨meets_of_other rfl, meets_of_other rfl, meets_of_other rfl, meets_of_other rfl,
      meets_of_answer (three.take 2) (by decide +kernel) rfl, meets_of_other rfl, meets_of_other rfl,
      meets_of_answer [⟨.delete, "b", some ⟨"/r", "/r/b", none, some ⟨⟨0⟩, none⟩, false⟩, 1⟩,
        ⟨.delete, "c", some ⟨"/r", "/r/c", none, none, true⟩, 0⟩]
        (by decide +kernel) rfl, meets_of_other rfl, meets_of_other rfl, meets_of_other rfl,
      meets_of_other rfl, meets_of_other rfl, trivial⟩
  obtain ⟨_, _, hSame⟩ := batching_is_transparent picky ⟨⟨0⟩, none⟩ (.initial ⟨0, []⟩)
    { Settings.initial ⟨0, []⟩ with bulkSize := .whole 2 } .empty together mixed hReached (by decide) rfl
    (by rw [hAccepted, hAccepted']) (by rw [hAccepted]; exact hWritable)
    (by rw [hAccepted]; decide +kernel) hMeets hMeets' (by simp [together, reply])
    (by simp [mixed, reply]) (by decide +kernel) (by decide +kernel) (by decide +kernel)
    (by decide +kernel)
  exact ⟨by decide +kernel, by decide +kernel, by decide +kernel, hSame⟩

/-- Everything is turned away on its first two attempts. -/
def reluctant : Verdicts := fun op =>
  if op.attempts < 2 then some ⟨.str "busy", some (.whole 429), none⟩ else none

/-- An operation is sent back twice, and the flush timer does not go off. -/
def sentBackTwice : List Event :=
  [.start, .add [⟨.delete, "a", none, 0⟩], .close, .take, reply [turnedAway "busy" 429], .proceed,
    .proceed, .take, reply [turnedAway "busy" 429], .proceed, .proceed, .take, reply [[]], .proceed,
    .proceed, .proceed, .proceed]

/-- Without the condition that all happens in time, batching is not transparent: in one run the
operation is acknowledged, and in the other it is left behind. -/
theorem late_flush_shows :
    ¬∀ (v : Verdicts) (now : DateTime) (settings : Settings) (store : Store)
      (events events' : List Event), v.IsReached → now.IsReading →
      let start := create settings store
      start.collect accepted events' = start.collect accepted events →
      (∀ op ∈ start.collect accepted events, op.Writable) →
      (((start.collect accepted events).filterMap (·.update)).map StateUpdate.key).Nodup →
      start.Throughout (v.Meets now) events → start.Throughout (v.Meets now) events' →
      .abort ∉ events → .abort ∉ events' →
      (start.run events).stage = .idle → (start.run events').stage = .idle →
        (start.run events).SameResult (start.run events') := by
  intro hAll
  have hReached : reluctant.IsReached := by
    intro op r hVerdict
    unfold reluctant at hVerdict
    split at hVerdict
    · cases hVerdict
      decide +kernel
    · cases hVerdict
  have hAccepted : (create (.initial ⟨0, []⟩) .empty).collect accepted sentBackTwice =
      [⟨.delete, "a", none, 0⟩] := by decide +kernel
  have hWritable : ∀ op ∈ [(⟨.delete, "a", none, 0⟩ : Operation)], op.Writable := by
    intro op hOp u hUpdate
    obtain rfl := List.mem_singleton.mp hOp
    cases hUpdate
  have hMeets :
      (create (.initial ⟨0, []⟩) .empty).Throughout (reluctant.Meets ⟨⟨0⟩, none⟩) sentBackTwice :=
    ⟨meets_of_other rfl, meets_of_other rfl, meets_of_other rfl, meets_of_other rfl,
      meets_of_answer [⟨.delete, "a", none, 0⟩] (by decide +kernel) rfl, meets_of_other rfl,
      meets_of_other rfl, meets_of_other rfl,
      meets_of_answer [⟨.delete, "a", none, 1⟩] (by decide +kernel) rfl, meets_of_other rfl,
      meets_of_other rfl, meets_of_other rfl,
      meets_of_answer [⟨.delete, "a", none, 2⟩] (by decide +kernel) rfl, meets_of_other rfl,
      meets_of_other rfl, meets_of_other rfl, meets_of_other rfl, trivial⟩
  have hMeets' :
      (create (.initial ⟨0, []⟩) .empty).Throughout (reluctant.Meets ⟨⟨0⟩, none⟩) sentBackLate :=
    ⟨meets_of_other rfl, meets_of_other rfl, meets_of_other rfl, meets_of_other rfl,
      meets_of_answer [⟨.delete, "a", none, 0⟩] (by decide +kernel) rfl, meets_of_other rfl,
      meets_of_other rfl, meets_of_other rfl, meets_of_other rfl, meets_of_other rfl,
      meets_of_answer [⟨.delete, "a", none, 1⟩] (by decide +kernel) rfl, meets_of_other rfl, trivial⟩
  have hSame := hAll reluctant ⟨⟨0⟩, none⟩ (.initial ⟨0, []⟩) .empty sentBackTwice sentBackLate hReached
    (by decide) (by decide +kernel) (by rw [hAccepted]; exact hWritable)
    (by rw [hAccepted]; decide +kernel) hMeets hMeets' (by simp [sentBackTwice, reply])
    (by simp [sentBackLate, reply]) (by decide +kernel) (by decide +kernel)
  have hDeleted := hSame.deleted
  revert hDeleted
  decide +kernel

end Delivery
end Indexer
