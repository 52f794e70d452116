import Indexer.Proofs.Crawl.Completion
import Indexer.Proofs.Crawl.Shares

/-! The ledger of a crawl. As long as a crawl goes on, each operation that its walker has
submitted is either outstanding or entered in the tally, as acknowledged or as given up,
and only once. The entries are kept by kind of operation. They do not depend on the crawl
state, which may change under a crawl by the doing of others. -/
namespace Indexer

/-- The number of operations of a kind. -/
def OpKind.count (kind : OpKind) (ops : List Operation) : Nat := ops.countP fun op => op.kind = kind

/-- The number of operations of a kind that were acknowledged. -/
def Tally.done (t : Tally) : OpKind → Int
  | .index => t.indexed
  | .delete => t.deleted

/-- The number of operations of a kind that were acknowledged or given up. -/
def Tally.settled (t : Tally) (kind : OpKind) : Int :=
  t.done kind + t.failed.countP fun r => r.kind = kind

theorem Coordinator.done_countDone (t : Tally) (ops : List Operation) (kind : OpKind) :
    (countDone t ops).done kind = t.done kind + kind.count ops := by
  cases kind <;> simp only [Tally.done, countDone, OpKind.count, List.countP_eq_length_filter]

theorem OpKind.count_append (kind : OpKind) (ops more : List Operation) :
    kind.count (ops ++ more) = kind.count ops + kind.count more := List.countP_append

/-- Copies of an operation are of one kind. -/
theorem OpKind.count_eq_countP (kind : OpKind) (ops : List Operation) :
    kind.count ops = (contents ops).countP fun op => op.kind = kind := by
  rw [contents, Multiset.countP_map, ← Multiset.countP_eq_card_filter, Multiset.coe_countP]
  rfl

namespace Delivery

variable {d d' : Delivery} {added : List Batch} {acked : List Receipt} {refused : List Operation}

/-- The operations of a kind that are outstanding or settled. -/
def account (d : Delivery) (kind : OpKind) : Int :=
  d.coordinator.tally.settled kind + kind.count d.outstanding

/-- What a step enters in the tally is what it acknowledges and reports. -/
theorem Move.settled_eq (h : Move d added acked refused d') (hWhole : d'.IsWhole) (kind : OpKind) :
    d'.coordinator.tally.settled kind = d.coordinator.tally.settled kind +
      kind.count (acked.map (·.op)) + kind.count refused := by
  have hDone : d'.coordinator.tally.done kind =
      d.coordinator.tally.done kind + kind.count (acked.map (·.op)) := by
    obtain ⟨hIndexed, hDeleted⟩ := h.done hWhole
    rw [← Coordinator.done_countDone]
    cases kind
    · exact hIndexed
    · exact hDeleted
  have hReports : d'.coordinator.tally.failed.countP (fun r => r.kind = kind) =
      d.coordinator.tally.failed.countP (fun r => r.kind = kind) + kind.count refused := by
    have hNames := congrArg (List.countP fun name => name.1 = kind) h.reports
    rw [List.countP_append, List.countP_map, List.countP_map, List.countP_map] at hNames
    exact hNames
  rw [Tally.settled, Tally.settled, hDone, hReports]
  omega

theorem Move.account_eq (hOrderly : d.Orderly) (h : Move d added acked refused d')
    (hWhole : d'.IsWhole) (kind : OpKind) :
    d'.account kind = d.account kind + kind.count added.flatten := by
  obtain ⟨lost, hBalance, hNone⟩ := h.balance hOrderly
  rw [hNone hWhole, add_zero] at hBalance
  have hCounts := congrArg (Multiset.countP fun op => op.kind = kind) hBalance
  simp only [Multiset.countP_add, ← OpKind.count_eq_countP] at hCounts
  rw [account, account, h.settled_eq hWhole]
  omega

/-- Along a run that is whole, what comes in is entered once. -/
theorem run_account (h : d.Orderly) (events : List Event) (hWhole : (d.run events).IsWhole)
    (kind : OpKind) :
    (d.run events).account kind = d.account kind + kind.count (d.collect accepted events) := by
  induction events generalizing d with
  | nil => simp [collect, run, OpKind.count]
  | cons e events ih =>
      have hStep := step_move h e
      have hNext := h.move hStep
      have hNow := hStep.account_eq h (run_whole hNext events hWhole) kind
      rw [flatten_groups] at hNow
      rw [collect, OpKind.count_append, Nat.cast_add, ← add_assoc, ← hNow]
      exact ih hNext hWhole

/-- At rest all that has come in is settled, unless something is left behind. -/
theorem account_of_rest (h : d.Orderly) (hTidy : d.Tidy) (hIdle : d.stage = .idle) (kind : OpKind) :
    d.account kind = d.coordinator.tally.settled kind := by
  rw [account, hTidy.outstanding h hIdle]
  exact Int.add_zero _

end Delivery

namespace Crawl

/-- The ledger of a crawl by a plan. -/
structure IsKept (plan : List Step) (c : Crawl) : Prop where
  orderly : c.delivery.Orderly
  tidy : c.delivery.Tidy
  settled : c.IsSettled
  tallied : c.walk.tallied = (Walk.start plan).tallied
  whole : c.walk.IsGoing → c.delivery.fatal = none → c.delivery.aborting = false
  entered : c.walk.IsGoing → ∃ taken, plan = taken ++ c.walk.plan ∧
    (∀ step ∈ taken, step.isFail = false) ∧
    (c.delivery.IsWhole → ∀ kind : OpKind,
      c.delivery.account kind = kind.count (submitted taken))

theorem isKept_start {settings : Settings} {readers : Readers} {tree : FileTree} {root : Path}
    {now : DateTime} {store : Store} {c : Crawl}
    (h : start settings readers tree root now store = .ok c) : c.IsKept c.walk.plan := by
  obtain ⟨_, _, _, hDelivery⟩ := start_ok h
  obtain ⟨hOrderly, hNothing, _⟩ := started h
  refine ⟨hOrderly, tidy_of_start h, isSettled_of_start h, congrArg Walk.tallied (walk_of_start h),
    fun _ _ => by rw [hDelivery]; rfl, fun _ => ?_⟩
  refine ⟨[], rfl, List.forall_mem_nil _, fun _ kind => ?_⟩
  rw [Delivery.account, hNothing, hDelivery]
  cases kind <;> rfl

variable {plan : List Step} {c : Crawl}

/-- Whatever happens to it, the ledger of a crawl is kept as long as nothing is left behind. -/
theorem IsKept.step (h : c.IsKept plan) {e : Event} (hTidy : (c.step e).delivery.Tidy) :
    (c.step e).IsKept plan where
  orderly := by
    rw [step_delivery]
    exact h.orderly.run _
  tidy := hTidy
  settled := isSettled_step h.orderly h.settled e
  tallied := (tallied_step c e).trans h.tallied
  whole hGoing hFatal := by
    obtain ⟨hBefore, taken, hTaken⟩ := step_covers hGoing
    rw [step_delivery] at hFatal ⊢
    have hUnharmed := Delivery.fatal_of_run h.orderly _ hFatal
    exact Delivery.run_aborting h.orderly (h.whole hBefore hUnharmed) hTaken.kept hFatal
  entered hGoing := by
    obtain ⟨hBefore, later, hLater⟩ := step_covers hGoing
    obtain ⟨taken, hPlan, hSteady, hEntered⟩ := h.entered hBefore
    refine ⟨taken ++ later, by rw [hPlan, hLater.plan, List.append_assoc],
      fun step hStep => (List.mem_append.mp hStep).elim (hSteady step) (hLater.steady step),
      fun hWhole kind => ?_⟩
    rw [step_delivery] at hWhole ⊢
    rw [Delivery.run_account h.orderly _ hWhole, hLater.accepted, submitted_append,
      OpKind.count_append, hEntered (Delivery.run_whole h.orderly _ hWhole), Nat.cast_add]

theorem IsKept.run (h : c.IsKept plan) (events : List Event) (hInTime : c.InTime events) :
    (c.run events).IsKept plan := by
  induction events generalizing c with
  | nil => exact h
  | cons e events ih =>
      rw [InTime, course, Delivery.throughout_append, ← step_delivery] at hInTime
      refine ih (h.step ?_) hInTime.2
      rw [step_delivery]
      exact h.tidy.run h.orderly _ hInTime.1

/-- When a crawl has come to a good end, all that was planned is in its summary. -/
theorem IsKept.ended (h : c.IsKept plan) (hEnd : c.walk.phase = .ended (.ok ())) :
    (∀ step ∈ plan, step.isFail = false) ∧
    c.walk.scanned = plan.countP Step.isScanned ∧
    c.walk.unchanged = plan.countP Step.isUnchanged ∧
    c.walk.skipped = plan.countP Step.isSkip ∧
    ∀ kind, c.delivery.coordinator.tally.settled kind = kind.count (submitted plan) := by
  have hGoing : c.walk.IsGoing := by rw [Walk.IsGoing, hEnd]; trivial
  obtain ⟨hDone, hIdle, hClosed⟩ := h.settled.ended hEnd
  have hFatal := h.tidy.fatal_of_closed hIdle hClosed
  obtain ⟨taken, hTaken, hSteady, hEntered⟩ := h.entered hGoing
  obtain rfl : plan = taken := by rw [hTaken, hDone, List.append_nil]
  have hTallied := h.tallied
  simp only [Walk.tallied, hDone, List.countP_nil, Walk.start, Nat.zero_add, Nat.add_zero,
    Prod.mk.injEq] at hTallied
  refine ⟨hSteady, hTallied.1, hTallied.2.1, hTallied.2.2, fun kind => ?_⟩
  rw [← Delivery.account_of_rest h.orderly h.tidy hIdle]
  exact hEntered ⟨hFatal, h.whole hGoing hFatal⟩ kind

namespace Basis

variable {b : Basis}

/-- What becomes of the files in a plan, by what the plan counts and submits. -/
theorem countP_disposes (steps : List Step) :
    steps.countP Step.disposes = steps.countP Step.isUnchanged + steps.countP Step.isSkip +
      OpKind.index.count (submitted steps) := by
  induction steps with
  | nil => rfl
  | cons step steps ih =>
      rw [submitted_cons, OpKind.count_append, List.countP_cons, List.countP_cons, List.countP_cons,
        ih]
      cases step with
      | submit op =>
          cases hKind : op.kind with
          | index =>
              simp [Step.disposes, Step.isUnchanged, Step.isSkip, Step.submits, OpKind.count, hKind]
              omega
          | delete =>
              simp [Step.disposes, Step.isUnchanged, Step.isSkip, Step.submits, OpKind.count, hKind]
      | _ =>
          simp only [Step.disposes, Step.isUnchanged, Step.isSkip, Step.submits, OpKind.count,
            List.countP_nil, Bool.false_eq_true, if_true, if_false]
          omega

/-- The plan deletes once for each path that is gone. -/
theorem count_deletions (b : Basis) : OpKind.delete.count (submitted b.plan) = b.gone.length := by
  have hFiles : OpKind.delete.count (submitted (b.windows [] b.sightings)) = 0 := by
    rw [OpKind.count, List.countP_eq_zero]
    intro op hOp
    obtain ⟨e, _, checksum, content, raw, doc, _, rfl⟩ := indexes_of_sightings hOp
    simp [Operation.kind, indexing]
  rw [plan, submitted_append, OpKind.count_append, hFiles, submitted_deletions, OpKind.count,
    List.countP_map, Nat.zero_add, List.countP_eq_length]
  exact fun path _ => rfl

end Basis

/-- The entries of a root whose files do not come up in a scan. -/
def unseen (settings : Settings) (tree : FileTree) (root : Path) (store : Store) : List Row :=
  store.rows.filter fun r => r.root = root.text &&
    !((Scan.run settings tree root).filterMap Basis.livePath?).contains r.path

theorem Basis.length_gone {b : Basis} {store : Store}
    (hLoad : store.load b.root.text = .ok b.prior) :
    b.gone.length = (unseen b.settings b.tree b.root store).length := by
  have hPaths := Store.paths_of_mapM hLoad
  rw [gone, deletedPaths, unseen, ((List.mergeSort_perm _ _).filter _).length_eq, hPaths,
    ← List.countP_eq_length_filter, List.countP_map, (List.mergeSort_perm _ _).countP_eq,
    List.countP_filter, List.countP_eq_length_filter]
  exact congrArg List.length (List.filter_congr fun r _ => Bool.and_comm _ _)

end Crawl

/-- The summary accounts for every file that came up, and for as many deletions. -/
structure Summary.AccountsFor (s : Summary) (deletions : Nat) : Prop where
  files : s.scanned = s.unchanged + s.skipped + s.tally.indexed +
    s.tally.failed.countP fun r => r.kind = .index
  deletions : s.tally.deleted + (s.tally.failed.countP fun r => r.kind = .delete) = deletions

theorem Summary.accountsFor_zero : zero.AccountsFor 0 := ⟨rfl, rfl⟩

/-- Summaries are merged with what they account for. -/
theorem Summary.AccountsFor.merge {a b : Summary} {m n : Nat} (ha : a.AccountsFor m)
    (hb : b.AccountsFor n) : (a.merge b).AccountsFor (m + n) where
  files := by
    simp only [Summary.merge, List.countP_append, ha.files, hb.files]
    omega
  deletions := by
    simp only [Summary.merge, List.countP_append, ← ha.deletions, ← hb.deletions, Nat.cast_add]
    omega

namespace Crawl

/-- The summary of a crawl that has come to a good end. -/
theorem IsKept.accountsFor {b : Basis} {c : Crawl} (h : c.IsKept b.plan)
    (hWorkers : b.settings.workerConcurrency.isAtMost 0 = false)
    (hEnd : c.walk.phase = .ended (.ok ())) :
    (c.walk.summary c.delivery).AccountsFor b.gone.length := by
  obtain ⟨hSteady, hScanned, hUnchanged, hSkipped, hSettled⟩ := h.ended hEnd
  have hUnbroken : ∀ f, .broken f ∉ b.sightings := fun f hBroken => by
    obtain ⟨step, hStep, hFail⟩ := Basis.fail_of_broken hBroken []
    rw [hSteady step (List.mem_append_left _ hStep)] at hFail
    cases hFail
  have hFiles : b.plan.countP Step.isScanned = b.plan.countP Step.isUnchanged +
      b.plan.countP Step.isSkip + OpKind.index.count (submitted b.plan) := by
    rw [Basis.countP_scanned hUnbroken, ← Basis.disposes_plan hWorkers hUnbroken hSteady,
      Basis.countP_disposes]
  have hIndexed := hSettled .index
  have hDeleted := hSettled .delete
  rw [Basis.count_deletions] at hDeleted
  simp only [Tally.settled, Tally.done] at hIndexed hDeleted
  refine ⟨?_, hDeleted⟩
  simp only [Walk.summary, hScanned, hUnchanged, hSkipped]
  omega

end Crawl
end Indexer
