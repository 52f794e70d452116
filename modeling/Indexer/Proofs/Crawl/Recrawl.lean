import Indexer.Proofs.Crawl.Aftermath
import Indexer.Proofs.Crawl.History

/-! Crawling a tree again that has not changed. After a crawl that came to a good end
and reported nothing, each file that comes up counts as unchanged or cannot be
taken, as before, and no record is without its file; so there is nothing to send. -/
namespace Indexer

theorem Delivery.requests_of_nothing {d : Delivery} (hOrderly : d.Orderly) (hFilled : d.Filled)
    (hNothing : d.outstanding = []) {events : List Delivery.Event}
    (h : d.collect accepted events = []) : (d.run events).requests = d.requests := by
  obtain ⟨later, hLater, hWithin⟩ := run_requests hOrderly events
  have hNone : later = [] := by
    apply List.eq_nil_iff_forall_not_mem.mpr
    intro batch hBatch
    have hLe := hWithin batch hBatch
    rw [hNothing, h, contents_nil, add_zero] at hLe
    have hCard := Multiset.card_le_card hLe
    rw [card_contents, Multiset.card_zero, Nat.le_zero, List.length_eq_zero_iff] at hCard
    apply (hFilled.run hOrderly events).requests batch _ hCard
    rw [hLater]
    exact List.mem_append_right _ hBatch
  rw [hLater, hNone, List.append_nil]

/-- Without anything to send the crawl state stays. -/
theorem Delivery.store_of_nothing {d : Delivery} (hOrderly : d.Orderly)
    (hNothing : d.outstanding = []) {events : List Delivery.Event}
    (h : d.collect accepted events = []) :
    (d.run events).coordinator.store = d.coordinator.store := by
  have hNone : ∀ r ∈ d.collect receipts events, False :=
    run_spreads (P := fun _ => False) (fun _ _ _ => id) hOrderly events (by simp [hNothing]) (by simp [h])
  have hReceipts : d.collect receipts events = [] := List.eq_nil_iff_forall_not_mem.mpr hNone
  have hStore := run_store hOrderly events fun r hr => (hNone r hr).elim
  rw [hReceipts] at hStore
  exact (Except.ok.inj hStore).symm

namespace Crawl

/-- Only what is planned is handed over. -/
theorem handed_subset (c : Crawl) (events : List Event) :
    c.handed events ⊆ submitted c.walk.plan := by
  obtain ⟨taken, rest, hPlan, hHanded, _⟩ := c.run_plan events
  rw [hHanded, hPlan, submitted_append]
  exact List.subset_append_left _ _

namespace Basis

variable {b : Basis} {e : FileEntry} {before after : Store} {prior : List Acknowledged}
  {later : DateTime}

/-- A file counts as unchanged by the row that was written for it. -/
theorem fate_of_written (hLoad : after.load b.root.text = .ok b.prior) {raw : ByteArray} {m now : Float}
    (hRead : b.tree.read e.path = .ok raw) (hSurvives : e.mtime.Survives)
    (hModified : e.mtime.toSeconds = .ok m)
    (hRow : after.find? b.root.text e.path.text =
      some ⟨b.root.text, e.path.text, b.settings.algorithm?.map (·.hex raw), m, now⟩) :
    b.fate e = some .unchanged := by
  rcases Store.find?_load hLoad e.path.text with ⟨hNone, _⟩ | ⟨row, p, hFound, hEntry, hRecorded⟩
  · rw [hRow] at hNone
    cases hNone
  · obtain rfl := Option.some.inj (hRow.symm.trans hFound)
    obtain ⟨_, hChecksum, hBack⟩ := Store.toAcknowledged_ok hEntry
    obtain ⟨x, hSeconds, hSame⟩ := hSurvives
    obtain rfl : m = x := Except.ok.inj (hModified.symm.trans hSeconds)
    have hTime : p.lastModified = e.mtime := Except.ok.inj (hBack.symm.trans hSame)
    have hPresent : b.present? e = some p.checksum := by rw [present?_of_read hRead, hChecksum]
    simp only [fate, recorded?, hRecorded, hPresent, Option.map_some, ChangeKind.of_same hTime]

/-- A file whose row has stayed is recorded as before. -/
theorem recorded?_of_kept (hBefore : before.load b.root.text = .ok b.prior)
    (hAfter : after.load b.root.text = .ok prior)
    (hRow : after.find? b.root.text e.path.text = before.find? b.root.text e.path.text) :
    prior.find? (·.path = e.path.text) = b.recorded? e := by
  rw [recorded?]
  rcases Store.find?_load hBefore e.path.text with ⟨hNone, hNothing⟩ | ⟨row, p, hFound, hRead, hEntry⟩
  · rcases Store.find?_load hAfter e.path.text with ⟨_, hAgain⟩ | ⟨row, p, hFound, _⟩
    · rw [hNothing, hAgain]
    · simp [hRow, hNone] at hFound
  · rcases Store.find?_load hAfter e.path.text with ⟨hNone, _⟩ | ⟨other, q, hOther, hReadAgain, hAgain⟩
    · simp [hRow, hFound] at hNone
    · obtain rfl : row = other := Option.some.inj (hFound.symm.trans (hRow.symm.trans hOther))
      rw [hEntry, hAgain, Except.ok.inj (hRead.symm.trans hReadAgain)]

/-- Nothing is submitted for a file when it comes up again. -/
theorem Leaves.silent (h : b.Leaves before after e) (hBefore : before.load b.root.text = .ok b.prior)
    (hAfter : after.load b.root.text = .ok prior) (hSurvives : e.mtime.Survives) :
    submitted ({ b with prior, now := later : Basis }.part e) = [] := by
  rw [submitted_part]
  cases h with
  | written raw m now hRead hModified hRow =>
      have hFate : { b with prior, now := later : Basis }.fate e = some .unchanged :=
        fate_of_written hAfter hRead hSurvives hModified hRow
      rw [hFate]
      rfl
  | kept hPassed hRow =>
      have hRecorded : { b with prior, now := later : Basis }.recorded? e = b.recorded? e :=
        recorded?_of_kept hBefore hAfter hRow
      have hFate : { b with prior, now := later : Basis }.fate e = b.fate e := by
        rw [fate, fate, hRecorded]
        rfl
      rw [hFate]
      split
      · next hChanged =>
          obtain ⟨f, hTake⟩ := hPassed.resolve_left (by simp [hChanged])
          have hTakeAgain : { b with prior, now := later : Basis }.take e = .error f := hTake
          rw [submission, hTakeAgain]
          rfl
      · rfl

end Basis

variable {c : Crawl} {b : Basis} {events : List Event}

/-- A plan that rests on what a crawl has left on record submits nothing. -/
theorem Succeeds.silent (h : c.Succeeds events) (hBasis : c.RestsOn b) (hTree : b.tree.IsProper)
    (hTimes : ∀ e, .file e ∈ b.sightings → e.mtime.Survives) {prior : List Acknowledged}
    (hLoad : (c.run events).delivery.coordinator.store.load b.root.text = .ok prior) (later : DateTime) :
    submitted (Basis.plan { b with prior, now := later }) = [] := by
  rw [Basis.plan, submitted_append, Basis.submitted_deletions, List.append_eq_nil_iff,
    List.map_eq_nil_iff]
  constructor
  · apply List.eq_nil_iff_forall_not_mem.mpr
    intro op hOp
    obtain ⟨e, hLive, hPart⟩ := Basis.part_of_windows hOp
    have he : .file e ∈ b.sightings := hLive.resolve_left List.not_mem_nil
    rw [(h.leaves hBasis hTree he).silent hBasis.prior hLoad (hTimes e he)] at hPart
    cases hPart
  · apply List.eq_nil_iff_forall_not_mem.mpr
    intro path hPath
    obtain ⟨hRecorded, hNotLive⟩ := Basis.mem_gone_iff.mp hPath
    rw [Store.mem_paths_of_load hLoad] at hRecorded
    have hNone : (c.run events).delivery.coordinator.store.find? b.root.text path = none :=
      h.find?_of_not_live hBasis hNotLive
    simp [hNone] at hRecorded

/-- After a crawl that came to a good end, saw to all in time and reported nothing, a further crawl of
the same tree sends no request, however it goes, and the crawl state stays. It takes that the
modification times of files come back from the crawl state as they were. -/
theorem recrawl_sends_nothing {settings : Settings} {readers : Readers} {tree : FileTree} {root : Path}
    {now later : DateTime} {store : Store} {again : Crawl}
    (hStart : start settings readers tree root now store = .ok c) (hTree : tree.IsProper)
    (hTimes : ∀ e, .file e ∈ Scan.run settings tree root → e.mtime.Survives)
    (hInTime : c.InTime events) (hEnd : (c.run events).walk.phase = .ended (.ok ()))
    (hClean : (c.run events).delivery.coordinator.tally.failed = [])
    (hAgain : start settings readers tree root later (c.run events).delivery.coordinator.store =
      .ok again) (more : List Event) :
    (again.run more).delivery.requests = [] ∧
      (again.run more).delivery.coordinator.store = (c.run events).delivery.coordinator.store := by
  obtain ⟨rfl, prior, hBasis⟩ := restsOn_of_start hStart
  obtain ⟨hStore, priorAgain, hBasisAgain⟩ := restsOn_of_start hAgain
  have hLoad := hBasisAgain.prior
  rw [hStore] at hLoad
  have hSilent : submitted again.walk.plan = [] := by
    rw [hBasisAgain.plan]
    exact (succeeds_of_ended hStart hInTime hEnd hClean).silent hBasis hTree hTimes hLoad later
  have hNothing : again.delivery.collect Delivery.accepted (again.course more) = [] := by
    apply List.eq_nil_iff_forall_not_mem.mpr
    intro op hOp
    have hPlanned := again.handed_subset more (collect_accepted_subset _ _ hOp)
    rw [hSilent] at hPlanned
    cases hPlanned
  obtain ⟨_, _, _, hDelivery⟩ := start_ok hAgain
  obtain ⟨hOrderly, hOutstanding, _⟩ := started hAgain
  have hFilled := (Delivery.filled_create settings (c.run events).delivery.coordinator.store).move
    (Delivery.step_move (Delivery.orderly_create _ _) .start)
  rw [run_delivery]
  constructor
  · rw [Delivery.requests_of_nothing hOrderly (hDelivery ▸ hFilled) hOutstanding hNothing, hDelivery]
    rfl
  · rw [Delivery.store_of_nothing hOrderly hOutstanding hNothing, hStore]

/-- The first crawl of a file to its end. -/
def firstEvents : List Event :=
  World.firstVisit.events ++ List.replicate 4 (.delivery .proceed) ++ [.advance]

theorem firstVisit_repeated :
    let begin := start World.firstVisit.settings World.firstVisit.readers World.firstVisit.tree
      World.firstVisit.root
    ∃ c again, begin ⟨⟨0⟩, none⟩ .empty = .ok c ∧ (c.run firstEvents).delivery.requests.length = 1 ∧
      begin ⟨⟨1⟩, none⟩ (c.run firstEvents).delivery.coordinator.store = .ok again ∧
      ∀ more, (again.run more).delivery.requests = [] := by
  intro begin
  have hRun : ((begin ⟨⟨0⟩, none⟩ .empty).toOption.map fun c =>
      (decide (c.InTime firstEvents), decide ((c.run firstEvents).walk.phase = .ended (.ok ())),
        (c.run firstEvents).delivery.coordinator.tally.failed.length,
        (c.run firstEvents).delivery.requests.length,
        (begin ⟨⟨1⟩, none⟩ (c.run firstEvents).delivery.coordinator.store).toOption.isSome)) =
      some (true, true, 0, 1, true) := by decide +kernel
  cases hStart : begin ⟨⟨0⟩, none⟩ .empty with
  | error f => simp [hStart, Except.toOption] at hRun
  | ok c =>
      simp only [hStart, Except.toOption, Option.map_some, Option.some.injEq, Prod.mk.injEq,
        decide_eq_true_eq, List.length_eq_zero_iff] at hRun
      obtain ⟨hInTime, hEnd, hClean, hOnce, hStarts⟩ := hRun
      cases hAgain : begin ⟨⟨1⟩, none⟩ (c.run firstEvents).delivery.coordinator.store with
      | error f => simp [hAgain] at hStarts
      | ok again =>
          refine ⟨c, again, rfl, hOnce, hAgain, fun more => ?_⟩
          exact (recrawl_sends_nothing hStart (by decide +kernel)
            (fun e he => (World.fits_firstVisit.files e he).2) hInTime hEnd hClean hAgain more).1

/-- After a crawl that left its last operation behind, the next one sends it. -/
theorem overtakenCrawl_is_sent_again :
    ¬∀ (settings : Settings) (readers : Readers) (tree : FileTree) (root : Path) (now later : DateTime)
      (store : Store) (c again : Crawl) (events : List Event),
      start settings readers tree root now store = .ok c → tree.IsProper →
        (∀ e, .file e ∈ Scan.run settings tree root → e.mtime.Survives) →
          (c.run events).walk.phase = .ended (.ok ()) →
            (c.run events).delivery.coordinator.tally.failed = [] →
              start settings readers tree root later (c.run events).delivery.coordinator.store =
                .ok again → ∀ more, (again.run more).delivery.requests = [] := by
  intro hAll
  let visit := World.firstVisit
  have hRun : (overtakenCrawl.toOption.map fun c =>
      (decide ((c.run overtakenEvents).walk.phase = .ended (.ok ())),
        (c.run overtakenEvents).delivery.coordinator.tally.failed.length,
        (start visit.settings visit.readers visit.tree visit.root visit.now
          (c.run overtakenEvents).delivery.coordinator.store).toOption.map fun again =>
            (again.run firstEvents).delivery.requests.length)) =
      some (true, 0, some 1) := by decide +kernel
  cases hStart : overtakenCrawl with
  | error f => simp [hStart, Except.toOption] at hRun
  | ok c =>
      simp only [hStart, Except.toOption, Option.map_some, Option.some.injEq, Prod.mk.injEq,
        decide_eq_true_eq, List.length_eq_zero_iff] at hRun
      obtain ⟨hEnd, hClean, hSent⟩ := hRun
      cases hAgain : start visit.settings visit.readers visit.tree visit.root visit.now
        (c.run overtakenEvents).delivery.coordinator.store with
      | error f => simp [hAgain] at hSent
      | ok again =>
          have hNone := hAll visit.settings visit.readers visit.tree visit.root _ _ _ c again
            overtakenEvents hStart (by decide +kernel)
            (fun e he => (World.fits_firstVisit.files e he).2) hEnd hClean hAgain firstEvents
          simp [hAgain, hNone] at hSent

end Crawl
end Indexer
