import Indexer.Proofs.Crawl.Aftermath

/-! Where crawls lead to. A crawl that ends well, with nothing reported and no file
passed over, leaves on record what it found: the files that came up, each with the
digest of its bytes. Only a row without a checksum may stay as it was. -/
namespace Indexer

/-- The modification time in the row is not before the given one. -/
def Row.IsUpTo (row : Row) (mtime : Moment) : Prop :=
  ∃ m, Moment.ofSeconds (.float row.lastModified) = .ok m ∧ m.before mtime = false

namespace Crawl

namespace Basis

variable {b : Basis} {e : FileEntry}

theorem unchanged_of_unskipped (hPassed : isChanged (b.fate e) = false ∨ ∃ f, b.take e = .error f)
    (h : ∀ step ∈ b.part e, step.isSkip = false) : b.fate e = some .unchanged := by
  unfold part at h
  cases hFate : b.fate e with
  | none =>
      have hSkip := h .skipped (by simp [hFate, verdict])
      cases hSkip
  | some change =>
      cases change with
      | unchanged => rfl
      | new | updated =>
          obtain ⟨f, hTake⟩ := hPassed.resolve_left (by simp [hFate, isChanged])
          have hSkip := h .skipped (by simp [hFate, isChanged, submission, hTake])
          cases hSkip

/-- A file counts as unchanged by its digest, or by its modification time where no digest was
recorded. -/
theorem row_of_unchanged {store : Store} (hLoad : store.load b.root.text = .ok b.prior)
    {a : Digest.Algorithm} (hAlgorithm : b.settings.algorithm? = some a)
    (h : b.fate e = some .unchanged) :
    ∃ raw row, b.tree.read e.path = .ok raw ∧
      store.find? b.root.text e.path.text = some row ∧
      (row.checksum = some (a.hex raw) ∨ row.checksum = none ∧ row.IsUpTo e.mtime) := by
  unfold fate at h
  rcases Store.find?_load hLoad e.path.text with ⟨_, hNone⟩ | ⟨row, p, hRow, hEntry, hRecorded⟩
  · simp [recorded?, hNone] at h
  · obtain ⟨_, hChecksum, hModified⟩ := Store.toAcknowledged_ok hEntry
    simp only [recorded?, hRecorded, Option.map_eq_some_iff] at h
    obtain ⟨checksum, hPresent, hKind⟩ := h
    obtain ⟨raw, hRead, rfl⟩ := present?_eq_some hAlgorithm hPresent
    refine ⟨raw, row, hRead, hRow, ?_⟩
    rw [← hChecksum]
    rcases ChangeKind.checksum_of_unchanged hKind with hSame | ⟨hNone, hBefore⟩
    · exact .inl hSame
    · exact .inr ⟨hNone, p.lastModified, hModified, hBefore⟩

end Basis

variable {settings : Settings} {readers : Readers} {tree : FileTree} {root : Path} {now : DateTime}
  {store : Store} {c : Crawl} {b : Basis} {events : List Event} {a : Digest.Algorithm}

/-- Where no file was passed over, a file that came up has a row with the digest of its bytes or the
row without a digest that it had before. -/
theorem Succeeds.row_of_live (h : c.Succeeds events) (hBasis : c.RestsOn b) (hTree : b.tree.IsProper)
    (hAlgorithm : b.settings.algorithm? = some a) (hUnskipped : (c.run events).walk.skipped = 0)
    {e : FileEntry} (he : .file e ∈ b.sightings) :
    ∃ raw row, b.tree.read e.path = .ok raw ∧
      (c.run events).delivery.coordinator.store.find? b.root.text e.path.text = some row ∧
      (row.checksum = some (a.hex raw) ∨ row.checksum = none ∧
        c.delivery.coordinator.store.find? b.root.text e.path.text = some row ∧ row.IsUpTo e.mtime) := by
  cases h.leaves hBasis hTree he with
  | written raw m now hRead hModified hRow =>
      exact ⟨raw, _, hRead, hRow, .inl (by rw [hAlgorithm]; rfl)⟩
  | kept hPassed hRow =>
      rw [h.skipped, List.countP_eq_zero] at hUnskipped
      have hUnchanged : b.fate e = some .unchanged := by
        apply Basis.unchanged_of_unskipped hPassed
        intro step hStep
        simpa using hUnskipped step (h.mem_plan_of_part hBasis he hStep)
      obtain ⟨raw, row, hRead, hBefore, hChecksum⟩ :=
        Basis.row_of_unchanged hBasis.prior hAlgorithm hUnchanged
      refine ⟨raw, row, hRead, hRow.trans hBefore, ?_⟩
      exact hChecksum.imp_right fun ⟨hNone, hTime⟩ => ⟨hNone, hBefore, hTime⟩

/-- After a clean crawl that saw to all in time, the files on record for its root are those that came
up, each with the digest of the bytes that it has. A row without a digest may have stayed as it was if
it is of a time that the file has not changed since. The rows of other roots are as they were. -/
theorem clean_crawl_converges (hStart : start settings readers tree root now store = .ok c)
    (hTree : tree.IsProper) (hAlgorithm : settings.algorithm? = some a) (hInTime : c.InTime events)
    (hEnd : (c.run events).walk.phase = .ended (.ok ()))
    (hClean : (c.run events).delivery.coordinator.tally.failed = [])
    (hUnskipped : (c.run events).walk.skipped = 0) :
    let after := (c.run events).delivery.coordinator.store
    (∀ path, (after.find? root.text path).isSome = true ↔
      ∃ e, .file e ∈ Scan.run settings tree root ∧ e.path.text = path) ∧
    (∀ e, .file e ∈ Scan.run settings tree root → ∃ raw row, tree.read e.path = .ok raw ∧
      after.find? root.text e.path.text = some row ∧
      (row.checksum = some (a.hex raw) ∨
        row.checksum = none ∧ store.find? root.text e.path.text = some row ∧ row.IsUpTo e.mtime)) ∧
    ∀ other, other ≠ root.text → ∀ path, after.find? other path = store.find? other path := by
  intro after
  obtain ⟨rfl, prior, hBasis⟩ := restsOn_of_start hStart
  have hSucceeds := succeeds_of_ended hStart hInTime hEnd hClean
  refine ⟨fun path => ?_, ?_, ?_⟩
  · constructor
    · intro hRecorded
      by_contra hNotLive
      rw [hSucceeds.find?_of_not_live hBasis hNotLive] at hRecorded
      cases hRecorded
    · rintro ⟨e, he, rfl⟩
      obtain ⟨_, row, _, hRow, _⟩ := hSucceeds.row_of_live hBasis hTree hAlgorithm hUnskipped he
      rw [hRow]
      rfl
  · intro e he
    exact hSucceeds.row_of_live hBasis hTree hAlgorithm hUnskipped he
  · intro other hOther path
    exact hSucceeds.find?_of_other hBasis hOther path

/-- A file whose bytes have changed since it was recorded. -/
def changedTree : FileTree := ⟨[
  .plainDirectory ⟨1, ["r"]⟩,
  { Node.plainDirectory ⟨1, ["r", "a.txt"]⟩ with kind := .file }]⟩

/-- What is recorded about the file, beside an entry of another root. -/
def staleStore : Store :=
  ⟨[⟨"/r", "/r/a.txt", some "00", 1700000000.0, 0.0⟩, ⟨"/s", "/s/b.txt", none, 0.0, 0.0⟩]⟩

def changedCrawl : Except Fault Crawl :=
  start (.initial ⟨0, []⟩) ⟨fun _ => .error .noHandler, fun _ => .error .noHandler⟩ changedTree
    ⟨1, ["r"]⟩ ⟨⟨0⟩, none⟩ staleStore

/-- The file is indexed anew, which is acknowledged at once. -/
def changedEvents : List Event :=
  [.advance, .advance, .arrive, .advance, .arrive, .advance, .advance, .delivery .take,
    .delivery (.answer ⟨⟨0⟩, none⟩
      (.ok (.obj [("items", .arr [.obj [("index", .obj [("status", .number (.int 200))])]])]))),
    .delivery .proceed, .delivery .proceed, .delivery .proceed, .delivery .proceed, .advance]

theorem changedCrawl_converges :
    ∃ c, changedCrawl = .ok c ∧ ∃ e raw row,
      .file e ∈ Scan.run (.initial ⟨0, []⟩) changedTree ⟨1, ["r"]⟩ ∧ e.path.text = "/r/a.txt" ∧
      changedTree.read e.path = .ok raw ∧
      (c.run changedEvents).delivery.coordinator.store.find? "/r" "/r/a.txt" = some row ∧
      row.checksum = some (Digest.Algorithm.xxh64.hex raw) := by
  have hRun : (changedCrawl.toOption.map fun c =>
      (decide (c.InTime changedEvents), decide ((c.run changedEvents).walk.phase = .ended (.ok ())),
        (c.run changedEvents).delivery.coordinator.tally.failed.length,
        (c.run changedEvents).walk.skipped,
        ((c.run changedEvents).delivery.coordinator.store.find? "/r" "/r/a.txt").isSome)) =
      some (true, true, 0, 0, true) := by decide +kernel
  cases hStart : changedCrawl with
  | error f => simp [hStart, Except.toOption] at hRun
  | ok c =>
      simp only [hStart, Except.toOption, Option.map_some, Option.some.injEq, Prod.mk.injEq,
        decide_eq_true_eq, List.length_eq_zero_iff] at hRun
      obtain ⟨hInTime, hEnd, hClean, hUnskipped, hRecorded⟩ := hRun
      obtain ⟨hPaths, hRows, _⟩ := clean_crawl_converges hStart (by decide +kernel)
        (a := .xxh64) (by decide +kernel) hInTime hEnd hClean hUnskipped
      obtain ⟨e, he, hText⟩ := (hPaths "/r/a.txt").mp hRecorded
      obtain ⟨raw, row, hRead, hRow, hChecksum⟩ := hRows e he
      have hRoot : Path.text ⟨1, ["r"]⟩ = "/r" := by decide
      rw [hRoot, hText] at hRow
      have hDigest : row.checksum = some (Digest.Algorithm.xxh64.hex raw) := by
        apply hChecksum.resolve_right
        rintro ⟨hNone, hBefore, _⟩
        have hStale : (staleStore.find? "/r" "/r/a.txt").map (·.checksum) = some (some "00") := by
          decide
        rw [hRoot, hText] at hBefore
        simp only [hBefore, Option.map_some, hNone, Option.some.injEq, reduceCtorEq] at hStale
      exact ⟨c, rfl, e, raw, row, he, hText, hRead, hRow, hDigest⟩

/-- A crawl whose last operation is left behind ends well without a record of the file. -/
theorem overtakenCrawl_leaves_a_path_out :
    ¬∀ (settings : Settings) (readers : Readers) (tree : FileTree) (root : Path) (now : DateTime)
      (store : Store) (a : Digest.Algorithm) (c : Crawl) (events : List Event),
      start settings readers tree root now store = .ok c → tree.IsProper →
        settings.algorithm? = some a → (c.run events).walk.phase = .ended (.ok ()) →
          (c.run events).delivery.coordinator.tally.failed = [] → (c.run events).walk.skipped = 0 →
            ∀ path, ((c.run events).delivery.coordinator.store.find? root.text path).isSome = true ↔
              ∃ e, .file e ∈ Scan.run settings tree root ∧ e.path.text = path := by
  intro hAll
  have hScanned : "/r/a.txt" ∈ (Scan.run (.initial ⟨0, []⟩) overtakenTree ⟨1, ["r"]⟩).filterMap
      Basis.livePath? := by decide +kernel
  have hRun : (overtakenCrawl.toOption.map fun c =>
      (decide ((c.run overtakenEvents).walk.phase = .ended (.ok ())),
        (c.run overtakenEvents).delivery.coordinator.tally.failed.length,
        (c.run overtakenEvents).walk.skipped,
        ((c.run overtakenEvents).delivery.coordinator.store.find? "/r" "/r/a.txt").isSome)) =
      some (true, 0, 0, false) := by decide +kernel
  cases hStart : overtakenCrawl with
  | error f => simp [hStart, Except.toOption] at hRun
  | ok c =>
      simp only [hStart, Except.toOption, Option.map_some, Option.some.injEq, Prod.mk.injEq,
        decide_eq_true_eq, List.length_eq_zero_iff] at hRun
      obtain ⟨hEnd, hClean, hUnskipped, hMissing⟩ := hRun
      have hPaths := hAll _ _ _ _ _ _ .xxh64 c overtakenEvents hStart (by decide +kernel)
        (by decide +kernel) hEnd hClean hUnskipped "/r/a.txt"
      have hRoot : Path.text ⟨1, ["r"]⟩ = "/r" := by decide
      rw [hRoot, hMissing] at hPaths
      obtain ⟨s, hs, hText⟩ := List.mem_filterMap.mp hScanned
      cases s with
      | file e => cases hPaths.mpr ⟨e, hs, Option.some.inj hText⟩
      | trouble r => cases hText
      | broken f => cases hText

end Crawl
end Indexer
