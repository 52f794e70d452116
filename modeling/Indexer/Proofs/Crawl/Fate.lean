import Indexer.Proofs.Crawl.Course
import Indexer.Proofs.File.Checksum

/-! What becomes of a file in a crawl. Files are hashed by windows, but what a
crawl does with a file depends on that file, on its record and on the settings
alone, and not on the window that it came to lie in. -/
namespace Indexer

namespace ChangeKind

variable {p : Acknowledged} {mtime : Moment}

/-- A file that is as it was recorded, with and without a checksum. -/
theorem of_same (hTime : p.lastModified = mtime) : of mtime (some p) p.checksum = .unchanged := by
  unfold of
  cases hPrior : p.checksum with
  | none => simp [ofChecksums, ofTimes, hTime, Moment.before]
  | some checksum => simp [hPrior, ofChecksums]

theorem checksum_of_unchanged {checksum : String}
    (h : of mtime (some p) (some checksum) = .unchanged) :
    p.checksum = some checksum ∨ p.checksum = none ∧ p.lastModified.before mtime = false := by
  unfold of at h
  cases hPrior : p.checksum with
  | some recorded =>
      left
      by_cases hSame : recorded = checksum
      · rw [hSame]
      · simp [hPrior, ofChecksums, hSame] at h
  | none =>
      right
      cases hBefore : p.lastModified.before mtime with
      | false => exact ⟨rfl, rfl⟩
      | true => simp [hPrior, ofChecksums, ofTimes, hBefore] at h

end ChangeKind

namespace Crawl.Basis

variable {b : Basis} {e : FileEntry} {files : List FileEntry} {sightings : List Sighting}

/-- The checksum of a file as it is now, which is none without a digest. Where it is needed and the
file cannot be read, there is nothing to compare. -/
def present? (b : Basis) (e : FileEntry) : Option (Option String) :=
  match b.settings.algorithm? with
  | none => some none
  | some a => (b.tree.read e.path).toOption.map fun raw => some (a.hex raw)

/-- How a file has changed, if that can be told. -/
def fate (b : Basis) (e : FileEntry) : Option ChangeKind :=
  match b.recorded? e with
  | none => some .new
  | some p => (b.present? e).map (ChangeKind.of e.mtime (some p))

/-- What is planned for a file. -/
def part (b : Basis) (e : FileEntry) : List Step :=
  verdict (b.fate e) ++ if isChanged (b.fate e) then b.submission e else []

theorem present?_eq_some {a : Digest.Algorithm} (hAlgorithm : b.settings.algorithm? = some a)
    {checksum : Option String} (h : b.present? e = some checksum) :
    ∃ raw, b.tree.read e.path = .ok raw ∧ checksum = some (a.hex raw) := by
  simp only [present?, hAlgorithm] at h
  cases hRead : b.tree.read e.path with
  | error f => simp [hRead, Except.toOption] at h
  | ok raw => exact ⟨raw, rfl, by simpa [hRead, Except.toOption] using h.symm⟩

/-- What is there now has the digest of its bytes, if there is a digest at all. -/
theorem present?_of_read {raw : ByteArray} (h : b.tree.read e.path = .ok raw) :
    b.present? e = some (b.settings.algorithm?.map (·.hex raw)) := by
  unfold present?
  cases b.settings.algorithm? with
  | none => rfl
  | some a => simp [h, Except.toOption]

theorem present?_congr {other : FileEntry} (h : other.path = e.path) :
    b.present? other = b.present? e := by
  rw [present?, present?, h]

/-- The files that were hashed, with their checksums. -/
theorem mem_hashed_iff {known : List FileEntry} {hashed : List (FileEntry × Option String)}
    {log : List LogRecord} (h : Checksum.ofFiles b.settings b.tree known = .ok (hashed, log))
    {x : FileEntry × Option String} : x ∈ hashed ↔ x.1 ∈ known ∧ b.present? x.1 = some x.2 := by
  obtain ⟨file, checksum⟩ := x
  unfold Checksum.ofFiles at h
  unfold present?
  cases hAlgorithm : b.settings.algorithm? with
  | none =>
      simp only [hAlgorithm, Except.ok.injEq, Prod.mk.injEq] at h
      rw [← h.1, List.mem_map]
      simp
  | some a =>
      simp only [hAlgorithm] at h ⊢
      split at h
      · next hNone =>
          simp only [Except.ok.injEq, Prod.mk.injEq] at h
          rw [← h.1, List.isEmpty_iff.mp hNone]
          simp
      · split at h
        · cases h
        · simp only [Except.ok.injEq, Prod.mk.injEq] at h
          rw [← h.1, List.mem_filterMap]
          simp only [List.mem_map, exists_exists_and_eq_and, Checksum.toOption_ofFile,
            Option.map_eq_some_iff, Prod.mk.injEq]
          constructor
          · rintro ⟨other, hKnown, raw, hRead, rfl, rfl⟩
            exact ⟨hKnown, raw, hRead, rfl⟩
          · rintro ⟨hKnown, raw, hRead, rfl⟩
            exact ⟨file, hKnown, raw, hRead, rfl, rfl⟩

/-- Hashing by windows finds the checksum of a file. -/
theorem find?_hashed {known : List FileEntry} {hashed : List (FileEntry × Option String)}
    {log : List LogRecord} (h : Checksum.ofFiles b.settings b.tree known = .ok (hashed, log))
    (hKnown : e ∈ known) : (hashed.find? (·.1.path = e.path)).map (·.2) = b.present? e := by
  cases hFind : hashed.find? (·.1.path = e.path) with
  | some x =>
      have hPath : x.1.path = e.path := by simpa using List.find?_some hFind
      have hPresent := ((mem_hashed_iff h).mp (List.mem_of_find?_eq_some hFind)).2
      rw [← present?_congr hPath, hPresent, Option.map_some]
  | none =>
      cases hPresent : b.present? e with
      | none => rfl
      | some checksum =>
          have hHashed : (e, checksum) ∈ hashed := (mem_hashed_iff h).mpr ⟨hKnown, hPresent⟩
          have hNone := List.find?_eq_none.mp hFind _ hHashed
          simp at hNone

theorem change?_eq_fate {hashed : List (FileEntry × Option String)} {log : List LogRecord}
    (h : Checksum.ofFiles b.settings b.tree (files.filter fun e => (b.recorded? e).isSome) =
      .ok (hashed, log))
    (he : e ∈ files) : b.change? hashed e = b.fate e := by
  unfold change? fate
  cases hRecorded : b.recorded? e with
  | none => rfl
  | some p =>
      have hKnown : e ∈ files.filter fun e => (b.recorded? e).isSome :=
        List.mem_filter.mpr ⟨he, by rw [hRecorded]; rfl⟩
      rw [← find?_hashed h hKnown]
      simp only [Option.map_map, Function.comp_def]

/-- The steps for changed files are those of each, unless there is nobody to take them. -/
theorem submissions_steady (h : ∀ step ∈ b.submissions files, step.isFail = false) :
    files.flatMap b.submission ⊆ b.submissions files := by
  unfold submissions at h ⊢
  split at h
  · exact List.nil_subset _
  · next e rest =>
      split at h
      · simp [Step.isFail] at h
      · next hWorkers =>
          rw [if_neg hWorkers]
          exact List.subset_cons_self _ _

theorem mem_window_of_part (h : ∀ step ∈ b.window files, step.isFail = false) (he : e ∈ files)
    {step : Step} (hStep : step ∈ b.part e) : step ∈ b.window files := by
  unfold window at h ⊢
  dsimp only at h ⊢
  split at h
  · simp [Step.isFail] at h
  · next hashed log hHashed =>
      have hChange := change?_eq_fate hHashed he
      rcases List.mem_append.mp hStep with hVerdict | hSubmit
      · refine List.mem_append_left _ (List.mem_append_right _ (List.mem_flatMap.mpr ⟨e, he, ?_⟩))
        rwa [hChange]
      · split at hSubmit
        · next hChanged =>
            refine List.mem_append_right _ (submissions_steady ?_ (List.mem_flatMap.mpr ⟨e, ?_, hSubmit⟩))
            · exact fun other hOther => h other (List.mem_append_right _ hOther)
            · exact List.mem_filter.mpr ⟨he, by rwa [hChange]⟩
        · cases hSubmit

theorem submitted_verdict (change : Option ChangeKind) : submitted (verdict change) = [] := by
  rcases change with _ | _ | _ | _ <;> rfl

theorem submitted_verdicts (f : FileEntry → Option ChangeKind) (files : List FileEntry) :
    submitted (files.flatMap fun e => verdict (f e)) = [] := by
  induction files with
  | nil => rfl
  | cons e files ih => rw [List.flatMap_cons, submitted_append, submitted_verdict, ih]; rfl

theorem submitted_hashing (b : Basis) (files : List FileEntry) (log : List LogRecord) :
    submitted (b.hashing files log) = [] := by
  unfold hashing
  split
  · rw [submitted_append]
    induction log with
    | nil => rfl
    | cons r log ih => exact ih
  · rfl

theorem submitted_part (e : FileEntry) :
    submitted (b.part e) = if isChanged (b.fate e) then submitted (b.submission e) else [] := by
  rw [part, submitted_append, submitted_verdict, List.nil_append]
  split <;> rfl

theorem part_of_submissions {op : Operation} (h : op ∈ submitted (b.submissions files)) :
    ∃ e ∈ files, op ∈ submitted (b.submission e) := by
  unfold submissions at h
  split at h
  · cases h
  · next e rest =>
      split at h
      · simp [Step.submits] at h
      · change op ∈ submitted ((e :: rest).flatMap b.submission) at h
        rw [submitted, List.flatMap_assoc] at h
        exact List.mem_flatMap.mp h

theorem part_of_window {op : Operation} (h : op ∈ submitted (b.window files)) :
    ∃ e ∈ files, op ∈ submitted (b.part e) := by
  unfold window at h
  dsimp only at h
  split at h
  · simp [Step.submits] at h
  · next hashed log hHashed =>
      rw [submitted_append, submitted_append, submitted_hashing, submitted_verdicts] at h
      obtain ⟨e, he, hOp⟩ := part_of_submissions h
      obtain ⟨hFile, hChanged⟩ := List.mem_filter.mp he
      rw [change?_eq_fate hHashed hFile] at hChanged
      exact ⟨e, hFile, by rwa [submitted_part, if_pos hChanged]⟩

/-- A file that comes up joins those that do not fill a window yet. -/
theorem joined_or_later {file : FileEntry} {rest : List Sighting} :
    (file ∈ files ++ [e] ∨ .file file ∈ rest) ↔
      file ∈ files ∨ .file file ∈ Sighting.file e :: rest := by
  rw [List.mem_append, List.mem_singleton, or_assoc, List.mem_cons, Sighting.file.injEq]

/-- What the windows of a scan submit is what is planned for its files. -/
theorem part_of_windows {op : Operation} (h : op ∈ submitted (b.windows files sightings)) :
    ∃ e, (e ∈ files ∨ .file e ∈ sightings) ∧ op ∈ submitted (b.part e) := by
  induction sightings generalizing files with
  | nil =>
      cases files with
      | nil => cases h
      | cons e files =>
          obtain ⟨file, hFile, hOp⟩ := part_of_window h
          exact ⟨file, .inl hFile, hOp⟩
  | cons sighting rest ih =>
      cases sighting with
      | file e =>
          simp only [windows] at h
          split at h
          · rw [submitted_cons, submitted_append] at h
            rcases List.mem_append.mp h with hNone | hOp
            · cases hNone
            rcases List.mem_append.mp hOp with hWindow | hLater
            · obtain ⟨file, hFile, hOp⟩ := part_of_window hWindow
              exact ⟨file, joined_or_later.mp (.inl hFile), hOp⟩
            · obtain ⟨file, hFile, hOp⟩ := ih hLater
              exact ⟨file, joined_or_later.mp (.inr (hFile.resolve_left List.not_mem_nil)), hOp⟩
          · obtain ⟨file, hFile, hOp⟩ := ih h
            exact ⟨file, joined_or_later.mp hFile, hOp⟩
      | trouble r =>
          simp only [windows] at h
          obtain ⟨file, hFile, hOp⟩ := ih h
          exact ⟨file, hFile.imp_right (List.mem_cons_of_mem _), hOp⟩
      | broken f =>
          simp only [windows] at h
          cases h

/-- What is planned for the files of a scan is among the steps of its windows, unless one of them makes
the crawl fail. -/
theorem mem_windows_of_part (h : ∀ step ∈ b.windows files sightings, step.isFail = false)
    (he : e ∈ files ∨ .file e ∈ sightings) {step : Step} (hStep : step ∈ b.part e) :
    step ∈ b.windows files sightings := by
  induction sightings generalizing files with
  | nil =>
      have hFile := he.resolve_right List.not_mem_nil
      cases files with
      | nil => cases hFile
      | cons first files => exact mem_window_of_part h hFile hStep
  | cons sighting rest ih =>
      cases sighting with
      | file f =>
          have hWhere := joined_or_later.mpr he
          simp only [windows] at h ⊢
          split at h
          · next hFull =>
              rw [if_pos hFull]
              have hSteps : ∀ step ∈ b.window (files ++ [f]) ++ b.windows [] rest,
                  step.isFail = false := fun step hStep => h step (List.mem_cons_of_mem _ hStep)
              refine List.mem_cons_of_mem _ (List.mem_append.mpr ?_)
              rcases hWhere with hNow | hLater
              · left
                exact mem_window_of_part (fun step hIn => hSteps step (List.mem_append_left _ hIn)) hNow
                  hStep
              · right
                exact ih (fun step hIn => hSteps step (List.mem_append_right _ hIn)) (.inr hLater)
          · next hOpen =>
              rw [if_neg hOpen]
              exact List.mem_cons_of_mem _
                (ih (fun step hIn => h step (List.mem_cons_of_mem _ hIn)) hWhere)
      | trouble r =>
          simp only [windows] at h ⊢
          have hLater : .file e ∈ Sighting.trouble r :: rest → .file e ∈ rest :=
            fun hIn => (List.mem_cons.mp hIn).resolve_left nofun
          exact List.mem_cons_of_mem _
            (ih (fun step hIn => h step (List.mem_cons_of_mem _ hIn)) (he.imp_right hLater))
      | broken f =>
          have hFail := h (.fail f) (by simp [windows])
          cases hFail

end Crawl.Basis
end Indexer
