import Indexer.Proofs.Crawl.Aftermath
import Indexer.Proofs.File.Mishap

/-! The shares that the files have in a plan. Apart from remarks and waits, and
apart from the order within a window, the plan consists of what is planned for each
file that came up. So what a plan counts is counted file by file, and it fails only
where the share of some file does. -/
namespace Indexer

namespace Crawl

/-- The step settles something about a file. -/
def Step.settles : Step → Bool
  | .unchanged | .skipped | .submit _ | .fail _ => true
  | .note _ | .scanned | .wait => false

def Step.isScanned : Step → Bool
  | .scanned => true
  | _ => false

def Step.isUnchanged : Step → Bool
  | .unchanged => true
  | _ => false

/-- The step says what becomes of a file: it is left as it is, or indexed. -/
def Step.disposes : Step → Bool
  | .unchanged | .skipped => true
  | .submit op => op.kind = .index
  | _ => false

namespace Basis

variable {b : Basis} {e : FileEntry} {files : List FileEntry} {sightings : List Sighting}

/-- The files that came up. -/
def live (b : Basis) : List FileEntry := b.sightings.filterMap Sighting.file?

theorem mem_live {b : Basis} {e : FileEntry} : e ∈ b.live ↔ .file e ∈ b.sightings := Scan.mem_files

theorem settles_hashing (b : Basis) (files : List FileEntry) (log : List LogRecord) :
    (b.hashing files log).filter Step.settles = [] := by
  rw [List.filter_eq_nil_iff]
  intro step hStep
  unfold hashing at hStep
  split at hStep
  · rcases List.mem_append.mp hStep with hNote | hWait
    · obtain ⟨r, _, rfl⟩ := List.mem_map.mp hNote
      nofun
    · rw [List.mem_singleton.mp hWait]
      nofun
  · cases hStep

theorem settles_submissions (hWorkers : b.settings.workerConcurrency.isAtMost 0 = false) :
    (b.submissions files).filter Step.settles = (files.flatMap b.submission).filter Step.settles := by
  cases files with
  | nil => rfl
  | cons e rest =>
      simp only [submissions, hWorkers, Bool.false_eq_true, if_false]
      rfl

/-- With workers there is nothing in the way of hashing. -/
theorem hashed_of_workers {s : Settings} (hWorkers : s.workerConcurrency.isAtMost 0 = false)
    (t : FileTree) (known : List FileEntry) :
    ∃ hashed log, Checksum.ofFiles s t known = .ok (hashed, log) := by
  unfold Checksum.ofFiles
  split
  · exact ⟨_, _, rfl⟩
  · split
    · exact ⟨_, _, rfl⟩
    · simp only [hWorkers, Bool.false_eq_true, if_false]
      exact ⟨_, _, rfl⟩

/-- What only some files have a share in. -/
theorem flatMap_filter {α : Type} (p : FileEntry → Bool) (f : FileEntry → List α)
    (files : List FileEntry) :
    (files.filter p).flatMap f = files.flatMap fun e => if p e then f e else [] := by
  induction files with
  | nil => rfl
  | cons e files ih =>
      rw [List.flatMap_cons, ← ih]
      cases hHolds : p e <;> simp [hHolds]

/-- A window settles what is planned for each of its files. -/
theorem window_perm (files : List FileEntry) (hWorkers : b.settings.workerConcurrency.isAtMost 0 = false) :
    ((b.window files).filter Step.settles).Perm ((files.flatMap b.part).filter Step.settles) := by
  obtain ⟨hashed, log, hHashed⟩ := hashed_of_workers hWorkers b.tree
    (files.filter fun e => (b.recorded? e).isSome)
  have hFate : ∀ e ∈ files, b.change? hashed e = b.fate e := fun e he => change?_eq_fate hHashed he
  have hVerdicts : files.flatMap (fun e => verdict (b.change? hashed e)) =
      files.flatMap fun e => verdict (b.fate e) :=
    List.flatMap_congr fun e he => by rw [hFate e he]
  have hChanged : files.filter (fun e => isChanged (b.change? hashed e)) =
      files.filter fun e => isChanged (b.fate e) :=
    List.filter_congr fun e he => by rw [hFate e he]
  simp only [window, hHashed, List.filter_append, settles_hashing, settles_submissions hWorkers,
    List.nil_append, hVerdicts, hChanged]
  rw [← List.filter_append, flatMap_filter]
  exact (List.flatMap_append_perm files _ _).filter _

/-- So do the windows of a scan that is not broken off. -/
theorem windows_perm (files : List FileEntry)
    (hWorkers : b.settings.workerConcurrency.isAtMost 0 = false)
    (hUnbroken : ∀ f, .broken f ∉ sightings) :
    ((b.windows files sightings).filter Step.settles).Perm
      (((files ++ sightings.filterMap Sighting.file?).flatMap b.part).filter Step.settles) := by
  induction sightings generalizing files with
  | nil =>
      cases files with
      | nil => exact .refl _
      | cons e rest => simpa [windows] using window_perm (e :: rest) hWorkers
  | cons sighting rest ih =>
      have hRest : ∀ f, .broken f ∉ rest := fun f h => hUnbroken f (List.mem_cons_of_mem _ h)
      cases sighting with
      | file e =>
          have hSplit : files ++ (Sighting.file e :: rest).filterMap Sighting.file? =
              (files ++ [e]) ++ rest.filterMap Sighting.file? := by simp [Sighting.file?]
          rw [hSplit]
          simp only [windows]
          split
          · rw [List.flatMap_append, List.filter_append]
            have hWindow := window_perm (files ++ [e]) hWorkers
            have hLater := ih [] hRest
            rw [List.nil_append] at hLater
            simpa [Step.settles] using hWindow.append hLater
          · simpa [Step.settles] using ih (files ++ [e]) hRest
      | trouble r =>
          rw [List.filterMap_cons_none (show Sighting.file? (.trouble r) = none from rfl)]
          simpa [windows, Step.settles] using ih files hRest
      | broken f => exact absurd List.mem_cons_self (hUnbroken f)

/-- A plan fails only where the share of a file does. -/
theorem steady_of_parts (hWorkers : b.settings.workerConcurrency.isAtMost 0 = false)
    (hUnbroken : ∀ f, .broken f ∉ b.sightings)
    (hParts : ∀ e, .file e ∈ b.sightings → ∀ step ∈ b.part e, step.isFail = false) :
    ∀ step ∈ b.plan, step.isFail = false := by
  intro step hStep
  rcases List.mem_append.mp hStep with hWindows | hDeletion
  · cases hSettles : step.settles with
    | false => cases step <;> first | rfl | cases hSettles
    | true =>
        have hShared := (windows_perm [] hWorkers hUnbroken).mem_iff.mp
          (List.mem_filter.mpr ⟨hWindows, hSettles⟩)
        obtain ⟨e, he, hPart⟩ := List.mem_flatMap.mp (List.mem_of_mem_filter hShared)
        exact hParts e (mem_live.mp he) step hPart
  · obtain ⟨path, _, rfl⟩ := List.mem_map.mp hDeletion
    rfl

/-- Steps that settle something about files are counted file by file. -/
theorem countP_windows (hWorkers : b.settings.workerConcurrency.isAtMost 0 = false)
    (hUnbroken : ∀ f, .broken f ∉ b.sightings) {p : Step → Bool}
    (hSettles : ∀ step, p step = true → step.settles = true) :
    (b.windows [] b.sightings).countP p = (b.live.map fun e => (b.part e).countP p).sum := by
  have hOnly (steps : List Step) : (steps.filter Step.settles).countP p = steps.countP p := by
    rw [List.countP_filter]
    refine List.countP_congr fun step _ => ?_
    rw [Bool.and_eq_true, and_iff_left_of_imp (hSettles step)]
  have hWindows := (windows_perm [] hWorkers hUnbroken).countP_eq p
  rw [hOnly, hOnly, List.nil_append, List.countP_flatMap] at hWindows
  exact hWindows

/-- The deletions at the end of the plan have no share in what is counted about the files. -/
theorem countP_plan (b : Basis) {p : Step → Bool}
    (hDeletion : ∀ path, p (.submit (b.deletion path)) = false) :
    b.plan.countP p = (b.windows [] b.sightings).countP p := by
  have hNone : (b.gone.map fun path => Step.submit (b.deletion path)).countP p = 0 := by
    rw [List.countP_map, List.countP_eq_zero]
    exact fun path _ => by simp [hDeletion path]
  rw [plan, List.countP_append, hNone, Nat.add_zero]

/-- The share of a file says once what becomes of it, unless it fails. -/
theorem disposes_part (hSteady : ∀ step ∈ b.part e, step.isFail = false) :
    (b.part e).countP Step.disposes = 1 := by
  have hSubmission : (∀ step ∈ b.submission e, step.isFail = false) →
      (b.submission e).countP Step.disposes = 1 := by
    unfold submission
    intro hSteady
    split at hSteady
    · rfl
    · split at hSteady
      · cases hSteady _ (List.mem_singleton_self _)
      · rfl
  rcases hFate : b.fate e with _ | _ | _ | _ <;>
    simp only [part, hFate, verdict, isChanged, List.nil_append, if_true] at hSteady ⊢
  · rfl
  · exact hSubmission hSteady
  · exact hSubmission hSteady
  · rfl

/-- A plan that does not fail says once of each file what becomes of it. -/
theorem disposes_plan (hWorkers : b.settings.workerConcurrency.isAtMost 0 = false)
    (hUnbroken : ∀ f, .broken f ∉ b.sightings) (hSteady : ∀ step ∈ b.plan, step.isFail = false) :
    b.plan.countP Step.disposes = b.live.length := by
  have hSettles : ∀ step : Step, step.disposes = true → step.settles = true := fun step h => by
    cases step <;> first | rfl | cases h
  have hParts : b.live.map (fun e => (b.part e).countP Step.disposes) = b.live.map fun _ => 1 := by
    refine List.map_congr_left fun e he => disposes_part fun step hStep => ?_
    have hWindows : ∀ step ∈ b.windows [] b.sightings, step.isFail = false :=
      fun step hIn => hSteady step (List.mem_append_left _ hIn)
    exact hWindows step (mem_windows_of_part hWindows (.inr (mem_live.mp he)) hStep)
  rw [b.countP_plan fun _ => rfl, countP_windows hWorkers hUnbroken hSettles, hParts,
    List.map_const', List.sum_replicate_nat, Nat.mul_one]

theorem unscanned_submission (b : Basis) (e : FileEntry) :
    ∀ step ∈ b.submission e, step.isScanned = false := by
  intro step hStep
  unfold submission at hStep
  split at hStep
  · rcases List.mem_pair.mp hStep with rfl | rfl <;> rfl
  · split at hStep <;> (obtain rfl := List.mem_singleton.mp hStep; rfl)

/-- Only the scan itself counts the files that came up. -/
theorem unscanned_window (b : Basis) (files : List FileEntry) :
    ∀ step ∈ b.window files, step.isScanned = false := by
  intro step hStep
  simp only [window] at hStep
  split at hStep
  · obtain rfl := List.mem_singleton.mp hStep
    rfl
  · rw [List.mem_append, List.mem_append] at hStep
    rcases hStep with (hHashing | hVerdict) | hSubmission
    · unfold hashing at hHashing
      split at hHashing
      · rcases List.mem_append.mp hHashing with hNote | hWait
        · obtain ⟨r, _, rfl⟩ := List.mem_map.mp hNote
          rfl
        · obtain rfl := List.mem_singleton.mp hWait
          rfl
      · cases hHashing
    · obtain ⟨e, _, hStep⟩ := List.mem_flatMap.mp hVerdict
      unfold verdict at hStep
      split at hStep <;> first | cases hStep; done | (obtain rfl := List.mem_singleton.mp hStep; rfl)
    · unfold submissions at hSubmission
      split at hSubmission
      · cases hSubmission
      · split at hSubmission
        · obtain rfl := List.mem_singleton.mp hSubmission
          rfl
        · rcases List.mem_cons.mp hSubmission with rfl | hFile
          · rfl
          · obtain ⟨e, _, hStep⟩ := List.mem_flatMap.mp hFile
            exact unscanned_submission b e step hStep

theorem countP_scanned_windows (files : List FileEntry) (hUnbroken : ∀ f, .broken f ∉ sightings) :
    (b.windows files sightings).countP Step.isScanned =
      (sightings.filterMap Sighting.file?).length := by
  have hWindow (files : List FileEntry) : (b.window files).countP Step.isScanned = 0 :=
    List.countP_eq_zero.mpr fun step hStep => by simp [b.unscanned_window files step hStep]
  induction sightings generalizing files with
  | nil =>
      cases files with
      | nil => rfl
      | cons e rest => exact hWindow (e :: rest)
  | cons sighting rest ih =>
      have hRest : ∀ f, .broken f ∉ rest := fun f h => hUnbroken f (List.mem_cons_of_mem _ h)
      cases sighting with
      | file e =>
          rw [List.filterMap_cons_some (show Sighting.file? (.file e) = some e from rfl),
            List.length_cons]
          simp only [windows]
          split
          · rw [List.countP_cons_of_pos rfl, List.countP_append, hWindow, ih [] hRest, Nat.zero_add]
          · rw [List.countP_cons_of_pos rfl, ih (files ++ [e]) hRest]
      | trouble r =>
          rw [List.filterMap_cons_none (show Sighting.file? (.trouble r) = none from rfl)]
          simp only [windows]
          rw [List.countP_cons_of_neg Bool.false_ne_true, ih files hRest]
      | broken f => exact absurd List.mem_cons_self (hUnbroken f)

/-- The plan counts every file that came up. -/
theorem countP_scanned (hUnbroken : ∀ f, .broken f ∉ b.sightings) :
    b.plan.countP Step.isScanned = b.live.length := by
  rw [b.countP_plan fun _ => rfl, countP_scanned_windows [] hUnbroken]
  rfl

end Basis

/-- What the walker has counted and is going to count. -/
def Walk.tallied (w : Walk) : Nat × Nat × Nat :=
  (w.scanned + w.plan.countP Step.isScanned, w.unchanged + w.plan.countP Step.isUnchanged,
    w.skipped + w.plan.countP Step.isSkip)

theorem Walk.tallied_take (w : Walk) (d : Delivery) (step : Step) :
    (w.take d step).1.tallied = { w with plan := step :: w.plan : Walk }.tallied := by
  cases step with
  | submit op =>
      simp only [take]
      split <;> rfl
  | note r | wait | fail f => rfl
  | scanned | unchanged | skipped =>
      simp [take, tallied, List.countP_cons, Step.isScanned, Step.isUnchanged, Step.isSkip,
        Nat.add_comm, Nat.add_left_comm]

theorem Walk.tallied_advance (w : Walk) (d : Delivery) : (w.advance d).1.tallied = w.tallied := by
  unfold advance
  split
  · split
    · rfl
    · next step rest hPhase hPlan =>
        rw [tallied_take]
        simp only [tallied, hPlan]
    · rfl
    · rfl
    · rfl
  · rfl

theorem tallied_step (c : Crawl) (e : Event) : (c.step e).walk.tallied = c.walk.tallied := by
  cases e with
  | advance => exact c.walk.tallied_advance c.delivery
  | arrive =>
      simp only [step, Walk.arrive]
      split <;> rfl
  | cancel =>
      simp only [step, Walk.cancel]
      split <;> rfl
  | delivery e =>
      simp only [step]
      split <;> rfl

end Crawl
end Indexer
