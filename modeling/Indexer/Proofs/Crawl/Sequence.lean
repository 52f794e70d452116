import Indexer.Proofs.Crawl.Resilience
import Indexer.Proofs.File.Sequence

/-! The sequence of operations that a crawl hands over. Files are hashed and taken
by windows, and as many of them at a time as there are workers; but what is handed
over is what a crawl would hand over that goes through the files one by one, in the
order in which the scan brings them up, and deletes what is left at the end. Only a
file to be indexed whose path has no UTF-8 form cuts the sequence short. -/
namespace Indexer

namespace Document

/-- A text is cut to so many of its characters from the front; nothing is cut off below zero. -/
theorem cap_of_toInt? {limit : Quantity} {n : Int} (h : limit.toInt? = some n) (text : String) :
    cap limit text = .ok (if n < 0 then text else Text.start n.toNat text) := by
  unfold cap
  rw [Quantity.isBelow_of_toInt? h, Quantity.isAtLeast_of_toInt? h, h]
  by_cases hBelow : n < 0
  · simp [hBelow]
  · by_cases hLong : (text.length : Int) ≤ n
    · have hAll : text.toList.length ≤ n.toNat := by
        rw [String.length_toList]
        omega
      simp [hBelow, hLong, Text.start, List.take_of_length_le hAll]
    · simp [hBelow, hLong]

/-- The text of a document is as long as the document says. -/
theorem text_of_ofFile {s : Settings} {e : FileEntry} {c : Content} {checksum : Option String}
    {raw : Option ByteArray} {now : DateTime} {doc : Document}
    (h : ofFile s e c checksum raw now = .ok doc) :
    ∃ text, cap s.indexedChars c.text = .ok text ∧ doc.content = some text ∧
      doc.file.indexedChars = text.length := by
  obtain ⟨text, _, _, hText, _, rfl⟩ := ofFile_eq h
  exact ⟨text, hText, rfl, rfl⟩

end Document

/-- A file with a record is not new. -/
theorem ChangeKind.of_ne_new (mtime : Moment) (p : Acknowledged) (checksum : Option String) :
    of mtime (some p) checksum ≠ .new := by
  have hTimes : ofTimes p.lastModified mtime ≠ .new := by
    unfold ofTimes
    split <;> simp
  unfold of ofChecksums
  dsimp only
  split
  · rw [Option.getD_some]
    split <;> simp
  · exact hTimes

/-- What is left out decides, with the number of scanners, what a scan brings up. -/
theorem Scan.run_congr {s other : Settings} {t : FileTree} {root : Path}
    (hScanners : s.scannerConcurrency = other.scannerConcurrency) (hDirs : s.skipDirs = other.skipDirs)
    (hExtensions : s.skipExtensions = other.skipExtensions) : run s t root = run other t root := by
  have hFiles : s.skipsFile = other.skipsFile := by
    funext name
    rw [Settings.skipsFile, hExtensions, Settings.skipsFile]
  have hSighting : sightingOf s root = sightingOf other root := by
    funext n
    unfold sightingOf
    rw [hFiles]
  have hSubdirectory : isSubdirectory s = isSubdirectory other := by
    funext n
    simp only [isSubdirectory, Settings.skipsDirectory, hDirs]
  have hDirectory (depth : Nat) (dir : Path) :
      directory s t root depth dir = directory other t root depth dir := by
    induction depth generalizing dir with
    | zero => rfl
    | succ depth ih => simp only [directory, hSighting, hSubdirectory, ih]
  rw [run, run, hScanners, hDirectory]

/-- What is loaded for a root is about different paths. -/
theorem Store.IsKeyed.nodup_load {s : Store} (h : s.IsKeyed) {root : String}
    {entries : List Acknowledged} (hLoad : s.load root = .ok entries) :
    (entries.map (·.path)).Nodup := by
  have hRows : (s.rows.filter (·.root = root)).Pairwise fun r q => r.path ≠ q.path := by
    refine ((List.pairwise_map.mp h).sublist List.filter_sublist).imp_of_mem fun {r q} hr hq hKey => ?_
    have hRoot : r.root = q.root := by
      rw [of_decide_eq_true (List.mem_filter.mp hr).2, of_decide_eq_true (List.mem_filter.mp hq).2]
    exact fun hPath => hKey (by rw [hRoot, hPath])
  rw [paths_of_mapM hLoad, List.Nodup, List.pairwise_map]
  exact List.Perm.pairwise (List.mergeSort_perm _ _).symm hRows fun hne => hne.symm

namespace Crawl

namespace Basis

variable {b : Basis} {e : FileEntry}

/-- A file is due if it can be read and extracted, and is new or updated against its record. -/
def isDue (b : Basis) (e : FileEntry) : Bool :=
  match b.tree.read e.path with
  | .error _ => false
  | .ok raw =>
    (Content.extract b.readers raw (some e.name)).toOption.isSome &&
      (b.recorded? e).all fun p =>
        ChangeKind.of e.mtime (some p) (b.settings.algorithm?.map (·.hex raw)) = .updated

/-- The operation indexes a file by the bytes and the text that it has, the text cut to so many
characters unless the number is below zero. -/
def IndexedAs (b : Basis) (limit : Int) (e : FileEntry) (op : Operation) : Prop :=
  ∃ raw content doc text, b.tree.read e.path = .ok raw ∧
    Content.extract b.readers raw (some e.name) = .ok content ∧
    op = {
      action := .index doc
      id := documentId e.path.text
      update := some {
        root := b.root.text
        path := e.path.text
        checksum := b.settings.algorithm?.map (·.hex raw)
        lastModified := some e.mtime.local
        remove := false }
      attempts := 0 } ∧
    doc.id = documentId e.path.text ∧
    doc.file.checksum = b.settings.algorithm?.map (·.hex raw) ∧
    doc.content = some text ∧ doc.file.indexedChars = text.length ∧
    text.toList = if limit < 0 then content.text.toList else content.text.toList.take limit.toNat

theorem take_of_content {raw : ByteArray} {content : Content} (hRead : b.tree.read e.path = .ok raw)
    (hContent : Content.extract b.readers raw (some e.name) = .ok content) :
    b.take e = .ok (raw, b.settings.algorithm?.map (·.hex raw), content) := by
  simp only [take, hRead, hContent, bind, Except.bind, pure, Except.pure, Checksum.ofBytes_eq]

theorem content_of_take {taken : ByteArray × Option String × Content} (h : b.take e = .ok taken) :
    ∃ raw content, b.tree.read e.path = .ok raw ∧
      Content.extract b.readers raw (some e.name) = .ok content := by
  obtain ⟨raw, checksum, content⟩ := taken
  obtain ⟨hRead, _⟩ := take_ok h
  cases hContent : Content.extract b.readers raw (some e.name) with
  | error f => simp [take, hRead, hContent, bind, Except.bind] at h
  | ok content => exact ⟨raw, content, hRead, hContent⟩

/-- A file that can be read is told from its record by the bytes that it has. -/
theorem isChanged_of_read {raw : ByteArray} (hRead : b.tree.read e.path = .ok raw) :
    isChanged (b.fate e) = (b.recorded? e).all fun p =>
      ChangeKind.of e.mtime (some p) (b.settings.algorithm?.map (·.hex raw)) = .updated := by
  unfold fate
  cases b.recorded? e with
  | none => rfl
  | some p =>
      simp only [present?_of_read hRead, Option.map_some, Option.all_some]
      cases hKind : ChangeKind.of e.mtime (some p) (b.settings.algorithm?.map (·.hex raw)) with
      | new => exact absurd hKind (ChangeKind.of_ne_new _ p _)
      | updated | unchanged => rfl

/-- The files that are due are the changed ones that can be taken. -/
theorem isDue_iff : b.isDue e = true ↔ b.Calls e := by
  unfold isDue Calls
  cases hRead : b.tree.read e.path with
  | error f =>
      refine iff_of_false Bool.false_ne_true fun ⟨_, taken, hTake⟩ => ?_
      obtain ⟨raw, _, hOther, _⟩ := content_of_take hTake
      exact absurd (hRead.symm.trans hOther) nofun
  | ok raw =>
      simp only [← isChanged_of_read hRead]
      rw [Bool.and_eq_true, and_comm]
      refine and_congr_right fun _ => ?_
      cases hContent : Content.extract b.readers raw (some e.name) with
      | ok content => exact iff_of_true rfl ⟨_, take_of_content hRead hContent⟩
      | error f =>
          refine iff_of_false Bool.false_ne_true fun ⟨taken, hTake⟩ => ?_
          obtain ⟨other, _, hOther, hOtherContent⟩ := content_of_take hTake
          obtain rfl := Except.ok.inj (hRead.symm.trans hOther)
          exact absurd (hContent.symm.trans hOtherContent) nofun

theorem submitted_of_due {limit : Int} (hLimit : b.settings.indexedChars.toInt? = some limit)
    (hRoot : b.root.isAbsolute = true) (he : .file e ∈ b.sightings) (hName : e.pathFault = none)
    (hDue : b.isDue e = true) : ∃ op, submitted (b.part e) = [op] ∧ b.IndexedAs limit e op := by
  obtain ⟨hChanged, taken, hTaken⟩ := isDue_iff.mp hDue
  obtain ⟨raw, content, hRead, hContent⟩ := content_of_take hTaken
  have hTake := take_of_content hRead hContent
  obtain ⟨doc, hDoc⟩ := exists_doc (hLimit ▸ rfl) hRoot he hName content
    (b.settings.algorithm?.map (·.hex raw)) raw
  obtain ⟨hId, hChecksum, _⟩ := Document.ofFile_ok hDoc
  obtain ⟨text, hText, hBody, hLength⟩ := Document.text_of_ofFile hDoc
  refine ⟨b.indexing e (b.settings.algorithm?.map (·.hex raw)) doc, ?_, raw, content, doc, text, hRead,
    hContent, ?_, hId, hChecksum, hBody, hLength, ?_⟩
  · rw [submitted_part, if_pos hChanged, submission, hTake]
    simp only [hDoc]
    rfl
  · rw [indexing, hId]
  · rw [Document.cap_of_toInt? hLimit] at hText
    rw [← Except.ok.inj hText]
    split
    · rfl
    · rw [Text.start, String.toList_ofList]

theorem submitted_of_not_due (hDue : b.isDue e = false) : submitted (b.part e) = [] := by
  rw [submitted_part]
  split
  · next hChanged =>
      cases hTake : b.take e with
      | error f =>
          rw [submission, hTake]
          rfl
      | ok taken => simp [isDue_iff.mpr ⟨hChanged, taken, hTake⟩] at hDue
  · rfl

/-! ### The windows -/

variable {files : List FileEntry} {sightings : List Sighting}

theorem submitted_window (hWorkers : b.settings.workerConcurrency.isAtMost 0 = false) :
    submitted (b.window files) = files.flatMap fun e => submitted (b.part e) := by
  obtain ⟨hashed, log, hHashed⟩ := hashed_of_workers hWorkers b.tree
    (files.filter fun e => (b.recorded? e).isSome)
  have hChanged : files.filter (fun e => isChanged (b.change? hashed e)) =
      files.filter fun e => isChanged (b.fate e) :=
    List.filter_congr fun e he => by rw [change?_eq_fate hHashed he]
  have hSubmissions (changed : List FileEntry) :
      submitted (b.submissions changed) = changed.flatMap fun e => submitted (b.submission e) := by
    cases changed with
    | nil => rfl
    | cons e rest =>
        simp only [submissions, hWorkers, Bool.false_eq_true, if_false]
        exact List.flatMap_assoc
  simp only [window, hHashed, submitted_append, submitted_hashing, submitted_verdicts, hChanged,
    hSubmissions, List.nil_append, submitted_part]
  exact flatMap_filter _ _ files

/-- What the windows of a scan submit is what a crawl submits that takes the files one by one. -/
theorem submitted_windows (hWorkers : b.settings.workerConcurrency.isAtMost 0 = false)
    (hUnbroken : ∀ f, .broken f ∉ sightings) :
    submitted (b.windows files sightings) =
      (files ++ sightings.filterMap Sighting.file?).flatMap fun e => submitted (b.part e) := by
  induction sightings generalizing files with
  | nil =>
      cases files with
      | nil => rfl
      | cons e rest => rw [windows, submitted_window hWorkers, List.filterMap_nil, List.append_nil]
  | cons sighting rest ih =>
      have hRest : ∀ f, .broken f ∉ rest := fun f h => hUnbroken f (List.mem_cons_of_mem _ h)
      cases sighting with
      | file e =>
          have hSplit : files ++ (Sighting.file e :: rest).filterMap Sighting.file? =
              (files ++ [e]) ++ rest.filterMap Sighting.file? := by simp [Sighting.file?]
          rw [hSplit]
          simp only [windows]
          split
          · rw [submitted_cons, submitted_append, submitted_window hWorkers, ih hRest,
              @List.flatMap_append _ _ (files ++ [e]), List.nil_append]
            rfl
          · rw [submitted_cons, ih hRest]
            rfl
      | trouble r =>
          rw [List.filterMap_cons_none (show Sighting.file? (.trouble r) = none from rfl)]
          simp only [windows]
          rw [submitted_cons, ih hRest]
          rfl
      | broken f => exact absurd List.mem_cons_self (hUnbroken f)

theorem submitted_plan (hWorkers : b.settings.workerConcurrency.isAtMost 0 = false)
    (hUnbroken : ∀ f, .broken f ∉ b.sightings) :
    submitted b.plan = b.live.flatMap (fun e => submitted (b.part e)) ++ b.gone.map b.deletion := by
  rw [plan, submitted_append, submitted_windows hWorkers hUnbroken, submitted_deletions]
  rfl

/-! ### What is handed over -/

/-- What is submitted file by file are the operations of the files that are due. -/
theorem submitted_parts {limit : Int} (hLimit : b.settings.indexedChars.toInt? = some limit)
    (hRoot : b.root.isAbsolute = true) (hSound : b.IsSound) (hFiles : ∀ e ∈ files, .file e ∈ b.sightings) :
    List.Forall₂ (b.IndexedAs limit) (files.filter b.isDue)
      (files.flatMap fun e => submitted (b.part e)) := by
  induction files with
  | nil => exact .nil
  | cons e rest ih =>
      have hRest := ih fun later hLater => hFiles later (List.mem_cons_of_mem e hLater)
      rw [List.flatMap_cons]
      cases hDue : b.isDue e with
      | true =>
          have he := hFiles e List.mem_cons_self
          have hName := hSound.names e he (isDue_iff.mp hDue)
          obtain ⟨op, hOp, hIndexed⟩ := submitted_of_due hLimit hRoot he hName hDue
          rw [List.filter_cons_of_pos hDue, hOp]
          exact .cons hIndexed hRest
      | false =>
          rw [List.filter_cons_of_neg (by simp [hDue]), submitted_of_not_due hDue]
          exact hRest

/-- The basis of the same crawl with another number of workers. -/
def withWorkers (b : Basis) (workers : Quantity) : Basis :=
  { b with settings := { b.settings with workerConcurrency := workers } }

theorem sightings_withWorkers (b : Basis) (workers : Quantity) :
    (b.withWorkers workers).sightings = b.sightings :=
  Scan.run_congr rfl rfl rfl

theorem live_withWorkers (b : Basis) (workers : Quantity) : (b.withWorkers workers).live = b.live := by
  rw [live, sightings_withWorkers, live]

theorem gone_withWorkers (b : Basis) (workers : Quantity) : (b.withWorkers workers).gone = b.gone := by
  rw [gone, sightings_withWorkers, gone]
  rfl

/-- The number of workers has no say in what is submitted. -/
theorem submitted_withWorkers {workers : Quantity} (hWorkers : workers.isAtMost 0 = false)
    (hUnbroken : ∀ f, .broken f ∉ b.sightings) :
    submitted (b.withWorkers workers).plan =
      b.live.flatMap (fun e => submitted (b.part e)) ++ b.gone.map b.deletion := by
  rw [submitted_plan hWorkers (by rwa [sightings_withWorkers]), live_withWorkers, gone_withWorkers]
  rfl

/-- The files that came up have different paths. -/
theorem nodup_live (hProper : b.tree.IsProper) : (b.live.map (·.path.text)).Nodup := by
  refine List.pairwise_map.mpr ((Scan.pairwise_run hProper).imp_of_mem ?_)
  intro e f he hf hBefore hText
  refine hBefore.ne ?_
  rw [Scan.eq_of_mem_run hProper (mem_live.mp he) (mem_live.mp hf) hText]

theorem pairwise_gone (hPrior : (b.prior.map (·.path)).Nodup) : b.gone.Pairwise (· < ·) := by
  have hSorted := pairwise_mergeSort_text id (b.prior.map (·.path))
  have hApart := (List.mergeSort_perm (b.prior.map (·.path)) fun p q => p ≤ q).nodup_iff.mpr hPrior
  refine ((hSorted.and hApart).sublist List.filter_sublist).imp fun {p q} ⟨hLe, hNe⟩ => ?_
  exact String.not_le.mp fun hBack => hNe (String.le_antisymm hLe hBack)

theorem paths_of_indexings {limit : Int} {indexings : List Operation}
    (h : List.Forall₂ (b.IndexedAs limit) files indexings) :
    indexings.map (fun op => op.update.map (·.path)) = files.map fun e => some e.path.text := by
  rw [← List.forall₂_eq_eq_eq, List.forall₂_map_left_iff, List.forall₂_map_right_iff]
  refine h.flip.imp ?_
  rintro op e ⟨raw, content, doc, text, _, _, rfl, _⟩
  rfl

/-- No path occurs twice. -/
theorem nodup_paths {limit : Int} (hProper : b.tree.IsProper) (hPrior : (b.prior.map (·.path)).Nodup)
    {indexings : List Operation}
    (hIndexings : List.Forall₂ (b.IndexedAs limit) (b.live.filter b.isDue) indexings) :
    ((indexings ++ b.gone.map b.deletion).map fun op => op.update.map (·.path)).Nodup := by
  have hDeleted : (b.gone.map b.deletion).map (fun op => op.update.map (·.path)) = b.gone.map some := by
    rw [List.map_map]
    rfl
  rw [List.map_append, paths_of_indexings hIndexings, hDeleted, List.nodup_append]
  refine ⟨?_, ?_, ?_⟩
  · refine List.pairwise_map.mpr (((List.pairwise_map.mp (nodup_live hProper)).sublist
      List.filter_sublist).imp fun hne hSame => hne (Option.some.inj hSame))
  · refine List.pairwise_map.mpr ((pairwise_gone hPrior).imp fun {p q} hBefore hSame => ?_)
    obtain rfl := Option.some.inj hSame
    exact String.lt_irrefl p hBefore
  · intro path hLive gone hGone hSame
    subst hSame
    obtain ⟨e, he, rfl⟩ := List.mem_map.mp hLive
    obtain ⟨p, hp, hText⟩ := List.mem_map.mp hGone
    obtain rfl := Option.some.inj hText
    exact (mem_gone_iff.mp hp).2 ⟨e, mem_live.mp (List.mem_of_mem_filter he), rfl⟩

end Basis

/-- A crawl that was neither cancelled nor ended by its delivery has handed over the whole of its plan,
once its walker has left it. -/
theorem handed_of_over {settings : Settings} {readers : Readers} {tree : FileTree} {root : Path}
    {now : DateTime} {store : Store} {c : Crawl}
    (hStart : start settings readers tree root now store = .ok c)
    (hSteady : ∀ step ∈ c.walk.plan, step.isFail = false) {events : List Event}
    (hOver : (c.run events).walk.IsOver) (hCancel : .cancel ∉ events)
    (hFatal : (c.run events).delivery.fatal = none) : c.handed events = submitted c.walk.plan := by
  obtain ⟨prior, _, hPlan, hDelivery⟩ := start_ok hStart
  have hStarts : Starts { settings, readers, tree, root, prior, now } store c := ⟨hStart, hPlan⟩
  have hCourse := hStarts.onCourse (hPlan ▸ hSteady)
  have hFits := (hCourse.run events hCancel hFatal).fits
  have hSettled : (c.run events).IsSettled :=
    isSettled_run hCourse.orderly (isSettled_of_start hStart) events
  have hDone : (c.run events).walk.plan = [] := by
    unfold Walk.IsOver at hOver
    cases hPhase : (c.run events).walk.phase with
    | walking | waiting => simp [hPhase] at hOver
    | closing => exact hSettled.closing hPhase
    | stopping f =>
        rw [hPhase] at hFits
        exact hFits.elim
    | ended r =>
        rw [hPhase] at hFits
        cases r with
        | ok _ => exact (hSettled.ended hPhase).1
        | error f => exact hFits.elim
  obtain ⟨taken, rest, hSplit, hHanded, _, hRest⟩ := c.run_plan events
  rw [hHanded, hSplit, submitted_append]
  rcases hRest with rfl | ⟨f, rfl⟩
  · rw [hDone, submitted_nil, List.append_nil]
  · cases hSteady (.fail f) (by simp [hSplit])

theorem handed_prefix (c : Crawl) (events : List Event) : c.handed events <+: submitted c.walk.plan := by
  obtain ⟨taken, rest, hSplit, hHanded, _⟩ := c.run_plan events
  rw [hHanded, hSplit, submitted_append]
  exact List.prefix_append _ _

/-- **What a crawl hands over.** Whatever the number of workers, a crawl of a sound tree hands over from
the front of one list, and all of it unless it is cancelled or its delivery ends with a fault. In the
list every file that is due has one operation, in the order in which the scan brings up the files, which
indexes it by the bytes and the text that it has; after these every path that is recorded and did not
come up has one that deletes its document, in path order. No path occurs twice. -/
theorem crawl_hands_over_file_by_file {settings : Settings} {readers : Readers} {tree : FileTree}
    {root : Path} {now : DateTime} {store : Store} {prior : List Acknowledged} {limit : Int}
    (hScanners : settings.scannerConcurrency.isAtMost 0 = false)
    (hLimit : settings.indexedChars.toInt? = some limit) (hProper : tree.IsProper)
    (hFaults : tree.FailsAsFiles) (hRoot : root.isAbsolute = true) (hNamed : tree.pathFault? root = none)
    (hSound : Basis.IsSound { settings, readers, tree, root, prior, now }) (hKeyed : store.IsKeyed)
    (hLoad : store.load root.text = .ok prior) :
    let b : Basis := { settings, readers, tree, root, prior, now }
    ∃ (indexings : List Operation) (gone : List String),
      List.Forall₂ (b.IndexedAs limit) (b.live.filter b.isDue) indexings ∧
      gone.Pairwise (· < ·) ∧
      (∀ path, path ∈ gone ↔
        path ∈ prior.map (·.path) ∧ path ∉ b.live.map fun e => e.path.text) ∧
      let deletions : List Operation := gone.map fun path => {
        action := .delete
        id := documentId path
        update := some ⟨root.text, path, none, none, true⟩
        attempts := 0 }
      ((indexings ++ deletions).map fun op => op.update.map (·.path)).Nodup ∧
      ∀ workers : Quantity, workers.isAtMost 0 = false → ∃ c,
        start { settings with workerConcurrency := workers } readers tree root now store = .ok c ∧
        ∀ events, c.handed events <+: indexings ++ deletions ∧
          ((c.run events).walk.IsOver → .cancel ∉ events → (c.run events).delivery.fatal = none →
            c.handed events = indexings ++ deletions) := by
  intro b
  have hSlots : settings.scannerConcurrency.isBelow 0 = false :=
    Quantity.isBelow_eq_false_of_isAtMost hScanners
  have hUnbroken : ∀ f, .broken f ∉ b.sightings := hSound.unbroken hFaults hSlots
  have hIndexings := Basis.submitted_parts (b := b) hLimit hRoot hSound fun e he => Basis.mem_live.mp he
  have hPrior : (b.prior.map (·.path)).Nodup := hKeyed.nodup_load hLoad
  have hGone (path : String) : path ∈ b.gone ↔
      path ∈ prior.map (·.path) ∧ path ∉ b.live.map fun e => e.path.text := by
    rw [Basis.mem_gone_iff, List.mem_map (f := fun e : FileEntry => e.path.text)]
    simp only [Basis.mem_live]
    rfl
  refine ⟨_, b.gone, hIndexings, Basis.pairwise_gone hPrior, hGone,
    Basis.nodup_paths hProper hPrior hIndexings, fun workers hWorkers => ?_⟩
  obtain ⟨c, hStart⟩ : ∃ c, start { settings with workerConcurrency := workers } readers tree root now
      store = .ok c := by
    rw [start, hNamed, hLoad]
    exact ⟨_, rfl⟩
  obtain ⟨loaded, hLoaded, hPlan, _⟩ := start_ok hStart
  obtain rfl : loaded = prior := Except.ok.inj (hLoaded.symm.trans hLoad)
  have hSubmitted : submitted c.walk.plan =
      b.live.flatMap (fun e => submitted (b.part e)) ++ b.gone.map b.deletion := by
    rw [hPlan]
    exact Basis.submitted_withWorkers hWorkers hUnbroken
  have hSteady : ∀ step ∈ c.walk.plan, step.isFail = false := by
    rw [hPlan]
    have hSightings := b.sightings_withWorkers workers
    refine Basis.steady_of_parts hWorkers (hSightings.symm ▸ hUnbroken) fun e he => ?_
    refine Basis.part_steady (Option.isSome_iff_exists.mpr ⟨limit, hLimit⟩) hRoot he fun hCalls => ?_
    exact hSound.names e (hSightings ▸ he) hCalls
  refine ⟨c, hStart, fun events => ⟨hSubmitted ▸ c.handed_prefix events, fun hOver hCancel hFatal => ?_⟩⟩
  exact (handed_of_over hStart hSteady hOver hCancel hFatal).trans hSubmitted

/-- A single file below the root. -/
def loneTree : FileTree := ⟨[
  .plainDirectory ⟨1, ["r"]⟩,
  { Node.plainDirectory ⟨1, ["r", "a.txt"]⟩ with kind := .file }]⟩

theorem loneTree_is_handed_over :
    ∃ c, start (.initial ⟨0, []⟩) (firstBasis loneTree).readers loneTree ⟨1, ["r"]⟩ ⟨⟨0⟩, none⟩ .empty =
        .ok c ∧
      ∃ events, (c.run events).walk.phase = .ended (.ok ()) ∧
        (c.handed events).map (fun op => op.update.map (·.path)) = [some "/r/a.txt"] := by
  have hMoments : ∀ n ∈ loneTree.nodes, Moment.ofSeconds n.mtime = .ok ⟨1700000000000000⟩ := by
    decide +kernel
  have hSound : (firstBasis loneTree).IsSound := by
    have hRoot : loneTree.isDirectory ⟨1, ["r"]⟩ = .ok true := rfl
    have hTimes : ∀ n ∈ loneTree.nodes, n.IsDatable :=
      fun n hNode => Node.isDatable_of_ok (hMoments n hNode)
    refine Basis.isSound_of_nodes hRoot hTimes fun n hNode => ?_
    rcases List.mem_pair.mp hNode with rfl | rfl <;> rfl
  obtain ⟨indexings, gone, hIndexings, hSorted, hGone, _, hRuns⟩ :=
    @crawl_hands_over_file_by_file (.initial ⟨0, []⟩) (firstBasis loneTree).readers loneTree
      ⟨1, ["r"]⟩ ⟨⟨0⟩, none⟩ .empty [] 100000 (by decide) (by decide) (by decide +kernel)
      ⟨by decide, by decide⟩ rfl rfl hSound Store.isKeyed_empty (load_empty _)
  obtain ⟨c, hStart, hHanded⟩ := hRuns (.whole 8) (by decide)
  obtain ⟨prior, hLoad, hPlan, _⟩ := start_ok hStart
  obtain rfl : prior = [] := Except.ok.inj (hLoad.symm.trans (load_empty _))
  have hStarts : Starts (firstBasis loneTree) .empty c := ⟨hStart, hPlan⟩
  have hSteady : ∀ step ∈ (firstBasis loneTree).plan, step.isFail = false :=
    (Basis.steady_plan_iff isUsable_initial ⟨by decide, by decide⟩ rfl).mpr hSound
  obtain ⟨events, hGranted, hEnd⟩ := hStarts.exists_end hSteady isUsable_initial
  refine ⟨c, hStart, events, hEnd, ?_⟩
  have hOver : (c.run events).walk.IsOver := by
    rw [Walk.IsOver, hEnd]
    trivial
  have hNone : gone = [] := List.eq_nil_iff_forall_not_mem.mpr fun path hPath =>
    List.not_mem_nil ((hGone path).mp hPath).1
  rw [(hHanded events).2 hOver hGranted.kept (hStarts.fatal_of_granted hGranted), hNone, List.map_nil,
    List.append_nil, Basis.paths_of_indexings hIndexings]
  decide +kernel

/-- A file whose path has no UTF-8 form. -/
def unnamedFile : Node :=
  { Node.plainDirectory ⟨1, ["r", "a.txt"]⟩ with
    kind := .file, pathFault := some (.encoding 0xe9 3 1) }

/-- A file that comes after it. -/
def laterFile : Node := { Node.plainDirectory ⟨1, ["r", "b.txt"]⟩ with kind := .file }

def unnamedTree : FileTree := ⟨[.plainDirectory ⟨1, ["r"]⟩, unnamedFile, laterFile]⟩

theorem sightings_unnamedTree : (firstBasis unnamedTree).sightings =
    [Scan.lookAt ⟨1, ["r"]⟩ unnamedFile, Scan.lookAt ⟨1, ["r"]⟩ laterFile] := by
  let s : Settings := .initial ⟨0, []⟩
  have hRoot : unnamedTree.isDirectory ⟨1, ["r"]⟩ = .ok true := rfl
  have hEntries : unnamedTree.entries ⟨1, ["r"]⟩ = [unnamedFile, laterFile] :=
    List.mergeSort_of_pairwise (by decide)
  have hList : unnamedTree.list ⟨1, ["r"]⟩ = .ok [unnamedFile, laterFile] := by rw [← hEntries]; rfl
  have hName : ∀ n ∈ [unnamedFile, laterFile], s.skipsFile n.name = false := by decide +kernel
  have hSeen (n : Node) (hNode : n ∈ [unnamedFile, laterFile]) :
      Scan.sightingOf s ⟨1, ["r"]⟩ n = some (Scan.lookAt ⟨1, ["r"]⟩ n) := by
    have hLook : n.kindFault = none ∧ n.kind = .file := by
      rcases List.mem_pair.mp hNode with rfl | rfl <;> exact ⟨rfl, rfl⟩
    simp only [Scan.sightingOf, hLook.1, hLook.2, hName n hNode, Bool.false_eq_true, if_false]
  change Scan.run s unnamedTree ⟨1, ["r"]⟩ = _
  rw [Scan.run, if_neg (by decide), hRoot]
  simp only [Scan.directory, hList, List.filterMap_cons, List.filterMap_nil,
    hSeen unnamedFile List.mem_cons_self, hSeen laterFile (List.mem_cons_of_mem _ List.mem_cons_self)]
  rfl

/-- The first crawl of the two files. -/
def unnamedCrawl : Crawl where
  walk := .start ((firstBasis unnamedTree).windows []
    [Scan.lookAt ⟨1, ["r"]⟩ unnamedFile, Scan.lookAt ⟨1, ["r"]⟩ laterFile])
  delivery := (Delivery.create (firstBasis unnamedTree).settings .empty).start

theorem start_unnamedTree : start (firstBasis unnamedTree).settings (firstBasis unnamedTree).readers
    unnamedTree ⟨1, ["r"]⟩ (firstBasis unnamedTree).now .empty = .ok unnamedCrawl := by
  obtain ⟨c, hStarts⟩ := @exists_starts unnamedTree rfl
  have hGone : (firstBasis unnamedTree).gone = [] := by
    simp [Basis.gone, firstBasis, deletedPaths]
  have hPlan : c.walk.plan = unnamedCrawl.walk.plan := by
    rw [hStarts.plan, Basis.plan, hGone, sightings_unnamedTree, List.map_nil, List.append_nil]
    rfl
  have hCrawl : c = unnamedCrawl := by
    obtain ⟨_, _, _, hDelivery⟩ := start_ok hStarts.start
    rw [← show Crawl.mk c.walk c.delivery = c from rfl, walk_of_start hStarts.start, hPlan, hDelivery]
    rfl
  exact hCrawl ▸ hStarts.start

/-- A single path without a UTF-8 form keeps the files behind it from being handed over. -/
theorem unnamed_file_hides_the_rest :
    ¬∀ (settings : Settings) (readers : Readers) (tree : FileTree) (root : Path) (now : DateTime)
      (store : Store) (prior : List Acknowledged) (c : Crawl), settings.IsUsable → tree.IsProper →
      tree.FailsAsFiles → root.isAbsolute = true → (∀ n ∈ tree.nodes, n.IsDatable) → store.IsKeyed →
      store.load root.text = .ok prior → start settings readers tree root now store = .ok c →
      let b : Basis := { settings, readers, tree, root, prior, now }
      ∀ events, (c.run events).walk.IsOver → .cancel ∉ events → (c.run events).delivery.fatal = none →
        ∀ e ∈ b.live, b.isDue e = true → e.pathFault = none →
          ∃ op ∈ c.handed events, op.update.map (·.path) = some e.path.text := by
  intro h
  have hMoments : ∀ n ∈ unnamedTree.nodes, Moment.ofSeconds n.mtime = .ok ⟨1700000000000000⟩ := by
    decide +kernel
  have hDue : ([Scan.lookAt ⟨1, ["r"]⟩ unnamedFile, Scan.lookAt ⟨1, ["r"]⟩ laterFile].filterMap
      Sighting.file?).any (fun e => (firstBasis unnamedTree).isDue e && e.pathFault.isNone) = true := by
    decide +kernel
  have hEnds : let events :=
        [.advance, .advance, .advance, .advance, .arrive, .advance, .delivery .proceed, .advance]
      (unnamedCrawl.run events).walk.fault?.isSome = true ∧
      (unnamedCrawl.run events).delivery.fatal.isNone = true ∧
      (unnamedCrawl.handed events).isEmpty = true := by decide +kernel
  obtain ⟨hFault, hFatal, hHanded⟩ := hEnds
  obtain ⟨f, hFault⟩ := Option.isSome_iff_exists.mp hFault
  obtain ⟨e, he, hNeeded⟩ := List.any_eq_true.mp hDue
  rw [Bool.and_eq_true, Option.isNone_iff_eq_none] at hNeeded
  rw [← sightings_unnamedTree] at he
  obtain ⟨op, hOp, _⟩ := h _ _ _ _ _ _ [] unnamedCrawl isUsable_initial (by decide +kernel)
    ⟨by decide, by decide⟩ rfl (fun n hNode => Node.isDatable_of_ok (hMoments n hNode))
    Store.isKeyed_empty (load_empty _) start_unnamedTree _
    (by rw [Walk.IsOver, Walk.phase_of_fault hFault]; trivial) (by simp)
    (Option.isNone_iff_eq_none.mp hFatal) e he hNeeded.1 hNeeded.2
  rw [List.isEmpty_iff.mp hHanded] at hOp
  cases hOp

end Crawl
end Indexer
