import Indexer.Proofs.Crawl.Fate
import Indexer.Proofs.Delivery.Step
import Indexer.Proofs.File.Sight
import Indexer.Proofs.Store.Entries

/-! What the plan of a crawl submits. Files that came up are indexed and records
without a file are deleted; there is nothing else in a plan that reaches the
destination. -/
namespace Indexer

theorem FileEntry.documentId_ok {e : FileEntry} {id : String} (h : e.documentId = .ok id) :
    e.pathFault = none ∧ id = Indexer.documentId e.path.text := by
  unfold documentId at h
  split at h
  · cases h
  · next hPath => exact ⟨hPath, (Except.ok.inj h).symm⟩

/-- There is a document only for a path with a UTF-8 form, and this is what it tells. -/
theorem Document.ofFile_eq {s : Settings} {e : FileEntry} {c : Content} {checksum : Option String}
    {raw : Option ByteArray} {now : DateTime} {doc : Document}
    (h : ofFile s e c checksum raw now = .ok doc) :
    ∃ text url virtualPath, cap s.indexedChars c.text = .ok text ∧ e.pathFault = none ∧ doc = {
      file := {
        contentType := some c.mediaType
        lastModified := e.mtime
        indexingDate := now
        size := e.size.toNat
        indexedChars := text.length
        name := e.name
        extension := e.extension
        checksum
        url }
      path := {
        root := documentId e.root.text
        real := e.path.text
        virtualPath
        id := documentId e.path.text }
      content := some text
      metadata := c.metadata
      owner := e.owner
      group := e.group
      attachment := if s.storeSource then raw.map Bytes.base64 else none } := by
  unfold ofFile at h
  cases hText : cap s.indexedChars c.text with
  | error f => simp [hText, bind, Except.bind] at h
  | ok text =>
      cases hUrl : e.path.uri.mapError Fault.path with
      | error f => simp [hText, hUrl, bind, Except.bind] at h
      | ok url =>
          cases hVirtual : e.virtualPath.mapError Fault.path with
          | error f => simp [hText, hUrl, hVirtual, bind, Except.bind] at h
          | ok virtualPath =>
              cases hId : e.documentId with
              | error f => simp [hText, hUrl, hVirtual, hId, bind, Except.bind] at h
              | ok id =>
                  obtain ⟨hPath, rfl⟩ := FileEntry.documentId_ok hId
                  simp only [hText, hUrl, hVirtual, hId, bind, Except.bind, pure, Except.pure,
                    Except.ok.injEq] at h
                  exact ⟨text, url, virtualPath, rfl, hPath, h.symm⟩

theorem Document.ofFile_ok {s : Settings} {e : FileEntry} {c : Content} {checksum : Option String}
    {raw : Option ByteArray} {now : DateTime} {doc : Document}
    (h : ofFile s e c checksum raw now = .ok doc) :
    doc.id = documentId e.path.text ∧ doc.file.checksum = checksum ∧
      doc.file.lastModified = e.mtime := by
  obtain ⟨_, _, _, _, _, rfl⟩ := ofFile_eq h
  exact ⟨rfl, rfl, rfl⟩

namespace Crawl

namespace Basis

/-- The operation indexes a file that came up, with a document made of that file. -/
def Indexes (b : Basis) (op : Operation) (e : FileEntry) : Prop :=
  ∃ checksum content raw doc,
    Document.ofFile b.settings e content checksum (some raw) b.now = .ok doc ∧
      op = b.indexing e checksum doc

theorem indexes_of_submission {b : Basis} {e : FileEntry} {op : Operation}
    (h : op ∈ submitted (b.submission e)) : b.Indexes op e := by
  unfold submission at h
  split at h
  · simp [Step.submits] at h
  · next raw checksum content hTake =>
      split at h
      · simp [Step.submits] at h
      · next doc hDoc =>
          refine ⟨checksum, content, raw, doc, hDoc, ?_⟩
          simpa [Step.submits] using h

/-- A scan that breaks off makes the crawl fail. -/
theorem fail_of_broken {b : Basis} {sightings : List Sighting} {f : Fault}
    (h : .broken f ∈ sightings) (files : List FileEntry) :
    ∃ step ∈ b.windows files sightings, step.isFail = true := by
  induction sightings generalizing files with
  | nil => cases h
  | cons sighting rest ih =>
      cases sighting with
      | file e =>
          have hRest : .broken f ∈ rest := by simpa using h
          simp only [windows]
          split
          · obtain ⟨step, hStep, hFail⟩ := ih hRest []
            exact ⟨step, List.mem_cons_of_mem _ (List.mem_append_right _ hStep), hFail⟩
          · obtain ⟨step, hStep, hFail⟩ := ih hRest (files ++ [e])
            exact ⟨step, List.mem_cons_of_mem _ hStep, hFail⟩
      | trouble r =>
          obtain ⟨step, hStep, hFail⟩ := ih (by simpa using h) files
          simp only [windows]
          exact ⟨step, List.mem_cons_of_mem _ hStep, hFail⟩
      | broken g =>
          simp only [windows]
          exact ⟨_, List.mem_singleton_self _, rfl⟩

theorem mem_live_iff {b : Basis} {path : String} :
    path ∈ b.sightings.filterMap livePath? ↔ ∃ e, .file e ∈ b.sightings ∧ e.path.text = path := by
  rw [List.mem_filterMap]
  constructor
  · rintro ⟨sighting, hSighting, hPath⟩
    cases sighting with
    | file e => exact ⟨e, hSighting, Option.some.inj hPath⟩
    | trouble r => cases hPath
    | broken f => cases hPath
  · rintro ⟨e, he, rfl⟩
    exact ⟨.file e, he, rfl⟩

/-- What is gone is what is recorded and did not come up. -/
theorem mem_gone_iff {b : Basis} {path : String} :
    path ∈ b.gone ↔ path ∈ b.prior.map (·.path) ∧
      ¬∃ e, .file e ∈ b.sightings ∧ e.path.text = path := by
  rw [gone, deletedPaths, List.mem_filter, (List.mergeSort_perm _ _).mem_iff, ← mem_live_iff]
  simp

theorem submitted_deletions (b : Basis) (paths : List String) :
    submitted (paths.map fun path => .submit (b.deletion path)) = paths.map b.deletion := by
  induction paths with
  | nil => rfl
  | cons path rest ih => exact congrArg (b.deletion path :: ·) ih

theorem deletion_mem_plan {b : Basis} {path : String} (h : path ∈ b.gone) :
    b.deletion path ∈ submitted b.plan := by
  rw [plan, submitted_append, submitted_deletions]
  exact List.mem_append_right _ (List.mem_map_of_mem h)

theorem indexes_of_sightings {b : Basis} {op : Operation}
    (h : op ∈ submitted (b.windows [] b.sightings)) : ∃ e, .file e ∈ b.sightings ∧ b.Indexes op e := by
  obtain ⟨e, he, hOp⟩ := part_of_windows h
  rw [submitted_part] at hOp
  split at hOp
  · exact ⟨e, he.resolve_left List.not_mem_nil, indexes_of_submission hOp⟩
  · cases hOp

end Basis

/-- The operations that are handed over in a crawl by a plan: files that came up
are indexed, and records are deleted once the whole scan has come to its end. -/
theorem handed_of_plan {c : Crawl} {b : Basis} (hPlan : c.walk.plan = b.plan) {events : List Event}
    {op : Operation} (h : op ∈ c.handed events) :
    (∃ e, .file e ∈ b.sightings ∧ b.Indexes op e) ∨
    (∃ path ∈ b.gone, op = b.deletion path) ∧ ∀ f, .broken f ∉ b.sightings := by
  obtain ⟨taken, rest, hSplit, hHanded, hSteady, _⟩ := c.run_plan events
  rw [hHanded] at h
  rw [hPlan, Basis.plan] at hSplit
  rcases List.append_eq_append_iff.mp hSplit with ⟨more, hTaken, hRest⟩ | ⟨more, hWindows, hRest⟩
  · rw [hTaken, submitted_append] at h
    rcases List.mem_append.mp h with hFile | hDelete
    · exact .inl (Basis.indexes_of_sightings hFile)
    · refine .inr ⟨?_, fun f hBroken => ?_⟩
      · have hIn : op ∈ submitted (more ++ rest) := by
          rw [submitted_append]
          exact List.mem_append_left _ hDelete
        rw [← hRest, Basis.submitted_deletions] at hIn
        obtain ⟨path, hPath, hOp⟩ := List.mem_map.mp hIn
        exact ⟨path, hPath, hOp.symm⟩
      · obtain ⟨step, hStep, hFail⟩ := Basis.fail_of_broken (b := b) hBroken []
        rw [hSteady step (hTaken ▸ List.mem_append_left _ hStep)] at hFail
        cases hFail
  · refine .inl (Basis.indexes_of_sightings ?_)
    rw [hWindows, submitted_append]
    exact List.mem_append_left _ h

/-- A walker that has come to the end of its plan has handed over every deletion. -/
theorem deletion_handed {c : Crawl} {b : Basis} (hPlan : c.walk.plan = b.plan) {events : List Event}
    (hEnd : (c.run events).walk.plan = []) {path : String} (hGone : path ∈ b.gone) :
    b.deletion path ∈ c.handed events := by
  obtain ⟨taken, rest, hSplit, hHanded, _, hRest⟩ := c.run_plan events
  have hNone : submitted rest = [] := by
    rw [hEnd] at hRest
    rcases hRest with rfl | ⟨f, rfl⟩ <;> rfl
  have hAll : submitted b.plan = submitted taken := by
    rw [← hPlan, hSplit, submitted_append, hNone, List.append_nil]
  rw [hHanded, ← hAll]
  exact Basis.deletion_mem_plan hGone

/-- A crawl starts with the plan for what is recorded about its root, and with a
delivery that was started on the crawl state. -/
theorem start_eq {settings : Settings} {readers : Readers} {tree : FileTree} {root : Path}
    {now : DateTime} {store : Store} {c : Crawl}
    (h : start settings readers tree root now store = .ok c) :
    ∃ prior, store.load root.text = .ok prior ∧ c = {
      walk := .start (Basis.plan { settings, readers, tree, root, prior, now })
      delivery := (Delivery.create settings store).start } := by
  unfold start at h
  split at h
  · cases h
  · cases hLoad : store.load root.text with
    | error e => simp [hLoad, bind, Except.bind] at h
    | ok prior =>
        simp only [hLoad, mapError_ok, bind, Except.bind, pure, Except.pure, Except.ok.injEq] at h
        exact ⟨prior, rfl, h.symm⟩

theorem start_ok {settings : Settings} {readers : Readers} {tree : FileTree} {root : Path}
    {now : DateTime} {store : Store} {c : Crawl}
    (h : start settings readers tree root now store = .ok c) :
    ∃ prior, store.load root.text = .ok prior ∧
      c.walk.plan = Basis.plan { settings, readers, tree, root, prior, now } ∧
      c.delivery = (Delivery.create settings store).start := by
  obtain ⟨prior, hLoad, rfl⟩ := start_eq h
  exact ⟨prior, hLoad, rfl, rfl⟩

/-- The delivery of a crawl that starts has nothing to do yet. -/
theorem started {settings : Settings} {readers : Readers} {tree : FileTree} {root : Path}
    {now : DateTime} {store : Store} {c : Crawl}
    (h : start settings readers tree root now store = .ok c) :
    c.delivery.Orderly ∧ c.delivery.outstanding = [] ∧ c.delivery.coordinator.store = store := by
  obtain ⟨_, _, rfl⟩ := start_eq h
  have hOrderly := Delivery.orderly_create settings store
  exact ⟨hOrderly.move (Delivery.step_move hOrderly .start), rfl, rfl⟩

end Crawl
end Indexer
