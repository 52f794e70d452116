import Indexer.Proofs.Crawl.Mirror
import Indexer.Proofs.Crawl.Submission

/-! Histories of crawls. Each crawl of a history meets a tree of its own and takes
a course of its own, and it may break off anywhere. Index and crawl state are alike
after each crawl, because all that a crawl hands over says the same to both. -/
namespace Indexer

/-- A crawl of a root: the tree that it meets and the course that it takes. -/
structure Visit where
  settings : Settings
  readers : Readers
  tree : FileTree
  root : Path
  now : DateTime
  events : List Crawl.Event

/-- What a crawl needs so that times and paths come back as they were: the files
that come up have paths among those involved and times that the crawl state can
keep, and the clock is read where there is something to record. -/
structure Visit.Fits (roots paths : Set Path) (v : Visit) : Prop where
  root : v.root ∈ roots
  files : ∀ e, .file e ∈ Scan.run v.settings v.tree v.root → e.path ∈ paths ∧ e.mtime.Survives
  timed : ∀ e ∈ v.events, e.IsTimed

namespace Crawl

variable {w : World} {c : Crawl} {roots paths : Set Path} {v : Visit}

/-- What a crawl hands over says the same to the index and to the crawl state. -/
theorem coherent_of_handed
    (hStart : start v.settings v.readers v.tree v.root v.now w.store = .ok c)
    (hMirrored : w.IsMirrored roots paths) (hFits : v.Fits roots paths) {op : Operation}
    (hHanded : op ∈ c.handed v.events) : op.IsCoherent v.root paths := by
  obtain ⟨prior, hLoad, hPlan, _⟩ := start_ok hStart
  rcases handed_of_plan hPlan hHanded with ⟨e, hLive, hIndexes⟩ | ⟨⟨path, hGone, rfl⟩, _⟩
  · obtain ⟨checksum, content, raw, doc, hDoc, rfl⟩ := hIndexes
    obtain ⟨hId, rfl, hModified⟩ := Document.ofFile_ok hDoc
    obtain ⟨hPath, hSurvives⟩ := hFits.files e hLive
    rw [← hModified] at hSurvives
    refine .index e.path doc hPath (Scan.isUnder_of_mem_run hLive) rfl hId ?_ hSurvives
    rw [hModified]
    rfl
  · have hRecorded := (Store.mem_paths_of_load hLoad).mp (Basis.mem_gone_iff.mp hGone).1
    obtain ⟨row, hRow⟩ := Option.isSome_iff_exists.mp hRecorded
    obtain ⟨p, hPath, rfl, hUnder, _⟩ := hMirrored.indexed v.root hFits.root path row hRow
    exact .delete p hPath hUnder rfl rfl rfl

/-- Whatever is acknowledged in a crawl is coherent, and the crawl state is what
the acknowledgements made of it. -/
theorem run_coherent
    (hStart : start v.settings v.readers v.tree v.root v.now w.store = .ok c)
    (hMirrored : w.IsMirrored roots paths) (hFits : v.Fits roots paths) :
    (∀ r ∈ c.delivery.collect Delivery.receipts (c.course v.events),
      r.op.IsCoherent v.root paths) ∧
    (c.delivery.collect Delivery.receipts (c.course v.events)).foldlM Store.record w.store =
      .ok (c.run v.events).delivery.coordinator.store := by
  obtain ⟨hOrderly, hNothing, hStore⟩ := started hStart
  have hAdded : ∀ op ∈ c.delivery.collect Delivery.accepted (c.course v.events),
      op.IsCoherent v.root paths :=
    fun op hOp => coherent_of_handed hStart hMirrored hFits (collect_accepted_subset _ _ hOp)
  have hCoherent : ∀ r ∈ c.delivery.collect Delivery.receipts (c.course v.events),
      r.op.IsCoherent v.root paths :=
    Delivery.run_spreads Operation.IsCoherent.of_content hOrderly _ (by simp [hNothing]) hAdded
  refine ⟨hCoherent, ?_⟩
  rw [run_delivery, ← hStore]
  refine Delivery.run_store hOrderly _ fun r hr => ⟨?_, (hCoherent r hr).writable⟩
  exact Delivery.now_of_run (timed_of_course hFits.timed) hr

end Crawl

namespace World

/-- Index and crawl state as a crawl leaves them, or as they are where its events
end. The index does what it acknowledges and nothing else. -/
def visit (w : World) (v : Visit) : World :=
  match Crawl.start v.settings v.readers v.tree v.root v.now w.store with
  | .error _ => w
  | .ok c => {
      store := (c.run v.events).delivery.coordinator.store
      index := (c.delivery.collect Delivery.acknowledged (c.course v.events)).foldl
        Operation.applyTo w.index }

/-- Index and crawl state after a history of crawls. -/
def after (visits : List Visit) : World := visits.foldl visit empty

variable {roots paths : Set Path}

/-- A crawl keeps index and crawl state alike, and it leaves alone what is recorded
about other roots. -/
theorem IsMirrored.visit {w : World} (h : w.IsMirrored roots paths)
    (hPaths : Distinguished roots paths) {v : Visit} (hFits : v.Fits roots paths) :
    (w.visit v).IsMirrored roots paths ∧
    ∀ other, other ≠ v.root.text → ∀ path,
      (w.visit v).store.find? other path = w.store.find? other path := by
  unfold World.visit
  cases hStart : Crawl.start v.settings v.readers v.tree v.root v.now w.store with
  | error f => exact ⟨h, fun _ _ _ => rfl⟩
  | ok c =>
      obtain ⟨hCoherent, hStore⟩ := Crawl.run_coherent hStart h hFits
      obtain ⟨hMirrored, hOthers⟩ := h.records hPaths hFits.root hCoherent hStore
      rw [← Delivery.collect_acknowledged] at hMirrored
      exact ⟨hMirrored, hOthers⟩

theorem IsMirrored.visits {w : World} (h : w.IsMirrored roots paths)
    (hPaths : Distinguished roots paths) {visits : List Visit}
    (hVisits : ∀ v ∈ visits, v.Fits roots paths) :
    (visits.foldl World.visit w).IsMirrored roots paths := by
  induction visits generalizing w with
  | nil => exact h
  | cons v visits ih =>
      have hFirst := (h.visit hPaths (hVisits v List.mem_cons_self)).1
      exact ih hFirst fun later hLater => hVisits later (List.mem_cons_of_mem v hLater)

/-- The index has a document for a path exactly if the path is recorded for one of
the roots, whatever crawls there were and wherever the last of them stands; the
document and the entry tell the same about the file, there are no other documents,
and a further crawl changes no entry of another root. -/
theorem state_mirrors_index (hPaths : Distinguished roots paths) (visits : List Visit)
    (hVisits : ∀ v ∈ visits, v.Fits roots paths) :
    (∀ p ∈ paths, ((after visits).index (documentId p.text)).isSome = true ↔
      ∃ root ∈ roots, ((after visits).store.find? root.text p.text).isSome = true) ∧
    (∀ root ∈ roots, ∀ path row, (after visits).store.find? root.text path = some row →
      ∃ doc, (after visits).index (documentId path) = some doc ∧ row.Agrees doc) ∧
    (∀ id doc, (after visits).index id = some doc → ∃ p ∈ paths, id = documentId p.text) ∧
    ∀ v : Visit, v.Fits roots paths → ∀ root ∈ roots, root ≠ v.root → ∀ path,
      (after (visits ++ [v])).store.find? root.text path =
        (after visits).store.find? root.text path := by
  have hMirrored : (after visits).IsMirrored roots paths :=
    (isMirrored_empty roots paths).visits hPaths hVisits
  refine ⟨fun p hp => ⟨fun hIndexed => ?_, ?_⟩, ?_, ?_, ?_⟩
  · obtain ⟨doc, hDoc⟩ := Option.isSome_iff_exists.mp hIndexed
    obtain ⟨root, hRoot, q, hq, hSame, hRecorded⟩ := hMirrored.recorded _ doc hDoc
    obtain rfl : p = q := hPaths.ids hp hq hSame
    exact ⟨root, hRoot, hRecorded⟩
  · rintro ⟨root, hRoot, hRecorded⟩
    obtain ⟨row, hRow⟩ := Option.isSome_iff_exists.mp hRecorded
    obtain ⟨_, _, _, _, doc, hDoc, _⟩ := hMirrored.indexed root hRoot p.text row hRow
    rw [hDoc]
    rfl
  · intro root hRoot path row hRow
    obtain ⟨_, _, _, _, hDoc⟩ := hMirrored.indexed root hRoot path row hRow
    exact hDoc
  · intro id doc hDoc
    obtain ⟨_, _, p, hp, hId, _⟩ := hMirrored.recorded id doc hDoc
    exact ⟨p, hp, hId⟩
  · intro v hFits root hRoot hOther path
    rw [after, List.foldl_append]
    refine (hMirrored.visit hPaths hFits).2 root.text (fun hText => hOther ?_) path
    exact hPaths.eq_of_text (hPaths.included hRoot) (hPaths.included hFits.root) hText

/-- The paths of a root with one file below it. -/
def firstPaths : List Path := [⟨1, ["r"]⟩, ⟨1, ["r", "a.txt"]⟩]

/-- A crawl that comes upon the file, which is acknowledged at once. -/
def firstVisit : Visit where
  settings := .initial ⟨0, []⟩
  readers := ⟨fun _ => .error .noHandler, fun _ => .error .noHandler⟩
  tree := ⟨[
    .plainDirectory ⟨1, ["r"]⟩,
    { Node.plainDirectory ⟨1, ["r", "a.txt"]⟩ with kind := .file, mtime := .int 1700000000 }]⟩
  root := ⟨1, ["r"]⟩
  now := ⟨⟨0⟩, none⟩
  events := [.advance, .advance, .arrive, .advance, .advance, .delivery .take,
    .delivery (.answer ⟨⟨0⟩, none⟩
      (.ok (.obj [("items", .arr [.obj [("index", .obj [("status", .number (.int 201))])]])])))]

theorem distinguished_firstPaths :
    Distinguished {⟨1, ["r"]⟩} {p | p ∈ firstPaths} where
  apart := by
    rintro _ rfl _ rfl _
    rfl
  included := by
    rintro _ rfl
    exact List.mem_cons_self
  ids := by
    have hIds : ∀ p ∈ firstPaths, ∀ q ∈ firstPaths, documentId p.text = documentId q.text → p = q := by
      decide +kernel
    exact fun p hp q hq hSame => hIds p hp q hq hSame

theorem fits_firstVisit : firstVisit.Fits {⟨1, ["r"]⟩} {p | p ∈ firstPaths} where
  root := rfl
  files := by
    intro e hLive
    obtain ⟨n, hSighted⟩ := Scan.sighted_of_mem_run hLive
    obtain ⟨_, hKind, _, hLook⟩ := Scan.sightingOf_eq_file_iff.mp hSighted.seen
    obtain ⟨hPath, _, hModified⟩ := Scan.lookAt_file hLook
    rcases List.mem_pair.mp hSighted.node with rfl | rfl
    · cases hKind
    · have hTime : e.mtime = ⟨1700000000000000⟩ := (Except.ok.inj hModified).symm
      refine ⟨by rw [hPath]; decide, ?_⟩
      rw [hTime]
      exact ⟨1700000000.0, rfl, by decide +kernel⟩
  timed := by decide

theorem firstVisit_is_mirrored :
    ∃ row, (after [firstVisit]).store.find? "/r" "/r/a.txt" = some row ∧
      ∃ doc, (after [firstVisit]).index (documentId "/r/a.txt") = some doc ∧ row.Agrees doc := by
  have hRecorded : ((after [firstVisit]).store.find? "/r" "/r/a.txt").isSome = true := by
    decide +kernel
  obtain ⟨row, hRow⟩ := Option.isSome_iff_exists.mp hRecorded
  obtain ⟨_, hEntries, _⟩ := state_mirrors_index distinguished_firstPaths [firstVisit]
    (by simpa using fits_firstVisit)
  exact ⟨row, hRow, hEntries ⟨1, ["r"]⟩ rfl "/r/a.txt" row hRow⟩

end World
end Indexer
