import Indexer.Proofs.Crawl.Submission

/-! Which documents a crawl deletes. A record is deleted when its file did not come
up, and that may have two reasons: the file is not there, or a look on the way to
it failed. The crawl does not tell the one from the other. -/
namespace Indexer

/-- The operation deletes the document of a path. -/
def Operation.Deletes (op : Operation) (path : String) : Prop :=
  op.action = .delete ∧ ∃ u, op.update = some u ∧ u.path = path

namespace Crawl

variable {settings : Settings} {readers : Readers} {tree : FileTree} {root : Path} {now : DateTime}
  {store : Store} {c : Crawl} {n : Node}

theorem obscured_of_deleted (hStart : start settings readers tree root now store = .ok c)
    (hTree : tree.IsProper) (hFile : Scan.Eligible settings tree root n) {events : List Event}
    {op : Operation} (hHanded : op ∈ c.handed events) (hDeletes : op.Deletes n.path.text) :
    Scan.Obscured tree root n := by
  obtain ⟨prior, hLoad, hPlan, _⟩ := start_ok hStart
  obtain ⟨hAction, u, hUpdate, hPath⟩ := hDeletes
  rcases handed_of_plan hPlan hHanded with ⟨e, _, checksum, content, raw, doc, _, rfl⟩ | hGone
  · cases hAction
  · obtain ⟨⟨path, hPathGone, rfl⟩, hUnbroken⟩ := hGone
    cases hUpdate
    obtain rfl : path = n.path.text := hPath
    have hNotLive := (Basis.mem_gone_iff.mp hPathGone).2
    refine Classical.not_not.mp fun hClear => hNotLive ?_
    obtain ⟨e, hSighted⟩ := (hFile.sighted_iff hTree).mpr hClear
    refine ⟨e, ?_, by rw [hSighted.path_eq]⟩
    exact (Scan.file_mem_run_iff (Scan.slots_of_unbroken hUnbroken)).mpr ⟨n, hSighted⟩

theorem deleted_of_obscured (hStart : start settings readers tree root now store = .ok c)
    (hTree : tree.IsProper) (hFile : Scan.Eligible settings tree root n)
    (hRecorded : (store.find? root.text n.path.text).isSome = true) {events : List Event}
    (hEnd : (c.run events).walk.plan = []) (hObscured : Scan.Obscured tree root n) :
    ∃ op ∈ c.handed events, op.Deletes n.path.text := by
  obtain ⟨prior, hLoad, hPlan, _⟩ := start_ok hStart
  have hNotLive : ¬∃ e, .file e ∈ Scan.run settings tree root ∧ e.path.text = n.path.text := by
    rintro ⟨e, hLive, hText⟩
    obtain ⟨m, hSighted⟩ := Scan.sighted_of_mem_run hLive
    have hSame : m = n :=
      hTree.eq_of_text hSighted.node hFile.node (by rw [← hSighted.path_eq, hText])
    subst hSame
    exact (hFile.sighted_iff hTree).mp ⟨e, hSighted⟩ hObscured
  have hGone : n.path.text ∈ Basis.gone { settings, readers, tree, root, prior, now } :=
    Basis.mem_gone_iff.mpr ⟨(Store.mem_paths_of_load hLoad).mpr hRecorded, hNotLive⟩
  exact ⟨_, deletion_handed hPlan hEnd hGone, rfl, _, rfl, rfl⟩

/-- A recorded file that is still there, and that the skip rules let through, is
deleted from the index exactly if a look at it or at a directory on the way to it
fails. -/
theorem deleted_iff_obscured (hStart : start settings readers tree root now store = .ok c)
    (hTree : tree.IsProper) (hFile : Scan.Eligible settings tree root n)
    (hRecorded : (store.find? root.text n.path.text).isSome = true) (events : List Event) :
    ((∃ op ∈ c.handed events, op.Deletes n.path.text) → Scan.Obscured tree root n) ∧
    ((c.run events).walk.plan = [] →
      ((∃ op ∈ c.handed events, op.Deletes n.path.text) ↔ Scan.Obscured tree root n)) := by
  have hOnly : (∃ op ∈ c.handed events, op.Deletes n.path.text) → Scan.Obscured tree root n :=
    fun ⟨_, hHanded, hDeletes⟩ => obscured_of_deleted hStart hTree hFile hHanded hDeletes
  exact ⟨hOnly, fun hEnd => ⟨hOnly, deleted_of_obscured hStart hTree hFile hRecorded hEnd⟩⟩

/-- A file in a directory that cannot be listed. -/
def veiledTree : FileTree := ⟨[
  .plainDirectory ⟨1, ["r"]⟩,
  { Node.plainDirectory ⟨1, ["r", "sub"]⟩ with listFault := some (.os .permission "denied") },
  { Node.plainDirectory ⟨1, ["r", "sub", "a.txt"]⟩ with kind := .file }]⟩

/-- The file, which is regular and readable itself. -/
def veiledFile : Node :=
  { Node.plainDirectory ⟨1, ["r", "sub", "a.txt"]⟩ with kind := .file }

/-- The crawl of the tree, in which the file is recorded from before. -/
def veiledCrawl : Except Fault Crawl :=
  start (.initial ⟨0, []⟩) ⟨fun _ => .error .noHandler, fun _ => .error .noHandler⟩ veiledTree
    ⟨1, ["r"]⟩ ⟨⟨0⟩, none⟩ ⟨[⟨"/r", "/r/sub/a.txt", none, 0.0, 0.0⟩]⟩

theorem eligible_veiledFile :
    Scan.Eligible (.initial ⟨0, []⟩) veiledTree ⟨1, ["r"]⟩ veiledFile where
  node := by simp [veiledTree, veiledFile]
  parts := by decide
  passable := by
    have hRoot : veiledTree.isDirectory ⟨1, ["r"]⟩ = .ok true := rfl
    refine .sub { Node.plainDirectory ⟨1, ["r", "sub"]⟩ with
      listFault := some (.os .permission "denied") } ?_ ?_ rfl ?_ (.root hRoot)
    · simp [veiledTree]
    · decide
    · decide +kernel
  kind := rfl
  name := by decide +kernel

/-- A directory that cannot be listed takes its files from the index: not only
what is gone is deleted. -/
theorem unlisted_directory_loses_its_files :
    ¬∀ (settings : Settings) (readers : Readers) (tree : FileTree) (root : Path) (now : DateTime)
      (store : Store) (c : Crawl) (n : Node),
      start settings readers tree root now store = .ok c → tree.IsProper →
      Scan.Eligible settings tree root n →
      (store.find? root.text n.path.text).isSome = true →
      ∀ events, ∀ op ∈ c.handed events, ¬op.Deletes n.path.text := by
  intro h
  have hRecorded : ((Store.mk [⟨"/r", "/r/sub/a.txt", none, 0.0, 0.0⟩]).find? "/r"
      veiledFile.path.text).isSome = true := by decide +kernel
  have hHanded : (veiledCrawl.toOption.map fun c => c.handed (List.replicate 2 .advance)) =
      some [⟨.delete, documentId "/r/sub/a.txt",
        some ⟨"/r", "/r/sub/a.txt", none, none, true⟩, 0⟩] := by decide +kernel
  cases hStart : veiledCrawl with
  | error f => simp [hStart, Except.toOption] at hHanded
  | ok c =>
      simp only [hStart, Except.toOption, Option.map_some, Option.some.injEq] at hHanded
      refine h _ _ _ _ _ _ c veiledFile hStart (by decide +kernel) eligible_veiledFile hRecorded
        (List.replicate 2 .advance) _ (hHanded ▸ List.mem_singleton_self _) ⟨rfl, _, rfl, ?_⟩
      decide +kernel

theorem veiledFile_deleted :
    ∃ c, veiledCrawl = .ok c ∧
      ∃ op ∈ c.handed (List.replicate 3 .advance), op.Deletes veiledFile.path.text := by
  have hRecorded : ((Store.mk [⟨"/r", "/r/sub/a.txt", none, 0.0, 0.0⟩]).find? "/r"
      veiledFile.path.text).isSome = true := by decide +kernel
  have hEnd : (veiledCrawl.toOption.map fun c =>
      (c.run (List.replicate 3 .advance)).walk.plan.length) = some 0 := by decide +kernel
  have hObscured : Scan.Obscured veiledTree ⟨1, ["r"]⟩ veiledFile := by
    refine .inl (.listing _ ?_)
    rintro ⟨entries, hList⟩
    have hNone : (veiledTree.list veiledFile.path.parent).toOption.isNone = true := by decide
    rw [hList] at hNone
    cases hNone
  cases hStart : veiledCrawl with
  | error f => simp [hStart, Except.toOption] at hEnd
  | ok c =>
      simp only [hStart, Except.toOption, Option.map_some, Option.some.injEq,
        List.length_eq_zero_iff] at hEnd
      refine ⟨c, rfl, ?_⟩
      exact ((deleted_iff_obscured hStart (by decide +kernel) eligible_veiledFile hRecorded _).2
        hEnd).mpr hObscured

end Crawl
end Indexer
