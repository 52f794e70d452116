import Indexer.Proofs.File.Sequence
import Indexer.Proofs.Text.Pieces
import Indexer.Proofs.Watch.Roots

/-! What the watcher hears of the files that a scan brings up. Both go by the same lists, but the
scan tests the names of the directories below the root one by one, and the watcher every part of the
path. So a file of the index is out of hearing where a part of the way to the root, or the name of the
file itself, is one that directories are left out by. -/
namespace Indexer

namespace Path

/-- A name is read as the path of one part, and has the same suffix. -/
theorem suffix_ofString {name : String} (h : '/' ∉ name.toList) :
    (ofString name).suffix = suffixOf name := by
  have hUnmarked : ∀ c ∈ name.toList, decide (c = '/') = false := by
    intro c hc
    exact decide_eq_false fun hSlash => h (hSlash ▸ hc)
  rw [suffix, Path.name, ofString]
  dsimp only
  rw [Text.splitAt_of_unmarked hUnmarked]
  -- Nothing and a single dot leave no part, but neither has a suffix.
  by_cases hPart : name.toList = [] ∨ name.toList = ['.']
  · rcases hPart with hNone | hDot
    · rw [suffixOf, suffixOf, hNone]
      rfl
    · rw [suffixOf, suffixOf, hDot]
      rfl
  · obtain ⟨hSome, hNoDot⟩ := not_or.mp hPart
    simp [hSome, hNoDot]

/-- The parts of a path below a root are those of the root and the names on the way down. -/
theorem pieces_of_isUnder {p root : Path} (h : p.isUnder root = true) :
    p.pieces = root.pieces ++ root.namesBelow p := by
  obtain ⟨hSlashes, names, hParts⟩ := isUnder_iff.mp h
  have hBelow : root.namesBelow p = names := by
    rw [namesBelow, ← hParts, List.drop_left]
  rw [hBelow, pieces, pieces, hSlashes, ← hParts]
  split <;> simp

theorem namesBelow_self (root : Path) : root.namesBelow root = [] := List.drop_length

theorem namesBelow_of_parent {p root : Path} (hParts : p.parts ≠ [])
    (h : p.parent.isUnder root = true) :
    root.namesBelow p = root.namesBelow p.parent ++ [p.name] := by
  have hLength := (isUnder_iff.mp h).2.length_le
  have hSplit : p.parts = p.parent.parts ++ [p.name] := congrArg Path.parts (child_name hParts).symm
  rw [namesBelow, hSplit, List.drop_append_of_le_length hLength, namesBelow]

end Path

namespace Scan

variable {s : Settings} {t : FileTree} {root : Path}

/-- No directory that a scan goes into is left out by its name. -/
theorem Entered.names_kept {dir : Path} (h : Entered s t root dir) :
    ∀ part ∈ root.namesBelow dir, part ∉ s.skipDirs := by
  induction h with
  | root hRoot => rw [Path.namesBelow_self]; exact nofun
  | sub n hNode hParts hListed hOpen hAbove ih =>
      rw [Path.namesBelow_of_parent hParts hAbove.isUnder]
      intro part hPart
      rcases List.mem_append.mp hPart with hUp | hHere
      · exact ih part hUp
      · rw [List.mem_singleton.mp hHere]
        exact (isSubdirectory_iff.mp hOpen).2.2.2

/-- The watcher hears of a file that comes up in a scan, but for a part of the way to the root or the
name of the file that directories are left out by. -/
theorem ignoresPath_eq_false_iff (hNames : ∀ n ∈ t.nodes, '/' ∉ n.name.toList) {e : FileEntry}
    (h : .file e ∈ run s t root) :
    s.ignoresPath e.path = false ↔
      (∀ part ∈ root.pieces, part ∉ s.skipDirs) ∧ e.path.name ∉ s.skipDirs := by
  obtain ⟨n, hSighted⟩ := sighted_of_mem_run h
  have hUnder := isUnder_of_mem_run h
  rw [hSighted.path_eq] at hUnder ⊢
  obtain ⟨_, _, hSkip, _⟩ := sightingOf_eq_file_iff.mp hSighted.seen
  have hWay := hSighted.entered.names_kept
  rw [Settings.skipsFile, Path.suffix_ofString (hNames n hSighted.node)] at hSkip
  simp only [Node.name, Bool.or_eq_false_iff, List.contains_eq_mem, decide_eq_false_iff_not] at hSkip
  obtain ⟨⟨hSystem, hVisible⟩, hSuffix⟩ := hSkip
  rw [Settings.ignoresPath, Path.suffix, Path.pieces_of_isUnder hUnder,
    Path.namesBelow_of_parent hSighted.parts hSighted.entered.isUnder]
  simp only [hSystem, hVisible, hSuffix, List.contains_eq_mem, List.any_append, List.any_cons,
    List.any_nil, Bool.or_eq_false_iff, List.any_eq_false, decide_eq_true_eq, decide_eq_false_iff_not,
    not_false_eq_true, true_and, and_true, Bool.or_false]
  constructor
  · rintro ⟨hRoot, _, hName⟩
    exact ⟨hRoot, hName⟩
  · rintro ⟨hRoot, hName⟩
    exact ⟨hRoot, hWay, hName⟩

end Scan

namespace Simulation.Feed

/-- **What is indexed is heard.** The watcher hears of a file that comes up in a scan exactly when no
part of the path of the root, and not the name of the file, is one that directories are left out by.
Where it hears of it, an event about the file brings up the root, whatever else happens before the
next flush. Names hold no slash. -/
theorem indexed_files_are_heard {settings : Settings} {tree : FileTree} {root : Path} {e : FileEntry}
    (hNames : ∀ n ∈ tree.nodes, '/' ∉ n.name.toList) (hFile : .file e ∈ Scan.run settings tree root) :
    (settings.ignoresPath e.path = false ↔
        (∀ part ∈ root.pieces, part ∉ settings.skipDirs) ∧ e.path.name ∉ settings.skipDirs) ∧
      (settings.ignoresPath e.path = false →
        ∀ (seen : FileTree) (roots : List Path) (earlier events : List Event) (kind : EventKind),
          root ∈ roots → (∃ r ∈ roots, seen.contains r = true) →
          ((watching settings seen roots).run earlier).watcher.pending = [] →
          (∀ event ∈ events, event.gathers = true) →
          ((watching settings seen roots).run (earlier ++ events)).posted = [] →
          kind ∈ [.created, .modified, .deleted] → .hear ⟨kind, e.path, false⟩ ∈ events →
          ((watching settings seen roots).run (earlier ++ events)).BringsUp roots root) := by
  refine ⟨Scan.ignoresPath_eq_false_iff hNames hFile, fun hHeard => ?_⟩
  intro seen roots earlier events kind hRoot hThere hIdle hGathers hRecorded hKind hEvent
  obtain ⟨hSteady, hSettings, hWatched⟩ := run_watching settings hThere earlier
  rw [run_append] at hRecorded ⊢
  refine (hSteady.bringsUp_iff_told hWatched hIdle hGathers hRecorded roots root).mpr
    ⟨hRoot, .inr ⟨_, hEvent, ?_⟩⟩
  have hPlace : FileEvent.place ⟨kind, e.path, false⟩ = e.path := by
    cases kind with
    | moved target => simp at hKind
    | created | modified | deleted | touched => rfl
  refine ⟨rfl, ?_, ?_, ?_⟩
  · rintro rfl
    simp at hKind
  · rw [hSettings, hPlace]
    exact hHeard
  · rw [hPlace]
    exact Scan.isUnder_of_mem_run hFile

theorem mixedTree_is_heard :
    ∃ e, .file e ∈ Scan.run (.initial ⟨0, []⟩) Scan.mixedTree ⟨1, ["r"]⟩ ∧
      e.path = ⟨1, ["r", "a", "z.txt"]⟩ ∧
      ((watching (.initial ⟨0, []⟩) Scan.mixedTree [⟨1, ["r"]⟩]).run
        ([] ++ [.hear ⟨.deleted, e.path, false⟩, .record 0.0])).BringsUp [⟨1, ["r"]⟩] ⟨1, ["r"]⟩ := by
  have hTimes : ∀ n ∈ Scan.mixedTree.nodes, Moment.ofSeconds n.mtime = .ok ⟨1700000000000000⟩ := by
    decide +kernel
  obtain ⟨e, hSighted⟩ := (Scan.sighted_iff_wanted ⟨by decide, by decide⟩
    (fun n hNode _ => ⟨_, hTimes n hNode⟩) rfl).mpr Scan.wanted_in_mixedTree
  have hPath : e.path = ⟨1, ["r", "a", "z.txt"]⟩ := hSighted.path_eq
  have hFile := (Scan.file_mem_run_iff (by decide +kernel)).mpr ⟨_, hSighted⟩
  obtain ⟨hIff, hBringsUp⟩ := indexed_files_are_heard (by decide) hFile
  have hHeard := hIff.mpr ⟨by decide +kernel, by rw [hPath]; decide +kernel⟩
  refine ⟨e, hFile, hPath, ?_⟩
  refine hBringsUp hHeard _ _ _ _ _ (.head _) ⟨_, .head _, by decide⟩ rfl (by simp [Event.gathers]) ?_
    (by simp) (.head _)
  rw [hPath]
  decide +kernel

/-- A file below a root that lies in a directory whose name is on the list. -/
def shelteredTree : FileTree := ⟨[
  .plainDirectory ⟨1, ["srv", "venv", "docs"]⟩,
  { Node.plainDirectory ⟨1, ["srv", "venv", "docs", "a.txt"]⟩ with kind := .file }]⟩

/-- The watcher looks at the way to the root too, which the scan takes as it is. -/
theorem indexed_file_out_of_hearing :
    ¬∀ (settings : Settings) (tree : FileTree) (root : Path) (e : FileEntry),
      .file e ∈ Scan.run settings tree root → settings.ignoresPath e.path = false := by
  intro hClaim
  have hIgnored : ((Scan.run (.initial ⟨0, []⟩) shelteredTree ⟨1, ["srv", "venv", "docs"]⟩).filterMap
      Sighting.file?).any fun e => Settings.ignoresPath (.initial ⟨0, []⟩) e.path := by
    decide +kernel
  obtain ⟨e, hFile, hOut⟩ := List.any_eq_true.mp hIgnored
  rw [hClaim _ _ _ e (Scan.mem_files.mp hFile)] at hOut
  cases hOut

end Simulation.Feed
end Indexer
