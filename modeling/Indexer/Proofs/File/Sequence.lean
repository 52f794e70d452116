import Indexer.Proofs.File.Mishap
import Mathlib.Data.List.Perm.Basic

/-! The sequence in which a scan brings up files. The files that come up are told
by what lies on the way from the root to them; each comes up once, the files of a
directory by name and ahead of all that its subdirectories hold, and the order in
which the tree hands out its nodes leaves no trace. -/
namespace Indexer

/-- What is sorted by a text comes in the order of the texts. -/
theorem pairwise_mergeSort_text {α : Type} (text : α → String) (l : List α) :
    (l.mergeSort fun a b => text a ≤ text b).Pairwise fun a b => text a ≤ text b := by
  have hSorted : (l.mergeSort fun a b => text a ≤ text b).Pairwise
      fun a b => decide (text a ≤ text b) = true := by
    refine List.pairwise_mergeSort (fun a b c hab hbc => ?_) (fun a b => ?_) l
    · exact decide_eq_true (String.le_trans (of_decide_eq_true hab) (of_decide_eq_true hbc))
    · simpa using String.le_total (text a) (text b)
  exact hSorted.imp of_decide_eq_true

/-- The names on the way from a root down to a path. -/
def Path.namesBelow (root p : Path) : List String := p.parts.drop root.parts.length

theorem Path.child_name {p : Path} (h : p.parts ≠ []) : p.parent.child p.name = p := by
  have hParts := List.dropLast_append_getLast h
  rw [child, parent, name, List.getLast?_eq_some_getLast h, Option.getD_some, hParts]

theorem Path.isUnder_refl (p : Path) : p.isUnder p = true :=
  isUnder_iff.mpr ⟨rfl, List.prefix_rfl⟩

theorem Path.eq_of_isUnder {p a : Path} (h : p.isUnder a = true) (hBack : a.isUnder p = true) :
    p = a := by
  rw [isUnder_iff] at h hBack
  have hParts : p.parts = a.parts :=
    hBack.2.eq_of_length (Nat.le_antisymm hBack.2.length_le h.2.length_le)
  cases p
  cases a
  simp_all

/-- What lies below a directory, other than the directory itself, stands in something that does. -/
theorem Path.isUnder_parent {p a : Path} (h : p.isUnder a = true) (hBelow : p ≠ a) :
    p.parts ≠ [] ∧ p.parent.isUnder a = true := by
  obtain ⟨hSlashes, hPrefix⟩ := isUnder_iff.mp h
  have hParts : p.parts ≠ [] := by
    intro hNone
    refine hBelow (eq_of_isUnder h (isUnder_iff.mpr ⟨hSlashes.symm, ?_⟩))
    rw [hNone]
    exact List.nil_prefix
  refine ⟨hParts, isUnder_iff.mpr ⟨hSlashes, ?_⟩⟩
  rw [← List.dropLast_append_getLast hParts, List.prefix_concat_iff] at hPrefix
  rcases hPrefix with hAll | hAbove
  · rw [List.dropLast_append_getLast hParts] at hAll
    exact absurd (eq_of_isUnder h (isUnder_iff.mpr ⟨hSlashes.symm, hAll ▸ List.prefix_rfl⟩)) hBelow
  · exact hAbove

namespace FileTree

variable {t : FileTree}

theorem child_of_mem_entries {dir : Path} {n : Node} (h : n ∈ t.entries dir) :
    n.path = dir.child n.name := by
  obtain ⟨_, hParts, hParent⟩ := mem_entries.mp h
  rw [← hParent, Node.name, Path.child_name hParts]

/-- The entries of a directory come by name, and no two have the same name. -/
theorem IsProper.pairwise_entries (h : t.IsProper) (dir : Path) :
    (t.entries dir).Pairwise fun n m => n.name < m.name := by
  have hSorted : (t.entries dir).Pairwise fun n m => n.name ≤ m.name := pairwise_mergeSort_text _ _
  have hApart : (t.entries dir).Pairwise fun n m => n.path.text ≠ m.path.text := by
    have hNodes : t.nodes.Pairwise fun n m => n.path.text ≠ m.path.text := List.pairwise_map.mp h
    refine List.Perm.pairwise (List.mergeSort_perm _ _).symm (hNodes.sublist List.filter_sublist) ?_
    exact fun hne => hne.symm
  refine (hSorted.and hApart).imp_of_mem fun {n m} hn hm ⟨hLe, hText⟩ => ?_
  refine String.not_le.mp fun hBack => hText ?_
  rw [child_of_mem_entries hn, child_of_mem_entries hm, String.le_antisymm hLe hBack]

theorem IsProper.find?_eq_some_iff (h : t.IsProper) {p : Path} {n : Node} :
    t.find? p = some n ↔ n ∈ t.nodes ∧ n.path = p := by
  constructor
  · intro hFind
    exact ⟨List.mem_of_find?_eq_some hFind, by simpa using List.find?_some hFind⟩
  · rintro ⟨hNode, rfl⟩
    cases hFind : t.find? n.path with
    | none => simpa using List.find?_eq_none.mp hFind n hNode
    | some m =>
        have hPath : m.path = n.path := by simpa using List.find?_some hFind
        rw [h.eq_of_text (List.mem_of_find?_eq_some hFind) hNode (congrArg Path.text hPath)]

/-! ### The order of the nodes -/

variable {other : FileTree}

theorem IsProper.of_perm (h : t.IsProper) (hPerm : other.nodes.Perm t.nodes) : other.IsProper :=
  (hPerm.map _).nodup_iff.mpr h

theorem find?_of_perm (h : t.IsProper) (hPerm : other.nodes.Perm t.nodes) (p : Path) :
    other.find? p = t.find? p := by
  ext n
  rw [(h.of_perm hPerm).find?_eq_some_iff, h.find?_eq_some_iff, hPerm.mem_iff]

theorem entries_of_perm (h : t.IsProper) (hPerm : other.nodes.Perm t.nodes) (dir : Path) :
    other.entries dir = t.entries dir := by
  have hEntries : (other.entries dir).Perm (t.entries dir) :=
    ((List.mergeSort_perm _ _).trans (hPerm.filter _)).trans (List.mergeSort_perm _ _).symm
  refine hEntries.eq_of_pairwise ?_ ((h.of_perm hPerm).pairwise_entries dir) (h.pairwise_entries dir)
  intro n m _ _ hBefore hAfter
  exact absurd (String.lt_trans hBefore hAfter) (String.lt_irrefl _)

theorem list_of_perm (h : t.IsProper) (hPerm : other.nodes.Perm t.nodes) (dir : Path) :
    other.list dir = t.list dir := by
  simp only [list, find?_of_perm h hPerm, entries_of_perm h hPerm]

theorem depth_of_perm (hPerm : other.nodes.Perm t.nodes) : other.depth = t.depth :=
  (hPerm.map _).foldl_eq 0

end FileTree

namespace Scan

variable {s : Settings} {t : FileTree} {root : Path}

/-- A scan does not depend on the order in which the tree hands out its nodes. -/
theorem run_of_perm {other : FileTree} (h : t.IsProper) (hPerm : other.nodes.Perm t.nodes) :
    run s other root = run s t root := by
  have hDirectory (depth : Nat) (dir : Path) :
      directory s other root depth dir = directory s t root depth dir := by
    induction depth generalizing dir with
    | zero => rfl
    | succ depth ih => simp only [directory, FileTree.list_of_perm h hPerm, ih]
  have hIsDirectory : other.isDirectory root = t.isDirectory root := by
    rw [FileTree.isDirectory, FileTree.find?_of_perm h hPerm, FileTree.isDirectory]
  simp only [run, hIsDirectory, hDirectory, FileTree.depth_of_perm hPerm]

/-! ### The order of the files -/

/-- The order in which what lies below a directory comes up, told by the names on the way: the
files of the directory by name, then what the subdirectories hold, again by name. -/
inductive Precedes : List String → List String → Prop where
  | file {a b : String} (h : a < b) : Precedes [a] [b]
  | descent (a b : String) {rest : List String} (hRest : rest ≠ []) : Precedes [a] (b :: rest)
  | subdirectory {a b : String} {rest later : List String} (h : a < b) (hRest : rest ≠ [])
      (hLater : later ≠ []) : Precedes (a :: rest) (b :: later)
  | within (a : String) {rest later : List String} (h : Precedes rest later) :
      Precedes (a :: rest) (a :: later)

theorem Precedes.ne {names later : List String} (h : Precedes names later) : names ≠ later := by
  induction h with
  | file h => exact fun hSame => String.lt_irrefl _ ((List.cons.inj hSame).1 ▸ h)
  | descent a b hRest => exact fun hSame => hRest (List.cons.inj hSame).2.symm
  | subdirectory h hRest hLater => exact fun hSame => String.lt_irrefl _ ((List.cons.inj hSame).1 ▸ h)
  | within a h ih => exact fun hSame => ih (List.cons.inj hSame).2

/-- What comes up in a directory lies below it. -/
theorem below_of_mem_directory {depth : Nat} {dir : Path} {e : FileEntry}
    (h : .file e ∈ directory s t root depth dir) :
    ∃ names, names ≠ [] ∧ e.path = ⟨dir.slashes, dir.parts ++ names⟩ := by
  induction depth generalizing dir with
  | zero => cases h
  | succ depth ih =>
      rw [directory] at h
      split at h
      · exact absurd (List.mem_singleton.mp h).symm not_file_of_passOver
      · next entries hList =>
          rw [FileTree.entries_of_list hList] at h
          rcases List.mem_append.mp h with hFile | hBelow
          · obtain ⟨n, hn, hSeen⟩ := List.mem_filterMap.mp hFile
            have hPath : e.path = n.path := (lookAt_file (sightingOf_eq_file_iff.mp hSeen).2.2.2).1
            exact ⟨[n.name], by simp, hPath.trans (FileTree.child_of_mem_entries hn)⟩
          · obtain ⟨n, hn, hIn⟩ := List.mem_flatMap.mp hBelow
            obtain ⟨rest, hRest, hPath⟩ := ih hIn
            rw [FileTree.child_of_mem_entries (List.mem_filter.mp hn).1] at hPath
            exact ⟨n.name :: rest, by simp, by simpa [Path.child] using hPath⟩

theorem namesBelow_of_entry {dir : Path} {n : Node} {e : FileEntry} (hn : n ∈ t.entries dir)
    (hSeen : (sightingOf s root n).bind Sighting.file? = some e) :
    dir.namesBelow e.path = [n.name] := by
  obtain ⟨x, hLook, hFile⟩ := Option.bind_eq_some_iff.mp hSeen
  obtain rfl := file?_eq_some_iff.mp hFile
  rw [(lookAt_file (sightingOf_eq_file_iff.mp hLook).2.2.2).1, FileTree.child_of_mem_entries hn]
  simp [Path.namesBelow, Path.child]

theorem namesBelow_of_subdirectory {depth : Nat} {dir : Path} {n : Node} {e : FileEntry}
    (hn : n ∈ t.entries dir)
    (hIn : e ∈ (directory s t root depth n.path).filterMap Sighting.file?) :
    dir.namesBelow e.path = n.name :: n.path.namesBelow e.path ∧ n.path.namesBelow e.path ≠ [] := by
  obtain ⟨names, hNames, hPath⟩ := below_of_mem_directory (mem_files.mp hIn)
  rw [hPath, FileTree.child_of_mem_entries hn]
  simpa [Path.namesBelow, Path.child] using hNames

/-- The files of a directory come up in order. The names are told from the directory, so that what
holds of a subdirectory is carried up one name at a time. -/
theorem pairwise_directory (hProper : t.IsProper) (depth : Nat) (dir : Path) :
    ((directory s t root depth dir).filterMap Sighting.file?).Pairwise fun e f =>
      Precedes (dir.namesBelow e.path) (dir.namesBelow f.path) := by
  induction depth generalizing dir with
  | zero => exact .nil
  | succ depth ih =>
      rw [directory]
      split
      · next f hList =>
          refine List.pairwise_of_forall_mem_list fun e hFile => ?_
          exact absurd (List.mem_singleton.mp (mem_files.mp hFile)).symm not_file_of_passOver
      · next entries hList =>
          rw [FileTree.entries_of_list hList, List.filterMap_append, List.filterMap_filterMap,
            List.filterMap_flatMap, List.pairwise_append, List.pairwise_filterMap,
            List.pairwise_flatMap]
          have hEntries := hProper.pairwise_entries dir
          have hSub {n : Node} (hn : n ∈ (t.entries dir).filter (isSubdirectory s)) :
              n ∈ t.entries dir := (List.mem_filter.mp hn).1
          refine ⟨?_, ⟨?_, ?_⟩, ?_⟩
          · refine hEntries.imp_of_mem fun {n m} hn hm hName e he f hf => ?_
            rw [namesBelow_of_entry hn he, namesBelow_of_entry hm hf]
            exact .file hName
          · intro n hn
            refine (ih n.path).imp_of_mem fun {e f} he hf hBefore => ?_
            rw [(namesBelow_of_subdirectory (hSub hn) he).1, (namesBelow_of_subdirectory (hSub hn) hf).1]
            exact .within n.name hBefore
          · refine (hEntries.sublist List.filter_sublist).imp_of_mem fun {n m} hn hm hName => ?_
            intro e he f hf
            obtain ⟨hFirst, hRest⟩ := namesBelow_of_subdirectory (hSub hn) he
            obtain ⟨hSecond, hLater⟩ := namesBelow_of_subdirectory (hSub hm) hf
            rw [hFirst, hSecond]
            exact .subdirectory hName hRest hLater
          · intro e he f hf
            obtain ⟨n, hn, hSeen⟩ := List.mem_filterMap.mp he
            obtain ⟨m, hm, hIn⟩ := List.mem_flatMap.mp hf
            obtain ⟨hNames, hRest⟩ := namesBelow_of_subdirectory (hSub hm) hIn
            rw [namesBelow_of_entry hn hSeen, hNames]
            exact .descent n.name m.name hRest

theorem pairwise_run (hProper : t.IsProper) :
    ((run s t root).filterMap Sighting.file?).Pairwise fun e f =>
      Precedes (root.namesBelow e.path) (root.namesBelow f.path) := by
  rw [run]
  split
  · exact .nil
  · split
    · exact .nil
    · exact pairwise_directory hProper (t.depth + 1) root
    · exact .nil

/-! ### The files that come up -/

/-- A directory that can be entered. -/
def Admits (s : Settings) (n : Node) : Prop :=
  n.kind = .directory ∧ n.kindFault = none ∧ isHidden n.name = false ∧ n.name ∉ s.skipDirs

theorem isSubdirectory_iff {n : Node} : isSubdirectory s n = true ↔ Admits s n := by
  simp [isSubdirectory, Admits, Settings.skipsDirectory]
  tauto

/-- A regular file below the root that a scan is to bring up: every directory from the root down to
the file can be listed, each of them below the root can be told to be a directory and is not left
out by its name, and nothing keeps the file itself out. -/
structure Wanted (s : Settings) (t : FileTree) (root : Path) (n : Node) : Prop where
  node : n ∈ t.nodes
  parts : n.path.parts ≠ []
  under : n.path.parent.isUnder root = true
  listed : ∀ dir : Path, dir.isUnder root = true → n.path.parent.isUnder dir = true → t.Lists dir
  admitted : ∀ dir : Path, dir.isUnder root = true → n.path.parent.isUnder dir = true → dir ≠ root →
    ∃ m ∈ t.nodes, m.path = dir ∧ Admits s m
  kind : n.kind = .file
  system : n.name ∉ systemFiles
  visible : isHidden n.name = false
  suffix : Text.lower (Path.ofString n.name).suffix ∉ s.skipExtensions
  kindFault : n.kindFault = none
  statFault : n.statFault = none

theorem Entered.listed {dir : Path} (h : Entered s t root dir) (hList : t.Lists dir) {place : Path}
    (hUnder : place.isUnder root = true) (hAbove : dir.isUnder place = true) : t.Lists place := by
  induction h with
  | root hRoot => rwa [Path.eq_of_isUnder hUnder hAbove]
  | sub n hNode hParts hListed hOpen hEntered ih =>
      by_cases hSame : n.path = place
      · rwa [← hSame]
      · exact ih hListed (Path.isUnder_parent hAbove hSame).2

theorem Entered.admitted {dir : Path} (h : Entered s t root dir) {place : Path}
    (hUnder : place.isUnder root = true) (hAbove : dir.isUnder place = true) (hBelow : place ≠ root) :
    ∃ m ∈ t.nodes, m.path = place ∧ Admits s m := by
  induction h with
  | root hRoot => exact absurd (Path.eq_of_isUnder hUnder hAbove) hBelow
  | sub n hNode hParts hListed hOpen hEntered ih =>
      by_cases hSame : n.path = place
      · exact ⟨n, hNode, hSame, isSubdirectory_iff.mp hOpen⟩
      · exact ih (Path.isUnder_parent hAbove hSame).2

/-- Where every directory on the way can be listed and entered, the scan gets to. -/
theorem entered_of_admitted {dir : Path} (hRoot : t.isDirectory root = .ok true)
    (hUnder : dir.isUnder root = true)
    (hListed : ∀ place : Path, place.isUnder root = true → dir.isUnder place = true → t.Lists place)
    (hAdmitted : ∀ place : Path, place.isUnder root = true → dir.isUnder place = true →
      place ≠ root → ∃ m ∈ t.nodes, m.path = place ∧ Admits s m) :
    Entered s t root dir := by
  induction hLength : dir.parts.length generalizing dir with
  | zero =>
      obtain rfl | hBelow := eq_or_ne dir root
      · exact .root hRoot
      · exact absurd (List.length_eq_zero_iff.mp hLength) (Path.isUnder_parent hUnder hBelow).1
  | succ length ih =>
      obtain rfl | hBelow := eq_or_ne dir root
      · exact .root hRoot
      · obtain ⟨m, hNode, rfl, hAdmits⟩ := hAdmitted dir hUnder (Path.isUnder_refl dir) hBelow
        obtain ⟨hParts, hAbove⟩ := Path.isUnder_parent hUnder hBelow
        have hParent := length_parent hParts
        have hWay {place : Path} (hPlace : m.path.parent.isUnder place = true) :
            m.path.isUnder place = true := isUnder_of_parent hPlace
        refine .sub m hNode hParts (hListed _ hAbove (hWay (Path.isUnder_refl _)))
          (isSubdirectory_iff.mpr hAdmits) (ih hAbove ?_ ?_ (by omega))
        · exact fun place hPlace hIn => hListed place hPlace (hWay hIn)
        · exact fun place hPlace hIn => hAdmitted place hPlace (hWay hIn)

theorem statFault_of_lookAt {n : Node} {e : FileEntry} (h : lookAt root n = .file e) :
    n.statFault = none := by
  cases hStat : n.statFault with
  | none => rfl
  | some f =>
      rw [lookAt, hStat] at h
      exact absurd h not_file_of_passOver

/-- Under times that the calendar holds, the files that come up are the wanted ones. -/
theorem sighted_iff_wanted (hFaults : t.FailsAsFiles)
    (hTimes : ∀ n ∈ t.nodes, n.kind = .file → ∃ m, Moment.ofSeconds n.mtime = .ok m)
    (hRoot : t.isDirectory root = .ok true) {n : Node} :
    (∃ e, Sighted s t root n e) ↔ Wanted s t root n := by
  constructor
  · rintro ⟨e, hSighted⟩
    obtain ⟨hKindFault, hKind, hSkip, hLook⟩ := sightingOf_eq_file_iff.mp hSighted.seen
    simp only [Settings.skipsFile, Bool.or_eq_false_iff, List.contains_eq_mem,
      decide_eq_false_iff_not] at hSkip
    exact {
      node := hSighted.node
      parts := hSighted.parts
      under := hSighted.entered.isUnder
      listed := fun _ => hSighted.entered.listed hSighted.listed
      admitted := fun _ => hSighted.entered.admitted
      kind := hKind
      system := hSkip.1.1
      visible := hSkip.1.2
      suffix := hSkip.2
      kindFault := hKindFault
      statFault := statFault_of_lookAt hLook }
  · intro h
    have hEntered := entered_of_admitted hRoot h.under h.listed h.admitted
    have hListed := h.listed _ h.under (Path.isUnder_refl _)
    have hSkip : s.skipsFile n.name = false := by
      simp [Settings.skipsFile, h.system, h.visible, h.suffix]
    rcases lookAt_of_stat root hFaults h.node h.statFault with ⟨e, hLook⟩ | ⟨e, hError, _⟩
    · exact ⟨e, h.node, h.parts, hListed, hEntered,
        sightingOf_eq_file_iff.mpr ⟨h.kindFault, h.kind, hSkip, hLook⟩⟩
    · obtain ⟨m, hTime⟩ := hTimes n h.node h.kind
      exact absurd (hTime.symm.trans hError) nofun

theorem collect_of_unbroken {sightings : List Sighting} (h : ∀ f, .broken f ∉ sightings) :
    ∃ log, collect sightings = .ok (sightings.filterMap Sighting.file?, log) := by
  induction sightings with
  | nil => exact ⟨[], rfl⟩
  | cons x rest ih =>
      obtain ⟨log, hRest⟩ := ih fun f hIn => h f (List.mem_cons_of_mem _ hIn)
      cases x with
      | file e => exact ⟨log, by rw [collect, hRest]; rfl⟩
      | trouble r => exact ⟨r :: log, by rw [collect, hRest]; rfl⟩
      | broken f => exact absurd List.mem_cons_self (h f)

/-- A file shows the names from the root down to it. -/
theorem virtualPath_of_mem_run {e : FileEntry} (h : .file e ∈ run s t root) :
    e.virtualPath = .ok ("/" ++ "/".intercalate (root.namesBelow e.path)) := by
  obtain ⟨n, hSighted⟩ := sighted_of_mem_run h
  have hRoot : e.root = root := (lookAt_file hSighted.look).2.1
  simp only [FileEntry.virtualPath, Path.relativeTo, hRoot, isUnder_of_mem_run h, if_true, bind,
    Except.bind, pure, Except.pure, Path.text, Path.bareText, Path.namesBelow]
  by_cases hNames : e.path.parts.drop root.parts.length = []
  · simp [hNames]
  · simp [hNames]

/-- **The files of a scan.** A scan of a root that is a directory comes to its end. It brings up the
wanted files and nothing else, each of them once and in one order, whichever order the tree hands
out its nodes in, and each file shows the names from the root down to it. -/
theorem scan_brings_up_the_wanted_files (hScanners : s.scannerConcurrency.isAtMost 0 = false)
    (hProper : t.IsProper) (hFaults : t.FailsAsFiles)
    (hTimes : ∀ n ∈ t.nodes, n.kind = .file → ∃ m, Moment.ofSeconds n.mtime = .ok m)
    (hRoot : t.isDirectory root = .ok true) :
    ∃ files log, collect (run s t root) = .ok (files, log) ∧
      (∀ p, p ∈ files.map (·.path) ↔ ∃ n, Wanted s t root n ∧ n.path = p) ∧
      (files.map (·.path)).Nodup ∧
      files.Pairwise (fun e f => Precedes (root.namesBelow e.path) (root.namesBelow f.path)) ∧
      (∀ e ∈ files, e.virtualPath = .ok ("/" ++ "/".intercalate (root.namesBelow e.path))) ∧
      ∀ other : FileTree, other.nodes.Perm t.nodes → run s other root = run s t root := by
  have hSlots : s.scannerConcurrency.isBelow 0 = false :=
    Quantity.isBelow_eq_false_of_isAtMost hScanners
  have hWhole : ∀ f, .broken f ∉ run s t root := by
    intro f hBroken
    have hWhy := (broken_mem_run_iff hFaults hSlots).mp ⟨f, hBroken⟩
    rw [hRoot] at hWhy
    obtain ⟨n, hDated, hTime⟩ := hWhy.resolve_left (by simp)
    obtain ⟨m, hMoment⟩ := hTimes n hDated.met.node hDated.kind
    exact hTime (Node.isDatable_of_ok hMoment)
  obtain ⟨log, hCollect⟩ := collect_of_unbroken hWhole
  have hOrder := @pairwise_run s t root hProper
  refine ⟨_, log, hCollect, fun p => ?_, ?_, hOrder, fun e he => virtualPath_of_mem_run (mem_files.mp he),
    fun other hPerm => run_of_perm hProper hPerm⟩
  · rw [List.mem_map]
    constructor
    · rintro ⟨e, he, rfl⟩
      obtain ⟨n, hSighted⟩ := sighted_of_mem_run (mem_files.mp he)
      exact ⟨n, (sighted_iff_wanted hFaults hTimes hRoot).mp ⟨e, hSighted⟩, hSighted.path_eq.symm⟩
    · rintro ⟨n, hWanted, rfl⟩
      obtain ⟨e, hSighted⟩ := (sighted_iff_wanted hFaults hTimes hRoot).mpr hWanted
      exact ⟨e, mem_files.mpr ((file_mem_run_iff hSlots).mpr ⟨n, hSighted⟩), hSighted.path_eq⟩
  · refine List.pairwise_map.mpr (hOrder.imp fun hBefore hSame => hBefore.ne ?_)
    rw [hSame]

/-- A file in a directory below the root, a file in a hidden directory, and a directory that cannot
be listed. -/
def mixedTree : FileTree := ⟨[
  { Node.plainDirectory ⟨1, ["r", "x"]⟩ with listFault := some (.noSuchFile ⟨1, ["r", "x"]⟩) },
  { Node.plainDirectory ⟨1, ["r", "a", "z.txt"]⟩ with kind := .file },
  .plainDirectory ⟨1, ["r", "a"]⟩,
  .plainDirectory ⟨1, ["r", ".git"]⟩,
  { Node.plainDirectory ⟨1, ["r", ".git", "c.txt"]⟩ with kind := .file },
  .plainDirectory ⟨1, ["r"]⟩]⟩

theorem wanted_in_mixedTree :
    Wanted (.initial ⟨0, []⟩) mixedTree ⟨1, ["r"]⟩
      { Node.plainDirectory ⟨1, ["r", "a", "z.txt"]⟩ with kind := .file } := by
  have hWay {dir : Path} (hUnder : dir.isUnder ⟨1, ["r"]⟩ = true)
      (hAbove : Path.isUnder ⟨1, ["r", "a"]⟩ dir = true) :
      dir = ⟨1, ["r"]⟩ ∨ dir = ⟨1, ["r", "a"]⟩ := by
    obtain rfl | hAway := eq_or_ne (⟨1, ["r", "a"]⟩ : Path) dir
    · exact .inr rfl
    · exact .inl (Path.eq_of_isUnder hUnder (Path.isUnder_parent hAbove hAway).2)
  refine ⟨by simp [mixedTree], by decide, by decide, fun dir hUnder hAbove => ?_,
    fun dir hUnder hAbove hBelow => ?_, rfl, by decide, by decide +kernel, by decide +kernel, rfl, rfl⟩
  · rcases hWay hUnder hAbove with rfl | rfl
    · exact ⟨_, rfl⟩
    · exact ⟨_, rfl⟩
  · rcases hWay hUnder hAbove with rfl | rfl
    · exact absurd rfl hBelow
    · exact ⟨.plainDirectory ⟨1, ["r", "a"]⟩, by simp [mixedTree], rfl, rfl, rfl, by decide +kernel,
        by decide +kernel⟩

theorem scan_of_mixedTree :
    ∃ files log, collect (run (.initial ⟨0, []⟩) mixedTree ⟨1, ["r"]⟩) = .ok (files, log) ∧
      ⟨1, ["r", "a", "z.txt"]⟩ ∈ files.map (·.path) ∧
      ⟨1, ["r", ".git", "c.txt"]⟩ ∉ files.map (·.path) := by
  have hTimes : ∀ n ∈ mixedTree.nodes, Moment.ofSeconds n.mtime = .ok ⟨1700000000000000⟩ := by
    decide +kernel
  obtain ⟨files, log, hCollect, hWanted, _⟩ :=
    @scan_brings_up_the_wanted_files (.initial ⟨0, []⟩) mixedTree ⟨1, ["r"]⟩
      (by decide +kernel) (by decide +kernel) ⟨by decide, by decide⟩
      (fun n hNode _ => ⟨_, hTimes n hNode⟩) rfl
  refine ⟨files, log, hCollect, (hWanted _).mpr ⟨_, wanted_in_mixedTree, rfl⟩, fun hFound => ?_⟩
  obtain ⟨n, hHidden, hPath⟩ := (hWanted _).mp hFound
  have hClosed : ¬∃ m ∈ mixedTree.nodes, m.path = ⟨1, ["r", ".git"]⟩ ∧ isHidden m.name = false := by
    decide +kernel
  obtain ⟨m, hNode, hSame, _, _, hName, _⟩ :=
    hHidden.admitted ⟨1, ["r", ".git"]⟩ (by decide) (by rw [hPath]; decide) (by decide)
  exact hClosed ⟨m, hNode, hSame, hName⟩

end Scan
end Indexer
