import Indexer.File.Scan
import Mathlib.Data.List.Nodup

/-! What a scan comes to see. A file comes up exactly when no look on the way to
it fails and the skip rules let it through; what keeps a file that is there
from coming up is told apart from the skip rules. -/
namespace Indexer

/-- No two nodes of the tree have the same path. -/
def FileTree.IsProper (t : FileTree) : Prop := (t.nodes.map (·.path.text)).Nodup

instance (t : FileTree) : Decidable t.IsProper := inferInstanceAs (Decidable (List.Nodup _))

theorem FileTree.IsProper.eq_of_text {t : FileTree} (h : t.IsProper) {n m : Node}
    (hn : n ∈ t.nodes) (hm : m ∈ t.nodes) (hText : n.path.text = m.path.text) : n = m :=
  List.inj_on_of_nodup_map h hn hm hText

theorem FileTree.mem_entries {t : FileTree} {dir : Path} {n : Node} :
    n ∈ t.entries dir ↔ n ∈ t.nodes ∧ n.path.parts ≠ [] ∧ n.path.parent = dir := by
  rw [entries, (List.mergeSort_perm _ _).mem_iff]
  simp

theorem FileTree.entries_of_list {t : FileTree} {dir : Path} {entries : List Node}
    (h : t.list dir = .ok entries) : entries = t.entries dir := by
  unfold list at h
  split at h
  · cases h
  · split at h
    · cases h
    · exact (Except.ok.inj h).symm

/-- A directory can be listed. -/
def FileTree.Lists (t : FileTree) (dir : Path) : Prop := ∃ entries, t.list dir = .ok entries

theorem FileTree.list_eq {t : FileTree} {dir : Path} (h : t.Lists dir) :
    t.list dir = .ok (t.entries dir) := by
  obtain ⟨entries, hList⟩ := h
  rw [hList, entries_of_list hList]

private theorem le_foldl_max (values : List Nat) (k : Nat) :
    k ≤ values.foldl max k ∧ ∀ v ∈ values, v ≤ values.foldl max k := by
  induction values generalizing k with
  | nil => simp
  | cons w values ih =>
      obtain ⟨hStart, hRest⟩ := ih (max k w)
      refine ⟨Nat.le_trans (Nat.le_max_left k w) hStart, fun v hv => ?_⟩
      rcases List.mem_cons.mp hv with rfl | hv
      · exact Nat.le_trans (Nat.le_max_right k v) hStart
      · exact hRest v hv

theorem FileTree.length_le_depth {t : FileTree} {n : Node} (h : n ∈ t.nodes) :
    n.path.parts.length ≤ t.depth :=
  (le_foldl_max _ 0).2 _ (List.mem_map_of_mem h)

theorem Path.isUnder_iff {p a : Path} :
    p.isUnder a = true ↔ p.slashes = a.slashes ∧ a.parts <+: p.parts := by
  unfold isUnder
  split
  · next hDot => simp [hDot.1, hDot.2]
  · simp

/-- The file that came up. -/
def Sighting.file? : Sighting → Option FileEntry
  | .file e => some e
  | _ => none

namespace Scan

theorem file?_eq_some_iff {x : Sighting} {e : FileEntry} : x.file? = some e ↔ x = .file e := by
  cases x <;> simp [Sighting.file?]

theorem mem_files {e : FileEntry} {sightings : List Sighting} :
    e ∈ sightings.filterMap Sighting.file? ↔ .file e ∈ sightings := by
  simp [List.mem_filterMap, file?_eq_some_iff]

variable {s : Settings} {t : FileTree} {root : Path}

/-- The directories that a scan looks into. -/
inductive Entered (s : Settings) (t : FileTree) (root : Path) : Path → Prop where
  | root (hRoot : t.isDirectory root = .ok true) : Entered s t root root
  | sub (n : Node) (hNode : n ∈ t.nodes) (hParts : n.path.parts ≠ [])
      (hListed : t.Lists n.path.parent) (hOpen : isSubdirectory s n = true)
      (hAbove : Entered s t root n.path.parent) : Entered s t root n.path

/-- A node that a scan comes upon in a directory that it looks into. -/
structure Met (s : Settings) (t : FileTree) (root : Path) (n : Node) : Prop where
  node : n ∈ t.nodes
  parts : n.path.parts ≠ []
  listed : t.Lists n.path.parent
  entered : Entered s t root n.path.parent

/-- A node that comes up in a scan as the given file. -/
structure Sighted (s : Settings) (t : FileTree) (root : Path) (n : Node) (e : FileEntry) : Prop where
  node : n ∈ t.nodes
  parts : n.path.parts ≠ []
  listed : t.Lists n.path.parent
  entered : Entered s t root n.path.parent
  seen : sightingOf s root n = some (.file e)

theorem length_parent {p : Path} (h : p.parts ≠ []) :
    p.parent.parts.length + 1 = p.parts.length := by
  rw [Path.parent, List.length_dropLast]
  have := List.length_pos_iff.mpr h
  omega

theorem Entered.isDirectory {dir : Path} (h : Entered s t root dir) :
    t.isDirectory root = .ok true := by
  induction h with
  | root hRoot => exact hRoot
  | sub n hNode hParts hListed hOpen hAbove ih => exact ih

theorem Entered.length_le {dir : Path} (h : Entered s t root dir) :
    root.parts.length ≤ dir.parts.length := by
  induction h with
  | root hRoot => exact Nat.le_refl _
  | sub n hNode hParts hListed hOpen hAbove ih =>
      have := length_parent hParts
      omega

theorem not_file_of_passOver {f : Fault} {path : Path} {activity : String} {e : FileEntry} :
    passOver f path activity ≠ .file e := by
  unfold passOver
  split <;> simp

/-- Where the sightings of a directory come from. -/
theorem origin_of_mem_directory {depth : Nat} {dir : Path} {x : Sighting}
    (hDir : Entered s t root dir) (h : x ∈ directory s t root depth dir) :
    (∃ place f, t.list place = .error f ∧ x = passOver f place "scan_directory") ∨
      ∃ n, Met s t root n ∧ sightingOf s root n = some x := by
  induction depth generalizing dir with
  | zero => cases h
  | succ depth ih =>
      rw [directory] at h
      split at h
      · next f hList => exact .inl ⟨dir, f, hList, List.mem_singleton.mp h⟩
      · next entries hList =>
          have hListed : t.Lists dir := ⟨entries, hList⟩
          rw [FileTree.entries_of_list hList] at h
          rcases List.mem_append.mp h with hFile | hBelow
          · obtain ⟨n, hn, hSeen⟩ := List.mem_filterMap.mp hFile
            obtain ⟨hNode, hParts, rfl⟩ := FileTree.mem_entries.mp hn
            exact .inr ⟨n, ⟨hNode, hParts, hListed, hDir⟩, hSeen⟩
          · obtain ⟨n, hn, hIn⟩ := List.mem_flatMap.mp hBelow
            obtain ⟨hEntry, hOpen⟩ := List.mem_filter.mp hn
            obtain ⟨hNode, hParts, rfl⟩ := FileTree.mem_entries.mp hEntry
            exact ih (.sub n hNode hParts hListed hOpen hDir) hIn

theorem sighted_of_mem_directory {depth : Nat} {dir : Path} {e : FileEntry}
    (hDir : Entered s t root dir) (h : .file e ∈ directory s t root depth dir) :
    ∃ n, Sighted s t root n e := by
  rcases origin_of_mem_directory hDir h with ⟨place, f, _, hFile⟩ | ⟨n, hMet, hSeen⟩
  · exact absurd hFile.symm not_file_of_passOver
  · exact ⟨n, hMet.node, hMet.parts, hMet.listed, hMet.entered, hSeen⟩

/-- What a scan of a directory sees, a scan of the root sees as well. The depth
that is left in a directory is what the scan of the root started with, less the
levels in between. -/
theorem directory_subset {dir : Path} (h : Entered s t root dir) (depth : Nat)
    (hDepth : dir.parts.length ≤ root.parts.length + depth) :
    directory s t root (root.parts.length + depth - dir.parts.length) dir ⊆
      directory s t root depth root := by
  induction h with
  | root hRoot => rw [Nat.add_sub_cancel_left]; exact List.Subset.refl _
  | sub n hNode hParts hListed hOpen hAbove ih =>
      have hLength := length_parent hParts
      refine List.Subset.trans ?_ (ih (by omega))
      have hSucc : root.parts.length + depth - n.path.parent.parts.length =
          (root.parts.length + depth - n.path.parts.length) + 1 := by omega
      rw [hSucc]
      intro x hx
      rw [directory, FileTree.list_eq hListed]
      refine List.mem_append_right _ (List.mem_flatMap.mpr ⟨n, ?_, hx⟩)
      exact List.mem_filter.mpr ⟨FileTree.mem_entries.mpr ⟨hNode, hParts, rfl⟩, hOpen⟩

/-- What a scan makes of a node that it comes upon is among its sightings. -/
theorem Met.mem_directory {n : Node} (h : Met s t root n) {x : Sighting}
    (hSeen : sightingOf s root n = some x) : x ∈ directory s t root (t.depth + 1) root := by
  have hLength := length_parent h.parts
  have hDepth := FileTree.length_le_depth h.node
  refine directory_subset h.entered (t.depth + 1) (by omega) ?_
  have hSucc : root.parts.length + (t.depth + 1) - n.path.parent.parts.length =
      (root.parts.length + t.depth - n.path.parent.parts.length) + 1 := by omega
  rw [hSucc, directory, FileTree.list_eq h.listed]
  refine List.mem_append_left _ (List.mem_filterMap.mpr ⟨n, ?_, hSeen⟩)
  exact FileTree.mem_entries.mpr ⟨h.node, h.parts, rfl⟩

theorem Sighted.met {n : Node} {e : FileEntry} (h : Sighted s t root n e) : Met s t root n :=
  ⟨h.node, h.parts, h.listed, h.entered⟩

/-- The files that come up in a scan are those that are sighted. -/
theorem file_mem_run_iff {e : FileEntry} (hSlots : s.scannerConcurrency.isBelow 0 = false) :
    .file e ∈ run s t root ↔ ∃ n, Sighted s t root n e := by
  rw [run, if_neg (by simp [hSlots])]
  constructor
  · intro h
    split at h
    · cases List.mem_singleton.mp h
    · next hRoot => exact sighted_of_mem_directory (.root hRoot) h
    · cases List.mem_singleton.mp h
  · rintro ⟨n, hSighted⟩
    rw [hSighted.entered.isDirectory]
    exact hSighted.met.mem_directory hSighted.seen

theorem sightingOf_eq_file_iff {n : Node} {e : FileEntry} :
    sightingOf s root n = some (.file e) ↔
      n.kindFault = none ∧ n.kind = .file ∧ s.skipsFile n.name = false ∧ lookAt root n = .file e := by
  unfold sightingOf
  cases hFault : n.kindFault with
  | some f => simp [not_file_of_passOver]
  | none =>
      cases hKind : n.kind with
      | file => cases hSkip : s.skipsFile n.name <;> simp
      | directory | symlink | other => simp

theorem ofPath_ok {path root : Path} {mtime : Number} {size : Int} {owner group : Option String}
    {e : FileEntry} (h : FileEntry.ofPath path root mtime size owner group = .ok e) :
    (e.path = path ∧ e.root = root ∧ Moment.ofSeconds mtime = .ok e.mtime) ∧ e.name = path.name := by
  unfold FileEntry.ofPath at h
  cases hTime : Moment.ofSeconds mtime with
  | error f => simp [hTime, bind, Except.bind] at h
  | ok m =>
      simp only [hTime, bind, Except.bind, pure, Except.pure, Except.ok.injEq] at h
      subst h
      exact ⟨⟨rfl, rfl, rfl⟩, rfl⟩

theorem ofPath_of_lookAt {n : Node} {e : FileEntry} (h : lookAt root n = .file e) :
    ∃ owner group told, FileEntry.ofPath n.path root n.mtime n.size owner group = .ok told ∧
      e = { told with pathFault := n.pathFault } := by
  unfold lookAt at h
  split at h
  · exact absurd h not_file_of_passOver
  · dsimp only at h
    split at h
    · next entry hEntry =>
        cases h
        cases hOwner : holder n.ownerFault n.owner with
        | error f => simp [hOwner, bind, Except.bind] at hEntry
        | ok owner =>
            cases hGroup : holder n.groupFault n.group with
            | error f => simp [hOwner, hGroup, bind, Except.bind] at hEntry
            | ok group =>
                simp only [hOwner, hGroup, bind, Except.bind] at hEntry
                cases hPath : FileEntry.ofPath n.path root n.mtime n.size owner group with
                | error f => simp [hPath] at hEntry
                | ok found =>
                    simp only [hPath, mapError_ok, Except.ok.injEq] at hEntry
                    exact ⟨owner, group, entry, hEntry ▸ hPath, rfl⟩
    · exact absurd h not_file_of_passOver

/-- A file is seen where it lies, with the modification time it has there. -/
theorem lookAt_file {n : Node} {e : FileEntry} (h : lookAt root n = .file e) :
    e.path = n.path ∧ e.root = root ∧ Moment.ofSeconds n.mtime = .ok e.mtime := by
  obtain ⟨_, _, _, hEntry, rfl⟩ := ofPath_of_lookAt h
  exact (ofPath_ok hEntry).1

theorem lookAt_pathFault {n : Node} {e : FileEntry} (h : lookAt root n = .file e) :
    e.pathFault = n.pathFault := by
  obtain ⟨_, _, _, _, rfl⟩ := ofPath_of_lookAt h
  rfl

theorem slots_of_unbroken (h : ∀ f, .broken f ∉ run s t root) :
    s.scannerConcurrency.isBelow 0 = false := by
  cases hSlots : s.scannerConcurrency.isBelow 0 with
  | false => rfl
  | true =>
      refine absurd ?_ (h .noScanners)
      rw [run, if_pos hSlots]
      exact List.mem_singleton_self _

theorem sighted_of_mem_run {e : FileEntry} (h : .file e ∈ run s t root) :
    ∃ n, Sighted s t root n e := by
  cases hSlots : s.scannerConcurrency.isBelow 0 with
  | false => exact (file_mem_run_iff hSlots).mp h
  | true =>
      rw [run, if_pos hSlots] at h
      cases List.mem_singleton.mp h

theorem Sighted.look {n : Node} {e : FileEntry} (h : Sighted s t root n e) : lookAt root n = .file e :=
  (sightingOf_eq_file_iff.mp h.seen).2.2.2

theorem Sighted.path_eq {n : Node} {e : FileEntry} (h : Sighted s t root n e) : e.path = n.path :=
  (lookAt_file h.look).1

/-- Of the files that come up no two have the same path. -/
theorem eq_of_mem_run (hProper : t.IsProper) {e other : FileEntry} (h : .file e ∈ run s t root)
    (hOther : .file other ∈ run s t root) (hText : e.path.text = other.path.text) : e = other := by
  obtain ⟨n, hSighted⟩ := sighted_of_mem_run h
  obtain ⟨m, hSightedOther⟩ := sighted_of_mem_run hOther
  rw [hSighted.path_eq, hSightedOther.path_eq] at hText
  obtain rfl : n = m := hProper.eq_of_text hSighted.node hSightedOther.node hText
  have hSeen := hSighted.seen.symm.trans hSightedOther.seen
  exact Sighting.file.inj (Option.some.inj hSeen)

theorem isUnder_of_parent {p : Path} (h : p.parent.isUnder root = true) : p.isUnder root = true := by
  rw [Path.isUnder_iff] at h ⊢
  exact ⟨h.1, h.2.trans (List.dropLast_prefix p.parts)⟩

theorem Entered.isUnder {dir : Path} (h : Entered s t root dir) : dir.isUnder root = true := by
  induction h with
  | root hRoot => exact Path.isUnder_iff.mpr ⟨rfl, List.prefix_rfl⟩
  | sub n hNode hParts hListed hOpen hAbove ih => exact isUnder_of_parent ih

theorem isUnder_of_mem_run {e : FileEntry} (h : .file e ∈ run s t root) :
    e.path.isUnder root = true := by
  obtain ⟨n, hSighted⟩ := sighted_of_mem_run h
  rw [hSighted.path_eq]
  exact isUnder_of_parent hSighted.entered.isUnder

/-- The skip rules let a scan go as far as to this directory. -/
inductive Passable (s : Settings) (t : FileTree) (root : Path) : Path → Prop where
  | root (hRoot : t.isDirectory root = .ok true) : Passable s t root root
  | sub (n : Node) (hNode : n ∈ t.nodes) (hParts : n.path.parts ≠ []) (hKind : n.kind = .directory)
      (hName : s.skipsDirectory n.name = false) (hAbove : Passable s t root n.path.parent) :
      Passable s t root n.path

/-- A regular file below the root that the skip rules let through. -/
structure Eligible (s : Settings) (t : FileTree) (root : Path) (n : Node) : Prop where
  node : n ∈ t.nodes
  parts : n.path.parts ≠ []
  passable : Passable s t root n.path.parent
  kind : n.kind = .file
  name : s.skipsFile n.name = false

/-- A directory that a scan of the root cannot look into, since the listing of
it or of a directory above it fails, or it cannot be told what one of them is. -/
inductive Veiled (t : FileTree) (root : Path) : Path → Prop where
  | listing (dir : Path) (hList : ¬t.Lists dir) : Veiled t root dir
  | kind (n : Node) (hNode : n ∈ t.nodes) (hBelow : n.path ≠ root) (hFault : n.kindFault ≠ none) :
      Veiled t root n.path
  | above (n : Node) (hNode : n ∈ t.nodes) (hBelow : n.path ≠ root)
      (hAbove : Veiled t root n.path.parent) : Veiled t root n.path

/-- A file that some look at it or at a directory on the way to it fails for. -/
def Obscured (t : FileTree) (root : Path) (n : Node) : Prop :=
  Veiled t root n.path.parent ∨ n.kindFault ≠ none ∨ ∀ e, lookAt root n ≠ .file e

theorem Entered.passable {dir : Path} (h : Entered s t root dir) : Passable s t root dir := by
  induction h with
  | root hRoot => exact .root hRoot
  | sub n hNode hParts hListed hOpen hAbove ih =>
      simp only [isSubdirectory, Bool.and_eq_true, Bool.not_eq_true', decide_eq_true_eq] at hOpen
      exact .sub n hNode hParts hOpen.1.2 hOpen.2 ih

theorem Passable.length_le {dir : Path} (h : Passable s t root dir) :
    root.parts.length ≤ dir.parts.length := by
  induction h with
  | root hRoot => exact Nat.le_refl _
  | sub n hNode hParts hKind hName hAbove ih =>
      have := length_parent hParts
      omega

theorem Passable.ne_root {n : Node} (h : Passable s t root n.path.parent)
    (hParts : n.path.parts ≠ []) : n.path ≠ root := by
  intro hRoot
  have hParent := length_parent hParts
  have hLe := h.length_le
  rw [hRoot] at hParent hLe
  omega

theorem Veiled.reason {dir : Path} (h : Veiled t root dir) :
    ¬t.Lists dir ∨ dir ≠ root ∧ ∃ n ∈ t.nodes, n.path = dir ∧
      (n.kindFault ≠ none ∨ Veiled t root n.path.parent) := by
  cases h with
  | listing _ hList => exact .inl hList
  | kind n hNode hBelow hFault => exact .inr ⟨hBelow, n, hNode, rfl, .inl hFault⟩
  | above n hNode hBelow hAbove => exact .inr ⟨hBelow, n, hNode, rfl, .inr hAbove⟩

theorem Entered.not_veiled {dir : Path} (hProper : t.IsProper) (h : Entered s t root dir)
    (hListed : t.Lists dir) : ¬Veiled t root dir := by
  intro hVeiled
  induction h with
  | root hRoot =>
      rcases hVeiled.reason with hList | ⟨hBelow, _⟩
      · exact hList hListed
      · exact hBelow rfl
  | sub n hNode hParts hListedAbove hOpen hAbove ih =>
      rcases hVeiled.reason with hList | ⟨_, m, hm, hSame, hReason⟩
      · exact hList hListed
      · obtain rfl : m = n := hProper.eq_of_text hm hNode (congrArg Path.text hSame)
        simp only [isSubdirectory, Bool.and_eq_true, Option.isNone_iff_eq_none] at hOpen
        rcases hReason with hFault | hVeiledAbove
        · exact hFault hOpen.1.1
        · exact ih hListedAbove hVeiledAbove

/-- Where the skip rules let a scan go, only failing looks can keep it out. -/
theorem Passable.entered {dir : Path} (h : Passable s t root dir) (hClear : ¬Veiled t root dir) :
    Entered s t root dir ∧ t.Lists dir := by
  induction h with
  | root hRoot => exact ⟨.root hRoot, not_not.mp fun hList => hClear (.listing root hList)⟩
  | sub n hNode hParts hKind hName hAbove ih =>
      have hBelow := hAbove.ne_root hParts
      obtain ⟨hEntered, hListed⟩ := ih fun hVeiled => hClear (.above n hNode hBelow hVeiled)
      have hFault : n.kindFault = none :=
        not_not.mp fun hFault => hClear (.kind n hNode hBelow hFault)
      have hOpen : isSubdirectory s n = true := by simp [isSubdirectory, hFault, hKind, hName]
      exact ⟨.sub n hNode hParts hListed hOpen hEntered,
        not_not.mp fun hList => hClear (.listing n.path hList)⟩

/-- A file that the skip rules let through comes up unless a look on the way to
it fails. -/
theorem Eligible.sighted_iff {n : Node} (hProper : t.IsProper) (h : Eligible s t root n) :
    (∃ e, Sighted s t root n e) ↔ ¬Obscured t root n := by
  constructor
  · rintro ⟨e, hSighted⟩ hObscured
    obtain ⟨hFault, _, _, hLook⟩ := sightingOf_eq_file_iff.mp hSighted.seen
    rcases hObscured with hVeiled | hKind | hNone
    · exact hSighted.entered.not_veiled hProper hSighted.listed hVeiled
    · exact hKind hFault
    · exact hNone e hLook
  · intro hClear
    rw [Obscured, not_or, not_or, not_not] at hClear
    obtain ⟨hVeiled, hFault, hLook⟩ := hClear
    obtain ⟨e, hSeen⟩ := not_forall_not.mp hLook
    obtain ⟨hEntered, hListed⟩ := h.passable.entered hVeiled
    exact ⟨e, h.node, h.parts, hListed, hEntered,
      sightingOf_eq_file_iff.mpr ⟨hFault, h.kind, h.name, hSeen⟩⟩

end Scan
end Indexer
