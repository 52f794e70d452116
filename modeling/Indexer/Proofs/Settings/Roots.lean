import Indexer.Proofs.Settings.Environment

/-! The roots that an environment lists. Each entry of the comma-separated list gives a root, a blank
one too: it stands for the directory where relative paths start. So the roots are the listed paths
exactly if no entry is blank. -/
namespace Indexer.Settings

variable {host : Host} {s : Settings} {env : Environment} {list : String}

/-- The entries of a comma-separated list, without the white space around them. -/
def entries (list : String) : List (List Char) :=
  (Text.splitAt (· = ',') list.toList).map (Text.trimChars Text.isBlank)

/-- The entries that are not blank. -/
def listed (list : String) : List String := ((entries list).filter (· ≠ [])).map String.ofList

/-- The absolute path that an entry stands for. -/
def Denotes (host : Host) (entry : String) (root : Path) : Prop :=
  host.normalize (Path.ofString entry) = .ok root

theorem denotes_empty_iff {root : Path} : Denotes host "" root ↔ root = host.workingDirectory := by
  have hEmpty : Path.ofString "" = ⟨0, []⟩ := by decide
  have hHere : host.resolve ⟨0, []⟩ = host.workingDirectory := by
    rw [Host.resolve, Host.follow, if_neg (by decide), List.reverse_reverse,
      ← host.isReal_workingDirectory.isNormal.absolute]
  have hNormal : host.normalize ⟨0, []⟩ = .ok host.workingDirectory := congrArg Except.ok hHere
  rw [Denotes, hEmpty, hNormal, Except.ok.injEq, eq_comm]

/-- Every entry gives its root, whether it is blank or not. -/
theorem forall_denotes_of_environment (hList : env.filled? "CRAWLER_ROOTS" = some list)
    (h : ofEnvironment host env = .ok s) :
    List.Forall₂ (Denotes host) ((entries list).map String.ofList) s.roots := by
  simp only [ofEnvironment, bind_eq_ok_iff] at h
  obtain ⟨_, -, _, -, _, hOverride, hLast⟩ := h
  obtain ⟨-, -, -, hRoots, -⟩ := override_ok hOverride
  obtain ⟨_, _, _, -, hNormal, -, -, rfl⟩ := normalize_eq_ok_iff.1 hLast
  rw [hRoots, hList, mapM_eq_ok_iff] at hNormal
  simpa only [Denotes, entries, readRoots, List.map_map, List.forall₂_map_left_iff, Option.map_some,
    Option.getD_some, Function.comp_apply] using hNormal

theorem filled?_of_listed (hList : env.get? "CRAWLER_ROOTS" = some list) (hListed : listed list ≠ []) :
    env.filled? "CRAWLER_ROOTS" = some list := by
  have hSome : list ≠ "" := by
    rintro rfl
    exact hListed (by decide)
  rw [Environment.filled?, hList, Option.filter_some, if_pos (decide_eq_true hSome)]

/-- If some entry of the list is not blank and there are settings, then the roots are the paths of the
entries that are not blank, in their order, exactly if no entry is blank. A blank entry adds the
directory where relative paths start. -/
theorem roots_are_the_listed_paths (hList : env.get? "CRAWLER_ROOTS" = some list)
    (hListed : listed list ≠ []) (h : ofEnvironment host env = .ok s) :
    (List.Forall₂ (Denotes host) (listed list) s.roots ↔ [] ∉ entries list) ∧
    List.Forall₂ (fun entry root =>
      if entry = [] then root = host.workingDirectory
      else Denotes host (String.ofList entry) root) (entries list) s.roots := by
  have hAll := forall_denotes_of_environment (filled?_of_listed hList hListed) h
  have hCount : (entries list).length = s.roots.length := by
    rw [← hAll.length_eq, List.length_map]
  refine ⟨⟨fun hOnly hBlank => ?_, fun hNone => ?_⟩, ?_⟩
  · -- A blank entry that adds no root would leave fewer roots than entries.
    have hKept : ((entries list).filter (· ≠ [])).length = (entries list).length := by
      rw [hCount, ← hOnly.length_eq, listed, List.length_map]
    exact absurd rfl (of_decide_eq_true (List.length_filter_eq_length_iff.mp hKept _ hBlank))
  · have hKept : (entries list).filter (· ≠ []) = entries list :=
      List.filter_eq_self.mpr fun entry hEntry => decide_eq_true fun hBlank => hNone (hBlank ▸ hEntry)
    rwa [listed, hKept]
  · rw [List.forall₂_map_left_iff] at hAll
    refine hAll.imp fun entry root hRoot => ?_
    split
    · next hBlank =>
        rw [hBlank] at hRoot
        exact denotes_empty_iff.mp hRoot
    · exact hRoot

/-- Entries with white space, dots and the home directory, and none that is blank. -/
theorem spacedList_gives_listed_paths :
    ∃ s, ofEnvironment (.plain "/home/tester")
        [("CRAWLER_ROOTS", " ~/docs ,/srv/../data//\u3000")] = .ok s ∧
      listed " ~/docs ,/srv/../data//\u3000" = ["~/docs", "/srv/../data//"] ∧
      List.Forall₂ (Denotes (.plain "/home/tester")) ["~/docs", "/srv/../data//"] s.roots ∧
      s.roots = [⟨1, ["home", "tester", "docs"]⟩, ⟨1, ["data"]⟩] := by
  obtain ⟨s, h, hRoots⟩ : ∃ s, ofEnvironment (.plain "/home/tester")
        [("CRAWLER_ROOTS", " ~/docs ,/srv/../data//\u3000")] = .ok s ∧
      s.roots = [⟨1, ["home", "tester", "docs"]⟩, ⟨1, ["data"]⟩] := ⟨_, rfl, rfl⟩
  have hListed : listed " ~/docs ,/srv/../data//\u3000" = ["~/docs", "/srv/../data//"] := by decide
  obtain ⟨hIff, _⟩ := roots_are_the_listed_paths rfl (hListed ▸ List.cons_ne_nil _ _) h
  exact ⟨s, h, hListed, hListed ▸ hIff.mpr (by decide), hRoots⟩

/-- Between two commas in a row stands an entry like any other, and adds a root that is not listed. -/
theorem doubled_comma_adds_a_root :
    ∃ s, ofEnvironment (.plain "/home/tester")
        [("CRAWLER_ROOTS", "/srv/docs,,/srv/data")] = .ok s ∧
      listed "/srv/docs,,/srv/data" = ["/srv/docs", "/srv/data"] ∧
      s.roots = [⟨1, ["srv", "docs"]⟩, ⟨1, []⟩, ⟨1, ["srv", "data"]⟩] ∧
      ¬List.Forall₂ (Denotes (.plain "/home/tester")) (listed "/srv/docs,,/srv/data")
        s.roots := by
  obtain ⟨s, h, hRoots⟩ : ∃ s, ofEnvironment (.plain "/home/tester")
        [("CRAWLER_ROOTS", "/srv/docs,,/srv/data")] = .ok s ∧
      s.roots = [⟨1, ["srv", "docs"]⟩, ⟨1, []⟩, ⟨1, ["srv", "data"]⟩] := ⟨_, rfl, rfl⟩
  refine ⟨s, h, by decide, hRoots, fun hOnly => ?_⟩
  have hCount := hOnly.length_eq
  rw [hRoots] at hCount
  exact absurd hCount (by decide)

end Indexer.Settings
