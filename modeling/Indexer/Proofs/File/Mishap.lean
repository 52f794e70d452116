import Indexer.Proofs.File.Sight

/-! What a scan makes of mishaps. Faults of the file system are passed over one by
one and hide nothing but what they befall. Two things are not met in this way: a look
at the root that fails otherwise than for want of something to look at, and a
modification time that the calendar does not hold. The latter breaks the scan off, and
all that would have come up after the file stays hidden with it. -/
namespace Indexer

/-- A fault that leaves an owner or a group unknown. -/
def Fault.leavesUnknown (f : Fault) : Bool := f.isKey || f.isNotImplemented || f.isOs

/-- Looks at the tree fail as looks at a file system do, and owners and groups may be
unknown. -/
structure FileTree.FailsAsFiles (t : FileTree) : Prop where
  looks : ∀ n ∈ t.nodes, ∀ fault ∈ [n.listFault, n.kindFault, n.statFault],
    fault.all Fault.isOs = true
  holders : ∀ n ∈ t.nodes, ∀ fault ∈ [n.ownerFault, n.groupFault],
    fault.all Fault.leavesUnknown = true

/-- The time of the file is one of the calendar, or so far from it that telling it fails like a look
at the file. -/
def Node.IsDatable (n : Node) : Prop :=
  ∀ e, Moment.ofSeconds n.mtime = .error e → (Fault.time e).isOs = true

theorem Node.isDatable_of_ok {n : Node} {m : Moment} (h : Moment.ofSeconds n.mtime = .ok m) :
    n.IsDatable := fun _ hError => nomatch h.symm.trans hError

namespace Moment

theorem convertible_of_ofParts {seconds : Int} {micro : Nat} {m : Moment}
    (h : ofParts seconds micro = .ok m) : firstConvertible ≤ m.wholeSeconds := by
  unfold ofParts at h
  dsimp only at h
  split at h
  · cases h
  · split at h
    · cases h
    · split at h
      · cases h
      · split at h
        · cases h
        · obtain rfl := Except.ok.inj h
          change firstConvertible ≤ (seconds * 1000000 + (micro : Int)).fdiv 1000000
          rw [Int.fdiv_eq_ediv_of_nonneg _ (by decide)]
          omega

/-- A time that can be told can be told in seconds again. -/
theorem convertible_of_ofSeconds {x : Number} {m : Moment} (h : ofSeconds x = .ok m) :
    firstConvertible ≤ m.wholeSeconds := by
  unfold ofSeconds at h
  split at h
  · exact convertible_of_ofParts h
  · split at h
    · cases h
    · split at h
      · cases h
      · dsimp only at h
        split at h
        · exact convertible_of_ofParts h
        · split at h <;> exact convertible_of_ofParts h

end Moment

namespace FileTree

theorem FailsAsFiles.list {t : FileTree} (h : t.FailsAsFiles) {dir : Path} {f : Fault}
    (hList : t.list dir = .error f) : f.isOs = true := by
  unfold FileTree.list at hList
  split at hList
  · cases hList
    rfl
  · next n hFind =>
      split at hList
      · next g hFault =>
          cases hList
          have hLook := h.looks n (List.mem_of_find?_eq_some hFind) n.listFault (by simp)
          simpa [hFault] using hLook
      · cases hList

end FileTree

namespace Scan

variable {s : Settings} {t : FileTree} {root : Path} {n : Node}

/-- A file that the scan asks for its time. -/
structure Dated (s : Settings) (t : FileTree) (root : Path) (n : Node) : Prop where
  met : Met s t root n
  kindFault : n.kindFault = none
  kind : n.kind = .file
  name : s.skipsFile n.name = false
  statFault : n.statFault = none

theorem not_broken_of_passOver {f g : Fault} {path : Path} {activity : String} (h : f.isOs = true) :
    passOver f path activity ≠ .broken g := by
  rw [passOver, if_pos h]
  nofun

theorem holder_ok {fault : Option Fault} (h : fault.all Fault.leavesUnknown = true)
    (name : Option String) : ∃ held, holder fault name = .ok held := by
  cases fault with
  | none => exact ⟨name, rfl⟩
  | some f => exact ⟨none, if_pos h⟩

/-- A file that shows its kind and its size comes up, unless its time cannot be told. -/
theorem lookAt_of_stat (root : Path) (hFaults : t.FailsAsFiles) (hNode : n ∈ t.nodes)
    (hStat : n.statFault = none) :
    (∃ e, lookAt root n = .file e) ∨
      ∃ e, Moment.ofSeconds n.mtime = .error e ∧
        lookAt root n = passOver (.time e) n.path "scan_entry" := by
  obtain ⟨owner, hOwner⟩ := holder_ok (hFaults.holders n hNode n.ownerFault (by simp)) n.owner
  obtain ⟨group, hGroup⟩ := holder_ok (hFaults.holders n hNode n.groupFault (by simp)) n.group
  simp only [lookAt, hStat, hOwner, hGroup, FileEntry.ofPath, bind, Except.bind]
  cases hTime : Moment.ofSeconds n.mtime with
  | error e => exact .inr ⟨e, rfl, rfl⟩
  | ok mtime => exact .inl ⟨_, rfl⟩

theorem dated_of_broken (hFaults : t.FailsAsFiles) (hMet : Met s t root n) {f : Fault}
    (hSeen : sightingOf s root n = some (.broken f)) : Dated s t root n ∧ ¬n.IsDatable := by
  have hLook (fault : Option Fault) (hIn : fault ∈ [n.listFault, n.kindFault, n.statFault]) {g : Fault}
      (hFault : fault = some g) : g.isOs = true := by
    simpa [hFault] using hFaults.looks n hMet.node fault hIn
  unfold sightingOf at hSeen
  split at hSeen
  · next g hFault =>
      exact absurd (Option.some.inj hSeen) (not_broken_of_passOver (hLook _ (by simp) hFault))
  · next hKindFault =>
      split at hSeen
      · next hKind =>
          split at hSeen
          · cases hSeen
          · next hName =>
              replace hSeen := Option.some.inj hSeen
              cases hStat : n.statFault with
              | some g =>
                  rw [lookAt, hStat] at hSeen
                  exact absurd hSeen (not_broken_of_passOver (hLook _ (by simp) hStat))
              | none =>
                  refine ⟨⟨hMet, hKindFault, hKind, by simpa using hName, hStat⟩, fun hDatable => ?_⟩
                  have hSeeing := lookAt_of_stat root hFaults hMet.node hStat
                  rcases hSeeing with ⟨e, hFile⟩ | ⟨e, hTime, hPassed⟩
                  · rw [hFile] at hSeen
                    cases hSeen
                  · exact not_broken_of_passOver (hDatable e hTime) (hPassed.symm.trans hSeen)
      · cases hSeen

theorem broken_of_dated (hFaults : t.FailsAsFiles) (h : Dated s t root n) (hTime : ¬n.IsDatable) :
    ∃ f, sightingOf s root n = some (.broken f) := by
  obtain ⟨e, hError, hNotOs⟩ :
      ∃ e, Moment.ofSeconds n.mtime = .error e ∧ (Fault.time e).isOs ≠ true := by
    simpa [Node.IsDatable] using hTime
  refine ⟨.time e, ?_⟩
  simp only [sightingOf, h.kindFault, h.kind, h.name, Bool.false_eq_true, if_false, Option.some.injEq]
  have hSeeing := lookAt_of_stat root hFaults h.met.node h.statFault
  rcases hSeeing with ⟨entry, hFile⟩ | ⟨other, hOther, hPassed⟩
  · exact absurd ((lookAt_file hFile).2.2.symm.trans hError) nofun
  · obtain rfl : other = e := Except.error.inj (hOther.symm.trans hError)
    rw [hPassed, passOver, if_neg hNotOs]

/-- What breaks a scan off is the look at the root or the time of a file, and nothing else. -/
theorem broken_mem_run_iff (hFaults : t.FailsAsFiles)
    (hSlots : s.scannerConcurrency.isBelow 0 = false) :
    (∃ f, .broken f ∈ run s t root) ↔
      (∃ f, t.isDirectory root = .error f) ∨ ∃ n, Dated s t root n ∧ ¬n.IsDatable := by
  rw [run, if_neg (by simp [hSlots])]
  constructor
  · rintro ⟨f, hBroken⟩
    split at hBroken
    · next g hRoot => exact .inl ⟨g, hRoot⟩
    · next hRoot =>
        have hOrigin := origin_of_mem_directory (.root hRoot) hBroken
        rcases hOrigin with ⟨dir, g, hList, hPassed⟩ | ⟨n, hMet, hSeen⟩
        · exact absurd hPassed.symm (not_broken_of_passOver (hFaults.list hList))
        · exact .inr ⟨n, dated_of_broken hFaults hMet hSeen⟩
    · cases List.mem_singleton.mp hBroken
  · rintro (⟨f, hRoot⟩ | ⟨n, hDated, hTime⟩)
    · rw [hRoot]
      exact ⟨f, List.mem_singleton_self _⟩
    · obtain ⟨f, hSeen⟩ := broken_of_dated hFaults hDated hTime
      rw [hDated.met.entered.isDirectory]
      exact ⟨f, hDated.met.mem_directory hSeen⟩

end Scan
end Indexer
