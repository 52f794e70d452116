import Indexer.Store

/-! Entries of the crawl state and what updates do to them. An update is about
one file: it decides the entry of that file and leaves all others alone. -/
namespace Indexer

/-- The reading of the machine's clock: without an offset, and of a day that is
convertible to seconds. -/
structure DateTime.IsReading (d : DateTime) : Prop where
  naive : d.offset = none
  convertible : Moment.firstConvertible ≤ d.wall.wholeSeconds

instance (d : DateTime) : Decidable d.IsReading :=
  decidable_of_iff (d.offset = none ∧ Moment.firstConvertible ≤ d.wall.wholeSeconds)
    ⟨fun h => ⟨h.1, h.2⟩, fun h => ⟨h.naive, h.convertible⟩⟩

theorem DateTime.IsReading.toSeconds {d : DateTime} (h : d.IsReading) :
    ∃ seconds, d.toSeconds = .ok seconds := by
  rw [DateTime.toSeconds, h.naive]
  exact ⟨_, if_neg (Int.not_lt.mpr h.convertible)⟩

/-- An update that can be written: one that does not remove its entry carries a
modification time with seconds. -/
def StateUpdate.Writable (u : StateUpdate) : Prop :=
  u.remove = false → ∃ seconds, Store.modified u = .ok seconds

theorem StateUpdate.writable_of_reading {u : StateUpdate} {d : DateTime}
    (hModified : u.lastModified = some d) (h : d.IsReading) : u.Writable := by
  intro _
  obtain ⟨seconds, hSeconds⟩ := h.toSeconds
  exact ⟨seconds, by simp only [Store.modified, hModified, hSeconds]; rfl⟩

theorem StateUpdate.writable_of_remove {u : StateUpdate} (h : u.remove = true) : u.Writable := by
  intro hKept
  rw [h] at hKept
  cases hKept

namespace Store

theorem hasKey_iff {r : Row} {root path : String} :
    r.hasKey root path = true ↔ r.root = root ∧ r.path = path := by
  simp [Row.hasKey]

theorem hasKey_eq_false_iff {r : Row} {root path : String} :
    r.hasKey root path = false ↔ ¬(r.root = root ∧ r.path = path) := by
  rw [← hasKey_iff, Bool.not_eq_true]

theorem find?_erase (s : Store) (root path r p : String) :
    (s.erase root path).find? r p = if r = root ∧ p = path then none else s.find? r p := by
  rw [find?, erase, List.find?_filter]
  split
  · next hKey =>
      rw [List.find?_eq_none]
      intro q _
      simp [hKey]
  · next hKey =>
      refine congrArg (fun test => s.rows.find? test) (funext fun q => ?_)
      cases hq : q.hasKey r p with
      | false => simp
      | true =>
          obtain ⟨rfl, rfl⟩ := hasKey_iff.mp hq
          rw [hasKey_eq_false_iff.mpr hKey]
          rfl

private theorem find?_replace (rows : List Row) (row : Row) (r p : String) :
    (rows.map fun q => if q.hasKey row.root row.path then row else q).find? (·.hasKey r p) =
      if r = row.root ∧ p = row.path then
        (rows.find? (·.hasKey r p)).map fun _ => row
      else rows.find? (·.hasKey r p) := by
  induction rows with
  | nil => simp
  | cons q rows ih =>
      rw [List.map_cons, List.find?_cons, List.find?_cons, ih]
      by_cases hRow : q.hasKey row.root row.path = true
      · obtain ⟨hRoot, hPath⟩ := hasKey_iff.mp hRow
        by_cases hKey : r = row.root ∧ p = row.path
        · simp [Row.hasKey, hRoot, hPath, hKey]
        · have hOther : row.hasKey r p = false :=
            hasKey_eq_false_iff.mpr fun h => hKey ⟨h.1.symm, h.2.symm⟩
          have hSame : q.hasKey r p = false :=
            hasKey_eq_false_iff.mpr fun h => hKey ⟨h.1.symm.trans hRoot, h.2.symm.trans hPath⟩
          simp only [if_pos hRow, hOther, hSame, if_neg hKey]
      · rw [if_neg hRow]
        by_cases hKey : r = row.root ∧ p = row.path
        · obtain ⟨rfl, rfl⟩ := hKey
          simp [hRow]
        · simp only [if_neg hKey]

/-- A row that is written is found under its key. -/
theorem find?_put (s : Store) (row : Row) (r p : String) :
    (s.put row).find? r p = if r = row.root ∧ p = row.path then some row else s.find? r p := by
  unfold put
  split
  · next hFound =>
      rw [find?, find?_replace]
      split
      · next hKey =>
          obtain ⟨rfl, rfl⟩ := hKey
          obtain ⟨q, hq⟩ := Option.isSome_iff_exists.mp hFound
          rw [find?] at hq
          rw [hq, Option.map_some]
      · rfl
  · next hFree =>
      rw [find?, List.find?_append]
      split
      · next hKey =>
          obtain ⟨rfl, rfl⟩ := hKey
          have hNone : s.rows.find? (·.hasKey row.root row.path) = none := by
            simpa [find?] using hFree
          have hSelf : row.hasKey row.root row.path = true := hasKey_iff.mpr ⟨rfl, rfl⟩
          rw [hNone, Option.none_or, List.find?_cons, hSelf]
      · next hKey =>
          have hOther : row.hasKey r p = false :=
            hasKey_eq_false_iff.mpr fun h => hKey ⟨h.1.symm, h.2.symm⟩
          rw [List.find?_cons, hOther, List.find?_nil, Option.or_none, find?]

/-- The row an update leaves behind at the given time. -/
def rowOf (now modified : Float) (u : StateUpdate) : Row :=
  ⟨u.root, u.path, u.checksum, modified, now⟩

theorem find?_apply {now : Float} {s t : Store} {u : StateUpdate} (h : apply now s u = .ok t)
    (r p : String) :
    t.find? r p =
      if r = u.root ∧ p = u.path then
        if u.remove then none else (modified u).toOption.map fun m => rowOf now m u
      else s.find? r p := by
  unfold apply at h
  split at h
  · next hRemove =>
      cases h
      rw [find?_erase, if_pos hRemove]
  · next hWrite =>
      cases hModified : modified u with
      | error f => simp [hModified, Except.map] at h
      | ok m =>
          simp only [hModified, Except.map, Except.ok.injEq] at h
          rw [← h, find?_put, if_neg hWrite]
          rfl

theorem commit_ok {s : Store} {now : DateTime} {seconds : Float} (h : now.toSeconds = .ok seconds)
    (updates : List StateUpdate) : s.commit now updates = updates.foldlM (apply seconds) s := by
  simp only [commit, h, mapError_ok]
  rfl

theorem commit_single {s : Store} {now : DateTime} {seconds : Float} (h : now.toSeconds = .ok seconds)
    (u : StateUpdate) : s.commit now [u] = apply seconds s u := by
  rw [commit_ok h, List.foldlM_cons]
  exact bind_pure _

/-- Updates that are committed together could as well be committed one after the other. -/
theorem commit_cons (s : Store) (now : DateTime) (u : StateUpdate) (updates : List StateUpdate) :
    s.commit now (u :: updates) = s.commit now [u] >>= fun t => t.commit now updates := by
  cases hNow : now.toSeconds with
  | error f => simp [commit, hNow]; rfl
  | ok seconds =>
      simp only [commit_ok hNow, List.foldlM_cons, List.foldlM_nil]
      rw [bind_assoc]
      simp

/-- A writable update is committed at any reading of the clock. -/
theorem commit_writable (s : Store) {now : DateTime} {u : StateUpdate} (hNow : now.IsReading)
    (h : u.Writable) : ∃ t, s.commit now [u] = .ok t := by
  obtain ⟨seconds, hSeconds⟩ := hNow.toSeconds
  rw [commit_single hSeconds, apply]
  cases hRemove : u.remove with
  | true => exact ⟨_, rfl⟩
  | false =>
      obtain ⟨m, hModified⟩ := h hRemove
      rw [hModified]
      exact ⟨_, rfl⟩

/-- No two rows are about the same file. -/
def IsKeyed (s : Store) : Prop := (s.rows.map fun r => (r.root, r.path)).Nodup

theorem isKeyed_empty : empty.IsKeyed := List.nodup_nil

variable {s : Store}

theorem IsKeyed.erase (h : s.IsKeyed) (root path : String) : (s.erase root path).IsKeyed :=
  List.Nodup.sublist (List.filter_sublist.map _) h

theorem IsKeyed.put (h : s.IsKeyed) (row : Row) : (s.put row).IsKeyed := by
  unfold Store.put
  split
  · refine Eq.mpr (congrArg List.Nodup ?_) h
    rw [List.map_map]
    refine List.map_congr_left fun q _ => ?_
    rw [Function.comp_apply]
    split
    · next hKey =>
        obtain ⟨hRoot, hPath⟩ := hasKey_iff.mp hKey
        rw [hRoot, hPath]
    · rfl
  · next hFree =>
      have hNone : s.find? row.root row.path = none := by simpa using hFree
      rw [IsKeyed, List.map_append, List.nodup_append]
      refine ⟨h, by simp, ?_⟩
      rintro _ hKey _ hRow rfl
      obtain ⟨q, hq, hSame⟩ := List.mem_map.mp hKey
      have hOther := List.find?_eq_none.mp hNone q hq
      rw [List.mem_singleton.mp hRow] at hSame
      exact hOther (hasKey_iff.mpr ⟨congrArg Prod.fst hSame, congrArg Prod.snd hSame⟩)

theorem IsKeyed.apply (h : s.IsKeyed) {now : Float} {t : Store} {u : StateUpdate}
    (hApply : Store.apply now s u = .ok t) : t.IsKeyed := by
  unfold Store.apply at hApply
  split at hApply
  · cases hApply
    exact h.erase _ _
  · cases hModified : modified u with
    | error f =>
        rw [hModified] at hApply
        cases hApply
    | ok x =>
        rw [hModified] at hApply
        cases hApply
        exact h.put _

theorem find?_key {root path : String} {r : Row} (h : s.find? root path = some r) :
    r.root = root ∧ r.path = path := by
  have hKey := List.find?_some (p := fun q : Row => q.hasKey root path) h
  exact hasKey_iff.mp hKey

/-- What is read back from a row. -/
theorem toAcknowledged_ok {r : Row} {a : Acknowledged} (h : r.toAcknowledged = .ok a) :
    a.path = r.path ∧ a.checksum = r.checksum ∧
      Moment.ofSeconds (.float r.lastModified) = .ok a.lastModified := by
  unfold Row.toAcknowledged at h
  cases hModified : Moment.ofSeconds (.float r.lastModified) with
  | error e => simp [hModified, bind, Except.bind] at h
  | ok modified =>
      cases hIndexed : Moment.ofSeconds (.float r.lastIndexed) with
      | error e => simp [hModified, hIndexed, bind, Except.bind] at h
      | ok indexed =>
          simp only [hModified, hIndexed, bind, Except.bind, pure, Except.pure,
            Except.ok.injEq] at h
          subst h
          exact ⟨rfl, rfl, rfl⟩

theorem paths_of_mapM {rows : List Row} {entries : List Acknowledged}
    (h : rows.mapM Row.toAcknowledged = .ok entries) :
    entries.map (·.path) = rows.map (·.path) := by
  induction rows generalizing entries with
  | nil =>
      cases h
      rfl
  | cons r rows ih =>
      rw [List.mapM_cons] at h
      cases hRow : r.toAcknowledged with
      | error e => simp [hRow, bind, Except.bind] at h
      | ok a =>
          cases hRest : rows.mapM Row.toAcknowledged with
          | error e => simp [hRow, hRest, bind, Except.bind] at h
          | ok rest =>
              simp only [hRow, hRest, bind, Except.bind, pure, Except.pure, Except.ok.injEq] at h
              rw [← h, List.map_cons, List.map_cons, (toAcknowledged_ok hRow).1, ih hRest]

/-- The paths that are loaded for a root are those with an entry under it. -/
theorem mem_paths_of_load {s : Store} {root path : String} {entries : List Acknowledged}
    (h : s.load root = .ok entries) :
    path ∈ entries.map (·.path) ↔ (s.find? root path).isSome = true := by
  rw [paths_of_mapM h, find?, List.find?_isSome, List.mem_map]
  simp only [(List.mergeSort_perm _ _).mem_iff, List.mem_filter, decide_eq_true_eq, hasKey_iff]
  exact ⟨fun ⟨r, ⟨hr, hRoot⟩, hPath⟩ => ⟨r, hr, hRoot, hPath⟩,
    fun ⟨r, hr, hRoot, hPath⟩ => ⟨r, ⟨hr, hRoot⟩, hPath⟩⟩

/-- Sorting by path leaves the first row of a path the first one. -/
theorem find?_sorted (rows : List Row) (path : String) :
    (rows.mergeSort fun a b => a.path ≤ b.path).find? (·.path = path) =
      rows.find? (·.path = path) := by
  have hSublist : (rows.filter (·.path = path)).Sublist
      ((rows.mergeSort fun a b => a.path ≤ b.path).filter (·.path = path)) := by
    have hSorted : (rows.filter (·.path = path)).Sublist
        (rows.mergeSort fun a b => a.path ≤ b.path) := by
      refine List.sublist_mergeSort ?_ ?_ ?_ List.filter_sublist
      · intro a b c hab hbc
        simp only [decide_eq_true_eq] at hab hbc ⊢
        exact String.le_trans hab hbc
      · intro a b
        simpa using String.le_total a.path b.path
      · rw [List.pairwise_filter]
        refine List.pairwise_of_forall fun a b ha hb => ?_
        simp only [decide_eq_true_eq] at ha hb ⊢
        exact ha.trans hb.symm ▸ String.le_refl a.path
    simpa using hSorted.filter (·.path = path)
  have hSame := hSublist.eq_of_length ((List.mergeSort_perm _ _).symm.filter _).length_eq
  rw [← List.head?_filter, ← List.head?_filter, hSame]

theorem find?_of_mapM {rows : List Row} {entries : List Acknowledged}
    (h : rows.mapM Row.toAcknowledged = .ok entries) (path : String) :
    (rows.find? (·.path = path) = none ∧ entries.find? (·.path = path) = none) ∨
      ∃ r a, rows.find? (·.path = path) = some r ∧ r.toAcknowledged = .ok a ∧
        entries.find? (·.path = path) = some a := by
  induction rows generalizing entries with
  | nil =>
      cases h
      exact .inl ⟨rfl, rfl⟩
  | cons r rows ih =>
      rw [List.mapM_cons] at h
      cases hRow : r.toAcknowledged with
      | error e => simp [hRow, bind, Except.bind] at h
      | ok a =>
          cases hRest : rows.mapM Row.toAcknowledged with
          | error e => simp [hRow, hRest, bind, Except.bind] at h
          | ok rest =>
              simp only [hRow, hRest, bind, Except.bind, pure, Except.pure, Except.ok.injEq] at h
              rw [← h, List.find?_cons, List.find?_cons, (toAcknowledged_ok hRow).1]
              cases hPath : decide (r.path = path) with
              | true => exact .inr ⟨r, a, rfl, hRow, rfl⟩
              | false => exact ih hRest

/-- What is loaded about a path is read back from its row. -/
theorem find?_load {s : Store} {root : String} {entries : List Acknowledged}
    (h : s.load root = .ok entries) (path : String) :
    (s.find? root path = none ∧ entries.find? (·.path = path) = none) ∨
      ∃ r a, s.find? root path = some r ∧ r.toAcknowledged = .ok a ∧
        entries.find? (·.path = path) = some a := by
  have hKey : ((s.rows.filter (·.root = root)).mergeSort fun a b => a.path ≤ b.path).find?
      (·.path = path) = s.find? root path := by
    rw [find?_sorted, List.find?_filter, find?]
    simp [Row.hasKey]
  have hRows := find?_of_mapM h path
  rwa [hKey] at hRows

end Store
end Indexer
