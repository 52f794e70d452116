import Indexer.Proofs.File.Sequence
import Indexer.Proofs.Store.Entries
import Indexer.Store.Database
import Mathlib.Data.Finmap

/-! The crawl state as a finite map. A commit changes the map by all of its updates
or leaves it alone, although the table shows each update as soon as it is written.
What is read from the table is what the map says, with the times as they come back
from the doubles they are kept in. -/
namespace Indexer

/-! ### Transactions -/

namespace Database

@[simp] theorem origin_replace (d : Database) (s : Store) : (d.replace s).origin = d.origin := rfl

/-- Updates that can all be written are all written, and counted. -/
theorem write_ok {now : Float} {updates : List StateUpdate} {d : Database} {s : Store}
    (h : updates.foldlM (Store.apply now) d.store = .ok s) (applied : Nat) :
    ∃ saved, d.write now applied updates = (⟨s, saved⟩, .ok (applied + updates.length)) := by
  induction updates generalizing d applied with
  | nil =>
      cases h
      exact ⟨d.saved, rfl⟩
  | cons u updates ih =>
      rw [List.foldlM_cons] at h
      cases hApply : d.store.apply now u with
      | error f =>
          rw [hApply] at h
          cases h
      | ok t =>
          rw [hApply] at h
          obtain ⟨saved, hWrite⟩ := @ih (d.replace t) h (applied + 1)
          refine ⟨saved, ?_⟩
          rw [write, hApply, List.length_cons, Nat.add_comm updates.length, ← Nat.add_assoc]
          exact hWrite

/-- Wherever writing breaks off, it is known what the table was before. -/
theorem write_error {now : Float} {updates : List StateUpdate} {d : Database} {f : Fault}
    (h : updates.foldlM (Store.apply now) d.store = .error f) (applied : Nat) :
    ∃ broken, d.write now applied updates = (broken, .error f) ∧ broken.origin = d.origin := by
  induction updates generalizing d applied with
  | nil => cases h
  | cons u updates ih =>
      rw [List.foldlM_cons] at h
      cases hApply : d.store.apply now u with
      | error g =>
          rw [hApply] at h
          cases h
          exact ⟨d, by rw [write, hApply], rfl⟩
      | ok t =>
          rw [hApply] at h
          obtain ⟨broken, hWrite, hOrigin⟩ := @ih (d.replace t) h (applied + 1)
          exact ⟨broken, by rw [write, hApply]; exact hWrite, hOrigin⟩

/-- Without a transaction that is open from before, a commit in the database is the commit of the
crawl state, and one that fails leaves no trace. -/
theorem commit_eq (s : Store) (now : DateTime) (updates : List StateUpdate) :
    commit ⟨s, none⟩ now updates =
      match s.commit now updates with
      | .ok t => (⟨t, none⟩, .ok updates.length)
      | .error f => (⟨s, none⟩, .error f) := by
  cases hNow : now.toSeconds with
  | error e => simp only [commit, Store.commit, hNow]; rfl
  | ok seconds =>
      rw [Store.commit_ok hNow]
      cases hWrite : updates.foldlM (Store.apply seconds) s with
      | ok t =>
          obtain ⟨saved, hAll⟩ := @write_ok seconds updates ⟨s, none⟩ t hWrite 0
          simp only [commit, hNow, hAll, complete, Nat.zero_add]
      | error f =>
          obtain ⟨broken, hBroken, hOrigin⟩ := @write_error seconds updates ⟨s, none⟩ f hWrite 0
          simp only [commit, hNow, hBroken, rollBack, hOrigin]
          rfl

end Database

/-- A list of updates that is committed, and what the clock shows then. -/
structure Commit where
  now : DateTime
  updates : List StateUpdate

/-- The time can be told in seconds. -/
def DateTime.hasSeconds (d : DateTime) : Bool := d.toSeconds.isOk

/-- The update removes an entry, or it has a time to write and the seconds of it. -/
def StateUpdate.isSound (u : StateUpdate) : Bool :=
  u.remove || u.lastModified.any DateTime.hasSeconds

namespace Commit

/-- The commit has the seconds of all times that it is to write. -/
def isSound (c : Commit) : Bool := c.now.hasSeconds && c.updates.all StateUpdate.isSound

/-- The part of a commit that is about one root. -/
def about (root : String) (c : Commit) : Commit := { c with updates := c.updates.filter (·.root = root) }

/-- The last update of a commit that is about a file. -/
def last? (c : Commit) (root path : String) : Option StateUpdate :=
  c.updates.findRev? fun u => u.root = root ∧ u.path = path

end Commit

/-- The database after a history of commits, some of which may have failed. -/
def Database.after (d : Database) (commits : List Commit) : Database :=
  commits.foldl (fun d c => (d.commit c.now c.updates).1) d

/-! ### The map -/

/-- What is known about a file, with the times as they were given. -/
structure Particulars where
  checksum : Option String
  lastModified : DateTime
  lastIndexed : DateTime

/-- A time as it comes back from the double that it was kept in. -/
def DateTime.restored (d : DateTime) : Except TimeError Moment :=
  d.toSeconds >>= fun seconds => Moment.ofSeconds (.float seconds)

/-- What is known about a file, as it comes back from the table. -/
def Particulars.restored (x : Particulars) (path : String) : Except TimeError Acknowledged := do
  let lastModified ← x.lastModified.restored
  let lastIndexed ← x.lastIndexed.restored
  return { path, checksum := x.checksum, lastModified, lastIndexed }

/-- What is known about a file once an update is applied: nothing, or all of it anew. -/
def StateUpdate.entry (now : DateTime) (u : StateUpdate) : Option Particulars :=
  if u.remove then none else u.lastModified.map fun d => ⟨u.checksum, d, now⟩

/-- What is known about the files of all roots, by root and path. -/
abbrev FileMap := Finmap fun _ : String × String => Particulars

namespace FileMap

/-- What an update makes of the map: the entry of its file is removed or replaced as a whole. -/
def apply (now : DateTime) (m : FileMap) (u : StateUpdate) : FileMap :=
  if u.remove then m.erase (u.root, u.path)
  else
    match u.lastModified with
    | some d => m.insert (u.root, u.path) ⟨u.checksum, d, now⟩
    | none => m

theorem lookup_apply {now : DateTime} {m : FileMap} {u : StateUpdate} (h : u.isSound = true)
    (root path : String) :
    (m.apply now u).lookup (root, path) =
      if root = u.root ∧ path = u.path then u.entry now else m.lookup (root, path) := by
  by_cases hKey : root = u.root ∧ path = u.path
  · obtain ⟨rfl, rfl⟩ := hKey
    rw [if_pos ⟨rfl, rfl⟩, apply, StateUpdate.entry]
    split
    · exact Finmap.lookup_erase _ m
    · next hKept =>
        cases hTime : u.lastModified with
        | none => simp [StateUpdate.isSound, hKept, hTime] at h
        | some d => exact Finmap.lookup_insert m
  · have hOther : (root, path) ≠ (u.root, u.path) := fun hSame => hKey (Prod.ext_iff.mp hSame)
    rw [if_neg hKey, apply]
    split
    · exact Finmap.lookup_erase_ne hOther
    · split
      · exact Finmap.lookup_insert_of_ne m hOther
      · rfl

/-- A sound commit applies its updates in order, any other none of them. -/
def commit (m : FileMap) (c : Commit) : FileMap :=
  if c.isSound then c.updates.foldl (apply c.now) m else m

/-- The map after a history of commits. -/
def ofCommits (commits : List Commit) : FileMap := commits.foldl commit ∅

/-- The entry of a file. -/
def get (m : FileMap) (root path : String) : Except TimeError (Option Acknowledged) :=
  match m.lookup (root, path) with
  | none => .ok none
  | some x => (x.restored path).map some

/-- The keys of a root. -/
def keysOf (m : FileMap) (root : String) : Finset (String × String) := m.keys.filter (·.1 = root)

/-- The paths that a root has entries for, in order. -/
noncomputable def paths (m : FileMap) (root : String) : List String :=
  ((m.keysOf root).image Prod.snd).toList.mergeSort (· ≤ ·)

/-- The entries of a root in path order. -/
noncomputable def load (m : FileMap) (root : String) : Except TimeError (List Acknowledged) :=
  ((m.paths root).mapM (m.get root)).map List.reduceOption

/-! ### The last update of a file, and the roots -/

variable {m m' : FileMap} {root : String}

/-- In a sound commit the last update that is about a file decides its entry. -/
theorem lookup_commit {c : Commit} (h : c.isSound = true) (root path : String) :
    (m.commit c).lookup (root, path) =
      match c.last? root path with
      | some u => u.entry c.now
      | none => m.lookup (root, path) := by
  obtain ⟨now, updates⟩ := c
  simp only [Commit.isSound, Bool.and_eq_true] at h
  rw [commit, if_pos (by rw [Commit.isSound, h.1, h.2]; rfl), Commit.last?]
  replace h := h.2
  dsimp only at h ⊢
  induction updates generalizing m with
  | nil => rfl
  | cons u updates ih =>
      rw [List.all_cons, Bool.and_eq_true] at h
      rw [List.foldl_cons, ih h.2, List.findRev?]
      cases updates.findRev? fun u => u.root = root ∧ u.path = path with
      | some v => rfl
      | none =>
          rw [lookup_apply h.1]
          by_cases hKey : u.root = root ∧ u.path = path
          · simp [hKey]
          · have hOther : ¬(root = u.root ∧ path = u.path) := fun h => hKey ⟨h.1.symm, h.2.symm⟩
            simp [hKey, hOther]

/-- Two maps have the same entries for a root. -/
def Alike (root : String) (m m' : FileMap) : Prop :=
  ∀ path, m.lookup (root, path) = m'.lookup (root, path)

theorem Alike.keysOf (h : Alike root m m') : m.keysOf root = m'.keysOf root := by
  ext ⟨r, path⟩
  rw [FileMap.keysOf, FileMap.keysOf, Finset.mem_filter, Finset.mem_filter]
  refine and_congr_left fun hRoot => ?_
  dsimp only at hRoot
  rw [Finmap.mem_keys, Finmap.mem_keys, ← Finmap.lookup_isSome, ← Finmap.lookup_isSome, hRoot, h path]

theorem Alike.get (h : Alike root m m') : m.get root = m'.get root := by
  funext path
  rw [FileMap.get, FileMap.get, h path]

theorem Alike.load (h : Alike root m m') : m.load root = m'.load root := by
  rw [FileMap.load, FileMap.load, FileMap.paths, FileMap.paths, h.keysOf, h.get]

theorem last?_about (c : Commit) (root path : String) :
    (c.about root).last? root path = c.last? root path := by
  obtain ⟨now, updates⟩ := c
  simp only [Commit.last?, Commit.about]
  induction updates with
  | nil => rfl
  | cons u updates ih =>
      rw [List.filter_cons]
      split
      · rw [List.findRev?, List.findRev?, ih]
      · next hRoot =>
          have hOther : ¬(u.root = root ∧ u.path = path) := fun h => hRoot (by simp [h.1])
          rw [List.findRev?, ih]
          simp only [hOther, decide_false]
          cases updates.findRev? fun u => u.root = root ∧ u.path = path <;> rfl

theorem isSound_about {c : Commit} (h : c.isSound = true) (root : String) :
    (c.about root).isSound = true := by
  simp only [Commit.isSound, Bool.and_eq_true] at h ⊢
  refine ⟨h.1, List.all_eq_true.mpr fun u hu => ?_⟩
  exact List.all_eq_true.mp h.2 u (List.mem_filter.mp hu).1

/-- For a root only its own updates count. -/
theorem alike_ofCommits (root : String) (commits : List Commit) :
    Alike root (ofCommits commits)
      (ofCommits ((commits.filter Commit.isSound).map (Commit.about root))) := by
  have hFold (m m' : FileMap) (h : Alike root m m') : Alike root (commits.foldl commit m)
      (((commits.filter Commit.isSound).map (Commit.about root)).foldl commit m') := by
    induction commits generalizing m m' with
    | nil => exact h
    | cons c commits ih =>
        rw [List.foldl_cons, List.filter_cons]
        split
        · next hSound =>
            rw [List.map_cons, List.foldl_cons]
            refine ih _ _ fun path => ?_
            rw [lookup_commit hSound, lookup_commit (isSound_about hSound root), last?_about, h path]
            rfl
        · next hSound =>
            refine ih _ _ ?_
            rwa [commit, if_neg hSound]
  exact hFold ∅ ∅ fun _ => rfl

end FileMap

/-! ### Agreement -/

/-- The root and the path of a row. -/
def Row.key (r : Row) : String × String := (r.root, r.path)

/-- The row keeps what is known about a file. -/
structure Row.Keeps (r : Row) (x : Particulars) : Prop where
  checksum : r.checksum = x.checksum
  lastModified : x.lastModified.toSeconds = .ok r.lastModified
  lastIndexed : x.lastIndexed.toSeconds = .ok r.lastIndexed

theorem Row.Keeps.restored {r : Row} {x : Particulars} (h : r.Keeps x) :
    r.toAcknowledged = x.restored r.path := by
  simp only [toAcknowledged, Particulars.restored, DateTime.restored, h.lastModified, h.lastIndexed,
    h.checksum]
  rfl

namespace Store

/-- The crawl state has a row for each entry of the map, no other rows, and none twice. -/
structure Holds (s : Store) (m : FileMap) : Prop where
  keyed : s.IsKeyed
  entry : ∀ root path, Option.Rel Row.Keeps (s.find? root path) (m.lookup (root, path))

theorem holds_empty : empty.Holds ∅ where
  keyed := isKeyed_empty
  entry _ _ := by rw [Finmap.lookup_empty]; exact .none

variable {s t : Store} {m : FileMap} {now : DateTime} {seconds : Float} {u : StateUpdate}

/-- The time that an update writes, and its seconds. -/
theorem modified_ok {x : Float} (h : modified u = .ok x) :
    ∃ d, u.lastModified = some d ∧ d.toSeconds = .ok x := by
  unfold modified at h
  cases hTime : u.lastModified with
  | none =>
      rw [hTime] at h
      cases h
  | some d =>
      refine ⟨d, rfl, ?_⟩
      cases hSeconds : d.toSeconds with
      | error e =>
          simp only [hTime, hSeconds] at h
          cases h
      | ok y =>
          simp only [hTime, hSeconds] at h
          cases h
          rfl

theorem apply_isOk (s : Store) (seconds : Float) (u : StateUpdate) :
    (Store.apply seconds s u).isOk = u.isSound := by
  unfold Store.apply StateUpdate.isSound
  cases u.remove with
  | true => rfl
  | false =>
      unfold modified
      cases u.lastModified with
      | none => rfl
      | some d =>
          simp only [Option.any_some, DateTime.hasSeconds]
          cases d.toSeconds <;> rfl

/-- An update that is applied leaves the row of what is known then. -/
theorem keeps_of_apply (hNow : now.toSeconds = .ok seconds)
    (hApply : Store.apply seconds s u = .ok t) :
    Option.Rel Row.Keeps (t.find? u.root u.path) (u.entry now) := by
  rw [find?_apply hApply, if_pos ⟨rfl, rfl⟩, StateUpdate.entry]
  unfold Store.apply at hApply
  split
  · exact .none
  · next hKept =>
      rw [if_neg hKept] at hApply
      cases hModified : modified u with
      | error f =>
          rw [hModified] at hApply
          cases hApply
      | ok x =>
          obtain ⟨d, hTime, hSeconds⟩ := modified_ok hModified
          rw [hTime]
          exact .some ⟨rfl, hSeconds, hNow⟩

/-- An update does to the crawl state what it does to the map. -/
theorem Holds.apply (h : s.Holds m) (hNow : now.toSeconds = .ok seconds)
    (hApply : Store.apply seconds s u = .ok t) : t.Holds (m.apply now u) := by
  have hSound : u.isSound = true := by rw [← s.apply_isOk seconds, hApply]; rfl
  refine ⟨h.keyed.apply hApply, fun root path => ?_⟩
  rw [FileMap.lookup_apply hSound]
  split
  · next hKey =>
      obtain ⟨rfl, rfl⟩ := hKey
      exact keeps_of_apply hNow hApply
  · next hKey =>
      rw [find?_apply hApply, if_neg hKey]
      exact h.entry root path

theorem Holds.foldlM (h : s.Holds m) (hNow : now.toSeconds = .ok seconds)
    {updates : List StateUpdate} (hAll : updates.foldlM (Store.apply seconds) s = .ok t) :
    t.Holds (updates.foldl (FileMap.apply now) m) := by
  induction updates generalizing s m with
  | nil =>
      cases hAll
      exact h
  | cons u updates ih =>
      rw [List.foldlM_cons] at hAll
      cases hApply : Store.apply seconds s u with
      | error f =>
          rw [hApply] at hAll
          cases hAll
      | ok t' =>
          rw [hApply] at hAll
          exact ih (h.apply hNow hApply) hAll

/-! ### Which commits succeed -/

theorem foldlM_isOk (s : Store) (seconds : Float) (updates : List StateUpdate) :
    (updates.foldlM (Store.apply seconds) s).isOk = updates.all StateUpdate.isSound := by
  induction updates generalizing s with
  | nil => rfl
  | cons u updates ih =>
      rw [List.foldlM_cons, List.all_cons, ← apply_isOk s seconds u]
      cases Store.apply seconds s u with
      | error f => rfl
      | ok t => exact ih t

/-- A commit succeeds exactly if it is sound, whatever the crawl state is. -/
theorem commit_isOk (s : Store) (c : Commit) : (s.commit c.now c.updates).isOk = c.isSound := by
  rw [Commit.isSound, DateTime.hasSeconds]
  cases hNow : c.now.toSeconds with
  | error e =>
      rw [Store.commit, hNow]
      rfl
  | ok seconds =>
      rw [commit_ok hNow, foldlM_isOk]
      rfl

theorem Holds.commit (h : s.Holds m) {c : Commit} (hCommit : s.commit c.now c.updates = .ok t) :
    t.Holds (m.commit c) := by
  have hSound : c.isSound = true := by rw [← s.commit_isOk, hCommit]; rfl
  obtain ⟨seconds, hNow⟩ : ∃ seconds, c.now.toSeconds = .ok seconds := by
    cases hNow : c.now.toSeconds with
    | error e =>
        rw [Store.commit, hNow] at hCommit
        cases hCommit
    | ok seconds => exact ⟨seconds, rfl⟩
  rw [commit_ok hNow] at hCommit
  rw [FileMap.commit, if_pos hSound]
  exact h.foldlM hNow hCommit

/-! ### Reading -/

theorem IsKeyed.find?_of_mem (h : s.IsKeyed) {r : Row} (hr : r ∈ s.rows) :
    s.find? r.root r.path = some r := by
  cases hRow : s.find? r.root r.path with
  | none => exact absurd (hasKey_iff.mpr ⟨rfl, rfl⟩) (List.find?_eq_none.mp hRow r hr)
  | some q =>
      obtain ⟨hRoot, hPath⟩ := find?_key hRow
      have hq : q ∈ s.rows := List.mem_of_find?_eq_some hRow
      rw [List.inj_on_of_nodup_map h hq hr (Prod.ext hRoot hPath)]

theorem Holds.get (h : s.Holds m) (root path : String) : s.get root path = m.get root path := by
  have hEntry := h.entry root path
  rw [Store.get, FileMap.get]
  cases hRow : s.find? root path with
  | none =>
      rw [hRow] at hEntry
      cases hEntry' : m.lookup (root, path) with
      | none => rfl
      | some x => simp [hEntry'] at hEntry
  | some r =>
      rw [hRow] at hEntry
      cases hEntry' : m.lookup (root, path) with
      | none => simp [hEntry'] at hEntry
      | some x =>
          rw [hEntry', Option.rel_some_some] at hEntry
          have hPath : r.path = path := (find?_key hRow).2
          dsimp only
          rw [hEntry.restored, hPath]

theorem Holds.mem_keys (h : s.Holds m) (k : String × String) :
    k ∈ m.keys ↔ k ∈ s.rows.map Row.key := by
  obtain ⟨root, path⟩ := k
  have hEntry := h.entry root path
  rw [Finmap.mem_keys, ← Finmap.lookup_isSome, List.mem_map]
  have hSome : (m.lookup (root, path)).isSome = (s.find? root path).isSome := by
    generalize s.find? root path = row, m.lookup (root, path) = x at hEntry
    cases hEntry <;> rfl
  rw [hSome, find?, List.find?_isSome]
  simp only [hasKey_iff, Row.key, Prod.mk.injEq]

theorem Holds.size (h : s.Holds m) : s.size = m.keys.card := by
  have hKeys : (s.rows.map Row.key).toFinset = m.keys := by
    ext k
    rw [List.mem_toFinset, h.mem_keys]
  have hKeyed : (s.rows.map Row.key).Nodup := h.keyed
  rw [← hKeys, List.toFinset_card_of_nodup hKeyed, List.length_map, Store.size]

/-- The rows of a root. -/
def rowsOf (s : Store) (root : String) : List Row := s.rows.filter (·.root = root)

theorem Holds.mem_keysOf (h : s.Holds m) {root : String} (k : String × String) :
    k ∈ m.keysOf root ↔ k ∈ (s.rowsOf root).map Row.key := by
  rw [FileMap.keysOf, Finset.mem_filter, h.mem_keys, List.mem_map, List.mem_map]
  simp only [rowsOf, List.mem_filter, decide_eq_true_eq]
  constructor
  · rintro ⟨⟨r, hr, rfl⟩, hRoot⟩
    exact ⟨r, ⟨hr, hRoot⟩, rfl⟩
  · rintro ⟨r, ⟨hr, hRoot⟩, rfl⟩
    exact ⟨⟨r, hr, rfl⟩, hRoot⟩

theorem Holds.keys_rowsOf (h : s.Holds m) (root : String) : ((s.rowsOf root).map Row.key).Nodup :=
  List.Nodup.sublist (List.filter_sublist.map Row.key) h.keyed

theorem Holds.sizeOf (h : s.Holds m) (root : String) : s.sizeOf root = (m.keysOf root).card := by
  have hKeys : ((s.rowsOf root).map Row.key).toFinset = m.keysOf root := by
    ext k
    rw [List.mem_toFinset, h.mem_keysOf]
  rw [← hKeys, List.toFinset_card_of_nodup (h.keys_rowsOf root), List.length_map]
  rfl

/-- The rows of a root are told apart by their paths. -/
theorem Holds.paths_nodup (h : s.Holds m) (root : String) :
    ((s.rowsOf root).map (·.path)).Nodup := by
  have hKeys : (s.rowsOf root).map Row.key = ((s.rowsOf root).map (·.path)).map (Prod.mk root) := by
    rw [List.map_map]
    refine List.map_congr_left fun r hr => ?_
    rw [Row.key, of_decide_eq_true (List.mem_filter.mp hr).2]
    rfl
  exact List.Nodup.of_map _ (hKeys ▸ h.keys_rowsOf root)

theorem Holds.paths (h : s.Holds m) (root : String) :
    ((s.rowsOf root).mergeSort fun a b => a.path ≤ b.path).map (·.path) = m.paths root := by
  have hSame : (((s.rowsOf root).mergeSort fun a b => a.path ≤ b.path).map (·.path)).Perm
      (m.paths root) := by
    refine ((List.mergeSort_perm _ _).map _).trans (.trans ?_ (List.mergeSort_perm _ _).symm)
    refine (List.perm_ext_iff_of_nodup (h.paths_nodup root) (Finset.nodup_toList _)).mpr fun p => ?_
    rw [Finset.mem_toList, Finset.mem_image]
    simp only [h.mem_keysOf, List.mem_map]
    exact ⟨fun ⟨r, hr, hPath⟩ => ⟨r.key, ⟨r, hr, rfl⟩, hPath⟩,
      fun ⟨_, ⟨r, hr, hKey⟩, hPath⟩ => ⟨r, hr, by rw [← hPath, ← hKey]; rfl⟩⟩
  refine hSame.eq_of_pairwise (fun _ _ _ _ => String.le_antisymm) ?_ ?_
  · exact List.pairwise_map.mpr (pairwise_mergeSort_text Row.path _)
  · exact pairwise_mergeSort_text id _

/-- Entries that are all there are read one by one. -/
theorem mapM_reduceOption {α β ε : Type} {f : α → Except ε (Option β)} {g : α → Except ε β}
    {l : List α} (h : ∀ a ∈ l, f a = (g a).map some) :
    (l.mapM f).map List.reduceOption = l.mapM g := by
  induction l with
  | nil => rfl
  | cons a l ih =>
      have hRest := ih fun b hb => h b (List.mem_cons_of_mem a hb)
      rw [List.mapM_cons, List.mapM_cons, h a List.mem_cons_self, ← hRest]
      cases g a with
      | error e => rfl
      | ok b => cases l.mapM f <;> rfl

theorem Holds.load (h : s.Holds m) (root : String) : s.load root = m.load root := by
  rw [FileMap.load, ← h.paths root, List.mapM_map, mapM_reduceOption (g := Row.toAcknowledged)]
  · rfl
  · intro r hr
    have hRow : r ∈ s.rowsOf root := List.mem_mergeSort.mp hr
    obtain ⟨hIn, hRoot⟩ := List.mem_filter.mp hRow
    have hFound : s.find? root r.path = some r := of_decide_eq_true hRoot ▸ h.keyed.find?_of_mem hIn
    rw [Function.comp_apply, ← h.get, Store.get, hFound]

end Store

/-! ### Histories -/

namespace Database

variable {s : Store} {m : FileMap}

theorem commit_sound {c : Commit} (h : c.isSound = true) :
    ∃ t, commit ⟨s, none⟩ c.now c.updates = (⟨t, none⟩, .ok c.updates.length) ∧
      s.commit c.now c.updates = .ok t := by
  have hOk := s.commit_isOk c
  rw [commit_eq]
  cases hCommit : s.commit c.now c.updates with
  | ok t => exact ⟨t, rfl, rfl⟩
  | error f =>
      rw [hCommit, h] at hOk
      cases hOk

theorem commit_unsound {c : Commit} (h : c.isSound = false) :
    ∃ f, commit ⟨s, none⟩ c.now c.updates = (⟨s, none⟩, .error f) := by
  have hOk := s.commit_isOk c
  rw [commit_eq]
  cases hCommit : s.commit c.now c.updates with
  | ok t =>
      rw [hCommit, h] at hOk
      cases hOk
  | error f => exact ⟨f, rfl⟩

/-- Between two commits no transaction is open, and the table holds what the map says. -/
theorem after_holds (h : s.Holds m) (commits : List Commit) :
    ∃ t, after ⟨s, none⟩ commits = ⟨t, none⟩ ∧ t.Holds (commits.foldl FileMap.commit m) := by
  induction commits generalizing s m with
  | nil => exact ⟨s, rfl, h⟩
  | cons c commits ih =>
      rw [after, List.foldl_cons, List.foldl_cons]
      cases hSound : c.isSound with
      | true =>
          obtain ⟨t, hAfter, hCommit⟩ := @commit_sound s c hSound
          rw [hAfter]
          exact ih (h.commit hCommit)
      | false =>
          obtain ⟨f, hAfter⟩ := @commit_unsound s c hSound
          rw [hAfter, FileMap.commit, if_neg (by simp [hSound])]
          exact ih h

/-- What is read from the table is what the map says. -/
structure ReadsAs (d : Database) (m : FileMap) : Prop where
  get : ∀ root path, d.store.get root path = m.get root path
  load : ∀ root, d.store.load root = m.load root
  size : d.store.size = m.keys.card
  sizeOf : ∀ root, d.store.sizeOf root = (m.keysOf root).card

/-- **The crawl state is a finite map, and a commit changes it as a whole.** After any history of
commits, what is read is what the map says that the sound commits make, in which the last update of a
file decides. A sound commit succeeds and tells the number of its updates. Any other fails and leaves
the database as it was, whatever it had written before. What is read for a root depends on the updates
of that root alone. -/
theorem commits_keep_a_map (commits : List Commit) :
    (empty.after commits).ReadsAs (.ofCommits commits) ∧
    (∀ c : Commit, c.isSound = true →
      ((empty.after commits).commit c.now c.updates).2 = .ok c.updates.length ∧
      ((empty.after commits).commit c.now c.updates).1.ReadsAs (.ofCommits (commits ++ [c])) ∧
      ∀ root path, (FileMap.ofCommits (commits ++ [c])).lookup (root, path) =
        match c.last? root path with
        | some u => u.entry c.now
        | none => (FileMap.ofCommits commits).lookup (root, path)) ∧
    (∀ c : Commit, c.isSound = false →
      ∃ f, (empty.after commits).commit c.now c.updates = (empty.after commits, .error f)) ∧
    ∀ root, let own := (commits.filter Commit.isSound).map (Commit.about root)
      (empty.after commits).store.get root = (empty.after own).store.get root ∧
      (empty.after commits).store.load root = (empty.after own).store.load root ∧
      (empty.after commits).store.sizeOf root = (empty.after own).store.sizeOf root := by
  have hReads (history : List Commit) : (empty.after history).ReadsAs (.ofCommits history) := by
    obtain ⟨t, hAfter, hHolds⟩ := after_holds Store.holds_empty history
    rw [empty, hAfter]
    exact ⟨hHolds.get, hHolds.load, hHolds.size, hHolds.sizeOf⟩
  obtain ⟨t, hAfter, _⟩ := after_holds Store.holds_empty commits
  refine ⟨hReads commits, fun c hSound => ⟨?_, ?_, fun root path => ?_⟩, fun c hSound => ?_,
    fun root => ?_⟩
  · obtain ⟨_, hCommit, _⟩ := @commit_sound t c hSound
    rw [empty, hAfter, hCommit]
  · have hNext := hReads (commits ++ [c])
    rwa [after, List.foldl_append] at hNext
  · rw [FileMap.ofCommits, List.foldl_append]
    exact FileMap.lookup_commit hSound root path
  · obtain ⟨f, hCommit⟩ := @commit_unsound t c hSound
    exact ⟨f, by rw [empty, hAfter, hCommit]⟩
  · intro own
    have hAlike := FileMap.alike_ofCommits root commits
    have hAll := hReads commits
    have hOwn := hReads own
    refine ⟨funext fun path => ?_, ?_, ?_⟩
    · rw [hAll.get, hOwn.get, hAlike.get]
    · rw [hAll.load, hOwn.load, hAlike.load]
    · rw [hAll.sizeOf, hOwn.sizeOf, hAlike.keysOf]

end Database
end Indexer
