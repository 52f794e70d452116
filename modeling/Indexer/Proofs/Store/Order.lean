import Indexer.Proofs.Delivery.Receipts

/-! The order of acknowledgements. Updates of different files commute, so what is
on record after a number of acknowledgements for different files does not depend
on the order in which they came. -/
namespace Indexer

/-- The entry of the crawl state that an update is about. -/
def StateUpdate.key (u : StateUpdate) : String × String := (u.root, u.path)

/-- The operations have to do with different entries, if with any. -/
def Operation.Apart (op other : Operation) : Prop :=
  ∀ u v, op.update = some u → other.update = some v → u.key ≠ v.key

theorem Operation.apart_symm {op other : Operation} (h : op.Apart other) : other.Apart op :=
  fun u v hu hv hKey => h v u hv hu hKey.symm

theorem Operation.pairwise_apart {ops : List Operation}
    (h : ((ops.filterMap (·.update)).map StateUpdate.key).Nodup) :
    ops.Pairwise Operation.Apart := by
  rw [List.Nodup, List.pairwise_map, List.pairwise_filterMap] at h
  refine h.imp ?_
  intro op other hKeys u v hu hv
  exact hKeys u hu v hv

theorem filterMap_update_contents (ops : List Operation) :
    (contents ops).filterMap (·.update) = (ops.filterMap (·.update) : List StateUpdate) := by
  rw [contents, Multiset.map_coe, Multiset.filterMap_coe, List.filterMap_map]
  rfl

/-- Operations that are among others with different entries have different entries. -/
theorem Operation.pairwise_apart_of_contents {ops added : List Operation}
    (h : contents ops ≤ contents added)
    (hKeys : ((added.filterMap (·.update)).map StateUpdate.key).Nodup) :
    (ops.map Operation.content).Pairwise Operation.Apart := by
  have hSame : (ops.map Operation.content).filterMap (·.update) = ops.filterMap (·.update) := by
    rw [List.filterMap_map]
    rfl
  apply Operation.pairwise_apart
  rw [hSame]
  have hLe := Multiset.map_le_map (f := StateUpdate.key)
    (Multiset.filterMap_le_filterMap (fun op : Operation => op.update) h)
  rw [filterMap_update_contents, filterMap_update_contents, Multiset.map_coe, Multiset.map_coe] at hLe
  exact Multiset.coe_nodup.mp (Multiset.nodup_of_le hLe (Multiset.coe_nodup.mpr hKeys))

namespace Store

/-- An acknowledgement is recorded alike for all copies of an operation. -/
theorem foldlM_record_contents (s : Store) (now : DateTime) (ops : List Operation) :
    ((ops.map Operation.content).map (Receipt.mk now)).foldlM record s =
      (ops.map (Receipt.mk now)).foldlM record s := by
  rw [List.map_map, List.foldlM_map, List.foldlM_map]
  rfl

/-- Two stores say the same: they have the same rows, whatever the order, and the same entry for each
file. -/
structure Same (s t : Store) : Prop where
  rows : s.rows.Perm t.rows
  entry : ∀ root path, s.find? root path = t.find? root path

theorem Same.refl (s : Store) : s.Same s := ⟨List.Perm.refl _, fun _ _ => rfl⟩

theorem Same.trans {s t u : Store} (h : s.Same t) (hNext : t.Same u) : s.Same u :=
  ⟨h.rows.trans hNext.rows, fun root path => (h.entry root path).trans (hNext.entry root path)⟩

/-- The modification time that an update writes; none if it removes its entry. -/
def kept (u : StateUpdate) : Except Fault (Option Float) :=
  if u.remove then .ok none else (modified u).map some

/-- Writes the row of an update, or removes its entry. -/
def write (now : Float) (s : Store) (u : StateUpdate) : Option Float → Store
  | none => s.erase u.root u.path
  | some m => s.put (rowOf now m u)

/-- What an update writes does not depend on the store. -/
theorem apply_ok {now : Float} {s t : Store} {u : StateUpdate} (h : apply now s u = .ok t) :
    ∃ m, kept u = .ok m ∧ t = s.write now u m := by
  unfold apply at h
  unfold kept
  split at h
  · next hRemove =>
      cases h
      exact ⟨none, if_pos hRemove, rfl⟩
  · next hKept =>
      cases hModified : modified u with
      | error f => simp [hModified, Except.map] at h
      | ok m =>
          simp only [hModified, Except.map, Except.ok.injEq] at h
          exact ⟨some m, if_neg hKept, h.symm⟩

theorem Same.write {s t : Store} (h : s.Same t) (now : Float) (u : StateUpdate) (m : Option Float) :
    (s.write now u m).rows.Perm (t.write now u m).rows := by
  cases m with
  | none => exact h.rows.filter _
  | some m =>
      simp only [Store.write, put, h.entry]
      split
      · exact h.rows.map _
      · exact h.rows.append_right _

theorem Same.apply {now : Float} {s s' t t' : Store} {u : StateUpdate} (h : s.Same s')
    (hLeft : apply now s u = .ok t) (hRight : Store.apply now s' u = .ok t') : t.Same t' := by
  refine ⟨?_, fun root path => ?_⟩
  · obtain ⟨m, hKept, rfl⟩ := apply_ok hLeft
    obtain ⟨n, hAlso, rfl⟩ := apply_ok hRight
    obtain rfl : m = n := Except.ok.inj (hKept.symm.trans hAlso)
    exact h.write now u m
  · rw [find?_apply hLeft, find?_apply hRight, h.entry]

section
variable {q r : Row} {root path : String}

/-- A row that is written in the place of another keeps its key. -/
theorem hasKey_replace (p : Row) :
    (if p.hasKey r.root r.path then r else p).hasKey root path = p.hasKey root path := by
  by_cases hKey : p.hasKey r.root r.path = true
  · obtain ⟨hRoot, hPath⟩ := hasKey_iff.mp hKey
    simp [Row.hasKey, hRoot, hPath]
  · rw [if_neg hKey]

theorem erase_put (s : Store) (h : ¬(r.root = root ∧ r.path = path)) :
    (s.put r).erase root path = (s.erase root path).put r := by
  have hOther : r.hasKey root path = false := hasKey_eq_false_iff.mpr h
  have hFound : (s.erase root path).find? r.root r.path = s.find? r.root r.path := by
    rw [find?_erase, if_neg h]
  unfold put
  rw [hFound]
  split
  · simp only [erase, List.filter_map, Store.mk.injEq]
    congr 1
    refine List.filter_congr fun p _ => ?_
    simp only [Function.comp_apply, hasKey_replace]
  · simp [erase, hOther]

theorem erase_erase (s : Store) (r p r' p' : String) :
    (s.erase r p).erase r' p' = (s.erase r' p').erase r p := by
  simp only [erase, List.filter_filter, Store.mk.injEq]
  exact List.filter_congr fun q _ => Bool.and_comm _ _

/-- Rows with different keys can be written in either order. -/
theorem put_put (s : Store) (h : ¬(q.root = r.root ∧ q.path = r.path)) :
    ((s.put q).put r).rows.Perm ((s.put r).put q).rows := by
  have hBack : ¬(r.root = q.root ∧ r.path = q.path) := fun hKey => h ⟨hKey.1.symm, hKey.2.symm⟩
  have hLeft : (s.put q).find? r.root r.path = s.find? r.root r.path := by
    rw [find?_put, if_neg hBack]
  have hRight : (s.put r).find? q.root q.path = s.find? q.root q.path := by
    rw [find?_put, if_neg h]
  have hOther : q.hasKey r.root r.path = false := hasKey_eq_false_iff.mpr h
  have hOtherBack : r.hasKey q.root q.path = false := hasKey_eq_false_iff.mpr hBack
  rw [put, hLeft, put.eq_1 (s.put r) q, hRight]
  unfold put
  cases hq : (s.find? q.root q.path).isSome <;> cases hr : (s.find? r.root r.path).isSome
  · simp only [Bool.false_eq_true, if_false, List.append_assoc]
    exact (List.Perm.swap r q []).append_left s.rows
  · simp [hOther]
  · simp [hOtherBack]
  · simp only [if_true, List.map_map]
    refine List.Perm.of_eq (List.map_congr_left fun p _ => ?_)
    simp only [Function.comp_apply]
    by_cases hKey : p.hasKey q.root q.path = true
    · have hNot : p.hasKey r.root r.path = false := by
        obtain ⟨hRoot, hPath⟩ := hasKey_iff.mp hKey
        rw [hasKey_eq_false_iff, hRoot, hPath]
        exact h
      simp [hKey, hNot, hOther]
    · by_cases hKey' : p.hasKey r.root r.path = true
      · simp [hKey, hKey', hOtherBack]
      · simp [hKey, hKey']

end

theorem write_write (s : Store) (now : Float) {u v : StateUpdate} (hKeys : u.key ≠ v.key)
    (m n : Option Float) :
    ((s.write now u m).write now v n).rows.Perm ((s.write now v n).write now u m).rows := by
  have hApart : ¬(u.root = v.root ∧ u.path = v.path) := fun h => hKeys (Prod.ext h.1 h.2)
  have hBack : ¬(v.root = u.root ∧ v.path = u.path) := fun h => hApart ⟨h.1.symm, h.2.symm⟩
  cases m with
  | none =>
      cases n with
      | none => exact .of_eq (congrArg rows (s.erase_erase _ _ _ _))
      | some n => exact .of_eq (congrArg rows (s.erase_put hBack).symm)
  | some m =>
      cases n with
      | none => exact .of_eq (congrArg rows (s.erase_put hApart))
      | some n => exact s.put_put hApart

/-- Updates of different files can be applied in either order. -/
theorem apply_comm {now : Float} {s a b c d : Store} {u v : StateUpdate} (hKeys : u.key ≠ v.key)
    (hu : apply now s u = .ok a) (huv : apply now a v = .ok b) (hv : apply now s v = .ok c)
    (hvu : apply now c u = .ok d) : b.Same d := by
  refine ⟨?_, fun root path => ?_⟩
  · obtain ⟨m, hKept, rfl⟩ := apply_ok hu
    obtain ⟨n, hOther, rfl⟩ := apply_ok huv
    obtain ⟨n', hOther', rfl⟩ := apply_ok hv
    obtain ⟨m', hKept', rfl⟩ := apply_ok hvu
    obtain rfl : n = n' := Except.ok.inj (hOther.symm.trans hOther')
    obtain rfl : m = m' := Except.ok.inj (hKept.symm.trans hKept')
    exact s.write_write now hKeys m n
  · rw [find?_apply huv, find?_apply hu, find?_apply hvu, find?_apply hv]
    by_cases hLast : root = v.root ∧ path = v.path
    · have hFirst : ¬(root = u.root ∧ path = u.path) := by
        rintro ⟨hRoot, hPath⟩
        exact hKeys (Prod.ext (hRoot.symm.trans hLast.1) (hPath.symm.trans hLast.2))
      rw [if_pos hLast, if_neg hFirst, if_pos hLast]
    · rw [if_neg hLast, if_neg hLast]

theorem toSeconds_of_commit {s t : Store} {now : DateTime} {updates : List StateUpdate}
    (h : s.commit now updates = .ok t) : ∃ seconds, now.toSeconds = .ok seconds := by
  cases hNow : now.toSeconds with
  | error f =>
      rw [commit, hNow] at h
      cases h
  | ok seconds => exact ⟨seconds, rfl⟩

/-- Recording an acknowledgement respects that stores say the same. -/
theorem Same.record {s s' t t' : Store} {r : Receipt} (h : s.Same s') (hLeft : s.record r = .ok t)
    (hRight : s'.record r = .ok t') : t.Same t' := by
  unfold Store.record at hLeft hRight
  cases hUpdate : r.op.update with
  | none =>
      simp only [hUpdate, Except.ok.injEq] at hLeft hRight
      exact hLeft ▸ hRight ▸ h
  | some u =>
      simp only [hUpdate] at hLeft hRight
      obtain ⟨seconds, hNow⟩ := toSeconds_of_commit hLeft
      rw [commit_single hNow] at hLeft hRight
      exact h.apply hLeft hRight

/-- Acknowledgements for different files can be recorded in either order. -/
theorem record_comm {s a b c d : Store} {now : DateTime} {op other : Operation}
    (hApart : op.Apart other) (h : s.record ⟨now, op⟩ = .ok a) (hThen : a.record ⟨now, other⟩ = .ok b)
    (hOther : s.record ⟨now, other⟩ = .ok c) (hThenOp : c.record ⟨now, op⟩ = .ok d) : b.Same d := by
  unfold record at h hThen hOther hThenOp
  cases hu : op.update with
  | none =>
      simp only [hu, Except.ok.injEq] at h hThenOp
      subst h hThenOp
      rw [Except.ok.inj (hThen.symm.trans hOther)]
      exact Same.refl c
  | some u =>
      cases hv : other.update with
      | none =>
          simp only [hv, Except.ok.injEq] at hThen hOther
          subst hThen hOther
          rw [Except.ok.inj (h.symm.trans hThenOp)]
          exact Same.refl d
      | some v =>
          simp only [hu, hv] at h hThen hOther hThenOp
          obtain ⟨seconds, hNow⟩ := toSeconds_of_commit h
          rw [commit_single hNow] at h hThen hOther hThenOp
          exact apply_comm (hApart u v hu hv) h hThen hOther hThenOp

theorem Same.foldlM_record {s s' t t' : Store} (h : s.Same s') {receipts : List Receipt}
    (hLeft : receipts.foldlM Store.record s = .ok t)
    (hRight : receipts.foldlM Store.record s' = .ok t') : t.Same t' := by
  induction receipts generalizing s s' with
  | nil =>
      cases hLeft
      cases hRight
      exact h
  | cons r receipts ih =>
      rw [List.foldlM_cons] at hLeft hRight
      cases ha : s.record r with
      | error f =>
          rw [ha] at hLeft
          cases hLeft
      | ok a =>
          cases hb : s'.record r with
          | error f =>
              rw [hb] at hRight
              cases hRight
          | ok b =>
              rw [ha] at hLeft
              rw [hb] at hRight
              exact ih (h.record ha hb) hLeft hRight

/-- What is on record after acknowledgements for different files is the same in whatever order they
came. -/
theorem same_of_perm {now : DateTime} (hNow : now.IsReading) {ops more : List Operation}
    (hPerm : ops.Perm more) (hApart : ops.Pairwise Operation.Apart)
    (hWritable : ∀ op ∈ ops, op.Writable) {s t t' : Store}
    (hLeft : (ops.map (Receipt.mk now)).foldlM Store.record s = .ok t)
    (hRight : (more.map (Receipt.mk now)).foldlM Store.record s = .ok t') : t.Same t' := by
  have hSound {op : Operation} (hOp : op.Writable) : (Receipt.mk now op).Sound := ⟨hNow, hOp⟩
  induction hPerm generalizing s t t' with
  | nil =>
      cases hLeft
      cases hRight
      exact Same.refl s
  | @cons op ops more hPerm ih =>
      obtain ⟨a, ha⟩ := s.record_sound (hSound (hWritable op List.mem_cons_self))
      rw [List.map_cons, List.foldlM_cons, ha] at hLeft hRight
      have hRest : ∀ other ∈ ops, other.Writable :=
        fun other hOther => hWritable other (List.mem_cons_of_mem op hOther)
      exact ih (List.Pairwise.of_cons hApart) hRest hLeft hRight
  | swap op other ops =>
      have hOp := hSound (hWritable op (by simp))
      have hOther := hSound (hWritable other (by simp))
      obtain ⟨a, ha⟩ := s.record_sound hOther
      obtain ⟨b, hb⟩ := a.record_sound hOp
      obtain ⟨c, hc⟩ := s.record_sound hOp
      obtain ⟨d, hd⟩ := c.record_sound hOther
      have hFirst : other.Apart op := List.rel_of_pairwise_cons hApart List.mem_cons_self
      simp only [List.map_cons, List.foldlM_cons, ha, hc] at hLeft hRight
      replace hLeft : (a.record ⟨now, op⟩ >>= fun s => (ops.map (Receipt.mk now)).foldlM record s) =
        .ok t := hLeft
      replace hRight :
        (c.record ⟨now, other⟩ >>= fun s => (ops.map (Receipt.mk now)).foldlM record s) = .ok t' :=
        hRight
      rw [hb] at hLeft
      rw [hd] at hRight
      exact (record_comm hFirst ha hb hc hd).foldlM_record hLeft hRight
  | @trans ops between more hFirst hSecond ihFirst ihSecond =>
      have hBetween : between.Pairwise Operation.Apart :=
        (hFirst.pairwise_iff fun hApart => Operation.apart_symm hApart).mp hApart
      have hWritableBetween : ∀ op ∈ between, op.Writable :=
        fun op hOp => hWritable op (hFirst.mem_iff.mpr hOp)
      have hSoundBetween : ∀ r ∈ between.map (Receipt.mk now), r.Sound := by
        intro r hr
        obtain ⟨op, hOp, rfl⟩ := List.mem_map.mp hr
        exact hSound (hWritableBetween op hOp)
      obtain ⟨u, hu⟩ := s.foldlM_record_sound hSoundBetween
      exact (ihFirst hApart hWritable hLeft hu).trans (ihSecond hBetween hWritableBetween hu hRight)

end Store
end Indexer
