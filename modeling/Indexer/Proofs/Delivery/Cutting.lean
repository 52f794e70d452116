import Indexer.Delivery.Buffer

/-! Cutting batches from a buffer. Whatever is cut and whatever stays, the
operations keep their order and none of them is lost or doubled. -/
namespace Indexer.Buffer

theorem takeFitting_append (limit : Quantity) (size : Nat) (groups : List Batch) :
    (takeFitting limit size groups).1 ++ (takeFitting limit size groups).2 = groups := by
  induction groups generalizing size with
  | nil => rfl
  | cons group rest ih =>
      simp only [takeFitting]
      split
      · rfl
      · exact congrArg (group :: ·) (ih _)

/-- There is nothing to cut exactly in an empty buffer. -/
theorem cut_eq_none_iff {limit : Quantity} {b : Buffer} : b.cut limit = none ↔ b.groups = [] := by
  unfold cut
  split <;> simp_all

/-- What is taken next to some operations fits there. -/
theorem fits_takeFitting (limit : Quantity) (size : Nat) (groups : List Batch) :
    (takeFitting limit size groups).1 = [] ∨
      limit.isBelow (size + (takeFitting limit size groups).1.flatten.length : Nat) = false := by
  induction groups generalizing size with
  | nil => exact .inl rfl
  | cons group rest ih =>
      simp only [takeFitting]
      split
      · exact .inl rfl
      · next hFits =>
          right
          rw [List.flatten_cons, List.length_append, ← Nat.add_assoc]
          rcases ih (size + group.length) with hNone | hMore
          · rw [hNone]
            simpa using hFits
          · exact hMore

/-- A batch is made of the groups in front. It is larger than the limit only if it is a single
group. -/
theorem groups_of_cut {limit : Quantity} {b rest : Buffer} {batch : Batch}
    (h : b.cut limit = some (batch, rest)) :
    ∃ taken, taken ≠ [] ∧ b.groups = taken ++ rest.groups ∧ batch = taken.flatten ∧
      (limit.isBelow batch.length = true → ∃ group, taken = [group]) := by
  unfold cut at h
  split at h
  · cases h
  · next group groups hGroups =>
      simp only [Option.some.injEq, Prod.mk.injEq] at h
      obtain ⟨rfl, rfl⟩ := h
      refine ⟨group :: (takeFitting limit group.length groups).1, by simp, ?_, rfl, fun hLarge => ?_⟩
      · rw [hGroups, List.cons_append, takeFitting_append]
      · rcases fits_takeFitting limit group.length groups with hNone | hFits
        · exact ⟨group, by rw [hNone]⟩
        · rw [List.flatten_cons, List.length_append, hFits] at hLarge
          cases hLarge

/-- Groups that are not empty hold something together. -/
theorem flatten_ne_nil {groups : List Batch} (hFilled : ∀ group ∈ groups, group ≠ [])
    (hSome : groups ≠ []) : groups.flatten ≠ [] := by
  obtain ⟨group, hGroup⟩ := List.exists_mem_of_ne_nil groups hSome
  exact fun hNil => hFilled group hGroup (List.flatten_eq_nil_iff.mp hNil group hGroup)

/-- Cutting again and again comes to an end, since each batch takes groups away. -/
theorem cut_induction (limit : Quantity) {motive : Buffer → Prop}
    (empty : ∀ b, b.cut limit = none → motive b)
    (more : ∀ b batch rest, b.cut limit = some (batch, rest) → motive rest → motive b)
    (b : Buffer) : motive b := by
  induction hLength : b.groups.length using Nat.strongRecOn generalizing b with
  | ind n ih =>
      cases hCut : b.cut limit with
      | none => exact empty b hCut
      | some cut =>
          have hLess : cut.2.groups.length < n := hLength ▸ length_cut hCut
          exact more b cut.1 cut.2 hCut (ih _ hLess cut.2 rfl)

theorem cutAll_of_cut {limit : Quantity} {b rest : Buffer} {batch : Batch}
    (h : b.cut limit = some (batch, rest)) :
    b.cutAll limit = (batch :: (rest.cutAll limit).1, (rest.cutAll limit).2) := by
  rw [cutAll]
  split
  · next hNone => simp [h] at hNone
  · next hSome =>
      rw [h] at hSome
      cases hSome
      rfl

theorem cutAll_of_empty {limit : Quantity} {b : Buffer} (h : b.groups = []) :
    b.cutAll limit = ([], b) := by
  rw [cutAll]
  split
  · rfl
  · next hSome => simp [cut_eq_none_iff.mpr h] at hSome

theorem cutWhileFull_of_cut {limit : Quantity} {b rest : Buffer} {batch : Batch}
    (hFull : limit.isAtMost b.count = true) (h : b.cut limit = some (batch, rest)) :
    b.cutWhileFull limit = (batch :: (rest.cutWhileFull limit).1, (rest.cutWhileFull limit).2) := by
  rw [cutWhileFull, if_neg (by simp [hFull])]
  split
  · next hNone => simp [h] at hNone
  · next hSome =>
      rw [h] at hSome
      cases hSome
      rfl

theorem cutWhileFull_of_empty {limit : Quantity} {b : Buffer} (h : b.groups = []) :
    b.cutWhileFull limit = ([], b) := by
  rw [cutWhileFull]
  split
  · rfl
  · split
    · rfl
    · next hSome => simp [cut_eq_none_iff.mpr h] at hSome

/-- Groups are put behind all others in a buffer, and batches are cut from it, in any order. -/
inductive Packs (limit : Quantity) : Buffer → List Batch → List Batch → Buffer → Prop where
  | done (b : Buffer) : Packs limit b [] [] b
  | cut {b rest last : Buffer} {batch : Batch} {added batches : List Batch}
      (hCut : b.cut limit = some (batch, rest)) (hMore : Packs limit rest added batches last) :
      Packs limit b added (batch :: batches) last
  | push {b last : Buffer} {group : Batch} {added batches : List Batch} (hGroup : group ≠ [])
      (hMore : Packs limit (b.push group) added batches last) :
      Packs limit b (group :: added) batches last

variable {limit : Quantity} {b last : Buffer} {added batches : List Batch}

theorem packs_cutAll (limit : Quantity) (b : Buffer) :
    Packs limit b [] (b.cutAll limit).1 (b.cutAll limit).2 := by
  induction b using cut_induction limit with
  | empty b hCut =>
      rw [cutAll_of_empty (cut_eq_none_iff.mp hCut)]
      exact .done b
  | more b batch rest hCut ih =>
      rw [cutAll_of_cut hCut]
      exact .cut hCut ih

/-- Cutting the whole buffer leaves nothing in it. -/
theorem groups_cutAll (limit : Quantity) (b : Buffer) : (b.cutAll limit).2.groups = [] := by
  induction b using cut_induction limit with
  | empty b hCut =>
      have hNone := cut_eq_none_iff.mp hCut
      rw [cutAll_of_empty hNone]
      exact hNone
  | more b batch rest hCut ih =>
      rw [cutAll_of_cut hCut]
      exact ih

theorem packs_cutWhileFull (limit : Quantity) (b : Buffer) :
    Packs limit b [] (b.cutWhileFull limit).1 (b.cutWhileFull limit).2 := by
  induction b using cut_induction limit with
  | empty b hCut =>
      rw [cutWhileFull_of_empty (cut_eq_none_iff.mp hCut)]
      exact .done b
  | more b batch rest hCut ih =>
      cases hFull : limit.isAtMost b.count with
      | false =>
          rw [cutWhileFull, if_pos (by simp [hFull])]
          exact .done b
      | true =>
          rw [cutWhileFull_of_cut hFull hCut]
          exact .cut hCut ih

theorem packs_add (limit : Quantity) (b : Buffer) {group : Batch} (hGroup : group ≠ []) :
    Packs limit b [group] (b.add limit group).1 (b.add limit group).2 := by
  have hPushed (c : Buffer) := packs_cutWhileFull limit (c.push group)
  unfold add
  by_cases hFits : (0 < b.count && limit.isBelow (b.count + group.length : Nat)) = true
  · rw [if_pos hFits]
    cases hCut : b.cut limit with
    | none => exact .push hGroup (hPushed b)
    | some cut => exact .cut hCut (.push hGroup (hPushed cut.2))
  · rw [if_neg hFits]
    exact .push hGroup (hPushed b)

theorem flatten_push (b : Buffer) (group : Batch) :
    (b.push group).groups.flatten = b.groups.flatten ++ group := by
  simp [push]

theorem flatten_singles (ops : List Operation) : (ops.map fun op => [op]).flatten = ops := by
  rw [← List.flatMap_def, List.flatMap_singleton']

/-- What is sent again stands in front of everything else. -/
theorem flatten_pushFront (b : Buffer) (ops : List Operation) :
    (b.pushFront ops).groups.flatten = ops ++ b.groups.flatten := by
  rw [pushFront, List.flatten_append, flatten_singles]

/-- What is cut and what stays are the operations that were there and those that were added. -/
theorem Packs.flatten (h : Packs limit b added batches last) :
    batches.flatten ++ last.groups.flatten = b.groups.flatten ++ added.flatten := by
  induction h with
  | done b => simp
  | cut hCut _ ih =>
      obtain ⟨taken, _, hGroups, rfl, _⟩ := groups_of_cut hCut
      rw [List.flatten_cons, List.append_assoc, ih, hGroups, List.flatten_append, List.append_assoc]
  | push _ _ ih => rw [ih, flatten_push, List.flatten_cons, List.append_assoc]

/-- There are no empty batches as long as there are no empty groups. -/
theorem Packs.filled (h : Packs limit b added batches last) (hFilled : ∀ group ∈ b.groups, group ≠ []) :
    (∀ batch ∈ batches, batch ≠ []) ∧ ∀ group ∈ last.groups, group ≠ [] := by
  induction h with
  | done b => exact ⟨by simp, hFilled⟩
  | cut hCut _ ih =>
      obtain ⟨taken, hTaken, hGroups, rfl, _⟩ := groups_of_cut hCut
      rw [hGroups] at hFilled
      obtain ⟨hBatches, hLast⟩ := ih fun group hIn => hFilled group (List.mem_append_right _ hIn)
      refine ⟨?_, hLast⟩
      intro batch hBatch
      rcases List.mem_cons.mp hBatch with rfl | hLater
      · exact flatten_ne_nil (fun group hGroup => hFilled group (List.mem_append_left _ hGroup)) hTaken
      · exact hBatches batch hLater
  | push hGroup _ ih =>
      refine ih fun group hIn => ?_
      rcases List.mem_append.mp hIn with hOld | hNew
      · exact hFilled group hOld
      · exact List.mem_singleton.mp hNew ▸ hGroup

end Indexer.Buffer
