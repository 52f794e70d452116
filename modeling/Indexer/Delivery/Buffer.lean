import Indexer.Bulk.Operation

/-!
The buffer of operations that wait for a request. Operations that have to travel together form a
group, and a batch is cut from the front as whole groups. The number of waiting operations is kept
beside the groups, because that is what decides when a batch is full.
-/
namespace Indexer

structure Buffer where
  groups : List Batch
  /-- The number of operations in the groups. -/
  count : Nat

namespace Buffer

def empty : Buffer := ⟨[], 0⟩

/-- Puts a group behind all others. -/
def push (b : Buffer) (group : Batch) : Buffer := ⟨b.groups ++ [group], b.count + group.length⟩

/-- Puts operations in front of all others, each as a group of its own. -/
def pushFront (b : Buffer) (ops : List Operation) : Buffer :=
  ⟨ops.map (fun op => [op]) ++ b.groups, b.count + ops.length⟩

/-- Takes groups from the front as long as they fit next to `size` operations. -/
def takeFitting (limit : Quantity) : Nat → List Batch → List Batch × List Batch
  | _, [] => ([], [])
  | size, group :: rest =>
    if limit.isBelow (size + group.length : Nat) then ([], group :: rest)
    else
      let (taken, left) := takeFitting limit (size + group.length) rest
      (group :: taken, left)

/-- Cuts a batch of at most `limit` operations. A group that is larger makes a batch of its own. -/
def cut (limit : Quantity) (b : Buffer) : Option (Batch × Buffer) :=
  match b.groups with
  | [] => none
  | group :: rest =>
    let (taken, left) := takeFitting limit group.length rest
    let batch := (group :: taken).flatten
    some (batch, ⟨left, b.count - batch.length⟩)

theorem length_takeFitting (limit : Quantity) (size : Nat) (groups : List Batch) :
    (takeFitting limit size groups).2.length ≤ groups.length := by
  induction groups generalizing size with
  | nil => simp [takeFitting]
  | cons group rest ih =>
    simp only [takeFitting]
    split
    · simp
    · exact Nat.le_succ_of_le (ih _)

theorem length_cut {limit : Quantity} {b c : Buffer} {batch : Batch}
    (h : b.cut limit = some (batch, c)) : c.groups.length < b.groups.length := by
  unfold cut at h
  split at h
  · cases h
  · next group rest hb =>
    simp only [Option.some.injEq, Prod.mk.injEq] at h
    rw [← h.2, hb]
    exact Nat.lt_succ_of_le (length_takeFitting limit group.length rest)

/-- Cuts batches as long as there are enough operations for a full one. -/
def cutWhileFull (limit : Quantity) (b : Buffer) : List Batch × Buffer :=
  if !limit.isAtMost b.count then ([], b)
  else
    match h : b.cut limit with
    | none => ([], b)
    | some (batch, rest) =>
      have := length_cut h
      let (batches, last) := cutWhileFull limit rest
      (batch :: batches, last)
termination_by b.groups.length

/-- Cuts batches until nothing is left. -/
def cutAll (limit : Quantity) (b : Buffer) : List Batch × Buffer :=
  match h : b.cut limit with
  | none => ([], b)
  | some (batch, rest) =>
    have := length_cut h
    let (batches, last) := cutAll limit rest
    (batch :: batches, last)
termination_by b.groups.length

/-- Appends a group. If it does not fit next to what waits, one batch is cut first, and full batches
are cut after. -/
def add (limit : Quantity) (b : Buffer) (group : Batch) : List Batch × Buffer :=
  let (before, b) :=
    if 0 < b.count && limit.isBelow (b.count + group.length : Nat) then
      match b.cut limit with
      | none => ([], b)
      | some (batch, rest) => ([batch], rest)
    else ([], b)
  let (after, b) := cutWhileFull limit (b.push group)
  (before ++ after, b)

end Buffer
end Indexer
