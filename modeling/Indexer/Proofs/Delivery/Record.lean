import Indexer.Delivery.Event
import Indexer.Proofs.Bulk.Decision
import Indexer.Proofs.Store.Entries

/-! What a run of a delivery leaves on record. The operations that were added,
acknowledged and reported are read off the events and the states they meet;
nothing of this is part of the state, so nothing depends on it. -/
namespace Indexer

/-- An operation that was acknowledged, and when. -/
structure Receipt where
  now : DateTime
  op : Operation

@[simp] theorem Receipt.ops_map (now : DateTime) (ops : List Operation) :
    (ops.map (Receipt.mk now)).map (·.op) = ops := by
  rw [List.map_map]
  exact List.map_id ops

/-- What an acknowledgement means for the crawl state. -/
def Store.record (s : Store) (r : Receipt) : Except Fault Store :=
  match r.op.update with
  | none => .ok s
  | some u => s.commit r.now [u]

/-- Operations that are acknowledged together are recorded in one commit. -/
theorem Store.foldlM_record (s : Store) (now : DateTime) (ops : List Operation) :
    (ops.map (Receipt.mk now)).foldlM Store.record s =
      match ops.filterMap (·.update) with
      | [] => .ok s
      | updates => s.commit now updates := by
  induction ops generalizing s with
  | nil => rfl
  | cons op ops ih =>
      rw [List.map_cons, List.foldlM_cons, List.filterMap_cons, record]
      cases hUpdate : op.update with
      | none => exact ih s
      | some u =>
          cases hRest : ops.filterMap (·.update) with
          | nil =>
              simp only [ih, hRest]
              exact bind_pure (s.commit now [u])
          | cons v updates =>
              simp only [ih, hRest]
              exact (commit_cons s now u (v :: updates)).symm

/-- Acknowledging operations is recording each of them and counting them. -/
theorem Coordinator.acknowledge_eq (c : Coordinator) (now : DateTime) (ops : List Operation) :
    c.acknowledge now ops =
      ((ops.map (Receipt.mk now)).foldlM Store.record c.store).map fun store =>
        { c with store, tally := countDone c.tally ops } := by
  rw [Store.foldlM_record, acknowledge]
  cases ops.filterMap (·.update) <;> rfl

/-- The operations that a sender is busy with. -/
def Sender.held : Sender → List Operation
  | .idle => []
  | .sending batch => batch
  | .pausing ops => ops

/-- The operations that a sender rests with. -/
def Sender.resting : Sender → List Operation
  | .pausing ops => ops
  | _ => []

namespace Delivery

/-- Something that single steps bring about, collected over a run. -/
def collect {α : Type} (f : Delivery → Event → List α) : Delivery → List Event → List α
  | _, [] => []
  | d, e :: events => f d e ++ collect f (d.step e) events

/-- The operations that an event adds. A group that is refused is not added. -/
def accepted (d : Delivery) : Event → List Operation
  | .add group =>
    match (d.addGroup group).2 with
    | .ok _ => group
    | .error _ => []
  | _ => []

/-- The groups that an event adds. A group without operations adds nothing. -/
def groups (d : Delivery) : Event → List Batch
  | .add group =>
    match (d.addGroup group).2 with
    | .ok _ => if group.isEmpty then [] else [group]
    | .error _ => []
  | _ => []

/-- The operations whose items did not fail, for the response to a request. -/
def receipts (d : Delivery) : Event → List Receipt
  | .answer now (.ok raw) =>
    match d.inFlight with
    | some batch => (batch.acknowledged raw).map (Receipt.mk now)
    | none => []
  | _ => []

def acknowledged (d : Delivery) (e : Event) : List Operation := (d.receipts e).map (·.op)

/-- The operations that are reported for the response to a request. There are
none where the response ends the run. -/
def reported (d : Delivery) : Event → List Operation
  | .answer now (.ok raw) =>
    match d.inFlight with
    | none => []
    | some batch =>
      match (Outcome.ofResponse batch raw).2 with
      | .error _ => []
      | .ok o =>
        match (d.coordinator.onOutcome now o).requeued with
        | .error _ => []
        | .ok _ => d.coordinator.refused o.failed
  | _ => []

/-- The operations in the queue. -/
def queued (d : Delivery) : List Operation := (d.queue.getD []).flatten

/-- The operations in the buffer. -/
def buffered (d : Delivery) : List Operation := d.buffer.groups.flatten

/-- The operations of a queue and of a buffer behind it. -/
def line (queue : Option (List Batch)) (b : Buffer) : List Operation :=
  (queue.getD []).flatten ++ b.groups.flatten

/-- The operations that wait for a request. -/
def waiting (d : Delivery) : List Operation := line d.queue d.buffer

/-- The operations that nothing has become of yet. -/
def outstanding (d : Delivery) : List Operation := d.sender.held ++ d.waiting

/-- The run was neither ended by a fault nor given up. -/
def IsWhole (d : Delivery) : Prop := d.fatal = none ∧ d.aborting = false

theorem collect_append {α : Type} (f : Delivery → Event → List α) (d : Delivery)
    (before after : List Event) :
    d.collect f (before ++ after) = d.collect f before ++ (d.run before).collect f after := by
  induction before generalizing d with
  | nil => rfl
  | cons e before ih =>
      rw [List.cons_append, collect, collect, ih, List.append_assoc]
      rfl

theorem flatten_groups (d : Delivery) (e : Event) : (d.groups e).flatten = d.accepted e := by
  cases e with
  | add group =>
      simp only [groups, accepted]
      split
      · cases group <;> simp
      · rfl
  | _ => rfl

theorem groups_eq_nil {d : Delivery} {e : Event} (h : d.accepted e = []) : d.groups e = [] := by
  cases e with
  | add group =>
      simp only [groups, accepted] at h ⊢
      split at h
      · rw [h]
        rfl
      · rfl
  | _ => rfl

theorem flatten_collect_groups (d : Delivery) (events : List Event) :
    (d.collect groups events).flatten = d.collect accepted events := by
  induction events generalizing d with
  | nil => rfl
  | cons e events ih => rw [collect, collect, List.flatten_append, flatten_groups, ih]

theorem collect_acknowledged (d : Delivery) (events : List Event) :
    d.collect acknowledged events = (d.collect receipts events).map (·.op) := by
  induction events generalizing d with
  | nil => rfl
  | cons e events ih =>
      rw [collect, collect, List.map_append, ih]
      rfl

theorem run_append (d : Delivery) (before after : List Event) :
    d.run (before ++ after) = (d.run before).run after := List.foldl_append

/-- A property of each state of a run together with the event that it meets. -/
def Throughout (P : Delivery → Event → Prop) : Delivery → List Event → Prop
  | _, [] => True
  | d, e :: events => P d e ∧ Throughout P (d.step e) events

instance decidableThroughout {P : Delivery → Event → Prop} [∀ d e, Decidable (P d e)] (d : Delivery) :
    (events : List Event) → Decidable (d.Throughout P events)
  | [] => .isTrue trivial
  | e :: events =>
    have := decidableThroughout (P := P) (d.step e) events
    inferInstanceAs (Decidable (P d e ∧ (d.step e).Throughout P events))

theorem throughout_append {P : Delivery → Event → Prop} {d : Delivery} {before after : List Event} :
    d.Throughout P (before ++ after) ↔ d.Throughout P before ∧ (d.run before).Throughout P after := by
  induction before generalizing d with
  | nil => simp [Throughout, run]
  | cons e before ih =>
      rw [List.cons_append, Throughout, ih, Throughout, and_assoc]
      rfl

theorem throughout_of_forall {P : Delivery → Event → Prop} {events : List Event}
    (h : ∀ e ∈ events, ∀ d, P d e) (d : Delivery) : d.Throughout P events := by
  induction events generalizing d with
  | nil => trivial
  | cons e events ih =>
      exact ⟨h e List.mem_cons_self d, ih (fun later hLater => h later (List.mem_cons_of_mem e hLater)) _⟩

/-- The clock is read where an event has to do with it. -/
def Event.IsTimed : Event → Prop
  | .answer now _ => now.IsReading
  | .expire now => now.IsReading
  | _ => True

instance : DecidablePred Event.IsTimed
  | .answer now _ => inferInstanceAs (Decidable now.IsReading)
  | .expire now => inferInstanceAs (Decidable now.IsReading)
  | .start | .add _ | .flush | .flushAll | .tick | .take | .wake | .close | .proceed | .abort
  | .abandon => isTrue trivial

/-- The event can end a request. -/
def Event.isEnd : Event → Bool
  | .answer _ _ | .expire _ => true
  | _ => false

theorem Event.isTimed_of_other {e : Event} (h : e.isEnd = false) : e.IsTimed := by
  cases e <;> trivial

theorem now_of_receipts {d : Delivery} {e : Event} (h : e.IsTimed) {r : Receipt}
    (hReceipt : r ∈ d.receipts e) : r.now.IsReading := by
  unfold receipts at hReceipt
  split at hReceipt
  · split at hReceipt
    · obtain ⟨op, _, rfl⟩ := List.mem_map.mp hReceipt
      exact h
    · cases hReceipt
  · cases hReceipt

theorem now_of_run {d : Delivery} {events : List Event} (hTimed : ∀ e ∈ events, e.IsTimed)
    {r : Receipt} (hReceipt : r ∈ d.collect receipts events) : r.now.IsReading := by
  induction events generalizing d with
  | nil => cases hReceipt
  | cons e events ih =>
      rcases List.mem_append.mp hReceipt with hNow | hLater
      · exact now_of_receipts (hTimed e List.mem_cons_self) hNow
      · exact ih (fun later hIn => hTimed later (List.mem_cons_of_mem e hIn)) hLater

end Delivery
end Indexer
