import Indexer.Proofs.Delivery.Leftovers
import Mathlib.Tactic.Abel

/-! The accounts of a run. Operations are only ever moved from one place to the
next, so what was added is what was acknowledged, what was reported and what is
still outstanding. Operations are dropped only when a run is ended by a
fault or given up, and then that stays on record. What is left behind by a run
that was closed is told nobody. -/
namespace Indexer.Delivery

/-- Placing operations touches neither the records nor the fate of the run. -/
theorem Placed.frame {d d' : Delivery} {ops : List Operation} (h : Placed d ops d') :
    d'.coordinator = d.coordinator ∧ d'.requests = d.requests ∧ d'.fatal = d.fatal ∧
      d'.aborting = d.aborting := by
  cases h <;> exact ⟨rfl, rfl, rfl, rfl⟩

theorem Placed.isWhole_iff {d d' : Delivery} {ops : List Operation} (h : Placed d ops d') :
    d'.IsWhole ↔ d.IsWhole := by
  rw [IsWhole, IsWhole, h.frame.2.2.1, h.frame.2.2.2]

/-- A run that is whole is closed without a fault. -/
theorem closed_of_whole {d : Delivery} (h : d.IsWhole) : d.closed = .ok () := by
  rw [closed, h.2]

theorem outstanding_eq (d : Delivery) : d.outstanding = d.sender.held ++ d.waiting := rfl

theorem contents_outstanding (d : Delivery) :
    contents d.outstanding = contents d.sender.held + contents d.waiting := contents_append _ _

/-- Operations that are placed are outstanding again, unless they are dropped. -/
theorem Placed.perm {d d' : Delivery} {ops : List Operation} (h : Placed d ops d')
    (hSender : d.sender = .idle) :
    ∃ lost, (d'.outstanding ++ lost).Perm (ops ++ d.waiting) ∧ (d'.IsWhole → lost = []) := by
  cases h with
  | none hNone =>
      refine ⟨[], ?_, fun _ => rfl⟩
      simp [outstanding, hSender, Sender.held, hNone]
  | rest hAborting =>
      refine ⟨[], ?_, fun _ => rfl⟩
      simp [outstanding, waiting, Sender.held]
  | front queue batches b hQueue hPacks hAborting =>
      refine ⟨[], ?_, fun _ => rfl⟩
      simp only [outstanding, hSender, Sender.held, waiting_of_queue hQueue, buffered, List.nil_append]
      rw [waiting, line_of_packs hPacks, Buffer.flatten_pushFront, List.flatten_nil, List.append_nil,
        List.append_nil]
      exact List.perm_append_comm_assoc _ _ _
  | dropped log hAborting =>
      refine ⟨ops, ?_, fun hWhole => ?_⟩
      · rw [outstanding, hSender]
        exact List.perm_append_comm
      · simp [IsWhole, hAborting] at hWhole

theorem Placed.balance {d d' : Delivery} {ops : List Operation} (h : Placed d ops d')
    (hSender : d.sender = .idle) :
    ∃ lost, contents d'.outstanding + lost = contents ops + contents d.waiting ∧
      (d'.IsWhole → lost = 0) := by
  obtain ⟨lost, hPerm, hLost⟩ := h.perm hSender
  refine ⟨contents lost, ?_, fun hWhole => by rw [hLost hWhole, contents_nil]⟩
  rw [← contents_append, contents_perm hPerm, contents_append]

/-- A run that has not come to a bad end so far never had. -/
theorem Move.whole {d d' : Delivery} {added : List Batch} {acked : List Receipt}
    {refused : List Operation} (h : Move d added acked refused d') (hWhole : d'.IsWhole) :
    d.IsWhole := by
  cases h with
  | conclude batch acked refused d' hSender hEnds =>
      cases hEnds with
      | settle hSettled hContents hRetried hPlaced =>
          exact hPlaced.isWhole_iff.mp hWhole
      | fail => simp [IsWhole] at hWhole
  | wake ops d' hSender hPlaced hAwake => exact hPlaced.isWhole_iff.mp hWhole
  | abort => simp [IsWhole] at hWhole
  | _ => exact hWhole

/-- The operations of a request are acknowledged, reported or outstanding again when it ends, or they
are lost with the run. -/
theorem Ends.balance {d d' : Delivery} {batch : Batch} {acked : List Receipt}
    {refused : List Operation} (h : Ends d batch acked refused d') (hSender : d.sender = .sending batch) :
    ∃ lost, contents d'.outstanding + contents (acked.map (·.op)) + contents refused + lost =
        contents d.outstanding + contents [] ∧
      (d'.IsWhole → lost = 0) := by
  cases h with
  | @settle refused again c n log d' hSettled hContents hRetried hPlaced =>
      obtain ⟨lost, hBalance, hLost⟩ := hPlaced.balance rfl
      replace hBalance : contents d'.outstanding + lost = contents again + contents d.waiting :=
        hBalance
      refine ⟨lost, ?_, hLost⟩
      calc contents d'.outstanding + contents (acked.map (·.op)) + contents refused + lost
          = contents (acked.map (·.op)) + contents refused + (contents d'.outstanding + lost) := by
            abel
        _ = contents (acked.map (·.op)) + contents refused + contents again + contents d.waiting := by
            rw [hBalance]
            abel
        _ = contents d.outstanding + contents [] := by
            rw [hContents, contents_outstanding, hSender, contents_nil, add_zero]
            rfl
  | fail m n log f hAbort hContents hLost =>
      obtain ⟨rest, hRest⟩ := Multiset.le_iff_exists_add.mp hContents
      refine ⟨rest, ?_, fun hWhole => by simp [IsWhole] at hWhole⟩
      simp only [outstanding, waiting, hSender, Sender.held, contents_append, contents_nil, hRest]
      abel

/-- What a step without an answer does. It leaves the coordinator as it is, and what is outstanding
then was outstanding before or has come in. Nothing is lost as long as the run is whole. -/
structure Shifts (d : Delivery) (added : List Batch) (d' : Delivery) : Prop where
  coordinator : d'.coordinator = d.coordinator
  fatal : d'.fatal = d.fatal
  carried : ∃ lost, (d'.outstanding ++ lost).Perm (d.outstanding ++ added.flatten) ∧
    (d'.IsWhole → lost = [])

/-- A step is the answer to a request, or it moves operations about. -/
theorem Move.shifts_or_ends {d d' : Delivery} {added : List Batch} {acked : List Receipt}
    {refused : List Operation} (hOrderly : d.Orderly) (h : Move d added acked refused d') :
    (acked = [] ∧ refused = [] ∧ Shifts d added d') ∨
      (added = [] ∧ ∃ batch, d.sender = .sending batch ∧ Ends d batch acked refused d') := by
  cases h with
  | stay => exact .inl ⟨rfl, rfl, rfl, rfl, [], by simp, fun _ => rfl⟩
  | start hStage hSender hQueue =>
      refine .inl ⟨rfl, rfl, rfl, rfl, [], ?_, fun _ => rfl⟩
      simp [outstanding, hSender, Sender.held, waiting, line, hQueue]
  | arrange added s queue batches b hNext hQueue hPacks hRefused =>
      refine .inl ⟨rfl, rfl, rfl, rfl, [], ?_, fun _ => rfl⟩
      rw [outstanding, waiting, line_of_packs hPacks, outstanding, waiting_of_queue hQueue, buffered]
      simp
  | send batch rest hStage hSender hQueue hWhole =>
      refine .inl ⟨rfl, rfl, rfl, rfl, [], ?_, fun _ => rfl⟩
      simp [outstanding, hSender, Sender.held, waiting, line, hQueue]
  | discard batch rest hStage hQueue hNotWhole =>
      refine .inl ⟨rfl, rfl, rfl, rfl, batch, ?_, fun hWhole => absurd hWhole hNotWhole⟩
      have hWaiting : d.waiting = batch ++ line (some rest) d.buffer := by simp [waiting, line, hQueue]
      rw [d.outstanding_eq, hWaiting, List.flatten_nil, List.append_nil, outstanding_eq,
        List.append_assoc]
      exact List.perm_append_comm.append_left d.sender.held
  | conclude batch acked refused d' hSender hEnds => exact .inr ⟨rfl, batch, hSender, hEnds⟩
  | wake ops d' hSender hPlaced hAwake =>
      obtain ⟨hCoordinator, _, hFatal, _⟩ := hPlaced.frame
      refine .inl ⟨rfl, rfl, hCoordinator, hFatal, ?_⟩
      obtain ⟨lost, hPerm, hLost⟩ := hPlaced.perm rfl
      refine ⟨lost, ?_, hLost⟩
      rw [List.flatten_nil, List.append_nil, d.outstanding_eq, hSender]
      exact hPerm
  | abort log hStage =>
      refine .inl ⟨rfl, rfl, rfl, rfl, d.waiting, ?_, fun hWhole => by simp [IsWhole] at hWhole⟩
      cases hQueue : d.queue <;> simp [outstanding, waiting, line, hQueue, Buffer.empty]
  | join | leave | mark | finish =>
      exact .inl ⟨rfl, rfl, rfl, rfl, [], by simp [outstanding, waiting], fun _ => rfl⟩
  | abandon hStage =>
      refine .inl ⟨rfl, rfl, rfl, rfl, d.sender.held, ?_, fun hWhole => ?_⟩
      · rw [List.flatten_nil, List.append_nil]
        exact List.perm_append_comm
      · simp [IsWhole, hOrderly.stopping hStage] at hWhole

/-- What comes in with a step is what goes out and what is outstanding then. -/
theorem Move.balance {d d' : Delivery} {added : List Batch} {acked : List Receipt}
    {refused : List Operation} (hOrderly : d.Orderly) (h : Move d added acked refused d') :
    ∃ lost, contents d'.outstanding + contents (acked.map (·.op)) + contents refused + lost =
        contents d.outstanding + contents added.flatten ∧
      (d'.IsWhole → lost = 0) := by
  rcases h.shifts_or_ends hOrderly with ⟨rfl, rfl, hShifts⟩ | ⟨rfl, batch, hSender, hEnds⟩
  · obtain ⟨lost, hPerm, hLost⟩ := hShifts.carried
    refine ⟨contents lost, ?_, fun hWhole => by rw [hLost hWhole, contents_nil]⟩
    rw [List.map_nil, contents_nil, add_zero, add_zero, ← contents_append, contents_perm hPerm,
      contents_append]
  · exact hEnds.balance hSender

/-- What the requests of a run have to do with what was added: an operation is
sent once for each time it was added or tried again, unless it still waits. -/
def load (d : Delivery) : Int :=
  (d.requests.map List.length).sum + d.waiting.length + d.sender.resting.length
    - d.coordinator.tally.retried

theorem Placed.load_eq {d d' : Delivery} {ops : List Operation} (h : Placed d ops d')
    (hSender : d.sender = .idle) (hWhole : d'.IsWhole) : d'.load = d.load + ops.length := by
  cases h with
  | none hNone => simp [hNone]
  | rest hAborting =>
      simp only [load, waiting, hSender, Sender.resting, List.length_nil]
      omega
  | front queue batches b hQueue hPacks hAborting =>
      simp only [load, waiting_of_queue hQueue, buffered, hSender, Sender.resting]
      rw [waiting, line_of_packs hPacks, Buffer.flatten_pushFront]
      simp only [List.length_append, List.flatten_nil, List.length_nil]
      omega
  | dropped log hAborting => simp [IsWhole, hAborting] at hWhole

theorem Move.load_eq {d d' : Delivery} {added : List Batch} {acked : List Receipt}
    {refused : List Operation}
    (hOrderly : d.Orderly) (h : Move d added acked refused d') (hWhole : d'.IsWhole) :
    d'.load = d.load + added.flatten.length := by
  cases h with
  | stay => simp
  | start hStage hSender hQueue => simp [load, waiting, line, hSender, hQueue]
  | arrange added s queue batches b hNext hQueue hPacks hRefused =>
      simp only [load, waiting_of_queue hQueue, buffered]
      rw [waiting, line_of_packs hPacks]
      simp only [List.length_append]
      omega
  | send batch rest hStage hSender hQueue hWhole =>
      simp only [load, waiting, line, hSender, hQueue, Sender.resting, Option.getD_some,
        List.map_append, List.sum_append, List.map_cons, List.map_nil, List.sum_cons, List.sum_nil,
        List.flatten_cons, List.flatten_nil, List.length_append, List.length_nil]
      omega
  | discard batch rest hStage hQueue hNotWhole => exact absurd hWhole hNotWhole
  | conclude batch acked refused d' hSender hEnds =>
      cases hEnds with
      | settle hSettled hContents hRetried hPlaced =>
          rw [hPlaced.load_eq rfl hWhole]
          simp only [load, waiting, Sender.resting, hSettled.retried, hSender, List.length_nil,
            List.flatten_nil]
          omega
      | fail => simp [IsWhole] at hWhole
  | wake ops d' hSender hPlaced hAwake =>
      rw [hPlaced.load_eq rfl hWhole]
      simp only [load, waiting, Sender.resting, hSender, List.length_nil, List.flatten_nil]
      omega
  | abort log hStage => simp [IsWhole] at hWhole
  | join | leave | mark | finish => simp [load, waiting]
  | abandon hStage => simp [IsWhole, hOrderly.stopping hStage] at hWhole

theorem Move.reports {d d' : Delivery} {added : List Batch} {acked : List Receipt}
    {refused : List Operation} (h : Move d added acked refused d') :
    d'.coordinator.tally.failed.map Report.name =
      d.coordinator.tally.failed.map Report.name ++ refused.map Operation.name := by
  cases h with
  | conclude batch acked refused d' hSender hEnds =>
      cases hEnds with
      | settle hSettled hContents hRetried hPlaced =>
          rw [hPlaced.frame.1]
          exact hSettled.reports
      | fail => exact (List.append_nil _).symm
  | wake ops d' hSender hPlaced hAwake => rw [hPlaced.frame.1, List.map_nil, List.append_nil]
  | _ => exact (List.append_nil _).symm

theorem Move.done {d d' : Delivery} {added : List Batch} {acked : List Receipt}
    {refused : List Operation} (h : Move d added acked refused d') (hWhole : d'.IsWhole) :
    d'.coordinator.tally.indexed =
      (Coordinator.countDone d.coordinator.tally (acked.map (·.op))).indexed ∧
    d'.coordinator.tally.deleted =
      (Coordinator.countDone d.coordinator.tally (acked.map (·.op))).deleted := by
  cases h with
  | conclude batch acked refused d' hSender hEnds =>
      cases hEnds with
      | settle hSettled hContents hRetried hPlaced =>
          rw [hPlaced.frame.1]
          exact ⟨hSettled.indexed, hSettled.deleted⟩
      | fail => simp [IsWhole] at hWhole
  | wake ops d' hSender hPlaced hAwake =>
      rw [hPlaced.frame.1]
      simp
  | _ => simp

theorem run_whole {d : Delivery} (h : d.Orderly) (events : List Event)
    (hWhole : (d.run events).IsWhole) : d.IsWhole := by
  induction events generalizing d with
  | nil => exact hWhole
  | cons e events ih =>
      have hStep := step_move h e
      exact hStep.whole (ih (h.move hStep) hWhole)

/-- What was added during a run has been acknowledged, was reported or is still
outstanding, and only a run that came to a bad end has lost something. -/
theorem run_balance {d : Delivery} (h : d.Orderly) (events : List Event) :
    ∃ lost, contents (d.run events).outstanding + contents (d.collect acknowledged events) +
        contents (d.collect reported events) + lost =
          contents d.outstanding + contents (d.collect accepted events) ∧
      ((d.run events).IsWhole → lost = 0) := by
  induction events generalizing d with
  | nil => exact ⟨0, by simp [collect, run], fun _ => rfl⟩
  | cons e events ih =>
      have hStep := step_move h e
      have hNext := h.move hStep
      obtain ⟨lost, hBalance, hNone⟩ := hStep.balance h
      obtain ⟨later, hLater, hNoneLater⟩ := ih hNext
      refine ⟨lost + later, ?_, fun hWhole => ?_⟩
      · simp only [collect, contents_append]
        calc contents (d.run (e :: events)).outstanding +
              (contents (acknowledged d e) + contents ((d.step e).collect acknowledged events)) +
              (contents (reported d e) + contents ((d.step e).collect reported events)) +
              (lost + later)
            = (contents ((d.step e).run events).outstanding +
                contents ((d.step e).collect acknowledged events) +
                contents ((d.step e).collect reported events) + later) +
                (contents (acknowledged d e) + contents (reported d e) + lost) := by
              rw [show d.run (e :: events) = (d.step e).run events from rfl]
              abel
          _ = (contents (d.step e).outstanding + contents (acknowledged d e) +
                contents (reported d e) + lost) + contents ((d.step e).collect accepted events) := by
              rw [hLater]
              abel
          _ = contents d.outstanding +
                (contents (accepted d e) + contents ((d.step e).collect accepted events)) := by
              rw [acknowledged, hBalance, flatten_groups]
              abel
      · rw [hNone (run_whole hNext events hWhole), hNoneLater hWhole, add_zero]

theorem run_load {d : Delivery} (h : d.Orderly) (events : List Event)
    (hWhole : (d.run events).IsWhole) :
    (d.run events).load = d.load + (d.collect accepted events).length := by
  induction events generalizing d with
  | nil => simp [collect, run]
  | cons e events ih =>
      have hStep := step_move h e
      have hNext := h.move hStep
      have hLoad := hStep.load_eq h (run_whole hNext events hWhole)
      rw [flatten_groups] at hLoad
      rw [collect, List.length_append, Nat.cast_add, ← add_assoc, ← hLoad]
      exact ih hNext hWhole

theorem run_reports {d : Delivery} (h : d.Orderly) (events : List Event) :
    (d.run events).coordinator.tally.failed.map Report.name =
      d.coordinator.tally.failed.map Report.name ++
        (d.collect reported events).map Operation.name := by
  induction events generalizing d with
  | nil => simp [collect, run]
  | cons e events ih =>
      have hStep := step_move h e
      rw [collect, List.map_append, ← List.append_assoc, ← hStep.reports]
      exact ih (h.move hStep)

theorem run_done {d : Delivery} (h : d.Orderly) (events : List Event)
    (hWhole : (d.run events).IsWhole) :
    (d.run events).coordinator.tally.indexed =
      (Coordinator.countDone d.coordinator.tally (d.collect acknowledged events)).indexed ∧
    (d.run events).coordinator.tally.deleted =
      (Coordinator.countDone d.coordinator.tally (d.collect acknowledged events)).deleted := by
  induction events generalizing d with
  | nil => simp [collect, run]
  | cons e events ih =>
      have hStep := step_move h e
      have hNext := h.move hStep
      have hDone := hStep.done (run_whole hNext events hWhole)
      obtain ⟨hIndexed, hDeleted⟩ := ih hNext hWhole
      rw [show d.run (e :: events) = (d.step e).run events from rfl, hIndexed, hDeleted]
      simp only [Coordinator.countDone, hDone, collect, acknowledged, List.filter_append,
        List.length_append, Nat.cast_add]
      omega

/-- The accounts of a run that is over: every operation that was added was
acknowledged or reported or left behind, each as often as it was added. -/
structure Accounts (d : Delivery) (added acked refused left : List Operation) : Prop where
  ends : contents added = contents acked + contents refused + contents left
  failed : d.coordinator.tally.failed.map Report.name = refused.map Operation.name
  indexed : d.coordinator.tally.indexed = (acked.filter (·.kind = .index)).length
  deleted : d.coordinator.tally.deleted = (acked.filter (·.kind = .delete)).length
  total : d.coordinator.tally.indexed + d.coordinator.tally.deleted
    + d.coordinator.tally.failed.length + left.length = added.length
  sent : (d.requests.map List.length).sum + (left.length : Int)
    = added.length + d.coordinator.tally.retried

theorem length_kinds (ops : List Operation) :
    (ops.filter (·.kind = .index)).length + (ops.filter (·.kind = .delete)).length = ops.length := by
  induction ops with
  | nil => rfl
  | cons op ops ih => cases hKind : op.kind <;> simp [hKind] <;> omega

/-- Nothing is dropped or doubled in a run that comes to rest without a fault and without being given
up, whatever is added and whatever the destination says. If all happens in time, nothing is left
behind either, so each operation is acknowledged or reported. -/
theorem accounts_of_close (settings : Settings) (store : Store) (events : List Event)
    (hRest : ((create settings store).run events).stage = .idle)
    (hWhole : ((create settings store).run events).IsWhole) :
    Accounts ((create settings store).run events)
      ((create settings store).collect accepted events)
      ((create settings store).collect acknowledged events)
      ((create settings store).collect reported events)
      ((create settings store).run events).outstanding ∧
    ((create settings store).Throughout InTime events →
      ((create settings store).run events).outstanding = []) := by
  refine ⟨?_, fun hInTime => outstanding_of_inTime settings store events hInTime hRest⟩
  have hStart := orderly_create settings store
  have hSender := (hStart.run events).rested hRest
  obtain ⟨lost, hBalance, hNone⟩ := run_balance hStart events
  obtain ⟨hIndexed, hDeleted⟩ := run_done hStart events hWhole
  have hReports := run_reports hStart events
  have hLoad := run_load hStart events hWhole
  have hNothing : (create settings store).outstanding = [] := rfl
  have hUnloaded : (create settings store).load = 0 := rfl
  rw [hNothing, hNone hWhole] at hBalance
  rw [hUnloaded, load, hSender] at hLoad
  have hWaiting : ((create settings store).run events).outstanding =
      ((create settings store).run events).waiting := by rw [outstanding, hSender]; rfl
  rw [hWaiting] at hBalance ⊢
  generalize (create settings store).run events = d at *
  generalize (create settings store).collect accepted events = added at *
  generalize (create settings store).collect acknowledged events = acked at *
  generalize (create settings store).collect reported events = refused at *
  have hEnds : contents added = contents acked + contents refused + contents d.waiting := by
    rw [contents_nil, zero_add, add_zero] at hBalance
    rw [← hBalance]
    abel
  have hFailed : d.coordinator.tally.failed.map Report.name = refused.map Operation.name := hReports
  have hCard : added.length = acked.length + refused.length + d.waiting.length := by
    simpa [card_contents] using congrArg Multiset.card hEnds
  have hLength : d.coordinator.tally.failed.length = refused.length := by
    simpa using congrArg List.length hFailed
  have hKinds := length_kinds acked
  have hIndexed' : d.coordinator.tally.indexed = (acked.filter (·.kind = .index)).length := by
    simpa [Coordinator.countDone, create, Coordinator.start, Tally.zero] using hIndexed
  have hDeleted' : d.coordinator.tally.deleted = (acked.filter (·.kind = .delete)).length := by
    simpa [Coordinator.countDone, create, Coordinator.start, Tally.zero] using hDeleted
  refine ⟨hEnds, hFailed, hIndexed', hDeleted', ?_, ?_⟩
  · rw [hIndexed', hDeleted', hLength]
    omega
  · simp only [List.length_nil, Sender.resting] at hLoad
    omega

/-- The answer to a request that deletes, by the fields of its items. -/
def reply (items : List (List (String × Json))) : Event :=
  .answer ⟨⟨0⟩, none⟩
    (.ok (.obj [("items", .arr (items.map fun fields => .obj [("delete", .obj fields)]))]))

/-- An item that failed. -/
def turnedAway (reason : String) (status : Int) : List (String × Json) :=
  [("failed", .bool true), ("status", .number (.int status)), ("failureMessage", .str reason)]

/-- Two operations of which the second is turned away once and sent again. The
first writes an entry of the crawl state, the second removes one. -/
def turnedAwayOnce : List Event :=
  [.start, .add [
      ⟨.delete, "a", some ⟨"/r", "/r/a", none, some ⟨⟨0⟩, none⟩, false⟩, 0⟩,
      ⟨.delete, "b", some ⟨"/r", "/r/b", none, none, true⟩, 0⟩],
    .close, .take, reply [[], turnedAway "busy" 429], .proceed, .proceed, .take, reply [[]],
    .proceed, .proceed, .proceed, .proceed]

theorem accounts_of_turnedAwayOnce :
    let d := create (.initial ⟨0, []⟩) .empty
    Accounts (d.run turnedAwayOnce) (d.collect accepted turnedAwayOnce)
      (d.collect acknowledged turnedAwayOnce) (d.collect reported turnedAwayOnce) [] ∧
    (d.run turnedAwayOnce).requests.map List.length = [2, 1] := by
  intro d
  have hRest : (d.run turnedAwayOnce).stage = .idle := by decide +kernel
  have hFatal : (d.run turnedAwayOnce).fatal.isNone = true := by decide +kernel
  have hAborting : (d.run turnedAwayOnce).aborting = false := by decide +kernel
  obtain ⟨hAccounts, hLeft⟩ := accounts_of_close (.initial ⟨0, []⟩) .empty turnedAwayOnce hRest
    ⟨Option.isNone_iff_eq_none.mp hFatal, hAborting⟩
  rw [hLeft (by decide +kernel)] at hAccounts
  exact ⟨hAccounts, by decide +kernel⟩

/-- The flush timer goes off after everything is settled and before the owner looks. What was sent
back is under way when the owner finds the buffer empty, and is sent back once more. -/
def sentBackLate : List Event :=
  [.start, .add [⟨.delete, "a", none, 0⟩], .close, .take, reply [turnedAway "busy" 429], .proceed,
    .tick, .proceed, .take, .proceed, reply [turnedAway "busy" 429], .proceed]

/-- Its only operation is neither acknowledged nor reported, though closing has ended well. -/
theorem sentBackLate_is_left_behind :
    ¬∀ (settings : Settings) (store : Store) (events : List Event),
      let d := (create settings store).run events
      d.stage = .idle → d.IsWhole → d.closed = .ok () →
        contents ((create settings store).collect accepted events) =
          contents ((create settings store).collect acknowledged events) +
            contents ((create settings store).collect reported events) := by
  intro hAll
  have hFatal : ((create (.initial ⟨0, []⟩) .empty).run sentBackLate).fatal.isNone = true := by
    decide +kernel
  have hWhole : ((create (.initial ⟨0, []⟩) .empty).run sentBackLate).IsWhole :=
    ⟨Option.isNone_iff_eq_none.mp hFatal, by decide +kernel⟩
  have hEnds := hAll (.initial ⟨0, []⟩) .empty sentBackLate (by decide +kernel) hWhole
    (closed_of_whole hWhole)
  have hCount := congrArg Multiset.card hEnds
  revert hCount
  simp only [Multiset.card_add, card_contents]
  decide +kernel

end Indexer.Delivery
