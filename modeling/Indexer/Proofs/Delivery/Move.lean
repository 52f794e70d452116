import Indexer.Proofs.Delivery.Cutting
import Indexer.Proofs.Delivery.Record

/-! The moves of a delivery: everything that can happen to it in a step. What
holds along a run is proved from the moves, so the code of the steps is looked
into only where each step is shown to be a move. -/
namespace Indexer

/-- What the coordinator takes in with a request that is settled: receipts are
recorded in order, and everything is counted. -/
structure Settled (c : Coordinator) (acked : List Receipt) (refused again : List Operation)
    (c' : Coordinator) : Prop where
  store : acked.foldlM Store.record c.store = .ok c'.store
  indexed : c'.tally.indexed = (Coordinator.countDone c.tally (acked.map (·.op))).indexed
  deleted : c'.tally.deleted = (Coordinator.countDone c.tally (acked.map (·.op))).deleted
  retried : c'.tally.retried = c.tally.retried + again.length
  reports : c'.tally.failed.map Report.name =
    c.tally.failed.map Report.name ++ refused.map Operation.name
  maxRetries : c'.maxRetries = c.maxRetries

/-- Why operations of a request are sent again. It is not for ever: a response that can be used and a
destination out of reach cost each operation a retry, and a malformed response is the first one in a
row. -/
inductive Retried (c : Coordinator) (batch : Batch) : List Operation → Coordinator → Prop where
  | answered (tried : List Operation) (c' : Coordinator) (hTried : tried.Sublist batch)
      (hRetry : ∀ op ∈ tried, c.mayRetry op = true) (hReset : c'.malformed = 0) :
      Retried c batch (tried.map Operation.again) c'
  | unreached (c' : Coordinator) (hRetry : ∀ op ∈ batch, c.mayRetry op = true)
      (hSame : c'.malformed = c.malformed) : Retried c batch (batch.map Operation.again) c'
  | malformed (c' : Coordinator) (hFirst : c.malformed = 0) (hSecond : c'.malformed = 1) :
      Retried c batch (batch.map Operation.again) c'

/-- Operations that are sent again are copies of operations of the request. -/
theorem Retried.copies {c c' : Coordinator} {batch : Batch} {again : List Operation}
    (h : Retried c batch again c') : ∀ op ∈ again, ∃ first ∈ batch, op = first.again := by
  have hCopies {tried : List Operation} (hTried : tried ⊆ batch) :
      ∀ op ∈ tried.map Operation.again, ∃ first ∈ batch, op = first.again := by
    intro op hOp
    obtain ⟨first, hFirst, rfl⟩ := List.mem_map.mp hOp
    exact ⟨first, hTried hFirst, rfl⟩
  cases h with
  | answered tried _ hTried => exact hCopies hTried.subset
  | unreached | malformed => exact hCopies (List.Subset.refl _)

namespace Delivery

/-- Nothing waits for a request. -/
def Cleared (d : Delivery) : Prop := d.queue.getD [] = [] ∧ d.buffer.groups = []

theorem waiting_of_cleared {d : Delivery} (h : d.Cleared) : d.waiting = [] := by
  rw [waiting, line, h.1, h.2]
  rfl

/-- How the parts of a delivery fit together between two events. -/
structure Orderly (d : Delivery) : Prop where
  queue : d.stage ≠ .idle → d.queue.isSome = true
  /-- Before the first start there is nothing to cut. -/
  unopened : d.queue = none → d.buffer.groups = []
  rested : d.stage = .idle → d.sender = .idle
  givenUp : d.aborting = true → d.Cleared
  stopping : d.stage = .stopping → d.aborting = true

theorem orderly_create (settings : Settings) (store : Store) : (create settings store).Orderly where
  queue h := absurd rfl h
  unopened _ := rfl
  rested _ := rfl
  givenUp h := by cases h
  stopping h := by cases h

/-- What becomes of operations that the sender wants to send again. -/
inductive Placed (d : Delivery) (ops : List Operation) : Delivery → Prop where
  | none (hNone : ops = []) : Placed d ops d
  /-- The sender rests with them. -/
  | rest (hAborting : d.aborting = false) : Placed d ops { d with sender := .pausing ops }
  /-- They are put in front of the buffer, and batches are cut. -/
  | front (queue batches : List Batch) (b : Buffer) (hQueue : d.queue = some queue)
      (hPacks : (d.buffer.pushFront ops).Packs d.limit [] batches b)
      (hAborting : d.aborting = false) :
      Placed d ops { d with buffer := b, queue := some (queue ++ batches) }
  /-- They are dropped, since the run is given up. -/
  | dropped (log : List LogRecord) (hAborting : d.aborting = true) :
      Placed d ops { d with log := log }

/-- How a request comes to its end, by what is acknowledged and reported. -/
inductive Ends (d : Delivery) (batch : Batch) : List Receipt → List Operation → Delivery → Prop where
  /-- The run goes on. -/
  | settle {acked : List Receipt} {refused again : List Operation} {c : Coordinator} {n : Nat}
      {log : List LogRecord} {d' : Delivery} (hSettled : Settled d.coordinator acked refused again c)
      (hContents : contents (acked.map (·.op)) + contents refused + contents again = contents batch)
      (hRetried : Retried d.coordinator batch again c)
      (hPlaced : Placed { d with sender := .idle, coordinator := c, answered := n, log := log }
        again d') :
      Ends d batch acked refused d'
  /-- The run is ended. What was acknowledged is lost, if there is anything,
  because it could not be recorded. -/
  | fail {acked : List Receipt} (m n : Nat) (log : List LogRecord) (f : Fault)
      (hAbort : f.isAbort = true) (hContents : contents (acked.map (·.op)) ≤ contents batch)
      (hLost : acked = [] ∨ ∃ g, acked.foldlM Store.record d.coordinator.store = .error g) :
      Ends d batch acked [] { d with
        sender := .idle, coordinator := d.coordinator.afterMalformed m, answered := n, log := log,
        fatal := some f }

/-- Everything that can happen in a step, by what it adds, acknowledges and
reports. -/
inductive Move (d : Delivery) : List Batch → List Receipt → List Operation → Delivery → Prop where
  | stay : Move d [] [] [] d
  | start (hStage : d.stage = .idle) (hSender : d.sender = .idle) (hQueue : d.queue.getD [] = []) :
      Move d [] [] [] { d with stage := .running, queue := some [], sender := .idle }
  /-- Groups come in behind all others, and batches are cut. To begin closing, or to go on with it, the
  whole buffer is cut. -/
  | arrange (added : List Batch) (s : Stage) (queue batches : List Batch) (b : Buffer)
      (hNext : s = d.stage ∨ (s = .closing ∧
        (d.stage = .running ∨ d.stage = .joined ∧ d.buffer.groups ≠ [] ∧ b.groups = [])))
      (hQueue : d.queue = some queue) (hPacks : d.buffer.Packs d.limit added batches b)
      (hRefused : d.stage = .idle ∨ d.aborting = true → added = []) :
      Move d added [] [] { d with stage := s, buffer := b, queue := some (queue ++ batches) }
  | send (batch : Batch) (rest : List Batch) (hStage : d.stage ≠ .idle)
      (hSender : d.sender = .idle) (hQueue : d.queue = some (batch :: rest)) (hWhole : d.IsWhole) :
      Move d [] [] [] { d with
        queue := some rest, mark := d.mark - 1, sender := .sending batch,
        requests := d.requests ++ [batch] }
  /-- A batch is taken from the queue and not sent. -/
  | discard (batch : Batch) (rest : List Batch) (hStage : d.stage ≠ .idle)
      (hQueue : d.queue = some (batch :: rest)) (hNotWhole : ¬d.IsWhole) :
      Move d [] [] [] { d with queue := some rest, mark := d.mark - 1 }
  | conclude (batch : Batch) (acked : List Receipt) (refused : List Operation) (d' : Delivery)
      (hSender : d.sender = .sending batch) (hEnds : Ends d batch acked refused d') :
      Move d [] acked refused d'
  | wake (ops : List Operation) (d' : Delivery) (hSender : d.sender = .pausing ops)
      (hPlaced : Placed { d with sender := .idle } ops d') (hAwake : d'.sender = .idle) :
      Move d [] [] [] d'
  | abort (log : List LogRecord) (hStage : d.stage ≠ .idle) :
      Move d [] [] [] { d with
        aborting := true, stage := .stopping, buffer := .empty, queue := d.queue.map fun _ => [],
        log := log }
  /-- All that was flushed is settled. -/
  | join (hStage : d.stage = .closing) (hSender : d.sender = .idle) (hQueue : d.queue.getD [] = []) :
      Move d [] [] [] { d with stage := .joined }
  /-- The buffer is empty. -/
  | leave (hStage : d.stage = .joined) (hFatal : d.fatal = none) (hBuffer : d.buffer.groups = []) :
      Move d [] [] [] { d with stage := .leaving }
  /-- The stop mark is put behind the queue. -/
  | mark (hStage : d.stage = .leaving) :
      Move d [] [] [] { d with stage := .sealed, mark := (d.queue.getD []).length }
  /-- The sender has come to the stop mark, or a run that is given up has come to rest. -/
  | finish (hStage : d.stage = .sealed ∨ d.stage = .stopping) (hSender : d.sender = .idle)
      (hAhead : d.ahead = []) :
      Move d [] [] [] { d with stage := .idle }
  /-- What the sender of a run that is given up is busy with comes to nothing. -/
  | abandon (hStage : d.stage = .stopping) :
      Move d [] [] [] { d with stage := .idle, sender := .idle }

/-- What waits in a queue and in a buffer behind it, after groups were put into the
buffer and batches were cut from it. -/
theorem line_of_packs {limit : Quantity} {b last : Buffer} {added batches : List Batch}
    (h : b.Packs limit added batches last) (queue : List Batch) :
    line (some (queue ++ batches)) last = queue.flatten ++ b.groups.flatten ++ added.flatten := by
  rw [line, Option.getD_some, List.flatten_append, List.append_assoc, h.flatten, List.append_assoc]

theorem waiting_of_queue {d : Delivery} {queue : List Batch} (h : d.queue = some queue) :
    d.waiting = queue.flatten ++ d.buffered := by
  rw [waiting, line, h, buffered]
  rfl

/-- There is nothing to cut from an empty buffer. -/
theorem Cleared.of_packs {d : Delivery} (h : d.Cleared) {queue batches : List Batch} {b : Buffer}
    (hQueue : d.queue = some queue) (hPacks : d.buffer.Packs d.limit [] batches b) :
    { d with buffer := b, queue := some (queue ++ batches) : Delivery }.Cleared := by
  cases hPacks with
  | done =>
      refine ⟨?_, h.2⟩
      rw [Cleared, hQueue] at h
      simpa using h.1
  | cut hCut => simp [Buffer.cut_eq_none_iff.mpr h.2] at hCut

theorem Orderly.stage_of_busy {d : Delivery} (h : d.Orderly) (hBusy : d.sender ≠ .idle) :
    d.stage ≠ .idle := fun hIdle => hBusy (h.rested hIdle)

/-- Nothing but the sender, the coordinator and what is on record has changed. -/
theorem Orderly.of_eq {d d' : Delivery} (h : d.Orderly) (hStage : d.stage ≠ .idle)
    (hSame : d'.stage = d.stage ∧ d'.aborting = d.aborting ∧ d'.queue = d.queue ∧
      d'.buffer = d.buffer) :
    d'.Orderly := by
  obtain ⟨hStages, hAborting, hQueue, hBuffer⟩ := hSame
  refine ⟨?_, ?_, ?_, ?_, ?_⟩
  · rw [hStages, hQueue]
    exact h.queue
  · rw [hQueue, hBuffer]
    exact h.unopened
  · intro hIdle
    exact absurd (hStages ▸ hIdle) hStage
  · rw [hAborting, Cleared, hQueue, hBuffer]
    exact h.givenUp
  · rw [hStages, hAborting]
    exact h.stopping

theorem Orderly.placed {d d' : Delivery} {ops : List Operation} (h : d.Orderly)
    (hStage : d.stage ≠ .idle) (hPlaced : Placed d ops d') : d'.Orderly := by
  cases hPlaced with
  | rest hAborting => exact h.of_eq hStage ⟨rfl, rfl, rfl, rfl⟩
  | front queue batches b hQueue hPacks hAborting =>
      refine ⟨fun _ => rfl, nofun, fun hIdle => absurd hIdle hStage, ?_, h.stopping⟩
      intro hAbort
      simp [hAborting] at hAbort
  | none hNone => exact h
  | dropped log hAborting => exact h.of_eq hStage ⟨rfl, rfl, rfl, rfl⟩

theorem Orderly.move {d d' : Delivery} {added : List Batch} {acked : List Receipt}
    {refused : List Operation} (h : d.Orderly) (hMove : Move d added acked refused d') :
    d'.Orderly := by
  cases hMove with
  | stay => exact h
  | start hStage hSender hQueue =>
      exact ⟨fun _ => rfl, nofun, nofun, fun hAborting => ⟨rfl, (h.givenUp hAborting).2⟩, nofun⟩
  | arrange added s queue batches b hNext hQueue hPacks hRefused =>
      refine ⟨fun _ => rfl, nofun, ?_, ?_, ?_⟩
      · intro hIdle
        rcases hNext with rfl | ⟨rfl, _⟩
        · exact h.rested hIdle
        · cases hIdle
      · intro hAborting
        obtain rfl := hRefused (.inr hAborting)
        exact (h.givenUp hAborting).of_packs hQueue hPacks
      · intro hStop
        rcases hNext with hSame | ⟨hClosing, _⟩
        · exact h.stopping (hSame ▸ hStop)
        · simp [hClosing] at hStop
  | send batch rest hStage hSender hQueue hWhole =>
      refine ⟨fun _ => rfl, nofun, fun hIdle => absurd hIdle hStage, ?_, h.stopping⟩
      intro hAbort
      simp [hWhole.2] at hAbort
  | discard batch rest hStage hQueue hNotWhole =>
      refine ⟨fun _ => rfl, nofun, fun hIdle => absurd hIdle hStage, ?_, h.stopping⟩
      intro hAbort
      have hEmpty := (h.givenUp hAbort).1
      simp [hQueue] at hEmpty
  | conclude batch acked refused d' hSender hEnds =>
      have hStage := h.stage_of_busy (by simp [hSender])
      cases hEnds with
      | settle hSettled hContents hRetried hPlaced =>
          refine Orderly.placed ?_ ?_ hPlaced
          · exact h.of_eq hStage ⟨rfl, rfl, rfl, rfl⟩
          · exact hStage
      | fail m n log f hAbort hContents hLost => exact h.of_eq hStage ⟨rfl, rfl, rfl, rfl⟩
  | wake ops d' hSender hPlaced hAwake =>
      have hStage := h.stage_of_busy (by simp [hSender])
      refine Orderly.placed ?_ ?_ hPlaced
      · exact h.of_eq hStage ⟨rfl, rfl, rfl, rfl⟩
      · exact hStage
  | abort log hStage =>
      have hCleared : (d.queue.map fun _ => ([] : List Batch)).getD [] = [] := by
        cases d.queue <;> rfl
      refine ⟨fun _ => ?_, fun _ => rfl, nofun, fun _ => ⟨hCleared, rfl⟩, fun _ => rfl⟩
      simpa using h.queue hStage
  | join hStage hSender hQueue =>
      exact ⟨fun _ => h.queue (by simp [hStage]), h.unopened, nofun, h.givenUp, nofun⟩
  | leave hStage hFatal hBuffer =>
      exact ⟨fun _ => h.queue (by simp [hStage]), h.unopened, nofun, h.givenUp, nofun⟩
  | mark hStage =>
      exact ⟨fun _ => h.queue (by simp [hStage]), h.unopened, nofun, h.givenUp, nofun⟩
  | finish hStage hSender hAhead =>
      exact ⟨fun hRunning => absurd rfl hRunning, h.unopened, fun _ => hSender, h.givenUp, nofun⟩
  | abandon hStage =>
      exact ⟨fun hRunning => absurd rfl hRunning, h.unopened, fun _ => rfl, h.givenUp, nofun⟩

theorem Placed.settings {d d' : Delivery} {ops : List Operation} (h : Placed d ops d') :
    d'.settings = d.settings := by
  cases h <;> rfl

theorem Placed.stage {d d' : Delivery} {ops : List Operation} (h : Placed d ops d') :
    d'.stage = d.stage := by
  cases h <;> rfl

theorem Ends.stage {d d' : Delivery} {batch : Batch} {acked : List Receipt} {refused : List Operation}
    (h : Ends d batch acked refused d') : d'.stage = d.stage := by
  cases h with
  | settle hSettled hContents hRetried hPlaced => exact hPlaced.stage
  | fail => rfl

theorem Move.settings {d d' : Delivery} {added : List Batch} {acked : List Receipt}
    {refused : List Operation} (h : Move d added acked refused d') : d'.settings = d.settings := by
  cases h with
  | conclude batch acked refused d' hSender hEnds =>
      cases hEnds with
      | settle hSettled hContents hRetried hPlaced => exact hPlaced.settings
      | fail => rfl
  | wake ops d' hSender hPlaced hAwake => exact hPlaced.settings
  | _ => rfl

/-- Nothing that waits or was sent is empty, and a request is under way only as long as no fault has
ended the run. -/
structure Filled (d : Delivery) : Prop where
  groups : ∀ group ∈ d.buffer.groups, group ≠ []
  queue : ∀ batch ∈ d.queue.getD [], batch ≠ []
  requests : ∀ batch ∈ d.requests, batch ≠ []
  underWay : ∀ batch, d.sender = .sending batch → batch ∈ d.requests ∧ d.fatal = none

theorem filled_create (settings : Settings) (store : Store) : (create settings store).Filled where
  groups := by simp [create, Buffer.empty]
  queue := by simp [create]
  requests := by simp [create]
  underWay _ h := by cases h

theorem Filled.batch {d : Delivery} (h : d.Filled) {batch : Batch} (hSender : d.sender = .sending batch) :
    batch ≠ [] := h.requests batch (h.underWay batch hSender).1

/-- What a sender at rest does with operations leaves no empty batch. -/
theorem Filled.placed {d d' : Delivery} {ops : List Operation} (h : d.Filled)
    (hPlaced : Placed d ops d') : d'.Filled := by
  cases hPlaced with
  | none hNone => exact h
  | rest hAborting => exact ⟨h.groups, h.queue, h.requests, nofun⟩
  | front queue batches b hQueue hPacks hAborting =>
      obtain ⟨hBatches, hLast⟩ := hPacks.filled (by
        intro group hGroup
        rcases List.mem_append.mp hGroup with hAgain | hOld
        · obtain ⟨op, _, rfl⟩ := List.mem_map.mp hAgain
          exact List.cons_ne_nil op []
        · exact h.groups group hOld)
      refine ⟨hLast, ?_, h.requests, h.underWay⟩
      intro batch hBatch
      rcases List.mem_append.mp hBatch with hOld | hNew
      · exact h.queue batch (by rwa [hQueue])
      · exact hBatches batch hNew
  | dropped log hAborting => exact ⟨h.groups, h.queue, h.requests, h.underWay⟩

theorem Filled.move {d d' : Delivery} {added : List Batch} {acked : List Receipt}
    {refused : List Operation} (h : d.Filled) (hMove : Move d added acked refused d') : d'.Filled := by
  cases hMove with
  | stay => exact h
  | start hStage hSender hQueue => exact ⟨h.groups, by simp, h.requests, nofun⟩
  | arrange added s queue batches b hNext hQueue hPacks hRefused =>
      obtain ⟨hBatches, hLast⟩ := hPacks.filled h.groups
      refine ⟨hLast, ?_, h.requests, h.underWay⟩
      intro batch hBatch
      rcases List.mem_append.mp hBatch with hOld | hNew
      · exact h.queue batch (by rwa [hQueue])
      · exact hBatches batch hNew
  | send batch rest hStage hSender hQueue hWhole =>
      have hWaits : ∀ other ∈ batch :: rest, other ≠ [] := by
        have hQueued := h.queue
        rwa [hQueue] at hQueued
      refine ⟨h.groups, fun other hOther => hWaits other (List.mem_cons_of_mem batch hOther), ?_, ?_⟩
      · intro other hOther
        rcases List.mem_append.mp hOther with hOld | hNew
        · exact h.requests other hOld
        · exact hWaits other (by simpa using .inl (List.mem_singleton.mp hNew))
      · rintro other ⟨⟩
        exact ⟨by simp, hWhole.1⟩
  | discard batch rest hStage hQueue hNotWhole =>
      refine ⟨h.groups, fun other hOther => h.queue other ?_, h.requests, h.underWay⟩
      rw [hQueue]
      exact List.mem_cons_of_mem batch hOther
  | conclude batch acked refused d' hSender hEnds =>
      cases hEnds with
      | settle hSettled hContents hRetried hPlaced =>
          refine Filled.placed ?_ hPlaced
          exact ⟨h.groups, h.queue, h.requests, nofun⟩
      | fail => exact ⟨h.groups, h.queue, h.requests, nofun⟩
  | wake ops d' hSender hPlaced hAwake =>
      refine Filled.placed ?_ hPlaced
      exact ⟨h.groups, h.queue, h.requests, nofun⟩
  | abort log hStage =>
      refine ⟨by simp [Buffer.empty], ?_, h.requests, h.underWay⟩
      cases hQueue : d.queue <;> simp
  | join | leave | mark | finish => exact ⟨h.groups, h.queue, h.requests, h.underWay⟩
  | abandon hStage => exact ⟨h.groups, h.queue, h.requests, nofun⟩

end Delivery
end Indexer
