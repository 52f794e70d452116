import Indexer.Proofs.Delivery.Step

/-! What the requests of a run are made of. In front stand operations that are
sent again, one by one; behind them stand whole groups in the order in which they
were added. No request breaks a group apart, and a request that is too large is a
single group that is. -/
namespace Indexer

/-- A batch by where its operations come from. -/
structure Shipment where
  /-- Operations that were sent before. -/
  again : List Operation
  /-- Groups that are sent for the first time. -/
  groups : List Batch

def Shipment.batch (s : Shipment) : Batch := s.again ++ s.groups.flatten

/-- A shipment is too large only if it is a single group. -/
def Shipment.Fits (limit : Quantity) (s : Shipment) : Prop :=
  limit.isBelow s.batch.length = true → s.again = [] ∧ ∃ group, s.groups = [group]

/-- An operation is one of the sent ones, for its next attempt. -/
def Copies (sent : List Shipment) (op : Operation) : Prop :=
  ∃ first ∈ sent.flatMap Shipment.batch, op = first.again

theorem Copies.mono {sent : List Shipment} {op : Operation} (h : Copies sent op)
    (later : List Shipment) : Copies (sent ++ later) op := by
  obtain ⟨first, hFirst, rfl⟩ := h
  exact ⟨first, by rw [List.flatMap_append]; exact List.mem_append_left _ hFirst, rfl⟩

/-- Whatever is sent again was in an earlier shipment. -/
inductive Retraces : List Shipment → Prop where
  | nil : Retraces []
  | snoc {sent : List Shipment} {s : Shipment} (hSent : Retraces sent)
      (hAgain : ∀ op ∈ s.again, Copies sent op) : Retraces (sent ++ [s])

/-- If groups come in with no attempts made, it shows on every operation that is sent again. -/
theorem Retraces.attempts_pos {sent : List Shipment} (h : Retraces sent)
    (hFresh : ∀ op ∈ (sent.flatMap Shipment.groups).flatten, op.attempts = 0) :
    ∀ s ∈ sent, ∀ op ∈ s.again, 0 < op.attempts := by
  induction h with
  | nil => simp
  | @snoc sent s hSent hAgain ih =>
      rw [List.flatMap_append, List.flatten_append] at hFresh
      have hBefore := ih fun op hOp => hFresh op (List.mem_append_left _ hOp)
      have hSentAttempts : ∀ op ∈ sent.flatMap Shipment.batch, 0 ≤ op.attempts := by
        intro op hOp
        obtain ⟨other, hOther, hIn⟩ := List.mem_flatMap.mp hOp
        rcases List.mem_append.mp hIn with hOld | hNew
        · exact (hBefore other hOther op hOld).le
        · obtain ⟨group, hGroup, hOp⟩ := List.mem_flatten.mp hNew
          have hSubmitted : op ∈ (sent.flatMap Shipment.groups).flatten :=
            List.mem_flatten.mpr ⟨group, List.mem_flatMap.mpr ⟨other, hOther, hGroup⟩, hOp⟩
          exact (hFresh op (List.mem_append_left _ hSubmitted)).ge
      intro other hOther op hOp
      rcases List.mem_append.mp hOther with hEarlier | hLast
      · exact hBefore other hEarlier op hOp
      · rw [List.mem_singleton.mp hLast] at hOp
        obtain ⟨first, hFirst, rfl⟩ := hAgain op hOp
        exact Int.lt_add_one_of_le (hSentAttempts first hFirst)

/-- Then the operations without an attempt are those of the groups. -/
theorem Shipment.filter_batch {s : Shipment} (hAgain : ∀ op ∈ s.again, 0 < op.attempts)
    (hFresh : ∀ op ∈ s.groups.flatten, op.attempts = 0) :
    s.batch.filter (·.attempts = 0) = s.groups.flatten := by
  have hNone : s.again.filter (fun op => op.attempts = 0) = [] := by
    rw [List.filter_eq_nil_iff]
    intro op hOp hZero
    have hPos := hAgain op hOp
    have : op.attempts = 0 := of_decide_eq_true hZero
    omega
  have hAll : s.groups.flatten.filter (fun op => op.attempts = 0) = s.groups.flatten :=
    List.filter_eq_self.mpr fun op hOp => decide_eq_true (hFresh op hOp)
  rw [batch, List.filter_append, hNone, hAll, List.nil_append]

theorem Shipment.filter_batches {sent : List Shipment}
    (h : ∀ s ∈ sent, s.batch.filter (·.attempts = 0) = s.groups.flatten) :
    (sent.map batch).flatten.filter (·.attempts = 0) = (sent.flatMap groups).flatten := by
  induction sent with
  | nil => rfl
  | cons s sent ih =>
      rw [List.map_cons, List.flatten_cons, List.filter_append, List.flatMap_cons,
        List.flatten_append, h s List.mem_cons_self,
        ih fun other hOther => h other (List.mem_cons_of_mem s hOther)]

namespace Buffer

/-- A buffer with operations that are sent again in front of groups. -/
def Holds (b : Buffer) (old : List Operation) (fresh : List Batch) : Prop :=
  b.groups = old.map (fun op => [op]) ++ fresh

/-- A batch takes from the operations in front, and then from the groups. -/
theorem Holds.cut {limit : Quantity} {b rest : Buffer} {batch : Batch} {old : List Operation}
    {fresh : List Batch} (h : b.Holds old fresh) (hLimit : limit.isAtLeast 1 = true)
    (hCut : b.cut limit = some (batch, rest)) :
    ∃ s : Shipment, ∃ oldLeft freshLeft, batch = s.batch ∧ s.Fits limit ∧
      rest.Holds oldLeft freshLeft ∧ old = s.again ++ oldLeft ∧ fresh = s.groups ++ freshLeft := by
  obtain ⟨taken, _, hGroups, rfl, hSingle⟩ := groups_of_cut hCut
  rw [h, List.append_eq_append_iff] at hGroups
  rcases hGroups with ⟨groups, rfl, hFresh⟩ | ⟨left, hOld, hRest⟩
  · refine ⟨⟨old, groups⟩, [], rest.groups, ?_, ?_, rfl, (List.append_nil old).symm, hFresh⟩
    · rw [List.flatten_append, flatten_singles]
      rfl
    · intro hLarge
      rw [List.flatten_append, flatten_singles] at hSingle
      obtain ⟨group, hGroup⟩ := hSingle hLarge
      cases old with
      | nil => exact ⟨rfl, group, hGroup⟩
      | cons op old =>
          -- a single operation is never too much
          simp only [List.map_cons, List.cons_append, List.cons.injEq, List.append_eq_nil_iff,
            List.map_eq_nil_iff] at hGroup
          obtain ⟨_, rfl, rfl⟩ := hGroup
          exact absurd hLarge (by simp [Shipment.batch, Quantity.isBelow_eq_false_of_isAtLeast hLimit])
  · obtain ⟨first, oldLeft, rfl, rfl, rfl⟩ := List.map_eq_append_iff.mp hOld
    rw [flatten_singles] at hSingle
    refine ⟨⟨first, []⟩, oldLeft, fresh, ?_, ?_, hRest, rfl, rfl⟩
    · rw [flatten_singles]
      exact (List.append_nil first).symm
    · intro hLarge
      rw [Shipment.batch, List.flatten_nil, List.append_nil] at hLarge
      obtain ⟨group, hGroup⟩ := hSingle hLarge
      have hLength : first.length = 1 := by simpa using congrArg List.length hGroup
      rw [hLength] at hLarge
      exact absurd hLarge (by simp [Quantity.isBelow_eq_false_of_isAtLeast hLimit])

/-- Batches that are cut from a buffer take from it in its order, and what is put into it comes last. -/
theorem Holds.packs {limit : Quantity} {b last : Buffer} {added batches : List Batch}
    {old : List Operation} {fresh : List Batch} (h : b.Holds old fresh)
    (hLimit : limit.isAtLeast 1 = true) (hPacks : b.Packs limit added batches last) :
    ∃ shipments : List Shipment, ∃ oldLeft freshLeft, batches = shipments.map Shipment.batch ∧
      (∀ s ∈ shipments, s.Fits limit) ∧ last.Holds oldLeft freshLeft ∧
      old = shipments.flatMap Shipment.again ++ oldLeft ∧
      fresh ++ added = shipments.flatMap Shipment.groups ++ freshLeft := by
  induction hPacks generalizing old fresh with
  | done b => exact ⟨[], old, fresh, rfl, by simp, h, rfl, by simp⟩
  | cut hCut _ ih =>
      obtain ⟨s, oldRest, freshRest, rfl, hFits, hRest, rfl, rfl⟩ := h.cut hLimit hCut
      obtain ⟨shipments, oldLeft, freshLeft, rfl, hAll, hLast, rfl, hFresh⟩ := ih hRest
      refine ⟨s :: shipments, oldLeft, freshLeft, rfl, ?_, hLast, ?_, ?_⟩
      · intro other hOther
        rcases List.mem_cons.mp hOther with rfl | hLater
        · exact hFits
        · exact hAll other hLater
      · rw [List.flatMap_cons, List.append_assoc]
      · rw [List.flatMap_cons, List.append_assoc, List.append_assoc, hFresh]
  | @push b last group added batches _ _ ih =>
      have hPushed : (b.push group).Holds old (fresh ++ [group]) := by
        rw [Holds, push, h, List.append_assoc]
      obtain ⟨shipments, oldLeft, freshLeft, hBatches, hAll, hLast, hOld, hFresh⟩ := ih hPushed
      refine ⟨shipments, oldLeft, freshLeft, hBatches, hAll, hLast, hOld, ?_⟩
      rw [← hFresh, List.append_assoc, List.singleton_append]

theorem Holds.pushFront {b : Buffer} {old : List Operation} {fresh : List Batch} (h : b.Holds old fresh)
    (ops : List Operation) : (b.pushFront ops).Holds (ops ++ old) fresh := by
  rw [Holds, Buffer.pushFront, h, List.map_append, List.append_assoc]

end Buffer

namespace Delivery

/-- What a delivery has sent and what waits in it, laid out as shipments. As long as the run is whole,
they hold the submitted groups in their order; of a run that is not, only the requests do. -/
structure Laid (d : Delivery) (submitted : List Batch) (sent queued : List Shipment)
    (old : List Operation) (fresh : List Batch) : Prop where
  limit : d.limit.isAtLeast 1 = true
  requests : d.requests = sent.map Shipment.batch
  queue : d.queue.getD [] = queued.map Shipment.batch
  buffer : d.buffer.Holds old fresh
  fits : ∀ s ∈ sent ++ queued, s.Fits d.limit
  retraces : Retraces sent
  copies : ∀ op ∈ queued.flatMap Shipment.again ++ old ++ d.sender.resting, Copies sent op
  inOrder : sent.flatMap Shipment.groups <+: submitted
  complete : d.IsWhole →
    sent.flatMap Shipment.groups ++ (queued.flatMap Shipment.groups ++ fresh) = submitted

theorem laid_create (settings : Settings) (store : Store)
    (hLimit : settings.bulkSize.isAtLeast 1 = true) :
    (create settings store).Laid [] [] [] [] [] where
  limit := hLimit
  requests := rfl
  queue := rfl
  buffer := rfl
  fits := by simp
  retraces := .nil
  copies := by simp [create, Sender.resting]
  inOrder := List.prefix_refl []
  complete _ := rfl

variable {d d' : Delivery} {submitted added : List Batch} {sent queued : List Shipment}
  {old : List Operation} {fresh : List Batch} {acked : List Receipt} {refused : List Operation}

/-- Nothing that shipments are about has changed, apart from what the sender rests with. -/
theorem Laid.congr (h : d.Laid submitted sent queued old fresh)
    (hSame : d'.settings = d.settings ∧ d'.requests = d.requests ∧ d'.queue = d.queue ∧
      d'.buffer = d.buffer)
    (hResting : ∀ op ∈ d'.sender.resting, Copies sent op) (hWhole : d'.IsWhole → d.IsWhole) :
    d'.Laid submitted sent queued old fresh := by
  obtain ⟨hSettings, hRequests, hQueue, hBuffer⟩ := hSame
  have hLimit : d'.limit = d.limit := congrArg Settings.bulkSize hSettings
  refine ⟨?_, ?_, ?_, ?_, ?_, h.retraces, ?_, h.inOrder, fun hNow => h.complete (hWhole hNow)⟩
  · rw [hLimit]
    exact h.limit
  · rw [hRequests]
    exact h.requests
  · rw [hQueue]
    exact h.queue
  · rw [hBuffer]
    exact h.buffer
  · rw [hLimit]
    exact h.fits
  · intro op hOp
    rcases List.mem_append.mp hOp with hWaits | hRests
    · exact h.copies op (List.mem_append_left _ hWaits)
    · exact hResting op hRests

/-- Groups and batches of the buffer are arranged as shipments. -/
theorem Laid.arrange {queue batches : List Batch} {b : Buffer} {before : Buffer}
    {oldBefore : List Operation} (h : d.Laid submitted sent queued old fresh)
    (hQueue : d.queue = some queue) (hBefore : before.Holds oldBefore fresh)
    (hCopies : ∀ op ∈ oldBefore, Copies sent op) (hPacks : before.Packs d.limit added batches b)
    (s : Stage) :
    ∃ queued old fresh,
      { d with stage := s, buffer := b, queue := some (queue ++ batches) : Delivery }.Laid
        (submitted ++ added) sent queued old fresh := by
  obtain ⟨shipments, oldLeft, freshLeft, rfl, hFits, hLast, rfl, hFresh⟩ :=
    hBefore.packs h.limit hPacks
  have hQueued : queue = queued.map Shipment.batch := by
    have := h.queue
    rwa [hQueue] at this
  refine ⟨queued ++ shipments, oldLeft, freshLeft, h.limit, h.requests, ?_, hLast, ?_, h.retraces,
    ?_, h.inOrder.trans (List.prefix_append _ _), ?_⟩
  · rw [Option.getD_some, hQueued, List.map_append]
  · intro shipment hIn
    rw [← List.append_assoc] at hIn
    rcases List.mem_append.mp hIn with hOld | hNew
    · exact h.fits shipment hOld
    · exact hFits shipment hNew
  · intro op hOp
    have hWhere : op ∈ queued.flatMap Shipment.again ∨
        op ∈ shipments.flatMap Shipment.again ++ oldLeft ∨ op ∈ d.sender.resting := by
      simpa [List.flatMap_append, or_assoc] using hOp
    rcases hWhere with hIn | hIn | hIn
    · exact h.copies op (List.mem_append_left _ (List.mem_append_left _ hIn))
    · exact hCopies op hIn
    · exact h.copies op (List.mem_append_right _ hIn)
  · intro hWhole
    rw [← h.complete hWhole, List.flatMap_append]
    simp only [List.append_assoc]
    rw [hFresh]

theorem Laid.placed {ops : List Operation} (h : d.Laid submitted sent queued old fresh)
    (hCopies : ∀ op ∈ ops, Copies sent op) (hPlaced : Placed d ops d') :
    ∃ queued old fresh, d'.Laid submitted sent queued old fresh := by
  have hResting (op : Operation) (hOp : op ∈ d.sender.resting) : Copies sent op :=
    h.copies op (List.mem_append_right _ hOp)
  cases hPlaced with
  | none hNone => exact ⟨queued, old, fresh, h⟩
  | rest hAborting => exact ⟨queued, old, fresh, h.congr ⟨rfl, rfl, rfl, rfl⟩ hCopies id⟩
  | front queue batches b hQueue hPacks hAborting =>
      have hFront : ∀ op ∈ ops ++ old, Copies sent op := by
        intro op hOp
        rcases List.mem_append.mp hOp with hAgain | hOld
        · exact hCopies op hAgain
        · exact h.copies op (by simp [hOld])
      obtain ⟨queued', old', fresh', hArranged⟩ :=
        h.arrange hQueue (h.buffer.pushFront ops) hFront hPacks d.stage
      rw [List.append_nil] at hArranged
      exact ⟨queued', old', fresh', hArranged⟩
  | dropped log hAborting => exact ⟨queued, old, fresh, h.congr ⟨rfl, rfl, rfl, rfl⟩ hResting id⟩

/-- Operations of the request under way were sent. -/
theorem Laid.mem_of_sending (h : d.Laid submitted sent queued old fresh) (hFilled : d.Filled)
    {batch : Batch} (hSender : d.sender = .sending batch) {op : Operation} (hOp : op ∈ batch) :
    op ∈ sent.flatMap Shipment.batch := by
  have hRequest := (hFilled.underWay batch hSender).1
  rw [h.requests] at hRequest
  rw [List.flatMap_def]
  exact List.mem_flatten_of_mem hRequest hOp

theorem Ends.laid {batch : Batch} (hEnds : Ends d batch acked refused d') (hFilled : d.Filled)
    (hSender : d.sender = .sending batch) (h : d.Laid submitted sent queued old fresh) :
    ∃ queued old fresh, d'.Laid submitted sent queued old fresh := by
  cases hEnds with
  | @settle refused again c n log d' hSettled hContents hRetried hPlaced =>
      have hFreed : { d with
          sender := .idle, coordinator := c, answered := n, log := log : Delivery }.Laid
            submitted sent queued old fresh :=
        h.congr ⟨rfl, rfl, rfl, rfl⟩ (by simp [Sender.resting]) id
      refine hFreed.placed (fun op hOp => ?_) hPlaced
      obtain ⟨first, hFirst, rfl⟩ := hRetried.copies op hOp
      exact ⟨first, h.mem_of_sending hFilled hSender hFirst, rfl⟩
  | fail m n log f hAbort hContents hLost =>
      refine ⟨queued, old, fresh, h.congr ⟨rfl, rfl, rfl, rfl⟩ (by simp [Sender.resting]) ?_⟩
      intro hWhole
      simp [IsWhole] at hWhole

/-- The batch in front of the queue is the first of the shipments that wait. -/
theorem Laid.next {batch : Batch} {rest : List Batch} (h : d.Laid submitted sent queued old fresh)
    (hQueue : d.queue = some (batch :: rest)) :
    ∃ s later, queued = s :: later ∧ s.batch = batch ∧ later.map Shipment.batch = rest := by
  have hWaiting := h.queue
  rw [hQueue, Option.getD_some] at hWaiting
  exact List.map_eq_cons_iff.mp hWaiting.symm

/-- A shipment that is sent comes last, and it holds the next groups. -/
theorem Laid.send {batch : Batch} {rest : List Batch} (h : d.Laid submitted sent queued old fresh)
    (hQueue : d.queue = some (batch :: rest)) (hWhole : d.IsWhole) :
    ∃ s queued, { d with
      queue := some rest, mark := d.mark - 1, sender := .sending batch,
      requests := d.requests ++ [batch] : Delivery }.Laid submitted (sent ++ [s]) queued old fresh := by
  obtain ⟨s, queued, rfl, rfl, rfl⟩ := h.next hQueue
  have hComplete := h.complete hWhole
  simp only [List.flatMap_cons, List.append_assoc] at hComplete
  have hSent : (sent ++ [s]).flatMap Shipment.groups =
      sent.flatMap Shipment.groups ++ s.groups := by simp
  refine ⟨s, queued, h.limit, ?_, rfl, h.buffer, ?_, ?_, ?_, ?_, ?_⟩
  · rw [h.requests, List.map_append]
    rfl
  · intro other hOther
    rw [List.append_assoc] at hOther
    exact h.fits other hOther
  · refine .snoc h.retraces fun op hOp => h.copies op ?_
    simp [hOp]
  · intro op hOp
    refine (h.copies op ?_).mono [s]
    have hWaits : op ∈ queued.flatMap Shipment.again ++ old := by simpa [Sender.resting] using hOp
    rw [List.flatMap_cons, List.append_assoc, List.append_assoc]
    exact List.mem_append_right _ (by rw [← List.append_assoc]; exact List.mem_append_left _ hWaits)
  · rw [hSent, ← hComplete, ← List.append_assoc]
    exact List.prefix_append _ _
  · intro _
    rw [hSent, List.append_assoc]
    exact hComplete

/-- Of a run that has come to a bad end, a batch is dropped and not sent. -/
theorem Laid.discard {batch : Batch} {rest : List Batch} (h : d.Laid submitted sent queued old fresh)
    (hQueue : d.queue = some (batch :: rest)) (hNotWhole : ¬d.IsWhole) :
    ∃ queued, { d with queue := some rest, mark := d.mark - 1 : Delivery }.Laid submitted sent queued old
      fresh := by
  obtain ⟨s, queued, rfl, rfl, rfl⟩ := h.next hQueue
  refine ⟨queued, h.limit, h.requests, rfl, h.buffer, ?_, h.retraces, ?_, h.inOrder,
    fun hWhole => absurd hWhole hNotWhole⟩
  · intro other hOther
    apply h.fits other
    rcases List.mem_append.mp hOther with hIn | hIn <;> simp [hIn]
  · intro op hOp
    apply h.copies op
    rw [List.flatMap_cons, List.append_assoc, List.append_assoc]
    exact List.mem_append_right _ (by rwa [← List.append_assoc])

/-- When a run is given up, all that waits is dropped. -/
theorem Laid.abort (h : d.Laid submitted sent queued old fresh) (log : List LogRecord) :
    { d with
      aborting := true, stage := .stopping, buffer := .empty, queue := d.queue.map fun _ => [],
      log := log : Delivery }.Laid submitted sent [] [] [] where
  limit := h.limit
  requests := h.requests
  queue := by cases d.queue <;> rfl
  buffer := rfl
  fits s hs := h.fits s (List.mem_append_left _ (by simpa using hs))
  retraces := h.retraces
  copies op hOp := h.copies op (List.mem_append_right _ (by simpa using hOp))
  inOrder := h.inOrder
  complete hWhole := by simp [IsWhole] at hWhole

/-- Every move keeps shipments as they are and adds to them at the end. -/
theorem Move.laid (hMove : Move d added acked refused d') (hFilled : d.Filled)
    (h : d.Laid submitted sent queued old fresh) :
    ∃ sent queued old fresh, d'.Laid (submitted ++ added) sent queued old fresh := by
  have hResting (op : Operation) (hOp : op ∈ d.sender.resting) : Copies sent op :=
    h.copies op (List.mem_append_right _ hOp)
  cases hMove with
  | stay =>
      rw [List.append_nil]
      exact ⟨sent, queued, old, fresh, h⟩
  | start hStage hSender hQueue =>
      rw [List.append_nil]
      have hNone : [] = queued.map Shipment.batch := hQueue.symm.trans h.queue
      refine ⟨sent, queued, old, fresh, h.limit, h.requests, hNone, h.buffer, h.fits, h.retraces, ?_,
        h.inOrder, h.complete⟩
      simpa [Sender.resting, hSender] using h.copies
  | arrange added s queue batches b hNext hQueue hPacks hRefused =>
      obtain ⟨queued', old', fresh', hArranged⟩ := h.arrange hQueue h.buffer
        (fun op hOp => h.copies op (by simp [hOp])) hPacks s
      exact ⟨sent, queued', old', fresh', hArranged⟩
  | send batch rest hStage hSender hQueue hWhole =>
      rw [List.append_nil]
      obtain ⟨s, queued', hSent⟩ := h.send hQueue hWhole
      exact ⟨sent ++ [s], queued', old, fresh, hSent⟩
  | discard batch rest hStage hQueue hNotWhole =>
      rw [List.append_nil]
      obtain ⟨queued', hLeft⟩ := h.discard hQueue hNotWhole
      exact ⟨sent, queued', old, fresh, hLeft⟩
  | conclude batch acked refused d' hSender hEnds =>
      rw [List.append_nil]
      exact ⟨sent, hEnds.laid hFilled hSender h⟩
  | wake ops d' hSender hPlaced hAwake =>
      rw [List.append_nil]
      have hFreed : { d with sender := .idle : Delivery }.Laid submitted sent queued old fresh :=
        h.congr ⟨rfl, rfl, rfl, rfl⟩ (by simp [Sender.resting]) id
      rw [hSender] at hResting
      exact ⟨sent, hFreed.placed hResting hPlaced⟩
  | abort log hStage =>
      rw [List.append_nil]
      exact ⟨sent, [], [], [], h.abort log⟩
  | join | leave | mark | finish =>
      rw [List.append_nil]
      exact ⟨sent, queued, old, fresh, h.congr ⟨rfl, rfl, rfl, rfl⟩ hResting id⟩
  | abandon hStage =>
      rw [List.append_nil]
      exact ⟨sent, queued, old, fresh, h.congr ⟨rfl, rfl, rfl, rfl⟩ (by simp [Sender.resting]) id⟩

/-- At every point of a run, what was sent and what waits is laid out as shipments. -/
theorem run_laid (hOrderly : d.Orderly) (hFilled : d.Filled) (events : List Event)
    (h : d.Laid submitted sent queued old fresh) :
    ∃ sent queued old fresh,
      (d.run events).Laid (submitted ++ d.collect groups events) sent queued old fresh := by
  induction events generalizing d submitted sent queued old fresh with
  | nil => exact ⟨sent, queued, old, fresh, by simpa [collect, run] using h⟩
  | cons e events ih =>
      have hStep := step_move hOrderly e
      obtain ⟨_, _, _, _, hNext⟩ := hStep.laid hFilled h
      rw [collect, ← List.append_assoc]
      exact ih (hOrderly.move hStep) (hFilled.move hStep) hNext

/-- The requests of a run are shipments. Apart from copies of what was sent before, they hold the
groups as they were added: in that order, none left out between two others, and none broken apart. No
request is empty, and one that is too large is a single group. If operations come in with no attempts
made, then those that are sent with none are, over all requests, the first that were added. -/
theorem requests_follow_submissions (settings : Settings) (store : Store) (events : List Event)
    (hLimit : settings.bulkSize.isAtLeast 1 = true) :
    let start := create settings store
    let d := start.run events
    ∃ shipments : List Shipment,
      d.requests = shipments.map Shipment.batch ∧ Retraces shipments ∧
      shipments.flatMap Shipment.groups <+: start.collect groups events ∧
      (∀ s ∈ shipments, s.batch ≠ [] ∧ s.Fits settings.bulkSize) ∧
      ((∀ op ∈ start.collect accepted events, op.attempts = 0) →
        (∀ s ∈ shipments, s.batch.filter (·.attempts = 0) = s.groups.flatten) ∧
        d.requests.flatten.filter (·.attempts = 0) <+: start.collect accepted events) := by
  intro start d
  have hOrderly := orderly_create settings store
  have hFilled := filled_create settings store
  obtain ⟨sent, queued, old, fresh, hLaid⟩ :=
    run_laid hOrderly hFilled events (laid_create settings store hLimit)
  rw [List.nil_append] at hLaid
  have hPrefix : (sent.flatMap Shipment.groups).flatten <+: start.collect accepted events := by
    rw [← flatten_collect_groups]
    obtain ⟨later, hLater⟩ := hLaid.inOrder
    exact ⟨later.flatten, by rw [← List.flatten_append, hLater]⟩
  refine ⟨sent, hLaid.requests, hLaid.retraces, hLaid.inOrder, fun s hs => ⟨?_, ?_⟩, fun hFresh => ?_⟩
  · refine (hFilled.run hOrderly events).requests s.batch ?_
    rw [hLaid.requests]
    exact List.mem_map_of_mem hs
  · have hFits := hLaid.fits s (List.mem_append_left _ hs)
    rwa [limit, run_settings hOrderly] at hFits
  · have hSent : ∀ op ∈ (sent.flatMap Shipment.groups).flatten, op.attempts = 0 :=
      fun op hOp => hFresh op (hPrefix.subset hOp)
    have hEach : ∀ s ∈ sent, s.batch.filter (·.attempts = 0) = s.groups.flatten := by
      intro s hs
      refine Shipment.filter_batch (hLaid.retraces.attempts_pos hSent s hs) fun op hOp => hSent op ?_
      obtain ⟨group, hGroup, hIn⟩ := List.mem_flatten.mp hOp
      exact List.mem_flatten.mpr ⟨group, List.mem_flatMap.mpr ⟨s, hs, hGroup⟩, hIn⟩
    refine ⟨hEach, ?_⟩
    change ((create settings store).run events).requests.flatten.filter _ <+: _
    rw [hLaid.requests, Shipment.filter_batches hEach]
    exact hPrefix

/-- Batches of two. A group of two does not fit next to the first operation, a group of three is too
large, and the first operation, which is turned away once, is sent again with the last one. -/
def crowded : List Event :=
  let ops (ids : List String) : Batch := ids.map fun id => ⟨.delete, id, none, 0⟩
  let deleted (fields : List (String × Json)) : Json := .obj [("delete", .obj fields)]
  let reply (items : List Json) : Event :=
    .answer ⟨⟨0⟩, none⟩ (.ok (.obj [("items", .arr items)]))
  [.start, .add (ops ["a"]), .add (ops ["b", "c"]), .add (ops ["d", "e", "f"]), .take,
    reply [deleted [("failed", .bool true), ("status", .number (.int 429))]],
    .take, reply [deleted [], deleted []], .add (ops ["g"]),
    .take, reply [deleted [], deleted [], deleted []], .take]

theorem crowded_requests_follow_submissions :
    let start := create { Settings.initial ⟨0, []⟩ with bulkSize := .whole 2 } .empty
    (start.run crowded).requests.map (·.map fun op => (op.id, op.attempts)) =
      [[("a", 0)], [("b", 0), ("c", 0)], [("d", 0), ("e", 0), ("f", 0)], [("a", 1), ("g", 0)]] ∧
    ∃ shipments : List Shipment,
      (start.run crowded).requests = shipments.map Shipment.batch ∧
      (∀ s ∈ shipments, s.Fits (.whole 2)) ∧
      (start.run crowded).requests.flatten.filter (·.attempts = 0) <+:
        start.collect accepted crowded := by
  intro start
  have hFresh : ∀ op ∈ start.collect accepted crowded, op.attempts = 0 := by decide +kernel
  obtain ⟨shipments, hRequests, _, _, hFits, hFirst⟩ := requests_follow_submissions
    { Settings.initial ⟨0, []⟩ with bulkSize := .whole 2 } .empty crowded (by decide +kernel)
  exact ⟨by decide +kernel, shipments, hRequests, fun s hs => (hFits s hs).2, (hFirst hFresh).2⟩

end Delivery
end Indexer
