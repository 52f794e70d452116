import Indexer.Proofs.Delivery.Accounts

/-! The requests that a delivery can still make. Each operation has a budget,
the requests that it can still be part of as far as its retries go. A malformed
response costs no retries, but it is the first one in a row; what it leaves to
the next response is one request more. So twice the budget of what is
outstanding bounds the requests to come. -/
namespace Indexer

/-- The requests that an operation can be part of, with at most `m` retries. -/
def Operation.budget (m : Nat) (op : Operation) : Nat := (m - op.attempts).toNat + 1

/-- The budget of operations together. -/
def budget (m : Nat) (ops : List Operation) : Nat := (ops.map (Operation.budget m)).sum

section
variable {m : Nat} {ops more : List Operation}

@[simp] theorem budget_nil (m : Nat) : budget m [] = 0 := rfl

@[simp] theorem budget_cons (m : Nat) (op : Operation) (ops : List Operation) :
    budget m (op :: ops) = op.budget m + budget m ops := rfl

@[simp] theorem budget_append (m : Nat) (ops more : List Operation) :
    budget m (ops ++ more) = budget m ops + budget m more := by
  simp [budget]

theorem budget_perm (h : ops.Perm more) : budget m ops = budget m more := (h.map _).sum_nat

theorem length_le_budget (m : Nat) (ops : List Operation) : ops.length ≤ budget m ops := by
  induction ops with
  | nil => simp
  | cons op ops ih =>
      rw [budget_cons, List.length_cons, Operation.budget]
      omega

theorem budget_le_of_attempts (h : ∀ op ∈ ops, 0 ≤ op.attempts) :
    budget m ops ≤ ops.length * (m + 1) := by
  induction ops with
  | nil => simp
  | cons op ops ih =>
      have hOp : op.budget m ≤ m + 1 := by
        have := h op List.mem_cons_self
        rw [Operation.budget]
        omega
      have hOps := ih fun other hOther => h other (List.mem_cons_of_mem op hOther)
      rw [budget_cons, List.length_cons, Nat.succ_mul]
      omega

theorem Operation.budget_again_le (m : Nat) (op : Operation) : op.again.budget m ≤ op.budget m := by
  simp only [budget, again]
  omega

theorem budget_again_le (m : Nat) (ops : List Operation) :
    budget m (ops.map Operation.again) ≤ budget m ops := by
  induction ops with
  | nil => simp
  | cons op ops ih =>
      rw [List.map_cons, budget_cons, budget_cons]
      exact Nat.add_le_add (op.budget_again_le m) ih

/-- With at most `m` retries, an operation is retried only if it was before less often. -/
theorem Coordinator.attempts_lt_of_mayRetry {c : Coordinator} {op : Operation}
    (hRetries : c.maxRetries.isBelow (m + 1) = true) (hRetry : c.mayRetry op = true) :
    op.attempts < m := by
  by_contra hSpent
  rw [mayRetry, Quantity.isBelow_of_le hRetries (by omega)] at hRetry
  cases hRetry

/-- A retry takes from the budget, if there are at most `m` retries. -/
theorem Coordinator.budget_retry {c : Coordinator} {op : Operation}
    (hRetries : c.maxRetries.isBelow (m + 1) = true) (hRetry : c.mayRetry op = true) :
    op.again.budget m + 1 ≤ op.budget m := by
  have hLeft := attempts_lt_of_mayRetry hRetries hRetry
  simp only [Operation.budget, Operation.again]
  omega

/-- What is retried of a request leaves one less for each of its operations. -/
theorem Coordinator.budget_retries {c : Coordinator} {tried batch : List Operation}
    (hRetries : c.maxRetries.isBelow (m + 1) = true) (h : tried.Sublist batch)
    (hRetry : ∀ op ∈ tried, c.mayRetry op = true) :
    budget m (tried.map Operation.again) + batch.length ≤ budget m batch := by
  induction h with
  | slnil => simp
  | cons op _ ih =>
      have hRest := ih hRetry
      rw [budget_cons, List.length_cons, Operation.budget]
      omega
  | cons_cons op _ ih =>
      have hOp := c.budget_retry hRetries (hRetry op List.mem_cons_self)
      have hRest := ih fun other hOther => hRetry other (List.mem_cons_of_mem op hOther)
      rw [List.map_cons, budget_cons, budget_cons, List.length_cons]
      omega

/-- Twice a budget, and one for a response that may still be malformed. -/
def Coordinator.allowance (m : Nat) (c : Coordinator) (ops : List Operation) : Nat :=
  2 * budget m ops + (1 - c.malformed)

/-- Whatever is sent again, there is one request less to make. -/
theorem Retried.allowance_lt {c c' : Coordinator} {batch again : List Operation}
    (h : Retried c batch again c') (hRetries : c.maxRetries.isBelow (m + 1) = true)
    (hBatch : batch ≠ []) (rest : List Operation) :
    c'.allowance m (again ++ rest) + 1 ≤ c.allowance m (batch ++ rest) := by
  have hLength : 0 < batch.length := List.length_pos_iff.mpr hBatch
  simp only [Coordinator.allowance, budget_append]
  cases h with
  | answered tried _ hTried hRetry hReset =>
      -- the malformed responses are counted anew, and a retry is worth two requests
      have hSpent := c.budget_retries hRetries hTried hRetry
      omega
  | unreached _ hRetry hSame =>
      have hSpent := c.budget_retries hRetries (List.Sublist.refl batch) hRetry
      omega
  | malformed _ hFirst hSecond =>
      have hKept := budget_again_le m batch
      omega

end

namespace Delivery

/-- The requests that a delivery can still make; none once a fault has ended the run. The request
under way is one of them until it is answered. -/
def allowance (m : Nat) (d : Delivery) : Nat :=
  if d.fatal.isSome then 0 else d.coordinator.allowance m d.outstanding

/-- The number of requests under way. -/
def underWay (d : Delivery) : Nat :=
  match d.sender with
  | .sending _ => 1
  | _ => 0

variable {m : Nat} {d d' : Delivery} {added : List Batch} {acked : List Receipt}
  {refused : List Operation}

/-- What a delivery can still send grows only by what comes in. -/
theorem Shifts.allowance_le (h : Shifts d added d') :
    d'.allowance m ≤ d.allowance m + 2 * budget m added.flatten := by
  obtain ⟨lost, hPerm, _⟩ := h.carried
  have hBudget := budget_perm (m := m) hPerm
  rw [allowance, allowance, h.fatal, h.coordinator]
  split
  · exact Nat.zero_le _
  · simp only [Coordinator.allowance, budget_append] at hBudget ⊢
    omega

/-- Placing operations sends nothing. -/
theorem Placed.quiet {ops : List Operation} (h : Placed d ops d') (hSender : d.sender = .idle) :
    d'.underWay = 0 := by
  cases h <;> simp [underWay, hSender]

theorem Placed.budget_le {ops : List Operation} (h : Placed d ops d') (hSender : d.sender = .idle) :
    budget m d'.outstanding ≤ budget m (ops ++ d.waiting) := by
  obtain ⟨lost, hPerm, _⟩ := h.perm hSender
  rw [← budget_perm hPerm, budget_append]
  exact Nat.le_add_right _ _

theorem Ends.maxRetries {batch : Batch} (h : Ends d batch acked refused d') :
    d'.coordinator.maxRetries = d.coordinator.maxRetries := by
  cases h with
  | settle hSettled hContents hRetried hPlaced =>
      rw [hPlaced.frame.1]
      exact hSettled.maxRetries
  | fail => rfl

/-- The faults that end a run are those that are meant to. -/
theorem Ends.fatal {batch : Batch} (h : Ends d batch acked refused d') (hNone : d.fatal = none) :
    ∀ f, d'.fatal = some f → f.isAbort = true := by
  cases h with
  | settle hSettled hContents hRetried hPlaced =>
      rw [hPlaced.frame.2.2.1]
      simp [hNone]
  | fail n k log f hAbort hContents hLost =>
      rintro g ⟨⟩
      exact hAbort

/-- As long as a request is under way, its operations count. -/
theorem Filled.allowance_eq (h : d.Filled) {batch : Batch} (hSender : d.sender = .sending batch) :
    d.allowance m = d.coordinator.allowance m (batch ++ d.waiting) := by
  rw [allowance, (h.underWay batch hSender).2, outstanding_eq, hSender]
  rfl

/-- The answer to a request takes one from what can still be sent. -/
theorem Ends.allowance_lt {batch : Batch} (h : Ends d batch acked refused d')
    (hSender : d.sender = .sending batch) (hFilled : d.Filled)
    (hRetries : d.coordinator.maxRetries.isBelow (m + 1) = true) :
    d'.allowance m + 1 ≤ d.allowance m ∧ d'.underWay = 0 ∧ d'.requests = d.requests := by
  have hBatch := hFilled.batch hSender
  rw [hFilled.allowance_eq hSender]
  cases h with
  | @settle refused again c n log d' hSettled hContents hRetried hPlaced =>
      obtain ⟨hCoordinator, hRequests, hFatal, _⟩ := hPlaced.frame
      have hOut : budget m d'.outstanding ≤ budget m (again ++ d.waiting) := hPlaced.budget_le rfl
      have hLess := hRetried.allowance_lt hRetries hBatch d.waiting
      refine ⟨?_, hPlaced.quiet rfl, hRequests⟩
      rw [allowance, hFatal, hCoordinator]
      split
      · omega
      · simp only [Coordinator.allowance] at hLess ⊢
        omega
  | fail n k log f hAbort hContents hLost =>
      have hLength : 0 < batch.length := List.length_pos_iff.mpr hBatch
      have hBudget := length_le_budget m batch
      refine ⟨?_, rfl, rfl⟩
      simp only [allowance, Option.isSome_some, if_true, Coordinator.allowance, budget_append]
      omega

/-- What every state of a run with at most `m` retries has. -/
structure Governed (m : Nat) (d : Delivery) : Prop where
  orderly : d.Orderly
  filled : d.Filled
  retries : d.coordinator.maxRetries.isBelow (m + 1) = true
  fatal : ∀ f, d.fatal = some f → f.isAbort = true

theorem governed_create (settings : Settings) (store : Store)
    (h : settings.maxRetries.isBelow (m + 1) = true) : (create settings store).Governed m where
  orderly := orderly_create settings store
  filled := filled_create settings store
  retries := h
  fatal _ hFatal := by cases hFatal

theorem Governed.move (hGoverned : d.Governed m) (h : Move d added acked refused d') :
    d'.Governed m := by
  refine ⟨hGoverned.orderly.move h, hGoverned.filled.move h, ?_, ?_⟩
  · rcases h.shifts_or_ends hGoverned.orderly with ⟨_, _, hShifts⟩ | ⟨_, batch, _, hEnds⟩
    · rw [hShifts.coordinator]
      exact hGoverned.retries
    · rw [hEnds.maxRetries]
      exact hGoverned.retries
  · rcases h.shifts_or_ends hGoverned.orderly with ⟨_, _, hShifts⟩ | ⟨_, batch, hSender, hEnds⟩
    · rw [hShifts.fatal]
      exact hGoverned.fatal
    · exact hEnds.fatal (hGoverned.filled.underWay batch hSender).2

theorem Governed.run (h : d.Governed m) (events : List Event) : (d.run events).Governed m := by
  induction events generalizing d with
  | nil => exact h
  | cons e events ih => exact ih (h.move (step_move h.orderly e))

theorem Move.allowance_le (hGoverned : d.Governed m) (h : Move d added acked refused d') :
    d'.allowance m ≤ d.allowance m + 2 * budget m added.flatten := by
  rcases h.shifts_or_ends hGoverned.orderly with ⟨_, _, hShifts⟩ | ⟨_, batch, hSender, hEnds⟩
  · exact hShifts.allowance_le
  · have hLess := (hEnds.allowance_lt hSender hGoverned.filled hGoverned.retries).1
    omega

/-- Each request is paid for by what a delivery can still send. -/
theorem Move.charge (hGoverned : d.Governed m) (h : Move d added acked refused d') :
    d'.requests.length + d'.allowance m + d.underWay ≤
      d.requests.length + d.allowance m + d'.underWay + 2 * budget m added.flatten := by
  have hKept := h.allowance_le hGoverned
  cases h with
  | stay | arrange | discard | abort | join | leave | mark | finish =>
      simp only [underWay]
      omega
  | start hStage hSender hQueue =>
      simp only [underWay, hSender]
      omega
  | send batch rest hStage hSender hQueue hWhole =>
      simp only [underWay, hSender, List.length_append, List.length_singleton]
      omega
  | conclude batch acked refused d' hSender hEnds =>
      obtain ⟨hLess, hQuiet, hRequests⟩ :=
        hEnds.allowance_lt hSender hGoverned.filled hGoverned.retries
      have hOne : d.underWay = 1 := by simp [underWay, hSender]
      rw [hRequests]
      omega
  | wake ops d' hSender hPlaced hAwake =>
      have hNone : d.underWay = 0 := by simp [underWay, hSender]
      have hSame : d'.requests = d.requests := hPlaced.frame.2.1
      rw [hPlaced.quiet rfl, hSame]
      omega
  | abandon hStage =>
      cases hSender : d.sender with
      | idle | pausing =>
          simp only [underWay, hSender]
          omega
      | sending batch =>
          -- the request comes to nothing, but what its operations were worth is gone too
          have hWorth := length_le_budget m batch
          have hLength : 0 < batch.length := List.length_pos_iff.mpr (hGoverned.filled.batch hSender)
          rw [hGoverned.filled.allowance_eq hSender]
          simp only [underWay, hSender, allowance, (hGoverned.filled.underWay batch hSender).2]
          simp [Coordinator.allowance, outstanding, Sender.held, waiting]
          omega

/-- Along a run the requests are paid for by what the delivery could send and by what comes in. -/
theorem run_charge (h : d.Governed m) (events : List Event) :
    (d.run events).requests.length + (d.run events).allowance m + d.underWay ≤
      d.requests.length + d.allowance m + (d.run events).underWay +
        2 * budget m (d.collect accepted events) := by
  induction events generalizing d with
  | nil => simp [run, collect]
  | cons e events ih =>
      have hStep := step_move h.orderly e
      have hNow := hStep.charge h
      have hLater := ih (h.move hStep)
      rw [flatten_groups] at hNow
      rw [collect, budget_append]
      change ((d.step e).run events).requests.length + ((d.step e).run events).allowance m + d.underWay ≤
        d.requests.length + d.allowance m + ((d.step e).run events).underWay +
          2 * (budget m (d.accepted e) + budget m ((d.step e).collect accepted events))
      omega

/-- A delivery makes at most two requests for each attempt that its operations have, and two more. -/
theorem length_requests_le (settings : Settings) (store : Store) (events : List Event)
    (hRetries : settings.maxRetries.isBelow (m + 1) = true) :
    ((create settings store).run events).requests.length ≤
      2 * budget m ((create settings store).collect accepted events) + 2 := by
  have hCharge := run_charge (governed_create settings store hRetries) events
  have hOne : ((create settings store).run events).underWay ≤ 1 := by
    unfold underWay
    split <;> omega
  have hStart : (create settings store).allowance m = 1 := rfl
  rw [hStart] at hCharge
  change _ + _ ≤ 0 + 1 + _ + _ at hCharge
  omega

end Delivery
end Indexer
