import Indexer.Proofs.Crawl.Completion
import Indexer.Proofs.Delivery.Closing

/-! The progress of a crawl. As long as no fault ends its delivery, a crawl whose
plan does not fail is never given up, and there is always somebody whose turn it is:
the walker, its workers, or the delivery once it is closed. Each turn of the walker
takes it closer to the end of its plan, and a delivery that is closed comes to rest;
so the crawl comes to its end. -/
namespace Indexer

/-- Closing has begun, and it is not over. -/
def Stage.isClosing : Stage → Bool
  | .closing | .joined | .leaving | .sealed => true
  | .idle | .running | .stopping => false

namespace Delivery

variable {d : Delivery}

theorem answer_stage (h : d.Orderly) (now : DateTime) (reply : Except Fault Json) :
    (d.answer now reply).stage = d.stage := by
  cases hSender : d.sender with
  | sending batch => exact (answer_ends h hSender now reply).stage
  | idle | pausing ops => rw [answer, hSender]

theorem proceed_stage (hFatal : d.fatal = none) (hStopping : d.stage ≠ .stopping) :
    d.proceed.stage = d.stage ∨
      d.stage.isClosing = true ∧ (d.proceed.stage.isClosing = true ∨ d.proceed.stage = .idle) := by
  cases hStage : d.stage with
  | idle | running =>
      left
      simp only [proceed, hStage]
  | stopping => exact absurd hStage hStopping
  | closing | sealed =>
      simp only [proceed, hStage]
      split
      · exact .inr ⟨rfl, by first | exact .inl rfl | exact .inr rfl⟩
      · exact .inl hStage
  | joined =>
      simp only [proceed, hStage, look]
      split
      · exact .inr ⟨rfl, .inl rfl⟩
      · right
        simp [flushToClose, hFatal, Stage.isClosing]
  | leaving =>
      simp only [proceed, hStage]
      exact .inr ⟨rfl, .inl rfl⟩

/-- A delivery stays in its stage while its sender is at work. -/
theorem stage_of_work (h : d.Orderly) {e : Event} (hSender : Crawl.isOfSender e = true)
    (hTurn : e ≠ .proceed) : (d.step e).stage = d.stage := by
  cases e with
  | tick =>
      obtain ⟨_, _, hFrame⟩ := d.tick_frame
      rw [step, hFrame]
  | take =>
      obtain ⟨_, _, _, _, hFrame⟩ := d.take_frame
      rw [step, hFrame]
  | answer now reply => exact answer_stage h now reply
  | expire now =>
      change (d.expire now).stage = d.stage
      unfold expire
      split
      · exact answer_stage h now _
      · rfl
  | wake =>
      change d.wake.stage = d.stage
      unfold wake
      split
      · next ops _ =>
          obtain ⟨_, _, _, hFrame⟩ := { d with sender := .idle : Delivery }.requeue_frame ops
          rw [hFrame]
      · rfl
  | proceed => exact absurd rfl hTurn
  | _ => cases hSender

/-- A delivery that nothing has ended stays in its stage unless it goes on with closing until it comes
to rest. -/
theorem stage_of_sender (h : d.Orderly) (hFatal : d.fatal = none) (hKept : d.aborting = false)
    {e : Event} (hSender : Crawl.isOfSender e = true) :
    (d.step e).stage = d.stage ∨
      d.stage.isClosing = true ∧ ((d.step e).stage.isClosing = true ∨ (d.step e).stage = .idle) := by
  by_cases hTurn : e = .proceed
  · rw [hTurn]
    exact proceed_stage hFatal fun hStopping => by simp [h.stopping hStopping] at hKept
  · exact .inl (stage_of_work h hSender hTurn)

/-- A delivery that runs takes what is added. -/
theorem add_ok (h : d.Orderly) (hStage : d.stage = .running) (hFatal : d.fatal = none)
    (hKept : d.aborting = false) (op : Operation) :
    ∃ next, d.add op = (next, .ok ()) ∧ next.stage = .running ∧ next.aborting = false := by
  obtain ⟨queue, hQueue⟩ := h.exists_queue (by simp [hStage])
  have hAdd : d.add op = d.enqueue (d.buffer.add d.limit [op]) := by
    simp [add, addGroup, hFatal, hStage, hKept]
  rw [hAdd, enqueue_eq hQueue]
  exact ⟨_, rfl, hStage, hKept⟩

theorem step_add_nil (d : Delivery) : d.step (.add []) = d := by
  simp only [step, addGroup]
  split
  · rfl
  · split <;> rfl

theorem close_stage (hStage : d.stage = .running) (hFatal : d.fatal = none) :
    d.close.stage = .closing := by
  simp only [close, hStage, flushToClose, hFatal]

end Delivery

namespace Crawl

variable {c : Crawl}

/-- The stages that fit a phase of a crawl that is not given up. -/
def Phase.Fits : Phase → Stage → Prop
  | .walking, stage | .waiting, stage => stage = .running
  | .closing, stage => stage.isClosing = true ∨ stage = .idle
  | .ended (.ok ()), stage => stage = .idle
  | .stopping _, _ | .ended (.error _), _ => False

/-- What holds of a crawl as long as it goes by its plan. -/
structure OnCourse (c : Crawl) : Prop where
  orderly : c.delivery.Orderly
  steady : ∀ step ∈ c.walk.plan, step.isFail = false
  kept : c.delivery.aborting = false
  fits : c.walk.phase.Fits c.delivery.stage

/-- A step of the plan that does not fail is taken. -/
theorem Walk.take_fits {w : Walk} {d : Delivery} (hOrderly : d.Orderly) (hFatal : d.fatal = none)
    (hKept : d.aborting = false) (hPhase : w.phase = .walking) (hStage : d.stage = .running)
    {step : Step} (hSteady : step.isFail = false) :
    (w.take d step).2.aborting = false ∧ (w.take d step).1.phase.Fits (w.take d step).2.stage := by
  cases step with
  | fail f => cases hSteady
  | submit op =>
      obtain ⟨next, hAdd, hNextStage, hNextKept⟩ := Delivery.add_ok hOrderly hStage hFatal hKept op
      simp only [take, hAdd, hPhase]
      exact ⟨hNextKept, hNextStage⟩
  | note r | scanned | unchanged | skipped =>
      simp only [take, hPhase]
      exact ⟨hKept, hStage⟩
  | wait => exact ⟨hKept, hStage⟩

theorem OnCourse.advance_fits (h : c.OnCourse) (hFatal : c.delivery.fatal = none) :
    (c.step .advance).delivery.aborting = false ∧
      (c.step .advance).walk.phase.Fits (c.step .advance).delivery.stage := by
  obtain ⟨w, d⟩ := c
  obtain ⟨hOrderly, hSteady, hKept, hFits⟩ := h
  simp only [step, Walk.advance] at hFatal hSteady hKept hFits ⊢
  split
  · next hReady =>
      split
      · next hPhase hPlan =>
          rw [hPhase] at hFits
          refine ⟨?_, .inl ?_⟩
          · rw [Delivery.close_aborting hFatal]
            exact hKept
          · rw [Delivery.close_stage hFits hFatal]
            rfl
      · next step rest hPhase hPlan =>
          rw [hPhase] at hFits
          exact Walk.take_fits (w := { w with plan := rest }) hOrderly hFatal hKept hPhase hFits
            (hSteady step (hPlan ▸ List.mem_cons_self))
      · next hPhase =>
          have hIdle : d.stage = .idle := by simpa [Walk.isReady, hPhase] using hReady
          have hClosed : d.closed = .ok () := Delivery.closed_of_whole ⟨hFatal, hKept⟩
          simp only [hClosed]
          exact ⟨hKept, hIdle⟩
      · next hPhase =>
          rw [hPhase] at hFits
          exact hFits.elim
      · exact ⟨hKept, hFits⟩
  · exact ⟨hKept, hFits⟩

/-- What the sender of its delivery does keeps a crawl on its course. -/
theorem OnCourse.sender_fits (h : c.OnCourse) (hFatal : c.delivery.fatal = none) {e : Delivery.Event}
    (hSender : isOfSender e = true) :
    (c.delivery.step e).aborting = false ∧ c.walk.phase.Fits (c.delivery.step e).stage := by
  have hOrder : e ≠ .abort := fun hAbort => by simp [hAbort, isOfSender] at hSender
  have hFits := h.fits
  refine ⟨(Delivery.step_aborting h.orderly hFatal hOrder).trans h.kept, ?_⟩
  rcases Delivery.stage_of_sender h.orderly hFatal h.kept hSender with hSame | ⟨hClosing, hNext⟩
  · rw [hSame]
    exact hFits
  · -- only a crawl that waits for its delivery sees closing go on
    revert hFits
    cases c.walk.phase with
    | closing => exact fun _ => hNext
    | ended r =>
        cases r with
        | error f => exact fun hFits => hFits.elim
        | ok _ =>
            simp only [Phase.Fits]
            intro hFits
            simp [hFits, Stage.isClosing] at hClosing
    | walking | waiting =>
        simp only [Phase.Fits]
        intro hFits
        simp [hFits, Stage.isClosing] at hClosing
    | stopping f => simp [Phase.Fits]

/-- A crawl stays on its course, as long as it is not cancelled and no fault ends its delivery. -/
theorem OnCourse.step (h : c.OnCourse) (hFatal : c.delivery.fatal = none) {e : Event}
    (hCancel : e ≠ .cancel) : (c.step e).OnCourse := by
  have hOrderly : (c.step e).delivery.Orderly := by
    rw [step_delivery]
    exact h.orderly.run _
  have hSteady : ∀ step ∈ (c.step e).walk.plan, step.isFail = false := by
    intro step hStep
    rcases c.step_plan e with ⟨hPlan, _⟩ | ⟨first, _, hPlan, _⟩
    · exact h.steady step (hPlan ▸ hStep)
    · exact h.steady step (hPlan ▸ List.mem_cons_of_mem _ hStep)
  suffices hMoved : (c.step e).delivery.aborting = false ∧
      (c.step e).walk.phase.Fits (c.step e).delivery.stage from ⟨hOrderly, hSteady, hMoved.1, hMoved.2⟩
  cases e with
  | advance => exact h.advance_fits hFatal
  | arrive =>
      refine ⟨h.kept, ?_⟩
      have hFits := h.fits
      simp only [Crawl.step, Walk.arrive]
      split
      · next hPhase =>
          rw [hPhase] at hFits
          exact hFits
      · exact hFits
  | cancel => exact absurd rfl hCancel
  | delivery e =>
      simp only [Crawl.step]
      split
      · next hSender => exact h.sender_fits hFatal hSender
      · exact ⟨h.kept, h.fits⟩

theorem OnCourse.run (h : c.OnCourse) (events : List Event) (hCancel : .cancel ∉ events)
    (hFatal : (c.run events).delivery.fatal = none) : (c.run events).OnCourse := by
  induction events generalizing c with
  | nil => exact h
  | cons e events ih =>
      have hNow : c.delivery.fatal = none := by
        rw [run_delivery] at hFatal
        exact Delivery.fatal_of_run h.orderly _ hFatal
      have hNext := h.step hNow (e := e) fun hSame => hCancel (hSame ▸ List.mem_cons_self)
      exact ih hNext (fun hLater => hCancel (List.mem_cons_of_mem e hLater)) hFatal

/-- The turn of somebody for whom the crawl waits. -/
def isDue (c : Crawl) (e : Event) : Bool :=
  match c.walk.phase, e with
  | .walking, .advance | .waiting, .arrive => true
  | .closing, .advance | .stopping _, .advance => c.delivery.stage = .idle
  | .closing, .delivery e | .stopping _, .delivery e =>
    c.delivery.stage ≠ .idle && c.delivery.isDue e
  | _, _ => false

/-- The steps that it takes the walker to hand everything over. -/
def Walk.rank (w : Walk) : Nat :=
  match w.phase with
  | .walking => 2 * w.plan.length + 1
  | .waiting => 2 * w.plan.length + 2
  | _ => 0

/-- The states that a schedule of events goes through. -/
def along (c : Crawl) (schedule : Nat → Event) : Nat → Crawl
  | 0 => c
  | k + 1 => (c.along schedule k).step (schedule k)

theorem along_eq_run (c : Crawl) (schedule : Nat → Event) (k : Nat) :
    c.along schedule k = c.run ((List.range k).map schedule) := by
  induction k with
  | zero => rfl
  | succ k ih =>
      rw [along, ih, List.range_succ, List.map_append, run, run, List.foldl_append]
      rfl

/-- Until it has ended, somebody for whom the crawl waits takes a turn sooner or later. -/
def IsFair (c : Crawl) (schedule : Nat → Event) : Prop :=
  ∀ k, (∀ r, (c.along schedule k).walk.phase ≠ .ended r) →
    ∃ j, k ≤ j ∧ (c.along schedule j).isDue (schedule j) = true

theorem Walk.rank_take (w : Walk) (d : Delivery) (hPhase : w.phase = .walking) (step : Step) :
    (w.take d step).1.rank < { w with plan := step :: w.plan : Walk }.rank := by
  cases step with
  | submit op =>
      simp only [take]
      split <;> simp [rank, giveUp, hPhase]
  | note r | scanned | unchanged | skipped | fail f => simp [take, giveUp, rank, hPhase]
  | wait =>
      simp only [take, rank, hPhase, List.length_cons]
      omega

/-- Going on never takes the walker back, and as long as it walks it takes it on. -/
theorem Walk.rank_advance (w : Walk) (d : Delivery) :
    (w.advance d).1.rank ≤ w.rank ∧ (w.phase = .walking → (w.advance d).1.rank < w.rank) := by
  unfold advance
  cases hPhase : w.phase with
  | walking =>
      have hReady : w.isReady d = true := by simp [isReady, hPhase]
      rw [if_pos hReady]
      suffices hLess : _ < w.rank from ⟨hLess.le, fun _ => hLess⟩
      cases hPlan : w.plan with
      | nil => simp [rank, hPhase]
      | cons step rest =>
          have hLess := rank_take { w with plan := rest, phase := .walking } d rfl step
          have hSame : { w with plan := step :: rest, phase := .walking : Walk } = w := by
            rw [← hPlan, ← hPhase]
          rwa [hSame] at hLess
  | waiting | ended r =>
      rw [if_neg (by simp [isReady, hPhase])]
      exact ⟨le_refl _, by simp⟩
  | closing | stopping f =>
      refine ⟨?_, by simp⟩
      split
      · exact Nat.zero_le _
      · exact le_refl _

theorem rank_step_le (c : Crawl) (e : Event) : (c.step e).walk.rank ≤ c.walk.rank := by
  cases e with
  | advance => exact (c.walk.rank_advance c.delivery).1
  | arrive =>
      simp only [step, Walk.arrive]
      split
      · next hPhase => simp [Walk.rank, hPhase]
      · exact le_refl _
  | cancel =>
      simp only [step]
      rcases c.walk.cancel_cases c.delivery with ⟨hCancel, _⟩ | ⟨p, hCancel, _, hPhase⟩
      · rw [hCancel]
      · rw [hCancel]
        rcases hPhase with ⟨f, rfl⟩ | ⟨f, rfl⟩ <;> exact Nat.zero_le _
  | delivery e =>
      simp only [step]
      split <;> exact le_refl _

/-- A turn that is due takes the walker on as long as it has not left its plan. -/
theorem rank_step_lt {c : Crawl} {e : Event} (hDue : c.isDue e = true) (hBusy : c.walk.rank ≠ 0) :
    (c.step e).walk.rank < c.walk.rank := by
  unfold isDue at hDue
  split at hDue
  · next hPhase => exact (c.walk.rank_advance c.delivery).2 hPhase
  · next hPhase =>
      simp only [step, Walk.arrive, hPhase, Walk.rank]
      omega
  · next hPhase => simp [Walk.rank, hPhase] at hBusy
  · next hPhase => simp [Walk.rank, hPhase] at hBusy
  · next hPhase => simp [Walk.rank, hPhase] at hBusy
  · next hPhase => simp [Walk.rank, hPhase] at hBusy
  · cases hDue

variable {schedule : Nat → Event}

theorem along_rank_le (c : Crawl) (schedule : Nat → Event) {k j : Nat} (h : k ≤ j) :
    (c.along schedule j).walk.rank ≤ (c.along schedule k).walk.rank := by
  induction j, h using Nat.le_induction with
  | base => exact le_refl _
  | succ j _ ih => exact (rank_step_le _ _).trans ih

/-- The walker comes to the end of its plan, or leaves it. -/
theorem along_leaves (hFair : c.IsFair schedule) (k : Nat) :
    ∃ j, (c.along schedule j).walk.rank = 0 := by
  induction hRank : (c.along schedule k).walk.rank using Nat.strong_induction_on generalizing k with
  | _ n ih =>
      by_cases hDone : (c.along schedule k).walk.rank = 0
      · exact ⟨k, hDone⟩
      · obtain ⟨j, hLater, hDue⟩ := hFair k fun r hEnded => hDone (by simp [Walk.rank, hEnded])
        have hMono := c.along_rank_le schedule hLater
        by_cases hLeft : (c.along schedule j).walk.rank = 0
        · exact ⟨j, hLeft⟩
        · have hLess : (c.along schedule (j + 1)).walk.rank < (c.along schedule j).walk.rank :=
            rank_step_lt hDue hLeft
          exact ih _ (by omega) (j + 1) rfl

/-- The walker only waits for its delivery, or no longer even that. -/
theorem OnCourse.closed (h : c.OnCourse) (hRank : c.walk.rank = 0) :
    c.walk.phase = .closing ∨ c.walk.phase = .ended (.ok ()) ∧ c.delivery.stage = .idle := by
  have hFits := h.fits
  cases hPhase : c.walk.phase with
  | walking | waiting => simp [Walk.rank, hPhase] at hRank
  | closing => exact .inl rfl
  | stopping f =>
      rw [hPhase] at hFits
      exact hFits.elim
  | ended r =>
      rw [hPhase] at hFits
      cases r with
      | ok _ => exact .inr ⟨rfl, hFits⟩
      | error f => exact hFits.elim

/-- What an event is to a delivery that the walker only waits for. -/
def relayed : Event → Delivery.Event
  | .delivery e => if isOfSender e then e else .add []
  | _ => .add []

theorem relayed_cases (e : Event) : isOfSender (relayed e) = true ∨ relayed e = .add [] := by
  unfold relayed
  split
  · split
    · exact .inl ‹_›
    · exact .inr rfl
  · exact .inr rfl

theorem accepted_relayed (d : Delivery) (e : Event) : d.accepted (relayed e) = [] := by
  rcases relayed_cases e with hSender | hNothing
  · cases hEvent : relayed e <;> first | rfl | simp [hEvent, isOfSender] at hSender
  · rw [hNothing]
    simp only [Delivery.accepted]
    split <;> rfl

theorem step_relayed_of_idle {d : Delivery} (h : d.Orderly) (hIdle : d.stage = .idle) (e : Event) :
    d.step (relayed e) = d := by
  rcases relayed_cases e with hSender | hNothing
  · exact Delivery.step_of_idle h hIdle hSender
  · rw [hNothing, Delivery.step_add_nil]

theorem step_of_closed (h : c.OnCourse) (hRank : c.walk.rank = 0) {e : Event} (hCancel : e ≠ .cancel) :
    (c.step e).delivery = c.delivery.step (relayed e) := by
  have hOrders : c.walk.orders c.delivery = [] := by
    rcases h.closed hRank with hPhase | ⟨hPhase, _⟩ <;> simp [Walk.orders, hPhase]
  have hNothing := c.delivery.step_add_nil
  rw [step_delivery]
  cases e with
  | advance =>
      rw [orders, hOrders]
      exact hNothing.symm
  | arrive => exact hNothing.symm
  | cancel => exact absurd rfl hCancel
  | delivery e =>
      simp only [orders, relayed]
      split
      · rfl
      · exact hNothing.symm

/-- While the delivery is not at rest yet, the turn that is due is the delivery's. -/
theorem isDue_relayed (hPhase : c.walk.phase = .closing) (hBusy : c.delivery.stage ≠ .idle) {e : Event}
    (hDue : c.isDue e = true) : c.delivery.isDue (relayed e) = true := by
  simp only [isDue, hPhase] at hDue
  cases e with
  | delivery e =>
      simp only [Bool.and_eq_true] at hDue
      have hTurn := hDue.2
      have hSender : isOfSender e = true := by
        cases e <;> first | rfl | simp [Delivery.isDue] at hTurn
      simpa only [relayed, hSender, if_true] using hTurn
  | advance => exact absurd (of_decide_eq_true hDue) hBusy
  | arrive | cancel => cases hDue

section
variable (hCourse : ∀ k, (c.along schedule k).OnCourse) (hCancel : ∀ k, schedule k ≠ .cancel)
include hCourse hCancel

/-- Behind a walker that waits, the delivery goes its own way. -/
theorem along_closed {k : Nat} (hRank : (c.along schedule k).walk.rank = 0) (i : Nat) :
    (c.along schedule (k + i)).delivery =
      (c.along schedule k).delivery.along (fun i => relayed (schedule (k + i))) i := by
  induction i with
  | zero => rfl
  | succ i ih =>
      have hLater := c.along_rank_le schedule (Nat.le_add_right k i)
      rw [Delivery.along, ← ih]
      exact step_of_closed (hCourse (k + i)) (by omega) (hCancel (k + i))

theorem along_idles {m : Nat} (hGoverned : c.delivery.Governed m) (hFair : c.IsFair schedule) {k : Nat}
    (hRank : (c.along schedule k).walk.rank = 0) :
    ∃ j, k ≤ j ∧ (c.along schedule j).delivery.stage = .idle := by
  by_contra hNever
  have hBusy (i : Nat) : (c.along schedule (k + i)).delivery.stage ≠ .idle :=
    fun hIdle => hNever ⟨k + i, Nat.le_add_right k i, hIdle⟩
  have hClosing (i : Nat) : (c.along schedule (k + i)).walk.phase = .closing := by
    have hLater := c.along_rank_le schedule (Nat.le_add_right k i)
    exact ((hCourse (k + i)).closed (by omega)).resolve_right fun h => hBusy i h.2
  have hSame := along_closed hCourse hCancel hRank
  have hNow : (c.along schedule k).delivery.Governed m := by
    rw [along_eq_run, run_delivery]
    exact hGoverned.run _
  have hEnding : (c.along schedule k).delivery.IsEnding := by
    have hFits := (hCourse (k + 0)).fits
    rw [hClosing 0] at hFits
    have hStage := hFits.resolve_right (hBusy 0)
    exact ⟨hBusy 0, fun hRunning => by simp [hRunning, Stage.isClosing] at hStage⟩
  have hTurns : (c.along schedule k).delivery.IsFair fun i => relayed (schedule (k + i)) := by
    intro i _
    obtain ⟨j, hLater, hDue⟩ := hFair (k + i) fun r hEnded => by
      rw [hClosing] at hEnded
      cases hEnded
    obtain ⟨n, rfl⟩ := Nat.exists_eq_add_of_le hLater
    refine ⟨i + n, Nat.le_add_right i n, ?_⟩
    rw [Nat.add_assoc] at hDue
    rw [← hSame]
    exact isDue_relayed (hClosing (i + n)) (hBusy (i + n)) hDue
  obtain ⟨i, hIdle⟩ := Delivery.along_rests hNow (fun i => accepted_relayed _ _) hTurns 0 hEnding
  rw [← hSame] at hIdle
  exact hBusy i hIdle

/-- A crawl that stays on its course comes to a good end. -/
theorem along_ends {m : Nat} (hGoverned : c.delivery.Governed m) (hFair : c.IsFair schedule) :
    ∃ k, (c.along schedule k).walk.phase = .ended (.ok ()) := by
  obtain ⟨start, hLeft⟩ := along_leaves hFair 0
  obtain ⟨k, hAfter, hIdle⟩ := along_idles hCourse hCancel hGoverned hFair hLeft
  by_contra hNever
  have hRank (j : Nat) (hLater : k ≤ j) : (c.along schedule j).walk.rank = 0 := by
    have hMono := c.along_rank_le schedule (hAfter.trans hLater)
    omega
  have hClosing (j : Nat) (hLater : k ≤ j) : (c.along schedule j).walk.phase = .closing :=
    ((hCourse j).closed (hRank j hLater)).resolve_right fun h => hNever ⟨j, h.1⟩
  -- a delivery that rests stays at rest, so the next turn that is due is the walker's
  have hRests (j : Nat) (hLater : k ≤ j) : (c.along schedule j).delivery.stage = .idle := by
    induction j, hLater using Nat.le_induction with
    | base => exact hIdle
    | succ j hLater ih =>
        rw [along, step_of_closed (hCourse j) (hRank j hLater) (hCancel j),
          step_relayed_of_idle (hCourse j).orderly ih]
        exact ih
  obtain ⟨j, hLater, hDue⟩ := hFair k fun r hEnded => by
    rw [hClosing k (le_refl k)] at hEnded
    cases hEnded
  have hNow := hClosing j hLater
  have hNext := hClosing (j + 1) (hLater.trans (Nat.le_succ j))
  rw [along] at hNext
  cases hEvent : schedule j with
  | advance => simp [hEvent, step, Walk.advance, Walk.isReady, hNow, hRests j hLater] at hNext
  | delivery e => simp [hEvent, isDue, hNow, hRests j hLater] at hDue
  | arrive | cancel => simp [hEvent, isDue, hNow] at hDue

end

end Crawl
end Indexer
