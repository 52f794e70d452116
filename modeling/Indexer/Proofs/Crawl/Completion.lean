import Indexer.Proofs.Crawl.Submission
import Indexer.Proofs.Delivery.Whole

/-! Crawls that come to a good end. Such a crawl was never given up, so it took
every step of its plan, and its delivery took all that the steps submitted. If
nothing was reported or left behind, all of that is on record. -/
namespace Indexer

/-- The sender and the clock do nothing to a delivery that rests. -/
theorem Delivery.step_of_idle {d : Delivery} (h : d.Orderly) (hIdle : d.stage = .idle)
    {e : Delivery.Event} (hSender : Crawl.isOfSender e = true) : d.step e = d := by
  have hRest := h.rested hIdle
  cases e with
  | tick =>
      simp only [step, tick, hIdle, Stage.isTimed, Bool.false_and, Bool.false_eq_true, if_false]
  | take => simp only [step, take, hIdle]
  | answer now reply => simp only [step, answer, hRest]
  | expire now => simp only [step, expire, hRest]
  | wake => simp only [step, wake, hRest]
  | proceed => simp only [step, proceed, hIdle]
  | _ => cases hSender

namespace Crawl

instance (p : Phase) : Decidable (p = .ended (.ok ())) :=
  match p with
  | .ended (.ok ()) => isTrue rfl
  | .ended (.error _) | .walking | .waiting | .closing | .stopping _ => isFalse nofun

/-- The walker has not given up its crawl. -/
def Walk.IsGoing (w : Walk) : Prop :=
  match w.phase with
  | .stopping _ | .ended (.error _) => False
  | _ => True

def Step.isSkip : Step → Bool
  | .skipped => true
  | _ => false

/-- The crawl has taken some steps of its plan in full: none of them fails, and the delivery took what
they submit. -/
structure Covers (c : Crawl) (orders : List Delivery.Event) (taken : List Step) (c' : Crawl) : Prop where
  plan : c.walk.plan = taken ++ c'.walk.plan
  steady : ∀ step ∈ taken, step.isFail = false
  accepted : c.delivery.collect Delivery.accepted orders = submitted taken
  skipped : c'.walk.skipped = c.walk.skipped + taken.countP Step.isSkip
  kept : .abort ∉ orders

theorem Covers.trans {c mid c' : Crawl} {orders more : List Delivery.Event} {taken later : List Step}
    (h : Covers c orders taken mid) (hLater : Covers mid more later c')
    (hDelivery : mid.delivery = c.delivery.run orders) :
    Covers c (orders ++ more) (taken ++ later) c' where
  plan := by rw [h.plan, hLater.plan, List.append_assoc]
  steady step hStep := (List.mem_append.mp hStep).elim (h.steady step) (hLater.steady step)
  accepted := by
    rw [Delivery.collect_append, ← hDelivery, h.accepted, hLater.accepted, submitted_append]
  skipped := by rw [hLater.skipped, h.skipped, List.countP_append, Nat.add_assoc]
  kept hAbort := (List.mem_append.mp hAbort).elim h.kept hLater.kept

/-- No step is taken in what only moves the crawl along. -/
theorem Covers.still {c c' : Crawl} {orders : List Delivery.Event}
    (hPlan : c'.walk.plan = c.walk.plan) (hSkipped : c'.walk.skipped = c.walk.skipped)
    (hNothing : c.delivery.collect Delivery.accepted orders = []) (hKept : .abort ∉ orders) :
    Covers c orders [] c' where
  plan := hPlan.symm
  steady _ hStep := by cases hStep
  accepted := hNothing
  skipped := hSkipped
  kept := hKept

/-- What a step of the plan does as long as the crawl is not given up: its operation is taken. -/
theorem Walk.take_going {w : Walk} {d : Delivery} {step : Step}
    (h : (w.take d step).1.IsGoing) :
    step.isFail = false ∧ .abort ∉ step.orders d ∧
      d.collect Delivery.accepted (step.orders d) = step.submits ∧
      (w.take d step).1.skipped = w.skipped + [step].countP Step.isSkip := by
  cases step with
  | note r | scanned | unchanged | skipped | wait => exact ⟨rfl, by simp [Step.orders], rfl, rfl⟩
  | fail f => exact h.elim
  | submit op =>
      cases hAdd : d.add op with
      | mk next result =>
          cases result with
          | error f =>
              simp only [take, hAdd] at h
              exact h.elim
          | ok _ =>
              have hGroup : (d.addGroup [op]).2 = .ok () := congrArg Prod.snd hAdd
              simp only [take, hAdd, Step.orders]
              refine ⟨rfl, by simp, ?_, rfl⟩
              simp [Delivery.collect, Delivery.accepted, hGroup, Step.submits]

/-- A walker that is not walking leaves its plan alone. -/
theorem Walk.advance_still {w : Walk} (d : Delivery) (h : w.phase ≠ .walking) :
    (w.advance d).1.plan = w.plan ∧ (w.advance d).1.skipped = w.skipped ∧ w.orders d = [] ∧
      ((w.advance d).1.IsGoing → w.IsGoing) := by
  unfold advance orders IsGoing
  cases hPhase : w.phase with
  | walking => exact absurd hPhase h
  | waiting | closing =>
      refine ⟨?_, ?_, rfl, fun _ => trivial⟩ <;> split <;> rfl
  | stopping f =>
      split
      · exact ⟨rfl, rfl, rfl, id⟩
      · exact ⟨rfl, rfl, rfl, fun hGoing => by rwa [hPhase] at hGoing⟩
  | ended r =>
      rw [if_neg (by simp [isReady, hPhase])]
      exact ⟨rfl, rfl, rfl, fun hGoing => by rwa [hPhase] at hGoing⟩

theorem advance_covers {c : Crawl} (h : (c.step .advance).walk.IsGoing) :
    c.walk.IsGoing ∧ ∃ taken, Covers c (c.orders .advance) taken (c.step .advance) := by
  obtain ⟨w, d⟩ := c
  by_cases hPhase : w.phase = .walking
  · have hReady : w.isReady d = true := by simp [Walk.isReady, hPhase]
    have hGoing : w.IsGoing := by simp [Walk.IsGoing, hPhase]
    simp only [step, Walk.advance, orders, Walk.orders, hReady, if_true, hPhase] at h ⊢
    cases hPlan : w.plan with
    | nil => exact ⟨hGoing, [], .still hPlan.symm rfl rfl (by simp)⟩
    | cons step rest =>
        simp only [hPlan] at h ⊢
        obtain ⟨hSteady, hKept, hTaken, hSkipped⟩ := Walk.take_going h
        refine ⟨hGoing, [step], ?_, ?_, ?_, hSkipped, hKept⟩
        · rw [Walk.take_plan]
          exact hPlan
        · simpa using hSteady
        · rw [hTaken]
          exact (List.append_nil _).symm
  · obtain ⟨hPlan, hSkipped, hOrders, hGoing⟩ := w.advance_still d hPhase
    refine ⟨hGoing h, [], ?_⟩
    rw [orders, hOrders]
    exact .still hPlan hSkipped rfl List.not_mem_nil

/-- As long as the crawl is not given up, what happens takes steps of the plan or leaves it alone. -/
theorem step_covers {c : Crawl} {e : Event} (h : (c.step e).walk.IsGoing) :
    c.walk.IsGoing ∧ ∃ taken, Covers c (c.orders e) taken (c.step e) := by
  cases e with
  | advance => exact advance_covers h
  | arrive =>
      simp only [step, orders, Walk.arrive, Walk.IsGoing] at h ⊢
      cases hPhase : c.walk.phase <;> simp only [hPhase] at h ⊢
      all_goals exact ⟨h, [], .still rfl rfl rfl List.not_mem_nil⟩
  | cancel =>
      simp only [step, orders] at h ⊢
      rcases c.walk.cancel_cases c.delivery with ⟨hCancel, hNone⟩ | ⟨p, hCancel, _, hPhase⟩
      · rw [hCancel] at h ⊢
        rw [hNone]
        exact ⟨h, [], .still rfl rfl rfl List.not_mem_nil⟩
      · rw [hCancel] at h
        rcases hPhase with ⟨f, rfl⟩ | ⟨f, rfl⟩ <;> exact h.elim
  | delivery e =>
      simp only [step, orders] at h ⊢
      by_cases hSender : isOfSender e = true
      · simp only [if_pos hSender] at h ⊢
        refine ⟨h, [], .still rfl rfl ?_ ?_⟩
        · cases e with
          | add group => cases hSender
          | _ => rfl
        · cases e with
          | abort => cases hSender
          | _ => simp
      · simp only [if_neg hSender] at h ⊢
        exact ⟨h, [], .still rfl rfl rfl List.not_mem_nil⟩

theorem run_covers {c : Crawl} {events : List Event} (h : (c.run events).walk.IsGoing) :
    c.walk.IsGoing ∧ ∃ taken, Covers c (c.course events) taken (c.run events) := by
  induction events generalizing c with
  | nil => exact ⟨h, [], .still rfl rfl rfl List.not_mem_nil⟩
  | cons e events ih =>
      obtain ⟨hNext, later, hLater⟩ := ih h
      obtain ⟨hGoing, taken, hTaken⟩ := step_covers hNext
      exact ⟨hGoing, taken ++ later, hTaken.trans hLater (c.step_delivery e)⟩

/-- A crawl is closed with its plan done, and it ends well with its delivery at rest. -/
structure IsSettled (c : Crawl) : Prop where
  closing : c.walk.phase = .closing → c.walk.plan = []
  ended : c.walk.phase = .ended (.ok ()) →
    c.walk.plan = [] ∧ c.delivery.stage = .idle ∧ c.delivery.closed = .ok ()

theorem isSettled_of_underway {c : Crawl}
    (h : ∀ r, c.walk.phase ≠ .closing ∧ c.walk.phase ≠ .ended (.ok r)) : c.IsSettled where
  closing hPhase := absurd hPhase (h ()).1
  ended hPhase := absurd hPhase (h ()).2

theorem isSettled_take {w : Walk} {d : Delivery} (hPhase : w.phase = .walking) (step : Step) :
    IsSettled ⟨(w.take d step).1, (w.take d step).2⟩ := by
  apply isSettled_of_underway
  intro r
  cases step with
  | submit op =>
      simp only [Walk.take]
      split
      · simp [hPhase]
      · simp [Walk.giveUp]
  | note r | scanned | unchanged | skipped => simp [Walk.take, hPhase]
  | wait | fail f => simp [Walk.take, Walk.giveUp]

theorem isSettled_advance {w : Walk} {d : Delivery} (h : IsSettled ⟨w, d⟩) :
    IsSettled ⟨(w.advance d).1, (w.advance d).2⟩ := by
  unfold Walk.advance
  split
  · next hReady =>
      split
      · next hPhase hPlan => exact ⟨fun _ => hPlan, by simp⟩
      · next step rest hPhase hPlan => exact isSettled_take (w := { w with plan := rest }) hPhase step
      · next hPhase =>
          have hIdle : d.stage = .idle := by simpa [Walk.isReady, hPhase] using hReady
          refine ⟨by simp, fun hEnded => ⟨h.closing hPhase, hIdle, ?_⟩⟩
          simpa using hEnded
      · exact isSettled_of_underway fun _ => by simp
      · exact h
  · exact h

theorem isSettled_step {c : Crawl} (hOrderly : c.delivery.Orderly) (h : c.IsSettled) (e : Event) :
    (c.step e).IsSettled := by
  cases e with
  | advance => exact isSettled_advance h
  | arrive =>
      simp only [step, Walk.arrive]
      split
      · exact isSettled_of_underway fun _ => by simp
      · exact h
  | cancel =>
      simp only [step]
      rcases c.walk.cancel_cases c.delivery with ⟨hCancel, _⟩ | ⟨p, hCancel, _, hPhase⟩
      · rw [hCancel]
        exact h
      · rw [hCancel]
        refine isSettled_of_underway fun _ => ?_
        rcases hPhase with ⟨f, rfl⟩ | ⟨f, rfl⟩ <;> exact ⟨by simp, by simp⟩
  | delivery e =>
      simp only [step]
      split
      · next hSender =>
          refine ⟨h.closing, fun hPhase => ?_⟩
          obtain ⟨hPlan, hIdle, hClosed⟩ := h.ended hPhase
          rw [Delivery.step_of_idle hOrderly hIdle hSender]
          exact ⟨hPlan, hIdle, hClosed⟩
      · exact h

theorem isSettled_run {c : Crawl} (hOrderly : c.delivery.Orderly) (h : c.IsSettled)
    (events : List Event) : (c.run events).IsSettled := by
  induction events generalizing c with
  | nil => exact h
  | cons e events ih =>
      apply ih _ (isSettled_step hOrderly h e)
      rw [step_delivery]
      exact hOrderly.run _

/-- What a crawl has done that came to a good end and reported nothing. -/
structure Succeeds (c : Crawl) (events : List Event) : Prop where
  steady : ∀ step ∈ c.walk.plan, step.isFail = false
  skipped : (c.run events).walk.skipped = c.walk.plan.countP Step.isSkip
  acknowledged : contents (c.delivery.collect Delivery.acknowledged (c.course events)) =
    contents (submitted c.walk.plan)
  recorded : (c.delivery.collect Delivery.receipts (c.course events)).foldlM Store.record
    c.delivery.coordinator.store = .ok (c.run events).delivery.coordinator.store

theorem walk_of_start {settings : Settings} {readers : Readers} {tree : FileTree} {root : Path}
    {now : DateTime} {store : Store} {c : Crawl}
    (h : start settings readers tree root now store = .ok c) : c.walk = .start c.walk.plan := by
  obtain ⟨_, _, rfl⟩ := start_eq h
  rfl

/-- A crawl that starts has not come to closing. -/
theorem isSettled_of_start {settings : Settings} {readers : Readers} {tree : FileTree} {root : Path}
    {now : DateTime} {store : Store} {c : Crawl}
    (h : start settings readers tree root now store = .ok c) : c.IsSettled :=
  isSettled_of_underway fun _ => by
    rw [walk_of_start h]
    exact ⟨nofun, nofun⟩

/-- Nor has it left anything behind. -/
theorem tidy_of_start {settings : Settings} {readers : Readers} {tree : FileTree} {root : Path}
    {now : DateTime} {store : Store} {c : Crawl}
    (h : start settings readers tree root now store = .ok c) : c.delivery.Tidy := by
  obtain ⟨_, _, rfl⟩ := start_eq h
  exact Delivery.tidy_of_stage rfl nofun

/-- A crawl that ends well has taken its whole plan, and its delivery is at rest. -/
theorem covers_of_ended {settings : Settings} {readers : Readers} {tree : FileTree} {root : Path}
    {now : DateTime} {store : Store} {c : Crawl}
    (hStart : start settings readers tree root now store = .ok c) {events : List Event}
    (hEnd : (c.run events).walk.phase = .ended (.ok ())) :
    Covers c (c.course events) c.walk.plan (c.run events) ∧ (c.run events).walk.plan = [] ∧
      (c.run events).delivery.stage = .idle ∧ (c.run events).delivery.closed = .ok () := by
  obtain ⟨hOrderly, _, _⟩ := started hStart
  have hGoing : (c.run events).walk.IsGoing := by rw [Walk.IsGoing, hEnd]; trivial
  obtain ⟨hPlan, hIdle, hClosed⟩ :=
    (isSettled_run hOrderly (isSettled_of_start hStart) events).ended hEnd
  obtain ⟨_, taken, hTaken⟩ := run_covers hGoing
  have hAll : c.walk.plan = taken := by rw [hTaken.plan, hPlan, List.append_nil]
  exact ⟨hAll ▸ hTaken, hPlan, hIdle, hClosed⟩

/-- The delivery of a crawl sees to all in time: nothing comes to wait for a request, and no fault ends
the run, once closing has found the buffer empty. -/
def InTime (c : Crawl) (events : List Event) : Prop :=
  c.delivery.Throughout Delivery.InTime (c.course events)

instance (c : Crawl) (events : List Event) : Decidable (c.InTime events) :=
  inferInstanceAs (Decidable (c.delivery.Throughout _ _))

/-- A directory with a single file. -/
def overtakenTree : FileTree :=
  ⟨[.plainDirectory ⟨1, ["r"]⟩,
    { Node.plainDirectory ⟨1, ["r", "a.txt"]⟩ with kind := .file, mtime := .int 1700000000 }]⟩

def overtakenCrawl : Except Fault Crawl :=
  start (.initial ⟨0, []⟩) ⟨fun _ => .error .noHandler, fun _ => .error .noHandler⟩ overtakenTree
    ⟨1, ["r"]⟩ ⟨⟨0⟩, none⟩ .empty

/-- The queue of the destination is full. -/
def busy : Event :=
  .delivery (.answer ⟨⟨0⟩, none⟩ (.ok (.obj [("items", .arr [.obj [("index", .obj
    [("status", .number (.int 429)),
      ("error", .obj
        [("type", .str "es_rejected_execution_exception"), ("reason", .str "queue full")])])]])])))

/-- The file is sent back twice. Between the two requests the flush timer goes off before the owner of
the delivery has looked at the buffer, so the owner finds it empty. -/
def overtakenEvents : List Event :=
  [.advance, .advance, .arrive, .advance, .advance, .delivery .take, busy, .delivery .proceed,
    .delivery .tick, .delivery .proceed, .delivery .take, busy, .delivery .proceed, .delivery .proceed,
    .advance]

/-- If all happens in time, a crawl that ends well leaves nothing behind, and nothing has ended or given
up its delivery. -/
theorem whole_of_ended {settings : Settings} {readers : Readers} {tree : FileTree} {root : Path}
    {now : DateTime} {store : Store} {c : Crawl}
    (hStart : start settings readers tree root now store = .ok c) {events : List Event}
    (hInTime : c.InTime events) (hEnd : (c.run events).walk.phase = .ended (.ok ())) :
    (c.run events).delivery.IsWhole ∧ (c.run events).delivery.outstanding = [] := by
  obtain ⟨_, _, _, hDelivery⟩ := start_ok hStart
  obtain ⟨hOrderly, _, _⟩ := started hStart
  obtain ⟨hTaken, _, hIdle, hClosed⟩ := covers_of_ended hStart hEnd
  rw [run_delivery] at hIdle hClosed ⊢
  have hTidied := (tidy_of_start hStart).run hOrderly _ hInTime
  have hFatal := hTidied.fatal_of_closed hIdle hClosed
  refine ⟨⟨hFatal, ?_⟩, hTidied.outstanding (hOrderly.run _) hIdle⟩
  exact Delivery.run_aborting hOrderly (by rw [hDelivery]; rfl) hTaken.kept hFatal

/-- A crawl that ends well has handed over all that was planned, and unless something was reported or
left behind all of it was acknowledged and is on record. -/
theorem succeeds_of_ended {settings : Settings} {readers : Readers} {tree : FileTree} {root : Path}
    {now : DateTime} {store : Store} {c : Crawl}
    (hStart : start settings readers tree root now store = .ok c) {events : List Event}
    (hInTime : c.InTime events) (hEnd : (c.run events).walk.phase = .ended (.ok ()))
    (hClean : (c.run events).delivery.coordinator.tally.failed = []) : c.Succeeds events := by
  obtain ⟨hOrderly, hNothing, _⟩ := started hStart
  obtain ⟨hTaken, _⟩ := covers_of_ended hStart hEnd
  obtain ⟨hWhole, hDone⟩ := whole_of_ended hStart hInTime hEnd
  rw [run_delivery] at hClean hWhole hDone
  refine ⟨hTaken.steady, ?_, ?_, ?_⟩
  · rw [hTaken.skipped, walk_of_start hStart]
    exact Nat.zero_add _
  · have hReported : c.delivery.collect Delivery.reported (c.course events) = [] := by
      have hReports := Delivery.run_reports hOrderly (c.course events)
      rw [hClean, List.map_nil, eq_comm, List.append_eq_nil_iff] at hReports
      exact List.map_eq_nil_iff.mp hReports.2
    -- nothing is outstanding, reported or lost, so the balance leaves what was acknowledged
    obtain ⟨lost, hBalance, hLost⟩ := Delivery.run_balance hOrderly (c.course events)
    rw [hDone, hReported, hNothing, hLost hWhole, hTaken.accepted] at hBalance
    simpa using hBalance
  · rw [run_delivery]
    exact Delivery.run_store_of_whole hOrderly _ hWhole

end Crawl
end Indexer
