import Indexer.Crawl.Event
import Indexer.Proofs.Delivery.Record

/-! The course of a crawl. Whatever the walker does to its delivery can be told as
events of the delivery, so a crawl is a run of its delivery; and the operations
that are handed over on the way are those of the plan, from its front. -/
namespace Indexer

namespace Crawl

/-- What a step of the plan does to the delivery. -/
def Step.orders (d : Delivery) : Step → List Delivery.Event
  | .submit op =>
    match (d.add op).2 with
    | .ok _ => [.add [op]]
    | .error _ => [.add [op], .abort]
  | .fail _ => [.abort]
  | _ => []

/-- What the walker does to its delivery when it goes on. -/
def Walk.orders (w : Walk) (d : Delivery) : List Delivery.Event :=
  match w.phase, w.plan with
  | .walking, [] => [.close]
  | .walking, step :: _ => step.orders d
  | _, _ => []

/-- What the walker does to its delivery when it is cancelled. -/
def Walk.lastOrders (w : Walk) (d : Delivery) : List Delivery.Event :=
  match w.phase, d.stage with
  | .ended _, _ | .closing, .leaving => []
  | .closing, .sealed => [.abort, .abandon]
  | .stopping _, _ => [.abandon]
  | _, _ => [.abort]

/-- What an event of a crawl does to its delivery. -/
def orders (c : Crawl) : Event → List Delivery.Event
  | .advance => c.walk.orders c.delivery
  | .arrive => []
  | .cancel => c.walk.lastOrders c.delivery
  | .delivery e => if isOfSender e then [e] else []

/-- What the events of a crawl do to its delivery. -/
def course (c : Crawl) : List Event → List Delivery.Event
  | [] => []
  | e :: events => c.orders e ++ (c.step e).course events

theorem course_append (c : Crawl) (before after : List Event) :
    c.course (before ++ after) = c.course before ++ (c.run before).course after := by
  induction before generalizing c with
  | nil => rfl
  | cons e before ih =>
      rw [List.cons_append, course, course, ih, List.append_assoc]
      rfl

theorem Walk.take_delivery (w : Walk) (d : Delivery) (step : Step) :
    (w.take d step).2 = d.run (step.orders d) := by
  cases step with
  | submit op =>
      cases hAdd : d.add op with
      | mk next result =>
          have hStep : d.step (.add [op]) = next := congrArg Prod.fst hAdd
          simp only [take, Step.orders, hAdd]
          cases result with
          | ok _ => exact hStep.symm
          | error f => exact congrArg Delivery.abort hStep.symm
  | _ => rfl

theorem Walk.advance_delivery (w : Walk) (d : Delivery) :
    (w.advance d).2 = d.run (w.orders d) := by
  unfold advance orders
  cases hPhase : w.phase with
  | walking =>
      have hReady : w.isReady d = true := by simp [isReady, hPhase]
      rw [if_pos hReady]
      cases hPlan : w.plan with
      | nil => rfl
      | cons step rest => exact take_delivery _ d step
  | waiting | closing | stopping f | ended r =>
      split <;> rfl

/-- A crawl that is cancelled is over, and its delivery is given up; or it is too early or too late. -/
theorem Walk.cancel_cases (w : Walk) (d : Delivery) :
    (w.cancel d = (w, d) ∧ w.lastOrders d = []) ∨
    ∃ p, w.cancel d = ({ w with phase := p }, d.run (w.lastOrders d)) ∧
      (w.lastOrders d = [.abort] ∨ w.lastOrders d = [.abandon] ∨ w.lastOrders d = [.abort, .abandon]) ∧
      ((∃ f, p = .stopping f) ∨ ∃ f, p = .ended (.error f)) := by
  unfold cancel lastOrders
  cases hPhase : w.phase with
  | walking | waiting => exact .inr ⟨_, rfl, .inl rfl, .inl ⟨_, rfl⟩⟩
  | stopping f => exact .inr ⟨_, rfl, .inr (.inl rfl), .inr ⟨_, rfl⟩⟩
  | ended r => exact .inl ⟨rfl, rfl⟩
  | closing =>
      cases hStage : d.stage with
      | leaving => exact .inl ⟨rfl, rfl⟩
      | sealed => exact .inr ⟨_, rfl, .inr (.inr rfl), .inr ⟨_, rfl⟩⟩
      | _ => exact .inr ⟨_, rfl, .inl rfl, .inl ⟨_, rfl⟩⟩

theorem Walk.cancel_delivery (w : Walk) (d : Delivery) :
    (w.cancel d).2 = d.run (w.lastOrders d) := by
  rcases w.cancel_cases d with ⟨hCancel, hNone⟩ | ⟨p, hCancel, _⟩
  · rw [hCancel, hNone]
    rfl
  · rw [hCancel]

theorem step_delivery (c : Crawl) (e : Event) :
    (c.step e).delivery = c.delivery.run (c.orders e) := by
  cases e with
  | advance => exact c.walk.advance_delivery c.delivery
  | arrive => rfl
  | cancel =>
      exact c.walk.cancel_delivery c.delivery
  | delivery e =>
      simp only [step, orders]
      split <;> rfl

/-- The delivery of a crawl runs through the course of the crawl. -/
theorem run_delivery (c : Crawl) (events : List Event) :
    (c.run events).delivery = c.delivery.run (c.course events) := by
  induction events generalizing c with
  | nil => rfl
  | cons e events ih =>
      rw [course, Delivery.run_append, ← step_delivery]
      exact ih (c.step e)

/-- The operations that an event hands to a delivery, whether they are taken or not. -/
def handedBy : Delivery.Event → List Operation
  | .add group => group
  | _ => []

/-- The operations that are handed over in the course of a crawl. -/
def handed (c : Crawl) (events : List Event) : List Operation :=
  (c.course events).flatMap handedBy

/-- The operations of a step. -/
def Step.submits : Step → List Operation
  | .submit op => [op]
  | _ => []

/-- The operations that some steps submit. -/
def submitted (steps : List Step) : List Operation := steps.flatMap Step.submits

@[simp] theorem submitted_nil : submitted [] = [] := rfl

@[simp] theorem submitted_cons (step : Step) (steps : List Step) :
    submitted (step :: steps) = step.submits ++ submitted steps := rfl

@[simp] theorem submitted_append (steps more : List Step) :
    submitted (steps ++ more) = submitted steps ++ submitted more := List.flatMap_append

def Step.isFail : Step → Bool
  | .fail _ => true
  | _ => false

theorem Step.handed_orders (d : Delivery) (step : Step) :
    (step.orders d).flatMap handedBy = step.submits := by
  cases step with
  | submit op =>
      simp only [orders]
      split <;> rfl
  | _ => rfl

/-- The walker has left its plan for good. -/
def Walk.IsOver (w : Walk) : Prop :=
  match w.phase with
  | .walking | .waiting => False
  | _ => True

theorem handed_of_sender {e : Delivery.Event} (h : isOfSender e = true) : handedBy e = [] := by
  cases e with
  | add group => cases h
  | _ => rfl

theorem Walk.take_plan (w : Walk) (d : Delivery) (step : Step) :
    (w.take d step).1.plan = w.plan := by
  cases step with
  | submit op =>
      simp only [take]
      split <;> rfl
  | _ => rfl

theorem Walk.isOver_take (w : Walk) (d : Delivery) {step : Step} (h : step.isFail = true) :
    (w.take d step).1.IsOver := by
  cases step with
  | fail f => trivial
  | _ => cases h

/-- The walker goes on by the first step of the plan, or without one. -/
theorem Walk.advance_plan (w : Walk) (d : Delivery) :
    ((w.advance d).1.plan = w.plan ∧ (w.orders d).flatMap handedBy = [] ∧
      (w.IsOver → (w.advance d).1.IsOver)) ∨
    ∃ step, ¬w.IsOver ∧ w.plan = step :: (w.advance d).1.plan ∧
      (w.orders d).flatMap handedBy = step.submits ∧
      (step.isFail = true → (w.advance d).1.IsOver) := by
  unfold advance orders
  cases hPhase : w.phase with
  | walking =>
      have hReady : w.isReady d = true := by simp [isReady, hPhase]
      rw [if_pos hReady]
      cases hPlan : w.plan with
      | nil => exact .inl ⟨rfl, rfl, fun _ => trivial⟩
      | cons step rest =>
          refine .inr ⟨step, by simp [IsOver, hPhase], ?_, step.handed_orders d, isOver_take _ d⟩
          rw [take_plan]
  | waiting =>
      rw [if_neg (by simp [isReady, hPhase])]
      exact .inl ⟨rfl, rfl, id⟩
  | closing | stopping f =>
      left
      split
      · exact ⟨rfl, rfl, fun _ => trivial⟩
      · exact ⟨rfl, rfl, id⟩
  | ended r =>
      left
      split <;> exact ⟨rfl, rfl, id⟩

/-- An event either leaves the plan as it is and hands nothing over, or takes the
first step of the plan and hands over what it submits. -/
theorem step_plan (c : Crawl) (e : Event) :
    ((c.step e).walk.plan = c.walk.plan ∧ (c.orders e).flatMap handedBy = [] ∧
      (c.walk.IsOver → (c.step e).walk.IsOver)) ∨
    ∃ step, ¬c.walk.IsOver ∧ c.walk.plan = step :: (c.step e).walk.plan ∧
      (c.orders e).flatMap handedBy = step.submits ∧
      (step.isFail = true → (c.step e).walk.IsOver) := by
  cases e with
  | advance => exact c.walk.advance_plan c.delivery
  | arrive =>
      refine .inl ⟨?_, rfl, ?_⟩
      · simp only [step, Walk.arrive]
        split <;> rfl
      · simp only [step, Walk.arrive, Walk.IsOver]
        cases hPhase : c.walk.phase <;> simp [hPhase]
  | cancel =>
      left
      simp only [step, orders]
      rcases c.walk.cancel_cases c.delivery with ⟨hCancel, hNone⟩ | ⟨p, hCancel, hOrders, hPhase⟩
      · rw [hCancel, hNone]
        exact ⟨rfl, rfl, id⟩
      · rw [hCancel]
        refine ⟨rfl, ?_, fun _ => ?_⟩
        · rcases hOrders with hOrders | hOrders | hOrders <;> rw [hOrders] <;> rfl
        · rcases hPhase with ⟨f, rfl⟩ | ⟨f, rfl⟩ <;> trivial
  | delivery e =>
      left
      simp only [step, orders]
      split
      · next hSender => exact ⟨rfl, by simp [handed_of_sender hSender], id⟩
      · exact ⟨rfl, rfl, id⟩

theorem handed_cons (c : Crawl) (e : Event) (events : List Event) :
    c.handed (e :: events) = (c.orders e).flatMap handedBy ++ (c.step e).handed events :=
  List.flatMap_append

/-- Once the walker has left its plan, nothing is handed over any more. -/
theorem run_of_over {c : Crawl} (h : c.walk.IsOver) (events : List Event) :
    c.handed events = [] ∧ (c.run events).walk.plan = c.walk.plan := by
  induction events generalizing c with
  | nil => exact ⟨rfl, rfl⟩
  | cons e events ih =>
      rcases c.step_plan e with ⟨hPlan, hHanded, hOver⟩ | ⟨step, hUnderway, _⟩
      · obtain ⟨hLater, hSame⟩ := ih (hOver h)
        exact ⟨by rw [handed_cons, hHanded, hLater]; rfl, hSame.trans hPlan⟩
      · exact absurd h hUnderway

/-- What is handed over are the operations of the steps taken so far. Steps are
taken from the front of the plan, and none is taken after one that fails. -/
theorem run_plan (c : Crawl) (events : List Event) :
    ∃ taken rest, c.walk.plan = taken ++ rest ∧ c.handed events = submitted taken ∧
      (∀ step ∈ taken, step.isFail = false) ∧
      (rest = (c.run events).walk.plan ∨ ∃ f, rest = .fail f :: (c.run events).walk.plan) := by
  induction events generalizing c with
  | nil => exact ⟨[], c.walk.plan, rfl, rfl, by simp, .inl rfl⟩
  | cons e events ih =>
      rcases c.step_plan e with ⟨hPlan, hHanded, _⟩ | ⟨step, _, hPlan, hHanded, hFail⟩
      · obtain ⟨taken, rest, hSplit, hLater, hSteady, hRest⟩ := ih (c.step e)
        exact ⟨taken, rest, hPlan ▸ hSplit, by rw [handed_cons, hHanded, hLater]; rfl, hSteady, hRest⟩
      · cases hStep : step.isFail with
        | true =>
            obtain ⟨hLater, hSame⟩ := run_of_over (hFail hStep) events
            cases step with
            | fail f =>
                refine ⟨[], _, rfl, ?_, by simp, .inr ⟨f, hPlan.trans ?_⟩⟩
                · rw [handed_cons, hHanded, hLater]
                  rfl
                · exact congrArg (Step.fail f :: ·) hSame.symm
            | _ => cases hStep
        | false =>
            obtain ⟨taken, rest, hSplit, hLater, hSteady, hRest⟩ := ih (c.step e)
            refine ⟨step :: taken, rest, by rw [hPlan, hSplit]; rfl, ?_, ?_, hRest⟩
            · rw [handed_cons, hHanded, hLater]
              rfl
            · intro other hOther
              rcases List.mem_cons.mp hOther with rfl | hOther
              · exact hStep
              · exact hSteady other hOther

theorem accepted_subset (d : Delivery) (e : Delivery.Event) : d.accepted e ⊆ handedBy e := by
  cases e with
  | add group =>
      simp only [Delivery.accepted, handedBy]
      split
      · exact List.Subset.refl _
      · exact List.nil_subset _
  | _ => exact List.nil_subset _

/-- Only what is handed over can come in. -/
theorem collect_accepted_subset (d : Delivery) (events : List Delivery.Event) :
    d.collect Delivery.accepted events ⊆ events.flatMap handedBy := by
  induction events generalizing d with
  | nil => exact List.nil_subset _
  | cons e events ih =>
      rw [Delivery.collect, List.flatMap_cons]
      exact List.append_subset.mpr
        ⟨List.subset_append_of_subset_left _ (accepted_subset d e),
          List.subset_append_of_subset_right _ (ih _)⟩

/-- The clock is read where an event has to do with it. -/
def Event.IsTimed : Event → Prop
  | .delivery e => e.IsTimed
  | _ => True

instance : DecidablePred Event.IsTimed
  | .delivery e => inferInstanceAs (Decidable e.IsTimed)
  | .advance | .arrive | .cancel => isTrue trivial

theorem Step.isEnd_orders (d : Delivery) (step : Step) :
    ∀ order ∈ step.orders d, order.isEnd = false := by
  intro order hOrder
  cases step with
  | submit op =>
      simp only [orders] at hOrder
      split at hOrder
      · obtain rfl := List.mem_singleton.mp hOrder
        rfl
      · rcases List.mem_pair.mp hOrder with rfl | rfl <;> rfl
  | fail f =>
      obtain rfl := List.mem_singleton.mp hOrder
      rfl
  | _ => cases hOrder

/-- What the walker does to its delivery ends no request. -/
theorem Walk.isEnd_orders (w : Walk) (d : Delivery) : ∀ order ∈ w.orders d, order.isEnd = false := by
  intro order hOrder
  unfold orders at hOrder
  split at hOrder
  · obtain rfl := List.mem_singleton.mp hOrder
    rfl
  · exact Step.isEnd_orders d _ order hOrder
  · cases hOrder

theorem timed_of_orders {c : Crawl} {e : Event} (h : e.IsTimed) :
    ∀ order ∈ c.orders e, order.IsTimed := by
  cases e with
  | advance =>
      exact fun order hOrder =>
        Delivery.Event.isTimed_of_other (c.walk.isEnd_orders c.delivery order hOrder)
  | arrive => simp [orders]
  | cancel =>
      simp only [orders]
      rcases c.walk.cancel_cases c.delivery with ⟨_, hNone⟩ | ⟨_, _, hOrders, _⟩
      · simp [hNone]
      · rcases hOrders with hOrders | hOrders | hOrders <;> simp [hOrders, Delivery.Event.IsTimed]
  | delivery e =>
      simp only [orders]
      split
      · intro order hOrder
        obtain rfl := List.mem_singleton.mp hOrder
        exact h
      · simp

theorem timed_of_course {c : Crawl} {events : List Event} (h : ∀ e ∈ events, e.IsTimed) :
    ∀ order ∈ c.course events, order.IsTimed := by
  induction events generalizing c with
  | nil => simp [course]
  | cons e events ih =>
      intro order hOrder
      rcases List.mem_append.mp hOrder with hNow | hLater
      · exact timed_of_orders (h e List.mem_cons_self) order hNow
      · exact ih (fun later hIn => h later (List.mem_cons_of_mem e hIn)) order hLater

end Crawl
end Indexer
