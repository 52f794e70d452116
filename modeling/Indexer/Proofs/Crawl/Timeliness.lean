import Indexer.Proofs.Crawl.Progress

/-! When all happens in time. What is sent back can overtake closing in a single turn, the one between
the end of what was flushed and the look of the owner at the buffer. If no batch is cut in that turn, and
nothing is added after it, a delivery sees to all in time. In a crawl only the flush timer can cut a batch
there. -/
namespace Indexer
namespace Delivery

/-- The event cuts batches from the buffer, if there is something to cut. -/
def Event.isCut : Event → Bool
  | .add _ | .flush | .flushAll | .tick => true
  | _ => false

/-- No batch is cut before the owner looks at the buffer, and nothing is added after that. -/
structure IsUndisturbed (d : Delivery) (e : Event) : Prop where
  uncut : d.stage = .joined → e.isCut = false
  shut : d.stage.isParting = true → d.accepted e = []

theorem isUndisturbed_of_other {d : Delivery} {e : Event} (h : e.isCut = false) : d.IsUndisturbed e where
  uncut _ := h
  shut _ := by cases e <;> first | rfl | cases h

/-- The sender has nothing to do when the owner is about to look at the buffer, and nothing waits for it
when the owner has found the buffer empty. -/
structure IsQuiet (d : Delivery) : Prop where
  joined : d.stage = .joined → d.sender = .idle ∧ d.queue.getD [] = []
  parting : d.stage.isParting = true → d.sender = .idle ∧ d.Cleared ∧ d.fatal = none

variable {d d' : Delivery} {e : Event} {acked : List Receipt} {refused : List Operation}

theorem isQuiet_of_stage (hJoined : d.stage ≠ .joined) (hOpen : d.stage.isParting = false) : d.IsQuiet where
  joined hStage := absurd hStage hJoined
  parting hParting := by simp [hOpen] at hParting

theorem isQuiet_abort (h : d.stage ≠ .idle) : d.abort.IsQuiet := by
  unfold abort
  split
  · exact absurd ‹_› h
  · dsimp only
    split <;> exact isQuiet_of_stage (by simp) rfl

/-- Where nothing waits, no more can happen after the look of the owner than that the delivery comes to
rest. -/
theorem IsQuiet.move_of_parting (h : d.IsQuiet) (hParting : d.stage.isParting = true)
    (hMove : Move d [] acked refused d') :
    d'.sender = .idle ∧ d'.Cleared ∧ d'.fatal = none ∧ d'.requests = d.requests := by
  obtain ⟨hSender, hCleared, hFatal⟩ := h.parting hParting
  cases hMove with
  | stay | join | leave | mark | finish => exact ⟨hSender, hCleared, hFatal, rfl⟩
  | start => exact ⟨rfl, ⟨rfl, hCleared.2⟩, hFatal, rfl⟩
  | abandon => exact ⟨rfl, hCleared, hFatal, rfl⟩
  | arrange added s queue batches b hNext hQueue hPacks hRefused =>
      exact ⟨hSender, hCleared.of_packs hQueue hPacks, hFatal, rfl⟩
  | send batch rest hStage hIdle hQueue hWhole =>
      have hEmpty := hCleared.1
      simp [hQueue] at hEmpty
  | discard batch rest hStage hQueue hNotWhole =>
      have hEmpty := hCleared.1
      simp [hQueue] at hEmpty
  | conclude batch acked refused d' hBusy hEnds => simp [hSender] at hBusy
  | wake ops d' hBusy hPlaced hAwake => simp [hSender] at hBusy
  | abort log hStage =>
      refine ⟨hSender, ⟨?_, rfl⟩, hFatal, rfl⟩
      cases d.queue <;> rfl

/-- So nothing can come too late. -/
theorem IsQuiet.inTime (h : d.IsQuiet) (hOrderly : d.Orderly) (hUndisturbed : d.IsUndisturbed e) :
    d.InTime e := by
  intro hParting
  have hMove := step_move hOrderly e
  rw [groups_eq_nil (hUndisturbed.shut hParting)] at hMove
  obtain ⟨_, hCleared, hFatal, hRequests⟩ := h.move_of_parting hParting hMove
  rw [booked, booked, hRequests, waiting_of_cleared hCleared, hFatal]
  exact ⟨Nat.add_le_add_left (Nat.zero_le _) _, rfl⟩

/-- When the owner is about to look and no batch is cut, nobody but the owner can do anything. -/
theorem IsQuiet.step_of_joined (h : d.IsQuiet) (hStage : d.stage = .joined) (hUncut : e.isCut = false) :
    (d.step e).IsQuiet := by
  obtain ⟨hSender, hQueue⟩ := h.joined hStage
  have hSame (hStays : d.step e = d) : (d.step e).IsQuiet := by rwa [hStays]
  cases e with
  | add | flush | flushAll | tick => cases hUncut
  | start => exact hSame (by simp [step, start, hStage])
  | take =>
      refine hSame ?_
      simp only [step, take, hStage, hSender]
      cases hLine : d.queue with
      | none => rfl
      | some queue =>
          rw [hLine] at hQueue
          obtain rfl : queue = [] := hQueue
          rfl
  | answer => exact hSame (by simp only [step, answer, hSender])
  | expire => exact hSame (by simp only [step, expire, hSender])
  | wake => exact hSame (by simp only [step, wake, hSender])
  | close => exact hSame (by simp only [step, close, hStage])
  | abandon => exact hSame (by simp only [step, abandon, hStage])
  | abort => exact isQuiet_abort (by simp [hStage])
  | proceed =>
      simp only [step, proceed, hStage, look]
      split
      · next hDone =>
          obtain ⟨hFatal, hBuffer⟩ : d.fatal = none ∧ d.buffer.groups = [] := by simpa using hDone
          exact ⟨by simp, fun _ => ⟨hSender, ⟨hQueue, hBuffer⟩, hFatal⟩⟩
      · unfold flushToClose
        split
        · exact isQuiet_abort (by simp [hStage])
        · exact isQuiet_of_stage (by simp) rfl

/-- A delivery comes to be joined only with its sender at rest and its queue empty. -/
theorem Move.isQuiet {added : List Batch} (hMove : Move d added acked refused d')
    (hJoined : d.stage ≠ .joined) (hOpen : d.stage.isParting = false) : d'.IsQuiet := by
  have hSame (hStage : d'.stage = d.stage) : d'.IsQuiet :=
    isQuiet_of_stage (hStage ▸ hJoined) (hStage ▸ hOpen)
  cases hMove with
  | stay | send | discard => exact hSame rfl
  | start | abort | finish | abandon => exact isQuiet_of_stage (by simp) rfl
  | arrange added s queue batches b hNext hQueue hPacks hRefused =>
      rcases hNext with rfl | ⟨rfl, _⟩
      · exact hSame rfl
      · exact isQuiet_of_stage (by simp) rfl
  | conclude batch acked refused d' hSender hEnds => exact hSame hEnds.stage
  | wake ops d' hSender hPlaced hAwake => exact hSame hPlaced.stage
  | join hStage hSender hQueue => exact ⟨fun _ => ⟨hSender, hQueue⟩, by simp [Stage.isParting]⟩
  | leave hStage => exact absurd hStage hJoined
  | mark hStage => simp [hStage, Stage.isParting] at hOpen

theorem IsQuiet.step (h : d.IsQuiet) (hOrderly : d.Orderly) (hUndisturbed : d.IsUndisturbed e) :
    (d.step e).IsQuiet := by
  by_cases hJoined : d.stage = .joined
  · exact h.step_of_joined hJoined (hUndisturbed.uncut hJoined)
  · have hMove := step_move hOrderly e
    cases hParting : d.stage.isParting with
    | false => exact hMove.isQuiet hJoined hParting
    | true =>
        rw [groups_eq_nil (hUndisturbed.shut hParting)] at hMove
        obtain ⟨hSender, hCleared, hFatal, _⟩ := h.move_of_parting hParting hMove
        exact ⟨fun _ => ⟨hSender, hCleared.1⟩, fun _ => ⟨hSender, hCleared, hFatal⟩⟩

theorem IsQuiet.run_inTime (h : d.IsQuiet) (hOrderly : d.Orderly) (events : List Event)
    (hUndisturbed : d.Throughout IsUndisturbed events) : d.Throughout InTime events := by
  induction events generalizing d with
  | nil => trivial
  | cons e events ih =>
      obtain ⟨hNow, hLater⟩ := hUndisturbed
      exact ⟨h.inTime hOrderly hNow,
        ih (h.step hOrderly hNow) (hOrderly.move (step_move hOrderly e)) hLater⟩

/-- A delivery sees to all in time if no batch is cut while its owner is about to look at the buffer, and
nothing is added after that. -/
theorem inTime_of_undisturbed (settings : Settings) (store : Store) (events : List Event)
    (h : (create settings store).Throughout IsUndisturbed events) :
    (create settings store).Throughout InTime events :=
  (isQuiet_of_stage (by simp [create]) rfl).run_inTime (orderly_create settings store) events h

end Delivery

namespace Crawl

variable {c : Crawl}

/-- A crawl that has not left its plan has a delivery that runs. -/
def IsOpen (c : Crawl) : Prop :=
  c.walk.phase = .walking ∨ c.walk.phase = .waiting → c.delivery.stage = .running

theorem isOpen_take {w : Walk} {d : Delivery} (h : d.stage = .running) (step : Step) :
    IsOpen ⟨(w.take d step).1, (w.take d step).2⟩ := by
  cases step with
  | submit op =>
      cases hAdd : d.add op with
      | mk next result =>
          cases result with
          | ok _ =>
              simp only [Walk.take, hAdd]
              intro _
              obtain ⟨_, _, hFrame⟩ := d.addGroup_frame [op]
              rw [show next = (d.addGroup [op]).1 from (congrArg Prod.fst hAdd).symm, hFrame]
              exact h
          | error f => simp [Walk.take, hAdd, Walk.giveUp, IsOpen]
  | fail f => simp [Walk.take, Walk.giveUp, IsOpen]
  | _ => exact fun _ => h

theorem IsOpen.step (h : c.IsOpen) (hOrderly : c.delivery.Orderly) (e : Event) : (c.step e).IsOpen := by
  cases e with
  | advance =>
      change IsOpen ⟨(c.walk.advance c.delivery).1, (c.walk.advance c.delivery).2⟩
      unfold Walk.advance
      split
      · split
        · simp [IsOpen]
        · next hPhase _ => exact isOpen_take (h (.inl hPhase)) _
        · simp [IsOpen]
        · simp [IsOpen]
        · exact h
      · exact h
  | arrive =>
      simp only [Crawl.step, Walk.arrive]
      split
      · next hPhase => exact fun _ => h (.inr hPhase)
      · exact h
  | cancel =>
      simp only [Crawl.step]
      rcases c.walk.cancel_cases c.delivery with ⟨hCancel, _⟩ | ⟨p, hCancel, _, hPhase⟩
      · rw [hCancel]
        exact h
      · rw [hCancel]
        rcases hPhase with ⟨f, rfl⟩ | ⟨f, rfl⟩ <;> simp [IsOpen]
  | delivery e =>
      simp only [Crawl.step]
      split
      · next hSender =>
          intro hPhase
          have hRunning := h hPhase
          by_cases hTurn : e = .proceed
          · simp only [hTurn, Delivery.step, Delivery.proceed, hRunning]
          · exact (Delivery.stage_of_work hOrderly hSender hTurn).trans hRunning
      · exact h

/-- The flush timer does not go off in the turn before the owner looks at the buffer. -/
def Spares (d : Delivery) (e : Delivery.Event) : Prop := d.stage = .joined → e ≠ .tick

theorem throughout_undisturbed_of_other {d : Delivery} {orders : List Delivery.Event}
    (h : ∀ order ∈ orders, order.isCut = false) : d.Throughout Delivery.IsUndisturbed orders :=
  Delivery.throughout_of_forall
    (fun order hOrder _ => Delivery.isUndisturbed_of_other (h order hOrder)) d

/-- What the walker does disturbs nothing, since it adds only while the delivery runs. -/
theorem IsOpen.undisturbed (h : c.IsOpen) {e : Event}
    (hSpares : c.delivery.Throughout Spares (c.orders e)) :
    c.delivery.Throughout Delivery.IsUndisturbed (c.orders e) := by
  cases e with
  | arrive => trivial
  | cancel =>
      rcases c.walk.cancel_cases c.delivery with ⟨_, hOrders⟩ | ⟨_, _, hOrders | hOrders | hOrders, _⟩
      all_goals exact throughout_undisturbed_of_other (by simp [orders, hOrders, Delivery.Event.isCut])
  | delivery e =>
      by_cases hSender : isOfSender e = true
      · rw [orders, if_pos hSender] at hSpares ⊢
        refine ⟨⟨fun hJoined => ?_, fun _ => ?_⟩, trivial⟩
        · have hTimer := hSpares.1 hJoined
          cases e <;> first | rfl | exact absurd rfl hTimer | cases hSender
        · cases e <;> first | rfl | cases hSender
      · rw [orders, if_neg hSender]
        trivial
  | advance =>
      simp only [orders, Walk.orders]
      split
      · exact throughout_undisturbed_of_other (by simp [Delivery.Event.isCut])
      · next step _ hPhase _ =>
          have hRunning : c.delivery.stage = .running := h (.inl hPhase)
          have hNow (e : Delivery.Event) : c.delivery.IsUndisturbed e :=
            ⟨by simp [hRunning], by simp [hRunning, Stage.isParting]⟩
          cases step with
          | submit op =>
              rw [Step.orders]
              split
              · exact ⟨hNow _, trivial⟩
              · exact ⟨hNow _, throughout_undisturbed_of_other (by simp [Delivery.Event.isCut])⟩
          | _ => exact throughout_undisturbed_of_other (by simp [Step.orders, Delivery.Event.isCut])
      · trivial

theorem IsOpen.run_undisturbed (h : c.IsOpen) (hOrderly : c.delivery.Orderly) (events : List Event)
    (hSpares : c.delivery.Throughout Spares (c.course events)) :
    c.delivery.Throughout Delivery.IsUndisturbed (c.course events) := by
  induction events generalizing c with
  | nil => trivial
  | cons e events ih =>
      rw [course, Delivery.throughout_append, ← step_delivery] at hSpares ⊢
      have hNext : (c.step e).delivery.Orderly := by
        rw [step_delivery]
        exact hOrderly.run _
      exact ⟨h.undisturbed hSpares.1, ih (h.step hOrderly e) hNext hSpares.2⟩

/-- A crawl sees to all in time if the flush timer never goes off while the owner of the delivery is about
to look at the buffer. -/
theorem inTime_of_spares {settings : Settings} {readers : Readers} {tree : FileTree} {root : Path}
    {now : DateTime} {store : Store} (hStart : start settings readers tree root now store = .ok c)
    (events : List Event) (hSpares : c.delivery.Throughout Spares (c.course events)) :
    c.InTime events := by
  obtain ⟨hOrderly, _, _⟩ := started hStart
  obtain ⟨_, _, _, hDelivery⟩ := start_ok hStart
  have hRunning : c.delivery.stage = .running := by rw [hDelivery]; rfl
  have hOpen : c.IsOpen := fun _ => hRunning
  have hQuiet : c.delivery.IsQuiet :=
    Delivery.isQuiet_of_stage (by simp [hRunning]) (by rw [hRunning]; rfl)
  exact hQuiet.run_inTime hOrderly _ (hOpen.run_undisturbed hOrderly events hSpares)

end Crawl
end Indexer
