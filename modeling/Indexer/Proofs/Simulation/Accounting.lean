import Indexer.Proofs.Crawl.Ledger
import Indexer.Proofs.Crawl.Recrawl
import Indexer.Simulation.Tour

/-! The accounts of a tour. Each crawl of a tour keeps its ledger, whatever its link does
to the delivery and whatever else happens to the crawl state meanwhile; and a crawl that is
over is entered in the summary of the tour once. So the summary of a tour accounts for the
files of all its roots, those included that it visits repeatedly. -/
namespace Indexer

/-- The delivery with another crawl state. -/
def Delivery.withStore (d : Delivery) (store : Store) : Delivery :=
  { d with coordinator := { d.coordinator with store } }

namespace Crawl

variable {plan : List Step} {w : Walk} {d : Delivery}

/-- The ledger does not depend on the crawl state. -/
theorem IsKept.withStore (h : IsKept plan ⟨w, d⟩) (store : Store) :
    IsKept plan ⟨w, d.withStore store⟩ where
  orderly := ⟨h.orderly.queue, h.orderly.unopened, h.orderly.rested, h.orderly.givenUp, h.orderly.stopping⟩
  tidy := ⟨h.tidy.parting, h.tidy.marked, h.tidy.rested⟩
  settled := ⟨h.settled.closing, h.settled.ended⟩
  tallied := h.tallied
  whole := h.whole
  entered := h.entered

theorem IsKept.sender (h : IsKept plan ⟨w, d⟩) {e : Delivery.Event} (hSender : isOfSender e = true)
    (hInTime : d.InTime e) : IsKept plan ⟨w, d.step e⟩ := by
  have hNext : Crawl.step ⟨w, d⟩ (.delivery e) = ⟨w, d.step e⟩ := if_pos hSender
  have hStep := h.step (e := .delivery e)
  rw [hNext] at hStep
  exact hStep (h.tidy.step h.orderly hInTime)

/-- The walker leaves nothing behind when it goes on. -/
theorem IsKept.advance (h : IsKept plan ⟨w, d⟩) (hPrompt : d.IsPrompt (w.advance d).2) :
    IsKept plan ⟨(w.advance d).1, (w.advance d).2⟩ := by
  refine h.step (e := .advance) ?_
  change (w.advance d).2.Tidy
  rw [Walk.advance_delivery, Walk.orders] at hPrompt ⊢
  split at hPrompt
  · exact h.tidy.step (e := .close) h.orderly hPrompt
  · next step _ _ _ =>
      cases step with
      | fail f => exact Delivery.tidy_abort fun _ => h.tidy
      | submit op =>
          simp only [Step.orders] at hPrompt ⊢
          split at hPrompt
          · exact h.tidy.step (e := .add [op]) h.orderly hPrompt
          · refine Delivery.tidy_abort fun hIdle => ?_
            -- a delivery at rest refuses what is added
            have hRefused : (d.addGroup [op]).1 = d := by
              have hStage : d.stage = .idle := by
                obtain ⟨_, _, hFrame⟩ := d.addGroup_frame [op]
                rwa [Delivery.step, hFrame] at hIdle
              cases hFatal : d.fatal <;> simp [Delivery.addGroup, hFatal, hStage]
            rw [Delivery.step, hRefused]
            exact h.tidy
      | _ => exact h.tidy
  · exact h.tidy

theorem IsKept.arrive (h : IsKept plan ⟨w, d⟩) : IsKept plan ⟨w.arrive, d⟩ :=
  h.step (e := .arrive) h.tidy

/-- Nor does it when it is cancelled. -/
theorem IsKept.cancel (h : IsKept plan ⟨w, d⟩) : IsKept plan ⟨(w.cancel d).1, (w.cancel d).2⟩ := by
  refine h.step (e := .cancel) ?_
  change (w.cancel d).2.Tidy
  have hAbort : d.abort.Tidy := Delivery.tidy_abort fun _ => h.tidy
  rcases w.cancel_cases d with ⟨hCancel, _⟩ | ⟨p, hCancel, hOrders | hOrders | hOrders, _⟩
  · rw [hCancel]
    exact h.tidy
  · rw [hCancel, hOrders]
    exact hAbort
  · rw [hCancel, hOrders]
    exact h.tidy.abandon h.orderly
  · rw [hCancel, hOrders]
    exact hAbort.abandon (h.orderly.move d.abort_move)

section
variable (d : Delivery) (store : Store)

/-- Whether operations are taken does not depend on the crawl state. -/
theorem enqueue_withStore (cut : List Batch × Buffer) :
    ((d.withStore store).enqueue cut).2 = (d.enqueue cut).2 := by
  obtain ⟨batches, b⟩ := cut
  cases batches with
  | nil => rfl
  | cons batch rest =>
      cases hQueue : d.queue with
      | some queue => simp [Delivery.enqueue, Delivery.withStore, hQueue]
      | none =>
          cases hCut : d.buffer.cut d.limit <;>
            simp_all [Delivery.enqueue, Delivery.withStore, Delivery.limit]

theorem add_withStore (op : Operation) : ((d.withStore store).add op).2 = (d.add op).2 := by
  have hEnqueue := enqueue_withStore d store (d.buffer.add d.limit [op])
  unfold Delivery.add Delivery.addGroup
  cases hFatal : d.fatal with
  | some f => simp [Delivery.withStore, hFatal]
  | none =>
      by_cases hOpen : (decide (d.stage = .idle) || d.aborting) = true
      · simp [Delivery.withStore, hFatal, hOpen]
      · simpa [Delivery.withStore, hFatal, hOpen, Delivery.limit] using hEnqueue

/-- Nor does the way that the walker takes. -/
theorem take_withStore (w : Walk) (step : Step) :
    (w.take (d.withStore store) step).1 = (w.take d step).1 := by
  cases step with
  | submit op =>
      have hAdd := add_withStore d store op
      cases hFirst : (d.withStore store).add op with
      | mk first result =>
          cases hSecond : d.add op with
          | mk second other =>
              rw [hFirst, hSecond] at hAdd
              obtain rfl : result = other := hAdd
              simp only [Walk.take, hFirst, hSecond]
              cases result <;> rfl
  | _ => rfl

theorem advance_withStore (w : Walk) :
    (w.advance (d.withStore store)).1 = (w.advance d).1 := by
  have hReady : w.isReady (d.withStore store) = w.isReady d := rfl
  unfold Walk.advance
  rw [hReady]
  split
  · split
    · rfl
    · exact take_withStore d store _ _
    · rfl
    · rfl
    · rfl
  · rfl

theorem cancel_withStore (w : Walk) : (w.cancel (d.withStore store)).1 = (w.cancel d).1 := by
  have hDrained : (d.withStore store).isDrained = d.isDrained := rfl
  unfold Walk.cancel Walk.brokenOff
  rw [hDrained, show (d.withStore store).stage = d.stage from rfl]
  split <;> rfl

end
end Crawl

namespace Simulation

variable {plan : List Crawl.Step} {walk : Crawl.Walk} {l : Link}

/-- The ledger of a crawl whose delivery is on a link. -/
def Link.Keeps (l : Link) (plan : List Crawl.Step) (walk : Crawl.Walk) : Prop :=
  Crawl.IsKept plan ⟨walk, l.delivery⟩

/-- From one state of a link to another everything in its delivery comes in time. -/
def Link.IsPrompt (l l' : Link) : Prop := l.delivery.IsPrompt l'.delivery

instance (l l' : Link) : Decidable (l.IsPrompt l') := inferInstanceAs (Decidable (Delivery.IsPrompt _ _))

theorem Link.Keeps.hear (h : l.Keeps plan walk) {w : Surroundings} {reply : Reply}
    (hPrompt : l.IsPrompt (l.hear w reply)) : (l.hear w reply).Keeps plan walk := by
  revert hPrompt
  unfold Link.hear
  split
  · next batch _ =>
      exact Crawl.IsKept.sender (e := .answer w.now (reply.result l.endpoint batch)) h rfl
  · exact fun _ => h

theorem Link.Keeps.takeNext (h : l.Keeps plan walk) {w : Surroundings}
    (hPrompt : l.IsPrompt (l.takeNext w).2) : (l.takeNext w).2.Keeps plan walk := by
  have hTake (hInTime : l.delivery.InTime .take) : (l.update w.clock l.delivery.take).Keeps plan walk :=
    Crawl.IsKept.sender (e := .take) h rfl hInTime
  revert hPrompt
  unfold Link.takeNext
  dsimp only
  split
  · exact hTake
  · next batch hFlight =>
      split
      · next reply _ =>
          intro hPrompt
          have hHeard : (Link.hear w.nextReply.2 (l.update w.clock l.delivery.take) reply).delivery =
              l.delivery.take.step (.answer w.nextReply.2.now (reply.result l.endpoint batch)) := by
            simp only [Link.hear, hFlight]
            rfl
          rw [Link.IsPrompt, hHeard] at hPrompt
          obtain ⟨hTaken, hAnswered⟩ := (Crawl.IsKept.tidy h).inTime_take (Crawl.IsKept.orderly h) hPrompt
          refine (hTake hTaken).hear ?_
          rw [Link.IsPrompt, hHeard]
          exact hAnswered
      · exact hTake

theorem Link.Keeps.turn (h : l.Keeps plan walk) {w w' : Surroundings} {l' : Link}
    (hTurn : l.turn? w = some (w', l')) (hPrompt : l.IsPrompt l') : l'.Keeps plan walk := by
  unfold Link.turn? at hTurn
  split at hTurn
  · cases hTurn
    exact Crawl.IsKept.sender (e := .proceed) h rfl hPrompt
  · split at hTurn
    · cases hTurn
    · cases hTurn
    · have hNext : (l.takeNext w).2 = l' := congrArg Prod.snd (Option.some.inj hTurn)
      rw [← hNext] at hPrompt ⊢
      exact h.takeNext hPrompt
    · cases hTurn

theorem Link.Keeps.fire (h : l.Keeps plan walk) {w : Surroundings} (hPrompt : l.IsPrompt (l.fire w)) :
    (l.fire w).Keeps plan walk := by
  revert hPrompt
  unfold Link.fire
  split
  · exact Crawl.IsKept.sender (e := .expire w.now) h rfl
  · split
    · exact Crawl.IsKept.sender (e := .wake) h rfl
    · split
      · exact Crawl.IsKept.sender (e := .tick) h rfl
      · exact fun _ => h

theorem Link.Keeps.release (h : l.Keeps plan walk) {w : Surroundings}
    (hPrompt : l.IsPrompt (l.release w).2) : (l.release w).2.Keeps plan walk := by
  revert hPrompt
  unfold Link.release
  split
  · exact h.hear
  · exact fun _ => h

/-- The link as it acts at a site, on the crawl state there. -/
def Link.atSite (l : Link) (s : Site) : Link := { l with delivery := l.delivery.withStore s.store }

theorem Link.Keeps.atSite (h : l.Keeps plan walk) (s : Site) : (l.atSite s).Keeps plan walk :=
  Crawl.IsKept.withStore h s.store

/-- A link acts on the crawl state of its site. -/
theorem Site.host_link (s : Site) (l : Link) (act : Surroundings → Link → Surroundings × Link) :
    (s.host l act).2 = (act s.surroundings (l.atSite s)).2 := rfl

namespace Tour

/-- Everything that can happen to a tour. -/
inductive Event where
  | turn (a : Actor)
  /-- The timer that is due comes due. -/
  | fire
  /-- The answer to the request of a number is no longer held back. -/
  | release (number : Nat)
  | cancel
  /-- The site has changed by the doing of others. -/
  | meanwhile (s : Site)

/-- What an event does. One that cannot happen changes nothing. -/
def step (p : Site × Tour) : Event → Site × Tour
  | .turn a => (p.2.turn? p.1 a).getD p
  | .fire => p.2.fire p.1
  | .release number => p.2.release p.1 number
  | .cancel => p.2.cancel p.1
  | .meanwhile s => (s, p.2)

/-- The state after a sequence of events. -/
def run (p : Site × Tour) (events : List Event) : Site × Tour := events.foldl step p

/-- The link of the crawl under way. -/
def link? (t : Tour) : Option Link := t.current.map (·.2)

/-- From one state of a tour to another everything in the crawl under way comes in time. -/
def IsPrompt (t t' : Tour) : Prop := ∀ l ∈ t.link?, ∀ l' ∈ t'.link?, l.IsPrompt l'

instance (t t' : Tour) : Decidable (t.IsPrompt t') :=
  inferInstanceAs (Decidable (∀ l ∈ t.link?, ∀ l' ∈ t'.link?, l.IsPrompt l'))

/-- What an event brings about comes in time. -/
def InTime (p : Site × Tour) (e : Event) : Prop := p.2.IsPrompt (step p e).2

/-- All along a sequence of events, what they bring about comes in time. -/
def RunsInTime (p : Site × Tour) : List Event → Prop
  | [] => True
  | e :: events => InTime p e ∧ RunsInTime (step p e) events

instance decidableRunsInTime (p : Site × Tour) : (events : List Event) → Decidable (RunsInTime p events)
  | [] => isTrue trivial
  | e :: events =>
    have := decidableRunsInTime (step p e) events
    inferInstanceAs (Decidable (p.2.IsPrompt (step p e).2 ∧ RunsInTime (step p e) events))

/-- The setting out for a root, if the event is one, with the site as it is then. -/
def departure (p : Site × Tour) : Event → List (Path × Site)
  | .turn .walker =>
    match p.2.result, p.2.current, p.2.roots with
    | none, none, root :: _ => [(root, p.1)]
    | _, _, _ => []
  | _ => []

/-- All settings out along a sequence of events. -/
def departures (p : Site × Tour) : List Event → List (Path × Site)
  | [] => []
  | e :: events => departure p e ++ departures (step p e) events

/-- The number of recorded files that were not there when the tour set out for their root. -/
def unseen (settings : Settings) (departed : List (Path × Site)) : Nat :=
  (departed.map fun d => (Crawl.unseen settings d.2.tree d.1 d.2.store).length).sum

/-- The crawl under way, by the plan for what it set out with. -/
def UnderWay (settings : Settings) (departed : List (Path × Site)) (walk : Crawl.Walk)
    (l : Link) : Prop :=
  ∃ b : Crawl.Basis, b.settings = settings ∧ l.Keeps b.plan walk ∧
    b.gone.length = unseen settings departed

/-- The books of a tour. Every root was set out for or is still to come, and the summary accounts
for all crawls but the one under way. -/
structure IsKept (settings : Settings) (roots : List Path) (departed : List (Path × Site))
    (t : Tour) : Prop where
  unchanged : t.settings = settings
  itinerary : departed.map (·.1) ++ t.roots = roots
  ended : ∀ sum, t.result = some (.ok sum) → t.current = none ∧ t.roots = [] ∧ t.summary = sum
  accounts : ∃ before now, departed = before ++ now ∧
    t.summary.AccountsFor (unseen settings before) ∧
    match t.current with
    | none => now = []
    | some (walk, l) => UnderWay settings now walk l

/-- A tour that has failed accounts for nothing. -/
def HasFailed (t : Tour) : Prop := ∃ f, t.result = some (.error f)

variable {settings : Settings} {roots : List Path} {departed : List (Path × Site)} {t : Tour}
  {s : Site}

theorem isKept_start (settings : Settings) (readers : Readers) (endpoint : Option HttpEndpoint)
    (roots : List Path) : (start settings readers endpoint roots).IsKept settings roots [] where
  unchanged := rfl
  itinerary := rfl
  ended := nofun
  accounts := ⟨[], [], rfl, Summary.accountsFor_zero, rfl⟩

theorem unseen_append (settings : Settings) (departed more : List (Path × Site)) :
    unseen settings (departed ++ more) = unseen settings departed + unseen settings more := by
  simp [unseen]

/-- The next root is set out for with a new ledger. -/
theorem IsKept.setOut (h : t.IsKept settings roots departed) (hCurrent : t.current = none)
    (hResult : t.result = none) (s : Site) :
    (t.setOut s).HasFailed ∨
      (t.setOut s).IsKept settings roots (departed ++ departure (s, t) (.turn .walker)) := by
  obtain ⟨before, now, rfl, hSum, hNow⟩ := h.accounts
  rw [hCurrent] at hNow
  obtain rfl : now = [] := hNow
  cases hRoots : t.roots with
  | nil =>
      have hOver : t.setOut s = { t with result := some (.ok t.summary) } := by
        simp only [Tour.setOut, hRoots]
      have hDeparts : departure (s, t) (.turn .walker) = [] := by
        simp only [departure, hResult, hCurrent, hRoots]
      rw [hOver, hDeparts, List.append_nil]
      refine .inr ⟨h.unchanged, h.itinerary, fun sum hSame => ?_, before, [], rfl, hSum, ?_⟩
      · exact ⟨hCurrent, hRoots, Except.ok.inj (Option.some.inj hSame)⟩
      · simp only [hCurrent]
  | cons root rest =>
      have hDeparts : departure (s, t) (.turn .walker) = [(root, s)] := by
        simp only [departure, hResult, hCurrent, hRoots]
      cases hStart : Crawl.start t.settings t.readers s.tree root s.surroundings.now s.store with
      | error f => exact .inl ⟨f, by simp only [Tour.setOut, hRoots, hStart]⟩
      | ok c =>
          obtain ⟨prior, hLoad, hPlan, _⟩ := Crawl.start_ok hStart
          let b : Crawl.Basis :=
            { settings := t.settings, readers := t.readers, tree := s.tree, root, prior,
              now := s.surroundings.now }
          have hSetOut : t.setOut s = { t with
              roots := rest
              current := some (c.walk, .create s.surroundings.clock c.delivery t.endpoint)
              opened := true } := by
            simp only [Tour.setOut, hRoots, hStart]
          rw [hSetOut, hDeparts]
          refine .inr ⟨h.unchanged, ?_, fun sum hSame => by simp [hResult] at hSame,
            before, [(root, s)], by rw [List.append_nil], hSum, b, h.unchanged, ?_, ?_⟩
          · simp [← h.itinerary, hRoots]
          · have hKept := Crawl.isKept_start hStart
            rwa [hPlan] at hKept
          · rw [Crawl.Basis.length_gone (b := b) hLoad, ← h.unchanged]
            simp [unseen, b]

/-- What goes on in the crawl under way stays within its ledger. -/
theorem IsKept.goOn (h : t.IsKept settings roots departed) {walk next : Crawl.Walk} {l l' : Link}
    (hCurrent : t.current = some (walk, l))
    (hKeeps : ∀ plan, l.Keeps plan walk → l'.Keeps plan next) :
    { t with current := some (next, l') : Tour}.IsKept settings roots departed := by
  obtain ⟨before, now, hDeparted, hSum, hNow⟩ := h.accounts
  rw [hCurrent] at hNow
  obtain ⟨b, hSettings, hKept, hGone⟩ := hNow
  have hOpen : ∀ sum, t.result ≠ some (.ok sum) := fun sum hSame => by
    simp [(h.ended sum hSame).1] at hCurrent
  exact ⟨h.unchanged, h.itinerary, fun sum hSame => absurd hSame (hOpen sum),
    before, now, hDeparted, hSum, b, hSettings, hKeeps b.plan hKept, hGone⟩

/-- The walker acts on the crawl state of the site, but goes its way without regard to it. -/
theorem IsKept.alter (h : t.IsKept settings roots departed) {walk : Crawl.Walk} {l : Link}
    (hCurrent : t.current = some (walk, l)) (s : Site)
    {f : Crawl.Walk → Delivery → Crawl.Walk × Delivery}
    (hWalk : ∀ d store, (f walk (Delivery.withStore d store)).1 = (f walk d).1)
    (hKeeps : ∀ plan, Crawl.IsKept plan ⟨walk, (l.atSite s).delivery⟩ →
      Crawl.IsKept plan ⟨(f walk (l.atSite s).delivery).1, (f walk (l.atSite s).delivery).2⟩) :
    (t.alter s walk l f).2.IsKept settings roots departed := by
  refine h.goOn hCurrent fun plan hKept => ?_
  have hNext := hKeeps plan (hKept.atSite s)
  rwa [show (f walk (l.atSite s).delivery).1 = (f walk l.delivery).1 from hWalk _ _] at hNext

/-- A crawl that has come to a good end is entered in the summary. -/
theorem IsKept.finish (h : t.IsKept settings roots departed)
    (hWorkers : settings.workerConcurrency.isAtMost 0 = false) {walk : Crawl.Walk} {l : Link}
    (hCurrent : t.current = some (walk, l)) (hEnd : walk.phase = .ended (.ok ())) :
    { t with current := none, summary := t.summary.merge (walk.summary l.delivery) : Tour}.IsKept
      settings roots departed := by
  obtain ⟨before, now, rfl, hSum, hNow⟩ := h.accounts
  rw [hCurrent] at hNow
  obtain ⟨b, hSettings, hKept, hGone⟩ := hNow
  have hCrawl : (walk.summary l.delivery).AccountsFor (unseen settings now) :=
    hGone ▸ Crawl.IsKept.accountsFor hKept (by rwa [hSettings]) hEnd
  have hOpen : ∀ sum, t.result ≠ some (.ok sum) := fun sum hSame => by
    simp [(h.ended sum hSame).1] at hCurrent
  refine ⟨h.unchanged, h.itinerary, fun sum hSame => absurd hSame (hOpen sum), before ++ now,
    [], (List.append_nil _).symm, ?_, rfl⟩
  rw [unseen_append]
  exact hSum.merge hCrawl

/-- The crawl under way takes turns with its link and its workers. -/
theorem IsKept.turnOf (h : t.IsKept settings roots departed)
    (hWorkers : settings.workerConcurrency.isAtMost 0 = false) {walk : Crawl.Walk} {l : Link}
    (hCurrent : t.current = some (walk, l)) {s : Site} {a : Actor} {next : Site × Tour}
    (hTurn : t.turnOf s walk l a = some next) (hPrompt : t.IsPrompt next.2) :
    next.2.HasFailed ∨ next.2.IsKept settings roots departed := by
  have hLink : l ∈ t.link? := by simp [link?, hCurrent]
  have hNext := hPrompt l hLink
  cases a with
  | walker =>
      simp only [Tour.turnOf] at hTurn
      split at hTurn
      · next hEnd =>
          cases hTurn
          exact .inr (h.finish hWorkers hCurrent hEnd)
      · next f _ =>
          cases hTurn
          exact .inl ⟨f, rfl⟩
      · split at hTurn
        · cases hTurn
          exact .inr (h.alter hCurrent s (fun d store => Crawl.advance_withStore d store walk)
            fun plan hKept => hKept.advance (hNext _ rfl))
        · cases hTurn
  | sender =>
      simp only [Tour.turnOf, Option.map_eq_some_iff] at hTurn
      obtain ⟨_, _, rfl⟩ := hTurn
      refine .inr (h.goOn hCurrent fun plan hKept => ?_)
      have hMoves := hNext _ rfl
      rw [Site.host_link] at hMoves ⊢
      cases hActs : (l.atSite s).turn? s.surroundings with
      | none => exact hKept.atSite s
      | some moved =>
          rw [hActs] at hMoves
          exact (hKept.atSite s).turn hActs hMoves
  | worker =>
      simp only [Tour.turnOf] at hTurn
      split at hTurn
      · cases hTurn
        exact .inr (h.goOn hCurrent fun plan hKept => Crawl.IsKept.arrive hKept)
      · cases hTurn

theorem IsKept.onLink (h : t.IsKept settings roots departed) (s : Site)
    {act : Surroundings → Link → Surroundings × Link} (hPrompt : t.IsPrompt (t.onLink s act).2)
    (hAct : ∀ {plan walk} {l : Link}, l.Keeps plan walk → l.IsPrompt (act s.surroundings l).2 →
      (act s.surroundings l).2.Keeps plan walk) :
    (t.onLink s act).2.IsKept settings roots departed := by
  unfold Tour.onLink at hPrompt ⊢
  cases hCurrent : t.current with
  | none => exact h
  | some current =>
      obtain ⟨walk, l⟩ := current
      have hLink : l ∈ t.link? := by simp [link?, hCurrent]
      rw [hCurrent] at hPrompt
      exact h.goOn hCurrent fun plan hKept => hAct (hKept.atSite s) (hPrompt l hLink _ rfl)

/-- A tour that is over, or in a crawl, does not set out. -/
theorem departure_of_busy {p : Site × Tour} (h : p.2.result ≠ none ∨ p.2.current ≠ none)
    (a : Actor) :
    departure p (.turn a) = [] := by
  cases a with
  | walker =>
      simp only [departure]
      split
      · next hResult hCurrent _ => simp [hResult, hCurrent] at h
      · rfl
  | sender | worker => rfl

theorem IsKept.turn (h : t.IsKept settings roots departed)
    (hWorkers : settings.workerConcurrency.isAtMost 0 = false) {s : Site} {a : Actor}
    (hInTime : Tour.InTime (s, t) (.turn a)) :
    (Tour.step (s, t) (.turn a)).2.HasFailed ∨
      (Tour.step (s, t) (.turn a)).2.IsKept settings roots
        (departed ++ departure (s, t) (.turn a)) := by
  change t.IsPrompt ((t.turn? s a).getD (s, t)).2 at hInTime
  change ((t.turn? s a).getD (s, t)).2.HasFailed ∨
    ((t.turn? s a).getD (s, t)).2.IsKept settings roots _
  cases hResult : t.result with
  | some r =>
      rw [departure_of_busy (.inl (by simp [hResult])), List.append_nil]
      exact .inr (by simpa [Tour.turn?, hResult] using h)
  | none =>
      cases hCurrent : t.current with
      | some current =>
          obtain ⟨walk, l⟩ := current
          rw [departure_of_busy (.inr (by simp [hCurrent])), List.append_nil]
          rw [show t.turn? s a = t.turnOf s walk l a by simp only [Tour.turn?, hResult, hCurrent]]
            at hInTime ⊢
          cases hTurn : t.turnOf s walk l a with
          | none => exact .inr h
          | some next =>
              rw [hTurn] at hInTime
              exact h.turnOf hWorkers hCurrent hTurn hInTime
      | none =>
          cases a with
          | walker =>
              rw [show t.turn? s .walker = some (s, t.setOut s) by
                simp only [Tour.turn?, hResult, hCurrent, if_true]]
              exact h.setOut hCurrent hResult s
          | sender | worker =>
              right
              simpa [departure, Tour.turn?, hResult, hCurrent] using h

/-- Whatever happens to it in time, a tour keeps its books until it fails. -/
theorem IsKept.step (h : t.IsKept settings roots departed)
    (hWorkers : settings.workerConcurrency.isAtMost 0 = false) {s : Site} {e : Event}
    (hInTime : Tour.InTime (s, t) e) :
    (Tour.step (s, t) e).2.HasFailed ∨
      (Tour.step (s, t) e).2.IsKept settings roots (departed ++ departure (s, t) e) := by
  cases e with
  | turn a => exact h.turn hWorkers hInTime
  | fire =>
      right
      rw [show departure (s, t) .fire = [] from rfl, List.append_nil]
      exact h.onLink s hInTime fun hKept => hKept.fire
  | release number =>
      right
      rw [show departure (s, t) (.release number) = [] from rfl, List.append_nil]
      simp only [Tour.InTime, Tour.step, Tour.release] at hInTime ⊢
      split
      · next hNumber =>
          rw [if_pos hNumber] at hInTime
          exact h.onLink s hInTime fun hKept => hKept.release
      · exact h
  | cancel =>
      rw [show departure (s, t) .cancel = [] from rfl, List.append_nil]
      simp only [Tour.step, Tour.cancel]
      split
      · exact .inr h
      · next walk l hResult hCurrent =>
          exact .inr (h.alter hCurrent s (fun d store => Crawl.cancel_withStore d store walk)
            fun plan hKept => hKept.cancel)
      · exact .inl ⟨_, rfl⟩
  | meanwhile other =>
      rw [show departure (s, t) (.meanwhile other) = [] from rfl, List.append_nil]
      exact .inr h

/-- A tour that has failed stays so. -/
theorem HasFailed.step (h : t.HasFailed) (s : Site) (e : Event) :
    (Tour.step (s, t) e).2.HasFailed := by
  obtain ⟨f, hResult⟩ := h
  have hOnLink : ∀ act, (t.onLink s act).2.result = some (.error f) := fun act => by
    unfold Tour.onLink
    split <;> exact hResult
  refine ⟨f, ?_⟩
  cases e with
  | turn a => simp [Tour.step, Tour.turn?, hResult]
  | fire => exact hOnLink _
  | release number =>
      simp only [Tour.step, Tour.release]
      split
      · exact hOnLink _
      · exact hResult
  | cancel => simp [Tour.step, Tour.cancel, hResult]
  | meanwhile other => exact hResult

theorem HasFailed.run (h : t.HasFailed) (s : Site) (events : List Event) :
    (Tour.run (s, t) events).2.HasFailed := by
  induction events generalizing s t with
  | nil => exact h
  | cons e events ih => exact ih (h.step s e) _

/-- So the books of a tour that does not fail are kept to the end. -/
theorem IsKept.run (h : t.IsKept settings roots departed)
    (hWorkers : settings.workerConcurrency.isAtMost 0 = false) (s : Site) (events : List Event)
    (hInTime : RunsInTime (s, t) events) :
    (Tour.run (s, t) events).2.HasFailed ∨
      (Tour.run (s, t) events).2.IsKept settings roots (departed ++ departures (s, t) events) := by
  induction events generalizing s t departed with
  | nil =>
      right
      rwa [departures, List.append_nil]
  | cons e events ih =>
      rcases h.step hWorkers hInTime.1 with hFailed | hKept
      · exact .inl (hFailed.run _ events)
      · rw [departures, ← List.append_assoc]
        exact ih hKept _ hInTime.2

end Tour

/-- A summary accounts for every file: each one that came up was left as it is, could not be read or
extracted, was indexed, or is reported; and each recorded one that did not come up was deleted or is
reported. So it is for a crawl that comes to a good end, and for a tour of any roots with what is
recorded about each of them when the tour sets out for it. -/
theorem summary_accounts_for_every_file (settings : Settings) (readers : Readers)
    (hWorkers : settings.workerConcurrency.isAtMost 0 = false) :
    (∀ (tree : FileTree) (root : Path) (now : DateTime) (store : Store) (c : Crawl)
      (events : List Crawl.Event), Crawl.start settings readers tree root now store = .ok c →
        c.InTime events → (c.run events).walk.phase = .ended (.ok ()) →
          ((c.run events).walk.summary (c.run events).delivery).AccountsFor
            (Crawl.unseen settings tree root store).length) ∧
    ∀ (endpoint : Option HttpEndpoint) (roots : List Path) (begin : Site × Tour)
      (events : List Tour.Event) (sum : Summary),
        begin.2 = Tour.start settings readers endpoint roots → Tour.RunsInTime begin events →
          (Tour.run begin events).2.result = some (.ok sum) →
            (Tour.departures begin events).map (·.1) = roots ∧
            sum.AccountsFor (Tour.unseen settings (Tour.departures begin events)) := by
  refine ⟨fun tree root now store c events hStart hInTime hEnd => ?_,
    fun endpoint roots begin events sum hBegin hInTime hEnd => ?_⟩
  · obtain ⟨prior, hLoad, hPlan, _⟩ := Crawl.start_ok hStart
    let b : Crawl.Basis := { settings, readers, tree, root, prior, now }
    have hKept := (Crawl.isKept_start hStart).run events hInTime
    rw [hPlan] at hKept
    rw [← Crawl.Basis.length_gone (b := b) hLoad]
    exact hKept.accountsFor hWorkers hEnd
  · have hKept := Tour.isKept_start settings readers endpoint roots
    rw [← hBegin] at hKept
    rcases hKept.run hWorkers begin.1 events hInTime with ⟨f, hFailed⟩ | hKept
    · simp [hFailed] at hEnd
    · rw [List.nil_append] at hKept
      obtain ⟨hCurrent, hRoots, hSum⟩ := hKept.ended sum hEnd
      obtain ⟨before, now, hDeparted, hAccounts, hNow⟩ := hKept.accounts
      have hItinerary := hKept.itinerary
      rw [hCurrent] at hNow
      obtain rfl : now = [] := hNow
      rw [hRoots, List.append_nil] at hItinerary
      rw [hSum, ← List.append_nil before, ← hDeparted] at hAccounts
      exact ⟨hItinerary, hAccounts⟩

/-- The site of the first crawl of a file, with the entry of another file that is gone. -/
def firstSite : Site where
  surroundings := ⟨0, World.firstVisit.now, [], 0⟩
  tree := World.firstVisit.tree
  store := ⟨[⟨"/r", "/r/gone.txt", none, 0, 0⟩]⟩
  log := []
  sent := []

/-- Everybody acts in turn, and the timers go on. -/
def rounds : List Tour.Event :=
  (List.replicate 32 [.turn .walker, .turn .sender, .turn .worker, .fire]).flatten

theorem two_visits_are_accounted_for :
    let visit := World.firstVisit
    let begin := (firstSite, Tour.start visit.settings visit.readers none [visit.root, visit.root])
    (∃ c, Crawl.start visit.settings visit.readers visit.tree visit.root visit.now .empty = .ok c ∧
      c.InTime Crawl.firstEvents ∧ (c.run Crawl.firstEvents).walk.phase = .ended (.ok ()) ∧
      ((c.run Crawl.firstEvents).walk.summary (c.run Crawl.firstEvents).delivery).AccountsFor
        (Crawl.unseen visit.settings visit.tree visit.root .empty).length) ∧
    ∃ sum, Tour.RunsInTime begin rounds ∧ (Tour.run begin rounds).2.result = some (.ok sum) ∧
      sum.scanned = 2 ∧
      sum.AccountsFor (Tour.unseen visit.settings (Tour.departures begin rounds)) := by
  intro visit begin
  obtain ⟨hCrawl, hTour⟩ :=
    summary_accounts_for_every_file visit.settings visit.readers (by decide)
  constructor
  · have hRun : ((Crawl.start visit.settings visit.readers visit.tree visit.root visit.now
        .empty).toOption.map fun c =>
          decide (c.InTime Crawl.firstEvents ∧
            (c.run Crawl.firstEvents).walk.phase = .ended (.ok ()))) = some true := by
      decide +kernel
    cases hStart : Crawl.start visit.settings visit.readers visit.tree visit.root visit.now
      .empty with
    | error f => simp [hStart, Except.toOption] at hRun
    | ok c =>
        simp only [hStart, Except.toOption, Option.map_some, Option.some.injEq,
          decide_eq_true_eq] at hRun
        exact ⟨c, rfl, hRun.1, hRun.2, hCrawl _ _ _ _ c _ hStart hRun.1 hRun.2⟩
  · have hInTime : Tour.RunsInTime begin rounds := by decide +kernel
    have hRun : ((Tour.run begin rounds).2.result.map fun r => r.toOption.map (·.scanned)) =
        some (some 2) := by decide +kernel
    obtain ⟨result, hResult, hScanned⟩ := Option.map_eq_some_iff.mp hRun
    cases result with
    | error f => cases hScanned
    | ok sum =>
        obtain ⟨_, hAccounts⟩ := hTour none [visit.root, visit.root] begin rounds sum rfl hInTime hResult
        exact ⟨sum, hInTime, hResult, Option.some.inj hScanned, hAccounts⟩

/-- The file of a crawl that left its last operation behind is missing from the summary. -/
theorem overtakenCrawl_loses_count :
    ¬∀ (settings : Settings) (readers : Readers) (tree : FileTree) (root : Path) (now : DateTime)
      (store : Store) (c : Crawl) (events : List Crawl.Event),
      settings.workerConcurrency.isAtMost 0 = false →
        Crawl.start settings readers tree root now store = .ok c →
          (c.run events).walk.phase = .ended (.ok ()) →
            ((c.run events).walk.summary (c.run events).delivery).AccountsFor
              (Crawl.unseen settings tree root store).length := by
  intro hAll
  have hRun : (Crawl.overtakenCrawl.toOption.map fun c =>
      let after := c.run Crawl.overtakenEvents
      (decide (after.walk.phase = .ended (.ok ())), after.walk.scanned, after.walk.unchanged,
        after.walk.skipped, after.delivery.coordinator.tally.indexed,
        after.delivery.coordinator.tally.failed.length)) = some (true, 1, 0, 0, 0, 0) := by
    decide +kernel
  cases hStart : Crawl.overtakenCrawl with
  | error f => simp [hStart, Except.toOption] at hRun
  | ok c =>
      simp only [hStart, Except.toOption, Option.map_some, Option.some.injEq, Prod.mk.injEq,
        decide_eq_true_eq, List.length_eq_zero_iff] at hRun
      obtain ⟨hEnd, hScanned, hUnchanged, hSkipped, hIndexed, hClean⟩ := hRun
      have hFiles := (hAll _ _ _ _ _ _ c Crawl.overtakenEvents (by decide) hStart hEnd).files
      simp [Crawl.Walk.summary, hScanned, hUnchanged, hSkipped, hIndexed, hClean] at hFiles

end Simulation
end Indexer
