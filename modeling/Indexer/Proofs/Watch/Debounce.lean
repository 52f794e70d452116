import Indexer.Simulation.Feed
import Mathlib.Data.List.Induction
import Mathlib.Data.List.Nodup

/-! How a watcher gathers changes. What waits for a flush is the latest change of each
path since the flush before, and as long as something waits, one flush is planned. So
the changes that are recorded fall into rounds, each of which is handed on in one batch
by the flush that ends it. -/
namespace Indexer

/-! ### What is left of a round -/

/-- The latest change of each path, in the order in which the paths first appear. -/
def latest (changes : List FileChange) : List FileChange :=
  (changes.map (·.path)).eraseDups.filterMap fun p => changes.reverse.find? (·.path = p)

/-- A batch hands on the changes of a round: one for each path in the order in which the paths first
appeared, and the latest one; every other change was replaced by a later one. -/
structure Delivers (round batch : List FileChange) : Prop where
  some : batch ≠ []
  paths : batch.map (·.path) = (round.map (·.path)).eraseDups
  once : (batch.map (·.path)).Nodup
  latest : ∀ c ∈ batch, ∃ before after, round = before ++ c :: after ∧
    ∀ later ∈ after, later.path ≠ c.path
  complete : ∀ before c after, round = before ++ c :: after →
    c ∈ batch ∨ ∃ later ∈ after, later.path = c.path

theorem eraseDups_concat {α : Type} [DecidableEq α] (l : List α) (a : α) :
    (l ++ [a]).eraseDups = if a ∈ l then l.eraseDups else l.eraseDups ++ [a] := by
  rw [List.eraseDups_append, List.removeAll]
  split
  · next hIn => simp [hIn]
  · next hNew => simp [hNew, List.eraseDups_cons]

theorem nodup_eraseDups {α : Type} [DecidableEq α] (l : List α) : l.eraseDups.Nodup := by
  induction l using List.reverseRecOn with
  | nil => exact List.nodup_nil
  | append_singleton l a ih =>
      rw [eraseDups_concat]
      split
      · exact ih
      · next hNew =>
          refine List.nodup_append.mpr ⟨ih, List.nodup_singleton a, ?_⟩
          rintro b hb _ hSame rfl
          rw [List.mem_singleton.mp hSame, List.mem_eraseDups] at hb
          exact hNew hb

theorem mem_latest {changes : List FileChange} {c : FileChange} :
    c ∈ latest changes ↔ changes.reverse.find? (·.path = c.path) = some c := by
  rw [latest, List.mem_filterMap]
  constructor
  · rintro ⟨p, _, hFind⟩
    have hPath : c.path = p := by simpa using List.find?_some hFind
    rwa [hPath]
  · intro hFind
    refine ⟨c.path, List.mem_eraseDups.mpr (List.mem_map.mpr ⟨c, ?_, rfl⟩), hFind⟩
    exact List.mem_reverse.mp (List.mem_of_find?_eq_some hFind)

theorem paths_latest (changes : List FileChange) :
    (latest changes).map (·.path) = (changes.map (·.path)).eraseDups := by
  rw [latest, List.map_filterMap]
  refine Eq.trans (List.filterMap_congr fun p hp => ?_) List.filterMap_some
  obtain ⟨d, hd, rfl⟩ := List.mem_map.mp (List.mem_eraseDups.mp hp)
  cases hFind : changes.reverse.find? (·.path = d.path) with
  | none =>
      have hNone := List.find?_eq_none.mp hFind d (List.mem_reverse.mpr hd)
      exact absurd (decide_eq_true rfl) hNone
  | some c =>
      have hPath : c.path = d.path := by simpa using List.find?_some hFind
      rw [Option.map_some, hPath]

theorem latest_ne_nil {changes : List FileChange} (h : changes ≠ []) : latest changes ≠ [] := by
  obtain ⟨c, rest, rfl⟩ := List.exists_cons_of_ne_nil h
  intro hNone
  have hPaths := paths_latest (c :: rest)
  rw [hNone, List.map_cons, List.eraseDups_cons] at hPaths
  cases hPaths

theorem delivers_latest {changes : List FileChange} (h : changes ≠ []) :
    Delivers changes (latest changes) where
  some := latest_ne_nil h
  paths := paths_latest changes
  once := paths_latest changes ▸ nodup_eraseDups _
  latest c hc := by
    obtain ⟨_, after, before, hSplit, hLater⟩ :=
      List.find?_eq_some_iff_append.mp (mem_latest.mp hc)
    refine ⟨before.reverse, after.reverse, ?_, fun later hIn => ?_⟩
    · rw [← List.reverse_reverse changes, hSplit]
      simp
    · simpa using hLater later (List.mem_reverse.mp hIn)
  complete before c after hSplit := by
    by_cases hReplaced : ∃ later ∈ after, later.path = c.path
    · exact .inr hReplaced
    · refine .inl (mem_latest.mpr ?_)
      rw [hSplit, List.reverse_append, List.find?_append, List.reverse_cons, List.find?_append]
      have hNone : after.reverse.find? (·.path = c.path) = none := by
        rw [List.find?_eq_none]
        intro later hIn hPath
        exact hReplaced ⟨later, List.mem_reverse.mp hIn, of_decide_eq_true hPath⟩
      simp [hNone]

namespace Watcher

/-- One more change takes the place of an earlier one of its path, or comes at the end. -/
theorem put_latest (changes : List FileChange) (c : FileChange) :
    put (latest changes) c = latest (changes ++ [c]) := by
  have hLook (p : Path) : (changes ++ [c]).reverse.find? (·.path = p) =
      if c.path = p then some c else changes.reverse.find? (·.path = p) := by
    rw [List.reverse_append, List.reverse_singleton, List.singleton_append, List.find?_cons]
    by_cases hPath : c.path = p <;> simp [hPath]
  have hKnown : (latest changes).any (·.path = c.path) = true ↔ c.path ∈ changes.map (·.path) := by
    rw [← List.mem_eraseDups, ← paths_latest, List.any_eq_true, List.mem_map]
    simp only [decide_eq_true_eq]
  rw [put, latest.eq_1 (changes ++ [c]), List.map_append, List.map_singleton, eraseDups_concat]
  -- A path that is known keeps its place among the paths, a new one comes at their end.
  by_cases hIn : c.path ∈ changes.map (·.path)
  · rw [if_pos (hKnown.mpr hIn), if_pos hIn, latest, List.map_filterMap]
    refine List.filterMap_congr fun p hp => ?_
    rw [hLook]
    cases hFind : changes.reverse.find? (·.path = p) with
    | none =>
        obtain ⟨d, hd, hPath⟩ := List.mem_map.mp (List.mem_eraseDups.mp hp)
        exact absurd (decide_eq_true hPath) (List.find?_eq_none.mp hFind d (List.mem_reverse.mpr hd))
    | some d =>
        have hPath : d.path = p := by simpa using List.find?_some hFind
        rw [Option.map_some, hPath]
        by_cases hSame : c.path = p
        · rw [if_pos hSame.symm, if_pos hSame]
        · rw [if_neg fun h => hSame h.symm, if_neg hSame]
  · rw [if_neg fun h => hIn (hKnown.mp h), if_neg hIn, List.filterMap_append, latest]
    congr 1
    · refine List.filterMap_congr fun p hp => ?_
      have hOther : c.path ≠ p := fun h => hIn (h ▸ List.mem_eraseDups.mp hp)
      rw [hLook, if_neg hOther]
    · rw [List.filterMap_cons, hLook, if_pos rfl]
      rfl

theorem foldl_put_latest (changes more : List FileChange) :
    more.foldl put (latest changes) = latest (changes ++ more) := by
  induction more generalizing changes with
  | nil => rw [List.foldl_nil, List.append_nil]
  | cons c more ih =>
      rw [List.foldl_cons, put_latest, ih, List.append_assoc]
      rfl

theorem put_ne_nil (pending : List FileChange) (c : FileChange) : put pending c ≠ [] := by
  cases pending with
  | nil => simp [put]
  | cons d pending =>
      unfold put
      split <;> simp

/-- A watcher that was started plans a flush when it records changes. -/
theorem foldl_record {w : Watcher} (h : w.started = true) (c : FileChange) (changes : List FileChange) :
    (c :: changes).foldl record w =
      { w with pending := (c :: changes).foldl put w.pending, planned := true } := by
  induction changes generalizing w c with
  | nil => simp [record, h]
  | cons d changes ih =>
      rw [List.foldl_cons, ih (show (w.record c).started = true from h)]
      rfl

theorem foldl_put_ne_nil (pending : List FileChange) (c : FileChange) (changes : List FileChange) :
    (c :: changes).foldl put pending ≠ [] := by
  induction changes generalizing pending c with
  | nil => exact put_ne_nil pending c
  | cons d changes ih => exact ih (put pending c) d

theorem flush_of_pending {w : Watcher} (h : w.pending ≠ []) :
    w.flush = ({ w with planned := false, pending := [] }, some w.pending) := by
  unfold flush
  split
  · next hNone => exact absurd hNone h
  · rfl

end Watcher

/-! ### What happens to a watcher that runs -/

open Float.Model in
/-- What can be compared is equal to itself. -/
theorem beq_self_of_le {a b : Float} (h : a ≤ b) : (a == a) = true := by
  have hLe : a.toModel.unpack.le b.toModel.unpack = true := of_decide_eq_true h
  change a.toModel.unpack.beq a.toModel.unpack = true
  generalize a.toModel.unpack = x at hLe ⊢
  cases x with
  | notANumber => cases hLe
  | infinity sign => cases sign <;> rfl
  | zero sign => rfl
  | finite sign mantissa exponent =>
      have hSame : (compare exponent exponent).then (compare mantissa mantissa) = .eq := by simp
      cases sign with
      | positive =>
          change (some ((compare exponent exponent).then (compare mantissa mantissa)) == some .eq) = true
          rw [hSame]
          rfl
      | negative =>
          change (some ((compare exponent exponent).then (compare mantissa mantissa)).swap
            == some .eq) = true
          rw [hSame]
          rfl

namespace Simulation.Feed

/-- What can happen to a watcher that runs. -/
inductive Event where
  /-- Something happens in the file system. -/
  | hear (e : FileEvent)
  /-- Somebody reports a change. -/
  | report (change : FileChange)
  /-- The watcher gets to the changes that were reported. -/
  | record (clock : Float)
  /-- The clock shows this time, and the flush that is due by then is made. -/
  | fire (clock : Float)

/-- The event makes a flush. -/
def flushes (f : Feed) : Event → Bool
  | .fire clock => isDue clock f.due?
  | _ => false

/-- The changes that the event records. -/
def recorded (f : Feed) : Event → List FileChange
  | .record _ => f.posted
  | _ => []

/-- What an event does. -/
def step (f : Feed) : Event → Feed
  | .hear e => (f.hear e).1
  | .report change => f.report change
  | .record clock => (f.absorb? clock).getD f
  | .fire clock =>
    match f.due? with
    | some t => if t ≤ clock then f.fire t else f
    | none => f

/-- The state after a sequence of events. -/
def run (f : Feed) (events : List Event) : Feed := events.foldl step f

/-- A watcher that has just been started, and has never recorded anything. -/
def watching (settings : Settings) (tree : FileTree) (roots : List Path) : Feed :=
  ((create settings).start tree roots).1

/-- The flushes that are planned. -/
def timers (f : Feed) : List Float := f.flushAt.toList ++ f.strayAt

/-- The changes that are recorded in a sequence of events. -/
def changes (f : Feed) : List Event → List FileChange
  | [] => []
  | e :: events => f.recorded e ++ (f.step e).changes events

/-- The changes that are recorded in a sequence of events, by the flushes that follow them: those of
each round that a flush ends, and those that no flush has followed yet. `begun` holds what the round
under way has recorded before. -/
def rounds (f : Feed) (begun : List FileChange) : List Event → List (List FileChange) × List FileChange
  | [] => ([], begun)
  | e :: events =>
    if f.flushes e then
      let (ended, last) := (f.step e).rounds [] events
      (begun :: ended, last)
    else (f.step e).rounds (begun ++ f.recorded e) events

theorem recorded_of_flushes {f : Feed} {e : Event} (h : f.flushes e = true) : f.recorded e = [] := by
  cases e with
  | fire clock => rfl
  | _ => cases h

/-- A flush is planned as long as changes wait for one, and no other. -/
structure Steady (f : Feed) : Prop where
  started : f.watcher.started = true
  planned : f.watcher.planned = f.flushAt.isSome
  waiting : f.watcher.pending = [] ↔ f.flushAt = none
  stray : f.strayAt = []

theorem steady_watching (settings : Settings) (tree : FileTree) (roots : List Path) :
    (watching settings tree roots).Steady where
  started := rfl
  planned := rfl
  waiting := ⟨fun _ => rfl, fun _ => rfl⟩
  stray := rfl

/-- The changes that the event has reported, if the watcher has an ear for them. -/
def reports (f : Feed) : Event → List FileChange
  | .hear e =>
    if (f.watcher.watched.getD []).isEmpty then [] else e.change?.toList.filter f.watcher.hears
  | .report change => [change].filter f.watcher.hears
  | _ => []

variable {f : Feed}

theorem report_eq (h : f.watcher.started = true) (change : FileChange) :
    f.report change = { f with posted := f.posted ++ [change].filter f.watcher.hears } := by
  unfold report
  cases hHears : f.watcher.hears change <;> simp [hHears, h]

theorem hear_eq (h : f.watcher.started = true) (e : FileEvent) :
    (f.hear e).1 = { f with posted := f.posted ++ f.reports (.hear e) } := by
  rw [hear, reports]
  split
  · next hWatched => simp [hWatched]
  · next hWatched => simp [hWatched]
  · next roots hSome hWatched =>
      rw [hWatched, Option.getD_some, if_neg (hSome ∘ List.isEmpty_iff.mp)]
      cases e.change? with
      | none => simp
      | some change => exact report_eq h change

theorem Steady.due? (h : f.Steady) : f.due? = f.flushAt := by
  rw [Feed.due?, h.stray]
  rfl

/-- What concerns flushes is left alone. -/
theorem Steady.of_posted (h : f.Steady) (posted : List FileChange) :
    ({ f with posted } : Feed).Steady :=
  ⟨h.started, h.planned, h.waiting, h.stray⟩

theorem absorb?_of_cons (h : f.watcher.started = true) {c : FileChange} {changes : List FileChange}
    (hPosted : f.posted = c :: changes) (clock : Float) :
    f.absorb? clock = some { f with
      watcher := { f.watcher with
        pending := (c :: changes).foldl Watcher.put f.watcher.pending, planned := true }
      posted := []
      flushAt := some (f.flushAt.getD (clock + f.patience)) } := by
  rw [absorb?, hPosted]
  simp only [Watcher.foldl_record h, if_true]

/-- An event that makes no flush records its changes, and hands on nothing. -/
theorem Steady.step_quiet (h : f.Steady) {e : Event} (hQuiet : f.flushes e = false) :
    (f.step e).Steady ∧ (f.step e).ready = f.ready ∧
      (f.step e).watcher.pending = (f.recorded e).foldl Watcher.put f.watcher.pending := by
  cases e with
  | hear e =>
      rw [step, hear_eq h.started]
      exact ⟨h.of_posted _, rfl, rfl⟩
  | report change =>
      rw [step, report_eq h.started]
      exact ⟨h.of_posted _, rfl, rfl⟩
  | record clock =>
      rw [step, recorded]
      cases hPosted : f.posted with
      | nil =>
          rw [absorb?, hPosted]
          exact ⟨h, rfl, rfl⟩
      | cons c changes =>
          rw [absorb?_of_cons h.started hPosted]
          refine ⟨⟨h.started, rfl, ?_, h.stray⟩, rfl, rfl⟩
          exact iff_of_false (Watcher.foldl_put_ne_nil _ c changes) nofun
  | fire clock =>
      rw [step]
      rw [flushes] at hQuiet
      cases hDue : f.due? with
      | none => exact ⟨h, rfl, rfl⟩
      | some t =>
          rw [hDue, isDue, decide_eq_false_iff_not] at hQuiet
          dsimp only
          rw [if_neg hQuiet]
          exact ⟨h, rfl, rfl⟩

/-- The flush that is due hands on what waits. -/
theorem Steady.fire (h : f.Steady) {t : Float} (hDue : f.due? = some t) :
    (f.fire t).ready = f.ready ++ [f.watcher.pending] ∧ (f.fire t).watcher.pending = [] ∧
      f.watcher.pending ≠ [] ∧ ((t == t) = true → (f.fire t).Steady) := by
  rw [h.due?] at hDue
  have hPending : f.watcher.pending ≠ [] := by
    intro hNone
    rw [h.waiting.mp hNone] at hDue
    cases hDue
  have hFlush := Watcher.flush_of_pending hPending
  unfold Feed.fire
  split
  · refine ⟨?_, ?_, hPending, fun _ => ⟨?_, ?_, ?_, ?_⟩⟩
    all_goals simp [flush, hFlush, h.started, h.stray]
  · next hOther =>
      -- An instant that is not equal to itself is not known as that of the planned flush.
      refine ⟨?_, ?_, hPending, fun hSelf => absurd ?_ hOther⟩
      · simp [flush, hFlush]
      · simp [flush, hFlush]
      · rw [hDue]
        exact hSelf

/-- An event that makes a flush hands on what waits, and nothing waits any longer. -/
theorem Steady.step_flush (h : f.Steady) {e : Event} (hFlush : f.flushes e = true) :
    (f.step e).Steady ∧ (f.step e).ready = f.ready ++ [f.watcher.pending] ∧
      (f.step e).watcher.pending = [] ∧ f.watcher.pending ≠ [] := by
  cases e with
  | hear e => cases hFlush
  | report change => cases hFlush
  | record clock => cases hFlush
  | fire clock =>
      rw [flushes] at hFlush
      cases hDue : f.due? with
      | none =>
          rw [hDue] at hFlush
          cases hFlush
      | some t =>
          rw [hDue, isDue, decide_eq_true_eq] at hFlush
          obtain ⟨hReady, hPending, hSome, hSteady⟩ := h.fire hDue
          rw [step, hDue]
          dsimp only
          rw [if_pos hFlush]
          exact ⟨hSteady (beq_self_of_le hFlush), hReady, hPending, hSome⟩

/-- What has been handed on is what is left of the rounds that came to an end, and what waits is what
is left of the round under way. -/
theorem Steady.run (h : f.Steady) {begun : List FileChange} (hBegun : f.watcher.pending = latest begun)
    (events : List Event) :
    (f.run events).Steady ∧
      (f.run events).ready = f.ready ++ (f.rounds begun events).1.map latest ∧
      (f.run events).watcher.pending = latest (f.rounds begun events).2 ∧
      (∀ round ∈ (f.rounds begun events).1, round ≠ []) ∧
      begun ++ f.changes events = (f.rounds begun events).1.flatten ++ (f.rounds begun events).2 := by
  -- `begun` is what the round under way has recorded: a quiet event adds to it, a flush clears it.
  induction events generalizing f begun with
  | nil => exact ⟨h, by simp [Feed.run, rounds], hBegun, by simp [rounds], by simp [rounds, changes]⟩
  | cons e events ih =>
      rw [rounds, changes]
      cases hFlushes : f.flushes e with
      | false =>
          obtain ⟨hSteady, hReady, hPending⟩ := h.step_quiet hFlushes
          rw [hBegun, Watcher.foldl_put_latest] at hPending
          obtain ⟨hEnd, hHanded, hWaits, hSome, hAll⟩ := ih hSteady hPending
          rw [hReady] at hHanded
          exact ⟨hEnd, hHanded, hWaits, hSome, by simpa using hAll⟩
      | true =>
          obtain ⟨hSteady, hReady, hPending, hRound⟩ := h.step_flush hFlushes
          obtain ⟨hEnd, hHanded, hWaits, hSome, hAll⟩ := ih hSteady (show _ = latest [] from hPending)
          refine ⟨hEnd, ?_, hWaits, ?_, ?_⟩
          · refine hHanded.trans ?_
            rw [hReady, hBegun]
            simp
          · rintro round (_ | ⟨_, hIn⟩)
            · rintro rfl
              exact hRound hBegun
            · exact hSome round hIn
          · have hNone := recorded_of_flushes hFlushes
            simp only [hNone, if_true, List.nil_append] at hAll ⊢
            rw [hAll]
            simp

theorem Steady.timers (h : f.Steady) :
    f.timers.length = if f.watcher.pending = [] then 0 else 1 := by
  rw [Feed.timers, h.stray, List.append_nil]
  cases hFlush : f.flushAt with
  | none => simp [h.waiting.mpr hFlush]
  | some t =>
      have hPending : f.watcher.pending ≠ [] := fun hNone => by simp [h.waiting.mp hNone] at hFlush
      simp [hPending]

/-- **No change is lost.** However events and flushes follow one another after a watcher was started,
one flush is planned while changes wait for it, and none otherwise. The changes that are recorded fall
into rounds: each that a flush has ended was handed on in one batch, in the order of the flushes, and
what waits is the latest change of each path in the round under way. -/
theorem debouncing_loses_no_change (settings : Settings) (tree : FileTree) (roots : List Path)
    (events : List Event) :
    let start := watching settings tree roots
    let f := start.run events
    let (ended, last) := start.rounds [] events
    (f.timers.length = if f.watcher.pending = [] then 0 else 1) ∧
      start.changes events = ended.flatten ++ last ∧
      List.Forall₂ Delivers ended f.ready ∧
      f.watcher.pending = latest last := by
  obtain ⟨hEnd, hHanded, hWaits, hSome, hAll⟩ :=
    (steady_watching settings tree roots).run (show _ = latest [] from rfl) events
  refine ⟨hEnd.timers, hAll, ?_, hWaits⟩
  rw [hHanded]
  refine List.forall₂_map_right_iff.mpr (List.forall₂_same.mpr fun round hIn => ?_)
  exact delivers_latest (hSome round hIn)

end Simulation.Feed
end Indexer
