import Indexer.Proofs.Watch.Debounce

/-! The roots that a batch sends a crawl to. A change counts where it took place, and a file that was
moved counts at the place it went to: the place it left is written down but never looked at. So a
root comes up exactly when an event of the round has its place below it. -/
namespace Indexer

theorem mem_affectedRoots {roots : List Path} {batch : List FileChange} {root : Path} :
    root ∈ affectedRoots roots batch ↔ root ∈ roots ∧ ∃ c ∈ batch, c.path.isUnder root = true := by
  rw [affectedRoots, List.mem_filter, List.any_eq_true]

theorem exists_path_latest (changes : List FileChange) (p : Path → Prop) :
    (∃ c ∈ latest changes, p c.path) ↔ ∃ c ∈ changes, p c.path := by
  have hPlaces (l : List FileChange) : (∃ c ∈ l, p c.path) ↔ ∃ q ∈ l.map (·.path), p q := by simp
  rw [hPlaces, paths_latest, hPlaces]
  simp only [List.mem_eraseDups]

namespace FileEvent

/-- Where the event took place; a file that was moved is at the place it went to. -/
def place (e : FileEvent) : Path :=
  match e.kind with
  | .moved target => target
  | _ => e.path

/-- The event tells of a change at or below a root, in a place that the settings do not leave out. -/
@[mk_iff]
structure TellsOf (e : FileEvent) (settings : Settings) (root : Path) : Prop where
  file : e.isDirectory = false
  changed : e.kind ≠ .touched
  heard : settings.ignoresPath e.place = false
  under : e.place.isUnder root = true

theorem exists_change_iff {e : FileEvent} {p : Path → Prop} :
    (∃ c ∈ e.change?.toList, p c.path) ↔ e.isDirectory = false ∧ e.kind ≠ .touched ∧ p e.place := by
  obtain ⟨kind, path, isDirectory⟩ := e
  cases isDirectory <;> cases kind <;> simp [change?, place]

end FileEvent

namespace Simulation.Feed

variable {f : Feed}

/-- The event is one of the file system, or the watcher's getting to those. -/
def Event.gathers : Event → Bool
  | .hear _ | .record _ => true
  | _ => false

/-- The flush that is planned will hand on a batch that sends a crawl to the root. -/
def BringsUp (f : Feed) (roots : List Path) (root : Path) : Prop :=
  ∃ t batch, f.due? = some t ∧ (f.fire t).ready = f.ready ++ [batch] ∧
    root ∈ affectedRoots roots batch

theorem Steady.bringsUp_iff (h : f.Steady) {roots : List Path} {root : Path} :
    f.BringsUp roots root ↔ root ∈ roots ∧ ∃ c ∈ f.watcher.pending, c.path.isUnder root = true := by
  rw [← mem_affectedRoots]
  constructor
  · rintro ⟨t, batch, hDue, hReady, hRoot⟩
    rw [(h.fire hDue).1] at hReady
    rwa [← List.singleton_inj.mp (List.append_cancel_left hReady)] at hRoot
  · intro hRoot
    obtain ⟨_, c, hc, _⟩ := mem_affectedRoots.mp hRoot
    have hPending : f.watcher.pending ≠ [] := List.ne_nil_of_mem hc
    obtain ⟨t, hFlush⟩ := Option.ne_none_iff_exists'.mp (mt h.waiting.mpr hPending)
    have hDue : f.due? = some t := h.due?.trans hFlush
    exact ⟨t, f.watcher.pending, hDue, (h.fire hDue).1, hRoot⟩

/-- An event leaves alone what is watched, and by which settings. -/
theorem Steady.step_watch (h : f.Steady) (e : Event) :
    (f.step e).watcher.settings = f.watcher.settings ∧
      (f.step e).watcher.watched = f.watcher.watched := by
  cases e with
  | hear e => rw [step, hear_eq h.started]; exact ⟨rfl, rfl⟩
  | report change => rw [step, report_eq h.started]; exact ⟨rfl, rfl⟩
  | record clock =>
      rw [step]
      cases hPosted : f.posted with
      | nil => rw [absorb?, hPosted]; exact ⟨rfl, rfl⟩
      | cons c changes => rw [absorb?_of_cons h.started hPosted]; exact ⟨rfl, rfl⟩
  | fire clock =>
      rw [step]
      cases hDue : f.due? with
      | none => exact ⟨rfl, rfl⟩
      | some t =>
          have hPending := (h.fire hDue).2.2.1
          dsimp only
          split
          · unfold Feed.fire
            split <;> simp [flush, Watcher.flush_of_pending hPending]
          · exact ⟨rfl, rfl⟩

theorem reports_congr {g : Feed} (hSettings : g.watcher.settings = f.watcher.settings)
    (hWatched : g.watcher.watched = f.watcher.watched) (e : Event) : g.reports e = f.reports e := by
  have hHears : g.watcher.hears = f.watcher.hears := by
    funext change
    rw [Watcher.hears, hSettings, Watcher.hears]
  cases e with
  | hear e => rw [reports, hWatched, hHears, reports]
  | report change => rw [reports, hHears, reports]
  | record clock => rfl
  | fire clock => rfl

theorem Steady.step_any (h : f.Steady) (e : Event) : (f.step e).Steady := by
  cases hFlushes : f.flushes e with
  | false => exact (h.step_quiet hFlushes).1
  | true => exact (h.step_flush hFlushes).1

theorem Steady.run_watch (h : f.Steady) (events : List Event) :
    (f.run events).Steady ∧ (f.run events).watcher.settings = f.watcher.settings ∧
      (f.run events).watcher.watched = f.watcher.watched := by
  induction events generalizing f with
  | nil => exact ⟨h, rfl, rfl⟩
  | cons e events ih =>
      obtain ⟨hSettings, hWatched⟩ := h.step_watch e
      obtain ⟨hEnd, hSame, hStill⟩ := ih (h.step_any e)
      exact ⟨hEnd, hSame.trans hSettings, hStill.trans hWatched⟩

/-- What an event reports is recorded later, in the order of the events. -/
theorem Steady.step_gather (h : f.Steady) {e : Event} (hGathers : e.gathers = true) :
    f.flushes e = false ∧ f.recorded e ++ (f.step e).posted = f.posted ++ f.reports e := by
  cases e with
  | hear e => exact ⟨rfl, by rw [step, hear_eq h.started]; rfl⟩
  | report change => cases hGathers
  | record clock =>
      refine ⟨rfl, ?_⟩
      change f.posted ++ (f.step (.record clock)).posted = f.posted ++ []
      rw [step]
      cases hPosted : f.posted with
      | nil => rw [absorb?, hPosted]; exact congrArg _ hPosted
      | cons c changes => rw [absorb?_of_cons h.started hPosted]; rfl
  | fire clock => cases hGathers

/-- While events are gathered, what they report is what is recorded and what is still to be. -/
theorem Steady.run_gather (h : f.Steady) {begun : List FileChange}
    (hBegun : f.watcher.pending = latest begun) {events : List Event}
    (hGathers : ∀ e ∈ events, e.gathers = true) :
    ∃ changes, (f.run events).watcher.pending = latest (begun ++ changes) ∧
      changes ++ (f.run events).posted = f.posted ++ events.flatMap f.reports := by
  induction events generalizing f begun with
  | nil => exact ⟨[], by rwa [List.append_nil], by simp [Feed.run]⟩
  | cons e events ih =>
      obtain ⟨hQuiet, hPosted⟩ := h.step_gather (hGathers e List.mem_cons_self)
      obtain ⟨hSteady, _, hPending⟩ := h.step_quiet hQuiet
      obtain ⟨hSettings, hWatched⟩ := h.step_watch e
      rw [hBegun, Watcher.foldl_put_latest] at hPending
      obtain ⟨changes, hWaits, hAll⟩ := ih hSteady hPending fun x hx => hGathers x (.tail e hx)
      refine ⟨f.recorded e ++ changes, by rw [← List.append_assoc]; exact hWaits, ?_⟩
      rw [List.flatMap_congr fun x _ => reports_congr hSettings hWatched x] at hAll
      calc f.recorded e ++ changes ++ (f.run (e :: events)).posted
          = f.recorded e ++ ((f.step e).posted ++ events.flatMap f.reports) := by
            rw [List.append_assoc]; exact congrArg _ hAll
        _ = f.posted ++ (e :: events).flatMap f.reports := by
            rw [← List.append_assoc, hPosted, List.append_assoc, List.flatMap_cons]

/-- A watcher with a directory under watch reports a change of the place of an event. -/
theorem exists_reports_iff (hWatched : (f.watcher.watched.getD []).isEmpty = false) {x : FileEvent}
    {root : Path} :
    (∃ c ∈ f.reports (.hear x), c.path.isUnder root = true) ↔
      x.TellsOf f.watcher.settings root := by
  have hHeard : (∃ c ∈ f.reports (.hear x), c.path.isUnder root = true) ↔
      ∃ c ∈ x.change?.toList,
        f.watcher.settings.ignoresPath c.path = false ∧ c.path.isUnder root = true := by
    simp [reports, hWatched, Watcher.hears, and_assoc]
  rw [hHeard, FileEvent.tellsOf_iff]
  exact FileEvent.exists_change_iff
    (p := fun q => f.watcher.settings.ignoresPath q = false ∧ q.isUnder root = true)

/-- The flush after a round of events brings up the roots that one of them tells of, and those of the
changes that were reported before. -/
theorem Steady.bringsUp_iff_told (h : f.Steady)
    (hWatched : (f.watcher.watched.getD []).isEmpty = false) (hIdle : f.watcher.pending = [])
    {events : List Event} (hGathers : ∀ e ∈ events, e.gathers = true)
    (hRecorded : (f.run events).posted = []) (roots : List Path) (root : Path) :
    (f.run events).BringsUp roots root ↔
      root ∈ roots ∧ ((∃ c ∈ f.posted, c.path.isUnder root = true) ∨
        ∃ x, .hear x ∈ events ∧ x.TellsOf f.watcher.settings root) := by
  obtain ⟨changes, hPending, hAll⟩ := h.run_gather (show _ = latest [] from hIdle) hGathers
  rw [hRecorded, List.append_nil] at hAll
  rw [(h.run_watch events).1.bringsUp_iff, hPending, List.nil_append, hAll,
    exists_path_latest _ fun q => q.isUnder root = true]
  refine and_congr_right fun _ => ?_
  constructor
  · rintro ⟨c, hc, hUnder⟩
    rcases List.mem_append.mp hc with hNews | hReported
    · exact .inl ⟨c, hNews, hUnder⟩
    · obtain ⟨e, he, hReport⟩ := List.mem_flatMap.mp hReported
      cases e with
      | hear x => exact .inr ⟨x, he, (exists_reports_iff hWatched).mp ⟨c, hReport, hUnder⟩⟩
      | report change => cases hGathers _ he
      | record clock => cases hReport
      | fire clock => cases hReport
  · rintro (⟨c, hNews, hUnder⟩ | ⟨x, hx, hTells⟩)
    · exact ⟨c, List.mem_append_left _ hNews, hUnder⟩
    · obtain ⟨c, hReport, hUnder⟩ := (exists_reports_iff hWatched).mpr hTells
      exact ⟨c, List.mem_append_right _ (List.mem_flatMap.mpr ⟨_, hx, hReport⟩), hUnder⟩

theorem run_append (f : Feed) (earlier events : List Event) :
    f.run (earlier ++ events) = (f.run earlier).run events := List.foldl_append

/-- A watcher that was started on roots of which one is there stays as it was started. -/
theorem run_watching (settings : Settings) {tree : FileTree} {roots : List Path}
    (hThere : ∃ r ∈ roots, tree.contains r = true) (events : List Event) :
    ((watching settings tree roots).run events).Steady ∧
      ((watching settings tree roots).run events).watcher.settings = settings ∧
      (((watching settings tree roots).run events).watcher.watched.getD []).isEmpty = false := by
  obtain ⟨hSteady, hSettings, hWatched⟩ := (steady_watching settings tree roots).run_watch events
  obtain ⟨r, hIn, hContains⟩ := hThere
  refine ⟨hSteady, hSettings, ?_⟩
  rw [hWatched]
  exact List.isEmpty_eq_false_iff.mpr (List.ne_nil_of_mem (List.mem_filter.mpr ⟨hIn, hContains⟩))

/-- **What brings up a root.** After a flush the watcher hears of events and gets to them. When it has
got to all of them, the next flush hands on a batch that sends a crawl to a root exactly when one of
the events is about a file and has its place below that root, in a place that the settings do not
leave out, or a change that was reported ahead of the flush before and not recorded by then has its
path there. The place of a move is its target, and what comes later takes nothing back. -/
theorem roots_follow_the_places {settings : Settings} {tree : FileTree} {roots : List Path}
    (hThere : ∃ r ∈ roots, tree.contains r = true) {earlier events : List Event}
    (hIdle : ((watching settings tree roots).run earlier).watcher.pending = [])
    (hGathers : ∀ e ∈ events, e.gathers = true)
    (hRecorded : ((watching settings tree roots).run (earlier ++ events)).posted = []) (root : Path) :
    ((watching settings tree roots).run (earlier ++ events)).BringsUp roots root ↔
      root ∈ roots ∧
        ((∃ c ∈ ((watching settings tree roots).run earlier).posted, c.path.isUnder root = true) ∨
          ∃ x, .hear x ∈ events ∧ x.TellsOf settings root) := by
  obtain ⟨hSteady, hSettings, hWatched⟩ := run_watching settings hThere earlier
  rw [run_append] at hRecorded ⊢
  have hTold := hSteady.bringsUp_iff_told hWatched hIdle hGathers hRecorded roots root
  rwa [hSettings] at hTold

/-- Two directories. -/
def twoShelves : FileTree := ⟨[.plainDirectory ⟨1, ["q"]⟩, .plainDirectory ⟨1, ["r"]⟩]⟩

/-- A file goes from one directory to the other. -/
def removal : FileEvent := ⟨.moved ⟨1, ["q", "b.txt"]⟩, ⟨1, ["r", "a.txt"]⟩, false⟩

/-- The directory that the file went to comes up, and the one that it left does not. -/
theorem removal_brings_up_its_target :
    let f := (watching (.initial ⟨0, []⟩) twoShelves [⟨1, ["q"]⟩, ⟨1, ["r"]⟩]).run
      ([] ++ [.hear removal, .record 0.0])
    f.BringsUp [⟨1, ["q"]⟩, ⟨1, ["r"]⟩] ⟨1, ["q"]⟩ ∧ ¬f.BringsUp [⟨1, ["q"]⟩, ⟨1, ["r"]⟩] ⟨1, ["r"]⟩ := by
  have hTold := @roots_follow_the_places (.initial ⟨0, []⟩) twoShelves [⟨1, ["q"]⟩, ⟨1, ["r"]⟩]
    ⟨_, .head _, by decide⟩ [] [.hear removal, .record 0.0] rfl (by decide) (by decide +kernel)
  constructor
  · refine (hTold _).mpr ⟨.head _, .inr ⟨removal, .head _, rfl, nofun, by decide +kernel, by decide⟩⟩
  · rw [hTold]
    rintro ⟨_, ⟨c, hc, _⟩ | ⟨x, hx, hTells⟩⟩
    · cases hc
    · obtain rfl : x = removal := by simpa using hx
      exact absurd hTells.under (by decide)

/-- Where a move takes a file from, and where to. -/
def ends (e : FileEvent) : List Path :=
  match e.kind with
  | .moved target => [e.path, target]
  | _ => []

/-- A file gets a hidden name. -/
def concealment : FileEvent := ⟨.moved ⟨1, ["r", ".a.txt"]⟩, ⟨1, ["r", "a.txt"]⟩, false⟩

/-- A move does not bring up the root below which the file was: here the file gets a hidden name, and
nothing is left to flush. -/
theorem renaming_goes_unnoticed :
    ¬∀ (settings : Settings) (tree : FileTree) (roots : List Path) (events : List Event) (root p : Path)
      (x : FileEvent), (∀ r ∈ roots, tree.contains r = true) → (∀ e ∈ events, e.gathers = true) →
      ((watching settings tree roots).run events).posted = [] → root ∈ roots →
      .hear x ∈ events → x.isDirectory = false → p ∈ ends x → settings.ignoresPath p = false →
      p.isUnder root = true → ((watching settings tree roots).run events).BringsUp roots root := by
  intro hClaim
  have hBringsUp := hClaim (.initial ⟨0, []⟩) twoShelves [⟨1, ["r"]⟩] [.hear concealment, .record 0.0]
    ⟨1, ["r"]⟩ ⟨1, ["r", "a.txt"]⟩ concealment (by decide) (by decide) (by decide +kernel) (.head _)
    (.head _) rfl (.head _) (by decide +kernel) (by decide)
  obtain ⟨hSteady, _⟩ := (steady_watching (.initial ⟨0, []⟩) twoShelves [⟨1, ["r"]⟩]).run_watch
    [.hear concealment, .record 0.0]
  obtain ⟨_, c, hc, _⟩ := hSteady.bringsUp_iff.mp hBringsUp
  exact absurd (List.ne_nil_of_mem hc) (by decide +kernel)

end Simulation.Feed
end Indexer
