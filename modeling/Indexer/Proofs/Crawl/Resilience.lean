import Indexer.Proofs.Crawl.Progress
import Indexer.Proofs.Crawl.Shares
import Indexer.Proofs.Delivery.Granting
import Mathlib.Data.List.Induction

/-! The resilience of crawls. What befalls single files, and directories that cannot
be looked into, does not end a crawl: as long as every operation is acknowledged, the
crawl comes to a good end, and the files without a problem of their own are indexed or
found unchanged. Three things do end it: a root that is there and cannot be looked at,
a modification time that the calendar does not hold, and a file to be indexed whose
path has no UTF-8 form. -/
namespace Indexer

/-- Settings that a crawl can work by: there is somebody to scan and to extract, retries have a
bound, and texts are cut at a whole number of characters. -/
structure Settings.IsUsable (s : Settings) : Prop where
  scanners : s.scannerConcurrency.isAtMost 0 = false
  workers : s.workerConcurrency.isAtMost 0 = false
  retries : ∃ m : Nat, s.maxRetries.isBelow (m + 1) = true
  chars : s.indexedChars.toInt?.isSome = true

theorem Settings.IsUsable.slots {s : Settings} (h : s.IsUsable) :
    s.scannerConcurrency.isBelow 0 = false := Quantity.isBelow_eq_false_of_isAtMost h.scanners

namespace Document

theorem cap_ok {limit : Quantity} (h : limit.toInt?.isSome = true) (text : String) :
    ∃ start, cap limit text = .ok start := by
  obtain ⟨n, hWhole⟩ := Option.isSome_iff_exists.mp h
  unfold cap
  split
  · exact ⟨text, rfl⟩
  · rw [hWhole]
    exact ⟨_, rfl⟩

/-- There is a document for every file below an absolute root whose path has a UTF-8 form. -/
theorem exists_ofFile {s : Settings} {e : FileEntry} (hChars : s.indexedChars.toInt?.isSome = true)
    (hRoot : e.root.isAbsolute = true) (hUnder : e.path.isUnder e.root = true)
    (hName : e.pathFault = none) (c : Content) (checksum : Option String) (raw : Option ByteArray)
    (now : DateTime) : ∃ doc, ofFile s e c checksum raw now = .ok doc := by
  obtain ⟨text, hText⟩ := cap_ok hChars c.text
  have hAbsolute : e.path.isAbsolute = true := by
    rw [Path.isAbsolute, (Path.isUnder_iff.mp hUnder).1]
    exact hRoot
  simp only [ofFile, hText, Path.uri, hAbsolute, if_true, FileEntry.virtualPath, Path.relativeTo,
    FileEntry.documentId, hName, hUnder, bind, Except.bind, pure, Except.pure, mapError_ok]
  exact ⟨_, rfl⟩

end Document

/-- The delivery waits for somebody, and a request that it waits for can be acknowledged in full. -/
theorem Delivery.exists_granted_turn {d : Delivery} (h : d.Filled) :
    ∃ e, d.isDue e = true ∧ d.Grants e := by
  cases hSender : d.sender with
  | sending batch =>
      have hBatch : batch ≠ [] := h.batch hSender
      refine ⟨.answer ⟨⟨0⟩, none⟩ (.ok (Outcome.grant batch)), by simp only [isDue, hSender], ?_⟩
      exact grants_of_answer (by simp [inFlight, hSender]) (by decide) (Outcome.ofResponse_grant hBatch)
  | idle | pausing ops =>
      obtain ⟨e, hDue⟩ := d.exists_due
      refine ⟨e, hDue, grants_of_other ?_⟩
      cases e <;> first | rfl | simp [isDue, hSender] at hDue

namespace Crawl

namespace Basis

variable {b : Basis} {e : FileEntry}

/-- There is a document for every file that came up and whose path has a UTF-8 form. -/
theorem exists_doc (hChars : b.settings.indexedChars.toInt?.isSome = true)
    (hRoot : b.root.isAbsolute = true) (he : .file e ∈ b.sightings) (hName : e.pathFault = none)
    (content : Content) (checksum : Option String) (raw : ByteArray) :
    ∃ doc, Document.ofFile b.settings e content checksum (some raw) b.now = .ok doc := by
  obtain ⟨n, hSighted⟩ := Scan.sighted_of_mem_run he
  have hPlace := (Scan.lookAt_file hSighted.look).2.1
  refine Document.exists_ofFile hChars ?_ ?_ hName content checksum (some raw) b.now
  · rw [hPlace]
    exact hRoot
  · rw [hPlace]
    exact Scan.isUnder_of_mem_run he

/-- The file is to be indexed: it is new or updated, and can be read and extracted. -/
def Calls (b : Basis) (e : FileEntry) : Prop :=
  isChanged (b.fate e) = true ∧ ∃ taken, b.take e = .ok taken

theorem part_steady (hChars : b.settings.indexedChars.toInt?.isSome = true)
    (hRoot : b.root.isAbsolute = true) (he : .file e ∈ b.sightings)
    (hName : b.Calls e → e.pathFault = none) : ∀ step ∈ b.part e, step.isFail = false := by
  intro step hStep
  rcases List.mem_append.mp hStep with hVerdict | hSubmission
  · unfold verdict at hVerdict
    split at hVerdict
    · rw [List.mem_singleton.mp hVerdict]; rfl
    · rw [List.mem_singleton.mp hVerdict]; rfl
    · cases hVerdict
  · split at hSubmission
    · next hChanged =>
        unfold submission at hSubmission
        split at hSubmission
        · rcases List.mem_pair.mp hSubmission with rfl | rfl <;> rfl
        · next raw checksum content hTake =>
            have hNamed := hName ⟨hChanged, _, hTake⟩
            obtain ⟨doc, hDoc⟩ := exists_doc hChars hRoot he hNamed content checksum raw
            rw [hDoc] at hSubmission
            rw [List.mem_singleton.mp hSubmission]
            rfl
    · cases hSubmission

/-- A file that is to be indexed needs a path with a UTF-8 form. -/
theorem name_of_part (hSteady : ∀ step ∈ b.part e, step.isFail = false) (h : b.Calls e) :
    e.pathFault = none := by
  obtain ⟨hChanged, ⟨raw, checksum, content⟩, hTake⟩ := h
  have hSubmission {step : Step} (hStep : step ∈ b.submission e) : step.isFail = false := by
    refine hSteady step ?_
    rw [part, if_pos hChanged]
    exact List.mem_append_right _ hStep
  simp only [submission, hTake] at hSubmission
  cases hDoc : Document.ofFile b.settings e content checksum (some raw) b.now with
  | error f =>
      rw [hDoc] at hSubmission
      cases hSubmission (List.mem_singleton_self _)
  | ok doc =>
      obtain ⟨_, _, _, _, hNamed, _⟩ := Document.ofFile_eq hDoc
      exact hNamed

/-- What is planned can be put on record once it is acknowledged. -/
theorem writable_of_plan {op : Operation} (h : op ∈ submitted b.plan) : op.Writable := by
  intro u hUpdate
  rcases update_of_plan h hUpdate with ⟨e, raw, he, _, rfl⟩ | ⟨path, _, rfl⟩
  · obtain ⟨n, hSighted⟩ := Scan.sighted_of_mem_run he
    have hTime := (Scan.lookAt_file hSighted.look).2.2
    exact StateUpdate.writable_of_reading rfl ⟨rfl, Moment.convertible_of_ofSeconds hTime⟩
  · exact StateUpdate.writable_of_remove rfl

/-- Nothing about the tree ends the crawl. -/
structure IsSound (b : Basis) : Prop where
  /-- It can be told whether the root is a directory. -/
  root : ∀ f, b.tree.isDirectory b.root ≠ .error f
  /-- The calendar holds the modification times that the scan asks for. -/
  times : ∀ n, Scan.Dated b.settings b.tree b.root n → n.IsDatable
  /-- The paths of the files that are to be indexed have a UTF-8 form. -/
  names : ∀ e, .file e ∈ b.sightings → b.Calls e → e.pathFault = none

theorem IsSound.unbroken (h : b.IsSound) (hFaults : b.tree.FailsAsFiles)
    (hSlots : b.settings.scannerConcurrency.isBelow 0 = false) (f : Fault) : .broken f ∉ b.sightings := by
  intro hBroken
  rcases (Scan.broken_mem_run_iff hFaults hSlots).mp ⟨f, hBroken⟩ with ⟨g, hRoot⟩ | ⟨n, hDated, hTime⟩
  · exact h.root g hRoot
  · exact hTime (h.times n hDated)

/-- A tree is sound if its root can be looked at and nothing is wrong with its times and names, whatever
files there are. -/
theorem isSound_of_nodes {seen : Bool} (hRoot : b.tree.isDirectory b.root = .ok seen)
    (hTimes : ∀ n ∈ b.tree.nodes, n.IsDatable) (hNames : ∀ n ∈ b.tree.nodes, n.pathFault = none) :
    b.IsSound where
  root f hFault := by
    rw [hRoot] at hFault
    cases hFault
  times n hDated := hTimes n hDated.met.node
  names e he _ := by
    obtain ⟨n, hSighted⟩ := Scan.sighted_of_mem_run he
    rw [Scan.lookAt_pathFault hSighted.look]
    exact hNames n hSighted.node

/-- A plan does not fail if the tree is sound, and only then. -/
theorem steady_plan_iff (hSettings : b.settings.IsUsable) (hFaults : b.tree.FailsAsFiles)
    (hRoot : b.root.isAbsolute = true) :
    (∀ step ∈ b.plan, step.isFail = false) ↔ b.IsSound := by
  constructor
  · intro hSteady
    have hWindows : ∀ step ∈ b.windows [] b.sightings, step.isFail = false :=
      fun step hStep => hSteady step (List.mem_append_left _ hStep)
    have hUnbroken : ¬∃ f, .broken f ∈ b.sightings := fun ⟨f, hMem⟩ => by
      obtain ⟨step, hStep, hFail⟩ := fail_of_broken hMem []
      rw [hWindows step hStep] at hFail
      cases hFail
    have hWhy := (not_congr (Scan.broken_mem_run_iff hFaults hSettings.slots)).mp hUnbroken
    rw [not_or, not_exists, not_exists] at hWhy
    refine ⟨hWhy.1, fun n hDated => not_not.mp fun hTime => hWhy.2 n ⟨hDated, hTime⟩,
      fun e he hCalls => name_of_part (fun step hStep => hWindows step ?_) hCalls⟩
    exact mem_windows_of_part hWindows (.inr he) hStep
  · intro hSound
    exact steady_of_parts hSettings.workers (hSound.unbroken hFaults hSettings.slots) fun e he =>
      part_steady hSettings.chars hRoot he (hSound.names e he)

end Basis

variable {b : Basis} {c : Crawl} {store : Store} {events : List Event}

/-- Nobody cancels the crawl, and each of its requests that ends is acknowledged in full. -/
structure Granted (c : Crawl) (events : List Event) : Prop where
  kept : .cancel ∉ events
  grants : c.delivery.Throughout Delivery.Grants (c.course events)

/-- A crawl at its start, by the plan that rests on this. -/
structure Starts (b : Basis) (store : Store) (c : Crawl) : Prop where
  start : start b.settings b.readers b.tree b.root b.now store = .ok c
  plan : c.walk.plan = b.plan

theorem Starts.delivery (h : Starts b store c) :
    c.delivery = (Delivery.create b.settings store).run [.start] := by
  obtain ⟨_, _, _, hDelivery⟩ := start_ok h.start
  exact hDelivery

/-- As long as everything is acknowledged, no fault ends the delivery of a crawl. -/
theorem Starts.fatal_of_granted (h : Starts b store c) (hGranted : c.Granted events) :
    (c.run events).delivery.fatal = none := by
  obtain ⟨hOrderly, hNothing, _⟩ := started h.start
  have hNone : c.delivery.fatal = none := by rw [h.delivery]; rfl
  obtain ⟨taken, rest, hSplit, hHanded, _⟩ := c.run_plan events
  rw [run_delivery, ← hNone]
  refine Delivery.run_fatal_of_grants hOrderly _ hGranted.grants (by simp [hNothing]) fun op hOp => ?_
  have hPlanned : op ∈ submitted b.plan := by
    rw [← h.plan, hSplit, submitted_append, ← hHanded]
    exact List.mem_append_left _ (collect_accepted_subset _ _ hOp)
  exact Basis.writable_of_plan hPlanned

theorem Starts.onCourse (h : Starts b store c) (hSteady : ∀ step ∈ b.plan, step.isFail = false) :
    c.OnCourse where
  orderly := (started h.start).1
  steady := h.plan ▸ hSteady
  kept := by rw [h.delivery]; rfl
  fits := by
    rw [walk_of_start h.start, h.delivery]
    rfl

theorem throughout_shut {d : Delivery} {orders : List Delivery.Event}
    (h : orders.flatMap handedBy = []) : d.Throughout Delivery.IsShut orders := by
  refine Delivery.throughout_of_forall (fun order hOrder d _ => ?_) d
  have hNothing := List.flatMap_eq_nil_iff.mp h order hOrder
  exact List.eq_nil_of_subset_nil (hNothing ▸ accepted_subset d order)

/-- What a step of the plan does to a delivery that still goes on. -/
theorem Step.shut {d : Delivery} (h : d.stage.isParting = false) (step : Step) :
    d.Throughout Delivery.IsShut (step.orders d) := by
  have hNow (e : Delivery.Event) : d.IsShut e := fun hParting => by simp [h] at hParting
  cases step with
  | submit op =>
      rw [orders]
      split
      · exact ⟨hNow _, trivial⟩
      · exact ⟨hNow _, throughout_shut rfl⟩
  | _ => exact throughout_shut rfl

/-- A crawl on its course hands operations over only while its delivery runs. -/
theorem OnCourse.shut (h : c.OnCourse) (e : Event) :
    c.delivery.Throughout Delivery.IsShut (c.orders e) := by
  cases e with
  | arrive => trivial
  | cancel =>
      rcases c.walk.cancel_cases c.delivery with ⟨_, hOrders⟩ | ⟨_, _, hOrders | hOrders | hOrders, _⟩
      all_goals exact throughout_shut (by rw [orders, hOrders]; rfl)
  | delivery e =>
      rw [orders]
      split
      · next hSender => exact throughout_shut (by simp [handed_of_sender hSender])
      · trivial
  | advance =>
      have hFits := h.fits
      simp only [orders, Walk.orders]
      split
      · exact throughout_shut rfl
      · next step _ hPhase _ =>
          rw [hPhase] at hFits
          exact step.shut (by rw [hFits]; rfl)
      · trivial

theorem throughout_grants_of_other {d : Delivery} {orders : List Delivery.Event}
    (h : ∀ order ∈ orders, order.isEnd = false) : d.Throughout Delivery.Grants orders :=
  Delivery.throughout_of_forall (fun order hOrder _ => Delivery.grants_of_other (h order hOrder)) d

/-- A crawl on its course is over, or there is a turn to take that leaves nothing unacknowledged. -/
theorem OnCourse.exists_turn (h : c.OnCourse) (hFilled : c.delivery.Filled) :
    c.walk.phase = .ended (.ok ()) ∨
      ∃ e, c.isDue e = true ∧ e ≠ .cancel ∧ c.delivery.Throughout Delivery.Grants (c.orders e) := by
  have hFits := h.fits
  have hWalker : c.delivery.Throughout Delivery.Grants (c.orders .advance) :=
    throughout_grants_of_other (c.walk.isEnd_orders c.delivery)
  cases hPhase : c.walk.phase with
  | walking => exact .inr ⟨.advance, by simp [isDue, hPhase], by simp, hWalker⟩
  | waiting => exact .inr ⟨.arrive, by simp [isDue, hPhase], by simp, trivial⟩
  | stopping f =>
      rw [hPhase] at hFits
      exact hFits.elim
  | ended r =>
      rw [hPhase] at hFits
      cases r with
      | ok _ => exact .inl rfl
      | error f => exact hFits.elim
  | closing =>
      right
      by_cases hIdle : c.delivery.stage = .idle
      · exact ⟨.advance, by simp [isDue, hPhase, hIdle], by simp, hWalker⟩
      · obtain ⟨e, hDue, hGrants⟩ := c.delivery.exists_granted_turn hFilled
        have hSender : isOfSender e = true := by
          cases e <;> first | rfl | simp [Delivery.isDue] at hDue
        refine ⟨.delivery e, by simp [isDue, hPhase, hIdle, hDue], by simp, ?_⟩
        rw [orders, if_pos hSender]
        exact ⟨hGrants, trivial⟩

theorem Granted.before {e : Event} (h : c.Granted (events ++ [e])) : c.Granted events where
  kept hCancel := h.kept (List.mem_append_left _ hCancel)
  grants := by
    have hGrants := h.grants
    rw [course_append, Delivery.throughout_append] at hGrants
    exact hGrants.1

theorem Granted.and_then {e : Event} (h : c.Granted events) (hCancel : e ≠ .cancel)
    (hGrants : (c.run events).delivery.Throughout Delivery.Grants ((c.run events).orders e)) :
    c.Granted (events ++ [e]) where
  kept := by
    rw [List.mem_append, List.mem_singleton]
    exact fun hIn => hIn.elim h.kept fun hSame => hCancel hSame.symm
  grants := by
    rw [course_append, Delivery.throughout_append, ← run_delivery]
    refine ⟨h.grants, ?_⟩
    simpa [course] using hGrants

/-- The first of the events that come one after the other, each of them told by those before it. -/
def following (next : List Event → Event) : Nat → List Event
  | 0 => []
  | k + 1 => following next k ++ [next (following next k)]

theorem map_following (next : List Event → Event) (k : Nat) :
    (List.range k).map (fun i => next (following next i)) = following next k := by
  induction k with
  | zero => rfl
  | succ k ih =>
      rw [List.range_succ, List.map_append, ih]
      rfl

section
variable (h : Starts b store c) (hSteady : ∀ step ∈ b.plan, step.isFail = false)
include h hSteady

theorem Starts.course_of_granted (hGranted : c.Granted events) : (c.run events).OnCourse :=
  (h.onCourse hSteady).run events hGranted.kept (h.fatal_of_granted hGranted)

theorem Starts.exists_turn (hGranted : c.Granted events) :
    (c.run events).walk.phase = .ended (.ok ()) ∨
      ∃ e, (c.run events).isDue e = true ∧ c.Granted (events ++ [e]) := by
  have hFilled : (c.run events).delivery.Filled := by
    rw [run_delivery, h.delivery, ← Delivery.run_append]
    exact (Delivery.filled_create b.settings store).run (Delivery.orderly_create b.settings store) _
  refine ((h.course_of_granted hSteady hGranted).exists_turn hFilled).imp_right ?_
  rintro ⟨e, hDue, hCancel, hGrants⟩
  exact ⟨e, hDue, hGranted.and_then hCancel hGrants⟩

theorem Starts.along_ends (hSettings : b.settings.IsUsable) (schedule : Nat → Event)
    (hGranted : ∀ k, c.Granted ((List.range k).map schedule)) (hFair : c.IsFair schedule) :
    ∃ k, (c.along schedule k).walk.phase = .ended (.ok ()) := by
  obtain ⟨m, hRetries⟩ := hSettings.retries
  have hGoverned : c.delivery.Governed m := by
    rw [h.delivery]
    exact (Delivery.governed_create b.settings store hRetries).run _
  refine Crawl.along_ends (fun k => ?_) (fun k hCancel => ?_) hGoverned hFair
  · rw [along_eq_run]
    exact h.course_of_granted hSteady (hGranted k)
  · refine (hGranted (k + 1)).kept (List.mem_map.mpr ⟨k, ?_, hCancel⟩)
    exact List.mem_range.mpr (Nat.lt_succ_self k)

/-- The turns can be taken. -/
theorem Starts.exists_end (hSettings : b.settings.IsUsable) :
    ∃ events, c.Granted events ∧ (c.run events).walk.phase = .ended (.ok ()) := by
  have hTurn (events : List Event) : ∃ e, c.Granted events → c.Granted (events ++ [e]) ∧
      ((∀ r, (c.run events).walk.phase ≠ .ended r) → (c.run events).isDue e = true) := by
    by_cases hGranted : c.Granted events
    · rcases h.exists_turn hSteady hGranted with hEnd | ⟨e, hDue, hNext⟩
      · refine ⟨.advance, fun _ => ⟨hGranted.and_then nofun ?_, fun hOpen => absurd hEnd (hOpen _)⟩⟩
        exact throughout_grants_of_other ((c.run events).walk.isEnd_orders _)
      · exact ⟨e, fun _ => ⟨hNext, fun _ => hDue⟩⟩
    · exact ⟨.advance, fun hSo => absurd hSo hGranted⟩
  choose next hNext using hTurn
  have hGranted (k : Nat) : c.Granted (following next k) := by
    induction k with
    | zero => exact ⟨nofun, trivial⟩
    | succ k ih => exact (hNext (following next k) ih).1
  obtain ⟨k, hEnd⟩ := h.along_ends hSteady hSettings (fun k => next (following next k))
    (fun k => map_following next k ▸ hGranted k) fun k hOpen => ⟨k, le_refl k, by
      rw [along_eq_run, map_following] at hOpen ⊢
      exact (hNext (following next k) (hGranted k)).2 hOpen⟩
  rw [along_eq_run, map_following] at hEnd
  exact ⟨following next k, hGranted k, hEnd⟩

end

/-- A first crawl of a tree with the initial settings. Nothing but text can be read. -/
def firstBasis (tree : FileTree) : Basis where
  settings := .initial ⟨0, []⟩
  readers := ⟨fun _ => .error .noHandler, fun _ => .error .noHandler⟩
  tree := tree
  root := ⟨1, ["r"]⟩
  prior := []
  now := ⟨⟨0⟩, none⟩

theorem load_empty (root : String) : Store.empty.load root = .ok [] := by
  simp only [Store.load, Store.empty, List.filter_nil, List.mergeSort_nil, List.mapM_nil]
  rfl

theorem exists_starts {tree : FileTree} (hNamed : tree.pathFault? ⟨1, ["r"]⟩ = none) :
    ∃ c, Starts (firstBasis tree) .empty c := by
  have hStart : ∃ c, start (firstBasis tree).settings (firstBasis tree).readers tree ⟨1, ["r"]⟩
      (firstBasis tree).now .empty = .ok c := by
    rw [start, hNamed, load_empty]
    exact ⟨_, rfl⟩
  obtain ⟨c, hStart⟩ := hStart
  obtain ⟨prior, hLoad, hPlan, _⟩ := start_ok hStart
  obtain rfl : prior = [] := Except.ok.inj (hLoad.symm.trans (load_empty _))
  exact ⟨c, hStart, hPlan⟩

theorem isUsable_initial : (Settings.initial ⟨0, []⟩).IsUsable where
  scanners := by decide
  workers := by decide
  retries := ⟨3, by decide⟩
  chars := by decide

/-- The fault that a crawl has ended with. -/
def Walk.fault? (w : Walk) : Option Fault :=
  match w.phase with
  | .ended (.error f) => some f
  | _ => none

theorem Walk.phase_of_fault {w : Walk} {f : Fault} (h : w.fault? = some f) :
    w.phase = .ended (.error f) := by
  unfold fault? at h
  split at h
  · next hPhase => rw [hPhase, Option.some.inj h]
  · cases h

end Crawl
end Indexer
