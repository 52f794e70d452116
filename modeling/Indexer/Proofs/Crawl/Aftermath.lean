import Indexer.Proofs.Crawl.Completion
import Indexer.Proofs.Crawl.Mirror

/-! What a crawl leaves on record when it has come to a good end and nothing was
reported. A file that came up has a row that was written for it, or the row that
it had before because there was nothing to write; the rows of files that did not
come up are gone. -/
namespace Indexer

theorem Store.writable_of_record {s t : Store} {r : Receipt} {u : StateUpdate}
    (hUpdate : r.op.update = some u) (h : s.record r = .ok t) : u.Writable := by
  intro hWrites
  obtain ⟨now, hApply⟩ := apply_of_record hUpdate h
  rw [apply, if_neg (by simp [hWrites])] at hApply
  cases hModified : modified u with
  | error f => simp [hModified, Except.map] at hApply
  | ok m => exact ⟨m, rfl⟩

/-- The operation writes the row of a key, or removes it, with this update. -/
def Operation.Writes (op : Operation) (root path : String) (u : StateUpdate) : Prop :=
  op.update = some u ∧ root = u.root ∧ path = u.path

theorem Store.row_of_record {s t : Store} {r : Receipt} (h : s.record r = .ok t)
    (root path : String) :
    (t.find? root path = s.find? root path ∧ ∀ u, ¬r.op.Writes root path u) ∨
      ∃ u now, r.op.Writes root path u ∧ u.Writable ∧ t.find? root path = u.written now := by
  cases hUpdate : r.op.update with
  | none =>
      rw [record, hUpdate] at h
      cases h
      exact .inl ⟨rfl, fun u hWrites => by simp [Operation.Writes, hUpdate] at hWrites⟩
  | some u =>
      obtain ⟨now, hFind⟩ := find?_record hUpdate h
      by_cases hKey : root = u.root ∧ path = u.path
      · exact .inr ⟨u, now, ⟨hUpdate, hKey⟩, writable_of_record hUpdate h, by rw [hFind, if_pos hKey]⟩
      · refine .inl ⟨by rw [hFind, if_neg hKey], fun other hWrites => hKey ?_⟩
        obtain rfl : u = other := Option.some.inj (hUpdate.symm.trans hWrites.1)
        exact hWrites.2

/-- A list of acknowledgements leaves a row as it is, or the row is what one of them writes. -/
theorem Store.row_of_records {s t : Store} {receipts : List Receipt}
    (h : receipts.foldlM record s = .ok t) (root path : String) :
    (t.find? root path = s.find? root path ∧ ∀ r ∈ receipts, ∀ u, ¬r.op.Writes root path u) ∨
      ∃ r ∈ receipts, ∃ u now, r.op.Writes root path u ∧ u.Writable ∧
        t.find? root path = u.written now := by
  induction receipts generalizing s with
  | nil =>
      cases h
      exact .inl ⟨rfl, by simp⟩
  | cons r receipts ih =>
      rw [List.foldlM_cons] at h
      cases hNext : s.record r with
      | error f =>
          rw [hNext] at h
          cases h
      | ok next =>
          rw [hNext] at h
          rcases ih h with ⟨hSame, hNone⟩ | ⟨later, hLater, hWritten⟩
          · rcases row_of_record hNext root path with ⟨hKept, hNot⟩ | ⟨u, now, hWrites, hWritable, hRow⟩
            · exact .inl ⟨hSame.trans hKept, List.forall_mem_cons.mpr ⟨hNot, hNone⟩⟩
            · exact .inr ⟨r, List.mem_cons_self, u, now, hWrites, hWritable, hSame.trans hRow⟩
          · exact .inr ⟨later, List.mem_cons_of_mem r hLater, hWritten⟩

namespace Crawl

namespace Basis

variable {b : Basis} {e : FileEntry} {op : Operation}

theorem take_ok {raw : ByteArray} {checksum : Option String} {content : Content}
    (h : b.take e = .ok (raw, checksum, content)) :
    b.tree.read e.path = .ok raw ∧ checksum = b.settings.algorithm?.map (·.hex raw) := by
  unfold take at h
  cases hRead : b.tree.read e.path with
  | error f => simp [hRead, bind, Except.bind] at h
  | ok bytes =>
      cases hContent : Content.extract b.readers bytes (some e.name) with
      | error f => simp [hRead, hContent, bind, Except.bind] at h
      | ok text =>
          simp only [hRead, hContent, bind, Except.bind, pure, Except.pure, Except.ok.injEq,
            Prod.mk.injEq, Checksum.ofBytes_eq] at h
          obtain ⟨rfl, rfl, _⟩ := h
          exact ⟨rfl, rfl⟩

/-- What is to be recorded about a file with the given bytes once it is indexed. -/
def update (b : Basis) (e : FileEntry) (raw : ByteArray) : StateUpdate where
  root := b.root.text
  path := e.path.text
  checksum := b.settings.algorithm?.map (·.hex raw)
  lastModified := some e.mtime.local
  remove := false

theorem toSeconds_of_update {raw : ByteArray} {m : Float}
    (h : Store.modified (b.update e raw) = .ok m) : e.mtime.toSeconds = .ok m := by
  change e.mtime.toSeconds.mapError Fault.time = .ok m at h
  cases hSeconds : e.mtime.toSeconds with
  | error f => simp [hSeconds] at h
  | ok x => simpa [hSeconds] using h

theorem update_of_part (h : op ∈ submitted (b.part e)) :
    ∃ raw, b.tree.read e.path = .ok raw ∧ op.update = some (b.update e raw) := by
  rw [submitted_part] at h
  split at h
  · unfold submission at h
    split at h
    · simp [Step.submits] at h
    · next raw checksum content hTake =>
        obtain ⟨hRead, rfl⟩ := take_ok hTake
        split at h
        · simp [Step.submits] at h
        · next doc hDoc =>
            obtain rfl : op = b.indexing e _ doc := by simpa [Step.submits] using h
            exact ⟨raw, hRead, rfl⟩
  · cases h

/-- Nothing is submitted for a file that is not changed or that cannot be taken. -/
theorem passed_of_silent (hSteady : ∀ step ∈ b.part e, step.isFail = false)
    (hSilent : submitted (b.part e) = []) : isChanged (b.fate e) = false ∨ ∃ f, b.take e = .error f := by
  cases hChanged : isChanged (b.fate e) with
  | false => exact .inl rfl
  | true =>
      right
      rw [submitted_part, if_pos hChanged] at hSilent
      have hSubmission : ∀ step ∈ b.submission e, step.isFail = false := fun step hStep =>
        hSteady step (List.mem_append_right _ (by rwa [if_pos hChanged]))
      unfold submission at hSilent hSubmission
      split at hSilent
      · next f hTake => exact ⟨f, hTake⟩
      · next raw checksum content hTake =>
          rw [hTake] at hSubmission
          split at hSilent
          · next f hDoc => simp [hDoc, Step.isFail] at hSubmission
          · simp [Step.submits] at hSilent

/-- What a plan has to do with the crawl state: a row for a file that came up, or none for a path
that is gone. -/
theorem update_of_plan {u : StateUpdate} (h : op ∈ submitted b.plan) (hUpdate : op.update = some u) :
    (∃ e raw, .file e ∈ b.sightings ∧ b.tree.read e.path = .ok raw ∧ u = b.update e raw) ∨
      ∃ path ∈ b.gone, u = ⟨b.root.text, path, none, none, true⟩ := by
  rw [plan, submitted_append, submitted_deletions] at h
  rcases List.mem_append.mp h with hFile | hGone
  · obtain ⟨e, he, hOp⟩ := part_of_windows hFile
    obtain ⟨raw, hRead, hPlanned⟩ := update_of_part hOp
    exact .inl ⟨e, raw, he.resolve_left List.not_mem_nil, hRead,
      Option.some.inj (hUpdate.symm.trans hPlanned)⟩
  · obtain ⟨path, hPath, rfl⟩ := List.mem_map.mp hGone
    exact .inr ⟨path, hPath, (Option.some.inj hUpdate).symm⟩

/-- The row of a file that came up, after a crawl. -/
inductive Leaves (b : Basis) (before after : Store) (e : FileEntry) : Prop
  | written (raw : ByteArray) (m now : Float) (hRead : b.tree.read e.path = .ok raw)
      (hModified : e.mtime.toSeconds = .ok m)
      (hRow : after.find? b.root.text e.path.text =
        some ⟨b.root.text, e.path.text, b.settings.algorithm?.map (·.hex raw), m, now⟩)
  | kept (hPassed : isChanged (b.fate e) = false ∨ ∃ f, b.take e = .error f)
      (hRow : after.find? b.root.text e.path.text = before.find? b.root.text e.path.text)

end Basis

/-- The crawl goes by the plan that rests on this. -/
structure RestsOn (c : Crawl) (b : Basis) : Prop where
  plan : c.walk.plan = b.plan
  prior : c.delivery.coordinator.store.load b.root.text = .ok b.prior

theorem restsOn_of_start {settings : Settings} {readers : Readers} {tree : FileTree} {root : Path}
    {now : DateTime} {store : Store} {c : Crawl}
    (h : start settings readers tree root now store = .ok c) :
    c.delivery.coordinator.store = store ∧
      ∃ prior, c.RestsOn { settings, readers, tree, root, prior, now } := by
  obtain ⟨prior, hLoad, hPlan, hDelivery⟩ := start_ok h
  have hStore : c.delivery.coordinator.store = store := by rw [hDelivery]; rfl
  exact ⟨hStore, prior, hPlan, by rw [hStore]; exact hLoad⟩

variable {c : Crawl} {b : Basis} {events : List Event}

/-- What is acknowledged was planned, and what was planned is acknowledged. -/
theorem Succeeds.receipt_iff (h : c.Succeeds events) {root path : String} {u : StateUpdate} :
    (∃ r ∈ c.delivery.collect Delivery.receipts (c.course events), r.op.Writes root path u) ↔
      ∃ op ∈ submitted c.walk.plan, op.Writes root path u := by
  have hContents := h.acknowledged
  rw [Delivery.collect_acknowledged] at hContents
  constructor
  · rintro ⟨r, hr, hUpdate, hKey⟩
    obtain ⟨op, hOp, hSame⟩ := exists_of_contents_le hContents.le (List.mem_map_of_mem hr)
    exact ⟨op, hOp, (Operation.eq_of_content hSame).2.2.trans hUpdate, hKey⟩
  · rintro ⟨op, hOp, hUpdate, hKey⟩
    obtain ⟨other, hOther, hSame⟩ := exists_of_contents_le hContents.ge hOp
    obtain ⟨r, hr, rfl⟩ := List.mem_map.mp hOther
    exact ⟨r, hr, (Operation.eq_of_content hSame).2.2.trans hUpdate, hKey⟩

/-- The row of a key after a crawl: it is as it was and nothing was planned for the key, or what was
planned for the key has written it. -/
theorem Succeeds.row (h : c.Succeeds events) (root path : String) :
    ((c.run events).delivery.coordinator.store.find? root path =
        c.delivery.coordinator.store.find? root path ∧
      ∀ op ∈ submitted c.walk.plan, ∀ u, ¬op.Writes root path u) ∨
    ∃ op ∈ submitted c.walk.plan, ∃ u now, op.Writes root path u ∧ u.Writable ∧
      (c.run events).delivery.coordinator.store.find? root path = u.written now := by
  rcases Store.row_of_records h.recorded root path with
    ⟨hSame, hNone⟩ | ⟨r, hr, u, now, hWrites, hWritable, hRow⟩
  · left
    refine ⟨hSame, fun op hOp u hPlanned => ?_⟩
    obtain ⟨r, hr, hWrites⟩ := h.receipt_iff.mpr ⟨op, hOp, hPlanned⟩
    exact hNone r hr u hWrites
  · obtain ⟨op, hOp, hPlanned⟩ := h.receipt_iff.mp ⟨r, hr, hWrites⟩
    exact .inr ⟨op, hOp, u, now, hPlanned, hWritable, hRow⟩

theorem Succeeds.mem_plan_of_part (h : c.Succeeds events) (hBasis : c.RestsOn b) {e : FileEntry}
    (he : .file e ∈ b.sightings) {step : Step} (hStep : step ∈ b.part e) : step ∈ c.walk.plan := by
  have hSteady := h.steady
  rw [hBasis.plan] at hSteady ⊢
  apply List.mem_append_left
  apply Basis.mem_windows_of_part _ (.inr he) hStep
  intro other hOther
  exact hSteady other (List.mem_append_left _ hOther)

/-- A file that came up has the row that was written for it or the one that it had before. -/
theorem Succeeds.leaves (h : c.Succeeds events) (hBasis : c.RestsOn b) (hTree : b.tree.IsProper)
    {e : FileEntry} (he : .file e ∈ b.sightings) :
    b.Leaves c.delivery.coordinator.store (c.run events).delivery.coordinator.store e := by
  rcases h.row b.root.text e.path.text with
    ⟨hSame, hNone⟩ | ⟨op, hOp, u, now, ⟨hUpdate, _, hPath⟩, hWritable, hRow⟩
  · refine .kept (Basis.passed_of_silent ?_ ?_) hSame
    · exact fun step hStep => h.steady step (h.mem_plan_of_part hBasis he hStep)
    · apply List.eq_nil_iff_forall_not_mem.mpr
      intro op hOp
      obtain ⟨raw, _, hUpdate⟩ := Basis.update_of_part hOp
      obtain ⟨step, hStep, hIn⟩ := List.mem_flatMap.mp hOp
      have hPlanned : op ∈ submitted c.walk.plan :=
        List.mem_flatMap.mpr ⟨step, h.mem_plan_of_part hBasis he hStep, hIn⟩
      exact hNone op hPlanned _ ⟨hUpdate, rfl, rfl⟩
  · rw [hBasis.plan] at hOp
    rcases Basis.update_of_plan hOp hUpdate with ⟨other, raw, hOther, hRead, rfl⟩ | ⟨path, hGone, rfl⟩
    · obtain rfl : e = other := Scan.eq_of_mem_run hTree he hOther hPath
      obtain ⟨m, hModified⟩ := hWritable rfl
      refine .written raw m now hRead (Basis.toSeconds_of_update hModified) ?_
      rw [hRow, StateUpdate.written, if_neg (by simp [Basis.update]), hModified]
      rfl
    · exact absurd ⟨e, he, hPath⟩ (Basis.mem_gone_iff.mp hGone).2

/-- What did not come up is on record no more. -/
theorem Succeeds.find?_of_not_live (h : c.Succeeds events) (hBasis : c.RestsOn b) {path : String}
    (hNotLive : ¬∃ e, .file e ∈ b.sightings ∧ e.path.text = path) :
    (c.run events).delivery.coordinator.store.find? b.root.text path = none := by
  rcases h.row b.root.text path with ⟨hSame, hNone⟩ | ⟨op, hOp, u, now, ⟨hUpdate, _, hPath⟩, _, hRow⟩
  · rw [hSame, ← Option.not_isSome_iff_eq_none, ← Store.mem_paths_of_load hBasis.prior]
    intro hRecorded
    have hGone := Basis.deletion_mem_plan (Basis.mem_gone_iff.mpr ⟨hRecorded, hNotLive⟩)
    rw [← hBasis.plan] at hGone
    exact hNone _ hGone _ ⟨rfl, rfl, rfl⟩
  · rw [hBasis.plan] at hOp
    rcases Basis.update_of_plan hOp hUpdate with ⟨e, raw, he, _, rfl⟩ | ⟨other, hGone, rfl⟩
    · exact absurd ⟨e, he, hPath.symm⟩ hNotLive
    · exact hRow

/-- A crawl leaves alone what is recorded about other roots. -/
theorem Succeeds.find?_of_other (h : c.Succeeds events) (hBasis : c.RestsOn b) {other : String}
    (hOther : other ≠ b.root.text) (path : String) :
    (c.run events).delivery.coordinator.store.find? other path =
      c.delivery.coordinator.store.find? other path := by
  rcases h.row other path with ⟨hSame, _⟩ | ⟨op, hOp, u, now, ⟨hUpdate, hRoot, _⟩, _⟩
  · exact hSame
  · rw [hBasis.plan] at hOp
    rcases Basis.update_of_plan hOp hUpdate with ⟨e, raw, _, _, rfl⟩ | ⟨gone, _, rfl⟩
    · exact absurd hRoot hOther
    · exact absurd hRoot hOther

end Crawl
end Indexer
