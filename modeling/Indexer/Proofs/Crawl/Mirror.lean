import Indexer.Proofs.Delivery.Receipts
import Indexer.Proofs.File.Sight
import Mathlib.Data.Set.Function

/-! The crawl state as a mirror of the index. An operation of a crawl says the same
to both: what it writes to the index under the id of a path it writes to the
crawl state under that path. So whatever is acknowledged keeps the two alike. -/
namespace Indexer

/-- The crawl state and the documents of the index by their ids. -/
structure World where
  store : Store
  index : String → Option Document

/-- Nothing is indexed and nothing is recorded. -/
def World.empty : World := ⟨.empty, fun _ => none⟩

/-- What the index holds under the id of an operation once it has acknowledged it. -/
def Action.document? : Action → Option Document
  | .index doc => some doc
  | .delete => none

/-- What an index does with an operation that it acknowledges. -/
def Operation.applyTo (index : String → Option Document) (op : Operation) :
    String → Option Document :=
  fun id => if id = op.id then op.action.document? else index id

/-- An instant that comes back unchanged from the crawl state. -/
def Moment.Survives (m : Moment) : Prop :=
  ∃ x, m.toSeconds = .ok x ∧ Moment.ofSeconds (.float x) = .ok m

/-- An operation of the crawl of a root: it is about one of the paths below the
root, and it says the same to the index and to the crawl state. -/
inductive Operation.IsCoherent (root : Path) (paths : Set Path) (op : Operation) : Prop where
  | index (p : Path) (doc : Document) (hPath : p ∈ paths) (hUnder : p.isUnder root = true)
      (hAction : op.action = .index doc) (hId : op.id = documentId p.text)
      (hUpdate : op.update = some
        ⟨root.text, p.text, doc.file.checksum, some doc.file.lastModified.local, false⟩)
      (hSurvives : doc.file.lastModified.Survives)
  | delete (p : Path) (hPath : p ∈ paths) (hUnder : p.isUnder root = true)
      (hAction : op.action = .delete) (hId : op.id = documentId p.text)
      (hUpdate : op.update = some ⟨root.text, p.text, none, none, true⟩)

/-- The document says about its file what the row says. -/
structure Row.Agrees (row : Row) (doc : Document) : Prop where
  checksum : doc.file.checksum = row.checksum
  lastModified : Moment.ofSeconds (.float row.lastModified) = .ok doc.file.lastModified

/-- No root is or contains another one. -/
def Apart (roots : Set Path) : Prop :=
  ∀ a ∈ roots, ∀ b ∈ roots, a.isUnder b = true → a = b

/-- Every entry of one of the roots has its document, and every document its entry. -/
structure World.IsMirrored (roots paths : Set Path) (w : World) : Prop where
  indexed : ∀ root ∈ roots, ∀ text row, w.store.find? root.text text = some row →
    ∃ p ∈ paths, p.text = text ∧ p.isUnder root = true ∧
      ∃ doc, w.index (documentId text) = some doc ∧ row.Agrees doc
  recorded : ∀ id doc, w.index id = some doc → ∃ root ∈ roots, ∃ p ∈ paths,
    id = documentId p.text ∧ (w.store.find? root.text p.text).isSome = true

theorem World.isMirrored_empty (roots paths : Set Path) : World.empty.IsMirrored roots paths where
  indexed _ _ _ _ h := by cases h
  recorded _ _ h := by cases h

/-- Of two paths above a third one, one is above the other. -/
theorem Path.isUnder_or {p a b : Path} (ha : p.isUnder a = true) (hb : p.isUnder b = true) :
    a.isUnder b = true ∨ b.isUnder a = true := by
  rw [isUnder_iff] at ha hb
  rcases List.prefix_or_prefix_of_prefix ha.2 hb.2 with hPrefix | hPrefix
  · exact .inr (isUnder_iff.mpr ⟨hb.1.symm.trans ha.1, hPrefix⟩)
  · exact .inl (isUnder_iff.mpr ⟨ha.1.symm.trans hb.1, hPrefix⟩)

theorem Apart.eq_of_under {roots : Set Path} (h : Apart roots) {p a b : Path} (ha : a ∈ roots)
    (hb : b ∈ roots) (hUnderA : p.isUnder a = true) (hUnderB : p.isUnder b = true) : a = b := by
  rcases Path.isUnder_or hUnderA hUnderB with hUnder | hUnder
  · exact h a ha b hb hUnder
  · exact (h b hb a ha hUnder).symm

/-- The row that an update writes at the given time, unless it removes one. -/
def StateUpdate.written (now : Float) (u : StateUpdate) : Option Row :=
  if u.remove then none else (Store.modified u).toOption.map fun m => Store.rowOf now m u

/-- Recording an acknowledgement is applying its update at some time. -/
theorem Store.apply_of_record {s t : Store} {r : Receipt} {u : StateUpdate}
    (hUpdate : r.op.update = some u) (h : s.record r = .ok t) : ∃ now, apply now s u = .ok t := by
  rw [record, hUpdate] at h
  change s.commit r.now [u] = .ok t at h
  cases hNow : r.now.toSeconds with
  | error e =>
      rw [commit, hNow] at h
      cases h
  | ok seconds =>
      rw [commit_single hNow] at h
      exact ⟨seconds, h⟩

theorem Store.find?_record {s t : Store} {r : Receipt} {u : StateUpdate}
    (hUpdate : r.op.update = some u) (h : s.record r = .ok t) :
    ∃ now, ∀ root path, t.find? root path =
      if root = u.root ∧ path = u.path then u.written now else s.find? root path := by
  obtain ⟨now, hApply⟩ := apply_of_record hUpdate h
  exact ⟨now, find?_apply hApply⟩

/-- An operation that leaves alone what is recorded about other roots. -/
def Operation.Keeps (root : String) (op : Operation) : Prop :=
  ∀ u, op.update = some u → u.root = root

theorem Store.find?_of_keeps {s t : Store} {r : Receipt} {root other : String}
    (hKeeps : r.op.Keeps root) (hOther : other ≠ root) (h : s.record r = .ok t) (path : String) :
    t.find? other path = s.find? other path := by
  cases hUpdate : r.op.update with
  | none =>
      rw [record, hUpdate] at h
      cases h
      rfl
  | some u =>
      obtain ⟨now, hFind⟩ := find?_record hUpdate h
      rw [hFind, if_neg]
      exact fun hKey => hOther (hKey.1.trans (hKeeps u hUpdate))

/-- The operation is about a path of the root, and what it writes to the index under
the id of the path agrees with what it writes to the crawl state under the path. -/
structure Operation.IsAbout (root p : Path) (u : StateUpdate) (op : Operation) : Prop where
  under : p.isUnder root = true
  id : op.id = documentId p.text
  update : op.update = some u
  root : u.root = root.text
  path : u.path = p.text
  agrees : ∀ now,
    (u.written now = none ∧ op.action.document? = none) ∨
    ∃ row doc, u.written now = some row ∧ op.action.document? = some doc ∧ row.Agrees doc

theorem Operation.IsCoherent.isAbout {root : Path} {paths : Set Path} {op : Operation}
    (h : op.IsCoherent root paths) : ∃ p ∈ paths, ∃ u, op.IsAbout root p u := by
  cases h with
  | index p doc hPath hUnder hAction hId hUpdate hSurvives =>
      obtain ⟨x, hSeconds, hBack⟩ := hSurvives
      refine ⟨p, hPath, _, hUnder, hId, hUpdate, rfl, rfl, fun now => .inr ?_⟩
      have hModified : doc.file.lastModified.local.toSeconds = .ok x := hSeconds
      refine ⟨⟨root.text, p.text, doc.file.checksum, x, now⟩, doc, ?_, by rw [hAction]; rfl, ?_⟩
      · simp [StateUpdate.written, Store.modified, Store.rowOf, hModified, Except.toOption]
      · exact ⟨rfl, hBack⟩
  | delete p hPath hUnder hAction hId hUpdate =>
      exact ⟨p, hPath, _, hUnder, hId, hUpdate, rfl, rfl, fun now => .inl ⟨rfl, by rw [hAction]; rfl⟩⟩

theorem Operation.IsCoherent.keeps {root : Path} {paths : Set Path} {op : Operation}
    (h : op.IsCoherent root paths) : op.Keeps root.text := by
  obtain ⟨p, _, u, hAbout⟩ := h.isAbout
  intro v hv
  obtain rfl : u = v := Option.some.inj (hAbout.update.symm.trans hv)
  exact hAbout.root

theorem Operation.IsCoherent.of_content {root : Path} {paths : Set Path} (op other : Operation)
    (hSame : other.content = op.content) (h : other.IsCoherent root paths) :
    op.IsCoherent root paths := by
  obtain ⟨hAction, hId, hUpdate⟩ := Operation.eq_of_content hSame
  cases h with
  | index p doc hPath hUnder hIndex hIdOf hUpdateOf hSurvives =>
      exact .index p doc hPath hUnder (hAction.symm.trans hIndex) (hId.symm.trans hIdOf)
        (hUpdate.symm.trans hUpdateOf) hSurvives
  | delete p hPath hUnder hDelete hIdOf hUpdateOf =>
      exact .delete p hPath hUnder (hAction.symm.trans hDelete) (hId.symm.trans hIdOf)
        (hUpdate.symm.trans hUpdateOf)

theorem Operation.IsCoherent.writable {root : Path} {paths : Set Path} {op : Operation}
    (h : op.IsCoherent root paths) : op.Writable := by
  intro u hu
  cases h with
  | index p doc _ _ _ _ hUpdate hSurvives =>
      obtain ⟨x, hSeconds, _⟩ := hSurvives
      obtain rfl := Option.some.inj (hUpdate.symm.trans hu)
      have hModified : doc.file.lastModified.local.toSeconds = .ok x := hSeconds
      exact fun _ => ⟨x, by simp [Store.modified, hModified]⟩
  | delete p _ _ _ _ hUpdate =>
      obtain rfl := Option.some.inj (hUpdate.symm.trans hu)
      exact StateUpdate.writable_of_remove rfl

/-- What a crawl of several roots takes for granted: the roots are apart, and no two
of the paths involved have documents of the same id. -/
structure Distinguished (roots paths : Set Path) : Prop where
  apart : Apart roots
  included : roots ⊆ paths
  ids : Set.InjOn (fun p => documentId p.text) paths

theorem Distinguished.eq_of_text {roots paths : Set Path} (h : Distinguished roots paths)
    {p q : Path} (hp : p ∈ paths) (hq : q ∈ paths) (hText : p.text = q.text) : p = q :=
  h.ids hp hq (congrArg documentId hText)

namespace World

variable {roots paths : Set Path} {w : World} {root p : Path} {op : Operation} {u : StateUpdate}
  {now : Float} {t : Store}

/-- Entries have their documents after a record, as they had before. The document of
an entry with another key stays, since its id is another one. -/
theorem IsMirrored.indexed_record (h : w.IsMirrored roots paths) (hPaths : Distinguished roots paths)
    (hRoot : root ∈ roots) (hPath : p ∈ paths) (hAbout : op.IsAbout root p u)
    (hFind : ∀ root path, t.find? root path =
      if root = u.root ∧ path = u.path then u.written now else w.store.find? root path)
    {other : Path} (hOther : other ∈ roots) {text : String} {row : Row}
    (hRow : t.find? other.text text = some row) :
    ∃ q ∈ paths, q.text = text ∧ q.isUnder other = true ∧
      ∃ doc, op.applyTo w.index (documentId text) = some doc ∧ row.Agrees doc := by
  rw [hFind, hAbout.root, hAbout.path] at hRow
  split at hRow
  · next hSame =>
      obtain ⟨hRootText, rfl⟩ := hSame
      obtain rfl : other = root :=
        hPaths.eq_of_text (hPaths.included hOther) (hPaths.included hRoot) hRootText
      refine ⟨p, hPath, rfl, hAbout.under, ?_⟩
      rcases hAbout.agrees now with ⟨hNone, _⟩ | ⟨written, doc, hWritten, hDoc, hAgrees⟩
      · rw [hNone] at hRow
        cases hRow
      · obtain rfl : written = row := Option.some.inj (hWritten.symm.trans hRow)
        exact ⟨doc, (if_pos hAbout.id.symm).trans hDoc, hAgrees⟩
  · next hDifferent =>
      obtain ⟨q, hq, rfl, hUnder, doc, hDoc, hAgrees⟩ := h.indexed other hOther text row hRow
      refine ⟨q, hq, rfl, hUnder, doc, (if_neg fun hSame => hDifferent ?_).trans hDoc, hAgrees⟩
      obtain rfl : q = p := hPaths.ids hq hPath (hSame.trans hAbout.id)
      have hRoots := hPaths.apart.eq_of_under hOther hRoot hUnder hAbout.under
      exact ⟨congrArg Path.text hRoots, rfl⟩

/-- Documents have their entries after a record, as they had before. -/
theorem IsMirrored.recorded_record (h : w.IsMirrored roots paths) (hRoot : root ∈ roots)
    (hPath : p ∈ paths) (hAbout : op.IsAbout root p u)
    (hFind : ∀ root path, t.find? root path =
      if root = u.root ∧ path = u.path then u.written now else w.store.find? root path)
    {id : String} {doc : Document} (hDoc : op.applyTo w.index id = some doc) :
    ∃ root ∈ roots, ∃ p ∈ paths, id = documentId p.text ∧
      (t.find? root.text p.text).isSome = true := by
  by_cases hSame : id = op.id
  · have hWritten : op.action.document? = some doc := (if_pos hSame).symm.trans hDoc
    refine ⟨root, hRoot, p, hPath, hSame.trans hAbout.id, ?_⟩
    rw [hFind, hAbout.root, hAbout.path, if_pos ⟨rfl, rfl⟩]
    rcases hAbout.agrees now with ⟨_, hNone⟩ | ⟨row, _, hRow, _⟩
    · rw [hNone] at hWritten
      cases hWritten
    · rw [hRow]
      rfl
  · obtain ⟨other, hOther, q, hq, rfl, hRecorded⟩ := h.recorded id doc ((if_neg hSame).symm.trans hDoc)
    refine ⟨other, hOther, q, hq, rfl, ?_⟩
    rw [hFind, hAbout.path, if_neg]
    · exact hRecorded
    · exact fun hKey => hSame ((congrArg documentId hKey.2).trans hAbout.id.symm)

/-- An operation that is acknowledged and recorded keeps index and crawl state alike. -/
theorem IsMirrored.record (h : w.IsMirrored roots paths) (hPaths : Distinguished roots paths)
    (hRoot : root ∈ roots) {r : Receipt} (hCoherent : r.op.IsCoherent root paths)
    (hRecord : w.store.record r = .ok t) : IsMirrored roots paths ⟨t, r.op.applyTo w.index⟩ := by
  obtain ⟨p, hPath, u, hAbout⟩ := hCoherent.isAbout
  obtain ⟨now, hFind⟩ := Store.find?_record hAbout.update hRecord
  exact {
    indexed := fun _ hOther _ _ hRow => h.indexed_record hPaths hRoot hPath hAbout hFind hOther hRow
    recorded := fun _ _ hDoc => h.recorded_record hRoot hPath hAbout hFind hDoc }

/-- What a list of acknowledgements keeps: index and crawl state alike, and all
that is recorded about other roots. -/
theorem IsMirrored.records (h : w.IsMirrored roots paths) (hPaths : Distinguished roots paths)
    (hRoot : root ∈ roots) {receipts : List Receipt}
    (hCoherent : ∀ r ∈ receipts, r.op.IsCoherent root paths)
    (hRecord : receipts.foldlM Store.record w.store = .ok t) :
    IsMirrored roots paths ⟨t, (receipts.map (·.op)).foldl Operation.applyTo w.index⟩ ∧
    ∀ other, other ≠ root.text → ∀ path, t.find? other path = w.store.find? other path := by
  induction receipts generalizing w with
  | nil =>
      cases hRecord
      exact ⟨h, fun _ _ _ => rfl⟩
  | cons r receipts ih =>
      have hFirst := hCoherent r List.mem_cons_self
      rw [List.foldlM_cons] at hRecord
      cases hNext : w.store.record r with
      | error f =>
          rw [hNext] at hRecord
          cases hRecord
      | ok s =>
          rw [hNext] at hRecord
          obtain ⟨hMirrored, hOthers⟩ := ih (w := ⟨s, r.op.applyTo w.index⟩)
            (h.record hPaths hRoot hFirst hNext)
            (fun later hLater => hCoherent later (List.mem_cons_of_mem r hLater)) hRecord
          refine ⟨hMirrored, fun other hOther path => ?_⟩
          exact (hOthers other hOther path).trans (Store.find?_of_keeps hFirst.keeps hOther hNext path)

end World
end Indexer
