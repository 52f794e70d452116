import Indexer.Document
import Indexer.Proofs.Json.RoundTrip

/-! What a document is sent as. Leaving out what says nothing leaves exactly the fields that have a
value, in the order of the index mapping: an empty text, a zero and an empty list are values, and a
group of fields is there if one of its fields is. -/
namespace Indexer

namespace Json

/-- The object of those fields that have a value. -/
def ofPresent (fields : List (String × Option Json)) : Json :=
  .obj (fields.filterMap fun f => f.2.map (f.1, ·))

/-- A group of fields, which is there if one of the fields has a value. -/
def group? (fields : List (String × Option Json)) : Option Json :=
  if fields.all (·.2.isNone) then none else some (ofPresent fields)

end Json

/-- Every field of a document that has a value. -/
def Document.source (d : Document) : Json :=
  .ofPresent [
    ("file", some (.ofPresent [
      ("content_type", d.file.contentType.map .str),
      ("last_modified", some (.str (Time.iso d.file.lastModified.local))),
      ("indexing_date", some (.str (Time.iso d.file.indexingDate))),
      ("filesize", some (.nat d.file.size)),
      ("indexed_chars", some (.nat d.file.indexedChars)),
      ("filename", some (.str d.file.name)),
      ("extension", some (.str d.file.extension)),
      ("checksum", d.file.checksum.map .str),
      ("url", some (.str d.file.url))])),
    ("path", some (.ofPresent [
      ("root", some (.str d.path.root)),
      ("real", some (.str d.path.real)),
      ("virtual", some (.str d.path.virtualPath)),
      ("encoded", some (.str d.path.id))])),
    ("content", d.content.map .str),
    ("meta", Json.group? [
      ("author", d.metadata.author.map .str),
      ("title", d.metadata.title.map .str),
      ("date", d.metadata.date.map fun t => .str (Time.iso t)),
      ("keywords", d.metadata.keywords.map fun ks => .arr (ks.map .ofString?))]),
    ("attributes", Json.group? [
      ("owner", d.owner.map .str),
      ("group", d.group.map .str)]),
    ("attachment", d.attachment.map .str)]

namespace Json

/-- What is left of a value, if it says anything. -/
def said? (v : Json) : Option Json := if v.prune.isVoid then none else some v.prune

theorem pruneFields_eq (fields : List (String × Json)) :
    pruneFields fields =
      (fields.map fun f => (f.1, f.2.said?)).filterMap fun f => f.2.map (f.1, ·) := by
  induction fields with
  | nil => rfl
  | cons f fields ih =>
      obtain ⟨k, v⟩ := f
      rw [pruneFields, ih, List.map_cons, List.filterMap_cons, said?]
      split <;> rfl

/-- What is left of an object are the fields that say something. -/
theorem prune_obj (fields : List (String × Json)) :
    (Json.obj fields).prune = ofPresent (fields.map fun f => (f.1, f.2.said?)) := by
  rw [prune, pruneFields_eq, ofPresent]

theorem isVoid_ofPresent (fields : List (String × Option Json)) :
    (ofPresent fields).isVoid = fields.all (·.2.isNone) := by
  induction fields with
  | nil => rfl
  | cons f fields ih =>
      obtain ⟨k, v⟩ := f
      cases v with
      | none => exact ih
      | some v => rfl

theorem said?_obj (fields : List (String × Json)) :
    (Json.obj fields).said? = group? (fields.map fun f => (f.1, f.2.said?)) := by
  rw [said?, prune_obj, isVoid_ofPresent, group?]

@[simp] theorem said?_str (s : String) : (Json.str s).said? = some (.str s) := rfl

@[simp] theorem said?_nat (n : Nat) : (Json.nat n).said? = some (.nat n) := rfl

@[simp] theorem said?_ofString? (s : Option String) : (ofString? s).said? = s.map .str := by
  cases s <;> rfl

theorem pruneItems_eq_map (items : List Json) : pruneItems items = items.map prune := by
  induction items with
  | nil => rfl
  | cons v items ih => rw [pruneItems, ih, List.map_cons]

theorem prune_ofString? (s : Option String) : (ofString? s).prune = ofString? s := by
  cases s <;> rfl

/-- A list stays as it is, with the places of what is missing. -/
theorem said?_texts (texts : Option (List (Option String))) :
    ((texts.map fun ks => arr (ks.map ofString?)).getD .null).said? =
      texts.map fun ks => .arr (ks.map ofString?) := by
  cases texts with
  | none => rfl
  | some ks =>
      have hItems : pruneItems (ks.map ofString?) = ks.map ofString? := by
        rw [pruneItems_eq_map, List.map_map]
        exact List.map_congr_left fun s _ => prune_ofString? s
      rw [Option.map_some, Option.getD_some, said?, prune, hItems]
      rfl

theorem group?_eq_some {fields : List (String × Option Json)} {f : String × Option Json}
    (hMem : f ∈ fields) (hSome : f.2.isSome = true) : group? fields = some (ofPresent fields) := by
  refine if_neg fun hAll => ?_
  have hNone := List.all_eq_true.mp hAll f hMem
  rw [Option.isNone_iff_eq_none.mp hNone] at hSome
  cases hSome

theorem group?_eq_none_iff {fields : List (String × Option Json)} :
    group? fields = none ↔ ∀ f ∈ fields, f.2 = none := by
  simp [group?]

theorem field?_ofPresent_of_notMem {fields : List (String × Option Json)} {key : String}
    (h : key ∉ fields.map (·.1)) : (ofPresent fields).field? key = none := by
  have hNone : (fields.filterMap fun f => f.2.map (f.1, ·)).find? (·.1 = key) = none := by
    simp only [List.find?_eq_none, List.mem_filterMap, decide_eq_true_eq]
    rintro g ⟨f, hf, hSome⟩ hKey
    obtain ⟨v, _, rfl⟩ := Option.map_eq_some_iff.mp hSome
    exact h (hKey ▸ List.mem_map_of_mem hf)
  rw [ofPresent, field?, lookup, hNone]
  rfl

/-- A key of the object has the value of its field, if that has one. -/
theorem field?_ofPresent {fields : List (String × Option Json)} (hKeys : (fields.map (·.1)).Nodup)
    {key : String} {value : Option Json} (hMem : (key, value) ∈ fields) :
    (ofPresent fields).field? key = value := by
  induction fields with
  | nil => cases hMem
  | cons f fields ih =>
      obtain ⟨k, v⟩ := f
      obtain ⟨hNew, hKeys⟩ := List.nodup_cons.mp hKeys
      rcases List.mem_cons.mp hMem with hSame | hMore
      · cases hSame
        cases value with
        | none =>
            have hNone : (ofPresent fields).field? key = none := field?_ofPresent_of_notMem hNew
            exact hNone
        | some v => simp [ofPresent, field?, lookup]
      · have hOther : k ≠ key := by
          rintro rfl
          exact hNew (List.mem_map.mpr ⟨_, hMore, rfl⟩)
        rw [← ih hKeys hMore]
        cases v with
        | none => rfl
        | some v => simp [ofPresent, field?, lookup, hOther]

section Plain

/-- What is left of an object keeps its keys and their order. -/
theorem keys_pruneFields (fields : List (String × Json)) :
    ((pruneFields fields).map (·.1)).Sublist (fields.map (·.1)) := by
  induction fields with
  | nil => exact .slnil
  | cons f fields ih =>
      obtain ⟨k, v⟩ := f
      rw [pruneFields]
      split
      · exact ih.cons k
      · exact ih.cons_cons k

theorem exists_of_mem_pruneFields {fields : List (String × Json)} {f : String × Json}
    (h : f ∈ pruneFields fields) : ∃ g ∈ fields, f.2 = g.2.prune := by
  induction fields with
  | nil => cases h
  | cons g fields ih =>
      obtain ⟨k, v⟩ := g
      rw [pruneFields] at h
      split at h
      · obtain ⟨g, hg, hValue⟩ := ih h
        exact ⟨g, .tail _ hg, hValue⟩
      · rcases List.mem_cons.mp h with rfl | hMore
        · exact ⟨_, List.mem_cons_self, rfl⟩
        · obtain ⟨g, hg, hValue⟩ := ih hMore
          exact ⟨g, .tail _ hg, hValue⟩

/-- What is left of a plain value is plain. -/
theorem IsPlain.prune {v : Json} (h : v.IsPlain) : v.prune.IsPlain := by
  induction h with
  | null => exact .null
  | bool b => exact .bool b
  | int i => exact .int i
  | str s => exact .str s
  | arr _ ih =>
      rw [Json.prune, pruneItems_eq_map]
      refine .arr fun w hw => ?_
      obtain ⟨v, hv, rfl⟩ := List.mem_map.mp hw
      exact ih v hv
  | obj hKeys _ ih =>
      rw [Json.prune]
      refine .obj (hKeys.sublist (keys_pruneFields _)) fun f hf => ?_
      obtain ⟨g, hg, hValue⟩ := exists_of_mem_pruneFields hf
      rw [hValue]
      exact ih g hg

theorem isPlain_obj_iff {fields : List (String × Json)} :
    (Json.obj fields).IsPlain ↔ (fields.map (·.1)).Nodup ∧ ∀ f ∈ fields, f.2.IsPlain := by
  constructor
  · intro h
    cases h with
    | obj hKeys hFields => exact ⟨hKeys, hFields⟩
  · exact fun h => .obj h.1 h.2

theorem isPlain_ofString? (s : Option String) : (ofString? s).IsPlain := by
  cases s with
  | none => exact .null
  | some s => exact .str s

theorem isPlain_texts (texts : Option (List (Option String))) :
    ((texts.map fun ks => arr (ks.map ofString?)).getD .null).IsPlain := by
  cases texts with
  | none => exact .null
  | some ks =>
      refine .arr fun v hv => ?_
      obtain ⟨s, _, rfl⟩ := List.mem_map.mp hv
      exact isPlain_ofString? s

end Plain
end Json

namespace Document

open Json

/-- A document is sent as the fields that have a value. -/
theorem toJson_eq_source (d : Document) : d.toJson = d.source := by
  simp only [toJson, Document.fields, prune_obj, source, List.map_cons, List.map_nil, said?_obj,
    said?_ofString?, dateTime, said?_str, said?_nat, said?_texts, Option.map_map]
  rw [group?_eq_some (f := ("url", some (.str d.file.url))) (by simp) rfl]
  rfl

theorem field?_source_meta (d : Document) : d.source.field? "meta" = none ↔
    d.metadata.author = none ∧ d.metadata.title = none ∧ d.metadata.date = none ∧
      d.metadata.keywords = none := by
  rw [source, field?_ofPresent (by simp) (.tail _ (.tail _ (.tail _ (.head _)))), group?_eq_none_iff]
  simp

theorem field?_source_attributes (d : Document) :
    d.source.field? "attributes" = none ↔ d.owner = none ∧ d.group = none := by
  rw [source, field?_ofPresent (by simp) (.tail _ (.tail _ (.tail _ (.tail _ (.head _))))),
    group?_eq_none_iff]
  simp

theorem isPlain_toJson (d : Document) : d.toJson.IsPlain := by
  refine IsPlain.prune ?_
  simp [Document.fields, dateTime, isPlain_obj_iff, IsPlain.str, IsPlain.int, nat, isPlain_ofString?,
    isPlain_texts]

end Document
end Indexer
