import Indexer.Bulk.Operation
import Indexer.Proofs.Document.Source
import Mathlib.Data.List.Forall2

/-! Bulk requests read back. The only character whose bytes hold a line break is the line break
itself, and no line of a request has one. So what is cut at the line breaks are the lines, and what
they say is what was to be sent. -/
namespace Indexer

namespace Text

/-- The bytes of a text. -/
def bytes (s : String) : List UInt8 := s.toUTF8.data.toList

/-- The text of some bytes, if they are one. -/
def ofBytes? (bs : List UInt8) : Option String := String.fromUTF8? ⟨bs.toArray⟩

theorem ofBytes?_bytes (s : String) : ofBytes? (bytes s) = some s := by
  have hValid : s.toUTF8.IsValidUTF8 := s.isValidUTF8
  rw [ofBytes?, bytes, Array.toArray_toList, String.fromUTF8?, dif_pos hValid]
  rfl

theorem bytes_append (s t : String) : bytes (s ++ t) = bytes s ++ bytes t := by
  simp [bytes, String.toUTF8]

theorem bytes_eq_flatMap (s : String) : bytes s = s.toList.flatMap String.utf8EncodeChar := by
  rw [bytes, String.toUTF8]
  conv => lhs; rw [← String.ofList_toList (s := s)]
  rw [String.toByteArray_ofList, List.utf8Encode, List.toList_data_toByteArray]

/-- A character that is not of ASCII has no byte of ASCII. -/
theorem le_of_mem_utf8EncodeChar {c : Char} (hBeyond : ¬c.val.toNat ≤ 127) :
    ∀ b ∈ String.utf8EncodeChar c, 128 ≤ b.toNat := by
  rw [String.utf8EncodeChar, if_neg hBeyond]
  split_ifs <;>
    simp only [List.forall_mem_cons, List.not_mem_nil, false_imp_iff, implies_true, and_true,
      UInt8.toNat_ofNat'] <;>
    omega

/-- Only the line break is written with the byte of a line break. -/
theorem line_mem_utf8EncodeChar {c : Char} (h : 0x0A ∈ String.utf8EncodeChar c) : c = '\n' := by
  by_cases hAscii : c.val.toNat ≤ 127
  · rw [String.utf8EncodeChar, if_pos hAscii, List.mem_singleton] at h
    have hCode : 10 = c.val.toNat % 256 := by simpa using congrArg UInt8.toNat h
    refine Char.toNat_inj.mp ?_
    change c.val.toNat = 10
    omega
  · exact absurd (le_of_mem_utf8EncodeChar hAscii _ h) (by decide)

/-- A text has no line break among its bytes if it has none among its characters. -/
theorem line_notMem_bytes {s : String} (h : '\n' ∉ s.toList) : 0x0A ∉ bytes s := by
  rw [bytes_eq_flatMap]
  intro hMem
  obtain ⟨c, hc, hLine⟩ := List.mem_flatMap.mp hMem
  exact h (line_mem_utf8EncodeChar hLine ▸ hc)

/-- Lines that are cut at their ends come apart, and nothing is left behind the last one. -/
theorem splitOn_lines {lines : List String} (hSome : lines ≠ [])
    (hLines : ∀ l ∈ lines, '\n' ∉ l.toList) :
    (bytes ("\n".intercalate lines ++ "\n")).splitOn 0x0A = lines.map bytes ++ [[]] := by
  have hEnd (l more : String) : bytes (l ++ "\n" ++ more) = bytes l ++ 0x0A :: bytes more := by
    rw [bytes_append, bytes_append, List.append_assoc]
    rfl
  induction lines with
  | nil => exact absurd rfl hSome
  | cons l lines ih =>
      obtain ⟨hFirst, hRest⟩ := List.forall_mem_cons.mp hLines
      have hNone := line_notMem_bytes hFirst
      cases lines with
      | nil =>
          rw [String.intercalate_singleton, ← String.append_empty (s := l ++ "\n"), hEnd,
            List.splitOn_append_cons_self_of_not_mem hNone]
          rfl
      | cons m lines =>
          rw [String.intercalate_cons_cons, String.append_assoc, hEnd,
            List.splitOn_append_cons_self_of_not_mem hNone, ih (List.cons_ne_nil m lines) hRest]
          rfl

end Text

/-- What a bulk request says about one operation. -/
structure Instruction where
  kind : OpKind
  index : String
  id : String
  /-- The document to be indexed. -/
  source : Option Json

namespace Instruction

/-- What is to be said about an operation. -/
def ofOperation (index : String) (op : Operation) : Instruction where
  kind := op.kind
  index := index
  id := op.id
  source :=
    match op.action with
    | .index doc => some doc.source
    | .delete => none

/-- The kind, the index and the id that an action names. -/
def action? : Json → Option (OpKind × String × String)
  | .obj [("index", .obj [("_index", .str index), ("_id", .str id)])] => some (.index, index, id)
  | .obj [("delete", .obj [("_index", .str index), ("_id", .str id)])] => some (.delete, index, id)
  | _ => none

/-- Reads what the lines of a request say: an action, and behind one that indexes its document. -/
def ofValues? : List Json → Option (List Instruction)
  | [] => some []
  | v :: rest =>
    match action? v with
    | some (.delete, index, id) => (ofValues? rest).map (⟨.delete, index, id, none⟩ :: ·)
    | some (.index, index, id) =>
      match rest with
      | doc :: rest => (ofValues? rest).map (⟨.index, index, id, some doc⟩ :: ·)
      | [] => none
    | none => none

/-- Reads the lines of a request. -/
def ofLines? (lines : List (List UInt8)) : Option (List Instruction) :=
  (lines.mapM fun line => (Text.ofBytes? line).bind Json.parse?).bind ofValues?

end Instruction

/-- A line that says a value. -/
def Json.IsSaidBy (v : Json) (line : String) : Prop :=
  '\n' ∉ line.toList ∧ Json.parse? line = some v

theorem Json.IsPlain.isSaidBy_render {v : Json} (h : v.IsPlain) (ascii : Bool) :
    v.IsSaidBy (v.render ⟨",", ":", ascii⟩) := by
  have hStyle : Style.Separates ⟨",", ":", ascii⟩ :=
    ⟨⟨[], by simp, List.forall_mem_nil _⟩, ⟨[], by simp, List.forall_mem_nil _⟩⟩
  refine ⟨?_, parse?_render hStyle h⟩
  rw [render, String.toList_ofList]
  exact h.line_notMem (by simp) (by simp)

namespace Operation

/-- The values in the lines of an operation. -/
def values (index : String) (op : Operation) : List Json :=
  let action := Json.obj [(op.kind.name, .obj [("_index", .str index), ("_id", .str op.id)])]
  match op.action with
  | .index doc => [action, doc.source]
  | .delete => [action]

theorem lines_say (index : String) (op : Operation) :
    List.Forall₂ Json.IsSaidBy (op.values index) (op.lines index) := by
  have hAction : Json.IsSaidBy _ (op.actionLine index) :=
    Json.IsPlain.isSaidBy_render (by simp [Json.isPlain_obj_iff, Json.IsPlain.str]) true
  unfold values lines
  cases op.action with
  | index doc =>
      have hDoc : doc.source.IsSaidBy doc.line := by
        rw [← doc.toJson_eq_source]
        exact doc.isPlain_toJson.isSaidBy_render false
      exact .cons hAction (.cons hDoc .nil)
  | delete => exact .cons hAction .nil

end Operation

namespace Batch

variable {index : String} {batch : Batch}

theorem lines_say (index : String) (batch : Batch) :
    List.Forall₂ Json.IsSaidBy (batch.flatMap (Operation.values index))
      (batch.flatMap (Operation.lines index)) := by
  induction batch with
  | nil => exact .nil
  | cons op batch ih => exact List.rel_append (op.lines_say index) ih

/-- What the lines say is what was to be said. -/
theorem ofValues?_values (index : String) (batch : Batch) :
    Instruction.ofValues? (batch.flatMap (Operation.values index)) =
      some (batch.map (Instruction.ofOperation index)) := by
  induction batch with
  | nil => rfl
  | cons op batch ih =>
      obtain ⟨action, id, update, attempts⟩ := op
      cases action with
      | index doc =>
          simp only [List.flatMap_cons, Operation.values, Operation.kind, OpKind.name,
            List.cons_append, List.nil_append, Instruction.ofValues?, Instruction.action?, ih]
          rfl
      | delete =>
          simp only [List.flatMap_cons, Operation.values, Operation.kind, OpKind.name,
            List.cons_append, List.nil_append, Instruction.ofValues?, Instruction.action?, ih]
          rfl

theorem length_lines (index : String) (batch : Batch) :
    (batch.flatMap (Operation.lines index)).length =
      batch.countP (·.kind = .delete) + 2 * batch.countP (·.kind = .index) := by
  induction batch with
  | nil => rfl
  | cons op batch ih =>
      rw [List.flatMap_cons, List.length_append, ih, List.countP_cons, List.countP_cons]
      obtain ⟨action, id, update, attempts⟩ := op
      cases action with
      | index doc =>
          simp [Operation.lines, Operation.kind]
          omega
      | delete =>
          simp [Operation.lines, Operation.kind]
          omega

theorem line_notMem_of_said {values : List Json} {lines : List String}
    (h : List.Forall₂ Json.IsSaidBy values lines) : ∀ l ∈ lines, '\n' ∉ l.toList := by
  induction h with
  | nil => exact List.forall_mem_nil _
  | cons hSaid _ ih => exact List.forall_mem_cons.mpr ⟨hSaid.1, ih⟩

theorem ofLines?_bytes {values : List Json} {lines : List String}
    (h : List.Forall₂ Json.IsSaidBy values lines) :
    ((lines.map Text.bytes).mapM fun line => (Text.ofBytes? line).bind Json.parse?) =
      some values := by
  induction h with
  | nil => rfl
  | cons hSaid _ ih =>
      rw [List.map_cons, List.mapM_cons, Text.ofBytes?_bytes, Option.bind_some, hSaid.2, ih]
      rfl

end Batch

/-- The body of a request reads back as its operations. It ends with a line break; cut at its line
breaks it has one line for each deletion and two for each document; and these lines say, in their
order, what to do with which entry of which index, and all fields of a document that have a
value. -/
theorem Batch.payload_reads_back (index : String) {batch : Batch} (hSome : batch ≠ []) :
    (Text.bytes (batch.payload index)).getLast? = some 0x0A ∧
    (∃ lines, (Text.bytes (batch.payload index)).splitOn 0x0A = lines ++ [[]] ∧
      lines.length = batch.countP (·.kind = .delete) + 2 * batch.countP (·.kind = .index) ∧
      Instruction.ofLines? lines = some (batch.map (Instruction.ofOperation index))) ∧
    ∀ doc : Document,
      (doc.source.field? "meta" = none ↔ doc.metadata.author = none ∧ doc.metadata.title = none ∧
        doc.metadata.date = none ∧ doc.metadata.keywords = none) ∧
      (doc.source.field? "attributes" = none ↔ doc.owner = none ∧ doc.group = none) := by
  have hSaid := lines_say index batch
  have hLines : batch.flatMap (Operation.lines index) ≠ [] := by
    obtain ⟨op, batch, rfl⟩ := List.exists_cons_of_ne_nil hSome
    cases hAction : op.action <;> simp [Operation.lines, hAction]
  refine ⟨?_, ⟨_, Text.splitOn_lines hLines (line_notMem_of_said hSaid), ?_, ?_⟩,
    fun doc => ⟨doc.field?_source_meta, doc.field?_source_attributes⟩⟩
  · rw [payload, Text.bytes_append]
    exact List.getLast?_concat
  · rw [List.length_map, length_lines]
  · rw [Instruction.ofLines?, ofLines?_bytes hSaid, Option.bind_some, ofValues?_values]

/-- A text with everything that could break a line, and a file that is gone. -/
def notes : Batch := [
  { action := .index {
      file := {
        contentType := none
        lastModified := ⟨0⟩
        indexingDate := ⟨⟨1500000⟩, some 0⟩
        size := 0
        indexedChars := 4
        name := "a \"b\".txt"
        extension := "txt"
        checksum := none
        url := "" }
      path := ⟨"r", "/r/a \"b\".txt", "/a \"b\".txt", "1"⟩
      content := some "\n\u0085\u2028😀"
      metadata := ⟨none, some "", none, some []⟩
      owner := none
      group := none
      attachment := none }
    id := "1"
    update := none
    attempts := 0 },
  { action := .delete, id := "2", update := none, attempts := 0 }]

theorem notes_read_back :
    notes ≠ [] ∧ ∃ lines, (Text.bytes (notes.payload "files")).splitOn 0x0A = lines ++ [[]] ∧
      lines.length = 3 ∧
      Instruction.ofLines? lines = some (notes.map (Instruction.ofOperation "files")) := by
  have hSome : notes ≠ [] := List.cons_ne_nil _ _
  obtain ⟨_, ⟨lines, hSplit, hLength, hRead⟩, _⟩ := Batch.payload_reads_back "files" hSome
  exact ⟨hSome, lines, hSplit, hLength, hRead⟩

end Indexer
