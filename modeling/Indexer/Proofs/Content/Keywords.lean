import Indexer.Content.Keywords
import Indexer.Proofs.Text.Pieces

/-! Keyword lists as they are written. A list can be joined with either separator at
each place, with white space around its entries and with blank entries anywhere.
Reading undoes just this: what is read from a text are the keywords that the text
joins, and a text that joins none has nothing in it but separators and white space. -/
namespace Indexer.Keywords

/-- A text that can be one keyword of a list. -/
structure IsKeyword (k : String) : Prop where
  ne_empty : k ≠ ""
  no_comma : ',' ∉ k.toList
  no_semicolon : ';' ∉ k.toList
  trimmed : Text.IsTrimmed Text.isBlank k.toList

/-- White space, or nothing. -/
def IsSpace (cs : List Char) : Prop := ∀ c ∈ cs, Text.isBlank c = true

instance (k : String) : Decidable (IsKeyword k) :=
  decidable_of_iff
    (k ≠ "" ∧ ',' ∉ k.toList ∧ ';' ∉ k.toList ∧ Text.IsTrimmed Text.isBlank k.toList)
    ⟨fun ⟨hSome, hComma, hSemicolon, hTrimmed⟩ => ⟨hSome, hComma, hSemicolon, hTrimmed⟩,
      fun h => ⟨h.ne_empty, h.no_comma, h.no_semicolon, h.trimmed⟩⟩

instance (cs : List Char) : Decidable (IsSpace cs) :=
  decidable_of_iff (cs.all Text.isBlank = true) List.all_eq_true

/-- The text joins the list: between the separators stands one of its entries, with white
space around it, or a blank entry that the list does not have. -/
inductive Joins : List Char → List String → Prop where
  | blank {space : List Char} (hSpace : IsSpace space) : Joins space []
  | entry {before after : List Char} (k : String) (hBefore : IsSpace before)
      (hAfter : IsSpace after) : Joins (before ++ k.toList ++ after) [k]
  | join {left right : List Char} {ks more : List String} {separator : Char}
      (hSeparator : separator = ',' ∨ separator = ';') (hLeft : Joins left ks)
      (hRight : Joins right more) : Joins (left ++ separator :: right) (ks ++ more)

variable {cs before after : List Char} {ks : List String} {k : String} {c : Char}

theorem isSeparator_iff : isSeparator c = true ↔ c = ',' ∨ c = ';' := by
  simp [isSeparator]

theorem isSeparator_of_isBlank (h : Text.isBlank c = true) : isSeparator c = false := by
  refine Bool.eq_false_iff.mpr fun hSeparator => ?_
  rcases isSeparator_iff.mp hSeparator with rfl | rfl
  · exact absurd h (by decide)
  · exact absurd h (by decide)

theorem IsKeyword.unmarked (h : IsKeyword k) : ∀ c ∈ k.toList, isSeparator c = false := by
  intro c hc
  refine Bool.eq_false_iff.mpr fun hSeparator => ?_
  rcases isSeparator_iff.mp hSeparator with rfl | rfl
  · exact h.no_comma hc
  · exact h.no_semicolon hc

theorem entries_append (h : isSeparator c = true) (left right : List Char) :
    entries (left ++ c :: right) = entries left ++ entries right := by
  rw [entries, Text.splitAt_append_mark h, List.map_append, List.filter_append, entries, entries]

/-- A text without a separator has one entry at most. -/
theorem entries_of_unmarked (h : ∀ c ∈ cs, isSeparator c = false) :
    entries cs =
      if Text.trimChars Text.isBlank cs = [] then [] else [Text.trimChars Text.isBlank cs] := by
  rw [entries, Text.splitAt_of_unmarked h, List.map_singleton]
  split
  · next hNothing => rw [hNothing]; rfl
  · next hSome => exact List.filter_cons_of_pos (decide_eq_true hSome)

theorem entries_of_space (h : IsSpace cs) : entries cs = [] := by
  rw [entries_of_unmarked fun c hc => isSeparator_of_isBlank (h c hc),
    if_pos (Text.trimChars_eq_nil_iff.mpr h)]

theorem entries_of_keyword (hBefore : IsSpace before) (hAfter : IsSpace after)
    (hKeyword : IsKeyword k) : entries (before ++ k.toList ++ after) = [k.toList] := by
  have hUnmarked : ∀ c ∈ before ++ k.toList ++ after, isSeparator c = false :=
    List.forall_mem_append.mpr ⟨List.forall_mem_append.mpr
      ⟨fun c hc => isSeparator_of_isBlank (hBefore c hc), hKeyword.unmarked⟩,
      fun c hc => isSeparator_of_isBlank (hAfter c hc)⟩
  rw [entries_of_unmarked hUnmarked, Text.trimChars_padded hBefore hAfter hKeyword.trimmed,
    if_neg fun hNothing => hKeyword.ne_empty (String.toList_eq_nil_iff.mp hNothing)]

/-- A text joins only the keywords that are read from it. -/
theorem Joins.eq_entries (h : Joins cs ks) (hKeywords : ∀ k ∈ ks, IsKeyword k) :
    ks = (entries cs).map String.ofList := by
  induction h with
  | blank hSpace => rw [entries_of_space hSpace, List.map_nil]
  | entry k hBefore hAfter =>
      rw [entries_of_keyword hBefore hAfter (hKeywords k (List.mem_singleton_self k)),
        List.map_singleton, String.ofList_toList]
  | join hSeparator _ _ ihLeft ihRight =>
      obtain ⟨hLeft, hRight⟩ := List.forall_mem_append.mp hKeywords
      rw [entries_append (isSeparator_iff.mpr hSeparator), List.map_append, ← ihLeft hLeft,
        ← ihRight hRight]

/-- A text joins what is read from it. -/
theorem joins_entries (cs : List Char) : Joins cs ((entries cs).map String.ofList) := by
  induction cs using Text.mark_induction isSeparator with
  | piece cs hUnmarked =>
      obtain ⟨before, after, hBefore, hAfter, hAll⟩ := Text.exists_trimChars Text.isBlank cs
      rw [entries_of_unmarked hUnmarked]
      split
      · next hNothing => exact .blank (Text.trimChars_eq_nil_iff.mp hNothing)
      · have hEntry := Joins.entry (String.ofList (Text.trimChars Text.isBlank cs)) hBefore hAfter
        rwa [String.toList_ofList, ← hAll] at hEntry
  | join left mark right hMark ihLeft ihRight =>
      rw [entries_append hMark, List.map_append]
      exact .join (isSeparator_iff.mp hMark) ihLeft ihRight

theorem isKeyword_of_mem_entries {entry : List Char} (h : entry ∈ entries cs) :
    IsKeyword (String.ofList entry) := by
  obtain ⟨hTrimmed, hSome⟩ := List.mem_filter.mp h
  obtain ⟨piece, hPiece, rfl⟩ := List.mem_map.mp hTrimmed
  obtain ⟨before, after, _, _, hAll⟩ := Text.exists_trimChars Text.isBlank piece
  have hUnmarked : ∀ c ∈ Text.trimChars Text.isBlank piece, isSeparator c = false := by
    intro c hc
    refine Text.unmarked_of_mem_splitAt hPiece c ?_
    rw [hAll]
    exact List.mem_append_left _ (List.mem_append_right _ hc)
  refine ⟨fun hEmpty => of_decide_eq_true hSome (String.ofList_injective hEmpty), ?_, ?_, ?_⟩
  all_goals rw [String.toList_ofList]
  · exact fun hc => absurd (hUnmarked _ hc) (by decide)
  · exact fun hc => absurd (hUnmarked _ hc) (by decide)
  · exact Text.isTrimmed_trimChars Text.isBlank piece

/-- A text has no entry exactly if nothing is in it but separators and white space. -/
theorem entries_eq_nil_iff :
    entries cs = [] ↔ ∀ c ∈ cs, isSeparator c = true ∨ Text.isBlank c = true := by
  induction cs using Text.mark_induction isSeparator with
  | piece cs hUnmarked =>
      rw [entries_of_unmarked hUnmarked]
      simp only [ite_eq_left_iff, reduceCtorEq, imp_false, not_not]
      rw [Text.trimChars_eq_nil_iff]
      refine forall₂_congr fun c hc => ?_
      rw [hUnmarked c hc]
      exact (or_iff_right Bool.false_ne_true).symm
  | join left mark right hMark ihLeft ihRight =>
      rw [entries_append hMark, List.append_eq_nil_iff, ihLeft, ihRight, List.forall_mem_append,
        List.forall_mem_cons]
      exact and_congr_right fun _ => (and_iff_right (.inl hMark)).symm

theorem ofText?_eq_some_iff {s : String} :
    ofText? s = some ks ↔ ks ≠ [] ∧ ks = (entries s.toList).map String.ofList := by
  rw [ofText?]
  cases entries s.toList with
  | nil => exact iff_of_false nofun fun ⟨hSome, hNone⟩ => hSome hNone
  | cons entry rest =>
      rw [Option.some.injEq, eq_comm]
      exact (and_iff_right_of_imp fun hRead => hRead ▸ List.cons_ne_nil _ _).symm

theorem ofText?_eq_none_iff {s : String} : ofText? s = none ↔ entries s.toList = [] := by
  rw [ofText?]
  cases entries s.toList with
  | nil => exact iff_of_true rfl rfl
  | cons entry rest => exact iff_of_false nofun (List.cons_ne_nil entry rest)

/-- A list is read from a text exactly if it is not empty, its entries are keywords and
the text joins them. No list is read exactly if there is nothing in the text but
separators and white space. -/
theorem reading_undoes_joining (s : String) :
    (∀ ks, ofText? s = some ks ↔ ks ≠ [] ∧ (∀ k ∈ ks, IsKeyword k) ∧ Joins s.toList ks) ∧
    (ofText? s = none ↔ ∀ c ∈ s.toList, c = ',' ∨ c = ';' ∨ Text.isBlank c = true) := by
  constructor
  · intro ks
    rw [ofText?_eq_some_iff]
    refine and_congr_right fun _ => ⟨?_, fun ⟨hKeywords, hJoins⟩ => hJoins.eq_entries hKeywords⟩
    rintro rfl
    exact ⟨List.forall_mem_map.mpr fun _ => isKeyword_of_mem_entries, joins_entries s.toList⟩
  · rw [ofText?_eq_none_iff, entries_eq_nil_iff]
    simp only [isSeparator_iff, or_assoc]

/-- Both separators, a blank entry between two keywords and one behind them, and white
space of several kinds, also inside a keyword. -/
theorem mixedList_is_read :
    Joins " alpha ;,\u3000beta gamma\t;".toList ["alpha", "beta gamma"] ∧
      ofText? " alpha ;,\u3000beta gamma\t;" = some ["alpha", "beta gamma"] := by
  have hText : " alpha ;,\u3000beta gamma\t;".toList =
      ([' '] ++ "alpha".toList ++ [' ']) ++ ';' :: ([] ++ ',' ::
        (['\u3000'] ++ "beta gamma".toList ++ ['\t'] ++ ';' :: [])) := by decide
  have hJoins : Joins " alpha ;,\u3000beta gamma\t;".toList
      (["alpha"] ++ ([] ++ (["beta gamma"] ++ []))) := by
    rw [hText]
    refine .join (.inr rfl) (.entry "alpha" ?_ ?_) (.join (.inl rfl) (.blank ?_)
      (.join (.inr rfl) (.entry "beta gamma" ?_ ?_) (.blank ?_)))
    all_goals decide
  refine ⟨hJoins, ((reading_undoes_joining _).1 _).mpr ⟨List.cons_ne_nil _ _, ?_, hJoins⟩⟩
  exact List.forall_mem_cons.mpr ⟨by decide, List.forall_mem_singleton.mpr (by decide)⟩

end Indexer.Keywords
