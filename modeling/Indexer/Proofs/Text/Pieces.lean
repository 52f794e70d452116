import Indexer.Text.Blank
import Indexer.Text.Split
import Mathlib.Data.List.DropRight

/-! Splitting and trimming. A text splits into the pieces of its two sides at any
mark, and trimming takes off what can be put around a text without being part of
it. -/
namespace Indexer.Text

variable {isMark p : Char → Bool} {cs core before after : List Char}

theorem splitAt_eq_splitOnP (isMark : Char → Bool) (cs : List Char) :
    splitAt isMark cs = cs.splitOnP isMark := by
  induction cs with
  | nil => exact List.splitOnP_nil.symm
  | cons c cs ih =>
      rw [splitAt, List.foldr_cons, ← splitAt, ih, List.splitOnP_cons_eq_if_modifyHead]
      split
      · rfl
      · obtain ⟨piece, rest, hPieces⟩ :=
          List.exists_cons_of_ne_nil (List.splitOnP_ne_nil isMark cs)
        rw [hPieces, List.modifyHead_cons]

theorem splitAt_of_unmarked (h : ∀ c ∈ cs, isMark c = false) : splitAt isMark cs = [cs] := by
  rw [splitAt_eq_splitOnP, List.splitOnP_eq_singleton h]

theorem splitAt_append_mark {mark : Char} (hMark : isMark mark = true) (left right : List Char) :
    splitAt isMark (left ++ mark :: right) = splitAt isMark left ++ splitAt isMark right := by
  simp only [splitAt_eq_splitOnP, List.splitOnP_append_cons left right hMark]

/-- A text is without a mark, or it has two sides with a mark between them. -/
@[elab_as_elim]
theorem mark_induction (isMark : Char → Bool) {motive : List Char → Prop}
    (piece : ∀ cs, (∀ c ∈ cs, isMark c = false) → motive cs)
    (join : ∀ left mark right, isMark mark = true → motive left → motive right →
      motive (left ++ mark :: right)) (cs : List Char) : motive cs := by
  induction hLength : cs.length using Nat.strongRecOn generalizing cs with
  | _ length ih =>
      by_cases hMarked : ∃ mark ∈ cs, isMark mark = true
      · obtain ⟨mark, hMem, hMark⟩ := hMarked
        obtain ⟨left, right, rfl⟩ := List.append_of_mem hMem
        rw [List.length_append, List.length_cons] at hLength
        exact join left mark right hMark (ih _ (by omega) left rfl) (ih _ (by omega) right rfl)
      · exact piece cs fun c hc => Bool.eq_false_iff.mpr fun hMark => hMarked ⟨c, hc, hMark⟩

/-- A mark is in none of the pieces that it separates. -/
theorem unmarked_of_mem_splitAt {piece : List Char} (h : piece ∈ splitAt isMark cs) :
    ∀ c ∈ piece, isMark c = false := by
  induction cs using mark_induction isMark with
  | piece cs hUnmarked =>
      rw [splitAt_of_unmarked hUnmarked, List.mem_singleton] at h
      exact h ▸ hUnmarked
  | join left mark right hMark ihLeft ihRight =>
      rw [splitAt_append_mark hMark] at h
      exact (List.mem_append.mp h).elim ihLeft ihRight

/-- No character of the class stands at either end. -/
structure IsTrimmed (p : Char → Bool) (cs : List Char) : Prop where
  head : ∀ c ∈ cs.head?, p c = false
  last : ∀ c ∈ cs.getLast?, p c = false

theorem isTrimmed_iff :
    IsTrimmed p cs ↔ cs.head?.any p = false ∧ cs.getLast?.any p = false := by
  rw [Option.any_eq_false, Option.any_eq_false]
  exact ⟨fun h => ⟨h.head, h.last⟩, fun h => ⟨h.1, h.2⟩⟩

instance : Decidable (IsTrimmed p cs) := decidable_of_iff _ isTrimmed_iff.symm

theorem isTrimmed_nil (p : Char → Bool) : IsTrimmed p [] where
  head _ h := nomatch h
  last _ h := nomatch h

theorem trimChars_eq_rdropWhile (p : Char → Bool) (cs : List Char) :
    trimChars p cs = (cs.dropWhile p).rdropWhile p := rfl

theorem isTrimmed_trimChars (p : Char → Bool) (cs : List Char) : IsTrimmed p (trimChars p cs) where
  head := by
    intro c hHead
    obtain ⟨rest, hAll⟩ := List.rdropWhile_prefix p (cs.dropWhile p)
    have hFirst : (cs.dropWhile p).head? = some c := by
      rw [← hAll, List.head?_append, ← trimChars_eq_rdropWhile, hHead, Option.some_or]
    simpa only [hFirst] using List.head?_dropWhile_not p cs
  last := by
    intro c hLast
    obtain ⟨hSome, rfl⟩ := List.mem_getLast?_eq_getLast hLast
    exact Bool.eq_false_iff.mpr (List.rdropWhile_last_not p (cs.dropWhile p) hSome)

/-- What trimming takes off at both ends is of the class. -/
theorem exists_trimChars (p : Char → Bool) (cs : List Char) :
    ∃ before after, (∀ c ∈ before, p c = true) ∧ (∀ c ∈ after, p c = true) ∧
      cs = before ++ trimChars p cs ++ after := by
  refine ⟨cs.takeWhile p, (cs.dropWhile p).rtakeWhile p, fun _ => List.mem_takeWhile_imp,
    fun _ => List.mem_rtakeWhile_imp, ?_⟩
  rw [trimChars_eq_rdropWhile, List.append_assoc, List.rdropWhile_append_rtakeWhile,
    List.takeWhile_append_dropWhile]

theorem dropWhile_of_head (h : ∀ c ∈ cs.head?, p c = false) : cs.dropWhile p = cs := by
  cases cs with
  | nil => rfl
  | cons c cs => rw [List.dropWhile_cons_of_neg (Bool.eq_false_iff.mp (h c rfl))]

/-- What is put around a text without being part of it is taken off again. -/
theorem trimChars_padded (hBefore : ∀ c ∈ before, p c = true) (hAfter : ∀ c ∈ after, p c = true)
    (hCore : IsTrimmed p core) : trimChars p (before ++ core ++ after) = core := by
  rw [trimChars, List.append_assoc, List.dropWhile_append_of_pos hBefore]
  cases core with
  | nil =>
      -- Nothing keeps the two sides apart, so the first pass takes off both.
      rw [List.nil_append, List.dropWhile_eq_nil_iff.mpr hAfter]
      rfl
  | cons c core =>
      have hFirst : (c :: core ++ after).dropWhile p = c :: core ++ after :=
        dropWhile_of_head fun d hd => hCore.head d hd
      have hLast : (c :: core).reverse.dropWhile p = (c :: core).reverse :=
        dropWhile_of_head fun d hd => hCore.last d (List.head?_reverse ▸ hd)
      rw [hFirst, List.reverse_append, List.dropWhile_append_of_pos, hLast, List.reverse_reverse]
      exact fun d hd => hAfter d (List.mem_reverse.mp hd)

theorem trimChars_eq_nil_iff : trimChars p cs = [] ↔ ∀ c ∈ cs, p c = true := by
  constructor
  · intro hNothing
    obtain ⟨before, after, hBefore, hAfter, hAll⟩ := exists_trimChars p cs
    rw [hNothing, List.append_nil] at hAll
    exact hAll ▸ List.forall_mem_append.mpr ⟨hBefore, hAfter⟩
  · intro hAll
    have hPadded : trimChars p (cs ++ [] ++ []) = [] :=
      trimChars_padded hAll (List.forall_mem_nil _) (isTrimmed_nil p)
    rwa [List.append_nil, List.append_nil] at hPadded

end Indexer.Text
