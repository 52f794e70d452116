import Indexer.Bulk.FailureClass
import Mathlib

/-! Names of errors in their two spellings. Older destinations run the words of a name
together, each with a capital, and put a package in front; newer ones join them by
underscores. Both come to the second spelling, so a failure is met in the same way
whichever protocol told of it. -/
namespace Indexer

namespace Text

variable {c : Char}

theorem ascii_of_plain (h : c.isLower = true ∨ c.isDigit = true) : c.toNat < 128 := by
  simp only [Char.isLower, Char.isDigit, Bool.and_eq_true, decide_eq_true_eq,
    UInt32.le_iff_toNat_le, ge_iff_le] at h
  rcases h with ⟨_, hLast⟩ | ⟨_, hLast⟩
  · exact Nat.lt_of_le_of_lt hLast (by decide)
  · exact Nat.lt_of_le_of_lt hLast (by decide)

theorem lowerChar_of_ascii (h : c.toNat < 128) : lowerChar c = c.toLower := by
  refine ascii_cases ?_ h
  decide +kernel

/-- In ASCII a letter is lower-cased in the same way wherever it stands. -/
theorem lowerChars_of_ascii {cs : List Char} (before : List Char) (h : ∀ c ∈ cs, c.toNat < 128) :
    lowerChars before cs = cs.map Char.toLower := by
  induction cs generalizing before with
  | nil => rfl
  | cons c cs ih =>
      have hFirst : c.toNat < 128 := h c List.mem_cons_self
      have hSigma : c ≠ '\u03a3' := fun hc => absurd (hc ▸ hFirst) (by decide)
      have hDotted : c ≠ '\u0130' := fun hc => absurd (hc ▸ hFirst) (by decide)
      rw [lowerChars, if_neg hSigma, if_neg hDotted, lowerChar_of_ascii hFirst,
        ih _ fun d hd => h d (List.mem_cons_of_mem c hd)]
      rfl

end Text

/-- A word of an error's name: a small letter, and at least one small letter or digit after it. -/
structure NameWord where
  head : Char
  tail : List Char
  head_isLower : head.isLower = true
  tail_ne_nil : tail ≠ []
  tail_plain : ∀ c ∈ tail, c.isLower = true ∨ c.isDigit = true

namespace NameWord

def small (w : NameWord) : List Char := w.head :: w.tail

def capitalized (w : NameWord) : List Char := w.head.toUpper :: w.tail

/-- The words run together, each with a capital. -/
def camelCase (words : List NameWord) : String := String.ofList (words.flatMap capitalized)

/-- The words joined by underscores. -/
def snakeCase (words : List NameWord) : String :=
  "_".intercalate (words.map fun w => String.ofList w.small)

variable {w : NameWord} {words : List NameWord} {c : Char}

theorem toList_snakeCase : (snakeCase words).toList = ['_'].intercalate (words.map small) := by
  simp [snakeCase, String.toList_intercalate, Function.comp_def]

/-- A character that the passes over a name leave where and as it is. -/
structure IsSmall (c : Char) : Prop where
  ascii : c.toNat < 128
  not_isUpper : c.isUpper = false
  toLower_eq : c.toLower = c
  ne_dot : c ≠ '.'

/-- A capital comes back as its small letter. -/
structure IsCapital (capital c : Char) : Prop where
  ascii : capital.toNat < 128
  isUpper : capital.isUpper = true
  toLower_eq : capital.toLower = c
  ne_dot : capital ≠ '.'

theorem not_isUpper_of_plain (h : c.isLower = true ∨ c.isDigit = true) : ¬c.isUpper = true := by
  rcases h with hLower | hDigit
  · exact Char.not_isUpper_of_isLower hLower
  · grind [Char.isDigit, Char.isUpper]

theorem isSmall_of_plain (h : c.isLower = true ∨ c.isDigit = true) : IsSmall c where
  ascii := Text.ascii_of_plain h
  not_isUpper := Bool.eq_false_of_not_eq_true (not_isUpper_of_plain h)
  toLower_eq := Char.toLower_eq_of_not_isUpper (not_isUpper_of_plain h)
  ne_dot := by
    rintro rfl
    exact absurd h (by decide)

theorem endsWord_of_plain (h : c.isLower = true ∨ c.isDigit = true) :
    FailureClass.endsWord c = true := by
  have hAscii := Text.ascii_of_plain h
  revert h
  refine Text.ascii_cases ?_ hAscii
  decide +kernel

theorem isCapital_toUpper (h : c.isLower = true) : IsCapital c.toUpper c := by
  have hUpper : c.toUpper.isUpper = true := by simp [Char.isAlpha, h]
  exact {
    ascii := Text.ascii_of_isUpper hUpper
    isUpper := hUpper
    toLower_eq := (Char.toLower_toUpper_eq_toLower c).trans (isSmall_of_plain (.inl h)).toLower_eq
    ne_dot := fun hDot => absurd (hDot ▸ hUpper) (by decide) }

theorem isCapital_head (w : NameWord) : IsCapital w.head.toUpper w.head :=
  isCapital_toUpper w.head_isLower

theorem isSmall_of_mem_tail (h : c ∈ w.tail) : IsSmall c := isSmall_of_plain (w.tail_plain c h)

theorem plain_of_all {cs : List Char} (h : cs.all (fun c => c.isLower || c.isDigit) = true) :
    ∀ c ∈ cs, c.isLower = true ∨ c.isDigit = true := by
  simpa using h

theorem mem_small (h : c ∈ w.small) : c.isLower = true ∨ c.isDigit = true := by
  rcases List.mem_cons.mp h with rfl | hTail
  · exact .inl w.head_isLower
  · exact w.tail_plain c hTail

theorem mem_capitalized (h : c ∈ w.capitalized) :
    c = w.head.toUpper ∨ c.isLower = true ∨ c.isDigit = true :=
  (List.mem_cons.mp h).imp_right (w.tail_plain c)

theorem map_toLower_capitalized (w : NameWord) : w.capitalized.map Char.toLower = w.small := by
  have hTail : w.tail.map Char.toLower = w.tail :=
    (List.map_congr_left fun c hc => (isSmall_of_mem_tail hc).toLower_eq).trans (List.map_id' _)
  rw [capitalized, List.map_cons, w.isCapital_head.toLower_eq, hTail, small]

theorem mem_intercalate {separator : List Char} {parts : List (List Char)}
    (h : c ∈ separator.intercalate parts) : c ∈ separator ∨ ∃ part ∈ parts, c ∈ part := by
  induction parts with
  | nil => cases h
  | cons part parts ih =>
      cases parts with
      | nil => exact .inr ⟨part, List.mem_cons_self, by simpa using h⟩
      | cons next parts =>
          rw [List.intercalate_cons_cons, List.mem_append, List.mem_append] at h
          rcases h with (hPart | hSeparator) | hRest
          · exact .inr ⟨part, List.mem_cons_self, hPart⟩
          · exact .inl hSeparator
          · exact (ih hRest).imp_right fun ⟨other, hOther, hc⟩ =>
              ⟨other, List.mem_cons_of_mem part hOther, hc⟩

theorem mem_snakeCase (h : c ∈ (snakeCase words).toList) :
    c = '_' ∨ c.isLower = true ∨ c.isDigit = true := by
  rw [toList_snakeCase] at h
  rcases mem_intercalate h with hUnderscore | ⟨part, hPart, hc⟩
  · exact .inl (List.mem_singleton.mp hUnderscore)
  · obtain ⟨w, _, rfl⟩ := List.mem_map.mp hPart
    exact .inr (mem_small hc)

theorem isSmall_of_mem_snakeCase (h : c ∈ (snakeCase words).toList) : IsSmall c := by
  rcases mem_snakeCase h with rfl | hPlain
  · exact ⟨by decide, by decide, by decide, by decide⟩
  · exact isSmall_of_plain hPlain

theorem ascii_of_mem_capitalized (h : c ∈ w.capitalized) : c.toNat < 128 := by
  rcases mem_capitalized h with rfl | hPlain
  · exact w.isCapital_head.ascii
  · exact Text.ascii_of_plain hPlain

theorem map_toLower_intercalate (words : List NameWord) :
    (['_'].intercalate (words.map capitalized)).map Char.toLower =
      ['_'].intercalate (words.map small) := by
  induction words with
  | nil => rfl
  | cons w words ih =>
      cases words with
      | nil => simpa using map_toLower_capitalized w
      | cons next words =>
          simp only [List.map_cons, List.intercalate_cons_cons, List.map_append,
            map_toLower_capitalized] at ih ⊢
          rw [ih]
          rfl

theorem not_dot_mem_flatMap (words : List NameWord) : '.' ∉ words.flatMap capitalized := by
  intro hDot
  obtain ⟨w, _, hWord⟩ := List.mem_flatMap.mp hDot
  rcases mem_capitalized hWord with hCapital | hPlain
  · exact w.isCapital_head.ne_dot hCapital.symm
  · exact (isSmall_of_plain hPlain).ne_dot rfl

end NameWord

namespace FailureClass

open NameWord

variable {w : NameWord} {words : List NameWord} {b : Char} {cs rest : List Char}

theorem splitWords_cons_cons (a : Char) :
    splitWords (a :: b :: rest) =
      a :: ((if endsWord a && b.isUpper then ['_'] else []) ++ splitWords (b :: rest)) := by
  have hUpper : (decide ('A' ≤ b) && decide (b ≤ 'Z')) = b.isUpper := by
    simp [Char.isUpper, Char.le_def]
  rw [splitWords, hUpper]
  split <;> rfl

/-- Where there is no capital there is nothing to split. -/
theorem splitWords_of_small (h : ∀ c ∈ cs, c.isUpper = false) : splitWords cs = cs := by
  induction cs with
  | nil => rfl
  | cons a cs ih =>
      have hRest := ih fun c hc => h c (List.mem_cons_of_mem a hc)
      cases cs with
      | nil => rfl
      | cons b cs =>
          rw [splitWords_cons_cons, h b (by simp), Bool.and_false, hRest]
          rfl

/-- A capital after the end of a word starts the next one. -/
theorem splitWords_append (hSome : cs ≠ [])
    (hPlain : ∀ c ∈ cs, endsWord c = true ∧ c.isUpper = false) (hCapital : b.isUpper = true) :
    splitWords (cs ++ b :: rest) = cs ++ '_' :: splitWords (b :: rest) := by
  induction cs with
  | nil => exact absurd rfl hSome
  | cons a cs ih =>
      cases cs with
      | nil =>
          rw [List.singleton_append, splitWords_cons_cons, (hPlain a (by simp)).1, hCapital]
          rfl
      | cons d cs =>
          have hRest := ih (List.cons_ne_nil d cs) fun c hc => hPlain c (List.mem_cons_of_mem a hc)
          rw [List.cons_append] at hRest
          rw [List.cons_append, List.cons_append, splitWords_cons_cons, (hPlain d (by simp)).2,
            Bool.and_false, hRest]
          rfl

theorem splitWords_capitalized_append :
    splitWords (w.capitalized ++ rest) = w.head.toUpper :: splitWords (w.tail ++ rest) := by
  obtain ⟨d, more, hTail⟩ := List.exists_cons_of_ne_nil w.tail_ne_nil
  have hSmall : IsSmall d := isSmall_of_mem_tail (hTail ▸ List.mem_cons_self)
  rw [capitalized, List.cons_append, hTail, List.cons_append, splitWords_cons_cons,
    hSmall.not_isUpper, Bool.and_false]
  rfl

/-- A name in capitals is split into its words. -/
theorem splitWords_flatMap (words : List NameWord) :
    splitWords (words.flatMap capitalized) = ['_'].intercalate (words.map capitalized) := by
  induction words with
  | nil => rfl
  | cons w words ih =>
      have hTail : ∀ c ∈ w.tail, endsWord c = true ∧ c.isUpper = false := fun c hc =>
        ⟨endsWord_of_plain (w.tail_plain c hc), (isSmall_of_mem_tail hc).not_isUpper⟩
      rw [List.flatMap_cons, splitWords_capitalized_append]
      cases words with
      | nil =>
          rw [List.flatMap_nil, List.append_nil, splitWords_of_small fun c hc => (hTail c hc).2,
            List.map_singleton, List.intercalate_singleton, capitalized]
      | cons next words =>
          have hNext : (next :: words).flatMap capitalized =
              next.head.toUpper :: (next.tail ++ words.flatMap capitalized) := rfl
          rw [hNext, splitWords_append w.tail_ne_nil hTail next.isCapital_head.isUpper,
            ← hNext, ih, List.map_cons, List.map_cons, List.map_cons, List.intercalate_cons_cons]
          simp [capitalized]

theorem all_ne_dot (h : '.' ∉ cs) : ∀ c ∈ cs.reverse, decide (c ≠ '.') = true := fun _ hc =>
  decide_eq_true fun hDot => h (hDot ▸ List.mem_reverse.mp hc)

theorem lastComponent_of_no_dot (h : '.' ∉ cs) : lastComponent cs = cs := by
  rw [lastComponent, List.takeWhile_eq_self_iff.mpr (all_ne_dot h), List.reverse_reverse]

theorem lastComponent_append (path : List Char) (h : '.' ∉ cs) :
    lastComponent (path ++ '.' :: cs) = cs := by
  rw [lastComponent, List.reverse_append, List.reverse_cons, List.append_assoc,
    List.takeWhile_append_of_pos (all_ne_dot h)]
  simp

theorem normalize_camelCase {package : String} (hPackage : package = "" ∨ ∃ path, package = path ++ ".")
    (words : List NameWord) : normalize (some (package ++ camelCase words)) = snakeCase words := by
  have hLast : lastComponent (package ++ camelCase words).toList = words.flatMap capitalized := by
    have hDot := not_dot_mem_flatMap words
    rcases hPackage with rfl | ⟨path, rfl⟩
    · simpa [camelCase] using lastComponent_of_no_dot hDot
    · simpa [camelCase] using lastComponent_append path.toList hDot
  have hAscii : ∀ c ∈ ['_'].intercalate (words.map capitalized), c.toNat < 128 := by
    intro c hc
    rcases mem_intercalate hc with hUnderscore | ⟨part, hPart, hc⟩
    · rw [List.mem_singleton.mp hUnderscore]
      decide
    · obtain ⟨w, _, rfl⟩ := List.mem_map.mp hPart
      exact ascii_of_mem_capitalized hc
  rw [normalize, hLast, splitWords_flatMap, Text.lowerChars_of_ascii [] hAscii,
    map_toLower_intercalate, ← toList_snakeCase, String.ofList_toList]

theorem normalize_snakeCase (words : List NameWord) :
    normalize (some (snakeCase words)) = snakeCase words := by
  have hNoDot : '.' ∉ (snakeCase words).toList := fun hDot => (isSmall_of_mem_snakeCase hDot).ne_dot rfl
  have hSmall : (snakeCase words).toList.map Char.toLower = (snakeCase words).toList :=
    (List.map_congr_left fun c hc => (isSmall_of_mem_snakeCase hc).toLower_eq).trans (List.map_id' _)
  rw [normalize, lastComponent_of_no_dot hNoDot,
    splitWords_of_small fun c hc => (isSmall_of_mem_snakeCase hc).not_isUpper,
    Text.lowerChars_of_ascii [] fun c hc => (isSmall_of_mem_snakeCase hc).ascii, hSmall,
    String.ofList_toList]

/-- A name comes to the same text in both spellings, from whatever package it is, and that text is
the newer spelling. So failures of both kinds are of one class, whatever their status. -/
theorem spellings_are_treated_alike (package : String) (words : List NameWord)
    (hPackage : package = "" ∨ ∃ path, package = path ++ ".") :
    normalize (some (package ++ camelCase words)) = snakeCase words ∧
      normalize (some (snakeCase words)) = snakeCase words ∧
      ∀ status, of status (some (package ++ camelCase words)) = of status (some (snakeCase words)) := by
  have hCamel := normalize_camelCase hPackage words
  have hSnake := normalize_snakeCase words
  refine ⟨hCamel, hSnake, fun status => ?_⟩
  rw [of, of, hCamel, hSnake]

/-- A lost connection, told of in both spellings. -/
theorem connectTransport_is_treated_alike :
    let words : List NameWord :=
      [⟨'c', ['o', 'n', 'n', 'e', 'c', 't'], by decide, by decide, plain_of_all (by decide)⟩,
        ⟨'t', ['r', 'a', 'n', 's', 'p', 'o', 'r', 't'], by decide, by decide, plain_of_all (by decide)⟩,
        ⟨'v', ['2'], by decide, by decide, plain_of_all (by decide)⟩,
        ⟨'e', ['x', 'c', 'e', 'p', 't', 'i', 'o', 'n'], by decide, by decide, plain_of_all (by decide)⟩]
    "org.transport." ++ camelCase words = "org.transport.ConnectTransportV2Exception" ∧
      snakeCase words = "connect_transport_v2_exception" ∧
      normalize (some "org.transport.ConnectTransportV2Exception") = snakeCase words ∧
      of none (some "org.transport.ConnectTransportV2Exception") = .connectivity := by
  intro words
  have hCamel : "org.transport." ++ camelCase words = "org.transport.ConnectTransportV2Exception" := by
    decide +kernel
  obtain ⟨hNormal, _, hClass⟩ :=
    spellings_are_treated_alike "org.transport." words (.inr ⟨"org.transport", by decide⟩)
  rw [hCamel] at hNormal hClass
  refine ⟨hCamel, by decide +kernel, hNormal, (hClass none).trans ?_⟩
  decide +kernel

/-- A word of one letter is all capital, and its end is not seen. -/
example : normalize (some "ABTest") = "abtest" := by decide +kernel

end FailureClass
end Indexer
