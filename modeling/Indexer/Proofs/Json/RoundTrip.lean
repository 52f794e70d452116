import Indexer.Proofs.Json.Quotation
import Mathlib.Data.List.Basic

/-! Values read back. A plain value, whose numbers are whole and whose objects have no key twice, is
read back from its text in every style that separates as JSON does, and its text is one line. The
length of the text bounds how deep the reader has to go. -/
namespace Indexer.Json

open Indexer.Number Indexer.Text

/-- Numbers are whole, and no object has a key twice. -/
inductive IsPlain : Json → Prop where
  | null : IsPlain .null
  | bool (b : Bool) : IsPlain (.bool b)
  | int (i : Int) : IsPlain (.number (.int i))
  | str (s : String) : IsPlain (.str s)
  | arr {items : List Json} (hItems : ∀ v ∈ items, IsPlain v) : IsPlain (.arr items)
  | obj {fields : List (String × Json)} (hKeys : (fields.map (·.1)).Nodup)
      (hFields : ∀ f ∈ fields, IsPlain f.2) : IsPlain (.obj fields)

/-- The parts of a text are separated by the marks of JSON, with blanks at most behind them. -/
structure Style.Separates (st : Style) : Prop where
  comma : ∃ blanks, st.comma.toList = ',' :: blanks ∧ ∀ c ∈ blanks, isSpace c = true
  colon : ∃ blanks, st.colon.toList = ':' :: blanks ∧ ∀ c ∈ blanks, isSpace c = true

section Numbers

/-- What follows cannot be taken for a part of a number. -/
def EndsNumber (rest : List Char) : Prop :=
  ∀ c ∈ rest.head?, c.isDigit = false ∧ c ≠ '.' ∧ c ≠ 'e' ∧ c ≠ 'E'

theorem isDigit_of_mem_decimalDigits {n : Nat} {c : Char} (h : c ∈ decimalDigits n) :
    c.isDigit = true :=
  Nat.isDigit_of_mem_toDigits (by decide) (by decide) h

theorem ofDigits_decimalDigits (n : Nat) : ofDigits (decimalDigits n) = n := by
  have hDigits := Nat.ofDigitChars_ten_toDigits (n := n)
  rwa [Nat.ofDigitChars_eq_foldl] at hDigits

theorem decimalDigits_ne_nil (n : Nat) : decimalDigits n ≠ [] := Nat.toDigits_ne_nil

/-- Only the digits of zero begin with a zero. -/
theorem head_decimalDigits {n : Nat} (hPositive : 0 < n) : (decimalDigits n).head? ≠ some '0' := by
  induction n using Nat.strongRecOn with
  | _ n ih =>
      by_cases hSmall : n < 10
      · rw [decimalDigits, Nat.toDigits_of_lt_base hSmall]
        have hDigit : ∀ k < 10, 0 < k → [k.digitChar].head? ≠ some '0' := by decide
        exact hDigit n hSmall hPositive
      · rw [decimalDigits, Nat.toDigits_of_base_le (by decide) (by omega),
          List.head?_append_of_ne_nil _ Nat.toDigits_ne_nil]
        exact ih (n / 10) (by omega) (by omega)

/-- The digits of a number are all that is taken for its whole part. -/
theorem takeWhile_decimalDigits (n : Nat) {rest : List Char} (hEnds : EndsNumber rest) :
    (decimalDigits n ++ rest).takeWhile Char.isDigit = decimalDigits n := by
  have hRest : rest.takeWhile Char.isDigit = [] := by
    cases rest with
    | nil => rfl
    | cons c rest => exact List.takeWhile_cons_of_neg (by simp [(hEnds c rfl).1])
  rw [List.takeWhile_append_of_pos fun c => isDigit_of_mem_decimalDigits, hRest, List.append_nil]

/-- A number without a fraction and an exponent. -/
theorem readNumber?_decimalDigits (negative : Bool) (n : Nat) {rest : List Char}
    (hEnds : EndsNumber rest) :
    readNumber? ((if negative then ['-'] else []) ++ (decimalDigits n ++ rest)) =
      some (.int (if negative then -n else n), rest) := by
  have hValue := ofDigits_decimalDigits n
  rcases Nat.eq_zero_or_pos n with rfl | hPositive
  · rw [decimalDigits, Nat.toDigits_zero] at hValue ⊢
    cases rest with
    | nil => cases negative <;> simp [readNumber?, hValue]
    | cons c rest =>
        obtain ⟨_, hPoint, hLower, hUpper⟩ := hEnds c rfl
        cases negative <;> simp [readNumber?, hValue, hPoint, hLower, hUpper]
  · have hTake := takeWhile_decimalDigits n hEnds
    have hDrop : (decimalDigits n ++ rest).drop (decimalDigits n).length = rest := List.drop_left
    obtain ⟨d, ds, hDigits⟩ := List.exists_cons_of_ne_nil (decimalDigits_ne_nil n)
    have hZero : d ≠ '0' := fun hSame => head_decimalDigits hPositive (by rw [hDigits, hSame]; rfl)
    have hMinus : d ≠ '-' := by
      rintro rfl
      cases isDigit_of_mem_decimalDigits (hDigits ▸ List.mem_cons_self)
    rw [hDigits, List.cons_append] at hTake hDrop ⊢
    rw [hDigits] at hValue
    rw [List.length_cons, List.drop_succ_cons] at hDrop
    generalize ds ++ rest = tail at *
    cases rest with
    | nil => cases negative <;> simp [readNumber?, hMinus, hZero, hTake, hDrop, hValue]
    | cons c rest =>
        obtain ⟨_, hPoint, hLower, hUpper⟩ := hEnds c rfl
        cases negative <;>
          simp [readNumber?, hMinus, hZero, hTake, hDrop, hValue, hPoint, hLower, hUpper]

theorem toList_signedDecimal (i : Int) :
    (signedDecimal i).toList = (if i < 0 then ['-'] else []) ++ decimalDigits i.natAbs := by
  unfold signedDecimal decimal
  split <;> simp

theorem readNumber?_signedDecimal (i : Int) {rest : List Char} (hEnds : EndsNumber rest) :
    readNumber? ((signedDecimal i).toList ++ rest) = some (.int i, rest) := by
  have hRead := readNumber?_decimalDigits (decide (i < 0)) i.natAbs hEnds
  simp only [decide_eq_true_eq] at hRead
  rw [toList_signedDecimal, List.append_assoc, hRead]
  congr 3
  omega

/-- A whole number begins with a digit, perhaps after a minus sign. -/
theorem signedDecimal_cases (i : Int) : ∃ d ds, d.isDigit = true ∧
    ((signedDecimal i).toList = d :: ds ∨ (signedDecimal i).toList = '-' :: d :: ds) := by
  obtain ⟨d, ds, hDigits⟩ := List.exists_cons_of_ne_nil (decimalDigits_ne_nil i.natAbs)
  refine ⟨d, ds, isDigit_of_mem_decimalDigits (hDigits ▸ List.mem_cons_self), ?_⟩
  rw [toList_signedDecimal, hDigits]
  split
  · exact .inr rfl
  · exact .inl rfl

theorem ne_of_isDigit {d c : Char} (hDigit : d.isDigit = true) (hNone : c.isDigit = false) :
    d ≠ c := by
  rintro rfl
  rw [hDigit] at hNone
  cases hNone

/-- Everything that begins with none of the marks and words of JSON is left to the numbers. -/
theorem readValue?_of_notMem {c : Char} (h : c ∉ ['"', '[', '\x7b', 'n', 't', 'f']) (fuel : Nat)
    (cs : List Char) : readValue? (fuel + 1) (c :: cs) =
      (readNamed? (c :: cs) <|> readNumber? (c :: cs)).map fun p => (.number p.1, p.2) := by
  simp only [List.mem_cons, List.not_mem_nil, not_or, or_false] at h
  simp [readValue?, h]

/-- A whole number is no name, and it begins like no other value. -/
theorem readValue?_int (fuel : Nat) (i : Int) {rest : List Char} (hEnds : EndsNumber rest) :
    readValue? (fuel + 1) ((signedDecimal i).toList ++ rest) = some (.number (.int i), rest) := by
  have hRead := readNumber?_signedDecimal i hEnds
  obtain ⟨d, ds, hDigit, hText⟩ := signedDecimal_cases i
  have hN : 'N' ≠ d := (ne_of_isDigit hDigit rfl).symm
  have hI : 'I' ≠ d := (ne_of_isDigit hDigit rfl).symm
  rcases hText with hText | hText
  · have hMark : d ∉ ['"', '[', '\x7b', 'n', 't', 'f'] := fun hMem =>
      have hNone : ['"', '[', '\x7b', 'n', 't', 'f'].all (!·.isDigit) = true := rfl
      ne_of_isDigit hDigit (by simpa using List.all_eq_true.mp hNone d hMem) rfl
    have hMinus : '-' ≠ d := (ne_of_isDigit hDigit rfl).symm
    rw [hText, List.cons_append] at hRead ⊢
    rw [readValue?_of_notMem hMark, hRead]
    simp [readNamed?, expect?, hN, hI, hMinus]
  · rw [hText, List.cons_append, List.cons_append] at hRead ⊢
    rw [readValue?_of_notMem (by decide), hRead]
    simp [readNamed?, expect?, hI]

end Numbers

section Objects

theorem setField_of_notMem {fields : List (String × Json)} {key : String}
    (h : key ∉ fields.map (·.1)) (value : Json) :
    setField fields key value = fields ++ [(key, value)] := by
  have hNone : fields.any (·.1 = key) = false := by
    simp only [List.any_eq_false, decide_eq_true_eq]
    exact fun f hf hSame => h (hSame ▸ List.mem_map_of_mem hf)
  rw [setField, hNone]
  rfl

/-- Where no key comes twice, every field counts. -/
theorem ofFields_of_nodup {fields : List (String × Json)} (h : (fields.map (·.1)).Nodup) :
    ofFields fields = .obj fields := by
  have hFold : ∀ more before : List (String × Json), ((before ++ more).map (·.1)).Nodup →
      more.foldl (fun fields e => setField fields e.1 e.2) before = before ++ more := by
    intro more
    induction more with
    | nil => exact fun before _ => (List.append_nil before).symm
    | cons f more ih =>
        intro before hNodup
        have hNew : f.1 ∉ before.map (·.1) := by
          rw [List.map_append, List.nodup_append] at hNodup
          exact fun hMem => hNodup.2.2 _ hMem _ List.mem_cons_self rfl
        rw [List.foldl_cons, setField_of_notMem hNew, ih _ (by simpa using hNodup),
          List.append_assoc, List.singleton_append]
  exact congrArg obj (hFold fields [] h)

end Objects

section Blanks

theorem skipSpace_cons {c : Char} (h : isSpace c = false) (cs : List Char) :
    skipSpace (c :: cs) = c :: cs := List.dropWhile_cons_of_neg (by simp [h])

theorem skipSpace_append {blanks : List Char} (h : ∀ c ∈ blanks, isSpace c = true)
    (cs : List Char) : skipSpace (blanks ++ cs) = skipSpace cs :=
  List.dropWhile_append_of_pos h

/-- No value begins with a blank, or with the end of an array. -/
theorem head_renderChars (st : Style) {v : Json} (h : v.IsPlain) :
    ∃ c cs, renderChars st v = c :: cs ∧ isSpace c = false ∧ c ≠ ']' := by
  cases h with
  | null => exact ⟨_, _, rfl, by decide, by decide⟩
  | bool b => cases b <;> exact ⟨_, _, rfl, by decide, by decide⟩
  | int i =>
      obtain ⟨d, ds, hDigit, hText | hText⟩ := signedDecimal_cases i
      · have hSpace : isSpace d = false := by
          simp [isSpace, ne_of_isDigit hDigit (c := ' ') rfl, ne_of_isDigit hDigit (c := '\n') rfl,
            ne_of_isDigit hDigit (c := '\r') rfl, ne_of_isDigit hDigit (c := '\t') rfl]
        exact ⟨d, ds, hText, hSpace, ne_of_isDigit hDigit rfl⟩
      · exact ⟨'-', d :: ds, hText, by decide, by decide⟩
  | str s => exact ⟨_, _, rfl, by decide, by decide⟩
  | arr _ | obj _ _ => exact ⟨_, _, rfl, by decide, by decide⟩

theorem skipSpace_renderChars (st : Style) {v : Json} (h : v.IsPlain) (rest : List Char) :
    skipSpace (renderChars st v ++ rest) = renderChars st v ++ rest := by
  obtain ⟨c, cs, hText, hSpace, _⟩ := head_renderChars st h
  rw [hText]
  exact skipSpace_cons hSpace _

/-- Nor do the items of an array begin so. -/
theorem head_renderItems (st : Style) {v : Json} (h : v.IsPlain) (items : List Json) :
    ∃ c cs, renderItems st (v :: items) = c :: cs ∧ isSpace c = false ∧ c ≠ ']' := by
  obtain ⟨c, cs, hText, hMark⟩ := head_renderChars st h
  cases items with
  | nil => exact ⟨c, cs, hText, hMark⟩
  | cons w items =>
      refine ⟨c, cs ++ st.comma.toList ++ renderItems st (w :: items), ?_, hMark⟩
      rw [renderItems, hText]
      · rfl
      · simp

theorem head_renderFields (st : Style) (f : String × Json) (fields : List (String × Json)) :
    ∃ cs, renderFields st (f :: fields) = '"' :: cs := by
  obtain ⟨k, v⟩ := f
  cases fields with
  | nil => exact ⟨_, rfl⟩
  | cons g fields => exact ⟨_, rfl⟩

end Blanks

section Values

variable {st : Style}

/-- A value is read back from its text, whatever follows that does not belong to it. -/
def Style.Reads (st : Style) (v : Json) : Prop :=
  ∀ fuel rest, (renderChars st v).length ≤ fuel → EndsNumber rest →
    readValue? (fuel + 1) (renderChars st v ++ rest) = some (v, rest)

theorem readItems?_renderItems (hStyle : st.Separates) {items : List Json} (hSome : items ≠ [])
    (hPlain : ∀ v ∈ items, v.IsPlain) (hReads : ∀ v ∈ items, st.Reads v) {fuel : Nat}
    (hFuel : (renderItems st items).length + 1 < fuel) (rest : List Char) :
    readItems? fuel (renderItems st items ++ ']' :: rest) = some (items, rest) := by
  obtain ⟨blanks, hComma, hBlanks⟩ := hStyle.comma
  induction items generalizing fuel with
  | nil => exact absurd rfl hSome
  | cons v items ih =>
      obtain ⟨fuel, rfl⟩ : ∃ n, fuel = n + 2 := ⟨fuel - 2, by omega⟩
      cases items with
      | nil =>
          have hRead := hReads v List.mem_cons_self fuel (']' :: rest)
            (by rw [renderItems] at hFuel; omega) (by simp [EndsNumber])
          simp only [renderItems, readItems?, hRead]
          rfl
      | cons w items =>
          have hText : renderItems st (v :: w :: items) ++ ']' :: rest =
              renderChars st v ++
                ',' :: (blanks ++ (renderItems st (w :: items) ++ ']' :: rest)) := by
            simp [renderItems, hComma]
          have hLength : (renderItems st (v :: w :: items)).length = (renderChars st v).length + 1 +
              blanks.length + (renderItems st (w :: items)).length := by
            simp [renderItems, hComma]
            omega
          have hRead := hReads v List.mem_cons_self fuel
            (',' :: (blanks ++ (renderItems st (w :: items) ++ ']' :: rest))) (by omega)
            (by simp [EndsNumber])
          obtain ⟨c, cs, hHead, hSpace, _⟩ := head_renderItems st (hPlain w (by simp)) items
          have hNext : skipSpace (renderItems st (w :: items) ++ ']' :: rest) =
              renderItems st (w :: items) ++ ']' :: rest := by
            rw [hHead]
            exact skipSpace_cons hSpace _
          have hMore : readItems? (fuel + 1) (renderItems st (w :: items) ++ ']' :: rest) =
              some (w :: items, rest) :=
            ih (List.cons_ne_nil w items) (fun v hv => hPlain v (.tail _ hv))
              (fun v hv => hReads v (.tail _ hv)) (by omega)
          rw [hText, readItems?, hRead]
          simp only [skipSpace_cons (c := ',') rfl, skipSpace_append hBlanks, hNext, hMore]
          rfl

theorem quoteChars_append (ascii : Bool) (s : String) (rest : List Char) :
    quoteChars ascii s ++ rest = '"' :: (s.toList.flatMap (escapeChar ascii) ++ '"' :: rest) := by
  simp [quoteChars]

section Fields

variable (hStyle : st.Separates) (k : String) {v : Json} (hPlain : v.IsPlain) {fuel : Nat}
  {rest : List Char}
include hStyle hPlain

/-- A field is read, and the end of the object behind it. -/
theorem readFields?_last
    (hRead : readValue? fuel (renderChars st v ++ '\x7d' :: rest) = some (v, '\x7d' :: rest)) :
    readFields? (fuel + 1) (quoteChars st.ascii k ++ st.colon.toList ++ renderChars st v ++
      '\x7d' :: rest) = some ([(k, v)], rest) := by
  obtain ⟨blanks, hColon, hBlanks⟩ := hStyle.colon
  rw [List.append_assoc, List.append_assoc, quoteChars_append, readFields?, readString?_quote]
  simp only [hColon, List.cons_append, skipSpace_cons (c := ':') rfl, skipSpace_append hBlanks,
    skipSpace_renderChars st hPlain, hRead, skipSpace_cons (c := '\x7d') rfl]

/-- A field is read, and more of them behind the separator. -/
theorem readFields?_more {fields : List (String × Json)} {r : List Char}
    (hRead : readValue? fuel (renderChars st v ++ ',' :: rest) = some (v, ',' :: rest))
    (hMore : readFields? fuel (skipSpace rest) = some (fields, r)) :
    readFields? (fuel + 1) (quoteChars st.ascii k ++ st.colon.toList ++ renderChars st v ++
      ',' :: rest) = some ((k, v) :: fields, r) := by
  obtain ⟨blanks, hColon, hBlanks⟩ := hStyle.colon
  rw [List.append_assoc, List.append_assoc, quoteChars_append, readFields?, readString?_quote]
  simp only [hColon, List.cons_append, skipSpace_cons (c := ':') rfl, skipSpace_append hBlanks,
    skipSpace_renderChars st hPlain, hRead, skipSpace_cons (c := ',') rfl, hMore, Option.map_some]

end Fields

theorem readFields?_renderFields (hStyle : st.Separates) {fields : List (String × Json)}
    (hSome : fields ≠ []) (hPlain : ∀ f ∈ fields, f.2.IsPlain) (hReads : ∀ f ∈ fields, st.Reads f.2)
    {fuel : Nat} (hFuel : (renderFields st fields).length + 1 < fuel) (rest : List Char) :
    readFields? fuel (renderFields st fields ++ '\x7d' :: rest) = some (fields, rest) := by
  obtain ⟨blanks, hComma, hBlanks⟩ := hStyle.comma
  induction fields generalizing fuel with
  | nil => exact absurd rfl hSome
  | cons f fields ih =>
      obtain ⟨k, v⟩ := f
      obtain ⟨fuel, rfl⟩ : ∃ n, fuel = n + 2 := ⟨fuel - 2, by omega⟩
      have hPlainValue : v.IsPlain := hPlain (k, v) List.mem_cons_self
      have hReadsValue : st.Reads v := hReads (k, v) List.mem_cons_self
      cases fields with
      | nil =>
          have hLength : (renderFields st [(k, v)]).length = (quoteChars st.ascii k).length +
              st.colon.toList.length + (renderChars st v).length := by
            simp [renderFields]
            omega
          have hRead := hReadsValue fuel ('\x7d' :: rest) (by omega) (by simp [EndsNumber])
          rw [renderFields]
          exact readFields?_last hStyle k hPlainValue hRead
      | cons g fields =>
          have hText : renderFields st ((k, v) :: g :: fields) ++ '\x7d' :: rest =
              quoteChars st.ascii k ++ st.colon.toList ++ renderChars st v ++
                ',' :: (blanks ++ (renderFields st (g :: fields) ++ '\x7d' :: rest)) := by
            simp [renderFields, hComma]
          have hLength : (renderFields st ((k, v) :: g :: fields)).length =
              (quoteChars st.ascii k).length + st.colon.toList.length + (renderChars st v).length +
                1 + blanks.length + (renderFields st (g :: fields)).length := by
            simp [renderFields, hComma]
            omega
          have hRead := hReadsValue fuel
            (',' :: (blanks ++ (renderFields st (g :: fields) ++ '\x7d' :: rest))) (by omega)
            (by simp [EndsNumber])
          obtain ⟨cs, hHead⟩ := head_renderFields st g fields
          have hNext : skipSpace (renderFields st (g :: fields) ++ '\x7d' :: rest) =
              renderFields st (g :: fields) ++ '\x7d' :: rest := by
            rw [hHead]
            exact skipSpace_cons rfl _
          have hMore : readFields? (fuel + 1) (renderFields st (g :: fields) ++ '\x7d' :: rest) =
              some (g :: fields, rest) :=
            ih (List.cons_ne_nil g fields) (fun f hf => hPlain f (.tail _ hf))
              (fun f hf => hReads f (.tail _ hf)) (by omega)
          rw [hText]
          refine readFields?_more hStyle k hPlainValue hRead ?_
          rw [skipSpace_append hBlanks, hNext, hMore]

/-- A plain value is read back wherever it stands. -/
theorem IsPlain.reads (hStyle : st.Separates) {v : Json} (h : v.IsPlain) : st.Reads v := by
  induction h with
  | null => exact fun _ _ _ _ => rfl
  | bool b => cases b <;> exact fun _ _ _ _ => rfl
  | int i => exact fun fuel _ _ hEnds => readValue?_int fuel i hEnds
  | str s =>
      intro fuel rest _ _
      rw [renderChars, quoteChars_append, readValue?, readString?_quote]
      rfl
  | @arr items hItems ih =>
      intro fuel rest hFuel _
      rw [renderChars] at hFuel ⊢
      cases items with
      | nil => rfl
      | cons v items =>
          obtain ⟨c, cs, hHead, hSpace, hMark⟩ := head_renderItems st (hItems v (by simp)) items
          have hDeep : (renderItems st (v :: items)).length + 1 < fuel := by
            simp at hFuel
            omega
          have hRead := readItems?_renderItems hStyle (List.cons_ne_nil v items) hItems ih hDeep rest
          rw [hHead, List.cons_append] at hRead
          rw [hHead]
          simp [readValue?, skipSpace_cons hSpace, hMark, hRead]
  | @obj fields hKeys hFields ih =>
      intro fuel rest hFuel _
      rw [renderChars] at hFuel ⊢
      cases fields with
      | nil => rfl
      | cons f fields =>
          obtain ⟨cs, hHead⟩ := head_renderFields st f fields
          have hDeep : (renderFields st (f :: fields)).length + 1 < fuel := by
            simp at hFuel
            omega
          have hRead :=
            readFields?_renderFields hStyle (List.cons_ne_nil f fields) hFields ih hDeep rest
          rw [hHead, List.cons_append] at hRead
          rw [hHead]
          simp [readValue?, skipSpace_cons (c := '"') rfl, hRead, ofFields_of_nodup hKeys]

/-- A plain value is read back from its text. -/
theorem parse?_render (hStyle : st.Separates) {v : Json} (h : v.IsPlain) :
    parse? (v.render st) = some v := by
  have hRead := h.reads hStyle _ [] (Nat.le_refl _) (by simp [EndsNumber])
  have hBegin := skipSpace_renderChars st h []
  rw [List.append_nil] at hRead hBegin
  simp only [parse?, render, String.toList_ofList, hBegin, hRead]
  rfl

end Values

section Lines

variable {st : Style}

theorem mem_renderItems {c : Char} {items : List Json} (h : c ∈ renderItems st items) :
    c ∈ st.comma.toList ∨ ∃ v ∈ items, c ∈ renderChars st v := by
  induction items with
  | nil => cases h
  | cons v items ih =>
      cases items with
      | nil => exact .inr ⟨v, List.mem_cons_self, h⟩
      | cons w items =>
          simp only [renderItems, List.mem_append] at h
          rcases h with (hValue | hComma) | hMore
          · exact .inr ⟨v, List.mem_cons_self, hValue⟩
          · exact .inl hComma
          · exact (ih hMore).imp_right fun ⟨u, hu, hMem⟩ => ⟨u, .tail _ hu, hMem⟩

theorem mem_renderFields {c : Char} {fields : List (String × Json)}
    (h : c ∈ renderFields st fields) : c ∈ st.comma.toList ∨ c ∈ st.colon.toList ∨
      ∃ f ∈ fields, c ∈ quoteChars st.ascii f.1 ∨ c ∈ renderChars st f.2 := by
  induction fields with
  | nil => cases h
  | cons f fields ih =>
      obtain ⟨k, v⟩ := f
      cases fields with
      | nil =>
          simp only [renderFields, List.mem_append] at h
          rcases h with (hKey | hColon) | hValue
          · exact .inr (.inr ⟨_, List.mem_cons_self, .inl hKey⟩)
          · exact .inr (.inl hColon)
          · exact .inr (.inr ⟨_, List.mem_cons_self, .inr hValue⟩)
      | cons g fields =>
          simp only [renderFields, List.mem_append] at h
          rcases h with (((hKey | hColon) | hValue) | hComma) | hMore
          · exact .inr (.inr ⟨_, List.mem_cons_self, .inl hKey⟩)
          · exact .inr (.inl hColon)
          · exact .inr (.inr ⟨_, List.mem_cons_self, .inr hValue⟩)
          · exact .inl hComma
          · exact (ih hMore).imp_right (·.imp_right fun ⟨u, hu, hMem⟩ => ⟨u, .tail _ hu, hMem⟩)

/-- The text of a plain value is one line if the separators break none. -/
theorem IsPlain.line_notMem (hComma : '\n' ∉ st.comma.toList) (hColon : '\n' ∉ st.colon.toList)
    {v : Json} (h : v.IsPlain) : '\n' ∉ renderChars st v := by
  induction h with
  | null => simp [renderChars]
  | bool b => cases b <;> simp [renderChars]
  | int i =>
      intro hMem
      rw [renderChars, toList_signedDecimal, List.mem_append] at hMem
      rcases hMem with hSign | hDigit
      · split at hSign <;> simp at hSign
      · cases isDigit_of_mem_decimalDigits hDigit
  | str s => exact line_notMem_quoteChars st.ascii s
  | arr _ ih =>
      intro hMem
      simp only [renderChars, List.mem_cons, List.mem_append, List.not_mem_nil, or_false] at hMem
      rcases hMem with hMark | hItems | hMark
      · cases hMark
      · rcases mem_renderItems hItems with hMark | ⟨v, hv, hValue⟩
        · exact hComma hMark
        · exact ih v hv hValue
      · cases hMark
  | obj _ _ ih =>
      intro hMem
      simp only [renderChars, List.mem_cons, List.mem_append, List.not_mem_nil, or_false] at hMem
      rcases hMem with hMark | hFields | hMark
      · cases hMark
      · rcases mem_renderFields hFields with hMark | hMark | ⟨f, hf, hKey | hValue⟩
        · exact hComma hMark
        · exact hColon hMark
        · exact line_notMem_quoteChars st.ascii f.1 hKey
        · exact ih f hf hValue
      · cases hMark

end Lines
end Indexer.Json
