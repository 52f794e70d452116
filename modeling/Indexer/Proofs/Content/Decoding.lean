import Indexer.Content.Extract

/-! The text of a file that is neither a PDF file nor a Word document. Either the text encodes to the very
bytes of the file, or these are no UTF-8 and the text is empty, and then the file does not pass for a
plain text. -/
namespace Indexer

theorem ByteArray.toList_eq (data : ByteArray) : data.toList = data.data.toList := by
  have hLoop (i : Nat) (taken : List UInt8) :
      ByteArray.toList.loop data i taken = taken.reverse ++ data.data.toList.drop i := by
    induction i, taken using ByteArray.toList.loop.induct data with
    | case1 i taken hIn ih =>
        have hNext : data.data.toList.drop i = data.get! i :: data.data.toList.drop (i + 1) := by
          rw [List.drop_eq_getElem_cons (by simpa using hIn)]
          simp [ByteArray.get!, hIn]
        rw [ByteArray.toList.loop, if_pos hIn, ih, hNext, List.reverse_cons, List.append_assoc]
        rfl
    | case2 i taken hOut =>
        rw [ByteArray.toList.loop, if_neg hOut, List.drop_of_length_le (by simpa using hOut),
          List.append_nil]
  exact hLoop 0 []

namespace Content

variable {data : ByteArray} {name : Option String}

/-- A character in one byte, as far as there is one for it. -/
def latin1Byte? (c : Char) : Option UInt8 :=
  if c.toNat < 256 then some (UInt8.ofNat c.toNat) else none

/-- The bytes of a text with one byte for each character. -/
def latin1Bytes? (s : String) : Option ByteArray := (s.toList.mapM latin1Byte?).map List.toByteArray

theorem latin1Byte?_ofNat (b : UInt8) : latin1Byte? (Char.ofNat b.toNat) = some b := by
  have hByte := b.toNat_lt
  have hValid : b.toNat.isValidChar := .inl (by omega)
  have hCode : (Char.ofNat b.toNat).toNat = b.toNat := by
    rw [Char.ofNat, dif_pos hValid]
    rfl
  rw [latin1Byte?, hCode, if_pos hByte, UInt8.ofNat_toNat]

theorem latin1Bytes?_latin1 (data : ByteArray) : latin1Bytes? (latin1 data) = some data := by
  have hBytes : latin1Byte? ∘ (fun b : UInt8 => Char.ofNat b.toNat) = fun b => pure b :=
    funext latin1Byte?_ofNat
  have hData : data.data.toList.toByteArray = data := by
    apply ByteArray.ext
    rw [← Array.toList_inj, List.toList_data_toByteArray]
  rw [latin1Bytes?, latin1, String.toList_ofList, List.mapM_map, hBytes, List.mapM_pure,
    List.map_id', ByteArray.toList_eq]
  exact congrArg some hData

theorem toUTF8_of_fromUTF8? {text : String} (h : String.fromUTF8? data = some text) :
    text.toUTF8 = data := by
  rw [String.fromUTF8?] at h
  split at h
  · obtain rfl := Option.some.inj h
    rfl
  · cases h

theorem fromUTF8?_eq_none_iff : String.fromUTF8? data = none ↔ ¬data.IsValidUTF8 := by
  rw [String.fromUTF8?]
  split <;> simp_all

/-- The name promises a text, and there is nothing in the bytes that no text has. -/
def PassesForText (data : ByteArray) (hint : Option String) : Prop :=
  (∃ mediaType, hint = some mediaType ∧ mediaType.startsWith "text/" = true) ∧ 0 ∉ data.data.toList

/-- How some bytes are decoded, by the type that was suggested for them. -/
inductive Decoded (data : ByteArray) (hint : Option String) (c : Content) : Prop where
  | utf8 (hText : c.text.toUTF8 = data) (hType : c.mediaType = hint.getD MediaType.plainText)
  /-- A text of an older kind. -/
  | latin1 (hInvalid : ¬data.IsValidUTF8) (hPasses : PassesForText data hint)
      (hText : latin1Bytes? c.text = some data) (hType : c.mediaType = hint.getD MediaType.plainText)
  /-- There is no text that could be searched. -/
  | none (hInvalid : ¬data.IsValidUTF8) (hFails : ¬PassesForText data hint) (hText : c.text = "")
      (hType : c.mediaType ≠ MediaType.plainText)

/-- Any bytes are decoded in one of these ways, whatever is suggested for them. -/
theorem decoded_ofText (data : ByteArray) (hint : Option String) :
    Decoded data hint (ofText data (hint.getD MediaType.plainText) hint.isSome) := by
  rw [ofText]
  cases hUTF8 : String.fromUTF8? data with
  | some text => exact .utf8 (toUTF8_of_fromUTF8? hUTF8) rfl
  | none =>
      have hInvalid := fromUTF8?_eq_none_iff.mp hUTF8
      have hPasses : (hint.isSome && (hint.getD MediaType.plainText).startsWith "text/" &&
          !data.toList.contains 0) = true ↔ PassesForText data hint := by
        rw [PassesForText, ByteArray.toList_eq]
        cases hint <;> simp
      dsimp only
      split
      · next hText => exact .latin1 hInvalid (hPasses.mp hText) (latin1Bytes?_latin1 data) rfl
      · next hBinary =>
          refine .none hInvalid (mt hPasses.mpr hBinary) rfl ?_
          dsimp only
          split
          · decide
          · next hOther => exact hOther

/-- Only a PDF file or a Word document is left to a reader from outside. -/
theorem extract_eq_ofText (readers : Readers) (hPdf : guess? data name ≠ some MediaType.pdf)
    (hWord : guess? data name ≠ some MediaType.word) :
    extract readers data name =
      .ok (ofText data ((guess? data name).getD MediaType.plainText) (guess? data name).isSome) := by
  have hKept (mediaType : String) (hOther : mediaType ≠ MediaType.plainText)
      (hGuess : guess? data name ≠ some mediaType) :
      (guess? data name).getD MediaType.plainText ≠ mediaType := by
    cases hHint : guess? data name with
    | none => exact hOther.symm
    | some hint => exact fun hSame => hGuess (hHint.trans (congrArg some hSame))
  rw [extract, if_neg (hKept _ (by decide) hPdf), if_neg (hKept _ (by decide) hWord)]

/-- The text of a file that does not count as a PDF file or a Word document can always be taken. Its UTF-8
bytes are those of the file; or these are no UTF-8, and it is written with one byte for each character if
the name promises a text and no byte is zero, and empty otherwise. A file whose bytes were not
decoded does not count as a plain text. -/
theorem extraction_is_lossless_or_empty (readers : Readers)
    (hPdf : guess? data name ≠ some MediaType.pdf) (hWord : guess? data name ≠ some MediaType.word) :
    ∃ c, extract readers data name = .ok c ∧ Decoded data (guess? data name) c :=
  ⟨_, extract_eq_ofText readers hPdf hWord, decoded_ofText data (guess? data name)⟩

/-- The menu of a café in one byte for each character. -/
theorem menu_is_decoded :
    let data : ByteArray := ⟨#[0x63, 0x61, 0x66, 0xE9]⟩
    let readers : Readers := ⟨fun _ => .error (.pdf .read "not a PDF"),
      fun _ => .error (.archive "File is not a zip file")⟩
    guess? data (some "menu.txt") = some "text/plain" ∧ ¬data.IsValidUTF8 ∧
      ∃ c, extract readers data (some "menu.txt") = .ok c ∧ c.text = "café" ∧
        Decoded data (some "text/plain") c := by
  intro data readers
  have hGuess : guess? data (some "menu.txt") = some "text/plain" := by decide +kernel
  have hPdf : guess? data (some "menu.txt") ≠ some MediaType.pdf := by decide +kernel
  have hWord : guess? data (some "menu.txt") ≠ some MediaType.word := by decide +kernel
  have hInvalid : ¬data.IsValidUTF8 := by decide +kernel
  obtain ⟨c, hContent, hDecoded⟩ := extraction_is_lossless_or_empty readers hPdf hWord
  rw [hGuess] at hDecoded
  refine ⟨hGuess, hInvalid, c, hContent, ?_, hDecoded⟩
  rw [extract_eq_ofText readers hPdf hWord] at hContent
  obtain rfl := Except.ok.inj hContent
  decide +kernel

end Content
end Indexer
