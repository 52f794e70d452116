import Indexer.Number.Reading
import Mathlib

/-! When a numeral is read as the value that is no number. No decimal is, however long it is and
however great its exponent: it comes to an infinity or to zero where the range of doubles ends. So
that value has to be spelled by its name, for which the case of the letters, a sign and the white
space around do not count. -/
namespace Indexer.Number

open Float.Model Float.Model.UnpackedFloat

section Doubles

variable {u v : UnpackedFloat} {x : Float}

theorem unpack_eq_notANumber_iff {b : BitVec Format.binary64.numBits} :
    UnpackedFloat.unpack .binary64 b = .notANumber ↔
      unpackExponent b = -1#_ ∧ unpackMantissa b ≠ 0#_ := by
  unfold UnpackedFloat.unpack
  dsimp only
  split_ifs with hExponent hMantissa <;> simp_all

/-- Packing may lose digits or leave the range of doubles, but a number stays one. -/
theorem unpack_pack_eq_notANumber_iff :
    (Float.Model.pack u).unpack = .notANumber ↔ u = .notANumber := by
  refine ⟨fun h => ?_, fun h => by rw [h]; rfl⟩
  obtain ⟨hExponent, hMantissa⟩ := unpack_eq_notANumber_iff.1 h
  simp only [Float.Model.pack] at hExponent hMantissa
  cases u with
  | notANumber => rfl
  | infinity s => simp [UnpackedFloat.pack, packedInfinity] at hMantissa
  | zero s => simp [UnpackedFloat.pack, packedZero] at hMantissa
  | finite s m e hm =>
      simp only [UnpackedFloat.pack] at hExponent hMantissa
      split_ifs at hExponent hMantissa with hHuge hNormal
      · simp [packedInfinity] at hMantissa
      · -- A normal double has an exponent below the greatest one, which is kept for infinities.
        rw [unpackExponent_packComponents] at hExponent
        have hField := congrArg BitVec.toNat hExponent
        simp only [BitVec.toNat_ofNat, BitVec.toNat_neg, Nat.not_le] at hField hHuge
        omega
      · simp at hExponent

/-- The fields of a double that is no number are those of the model's one such value. -/
theorem dyadic_eq_nan_iff : dyadic x = .nan ↔ x.toModel.unpack = .notANumber := by
  have hExponent : x.toBits.toNat >>> 52 % 2048 = 2047 ↔
      @unpackExponent .binary64 x.toModel.toBits.toBitVec = -1#_ := by
    rw [← BitVec.toNat_inj]
    simp [unpackExponent, Float.toBits]
  have hMantissa : x.toBits.toNat % hiddenBit = 0 ↔
      @unpackMantissa .binary64 x.toModel.toBits.toBitVec = 0#_ := by
    rw [← BitVec.toNat_inj]
    simp [unpackMantissa, Float.toBits, hiddenBit]
  rw [Float.Model.unpack, unpack_eq_notANumber_iff, ← hExponent, Ne, ← hMantissa, dyadic]
  split_ifs <;> simp_all

theorem dyadic_pack_eq_nan_iff : dyadic (.ofModel (.pack u)) = .nan ↔ u = .notANumber :=
  dyadic_eq_nan_iff.trans unpack_pack_eq_notANumber_iff

theorem roundWithAccuracy_ne_notANumber (s : Sign) (m : Nat) (e : Int) (a : Accuracy) :
    roundWithAccuracy .binary64 s m e a ≠ .notANumber := by
  unfold roundWithAccuracy
  dsimp only
  split_ifs <;> exact UnpackedFloat.noConfusion

/-- A value with digits: not zero, not infinite, and a number. -/
def hasMantissa : UnpackedFloat → Bool
  | .finite .. => true
  | _ => false

theorem mul_ne_notANumber (hu : u ≠ .notANumber) (hv : hasMantissa v = true) :
    UnpackedFloat.mul .binary64 u v ≠ .notANumber := by
  cases v with
  | finite s m e hm =>
      cases u with
      | notANumber => exact absurd rfl hu
      | infinity => exact UnpackedFloat.noConfusion
      | zero => exact UnpackedFloat.noConfusion
      | finite => exact fun h => roundWithAccuracy_ne_notANumber _ _ _ _ h
  | _ => cases hv

theorem div_ne_notANumber (hu : u ≠ .notANumber) (hv : hasMantissa v = true) :
    UnpackedFloat.div .binary64 u v ≠ .notANumber := by
  cases v with
  | finite s m e hm =>
      cases u with
      | notANumber => exact absurd rfl hu
      | infinity => exact UnpackedFloat.noConfusion
      | zero => exact UnpackedFloat.noConfusion
      | finite => exact fun h => roundWithAccuracy_ne_notANumber _ _ _ _ h
  | _ => cases hv

theorem unpack_toFloat_ne_notANumber (n : UInt64) : n.toFloat.toModel.unpack ≠ .notANumber := by
  intro h
  have hWhole := unpack_pack_eq_notANumber_iff.1 h
  unfold UnpackedFloat.ofUInt64 UnpackedFloat.ofNat UnpackedFloat.ofInt
    UnpackedFloat.normalize at hWhole
  split at hWhole
  · exact roundWithAccuracy_ne_notANumber _ _ _ _ hWhole
  · cases hWhole
  · exact roundWithAccuracy_ne_notANumber _ _ _ _ hWhole

theorem hasMantissa_powerOfTen :
    ∀ p ∈ Float.exactlyRepresentablePowersOfTen, hasMantissa p.toModel.unpack = true :=
  Array.all_eq_true_iff_forall_mem.1 (by decide +kernel)

theorem dyadic_ofScientific_ne_nan (m : Nat) (negative : Bool) (e : Nat) :
    dyadic (Float.ofScientific m negative e) ≠ .nan := by
  -- Short decimals are one operation on two doubles, all others are rounded once from whole numbers.
  unfold Float.ofScientific
  split_ifs with hShort hNegative
  · exact fun h => div_ne_notANumber (unpack_toFloat_ne_notANumber _)
      (hasMantissa_powerOfTen _ (Array.getElem_mem _)) (dyadic_pack_eq_nan_iff.1 h)
  · exact fun h => mul_ne_notANumber (unpack_toFloat_ne_notANumber _)
      (hasMantissa_powerOfTen _ (Array.getElem_mem _)) (dyadic_pack_eq_nan_iff.1 h)
  all_goals
    intro h
    have hRounded := dyadic_pack_eq_nan_iff.1 h
    unfold UnpackedFloat.ofScientific at hRounded
    split_ifs at hRounded
    · exact mul_ne_notANumber UnpackedFloat.noConfusion rfl hRounded
    · exact div_ne_notANumber UnpackedFloat.noConfusion rfl hRounded

theorem dyadic_scientific_ne_nan (m : Nat) (e : Int) : dyadic (scientific m e) ≠ .nan := by
  unfold scientific
  dsimp only
  split_ifs
  all_goals exact fun h => dyadic_ofScientific_ne_nan _ _ _ h

theorem dyadic_signed (negative : Bool) (x : Float) :
    dyadic (if negative then -x else x) = .nan ↔ dyadic x = .nan := by
  split_ifs
  · refine Iff.trans dyadic_pack_eq_nan_iff (Iff.trans ?_ dyadic_eq_nan_iff.symm)
    cases x.toModel.unpack <;> simp [UnpackedFloat.neg]
  · exact Iff.rfl

end Doubles

section Texts

variable {s : String} {cs ds : List Char} {c : Char} {x : Float}

theorem dyadic_ne_nan_of_readDecimal? (h : readDecimal? cs = some x) : dyadic x ≠ .nan := by
  rw [readDecimal?] at h
  split at h
  split_ifs at h
  obtain ⟨e, -, hx⟩ := Option.bind_eq_some_iff.1 h
  obtain rfl := Option.some.inj hx
  exact dyadic_scientific_ne_nan _ _

/-- The name of the value that is no number, in any case and perhaps with a sign. -/
def namesNaN (cs : List Char) : Bool := (splitSign cs).2.map Char.toLower = ['n', 'a', 'n']

/-- A text that spells the value which is no number. -/
def spellsNaN (s : String) : Bool := namesNaN (Text.trimChars Text.isNumeralBlank s.toList)

/-- The characters of such a text. None is a digit or an underscore. -/
def nanCharacters : List Char := ['+', '-', 'n', 'N', 'a', 'A']

theorem plain_of_mem_nanCharacters (h : c ∈ nanCharacters) :
    c.isDigit = false ∧ Text.digitValue? c = none ∧ c ≠ '_' := by
  simp only [nanCharacters, List.mem_cons, List.not_mem_nil, or_false] at h
  rcases h with rfl | rfl | rfl | rfl | rfl | rfl <;> decide

theorem mem_of_toLower (h : c.toLower ∈ ['n', 'a', 'n']) : c ∈ ['n', 'N', 'a', 'A'] := by
  by_cases hCapital : c.isUpper = true
  · revert h
    exact Text.ascii_cases (by decide) (Text.ascii_of_isUpper hCapital)
  · rw [Char.toLower_eq_of_not_isUpper hCapital] at h
    have hLetters : ['n', 'a', 'n'] ⊆ ['n', 'N', 'a', 'A'] := by simp
    exact hLetters h

theorem mem_of_namesNaN (h : namesNaN cs = true) : ∀ c ∈ cs, c ∈ nanCharacters := by
  have hBody : ∀ c ∈ (splitSign cs).2, c ∈ nanCharacters := by
    intro c hc
    have hName := mem_of_toLower (of_decide_eq_true h ▸ List.mem_map_of_mem hc)
    exact .tail _ (.tail _ hName)
  clear h
  revert hBody
  rw [splitSign.eq_def]
  split
  · exact fun hBody => List.forall_mem_cons.2 ⟨by decide, hBody⟩
  · exact fun hBody => List.forall_mem_cons.2 ⟨by decide, hBody⟩
  · exact id

theorem dropGroupMarks?_of_unmarked (h : '_' ∉ cs) (prior : Bool) :
    dropGroupMarks? prior cs = some cs := by
  induction cs generalizing prior with
  | nil => rfl
  | cons c cs ih =>
      obtain ⟨hFirst, hRest⟩ := not_or.1 fun hc => h (List.mem_cons.2 hc)
      rw [dropGroupMarks?.eq_3 _ _ _ fun _ _ hc => absurd hc.symm hFirst, if_neg (Ne.symm hFirst),
        ih hRest]
      rfl

/-- Underscores stand between digits, so a text without digits had none. -/
theorem eq_of_dropGroupMarks? {prior : Bool} (h : dropGroupMarks? prior cs = some ds)
    (hDigits : ∀ c ∈ ds, c.isDigit = false) : ds = cs := by
  fun_induction dropGroupMarks? prior cs generalizing ds with
  | case1 => exact (Option.some.inj h).symm
  | case2 prior c rest hMark ih =>
      obtain ⟨ds, -, rfl⟩ := Option.map_eq_some_iff.1 h
      simp [hDigits c] at hMark
  | case3 => cases h
  | case4 => cases h
  | case5 prior c rest hNone hc ih =>
      obtain ⟨ds, hRest, rfl⟩ := Option.map_eq_some_iff.1 h
      rw [ih hRest fun d hd => hDigits d (.tail c hd)]

theorem plainDigits_of_no_digit (h : ∀ c ∈ cs, Text.digitValue? c = none) : plainDigits cs = cs := by
  refine (List.map_congr_left fun c hc => ?_).trans (List.map_id cs)
  rw [h c hc]
  rfl

/-- A text that holds no ASCII digit after its digits were replaced held no digit at all. -/
theorem plainDigits_eq_self (h : ∀ c ∈ plainDigits cs, c.isDigit = false) : plainDigits cs = cs := by
  refine plainDigits_of_no_digit fun c hc => ?_
  have hPlain := h _ (List.mem_map_of_mem hc)
  cases hValue : Text.digitValue? c with
  | none => rfl
  | some d =>
      have hDigit := (by decide : ∀ n : Fin 10, (Char.ofNat (48 + n)).isDigit = true)
        ⟨d % 10, Nat.mod_lt d (by decide)⟩
      rw [hValue] at hPlain
      exact absurd hDigit (Bool.not_eq_true _ ▸ hPlain)

theorem namesNaN_plainNumeral? (h : plainNumeral? s = some cs) : namesNaN cs = spellsNaN s := by
  unfold plainNumeral? at h
  unfold spellsNaN
  generalize Text.trimChars Text.isNumeralBlank s.toList = trimmed at h ⊢
  rw [Bool.eq_iff_iff]
  constructor
  · intro hName
    have hDigits : ∀ c ∈ cs, c.isDigit = false := fun c hc =>
      (plain_of_mem_nanCharacters (mem_of_namesNaN hName c hc)).1
    obtain rfl := eq_of_dropGroupMarks? h hDigits
    rwa [plainDigits_eq_self hDigits] at hName
  · intro hName
    have hLetters : ∀ c ∈ trimmed, Text.digitValue? c = none ∧ c ≠ '_' := fun c hc =>
      (plain_of_mem_nanCharacters (mem_of_namesNaN hName c hc)).2
    rw [plainDigits_of_no_digit fun c hc => (hLetters c hc).1,
      dropGroupMarks?_of_unmarked fun hc => (hLetters _ hc).2 rfl] at h
    obtain rfl := Option.some.inj h
    exact hName

/-- A numeral is read as the value that is no number only where it spells that value. -/
theorem dyadic_eq_nan_iff_of_readFloat? (h : readFloat? s = some x) :
    dyadic x = .nan ↔ spellsNaN s = true := by
  have hInfinity : dyadic (1.0 / 0.0) ≠ .nan := by decide +kernel
  have hNaN : dyadic (0.0 / 0.0) = .nan := by decide +kernel
  obtain ⟨cs, hPlain, hRead⟩ := Option.bind_eq_some_iff.1 h
  rw [← namesNaN_plainNumeral? hPlain, namesNaN, decide_eq_true_eq]
  dsimp only at hRead
  by_cases hName : (splitSign cs).2.map Char.toLower = "nan".toList
  · rw [if_neg (by rw [hName]; decide), if_pos hName] at hRead
    obtain rfl := Option.some.inj hRead
    rw [dyadic_signed]
    exact iff_of_true hNaN hName
  · refine iff_of_false ?_ hName
    split at hRead
    · obtain rfl := Option.some.inj hRead
      rwa [dyadic_signed]
    · obtain ⟨y, hDecimal, hSigned⟩ := Option.bind_eq_some_iff.1 hRead
      obtain rfl := Option.some.inj hSigned
      rw [dyadic_signed]
      exact dyadic_ne_nan_of_readDecimal? hDecimal

example : spellsNaN " -NaN\n" = true ∧ spellsNaN "n_an" = false ∧ spellsNaN "1e999" = false := by
  decide

end Texts

end Indexer.Number
