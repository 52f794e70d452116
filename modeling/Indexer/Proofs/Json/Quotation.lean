import Indexer.Json.Parser
import Indexer.Json.Printer
import Mathlib.Tactic.SplitIfs

/-! Strings read back. A character is written as it is, by a one-letter escape, or by its one or two
code units, and each of these ways is undone by the three passes of the reader: none of them ends a
string early, and none runs into what comes next. -/
namespace Indexer.Json

open Indexer.Text

/-- The ways to write a character inside a string, with the pieces that are read there. -/
inductive Spells : List Char → List Piece → Char → Prop where
  | plain {c : Char} (hQuote : c ≠ '"') (hSlash : c ≠ '\\') (hControl : ¬c.toNat < 0x20) :
      Spells [c] [.char c] c
  | short {e c : Char} (hEscape : shortEscape? e = some c) : Spells ['\\', e] [.char c] c
  | unit {c : Char} (hFirst : c.toNat < 0x10000) : Spells (unitEscape c.toNat) [.unit c.toNat] c
  | pair {c : Char} (hBeyond : ¬c.toNat < 0x10000) :
      Spells
        (unitEscape (0xD800 + (c.toNat - 0x10000) / 1024) ++
          unitEscape (0xDC00 + (c.toNat - 0x10000) % 1024))
        [.unit (0xD800 + (c.toNat - 0x10000) / 1024), .unit (0xDC00 + (c.toNat - 0x10000) % 1024)] c

theorem exists_spells (ascii : Bool) (c : Char) : ∃ ps, Spells (escapeChar ascii c) ps c := by
  have hShort {e : Char} (hEscape : shortEscape? e = some c) : ∃ ps, Spells ['\\', e] ps c :=
    ⟨_, .short hEscape⟩
  unfold escapeChar
  split_ifs with hQuote hSlash hLine hReturn hTab hBack hFeed hCode
  · exact hShort (congrArg some hQuote.symm)
  · exact hShort (congrArg some hSlash.symm)
  · exact hShort (congrArg some hLine.symm)
  · exact hShort (congrArg some hReturn.symm)
  · exact hShort (congrArg some hTab.symm)
  · exact hShort (congrArg some hBack.symm)
  · exact hShort (congrArg some hFeed.symm)
  · unfold codeEscape
    dsimp only
    split_ifs with hFirst
    · exact ⟨_, .unit hFirst⟩
    · exact ⟨_, .pair hFirst⟩
  · simp only [Bool.or_eq_true, decide_eq_true_eq, not_or] at hCode
    exact ⟨_, .plain hQuote hSlash hCode.1⟩

section Units

/-- A character is no half of a surrogate pair. -/
theorem toNat_lt_or (c : Char) : c.toNat < 0xD800 ∨ 0xDFFF < c.toNat ∧ c.toNat < 0x110000 := c.valid

theorem hexValue?_hexDigit : ∀ k < 16, hexValue? (hexDigit k) = some k := by decide

/-- A digit is no mark of a string, and it is no line break. -/
theorem hexDigit_ne : ∀ k < 16, hexDigit k ≠ '"' ∧ hexDigit k ≠ '\\' ∧ hexDigit k ≠ '\n' := by
  decide

theorem unitValue?_hexDigit {n : Nat} (h : n < 0x10000) :
    unitValue? (hexDigit (n / 4096 % 16)) (hexDigit (n / 256 % 16)) (hexDigit (n / 16 % 16))
      (hexDigit (n % 16)) = some n := by
  have hDigit (k : Nat) : hexValue? (hexDigit (k % 16)) = some (k % 16) :=
    hexValue?_hexDigit _ (Nat.mod_lt _ (by decide))
  simp only [unitValue?, hDigit, Option.bind_eq_bind, Option.bind_some, Option.some.injEq]
  omega

end Units

section Passes

theorem splitString?_cons {c : Char} (hQuote : c ≠ '"') (hSlash : c ≠ '\\') (rest : List Char) :
    splitString? (c :: rest) = (splitString? rest).map fun p => (c :: p.1, p.2) := by
  rw [splitString?]
  · exact hQuote
  · exact fun _ _ h => absurd h hSlash

theorem splitString?_unitEscape (n : Nat) (rest : List Char) :
    splitString? (unitEscape n ++ rest) =
      (splitString? rest).map fun p => (unitEscape n ++ p.1, p.2) := by
  have hDigit (k : Nat) (cs : List Char) : splitString? (hexDigit (k % 16) :: cs) =
      (splitString? cs).map fun p => (hexDigit (k % 16) :: p.1, p.2) :=
    have hNone := hexDigit_ne _ (Nat.mod_lt k (by decide))
    splitString?_cons hNone.1 hNone.2.1 cs
  simp only [unitEscape, List.cons_append, List.nil_append, splitString?, hDigit, Option.map_map]
  rfl

/-- The first pass goes over what is written for a character. -/
theorem Spells.split {w : List Char} {ps : List Piece} {c : Char} (h : Spells w ps c)
    (rest : List Char) :
    splitString? (w ++ rest) = (splitString? rest).map fun p => (w ++ p.1, p.2) := by
  cases h with
  | plain hQuote hSlash _ => exact splitString?_cons hQuote hSlash rest
  | short _ => rfl
  | unit _ => exact splitString?_unitEscape _ rest
  | pair _ =>
      rw [List.append_assoc, splitString?_unitEscape, splitString?_unitEscape, Option.map_map]
      simp only [Function.comp_def, List.append_assoc]

theorem pieces?_unitEscape {n : Nat} (h : n < 0x10000) (rest : List Char) :
    pieces? (unitEscape n ++ rest) = (pieces? rest).map (.unit n :: ·) := by
  simp only [unitEscape, List.cons_append, List.nil_append, pieces?, unitValue?_hexDigit h]
  cases pieces? rest <;> rfl

theorem pieces?_cons {c : Char} (hSlash : c ≠ '\\') (hControl : ¬c.toNat < 0x20)
    (rest : List Char) : pieces? (c :: rest) = (pieces? rest).map (.char c :: ·) := by
  rw [pieces?, if_neg (by simp [hSlash, hControl])]
  · cases pieces? rest <;> rfl
  · exact fun _ _ _ _ _ h => absurd h hSlash
  · exact fun _ _ h => absurd h hSlash

theorem pieces?_short {e c : Char} (hEscape : shortEscape? e = some c) (rest : List Char) :
    pieces? ('\\' :: e :: rest) = (pieces? rest).map (.char c :: ·) := by
  have hUnit : e ≠ 'u' := by
    rintro rfl
    cases hEscape
  rw [pieces?, hEscape]
  · cases pieces? rest <;> rfl
  · exact fun _ _ _ _ _ h => absurd h hUnit

/-- The second pass reads the pieces of the character. -/
theorem Spells.pieces {w : List Char} {ps : List Piece} {c : Char} (h : Spells w ps c)
    (rest : List Char) : pieces? (w ++ rest) = (pieces? rest).map (ps ++ ·) := by
  cases h with
  | plain _ hSlash hControl => exact pieces?_cons hSlash hControl rest
  | short hEscape => exact pieces?_short hEscape rest
  | unit hFirst => exact pieces?_unitEscape hFirst rest
  | @pair c hBeyond =>
      have hChar := toNat_lt_or c
      rw [List.append_assoc, pieces?_unitEscape (by omega), pieces?_unitEscape (by omega),
        Option.map_map]
      rfl

theorem joinPieces?_unit {n : Nat} (h : n < 0xD800 ∨ 0xDFFF < n) (ps : List Piece) :
    joinPieces? (.unit n :: ps) = (joinPieces? ps).map (Char.ofNat n :: ·) := by
  have hHigh : ¬(0xD800 ≤ n ∧ n < 0xDC00) := by omega
  have hLow : ¬(0xDC00 ≤ n ∧ n < 0xE000) := by omega
  have hHalf : ¬(0xD800 ≤ n ∧ n < 0xE000) := by omega
  cases ps with
  | nil => simp only [joinPieces?, if_neg hHalf]
  | cons p ps =>
      cases p with
      | char c => simp only [joinPieces?, if_neg hHalf]
      | unit m => simp only [joinPieces?, if_neg hHigh, if_neg hLow]

theorem joinPieces?_pair {hi lo : Nat} (hHigh : 0xD800 ≤ hi ∧ hi < 0xDC00)
    (hLow : 0xDC00 ≤ lo ∧ lo < 0xE000) (ps : List Piece) :
    joinPieces? (.unit hi :: .unit lo :: ps) =
      (joinPieces? ps).map (Char.ofNat (0x10000 + (hi - 0xD800) * 1024 + (lo - 0xDC00)) :: ·) := by
  simp only [joinPieces?, if_pos hHigh, if_pos hLow]

/-- The last pass makes the character of them. -/
theorem Spells.join {w : List Char} {ps : List Piece} {c : Char} (h : Spells w ps c)
    (rest : List Piece) : joinPieces? (ps ++ rest) = (joinPieces? rest).map (c :: ·) := by
  have hChar := toNat_lt_or c
  cases h with
  | plain | short => rfl
  | unit _ =>
      rw [List.singleton_append, joinPieces?_unit (by omega), Char.ofNat_toNat]
  | pair hBeyond =>
      rw [List.cons_append, List.singleton_append, joinPieces?_pair (by omega) (by omega)]
      have hCode : 0x10000 + (0xD800 + (c.toNat - 0x10000) / 1024 - 0xD800) * 1024 +
          (0xDC00 + (c.toNat - 0x10000) % 1024 - 0xDC00) = c.toNat := by omega
      rw [hCode, Char.ofNat_toNat]

end Passes

/-- So the passes read back any characters up to the closing quote. -/
theorem passes_escape (ascii : Bool) (cs : List Char) :
    ∃ ps, (∀ rest, splitString? (cs.flatMap (escapeChar ascii) ++ '"' :: rest) =
        some (cs.flatMap (escapeChar ascii), rest)) ∧
      pieces? (cs.flatMap (escapeChar ascii)) = some ps ∧ joinPieces? ps = some cs := by
  induction cs with
  | nil => exact ⟨[], fun _ => rfl, rfl, rfl⟩
  | cons c cs ih =>
      obtain ⟨ps, hSplit, hPieces, hJoin⟩ := ih
      obtain ⟨first, hFirst⟩ := exists_spells ascii c
      refine ⟨first ++ ps, fun rest => ?_, ?_, ?_⟩
      · rw [List.flatMap_cons, List.append_assoc, hFirst.split, hSplit]
        rfl
      · rw [List.flatMap_cons, hFirst.pieces, hPieces]
        rfl
      · rw [hFirst.join, hJoin]
        rfl

/-- A string is read back after its opening quote, and what follows it is left. -/
theorem readString?_quote (ascii : Bool) (s : String) (rest : List Char) :
    readString? (s.toList.flatMap (escapeChar ascii) ++ '"' :: rest) = some (s, rest) := by
  obtain ⟨ps, hSplit, hPieces, hJoin⟩ := passes_escape ascii s.toList
  simp [readString?, hSplit, hPieces, hJoin, String.ofList_toList]

/-- What is written for a character breaks no line. -/
theorem Spells.line_notMem {w : List Char} {ps : List Piece} {c : Char} (h : Spells w ps c) :
    '\n' ∉ w := by
  have hUnit (n : Nat) : '\n' ∉ unitEscape n := by
    have hDigit (k : Nat) : '\n' ≠ hexDigit (k % 16) :=
      (hexDigit_ne _ (Nat.mod_lt k (by decide))).2.2.symm
    simp [unitEscape, hDigit]
  cases h with
  | plain _ _ hControl =>
      rintro hMem
      rw [← List.mem_singleton.mp hMem] at hControl
      exact hControl (by decide)
  | short hEscape =>
      rintro (_ | ⟨_, hMem⟩)
      rw [← List.mem_singleton.mp hMem] at hEscape
      cases hEscape
  | unit _ => exact hUnit _
  | pair _ => exact fun hMem => (List.mem_append.mp hMem).elim (hUnit _) (hUnit _)

theorem line_notMem_quoteChars (ascii : Bool) (s : String) : '\n' ∉ quoteChars ascii s := by
  have hBody : '\n' ∉ s.toList.flatMap (escapeChar ascii) := by
    intro hMem
    obtain ⟨c, _, hWritten⟩ := List.mem_flatMap.mp hMem
    obtain ⟨ps, hSpells⟩ := exists_spells ascii c
    exact hSpells.line_notMem hWritten
  simp [quoteChars, hBody]

end Indexer.Json
