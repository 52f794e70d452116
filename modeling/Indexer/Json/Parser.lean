import Indexer.Json.Basic
import Indexer.Number.Reading

/-!
Reading JSON text. A string is read in three passes, each a plain recursion on the characters: find
the closing quote, replace the escapes, and join the halves of surrogate pairs. Values nest no
deeper than the text is long, which bounds the recursion on them.
-/
namespace Indexer.Json

open Indexer.Number Indexer.Text

def isSpace (c : Char) : Bool := c = ' ' || c = '\n' || c = '\r' || c = '\t'

def skipSpace (cs : List Char) : List Char := cs.dropWhile isSpace

/-- Splits the text after an opening quote at the closing one. -/
def splitString? : List Char → Option (List Char × List Char)
  | [] => none
  | '"' :: rest => some ([], rest)
  | '\\' :: c :: rest => (splitString? rest).map fun (body, r) => ('\\' :: c :: body, r)
  | c :: rest => (splitString? rest).map fun (body, r) => (c :: body, r)

/-- A character of a string, or a code unit written as an escape. -/
inductive Piece where
  | char (c : Char)
  | unit (n : Nat)

def unitValue? (a b c d : Char) : Option Nat := do
  some (((← hexValue? a) * 16 + (← hexValue? b)) * 256 + (← hexValue? c) * 16 + (← hexValue? d))

/-- What a one-letter escape stands for. -/
def shortEscape? : Char → Option Char
  | '"' => some '"'
  | '\\' => some '\\'
  | '/' => some '/'
  | 'b' => some '\x08'
  | 'f' => some '\x0c'
  | 'n' => some '\n'
  | 'r' => some '\r'
  | 't' => some '\t'
  | _ => none

/-- Replaces the escapes of a string. Control characters may not stand in it as they are. -/
def pieces? : List Char → Option (List Piece)
  | [] => some []
  | '\\' :: 'u' :: a :: b :: c :: d :: rest => do
    let n ← unitValue? a b c d
    some (.unit n :: (← pieces? rest))
  | '\\' :: e :: rest => do
    let c ← shortEscape? e
    some (.char c :: (← pieces? rest))
  | c :: rest => do
    if c = '\\' ∨ c.toNat < 0x20 then none
    else some (.char c :: (← pieces? rest))

/-- Joins surrogate pairs. A half that stands alone is no character. -/
def joinPieces? : List Piece → Option (List Char)
  | [] => some []
  | .char c :: rest => (joinPieces? rest).map (c :: ·)
  | .unit hi :: .unit lo :: rest =>
    if 0xD800 ≤ hi ∧ hi < 0xDC00 then
      if 0xDC00 ≤ lo ∧ lo < 0xE000 then
        (joinPieces? rest).map
          (Char.ofNat (0x10000 + (hi - 0xD800) * 1024 + (lo - 0xDC00)) :: ·)
      else none
    else if 0xDC00 ≤ hi ∧ hi < 0xE000 then none
    else (joinPieces? (.unit lo :: rest)).map (Char.ofNat hi :: ·)
  | .unit n :: rest =>
    if 0xD800 ≤ n ∧ n < 0xE000 then none else (joinPieces? rest).map (Char.ofNat n :: ·)

/-- Reads a string after its opening quote. -/
def readString? (cs : List Char) : Option (String × List Char) := do
  let (body, rest) ← splitString? cs
  let chars ← joinPieces? (← pieces? body)
  some (String.ofList chars, rest)

/-- Reads a number: a whole number if it has neither a fraction nor an exponent. -/
def readNumber? (cs : List Char) : Option (Number × List Char) :=
  let (negative, body) := match cs with
    | '-' :: r => (true, r)
    | r => (false, r)
  let whole := match body with
    | '0' :: _ => ['0']
    | r => r.takeWhile Char.isDigit
  if whole.isEmpty then none
  else
    let afterWhole := body.drop whole.length
    let (fraction, afterFraction) := match afterWhole with
      | '.' :: r =>
        let ds := r.takeWhile Char.isDigit
        if ds.isEmpty then ([], afterWhole) else (ds, r.drop ds.length)
      | r => ([], r)
    let (exponent, rest) : Option Int × List Char := match afterFraction with
      | e :: r =>
        if e = 'e' || e = 'E' then
          let (below, ds) := splitSign r
          let digits := ds.takeWhile Char.isDigit
          if digits.isEmpty then (none, afterFraction)
          else
            let n : Int := ofDigits digits
            (some (if below then -n else n), ds.drop digits.length)
        else (none, afterFraction)
      | [] => (none, [])
    if fraction.isEmpty && exponent.isNone then
      let n : Int := ofDigits whole
      some (.int (if negative then -n else n), rest)
    else
      let x := scientific (ofDigits (whole ++ fraction))
        (exponent.getD 0 - fraction.length)
      some (.float (if negative then -x else x), rest)

/-- Drops a word from the front. -/
def expect? (word : List Char) (cs : List Char) : Option (List Char) :=
  if word.isPrefixOf cs then some (cs.drop word.length) else none

/-- Reads a word that names a double. Strict JSON has no such words, but writers of doubles use
them. -/
def readNamed? (cs : List Char) : Option (Number × List Char) :=
  ((expect? "NaN".toList cs).map fun r => (.float (0.0 / 0.0), r))
    <|> ((expect? "Infinity".toList cs).map fun r => (.float (1.0 / 0.0), r))
    <|> ((expect? "-Infinity".toList cs).map fun r => (.float (-1.0 / 0.0), r))

mutual

/-- Reads a value at the front of the text. -/
def readValue? : Nat → List Char → Option (Json × List Char)
  | 0, _ => none
  | fuel + 1, cs =>
    match cs with
    | '"' :: rest => (readString? rest).map fun (s, r) => (.str s, r)
    | '[' :: rest =>
      match skipSpace rest with
      | ']' :: r => some (.arr [], r)
      | r => (readItems? fuel r).map fun (items, r) => (.arr items, r)
    | '\x7b' :: rest =>
      match skipSpace rest with
      | '\x7d' :: r => some (.obj [], r)
      | r => (readFields? fuel r).map fun (fields, r) => (ofFields fields, r)
    | 'n' :: _ => (expect? "null".toList cs).map fun r => (.null, r)
    | 't' :: _ => (expect? "true".toList cs).map fun r => (.bool true, r)
    | 'f' :: _ => (expect? "false".toList cs).map fun r => (.bool false, r)
    | _ => (readNamed? cs <|> readNumber? cs).map fun (n, r) => (.number n, r)

/-- Reads the items of an array, of which there is at least one, and the closing bracket. -/
def readItems? : Nat → List Char → Option (List Json × List Char)
  | 0, _ => none
  | fuel + 1, cs =>
    match readValue? fuel cs with
    | none => none
    | some (v, r) =>
      match skipSpace r with
      | ',' :: r => (readItems? fuel (skipSpace r)).map fun (vs, r) => (v :: vs, r)
      | ']' :: r => some ([v], r)
      | _ => none

/-- Reads the fields of an object, of which there is at least one, and the closing brace. -/
def readFields? : Nat → List Char → Option (List (String × Json) × List Char)
  | 0, _ => none
  | fuel + 1, cs =>
    match cs with
    | '"' :: rest =>
      match readString? rest with
      | none => none
      | some (k, r) =>
        match skipSpace r with
        | ':' :: r =>
          match readValue? fuel (skipSpace r) with
          | none => none
          | some (v, r) =>
            match skipSpace r with
            | ',' :: r => (readFields? fuel (skipSpace r)).map fun (fs, r) => ((k, v) :: fs, r)
            | '\x7d' :: r => some ([(k, v)], r)
            | _ => none
        | _ => none
    | _ => none

end

/-- Reads a text that holds one value and nothing else but blanks. -/
def parse? (s : String) : Option Json := do
  let cs := s.toList
  let (v, rest) ← readValue? (cs.length + 1) (skipSpace cs)
  if (skipSpace rest).isEmpty then some v else none

end Indexer.Json
