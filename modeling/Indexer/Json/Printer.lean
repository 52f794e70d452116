import Indexer.Json.Basic

/-!
JSON text. One writer serves all shapes of output; a style says what stands between the parts and
which characters are escaped.
-/
namespace Indexer.Json

open Indexer.Text

/-- What a JSON text looks like. -/
structure Style where
  /-- Written between two items or fields. -/
  comma : String
  /-- Written between a key and its value. -/
  colon : String
  /-- Escapes everything outside the printable ASCII characters. -/
  ascii : Bool

/-- No blanks, and only what has to be escaped is. -/
def Style.compact : Style := ⟨",", ":", false⟩

/-- No blanks, ASCII only. -/
def Style.compactAscii : Style := ⟨",", ":", true⟩

/-- A blank after each separator, ASCII only. -/
def Style.spacedAscii : Style := ⟨", ", ": ", true⟩

def hexDigit (n : Nat) : Char := Char.ofNat (if n < 10 then 48 + n else 87 + n)

/-- A UTF-16 code unit as an escape. -/
def unitEscape (n : Nat) : List Char :=
  ['\\', 'u', hexDigit (n / 4096 % 16), hexDigit (n / 256 % 16), hexDigit (n / 16 % 16),
    hexDigit (n % 16)]

/-- A character by its code units: characters beyond the first plane take two. -/
def codeEscape (c : Char) : List Char :=
  let n := c.toNat
  if n < 0x10000 then unitEscape n
  else unitEscape (0xD800 + (n - 0x10000) / 1024) ++ unitEscape (0xDC00 + (n - 0x10000) % 1024)

/-- A character inside a string. -/
def escapeChar (ascii : Bool) (c : Char) : List Char :=
  if c = '"' then ['\\', '"']
  else if c = '\\' then ['\\', '\\']
  else if c = '\n' then ['\\', 'n']
  else if c = '\r' then ['\\', 'r']
  else if c = '\t' then ['\\', 't']
  else if c = '\x08' then ['\\', 'b']
  else if c = '\x0c' then ['\\', 'f']
  else if c.toNat < 0x20 || (ascii && 0x7E < c.toNat) then codeEscape c
  else [c]

/-- A string with its quotes. -/
def quoteChars (ascii : Bool) (s : String) : List Char :=
  '"' :: (s.toList.flatMap (escapeChar ascii) ++ ['"'])

mutual

/-- The characters of a value. -/
def renderChars (st : Style) : Json → List Char
  | .null => "null".toList
  | .bool true => "true".toList
  | .bool false => "false".toList
  | .number (.int i) => (signedDecimal i).toList
  | .number (.float x) => (Number.jsonLayout.render x).toList
  | .str s => quoteChars st.ascii s
  | .arr items => '[' :: (renderItems st items ++ [']'])
  | .obj fields => '\x7b' :: (renderFields st fields ++ ['\x7d'])

def renderItems (st : Style) : List Json → List Char
  | [] => []
  | [v] => renderChars st v
  | v :: rest => renderChars st v ++ st.comma.toList ++ renderItems st rest

def renderFields (st : Style) : List (String × Json) → List Char
  | [] => []
  | [(k, v)] => quoteChars st.ascii k ++ st.colon.toList ++ renderChars st v
  | (k, v) :: rest =>
    quoteChars st.ascii k ++ st.colon.toList ++ renderChars st v ++ st.comma.toList
      ++ renderFields st rest

end

/-- The text of a value. -/
def render (st : Style) (v : Json) : String := String.ofList (renderChars st v)

mutual

/-- The value with the keys of every object in code point order. -/
def sortKeys : Json → Json
  | .arr items => .arr (sortItems items)
  | .obj fields => .obj ((sortFields fields).mergeSort fun a b => a.1 ≤ b.1)
  | v => v

def sortItems : List Json → List Json
  | [] => []
  | v :: rest => sortKeys v :: sortItems rest

def sortFields : List (String × Json) → List (String × Json)
  | [] => []
  | (k, v) :: rest => (k, sortKeys v) :: sortFields rest

end

end Indexer.Json
