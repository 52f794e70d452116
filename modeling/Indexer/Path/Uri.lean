import Indexer.Path.Basic

/-!
Paths as URIs. Every byte of the UTF-8 text that is not a letter, a digit, one of a few marks or a
slash is written as a percent sign and two hexadecimal digits.
-/
namespace Indexer.Path

/-- The bytes that stand for themselves. -/
def isUriByte (b : UInt8) : Bool :=
  let c := Char.ofNat b.toNat
  c.isAlphanum || c = '_' || c = '.' || c = '-' || c = '~' || c = '/'

def upperHexDigit (n : Nat) : Char := Char.ofNat (if n < 10 then 48 + n else 55 + n)

def percentByte (b : UInt8) : List Char :=
  if isUriByte b then [Char.ofNat b.toNat]
  else ['%', upperHexDigit (b.toNat / 16), upperHexDigit (b.toNat % 16)]

/-- Percent-encodes a text. -/
def percentEncode (s : String) : String :=
  String.ofList (s.toUTF8.toList.flatMap percentByte)

/-- The URI of an absolute path. -/
def uri (p : Path) : Except PathError String :=
  if p.isAbsolute then .ok ("file://" ++ percentEncode p.text) else .error .relativeUri

end Indexer.Path
