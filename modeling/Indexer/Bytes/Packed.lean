import Indexer.Bytes.Base64
import Indexer.Text.Digit

/-!
Bytes from text. Each character of such a text stands for a fixed number of bits, and the bits are
packed into bytes, the first ones highest. Characters that stand for nothing are passed over.
-/
namespace Indexer.Bytes

/-- Packs values of `width` bits behind `bits` bits of the value `acc`. Bits that do not fill a byte
are dropped. -/
def pack (width acc bits : Nat) : List Nat → List UInt8
  | [] => []
  | n :: rest =>
    let acc := acc * 2 ^ width + n
    let bits := bits + width
    if bits < 8 then pack width acc bits rest
    else
      let left := 2 ^ (bits - 8)
      UInt8.ofNat (acc / left) :: pack width (acc % left) (bits - 8) rest

/-- The bytes of a text whose characters stand for `width` bits. -/
def packed (width : Nat) (value? : Char → Option Nat) (text : String) : ByteArray :=
  ⟨(pack width 0 0 (text.toList.filterMap value?)).toArray⟩

/-- The value of a letter of base 64. -/
def base64Value? (c : Char) : Option Nat := (List.range 64).find? fun n => base64Letter n = c

/-- The bytes of a hexadecimal text. -/
def ofHex (text : String) : ByteArray := packed 4 Text.hexValue? text

/-- The bytes of a base 64 text. -/
def ofBase64 (text : String) : ByteArray := packed 6 base64Value? text

example : pack 4 0 0 [7, 2, 6, 1] = [0x72, 0x61] := by decide
example : pack 6 0 0 [28, 38] = [0x72] := by decide

end Indexer.Bytes
