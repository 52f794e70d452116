/-!
The bytes of a message as machine words, and the padding that MD5 and the SHA family share.
-/
namespace Indexer.Digest

/-- A byte of the message; past its end there are zeros. -/
def byteAt (data : ByteArray) (i : Nat) : UInt8 := if h : i < data.size then data[i] else 0

/-- The 32-bit word at a position, least significant byte first. -/
def word32le (data : ByteArray) (i : Nat) : UInt32 :=
  (byteAt data i).toUInt32 ||| ((byteAt data (i + 1)).toUInt32 <<< 8)
    ||| ((byteAt data (i + 2)).toUInt32 <<< 16) ||| ((byteAt data (i + 3)).toUInt32 <<< 24)

/-- The 32-bit word at a position, most significant byte first. -/
def word32be (data : ByteArray) (i : Nat) : UInt32 :=
  ((byteAt data i).toUInt32 <<< 24) ||| ((byteAt data (i + 1)).toUInt32 <<< 16)
    ||| ((byteAt data (i + 2)).toUInt32 <<< 8) ||| (byteAt data (i + 3)).toUInt32

/-- The 64-bit word at a position, least significant byte first. -/
def word64le (data : ByteArray) (i : Nat) : UInt64 :=
  (word32le data i).toUInt64 ||| ((word32le data (i + 4)).toUInt64 <<< 32)

def rotateLeft32 (x n : UInt32) : UInt32 := (x <<< n) ||| (x >>> (32 - n))

def rotateRight32 (x n : UInt32) : UInt32 := (x >>> n) ||| (x <<< (32 - n))

def rotateLeft64 (x n : UInt64) : UInt64 := (x <<< n) ||| (x >>> (64 - n))

/-- The last bytes of a number, least significant first. -/
def bytesLe (n : Nat) : Nat → List UInt8
  | 0 => []
  | count + 1 => UInt8.ofNat n :: bytesLe (n / 256) count

/-- The last bytes of a number, most significant first. -/
def bytesBe (n count : Nat) : List UInt8 := (bytesLe n count).reverse

/-- A message filled up to whole blocks of 64 bytes: a one bit, zeros, and the bit length in the
last eight bytes, which `lengthBytes` writes. -/
def padded (data : ByteArray) (lengthBytes : Nat → Nat → List UInt8) : ByteArray :=
  let zeros := (64 - (data.size + 9) % 64) % 64
  data ++ ⟨((0x80 :: List.replicate zeros 0) ++ lengthBytes (8 * data.size) 8).toArray⟩

def hexByte (b : UInt8) : List Char :=
  let digit (n : Nat) : Char := Char.ofNat (if n < 10 then 48 + n else 87 + n)
  [digit (b.toNat / 16), digit (b.toNat % 16)]

/-- Bytes in lower-case hexadecimal. -/
def hexText (bytes : List UInt8) : String := String.ofList (bytes.flatMap hexByte)

end Indexer.Digest
