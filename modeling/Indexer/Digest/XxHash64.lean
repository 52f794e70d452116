import Indexer.Digest.Words

/-!
The 64-bit xxHash with seed zero. Messages of 32 bytes and more run through four lanes; what is
left over is mixed in word by word.
-/
namespace Indexer.Digest.XxHash64

def prime1 : UInt64 := 0x9E3779B185EBCA87
def prime2 : UInt64 := 0xC2B2AE3D27D4EB4F
def prime3 : UInt64 := 0x165667B19E3779F9
def prime4 : UInt64 := 0x85EBCA77C2B2AE63
def prime5 : UInt64 := 0x27D4EB2F165667C5

def round (acc input : UInt64) : UInt64 := rotateLeft64 (acc + input * prime2) 31 * prime1

def merge (acc lane : UInt64) : UInt64 := (acc ^^^ round 0 lane) * prime1 + prime4

structure Lanes where
  a : UInt64
  b : UInt64
  c : UInt64
  d : UInt64

def initial : Lanes := ⟨prime1 + prime2, prime2, 0, 0 - prime1⟩

/-- Takes in the stripe of 32 bytes with the given number. -/
def stripe (data : ByteArray) (l : Lanes) (index : Nat) : Lanes :=
  let i := 32 * index
  ⟨round l.a (word64le data i), round l.b (word64le data (i + 8)),
    round l.c (word64le data (i + 16)), round l.d (word64le data (i + 24))⟩

def Lanes.join (l : Lanes) : UInt64 :=
  let sum := rotateLeft64 l.a 1 + rotateLeft64 l.b 7 + rotateLeft64 l.c 12 + rotateLeft64 l.d 18
  merge (merge (merge (merge sum l.a) l.b) l.c) l.d

def mixWord (data : ByteArray) (base : Nat) (h : UInt64) (index : Nat) : UInt64 :=
  rotateLeft64 (h ^^^ round 0 (word64le data (base + 8 * index))) 27 * prime1 + prime4

def mixHalf (data : ByteArray) (base : Nat) (h : UInt64) (index : Nat) : UInt64 :=
  rotateLeft64 (h ^^^ ((word32le data (base + 4 * index)).toUInt64 * prime1)) 23 * prime2 + prime3

def mixByte (data : ByteArray) (base : Nat) (h : UInt64) (index : Nat) : UInt64 :=
  rotateLeft64 (h ^^^ ((byteAt data (base + index)).toUInt64 * prime5)) 11 * prime1

def avalanche (h : UInt64) : UInt64 :=
  let h := (h ^^^ (h >>> 33)) * prime2
  let h := (h ^^^ (h >>> 29)) * prime3
  h ^^^ (h >>> 32)

/-- The digest of a message, most significant byte first. -/
def digest (data : ByteArray) : List UInt8 :=
  let size := data.size
  let stripes := size / 32
  let start :=
    if stripes = 0 then prime5
    else ((List.range stripes).foldl (stripe data) initial).join
  let h := start + UInt64.ofNat size
  let base := 32 * stripes
  let words := (size - base) / 8
  let h := (List.range words).foldl (mixWord data base) h
  let base := base + 8 * words
  let halves := (size - base) / 4
  let h := (List.range halves).foldl (mixHalf data base) h
  let base := base + 4 * halves
  let h := (List.range (size - base)).foldl (mixByte data base) h
  bytesBe (avalanche h).toNat 8

end Indexer.Digest.XxHash64
