import Indexer.Digest.Words

/-!
The SHA-1 digest.
-/
namespace Indexer.Digest.Sha1

structure Chain where
  a : UInt32
  b : UInt32
  c : UInt32
  d : UInt32
  e : UInt32

def initial : Chain := ⟨0x67452301, 0xefcdab89, 0x98badcfe, 0x10325476, 0xc3d2e1f0⟩

/-- The 80 words of a block: the sixteen of the message and those mixed from them. -/
def schedule (data : ByteArray) (base : Nat) : Array UInt32 :=
  let first := ((List.range 16).map fun i => word32be data (base + 4 * i)).toArray
  (List.range 64).foldl (fun w i =>
    w.push (rotateLeft32 (w.getD (i + 13) 0 ^^^ w.getD (i + 8) 0 ^^^ w.getD (i + 2) 0 ^^^ w.getD i 0)
      1)) first

def step (w : Array UInt32) (s : Chain) (i : Nat) : Chain :=
  let (mix, constant) : UInt32 × UInt32 :=
    if i < 20 then ((s.b &&& s.c) ||| (~~~s.b &&& s.d), 0x5a827999)
    else if i < 40 then (s.b ^^^ s.c ^^^ s.d, 0x6ed9eba1)
    else if i < 60 then ((s.b &&& s.c) ||| (s.b &&& s.d) ||| (s.c &&& s.d), 0x8f1bbcdc)
    else (s.b ^^^ s.c ^^^ s.d, 0xca62c1d6)
  ⟨rotateLeft32 s.a 5 + mix + s.e + constant + w.getD i 0, s.a, rotateLeft32 s.b 30, s.c, s.d⟩

def block (data : ByteArray) (s : Chain) (index : Nat) : Chain :=
  let w := schedule data (64 * index)
  let t := (List.range 80).foldl (step w) s
  ⟨s.a + t.a, s.b + t.b, s.c + t.c, s.d + t.d, s.e + t.e⟩

/-- The digest of a message. -/
def digest (message : ByteArray) : List UInt8 :=
  let data := padded message bytesBe
  let s := (List.range (data.size / 64)).foldl (block data) initial
  [s.a, s.b, s.c, s.d, s.e].flatMap fun w => bytesBe w.toNat 4

end Indexer.Digest.Sha1
