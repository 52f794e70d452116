import Indexer.Digest.Md5
import Indexer.Digest.Sha1
import Indexer.Digest.Sha256
import Indexer.Digest.XxHash64

/-!
Digests by algorithm. A digest in progress stands for the message taken in so far; the law that it
obeys when it is updated is stated beside it.
-/
namespace Indexer.Digest

/-- The algorithms that contents can be told apart by. -/
inductive Algorithm where
  | xxh64
  | md5
  | sha1
  | sha256
  deriving DecidableEq, Repr

namespace Algorithm

def name : Algorithm → String
  | xxh64 => "xxh64"
  | md5 => "md5"
  | sha1 => "sha1"
  | sha256 => "sha256"

/-- All algorithms, by name. -/
def all : List Algorithm := [md5, sha1, sha256, xxh64]

def ofName? (s : String) : Option Algorithm := all.find? (·.name = s)

def digest : Algorithm → ByteArray → List UInt8
  | xxh64 => XxHash64.digest
  | md5 => Md5.digest
  | sha1 => Sha1.digest
  | sha256 => Sha256.digest

/-- The digest of a message in hexadecimal. -/
def hex (a : Algorithm) (message : ByteArray) : String := hexText (a.digest message)

end Algorithm

/-- The law of updates: nothing taken in changes nothing, and two parts taken in one after the other
are as good as both at once. -/
structure IsIncremental {σ : Type} (take : σ → ByteArray → σ) : Prop where
  empty : ∀ s, take s ByteArray.empty = s
  append : ∀ s part more, take (take s part) more = take s (part ++ more)

/-- A digest in progress. -/
structure Running where
  algorithm : Algorithm
  message : ByteArray

namespace Running

def start (a : Algorithm) : Running := ⟨a, ByteArray.empty⟩

def update (r : Running) (part : ByteArray) : Running := { r with message := r.message ++ part }

def hex (r : Running) : String := r.algorithm.hex r.message

end Running

end Indexer.Digest
