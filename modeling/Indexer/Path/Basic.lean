import Indexer.Text.Quoted
import Indexer.Text.Lower
import Indexer.Text.Split

/-!
Slash-separated paths. A path is its anchor and its parts; repeated slashes, a slash at the end and
parts that are a single dot leave no trace, while a part of two dots stays.
-/
namespace Indexer

/-- A path. `slashes` is the number of slashes that anchor it: none for a relative path, one for an
absolute path; a path written with exactly two in front keeps both. -/
structure Path where
  slashes : Nat
  parts : List String
  deriving DecidableEq, Repr

/-- Why a path operation fails. -/
inductive PathError where
  /-- The path is not at or below the root. -/
  | outside (path root : Path)
  /-- A relative path has no URI. -/
  | relativeUri
  /-- Somebody's home directory is not known. -/
  | noHome
  deriving DecidableEq, Repr

namespace Path

/-- Reads a path. -/
def ofString (s : String) : Path :=
  let cs := s.toList
  let leading := (cs.takeWhile (· = '/')).length
  let pieces := (Text.splitAt (· = '/') cs).filter fun p => p ≠ [] ∧ p ≠ ['.']
  ⟨if leading = 2 then 2 else min leading 1, pieces.map String.ofList⟩

/-- The anchor and the parts, with nothing for the empty relative path. -/
def bareText (p : Path) : String :=
  String.ofList (List.replicate p.slashes '/') ++ "/".intercalate p.parts

/-- The text of a path. The empty relative path is a dot. -/
def text (p : Path) : String :=
  if p.slashes = 0 ∧ p.parts = [] then "." else p.bareText

def isAbsolute (p : Path) : Bool := p.slashes ≠ 0

/-- The last part, or nothing for an anchor alone. -/
def name (p : Path) : String := p.parts.getLast?.getD ""

/-- From the last dot of a name to its end, unless that dot is its first or last character. -/
def suffixOf (name : String) : String :=
  let cs := name.toList
  let tail := (cs.reverse.takeWhile (· ≠ '.')).reverse
  let dot := cs.length - tail.length
  if tail = [] ∨ dot ≤ 1 then "" else String.ofList ('.' :: tail)

def suffix (p : Path) : String := suffixOf p.name

/-- The suffix in lower case and without its dot. -/
def extension (p : Path) : String :=
  String.ofList ((Text.lower p.suffix).toList.dropWhile (· = '.'))

/-- The directory a path stands in. -/
def parent (p : Path) : Path := { p with parts := p.parts.dropLast }

/-- The path of an entry of a directory. -/
def child (p : Path) (entry : String) : Path := { p with parts := p.parts ++ [entry] }

/-- All parts with the anchor as the first, as membership tests see them. -/
def pieces (p : Path) : List String :=
  if p.slashes = 0 then p.parts else String.ofList (List.replicate p.slashes '/') :: p.parts

/-- The path lies at or below the root. -/
def isUnder (p root : Path) : Bool :=
  if root.slashes = 0 ∧ root.parts = [] then p.slashes = 0
  else p.slashes = root.slashes ∧ root.parts <+: p.parts

/-- The rest of a path below a root. -/
def relativeTo (p root : Path) : Except PathError Path :=
  if p.isUnder root then .ok ⟨0, p.parts.drop root.parts.length⟩
  else .error (.outside p root)

end Path

def PathError.message : PathError → String
  | outside path root =>
    Text.quoted path.text ++ " is not in the subpath of " ++ Text.quoted root.bareText
      ++ " OR one path is relative and the other is absolute."
  | relativeUri => "relative path can't be expressed as a file URI"
  | noHome => "Could not determine home directory."

end Indexer
