import Indexer.Fault.Basic

/-!
A tree of files as a crawl meets it: what lies where, and which look at it fails. A failing look is
part of the tree, so that a crawl over a tree is a function.
-/
namespace Indexer

inductive NodeKind where
  | file
  | directory
  | symlink
  | other
  deriving DecidableEq, Repr

/-- Something in a file tree, with the faults that the different looks at it meet. -/
structure Node where
  path : Path
  kind : NodeKind
  data : ByteArray
  mtime : Number
  size : Int
  owner : Option String
  group : Option String
  listFault : Option Fault
  kindFault : Option Fault
  statFault : Option Fault
  readFault : Option Fault
  ownerFault : Option Fault
  groupFault : Option Fault
  /-- Met by the look at it as the root of a crawl. -/
  rootFault : Option Fault
  /-- Why the path has no UTF-8 form, if it has none: a file system takes any bytes for a name. What
  is given as its path only stands for it then. No crawl state holds such a path. -/
  pathFault : Option Fault

/-- A directory nobody has said anything about. -/
def Node.plainDirectory (path : Path) : Node where
  path := path
  kind := .directory
  data := ByteArray.empty
  mtime := .float 1700000000.0
  size := 0
  owner := none
  group := none
  listFault := none
  kindFault := none
  statFault := none
  readFault := none
  ownerFault := none
  groupFault := none
  rootFault := none
  pathFault := none

def Node.name (n : Node) : String := n.path.name

structure FileTree where
  nodes : List Node

namespace FileTree

def empty : FileTree := ⟨[]⟩

def find? (t : FileTree) (p : Path) : Option Node := t.nodes.find? (·.path = p)

def contains (t : FileTree) (p : Path) : Bool := (t.find? p).isSome

/-- Whether a root is a directory. If there is nothing to look at, or nothing can be of that name, it
is not; any other fault of the look is passed on. -/
def isDirectory (t : FileTree) (p : Path) : Except Fault Bool :=
  match t.find? p with
  | none => .ok false
  | some n =>
    match n.rootFault with
    | some f => if f.isAbsence || f.isValue then .ok false else .error f
    | none => .ok (n.kind = .directory)

/-- Why a path has no UTF-8 form, if it has none. -/
def pathFault? (t : FileTree) (p : Path) : Option Fault := (t.find? p).bind (·.pathFault)

/-- Puts a node in its place, which need not be free. -/
def set (t : FileTree) (n : Node) : FileTree :=
  if t.contains n.path then ⟨t.nodes.map fun m => if m.path = n.path then n else m⟩
  else ⟨t.nodes ++ [n]⟩

/-- The directories above a path, outermost first, without the top. -/
def ancestors (p : Path) : List Path :=
  ((List.range p.parts.length).drop 1).map fun k => { p with parts := p.parts.take k }

/-- Writes a node. Directories that are missing above it are made. -/
def write (t : FileTree) (n : Node) : FileTree :=
  let t := (ancestors n.path).foldl
    (fun t p => if t.contains p then t else t.set (.plainDirectory p)) t
  t.set n

def ofNodes (ns : List Node) : FileTree := ns.foldl write empty

/-- Removes a path and all below it. -/
def remove (t : FileTree) (p : Path) : FileTree := ⟨t.nodes.filter fun n => !n.path.isUnder p⟩

/-- The entries of a directory by name. -/
def entries (t : FileTree) (dir : Path) : List Node :=
  (t.nodes.filter fun n => n.path.parts ≠ [] ∧ n.path.parent = dir).mergeSort
    fun a b => a.name ≤ b.name

/-- Lists a directory. -/
def list (t : FileTree) (dir : Path) : Except Fault (List Node) :=
  match t.find? dir with
  | none => .error (.noSuchFile dir)
  | some n =>
    match n.listFault with
    | some f => .error f
    | none => .ok (t.entries dir)

/-- Reads the bytes of a file. -/
def read (t : FileTree) (p : Path) : Except Fault ByteArray :=
  match t.find? p with
  | none => .error (.noSuchFile p)
  | some n =>
    match n.readFault with
    | some f => .error f
    | none => if n.kind = .directory then .error (.directory p) else .ok n.data

/-- No path in the tree has more parts than this. -/
def depth (t : FileTree) : Nat := (t.nodes.map (·.path.parts.length)).foldl max 0

end FileTree
end Indexer
