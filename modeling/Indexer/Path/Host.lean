import Indexer.Path.Basic

/-!
Paths on a machine. A path may be written from somebody's home or from the working directory, and it
may go through links. To resolve it is to tell where it leads, by the entries on the way from the top.
-/
namespace Indexer

namespace Path

/-- Each part is the name of an entry, or two dots. -/
def IsTidy (p : Path) : Prop := ∀ part ∈ p.parts, part ≠ "" ∧ part ≠ "." ∧ '/' ∉ part.toList

/-- The path starts at the top, and each of its parts is the name of an entry. -/
structure IsNormal (p : Path) : Prop where
  absolute : p.slashes = 1
  isTidy : p.IsTidy
  no_dots : ".." ∉ p.parts

/-- No link is on the way from the top, nor at the end. -/
structure IsReal (link : Path → Option Path) (p : Path) : Prop where
  isNormal : p.IsNormal
  no_link : ∀ above, above ≠ [] → above <+: p.parts → link ⟨1, above⟩ = none

end Path

/-- What a machine knows about paths. -/
structure Host where
  /-- The home directory of a user, by name. The empty name is that of the user who asks. -/
  homeOf : String → Option String
  /-- Where relative paths start. -/
  workingDirectory : Path
  /-- Where the link at a place leads in the end, all links on its way followed. -/
  link : Path → Option Path
  isReal_workingDirectory : workingDirectory.IsReal link
  isReal_of_link : ∀ place target, link place = some target → target.IsReal link

namespace Host

/-- A machine without links and with one user, where relative paths start at the top. -/
def plain (home : String) : Host where
  homeOf user := if user = "" then some home else none
  workingDirectory := ⟨1, []⟩
  link _ := none
  isReal_workingDirectory := ⟨⟨rfl, nofun, nofun⟩, fun _ _ _ => rfl⟩
  isReal_of_link := nofun

/-- Replaces a `~` in front, and the name of a user behind it, by the home directory. -/
def expandHome (h : Host) (p : Path) : Except PathError Path :=
  match p.slashes, p.parts with
  | 0, first :: rest =>
    match first.toList with
    | '~' :: user =>
      match h.homeOf (String.ofList user) with
      | some home =>
        let home := Path.ofString home
        .ok { home with parts := home.parts ++ rest }
      | none => .error .noHome
    | _ => .ok p
  | _, _ => .ok p

/-- Takes the parts one by one. Two dots go back up from where the parts before have led, and a link
leads to its end. `done` holds the latest part first. -/
def follow (h : Host) (done : List String) : List String → List String
  | [] => done.reverse
  | part :: rest =>
    if part = ".." then h.follow (done.drop 1) rest
    else
      match h.link ⟨1, (part :: done).reverse⟩ with
      | some target => h.follow target.parts.reverse rest
      | none => h.follow (part :: done) rest

/-- The absolute path without dots and links. -/
def resolve (h : Host) (p : Path) : Path :=
  ⟨1, h.follow (if p.isAbsolute then [] else h.workingDirectory.parts.reverse) p.parts⟩

/-- A path as the settings keep it: home expanded, absolute, without dots and links. -/
def normalize (h : Host) (p : Path) : Except PathError Path := (h.expandHome p).map h.resolve

end Host
end Indexer
