import Indexer.Json.Basic

/-!
Dropping what says nothing. A field whose value is `null`, or an object that has no fields or loses
them all, is left out; the items of an array all stay.
-/
namespace Indexer.Json

/-- A value that a field need not carry. -/
def isVoid : Json → Bool
  | .null => true
  | .obj [] => true
  | _ => false

mutual

/-- A value without the fields that say nothing. -/
def prune : Json → Json
  | .arr items => .arr (pruneItems items)
  | .obj fields => .obj (pruneFields fields)
  | v => v

def pruneItems : List Json → List Json
  | [] => []
  | v :: rest => prune v :: pruneItems rest

def pruneFields : List (String × Json) → List (String × Json)
  | [] => []
  | (k, v) :: rest =>
    if (prune v).isVoid then pruneFields rest else (k, prune v) :: pruneFields rest

end

end Indexer.Json
