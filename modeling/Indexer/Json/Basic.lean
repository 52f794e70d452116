import Indexer.Number.Basic

/-!
JSON values. Whole numbers and doubles are kept apart, and objects keep the order of their keys,
because both show in the texts made from a value.
-/
namespace Indexer

/-- A JSON value. The keys of an object are pairwise different. -/
inductive Json where
  | null
  | bool (b : Bool)
  | number (n : Number)
  | str (s : String)
  | arr (items : List Json)
  | obj (fields : List (String × Json))
  deriving Inhabited

namespace Json

def int (i : Int) : Json := .number (.int i)

def nat (n : Nat) : Json := .number (.int n)

def float (x : Float) : Json := .number (.float x)

/-- A text, or `null` where there is none. -/
def ofString? : Option String → Json
  | some s => .str s
  | none => .null

/-- Sets a key. A key that is there already keeps its place. -/
def setField (fields : List (String × Json)) (key : String) (value : Json) :
    List (String × Json) :=
  if fields.any (·.1 = key) then
    fields.map fun f => if f.1 = key then (key, value) else f
  else fields ++ [(key, value)]

/-- The object with the given entries; of several values for one key the last counts. -/
def ofFields (entries : List (String × Json)) : Json :=
  .obj (entries.foldl (fun fields e => setField fields e.1 e.2) [])

/-- The value of a key in a list of fields. -/
def lookup (fields : List (String × Json)) (key : String) : Option Json :=
  (fields.find? (·.1 = key)).map (·.2)

/-- The value of a key, if this is an object that has it. -/
def field? (v : Json) (key : String) : Option Json :=
  match v with
  | .obj fields => lookup fields key
  | _ => none

/-- Whether a value counts as true: everything but `null`, `false`, zero and what is empty. -/
def truthy : Json → Bool
  | .null => false
  | .bool b => b
  | .number (.int i) => i ≠ 0
  | .number (.float x) => x != 0.0
  | .str s => s ≠ ""
  | .arr items => !items.isEmpty
  | .obj fields => !fields.isEmpty

def isNull : Json → Bool
  | .null => true
  | _ => false

end Json
end Indexer
