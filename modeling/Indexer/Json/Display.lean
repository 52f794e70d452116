import Indexer.Json.Basic
import Indexer.Text.Quoted

/-!
JSON values inside messages. Strings within a value are quoted; a value that is a string itself can
also stand for its bare text.
-/
namespace Indexer.Json

open Indexer.Text

mutual

/-- A value as it is shown in a message. -/
def display : Json → String
  | .null => "None"
  | .bool true => "True"
  | .bool false => "False"
  | .number n => n.render
  | .str s => quoted s
  | .arr items => "[" ++ ", ".intercalate (displayItems items) ++ "]"
  | .obj fields => "\x7b" ++ ", ".intercalate (displayFields fields) ++ "\x7d"

def displayItems : List Json → List String
  | [] => []
  | v :: rest => display v :: displayItems rest

def displayFields : List (String × Json) → List String
  | [] => []
  | (k, v) :: rest => (quoted k ++ ": " ++ display v) :: displayFields rest

end

/-- A value as running text: a string stands for itself. -/
def bare : Json → String
  | .str s => s
  | v => display v

end Indexer.Json
