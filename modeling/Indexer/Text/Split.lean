/-!
Splitting and cutting texts. The pieces between marks are all kept, empty ones included, so a text
without a mark is one piece.
-/
namespace Indexer.Text

/-- The pieces of a text between the characters that are marks. -/
def splitAt (isMark : Char → Bool) (cs : List Char) : List (List Char) :=
  cs.foldr (fun c pieces =>
    if isMark c then [] :: pieces
    else match pieces with
      | [] => [[c]]
      | piece :: rest => (c :: piece) :: rest) [[]]

/-- The start of a text, with at most the given number of characters. -/
def start (count : Nat) (s : String) : String := String.ofList (s.toList.take count)

example : splitAt (· = ',') ['a', ',', ',', 'b'] = [['a'], [], ['b']] := by decide
example : splitAt (· = ',') [] = [[]] := by decide

end Indexer.Text
