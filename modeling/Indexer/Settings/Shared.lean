import Indexer.Settings.Environment

/-!
The settings that all parts of the indexer share unless they are told otherwise. They are chosen by
somebody, or else made from the environment the first time that somebody asks for them.
-/
namespace Indexer

structure SharedSettings where
  /-- The settings in use and their number. -/
  current : Option (Nat × Settings)
  /-- How many settings have been in use so far. -/
  count : Nat

namespace SharedSettings

/-- Nobody has chosen or asked yet. -/
def empty : SharedSettings := ⟨none, 0⟩

/-- Puts settings in use. -/
def choose (c : SharedSettings) (s : Settings) : SharedSettings := ⟨some (c.count, s), c.count + 1⟩

/-- The settings in use and their number; if there are none, those of the environment are put in
use. -/
def get (c : SharedSettings) (host : Host) (env : Settings.Environment) :
    Except Fault (SharedSettings × Nat × Settings) :=
  match c.current with
  | some (number, s) => .ok (c, number, s)
  | none => (Settings.ofEnvironment host env).map fun s => (c.choose s, c.count, s)

end SharedSettings
end Indexer
