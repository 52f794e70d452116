/-!
Log records. A part of the indexer that reports something returns the records in order; nobody
writes to a log on the side.
-/
namespace Indexer

inductive Level where
  | debug
  | info
  | warning
  | error
  deriving DecidableEq, Repr

namespace Level

def name : Level → String
  | debug => "DEBUG"
  | info => "INFO"
  | warning => "WARNING"
  | error => "ERROR"

/-- Warnings and errors are for the operator. -/
def isNotable : Level → Bool
  | debug | info => false
  | warning | error => true

end Level

/-- One line of the log. -/
structure LogRecord where
  level : Level
  text : String
  deriving DecidableEq, Repr

end Indexer
