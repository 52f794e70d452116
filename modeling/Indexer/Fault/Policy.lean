import Indexer.Fault.Basic
import Indexer.Log

/-!
What happens about a fault: it is logged at a level that fits its kind, and the caller learns whether
to go on without the item, to try again later, or to stop the run.
-/
namespace Indexer

/-- What the caller of a failed operation does next. -/
inductive Recourse where
  | skip
  | retry
  | abort
  deriving DecidableEq, Repr

/-- How a kind of fault is met. -/
structure Policy where
  recourse : Recourse
  level : Level
  /-- The log line, made from the file and the text of the fault. -/
  wording : String → String → String

namespace Fault

/-- The policy for a fault. The kinds are tried from the more special to the more general. -/
def policy (f : Fault) : Policy :=
  match f with
  | .extraction _ =>
    ⟨.skip, .warning, fun file error =>
      "Cannot extract content, will retry next crawl: " ++ file ++ " - " ++ error⟩
  | .credentials _ _ =>
    ⟨.abort, .error, fun _ error => "Destination rejected credentials: " ++ error⟩
  | .connection _ => ⟨.retry, .warning, fun _ error => "Destination unreachable: " ++ error⟩
  | .timeout _ => ⟨.retry, .warning, fun _ error => "Bulk request timed out: " ++ error⟩
  | .protocol _ _ => ⟨.retry, .error, fun _ error => "Malformed bulk response: " ++ error⟩
  | _ =>
    match f.osKind? with
    | some .permission => ⟨.skip, .warning, fun file _ => "Permission denied: " ++ file⟩
    | some .notFound =>
      ⟨.skip, .debug, fun file _ => "File not found (possibly deleted): " ++ file⟩
    | some .isDirectory =>
      ⟨.skip, .debug, fun file _ => "Expected file, got directory: " ++ file⟩
    | some _ =>
      ⟨.skip, .warning, fun file error => "OS error reading file: " ++ file ++ " - " ++ error⟩
    | none =>
      ⟨.skip, .error, fun file error => "Unexpected error: " ++ file ++ " - " ++ error⟩

/-- The log line for a fault met at a file, if one is concerned, during some activity. -/
def report (f : Fault) (file : Option Path) (activity : String) : LogRecord :=
  let p := f.policy
  let text := p.wording ((file.map Path.text).getD "<unknown>") f.message
  ⟨p.level, if activity = "" then text else "[" ++ activity ++ "] " ++ text⟩

end Fault
end Indexer
