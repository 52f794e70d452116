import Indexer.Settings.Basic
import Indexer.Number.Reading

/-!
Settings from environment variables. A variable that is empty is as good as absent, except for the
credentials and the digest, for which an empty text is a choice of its own.
-/
namespace Indexer.Settings

/-- Environment variables by name. -/
abbrev Environment := List (String × String)

/-- The value of a variable that is set. -/
def Environment.get? (env : Environment) (name : String) : Option String :=
  (env.find? (·.1 = name)).map (·.2)

/-- The value of a variable that is set and not empty. -/
def Environment.filled? (env : Environment) (name : String) : Option String :=
  (env.get? name).filter (· ≠ "")

/-- The paths of a comma-separated list, each without the white space around it. -/
def readRoots (s : String) : List Path :=
  (Text.splitAt (· = ',') s.toList).map fun piece =>
    Path.ofString (String.ofList (Text.trimChars Text.isBlank piece))

def readWholeNumber (s : String) : Except SettingsError Quantity :=
  match Number.excessDigits? s, Number.readInt? s with
  | some digits, _ => .error (.tooManyDigits Number.maxDigits digits)
  | none, some i => .ok (.whole i)
  | none, none => .error (.wholeNumber s)

def readNumber (s : String) : Except SettingsError Quantity :=
  match Number.readFloat? s with
  | some x => .ok (.number (.float x))
  | none => .error (.number s)

/-- Reads a variable where it is filled, and keeps a value otherwise. -/
def readFilled (env : Environment) (name : String) (kept : Quantity)
    (read : String → Except SettingsError Quantity) : Except Fault Quantity :=
  match env.filled? name with
  | some s => (read s).mapError .settings
  | none => .ok kept

/-- Overrides settings by the variables, without normalizing the result. -/
def override (env : Environment) (s : Settings) : Except Fault Settings := do
  let bulkSize ← readFilled env "CRAWLER_BULK_SIZE" s.bulkSize readWholeNumber
  let flushInterval ← readFilled env "CRAWLER_FLUSH_INTERVAL" s.flushInterval readNumber
  let maxRetries ← readFilled env "CRAWLER_MAX_RETRIES" s.maxRetries readWholeNumber
  let indexedChars ← readFilled env "CRAWLER_INDEXED_CHARS" s.indexedChars readWholeNumber
  return { s with
    roots := ((env.filled? "CRAWLER_ROOTS").map readRoots).getD s.roots
    statePath := ((env.filled? "CRAWLER_STATE_PATH").map Path.ofString).getD s.statePath
    url := (env.filled? "CRAWLER_URL").getD s.url
    index := (env.filled? "CRAWLER_INDEX").getD s.index
    username := (env.get? "CRAWLER_USERNAME").or s.username
    password := (env.get? "CRAWLER_PASSWORD").or s.password
    bulkSize, flushInterval, maxRetries, indexedChars
    checksum := match env.get? "CRAWLER_CHECKSUM" with
      | some t => some (Text.trim t)
      | none => s.checksum }

/-- The settings of an environment: the normalized initial ones, overridden and normalized again. -/
def ofEnvironment (host : Host) (env : Environment) : Except Fault Settings := do
  let home ← (host.expandHome ⟨0, ["~"]⟩).mapError .path
  let s ← (initial home).normalize host
  let s ← s.override env
  s.normalize host

end Indexer.Settings
