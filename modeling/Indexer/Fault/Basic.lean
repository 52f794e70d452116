import Indexer.Json.Display
import Indexer.Text.Blank
import Indexer.Number.Quantity
import Indexer.Path.Basic
import Indexer.Time.Moment

/-!
Faults: whatever ends an operation before its result. Faults of the surroundings (the file system,
the readers of document formats, the HTTP client) come with a text of their own; those of the indexer
are named by their cause, and `Fault.message` words them.
-/
namespace Indexer

/-- Kinds of file system and network faults as the operating system tells them. -/
inductive OsKind where
  | permission
  | notFound
  | isDirectory
  | notDirectory
  /-- Too many symbolic links. -/
  | loop
  | badDescriptor
  | connection
  | timeout
  | other
  deriving DecidableEq, Repr

/-- Kinds of faults of the HTTP client. -/
inductive HttpKind where
  | request
  | timeout
  | connectTimeout
  | readTimeout
  | connection
  | ssl
  | proxy
  | contentDecoding
  | chunkedEncoding
  | tooManyRedirects
  | invalidUrl
  | invalidProxyUrl
  | missingUrl
  | missingSchema
  | invalidSchema
  | invalidHeader
  | retry
  | streamConsumed
  | unrewindableBody
  | invalidJson
  | jsonDecoding
  | status
  deriving DecidableEq, Repr

namespace HttpKind

/-- No answer in time. A connection that was not made in time counts here and as unreachable. -/
def isTimeout : HttpKind → Bool
  | timeout | connectTimeout | readTimeout => true
  | _ => false

/-- The connection could not be made or was lost. -/
def isConnection : HttpKind → Bool
  | connection | connectTimeout | ssl | proxy => true
  | _ => false

/-- What was given was unusable: the address, a header, or a text that should be JSON. -/
def isValue : HttpKind → Bool
  | invalidUrl | invalidProxyUrl | missingSchema | invalidSchema | invalidHeader
  | jsonDecoding => true
  | _ => false

end HttpKind

/-- Kinds of faults of the PDF reader. -/
inductive PdfKind where
  | general
  | read
  | stream
  deriving DecidableEq, Repr

/-- Why settings are refused. -/
inductive SettingsError where
  | checksum (name : String)
  | bulkSize (got : Quantity)
  | flushInterval (got : Quantity)
  | maxRetries (got : Quantity)
  | wholeNumber (text : String)
  | tooManyDigits (limit count : Nat)
  | number (text : String)

/-- What ends an operation before its result. -/
inductive Fault where
  -- the surroundings
  | os (kind : OsKind) (text : String)
  | http (kind : HttpKind) (text : String)
  | pdf (kind : PdfKind) (text : String)
  | package (text : String)
  | archive (text : String)
  | value (text : String)
  | key (name : String)
  | type (text : String)
  | runtime (text : String)
  | notImplemented (text : String)
  | noSuchFile (path : Path)
  | directory (path : Path)
  | cancelled
  -- values that cannot be converted
  /-- A name without a UTF-8 form, because of so many bytes from a position on. -/
  | encoding (byte position count : Nat)
  | time (e : TimeError)
  | path (e : PathError)
  | settings (e : SettingsError)
  | unknownDigest (name : String)
  | incomparable
  | brokenCap
  | longDuration
  -- parts that are not there
  | noWorkers
  | noScanners
  | noLastModified
  | noQueue
  | noHandler
  | notRunning
  -- the crawl
  | crawl (text : String)
  | extraction (text : String)
  -- one bulk request
  | transport (text : String)
  | connection (text : String)
  | timeout (text : String)
  | credentials (status : Quantity) (text : String)
  | protocol (text : String) (raw : Json)
  -- the whole run
  | aborted (text : String)
  | credentialsRejected (cause : Fault)
  | malformedAgain (cause : Fault)
  | unreachable (retries : Quantity) (cause : Fault)
  | connectivityLost (count : Nat) (reason : Json)
  | unhandledTransport (cause : Fault)
  | senderFailed (cause : Fault)

def SettingsError.message : SettingsError → String
  | checksum name =>
    "Unsupported checksum algorithm: " ++ name
      ++ " (expected one of ['md5', 'sha1', 'sha256', 'xxh64'])"
  | bulkSize got => "bulk_size must be >= 1, got " ++ got.render
  | flushInterval got => "flush_interval must be > 0, got " ++ got.render
  | maxRetries got => "max_retries must be >= 0, got " ++ got.render
  | wholeNumber text => "invalid literal for int() with base 10: " ++ Text.start 200 (Text.quoted text)
  | tooManyDigits limit count =>
    "Exceeds the limit (" ++ Text.decimal limit
      ++ " digits) for integer string conversion: value has " ++ Text.decimal count
      ++ " digits; use sys.set_int_max_str_digits() to increase the limit"
  | number text => "could not convert string to float: " ++ Text.quoted text

namespace Fault

/-- The text of a fault. -/
def message : Fault → String
  | os _ text | http _ text | pdf _ text | package text | archive text | value text => text
  | key name => Text.quoted name
  | type text | runtime text | notImplemented text => text
  | noSuchFile p => "[Errno 2] No such file or directory: " ++ Text.quoted p.text
  | directory p => "[Errno 21] Is a directory: " ++ Text.quoted p.text
  | cancelled => ""
  | encoding byte position count =>
    if count ≤ 1 then
      "'utf-8' codec can't encode character '\\udc" ++ String.ofList (Text.hexDigits byte 2)
        ++ "' in position " ++ Text.decimal position ++ ": surrogates not allowed"
    else
      "'utf-8' codec can't encode characters in position " ++ Text.decimal position ++ "-"
        ++ Text.decimal (position + count - 1) ++ ": surrogates not allowed"
  | time e => e.message
  | path e => e.message
  | settings e => e.message
  | unknownDigest name => "unsupported hash type " ++ name
  | incomparable => "the times cannot be compared"
  | brokenCap => "a text cannot be cut at a number that is not whole"
  | longDuration => "int too large to convert to float"
  | noWorkers => "max_workers must be greater than 0"
  | noScanners => "Semaphore initial value must be >= 0"
  | noLastModified => "'NoneType' object has no attribute 'timestamp'"
  | noQueue | noHandler => ""
  | notRunning => "BulkBatcher is not running"
  | crawl text | extraction text | transport text | connection text | timeout text => text
  | credentials status text =>
    Text.trim ("Authorization failed (" ++ status.render ++ ") " ++ text)
  | protocol text _ => text
  | aborted text => text
  | credentialsRejected cause => cause.message
  | malformedAgain cause => "Repeated malformed bulk responses: " ++ cause.message
  | unreachable retries cause =>
    "Destination unreachable after " ++ retries.render ++ " retries: " ++ cause.message
  | connectivityLost count reason =>
    "All " ++ Text.decimal count ++ " items failed with connectivity errors: " ++ reason.bare
  | unhandledTransport cause => "Unhandled transport failure: " ++ cause.message
  | senderFailed cause => "Bulk sender failed: " ++ cause.message

/-- The fault behind a given-up run, where there is one. -/
def cause? : Fault → Option Fault
  | credentialsRejected c | malformedAgain c | unreachable _ c | unhandledTransport c
  | senderFailed c => some c
  | _ => none

/-- The run has been given up. -/
def isAbort : Fault → Bool
  | aborted _ | credentialsRejected _ | malformedAgain _ | unreachable _ _ | connectivityLost _ _
  | unhandledTransport _ | senderFailed _ => true
  | _ => false

/-- One bulk request failed as a whole. -/
def isTransport : Fault → Bool
  | transport _ | connection _ | timeout _ | credentials _ _ | protocol _ _ => true
  | _ => false

/-- The kind of operating system fault this is, if it is one. Every fault of the HTTP client is. -/
def osKind? : Fault → Option OsKind
  | os kind _ => some kind
  | http _ _ => some .other
  | noSuchFile _ => some .notFound
  | directory _ => some .isDirectory
  | time .calendar => some .other
  | _ => none

def isOs (f : Fault) : Bool := f.osKind?.isSome

/-- There is nothing at a path, or no way to it. -/
def isAbsence (f : Fault) : Bool :=
  match f.osKind? with
  | some .notFound | some .notDirectory | some .loop | some .badDescriptor => true
  | _ => false

/-- A value was unusable. -/
def isValue : Fault → Bool
  | value _ | encoding .. | path (.outside _ _) | path .relativeUri | settings _ | unknownDigest _
  | noWorkers | noScanners => true
  | http kind _ => kind.isValue
  | time (.year _) | time .nan => true
  | _ => false

/-- A look-up failed. -/
def isKey : Fault → Bool
  | key _ => true
  | _ => false

/-- Nothing is there to do the operation. -/
def isNotImplemented : Fault → Bool
  | notImplemented _ => true
  | _ => false

end Fault

section

variable {ε ε' α : Type} (f : ε → ε')

@[simp] theorem mapError_ok (a : α) : (Except.ok a : Except ε α).mapError f = .ok a := rfl

@[simp] theorem mapError_error (e : ε) :
    (Except.error e : Except ε α).mapError f = .error (f e) := rfl

end
end Indexer
