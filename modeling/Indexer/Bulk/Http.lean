import Indexer.Settings.Basic

/-!
The bulk endpoint over HTTP. Every answer and every fault of the client comes to a response body or
to one fault of the transport, which says whether the batch is worth sending again.
-/
namespace Indexer

/-- An HTTP response. The body is the decoded JSON text, or why it could not be decoded. -/
structure HttpResponse where
  status : Quantity
  text : String
  body : Except String Json

/-- How the bulk endpoint of a search node is reached. -/
structure HttpEndpoint where
  url : String
  timeout : Quantity
  /-- User and password. -/
  auth : Option (String × String)

namespace HttpEndpoint

/-- The media type of a request body. -/
def contentType : String := "application/x-ndjson"

/-- The endpoint of the node at an address. -/
def ofUrl (url : String) (timeout : Quantity) : HttpEndpoint where
  url := Settings.dropTrailingSlashes url ++ "/_bulk"
  timeout := timeout
  auth := none

/-- The endpoint that the settings describe. A user without a password has an empty one. -/
def ofSettings (s : Settings) : HttpEndpoint :=
  { ofUrl s.url s.requestTimeout with
    auth := (s.username.filter (· ≠ "")).map fun user => (user, s.password.getD "") }

/-- Statuses of a node that cannot take requests at the moment. -/
def unavailableStatuses : List Int := [429, 502, 503, 504]

/-- What a fault of the client means. A request without an answer may have been carried out. -/
def ofFault (e : HttpEndpoint) (f : Fault) : Fault :=
  match f with
  | .http kind text =>
    if kind.isTimeout then
      .timeout ("No response from " ++ e.url ++ " within " ++ e.timeout.render ++ "s")
    else if kind.isConnection then .connection ("Cannot reach " ++ e.url ++ ": " ++ text)
    else if kind = .contentDecoding then
      .protocol ("Cannot decode bulk response: " ++ text) .null
    else .connection ("Bulk request to " ++ e.url ++ " failed: " ++ text)
  | f => f

/-- What a response means. -/
def ofResponse (e : HttpEndpoint) (r : HttpResponse) : Except Fault Json :=
  if r.status.isOneOf [401, 403] then .error (.credentials r.status (Text.start 200 r.text))
  else if r.status.isExactly 408 then .error (.timeout ("Request timeout reported by " ++ e.url))
  else if r.status.isOneOf unavailableStatuses then
    .error (.connection (e.url ++ " unavailable (" ++ r.status.render ++ ")"))
  else if r.status.isAtLeast 300 then
    .error (.protocol ("Unexpected status " ++ r.status.render ++ " from " ++ e.url)
      (.str r.text))
  else
    match r.body with
    | .error reason => .error (.protocol ("Bulk response is not JSON: " ++ reason) (.str r.text))
    | .ok (.obj fields) => .ok (.obj fields)
    | .ok body => .error (.protocol "Bulk response is not an object" body)

/-- What comes of a request. -/
def interpret (e : HttpEndpoint) : Except Fault HttpResponse → Except Fault Json
  | .error f => .error (e.ofFault f)
  | .ok r => e.ofResponse r

end HttpEndpoint
end Indexer
