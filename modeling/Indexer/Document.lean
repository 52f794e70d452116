import Indexer.Bytes.Base64
import Indexer.Content.Basic
import Indexer.Digest.Basic
import Indexer.File.Entry
import Indexer.Json.Printer
import Indexer.Json.Prune
import Indexer.Path.Uri
import Indexer.Settings.Basic

/-!
Documents, the units of the index. A document stands for one file: what the scan told about it, the
text that was extracted from it, and where it lies. Its id is a digest of its path, so the document
of a path is always the same one.
-/
namespace Indexer

/-- The id of the document for a path with a UTF-8 form. -/
def documentId (path : String) : String := Digest.Algorithm.md5.hex path.toUTF8

/-- The id of the document for a file. Without a UTF-8 form of its path there is none. -/
def FileEntry.documentId (e : FileEntry) : Except Fault String :=
  match e.pathFault with
  | some f => .error f
  | none => .ok (Indexer.documentId e.path.text)

/-- What a document tells about its file. -/
structure FileFacts where
  contentType : Option String
  lastModified : Moment
  indexingDate : DateTime
  size : Nat
  /-- The length of the text in the document. -/
  indexedChars : Nat
  name : String
  extension : String
  checksum : Option String
  url : String
  deriving DecidableEq, Repr

/-- Where the file of a document lies. -/
structure Location where
  /-- The id of the crawl root. -/
  root : String
  real : String
  /-- The path below the crawl root. -/
  virtualPath : String
  /-- The id of the document. -/
  id : String
  deriving DecidableEq, Repr

structure Document where
  file : FileFacts
  path : Location
  content : Option String
  metadata : Metadata
  owner : Option String
  group : Option String
  /-- The bytes of the file in base 64. -/
  attachment : Option String
  deriving DecidableEq, Repr

namespace Document

def id (d : Document) : String := d.path.id

/-- At most the given number of characters; all of them if the number is below zero. Where a text has
to be cut, the number must be a whole one. -/
def cap (limit : Quantity) (text : String) : Except Fault String :=
  if limit.isBelow 0 || limit.isAtLeast text.length then .ok text
  else
    match limit.toInt? with
    | some n => .ok (Text.start n.toNat text)
    | none => .error .brokenCap

/-- The document of a file. `raw` are the bytes of the file, which are kept only if the settings
say so. -/
def ofFile (s : Settings) (e : FileEntry) (c : Content) (checksum : Option String)
    (raw : Option ByteArray) (indexingDate : DateTime) : Except Fault Document := do
  let text ← cap s.indexedChars c.text
  let url ← e.path.uri.mapError .path
  let virtualPath ← e.virtualPath.mapError .path
  let id ← e.documentId
  return {
    file := {
      contentType := some c.mediaType
      lastModified := e.mtime
      indexingDate
      size := e.size.toNat
      indexedChars := text.length
      name := e.name
      extension := e.extension
      checksum
      url }
    path := {
      root := documentId e.root.text
      real := e.path.text
      virtualPath
      id }
    content := some text
    metadata := c.metadata
    owner := e.owner
    group := e.group
    attachment := if s.storeSource then raw.map Bytes.base64 else none }

def dateTime (d : DateTime) : Json := .str (Time.iso d)

/-- All fields of a document in the order of the index mapping. -/
def fields (d : Document) : Json :=
  .obj [
    ("file", .obj [
      ("content_type", .ofString? d.file.contentType),
      ("last_modified", dateTime d.file.lastModified.local),
      ("indexing_date", dateTime d.file.indexingDate),
      ("filesize", .nat d.file.size),
      ("indexed_chars", .nat d.file.indexedChars),
      ("filename", .str d.file.name),
      ("extension", .str d.file.extension),
      ("checksum", .ofString? d.file.checksum),
      ("url", .str d.file.url)]),
    ("path", .obj [
      ("root", .str d.path.root),
      ("real", .str d.path.real),
      ("virtual", .str d.path.virtualPath),
      ("encoded", .str d.path.id)]),
    ("content", .ofString? d.content),
    ("meta", .obj [
      ("author", .ofString? d.metadata.author),
      ("title", .ofString? d.metadata.title),
      ("date", .ofString? (d.metadata.date.map Time.iso)),
      ("keywords", (d.metadata.keywords.map fun ks => .arr (ks.map .ofString?)).getD .null)]),
    ("attributes", .obj [
      ("owner", .ofString? d.owner),
      ("group", .ofString? d.group)]),
    ("attachment", .ofString? d.attachment)]

/-- The document as it is sent: what is absent is left out. -/
def toJson (d : Document) : Json := d.fields.prune

/-- The line of a document. -/
def line (d : Document) : String := d.toJson.render .compact

end Document
end Indexer
