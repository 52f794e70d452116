import Indexer.Path.Basic

/-!
Media types guessed from file names. A suffix that only tells how a file is packed is looked
through. A name that begins with the scheme of a URL is read as one, which matters for what comes
after a question mark or a number sign, and for data URLs, which state their type.
-/
namespace Indexer.MediaType

/-- The media types with the suffixes that stand for them, for a system that adds none of its own. -/
def table : List (String × List String) := [
  ("application/javascript", [".js", ".mjs"]),
  ("application/json", [".json"]),
  ("application/manifest+json", [".webmanifest"]),
  ("application/msword", [".doc", ".dot", ".wiz"]),
  ("application/n-quads", [".nq"]),
  ("application/n-triples", [".nt"]),
  ("application/octet-stream", [".a", ".bin", ".dll", ".exe", ".o", ".obj", ".so"]),
  ("application/oda", [".oda"]),
  ("application/pdf", [".pdf"]),
  ("application/pkcs7-mime", [".p7c"]),
  ("application/postscript", [".ai", ".eps", ".ps"]),
  ("application/trig", [".trig"]),
  ("application/vnd.apple.mpegurl", [".m3u", ".m3u8"]),
  ("application/vnd.ms-excel", [".xlb", ".xls"]),
  ("application/vnd.ms-powerpoint", [".pot", ".ppa", ".pps", ".ppt", ".pwz"]),
  ("application/wasm", [".wasm"]),
  ("application/x-bcpio", [".bcpio"]),
  ("application/x-cpio", [".cpio"]),
  ("application/x-csh", [".csh"]),
  ("application/x-dvi", [".dvi"]),
  ("application/x-gtar", [".gtar"]),
  ("application/x-hdf", [".hdf"]),
  ("application/x-hdf5", [".h5"]),
  ("application/x-latex", [".latex"]),
  ("application/x-mif", [".mif"]),
  ("application/x-netcdf", [".cdf", ".nc"]),
  ("application/x-pkcs12", [".p12", ".pfx"]),
  ("application/x-pn-realaudio", [".ram"]),
  ("application/x-python-code", [".pyc", ".pyo"]),
  ("application/x-sh", [".sh"]),
  ("application/x-shar", [".shar"]),
  ("application/x-shockwave-flash", [".swf"]),
  ("application/x-sv4cpio", [".sv4cpio"]),
  ("application/x-sv4crc", [".sv4crc"]),
  ("application/x-tar", [".tar"]),
  ("application/x-tcl", [".tcl"]),
  ("application/x-tex", [".tex"]),
  ("application/x-texinfo", [".texi", ".texinfo"]),
  ("application/x-troff", [".roff", ".t", ".tr"]),
  ("application/x-troff-man", [".man"]),
  ("application/x-troff-me", [".me"]),
  ("application/x-troff-ms", [".ms"]),
  ("application/x-ustar", [".ustar"]),
  ("application/x-wais-source", [".src"]),
  ("application/xml", [".rdf", ".wsdl", ".xpdl", ".xsl"]),
  ("application/zip", [".zip"]),
  ("audio/3gpp", [".3gp", ".3gpp"]),
  ("audio/3gpp2", [".3g2", ".3gpp2"]),
  ("audio/aac", [".aac", ".adts", ".ass", ".loas"]),
  ("audio/basic", [".au", ".snd"]),
  ("audio/mpeg", [".mp2", ".mp3"]),
  ("audio/opus", [".opus"]),
  ("audio/x-aiff", [".aif", ".aifc", ".aiff"]),
  ("audio/x-pn-realaudio", [".ra"]),
  ("audio/x-wav", [".wav"]),
  ("image/avif", [".avif"]),
  ("image/bmp", [".bmp"]),
  ("image/gif", [".gif"]),
  ("image/heic", [".heic"]),
  ("image/heif", [".heif"]),
  ("image/ief", [".ief"]),
  ("image/jpeg", [".jpe", ".jpeg", ".jpg"]),
  ("image/png", [".png"]),
  ("image/svg+xml", [".svg"]),
  ("image/tiff", [".tif", ".tiff"]),
  ("image/vnd.microsoft.icon", [".ico"]),
  ("image/x-cmu-raster", [".ras"]),
  ("image/x-portable-anymap", [".pnm"]),
  ("image/x-portable-bitmap", [".pbm"]),
  ("image/x-portable-graymap", [".pgm"]),
  ("image/x-portable-pixmap", [".ppm"]),
  ("image/x-rgb", [".rgb"]),
  ("image/x-xbitmap", [".xbm"]),
  ("image/x-xpixmap", [".xpm"]),
  ("image/x-xwindowdump", [".xwd"]),
  ("message/rfc822", [".eml", ".mht", ".mhtml", ".nws"]),
  ("text/css", [".css"]),
  ("text/csv", [".csv"]),
  ("text/html", [".htm", ".html"]),
  ("text/n3", [".n3"]),
  ("text/plain", [".bat", ".c", ".h", ".ksh", ".pl", ".srt", ".txt"]),
  ("text/richtext", [".rtx"]),
  ("text/tab-separated-values", [".tsv"]),
  ("text/vtt", [".vtt"]),
  ("text/x-python", [".py"]),
  ("text/x-setext", [".etx"]),
  ("text/x-sgml", [".sgm", ".sgml"]),
  ("text/x-vcard", [".vcf"]),
  ("text/xml", [".xml"]),
  ("video/mp4", [".mp4"]),
  ("video/mpeg", [".m1v", ".mpa", ".mpe", ".mpeg", ".mpg"]),
  ("video/quicktime", [".mov", ".qt"]),
  ("video/webm", [".webm"]),
  ("video/x-msvideo", [".avi"]),
  ("video/x-sgi-movie", [".movie"])]

/-- Suffixes that abbreviate two. -/
def abbreviations : List (String × String) :=
  [(".svgz", ".svg.gz"), (".tgz", ".tar.gz"), (".taz", ".tar.gz"), (".tz", ".tar.gz"),
    (".tbz2", ".tar.bz2"), (".txz", ".tar.xz")]

/-- Suffixes of packed files, which count only as written here. -/
def packings : List String := [".gz", ".Z", ".bz2", ".xz", ".br"]

/-- Splits a name before the last dot of its last component, unless only dots stand before it. -/
def splitSuffix (name : String) : String × String :=
  let cs := name.toList
  let component := (cs.reverse.takeWhile (· ≠ '/')).reverse
  let tail := (component.reverse.takeWhile (· ≠ '.')).reverse
  let stem := component.take (component.length - tail.length - 1)
  if tail.length = component.length || stem.all (· = '.') then (name, "")
  else
    (String.ofList (cs.take (cs.length - tail.length - 1)), String.ofList ('.' :: tail))

/-- The type of a suffix, in any case. -/
def ofSuffix? (suffix : String) : Option String :=
  (table.find? fun row => row.2.contains (Text.lower suffix)).map (·.1)

/-- Characters of the scheme of a URL, which starts with a letter. -/
def isOfScheme (c : Char) : Bool := c.isAlphanum || c = '+' || c = '-' || c = '.'

/-- The schemes of URLs that have parameters behind a semicolon. -/
def schemesWithParameters : List String :=
  ["ftp", "hdl", "prospero", "http", "https", "shttp", "rtsp", "rtspu", "sip", "sips", "mms",
    "sftp", "tel"]

/-- The scheme of a name that reads as a URL, in lower case, and the path behind it. A single letter
is no scheme. Control characters and blanks in front, tabs and line ends do not count. -/
def asUrl? (name : String) : Option (String × String) :=
  let cs := (name.toList.dropWhile fun c => c.toNat ≤ 32).filter fun c =>
    c ≠ '\t' ∧ c ≠ '\n' ∧ c ≠ '\r'
  let scheme := cs.takeWhile (· ≠ ':')
  if 1 < scheme.length && scheme.length < cs.length && scheme.head?.any Char.isAlpha
      && scheme.all isOfScheme then
    let path := ((cs.drop (scheme.length + 1)).takeWhile (· ≠ '#')).takeWhile (· ≠ '?')
    let scheme := Text.lower (String.ofList scheme)
    let path := if schemesWithParameters.contains scheme then path.takeWhile (· ≠ ';') else path
    some (scheme, String.ofList path)
  else none

def pdf : String := "application/pdf"

def word : String := "application/vnd.openxmlformats-officedocument.wordprocessingml.document"

def plainText : String := "text/plain"

def octetStream : String := "application/octet-stream"

/-- The type that a data URL states in front of its data. -/
def ofData? (path : String) : Option String :=
  let cs := path.toList
  if cs.contains ',' then
    let stated := (cs.takeWhile (· ≠ ',')).takeWhile (· ≠ ';')
    if stated.contains '=' || !stated.contains '/' then some plainText
    else some (String.ofList stated)
  else none

/-- The type that the suffixes at the end of a path suggest. -/
def ofPath? (path : String) : Option String :=
  let (stem, suffix) := splitSuffix path
  let (stem, suffix) :=
    match abbreviations.find? (·.1 = Text.lower suffix) with
    | some (_, long) => splitSuffix (stem ++ long)
    | none => (stem, suffix)
  let suffix := if packings.contains suffix then (splitSuffix stem).2 else suffix
  ofSuffix? suffix

/-- The media type that a file name suggests. -/
def ofName? (name : String) : Option String :=
  match asUrl? name with
  | some (scheme, path) => if scheme = "data" then ofData? path else ofPath? path
  | none => ofPath? name

end Indexer.MediaType
