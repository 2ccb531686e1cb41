import Deposit.Package.Path
import Deposit.Package.Format

set_option autoImplicit false
set_option relaxedAutoImplicit false

/-!
Guessing the media type of a file from its path. An extension that abbreviates two is spelled out,
an extension that only tells of a compression is passed over, and the extension then left is looked
up without regard to case. A path that begins like a URI loses its scheme first, and a data URI
states its type itself.
-/

namespace Deposit.MediaType

def abbreviations : List (String × String) :=
  [(".svgz", ".svg.gz"), (".taz", ".tar.gz"), (".tbz2", ".tar.bz2"), (".tgz", ".tar.gz"),
   (".txz", ".tar.xz"), (".tz", ".tar.gz")]

def compressions : List String :=
  [".Z", ".br", ".bz2", ".gz", ".xz"]

def types : List (String × String) := [
  (".3g2", "audio/3gpp2"), (".3gp", "audio/3gpp"), (".3gpp", "audio/3gpp"),
  (".3gpp2", "audio/3gpp2"), (".a", "application/octet-stream"), (".aac", "audio/aac"),
  (".adts", "audio/aac"), (".ai", "application/postscript"), (".aif", "audio/x-aiff"),
  (".aifc", "audio/x-aiff"), (".aiff", "audio/x-aiff"), (".ass", "audio/aac"),
  (".au", "audio/basic"), (".avi", "video/x-msvideo"), (".avif", "image/avif"),
  (".bat", "text/plain"), (".bcpio", "application/x-bcpio"), (".bin", "application/octet-stream"),
  (".bmp", "image/bmp"), (".c", "text/plain"), (".cdf", "application/x-netcdf"),
  (".cpio", "application/x-cpio"), (".csh", "application/x-csh"), (".css", "text/css"),
  (".csv", "text/csv"), (".dll", "application/octet-stream"), (".doc", "application/msword"),
  (".dot", "application/msword"), (".dvi", "application/x-dvi"), (".eml", "message/rfc822"),
  (".eps", "application/postscript"), (".etx", "text/x-setext"),
  (".exe", "application/octet-stream"), (".gif", "image/gif"), (".gtar", "application/x-gtar"),
  (".h", "text/plain"), (".h5", "application/x-hdf5"), (".hdf", "application/x-hdf"),
  (".heic", "image/heic"), (".heif", "image/heif"), (".htm", "text/html"), (".html", "text/html"),
  (".ico", "image/vnd.microsoft.icon"), (".ief", "image/ief"), (".jpe", "image/jpeg"),
  (".jpeg", "image/jpeg"), (".jpg", "image/jpeg"), (".js", "application/javascript"),
  (".json", "application/json"), (".ksh", "text/plain"), (".latex", "application/x-latex"),
  (".loas", "audio/aac"), (".m1v", "video/mpeg"), (".m3u", "application/vnd.apple.mpegurl"),
  (".m3u8", "application/vnd.apple.mpegurl"), (".man", "application/x-troff-man"),
  (".me", "application/x-troff-me"), (".mht", "message/rfc822"), (".mhtml", "message/rfc822"),
  (".mif", "application/x-mif"), (".mjs", "application/javascript"), (".mov", "video/quicktime"),
  (".movie", "video/x-sgi-movie"), (".mp2", "audio/mpeg"), (".mp3", "audio/mpeg"),
  (".mp4", "video/mp4"), (".mpa", "video/mpeg"), (".mpe", "video/mpeg"), (".mpeg", "video/mpeg"),
  (".mpg", "video/mpeg"), (".ms", "application/x-troff-ms"), (".n3", "text/n3"),
  (".nc", "application/x-netcdf"), (".nq", "application/n-quads"),
  (".nt", "application/n-triples"), (".nws", "message/rfc822"),
  (".o", "application/octet-stream"), (".obj", "application/octet-stream"),
  (".oda", "application/oda"), (".opus", "audio/opus"), (".p12", "application/x-pkcs12"),
  (".p7c", "application/pkcs7-mime"), (".pbm", "image/x-portable-bitmap"),
  (".pdf", "application/pdf"), (".pfx", "application/x-pkcs12"),
  (".pgm", "image/x-portable-graymap"), (".pl", "text/plain"), (".png", "image/png"),
  (".pnm", "image/x-portable-anymap"), (".pot", "application/vnd.ms-powerpoint"),
  (".ppa", "application/vnd.ms-powerpoint"), (".ppm", "image/x-portable-pixmap"),
  (".pps", "application/vnd.ms-powerpoint"), (".ppt", "application/vnd.ms-powerpoint"),
  (".ps", "application/postscript"), (".pwz", "application/vnd.ms-powerpoint"),
  (".py", "text/x-python"), (".pyc", "application/x-python-code"),
  (".pyo", "application/x-python-code"), (".qt", "video/quicktime"),
  (".ra", "audio/x-pn-realaudio"), (".ram", "application/x-pn-realaudio"),
  (".ras", "image/x-cmu-raster"), (".rdf", "application/xml"), (".rgb", "image/x-rgb"),
  (".roff", "application/x-troff"), (".rtx", "text/richtext"), (".sgm", "text/x-sgml"),
  (".sgml", "text/x-sgml"), (".sh", "application/x-sh"), (".shar", "application/x-shar"),
  (".snd", "audio/basic"), (".so", "application/octet-stream"),
  (".src", "application/x-wais-source"), (".srt", "text/plain"),
  (".sv4cpio", "application/x-sv4cpio"), (".sv4crc", "application/x-sv4crc"),
  (".svg", "image/svg+xml"), (".swf", "application/x-shockwave-flash"),
  (".t", "application/x-troff"), (".tar", "application/x-tar"), (".tcl", "application/x-tcl"),
  (".tex", "application/x-tex"), (".texi", "application/x-texinfo"),
  (".texinfo", "application/x-texinfo"), (".tif", "image/tiff"), (".tiff", "image/tiff"),
  (".tr", "application/x-troff"), (".trig", "application/trig"),
  (".tsv", "text/tab-separated-values"), (".txt", "text/plain"),
  (".ustar", "application/x-ustar"), (".vcf", "text/x-vcard"), (".vtt", "text/vtt"),
  (".wasm", "application/wasm"), (".wav", "audio/x-wav"), (".webm", "video/webm"),
  (".webmanifest", "application/manifest+json"), (".wiz", "application/msword"),
  (".wsdl", "application/xml"), (".xbm", "image/x-xbitmap"), (".xlb", "application/vnd.ms-excel"),
  (".xls", "application/vnd.ms-excel"), (".xml", "text/xml"), (".xpdl", "application/xml"),
  (".xpm", "image/x-xpixmap"), (".xsl", "application/xml"), (".xwd", "image/x-xwindowdump"),
  (".zip", "application/zip")]

/-- The small form of a letter; the sign for kelvin has the same small form as the letter K. -/
def small (c : Char) : Char :=
  if c = '\u212a' then 'k' else c.toLower

def smallText (cs : List Char) : String :=
  String.ofList (cs.map small)

def splitScheme (cs : List Char) : Option (List Char × List Char) :=
  let scheme := cs.takeWhile fun c => c ≠ '/' && c ≠ ':'
  match cs.drop scheme.length with
  | ':' :: rest => if scheme.isEmpty then none else some (scheme, rest)
  | _ => none

/-- The type that a data URI states, from what follows its scheme. -/
def ofData? (cs : List Char) : Option String :=
  if cs.contains ',' then
    let head := cs.takeWhile (· ≠ ',')
    let stated := head.takeWhile (· ≠ ';')
    some (if stated.contains '=' || !stated.contains '/' then "text/plain"
      else String.ofList stated)
  else none

/-- Spells an abbreviation out, as often as its result ends in another one. -/
def spellOut : Nat → List Char × List Char → List Char × List Char
  | 0, parts => parts
  | fuel + 1, (base, extension) =>
    match abbreviations.lookup (smallText extension) with
    | some long => spellOut fuel (PackagePath.splitExtension (base ++ long.toList))
    | none => (base, extension)

def ofExtension? (cs : List Char) : Option String :=
  let (base, extension) := spellOut abbreviations.length (PackagePath.splitExtension cs)
  let extension :=
    if compressions.contains (String.ofList extension) then
      (PackagePath.splitExtension base).2
    else extension
  types.lookup (smallText extension)

/-- The type of a path, if it can be told. -/
def guess? (path : String) : Option String :=
  match splitScheme path.toList with
  | some (scheme, rest) =>
    if smallText scheme = "data" then ofData? rest else ofExtension? rest
  | none => ofExtension? path.toList

/-- The type of a path, or the type of bytes that nothing more is known about. -/
def ofPath (path : String) : String :=
  (guess? path).getD unknownMediaType

end Deposit.MediaType
