import Intake.FileName
import Intake.Text.LetterCase

/-!
# MIME types

The document formats the library tells apart, and the type a file name
suggests.

* `isPdf`, `isImage`, `isPlainText` are the three kinds that have text.
* `guess` reads the type off a file name. A name may carry a compression
  suffix behind the one that tells its type, and a name that begins with
  a scheme and a colon is read as a locator.
-/

namespace Intake.Mime

open Text

/-! ## Kinds of documents -/

/-- The type of PDF documents. -/
def pdf : String := "application/pdf"

/-- The raster formats that can be read directly. -/
def images : List String :=
  ["image/png", "image/jpeg", "image/tiff", "image/bmp", "image/webp"]

/-- Whether a type is the one of PDF documents. -/
def isPdf (mime : String) : Bool := mime == pdf

/-- Whether a type is a raster format that can be read directly. -/
def isImage (mime : String) : Bool := images.contains mime

/-- Whether a type is one of text. -/
def isPlainText (mime : String) : Bool := "text/".toList.isPrefixOf mime.toList

/-- No type is both a PDF and an image. -/
theorem isImage_eq_false_of_isPdf {mime : String} (h : isPdf mime = true) :
    isImage mime = false := by
  rw [eq_of_beq h]
  decide

/-! ## Guessing from a name -/

/-- The type of a file whose name tells none. -/
def unknown : String := "application/octet-stream"

/-- Types by suffix. -/
def suffixTypes : List (String × String) :=
  [(".3g2", "audio/3gpp2"), (".3gp", "audio/3gpp"), (".3gpp", "audio/3gpp"),
   (".3gpp2", "audio/3gpp2"), (".a", "application/octet-stream"),
   (".aac", "audio/aac"), (".adts", "audio/aac"), (".ai", "application/postscript"),
   (".aif", "audio/x-aiff"), (".aifc", "audio/x-aiff"), (".aiff", "audio/x-aiff"),
   (".ass", "audio/aac"), (".au", "audio/basic"), (".avi", "video/x-msvideo"),
   (".avif", "image/avif"), (".bat", "text/plain"),
   (".bcpio", "application/x-bcpio"), (".bin", "application/octet-stream"),
   (".bmp", "image/bmp"), (".c", "text/plain"), (".cdf", "application/x-netcdf"),
   (".cpio", "application/x-cpio"), (".csh", "application/x-csh"),
   (".css", "text/css"), (".csv", "text/csv"), (".dll", "application/octet-stream"),
   (".doc", "application/msword"), (".dot", "application/msword"),
   (".dvi", "application/x-dvi"), (".eml", "message/rfc822"),
   (".eps", "application/postscript"), (".etx", "text/x-setext"),
   (".exe", "application/octet-stream"), (".gif", "image/gif"),
   (".gtar", "application/x-gtar"), (".h", "text/plain"),
   (".h5", "application/x-hdf5"), (".hdf", "application/x-hdf"),
   (".heic", "image/heic"), (".heif", "image/heif"), (".htm", "text/html"),
   (".html", "text/html"), (".ico", "image/vnd.microsoft.icon"),
   (".ief", "image/ief"), (".jpe", "image/jpeg"), (".jpeg", "image/jpeg"),
   (".jpg", "image/jpeg"), (".js", "application/javascript"),
   (".json", "application/json"), (".ksh", "text/plain"),
   (".latex", "application/x-latex"), (".loas", "audio/aac"),
   (".m1v", "video/mpeg"), (".m3u", "application/vnd.apple.mpegurl"),
   (".m3u8", "application/vnd.apple.mpegurl"), (".man", "application/x-troff-man"),
   (".me", "application/x-troff-me"), (".mht", "message/rfc822"),
   (".mhtml", "message/rfc822"), (".mif", "application/x-mif"),
   (".mjs", "application/javascript"), (".mov", "video/quicktime"),
   (".movie", "video/x-sgi-movie"), (".mp2", "audio/mpeg"), (".mp3", "audio/mpeg"),
   (".mp4", "video/mp4"), (".mpa", "video/mpeg"), (".mpe", "video/mpeg"),
   (".mpeg", "video/mpeg"), (".mpg", "video/mpeg"),
   (".ms", "application/x-troff-ms"), (".n3", "text/n3"),
   (".nc", "application/x-netcdf"), (".nq", "application/n-quads"),
   (".nt", "application/n-triples"), (".nws", "message/rfc822"),
   (".o", "application/octet-stream"), (".obj", "application/octet-stream"),
   (".oda", "application/oda"), (".opus", "audio/opus"),
   (".p12", "application/x-pkcs12"), (".p7c", "application/pkcs7-mime"),
   (".pbm", "image/x-portable-bitmap"), (".pdf", "application/pdf"),
   (".pfx", "application/x-pkcs12"), (".pgm", "image/x-portable-graymap"),
   (".pl", "text/plain"), (".png", "image/png"),
   (".pnm", "image/x-portable-anymap"), (".pot", "application/vnd.ms-powerpoint"),
   (".ppa", "application/vnd.ms-powerpoint"), (".ppm", "image/x-portable-pixmap"),
   (".pps", "application/vnd.ms-powerpoint"),
   (".ppt", "application/vnd.ms-powerpoint"), (".ps", "application/postscript"),
   (".pwz", "application/vnd.ms-powerpoint"), (".py", "text/x-python"),
   (".pyc", "application/x-python-code"), (".pyo", "application/x-python-code"),
   (".qt", "video/quicktime"), (".ra", "audio/x-pn-realaudio"),
   (".ram", "application/x-pn-realaudio"), (".ras", "image/x-cmu-raster"),
   (".rdf", "application/xml"), (".rgb", "image/x-rgb"),
   (".roff", "application/x-troff"), (".rtx", "text/richtext"),
   (".sgm", "text/x-sgml"), (".sgml", "text/x-sgml"), (".sh", "application/x-sh"),
   (".shar", "application/x-shar"), (".snd", "audio/basic"),
   (".so", "application/octet-stream"), (".src", "application/x-wais-source"),
   (".srt", "text/plain"), (".sv4cpio", "application/x-sv4cpio"),
   (".sv4crc", "application/x-sv4crc"), (".svg", "image/svg+xml"),
   (".swf", "application/x-shockwave-flash"), (".t", "application/x-troff"),
   (".tar", "application/x-tar"), (".tcl", "application/x-tcl"),
   (".tex", "application/x-tex"), (".texi", "application/x-texinfo"),
   (".texinfo", "application/x-texinfo"), (".tif", "image/tiff"),
   (".tiff", "image/tiff"), (".tr", "application/x-troff"),
   (".trig", "application/trig"), (".tsv", "text/tab-separated-values"),
   (".txt", "text/plain"), (".ustar", "application/x-ustar"),
   (".vcf", "text/x-vcard"), (".vtt", "text/vtt"), (".wasm", "application/wasm"),
   (".wav", "audio/x-wav"), (".webm", "video/webm"),
   (".webmanifest", "application/manifest+json"), (".wiz", "application/msword"),
   (".wsdl", "application/xml"), (".xbm", "image/x-xbitmap"),
   (".xlb", "application/vnd.ms-excel"), (".xls", "application/vnd.ms-excel"),
   (".xml", "text/xml"), (".xpdl", "application/xml"), (".xpm", "image/x-xpixmap"),
   (".xsl", "application/xml"), (".xwd", "image/x-xwindowdump"),
   (".zip", "application/zip")]

/-- Suffixes that stand for two. -/
def shortSuffixes : List (String × String) :=
  [(".svgz", ".svg.gz"), (".tgz", ".tar.gz"), (".taz", ".tar.gz"), (".tz", ".tar.gz"),
   (".tbz2", ".tar.bz2"), (".txz", ".tar.xz")]

/-- Suffixes of compressed files; here capitals count. -/
def compressionSuffixes : List String := [".gz", ".Z", ".bz2", ".xz", ".br"]

/-- Cuts off the suffix of a name. Dots in front of the name make none, and
a lone dot at the end is a suffix. -/
def splitSuffix (name : List Char) : List Char × List Char :=
  match FileName.cutLastDot name with
  | (front, some suffix) => if front.all (· == '.') then (name, []) else (front, suffix)
  | (_, none) => (name, [])

/-- The type that belongs to a lower-case suffix. -/
def ofSuffix (suffix : List Char) : String :=
  (suffixTypes.lookup (String.ofList (lowered suffix))).getD unknown

/-- The type of a name without a scheme. -/
def ofName (name : List Char) : String :=
  let (front, suffix) := splitSuffix name
  let (front, suffix) :=
    match shortSuffixes.lookup (String.ofList (lowered suffix)) with
    | some long => splitSuffix (front ++ long.toList)
    | none => (front, suffix)
  if compressionSuffixes.contains (String.ofList suffix) then ofSuffix (splitSuffix front).2
  else ofSuffix suffix

/-! ## Names with a scheme -/

/-- Whether a character may stand in a scheme. -/
def isSchemeChar (c : Char) : Bool := c.isAlphanum || c == '+' || c == '-' || c == '.'

/-- Cuts a locator at its scheme, which begins with a letter and has more
than one character; it is returned in lower case. Controls and blanks in
front and tabs and line ends anywhere do not count. -/
def splitScheme (name : List Char) : Option (List Char × List Char) :=
  let shown := (name.dropWhile (·.toNat ≤ 0x20)).filter fun c =>
    c != '\t' && c != '\r' && c != '\n'
  match shown.span (· != ':') with
  | (scheme@(first :: _ :: _), _ :: rest) =>
    if first.isAlpha && scheme.all isSchemeChar then some (scheme.map Char.toLower, rest) else none
  | _ => none

/-- Schemes whose locators end in parameters. -/
def schemesWithParameters : List String :=
  ["ftp", "hdl", "prospero", "http", "imap", "https", "shttp", "rtsp", "rtspu", "rtsps", "sip", "sips",
   "mms", "sftp", "tel"]

/-- The type that a name suggests. A `data` locator names its type itself;
as a name holds no slash it is always the default one. -/
def guessChars (path : List Char) : String :=
  let name := FileName.last path
  match splitScheme name with
  | none => ofName name
  | some (scheme, rest) =>
    let rest := (rest.takeWhile (· != '#')).takeWhile (· != '?')
    let scheme := String.ofList scheme
    if scheme == "data" then
      if rest.contains ',' then "text/plain" else unknown
    else if schemesWithParameters.contains scheme then ofName (rest.takeWhile (· != ';'))
    else ofName rest

/-- `guessChars` on strings. -/
def guess (path : String) : String := guessChars path.toList

end Intake.Mime
