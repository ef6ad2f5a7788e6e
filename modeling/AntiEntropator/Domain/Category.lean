import AntiEntropator.Domain.FileInfo
import AntiEntropator.Domain.Lowercase
import Mathlib.Data.List.Infix

/-!
# File categories

The one place a category is decided: a MIME type wins when present, otherwise
the extension decides.  Both are compared in lowercase.
-/

namespace AntiEntropator

def containsText (text needle : String) : Bool := needle.toList <:+: text.toList

def startsWithText (text start : String) : Bool := start.toList <+: text.toList

def endsWithText (text ending : String) : Bool := ending.toList <:+ text.toList

namespace FileCategory

variable (table : CaseTable)

def fromMime (mime : String) : FileCategory :=
  let lower := table.toLowercase mime
  if startsWithText lower "image/" then .image
  else if startsWithText lower "video/" then .video
  else if startsWithText lower "audio/" then .audio
  else if startsWithText lower "text/" || ["pdf", "document", "msword", "spreadsheet", "excel",
      "presentation", "powerpoint", "epub"].any (containsText lower) then .document
  else if ["zip", "tar", "gzip", "bzip", "xz", "rar", "7z", "compressed", "archive"].any
      (containsText lower) then .archive
  else if ["javascript", "json", "xml", "html", "css", "python", "rust", "java"].any
      (containsText lower) then .code
  else if ["font", "woff", "ttf", "otf"].any (containsText lower) then .font
  else if ["parquet", "csv", "sqlite", "sql"].any (containsText lower) then .data
  else .other

def extensions : FileCategory → List String
  | .image => ["jpg", "jpeg", "png", "gif", "webp", "svg", "bmp", "ico", "tiff", "heic", "heif",
      "raw", "cr2", "nef", "eps"]
  | .video => ["mp4", "mkv", "avi", "mov", "wmv", "flv", "webm", "m4v", "mpg", "mpeg", "3gp"]
  | .audio => ["mp3", "wav", "flac", "aac", "ogg", "wma", "m4a", "opus", "aiff"]
  | .document => ["pdf", "doc", "docx", "xls", "xlsx", "xlsm", "ppt", "pptx", "odt", "ods",
      "odp", "rtf", "txt", "md", "epub", "mobi"]
  | .archive => ["zip", "tar", "gz", "bz2", "xz", "7z", "rar", "dmg", "iso", "pkg", "deb", "rpm"]
  | .code => ["rs", "py", "js", "ts", "jsx", "tsx", "java", "c", "cpp", "h", "hpp", "go", "rb",
      "php", "swift", "kt", "scala", "html", "css", "scss", "sass", "less", "json", "yaml", "yml",
      "toml", "xml", "sh", "bash", "zsh", "sql"]
  | .font => ["ttf", "otf", "woff", "woff2", "eot"]
  | .data => ["csv", "parquet", "avro", "orc", "sqlite", "db", "arrow"]
  | .other => []

def fromExtension (extension : String) : FileCategory :=
  let clean := String.ofList ((table.toLowercase extension).toList.dropWhile (· = '.'))
  ([.image, .video, .audio, .document, .archive, .code, .font, .data].find? fun category =>
    clean ∈ category.extensions).getD .other

/-- A MIME type wins when present; otherwise the extension decides. -/
def classify (extension : String) (mime : Option String) : FileCategory :=
  match mime with
  | some mime => fromMime table mime
  | none => fromExtension table extension

example : classify asciiCase ".JPG" none = .image := by decide

end FileCategory

end AntiEntropator
