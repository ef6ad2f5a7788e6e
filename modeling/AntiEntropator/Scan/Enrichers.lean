import AntiEntropator.Domain.Category
import AntiEntropator.Domain.Walk
import AntiEntropator.Json.Text
import AntiEntropator.Scan.Timestamps

/-!
# Names from external tools

What `exiftool`, `ffprobe` and `pdfinfo` print becomes the name of a file.  The
tools are programs that print any bytes; the parsers decide what is taken.
-/

namespace AntiEntropator.Scan

open Splitting

structure Command where
  program : String
  arguments : List OsString

/-- The programs and the parser that are not part of the repository. -/
structure Tools where
  /-- `run_tool`: the standard output of a run that ends in time and succeeds. -/
  runTool : Command → Option (List UInt8)
  /-- `serde_json::from_str::<Value>`. -/
  parseJson : String → Option Json

/-! ## Lines and words -/

/-- A line without the carriage return in front of its line feed. -/
def stripReturn (line : List Char) : List Char :=
  if line.getLast? = some '\r' then line.dropLast else line

/-- `str::lines`: what follows the last line feed is a line if it is not empty. -/
def lines (text : String) : List String :=
  let pieces := text.toList.splitOn '\n'
  let last := pieces.getLast?.getD []
  ((pieces.dropLast.map stripReturn) ++ if last = [] then [] else [last]).map String.ofList

def splitWhitespace (text : String) : List (List Char) :=
  (text.toList.splitOnP isWhitespace).filter (· ≠ [])

/-- `str::trim_start_matches` for a pattern that is not empty: at most one match for
each character. -/
def trimStartMatches (pattern : List Char) : Nat → List Char → List Char
  | 0, text => text
  | fuel + 1, text =>
      match pattern.isPrefixOf? text with
      | some rest => trimStartMatches pattern fuel rest
      | none => text

/-- `str::len`: the length in bytes. -/
def byteLength (text : String) : Nat := (utf8Bytes text).length

/-! ## Dates -/

/-- The extension of a path with its dot, or nothing. -/
def dottedExtension (table : CaseTable) (path : List UInt8) : String :=
  ((Path.extension path).map fun extension =>
    "." ++ table.toLowercase extension.toStringLossy).getD ""

/-- Parse EXIF datetime format "2024:01:15 14:30:45". -/
def parseExifDatetime (text : String) : Option String := do
  let parts := splitWhitespace text
  let date ← parts[0]?
  let time ← parts[1]?
  let dateParts := date.splitOn ':'
  let timeParts := time.splitOn ':'
  guard (dateParts.length = 3 ∧ 2 ≤ timeParts.length ∧ timeParts.length ≤ 3)
  guard (dateParts.all isU32)
  guard (timeParts.all isU32)
  let seconds := timeParts[2]?.getD ['0', '0']
  return String.ofList (['-'].intercalate dateParts ++
    '_' :: ['-'].intercalate (timeParts.take 2 ++ [seconds]))

/-- Extract datetime from image EXIF: the first line that is one. -/
def exiftoolDatetime (table : CaseTable) (tools : Tools) (path : List UInt8) :
    Option (String × String) := do
  let output ← tools.runTool ⟨"exiftool", [utf8Bytes "-DateTimeOriginal", utf8Bytes "-CreateDate",
    utf8Bytes "-s3", path]⟩
  (lines (OsString.toStringLossy output)).findSome? fun line =>
    let trimmed := trim line
    if trimmed = "" then none
    else (parseExifDatetime trimmed).map fun formatted =>
      (formatted ++ dottedExtension table path, "exif_datetime_original")

/-- `Value::get`: the last member with the key. -/
def get? (key : String) : Json → Option Json
  | .object members => (members.reverse.find? fun member => member.1 = key).map Prod.snd
  | _ => none

def asStr? : Json → Option String
  | .string text => some text
  | _ => none

def ffprobeDatetime (table : CaseTable) (tools : Tools) (path : List UInt8) :
    Option (String × String) := do
  let output ← tools.runTool ⟨"ffprobe", [utf8Bytes "-v", utf8Bytes "quiet",
    utf8Bytes "-print_format", utf8Bytes "json", utf8Bytes "-show_entries",
    utf8Bytes "format_tags=creation_time", path]⟩
  let json ← tools.parseJson (OsString.toStringLossy output)
  let format ← get? "format" json
  let tags ← get? "tags" format
  let value ← get? "creation_time" tags
  let creationTime ← asStr? value
  let formatted ← parseIsoDatetime creationTime
  return (formatted ++ dottedExtension table path, "ffprobe_creation_time")

/-! ## Titles -/

def isUselessTitle (table : CaseTable) (title : String) : Bool :=
  let lower := table.toLowercase title
  lower = "untitled" || lower = "document" || lower = "microsoft word" ||
    startsWithText lower "slide" || startsWithText lower "page" || byteLength lower < 4 ||
    title.toList.all fun character => character.isDigit || character = '-' || character = '_'

def isControl (character : Char) : Bool :=
  character.toNat < 0x20 || (0x7F ≤ character.toNat && character.toNat < 0xA0)

def sanitizeChar (character : Char) : Char :=
  if character ∈ ['/', '\x5c', ':', '*', '?', '\x22', '<', '>', '|'] then '_'
  else if character ∈ ['\n', '\r', '\t'] then '_'
  else if isControl character then '_'
  else character

def sanitizeFilename (text : String) : String :=
  String.ofList ((trim (String.ofList (text.toList.map sanitizeChar))).toList.take 100)

/-- Extract title from PDF: the first line with a title that is of use. -/
def pdfinfoTitle (table : CaseTable) (tools : Tools) (path : List UInt8) :
    Option (String × String) := do
  let output ← tools.runTool ⟨"pdfinfo", [path]⟩
  (lines (OsString.toStringLossy output)).findSome? fun line =>
    if startsWithText line "Title:" then
      let rest := trimStartMatches "Title:".toList line.toList.length line.toList
      let title := trim (String.ofList rest)
      if title ≠ "" ∧ 3 < byteLength title ∧ isUselessTitle table title = false then
        let sanitized := sanitizeFilename title
        if sanitized ≠ "" ∧ 3 < byteLength sanitized then
          some (sanitized ++ ".pdf", "pdfinfo_title")
        else none
      else none
    else none

example : parseExifDatetime "2024:01:15 14:30" = some "2024-01-15_14-30-00" := by decide
example : sanitizeFilename "a/b" = "a_b" := by decide

end AntiEntropator.Scan
