import AntiEntropator.Domain.Error
import AntiEntropator.FileHash
import AntiEntropator.Scan.Enrichers

/-!
# Scanning one file

`scan_file`: the record of a file from its path and metadata, with its MIME type
and hashes, and a better name where one is found.  The name comes from the tool
for the file's category, or from the time of the last change if the file's own
name says nothing.
-/

namespace AntiEntropator

/-! ## The record -/

def FileInfo.new (table : CaseTable) (id : Uuid) (now : DateTime) (sourcePath : PathBuf)
    (filename extension : String) (sizeBytes : Nat) (modifiedAt createdAt : Option DateTime) :
    FileInfo where
  id := id
  sourcePath := sourcePath
  filename := filename
  extension := extension
  mimeType := none
  category := FileCategory.classify table extension none
  sizeBytes := sizeBytes
  contentHash := none
  partialHash := none
  createdAt := createdAt
  modifiedAt := modifiedAt
  scannedAt := now
  objectUri := none
  ingestedAt := none
  suggestedName := none
  nameReason := none
  isDuplicate := false
  duplicateOf := none
  parentDir := ""
  groupId := none
  sourceId := none
  relativePath := none
  runId := none
  observationStatus := none
  observedAt := none

def FileInfo.withMimeType (table : CaseTable) (info : FileInfo) (mime : String) : FileInfo :=
  { info with
    category := FileCategory.classify table info.extension (some mime)
    mimeType := some mime }

def FileInfo.withPartialHash (info : FileInfo) (hash : PartialHash) : FileInfo :=
  { info with partialHash := some hash }

def FileInfo.withContentHash (info : FileInfo) (hash : ContentHash) : FileInfo :=
  { info with contentHash := some hash }

def FileInfo.withSuggestedName (info : FileInfo) (name reason : String) : FileInfo :=
  { info with suggestedName := some name, nameReason := some reason }

namespace Scan

open Splitting

/-! ## Generic names -/

def isAsciiHexdigit (character : Char) : Bool :=
  character.isDigit || ('a' ≤ character && character ≤ 'f') ||
    ('A' ≤ character && character ≤ 'F')

/-- Check for UUID pattern: 8-4-4-4-12 hex chars. -/
def isUuidLike (text : List Char) : Bool :=
  let parts := text.splitOn '-'
  5 ≤ parts.length &&
    (parts.take 5).map (fun part => byteLength (String.ofList part)) = [8, 4, 4, 4, 12] &&
    (parts.take 5).all fun part => part.all isAsciiHexdigit

/-- Long hex strings (20+ chars) are likely hashes. -/
def isHexHash (text : List Char) : Bool :=
  let base := upTo '.' text
  20 ≤ byteLength (String.ofList base) && base.all isAsciiHexdigit

def isGenericFilename (table : CaseTable) (name : String) : Bool :=
  let lower := table.toLowercase name
  ["download", "untitled", "screenshot", "img_", "image", "video", "photo"].any
      (startsWithText lower) ||
    ["(1)", "(2)", "(3)"].any (containsText lower) ||
    isUuidLike (upTo '.' lower.toList) || isHexHash lower.toList

/-! ## The scan -/

structure Metadata where
  len : Nat
  modified : Option DateTime
  created : Option DateTime

/-- `modified.format("%Y-%m-%d_%H-%M-%S")`: numbers with their signs between the two
separators. -/
structure TimeFormat where
  format : DateTime → String
  nonempty : ∀ time, format time ≠ ""
  characters : ∀ time, ∀ character ∈ (format time).toList,
    character = '+' ∨ character = '-' ∨ character = '_' ∨ character.isDigit = true

/-- Everything a scan learns from outside of the repository. -/
structure Environment where
  crypto : Crypto
  table : CaseTable
  tools : Tools
  times : TimeFormat
  /-- The metadata of a path that can be passed to the system. -/
  stat : List UInt8 → Except String Metadata
  /-- `infer::get_from_path`, if it finds a type. -/
  mimeType : List UInt8 → Option String
  openQuick : List UInt8 → Except String OpenFile
  openFull : List UInt8 → Except String OpenFile
  /-- The text of a panic in the blocking task. -/
  panicked : Option String
  id : Uuid
  now : DateTime

variable (environment : Environment)

/-- `tokio::fs::metadata`: paths with a NUL never reach the system. -/
def metadata (path : List UInt8) : Except String Metadata :=
  if 0 ∈ path then .error "file name contained an unexpected NUL byte"
  else environment.stat path

def filenameOf (path : List UInt8) : String :=
  ((Path.fileName path).map OsString.toStringLossy).getD ""

def extensionOf (path : List UInt8) : String :=
  ((Path.extension path).map fun extension =>
    "." ++ environment.table.toLowercase extension.toStringLossy).getD "(none)"

def toolName (path : List UInt8) (category : FileCategory) (extension : String) :
    Option (String × String) :=
  match category with
  | .image => exiftoolDatetime environment.table environment.tools path
  | .video => ffprobeDatetime environment.table environment.tools path
  | .audio => ffprobeDatetime environment.table environment.tools path
  | .document =>
      if extension = ".pdf" then pdfinfoTitle environment.table environment.tools path else none
  | _ => none

def getSuggestedName (path : List UInt8) (info : FileInfo) : Option (String × String) :=
  match toolName environment path info.category info.extension with
  | some result => some result
  | none =>
      -- Fallback: use modified date if filename looks generic.
      if isGenericFilename environment.table info.filename then
        info.modifiedAt.map fun modified =>
          (environment.times.format modified ++ info.extension, "modified_date_fallback")
      else none

/-- What the blocking task finds: MIME type, partial hash and full hash. -/
def inspect (path : List UInt8) (size : Nat) :
    Except String (Option String × Option String × Option String) :=
  match environment.panicked with
  | some text => .error text
  | none =>
      let part :=
        if 0 < size ∧ size < 100 * 1024 * 1024 then
          (quickSha256 environment.crypto (environment.openQuick path) (64 * 1024)).toOption
        else none
      let full :=
        if 0 < size ∧ size < 10 * 1024 * 1024 then
          (fullSha256 environment.crypto (environment.openFull path)).toOption
        else none
      .ok (environment.mimeType path, part, full)

/-- A fallible step whose error gets a context. -/
def withContext {Value : Type} (text : String) : Except String Value → Except Error Value
  | .ok value => .ok value
  | .error message => .error ((Error.msg message).context text)

def scanFile (path : PathBuf) : Except Error FileInfo := do
  let metadata ← withContext "Failed to read file metadata" (metadata environment path.bytes)
  let info := FileInfo.new environment.table environment.id environment.now path
    (filenameOf path.bytes) (extensionOf environment path.bytes) metadata.len metadata.modified
    metadata.created
  let (mimeType, partialHash, fullHash) ←
    withContext "Blocking I/O task panicked" (inspect environment path.bytes metadata.len)
  let info := (mimeType.map (info.withMimeType environment.table)).getD info
  let info := (partialHash.map fun hash => info.withPartialHash ⟨hash⟩).getD info
  let info := (fullHash.map fun hash => info.withContentHash ⟨hash⟩).getD info
  match getSuggestedName environment path.bytes info with
  | some (name, reason) => .ok (info.withSuggestedName name reason)
  | none => .ok info

end Scan

end AntiEntropator
