import AntiEntropator.Domain.Path

/-!
# Directory walks

A walk that follows no links yields an entry or an error at a time.  Reading an
entry's metadata may fail as well.
-/

namespace AntiEntropator

inductive FileType where
  | file
  | dir
  | symlink
  | other
  deriving DecidableEq

/-- An entry of a walk; its metadata is the length in bytes. -/
structure DirEntry where
  path : List UInt8
  fileType : FileType
  metadata : Except String UInt64

structure WalkError where
  path : Option (List UInt8)
  message : String

abbrev Walk := List (Except WalkError DirEntry)

namespace Path

def fileName (path : List UInt8) : Option OsString :=
  match (components path).getLast? with
  | some (.normal name) => some name
  | _ => none

/-- `rsplit_file_at_dot`: a name whose only dot is its first character is all stem. -/
def rsplitFileAtDot (file : OsString) : Option OsString × Option OsString :=
  if file = [0x2E, 0x2E] then (some file, none)
  else
    let after := (file.reverse.takeWhile (· ≠ 0x2E)).reverse
    match (file.reverse.dropWhile (· ≠ 0x2E)).tail? with
    | none => (none, some after)
    | some [] => (some file, none)
    | some before => (some before.reverse, some after)

def extension (path : List UInt8) : Option OsString :=
  match (fileName path).map rsplitFileAtDot with
  | some (some _, after) => after
  | _ => none

example : extension (utf8Bytes "/data/a.tar.gz") = some (utf8Bytes "gz") := by decide +kernel
example : extension (utf8Bytes "/data/.hidden") = none := by decide +kernel

end Path

/-- `DirEntry::file_name`: the whole path if it has no file name. -/
def DirEntry.fileName (entry : DirEntry) : OsString :=
  (Path.fileName entry.path).getD entry.path

end AntiEntropator
