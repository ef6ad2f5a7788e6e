import Mathlib.Algebra.Group.Nat.Defs
import Mathlib.Data.List.Basic

/-!
# Text, bytes and paths

`String` is a valid UTF-8 byte sequence, an `OsString` any byte sequence.  A
path below an ingest root is kept as its normal components; the conversions
between the two kinds of text are the strict one, which may fail, and the
lossy one used for display only.
-/

namespace AntiEntropator

/-- Bytes of a string, as hashing and length prefixes see them. -/
def utf8Bytes (text : String) : List UInt8 := text.toByteArray.data.toList

@[simp]
theorem utf8Bytes_append (first second : String) :
    utf8Bytes (first ++ second) = utf8Bytes first ++ utf8Bytes second := by
  simp [utf8Bytes, String.toByteArray_append]

theorem utf8Bytes_injective : Function.Injective utf8Bytes := by
  intro first second same
  have data : first.toByteArray.data = second.toByteArray.data := Array.toList_inj.mp same
  exact String.toByteArray_inj.mp (ByteArray.ext data)

/-- A file name on Unix: any bytes. -/
abbrev OsString := List UInt8

namespace OsString

/-- `OsStr::to_str`: the same bytes as text, when they are valid UTF-8. -/
def toStr? (name : OsString) : Option String := String.fromUTF8? name.toByteArray

theorem utf8Bytes_of_toStr? {name : OsString} {text : String}
    (valid : name.toStr? = some text) : utf8Bytes text = name := by
  simp only [toStr?, String.fromUTF8?] at valid
  split at valid
  next encoded =>
    cases valid
    simp [utf8Bytes, String.fromUTF8]
  next => cases valid

theorem toStr?_utf8Bytes (text : String) : toStr? (utf8Bytes text) = some text := by
  have bytes : (utf8Bytes text).toByteArray = text.toByteArray := by
    apply ByteArray.ext
    simp [utf8Bytes]
  rw [toStr?, bytes, String.fromUTF8?, dif_pos text.isValidUTF8]
  rfl

def replacementCharacter : Char := Char.ofNat 0xFFFD

/-- Continuation bytes after a first byte, with the range of the second one. -/
def sequenceShape (first : UInt8) : Option (Nat × UInt8 × UInt8) :=
  if 0xC2 ≤ first ∧ first ≤ 0xDF then some (1, 0x80, 0xBF)
  else if first = 0xE0 then some (2, 0xA0, 0xBF)
  else if first = 0xED then some (2, 0x80, 0x9F)
  else if 0xE1 ≤ first ∧ first ≤ 0xEF then some (2, 0x80, 0xBF)
  else if first = 0xF0 then some (3, 0x90, 0xBF)
  else if 0xF1 ≤ first ∧ first ≤ 0xF3 then some (3, 0x80, 0xBF)
  else if first = 0xF4 then some (3, 0x80, 0x8F)
  else none

/-- The character a lossy decoder emits for the longest decodable start of
`first :: rest`, and how many bytes of `rest` it consumes. -/
def lossyHead (first : UInt8) (rest : List UInt8) : Char × Nat :=
  if first < 0x80 then (Char.ofNat first.toNat, 0)
  else
    match sequenceShape first, rest with
    | some (extra, low, high), second :: later =>
        if low ≤ second ∧ second ≤ high then
          let more := (later.take (extra - 1)).takeWhile fun byte => 0x80 ≤ byte ∧ byte ≤ 0xBF
          if more.length = extra - 1 then
            (Char.ofNat ((second :: more).foldl (fun code byte => code * 64 + byte.toNat % 64)
              (first.toNat % 2 ^ (6 - extra))), extra)
          else (replacementCharacter, 1 + more.length)
        else (replacementCharacter, 0)
    | _, _ => (replacementCharacter, 0)

def lossyChars : Nat → List UInt8 → List Char
  | 0, _ => []
  | _, [] => []
  | fuel + 1, first :: rest =>
      let (character, used) := lossyHead first rest
      character :: lossyChars fuel (rest.drop used)

/-- `OsStr::to_string_lossy`: each undecodable stretch becomes U+FFFD. -/
def toStringLossy (name : OsString) : String := String.ofList (lossyChars name.length name)

example : toStringLossy [0x66, 0xFF, 0xE6, 0x97, 0xA5] = "f\uFFFD日" := by decide

end OsString

def joinSlash : List String → String
  | [] => ""
  | [part] => part
  | part :: next :: rest => part ++ "/" ++ joinSlash (next :: rest)

/-- A normal path component: what a directory entry can be called. -/
def NormalComponent (component : OsString) : Prop :=
  component ≠ [] ∧ (0x2F : UInt8) ∉ component ∧ component ≠ [0x2E] ∧ component ≠ [0x2E, 0x2E]

instance (component : OsString) : Decidable (NormalComponent component) :=
  inferInstanceAs (Decidable (_ ∧ _ ∧ _ ∧ _))

/-- A canonical absolute path: the components below `/`. -/
structure PathBuf where
  components : List OsString
  deriving DecidableEq

namespace PathBuf

/-- `Path::display` of a path relative to some directory. -/
def displayRelative (relative : List OsString) : String :=
  joinSlash (relative.map OsString.toStringLossy)

def display (path : PathBuf) : String := "/" ++ displayRelative path.components

/-- `path.strip_prefix(root).unwrap_or(path)`, as components. -/
def stripPrefix (path root : PathBuf) : List OsString :=
  if root.components <+: path.components then path.components.drop root.components.length
  else path.components

/-- What a walk that follows no links yields below `root`: the root's
components followed by one or more normal ones. -/
def Below (root path : PathBuf) : Prop :=
  root.components <+: path.components ∧ root.components.length < path.components.length ∧
    ∀ component ∈ path.components.drop root.components.length, NormalComponent component

instance (root path : PathBuf) : Decidable (Below root path) :=
  inferInstanceAs (Decidable (_ ∧ _ ∧ _))

theorem append_stripPrefix {root path : PathBuf} (below : Below root path) :
    root.components ++ path.stripPrefix root = path.components := by
  obtain ⟨⟨rest, split⟩, -, -⟩ := below
  simp [stripPrefix, ← split]

theorem stripPrefix_injective {root first second : PathBuf}
    (firstBelow : Below root first) (secondBelow : Below root second)
    (same : first.stripPrefix root = second.stripPrefix root) : first = second := by
  have components : first.components = second.components := by
    rw [← append_stripPrefix firstBelow, same, append_stripPrefix secondBelow]
  cases first
  cases second
  exact congrArg PathBuf.mk components

theorem normal_of_mem_stripPrefix {root path : PathBuf} (below : Below root path)
    {component : OsString} (member : component ∈ path.stripPrefix root) :
    NormalComponent component := by
  obtain ⟨isPrefix, -, normal⟩ := below
  exact normal component (by simpa [stripPrefix, isPrefix] using member)

end PathBuf

/-! ## Joined components determine the components -/

/-- The bytes of joined parts: the parts' bytes separated by `/`. -/
def joinSlashBytes : List (List UInt8) → List UInt8
  | [] => []
  | [part] => part
  | part :: next :: rest => part ++ 0x2F :: joinSlashBytes (next :: rest)

theorem utf8Bytes_joinSlash (parts : List String) :
    utf8Bytes (joinSlash parts) = joinSlashBytes (parts.map utf8Bytes) := by
  induction parts with
  | nil => rfl
  | cons part rest inductionHypothesis =>
      cases rest with
      | nil => rfl
      | cons next rest =>
          have slash : utf8Bytes "/" = [0x2F] := by decide
          simp only [joinSlash, joinSlashBytes, List.map_cons, utf8Bytes_append, slash]
          rw [inductionHypothesis, List.append_assoc]
          rfl

theorem append_slash_injective {first second later after : List UInt8}
    (firstPlain : (0x2F : UInt8) ∉ first) (secondPlain : (0x2F : UInt8) ∉ second)
    (same : first ++ 0x2F :: later = second ++ 0x2F :: after) :
    first = second ∧ later = after := by
  induction first generalizing second with
  | nil =>
      cases second with
      | nil => simpa using same
      | cons byte rest =>
          simp only [List.nil_append, List.cons_append, List.cons.injEq] at same
          exact absurd (same.1 ▸ List.mem_cons_self) secondPlain
  | cons byte rest inductionHypothesis =>
      cases second with
      | nil =>
          simp only [List.nil_append, List.cons_append, List.cons.injEq] at same
          exact absurd (same.1 ▸ List.mem_cons_self) firstPlain
      | cons other more =>
          simp only [List.cons_append, List.cons.injEq] at same
          obtain ⟨rfl, tails⟩ := same
          have parts := inductionHypothesis
            (fun member => firstPlain (List.mem_cons_of_mem _ member))
            (fun member => secondPlain (List.mem_cons_of_mem _ member)) tails
          exact ⟨by rw [parts.1], parts.2⟩

theorem joinSlashBytes_ne_nil {part : List UInt8} (rest : List (List UInt8))
    (nonempty : part ≠ []) : joinSlashBytes (part :: rest) ≠ [] := by
  cases rest with
  | nil => exact nonempty
  | cons next rest => simp [joinSlashBytes]

theorem slash_mem_joinSlashBytes (part next : List UInt8) (rest : List (List UInt8)) :
    (0x2F : UInt8) ∈ joinSlashBytes (part :: next :: rest) := by
  simp [joinSlashBytes]

theorem joinSlashBytes_injective {first second : List (List UInt8)}
    (firstNormal : ∀ part ∈ first, part ≠ [] ∧ (0x2F : UInt8) ∉ part)
    (secondNormal : ∀ part ∈ second, part ≠ [] ∧ (0x2F : UInt8) ∉ part)
    (same : joinSlashBytes first = joinSlashBytes second) : first = second := by
  induction first generalizing second with
  | nil =>
      cases second with
      | nil => rfl
      | cons part rest =>
          exact absurd same.symm (joinSlashBytes_ne_nil rest (secondNormal part (by simp)).1)
  | cons part rest inductionHypothesis =>
      have partPlain := (firstNormal part (by simp)).2
      cases second with
      | nil => exact absurd same (joinSlashBytes_ne_nil rest (firstNormal part (by simp)).1)
      | cons other others =>
          have otherPlain := (secondNormal other (by simp)).2
          cases rest with
          | nil =>
              cases others with
              | nil => simpa [joinSlashBytes] using same
              | cons next more =>
                  have slash := slash_mem_joinSlashBytes other next more
                  rw [← same] at slash
                  exact absurd slash partPlain
          | cons next rest =>
              cases others with
              | nil =>
                  have slash := slash_mem_joinSlashBytes part next rest
                  rw [same] at slash
                  exact absurd slash otherPlain
              | cons following more =>
                  obtain ⟨rfl, tails⟩ := append_slash_injective partPlain otherPlain same
                  rw [inductionHypothesis
                    (fun part member => firstNormal part (List.mem_cons_of_mem _ member))
                    (fun part member => secondNormal part (List.mem_cons_of_mem _ member)) tails]

end AntiEntropator
