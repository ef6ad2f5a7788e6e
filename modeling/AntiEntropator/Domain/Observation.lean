import AntiEntropator.Domain.ContentHash

/-!
# File observation identity

A catalog row is one observation of one path in one source during one ingest
run.  This module holds the parts of that identity that are pure data: the
status, the deterministic row identifier and the normalized relative path.
-/

namespace AntiEntropator

inductive ObservationStatus where
  /-- The path was present with the recorded content hash. -/
  | present
  /-- The path was established as absent after a complete source scan. -/
  | deleted
  deriving DecidableEq

/-- Catalog column value. -/
def ObservationStatus.asStr : ObservationStatus → String
  | .present => "present"
  | .deleted => "deleted"

def observationNamespace : Uuid := 0x6f2a1c3e8d4b4a579e0f2b7c5d1a3e8f#128

/-- `(len as u64).to_be_bytes()`. -/
def toBeBytes (length : Nat) : List UInt8 :=
  (List.range 8).map fun index => UInt8.ofNat (length / 256 ^ (7 - index))

/-- The byte string hashed into the row identifier: every part is preceded by
its length. -/
def observationName (sourceId relativePath : String) (contentHash : Option String)
    (status : ObservationStatus) : List UInt8 :=
  [sourceId, relativePath, contentHash.getD "", status.asStr].flatMap fun part =>
    toBeBytes part.utf8ByteSize ++ utf8Bytes part

def observationId (crypto : Crypto) (sourceId relativePath : String)
    (contentHash : Option String) (status : ObservationStatus) : Uuid :=
  crypto.newV5 observationNamespace (observationName sourceId relativePath contentHash status)

/-- Digests of sample contents, and the row identifiers of the sample paths `a`
and `b` of the source `/data` with these contents. -/
def sampleCrypto : Crypto where
  sha256 bytes :=
    if bytes = utf8Bytes "hello world" then
      [0xb9, 0x4d, 0x27, 0xb9, 0x93, 0x4d, 0x3e, 0x08, 0xa5, 0x2e, 0x52, 0xd7, 0xda, 0x7d, 0xab, 0xfa,
        0xc4, 0x84, 0xef, 0xe3, 0x7a, 0x53, 0x80, 0xee, 0x90, 0x88, 0xf7, 0xac, 0xe2, 0xef, 0xcd, 0xe9]
    else if bytes = utf8Bytes "hello there" then
      [0x12, 0x99, 0x8c, 0x01, 0x70, 0x66, 0xeb, 0x0d, 0x2a, 0x70, 0xb9, 0x4e, 0x6e, 0xd3, 0x19, 0x29,
        0x85, 0x85, 0x5c, 0xe3, 0x90, 0xf3, 0x21, 0xbb, 0xdb, 0x83, 0x20, 0x22, 0x88, 0x8b, 0xd2, 0x51]
    else []
  newV5 _ name :=
    if name = observationName "/data" "a" (some
        "b94d27b9934d3e08a52e52d7da7dabfac484efe37a5380ee9088f7ace2efcde9") .present then
      0xdae56d0c07c95926a4203edd7fdc2e28
    else if name = observationName "/data" "a" (some
        "12998c017066eb0d2a70b94e6ed3192985855ce390f321bbdb832022888bd251") .present then
      0x819d79aa6d3555efa77643330bbad315
    else if name = observationName "/data" "b" (some
        "b94d27b9934d3e08a52e52d7da7dabfac484efe37a5380ee9088f7ace2efcde9") .present then
      0x02c9e01437485db5ac767dc4ed73d5ac
    else if name = observationName "/data" "b" (some
        "12998c017066eb0d2a70b94e6ed3192985855ce390f321bbdb832022888bd251") .present then
      0x1156dd903ed45bea83a1de98e11803a5
    else 0

example : sampleCrypto.hexDigest (utf8Bytes "hello world") =
    "b94d27b9934d3e08a52e52d7da7dabfac484efe37a5380ee9088f7ace2efcde9" := by decide

/-- A path component that is not valid UTF-8 cannot become a catalog identity.
The rendering is lossy and for the error message only. -/
structure NonUtf8Path where
  display : String
  deriving DecidableEq

/-- The catalog form of a path relative to the ingest root: `/`-separated,
byte for byte. -/
def normalizeRelativePath (relative : List OsString) : Except NonUtf8Path String :=
  match relative.mapM OsString.toStr? with
  | some parts => .ok (joinSlash parts)
  | none => .error ⟨PathBuf.displayRelative relative⟩

theorem utf8Bytes_of_mapM_toStr? {relative : List OsString} {parts : List String}
    (decoded : relative.mapM OsString.toStr? = some parts) :
    parts.map utf8Bytes = relative := by
  induction relative generalizing parts with
  | nil =>
      simp only [List.mapM_nil, Option.pure_def, Option.some.injEq] at decoded
      subst parts
      rfl
  | cons component rest inductionHypothesis =>
      simp only [List.mapM_cons, Option.pure_def, Option.bind_eq_bind,
        Option.bind_eq_some_iff, Option.some.injEq] at decoded
      obtain ⟨part, valid, others, decodedRest, rfl⟩ := decoded
      simp [OsString.utf8Bytes_of_toStr? valid, inductionHypothesis decodedRest]

theorem utf8Bytes_normalizeRelativePath {relative : List OsString} {text : String}
    (normalized : normalizeRelativePath relative = .ok text) :
    utf8Bytes text = joinSlashBytes relative := by
  unfold normalizeRelativePath at normalized
  split at normalized
  next parts decoded =>
    cases normalized
    rw [utf8Bytes_joinSlash, utf8Bytes_of_mapM_toStr? decoded]
  next => cases normalized

/-- Two paths of normal components never collapse into one identity. -/
theorem normalizeRelativePath_injective {first second : List OsString} {text : String}
    (firstNormal : ∀ component ∈ first, NormalComponent component)
    (secondNormal : ∀ component ∈ second, NormalComponent component)
    (firstText : normalizeRelativePath first = .ok text)
    (secondText : normalizeRelativePath second = .ok text) : first = second := by
  apply joinSlashBytes_injective
  · exact fun part member => ⟨(firstNormal part member).1, (firstNormal part member).2.1⟩
  · exact fun part member => ⟨(secondNormal part member).1, (secondNormal part member).2.1⟩
  · rw [← utf8Bytes_normalizeRelativePath firstText, utf8Bytes_normalizeRelativePath secondText]

end AntiEntropator
