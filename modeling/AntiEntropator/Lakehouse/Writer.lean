import AntiEntropator.Lakehouse.Catalog
import AntiEntropator.Lakehouse.Schema

/-!
# Building a batch

How the writer turns file records into the columns of a record batch.
-/

namespace AntiEntropator

/-- `Uuid::as_bytes`: big-endian. -/
def Uuid.asBytes (uuid : Uuid) : List UInt8 :=
  (List.range 16).map fun index => UInt8.ofNat (uuid.toNat / 256 ^ (15 - index))

namespace Lakehouse.Writer

/-- `FixedSizeBinaryBuilder` of 16-byte values. -/
abbrev FixedSizeBinaryBuilder := List (Option (List UInt8))

def FixedSizeBinaryBuilder.appendValue (builder : FixedSizeBinaryBuilder) (value : List UInt8) :
    Except ArrowError FixedSizeBinaryBuilder :=
  if value.length = 16 then .ok (builder ++ [some value])
  else .error (.valueSize 16 value.length)

def FixedSizeBinaryBuilder.appendNull (builder : FixedSizeBinaryBuilder) :
    FixedSizeBinaryBuilder := builder ++ [none]

def FixedSizeBinaryBuilder.append (builder : FixedSizeBinaryBuilder) :
    Option Uuid → Except ArrowError FixedSizeBinaryBuilder
  | some uuid => builder.appendValue uuid.asBytes
  | none => .ok builder.appendNull

structure BatchColumnsBuilder where
  ids : FixedSizeBinaryBuilder := []
  sourcePaths : List String := []
  filenames : List String := []
  extensions : List String := []
  mimeTypes : List (Option String) := []
  categories : List String := []
  sizes : List Int := []
  contentHashes : List (Option String) := []
  partialHashes : List (Option String) := []
  createdAts : List (Option Int) := []
  modifiedAts : List (Option Int) := []
  scannedAts : List Int := []
  objectUris : List (Option String) := []
  ingestedAts : List (Option Int) := []
  suggestedNames : List (Option String) := []
  nameReasons : List (Option String) := []
  isDuplicates : List Bool := []
  duplicateOfs : FixedSizeBinaryBuilder := []
  parentDirs : List String := []
  groupIds : FixedSizeBinaryBuilder := []
  sourceIds : List (Option String) := []
  relativePaths : List (Option String) := []
  runIds : FixedSizeBinaryBuilder := []
  observationStatuses : List (Option String) := []
  observedAts : List (Option Int) := []

namespace BatchColumnsBuilder

def push (builder : BatchColumnsBuilder) (f : FileInfo) :
    Except ArrowError BatchColumnsBuilder := do
  let ids ← builder.ids.appendValue f.id.asBytes
  let builder := { builder with
    ids
    sourcePaths := builder.sourcePaths ++ [f.sourcePath.display]
    filenames := builder.filenames ++ [f.filename]
    extensions := builder.extensions ++ [f.extension]
    mimeTypes := builder.mimeTypes ++ [f.mimeType]
    categories := builder.categories ++ [f.category.toText]
    sizes := builder.sizes ++ [asI64 f.sizeBytes]
    contentHashes := builder.contentHashes ++ [f.contentHash.map ContentHash.text]
    partialHashes := builder.partialHashes ++ [f.partialHash.map PartialHash.text]
    createdAts := builder.createdAts ++ [f.createdAt.map timestampMicros]
    modifiedAts := builder.modifiedAts ++ [f.modifiedAt.map timestampMicros]
    scannedAts := builder.scannedAts ++ [timestampMicros f.scannedAt]
    objectUris := builder.objectUris ++ [f.objectUri]
    ingestedAts := builder.ingestedAts ++ [f.ingestedAt.map timestampMicros]
    suggestedNames := builder.suggestedNames ++ [f.suggestedName]
    nameReasons := builder.nameReasons ++ [f.nameReason]
    isDuplicates := builder.isDuplicates ++ [f.isDuplicate] }
  let duplicateOfs ← builder.duplicateOfs.append f.duplicateOf
  let builder := { builder with duplicateOfs, parentDirs := builder.parentDirs ++ [f.parentDir] }
  let groupIds ← builder.groupIds.append f.groupId
  let builder := { builder with
    groupIds
    sourceIds := builder.sourceIds ++ [f.sourceId]
    relativePaths := builder.relativePaths ++ [f.relativePath] }
  let runIds ← builder.runIds.append f.runId
  return { builder with
    runIds
    observationStatuses :=
      builder.observationStatuses ++ [f.observationStatus.map ObservationStatus.asStr]
    observedAts := builder.observedAts ++ [f.observedAt.map timestampMicros] }

def stringArray (values : List (Option String)) : ArrowArray := .text .utf8 values

/-- `TimestampMicrosecondArray::from(values).with_timezone("+00:00")`. -/
def timestampArray (values : List (Option Int)) : ArrowArray := .timestamp (some "+00:00") values

def buildArrays (builder : BatchColumnsBuilder) : List ArrowArray :=
  [ .fixedSizeBinary 16 builder.ids,
    stringArray (builder.sourcePaths.map some),
    stringArray (builder.filenames.map some),
    stringArray (builder.extensions.map some),
    stringArray builder.mimeTypes,
    stringArray (builder.categories.map some),
    .int64 (builder.sizes.map some),
    stringArray builder.contentHashes,
    stringArray builder.partialHashes,
    timestampArray builder.createdAts,
    timestampArray builder.modifiedAts,
    timestampArray (builder.scannedAts.map some),
    stringArray builder.objectUris,
    timestampArray builder.ingestedAts,
    stringArray builder.suggestedNames,
    stringArray builder.nameReasons,
    .boolean (builder.isDuplicates.map some),
    .fixedSizeBinary 16 builder.duplicateOfs,
    stringArray (builder.parentDirs.map some),
    .fixedSizeBinary 16 builder.groupIds,
    stringArray builder.sourceIds,
    stringArray builder.relativePaths,
    .fixedSizeBinary 16 builder.runIds,
    stringArray builder.observationStatuses,
    timestampArray builder.observedAts ]

end BatchColumnsBuilder

def filesToBatch (files : List FileInfo) : Except ArrowError RecordBatch := do
  let arrowSchema ← schemaToArrowSchema buildFileCatalogSchema
  let builder ← files.foldlM BatchColumnsBuilder.push {}
  RecordBatch.tryNew arrowSchema builder.buildArrays

end Lakehouse.Writer

end AntiEntropator
