import AntiEntropator.Lakehouse.Writer
import Mathlib.Data.List.Induction

/-!
# The columns of a batch

The builder never fails, and column by column the batch holds the files' values
in order.  The row writer of the catalog model is this batch, read row by row.
-/

namespace AntiEntropator

@[simp]
theorem Uuid.length_asBytes (uuid : Uuid) : uuid.asBytes.length = 16 := by simp [Uuid.asBytes]

theorem Uuid.asBytes_injective : Function.Injective Uuid.asBytes := by
  intro first second same
  have bytes : ∀ index < 16, first.toNat / 256 ^ (15 - index) % 256 =
      second.toNat / 256 ^ (15 - index) % 256 := by
    intro index small
    have byte := congrArg (fun bytes => bytes[index]?.map UInt8.toNat) same
    simpa [Uuid.asBytes, small] using byte
  apply BitVec.eq_of_toNat_eq
  apply Nat.eq_of_testBit_eq
  intro bit
  by_cases high : 128 ≤ bit
  · have large : 2 ^ 128 ≤ 2 ^ bit := Nat.pow_le_pow_right (by omega) high
    rw [Nat.testBit_lt_two_pow (first.isLt.trans_le large),
      Nat.testBit_lt_two_pow (second.isLt.trans_le large)]
  · have byte := bytes (15 - bit / 8) (by omega)
    have place : 15 - (15 - bit / 8) = bit / 8 := by omega
    have power : 256 ^ (bit / 8) = 2 ^ (8 * (bit / 8)) := by rw [Nat.pow_mul]
    have width : (256 : Nat) = 2 ^ 8 := by decide
    rw [place, power, width] at byte
    have digit := congrArg (fun byte => byte.testBit (bit % 8)) byte
    have small : bit % 8 < 8 := Nat.mod_lt _ (by omega)
    have index : bit % 8 + 8 * (bit / 8) = bit := by omega
    simpa only [Nat.testBit_mod_two_pow, Nat.testBit_div_two_pow, small, decide_true,
      Bool.true_and, index] using digit

namespace Lakehouse

namespace Writer

/-- The builder after a list of files, column by column. -/
def BatchColumnsBuilder.filled (files : List FileInfo) : BatchColumnsBuilder where
  ids := files.map fun f => some f.id.asBytes
  sourcePaths := files.map fun f => f.sourcePath.display
  filenames := files.map FileInfo.filename
  extensions := files.map FileInfo.extension
  mimeTypes := files.map FileInfo.mimeType
  categories := files.map fun f => f.category.toText
  sizes := files.map fun f => asI64 f.sizeBytes
  contentHashes := files.map fun f => f.contentHash.map ContentHash.text
  partialHashes := files.map fun f => f.partialHash.map PartialHash.text
  createdAts := files.map fun f => f.createdAt.map timestampMicros
  modifiedAts := files.map fun f => f.modifiedAt.map timestampMicros
  scannedAts := files.map fun f => timestampMicros f.scannedAt
  objectUris := files.map FileInfo.objectUri
  ingestedAts := files.map fun f => f.ingestedAt.map timestampMicros
  suggestedNames := files.map FileInfo.suggestedName
  nameReasons := files.map FileInfo.nameReason
  isDuplicates := files.map FileInfo.isDuplicate
  duplicateOfs := files.map fun f => f.duplicateOf.map Uuid.asBytes
  parentDirs := files.map FileInfo.parentDir
  groupIds := files.map fun f => f.groupId.map Uuid.asBytes
  sourceIds := files.map FileInfo.sourceId
  relativePaths := files.map FileInfo.relativePath
  runIds := files.map fun f => f.runId.map Uuid.asBytes
  observationStatuses := files.map fun f => f.observationStatus.map ObservationStatus.asStr
  observedAts := files.map fun f => f.observedAt.map timestampMicros

theorem FixedSizeBinaryBuilder.appendValue_asBytes (builder : FixedSizeBinaryBuilder)
    (uuid : Uuid) : builder.appendValue uuid.asBytes = .ok (builder ++ [some uuid.asBytes]) := by
  simp [appendValue]

theorem FixedSizeBinaryBuilder.append_eq_ok (builder : FixedSizeBinaryBuilder)
    (uuid : Option Uuid) : builder.append uuid = .ok (builder ++ [uuid.map Uuid.asBytes]) := by
  cases uuid with
  | none => rfl
  | some uuid => exact builder.appendValue_asBytes uuid

theorem BatchColumnsBuilder.push_filled (files : List FileInfo) (f : FileInfo) :
    (filled files).push f = .ok (filled (files ++ [f])) := by
  simp only [push, filled, FixedSizeBinaryBuilder.appendValue_asBytes,
    FixedSizeBinaryBuilder.append_eq_ok, List.map_append, List.map_singleton]
  rfl

theorem BatchColumnsBuilder.foldlM_push (files : List FileInfo) :
    files.foldlM push {} = .ok (filled files) := by
  induction files using List.reverseRecOn with
  | nil => rfl
  | append_singleton files f inductionHypothesis =>
      have last : [f].foldlM push (filled files) = .ok (filled (files ++ [f])) := by
        rw [List.foldlM_cons, push_filled]
        rfl
      rw [List.foldlM_append, inductionHypothesis]
      exact last

/-! ## What each column holds -/

/-- The value of a file under a column: null where an optional field is `None`,
nothing where the catalog has no such column. -/
def catalogCell (info : FileInfo) : String → Option (Option Cell)
  | "id" => some (some (.bytes info.id.asBytes))
  | "source_path" => some (some (.text info.sourcePath.display))
  | "filename" => some (some (.text info.filename))
  | "extension" => some (some (.text info.extension))
  | "mime_type" => some (info.mimeType.map .text)
  | "category" => some (some (.text info.category.toText))
  | "size_bytes" => some (some (.int64 (asI64 info.sizeBytes)))
  | "content_hash" => some (info.contentHash.map fun hash => .text hash.text)
  | "partial_hash" => some (info.partialHash.map fun hash => .text hash.text)
  | "created_at" => some (info.createdAt.map fun time => .timestamp (timestampMicros time))
  | "modified_at" => some (info.modifiedAt.map fun time => .timestamp (timestampMicros time))
  | "scanned_at" => some (some (.timestamp (timestampMicros info.scannedAt)))
  | "object_uri" => some (info.objectUri.map .text)
  | "ingested_at" => some (info.ingestedAt.map fun time => .timestamp (timestampMicros time))
  | "suggested_name" => some (info.suggestedName.map .text)
  | "name_reason" => some (info.nameReason.map .text)
  | "is_duplicate" => some (some (.boolean info.isDuplicate))
  | "duplicate_of" => some (info.duplicateOf.map fun id => .bytes id.asBytes)
  | "parent_dir" => some (some (.text info.parentDir))
  | "group_id" => some (info.groupId.map fun id => .bytes id.asBytes)
  | "source_id" => some (info.sourceId.map .text)
  | "relative_path" => some (info.relativePath.map .text)
  | "run_id" => some (info.runId.map fun id => .bytes id.asBytes)
  | "observation_status" => some (info.observationStatus.map fun status => .text status.asStr)
  | "observed_at" => some (info.observedAt.map fun time => .timestamp (timestampMicros time))
  | _ => none

def arrowFields : List ArrowField :=
  fileCatalogFields.map fun field =>
    ⟨field.name, (field.fieldType.arrow?).getD .boolean, !field.isRequired, some field.id⟩

theorem schemaToArrowSchema_fileCatalog :
    schemaToArrowSchema buildFileCatalogSchema = .ok arrowFields := rfl

theorem mem_arrowFields {column : NestedField} (member : column ∈ fileCatalogFields) :
    ∃ field ∈ arrowFields, field.name = column.name ∧ field.fieldId = some column.id :=
  ⟨_, List.mem_map_of_mem member, rfl, rfl⟩

theorem names_nodup_arrowFields : (arrowFields.map ArrowField.name).Nodup := by decide

theorem ids_nodup_arrowFields : (arrowFields.map ArrowField.fieldId).Nodup := by decide

/-- Position by position, an array has the type of its field and holds what the
files have under the field's name. -/
theorem cells_of_mem_zip {files : List FileInfo} {field : ArrowField} {array : ArrowArray}
    (paired : (field, array) ∈
      arrowFields.zip (BatchColumnsBuilder.filled files).buildArrays) :
    array.dataType = field.dataType ∧
      array.cells.map some = files.map fun info => catalogCell info field.name := by
  simp only [arrowFields, fileCatalogFields, BatchColumnsBuilder.buildArrays, List.map_cons,
    List.map_nil, List.zip_cons_cons, List.zip_nil_left, List.mem_cons, List.not_mem_nil, or_false,
    Prod.mk.injEq] at paired
  rcases paired with ⟨rfl, rfl⟩ | ⟨rfl, rfl⟩ | ⟨rfl, rfl⟩ | ⟨rfl, rfl⟩ | ⟨rfl, rfl⟩ | ⟨rfl, rfl⟩ |
    ⟨rfl, rfl⟩ | ⟨rfl, rfl⟩ | ⟨rfl, rfl⟩ | ⟨rfl, rfl⟩ | ⟨rfl, rfl⟩ | ⟨rfl, rfl⟩ | ⟨rfl, rfl⟩ |
    ⟨rfl, rfl⟩ | ⟨rfl, rfl⟩ | ⟨rfl, rfl⟩ | ⟨rfl, rfl⟩ | ⟨rfl, rfl⟩ | ⟨rfl, rfl⟩ | ⟨rfl, rfl⟩ |
    ⟨rfl, rfl⟩ | ⟨rfl, rfl⟩ | ⟨rfl, rfl⟩ | ⟨rfl, rfl⟩ | ⟨rfl, rfl⟩
  all_goals
    refine ⟨rfl, ?_⟩
    simp [ArrowArray.cells, BatchColumnsBuilder.stringArray, BatchColumnsBuilder.timestampArray,
      BatchColumnsBuilder.filled, NestedField.required, NestedField.optional, NestedField.name,
      catalogCell, Function.comp_def]

theorem catalogCell_of_required {field : ArrowField} (member : field ∈ arrowFields)
    (required : field.nullable = false) (info : FileInfo) :
    catalogCell info field.name ≠ some none := by
  simp only [arrowFields, fileCatalogFields, List.map_cons, List.map_nil, List.mem_cons,
    List.not_mem_nil, or_false] at member
  rcases member with rfl | rfl | rfl | rfl | rfl | rfl | rfl | rfl | rfl | rfl | rfl | rfl | rfl |
    rfl | rfl | rfl | rfl | rfl | rfl | rfl | rfl | rfl | rfl | rfl | rfl
  -- An optional column is nullable; in a required one the files have a value.
  all_goals
    first
    | exact absurd required (by decide)
    | exact fun hole => Option.some_ne_none _ (Option.some.inj hole)

theorem admits_filled (files : List FileInfo) :
    List.Forall₂ (fun field array => ArrowField.Admits field files.length array) arrowFields
      (BatchColumnsBuilder.filled files).buildArrays := by
  refine List.forall₂_iff_zip.mpr ⟨rfl, fun {field array} paired => ?_⟩
  obtain ⟨type, cells⟩ := cells_of_mem_zip paired
  refine ⟨?_, type, fun required hole => ?_⟩
  · have lengths := congrArg List.length cells
    simpa [ArrowArray.length] using lengths
  · have null : some none ∈ array.cells.map some := List.mem_map_of_mem hole
    rw [cells] at null
    obtain ⟨info, -, empty⟩ := List.mem_map.mp null
    exact catalogCell_of_required (List.of_mem_zip paired).1 required info empty

def catalogBatch (files : List FileInfo) : RecordBatch where
  schema := arrowFields
  columns := (BatchColumnsBuilder.filled files).buildArrays
  numRows := files.length
  admitted := admits_filled files

theorem filesToBatch_eq_ok (files : List FileInfo) :
    filesToBatch files = .ok (catalogBatch files) := by
  have built := RecordBatch.tryNew_of_admitted (by simp [BatchColumnsBuilder.buildArrays])
    (admits_filled files)
  simp only [filesToBatch, schemaToArrowSchema_fileCatalog, BatchColumnsBuilder.foldlM_push]
  exact built

theorem catalogBatch_value {files : List FileInfo} {field : ArrowField}
    (member : field ∈ arrowFields) (row : Nat) :
    (catalogBatch files).value field.name row =
      files[row]?.bind fun info => catalogCell info field.name := by
  obtain ⟨array, paired⟩ := (catalogBatch files).exists_column member
  rw [RecordBatch.value_of_mem names_nodup_arrowFields paired]
  have cells := congrArg (fun cells => cells[row]?) (cells_of_mem_zip paired).2
  simp only [List.getElem?_map] at cells
  cases found : files[row]? with
  | none => simpa [found] using cells
  | some info =>
      simp only [found, Option.map_some, Option.map_eq_some_iff] at cells
      obtain ⟨cell, held, same⟩ := cells
      rw [held, same]
      rfl

/-! ## The batch as catalog rows -/

def rowCell (row : CatalogRow) : String → Option (Option Cell)
  | "id" => some (some (.bytes row.id.asBytes))
  | "source_path" => some (some (.text row.sourcePath))
  | "filename" => some (some (.text row.filename))
  | "extension" => some (some (.text row.extension))
  | "mime_type" => some (row.mimeType.map .text)
  | "category" => some (some (.text row.category))
  | "size_bytes" => some (some (.int64 row.sizeBytes))
  | "content_hash" => some (row.contentHash.map .text)
  | "partial_hash" => some (row.partialHash.map .text)
  | "created_at" => some (row.createdAt.map .timestamp)
  | "modified_at" => some (row.modifiedAt.map .timestamp)
  | "scanned_at" => some (some (.timestamp row.scannedAt))
  | "object_uri" => some (row.objectUri.map .text)
  | "ingested_at" => some (row.ingestedAt.map .timestamp)
  | "suggested_name" => some (row.suggestedName.map .text)
  | "name_reason" => some (row.nameReason.map .text)
  | "is_duplicate" => some (some (.boolean row.isDuplicate))
  | "duplicate_of" => some (row.duplicateOf.map fun id => .bytes id.asBytes)
  | "parent_dir" => some (some (.text row.parentDir))
  | "group_id" => some (row.groupId.map fun id => .bytes id.asBytes)
  | "source_id" => some (row.sourceId.map .text)
  | "relative_path" => some (row.relativePath.map .text)
  | "run_id" => some (row.runId.map fun id => .bytes id.asBytes)
  | "observation_status" => some (row.observationStatus.map .text)
  | "observed_at" => some (row.observedAt.map .timestamp)
  | _ => none

theorem catalogCell_eq_rowCell (info : FileInfo) (name : String) :
    catalogCell info name = rowCell (CatalogRow.push info) name := by
  unfold catalogCell rowCell
  split <;> simp [CatalogRow.push, Function.comp_def]

theorem rowCell_injective {first second : CatalogRow}
    (same : ∀ field ∈ fileCatalogFields, rowCell first field.name = rowCell second field.name) :
    first = second := by
  have present : ∀ {left right : Cell}, some (some left) = some (some right) → left = right :=
    fun equal => Option.some.inj (Option.some.inj equal)
  have bytes : ∀ {left right : Option Uuid},
      some (left.map fun id => Cell.bytes id.asBytes) =
        some (right.map fun id => Cell.bytes id.asBytes) → left = right :=
    fun equal => Option.map_injective
      (fun left right equal => Uuid.asBytes_injective (Cell.bytes.inj equal)) (Option.some.inj equal)
  have text : ∀ {left right : Option String},
      some (left.map Cell.text) = some (right.map Cell.text) → left = right :=
    fun equal => Option.map_injective (fun left right equal => Cell.text.inj equal)
      (Option.some.inj equal)
  have time : ∀ {left right : Option Int},
      some (left.map Cell.timestamp) = some (right.map Cell.timestamp) → left = right :=
    fun equal => Option.map_injective (fun left right equal => Cell.timestamp.inj equal)
      (Option.some.inj equal)
  simp only [fileCatalogFields, List.forall_mem_cons] at same
  obtain ⟨id, sourcePath, filename, extension, mimeType, category, sizeBytes, contentHash,
    partialHash, createdAt, modifiedAt, scannedAt, objectUri, ingestedAt, suggestedName,
    nameReason, isDuplicate, duplicateOf, parentDir, groupId, sourceId, relativePath, runId,
    observationStatus, observedAt, -⟩ := same
  cases first
  cases second
  simp only [CatalogRow.mk.injEq]
  exact ⟨Uuid.asBytes_injective (Cell.bytes.inj (present id)), Cell.text.inj (present sourcePath),
    Cell.text.inj (present filename), Cell.text.inj (present extension), text mimeType,
    Cell.text.inj (present category), Cell.int64.inj (present sizeBytes), text contentHash,
    text partialHash, time createdAt, time modifiedAt, Cell.timestamp.inj (present scannedAt),
    text objectUri, time ingestedAt, text suggestedName, text nameReason,
    Cell.boolean.inj (present isDuplicate), bytes duplicateOf, Cell.text.inj (present parentDir),
    bytes groupId, text sourceId, text relativePath, bytes runId, text observationStatus,
    time observedAt⟩

/-- Read row by row, the batch is what the catalog model appends. -/
theorem catalogBatch_rows {files : List FileInfo} {field : ArrowField}
    (member : field ∈ arrowFields) (row : Nat) :
    (catalogBatch files).value field.name row =
      (Lakehouse.filesToBatch files)[row]?.bind fun row => rowCell row field.name := by
  rw [catalogBatch_value member]
  simp only [Lakehouse.filesToBatch, List.getElem?_map]
  cases files[row]? with
  | none => rfl
  | some info => exact catalogCell_eq_rowCell info field.name

def plainFile : FileInfo where
  id := 0
  sourcePath := ⟨[[0x61]]⟩
  filename := "a"
  extension := "(none)"
  mimeType := none
  category := .other
  sizeBytes := 1
  contentHash := none
  partialHash := none
  createdAt := none
  modifiedAt := none
  scannedAt := 0
  objectUri := none
  ingestedAt := none
  suggestedName := none
  nameReason := none
  isDuplicate := false
  duplicateOf := none
  parentDir := ""
  groupId := none
  sourceId := none
  relativePath := none
  runId := none
  observationStatus := none
  observedAt := none

def textFile : FileInfo :=
  { plainFile with
    id := 1
    sourcePath := ⟨[[0x62, 0x2e, 0x74, 0x78, 0x74]]⟩
    filename := "b.txt"
    extension := ".txt"
    mimeType := some "text/plain"
    category := .document
    sizeBytes := 5
    modifiedAt := some 1000 }

end Writer

end Lakehouse

end AntiEntropator
