import AntiEntropator.Ingest.State
import AntiEntropator.Lakehouse.Writer.Columns

/-!
# Reading the catalog back

`rows_from_batches` converts the three-column batches of the current-state
query to observation rows.  The reader may choose any physical encoding and cut
the rows into batches anywhere; what it returns is what ingest wrote.
-/

namespace AntiEntropator

def DateTime.minUtc : Int := -8334601228800000000000

def DateTime.maxUtc : Int := 8210266876799999999999

/-- The instants the library's type can hold. -/
def DateTime.InRange (instant : Int) : Prop :=
  DateTime.minUtc ≤ instant ∧ instant ≤ DateTime.maxUtc

instance (instant : Int) : Decidable (DateTime.InRange instant) :=
  inferInstanceAs (Decidable (_ ∧ _))

namespace Ingest

open Lakehouse

/-- `DateTime::from_timestamp_micros`, which refuses instants out of range. -/
def fromTimestampMicros? (micros : Int) : Option DateTime :=
  if DateTime.InRange (fromTimestampMicros micros) then some (fromTimestampMicros micros) else none

def floorMicros (instant : DateTime) : DateTime := fromTimestampMicros (timestampMicros instant)

theorem fromTimestampMicros?_timestampMicros {instant : DateTime}
    (inRange : DateTime.InRange instant) :
    fromTimestampMicros? (timestampMicros instant) = some (floorMicros instant) := by
  have floored : DateTime.InRange (fromTimestampMicros (timestampMicros instant)) := by
    simp only [DateTime.InRange, DateTime.minUtc, DateTime.maxUtc, fromTimestampMicros,
      timestampMicros] at inRange ⊢
    omega
  simp [fromTimestampMicros?, floored, floorMicros]

structure ProjectedRow where
  relativePath : Option String
  contentHash : Option String
  observedAt : Option Int
  deriving DecidableEq

/-- The loop of `rows_from_batches` over the rows of a batch. -/
def readRows : List ProjectedRow → Except Error (List ObservationRow)
  | [] => .ok []
  | ⟨some relativePath, some contentHash, some micros⟩ :: rest =>
      match fromTimestampMicros? micros with
      | some observedAt => (readRows rest).map (⟨relativePath, contentHash, observedAt⟩ :: ·)
      | none => .error (.msg "observed_at out of range")
  | _ :: rest => readRows rest

def projectedRows (paths hashes : List (Option String)) (ats : List (Option Int)) :
    List ProjectedRow :=
  (paths.zip (hashes.zip ats)).map fun row => ⟨row.1, row.2.1, row.2.2⟩

section RowsFromBatches

-- How the library words a failed cast.
variable (castText : DataType → DataType → String)

/-- `cast(column, target).context(text)`. -/
def castColumn (column : ArrowArray) (target : DataType) (text : String) :
    Except Error ArrowArray :=
  match column.cast? target with
  | some array => .ok array
  | none => .error ((Error.msg (castText column.dataType target)).context text)

/-- One turn of `rows_from_batches`. -/
def rowsFromBatch (batch : RecordBatch) : Except Error (List ObservationRow) :=
  match batch.columns with
  | [first, second, third] => do
      let paths ← castColumn castText first (.text .utf8) "relative_path column"
      let hashes ← castColumn castText second (.text .utf8) "content_hash column"
      let ats ← castColumn castText third (.timestamp none) "observed_at column"
      readRows (projectedRows paths.asString hashes.asString ats.asTimestamps)
  | columns => .error (.msg ("current-state query returned " ++ toString columns.length ++
      " columns, expected 3"))

def rowsFromBatches (batches : List RecordBatch) : Except Error (List ObservationRow) := do
  let rows ← batches.mapM (rowsFromBatch castText)
  return rows.flatten

/-- The observation of a row with all three values. -/
def ProjectedRow.complete? (row : ProjectedRow) : Option ObservationRow :=
  match row.relativePath, row.contentHash, row.observedAt with
  | some relativePath, some contentHash, some micros =>
      some ⟨relativePath, contentHash, fromTimestampMicros micros⟩
  | _, _, _ => none

def ProjectedRow.InRange (row : ProjectedRow) : Prop :=
  ∀ micros, row.observedAt = some micros → DateTime.InRange (fromTimestampMicros micros)

theorem readRows_of_inRange {rows : List ProjectedRow} (inRange : ∀ row ∈ rows, row.InRange) :
    readRows rows = .ok (rows.filterMap ProjectedRow.complete?) := by
  induction rows with
  | nil => rfl
  | cons row rest inductionHypothesis =>
      obtain ⟨first, later⟩ := List.forall_mem_cons.mp inRange
      have rest := inductionHypothesis later
      match row with
      | ⟨some relativePath, some contentHash, some micros⟩ =>
          have held : fromTimestampMicros? micros = some (fromTimestampMicros micros) := by
            simp [fromTimestampMicros?, first micros rfl]
          simp only [readRows, held, rest]
          rfl
      | ⟨none, _, _⟩ => exact rest
      | ⟨some _, none, _⟩ => exact rest
      | ⟨some _, some _, none⟩ => exact rest

/-- Three columns, in whatever encodings, that hold these rows. -/
def HoldsRows (batch : RecordBatch) (rows : List ProjectedRow) : Prop :=
  ∃ first second timezone, batch.columns =
    [.text first (rows.map ProjectedRow.relativePath),
      .text second (rows.map ProjectedRow.contentHash),
      .timestamp timezone (rows.map ProjectedRow.observedAt)]

theorem projectedRows_map (rows : List ProjectedRow) :
    projectedRows (rows.map ProjectedRow.relativePath) (rows.map ProjectedRow.contentHash)
      (rows.map ProjectedRow.observedAt) = rows := by
  induction rows with
  | nil => rfl
  | cons row rest inductionHypothesis =>
      simp only [projectedRows, List.map_cons, List.zip_cons_cons] at inductionHypothesis ⊢
      rw [inductionHypothesis]

theorem rowsFromBatch_of_holds {batch : RecordBatch} {rows : List ProjectedRow}
    (holds : HoldsRows batch rows) : rowsFromBatch castText batch = readRows rows := by
  obtain ⟨first, second, timezone, columns⟩ := holds
  simp only [rowsFromBatch, columns, castColumn, ArrowArray.cast?]
  show readRows (projectedRows _ _ _) = _
  simp only [ArrowArray.asString, ArrowArray.asTimestamps, projectedRows_map]

/-- Wherever the rows are cut into batches, their complete rows are read in
order. -/
theorem rowsFromBatches_of_holds {batches : List RecordBatch} {parts : List (List ProjectedRow)}
    (holds : List.Forall₂ HoldsRows batches parts)
    (inRange : ∀ row ∈ parts.flatten, row.InRange) :
    rowsFromBatches castText batches =
      .ok (parts.flatten.filterMap ProjectedRow.complete?) := by
  have read : batches.mapM (rowsFromBatch castText) =
      .ok (parts.map (List.filterMap ProjectedRow.complete?)) := by
    induction holds with
    | nil => rfl
    | @cons batch rows batches parts held _ inductionHypothesis =>
        rw [List.flatten_cons, List.forall_mem_append] at inRange
        rw [List.mapM_cons, rowsFromBatch_of_holds castText held, readRows_of_inRange inRange.1,
          inductionHypothesis inRange.2]
        rfl
  rw [rowsFromBatches, read, List.filterMap_flatten]
  rfl

end RowsFromBatches

/-! ## What was written -/

def Cell.text? : Cell → Option String
  | .text value => some value
  | _ => none

def Cell.timestamp? : Cell → Option Int
  | .timestamp micros => some micros
  | _ => none

/-- The `present` rows of a source in a batch, projected as the query asks. -/
def selectPresent (batch : RecordBatch) (sourceId : String) : List ProjectedRow :=
  (List.range batch.numRows).filterMap fun row =>
    if batch.value "source_id" row = some (some (.text sourceId)) ∧
        batch.value "observation_status" row =
          some (some (.text ObservationStatus.present.asStr)) then
      some
        { relativePath := (batch.value "relative_path" row).join.bind Cell.text?
          contentHash := (batch.value "content_hash" row).join.bind Cell.text?
          observedAt := (batch.value "observed_at" row).join.bind Cell.timestamp? }
    else none

def projected? (sourceId : String) (info : FileInfo) : Option ProjectedRow :=
  if info.sourceId = some sourceId ∧ info.observationStatus = some .present then
    some ⟨info.relativePath, info.contentHash.map ContentHash.text,
      info.observedAt.map timestampMicros⟩
  else none

theorem filterMap_range_getElem? {Item Image : Type} (items : List Item)
    (select : Item → Option Image) :
    ((List.range items.length).filterMap fun index => items[index]?.bind select) =
      items.filterMap select := by
  induction items using List.reverseRecOn with
  | nil => rfl
  | append_singleton items item inductionHypothesis =>
      have earlier : ∀ index ∈ List.range items.length,
          (items ++ [item])[index]?.bind select = items[index]?.bind select := by
        intro index inside
        rw [List.getElem?_append_left (List.mem_range.mp inside)]
      rw [List.length_append, List.length_singleton, List.range_succ, List.filterMap_append,
        List.filterMap_append, List.filterMap_congr earlier, inductionHypothesis]
      simp only [List.filterMap_cons, List.filterMap_nil, List.getElem?_concat_length,
        Option.bind_some]

theorem selectPresent_catalogBatch (files : List FileInfo) (sourceId : String) :
    selectPresent (Writer.catalogBatch files) sourceId = files.filterMap (projected? sourceId) := by
  have value : ∀ name ∈ fileCatalogFields.map NestedField.name, ∀ row,
      (Writer.catalogBatch files).value name row =
        files[row]?.bind fun info => Writer.catalogCell info name := by
    intro name known row
    obtain ⟨column, member, rfl⟩ := List.mem_map.mp known
    obtain ⟨field, listed, named, -⟩ := Writer.mem_arrowFields member
    rw [← named]
    exact Writer.catalogBatch_value listed row
  rw [← filterMap_range_getElem? files (projected? sourceId)]
  unfold selectPresent
  refine List.filterMap_congr fun row _ => ?_
  rw [value "source_id" (by decide), value "observation_status" (by decide),
    value "relative_path" (by decide), value "content_hash" (by decide),
    value "observed_at" (by decide)]
  cases files[row]? with
  | none => rfl
  | some info =>
      have status : info.observationStatus.map (fun status => Cell.text status.asStr) =
          some (.text ObservationStatus.present.asStr) ↔
            info.observationStatus = some .present := by
        rcases info.observationStatus with - | _ | _ <;> simp [ObservationStatus.asStr]
      have source : info.sourceId.map Cell.text = some (.text sourceId) ↔
          info.sourceId = some sourceId := by
        cases info.sourceId <;> simp
      show (if some (info.sourceId.map Cell.text) = some (some (.text sourceId)) ∧
          some (info.observationStatus.map fun status => Cell.text status.asStr) =
            some (some (.text ObservationStatus.present.asStr)) then
        some (ProjectedRow.mk ((info.relativePath.map Cell.text).bind Cell.text?)
          ((info.contentHash.map fun hash => Cell.text hash.text).bind Cell.text?)
          ((info.observedAt.map fun time => Cell.timestamp (timestampMicros time)).bind
            Cell.timestamp?)) else none) = projected? sourceId info
      simp only [Option.some.injEq, source, status, projected?]
      split
      · cases info.relativePath <;> cases info.contentHash <;> cases info.observedAt <;> rfl
      · rfl

def observation? (sourceId : String) (info : FileInfo) : Option ObservationRow :=
  if info.sourceId = some sourceId ∧ info.observationStatus = some .present then
    match info.relativePath, info.contentHash, info.observedAt with
    | some relativePath, some contentHash, some observedAt =>
        some ⟨relativePath, contentHash.text, observedAt⟩
    | _, _, _ => none
  else none

def ObservationRow.floored (row : ObservationRow) : ObservationRow :=
  { row with observedAt := floorMicros row.observedAt }

theorem complete?_projected? (sourceId : String) (info : FileInfo) :
    (projected? sourceId info).bind ProjectedRow.complete? =
      (observation? sourceId info).map ObservationRow.floored := by
  unfold projected? observation?
  split
  · cases info.relativePath <;> cases info.contentHash <;> cases info.observedAt <;> rfl
  · rfl

theorem observationRow?_push (sourceId : String) (info : FileInfo) :
    observationRow? sourceId (CatalogRow.push info) =
      (observation? sourceId info).map ObservationRow.floored := by
  have status : info.observationStatus.map ObservationStatus.asStr =
      some ObservationStatus.present.asStr ↔ info.observationStatus = some .present := by
    rcases info.observationStatus with - | _ | _ <;> simp [ObservationStatus.asStr]
  simp only [observationRow?, CatalogRow.push, status, observation?]
  split
  · cases info.relativePath <;> cases info.contentHash <;> cases info.observedAt <;> rfl
  · rfl

theorem observationRows_filesToBatch (files : List FileInfo) (sourceId : String) :
    observationRows (filesToBatch files) sourceId =
      (files.filterMap (observation? sourceId)).map ObservationRow.floored := by
  simp only [observationRows, filesToBatch, List.filterMap_map, List.map_filterMap]
  exact List.filterMap_congr fun info _ => observationRow?_push sourceId info

/-! ## Writing and reading -/

/-- The field of a file that belongs under a column, the size as it is. -/
def fieldCell (info : FileInfo) (name : String) : Option (Option Cell) :=
  if name = "size_bytes" then some (some (.int64 info.sizeBytes))
  else Writer.catalogCell info name

theorem catalogCell_eq_fieldCell {info : FileInfo} (small : info.sizeBytes < 2 ^ 63)
    (name : String) : Writer.catalogCell info name = fieldCell info name := by
  unfold fieldCell
  split
  next size =>
    rw [size]
    show some (some (Cell.int64 (asI64 info.sizeBytes))) = _
    rw [asI64_of_lt small]
  next => rfl

theorem inRange_of_projected? {sourceId : String} {info : FileInfo} {row : ProjectedRow}
    (inRange : ∀ time, info.observedAt = some time → DateTime.InRange time)
    (projected : projected? sourceId info = some row) : row.InRange := by
  unfold projected? at projected
  split at projected
  · cases projected
    intro micros taken
    obtain ⟨time, observed, rfl⟩ := Option.map_eq_some_iff.mp taken
    have held := fromTimestampMicros?_timestampMicros (inRange time observed)
    by_contra out
    simp [fromTimestampMicros?, out] at held
  · cases projected

/-- What ingest writes is what the next run reads: every column of the batch
holds the files' field in order, and reading its `present` rows of a source
back, cut into batches anywhere, gives the files' observations with times
floored to microseconds. -/
theorem what_ingest_writes_is_read_back (castText : DataType → DataType → String)
    {files : List FileInfo} (sizes : ∀ info ∈ files, info.sizeBytes < 2 ^ 63)
    (times : ∀ info ∈ files, ∀ time, info.observedAt = some time → DateTime.InRange time) :
    ∃ batch, Writer.filesToBatch files = .ok batch ∧ batch.numRows = files.length ∧
      batch.schema.map ArrowField.name = fileCatalogFields.map NestedField.name ∧
      (∀ column ∈ fileCatalogFields, ∀ row, batch.value column.name row =
        files[row]?.bind fun info => fieldCell info column.name) ∧
      ∀ sourceId batches parts, List.Forall₂ HoldsRows batches parts →
        parts.flatten = selectPresent batch sourceId →
        rowsFromBatches castText batches =
            .ok ((files.filterMap (observation? sourceId)).map ObservationRow.floored) ∧
          (rowsFromBatches castText batches).map reduceLatest =
            .ok (reduceLatest
              ((files.filterMap (observation? sourceId)).map ObservationRow.floored)) := by
  refine ⟨Writer.catalogBatch files, Writer.filesToBatch_eq_ok files, rfl, rfl, ?_, ?_⟩
  · intro column member row
    obtain ⟨field, listed, named, -⟩ := Writer.mem_arrowFields member
    rw [← named, Writer.catalogBatch_value listed]
    cases found : files[row]? with
    | none => rfl
    | some info => exact catalogCell_eq_fieldCell (sizes info (List.mem_of_getElem? found)) _
  · intro sourceId batches parts holds cut
    rw [selectPresent_catalogBatch] at cut
    have inRange : ∀ row ∈ parts.flatten, row.InRange := by
      rw [cut]
      intro row member
      obtain ⟨info, given, projected⟩ := List.mem_filterMap.mp member
      exact inRange_of_projected? (times info given) projected
    have complete : parts.flatten.filterMap ProjectedRow.complete? =
        (files.filterMap (observation? sourceId)).map ObservationRow.floored := by
      rw [cut, List.filterMap_filterMap, List.map_filterMap]
      exact List.filterMap_congr fun info _ => complete?_projected? sourceId info
    have read := rowsFromBatches_of_holds castText holds inRange
    rw [complete] at read
    exact ⟨read, by rw [read]; rfl⟩

/-- A file observed one and a half microseconds after the epoch. -/
def observedFile : FileInfo :=
  { Writer.plainFile with
    sourceId := some "/data"
    relativePath := some "a"
    contentHash := some ⟨"abcd"⟩
    observationStatus := some .present
    observedAt := some 1500 }

/-- Two observations of one file, beside a file of another source and one without a hash. -/
def observedFiles : List FileInfo :=
  [observedFile,
    { observedFile with sourceId := some "/other", contentHash := some ⟨"ef01"⟩ },
    { observedFile with relativePath := some "b", contentHash := none },
    { observedFile with contentHash := some ⟨"2345"⟩, observedAt := some 2500 }]

def observedBatch : RecordBatch where
  schema :=
    [ ⟨"relative_path", .text .utf8View, true, none⟩,
      ⟨"content_hash", .text .largeUtf8, true, none⟩,
      ⟨"observed_at", .timestamp (some "+00:00"), true, none⟩ ]
  columns :=
    [ .text .utf8View [some "a", some "b"],
      .text .largeUtf8 [some "abcd", none],
      .timestamp (some "+00:00") [some 1, some 1] ]
  numRows := 2
  admitted := .cons (by decide) (.cons (by decide) (.cons (by decide) .nil))

def laterBatch : RecordBatch where
  schema :=
    [ ⟨"relative_path", .text .utf8, true, none⟩,
      ⟨"content_hash", .text .utf8, true, none⟩,
      ⟨"observed_at", .timestamp (some "+00:00"), true, none⟩ ]
  columns :=
    [ .text .utf8 [some "a"],
      .text .utf8 [some "2345"],
      .timestamp (some "+00:00") [some 2] ]
  numRows := 1
  admitted := .cons (by decide) (.cons (by decide) (.cons (by decide) .nil))

theorem observedFiles_are_read_back :
    rowsFromBatches (fun _ _ => "") [observedBatch, laterBatch] =
      .ok [⟨"a", "abcd", 1000⟩, ⟨"a", "2345", 2000⟩] := by
  obtain ⟨batch, built, -, -, -, read⟩ :=
    @what_ingest_writes_is_read_back (fun _ _ => "") observedFiles (by decide) (by decide)
  cases (Writer.filesToBatch_eq_ok observedFiles).symm.trans built
  let parts : List (List ProjectedRow) :=
    [[⟨some "a", some "abcd", some 1⟩, ⟨some "b", none, some 1⟩],
      [⟨some "a", some "2345", some 2⟩]]
  have cut : parts.flatten = selectPresent (Writer.catalogBatch observedFiles) "/data" := by
    rw [selectPresent_catalogBatch]
    decide
  exact (read "/data" [observedBatch, laterBatch] parts
    (.cons ⟨.utf8View, .largeUtf8, some "+00:00", rfl⟩
      (.cons ⟨.utf8, .utf8, some "+00:00", rfl⟩ .nil)) cut).1

end Ingest

end AntiEntropator
