import AntiEntropator.Lakehouse.Writer.Columns

/-!
# Tables that take the rows

The check of the live table is the sole guard before a batch is written.  It
compares names, ids and types; whether a field is required decides in addition
if the rows fit.
-/

namespace AntiEntropator.Lakehouse

/-- The batch is a valid set of rows for the table, columns matched by field
id. -/
structure RecordBatch.ValidFor (batch : RecordBatch) (table : Schema) : Prop where
  required : ∀ field ∈ table.fields, field.isRequired = true →
    ∀ row < batch.numRows, ∃ cell, batch.valueById field.id row = some (some cell)
  supplied : ∀ field ∈ table.fields, ∀ column ∈ batch.schema, column.fieldId = some field.id →
    column.name = field.name ∧ field.fieldType.arrow? = some column.dataType
  unsupplied : ∀ field ∈ table.fields,
    (∀ column ∈ batch.schema, column.fieldId ≠ some field.id) → field.isRequired = false

namespace Writer

theorem arrow?_eq_some {column : NestedField} (member : column ∈ fileCatalogFields) :
    column.fieldType.arrow? = some (column.fieldType.arrow?.getD .boolean) := by
  have typed : ∀ column ∈ fileCatalogFields, column.fieldType.arrow?.isSome = true := by decide
  obtain ⟨type, found⟩ := Option.isSome_iff_exists.mp (typed column member)
  simp [found]

theorem catalogBatch_valueById {files : List FileInfo} {column : NestedField}
    (member : column ∈ fileCatalogFields) (row : Nat) :
    (catalogBatch files).valueById column.id row =
      files[row]?.bind fun info => catalogCell info column.name := by
  obtain ⟨field, listed, name, id⟩ := mem_arrowFields member
  obtain ⟨array, paired⟩ := (catalogBatch files).exists_column listed
  rw [RecordBatch.valueById_of_mem ids_nodup_arrowFields paired id, ← name,
    ← catalogBatch_value listed, RecordBatch.value_of_mem names_nodup_arrowFields paired]

theorem catalogCell_isSome {column : NestedField} (member : column ∈ fileCatalogFields)
    (info : FileInfo) : (catalogCell info column.name).isSome = true := by
  simp only [fileCatalogFields, List.mem_cons, List.not_mem_nil, or_false] at member
  rcases member with rfl | rfl | rfl | rfl | rfl | rfl | rfl | rfl | rfl | rfl | rfl | rfl | rfl |
    rfl | rfl | rfl | rfl | rfl | rfl | rfl | rfl | rfl | rfl | rfl | rfl
  all_goals rfl

section Accepted

variable {display : FieldType → String} {table : Schema}

/-- In an accepted table a catalog column's id belongs to that column. -/
theorem agrees_of_accepted (accepted : verifyTableSchema display table = .ok ())
    {field column : NestedField} (listed : field ∈ table.fields)
    (member : column ∈ fileCatalogFields) (same : field.id = column.id) :
    field.name = column.name ∧ field.fieldType = column.fieldType := by
  obtain ⟨actual, present, name, id, type⟩ :=
    (verifyTableSchema_eq_ok_iff display).mp accepted column member
  have one := List.inj_on_of_nodup_map table.ids_nodup listed present (same.trans id.symm)
  subst one
  exact ⟨name, type⟩

/-- Each required field of the table is a catalog column that every file
fills. -/
def Fills (files : List FileInfo) (table : Schema) : Prop :=
  ∀ field ∈ table.fields, field.isRequired = true →
    ∃ column ∈ fileCatalogFields, column.id = field.id ∧
      ∀ info ∈ files, catalogCell info column.name ≠ some none

instance (files : List FileInfo) (table : Schema) : Decidable (Fills files table) :=
  inferInstanceAs (Decidable (∀ field ∈ table.fields, field.isRequired = true →
    ∃ column ∈ fileCatalogFields, column.id = field.id ∧
      ∀ info ∈ files, catalogCell info column.name ≠ some none))

theorem validFor_iff_fills (accepted : verifyTableSchema display table = .ok ())
    (files : List FileInfo) : (catalogBatch files).ValidFor table ↔ Fills files table := by
  constructor
  · intro valid field listed required
    have supplied : ∃ column ∈ fileCatalogFields, column.id = field.id := by
      by_contra foreign
      have optional := valid.unsupplied field listed fun column member carried => by
        obtain ⟨origin, known, rfl⟩ := List.mem_map.mp member
        exact foreign ⟨origin, known, by simpa using carried⟩
      rw [optional] at required
      cases required
    obtain ⟨column, member, same⟩ := supplied
    refine ⟨column, member, same, fun info given empty => ?_⟩
    obtain ⟨row, inside, rfl⟩ := List.mem_iff_getElem.mp given
    obtain ⟨cell, held⟩ := valid.required field listed required row inside
    rw [← same, catalogBatch_valueById member, List.getElem?_eq_getElem inside,
      Option.bind_some, empty] at held
    cases held
  · intro filled
    refine ⟨?_, ?_, ?_⟩
    · intro field listed required row inside
      obtain ⟨column, member, same, set⟩ := filled field listed required
      rw [← same, catalogBatch_valueById member, List.getElem?_eq_getElem inside,
        Option.bind_some]
      obtain ⟨value, found⟩ := Option.isSome_iff_exists.mp (catalogCell_isSome member files[row])
      cases value with
      | none => exact absurd found (set _ (List.getElem_mem inside))
      | some cell => exact ⟨cell, found⟩
    · intro field listed arrow member carried
      obtain ⟨column, known, rfl⟩ := List.mem_map.mp member
      obtain ⟨name, type⟩ := agrees_of_accepted accepted listed known
        (by simpa using carried.symm)
      exact ⟨name.symm, by rw [type]; exact arrow?_eq_some known⟩
    · intro field listed foreign
      cases required : field.isRequired with
      | false => rfl
      | true =>
          obtain ⟨column, known, same, -⟩ := filled field listed required
          obtain ⟨arrow, member, -, id⟩ := mem_arrowFields known
          exact absurd (same ▸ id) (foreign arrow member)

/-- An accepted table takes the rows exactly when each field it requires is a
catalog column that every file fills. -/
theorem accepted_table_takes_the_rows_iff (accepted : verifyTableSchema display table = .ok ())
    (files : List FileInfo) :
    (∃ batch, filesToBatch files = .ok batch ∧ batch.ValidFor table) ↔ Fills files table := by
  rw [← validFor_iff_fills accepted]
  constructor
  · rintro ⟨batch, built, valid⟩
    cases (filesToBatch_eq_ok files).symm.trans built
    exact valid
  · intro valid
    exact ⟨catalogBatch files, filesToBatch_eq_ok files, valid⟩

theorem catalog_schema_takes_several_files :
    ∃ batch, filesToBatch [plainFile, textFile] = .ok batch ∧
      batch.ValidFor buildFileCatalogSchema := by
  have accepted : verifyTableSchema (fun _ => "type") buildFileCatalogSchema = .ok () := by decide
  exact (accepted_table_takes_the_rows_iff accepted [plainFile, textFile]).mpr (by decide)

/-- The catalog's columns, the MIME type required. -/
def strictTable : Schema where
  fields := fileCatalogFields.map fun field =>
    if field.name = "mime_type" then .required field.id field.name .string else field
  identifierFieldIds := [1]
  names_nodup := by decide
  ids_nodup := by decide

/-- The check passes on a table that cannot take a file without MIME type. -/
theorem strict_table_is_accepted :
    verifyTableSchema (fun _ => "type") strictTable = .ok () ∧
      ¬ ∃ batch, filesToBatch [plainFile] = .ok batch ∧ batch.ValidFor strictTable := by
  have accepted : verifyTableSchema (fun _ => "type") strictTable = .ok () := by decide
  refine ⟨accepted, ?_⟩
  rintro ⟨batch, built, valid⟩
  cases (filesToBatch_eq_ok [plainFile]).symm.trans built
  obtain ⟨column, member, same, set⟩ := (validFor_iff_fills accepted [plainFile]).mp valid
    (.required 5 "mime_type" .string) (by decide) rfl
  have mime : column = .optional 5 "mime_type" .string :=
    List.inj_on_of_nodup_map buildFileCatalogSchema.ids_nodup member (by decide) same
  subst mime
  exact set plainFile (by simp) rfl

end Accepted

end Writer

end AntiEntropator.Lakehouse
