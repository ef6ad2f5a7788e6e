import AntiEntropator.Domain.Error
import AntiEntropator.Lakehouse.Arrow

/-!
# The table schema

The Iceberg schema of `file_catalog`, the check of a live table against it, and
the Arrow schema of the batches written with it.
-/

namespace AntiEntropator.Lakehouse

inductive PrimitiveType where
  | boolean
  | int
  | long
  | float
  | double
  | decimal (precision scale : Nat)
  | date
  | time
  | timestamp
  | timestamptz
  | timestampNs
  | timestamptzNs
  | string
  | uuid
  | fixed (length : Nat)
  | binary
  deriving DecidableEq

mutual

inductive FieldType where
  | primitive (type : PrimitiveType)
  | struct (fields : FieldList)
  | list (element : NestedField)
  | map (key value : NestedField)
  deriving DecidableEq

inductive NestedField where
  | mk (id : Int) (name : String) (required : Bool) (fieldType : FieldType)
  deriving DecidableEq

inductive FieldList where
  | nil
  | cons (first : NestedField) (rest : FieldList)
  deriving DecidableEq

end

namespace NestedField

def id : NestedField → Int
  | .mk id _ _ _ => id

def name : NestedField → String
  | .mk _ name _ _ => name

/-- Rows must have a value. -/
def isRequired : NestedField → Bool
  | .mk _ _ required _ => required

def fieldType : NestedField → FieldType
  | .mk _ _ _ fieldType => fieldType

def required (id : Int) (name : String) (type : PrimitiveType) : NestedField :=
  .mk id name true (.primitive type)

def optional (id : Int) (name : String) (type : PrimitiveType) : NestedField :=
  .mk id name false (.primitive type)

end NestedField

/-- A table's top-level fields; names and ids identify them. -/
structure Schema where
  fields : List NestedField
  identifierFieldIds : List Int
  names_nodup : (fields.map NestedField.name).Nodup
  ids_nodup : (fields.map NestedField.id).Nodup

/-- `field_by_name`, for names without a dot. -/
def Schema.fieldByName (schema : Schema) (name : String) : Option NestedField :=
  schema.fields.find? fun field => field.name = name

theorem Schema.fieldByName_eq_some_iff {schema : Schema} {name : String} {field : NestedField} :
    schema.fieldByName name = some field ↔ field ∈ schema.fields ∧ field.name = name := by
  constructor
  · intro found
    exact ⟨List.mem_of_find?_eq_some found, by simpa using List.find?_some found⟩
  · rintro ⟨member, rfl⟩
    cases found : schema.fieldByName field.name with
    | none =>
        have absent := List.find?_eq_none.mp found field member
        simp at absent
    | some other =>
        have named : other.name = field.name := by simpa using List.find?_some found
        have same := List.inj_on_of_nodup_map schema.names_nodup
          (List.mem_of_find?_eq_some found) member named
        rw [same]

/-- Fields 1-20 are the original catalog columns, fields 21-25 the observation
columns. -/
def fileCatalogFields : List NestedField :=
  [ .required 1 "id" .uuid,
    .required 2 "source_path" .string,
    .required 3 "filename" .string,
    .required 4 "extension" .string,
    .optional 5 "mime_type" .string,
    .required 6 "category" .string,
    .required 7 "size_bytes" .long,
    .optional 8 "content_hash" .string,
    .optional 9 "partial_hash" .string,
    .optional 10 "created_at" .timestamptz,
    .optional 11 "modified_at" .timestamptz,
    .required 12 "scanned_at" .timestamptz,
    .optional 13 "object_uri" .string,
    .optional 14 "ingested_at" .timestamptz,
    .optional 15 "suggested_name" .string,
    .optional 16 "name_reason" .string,
    .required 17 "is_duplicate" .boolean,
    .optional 18 "duplicate_of" .uuid,
    .required 19 "parent_dir" .string,
    .optional 20 "group_id" .uuid,
    .optional 21 "source_id" .string,
    .optional 22 "relative_path" .string,
    .optional 23 "run_id" .uuid,
    .optional 24 "observation_status" .string,
    .optional 25 "observed_at" .timestamptz ]

def buildFileCatalogSchema : Schema where
  fields := fileCatalogFields
  identifierFieldIds := [1]
  names_nodup := by decide
  ids_nodup := by decide

/-! ## Checking a live table -/

section Verify

-- How the library prints a type.
variable (display : FieldType → String)

def mismatchText (actual field : NestedField) : String :=
  field.name ++ " (table: id " ++ toString actual.id ++ " " ++ display actual.fieldType ++
    ", expected: id " ++ toString field.id ++ " " ++ display field.fieldType ++ ")"

def missing? (tableSchema : Schema) (field : NestedField) : Option String :=
  match tableSchema.fieldByName field.name with
  | none => some field.name
  | some _ => none

def mismatched? (tableSchema : Schema) (field : NestedField) : Option String :=
  match tableSchema.fieldByName field.name with
  | none => none
  | some actual =>
      if actual.id ≠ field.id ∨ actual.fieldType ≠ field.fieldType then
        some (mismatchText display actual field)
      else none

/-- Check that a live table schema can accept rows built from
`buildFileCatalogSchema`: every expected field must exist with the same id and
type.  Extra table fields are tolerated. -/
def verifyTableSchema (tableSchema : Schema) : Except Error Unit :=
  let expected := buildFileCatalogSchema
  let missing := expected.fields.filterMap (missing? tableSchema)
  let mismatched := expected.fields.filterMap (mismatched? display tableSchema)
  if missing ≠ [] then
    .error (.msg ("table schema is missing column(s) " ++ ", ".intercalate missing ++
      ": this file_catalog was created before v0.3.0 and cannot be upgraded in place; " ++
      "reset the stack and re-ingest (docs/manual/getting-started.md, " ++
      "\"Upgrading from RustFS\")"))
  else if mismatched ≠ [] then
    .error (.msg ("table schema does not match the catalog definition: " ++
      "; ".intercalate mismatched))
  else .ok ()

/-- Accepted means: every expected field exists with the same id and type. -/
theorem verifyTableSchema_eq_ok_iff {tableSchema : Schema} :
    verifyTableSchema display tableSchema = .ok () ↔
      ∀ field ∈ fileCatalogFields, ∃ actual ∈ tableSchema.fields, actual.name = field.name ∧
        actual.id = field.id ∧ actual.fieldType = field.fieldType := by
  have accepted : verifyTableSchema display tableSchema = .ok () ↔
      fileCatalogFields.filterMap (missing? tableSchema) = [] ∧
        fileCatalogFields.filterMap (mismatched? display tableSchema) = [] := by
    simp only [verifyTableSchema, buildFileCatalogSchema]
    by_cases missing : fileCatalogFields.filterMap (missing? tableSchema) = []
    · by_cases mismatched : fileCatalogFields.filterMap (mismatched? display tableSchema) = []
      · simp [missing, mismatched]
      · simp [missing, mismatched]
    · simp [missing]
  rw [accepted, List.filterMap_eq_nil_iff, List.filterMap_eq_nil_iff]
  constructor
  · rintro ⟨present, matching⟩ field expected
    have found := present field expected
    have same := matching field expected
    cases lookup : tableSchema.fieldByName field.name with
    | none => simp [missing?, lookup] at found
    | some actual =>
        simp only [mismatched?, lookup, ite_eq_right_iff, reduceCtorEq, imp_false, not_or,
          not_not] at same
        obtain ⟨member, named⟩ := Schema.fieldByName_eq_some_iff.mp lookup
        exact ⟨actual, member, named, same⟩
  · intro agreeing
    refine ⟨fun field expected => ?_, fun field expected => ?_⟩
    · obtain ⟨actual, member, named, -⟩ := agreeing field expected
      simp [missing?, Schema.fieldByName_eq_some_iff.mpr ⟨member, named⟩]
    · obtain ⟨actual, member, named, id, type⟩ := agreeing field expected
      simp [mismatched?, Schema.fieldByName_eq_some_iff.mpr ⟨member, named⟩, id, type]

end Verify

/-! ## The batch's schema -/

def PrimitiveType.arrow? : PrimitiveType → Option DataType
  | .uuid => some (.fixedSizeBinary 16)
  | .string => some (.text .utf8)
  | .long => some .int64
  | .timestamptz => some (.timestamp (some "+00:00"))
  | .boolean => some .boolean
  | _ => none

def FieldType.arrow? : FieldType → Option DataType
  | .primitive type => type.arrow?
  | _ => none

def NestedField.toArrow (field : NestedField) : Except ArrowError ArrowField :=
  match field.fieldType.arrow? with
  | some dataType => .ok ⟨field.name, dataType, !field.isRequired, some field.id⟩
  | none => .error (.unsupportedType field.name)

def schemaToArrowSchema (schema : Schema) : Except ArrowError (List ArrowField) :=
  schema.fields.mapM NestedField.toArrow

end AntiEntropator.Lakehouse
