import AntiEntropator.Domain.ContentHash

/-!
# Arrow arrays and record batches

The part of the columnar format that the catalog's writer and reader use.  An
array holds one optional value per row; a record batch is one array per field
of its schema, checked when it is built.
-/

namespace AntiEntropator.Lakehouse

/-- Physical encodings of text that a reader may choose. -/
inductive TextEncoding where
  | utf8
  | largeUtf8
  | utf8View
  deriving DecidableEq

inductive DataType where
  | fixedSizeBinary (size : Nat)
  | text (encoding : TextEncoding)
  | int64
  /-- Microseconds. -/
  | timestamp (timezone : Option String)
  | boolean
  deriving DecidableEq

inductive Cell where
  | bytes (value : List UInt8)
  | text (value : String)
  | int64 (value : Int)
  | timestamp (micros : Int)
  | boolean (value : Bool)
  deriving DecidableEq

inductive ArrowArray where
  | fixedSizeBinary (size : Nat) (values : List (Option (List UInt8)))
  | text (encoding : TextEncoding) (values : List (Option String))
  | int64 (values : List (Option Int))
  | timestamp (timezone : Option String) (values : List (Option Int))
  | boolean (values : List (Option Bool))
  deriving DecidableEq

namespace ArrowArray

def dataType : ArrowArray → DataType
  | .fixedSizeBinary size _ => .fixedSizeBinary size
  | .text encoding _ => .text encoding
  | .int64 _ => .int64
  | .timestamp timezone _ => .timestamp timezone
  | .boolean _ => .boolean

def cells : ArrowArray → List (Option Cell)
  | .fixedSizeBinary _ values => values.map (·.map .bytes)
  | .text _ values => values.map (·.map .text)
  | .int64 values => values.map (·.map .int64)
  | .timestamp _ values => values.map (·.map .timestamp)
  | .boolean values => values.map (·.map .boolean)

def length (array : ArrowArray) : Nat := array.cells.length

/-- Arrow's `cast`, between encodings of the same values. -/
def cast? (array : ArrowArray) (target : DataType) : Option ArrowArray :=
  match array, target with
  | .text _ values, .text encoding => some (.text encoding values)
  | .timestamp _ values, .timestamp timezone => some (.timestamp timezone values)
  | array, target => if array.dataType = target then some array else none

def asString : ArrowArray → List (Option String)
  | .text _ values => values
  | _ => []

def asTimestamps : ArrowArray → List (Option Int)
  | .timestamp _ values => values
  | _ => []

end ArrowArray

/-- A field of a batch's schema, with the field id its metadata carries. -/
structure ArrowField where
  name : String
  dataType : DataType
  nullable : Bool
  fieldId : Option Int
  deriving DecidableEq

inductive ArrowError where
  /-- A value of a fixed-size array has another size. -/
  | valueSize (expected actual : Nat)
  | columnCount (fields columns : Nat)
  | noColumns
  | columnLength
  | columnType (field : String)
  | unexpectedNull (field : String)
  | unsupportedType (field : String)
  deriving DecidableEq

structure ArrowField.Admits (field : ArrowField) (rows : Nat) (array : ArrowArray) : Prop where
  length : array.length = rows
  type : array.dataType = field.dataType
  complete : field.nullable = false → none ∉ array.cells

instance (field : ArrowField) (rows : Nat) (array : ArrowArray) :
    Decidable (field.Admits rows array) :=
  decidable_of_iff (array.length = rows ∧ array.dataType = field.dataType ∧
      (field.nullable = false → none ∉ array.cells))
    ⟨fun ⟨length, type, complete⟩ => ⟨length, type, complete⟩,
      fun admits => ⟨admits.length, admits.type, admits.complete⟩⟩

structure RecordBatch where
  schema : List ArrowField
  columns : List ArrowArray
  numRows : Nat
  admitted : List.Forall₂ (fun field array => ArrowField.Admits field numRows array)
    schema columns

namespace RecordBatch

/-- The checks of `try_new` on the columns, in schema order. -/
def check (rows : Nat) : List ArrowField → List ArrowArray → Except ArrowError Unit
  | [], [] => .ok ()
  | field :: fields, array :: arrays =>
      if array.length ≠ rows then .error .columnLength
      else if array.dataType ≠ field.dataType then .error (.columnType field.name)
      else if field.nullable = false ∧ none ∈ array.cells then .error (.unexpectedNull field.name)
      else check rows fields arrays
  | fields, arrays => .error (.columnCount fields.length arrays.length)

theorem admitted_of_check {rows : Nat} {schema : List ArrowField} {columns : List ArrowArray}
    (checked : check rows schema columns = .ok ()) :
    List.Forall₂ (fun field array => ArrowField.Admits field rows array) schema columns := by
  induction schema generalizing columns with
  | nil =>
      cases columns with
      | nil => exact .nil
      | cons array arrays => cases checked
  | cons field fields inductionHypothesis =>
      cases columns with
      | nil => cases checked
      | cons array arrays =>
          simp only [check] at checked
          split at checked
          next => cases checked
          next length =>
            split at checked
            next => cases checked
            next type =>
              split at checked
              next => cases checked
              next complete =>
                refine .cons ⟨not_not.mp length, not_not.mp type, ?_⟩ (inductionHypothesis checked)
                exact fun required hole => complete ⟨required, hole⟩

theorem check_of_admitted {rows : Nat} {schema : List ArrowField} {columns : List ArrowArray}
    (admitted : List.Forall₂ (fun field array => ArrowField.Admits field rows array)
      schema columns) : check rows schema columns = .ok () := by
  induction admitted with
  | nil => rfl
  | cons admits _ inductionHypothesis =>
      have complete := admits.complete
      simp only [check, admits.length, admits.type, ne_eq, not_true_eq_false, if_false]
      rw [if_neg fun hole => complete hole.1 hole.2]
      exact inductionHypothesis

/-- `RecordBatch::try_new`; the first column tells the number of rows. -/
def tryNew (schema : List ArrowField) (columns : List ArrowArray) :
    Except ArrowError RecordBatch :=
  match columns.head? with
  | none => .error .noColumns
  | some first =>
      match checked : check first.length schema columns with
      | .ok () => .ok ⟨schema, columns, first.length, admitted_of_check checked⟩
      | .error error => .error error

theorem tryNew_of_admitted {schema : List ArrowField} {columns : List ArrowArray} {rows : Nat}
    (nonempty : columns ≠ [])
    (admitted : List.Forall₂ (fun field array => ArrowField.Admits field rows array)
      schema columns) : tryNew schema columns = .ok ⟨schema, columns, rows, admitted⟩ := by
  obtain ⟨field, array, fields, arrays, rfl, rfl, length⟩ :
      ∃ field array fields arrays, schema = field :: fields ∧ columns = array :: arrays ∧
        array.length = rows := by
    cases admitted with
    | nil => exact absurd rfl nonempty
    | cons admits rest => exact ⟨_, _, _, _, rfl, rfl, admits.length⟩
  subst rows
  have checked := check_of_admitted admitted
  unfold tryNew
  simp only [List.head?_cons]
  split
  next => rfl
  next error failed =>
    rw [checked] at failed
    cases failed

def columnByName (batch : RecordBatch) (name : String) : Option ArrowArray :=
  ((batch.schema.zip batch.columns).find? fun column => column.1.name = name).map Prod.snd

def columnById (batch : RecordBatch) (id : Int) : Option ArrowArray :=
  ((batch.schema.zip batch.columns).find? fun column => column.1.fieldId = some id).map Prod.snd

def value (batch : RecordBatch) (name : String) (row : Nat) : Option (Option Cell) :=
  (batch.columnByName name).bind fun array => array.cells[row]?

def valueById (batch : RecordBatch) (id : Int) (row : Nat) : Option (Option Cell) :=
  (batch.columnById id).bind fun array => array.cells[row]?

theorem find?_zip_of_mem {Key : Type} [DecidableEq Key] {key : ArrowField → Key}
    {schema : List ArrowField} {columns : List ArrowArray} {field : ArrowField}
    {array : ArrowArray} (distinct : (schema.map key).Nodup)
    (paired : (field, array) ∈ schema.zip columns) :
    (schema.zip columns).find? (fun column => key column.1 = key field) = some (field, array) := by
  induction schema generalizing columns with
  | nil => simp at paired
  | cons first fields inductionHypothesis =>
      cases columns with
      | nil => simp at paired
      | cons column columns =>
          rw [List.map_cons, List.nodup_cons] at distinct
          simp only [List.zip_cons_cons, List.mem_cons, Prod.mk.injEq] at paired
          rcases paired with ⟨rfl, rfl⟩ | later
          · simp
          · have different : key first ≠ key field := by
              intro same
              apply distinct.1
              rw [same]
              exact List.mem_map_of_mem (List.of_mem_zip later).1
            rw [List.zip_cons_cons, List.find?_cons_of_neg (by simpa using different)]
            exact inductionHypothesis distinct.2 later

section Lookup

variable {batch : RecordBatch} {field : ArrowField} {array : ArrowArray}

theorem value_of_mem (distinct : (batch.schema.map ArrowField.name).Nodup)
    (paired : (field, array) ∈ batch.schema.zip batch.columns) (row : Nat) :
    batch.value field.name row = array.cells[row]? := by
  simp [value, columnByName, find?_zip_of_mem distinct paired]

theorem valueById_of_mem (distinct : (batch.schema.map ArrowField.fieldId).Nodup)
    (paired : (field, array) ∈ batch.schema.zip batch.columns) {id : Int}
    (carried : field.fieldId = some id) (row : Nat) :
    batch.valueById id row = array.cells[row]? := by
  have found := find?_zip_of_mem distinct paired
  rw [carried] at found
  simp [valueById, columnById, found]

end Lookup

theorem exists_column {batch : RecordBatch} {field : ArrowField} (member : field ∈ batch.schema) :
    ∃ array, (field, array) ∈ batch.schema.zip batch.columns := by
  obtain ⟨index, inside, rfl⟩ := List.mem_iff_getElem.mp member
  have lengths := batch.admitted.length_eq
  refine ⟨batch.columns[index], ?_⟩
  have bound : index < (batch.schema.zip batch.columns).length := by
    rw [List.length_zip]
    omega
  have pair := List.getElem_mem bound
  rwa [List.getElem_zip] at pair

end RecordBatch

end AntiEntropator.Lakehouse
