import AntiEntropator.Domain.Error
import AntiEntropator.Ingest.Journal.Encoding

/-!
# Journals in the bucket

One object per run under a reserved prefix.  What is saved under a run's key
is what is loaded from it, and other runs' journals stay as they are: the
bucket is a store of journals by run.
-/

namespace AntiEntropator.Ingest

open Json

/-- Reserved control prefix; never a content-addressed key. -/
def journalPrefix : String := "_runs/"

def journalKey (runId : Uuid) : String := journalPrefix ++ runId.display ++ ".json"

abbrev Bucket := AList fun _ : String => List UInt8

/-- The bytes a journal is written as. -/
def RunJournal.body (libraries : Libraries) (journal : RunJournal) : Option (List UInt8) :=
  (journal.toJson libraries).map libraries.json.toVecPretty

section Storage

variable (libraries : Libraries) (bucket : Bucket)

/-- Write a journal; `written` is what the store says. -/
def save (journal : RunJournal) (written : Except Error Unit) : Except Error Bucket :=
  match journal.body libraries with
  | none => .error ((Error.msg libraries.json.refusal).context "Failed to serialize run journal")
  | some body =>
      match written with
      | .error error => .error (error.context ("Failed to write " ++ journalKey journal.runId))
      | .ok () => .ok (bucket.insert (journalKey journal.runId) body)

def load (runId : Uuid) : Except Error RunJournal :=
  let key := journalKey runId
  match bucket.lookup key with
  | none => .error ((Error.msg (libraries.notFound key)).context
      ("No journal for run " ++ runId.display))
  | some bytes =>
      match (libraries.json.fromSlice bytes).bind (RunJournal.ofJson libraries) with
      | none => .error ((Error.msg (libraries.json.complaint bytes)).context
          ("Malformed journal " ++ key))
      | some journal => .ok journal

end Storage

theorem journalKey_injective (libraries : Libraries) : Function.Injective journalKey := by
  intro first second same
  have texts : journalPrefix.toList ++ (first.display.toList ++ ".json".toList) =
      journalPrefix.toList ++ (second.display.toList ++ ".json".toList) := by
    simpa [journalKey, String.toList_append] using congrArg String.toList same
  have displays := List.append_cancel_right (List.append_cancel_left texts)
  exact libraries.uuids.display_injective (String.toList_inj.mp displays)

theorem ofJson_of_body {libraries : Libraries} {journal : RunJournal} {body : List UInt8}
    (fits : journal.Fits) (written : journal.body libraries = some body) :
    (libraries.json.fromSlice body).bind (RunJournal.ofJson libraries) = some journal := by
  obtain ⟨value, document, rfl⟩ := Option.map_eq_some_iff.mp written
  have plain := RunJournal.all_toJson admits_plain fits document
  have shallow := RunJournal.nesting_toJson document
  rw [libraries.json.fromSlice_toVecPretty value plain (by omega), Option.bind_some,
    RunJournal.ofJson_toJson fits document]

theorem body_injective {libraries : Libraries} {first second : RunJournal} {body : List UInt8}
    (firstFits : first.Fits) (secondFits : second.Fits)
    (firstWritten : first.body libraries = some body)
    (secondWritten : second.body libraries = some body) : first = second := by
  have read := ofJson_of_body firstFits firstWritten
  rw [ofJson_of_body secondFits secondWritten] at read
  exact (Option.some.inj read).symm

theorem save_ok {libraries : Libraries} {bucket : Bucket} {journal : RunJournal}
    {body : List UInt8} (written : journal.body libraries = some body) :
    save libraries bucket journal (.ok ()) = .ok (bucket.insert (journalKey journal.runId) body) := by
  rw [save, written]

theorem load_insert {libraries : Libraries} {journal : RunJournal} {body : List UInt8}
    (fits : journal.Fits) (written : journal.body libraries = some body) (bucket : Bucket) :
    load libraries (bucket.insert (journalKey journal.runId) body) journal.runId =
      .ok journal := by
  simp only [load, AList.lookup_insert, ofJson_of_body fits written]

theorem load_insert_of_ne (libraries : Libraries) {runId other : Uuid} (different : other ≠ runId)
    (bucket : Bucket) (body : List UInt8) :
    load libraries (bucket.insert (journalKey runId) body) other = load libraries bucket other := by
  have keys : journalKey other ≠ journalKey runId :=
    fun same => different (journalKey_injective libraries same)
  simp only [load, AList.lookup_insert_ne keys]

/-- Saving a journal and loading it under its run gives the same journal, no other
journal is written as the same object, and no object in it names a member twice. -/
theorem journal_storage_round_trips (libraries : Libraries) (bucket : Bucket)
    (journal : RunJournal) (fits : journal.Fits) (renders : journal.Renders libraries) :
    (∃ after, save libraries bucket journal (.ok ()) = .ok after ∧
      after.lookup (journalKey journal.runId) = journal.body libraries ∧
      load libraries after journal.runId = .ok journal) ∧
    (∀ other : RunJournal, other.Fits → other.Renders libraries →
      other.body libraries = journal.body libraries → other = journal) ∧
    ∀ value, journal.toJson libraries = some value → value.All DistinctKeys := by
  obtain ⟨value, document⟩ := RunJournal.exists_toJson renders
  have written : journal.body libraries = some (libraries.json.toVecPretty value) := by
    rw [RunJournal.body, document, Option.map_some]
  refine ⟨⟨_, save_ok written, ?_, load_insert fits written bucket⟩, ?_, ?_⟩
  · rw [AList.lookup_insert, written]
  · intro other otherFits _ same
    exact body_injective otherFits fits (same.trans written) written
  · exact fun value document => RunJournal.all_toJson admits_distinctKeys fits document

/-! ## Concrete libraries -/

def textCodec : JsonCodec where
  toVecPretty value := utf8Bytes value.toText
  fromSlice bytes := (OsString.toStr? bytes).bind fun text => Json.read text.toList
  complaint _ := "expected a journal"
  refusal := "a formatting trait implementation returned an error"
  fromSlice_toVecPretty value plain _ := by
    have literal : value.All Literal := plain.imp fun value plain => by
      cases value with
      | decimal literal => exact plain.elim
      | _ => trivial
    rw [OsString.toStr?_utf8Bytes, Option.bind_some, Json.toText, String.toList_ofList]
    exact Json.read_pretty literal

def sampleTimes : TimeFormat where
  render instant :=
    if instant = 1700000000000000000 then some "2023-11-14T22:13:20Z"
    else if instant = 1700000001500000000 then some "2023-11-14T22:13:21.500Z"
    else none
  parse text :=
    if text = "2023-11-14T22:13:20Z" then some 1700000000000000000
    else if text = "2023-11-14T22:13:21.500Z" then some 1700000001500000000
    else none
  parse_render instant text rendered := by
    split_ifs at rendered with first second
    · cases rendered
      rw [first]
      rfl
    · cases rendered
      rw [second]
      rfl

def sampleLibraries : Libraries where
  uuids := Uuid.anySpelling
  times := sampleTimes
  json := textCodec
  notFound key := "NotFound: " ++ key

/-- A run that stopped after a batch and was closed by another one. -/
def sampleJournal : RunJournal where
  formatVersion := 1
  runId := 42
  sourceId := "/data/\x22quoted\x22"
  startedAt := 1700000000000000000
  updatedAt := 1700000001500000000
  candidates := 5
  history := [
    ⟨1700000000000000000, .started⟩,
    ⟨1700000000000000000, .committing 1⟩,
    ⟨1700000001500000000, .batchCommitted 1 5⟩,
    ⟨1700000001500000000, .reconciled 5⟩,
    ⟨1700000001500000000, .supersededBy 43⟩]

theorem fits_sampleJournal : sampleJournal.Fits where
  formatVersion := by decide
  candidates := by decide
  history := by simp [sampleJournal, RunState.Fits]

theorem renders_sampleJournal : sampleJournal.Renders sampleLibraries where
  startedAt := rfl
  updatedAt := rfl
  history := by decide

theorem journal_storage_round_trips_sample :
    (∃ after, save sampleLibraries ∅ sampleJournal (.ok ()) = .ok after ∧
      after.lookup "_runs/00000000-0000-0000-0000-00000000002a.json" =
        sampleJournal.body sampleLibraries ∧
      load sampleLibraries after 42 = .ok sampleJournal) ∧
    (∀ other : RunJournal, other.Fits → other.Renders sampleLibraries →
      other.body sampleLibraries = sampleJournal.body sampleLibraries → other = sampleJournal) ∧
    ∀ value, sampleJournal.toJson sampleLibraries = some value → value.All DistinctKeys := by
  have key : journalKey sampleJournal.runId =
      "_runs/00000000-0000-0000-0000-00000000002a.json" := by decide
  rw [← key]
  exact journal_storage_round_trips sampleLibraries ∅ sampleJournal fits_sampleJournal
    renders_sampleJournal

end AntiEntropator.Ingest
