import AntiEntropator.Domain.Uuid
import AntiEntropator.Ingest.Journal
import AntiEntropator.Json.RoundTrip

/-!
# The journal as JSON

What the derived implementations write and what they accept.  A transition is
one flat object: the time, the tag `state` and the fields of the variant.  On
the way back a known field must occur exactly once and unknown ones are
ignored; a variant may be named or numbered, and a plain struct may also come as
the array of its fields.
-/

namespace AntiEntropator.Ingest

open Json

/-- Timestamps as text, where the library can render them. -/
structure TimeFormat where
  render : DateTime → Option String
  parse : String → Option DateTime
  parse_render : ∀ instant text, render instant = some text → parse text = some instant

/-- A value that the JSON library writes and reads without a change of its number type. -/
def Plain : Json → Prop
  | .decimal _ => False
  | .integer value => -2 ^ 63 ≤ value ∧ value < 2 ^ 64
  | _ => True

/-- `serde_json`, with its limit on nesting. -/
structure JsonCodec where
  toVecPretty : Json → List UInt8
  fromSlice : List UInt8 → Option Json
  /-- The error text for bytes that are not a journal. -/
  complaint : List UInt8 → String
  /-- The error text for a timestamp that cannot be rendered. -/
  refusal : String
  fromSlice_toVecPretty : ∀ value : Json, value.All Plain → value.nesting < 128 →
    fromSlice (toVecPretty value) = some value

structure Libraries where
  uuids : UuidSpellings
  times : TimeFormat
  json : JsonCodec
  /-- What the store says about a key that it does not have. -/
  notFound : String → String

/-! ## Fields -/

/-- The value of a field that occurs exactly once. -/
def field (name : String) (members : List (String × Json)) : Option Json :=
  match members.filter fun member => member.1 = name with
  | [(_, value)] => some value
  | _ => none

def without (name : String) (members : List (String × Json)) : List (String × Json) :=
  members.filter fun member => member.1 ≠ name

def readUnsigned (bits : Nat) : Json → Option Nat
  | .integer (.ofNat value) => if value < 2 ^ bits then some value else none
  | _ => none

def readString : Json → Option String
  | .string text => some text
  | _ => none

def countField (name : String) (members : List (String × Json)) : Option Nat :=
  (field name members).bind (readUnsigned 64)

section Read

variable (libraries : Libraries)

def readUuid (value : Json) : Option Uuid := (readString value).bind libraries.uuids.parseStr

def readTime (value : Json) : Option DateTime := (readString value).bind libraries.times.parse

end Read

/-! ## States -/

namespace RunState

def variants : List String :=
  ["started", "committing", "batch_committed", "completed", "incomplete", "commit_failed",
    "reconciled", "superseded_by"]

def variant : RunState → String
  | .started => "started"
  | .committing _ => "committing"
  | .batchCommitted _ _ => "batch_committed"
  | .completed => "completed"
  | .incomplete _ => "incomplete"
  | .commitFailed _ => "commit_failed"
  | .reconciled _ => "reconciled"
  | .supersededBy _ => "superseded_by"

def fields : RunState → List (String × Json)
  | .started | .completed => []
  | .committing batch => [("batch", .integer batch)]
  | .batchCommitted batch rows => [("batch", .integer batch), ("rows", .integer rows)]
  | .incomplete failed => [("failed", .integer failed)]
  | .commitFailed batch => [("batch", .integer batch)]
  | .reconciled rowsInCatalog => [("rows_in_catalog", .integer rowsInCatalog)]
  | .supersededBy runId => [("run_id", .string runId.display)]

/-- The members of a state: the tag and the fields. -/
def members (state : RunState) : List (String × Json) :=
  ("state", .string state.variant) :: state.fields

def readVariant : Json → Option String
  | .string name => if name ∈ variants then some name else none
  | .integer (.ofNat index) => variants[index]?
  | _ => none

def ofMembers (libraries : Libraries) (members : List (String × Json)) : Option RunState := do
  let variant ← (field "state" members).bind readVariant
  let content := without "state" members
  match variant with
  | "started" => return .started
  | "committing" => return .committing (← countField "batch" content)
  | "batch_committed" =>
      return .batchCommitted (← countField "batch" content) (← countField "rows" content)
  | "completed" => return .completed
  | "incomplete" => return .incomplete (← countField "failed" content)
  | "commit_failed" => return .commitFailed (← countField "batch" content)
  | "reconciled" => return .reconciled (← countField "rows_in_catalog" content)
  | "superseded_by" => return .supersededBy (← (field "run_id" content).bind (readUuid libraries))
  | _ => none

/-- The counts are of type `u64`. -/
def Fits : RunState → Prop
  | .started | .completed | .supersededBy _ => True
  | .committing count | .incomplete count | .commitFailed count | .reconciled count =>
      count < 2 ^ 64
  | .batchCommitted batch rows => batch < 2 ^ 64 ∧ rows < 2 ^ 64

end RunState

/-! ## Transitions and journals -/

def Transition.toJson (libraries : Libraries) (transition : Transition) : Option Json :=
  (libraries.times.render transition.at).map fun time =>
    .object (("at", .string time) :: transition.state.members)

def Transition.ofJson (libraries : Libraries) : Json → Option Transition
  | .object members => do
      let time ← (field "at" members).bind (readTime libraries)
      let state ← RunState.ofMembers libraries (without "at" members)
      return ⟨time, state⟩
  | _ => none

namespace RunJournal

def document (journal : RunJournal) (startedAt updatedAt : String) (history : List Json) : Json :=
  .object [
    ("format_version", .integer journal.formatVersion),
    ("run_id", .string journal.runId.display),
    ("source_id", .string journal.sourceId),
    ("started_at", .string startedAt),
    ("updated_at", .string updatedAt),
    ("candidates", .integer journal.candidates),
    ("history", .array history)]

def toJson (libraries : Libraries) (journal : RunJournal) : Option Json := do
  let startedAt ← libraries.times.render journal.startedAt
  let updatedAt ← libraries.times.render journal.updatedAt
  let history ← journal.history.mapM (Transition.toJson libraries)
  return journal.document startedAt updatedAt history

def ofValues (libraries : Libraries)
    (formatVersion runId sourceId startedAt updatedAt candidates : Json) :
    Json → Option RunJournal
  | .array history => do
      return {
        formatVersion := ← readUnsigned 32 formatVersion
        runId := ← readUuid libraries runId
        sourceId := ← readString sourceId
        startedAt := ← readTime libraries startedAt
        updatedAt := ← readTime libraries updatedAt
        candidates := ← readUnsigned 64 candidates
        history := ← history.mapM (Transition.ofJson libraries) }
  | _ => none

def ofJson (libraries : Libraries) : Json → Option RunJournal
  | .object members => do
      ofValues libraries (← field "format_version" members) (← field "run_id" members)
        (← field "source_id" members) (← field "started_at" members)
        (← field "updated_at" members) (← field "candidates" members) (← field "history" members)
  | .array [formatVersion, runId, sourceId, startedAt, updatedAt, candidates, history] =>
      ofValues libraries formatVersion runId sourceId startedAt updatedAt candidates history
  | _ => none

structure Fits (journal : RunJournal) : Prop where
  formatVersion : journal.formatVersion < 2 ^ 32
  candidates : journal.candidates < 2 ^ 64
  history : ∀ transition ∈ journal.history, transition.state.Fits

/-- Every timestamp has a text. -/
structure Renders (libraries : Libraries) (journal : RunJournal) : Prop where
  startedAt : (libraries.times.render journal.startedAt).isSome
  updatedAt : (libraries.times.render journal.updatedAt).isSome
  history : ∀ transition ∈ journal.history, (libraries.times.render transition.at).isSome

end RunJournal

/-! ## Reading back -/

theorem field_cons_self {name : String} {rest : List (String × Json)}
    (fresh : name ∉ rest.map Prod.fst) (value : Json) :
    field name ((name, value) :: rest) = some value := by
  have others : (rest.filter fun member => member.1 = name) = [] := by
    rw [List.filter_eq_nil_iff]
    intro member inside same
    exact fresh (List.mem_map.mpr ⟨member, inside, of_decide_eq_true same⟩)
  simp [field, others]

theorem field_cons_of_ne {key name : String} (other : key ≠ name) (value : Json)
    (rest : List (String × Json)) : field name ((key, value) :: rest) = field name rest := by
  simp [field, other]

theorem without_cons_self {name : String} {rest : List (String × Json)}
    (fresh : name ∉ rest.map Prod.fst) (value : Json) :
    without name ((name, value) :: rest) = rest := by
  have others : (rest.filter fun member => member.1 ≠ name) = rest := by
    rw [List.filter_eq_self]
    intro member inside
    exact decide_eq_true fun same => fresh (List.mem_map.mpr ⟨member, inside, same⟩)
  simpa [without] using others

theorem readUnsigned_natCast {bits value : Nat} (small : value < 2 ^ bits) :
    readUnsigned bits (.integer value) = some value := if_pos small

theorem countField_cons_self {name : String} {count : Nat} {rest : List (String × Json)}
    (small : count < 2 ^ 64) (fresh : name ∉ rest.map Prod.fst) :
    countField name ((name, .integer count) :: rest) = some count := by
  rw [countField, field_cons_self fresh, Option.bind_some, readUnsigned_natCast small]

theorem countField_singleton (name : String) {count : Nat} (small : count < 2 ^ 64) :
    countField name [(name, .integer count)] = some count :=
  countField_cons_self small (List.not_mem_nil : name ∉ [])

theorem readUuid_display (libraries : Libraries) (id : Uuid) :
    readUuid libraries (.string id.display) = some id := libraries.uuids.parse_display id

theorem readTime_render {libraries : Libraries} {instant : DateTime} {text : String}
    (rendered : libraries.times.render instant = some text) :
    readTime libraries (.string text) = some instant :=
  libraries.times.parse_render instant text rendered

/-- No field of a variant is called like another one, the tag or the time. -/
theorem RunState.nodup_keys (state : RunState) :
    ("at" :: state.members.map Prod.fst).Nodup := by
  cases state <;> simp [members, fields]

theorem RunState.readVariant_variant (state : RunState) :
    readVariant (.string state.variant) = some state.variant := by
  cases state <;> rfl

theorem RunState.ofMembers_members (libraries : Libraries) {state : RunState}
    (fits : state.Fits) : ofMembers libraries state.members = some state := by
  have keys := (List.nodup_cons.mp state.nodup_keys).2
  have fresh : "state" ∉ state.fields.map Prod.fst := (List.nodup_cons.mp keys).1
  have tag : (field "state" state.members).bind readVariant = some state.variant := by
    rw [members, field_cons_self fresh, Option.bind_some, readVariant_variant]
  have content : without "state" state.members = state.fields := without_cons_self fresh _
  unfold ofMembers
  rw [tag, content]
  cases state with
  | started => rfl
  | completed => rfl
  | committing batch | commitFailed batch =>
      have read := countField_singleton "batch" fits
      simp [variant, fields, read]
  | incomplete failed =>
      have read := countField_singleton "failed" fits
      simp [variant, fields, read]
  | reconciled rows =>
      have read := countField_singleton "rows_in_catalog" fits
      simp [variant, fields, read]
  | batchCommitted batch rows =>
      have batch' : countField "batch" (fields (.batchCommitted batch rows)) = some batch :=
        countField_cons_self fits.1 (by simp)
      have rows' : countField "rows" (fields (.batchCommitted batch rows)) = some rows := by
        rw [fields, countField, field_cons_of_ne (by decide)]
        exact countField_singleton "rows" fits.2
      simp [variant, batch', rows']
  | supersededBy runId =>
      have read : (field "run_id" (fields (.supersededBy runId))).bind (readUuid libraries) =
          some runId := readUuid_display libraries runId
      simp [variant, read]

theorem Transition.ofJson_toJson {libraries : Libraries} {transition : Transition} {value : Json}
    (fits : transition.state.Fits) (written : transition.toJson libraries = some value) :
    Transition.ofJson libraries value = some transition := by
  obtain ⟨time, rendered, rfl⟩ := Option.map_eq_some_iff.mp written
  have fresh := (List.nodup_cons.mp transition.state.nodup_keys).1
  unfold ofJson
  simp only [field_cons_self fresh, without_cons_self fresh, Option.bind_some,
    readTime_render rendered, RunState.ofMembers_members libraries fits]
  rfl

theorem mapM_cons_eq_some {Item Value : Type} {convert : Item → Option Value} {item : Item}
    {items : List Item} {values : List Value} (converted : (item :: items).mapM convert = some values) :
    ∃ value rest, convert item = some value ∧ items.mapM convert = some rest ∧
      values = value :: rest := by
  rw [List.mapM_cons] at converted
  obtain ⟨value, first, converted⟩ := Option.bind_eq_some_iff.mp converted
  obtain ⟨rest, later, converted⟩ := Option.bind_eq_some_iff.mp converted
  exact ⟨value, rest, first, later, (Option.some.inj converted).symm⟩

theorem mapM_ofJson_of_mapM_toJson {libraries : Libraries} {history : List Transition}
    {values : List Json} (fits : ∀ transition ∈ history, transition.state.Fits)
    (written : history.mapM (Transition.toJson libraries) = some values) :
    values.mapM (Transition.ofJson libraries) = some history := by
  induction history generalizing values with
  | nil =>
      rw [List.mapM_nil] at written
      cases written
      rfl
  | cons transition history inductionHypothesis =>
      obtain ⟨own, others⟩ := List.forall_mem_cons.mp fits
      obtain ⟨value, rest, first, later, rfl⟩ := mapM_cons_eq_some written
      rw [List.mapM_cons, Transition.ofJson_toJson own first, inductionHypothesis others later]
      rfl

namespace RunJournal

theorem toJson_eq_some {libraries : Libraries} {journal : RunJournal} {value : Json}
    (written : journal.toJson libraries = some value) :
    ∃ startedAt updatedAt history,
      libraries.times.render journal.startedAt = some startedAt ∧
      libraries.times.render journal.updatedAt = some updatedAt ∧
      journal.history.mapM (Transition.toJson libraries) = some history ∧
      value = journal.document startedAt updatedAt history := by
  obtain ⟨startedAt, started, written⟩ := Option.bind_eq_some_iff.mp written
  obtain ⟨updatedAt, updated, written⟩ := Option.bind_eq_some_iff.mp written
  obtain ⟨history, transitions, written⟩ := Option.bind_eq_some_iff.mp written
  exact ⟨startedAt, updatedAt, history, started, updated, transitions,
    (Option.some.inj written).symm⟩

theorem ofJson_toJson {libraries : Libraries} {journal : RunJournal} {value : Json}
    (fits : journal.Fits) (written : journal.toJson libraries = some value) :
    ofJson libraries value = some journal := by
  obtain ⟨startedAt, updatedAt, history, started, updated, transitions, rfl⟩ :=
    toJson_eq_some written
  have values : ofValues libraries (.integer journal.formatVersion)
      (.string journal.runId.display) (.string journal.sourceId) (.string startedAt)
      (.string updatedAt) (.integer journal.candidates) (.array history) = some journal := by
    simp only [ofValues, readUnsigned_natCast fits.formatVersion, readUuid_display, readString,
      readTime_render started, readTime_render updated, readUnsigned_natCast fits.candidates,
      mapM_ofJson_of_mapM_toJson fits.history transitions]
    rfl
  simpa [ofJson, document, field] using values

end RunJournal

/-! ## What is written -/

/-- No object names a member twice. -/
def DistinctKeys : Json → Prop
  | .object members => (members.map Prod.fst).Nodup
  | _ => True

/-- A property of everything a journal is made of. -/
structure Admits (property : Json → Prop) : Prop where
  string : ∀ text, property (.string text)
  count : ∀ count : Nat, count < 2 ^ 64 → property (.integer count)
  array : ∀ items, property (.array items)
  object : ∀ members, (members.map Prod.fst).Nodup → property (.object members)

theorem admits_plain : Admits Plain where
  string _ := trivial
  count count small := ⟨by omega, by omega⟩
  array _ := trivial
  object _ _ := trivial

theorem admits_distinctKeys : Admits DistinctKeys where
  string _ := trivial
  count _ _ := trivial
  array _ := trivial
  object _ distinct := distinct

section Written

variable {property : Json → Prop} (admits : Admits property) {libraries : Libraries}

include admits

theorem RunState.all_members {state : RunState} (fits : state.Fits) :
    AllMembers property state.members := by
  have tag := admits.string state.variant
  cases state with
  | started | completed => exact ⟨tag, trivial⟩
  | committing count | incomplete count | commitFailed count | reconciled count =>
      exact ⟨tag, admits.count count fits, trivial⟩
  | batchCommitted batch rows =>
      exact ⟨tag, admits.count batch fits.1, admits.count rows fits.2, trivial⟩
  | supersededBy runId => exact ⟨tag, admits.string runId.display, trivial⟩

theorem Transition.all_toJson {transition : Transition} {value : Json}
    (fits : transition.state.Fits) (written : transition.toJson libraries = some value) :
    value.All property := by
  obtain ⟨time, -, rfl⟩ := Option.map_eq_some_iff.mp written
  exact ⟨admits.object _ transition.state.nodup_keys, admits.string time,
    RunState.all_members admits fits⟩

theorem allItems_of_mapM_toJson {history : List Transition} {values : List Json}
    (fits : ∀ transition ∈ history, transition.state.Fits)
    (written : history.mapM (Transition.toJson libraries) = some values) :
    AllItems property values := by
  induction history generalizing values with
  | nil =>
      rw [List.mapM_nil] at written
      cases written
      exact trivial
  | cons transition history inductionHypothesis =>
      obtain ⟨own, others⟩ := List.forall_mem_cons.mp fits
      obtain ⟨value, rest, first, later, rfl⟩ := mapM_cons_eq_some written
      exact ⟨Transition.all_toJson admits own first, inductionHypothesis others later⟩

theorem RunJournal.all_toJson {journal : RunJournal} {value : Json} (fits : journal.Fits)
    (written : journal.toJson libraries = some value) : value.All property := by
  obtain ⟨startedAt, updatedAt, history, -, -, transitions, rfl⟩ := toJson_eq_some written
  have version : journal.formatVersion < 2 ^ 64 := Nat.lt_trans fits.formatVersion (by decide)
  exact ⟨admits.object _ (by simp), admits.count _ version, admits.string _, admits.string _,
    admits.string _, admits.string _, admits.count _ fits.candidates,
    ⟨admits.array _, allItems_of_mapM_toJson admits fits.history transitions⟩, trivial⟩

end Written

theorem RunState.nestingMembers_members (state : RunState) : nestingMembers state.members = 0 := by
  cases state <;> rfl

theorem nestingItems_of_mapM_toJson {libraries : Libraries} {history : List Transition}
    {values : List Json} (written : history.mapM (Transition.toJson libraries) = some values) :
    nestingItems values ≤ 1 := by
  induction history generalizing values with
  | nil =>
      rw [List.mapM_nil] at written
      cases written
      exact Nat.zero_le _
  | cons transition history inductionHypothesis =>
      obtain ⟨value, rest, first, later, rfl⟩ := mapM_cons_eq_some written
      obtain ⟨time, -, rfl⟩ := Option.map_eq_some_iff.mp first
      have others := inductionHypothesis later
      simpa [nestingItems, nesting, nestingMembers, RunState.nestingMembers_members] using others

theorem RunJournal.nesting_toJson {libraries : Libraries} {journal : RunJournal} {value : Json}
    (written : journal.toJson libraries = some value) : value.nesting ≤ 3 := by
  obtain ⟨startedAt, updatedAt, history, -, -, transitions, rfl⟩ := toJson_eq_some written
  have items := nestingItems_of_mapM_toJson transitions
  simp only [document, nesting, nestingMembers]
  omega

theorem RunJournal.exists_toJson {libraries : Libraries} {journal : RunJournal}
    (renders : journal.Renders libraries) : ∃ value, journal.toJson libraries = some value := by
  obtain ⟨startedAt, started⟩ := Option.isSome_iff_exists.mp renders.startedAt
  obtain ⟨updatedAt, updated⟩ := Option.isSome_iff_exists.mp renders.updatedAt
  have transitions : ∀ history : List Transition,
      (∀ transition ∈ history, (libraries.times.render transition.at).isSome) →
        ∃ values, history.mapM (Transition.toJson libraries) = some values := by
    intro history
    induction history with
    | nil => exact fun _ => ⟨[], rfl⟩
    | cons transition history inductionHypothesis =>
        intro rendered
        obtain ⟨own, others⟩ := List.forall_mem_cons.mp rendered
        obtain ⟨time, known⟩ := Option.isSome_iff_exists.mp own
        obtain ⟨values, written⟩ := inductionHypothesis others
        refine ⟨.object (("at", .string time) :: transition.state.members) :: values, ?_⟩
        rw [List.mapM_cons, Transition.toJson, known, written]
        rfl
  obtain ⟨history, written⟩ := transitions journal.history renders.history
  unfold toJson
  rw [started, updated, written]
  exact ⟨_, rfl⟩

end AntiEntropator.Ingest
