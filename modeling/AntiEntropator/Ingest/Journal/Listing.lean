import AntiEntropator.Domain.Lexical
import AntiEntropator.Ingest.Journal.Storage
import Mathlib.Data.List.Pairwise

/-!
# Listing journals

A listing goes from the names of objects to run identifiers, and from these
back to the keys that journals are stored under.  Names are read in any
spelling and the key has one, so two objects may lead to one journal.
-/

namespace AntiEntropator.Ingest

/-- The names that the store lists under the prefix, in its order.  Directories
end in a slash, so they are none of the names that matter. -/
structure Listing (bucket : Bucket) where
  names : List String
  nodup : names.Nodup
  mem_names_iff : ∀ stem : String, stem ++ ".json" ∈ names ↔
    '/' ∉ stem.toList ∧ (bucket.lookup (journalPrefix ++ stem ++ ".json")).isSome

section List

variable (libraries : Libraries) {bucket : Bucket}

def journalOf? (bucket : Bucket) (name : String) : Option RunJournal :=
  ((stripSuffix? ".json" name).bind libraries.uuids.parseStr).bind fun id =>
    (load libraries bucket id).toOption

/-- The journals in the order of the listing; unreadable ones are skipped. -/
def loaded (listing : Listing bucket) : List RunJournal :=
  listing.names.filterMap (journalOf? libraries bucket)

def list (listed : Except Error (Listing bucket)) : Except Error (List RunJournal) :=
  match listed with
  | .error error => .error (error.context "Failed to list run journals")
  | .ok listing => .ok (newestFirst (loaded libraries listing))

def openRuns (listed : Except Error (Listing bucket)) (sourceId : String) :
    Except Error (List RunJournal) := do
  let journals ← list libraries listed
  return journals.filter fun journal => journal.sourceId = sourceId ∧ journal.isOpen

theorem openRuns_ok (listing : Listing bucket) (sourceId : String) :
    openRuns libraries (.ok listing) sourceId =
      .ok (openRunsFor (loaded libraries listing) sourceId) := rfl

end List

section Loaded

variable {libraries : Libraries} {bucket : Bucket}

theorem lookup_of_load {id : Uuid} {journal : RunJournal}
    (read : load libraries bucket id = .ok journal) :
    (bucket.lookup (journalKey id)).isSome := by
  unfold load at read
  cases stored : bucket.lookup (journalKey id) with
  | none =>
      simp only [stored] at read
      cases read
  | some bytes => rfl

theorem eq_ok_of_toOption {Failure Value : Type} {result : Except Failure Value} {value : Value}
    (found : result.toOption = some value) : result = .ok value := by
  cases result with
  | error failure => cases found
  | ok other => exact congrArg Except.ok (Option.some.inj found)

theorem journalOf?_eq_some_iff {name : String} {journal : RunJournal} :
    journalOf? libraries bucket name = some journal ↔ ∃ stem id, name = stem ++ ".json" ∧
      libraries.uuids.parseStr stem = some id ∧ load libraries bucket id = .ok journal := by
  unfold journalOf?
  constructor
  · intro found
    obtain ⟨id, named, read⟩ := Option.bind_eq_some_iff.mp found
    obtain ⟨stem, stripped, parsed⟩ := Option.bind_eq_some_iff.mp named
    exact ⟨stem, id, eq_append_of_stripSuffix? stripped, parsed, eq_ok_of_toOption read⟩
  · rintro ⟨stem, id, rfl, parsed, read⟩
    rw [stripSuffix?_append, Option.bind_some, parsed, Option.bind_some, read]
    rfl

theorem display_mem_names (listing : Listing bucket) {id : Uuid} {journal : RunJournal}
    (read : load libraries bucket id = .ok journal) : id.display ++ ".json" ∈ listing.names :=
  (listing.mem_names_iff id.display).mpr ⟨id.slash_not_mem_display, lookup_of_load read⟩

theorem journalOf?_display {id : Uuid} {journal : RunJournal}
    (read : load libraries bucket id = .ok journal) :
    journalOf? libraries bucket (id.display ++ ".json") = some journal :=
  journalOf?_eq_some_iff.mpr ⟨id.display, id, rfl, libraries.uuids.parse_display id, read⟩

theorem mem_loaded_iff (listing : Listing bucket) {journal : RunJournal} :
    journal ∈ loaded libraries listing ↔ ∃ id, load libraries bucket id = .ok journal := by
  unfold loaded
  rw [List.mem_filterMap]
  constructor
  · rintro ⟨name, -, found⟩
    obtain ⟨stem, id, -, -, read⟩ := journalOf?_eq_some_iff.mp found
    exact ⟨id, read⟩
  · rintro ⟨id, read⟩
    exact ⟨_, display_mem_names listing read, journalOf?_display read⟩

end Loaded

theorem nodup_filterMap_iff {Item Value : Type} {convert : Item → Option Value}
    {items : List Item} (distinct : items.Nodup) : (items.filterMap convert).Nodup ↔
      ∀ first ∈ items, ∀ second ∈ items, ∀ value, convert first = some value →
        convert second = some value → first = second := by
  unfold List.Nodup
  rw [List.pairwise_filterMap]
  constructor
  · intro apart first firstMember second secondMember value firstValue secondValue
    by_contra different
    have symmetric : Std.Symm fun first second : Item => ∀ value, convert first = some value →
        ∀ other, convert second = some other → value ≠ other :=
      ⟨fun _ _ apart value known other otherKnown same =>
        apart other otherKnown value known same.symm⟩
    exact apart.forall firstMember secondMember different value firstValue value secondValue rfl
  · intro injective
    refine distinct.pairwise_of_forall_ne fun first firstMember second secondMember different => ?_
    intro value firstValue other secondValue same
    subst same
    exact different (injective first firstMember second secondMember value firstValue secondValue)

/-- Every name of a journal is the canonical one, and journals of different keys are of
different runs. -/
structure Orderly (libraries : Libraries) (bucket : Bucket) : Prop where
  canonical : ∀ stem id, '/' ∉ stem.toList →
    (bucket.lookup (journalPrefix ++ stem ++ ".json")).isSome →
    libraries.uuids.parseStr stem = some id →
    (∃ journal, load libraries bucket id = .ok journal) → stem = id.display
  distinct : ∀ first second journal other, load libraries bucket first = .ok journal →
    load libraries bucket second = .ok other → journal.runId = other.runId → first = second

theorem nodup_loaded_iff (libraries : Libraries) {bucket : Bucket} (listing : Listing bucket) :
    ((loaded libraries listing).map RunJournal.runId).Nodup ↔ Orderly libraries bucket := by
  unfold loaded
  rw [List.map_filterMap, nodup_filterMap_iff listing.nodup]
  constructor
  · intro injective
    constructor
    · intro stem id plain stored parsed ⟨journal, read⟩
      have listed := (listing.mem_names_iff stem).mpr ⟨plain, stored⟩
      have found : journalOf? libraries bucket (stem ++ ".json") = some journal :=
        journalOf?_eq_some_iff.mpr ⟨stem, id, rfl, parsed, read⟩
      have same := injective _ listed _ (display_mem_names listing read) journal.runId
        (by rw [found, Option.map_some]) (by rw [journalOf?_display read, Option.map_some])
      exact (String.append_left_inj _).mp same
    · intro first second journal other firstRead secondRead same
      have names := injective _ (display_mem_names listing firstRead) _
        (display_mem_names listing secondRead) journal.runId
        (by rw [journalOf?_display firstRead, Option.map_some])
        (by rw [journalOf?_display secondRead, Option.map_some, same])
      exact libraries.uuids.display_injective ((String.append_left_inj _).mp names)
  · intro orderly first firstMember second secondMember runId firstRun secondRun
    obtain ⟨journal, firstFound, rfl⟩ := Option.map_eq_some_iff.mp firstRun
    obtain ⟨other, secondFound, same⟩ := Option.map_eq_some_iff.mp secondRun
    obtain ⟨stem, id, rfl, parsed, read⟩ := journalOf?_eq_some_iff.mp firstFound
    obtain ⟨otherStem, otherId, rfl, otherParsed, otherRead⟩ :=
      journalOf?_eq_some_iff.mp secondFound
    obtain ⟨plain, stored⟩ := (listing.mem_names_iff stem).mp firstMember
    obtain ⟨otherPlain, otherStored⟩ := (listing.mem_names_iff otherStem).mp secondMember
    have ids := orderly.distinct id otherId journal other read otherRead same.symm
    rw [orderly.canonical stem id plain stored parsed ⟨journal, read⟩,
      orderly.canonical otherStem otherId otherPlain otherStored otherParsed ⟨other, otherRead⟩,
      ids]

theorem pairwise_newestFirst (journals : List RunJournal) :
    (newestFirst journals).Pairwise fun first second => second.startedAt ≤ first.startedAt := by
  have trans : ∀ first second third : RunJournal,
      Decidable.decide (second.startedAt ≤ first.startedAt) = true →
      Decidable.decide (third.startedAt ≤ second.startedAt) = true →
      Decidable.decide (third.startedAt ≤ first.startedAt) = true :=
    fun first second third before after => decide_eq_true
      (le_trans (of_decide_eq_true after) (of_decide_eq_true before))
  have total : ∀ first second : RunJournal,
      (Decidable.decide (second.startedAt ≤ first.startedAt) ||
        Decidable.decide (first.startedAt ≤ second.startedAt)) = true := by
    intro first second
    simpa using le_total second.startedAt first.startedAt
  exact (List.pairwise_mergeSort trans total journals).imp of_decide_eq_true

theorem filter_key_eq_singleton {Item Key : Type} [DecidableEq Key] {key : Item → Key}
    {items : List Item} (distinct : (items.map key).Nodup) {item : Item} (member : item ∈ items) :
    items.filter (fun other => key other = key item) = [item] := by
  induction items with
  | nil => cases member
  | cons first rest inductionHypothesis =>
      obtain ⟨fresh, others⟩ := List.nodup_cons.mp distinct
      rcases List.mem_cons.mp member with rfl | later
      · have none : rest.filter (fun other => key other = key item) = [] := by
          rw [List.filter_eq_nil_iff]
          intro other inside same
          exact fresh (List.mem_map.mpr ⟨other, inside, of_decide_eq_true same⟩)
        simp [none]
      · have different : key first ≠ key item :=
          fun same => fresh (same ▸ List.mem_map_of_mem later)
        simpa [different] using inductionHypothesis others later

/-- The listing returns every journal that is stored under its own key, newest first;
it has each run once exactly if names and identifiers are in order, and then every
open run of a source is found once. -/
theorem listing_is_complete_and_duplicate_free_iff (libraries : Libraries) (bucket : Bucket)
    (listing : Listing bucket) :
    (∃ journals, list libraries (.ok listing) = .ok journals ∧
      (∀ journal, load libraries bucket journal.runId = .ok journal → journal ∈ journals) ∧
      journals.Pairwise (fun first second => second.startedAt ≤ first.startedAt) ∧
      (journals.map RunJournal.runId).Nodup ∧
      ∀ journal, load libraries bucket journal.runId = .ok journal → journal.isOpen →
        ∃ runs, openRuns libraries (.ok listing) journal.sourceId = .ok runs ∧
          runs.filter (fun run => run.runId = journal.runId) = [journal]) ↔
    Orderly libraries bucket := by
  have permuted := newestFirst_perm (loaded libraries listing)
  have distinct := (permuted.map RunJournal.runId).nodup_iff
  rw [← nodup_loaded_iff libraries listing, ← distinct]
  constructor
  · rintro ⟨journals, listed, -, -, nodup, -⟩
    cases listed
    exact nodup
  · intro nodup
    refine ⟨_, rfl, ?_, pairwise_newestFirst _, nodup, ?_⟩
    · intro journal read
      exact permuted.mem_iff.mpr ((mem_loaded_iff listing).mpr ⟨_, read⟩)
    · intro journal read isOpen
      refine ⟨_, openRuns_ok libraries listing _, ?_⟩
      have member : journal ∈ openRunsFor (loaded libraries listing) journal.sourceId :=
        mem_openRunsFor_iff.mpr ⟨(mem_loaded_iff listing).mpr ⟨_, read⟩, rfl, isOpen⟩
      exact filter_key_eq_singleton (nodup_openRunsFor (distinct.mp nodup) _) member

/-! ## A bucket without directories -/

/-- The name of a key that stands directly under the prefix. -/
def nameUnder? (key : String) : Option String :=
  if journalPrefix.toList <+: key.toList then
    (some (String.ofList (key.toList.drop journalPrefix.toList.length))).filter fun name =>
      '/' ∉ name.toList
  else none

theorem nameUnder?_eq_some_iff {key name : String} :
    nameUnder? key = some name ↔ key = journalPrefix ++ name ∧ '/' ∉ name.toList := by
  unfold nameUnder?
  constructor
  · intro named
    split at named
    next under =>
      obtain ⟨rest, whole⟩ := under
      obtain ⟨own, plain⟩ := Option.filter_eq_some_iff.mp named
      rw [← whole, List.drop_left] at own
      have text : rest = name.toList := by rw [← Option.some.inj own, String.toList_ofList]
      refine ⟨String.toList_inj.mp ?_, of_decide_eq_true plain⟩
      rw [← whole, String.toList_append, text]
    next => cases named
  · rintro ⟨rfl, plain⟩
    simp [String.toList_append, Option.filter, plain]

def Listing.ofKeys (bucket : Bucket) : Listing bucket where
  names := bucket.keys.filterMap nameUnder?
  nodup := by
    refine (nodup_filterMap_iff bucket.keys_nodup).mpr ?_
    intro first _ second _ name firstName secondName
    rw [(nameUnder?_eq_some_iff.mp firstName).1, (nameUnder?_eq_some_iff.mp secondName).1]
  mem_names_iff stem := by
    have plain : '/' ∉ (stem ++ ".json").toList ↔ '/' ∉ stem.toList := by
      simp [String.toList_append]
    rw [List.mem_filterMap, AList.lookup_isSome, AList.mem_keys, String.append_assoc, ← plain]
    constructor
    · rintro ⟨key, member, named⟩
      obtain ⟨rfl, slash⟩ := nameUnder?_eq_some_iff.mp named
      exact ⟨slash, member⟩
    · rintro ⟨slash, member⟩
      exact ⟨_, member, nameUnder?_eq_some_iff.mpr ⟨rfl, slash⟩⟩

def openJournal : RunJournal := .new 42 "/data" 5 1700000000000000000

theorem fits_openJournal : openJournal.Fits where
  formatVersion := by decide
  candidates := by decide
  history := by simp [openJournal, RunJournal.new, RunState.Fits]

/-- A journal, and a copy of another object under its name in capitals. -/
def spelledTwice : Bucket :=
  ((∅ : Bucket).insert "_runs/00000000-0000-0000-0000-00000000002A.json" (utf8Bytes "[]")).insert
    (journalKey 42) ((openJournal.body sampleLibraries).getD [])

/-- An object under another spelling of a run's name makes the run appear twice. -/
theorem lists_a_run_twice :
    list sampleLibraries (.ok (Listing.ofKeys spelledTwice)) = .ok [openJournal, openJournal] ∧
      openRuns sampleLibraries (.ok (Listing.ofKeys spelledTwice)) "/data" =
        .ok [openJournal, openJournal] ∧
      ¬ ([openJournal, openJournal].map RunJournal.runId).Nodup := by
  have written : openJournal.body sampleLibraries =
      some ((openJournal.body sampleLibraries).getD []) := rfl
  have read : load sampleLibraries spelledTwice 42 = .ok openJournal :=
    load_insert fits_openJournal written _
  have names : (Listing.ofKeys spelledTwice).names =
      ["00000000-0000-0000-0000-00000000002a.json",
        "00000000-0000-0000-0000-00000000002A.json"] := by decide +kernel
  have loads : loaded sampleLibraries (Listing.ofKeys spelledTwice) =
      [openJournal, openJournal] := by
    have canonical : journalOf? sampleLibraries spelledTwice
        "00000000-0000-0000-0000-00000000002a.json" = some openJournal :=
      journalOf?_eq_some_iff.mpr ⟨"00000000-0000-0000-0000-00000000002a", 42, by decide, by decide,
        read⟩
    have capitals : journalOf? sampleLibraries spelledTwice
        "00000000-0000-0000-0000-00000000002A.json" = some openJournal :=
      journalOf?_eq_some_iff.mpr ⟨"00000000-0000-0000-0000-00000000002A", 42, by decide, by decide,
        read⟩
    rw [loaded, names, List.filterMap_cons, canonical, List.filterMap_cons, capitals,
      List.filterMap_nil]
  have sorted : newestFirst [openJournal, openJournal] = [openJournal, openJournal] :=
    List.perm_replicate.mp (newestFirst_perm (List.replicate 2 openJournal))
  have all : list sampleLibraries (.ok (Listing.ofKeys spelledTwice)) =
      .ok [openJournal, openJournal] := by
    rw [list, loads, sorted]
  refine ⟨all, ?_, by decide⟩
  rw [openRuns, all]
  rfl

end AntiEntropator.Ingest
