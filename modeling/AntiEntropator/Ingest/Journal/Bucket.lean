import AntiEntropator.Ingest.BlobKeys
import AntiEntropator.Ingest.Journal.Listing

/-!
# The bucket as a store of journals

A bucket to which only runs write is what a run takes it for: the journals that
were last saved, by run, beside the blobs.  What it lists is what is stored.
-/

namespace AntiEntropator.Ingest

/-- The bucket holds these journals under their keys. -/
def Stores (libraries : Libraries) (bucket : Bucket) (store : JournalStore) : Prop :=
  ∀ id, (load libraries bucket id).toOption = store.lookup id

theorem Stores.save {libraries : Libraries} {bucket after : Bucket} {store : JournalStore}
    {journal : RunJournal} (stores : Stores libraries bucket store) (fits : journal.Fits)
    (saved : save libraries bucket journal (.ok ()) = .ok after) :
    Stores libraries after (store.insert journal.runId journal) := by
  intro id
  cases written : journal.body libraries with
  | none =>
      rw [Ingest.save, written] at saved
      cases saved
  | some body =>
      rw [save_ok written] at saved
      cases saved
      by_cases own : id = journal.runId
      · subst own
        rw [load_insert fits written, AList.lookup_insert]
        rfl
      · rw [load_insert_of_ne libraries own, AList.lookup_insert_ne own, stores id]

/-- An orderly bucket is listed as the store of journals that it holds. -/
theorem loaded_perm {libraries : Libraries} {bucket : Bucket} {store : JournalStore}
    (stores : Stores libraries bucket store)
    (filed : ∀ id journal, store.lookup id = some journal → journal.runId = id)
    (orderly : Orderly libraries bucket) (listing : Listing bucket) :
    (loaded libraries listing).Perm (store.keys.filterMap store.lookup) := by
  have once : (loaded libraries listing).Nodup :=
    ((nodup_loaded_iff libraries listing).mpr orderly).of_map _
  have held : (store.keys.filterMap store.lookup).Nodup := by
    refine (nodup_filterMap_iff store.keys_nodup).mpr ?_
    intro first _ second _ journal firstFound secondFound
    rw [← filed first journal firstFound, filed second journal secondFound]
  refine (List.perm_ext_iff_of_nodup once held).mpr fun journal => ?_
  rw [mem_loaded_iff, List.mem_filterMap]
  constructor
  · rintro ⟨id, read⟩
    have found : store.lookup id = some journal := by rw [← stores id, read]; rfl
    have key : id ∈ store.keys :=
      AList.mem_keys.mp (AList.lookup_isSome.mp (Option.isSome_of_eq_some found))
    exact ⟨id, key, found⟩
  · rintro ⟨id, -, found⟩
    exact ⟨id, eq_ok_of_toOption ((stores id).trans found)⟩

/-- What runs have written to a bucket, and the journals of it. -/
inductive Written (libraries : Libraries) : Bucket → JournalStore → Prop where
  | empty : Written libraries ∅ ∅
  | journal {bucket after : Bucket} {store : JournalStore} {journal : RunJournal} :
      Written libraries bucket store → journal.Fits →
      save libraries bucket journal (.ok ()) = .ok after →
      Written libraries after (store.insert journal.runId journal)
  | blob {bucket : Bucket} {store : JournalStore} (hash : ContentHash) (bytes : List UInt8) :
      Written libraries bucket store →
      Written libraries (bucket.insert hash.toObjectKey bytes) store

/-- Every journal is stored under its own name, and there are no names of other journals. -/
structure Shelved (libraries : Libraries) (bucket : Bucket) (store : JournalStore) : Prop where
  stores : Stores libraries bucket store
  filed : ∀ id journal, store.lookup id = some journal → journal.runId = id
  named : ∀ stem, (bucket.lookup (journalPrefix ++ stem ++ ".json")).isSome →
    ∃ id : Uuid, stem = id.display

variable {libraries : Libraries} {bucket after : Bucket} {store : JournalStore}

theorem Shelved.journal {journal : RunJournal} (shelved : Shelved libraries bucket store)
    (fits : journal.Fits) (saved : save libraries bucket journal (.ok ()) = .ok after) :
    Shelved libraries after (store.insert journal.runId journal) where
  stores := shelved.stores.save fits saved
  filed := by
    intro id other found
    by_cases own : id = journal.runId
    · subst own
      rw [AList.lookup_insert] at found
      exact congrArg RunJournal.runId (Option.some.inj found).symm
    · rw [AList.lookup_insert_ne own] at found
      exact shelved.filed id other found
  named := by
    intro stem held
    cases written : journal.body libraries with
    | none =>
        rw [save, written] at saved
        cases saved
    | some body =>
        rw [save_ok written] at saved
        cases saved
        by_cases own : journalPrefix ++ stem ++ ".json" = journalKey journal.runId
        · have stems := (String.append_left_inj _).mp own
          exact ⟨journal.runId, (String.append_right_inj _).mp stems⟩
        · rw [AList.lookup_insert_ne own] at held
          exact shelved.named stem held

theorem Shelved.blob (shelved : Shelved libraries bucket store) (hash : ContentHash)
    (bytes : List UInt8) : Shelved libraries (bucket.insert hash.toObjectKey bytes) store where
  stores := by
    intro id
    have apart := (toObjectKey_ne_journalKey hash id).symm
    simp only [load, AList.lookup_insert_ne apart]
    exact shelved.stores id
  filed := shelved.filed
  named := by
    intro stem held
    have apart : journalPrefix ++ stem ++ ".json" ≠ hash.toObjectKey := by
      intro same
      apply not_journalPrefix_toObjectKey hash
      rw [← same, String.toList_append, String.toList_append, List.append_assoc]
      exact List.prefix_append _ _
    rw [AList.lookup_insert_ne apart] at held
    exact shelved.named stem held

theorem Written.shelved (written : Written libraries bucket store) :
    Shelved libraries bucket store := by
  induction written with
  | empty => exact ⟨fun _ => rfl, fun _ _ => nofun, fun _ => nofun⟩
  | journal _ fits saved shelved => exact shelved.journal fits saved
  | blob hash bytes _ shelved => exact shelved.blob hash bytes

theorem Stores.load_eq_ok_iff (stores : Stores libraries bucket store) {id : Uuid}
    {journal : RunJournal} :
    load libraries bucket id = .ok journal ↔ store.lookup id = some journal := by
  rw [← stores id]
  constructor
  · intro read
    rw [read]
    rfl
  · exact eq_ok_of_toOption

theorem Shelved.orderly (shelved : Shelved libraries bucket store) :
    Orderly libraries bucket where
  canonical := by
    rintro stem id - held parsed -
    obtain ⟨other, rfl⟩ := shelved.named stem held
    rw [libraries.uuids.parse_display, Option.some.injEq] at parsed
    rw [parsed]
  distinct := by
    intro first second journal other firstRead secondRead same
    rw [← shelved.filed first journal (shelved.stores.load_eq_ok_iff.mp firstRead),
      ← shelved.filed second other (shelved.stores.load_eq_ok_iff.mp secondRead), same]

/-- Whatever runs have written, a run's journal is the one that it saved last, the listing has
these journals and no others, each once and newest first, and a source's open runs are theirs. -/
theorem bucket_is_the_store_of_journals (written : Written libraries bucket store)
    (listing : Listing bucket) :
    (∀ id journal, load libraries bucket id = .ok journal ↔ store.lookup id = some journal) ∧
    (∃ journals, list libraries (.ok listing) = .ok journals ∧
      journals.Perm (store.keys.filterMap store.lookup) ∧
      journals.Pairwise fun first second => second.startedAt ≤ first.startedAt) ∧
    ∀ sourceId, ∃ runs, openRuns libraries (.ok listing) sourceId = .ok runs ∧
      runs.Perm (openRunsFor (store.keys.filterMap store.lookup) sourceId) := by
  have shelved := written.shelved
  have listed := loaded_perm shelved.stores shelved.filed shelved.orderly listing
  refine ⟨fun _ _ => shelved.stores.load_eq_ok_iff, ⟨_, rfl, ?_, pairwise_newestFirst _⟩, ?_⟩
  · exact (newestFirst_perm _).trans listed
  · intro sourceId
    refine ⟨_, openRuns_ok libraries listing sourceId, List.Perm.filter _ ?_⟩
    exact (newestFirst_perm _).trans (listed.trans (newestFirst_perm _).symm)

def resumedJournal : RunJournal := openJournal.push (.committing 1) 1700000001500000000

def laterJournal : RunJournal := .new 7 "/data" 1 1700000001500000000

def resumedStore : JournalStore :=
  (((∅ : JournalStore).insert 42 openJournal).insert 7 laterJournal).insert 42 resumedJournal

theorem exists_written_resumedStore : ∃ bucket, Written sampleLibraries bucket resumedStore := by
  have saved : ∀ {journal : RunJournal} (bucket : Bucket),
      (journal.body sampleLibraries).isSome = true →
      ∃ after, save sampleLibraries bucket journal (.ok ()) = .ok after := by
    intro journal bucket rendered
    obtain ⟨body, written⟩ := Option.isSome_iff_exists.mp rendered
    exact ⟨_, save_ok written⟩
  have resumed : resumedJournal.Fits := by
    refine ⟨by decide, by decide, ?_⟩
    simp [resumedJournal, openJournal, RunJournal.push, RunJournal.new, RunState.Fits]
  have later : laterJournal.Fits := by
    refine ⟨by decide, by decide, ?_⟩
    simp [laterJournal, RunJournal.new, RunState.Fits]
  obtain ⟨first, opened⟩ := saved ∅ (show (openJournal.body sampleLibraries).isSome = true from rfl)
  obtain ⟨second, began⟩ := saved (first.insert (ContentHash.mk "abcd").toObjectKey [0x61])
    (show (laterJournal.body sampleLibraries).isSome = true from rfl)
  obtain ⟨third, went⟩ := saved second
    (show (resumedJournal.body sampleLibraries).isSome = true from rfl)
  exact ⟨third, .journal (.journal (.blob ⟨"abcd"⟩ [0x61] (.journal .empty fits_openJournal opened))
    later began) resumed went⟩

theorem bucket_is_the_store_of_journals_resumed : ∃ bucket journals,
    list sampleLibraries (.ok (Listing.ofKeys bucket)) = .ok journals ∧
      journals.Perm [resumedJournal, laterJournal] ∧
      load sampleLibraries bucket 42 = .ok resumedJournal := by
  obtain ⟨bucket, written⟩ := exists_written_resumedStore
  obtain ⟨loads, ⟨journals, listed, same, -⟩, -⟩ :=
    bucket_is_the_store_of_journals written (Listing.ofKeys bucket)
  exact ⟨bucket, journals, listed, same, (loads 42 resumedJournal).mpr rfl⟩

end AntiEntropator.Ingest
