import AntiEntropator.Domain.CaseFolding
import AntiEntropator.Domain.Extension
import AntiEntropator.Ingest.Collect
import AntiEntropator.Profile.Breakdown

/-!
# Categories in a profile and in an ingest

Both ask one classifier, with extensions they take from the name in their own
way: a profile keeps the compound extension of a compressed tar archive, which
is in none of the classifier's lists, and an ingest only sees its last part.
-/

namespace AntiEntropator.Profile

open Grouping Splitting

/-! ## The classifier -/

section Classifier

variable (table : CaseTable)

def listedUnder (clean : String) : FileCategory :=
  ([.image, .video, .audio, .document, .archive, .code, .font, .data].find? fun category =>
    clean ∈ FileCategory.extensions category).getD .other

theorem extensions_ascii (category : FileCategory) :
    ∀ extension ∈ category.extensions, ∀ letter ∈ extension.toList, IsAsciiChar letter := by
  simp only [← List.forall_iff_forall_mem]
  cases category <;> decide +kernel

theorem mem_extensions_iff (category : FileCategory) (clean : List Char) :
    String.ofList (clean.map foldSigma) ∈ category.extensions ↔
      String.ofList clean ∈ category.extensions := by
  constructor
  · intro listed
    have ascii := extensions_ascii category _ listed
    rw [String.toList_ofList] at ascii
    rwa [(map_foldSigma_eq_iff ascii).mp rfl]
  · intro listed
    have ascii := extensions_ascii category _ listed
    rw [String.toList_ofList] at ascii
    rwa [(map_foldSigma_eq_iff ascii).mpr rfl]

theorem listedUnder_map_foldSigma (clean : List Char) :
    listedUnder (String.ofList (clean.map foldSigma)) = listedUnder (String.ofList clean) := by
  unfold listedUnder
  congr 2
  funext category
  exact decide_eq_decide.mpr (mem_extensions_iff category clean)

theorem dropWhile_dot_map_foldSigma (text : List Char) :
    (text.map foldSigma).dropWhile (· = '.') = (text.dropWhile (· = '.')).map foldSigma := by
  rw [List.dropWhile_map]
  congr 2
  funext character
  exact decide_eq_decide.mpr (foldSigma_eq_ascii_iff (by decide))

/-- An extension is classified by the lowercase of its characters one by one. -/
theorem fromExtension_eq (extension : String) :
    FileCategory.fromExtension table extension = listedUnder (String.ofList
      ((extension.toList.flatMap table.lowerOne).dropWhile (· = '.'))) := by
  rw [← table.map_foldSigma_lowerChars [], dropWhile_dot_map_foldSigma, listedUnder_map_foldSigma,
    FileCategory.fromExtension, CaseTable.toLowercase, String.toList_ofList]
  rfl

theorem fromExtension_dot (extension : String) :
    FileCategory.fromExtension table ("." ++ extension) =
      FileCategory.fromExtension table extension := by
  have dot : table.lowerOne '.' = ['.'] := table.lowerOne_ascii (by decide)
  have split : ("." ++ extension).toList = '.' :: extension.toList := by
    rw [String.toList_append]
    rfl
  rw [fromExtension_eq, fromExtension_eq, split, List.flatMap_cons, dot, List.singleton_append,
    List.dropWhile_cons_of_pos (by simp)]

theorem fromExtension_of_ascii {extension : String}
    (plain : ∀ letter ∈ extension.toList, IsAsciiChar letter ∧ letter.toLower = letter) :
    FileCategory.fromExtension table extension =
      listedUnder (String.ofList (extension.toList.dropWhile (· = '.'))) := by
  rw [FileCategory.fromExtension, table.toLowercase_of_ascii plain]
  rfl

end Classifier

/-! ## The extension of a name in text -/

def HasName (entry : DirEntry) (name : String) : Prop :=
  Path.fileName entry.path = some (utf8Bytes name)

instance (entry : DirEntry) (name : String) : Decidable (HasName entry name) :=
  inferInstanceAs (Decidable (_ = _))

def extension? (name : String) : Option String :=
  (Path.afterLast? '.' name.toList).map String.ofList

section Names

variable {entry : DirEntry} {name : String} (table : CaseTable)

theorem extension_of_hasName {path : List UInt8}
    (named : Path.fileName path = some (utf8Bytes name)) :
    Path.extension path = (extension? name).map utf8Bytes := by
  rw [Path.extension_of_fileName named, afterLast?_utf8Bytes, extension?, Option.map_map]
  congr 1
  funext characters
  exact (utf8Bytes_ofList characters).symm

theorem lowerExtension_of_hasName (named : HasName entry name) :
    Ingest.lowerExtension table entry = ((extension? name).map table.toLowercase).getD "" := by
  rw [Ingest.lowerExtension, extension_of_hasName named, Option.map_map]
  congr 2
  funext extension
  exact congrArg table.toLowercase (OsString.toStringLossy_utf8Bytes extension)

theorem extensionOf_of_hasName (named : HasName entry name) :
    extensionOf table entry = getExtension table name := by
  rw [extensionOf, DirEntry.fileName, named, Option.getD_some, OsString.toStringLossy_utf8Bytes]

theorem extension_utf8Bytes (named : HasName entry name) :
    Path.extension (utf8Bytes name) = (extension? name).map utf8Bytes :=
  extension_of_hasName (Path.fileName_of_normal (Path.normal_of_fileName named))

/-- Text whose lowercase ends in `stem.last` has an extension whose lowercase is `last`. -/
theorem extension_of_ending {stem last : List Char} (nonempty : stem ≠ [])
    (ascii : ∀ letter ∈ stem ++ '.' :: last, IsAsciiChar letter) (clear : '.' ∉ last)
    (ends : stem ++ '.' :: last <:+ (table.toLowercase name).toList) :
    (extension? name).map table.toLowercase = some (String.ofList last) := by
  have dot : ∀ text : List Char, '.' ∈ text.flatMap table.lowerOne ↔ '.' ∈ text :=
    fun text => table.mark_mem_lowered_iff (by decide) (by decide) (by decide)
  rw [CaseTable.toLowercase, String.toList_ofList, ← suffix_map_foldSigma_iff ascii,
    table.map_foldSigma_lowerChars] at ends
  obtain ⟨front, whole⟩ := ends
  have inside : '.' ∈ name.toList := by
    apply (dot name.toList).mp
    rw [← whole]
    simp
  cases cut : cutLast? '.' name.toList with
  | none => exact absurd inside (notMem_of_cutLast? cut)
  | some parts =>
      obtain ⟨before, after⟩ := parts
      obtain ⟨split, plain⟩ := append_of_cutLast? cut
      have lowered : front ++ stem ++ '.' :: last =
          before.flatMap table.lowerOne ++ '.' :: after.flatMap table.lowerOne := by
        rw [List.append_assoc, whole, split, List.flatMap_append, List.flatMap_cons,
          table.lowerOne_ascii (by decide)]
        rfl
      have cuts := cutLast?_append clear (front ++ stem)
      rw [lowered, cutLast?_append fun member => plain ((dot after).mp member)] at cuts
      obtain ⟨fronts, lasts⟩ := Prod.mk.inj (Option.some.inj cuts)
      have filled : before ≠ [] := by
        rintro rfl
        simp [nonempty] at fronts
      rw [extension?, split, Path.afterLast?_eq_some_iff.mpr ⟨before, filled, rfl, plain⟩]
      rw [← table.map_foldSigma_lowerChars [], map_foldSigma_eq_iff] at lasts
      · rw [Option.map_some, Option.map_some, CaseTable.toLowercase, String.toList_ofList, lasts]
      · intro letter member
        exact ascii letter (List.mem_append_right _ (List.mem_cons_of_mem _ member))

end Names

/-! ## Compound extensions -/

def compoundExtensions : List String := [".tar.gz", ".tar.bz2", ".tar.xz", ".tar.zst", ".tar.br"]

/-- The compound extensions whose last part is one of an archive. -/
def archiveExtensions : List String := [".tar.gz", ".tar.bz2", ".tar.xz"]

/-- A compressed tar archive with a last extension that the classifier knows. -/
def IsCompressedTar (table : CaseTable) (name : String) : Prop :=
  ∃ ending ∈ archiveExtensions, endsWithText (table.toLowercase name) ending

instance (table : CaseTable) (name : String) : Decidable (IsCompressedTar table name) :=
  inferInstanceAs (Decidable (∃ ending ∈ archiveExtensions,
    endsWithText (table.toLowercase name) ending))

def lastPart (ending : String) : List Char := ending.toList.drop 5

theorem compound_plain : ∀ ending ∈ compoundExtensions,
    (∀ letter ∈ ending.toList, IsAsciiChar letter ∧ letter.toLower = letter) ∧
      ending.toList = ".tar".toList ++ '.' :: lastPart ending ∧ '.' ∉ lastPart ending := by
  simp only [← List.forall_iff_forall_mem]
  decide +kernel

/-- No list has a compound extension; one has the last part of some of them. -/
theorem compound_listed : ∀ ending ∈ compoundExtensions,
    listedUnder (String.ofList (ending.toList.dropWhile (· = '.'))) = .other ∧
      listedUnder (String.ofList (lastPart ending)) =
        if ending ∈ archiveExtensions then .archive else .other := by
  decide +kernel

/-- The category of an ingest, before it is text. -/
def ingestCategory (table : CaseTable) (entry : DirEntry) : FileCategory :=
  FileCategory.classify table (Ingest.lowerExtension table entry) none

section Compound

variable {entry : DirEntry} {name : String} (table : CaseTable)

theorem getExtension_compound {ending : String}
    (found : compoundExtensions.find? (endsWithText (table.toLowercase name)) = some ending) :
    getExtension table name = ending := by
  unfold compoundExtensions at found
  simp only [getExtension, found]

theorem getExtension_simple
    (missing : compoundExtensions.find? (endsWithText (table.toLowercase name)) = none)
    (named : HasName entry name) : getExtension table name =
      ((extension? name).map fun extension =>
        "." ++ table.toLowercase extension).getD "(none)" := by
  unfold compoundExtensions at missing
  simp only [getExtension, missing, extension_utf8Bytes named]
  cases extension? name with
  | none => rfl
  | some extension =>
      simp only [Option.map_some, OsString.toStringLossy_utf8Bytes]
      rfl

theorem fromExtension_compound {ending : String} (compound : ending ∈ compoundExtensions) :
    FileCategory.fromExtension table ending = .other := by
  rw [fromExtension_of_ascii table (compound_plain ending compound).1]
  exact (compound_listed ending compound).1

theorem ingestCategory_of_ending (named : HasName entry name) {ending : String}
    (compound : ending ∈ compoundExtensions)
    (ends : endsWithText (table.toLowercase name) ending = true) :
    ingestCategory table entry = if ending ∈ archiveExtensions then .archive else .other := by
  obtain ⟨plain, letters, clear⟩ := compound_plain ending compound
  have suffix := of_decide_eq_true ends
  rw [letters] at suffix plain
  have lowered := extension_of_ending table (by decide)
    (fun letter member => (plain letter member).1) clear suffix
  have undotted : (lastPart ending).dropWhile (· = '.') = lastPart ending := by
    cases part : lastPart ending with
    | nil => rfl
    | cons letter rest =>
        rw [part] at clear
        apply List.dropWhile_cons_of_neg
        simpa using fun same : letter = '.' => clear (same ▸ List.mem_cons_self)
  have listed : FileCategory.fromExtension table (String.ofList (lastPart ending)) =
      listedUnder (String.ofList (lastPart ending)) := by
    have plainPart : ∀ letter ∈ (String.ofList (lastPart ending)).toList,
        IsAsciiChar letter ∧ letter.toLower = letter := by
      intro letter member
      rw [String.toList_ofList] at member
      exact plain letter (List.mem_append_right _ (List.mem_cons_of_mem _ member))
    rw [fromExtension_of_ascii table plainPart, String.toList_ofList, undotted]
  rw [ingestCategory, lowerExtension_of_hasName table named, lowered, Option.getD_some,
    FileCategory.classify, listed]
  exact (compound_listed ending compound).2

theorem mem_compoundExtensions {ending : String} (archive : ending ∈ archiveExtensions) :
    ending ∈ compoundExtensions :=
  (by decide : ∀ ending ∈ archiveExtensions, ending ∈ compoundExtensions) ending archive

theorem categories_of_compressedTar (named : HasName entry name)
    (compressed : IsCompressedTar table name) :
    categoryOf table entry = .other ∧ ingestCategory table entry = .archive := by
  obtain ⟨ending, archive, ends⟩ := compressed
  have present := mem_compoundExtensions archive
  constructor
  · cases found : compoundExtensions.find? (endsWithText (table.toLowercase name)) with
    | none => exact absurd ends (List.find?_eq_none.mp found ending present)
    | some compound =>
        rw [categoryOf, extensionOf_of_hasName table named, getExtension_compound table found,
          FileCategory.classify, fromExtension_compound table (List.mem_of_find?_eq_some found)]
  · rw [ingestCategory_of_ending table named present ends, if_pos archive]

theorem categories_of_other (named : HasName entry name) (other : ¬ IsCompressedTar table name) :
    categoryOf table entry = ingestCategory table entry := by
  rw [categoryOf, extensionOf_of_hasName table named]
  cases found : compoundExtensions.find? (endsWithText (table.toLowercase name)) with
  | none =>
      rw [getExtension_simple table found named, ingestCategory,
        lowerExtension_of_hasName table named]
      cases extension? name with
      | none =>
          have unlisted : listedUnder "(none)" = listedUnder "" := by decide +kernel
          have marked : FileCategory.fromExtension table "(none)" = listedUnder "(none)" :=
            fromExtension_of_ascii table (List.forall_iff_forall_mem.mp (by decide +kernel))
          have empty : FileCategory.fromExtension table "" = listedUnder "" :=
            fromExtension_of_ascii table (List.forall_iff_forall_mem.mp (by decide +kernel))
          rw [Option.map_none, Option.map_none, Option.getD_none, Option.getD_none,
            FileCategory.classify, FileCategory.classify, marked, empty, unlisted]
      | some extension =>
          rw [Option.map_some, Option.map_some, Option.getD_some, Option.getD_some,
            FileCategory.classify, FileCategory.classify, fromExtension_dot]
  | some compound =>
      have ends := List.find?_some found
      have present := List.mem_of_find?_eq_some found
      have uncommon : compound ∉ archiveExtensions :=
        fun archive => other ⟨compound, archive, ends⟩
      rw [getExtension_compound table found, FileCategory.classify,
        fromExtension_compound table present, ingestCategory_of_ending table named present ends,
        if_neg uncommon]

end Compound

/-! ## Counts under a category -/

def shownCount (groups : List (String × GroupStats)) (key : String) : Nat :=
  ((groups.find? fun group => group.1 = key).map fun group => group.2.count).getD 0

theorem shownCount_groupsOf (items : List (String × UInt64 × String)) (key : String) :
    shownCount (groupsOf items) key = (under key items).length := by
  have found : (groupsOf items).find? (fun group => group.1 = key) =
      ((keys items).find? (· = key)).map fun key =>
        (key, GroupStats.new.addAll (under key items)) := by
    rw [groupsOf, List.find?_map]
    rfl
  rw [shownCount, found]
  by_cases member : key ∈ keys items
  · have first : (keys items).find? (· = key) = some key := by
      cases here : (keys items).find? (· = key) with
      | none =>
          have differs := List.find?_eq_none.mp here key member
          exact absurd (decide_eq_true rfl) differs
      | some other =>
          have same : other = key := by simpa using List.find?_some here
          rw [same]
    rw [first]
    exact (GroupStats.count_addAll _ _).trans (Nat.zero_add _)
  · have missing : (keys items).find? (· = key) = none := by
      rw [List.find?_eq_none]
      intro other inside same
      exact member (of_decide_eq_true same ▸ inside)
    rw [missing, under_eq_nil fun inside => member (mem_keys_iff.mpr inside)]
    rfl

theorem length_under_keyed (key : DirEntry → String) (files : List (DirEntry × UInt64))
    (wanted : String) : (under wanted (keyed (fun entry => some (key entry)) files)).length =
      files.countP fun file => key file.1 = wanted := by
  rw [keyed_some, under, List.length_map, List.filter_map, List.length_map,
    List.countP_eq_length_filter]
  rfl

theorem countP_lt_countP {Item : Type} {items : List Item} (strong weak : Item → Bool)
    (weaker : ∀ item ∈ items, strong item = true → weak item = true) {item : Item}
    (member : item ∈ items) (holds : weak item = true) (fails : strong item = false) :
    items.countP strong < items.countP weak := by
  obtain ⟨front, back, rfl⟩ := List.append_of_mem member
  have before : front.countP strong ≤ front.countP weak :=
    List.countP_mono_left fun other inside => weaker other (List.mem_append_left _ inside)
  have after : back.countP strong ≤ back.countP weak :=
    List.countP_mono_left fun other inside =>
      weaker other (List.mem_append_right _ (List.mem_cons_of_mem _ inside))
  rw [List.countP_append, List.countP_append, List.countP_cons_of_pos holds,
    List.countP_cons_of_neg (by simp [fails])]
  omega

theorem toText_injective : Function.Injective FileCategory.toText := by
  intro first second same
  cases first <;> cases second <;> first | rfl | exact absurd same (by decide)

/-! ## What an ingest of one category selects -/

def regularEntry? : Except WalkError DirEntry → Option DirEntry
  | .error _ => none
  | .ok entry => if entry.fileType = .file then some entry else none

/-- The regular files of a walk, with metadata or without. -/
def regularEntries (walk : Walk) : List DirEntry := walk.filterMap regularEntry?

/-- The category by which the type filter of an ingest goes. -/
def pathCategory (table : CaseTable) (path : List UInt8) : FileCategory :=
  ingestCategory table ⟨path, .file, .ok 0⟩

/-- What `ingest --types category` selects by category, and not by an extension of that name. -/
def selectedFiles (glob : Ingest.Glob) (table : CaseTable) (walk : Walk)
    (category : FileCategory) : Except Error (List (List UInt8)) := do
  let files ← Ingest.collectFiles glob table ⟨[], [], [category.toText], none, none⟩ walk
  return files.filter fun path => pathCategory table path = category

def ofType (table : CaseTable) (wanted : String) (entry : DirEntry) : Bool :=
  entry.fileType = .file && (Ingest.categoryText table entry = table.toLowercase wanted ||
    Ingest.lowerExtension table entry = table.toLowercase wanted)

theorem toText_lower (table : CaseTable) (category : FileCategory) :
    table.toLowercase category.toText = category.toText := by
  apply table.toLowercase_of_ascii
  simp only [← List.forall_iff_forall_mem]
  cases category <;> decide +kernel

section Select

variable {glob : Ingest.Glob} {table : CaseTable} {walk : Walk} {wanted : String}

theorem passes_ofType (glob : Ingest.Glob) (table : CaseTable) (wanted : String)
    (entry : DirEntry) : Ingest.passes table
      (Ingest.filtersOf glob table ⟨[], [], [wanted], none, none⟩) entry =
        .ok (ofType table wanted entry) := by
  simp only [Ingest.passes, Ingest.filtersOf, List.map_nil, List.any_nil, List.isEmpty_nil,
    Bool.not_true, Bool.false_and, Bool.false_eq_true, if_false, List.isEmpty_cons, List.map_cons,
    Option.any_some, List.contains_cons, List.contains_nil, Bool.or_false, ofType]
  by_cases regular : entry.fileType = .file
  · by_cases category : Ingest.categoryText table entry = table.toLowercase wanted
    · simp [regular, category]
    · by_cases extension : Ingest.lowerExtension table entry = table.toLowercase wanted
      · simp [regular, extension]
      · simp [regular, category, extension]
  · simp [regular]

theorem collectFiles_ofType (clean : ∀ item ∈ walk, ∃ entry, item = .ok entry) :
    Ingest.collectFiles glob table ⟨[], [], [wanted], none, none⟩ walk =
      .ok (Ingest.filesWhere (ofType table wanted) walk) := by
  have parsed : Ingest.parseFilters glob table ⟨[], [], [wanted], none, none⟩ =
      .ok (Ingest.filtersOf glob table ⟨[], [], [wanted], none, none⟩) :=
    Ingest.parseFilters_eq (fun _ member => by simp at member) table
  unfold Ingest.collectFiles
  rw [parsed]
  refine (Ingest.collectLoop_eq (fun item member => ?_) fun limit none => by cases none).trans rfl
  obtain ⟨entry, rfl⟩ := clean item member
  exact ⟨entry, rfl, passes_ofType glob table wanted entry⟩

theorem clean_of_collectLoop {files found : List (List UInt8)}
    (collected : Ingest.collectLoop table
      (Ingest.filtersOf glob table ⟨[], [], [wanted], none, none⟩) files walk = .ok found) :
    ∀ item ∈ walk, ∃ entry, item = .ok entry := by
  induction walk generalizing files with
  | nil => exact List.forall_mem_nil _
  | cons item rest inductionHypothesis =>
      cases item with
      | error failure => cases collected
      | ok entry =>
          rw [Ingest.collectLoop, passes_ofType] at collected
          refine List.forall_mem_cons.mpr ⟨⟨entry, rfl⟩, ?_⟩
          cases taken : ofType table wanted entry with
          | false =>
              rw [taken] at collected
              exact inductionHypothesis collected
          | true =>
              rw [taken] at collected
              exact inductionHypothesis collected

theorem length_filesWhere_ofType (clean : ∀ item ∈ walk, ∃ entry, item = .ok entry)
    (category : FileCategory) :
    ((Ingest.filesWhere (ofType table category.toText) walk).filter fun path =>
      pathCategory table path = category).length =
      (regularEntries walk).countP fun entry => ingestCategory table entry = category := by
  induction walk with
  | nil => rfl
  | cons item rest inductionHypothesis =>
      obtain ⟨⟨entry, rfl⟩, later⟩ := List.forall_mem_cons.mp clean
      have counted := inductionHypothesis later
      unfold Ingest.filesWhere regularEntries at counted ⊢
      by_cases regular : entry.fileType = .file
      · by_cases own : ingestCategory table entry = category
        · have taken : ofType table category.toText entry = true := by
            have text : Ingest.categoryText table entry = category.toText :=
              congrArg FileCategory.toText own
            simp [ofType, regular, text, toText_lower]
          have same : pathCategory table entry.path = category := own
          simp [taken, same, regularEntry?, regular, own, counted]
        · have other : pathCategory table entry.path ≠ category := own
          cases taken : ofType table category.toText entry <;>
            simp [taken, other, regularEntry?, regular, own, counted]
      · have untaken : ofType table category.toText entry = false := by simp [ofType, regular]
        simp [untaken, regularEntry?, regular, counted]

end Select

theorem selectedFiles_eq (glob : Ingest.Glob) (table : CaseTable) {walk : Walk}
    (clean : ∀ item ∈ walk, ∃ entry, item = .ok entry) (category : FileCategory) :
    ∃ files, selectedFiles glob table walk category = .ok files ∧ files.length =
      (regularEntries walk).countP fun entry => ingestCategory table entry = category := by
  refine ⟨_, ?_, length_filesWhere_ofType clean category⟩
  rw [selectedFiles, collectFiles_ofType clean]
  rfl

theorem clean_of_selectedFiles {glob : Ingest.Glob} {table : CaseTable} {walk : Walk}
    {category : FileCategory} {files : List (List UInt8)}
    (selected : selectedFiles glob table walk category = .ok files) :
    ∀ item ∈ walk, ∃ entry, item = .ok entry := by
  cases collected : Ingest.collectFiles glob table ⟨[], [], [category.toText], none, none⟩ walk with
  | error error =>
      rw [selectedFiles, collected] at selected
      cases selected
  | ok found =>
      rw [Ingest.collectFiles, Ingest.parseFilters_eq (fun _ member => by simp at member)] at collected
      exact clean_of_collectLoop collected

/-! ## Both counts -/

theorem shownCount_scan (table : CaseTable) (probes : Probes) (options : ScanOptions)
    (sizeOrder : IterationOrder (UInt64 × List String))
    (groupOrder : IterationOrder ((UInt64 × String) × List String)) (root : List UInt8)
    (walk : Walk) (category : FileCategory) :
    shownCount (scan table probes options sizeOrder groupOrder root walk).byCategory
        category.toText =
      (regularEntries walk).countP fun entry =>
        entry.metadata.isOk && categoryOf table entry = category := by
  rw [(scan_breakdowns table probes options sizeOrder groupOrder root walk).2.1,
    shownCount_groupsOf, length_under_keyed]
  unfold countedFiles regularEntries
  induction walk with
  | nil => rfl
  | cons item rest inductionHypothesis =>
      cases item with
      | error failure =>
          simpa [countedFile?, regularEntry?, List.filterMap_cons] using inductionHypothesis
      | ok entry =>
          cases kind : entry.fileType with
          | file =>
              cases read : entry.metadata with
              | error text =>
                  simpa [countedFile?, regularEntry?, List.filterMap_cons, kind, read, Except.isOk,
                    Except.toBool] using inductionHypothesis
              | ok size =>
                  have same : (categoryOf table entry).toText = category.toText ↔
                      categoryOf table entry = category := toText_injective.eq_iff
                  simp [countedFile?, regularEntry?, kind, read, Except.isOk, Except.toBool, same,
                    List.countP_cons, inductionHypothesis]
          | _ =>
              simpa [countedFile?, regularEntry?, List.filterMap_cons, kind] using
                inductionHypothesis

section Counts

variable (table : CaseTable) {entries : List DirEntry}
  (inText : ∀ entry ∈ entries, ∃ name, HasName entry name)

include inText

theorem archive_of_profiled {entry : DirEntry} (member : entry ∈ entries)
    (profiled : categoryOf table entry = .archive) : ingestCategory table entry = .archive := by
  obtain ⟨name, named⟩ := inText entry member
  by_cases compressed : IsCompressedTar table name
  · exact (categories_of_compressedTar table named compressed).2
  · rw [← categories_of_other table named compressed]
    exact profiled

theorem fewer_archives {entry : DirEntry} (member : entry ∈ entries) {name : String}
    (named : HasName entry name) (compressed : IsCompressedTar table name) :
    (entries.countP fun entry => entry.metadata.isOk && categoryOf table entry = .archive) <
      entries.countP fun entry => ingestCategory table entry = .archive := by
  obtain ⟨profiled, ingested⟩ := categories_of_compressedTar table named compressed
  refine countP_lt_countP _ _ ?_ member ?_ ?_
  · intro other inside found
    rw [Bool.and_eq_true, decide_eq_true_eq] at found
    exact decide_eq_true (archive_of_profiled table inText inside found.2)
  · rw [ingested]
    rfl
  · simp [profiled]

theorem fewer_readable
    (plain : ∀ entry ∈ entries, ∀ name, HasName entry name → ¬ IsCompressedTar table name)
    {entry : DirEntry} (member : entry ∈ entries) (unreadable : entry.metadata.isOk = false) :
    (entries.countP fun other => other.metadata.isOk &&
        categoryOf table other = ingestCategory table entry) <
      entries.countP fun other => ingestCategory table other = ingestCategory table entry := by
  refine countP_lt_countP _ _ ?_ member (decide_eq_true rfl) (by rw [unreadable]; rfl)
  intro other inside found
  obtain ⟨name, named⟩ := inText other inside
  rw [Bool.and_eq_true, decide_eq_true_eq] at found
  rw [← categories_of_other table named (plain other inside name named), found.2]
  exact decide_eq_true rfl

end Counts

/-- A name has one category in a profile and in an ingest exactly if it is none of a
compressed tar archive; and the numbers of files under all categories agree exactly if
no file has such a name, nothing in the walk fails and all metadata can be read. -/
theorem profile_and_ingest_categories_agree_iff (glob : Ingest.Glob) (table : CaseTable)
    (probes : Probes) (options : ScanOptions)
    (sizeOrder : IterationOrder (UInt64 × List String))
    (groupOrder : IterationOrder ((UInt64 × String) × List String)) (root : List UInt8)
    (walk : Walk) (inText : ∀ entry ∈ regularEntries walk, ∃ name, HasName entry name) :
    (∀ entry name, HasName entry name →
      (categoryOf table entry = FileCategory.classify table (Ingest.lowerExtension table entry)
        none ↔ ¬ IsCompressedTar table name)) ∧
    ((∀ category : FileCategory, ∃ files,
        selectedFiles glob table walk category = .ok files ∧ shownCount
          (scan table probes options sizeOrder groupOrder root walk).byCategory category.toText =
            files.length) ↔
      (∀ item ∈ walk, ∃ entry, item = .ok entry) ∧
        (∀ entry ∈ regularEntries walk, entry.metadata.isOk = true) ∧
        ∀ entry ∈ regularEntries walk, ∀ name, HasName entry name →
          ¬ IsCompressedTar table name) := by
  constructor
  · intro entry name named
    constructor
    · intro same compressed
      obtain ⟨profiled, ingested⟩ := categories_of_compressedTar table named compressed
      rw [profiled] at same
      exact absurd (same.trans ingested) (by decide)
    · exact categories_of_other table named
  · constructor
    · intro same
      obtain ⟨_, selected, -⟩ := same .other
      have clean := clean_of_selectedFiles selected
      have equal : ∀ category,
          ((regularEntries walk).countP fun entry =>
            entry.metadata.isOk && categoryOf table entry = category) =
          (regularEntries walk).countP fun entry => ingestCategory table entry = category := by
        intro category
        obtain ⟨files, found, counted⟩ := same category
        obtain ⟨others, again, length⟩ := selectedFiles_eq glob table clean category
        rw [found, Except.ok.injEq] at again
        rw [← length, ← again, ← counted, shownCount_scan]
      have plain : ∀ entry ∈ regularEntries walk, ∀ name, HasName entry name →
          ¬ IsCompressedTar table name := fun entry member name named compressed =>
        absurd (equal .archive) (Nat.ne_of_lt (fewer_archives table inText member named compressed))
      refine ⟨clean, fun entry member => ?_, plain⟩
      by_contra unreadable
      rw [Bool.not_eq_true] at unreadable
      exact absurd (equal _) (Nat.ne_of_lt (fewer_readable table inText plain member unreadable))
    · rintro ⟨clean, readable, plain⟩ category
      obtain ⟨files, selected, length⟩ := selectedFiles_eq glob table clean category
      refine ⟨files, selected, ?_⟩
      rw [shownCount_scan, length]
      apply List.countP_congr
      intro entry member
      obtain ⟨name, named⟩ := inText entry member
      rw [readable entry member, Bool.true_and,
        categories_of_other table named (plain entry member name named)]

def oneArchive (name : String) : DirEntry := ⟨utf8Bytes ("/data/" ++ name), .file, .ok 7⟩

theorem profile_and_ingest_categories_agree_iff_zip : ∃ files,
    selectedFiles Ingest.starGlob asciiCase [.ok (oneArchive "a.ZIP")] .archive = .ok files ∧
      shownCount (scan asciiCase extensionProbes ⟨true, true, 10⟩ insertionOrder insertionOrder
        (utf8Bytes "/data") [.ok (oneArchive "a.ZIP")]).byCategory FileCategory.archive.toText =
          files.length := by
  have named : HasName (oneArchive "a.ZIP") "a.ZIP" := by decide +kernel
  have files : regularEntries [.ok (oneArchive "a.ZIP")] = [oneArchive "a.ZIP"] := rfl
  refine (profile_and_ingest_categories_agree_iff Ingest.starGlob asciiCase extensionProbes
    ⟨true, true, 10⟩ insertionOrder insertionOrder (utf8Bytes "/data") [.ok (oneArchive "a.ZIP")]
    ?_).2.mpr ⟨?_, ?_, ?_⟩ .archive
  · rw [files]
    exact List.forall_mem_singleton.mpr ⟨"a.ZIP", named⟩
  · exact List.forall_mem_singleton.mpr ⟨_, rfl⟩
  · rw [files]
    exact List.forall_mem_singleton.mpr rfl
  · rw [files]
    refine List.forall_mem_singleton.mpr fun name other => ?_
    have same : name = "a.ZIP" := utf8Bytes_injective (Option.some.inj (other.symm.trans named))
    rw [same]
    decide +kernel

/-- A compressed tar archive is no archive in a profile. -/
theorem compressed_tar_has_two_categories :
    HasName (oneArchive "a.tar.gz") "a.tar.gz" ∧
      ¬ ∀ (table : CaseTable) (entry : DirEntry) (name : String), HasName entry name →
        categoryOf table entry =
          FileCategory.classify table (Ingest.lowerExtension table entry) none := by
  have named : HasName (oneArchive "a.tar.gz") "a.tar.gz" := by decide +kernel
  refine ⟨named, fun agree => ?_⟩
  exact absurd (agree asciiCase _ _ named) (by decide +kernel)

end AntiEntropator.Profile
