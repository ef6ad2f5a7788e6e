import AntiEntropator.Domain.CaseFolding
import AntiEntropator.Domain.Extension
import AntiEntropator.Scan.File

/-!
# Suggested names keep the type

The tools' names end in the file's own extension, or in none if it has none.
The fallback takes the extension as it is shown, which for a file without one is
a marker.
-/

namespace AntiEntropator.Scan

open Splitting

/-! ## The names of the producers -/

def IsStampChar (character : Char) : Prop :=
  character = '+' ∨ character = '-' ∨ character = '_' ∨
    48 ≤ character.toNat ∧ character.toNat ≤ 57

structure IsStamp (text : String) : Prop where
  nonempty : text ≠ ""
  characters : ∀ character ∈ text.toList, IsStampChar character

theorem IsStamp.notMem {text : String} (stamp : IsStamp text) {mark : Char}
    (other : ¬ IsStampChar mark) : mark ∉ text.toList :=
  fun member => other (stamp.characters mark member)

theorem isStampChar_of_joined {parts : List (List Char)}
    (components : ∀ part ∈ parts, IsComponent part) {character : Char}
    (member : character ∈ ['-'].intercalate parts) : IsStampChar character := by
  rcases mem_intercalate member with between | ⟨part, inside, found⟩
  · exact .inr (.inl (List.mem_singleton.mp between))
  · obtain ⟨number, reading, -⟩ := components part inside
    rcases toNat_of_mem_unsigned reading found with sign | digit
    · exact .inl sign
    · exact .inr (.inr (.inr digit))

theorem isStamp_joined {date time : List (List Char)}
    (dateComponents : ∀ part ∈ date, IsComponent part)
    (timeComponents : ∀ part ∈ time, IsComponent part) :
    IsStamp (String.ofList (['-'].intercalate date ++ '_' :: ['-'].intercalate time)) where
  nonempty := by
    intro empty
    have letters := congrArg String.toList empty
    rw [String.toList_ofList] at letters
    simp at letters
  characters := by
    intro character member
    rw [String.toList_ofList] at member
    rcases List.mem_append.mp member with front | back
    · exact isStampChar_of_joined dateComponents front
    · rcases List.mem_cons.mp back with rfl | back
      · exact .inr (.inr (.inl rfl))
      · exact isStampChar_of_joined timeComponents back

theorem isStamp_of_parseIsoDatetime {text out : String}
    (parsed : parseIsoDatetime text = some out) : IsStamp out := by
  obtain ⟨date, time, offset, tail, accepted, rfl⟩ := parseIsoDatetime_eq_some_iff.mp parsed
  exact isStamp_joined accepted.dateComponents accepted.timeComponents

theorem isStamp_of_parseExifDatetime {text out : String}
    (parsed : parseExifDatetime text = some out) : IsStamp out := by
  simp only [parseExifDatetime, Option.bind_eq_bind, Option.bind_eq_some_iff,
    Option.guard_eq_some', exists_const] at parsed
  obtain ⟨date, -, time, -, lengths, numbers, times, result⟩ := parsed
  cases result
  have dateComponents : ∀ part ∈ date.splitOn ':', IsComponent part :=
    fun part inside => isU32_iff.mp (List.all_eq_true.mp numbers part inside)
  have timeComponents : ∀ part ∈ time.splitOn ':', IsComponent part :=
    fun part inside => isU32_iff.mp (List.all_eq_true.mp times part inside)
  apply isStamp_joined dateComponents
  intro part inside
  rcases List.mem_append.mp inside with first | last
  · exact timeComponents part (List.mem_of_mem_take first)
  · rw [List.mem_singleton.mp last]
    cases third : (time.splitOn ':')[2]? with
    | none => exact isU32_iff.mp (by decide)
    | some seconds => exact timeComponents seconds (List.mem_of_getElem? third)

theorem stamp_of_exiftoolDatetime {table : CaseTable} {tools : Tools} {path : List UInt8}
    {name reason : String} (found : exiftoolDatetime table tools path = some (name, reason)) :
    ∃ stamp, IsStamp stamp ∧ name = stamp ++ dottedExtension table path := by
  obtain ⟨output, -, scanned⟩ := Option.bind_eq_some_iff.mp found
  obtain ⟨line, -, taken⟩ := List.exists_of_findSome?_eq_some scanned
  dsimp only at taken
  split at taken
  next => cases taken
  next =>
    obtain ⟨formatted, parsed, same⟩ := Option.map_eq_some_iff.mp taken
    cases same
    exact ⟨formatted, isStamp_of_parseExifDatetime parsed, rfl⟩

theorem stamp_of_ffprobeDatetime {table : CaseTable} {tools : Tools} {path : List UInt8}
    {name reason : String} (found : ffprobeDatetime table tools path = some (name, reason)) :
    ∃ stamp, IsStamp stamp ∧ name = stamp ++ dottedExtension table path := by
  simp only [ffprobeDatetime, Option.bind_eq_bind, Option.bind_eq_some_iff] at found
  obtain ⟨output, -, json, -, format, -, tags, -, value, -, creationTime, -, formatted, parsed,
    result⟩ := found
  cases result
  exact ⟨formatted, isStamp_of_parseIsoDatetime parsed, rfl⟩

/-- What may not be part of a file name. -/
def Forbidden (character : Char) : Prop := character = '/' ∨ character = '\x00'

instance (character : Char) : Decidable (Forbidden character) :=
  inferInstanceAs (Decidable (_ ∨ _))

theorem not_forbidden_sanitizeChar (character : Char) : ¬ Forbidden (sanitizeChar character) := by
  unfold sanitizeChar
  split
  next => decide
  next other =>
    split
    next => decide
    next =>
      split
      next => decide
      next printable =>
        rintro (rfl | rfl)
        · exact other List.mem_cons_self
        · exact printable (by decide)

theorem not_forbidden_of_sanitized {text : String} {character : Char}
    (member : character ∈ (sanitizeFilename text).toList) : ¬ Forbidden character := by
  rw [sanitizeFilename, String.toList_ofList] at member
  have inside := List.mem_of_mem_take member
  rw [toList_trim, String.toList_ofList] at inside
  obtain ⟨source, -, rfl⟩ := List.mem_map.mp (Trimming.mem_of_mem_trim inside)
  exact not_forbidden_sanitizeChar source

theorem title_of_pdfinfoTitle {table : CaseTable} {tools : Tools} {path : List UInt8}
    {name reason : String} (found : pdfinfoTitle table tools path = some (name, reason)) :
    ∃ title, title ≠ "" ∧ (∀ character ∈ title.toList, ¬ Forbidden character) ∧
      name = title ++ ".pdf" := by
  obtain ⟨output, -, scanned⟩ := Option.bind_eq_some_iff.mp found
  obtain ⟨line, -, taken⟩ := List.exists_of_findSome?_eq_some scanned
  simp only [Option.ite_none_right_eq_some, Option.some.injEq, Prod.mk.injEq] at taken
  obtain ⟨-, -, long, same, -⟩ := taken
  exact ⟨_, long.1, fun character member => not_forbidden_of_sanitized member, same.symm⟩

/-! ## Extensions -/

theorem byte_of_mem_extension {table : CaseTable} {path : List UInt8} {extension : OsString}
    (found : Path.extension path = some extension) {mark : Char} (ascii : IsAsciiChar mark)
    (other : mark.isLower = false) (plain : mark.toLower = mark)
    (member : mark ∈ (table.toLowercase extension.toStringLossy).toList) :
    UInt8.ofNat mark.toNat ∈ path ∧ UInt8.ofNat mark.toNat ≠ 0x2F := by
  rw [CaseTable.toLowercase, String.toList_ofList] at member
  have raw := (table.mark_mem_lowerChars_iff ascii other plain).mp member
  exact Path.mem_of_extension found (OsString.mem_of_mem_toStringLossy ascii raw)

theorem not_forbidden_of_extension {table : CaseTable} {path : List UInt8} {extension : OsString}
    (found : Path.extension path = some extension) (noNul : 0 ∉ path) {character : Char}
    (member : character ∈ (table.toLowercase extension.toStringLossy).toList) :
    ¬ Forbidden character := by
  rintro (rfl | rfl)
  · exact (byte_of_mem_extension found (by decide) (by decide) (by decide) member).2 rfl
  · exact noNul (byte_of_mem_extension found (by decide) (by decide) (by decide) member).1

/-- A suggested name for a file with this extension, in lowercase, or without one. -/
structure KeepsType (extension : Option String) (name : String) : Prop where
  allowed : ∀ character ∈ name.toList, ¬ Forbidden character
  extended : ∀ text, extension = some text → ∃ stem, stem ≠ "" ∧ name = stem ++ "." ++ text
  bare : extension = none → name ≠ "" ∧ '.' ∉ name.toList ∧ endsWithText name "(none)" = false

def lowerExtension? (table : CaseTable) (path : List UInt8) : Option String :=
  (Path.extension path).map fun extension => table.toLowercase extension.toStringLossy

theorem not_forbidden_of_stamp {stamp : String} (isStamp : IsStamp stamp) {character : Char}
    (member : character ∈ stamp.toList) : ¬ Forbidden character := by
  have written := isStamp.characters character member
  rintro (rfl | rfl)
  · exact absurd written (by simp [IsStampChar])
  · exact absurd written (by simp [IsStampChar])

theorem keepsType_of_extension {table : CaseTable} {path : List UInt8} {extension : OsString}
    (found : Path.extension path = some extension) (noNul : 0 ∉ path) {stem : String}
    (nonempty : stem ≠ "") (allowed : ∀ character ∈ stem.toList, ¬ Forbidden character) :
    KeepsType (lowerExtension? table path)
      (stem ++ ("." ++ table.toLowercase extension.toStringLossy)) where
  allowed := by
    intro character member
    rw [String.toList_append, List.mem_append] at member
    rcases member with front | back
    · exact allowed character front
    · rw [String.toList_append, List.mem_append] at back
      rcases back with dot | letter
      · rw [List.mem_singleton.mp (show character ∈ ['.'] from dot)]
        decide
      · exact not_forbidden_of_extension found noNul letter
  extended := by
    intro text same
    rw [lowerExtension?, found] at same
    cases same
    exact ⟨stem, nonempty, by rw [String.append_assoc]⟩
  bare := by
    intro missing
    rw [lowerExtension?, found] at missing
    cases missing

theorem ends_parenthesis {text : String} (ends : endsWithText text "(none)" = true) :
    '(' ∈ text.toList := by
  obtain ⟨front, whole⟩ := of_decide_eq_true ends
  rw [← whole]
  exact List.mem_append_right _ List.mem_cons_self

theorem keepsType_of_stamp {stamp : String} (isStamp : IsStamp stamp) : KeepsType none stamp where
  allowed _ member := not_forbidden_of_stamp isStamp member
  extended _ impossible := by cases impossible
  bare _ := by
    refine ⟨isStamp.nonempty, isStamp.notMem (by simp [IsStampChar]), ?_⟩
    apply eq_false_of_ne_true
    exact fun ends => isStamp.notMem (by simp [IsStampChar]) (ends_parenthesis ends)

theorem keepsType_dotted {table : CaseTable} {path : List UInt8} {stamp : String}
    (isStamp : IsStamp stamp) (noNul : 0 ∉ path) :
    KeepsType (lowerExtension? table path) (stamp ++ dottedExtension table path) := by
  cases found : Path.extension path with
  | none =>
      rw [lowerExtension?, dottedExtension, found, Option.map_none, Option.map_none,
        Option.getD_none, String.append_empty]
      exact keepsType_of_stamp isStamp
  | some extension =>
      have kept : KeepsType (lowerExtension? table path) _ :=
        keepsType_of_extension found noNul isStamp.nonempty fun character member =>
          not_forbidden_of_stamp isStamp member
      rwa [dottedExtension, found]

section Environment

variable (environment : Environment)

theorem keepsType_pdf {path : List UInt8} {title : String}
    (shown : extensionOf environment path = ".pdf") (noNul : 0 ∉ path) (nonempty : title ≠ "")
    (allowed : ∀ character ∈ title.toList, ¬ Forbidden character) :
    KeepsType (lowerExtension? environment.table path) (title ++ ".pdf") := by
  cases found : Path.extension path with
  | none =>
      rw [extensionOf, found] at shown
      have different : "(none)" ≠ ".pdf" := by decide
      exact absurd shown different
  | some extension =>
      have kept : KeepsType (lowerExtension? environment.table path) _ :=
        keepsType_of_extension found noNul nonempty allowed
      rw [extensionOf, found] at shown
      rwa [show "." ++ environment.table.toLowercase extension.toStringLossy = ".pdf" from shown]
        at kept

theorem keepsType_toolName {path : List UInt8} (noNul : 0 ∉ path) {category : FileCategory}
    {name reason : String} (found : toolName environment path category
      (extensionOf environment path) = some (name, reason)) :
    KeepsType (lowerExtension? environment.table path) name := by
  cases category with
  | image =>
      obtain ⟨stamp, isStamp, rfl⟩ := stamp_of_exiftoolDatetime found
      exact keepsType_dotted isStamp noNul
  | video =>
      obtain ⟨stamp, isStamp, rfl⟩ := stamp_of_ffprobeDatetime found
      exact keepsType_dotted isStamp noNul
  | audio =>
      obtain ⟨stamp, isStamp, rfl⟩ := stamp_of_ffprobeDatetime found
      exact keepsType_dotted isStamp noNul
  | document =>
      rw [toolName] at found
      split at found
      next shown =>
        obtain ⟨title, nonempty, allowed, rfl⟩ := title_of_pdfinfoTitle found
        exact keepsType_pdf environment shown noNul nonempty allowed
      next => cases found
  | archive => cases found
  | code => cases found
  | font => cases found
  | data => cases found
  | other => cases found

theorem isStamp_format (time : DateTime) : IsStamp (environment.times.format time) where
  nonempty := environment.times.nonempty time
  characters := by
    intro character member
    rcases environment.times.characters time character member with plus | minus | low | digit
    · exact .inl plus
    · exact .inr (.inl minus)
    · exact .inr (.inr (.inl low))
    · exact .inr (.inr (.inr (Char.isDigit_iff_toNat.mp digit)))

/-- The fallback keeps the type of a file that has one. -/
theorem keepsType_fallback_iff {path : List UInt8} (noNul : 0 ∉ path) (time : DateTime) :
    KeepsType (lowerExtension? environment.table path)
        (environment.times.format time ++ extensionOf environment path) ↔
      Path.extension path ≠ none := by
  have isStamp := isStamp_format environment time
  cases found : Path.extension path with
  | none =>
      refine iff_of_false (fun kept => ?_) (by simp)
      have bare := kept.bare (by rw [lowerExtension?, found, Option.map_none])
      have marked : endsWithText (environment.times.format time ++ extensionOf environment path)
          "(none)" = true := by
        rw [extensionOf, found, Option.map_none, Option.getD_none]
        exact decide_eq_true ⟨_, String.toList_append.symm⟩
      rw [bare.2.2] at marked
      cases marked
  | some extension =>
      refine iff_of_true ?_ (by simp)
      have kept : KeepsType (lowerExtension? environment.table path) _ :=
        keepsType_of_extension found noNul isStamp.nonempty fun character member =>
          not_forbidden_of_stamp isStamp member
      rwa [extensionOf, found]

/-! ## The name of a scan -/

/-- The category by the MIME type, or by the extension where there is none. -/
def scannedCategory (path : List UInt8) : FileCategory :=
  FileCategory.classify environment.table (extensionOf environment path)
    (environment.mimeType path)

theorem mimeType_of_inspect {path : List UInt8} {size : Nat} {mimeType part full : Option String}
    (inspected : inspect environment path size = .ok (mimeType, part, full)) :
    mimeType = environment.mimeType path := by
  unfold inspect at inspected
  split at inspected
  next => cases inspected
  next =>
    cases inspected
    rfl

def beforeName (path : PathBuf) (found : Metadata) (mimeType part full : Option String) :
    FileInfo :=
  let info := FileInfo.new environment.table environment.id environment.now path
    (filenameOf path.bytes) (extensionOf environment path.bytes) found.len found.modified
    found.created
  let info := (mimeType.map (info.withMimeType environment.table)).getD info
  let info := (part.map fun hash => info.withPartialHash ⟨hash⟩).getD info
  (full.map fun hash => info.withContentHash ⟨hash⟩).getD info

theorem beforeName_fields (path : PathBuf) (found : Metadata) (mimeType part full : Option String) :
    let info := beforeName environment path found mimeType part full
    info.filename = filenameOf path.bytes ∧ info.extension = extensionOf environment path.bytes ∧
      info.category = FileCategory.classify environment.table
        (extensionOf environment path.bytes) mimeType ∧
      info.modifiedAt = found.modified ∧ info.suggestedName = none := by
  cases mimeType <;> cases part <;> cases full <;>
    simp only [beforeName, Option.map_none, Option.map_some, Option.getD_none, Option.getD_some,
      FileInfo.withMimeType, FileInfo.withPartialHash, FileInfo.withContentHash, FileInfo.new,
      and_self]

theorem name_of_scanFile {path : PathBuf} {info : FileInfo}
    (scanned : scanFile environment path = .ok info) :
    ∃ found part full, metadata environment path.bytes = .ok found ∧
      info.suggestedName = (getSuggestedName environment path.bytes (beforeName environment path
        found (environment.mimeType path.bytes) part full)).map Prod.fst := by
  cases read : metadata environment path.bytes with
  | error text =>
      simp only [scanFile, read, withContext, bind, Except.bind] at scanned
      cases scanned
  | ok found =>
      cases inspected : inspect environment path.bytes found.len with
      | error text =>
          simp only [scanFile, read, inspected, withContext, bind, Except.bind] at scanned
          cases scanned
      | ok details =>
          obtain ⟨mimeType, part, full⟩ := details
          obtain rfl := mimeType_of_inspect environment inspected
          refine ⟨found, part, full, rfl, ?_⟩
          have unnamed := (beforeName_fields environment path found
            (environment.mimeType path.bytes) part full).2.2.2.2
          simp only [scanFile, read, inspected, withContext, bind, Except.bind] at scanned
          split at scanned
          next name reason named =>
            cases scanned
            exact (congrArg (Option.map Prod.fst) named).symm
          next named =>
            cases scanned
            exact unnamed.trans (congrArg (Option.map Prod.fst) named).symm

theorem suggestedName_scanFile {path : PathBuf} {info : FileInfo}
    (scanned : scanFile environment path = .ok info) :
    ∃ found, metadata environment path.bytes = .ok found ∧
      info.suggestedName =
        match toolName environment path.bytes (scannedCategory environment path.bytes)
            (extensionOf environment path.bytes) with
        | some (name, _) => some name
        | none =>
            if isGenericFilename environment.table (filenameOf path.bytes) then
              found.modified.map fun modified =>
                environment.times.format modified ++ extensionOf environment path.bytes
            else none := by
  obtain ⟨found, part, full, read, named⟩ := name_of_scanFile environment scanned
  refine ⟨found, read, ?_⟩
  obtain ⟨filename, extension, category, modifiedAt, -⟩ := beforeName_fields environment path found
    (environment.mimeType path.bytes) part full
  rw [← scannedCategory] at category
  rw [named, getSuggestedName, category, extension, filename, modifiedAt]
  cases toolName environment path.bytes (scannedCategory environment path.bytes)
      (extensionOf environment path.bytes) with
  | some result => rfl
  | none =>
      dsimp only
      split
      next => rw [Option.map_map]; rfl
      next => rfl

/-- The fallback names the file: no tool does, its own name is generic, and the time of
its last change is known. -/
def FallsBack (path : List UInt8) : Prop :=
  toolName environment path (scannedCategory environment path)
      (extensionOf environment path) = none ∧
    isGenericFilename environment.table (filenameOf path) = true ∧
      ∃ found time, metadata environment path = .ok found ∧ found.modified = some time

theorem noNul_of_metadata {path : List UInt8} {found : Metadata}
    (read : metadata environment path = .ok found) : 0 ∉ path := by
  intro member
  rw [metadata, if_pos member] at read
  cases read

/-- A suggested name keeps the type of its file unless the fallback names a file that
has no extension. -/
theorem suggested_names_keep_the_type_iff (path : PathBuf) (info : FileInfo)
    (scanned : scanFile environment path = .ok info) :
    (∀ name, info.suggestedName = some name →
      KeepsType (lowerExtension? environment.table path.bytes) name) ↔
    ¬ (Path.extension path.bytes = none ∧ FallsBack environment path.bytes) := by
  obtain ⟨found, read, suggested⟩ := suggestedName_scanFile environment scanned
  have noNul := noNul_of_metadata environment read
  cases named : toolName environment path.bytes (scannedCategory environment path.bytes)
      (extensionOf environment path.bytes) with
  | some result =>
      obtain ⟨tool, reason⟩ := result
      refine iff_of_true (fun name same => ?_) ?_
      · rw [suggested, named] at same
        cases same
        exact keepsType_toolName environment noNul named
      · rintro ⟨-, unnamed, -⟩
        rw [named] at unnamed
        cases unnamed
  | none =>
      rw [named] at suggested
      dsimp only at suggested
      constructor
      · rintro keeps ⟨missing, -, generic, other, time, again, changed⟩
        obtain rfl := Except.ok.inj (again.symm.trans read)
        rw [if_pos generic, changed] at suggested
        have kept := keeps _ suggested
        exact (keepsType_fallback_iff environment noNul time).mp kept missing
      · intro safe name same
        rw [suggested] at same
        split at same
        next generic =>
          obtain ⟨time, changed, rfl⟩ := Option.map_eq_some_iff.mp same
          apply (keepsType_fallback_iff environment noNul time).mpr
          intro missing
          exact safe ⟨missing, named, generic, found, time, read, changed⟩
        next => cases same

end Environment

def sampleTimes : TimeFormat where
  format _ := "2024-01-15_14-30-45"
  nonempty _ := by decide
  characters _ := List.forall_iff_forall_mem.mp (by decide +kernel)

/-- No tool is installed; files are empty and were changed at the sample's instant. -/
def sampleEnvironment : Environment where
  crypto := sampleCrypto
  table := asciiCase
  tools := ⟨fun _ => none, fun _ => none⟩
  times := sampleTimes
  stat _ := .ok ⟨0, some 1705329045000000000, none⟩
  mimeType _ := none
  openQuick _ := .error "No such file"
  openFull _ := .error "No such file"
  panicked := none
  id := 0
  now := 1705329045000000000

def samplePath (name : String) : PathBuf := ⟨[utf8Bytes "data", utf8Bytes name]⟩

def sampleScan (name : String) : FileInfo :=
  { beforeName sampleEnvironment (samplePath name) ⟨0, some 1705329045000000000, none⟩ none none
      none with
    suggestedName := some ("2024-01-15_14-30-45" ++
      extensionOf sampleEnvironment (samplePath name).bytes)
    nameReason := some "modified_date_fallback" }

theorem suggested_names_keep_the_type_iff_image :
    KeepsType (lowerExtension? asciiCase (samplePath "IMG_1.JPG").bytes)
      "2024-01-15_14-30-45.jpg" := by
  have scanned : scanFile sampleEnvironment (samplePath "IMG_1.JPG") =
      .ok (sampleScan "IMG_1.JPG") := by decide +kernel
  have extended : Path.extension (samplePath "IMG_1.JPG").bytes ≠ none := by decide +kernel
  have named : (sampleScan "IMG_1.JPG").suggestedName = some "2024-01-15_14-30-45.jpg" := by
    decide +kernel
  exact (suggested_names_keep_the_type_iff sampleEnvironment (samplePath "IMG_1.JPG")
    (sampleScan "IMG_1.JPG") scanned).mpr (fun lost => extended lost.1) _ named

/-- The marker of a missing extension becomes part of a name. -/
theorem generic_name_without_extension_gets_a_marker :
    (sampleScan "550e8400-e29b-41d4-a716-446655440000").suggestedName =
        some "2024-01-15_14-30-45(none)" ∧
      ¬ ∀ (environment : Environment) (path : PathBuf) (info : FileInfo),
        scanFile environment path = .ok info → ∀ name, info.suggestedName = some name →
          KeepsType (lowerExtension? environment.table path.bytes) name := by
  have scanned : scanFile sampleEnvironment
      (samplePath "550e8400-e29b-41d4-a716-446655440000") =
        .ok (sampleScan "550e8400-e29b-41d4-a716-446655440000") := by decide +kernel
  have named : (sampleScan "550e8400-e29b-41d4-a716-446655440000").suggestedName =
      some "2024-01-15_14-30-45(none)" := by decide +kernel
  refine ⟨named, fun keeps => ?_⟩
  have kept := keeps _ _ _ scanned _ named
  have bare := kept.bare (by decide +kernel)
  exact absurd bare.2.2 (by decide +kernel)

end AntiEntropator.Scan
