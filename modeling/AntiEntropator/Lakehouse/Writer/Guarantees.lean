import AntiEntropator.Lakehouse.Bootstrap.Stack
import AntiEntropator.Lakehouse.Writer.Append

/-!
# What a commit guarantees

Of every run of `commit_files`, over services that may refuse or lose what they
are asked; and what bootstrap and commit come to together.
-/

namespace AntiEntropator.Lakehouse

open Dialogue

variable {World : Type} {services : Services World} {libraries : ClientLibraries}
  {config : LakehouseConfig} {files : List FileInfo}

/-! ## The stack's table -/

/-- The stack's Parquet files, and what was appended. -/
def stackStore : TableStore Stack where
  written := Stack.written
  content stack file := stack.written file.path
  landed := Stack.landed

theorem stackStore_truthful {projectId warehousePrefix : String} :
    stackStore.Truthful (stackServices libraries config projectId warehousePrefix).answers where
  opened := by
    rintro stack path after ⟨⟩
    exact Function.update_self ..
  wrote := by
    rintro stack path batch after ⟨⟩
    exact Function.update_self ..
  closed := by
    rintro stack path builders dataFiles after ⟨⟩ ⟨⟩
    exact List.append_nil _
  attempted := by
    rintro stack properties dataFiles reply after ⟨⟩
    exact .inr rfl
  appended := by
    rintro stack properties dataFiles after ⟨⟩
    rfl
  untouched := by
    intro stack call reply after answered other
    have same := (congrArg Prod.snd answered).symm
    dsimp only at same
    rw [same]
    cases call with
    | send request => exact (serve_leaves stack request).2
    | commit properties dataFiles => exact absurd rfl (other properties dataFiles)
    | _ => rfl

theorem freshStack_up : TablesUp freshStack.answers where
  location := fun answered => ⟨_, (congrArg Prod.fst answered).symm⟩
  opened := fun answered => (congrArg Prod.fst answered).symm
  wrote := fun answered => (congrArg Prod.fst answered).symm
  closed := fun answered => ⟨_, _, (congrArg Prod.fst answered).symm, rfl⟩
  committed := fun answered => (congrArg Prod.fst answered).symm

theorem freshStack_store : stackStore.Truthful freshStack.answers := stackStore_truthful

theorem freshStack_commits (stack : Stack) (files : List FileInfo) : ∃ exchanges ended final,
    Runs freshStack.answers (commitFiles stackLibraries stackConfig files) stack exchanges
      (some ended) final :=
  exists_runs freshStack_total (commitFiles stackLibraries stackConfig files) stack

def stackFiles : List FileInfo := [Writer.plainFile, Writer.textFile]

theorem freshStack_appends {exchanges : List (Sigma Call.Reply)} {ended : Except Error Unit}
    {final : Stack} (runs : Runs freshStack.answers
      (commitFiles stackLibraries stackConfig stackFiles) readyStack exchanges (some ended) final) :
    final.landed = [[Writer.catalogBatch stackFiles]] := by
  have alive := (freshStack_healthy.commitFiles_alive freshStack_truthful freshStack_up
    (stackServices_readable.resolves freshStack_truthful known_readyStack) ready_readyStack).runs
      runs
  cases ended with
  | ok result => exact (freshStack_store.commitFiles_appends freshStack_truthful
      (by simp [stackFiles]) readyStack).runs runs
  | error error => exact alive.elim

/-! ## One commit -/

/-- Whatever happens to a run of `commit_files`, and wherever it is cut off: its rows have been
appended once, as one batch, or nothing has; they have if it reports success; and what it asked to
write and append is this batch, each at most once. -/
theorem commit_files_appends_at_most_once {store : TableStore World}
    (laws : store.Truthful services.answers) (truthful : services.Truthful libraries config)
    {world final : World} {exchanges : List (Sigma Call.Reply)}
    {ending : Option (Except Error Unit)}
    (runs : Runs services.answers (commitFiles libraries config files) world exchanges ending
      final) :
    ∃ batch : RecordBatch,
      (∀ rows, batch.Holds rows ↔ rows = filesToBatch files) ∧
      (store.landed final = store.landed world ∨
        files ≠ [] ∧ store.landed final = store.landed world ++ [[batch]]) ∧
      (ending = some (.ok ()) → files ≠ [] →
        store.landed final = store.landed world ++ [[batch]]) ∧
      ∃ path dataFiles, AtMost [.parquet path batch, .append dataFiles]
        (marks change? exchanges) := by
  refine ⟨Writer.catalogBatch files, fun rows => ?_, ?_, ?_, commitFiles_sends.runs runs⟩
  · constructor
    · exact fun holds => holds.rows_eq (holds_catalogBatch files)
    · rintro rfl
      exact holds_catalogBatch files
  · by_cases nonempty : files = []
    · subst nonempty
      cases runs with
      | cut => exact .inl rfl
      | done => exact .inl rfl
    · rcases Ensures.reached (laws.commitFiles_appends truthful nonempty world) runs with
        ⟨-, same⟩ | ⟨⟨call, reply⟩, -, last, asked, answered⟩
      · exact .inl (congrArg store.landed same)
      · by_cases committed : ∃ properties dataFiles, call = .commit properties dataFiles
        · obtain ⟨properties, dataFiles, rfl⟩ := committed
          have outcome := laws.attempted answered
          rw [asked.before, asked.appended _ _ rfl] at outcome
          exact outcome.imp id fun landed => ⟨nonempty, landed⟩
        · have other : ∀ properties dataFiles, call ≠ .commit properties dataFiles :=
            fun properties dataFiles same => committed ⟨properties, dataFiles, same⟩
          exact .inl ((laws.untouched answered other).trans asked.before)
  · rintro rfl nonempty
    exact (laws.commitFiles_appends truthful nonempty world).runs runs

theorem commit_files_appends_at_most_once_fresh :
    ∃ exchanges ended final batch,
      Runs freshStack.answers (commitFiles stackLibraries stackConfig stackFiles) readyStack
        exchanges (some ended) final ∧
      RecordBatch.Holds batch (filesToBatch stackFiles) ∧
      (final.landed = [] ∨ final.landed = [[batch]]) := by
  obtain ⟨exchanges, ended, final, runs⟩ := freshStack_commits readyStack stackFiles
  obtain ⟨batch, holds, landed, -⟩ :=
    commit_files_appends_at_most_once freshStack_store freshStack_truthful runs
  exact ⟨exchanges, ended, final, batch, runs, (holds _).mpr rfl, landed.imp id And.right⟩

/-- Whenever `commit_files` asks to write or to append, in whatever world the run has come to, the
table of the one catalog that it commits to has been checked and holds nothing of the batch. -/
theorem commit_files_writes_to_a_checked_table {store : TableStore World}
    (laws : store.Truthful services.answers) (truthful : services.Truthful libraries config)
    {world final : World} {before after : List (Sigma Call.Reply)} {exchange : Sigma Call.Reply}
    {ending : Option (Except Error Unit)}
    (runs : Runs services.answers (commitFiles libraries config files) world
      (before ++ exchange :: after) ending final)
    (changing : change? exchange.1 ≠ none) :
    ∃ catalogConfig : CatalogConfigResult,
      (∀ later ∈ exchange :: after, ∀ properties dataFiles,
        later.1 = .commit properties dataFiles →
        properties = buildRestCatalogProps config catalogConfig) ∧
      (∃ middle, Runs services.answers (commitFiles libraries config files) world before none
        middle) ∧
      ∀ middle, Runs services.answers (commitFiles libraries config files) world before none
          middle →
        store.landed middle = store.landed world ∧
        services.Checked libraries config catalogConfig middle := by
  have nonempty : files ≠ [] := by
    rintro rfl
    generalize same : before ++ exchange :: after = exchanges at runs
    cases runs with
    | cut => simp at same
    | done => simp at same
  have appending := laws.commitFiles_appends truthful nonempty world
  have landed : ∀ middle, Runs services.answers (commitFiles libraries config files) world before
      none middle → store.landed middle = store.landed world := fun middle reached =>
    (Ensures.asks_of_reached appending runs reached).before
  rw [commitFiles_eq libraries config nonempty] at runs landed ⊢
  obtain ⟨catalog, checked, front, back, rfl, whole, writing⟩ :=
    checkedCatalog_sends.passed runs changing
  obtain ⟨catalogConfig, rfl, -⟩ := (checkedCatalog_yields truthful world).runs whole
  refine ⟨catalogConfig, fun later member => ?_, runs.exists_cut, fun middle reached =>
    ⟨landed middle reached, ?_⟩⟩
  · obtain ⟨between, others, parts⟩ := List.append_of_mem member
    rw [parts, ← List.append_assoc] at writing
    obtain ⟨_, -, commitsTo⟩ := Ensures.asked (appendBatch_commitsTo _ _ checked) writing
    exact commitsTo
  · -- This run has checked a table as well, and was answered the same.
    obtain ⟨stop, looked, wrote⟩ := whole.resume reached
    obtain ⟨other, same, accepted⟩ := (checkedCatalog_yields truthful world).runs looked
    obtain rfl := buildRestCatalogProps_injective config same
    exact accepted.kept (truthful.respected.runs wrote)

theorem commit_files_writes_to_a_checked_table_ready :
    ∃ (before : List (Sigma Call.Reply)) (exchange : Sigma Call.Reply) (middle : Stack)
      (catalogConfig : CatalogConfigResult),
      change? exchange.1 ≠ none ∧
      Runs freshStack.answers (commitFiles stackLibraries stackConfig stackFiles) readyStack
        before none middle ∧
      freshStack.Checked stackLibraries stackConfig catalogConfig middle := by
  obtain ⟨exchanges, ended, final, runs⟩ := freshStack_commits readyStack stackFiles
  have changed : ∃ exchange ∈ exchanges, change? exchange.1 ≠ none := by
    by_contra silent
    push Not at silent
    have same : final.landed = [] :=
      ((freshStack_store.silent stackStore freshStack_truthful).runs (runs.restrict silent)).1
    have landed := freshStack_appends runs
    rw [same] at landed
    cases landed
  obtain ⟨exchange, member, asked⟩ := changed
  obtain ⟨before, after, rfl⟩ := List.append_of_mem member
  obtain ⟨catalogConfig, -, ⟨middle, reached⟩, checked⟩ :=
    commit_files_writes_to_a_checked_table freshStack_store freshStack_truthful runs asked
  exact ⟨before, exchange, middle, catalogConfig, asked, reached, (checked middle reached).2⟩

/-! ## After a bootstrap -/

/-- Commands that commit batches, one after the other, each to its end, where the environment names
no project or this one. -/
inductive Commits (services : Services World) (libraries : ClientLibraries)
    (config : LakehouseConfig) (projectId : String) : World → List (List FileInfo) → World → Prop
    where
  | none (world : World) : Commits services libraries config projectId world [] world
  | next {world middle final : World} {named : Option String} {files : List FileInfo}
      {batches : List (List FileInfo)} {exchanges : List (Sigma Call.Reply)}
      {ended : Except Error Unit} :
      named.getD projectId = projectId →
      Runs services.answers (commitFiles libraries { config with projectId := named } files) world
        exchanges (some ended) middle →
      Commits services libraries config projectId middle batches final →
      Commits services libraries config projectId world (files :: batches) final

theorem Commits.appends {store : TableStore World} (laws : store.Truthful services.answers)
    (truthful : services.Truthful libraries config) (healthy : services.Healthy libraries config)
    (up : TablesUp services.answers) (readable : services.Readable) {projectId : String}
    {world final : World} {batches : List (List FileInfo)}
    (commits : Commits services libraries config projectId world batches final)
    (ready : Ready services libraries config projectId world)
    (saved : services.savedId libraries world = some projectId) :
    store.landed final = store.landed world ++
      (batches.filter fun files => !files.isEmpty).map fun files => [Writer.catalogBatch files] := by
  induction commits with
  | none world => simp
  | @next world middle final named files batches exchanges ended agrees runs later hypothesis =>
      have behind := truthful.withProject named
      have known : named.or (services.savedId libraries world) = some projectId := by
        cases named with
        | none => exact saved
        | some id => exact congrArg some agrees
      have there : Ready services libraries { config with projectId := named } projectId world :=
        ⟨ready.bucket, ready.project, ready.warehouse, ready.catalog⟩
      have alive := ((healthy.withProject named).commitFiles_alive behind up
        (readable.resolves behind known) there).runs runs
      have returned : ended = .ok () := by
        cases ended with
        | ok result => rfl
        | error error => exact alive.elim
      subst returned
      have still : services.savedId libraries middle = some projectId := by
        rw [Services.savedId, commitFiles_files behind runs]
        exact saved
      rw [hypothesis (ready.kept (truthful.respected.runs runs)) still]
      by_cases empty : files = []
      · subst empty
        cases runs
        simp
      · have landed := (laws.commitFiles_appends behind empty world).runs runs
        rw [ends_ok] at landed
        simp [landed, empty]

/-- After a bootstrap that reports success and could write the state file, whatever batches are
committed in its project land as they are, in their order, as long as the services stay up. -/
theorem bootstrapped_lakehouse_takes_every_batch {store : TableStore World}
    (laws : store.Truthful services.answers) (truthful : services.Truthful libraries config)
    (healthy : services.Healthy libraries config) (up : TablesUp services.answers)
    (readable : services.Readable) (writable : services.Writable) {path : String}
    (place : libraries.stateFilePath = some path)
    {world middle : World} {exchanges : List (Sigma Call.Reply)}
    (runs : Runs services.answers (init libraries config) world exchanges (some (.ok ())) middle) :
    ∃ projectId, Ready services libraries config projectId middle ∧
      ∀ (batches : List (List FileInfo)) (final : World),
        Commits services libraries config projectId middle batches final →
        ∃ appended : List RecordBatch,
          store.landed final = store.landed middle ++ appended.map (fun batch => [batch]) ∧
          List.Forall₂ (fun batch files => RecordBatch.Holds batch (filesToBatch files)) appended
            (batches.filter fun files => !files.isEmpty) := by
  obtain ⟨projectId, ready, written⟩ := (writable.init_saves truthful place world).runs runs
  have saved : services.savedId libraries middle = some projectId :=
    Services.savedId_eq_of_readState place (by rw [written, readState_stateDocument])
  refine ⟨projectId, ready, fun batches final commits => ?_⟩
  refine ⟨(batches.filter fun files => !files.isEmpty).map Writer.catalogBatch, ?_, ?_⟩
  · rw [commits.appends laws truthful healthy up readable ready saved, List.map_map]
    rfl
  · rw [List.forall₂_map_left_iff]
    exact List.forall₂_same.mpr fun files _ => holds_catalogBatch files

theorem bootstrapped_lakehouse_takes_every_batch_fresh :
    ∃ (middle final : Stack) (first second : RecordBatch),
      final.landed = middle.landed ++ [[first], [second]] ∧
      first.Holds (filesToBatch stackFiles) ∧ second.Holds (filesToBatch stackFiles.reverse) := by
  obtain ⟨exchanges, middle, started, -⟩ := freshStack_init
  obtain ⟨projectId, -, lands⟩ := bootstrapped_lakehouse_takes_every_batch freshStack_store
    freshStack_truthful freshStack_healthy freshStack_up stackServices_readable
    stackServices_writable rfl started
  obtain ⟨_, _, between, one⟩ := freshStack_commits middle stackFiles
  obtain ⟨_, _, later, two⟩ := freshStack_commits between []
  obtain ⟨_, _, final, three⟩ := exists_runs freshStack_total (commitFiles stackLibraries
    { stackConfig with projectId := some projectId } stackFiles.reverse) later
  have commits : Commits freshStack stackLibraries stackConfig projectId middle
      [stackFiles, [], stackFiles.reverse] final :=
    .next rfl one (.next rfl two (.next rfl three (.none final)))
  obtain ⟨appended, landed, holds⟩ := lands _ _ commits
  rcases holds with _ | ⟨first, _ | ⟨second, _ | _⟩⟩
  exact ⟨middle, final, _, _, landed, first, second⟩

end AntiEntropator.Lakehouse
