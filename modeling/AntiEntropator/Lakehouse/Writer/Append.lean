import AntiEntropator.Lakehouse.Bootstrap.Memory
import AntiEntropator.Lakehouse.Writer.Commit

/-!
# One append

What `commit_files` does to the table: its rows are appended once or not at all,
also where an answer is lost or the command is killed.
-/

namespace AntiEntropator.Lakehouse

open Dialogue

variable {World : Type} {services : Services World} {libraries : ClientLibraries}
  {config : LakehouseConfig} {files : List FileInfo}

/-- The files of a table, and what transactions of this command have appended to it. -/
structure TableStore (World : Type) where
  written : World → String → List RecordBatch
  content : World → DataFile → List RecordBatch
  landed : World → List (List RecordBatch)

/-- A transaction is carried out as a whole or not at all; a lost answer tells neither. -/
structure TableStore.Truthful (store : TableStore World) (answers : Answers World Call.Reply) :
    Prop where
  opened : ∀ {world path after}, answers world (.openParquet path) (.ok ()) after →
    store.written after path = []
  wrote : ∀ {world path batch after}, answers world (.writeParquet path batch) (.ok ()) after →
    store.written after path = store.written world path ++ [batch]
  closed : ∀ {world path builders dataFiles after},
    answers world (.closeParquet path) (.ok builders) after → builders.mapM id = .ok dataFiles →
    dataFiles.flatMap (store.content after) = store.written world path
  attempted : ∀ {world properties dataFiles reply after},
    answers world (.commit properties dataFiles) reply after →
    store.landed after = store.landed world ∨
      store.landed after = store.landed world ++ [dataFiles.flatMap (store.content world)]
  appended : ∀ {world properties dataFiles after},
    answers world (.commit properties dataFiles) (.ok ()) after →
    store.landed after = store.landed world ++ [dataFiles.flatMap (store.content world)]
  untouched : ∀ {world call reply after}, answers world call reply after →
    (∀ properties dataFiles, call ≠ .commit properties dataFiles) →
    store.landed after = store.landed world

/-- The rows of a batch, in its columns. -/
structure RecordBatch.Holds (batch : RecordBatch) (rows : List CatalogRow) : Prop where
  numRows : batch.numRows = rows.length
  cells : ∀ field ∈ Writer.arrowFields, ∀ row, batch.value field.name row =
    rows[row]?.bind fun row => Writer.rowCell row field.name

theorem holds_catalogBatch (files : List FileInfo) :
    (Writer.catalogBatch files).Holds (filesToBatch files) where
  numRows := by simp [Writer.catalogBatch, filesToBatch]
  cells := fun _ member row => Writer.catalogBatch_rows member row

theorem RecordBatch.Holds.rows_eq {batch : RecordBatch} {rows others : List CatalogRow}
    (holds : batch.Holds rows) (other : batch.Holds others) : rows = others := by
  have length : rows.length = others.length := holds.numRows.symm.trans other.numRows
  refine List.ext_getElem length fun index inside within => Writer.rowCell_injective
    fun column known => ?_
  obtain ⟨field, member, named, -⟩ := Writer.mem_arrowFields known
  have cell := (holds.cells field member index).symm.trans (other.cells field member index)
  rwa [List.getElem?_eq_getElem inside, List.getElem?_eq_getElem within, named] at cell

/-- The table of a catalog has what the code writes; the catalog is the one of the configured
warehouse. -/
structure Services.Checked (services : Services World) (libraries : ClientLibraries)
    (config : LakehouseConfig) (catalogConfig : CatalogConfigResult) (world : World) : Prop where
  route : services.holds world
    (.route catalogConfig.projectId config.warehouse catalogConfig.warehousePrefix)
  table : ∃ schema, services.holds world (catalogTable catalogConfig.warehousePrefix schema) ∧
    verifyTableSchema libraries.displayType schema = .ok ()

theorem Services.Checked.kept {catalogConfig : CatalogConfigResult} {world after : World}
    (checked : services.Checked libraries config catalogConfig world)
    (grown : services.Grows world after) :
    services.Checked libraries config catalogConfig after := by
  obtain ⟨route, schema, held, accepted⟩ := checked
  exact ⟨grown _ route, schema, grown _ held, accepted⟩

theorem checkedCatalog_sends :
    Sends change? Nothing (fun _ => True) (checkedCatalog libraries config) := by
  refine buildRestCatalog_sends.then (fun catalog _ => ?_) rfl
  refine (loadTable_sends catalog).then (fun table _ => ?_) rfl
  exact ofExcept_sends.then (fun _ _ => sends_done rfl trivial) rfl

theorem checkedCatalog_yields (truthful : services.Truthful libraries config) (world : World) :
    Yields services.answers Free True
      (fun catalog after => ∃ catalogConfig, catalog = buildRestCatalogProps config catalogConfig ∧
        services.Checked libraries config catalogConfig after)
      (checkedCatalog libraries config) world := by
  refine (truthful.buildRestCatalog_yields world).bind
    fun catalog built ⟨catalogConfig, same, _, route⟩ => ?_
  subst same
  refine ((truthful.loadTable_yields catalogConfig built).reaching truthful.respected).bind
    fun schema loaded ⟨table, grown⟩ => ?_
  rw [yields_bind, yields_ofExcept, ends_true_iff]
  exact fun _ accepted =>
    yields_pure.mpr ⟨catalogConfig, rfl, grown _ route, schema, table, accepted⟩

theorem buildRestCatalogProps_injective (config : LakehouseConfig) :
    Function.Injective (buildRestCatalogProps config) := by
  rintro ⟨warehousePrefix, uri, projectId⟩ ⟨_, _, _⟩ same
  simpa [buildRestCatalogProps, and_comm, and_assoc, and_left_comm] using same

/-- Transactions only go to this catalog. -/
def CommitsTo (catalog : Properties) : World → Call → Prop :=
  fun _ call => ∀ properties dataFiles, call = .commit properties dataFiles → properties = catalog

theorem appendBatch_commitsTo (batch : RecordBatch) (catalog : Properties) (world : World) :
    Yields services.answers (CommitsTo catalog) True (fun _ _ => True) (appendBatch batch catalog)
      world := by
  have demanded : ∀ {call : Call} {Value : Type} {result : call.Reply → Except Error Value}
      {world : World}, CommitsTo catalog world call →
      Yields services.answers (CommitsTo catalog) True (fun _ _ => True)
        (Client.demand call result) world := fun holds =>
    Client.yields_demand.mpr ⟨holds, fun _ _ _ => ends_true_iff.mpr fun _ _ => trivial⟩
  have written : Yields services.answers (CommitsTo catalog) True (fun _ _ => True)
      (writeParquetFile batch) world := by
    refine yields_bind.mpr (yields_query.mpr ⟨nofun, fun fileId drawn _ => ?_⟩)
    refine (demanded (by rintro _ _ ⟨⟩)).bind fun path located _ => ?_
    refine (demanded (by rintro _ _ ⟨⟩)).bind fun _ opened _ => ?_
    refine (demanded (by rintro _ _ ⟨⟩)).bind fun _ filled _ => ?_
    refine (demanded (by rintro _ _ ⟨⟩)).bind fun builders closed _ => ?_
    exact Client.yields_context.mpr (yields_ofExcept.mpr (ends_true_iff.mpr fun _ _ => trivial))
  refine written.bind fun dataFiles staged _ => demanded ?_
  rintro _ _ ⟨⟩
  rfl

/-- While nothing of a batch is appended: only the batch is. -/
structure Appending (store : TableStore World) (before : List (List RecordBatch))
    (batch : RecordBatch) (world : World) (call : Call) : Prop where
  before : store.landed world = before
  appended : ∀ properties dataFiles, call = .commit properties dataFiles →
    dataFiles.flatMap (store.content world) = [batch]

namespace TableStore.Truthful

variable {store : TableStore World} {before : List (List RecordBatch)} {batch : RecordBatch}

theorem silent (store : TableStore World)
    (laws : store.Truthful services.answers) (truthful : services.Truthful libraries config) :
    Respected (Asked services.answers Silent) fun world after =>
      store.landed after = store.landed world ∧ services.Grows world after where
  refl := fun _ => ⟨rfl, fun _ held => held⟩
  trans := fun first second =>
    ⟨second.1.trans first.1, fun resource held => second.2 resource (first.2 resource held)⟩
  answer := fun {world call reply after} answered => by
    refine ⟨laws.untouched answered.2 fun properties dataFiles same => ?_,
      fun _ held => truthful.kept answered.2 held⟩
    subst same
    cases answered.1

theorem silent_appends {α : Type} {client : Client α} {known : α → Prop}
    {post : α → World → Prop} (laws : store.Truthful services.answers)
    (truthful : services.Truthful libraries config) {world : World}
    (same : store.landed world = before) (sends : Sends change? Nothing known client)
    (yields : Yields services.answers Free True post client world) :
    Yields services.answers (Appending store before batch) True
      (fun result after => post result after ∧ store.landed after = before) client world := by
  have quiet := silent_of_nothing sends yields
  have kept := (quiet.keeping (silent store laws truthful)).since (silent store laws truthful)
  refine Ensures.mono kept (fun final call ⟨asked, stays, _⟩ => ?_) fun ended final holds => ?_
  · refine ⟨stays.trans same, ?_⟩
    rintro properties dataFiles rfl
    cases asked
  · cases ended with
    | ok result => exact ⟨holds.1, holds.2.1.trans same⟩
    | error error => trivial

theorem writeParquetFile_appends (laws : store.Truthful services.answers)
    (truthful : services.Truthful libraries config) {world : World}
    (same : store.landed world = before) :
    Yields services.answers (Appending store before batch) True
      (fun dataFiles after => dataFiles.flatMap (store.content after) = [batch] ∧
        store.landed after = before)
      (writeParquetFile batch) world := by
  unfold writeParquetFile
  have named : Sends change? Nothing (fun _ => True)
      (Dialogue.query Call.newV4 : Client Uuid) := sends_query rfl rfl
  refine (laws.silent_appends truthful same named (yields_free _ world)).bind
    fun fileId drawn ⟨_, first⟩ => ?_
  refine (laws.silent_appends truthful first (demand_sends rfl) (yields_free _ drawn)).bind
    fun path located ⟨_, second⟩ => ?_
  have opens : Yields services.answers Free True
      (fun _ after => store.written after path = []) (Client.demand (.openParquet path) id)
      located :=
    Client.demand_free fun reply _ after answered (ok : reply = .ok ()) =>
      laws.opened (ok ▸ answered)
  refine (laws.silent_appends truthful second (demand_sends rfl) opens).bind
    fun _ opened ⟨empty, third⟩ => ?_
  have writes : Yields services.answers (Appending store before batch) True
      (fun _ after => store.written after path = [batch] ∧ store.landed after = before)
      (Client.demand (.writeParquet path batch) id) opened := by
    refine Client.yields_demand.mpr ⟨⟨third, nofun⟩, fun reply after answered =>
      ends_true_iff.mpr fun _ (ok : reply = .ok ()) => ?_⟩
    subst ok
    refine ⟨?_, (laws.untouched answered nofun).trans third⟩
    rw [laws.wrote answered, empty, List.nil_append]
  refine writes.bind fun _ filled ⟨whole, fourth⟩ => ?_
  have closes : Yields services.answers Free True
      (fun builders after => ∀ dataFiles, builders.mapM id = .ok dataFiles →
        dataFiles.flatMap (store.content after) = [batch])
      (Client.demand (.closeParquet path) id) filled :=
    Client.demand_free fun reply builders after answered (ok : reply = .ok builders) dataFiles
      built => (laws.closed (ok ▸ answered) built).trans whole
  refine (laws.silent_appends truthful fourth (demand_sends rfl) closes).bind
    fun builders closed ⟨holds, fifth⟩ => ?_
  exact Client.yields_context.mpr (yields_ofExcept.mpr (ends_true_iff.mpr
    fun dataFiles built => ⟨holds dataFiles built, fifth⟩))

theorem appendBatch_appends (laws : store.Truthful services.answers)
    (truthful : services.Truthful libraries config) (catalog : Properties) {world : World}
    (same : store.landed world = before) :
    Yields services.answers (Appending store before batch) True
      (fun _ after => store.landed after = before ++ [[batch]]) (appendBatch batch catalog)
      world := by
  refine (laws.writeParquetFile_appends truthful same).bind fun dataFiles staged ⟨holds, still⟩ => ?_
  refine Client.yields_demand.mpr ⟨⟨still, ?_⟩, fun reply after answered =>
    ends_true_iff.mpr fun _ (ok : reply = .ok ()) => ?_⟩
  · rintro _ _ ⟨⟩
    exact holds
  · subst ok
    rw [laws.appended answered, still, holds]

theorem commitFiles_appends (laws : store.Truthful services.answers)
    (truthful : services.Truthful libraries config) (nonempty : files ≠ []) (world : World) :
    Yields services.answers
      (Appending store (store.landed world) (Writer.catalogBatch files)) True
      (fun _ after =>
        store.landed after = store.landed world ++ [[Writer.catalogBatch files]])
      (commitFiles libraries config files) world := by
  rw [commitFiles_eq libraries config nonempty]
  refine (laws.silent_appends truthful rfl checkedCatalog_sends (yields_free _ world)).bind
    fun catalog checked ⟨_, same⟩ => ?_
  exact laws.appendBatch_appends truthful catalog same

end TableStore.Truthful

/-! ## What is asked for -/

theorem commitFiles_sends :
    Sends change?
      (fun sent => ∃ path dataFiles,
        AtMost [.parquet path (Writer.catalogBatch files), .append dataFiles] sent)
      (fun _ => True) (commitFiles libraries config files) := by
  have nothing : ∃ path dataFiles,
      AtMost [Change.parquet path (Writer.catalogBatch files), Change.append dataFiles] [] :=
    ⟨"", [], atMost_nil _⟩
  by_cases empty : files = []
  · subst empty
    exact sends_done nothing trivial
  rw [commitFiles_eq libraries config empty]
  refine checkedCatalog_sends.then (fun catalog _ => ?_) nothing
  have written : Sends change?
      (fun sent => ∃ path, AtMost [.parquet path (Writer.catalogBatch files)] sent)
      (fun _ => True) (writeParquetFile (Writer.catalogBatch files)) := by
    have drawn : Sends change? Nothing (fun _ => True)
        (Dialogue.query Call.newV4 : Client Uuid) := sends_query rfl rfl
    refine drawn.then (fun fileId _ => ?_) ⟨"", atMost_nil _⟩
    refine (demand_sends rfl).then (fun path _ => ?_) ⟨"", atMost_nil _⟩
    suffices sends : Sends change? (AtMost [.parquet path (Writer.catalogBatch files)])
        (fun _ => True) _ from
      sends.mono (fun sent atMost => ⟨path, atMost⟩) fun _ _ => trivial
    refine (demand_sends rfl).then (fun _ _ => ?_) (atMost_nil _)
    refine (sends_demand (atMost_nil _) (List.Sublist.refl _)).bind (fun _ _ => ?_)
      fun _ sent => sent
    have closed : Sends change? Nothing (fun _ => True)
        (do
          let builders ← Client.demand (.closeParquet path) id
          Client.context "Failed to build DataFile" (.ofExcept (builders.mapM id)) :
            Client (List DataFile)) :=
      (demand_sends rfl).then (fun builders _ => context_sends ofExcept_sends) rfl
    refine closed.mono (fun after none before sent => ?_) fun _ _ => trivial
    rw [none, List.append_nil]
    exact sent
  refine written.bind (fun dataFiles _ => ?_) ?_
  · have appended : Sends change? (AtMost [.append dataFiles]) (fun _ => True)
        (commitTransaction catalog dataFiles) :=
      sends_demand (atMost_nil _) (List.Sublist.refl _)
    exact appended.mono (fun after append before ⟨path, sent⟩ =>
      ⟨path, dataFiles, sent.append append⟩) fun _ _ => trivial
  · exact fun sent ⟨path, atMost⟩ =>
      ⟨path, [], atMost.trans (List.sublist_append_left _ _)⟩

theorem commitFiles_files (truthful : services.Truthful libraries config) {world final : World}
    {exchanges : List (Sigma Call.Reply)} {ending : Option (Except Error Unit)}
    (runs : Runs services.answers (commitFiles libraries config files) world exchanges ending
      final) : services.file final = services.file world := by
  have asks : Yields services.answers Unwriting True (fun _ _ => True)
      (commitFiles libraries config files) world := by
    refine commitFiles_sends.asks fun sent ⟨path, dataFiles, atMost⟩ change member => ?_
    rcases List.mem_pair.mp (atMost.subset member) with rfl | rfl <;> exact fun _ _ => nofun
  exact truthful.unwriting.runs (Ensures.among asks runs)

/-! ## A lakehouse that takes batches -/

/-- Files can be written and transactions go through. -/
structure TablesUp (answers : Answers World Call.Reply) : Prop where
  location : ∀ {world fileName reply after},
    answers world (.generateLocation fileName) reply after → ∃ path, reply = .ok path
  opened : ∀ {world path reply after}, answers world (.openParquet path) reply after →
    reply = .ok ()
  wrote : ∀ {world path batch reply after}, answers world (.writeParquet path batch) reply after →
    reply = .ok ()
  closed : ∀ {world path reply after}, answers world (.closeParquet path) reply after →
    ∃ builders dataFiles, reply = .ok builders ∧ builders.mapM id = .ok dataFiles
  committed : ∀ {world properties dataFiles reply after},
    answers world (.commit properties dataFiles) reply after → reply = .ok ()

theorem Services.Readable.resolves (readable : services.Readable)
    (truthful : services.Truthful libraries config) {projectId : String} {world : World}
    (known : config.projectId.or (services.savedId libraries world) = some projectId) :
    Resolves services libraries config projectId world := by
  cases named : config.projectId with
  | some id =>
      rw [named, Option.some_or] at known
      exact resolves_of_known (named.trans known) world
  | none =>
      rw [named, Option.none_or] at known
      have yielded := (readable.resolveProjectId_yields truthful known config).keeping
        truthful.respected.among
      rw [named, Option.getD_none] at yielded
      exact yielded.free

theorem writeParquetFile_alive {answers : Answers World Call.Reply} (up : TablesUp answers)
    (batch : RecordBatch) (world : World) :
    Yields answers Free False (fun _ _ => True) (writeParquetFile batch) world := by
  have asked : ∀ {call : Call} {Value : Type} {result : call.Reply → Except Error Value}
      {world : World}, (∀ reply after, answers world call reply after →
        ∃ value, result reply = .ok value) →
      Yields answers Free False (fun _ _ => True) (Client.demand call result) world := by
    intro call Value result world answered
    refine Client.yields_demand.mpr ⟨trivial, fun reply after given => ?_⟩
    obtain ⟨value, same⟩ := answered reply after given
    rw [same]
    trivial
  unfold writeParquetFile
  refine yields_bind.mpr (yields_query.mpr ⟨trivial, fun fileId drawn _ => ?_⟩)
  refine (asked fun _ _ answered => up.location answered).bind fun path located _ => ?_
  refine (asked fun _ _ answered => ⟨(), up.opened answered⟩).bind fun _ opened _ => ?_
  refine (asked fun _ _ answered => ⟨(), up.wrote answered⟩).bind fun _ filled _ => ?_
  have closes : Yields answers Free False
      (fun builders _ => ∃ dataFiles, builders.mapM id = .ok dataFiles)
      (Client.demand (.closeParquet path) id) filled := by
    refine Client.yields_demand.mpr ⟨trivial, fun reply after given => ?_⟩
    obtain ⟨builders, dataFiles, rfl, built⟩ := up.closed given
    exact ⟨dataFiles, built⟩
  refine closes.bind fun builders closed ⟨dataFiles, built⟩ => ?_
  rw [built]
  exact Client.yields_context.mpr (yields_ofExcept.mpr trivial)

theorem Services.Healthy.commitFiles_alive (healthy : services.Healthy libraries config)
    (truthful : services.Truthful libraries config) (up : TablesUp services.answers)
    {projectId : String} {world : World}
    (resolves : Resolves services libraries config projectId world)
    (ready : Ready services libraries config projectId world) :
    Yields services.answers Free False (fun _ _ => True) (commitFiles libraries config files)
      world := by
  by_cases nonempty : files = []
  · subst nonempty
    exact yields_pure.mpr trivial
  obtain ⟨-, -, warehouse, warehousePrefix, schema, route, -, table, accepted⟩ := ready
  rw [commitFiles_eq libraries config nonempty]
  have checked : Yields services.answers Free False (fun _ _ => True)
      (checkedCatalog libraries config) world := by
    refine (healthy.buildRestCatalog_alive truthful resolves warehouse route).bind
      fun properties built ⟨catalogConfig, same, pathPrefix, grown⟩ => ?_
    subst same pathPrefix
    refine (healthy.loadTable_alive (grown _ table)).bind fun result loaded same => ?_
    subst same
    rw [accepted]
    exact yields_bind.mpr (yields_ofExcept.mpr (ends_ok.mpr (yields_pure.mpr trivial)))
  refine checked.bind fun catalog opened _ => ?_
  refine (writeParquetFile_alive up _ opened).bind fun dataFiles staged _ => ?_
  refine Client.yields_demand.mpr ⟨trivial, fun reply after answered => ?_⟩
  rw [up.committed answered]
  trivial

end AntiEntropator.Lakehouse
