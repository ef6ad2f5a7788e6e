import AntiEntropator.Ingest.Run.Honesty
import AntiEntropator.Ingest.System.Lifecycle
import AntiEntropator.Ingest.System.Serial

/-!
# The journal protocol across runs

Serial runs make lawful writes only.  A run closes a predecessor by reading its
whole object and writing a longer one back; what makes this safe is that the
copy it holds is what is stored, from the moment the journals are loaded.
-/

namespace AntiEntropator.Ingest

/-! ## What a run holds of other journals -/

/-- Copies of stored journals of a source. -/
structure Mirrored (store : JournalStore) (sourceId : String) (journals : List RunJournal) :
    Prop where
  distinct : (journals.map RunJournal.runId).Nodup
  stored : ∀ journal ∈ journals, store.lookup journal.runId = some journal
  source : ∀ journal ∈ journals, journal.sourceId = sourceId

section Mirrored

variable {store after : JournalStore} {sourceId : String} {journals : List RunJournal}
  {journal : RunJournal}

theorem mirrored_nil : Mirrored store sourceId [] := ⟨List.nodup_nil, by simp, by simp⟩

theorem Mirrored.tail (mirrored : Mirrored store sourceId (journal :: journals)) :
    Mirrored store sourceId journals where
  distinct := (List.nodup_cons.mp mirrored.distinct).2
  stored := fun other member => mirrored.stored other (List.mem_cons_of_mem _ member)
  source := fun other member => mirrored.source other (List.mem_cons_of_mem _ member)

theorem Mirrored.insert (mirrored : Mirrored store sourceId journals)
    (elsewhere : ∀ other ∈ journals, other.runId ≠ journal.runId) :
    Mirrored (store.insert journal.runId journal) sourceId journals :=
  { mirrored with
    stored := by
      intro other member
      rw [AList.lookup_insert_ne (elsewhere other member)]
      exact mirrored.stored other member }

theorem Mirrored.rewrite {written : RunJournal}
    (mirrored : Mirrored store sourceId (journal :: journals))
    (named : written.runId = journal.runId) :
    Mirrored (store.insert written.runId written) sourceId journals := by
  apply mirrored.tail.insert
  intro other member same
  apply (List.nodup_cons.mp mirrored.distinct).1
  rw [← named, ← same]
  exact List.mem_map_of_mem member

theorem Mirrored.close {remaining done : List RunJournal} {written : RunJournal}
    (mirrored : Mirrored store sourceId (journal :: (remaining ++ done)))
    (named : written.runId = journal.runId) (source : written.sourceId = journal.sourceId) :
    Mirrored (store.insert written.runId written) sourceId (remaining ++ (done ++ [written])) := by
  have rest := mirrored.rewrite named
  rw [← List.append_assoc]
  constructor
  · have moved : ((remaining ++ done ++ [written]).map RunJournal.runId).Perm
        ((journal :: (remaining ++ done)).map RunJournal.runId) := by
      rw [List.map_append, List.map_singleton, named]
      exact List.perm_append_singleton _ _
    exact moved.nodup_iff.mpr mirrored.distinct
  · intro other member
    rcases List.mem_append.mp member with kept | new
    · exact rest.stored other kept
    · rw [List.mem_singleton.mp new]
      exact AList.lookup_insert _
  · intro other member
    rcases List.mem_append.mp member with kept | new
    · exact rest.source other kept
    · rw [List.mem_singleton.mp new, source]
      exact mirrored.source journal List.mem_cons_self

theorem Mirrored.untouched {writer : Uuid} {other : String}
    (mirrored : Mirrored store sourceId journals) (untouched : Untouched store after writer other)
    (different : sourceId ≠ other) : Mirrored after sourceId journals :=
  { mirrored with
    stored := by
      intro journal member
      apply untouched.stored _ _ (mirrored.stored journal member)
      rw [mirrored.source journal member]
      exact different }

end Mirrored

def ReconciledBy (past : List Writing) (writer : Uuid) (journal : RunJournal) : Prop :=
  ⟨writer, journal⟩ ∈ past ∧
    ∃ states rows, Reconcilable states ∧ journal.states = states ++ [.reconciled rows]

theorem ReconciledBy.mono {past more : List Writing} {writer : Uuid} {journal : RunJournal}
    (reconciled : ReconciledBy past writer journal) : ReconciledBy (past ++ more) writer journal :=
  ⟨List.mem_append_left _ reconciled.1, reconciled.2⟩

def Reconciled (past : List Writing) (store : JournalStore) (plan : RunPlan)
    (journals : List RunJournal) : Prop :=
  Mirrored store plan.sourceId journals ∧
    ∀ journal ∈ journals, ReconciledBy past plan.runId journal

/-- The predecessors' journals in a writer's hands, by phase. -/
def Holds (past : List Writing) (store : JournalStore) (run : Run) : Prop :=
  match run.phase with
  | .loading ids loaded =>
      (loaded.map RunJournal.runId ++ ids).Nodup ∧
        ∀ journal ∈ loaded, journal.sourceId = run.plan.sourceId →
          store.lookup journal.runId = some journal
  | .reconciling remaining done =>
      Mirrored store run.plan.sourceId (remaining ++ done) ∧
        (∀ journal ∈ remaining, journal.isOpen = true) ∧
        ∀ journal ∈ done, ReconciledBy past run.plan.runId journal
  | .closing journal remaining done =>
      ∃ old rows now, journal = old.push (.reconciled rows) now ∧
        Mirrored store run.plan.sourceId (old :: (remaining ++ done)) ∧
        (∀ journal ∈ old :: remaining, journal.isOpen = true) ∧
        ∀ journal ∈ done, ReconciledBy past run.plan.runId journal
  | .collecting | .starting | .ingesting | .recording _ =>
      Reconciled past store run.plan run.openRuns
  | .superseding remaining _ => Reconciled past store run.plan remaining
  | _ => True

theorem openRunsFor_mirrored {store : JournalStore} {sourceId : String} {loaded : List RunJournal}
    (distinct : (loaded.map RunJournal.runId).Nodup)
    (stored : ∀ journal ∈ loaded, journal.sourceId = sourceId →
      store.lookup journal.runId = some journal) :
    Mirrored store sourceId (openRunsFor loaded sourceId) where
  distinct := nodup_openRunsFor distinct sourceId
  stored := by
    intro journal member
    obtain ⟨inside, source, -⟩ := mem_openRunsFor_iff.mp member
    exact stored journal inside source
  source := fun journal member => (mem_openRunsFor_iff.mp member).2.1

namespace Process

/-- The writes of an action, with their writer. -/
def writings (process : Process) (action : ProcessAction) : List Writing :=
  (process.written action).map (Writing.mk process.run.plan.runId)

inductive Writable (process : Process) : RunJournal → Prop where
  | own {journal : RunJournal} : process.run.journal = some journal → Writable process journal
  | fresh (now : DateTime) : process.run.phase = .starting →
      Writable process (newJournal process.run now)
  | closure {journal : RunJournal} {remaining done : List RunJournal} :
      process.run.phase = .closing journal remaining done → Writable process journal
  | supersede {journal : RunJournal} {remaining : List RunJournal} {conclusion : Conclusion}
      (now : DateTime) : process.run.phase = .superseding (journal :: remaining) conclusion →
      Writable process (journal.push (.supersededBy process.run.plan.runId) now)

theorem written_cases (process : Process) (action : ProcessAction) :
    process.written action = [] ∨
      ∃ journal, process.written action = [journal] ∧ Writable process journal := by
  have whether : ∀ {landed : Bool} {journal : RunJournal}, Writable process journal →
      (if landed then [journal] else []) = [] ∨
        ∃ other, (if landed then [journal] else []) = [other] ∧ Writable process other := by
    intro landed journal writable
    cases landed with
    | false => exact .inl rfl
    | true => exact .inr ⟨journal, rfl, writable⟩
  have mine : process.run.journal.toList = [] ∨
      ∃ journal, process.run.journal.toList = [journal] ∧ Writable process journal := by
    cases recorded : process.run.journal with
    | none => exact .inl rfl
    | some journal => exact .inr ⟨journal, rfl, .own recorded⟩
  have mineIf : ∀ {landed : Bool}, (if landed then process.run.journal.toList else []) = [] ∨
      ∃ journal, (if landed then process.run.journal.toList else []) = [journal] ∧
        Writable process journal := by
    intro landed
    cases landed with
    | false => exact .inl rfl
    | true => exact mine
  unfold written
  split
  next phase => exact .inr ⟨_, rfl, .closure phase⟩
  next phase => exact whether (.closure phase)
  next phase => exact .inr ⟨_, rfl, .fresh _ phase⟩
  next phase => exact whether (.fresh _ phase)
  next => exact mine
  next => exact mineIf
  next => exact mine
  next => exact mineIf
  next phase => exact .inr ⟨_, rfl, .supersede _ phase⟩
  next phase => exact whether (.supersede _ phase)
  next => exact .inl rfl

structure Keeps (past : List Writing) (process : Process) : Prop where
  own : StoredPrefix process
  source : ∀ stored, process.world.journals.lookup process.run.plan.runId = some stored →
    stored.sourceId = process.run.plan.sourceId
  foreign : Foreign process
  holds : Holds past process.world.journals process.run

theorem Writable.lawful {past : List Writing} {process : Process} {journal : RunJournal}
    {landed : Nat} (keeps : Keeps past process)
    (fresh : Unrecorded process.run.phase → process.run.Fresh)
    (chronicled : Chronicled process.run landed) (writable : Writable process journal) :
    Lawful past process.world.journals process.run.plan.runId process.run.plan.sourceId
      journal := by
  have own := keeps.own
  have holds := keeps.holds
  unfold StoredPrefix at own
  unfold Holds at holds
  cases writable with
  | own recorded =>
      simp only [recorded] at own
      simp only [Chronicled, recorded] at chronicled
      obtain ⟨-, stored, there, -, before⟩ := own
      refine .own chronicled.1 chronicled.2.1 chronicled.2.2.ownStates fun other found => ?_
      refine ⟨keeps.source other found, ?_⟩
      rw [there, Option.some.injEq] at found
      exact found ▸ before
  | fresh now phase =>
      have unrecorded : Unrecorded process.run.phase := .inr phase
      simp only [(fresh unrecorded).journal] at own
      refine .own rfl rfl (.between []) fun other found => ?_
      rw [own.1 unrecorded] at found
      cases found
  | closure phase =>
      simp only [phase] at holds
      obtain ⟨old, rows, now, rfl, mirrored, opened, -⟩ := holds
      exact .reconcile rows now (mirrored.stored old List.mem_cons_self)
        (mirrored.source old List.mem_cons_self) (opened old List.mem_cons_self)
  | supersede now phase =>
      simp only [phase] at holds
      obtain ⟨mirrored, reconciled⟩ := holds
      obtain ⟨member, states, rows, reconcilable, shown⟩ := reconciled _ List.mem_cons_self
      exact .supersede now (mirrored.stored _ List.mem_cons_self)
        (mirrored.source _ List.mem_cons_self) member reconcilable shown

theorem Writable.own_runId {process : Process} {journal : RunJournal} {landed : Nat}
    (chronicled : Chronicled process.run landed)
    (unclosing : ∀ closing remaining done, process.run.phase ≠ .closing closing remaining done)
    (unsuperseding : ∀ remaining conclusion,
      process.run.phase ≠ .superseding remaining conclusion)
    (writable : Writable process journal) : journal.runId = process.run.plan.runId := by
  cases writable with
  | own recorded =>
      simp only [Chronicled, recorded] at chronicled
      exact chronicled.1
  | fresh now phase => rfl
  | closure phase => exact (unclosing _ _ _ phase).elim
  | supersede now phase => exact (unsuperseding _ _ phase).elim

theorem Step.writings_cases {deployment : Deployment} {process next : Process}
    {action : ProcessAction} (stepped : Step deployment process action next) :
    process.writings action = [] ∧ next.world.journals = process.world.journals ∨
      ∃ journal, process.writings action = [⟨process.run.plan.runId, journal⟩] ∧
        Writable process journal ∧
        next.world.journals = process.world.journals.insert journal.runId journal := by
  have store := stepped.journals_eq
  rcases process.written_cases action with written | ⟨journal, written, writable⟩
  · rw [written] at store
    exact .inl ⟨by rw [writings, written]; rfl, store⟩
  · rw [written] at store
    exact .inr ⟨journal, by rw [writings, written]; rfl, writable, store⟩

/-- Writing its own journal, a run keeps its predecessors as they are. -/
theorem Step.reconciled_own {deployment : Deployment} {process next : Process}
    {action : ProcessAction} {past : List Writing} {journals : List RunJournal} {landed : Nat}
    (chronicled : Chronicled process.run landed)
    (unclosing : ∀ closing remaining done, process.run.phase ≠ .closing closing remaining done)
    (unsuperseding : ∀ remaining conclusion,
      process.run.phase ≠ .superseding remaining conclusion)
    (foreign : ∀ journal ∈ journals, journal.runId ≠ process.run.plan.runId)
    (reconciled : Reconciled past process.world.journals process.run.plan journals)
    (stepped : Step deployment process action next) :
    Reconciled (past ++ process.writings action) next.world.journals process.run.plan
      journals := by
  obtain ⟨mirrored, each⟩ := reconciled
  refine ⟨?_, fun journal member => (each journal member).mono⟩
  rcases stepped.writings_cases with ⟨-, same⟩ | ⟨journal, -, writable, store⟩
  · rw [same]
    exact mirrored
  · rw [store]
    apply mirrored.insert
    intro other member
    rw [writable.own_runId chronicled unclosing unsuperseding]
    exact foreign other member

theorem PrologueStep.holds {process next : Process} {action : PrologueAction}
    {initial : JournalStore} {past : List Writing}
    (writes : process.run.plan.mode.writes = true)
    (archive : Archive initial past process.world.journals) (foreign : Foreign process)
    (holds : Holds past process.world.journals process.run)
    (stepped : PrologueStep process action next) :
    Holds (past ++ process.writings (.prologue action)) next.world.journals next.run := by
  have opened : ∀ journal ∈ process.run.openRuns, journal.runId ≠ process.run.plan.runId :=
    fun journal member => foreign.held journal (List.mem_append_left _ member)
  unfold Holds at holds
  cases stepped with
  | @proceed stage => cases stage <;> trivial
  | failed => trivial
  | loadState => trivial
  | list => exact ⟨process.world.journals.nodupKeys, by simp⟩
  | @load id ids loaded journal phase found =>
      simp only [phase] at holds
      obtain ⟨distinct, stored⟩ := holds
      have named := archive.keyed id journal found
      refine ⟨?_, ?_⟩
      · simpa [named] using distinct
      · intro other member source
        rcases List.mem_append.mp member with old | new
        · exact stored other old source
        · rw [List.mem_singleton.mp new, named]
          exact found
  | @loadFailed id ids loaded phase =>
      simp only [phase] at holds
      exact ⟨holds.1.sublist ((List.sublist_cons_self _ _).append_left _), holds.2⟩
  | @report loaded phase =>
      simp only [phase, List.append_nil] at holds
      simp only [Process.report, writes, if_true]
      refine ⟨?_, ?_, by simp⟩
      · rw [List.append_nil]
        exact openRunsFor_mirrored holds.1 holds.2
      · intro journal member
        exact (mem_openRunsFor_iff.mp member).2.2
  | @count journal remaining done now phase =>
      simp only [phase] at holds
      obtain ⟨mirrored, open', reconciled⟩ := holds
      exact ⟨journal, _, now, rfl, mirrored, open',
        fun other member => (reconciled other member).mono⟩
  | @closed journal remaining done phase =>
      simp only [phase] at holds
      obtain ⟨old, rows, now, rfl, mirrored, open', reconciled⟩ := holds
      refine ⟨mirrored.close rfl rfl,
        fun other member => open' other (List.mem_cons_of_mem _ member), ?_⟩
      intro other member
      rcases List.mem_append.mp member with kept | new
      · exact (reconciled other kept).mono
      · rw [List.mem_singleton.mp new]
        refine ⟨?_, old.states, rows, ?_, RunJournal.push_states _ _ _⟩
        · apply List.mem_append_right
          simp [writings, written, phase, setPhase]
        · have stored := mirrored.stored old List.mem_cons_self
          exact (archive.lifecycle _ _ stored).reconcilable (open' old List.mem_cons_self)
  | closeFailed => trivial
  | @reconciled done phase =>
      simp only [phase, List.nil_append] at holds
      exact ⟨holds.1, fun other member => (holds.2.2 other member).mono⟩
  | collected phase =>
      simp only [phase] at holds
      simp only [Process.collected, writes, if_true]
      split
      · trivial
      · exact ⟨holds.1, fun other member => (holds.2 other member).mono⟩
  | started phase =>
      simp only [phase] at holds
      exact ⟨holds.1.insert opened, fun other member => (holds.2 other member).mono⟩
  | startFailed => trivial

theorem EpilogueStep.holds (deployment : Deployment) {process next : Process}
    {action : EpilogueAction} {past : List Writing} {landed : Nat}
    (chronicled : Chronicled process.run landed) (foreign : Foreign process)
    (holds : Holds past process.world.journals process.run)
    (stepped : EpilogueStep process action next) :
    Holds (past ++ process.writings (.epilogue action)) next.world.journals next.run := by
  have opened : ∀ journal ∈ process.run.openRuns, journal.runId ≠ process.run.plan.runId :=
    fun journal member => foreign.held journal (List.mem_append_left _ member)
  have taken : Step deployment process (.epilogue action) next := .epilogue stepped
  have kept : ∀ {phase : RunPhase}, process.run.phase = phase →
      (∀ closing remaining done, phase ≠ .closing closing remaining done) →
      (∀ remaining conclusion, phase ≠ .superseding remaining conclusion) →
      Reconciled past process.world.journals process.run.plan process.run.openRuns →
      Reconciled (past ++ process.writings (.epilogue action)) next.world.journals
        process.run.plan process.run.openRuns := by
    rintro phase rfl unclosing unsuperseding reconciled
    exact taken.reconciled_own chronicled unclosing unsuperseding opened reconciled
  unfold Holds at holds
  cases stepped with
  | conclude phase =>
      simp only [phase] at holds
      exact kept phase (by simp) (by simp) holds
  | concludePreview => trivial
  | @recorded conclusion journal phase =>
      simp only [phase] at holds
      have ready := kept phase (by simp) (by simp) holds
      by_cases completed : conclusion.terminal = .completed
      · simpa only [Holds, afterRecord, setPhase, completed, if_true] using ready
      · simp [Holds, afterRecord, setPhase, completed]
  | @recordFailed conclusion journal landed phase =>
      simp only [phase] at holds
      have ready := kept phase (by simp) (by simp) holds
      by_cases completed : conclusion.terminal = .completed
      · simpa only [Holds, afterRecord, setPhase, completed, if_true] using ready
      · simp [Holds, afterRecord, setPhase, completed]
  | supersede phase =>
      simp only [phase] at holds
      refine ⟨holds.1.rewrite rfl, fun other member => ?_⟩
      exact (holds.2 other (List.mem_cons_of_mem _ member)).mono
  | @supersedeFailed journal remaining conclusion now landed phase =>
      simp only [phase] at holds
      refine ⟨?_, fun other member => (holds.2 other (List.mem_cons_of_mem _ member)).mono⟩
      cases landed with
      | false => exact holds.1.tail
      | true => exact holds.1.rewrite rfl
  | exit => trivial

theorem Step.holds {deployment : Deployment} {process next : Process} {action : ProcessAction}
    {initial : JournalStore} {past : List Writing} {landed : Nat}
    (writes : process.run.plan.mode.writes = true)
    (archive : Archive initial past process.world.journals)
    (chronicled : Chronicled process.run landed) (foreign : Foreign process)
    (holds : Holds past process.world.journals process.run)
    (stepped : Step deployment process action next) :
    Holds (past ++ process.writings action) next.world.journals next.run := by
  cases stepped with
  | prologue taken => exact taken.holds writes archive foreign holds
  | ingest taken =>
      obtain ⟨phase, later⟩ := taken.phase_eq
      have opened : ∀ journal ∈ process.run.openRuns, journal.runId ≠ process.run.plan.runId :=
        fun journal member => foreign.held journal (List.mem_append_left _ member)
      unfold Holds at holds
      simp only [phase] at holds
      have ready := (Step.ingest taken).reconciled_own chronicled (by simp [phase])
        (by simp [phase]) opened holds
      have frame : next.run.plan = process.run.plan ∧
          next.run.openRuns = process.run.openRuns := by
        cases taken with
        | commit phase committing recorded moved =>
            obtain ⟨plan, -, -, openRuns, -⟩ := moved.frame
            exact ⟨plan, openRuns⟩
        | _ => exact ⟨rfl, rfl⟩
      simpa only [Holds, later, frame.1, frame.2] using ready
  | epilogue taken => exact taken.holds deployment chronicled foreign holds
  | kill => trivial
  | land =>
      change Holds (past ++ []) _ _
      rw [List.append_nil]
      exact holds
  | lose =>
      change Holds (past ++ []) _ _
      rw [List.append_nil]
      exact holds
  | edit =>
      change Holds (past ++ []) _ _
      rw [List.append_nil]
      exact holds

theorem Step.keeps {deployment : Deployment} {process next : Process} {action : ProcessAction}
    {initial : JournalStore} {past : List Writing} {landed : Nat}
    (writes : process.run.plan.mode.writes = true)
    (archive : Archive initial past process.world.journals)
    (fresh : Unrecorded process.run.phase → process.run.Fresh)
    (chronicled : Chronicled process.run landed) (keeps : Keeps past process)
    (stepped : Step deployment process action next) :
    Keeps (past ++ process.writings action) next where
  own := stepped.storedPrefix fresh keeps.foreign keeps.own
  source := by
    intro stored found
    rw [stepped.plan_eq] at found ⊢
    rcases stepped.writings_cases with ⟨-, same⟩ | ⟨journal, -, writable, store⟩
    · rw [same] at found
      exact keeps.source stored found
    · rw [store] at found
      rcases lookup_insert_cases found with rfl | old
      · exact (writable.lawful keeps fresh chronicled).sourceId_eq
      · exact keeps.source stored old
  foreign := stepped.foreign keeps.foreign
  holds := stepped.holds writes archive chronicled keeps.foreign keeps.holds

theorem Holds.untouched {past : List Writing} {store after : JournalStore} {run : Run}
    {writer : Uuid} {sourceId : String} (holds : Holds past store run) (more : List Writing)
    (untouched : Untouched store after writer sourceId)
    (different : run.plan.sourceId ≠ sourceId) : Holds (past ++ more) after run := by
  have reconciled : ∀ {journals : List RunJournal}, Reconciled past store run.plan journals →
      Reconciled (past ++ more) after run.plan journals := by
    rintro journals ⟨mirrored, each⟩
    exact ⟨mirrored.untouched untouched different, fun journal member => (each journal member).mono⟩
  unfold Holds at holds ⊢
  split
  next phase =>
    simp only [phase] at holds
    refine ⟨holds.1, fun journal member source => ?_⟩
    apply untouched.stored _ _ (holds.2 journal member source)
    rw [source]
    exact different
  next phase =>
    simp only [phase] at holds
    exact ⟨holds.1.untouched untouched different, holds.2.1,
      fun journal member => (holds.2.2 journal member).mono⟩
  next phase =>
    simp only [phase] at holds
    obtain ⟨old, rows, now, shown, mirrored, opened, each⟩ := holds
    exact ⟨old, rows, now, shown, mirrored.untouched untouched different, opened,
      fun journal member => (each journal member).mono⟩
  next phase =>
    simp only [phase] at holds
    exact reconciled holds
  next phase =>
    simp only [phase] at holds
    exact reconciled holds
  next phase =>
    simp only [phase] at holds
    exact reconciled holds
  next phase =>
    simp only [phase] at holds
    exact reconciled holds
  next phase =>
    simp only [phase] at holds
    exact reconciled holds
  next => trivial

theorem Keeps.untouched {past : List Writing} {run : Run} {world later : World} {writer : Uuid}
    {sourceId : String} (keeps : Keeps past ⟨world, run⟩) (more : List Writing)
    (fresh : Unrecorded run.phase → run.Fresh)
    (keyed : ∀ id journal, later.journals.lookup id = some journal → journal.runId = id)
    (untouched : Untouched world.journals later.journals writer sourceId)
    (other : run.plan.runId ≠ writer) (different : run.plan.sourceId ≠ sourceId) :
    Keeps (past ++ more) ⟨later, run⟩ := by
  have same : later.journals.lookup run.plan.runId = world.journals.lookup run.plan.runId := by
    cases found : world.journals.lookup run.plan.runId with
    | none => exact untouched.absent _ other found
    | some journal =>
        apply untouched.stored _ _ found
        rwa [keeps.source journal found]
  have own : StoredPrefix ⟨later, run⟩ := by
    have before := keeps.own
    unfold StoredPrefix at before ⊢
    simpa only [same] using before
  refine ⟨own, ?_, ⟨keeps.foreign.held, ?_⟩, ?_⟩
  · intro stored found
    simp only [same] at found
    exact keeps.source stored found
  · intro unrecorded id journal found named
    unfold StoredPrefix at own
    simp only [(fresh unrecorded).journal] at own
    rw [← keyed id journal found, named, own.1 unrecorded] at found
    cases found
  · exact Holds.untouched keeps.holds more untouched different

theorem Keeps.congr {past : List Writing} {run : Run} {world later : World}
    (keeps : Keeps past ⟨world, run⟩) (same : later.journals = world.journals) :
    Keeps past ⟨later, run⟩ := by
  obtain ⟨own, source, foreign, holds⟩ := keeps
  unfold StoredPrefix at own
  constructor
  · unfold StoredPrefix
    simpa only [same] using own
  · simpa only [same] using source
  · exact ⟨foreign.held, by simpa only [same] using foreign.stored⟩
  · simpa only [same] using holds

theorem keeps_start {past : List Writing} {world : World} {plan : RunPlan}
    (keyed : ∀ id journal, world.journals.lookup id = some journal → journal.runId = id)
    (unused : world.journals.lookup plan.runId = none) :
    Keeps past ⟨world, Run.start plan⟩ := by
  constructor
  · refine ⟨fun _ => unused, fun stored found => ?_⟩
    rw [show world.journals.lookup plan.runId = some stored from found] at unused
    cases unused
  · intro stored found
    rw [show world.journals.lookup plan.runId = some stored from found] at unused
    cases unused
  · constructor
    · simp only [Run.predecessors, Run.start]
      cases plan.mode.isConnected <;> simp
    · intro unrecorded id journal found named
      rw [← keyed id journal found, show journal.runId = plan.runId from named] at found
      rw [show world.journals.lookup plan.runId = some journal from found] at unused
      cases unused
  · simp only [Holds, Run.start]
    cases plan.mode.isConnected <;> simp [Reconciled, mirrored_nil]

/-! ## Previews -/

/-- A run that writes nothing has no journal and reaches no phase that writes. -/
def Silent (run : Run) : Prop :=
  run.journal = none ∧
    match run.phase with
    | .reconciling _ _ | .closing _ _ _ | .starting | .recording _ | .superseding _ _ => False
    | _ => True

theorem silent_start (plan : RunPlan) : Silent (Run.start plan) := by
  refine ⟨rfl, ?_⟩
  simp only [Run.start]
  cases plan.mode.isConnected <;> trivial

theorem Silent.not_writable {process : Process} {journal : RunJournal}
    (silent : Silent process.run) : ¬ Writable process journal := by
  obtain ⟨unrecorded, phase⟩ := silent
  intro writable
  cases writable with
  | own recorded =>
      rw [unrecorded] at recorded
      cases recorded
  | fresh now starting => simp [starting] at phase
  | closure closing => simp [closing] at phase
  | supersede now superseding => simp [superseding] at phase

theorem Step.silent {deployment : Deployment} {process next : Process} {action : ProcessAction}
    (preview : process.run.plan.mode.writes = false) (silent : Silent process.run)
    (stepped : Step deployment process action next) : Silent next.run := by
  obtain ⟨unrecorded, phase⟩ := silent
  cases stepped with
  | prologue taken =>
      cases taken with
      | @proceed stage => cases stage <;> exact ⟨unrecorded, trivial⟩
      | report =>
          simp only [Process.report, preview]
          exact ⟨unrecorded, trivial⟩
      | collected =>
          simp only [Process.collected, preview]
          split <;> exact ⟨unrecorded, trivial⟩
      | count reconciling => simp [reconciling] at phase
      | closed closing => simp [closing] at phase
      | started starting => simp [starting] at phase
      | _ => exact ⟨unrecorded, trivial⟩
  | ingest taken =>
      obtain ⟨-, later⟩ := taken.phase_eq
      refine ⟨?_, by simp [later]⟩
      cases taken with
      | commit ingesting committing recorded moved =>
          rw [unrecorded] at recorded
          cases recorded
      | _ => exact unrecorded
  | epilogue taken =>
      cases taken with
      | conclude ingesting reported recorded =>
          rw [unrecorded] at recorded
          cases recorded
      | recorded recording => simp [recording] at phase
      | recordFailed recording => simp [recording] at phase
      | supersede superseding => simp [superseding] at phase
      | supersedeFailed superseding => simp [superseding] at phase
      | _ => exact ⟨unrecorded, trivial⟩
  | kill => exact ⟨unrecorded, trivial⟩
  | _ => exact ⟨unrecorded, phase⟩

end Process

namespace System

/-- The store is what lawful writes made of it, and the runs keep to that. -/
structure Orderly (initial : JournalStore) (past : List Writing) (system : System) : Prop where
  archive : Archive initial past system.world.journals
  keeps : ∀ run ∈ system.runs, run.plan.mode.writes = true → quiesced run = false →
    Process.Keeps past ⟨system.world, run⟩
  silent : ∀ run ∈ system.runs, run.plan.mode.writes = false → Process.Silent run

theorem Orderly.begin {initial : JournalStore} {past : List Writing} {world : World}
    {runs : List Run} {plan : RunPlan} (orderly : Orderly initial past ⟨world, runs⟩)
    (unused : world.journals.lookup plan.runId = none) :
    Orderly initial past ⟨world, runs ++ [Run.start plan]⟩ where
  archive := orderly.archive
  keeps := by
    intro run member writes active
    rcases List.mem_append.mp member with old | new
    · exact orderly.keeps run old writes active
    · rw [List.mem_singleton.mp new]
      exact Process.keeps_start orderly.archive.keyed unused
  silent := by
    intro run member preview
    rcases List.mem_append.mp member with old | new
    · exact orderly.silent run old preview
    · rw [List.mem_singleton.mp new]
      exact Process.silent_start plan

section Act

variable {deployment : Deployment} {initial : JournalStore} {past : List Writing}
  {world : World} {runs : List Run} {index : Nat} {run : Run} {action : ProcessAction}
  {process : Process}

theorem Orderly.lawful {journal : RunJournal} (orderly : Orderly initial past ⟨world, runs⟩)
    (sound : ∀ run ∈ runs, Sound deployment run) (found : runs[index]? = some run)
    (taken : Process.Step deployment ⟨world, run⟩ action process)
    (shown : Process.writings ⟨world, run⟩ action = [⟨run.plan.runId, journal⟩])
    (writable : Process.Writable ⟨world, run⟩ journal) :
    run.plan.mode.writes = true ∧ quiesced run = false ∧
      Lawful past world.journals run.plan.runId run.plan.sourceId journal := by
  have member := List.mem_of_getElem? found
  have writes : run.plan.mode.writes = true := by
    by_contra preview
    exact (orderly.silent run member (by simpa using preview)).not_writable writable
  have active : quiesced run = false := by
    by_contra stopped
    obtain ⟨path, contents, rfl⟩ := taken.edit_of_quiesced (by simpa using stopped)
    simp [Process.writings, Process.written] at shown
  obtain ⟨landed, chronicled⟩ := (sound run member).chronicled
  exact ⟨writes, active, writable.lawful (orderly.keeps run member writes active)
    (sound run member).fresh chronicled⟩

theorem Orderly.act (orderly : Orderly initial past ⟨world, runs⟩)
    (sound : ∀ run ∈ runs, Sound deployment run) (serialized : Serialized runs)
    (found : runs[index]? = some run)
    (taken : Process.Step deployment ⟨world, run⟩ action process) :
    Orderly initial (past ++ Process.writings ⟨world, run⟩ action)
      ⟨process.world, runs.set index process.run⟩ := by
  have member := List.mem_of_getElem? found
  have silent : ∀ other ∈ runs.set index process.run, other.plan.mode.writes = false →
      Process.Silent other := by
    intro other inside preview
    rcases List.mem_or_eq_of_mem_set inside with old | rfl
    · exact orderly.silent other old preview
    · rw [taken.plan_eq] at preview
      exact taken.silent preview (orderly.silent run member preview)
  have own : process.run.plan.mode.writes = true → quiesced process.run = false →
      Process.Keeps (past ++ Process.writings ⟨world, run⟩ action) process := by
    intro writes active
    have before : quiesced run = false := by
      by_contra stopped
      rw [(taken.run_of_quiesced (by simpa using stopped)).1] at active
      exact stopped active
    obtain ⟨landed, chronicled⟩ := (sound run member).chronicled
    rw [taken.plan_eq] at writes
    exact taken.keeps writes orderly.archive (sound run member).fresh chronicled
      (orderly.keeps run member writes before)
  rcases taken.writings_cases with ⟨shown, same⟩ | ⟨journal, shown, writable, store⟩
  · refine ⟨?_, ?_, silent⟩
    · rw [shown, List.append_nil, same]
      exact orderly.archive
    · intro other inside writes active
      rcases List.mem_or_eq_of_mem_set inside with old | rfl
      · rw [shown, List.append_nil]
        exact (orderly.keeps other old writes active).congr same
      · exact own writes active
  · obtain ⟨writer, running, lawful⟩ := orderly.lawful sound found taken shown writable
    have archive : Archive initial (past ++ Process.writings ⟨world, run⟩ action)
        process.world.journals := by
      rw [shown, store]
      exact orderly.archive.insert lawful
    refine ⟨archive, ?_, silent⟩
    intro other inside writes active
    obtain ⟨position, place⟩ := List.mem_iff_getElem?.mp inside
    by_cases here : index = position
    · subst position
      rw [List.getElem?_set_self (List.getElem?_eq_some_iff.mp found).1, Option.some.injEq] at place
      subst other
      exact own writes active
    · rw [List.getElem?_set_ne here] at place
      have kept := orderly.keeps other (List.mem_of_getElem? place) writes active
      apply kept.untouched _ (sound other (List.mem_of_getElem? place)).fresh archive.keyed
      · rw [store]
        exact lawful.untouched
      · exact serialized.runId_ne place found (Ne.symm here)
      · intro source
        exact here (serialized.eq_of_active found place source.symm writer writes running
          active)

end Act

theorem Orderly.step {deployment : Deployment} {initial : JournalStore} {past : List Writing}
    {system next : System} {action : SystemAction} (orderly : Orderly initial past system)
    (sound : ∀ run ∈ system.runs, Sound deployment run) (serialized : Serialized system.runs)
    (allowed : serial system action = true) (stepped : Step deployment system action next) :
    Orderly initial (past ++ system.view Process.writings action) next := by
  cases stepped with
  | begin =>
      simp only [serial, decide_eq_true_eq] at allowed
      change Orderly initial (past ++ []) _
      rw [List.append_nil]
      exact orderly.begin (Option.isNone_iff_eq_none.mp allowed.1)
  | act found taken =>
      simp only [view, found]
      exact orderly.act sound serialized found taken

theorem orderly_of_exec {deployment : Deployment} {world : World}
    {actions : List SystemAction} {final : System}
    (archive : Archive world.journals [] world.journals)
    (exec : (serialMachine deployment).exec ⟨world, []⟩ actions = some final) :
    Orderly world.journals
      ((serialMachine deployment).observe (view Process.writings) ⟨world, []⟩ actions) final := by
  refine (serialMachine deployment).exec_induction (motive := fun actions system =>
    Orderly world.journals
      ((serialMachine deployment).observe (view Process.writings) ⟨world, []⟩ actions) system)
    ?_ ?_ exec
  · exact ⟨archive, by simp, by simp⟩
  · intro actions middle action next before orderly stepped
    rw [(serialMachine deployment).observe_snoc _ before stepped]
    obtain ⟨allowed, taken⟩ := step_of_serial stepped
    exact orderly.step (sound_of_exec (exec_of_serial before)) (serialized_of_exec before) allowed
      taken

theorem Orderly.longer {deployment : Deployment} {initial : JournalStore} {past : List Writing}
    {system next : System} {action : SystemAction} (orderly : Orderly initial past system)
    (sound : ∀ run ∈ system.runs, Sound deployment run)
    (stepped : Step deployment system action next) :
    ∀ id journal, system.world.journals.lookup id = some journal →
      ∃ later, next.world.journals.lookup id = some later ∧
        journal.history <+: later.history := by
  intro id journal stored
  cases stepped with
  | begin => exact ⟨journal, stored, List.prefix_rfl⟩
  | act found taken =>
      rcases taken.writings_cases with ⟨-, same⟩ | ⟨written, shown, writable, store⟩
      · refine ⟨journal, ?_, List.prefix_rfl⟩
        rw [same]
        exact stored
      · obtain ⟨-, -, lawful⟩ := orderly.lawful sound found taken shown writable
        rw [store]
        by_cases here : id = written.runId
        · subst id
          exact ⟨written, AList.lookup_insert _, (lawful.extends stored).2⟩
        · refine ⟨journal, ?_, List.prefix_rfl⟩
          rw [AList.lookup_insert_ne here]
          exact stored

theorem longer_of_exec {deployment : Deployment} {world : World} {middle final : System}
    {before after : List SystemAction} (archive : Archive world.journals [] world.journals)
    (reached : (serialMachine deployment).exec ⟨world, []⟩ before = some middle)
    (exec : (serialMachine deployment).exec middle after = some final) :
    ∀ id journal, middle.world.journals.lookup id = some journal →
      ∃ later, final.world.journals.lookup id = some later ∧
        journal.history <+: later.history := by
  refine (serialMachine deployment).exec_induction (motive := fun _ system =>
    ∀ id journal, middle.world.journals.lookup id = some journal →
      ∃ later, system.world.journals.lookup id = some later ∧
        journal.history <+: later.history) ?_ ?_ exec
  · intro id journal stored
    exact ⟨journal, stored, List.prefix_rfl⟩
  · intro actions state action next taken longer stepped id journal stored
    have run := (serialMachine deployment).exec_append_eq_some_iff.mpr ⟨middle, reached, taken⟩
    obtain ⟨between, found, grown⟩ := longer id journal stored
    obtain ⟨later, there, more⟩ := (orderly_of_exec archive run).longer
      (sound_of_exec (exec_of_serial run)) (step_of_serial stepped).2 id between found
    exact ⟨later, there, grown.trans more⟩

end System

/-- Over every sequence of runs with one writer at a time per source, each killed
anywhere and whether its journal writes succeed or not: every stored journal has
a lifecycle's history; histories only grow; a journal is reconciled by at most
one write; and a run that supersedes another has reconciled it before. -/
theorem journals_follow_the_protocol {deployment : Deployment} {world : World}
    {actions : List SystemAction} {final : System}
    (keyed : ∀ id journal, world.journals.lookup id = some journal → journal.runId = id)
    (wellFormed : ∀ id journal, world.journals.lookup id = some journal →
      Lifecycle journal.states)
    (exec : (System.serialMachine deployment).exec ⟨world, []⟩ actions = some final) :
    (∀ id journal, final.world.journals.lookup id = some journal →
        journal.runId = id ∧ Lifecycle journal.states) ∧
      (∀ before after middle, actions = before ++ after →
        (System.serialMachine deployment).exec ⟨world, []⟩ before = some middle →
        ∀ id journal, middle.world.journals.lookup id = some journal →
          ∃ later, final.world.journals.lookup id = some later ∧
            journal.history <+: later.history) ∧
      ((System.serialMachine deployment).observe (System.view Process.writings) ⟨world, []⟩
          actions).Pairwise
        (fun earlier later => ∀ id, earlier.Reconciles id → ¬ later.Reconciles id) ∧
      (∀ id journal states rows writer, final.world.journals.lookup id = some journal →
        journal.states = states ++ [.reconciled rows, .supersededBy writer] →
        world.journals.lookup id = some journal ∨
          ∃ earlier, ⟨writer, earlier⟩ ∈ (System.serialMachine deployment).observe
              (System.view Process.writings) ⟨world, []⟩ actions ∧
            earlier.runId = id ∧ earlier.states = states ++ [.reconciled rows]) := by
  have start := archive_start keyed wellFormed
  have archive := (System.orderly_of_exec start exec).archive
  refine ⟨?_, ?_, archive.once, archive.superseded⟩
  · intro id journal stored
    exact ⟨archive.keyed id journal stored, archive.lifecycle id journal stored⟩
  · rintro before after middle rfl reached
    obtain ⟨state, same, rest⟩ :=
      (System.serialMachine deployment).exec_append_eq_some_iff.mp exec
    rw [reached, Option.some.injEq] at same
    subst state
    exact System.longer_of_exec start reached rest

/-- A run over one file whose content the catalog knows, up to its end. -/
def unchangedSchedule (now : DateTime) : List ProcessAction :=
  [.ingest (.pipeline .spawn), .ingest (.pipeline .await)] ++ hashSchedule 0 now ++
    ([Pipeline.Action.finish 0 (.result (.ok (.unchanged .existing))), .join 0, .await, .drain,
      .recvClosed].map fun action => .ingest (.pipeline action)) ++
    [.epilogue (.conclude now), .epilogue .recorded]

/-- The first run is killed before it learns that its batch was applied; the
second one finds the file unchanged and supersedes it. -/
def recoverySchedule : List SystemAction :=
  System.solo (samplePlan 1)
      (oneFileSchedule 1 1000000 ++ requestSchedule 1000000 ++ [.land, .kill]) ++
    .begin (samplePlan 2) :: (reconcileSchedule ["a"] 2000000 ++ unchangedSchedule 2000000 ++
      [ProcessAction.epilogue (.supersede 2000000), .epilogue .exit]).map (.act 1)

theorem journals_follow_the_protocol_recovery :
    ∃ final journal earlier, (System.serialMachine sampleDeployment).exec ⟨sampleWorld, []⟩
        recoverySchedule = some final ∧
      final.world.journals.lookup 1 = some journal ∧
      journal.states = [.started, .committing 1, .reconciled 1, .supersededBy 2] ∧
      ⟨2, earlier⟩ ∈ (System.serialMachine sampleDeployment).observe
        (System.view Process.writings) ⟨sampleWorld, []⟩ recoverySchedule ∧
      earlier.states = [.started, .committing 1, .reconciled 1] := by
  obtain ⟨final, run, shown⟩ := Option.map_eq_some_iff.mp (show
    ((System.serialMachine sampleDeployment).exec ⟨sampleWorld, []⟩ recoverySchedule).map
      (fun final => (final.world.journals.lookup 1).map RunJournal.states) =
      some (some [.started, .committing 1, .reconciled 1, .supersededBy 2]) by decide +kernel)
  obtain ⟨journal, found, states⟩ := Option.map_eq_some_iff.mp shown
  obtain ⟨-, -, -, superseded⟩ := journals_follow_the_protocol (by simp [sampleWorld])
    (by simp [sampleWorld]) run
  rcases superseded 1 journal [.started, .committing 1] 1 2 found states with
    old | ⟨earlier, member, -, before⟩
  · simp [sampleWorld] at old
  · exact ⟨final, journal, earlier, run, found, states, member, before⟩

end AntiEntropator.Ingest
