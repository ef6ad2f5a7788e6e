import AntiEntropator.Domain.Observation
import AntiEntropator.Ingest.Run.Batches
import AntiEntropator.Ingest.Run.Outcomes
import AntiEntropator.Ingest.Run.Preview
import AntiEntropator.Ingest.Run.Schedules
import AntiEntropator.Ingest.State.Reader

/-!
# What a run brings is news

Rows are offered for candidates whose content is not the last known one, where
what is known is the catalog that the run has read.  Appended to that catalog,
whatever lands of them keeps it a minimal change log.
-/

namespace AntiEntropator.Ingest

open Lakehouse Pipeline

/-! ## The catalog a run has read -/

namespace Process

/-- The catalog that an action reads as the current state. -/
def reads (process : Process) : ProcessAction → List (List CatalogRow)
  | .prologue .loadState => [process.world.catalog]
  | _ => []

/-- The phases before the catalog is read. -/
def Preparing : RunPhase → Prop
  | .setup _ | .loadingState => True
  | _ => False

def ended : RunPhase → Bool
  | .exited _ _ | .killed => true
  | _ => false

end Process

/-- The catalogs that a connected run has read, and what it keeps of them. -/
inductive Run.Recalls : List (List CatalogRow) → Run → Prop where
  | unread {run : Run} :
      Process.Preparing run.phase ∨ Process.ended run.phase = true → run.files = [] →
      run.state = none → run.request = none → Recalls [] run
  | informed {catalog : List CatalogRow} {run : Run} :
      ¬ Process.Preparing run.phase →
      run.state = some (loadCurrentState catalog run.plan.sourceId) → Recalls [catalog] run

namespace Process

variable {deployment : Deployment} {process next : Process}

theorem recalls_start {plan : RunPlan} (connected : plan.mode.isConnected = true) :
    Run.Recalls [] (Run.start plan) := by
  refine .unread (.inl ?_) rfl rfl rfl
  simp only [Run.start, connected, if_true]
  trivial

theorem PrologueStep.recalls_of_unread {action : PrologueAction}
    (unread : Preparing process.run.phase ∨ ended process.run.phase = true)
    (files : process.run.files = []) (state : process.run.state = none)
    (request : process.run.request = none) (stepped : PrologueStep process action next) :
    next.run.Recalls (process.reads (.prologue action)) := by
  cases stepped with
  | @proceed stage => cases stage <;> exact .unread (.inl trivial) files state request
  | @failed action error early fails =>
      have quiet : process.reads (.prologue action) = [] := by
        cases action <;> first | rfl | cases fails
      rw [quiet]
      exact .unread (.inr rfl) files state request
  | loadState => exact .informed id rfl
  | list phase | load phase | loadFailed phase | report phase | count phase | closed phase
  | closeFailed _ phase | reconciled phase | collected phase | started phase
  | startFailed _ phase =>
      rw [phase] at unread
      rcases unread with early | gone <;> contradiction

theorem PrologueStep.recalls_of_informed {catalog : List CatalogRow} {action : PrologueAction}
    (prepared : ¬ Preparing process.run.phase)
    (state : process.run.state = some (loadCurrentState catalog process.run.plan.sourceId))
    (stepped : PrologueStep process action next) :
    next.run.Recalls ([catalog] ++ process.reads (.prologue action)) := by
  cases stepped with
  | @proceed stage phase => exact (prepared (by rw [phase]; trivial)).elim
  | @failed action error early fails =>
      have quiet : process.reads (.prologue action) = [] := by
        cases action <;> first | rfl | cases fails
      rw [quiet]
      exact .informed id state
  | loadState phase => exact (prepared (by rw [phase]; trivial)).elim
  | report =>
      simp only [Process.report]
      split <;> exact .informed id state
  | collected =>
      simp only [Process.collected]
      split
      · exact .informed id state
      · refine .informed ?_ state
        cases process.run.plan.mode.writes <;> exact id
  | _ => exact .informed id state

theorem Step.recalls {reads : List (List CatalogRow)} {action : ProcessAction}
    (recalls : process.run.Recalls reads) (stepped : Step deployment process action next) :
    next.run.Recalls (reads ++ process.reads action) := by
  cases recalls with
  | unread unread files state request =>
      cases stepped with
      | prologue taken => exact taken.recalls_of_unread unread files state request
      | ingest taken =>
          rw [taken.phase_eq.1] at unread
          rcases unread with early | gone <;> contradiction
      | epilogue taken =>
          cases taken with
          | conclude phase | concludePreview phase | recorded phase | recordFailed phase
          | supersede phase | supersedeFailed phase | exit phase =>
              rw [phase] at unread
              rcases unread with early | gone <;> contradiction
      | kill => exact .unread (.inr rfl) files state request
      | land flying => simp [request] at flying
      | lose flying => simp [request] at flying
      | edit => exact .unread unread files state request
  | informed prepared state =>
      cases stepped with
      | prologue taken => exact taken.recalls_of_informed prepared state
      | ingest taken =>
          have phase : ¬ Preparing next.run.phase := by
            rw [taken.phase_eq.2]
            exact id
          cases taken with
          | commit _ _ _ moved => cases moved <;> exact .informed phase state
          | _ => exact .informed phase state
      | epilogue taken =>
          cases taken with
          | recorded | recordFailed =>
              refine .informed ?_ state
              simp only [afterRecord, setPhase]
              split <;> exact id
          | _ => exact .informed id state
      | kill => exact .informed id state
      | land => exact .informed prepared state
      | lose => exact .informed prepared state
      | edit => exact .informed prepared state

end Process

/-! ## What a run has shown -/

def shown {Seen : Type} (seen : Process → ProcessAction → List Seen)
    (steps : List (Process × ProcessAction)) : List Seen :=
  steps.flatMap fun step => seen step.1 step.2

@[simp]
theorem shown_snoc {Seen : Type} (seen : Process → ProcessAction → List Seen)
    (steps : List (Process × ProcessAction)) (process : Process) (action : ProcessAction) :
    shown seen (steps ++ [(process, action)]) = shown seen steps ++ seen process action := by
  simp [shown]

/-- A row of the run for one of its candidates. -/
def Run.News (deployment : Deployment) (times : List DateTime) (run : Run) (path : PathBuf)
    (info : FileInfo) : Prop :=
  path ∈ run.files ∧ NewRow deployment run.context times path info

structure Run.Remembers (deployment : Deployment) (steps : List (Process × ProcessAction))
    (run : Run) : Prop where
  distinct : run.files.Nodup
  below : ∀ path ∈ run.files, PathBuf.Below run.plan.root path
  recalls : run.plan.mode.isConnected = true → run.Recalls (shown Process.reads steps)
  accounts : run.Accounts (shown Process.outcomes steps) (shown Process.landing steps)
  built : run.Built deployment (shown Process.readings steps)
  reported : ∀ entry ∈ shown Process.outcomes steps,
    Inherits (run.News deployment (shown Process.readings steps)) entry.1 entry.2
  unhanded : Process.Unrecorded run.phase → shown Process.handing steps = []
  handed : ∀ rows ∈ shown Process.handing steps, ∀ info ∈ rows,
    ∃ path, run.News deployment (shown Process.readings steps) path info
  previews : run.plan.mode.writes = false → run.Previews ∧ shown Process.landing steps = []

namespace Process

variable {deployment : Deployment} {process next : Process} {action : ProcessAction}
  {steps : List (Process × ProcessAction)}

theorem remembers_start (plan : RunPlan) : (Run.start plan).Remembers deployment [] where
  distinct := List.nodup_nil
  below := fun _ member => nomatch member
  recalls := recalls_start
  accounts := accounts_start rfl rfl
  built := (Run.fresh_start plan).carries
  reported := fun _ member => nomatch member
  unhanded _ := rfl
  handed := fun _ member => nomatch member
  previews _ := ⟨previews_start plan, rfl⟩

theorem PrologueStep.candidates {action : PrologueAction} (distinct : process.run.files.Nodup)
    (below : ∀ path ∈ process.run.files, PathBuf.Below process.run.plan.root path)
    (stepped : PrologueStep process action next) :
    next.run.files.Nodup ∧ ∀ path ∈ next.run.files, PathBuf.Below next.run.plan.root path := by
  cases stepped with
  | @proceed stage => cases stage <;> exact ⟨distinct, below⟩
  | report =>
      simp only [Process.report]
      split <;> exact ⟨distinct, below⟩
  | collected phase inside nodup =>
      simp only [Process.collected]
      split
      · exact ⟨distinct, below⟩
      · exact ⟨nodup, inside⟩
  | _ => exact ⟨distinct, below⟩

theorem Step.candidates (distinct : process.run.files.Nodup)
    (below : ∀ path ∈ process.run.files, PathBuf.Below process.run.plan.root path)
    (stepped : Step deployment process action next) :
    next.run.files.Nodup ∧ ∀ path ∈ next.run.files, PathBuf.Below next.run.plan.root path := by
  by_cases unrecorded : Unrecorded process.run.phase
  · cases stepped with
    | prologue taken => exact taken.candidates distinct below
    | ingest taken => exact (not_unrecorded_ingesting taken.phase_eq.1 unrecorded).elim
    | epilogue taken => exact (taken.phase_recorded unrecorded).elim
    | _ => exact ⟨distinct, below⟩
  · rw [stepped.files_eq unrecorded, stepped.plan_eq]
    exact ⟨distinct, below⟩

theorem candidates_of_exec {plan : RunPlan} {start : World} {actions : List ProcessAction}
    {final : Process}
    (exec : (machine deployment).exec ⟨start, Run.start plan⟩ actions = some final) :
    final.run.files.Nodup ∧ ∀ path ∈ final.run.files, PathBuf.Below final.run.plan.root path := by
  refine (machine deployment).exec_invariant (fun process : Process => process.run.files.Nodup ∧
    ∀ path ∈ process.run.files, PathBuf.Below process.run.plan.root path) ?_ ?_ exec
  · exact ⟨List.nodup_nil, fun _ member => nomatch member⟩
  · exact fun _ _ _ candidates stepped =>
      (Step.of_step stepped).candidates candidates.1 candidates.2

theorem Step.news {times : List DateTime} {path : PathBuf} {info : FileInfo}
    (started : ¬ Unrecorded process.run.phase)
    (news : process.run.News deployment times path info)
    (stepped : Step deployment process action next) :
    next.run.News deployment (times ++ process.readings action) path info := by
  unfold Run.News
  rw [stepped.files_eq started, stepped.context_eq started]
  exact ⟨news.1, news.2.mono (List.subset_append_left _ _)⟩

theorem held_of_handing {Running : PathBuf → FileTask → Prop} {Row : PathBuf → FileInfo → Prop}
    (carries : process.run.Carries Running Row) :
    ∀ rows ∈ process.handing action, ∀ info ∈ rows, ∃ path, Row path info := by
  intro rows member info inside
  unfold handing at member
  split at member
  · split at member
    next held call tail committing =>
      have same := carries.call held call tail committing
      have given : rows = held := by
        unfold CommitCall.handing at member
        split at member
        · rw [List.mem_singleton.mp member, same]
        · rw [List.mem_singleton.mp member, same]
        · cases member
      apply carries.held
      simp only [State.held, committing, Writer.rows]
      exact List.mem_append_right _ (given ▸ inside)
    next => cases member
  · cases member

theorem handing_of_unrecorded (unrecorded : Unrecorded process.run.phase)
    (stepped : Step deployment process action next) : process.handing action = [] := by
  cases stepped with
  | ingest taken => exact (not_unrecorded_ingesting taken.phase_eq.1 unrecorded).elim
  | _ => rfl

theorem landing_of_previews (previews : process.run.Previews) :
    process.landing action = [] := by
  unfold landing
  split
  · simp [previews.request]
  · rfl

theorem Step.remembers (fresh : Unrecorded process.run.phase → process.run.Fresh)
    (reached : process.run.PipelineReached) (remembers : process.run.Remembers deployment steps)
    (stepped : Step deployment process action next) :
    next.run.Remembers deployment (steps ++ [(process, action)]) := by
  obtain ⟨distinct, below⟩ := stepped.candidates remembers.distinct remembers.below
  constructor
  · exact distinct
  · exact below
  · rw [stepped.plan_eq, shown_snoc]
    exact fun connected => stepped.recalls (remembers.recalls connected)
  · rw [shown_snoc, shown_snoc]
    exact stepped.accounts fresh reached remembers.built.call remembers.accounts
  · rw [shown_snoc]
    exact stepped.built fresh remembers.built
  · rw [shown_snoc, shown_snoc]
    intro entry member
    by_cases unrecorded : Unrecorded process.run.phase
    · obtain ⟨-, -, none, -⟩ := stepped.untouched (fresh unrecorded) unrecorded
      rw [(remembers.accounts.early unrecorded).1, none] at member
      cases member
    · intro info observed
      apply stepped.news unrecorded
      rcases List.mem_append.mp member with old | new
      · exact remembers.reported entry old info observed
      · unfold Process.outcomes at new
        split at new
        · exact remembers.built.judged.tasks.joined entry new info observed
        · cases new
  · rw [shown_snoc]
    intro unrecorded
    have before := stepped.unrecorded unrecorded
    rw [remembers.unhanded before, handing_of_unrecorded before stepped]
    rfl
  · rw [shown_snoc, shown_snoc]
    intro rows member info inside
    by_cases unrecorded : Unrecorded process.run.phase
    · rw [remembers.unhanded unrecorded, handing_of_unrecorded unrecorded stepped] at member
      cases member
    · rcases List.mem_append.mp member with old | new
      · obtain ⟨path, news⟩ := remembers.handed rows old info inside
        exact ⟨path, stepped.news unrecorded news⟩
      · obtain ⟨path, news⟩ := held_of_handing remembers.built rows new info inside
        exact ⟨path, stepped.news unrecorded news⟩
  · rw [stepped.plan_eq, shown_snoc]
    intro preview
    obtain ⟨previews, none⟩ := remembers.previews preview
    rw [none, landing_of_previews previews]
    exact ⟨(stepped.previews preview fresh previews).1, rfl⟩

end Process

/-! ## What a run adds to the change log -/

theorem NewRow.observation? {deployment : Deployment} {ctx : FileContext} {times : List DateTime}
    {path : PathBuf} {info : FileInfo} (row : NewRow deployment ctx times path info) :
    ∃ observed, Ingest.observation? ctx.sourceId info = some observed ∧
      normalizeRelativePath (path.stripPrefix ctx.root) = .ok observed.relativePath ∧
      observed.observedAt ∈ times ∧
      (ctx.operator = true →
        decide ctx.state observed.relativePath observed.contentHash = .observe) := by
  obtain ⟨hash, relativePath, observes, news⟩ := row
  obtain ⟨time, member, observedAt⟩ := observes.observedAt
  refine ⟨⟨relativePath, hash.text, time⟩, ?_, observes.normalized, member, news⟩
  simp [Ingest.observation?, observes.sourceId, observes.status, observes.relativePath,
    observes.contentHash, observedAt]

theorem observationLog_filesToBatch (files : List FileInfo) (sourceId : String) :
    observationLog (filesToBatch files) sourceId =
      files.filterMap fun info =>
        (observation? sourceId info).map fun observed => observed.floored.entry := by
  simp [observationLog, observationRows_filesToBatch, List.map_filterMap, Function.comp_def]

theorem relativePath_ne {root first second : PathBuf} {firstText secondText : String}
    (firstBelow : PathBuf.Below root first) (secondBelow : PathBuf.Below root second)
    (different : first ≠ second)
    (firstNormal : normalizeRelativePath (first.stripPrefix root) = .ok firstText)
    (secondNormal : normalizeRelativePath (second.stripPrefix root) = .ok secondText) :
    firstText ≠ secondText := by
  rintro rfl
  apply different
  apply PathBuf.stripPrefix_injective firstBelow secondBelow
  exact normalizeRelativePath_injective
    (fun _ => PathBuf.normal_of_mem_stripPrefix firstBelow)
    (fun _ => PathBuf.normal_of_mem_stripPrefix secondBelow) firstNormal secondNormal

section Log

variable {deployment : Deployment} {run : Run} {times : List DateTime}
  {outcomes : List (PathBuf × IngestOutcome)}

theorem distinct_observationLog (distinct : (outcomes.map Prod.fst).Nodup)
    (below : ∀ path ∈ run.files, PathBuf.Below run.plan.root path)
    (reported : ∀ entry ∈ outcomes, Inherits (run.News deployment times) entry.1 entry.2) :
    ((observationLog (filesToBatch (outcomeRows outcomes)) run.plan.sourceId).map
      ChangeLog.Entry.key).Nodup := by
  rw [observationLog_filesToBatch, List.Nodup, List.pairwise_map, List.pairwise_filterMap,
    outcomeRows, List.pairwise_filterMap]
  refine (List.pairwise_map.mp distinct).imp_of_mem ?_
  intro first second firstMember secondMember different info shown other otherShown
    entry recorded otherEntry otherRecorded
  obtain ⟨candidate, row⟩ := reported first firstMember info shown
  obtain ⟨otherCandidate, otherRow⟩ := reported second secondMember other otherShown
  obtain ⟨observed, same, normal, -⟩ := row.observation?
  obtain ⟨otherObserved, otherSame, otherNormal, -⟩ := otherRow.observation?
  simp only [show run.plan.sourceId = run.context.sourceId from rfl, same, otherSame,
    Option.map_some, Option.some.injEq] at recorded otherRecorded
  subst entry otherEntry
  exact relativePath_ne (below _ candidate) (below _ otherCandidate) different normal otherNormal

/-- A log entry of a run differs from what the run knows, at a time that it has read. -/
theorem news_of_mem_observationLog {entry : ChangeLog.Entry String String DateTime}
    (reported : ∀ entry ∈ outcomes, Inherits (run.News deployment times) entry.1 entry.2)
    (member : entry ∈
      observationLog (filesToBatch (outcomeRows outcomes)) run.plan.sourceId) :
    (∃ time ∈ times, entry.time = floorMicros time) ∧
      (run.plan.mode.isConnected = true → decide run.state entry.key entry.value = .observe) := by
  rw [observationLog_filesToBatch, List.mem_filterMap] at member
  obtain ⟨info, inside, recorded⟩ := member
  obtain ⟨outcome, present, shown⟩ := List.mem_filterMap.mp inside
  obtain ⟨-, row⟩ := reported outcome present info shown
  obtain ⟨observed, same, -, read, news⟩ := row.observation?
  rw [show run.plan.sourceId = run.context.sourceId from rfl, same, Option.map_some,
    Option.some.injEq] at recorded
  subst entry
  exact ⟨⟨_, read, rfl⟩, news⟩

end Log

theorem observationLog_prefix {first second : List CatalogRow} (sourceId : String)
    (before : first <+: second) :
    observationLog first sourceId <+: observationLog second sourceId := by
  obtain ⟨rest, rfl⟩ := before
  rw [observationLog_append]
  exact List.prefix_append _ _

namespace Run.Remembers

variable {deployment : Deployment} {run : Run} {steps : List (Process × ProcessAction)}

theorem state_of_reads {catalog : List CatalogRow} (remembers : run.Remembers deployment steps)
    (writes : run.plan.mode.writes = true) (read : catalog ∈ shown Process.reads steps) :
    run.state = some (loadCurrentState catalog run.plan.sourceId) := by
  have recalls := remembers.recalls (IngestMode.isConnected_of_writes writes)
  generalize shown Process.reads steps = reads at recalls read
  cases recalls with
  | unread => cases read
  | informed prepared state => rwa [List.mem_singleton.mp read]

theorem exists_read (remembers : run.Remembers deployment steps)
    (writes : run.plan.mode.writes = true) (informed : run.state ≠ none) :
    ∃ catalog, catalog ∈ shown Process.reads steps := by
  have recalls := remembers.recalls (IngestMode.isConnected_of_writes writes)
  generalize shown Process.reads steps = reads at recalls
  cases recalls with
  | unread unread files state => exact (informed state).elim
  | informed => exact ⟨_, List.mem_singleton.mpr rfl⟩

theorem landed_prefix (remembers : run.Remembers deployment steps)
    (writes : run.plan.mode.writes = true) :
    shown Process.landing steps <+:
      filesToBatch (outcomeRows (shown Process.outcomes steps)) :=
  (List.prefix_append _ _).trans (remembers.accounts.delivered writes).initial

/-- What a run brings into the catalog it read keeps the change log minimal. -/
theorem minimal_append {catalog : List CatalogRow} (remembers : run.Remembers deployment steps)
    (writes : run.plan.mode.writes = true) (read : catalog ∈ shown Process.reads steps)
    (minimal : ChangeLog.Minimal (observationLog catalog run.plan.sourceId))
    (later : ∀ entry ∈ observationLog catalog run.plan.sourceId,
      ∀ time ∈ shown Process.readings steps, entry.time < floorMicros time) :
    ChangeLog.Minimal (observationLog catalog run.plan.sourceId ++
      observationLog (shown Process.landing steps) run.plan.sourceId) := by
  have connected := IngestMode.isConnected_of_writes writes
  have before := observationLog_prefix run.plan.sourceId (remembers.landed_prefix writes)
  have distinct := distinct_observationLog
    (remembers.accounts.conserved.nodup remembers.distinct) remembers.below remembers.reported
  have state := remembers.state_of_reads writes read
  apply minimal.append
  · exact distinct.sublist (before.sublist.map _)
  · intro entry member old known
    obtain ⟨⟨time, taken, same⟩, -⟩ :=
      news_of_mem_observationLog remembers.reported (before.subset member)
    rw [same]
    exact later old (ChangeLog.mem_history_iff.mp known).1 time taken
  · intro entry member last final
    obtain ⟨-, news⟩ := news_of_mem_observationLog remembers.reported (before.subset member)
    refine decide_eq_observe_iff.mp (news connected) (.ofEntry last) ?_
    rw [state, Option.bind_some, loadCurrentState_eq_getLast? minimal, final]
    rfl

end Run.Remembers

/-- A row for a candidate whose content is not the last one in the catalog. -/
def Run.Novel (catalog : List CatalogRow) (run : Run) (info : FileInfo) : Prop :=
  ∃ relativePath hash, info.sourcePath ∈ run.files ∧
    normalizeRelativePath (info.sourcePath.stripPrefix run.plan.root) = .ok relativePath ∧
    info.relativePath = some relativePath ∧ info.contentHash = some hash ∧
    ∀ known, loadCurrentState catalog run.plan.sourceId relativePath = some known →
      known.contentHash ≠ hash.text

theorem Run.Remembers.novel {deployment : Deployment} {run : Run}
    {steps : List (Process × ProcessAction)} (remembers : run.Remembers deployment steps)
    (writes : run.plan.mode.writes = true) :
    ∀ rows ∈ shown Process.handing steps, ∀ info ∈ rows,
      ∃ catalog, shown Process.reads steps = [catalog] ∧ run.Novel catalog info := by
  intro rows member info inside
  have connected := IngestMode.isConnected_of_writes writes
  obtain ⟨path, candidate, hash, relativePath, observes, news⟩ :=
    remembers.handed rows member info inside
  have recalls := remembers.recalls connected
  generalize shown Process.reads steps = reads at recalls ⊢
  cases recalls with
  | unread unread files => simp [files] at candidate
  | @informed catalog _ prepared state =>
      refine ⟨catalog, rfl, relativePath, hash, ?_⟩
      rw [observes.sourcePath]
      refine ⟨candidate, observes.normalized, observes.relativePath, observes.contentHash, ?_⟩
      intro known found
      refine decide_eq_observe_iff.mp (news connected) known ?_
      rw [show run.context.state = run.state from rfl, state]
      exact found

end AntiEntropator.Ingest
