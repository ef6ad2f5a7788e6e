import AntiEntropator.ChangeLog.Turns
import AntiEntropator.Ingest.Run.News
import AntiEntropator.Ingest.System.Serial

/-!
# Writers that take turns

Less is promised than by serial runs: the process of a writer is gone when the
next one of its source is begun, and its last request is settled when the next
one reads the catalog.  Then the catalog is what the writers brought into it,
one after the other.
-/

namespace AntiEntropator.Ingest

open Lakehouse

namespace System

/-! ## The steps of each run -/

def steps (index : Nat) (system : System) : SystemAction → List (Process × ProcessAction)
  | .begin _ => []
  | .act other action =>
      if other = index then
        (system.runs[index]?).toList.map fun run => (⟨system.world, run⟩, action)
      else []

def trace (deployment : Deployment) (world : World) (actions : List SystemAction) (index : Nat) :
    List (Process × ProcessAction) :=
  (machine deployment).observe (steps index) ⟨world, []⟩ actions

section Trace

variable {deployment : Deployment} {world : World} {actions : List SystemAction}
  {middle final : System} {action : SystemAction}

theorem trace_snoc (before : (machine deployment).exec ⟨world, []⟩ actions = some middle)
    (stepped : (machine deployment).step middle action = some final) (index : Nat) :
    trace deployment world (actions ++ [action]) index =
      trace deployment world actions index ++ steps index middle action :=
  (machine deployment).observe_snoc _ before stepped

theorem steps_self {system : System} {index : Nat} {run : Run} {inner : ProcessAction}
    (found : system.runs[index]? = some run) :
    steps index system (.act index inner) = [(⟨system.world, run⟩, inner)] := by
  simp [steps, found]

theorem steps_other {system : System} {index other : Nat} {inner : ProcessAction}
    (different : other ≠ index) : steps index system (.act other inner) = [] := by
  simp [steps, different]

theorem trace_eq_nil (exec : (machine deployment).exec ⟨world, []⟩ actions = some final) :
    ∀ index, final.runs.length ≤ index → trace deployment world actions index = [] := by
  refine (machine deployment).exec_induction (motive := fun actions (system : System) =>
    ∀ index, system.runs.length ≤ index → trace deployment world actions index = []) ?_ ?_ exec
  · exact fun _ _ => rfl
  · intro actions middle action next before unbegun stepped index bound
    rw [trace_snoc before stepped]
    cases Step.of_step stepped with
    | begin =>
        rw [List.length_append] at bound
        rw [unbegun index (Nat.le_of_add_right_le bound)]
        rfl
    | act found taken =>
        rw [List.length_set] at bound
        have inside := (List.getElem?_eq_some_iff.mp found).1
        rw [unbegun index bound, steps_other (Nat.ne_of_lt (Nat.lt_of_lt_of_le inside bound))]
        rfl

theorem remembers_of_exec (exec : (machine deployment).exec ⟨world, []⟩ actions = some final) :
    ∀ index (run : Run), final.runs[index]? = some run →
      run.Remembers deployment (trace deployment world actions index) := by
  refine (machine deployment).exec_induction (motive := fun actions (system : System) =>
    ∀ index (run : Run), system.runs[index]? = some run →
      run.Remembers deployment (trace deployment world actions index)) ?_ ?_ exec
  · simp
  · intro actions middle action next before remembers stepped index run found
    have sound := sound_of_exec before
    rw [trace_snoc before stepped]
    cases Step.of_step stepped with
    | @begin plan =>
        change run.Remembers deployment (_ ++ [])
        rw [List.append_nil]
        rcases Nat.lt_or_ge index middle.runs.length with old | new
        · rw [List.getElem?_append_left old] at found
          exact remembers index run found
        · rw [List.getElem?_append_right new] at found
          obtain ⟨-, rfl⟩ := List.getElem?_eq_some_iff.mp found
          rw [trace_eq_nil before index new, List.getElem_singleton]
          exact Process.remembers_start plan
    | @act other acting inner process place taken =>
        by_cases same : other = index
        · subst other
          rw [List.getElem?_set_self (List.getElem?_eq_some_iff.mp place).1,
            Option.some.injEq] at found
          subst run
          rw [steps_self place]
          have own := sound acting (List.mem_of_getElem? place)
          exact taken.remembers own.fresh own.reached (remembers index acting place)
        · rw [List.getElem?_set_ne same] at found
          rw [steps_other same, List.append_nil]
          exact remembers index run found

end Trace

/-! ## Turns -/

/-- The fate of the last request is decided. -/
def settled (run : Run) : Bool :=
  match run.request with
  | some ⟨_, .inFlight⟩ => false
  | _ => true

def Rivals (first second : RunPlan) : Prop :=
  first.sourceId = second.sourceId ∧ first.mode.writes = true ∧ second.mode.writes = true

instance (first second : RunPlan) : Decidable (Rivals first second) :=
  inferInstanceAs (Decidable (_ ∧ _ ∧ _))

/-- A writer begins when the earlier ones of its source are gone, and reads the
catalog when their requests are settled. -/
def turns (system : System) : SystemAction → Bool
  | .begin plan => ∀ run ∈ system.runs, Rivals run.plan plan → Process.ended run.phase = true
  | .act index (.prologue .loadState) =>
      match system.runs[index]? with
      | some reader => ∀ run ∈ system.runs, Rivals run.plan reader.plan → settled run = true
      | none => true
  | .act _ _ => true

/-- Runs of which the writers of a source take turns. -/
def turnsMachine (deployment : Deployment) : GuardedMachine System SystemAction :=
  (machine deployment).restrict turns

theorem quiesced_eq (run : Run) : quiesced run = (Process.ended run.phase && settled run) := by
  unfold quiesced Process.ended settled
  cases run.phase <;> rfl

/-- When a later writer has been begun, an earlier one is gone; when it has
read the catalog, the requests of the earlier one are settled. -/
def InTurns (runs : List Run) : Prop :=
  runs.Pairwise fun earlier later => Rivals earlier.plan later.plan →
    Process.ended earlier.phase = true ∧ (later.state ≠ none → settled earlier = true)

end System

namespace Process

variable {deployment : Deployment} {process next : Process} {action : ProcessAction}

theorem ended_of_unrecorded {phase : RunPhase} (unrecorded : Unrecorded phase) :
    ended phase = false := by
  rcases unrecorded with early | rfl
  · cases phase <;> first | rfl | exact early.elim
  · rfl

theorem Step.ended (gone : ended process.run.phase = true)
    (stepped : Step deployment process action next) : Process.ended next.run.phase = true := by
  cases stepped with
  | prologue taken =>
      rw [ended_of_unrecorded taken.unrecorded] at gone
      cases gone
  | ingest taken =>
      rw [taken.phase_eq.1] at gone
      cases gone
  | epilogue taken =>
      cases taken with
      | conclude phase | concludePreview phase | recorded phase | recordFailed phase
      | supersede phase | supersedeFailed phase | exit phase =>
          rw [phase] at gone
          cases gone
  | kill => rfl
  | land => exact gone
  | lose => exact gone
  | edit => exact gone

theorem PrologueStep.state_eq {action : PrologueAction} (unread : action ≠ .loadState)
    (stepped : PrologueStep process action next) : next.run.state = process.run.state := by
  cases stepped with
  | @proceed stage => cases stage <;> rfl
  | loadState => exact (unread rfl).elim
  | report =>
      simp only [Process.report]
      split <;> rfl
  | collected =>
      simp only [Process.collected]
      split <;> rfl
  | _ => rfl

theorem Step.state_eq (unread : action ≠ .prologue .loadState)
    (stepped : Step deployment process action next) : next.run.state = process.run.state := by
  cases stepped with
  | prologue taken => exact taken.state_eq fun loading => unread (congrArg _ loading)
  | ingest taken =>
      cases taken with
      | commit _ _ _ moved => cases moved <;> rfl
      | _ => rfl
  | epilogue taken => cases taken <;> rfl
  | _ => rfl

theorem Step.loading (stepped : Step deployment process (.prologue .loadState) next) :
    process.run.phase = .loadingState := by
  cases stepped with
  | prologue taken =>
      cases taken with
      | failed error early fails => cases fails
      | loadState phase => exact phase

end Process

namespace System

theorem quiesced_of_ended {run : Run} (gone : Process.ended run.phase = true)
    (done : settled run = true) : quiesced run = true := by
  rw [quiesced_eq, gone, done]
  rfl

section InTurns

variable {deployment : Deployment} {system next : System} {action : SystemAction}

theorem InTurns.step (inTurns : InTurns system.runs) (allowed : turns system action = true)
    (stepped : Step deployment system action next) : InTurns next.runs := by
  cases stepped with
  | @begin plan =>
      simp only [turns, decide_eq_true_eq] at allowed
      refine List.pairwise_append.mpr ⟨inTurns, List.pairwise_singleton _ _, ?_⟩
      intro run member new last
      rw [List.mem_singleton.mp last]
      exact fun rivals => ⟨allowed run member rivals, fun read => (read rfl).elim⟩
  | @act index run inner process found taken =>
      have plan : process.run.plan = run.plan := taken.plan_eq
      apply pairwise_set inTurns found
      · intro other member before rivals
        rw [plan] at rivals
        obtain ⟨gone, done⟩ := before rivals
        refine ⟨gone, fun read => ?_⟩
        by_cases loading : inner = .prologue .loadState
        · subst inner
          simp only [turns, found, decide_eq_true_eq] at allowed
          exact allowed other member rivals
        · rw [taken.state_eq loading] at read
          exact done read
      · intro other member before rivals
        rw [plan] at rivals
        obtain ⟨gone, done⟩ := before rivals
        refine ⟨taken.ended gone, fun read => ?_⟩
        rw [(taken.run_of_quiesced (quiesced_of_ended gone (done read))).1]
        exact done read

theorem inTurns_of_exec {world : World} {actions : List SystemAction} {final : System}
    (exec : (turnsMachine deployment).exec ⟨world, []⟩ actions = some final) :
    InTurns final.runs := by
  refine (turnsMachine deployment).exec_invariant (fun system => InTurns system.runs) ?_ ?_ exec
  · exact List.Pairwise.nil
  · intro system action next inTurns stepped
    obtain ⟨allowed, taken⟩ := (machine deployment).restrict_step_eq_some_iff turns |>.mp stepped
    exact inTurns.step allowed (.of_step taken)

theorem InTurns.ended {runs : List Run} {index later : Nat} {run other : Run}
    (inTurns : InTurns runs) (before : index < later) (found : runs[index]? = some run)
    (place : runs[later]? = some other) (rivals : Rivals run.plan other.plan) :
    Process.ended run.phase = true ∧ (other.state ≠ none → settled run = true) := by
  obtain ⟨bound, rfl⟩ := List.getElem?_eq_some_iff.mp found
  obtain ⟨otherBound, rfl⟩ := List.getElem?_eq_some_iff.mp place
  exact List.pairwise_iff_getElem.mp inTurns index later bound otherBound before rivals

end InTurns

end System

/-! ## What a run brings -/

namespace Run.Remembers

variable {deployment : Deployment} {run : Run} {steps : List (Process × ProcessAction)}
  {sourceId : String}

theorem of_landing (remembers : run.Remembers deployment steps)
    (landed : shown Process.landing steps ≠ []) :
    run.plan.mode.writes = true ∧ run.state ≠ none := by
  have writes : run.plan.mode.writes = true := by
    by_contra preview
    exact landed (remembers.previews (by simpa using preview)).2
  refine ⟨writes, ?_⟩
  have recalls := remembers.recalls (IngestMode.isConnected_of_writes writes)
  generalize shown Process.reads steps = reads at recalls
  cases recalls with
  | unread unread files =>
      -- without candidates there are no outcomes
      have none := remembers.accounts.conserved.subset
      rw [files, List.subset_nil, List.map_eq_nil_iff] at none
      have before := remembers.landed_prefix writes
      rw [none] at before
      exact (landed (List.prefix_nil.mp before)).elim
  | informed prepared state => simp [state]

theorem observationRows_landing (remembers : run.Remembers deployment steps)
    (other : run.plan.sourceId ≠ sourceId) :
    observationRows (shown Process.landing steps) sourceId = [] := by
  by_contra landed
  have writes := (remembers.of_landing fun none => landed (by rw [none]; rfl)).1
  apply landed
  rw [observationRows, List.filterMap_eq_nil_iff]
  intro row member
  obtain ⟨info, inside, rfl⟩ :=
    List.mem_map.mp ((remembers.landed_prefix writes).subset member)
  obtain ⟨outcome, present, observed⟩ := List.mem_filterMap.mp inside
  obtain ⟨-, hash, relativePath, observes, -⟩ :=
    remembers.reported outcome present info observed
  have source : (CatalogRow.push info).sourceId = some run.plan.sourceId := observes.sourceId
  simp [observationRow?, source, other]

theorem of_observationRows (remembers : run.Remembers deployment steps)
    (brought : observationRows (shown Process.landing steps) sourceId ≠ []) :
    run.plan.sourceId = sourceId ∧ run.plan.mode.writes = true ∧ run.state ≠ none := by
  refine ⟨?_, remembers.of_landing fun none => brought (by rw [none]; rfl)⟩
  by_contra other
  exact brought (remembers.observationRows_landing other)

end Run.Remembers

/-! ## The catalog, run by run -/

namespace System

/-- What each run has brought into the catalog for a source. -/
def brought (sourceId : String) (traces : Nat → List (Process × ProcessAction)) (index : Nat) :
    List ObservationRow :=
  observationRows (shown Process.landing (traces index)) sourceId

/-- The rows of a source are those of its writers in turn, and what a writer
has read is what the ones before it had brought. -/
structure Sequenced (sourceId : String) (initial : List CatalogRow)
    (traces : Nat → List (Process × ProcessAction)) (system : System) : Prop where
  catalog : observationRows system.world.catalog sourceId =
    observationRows initial sourceId ++
      ChangeLog.inTurn (brought sourceId traces) system.runs.length
  read : ∀ (index : Nat) (run : Run), system.runs[index]? = some run →
    run.plan.sourceId = sourceId → run.plan.mode.writes = true →
      ∀ catalog ∈ shown Process.reads (traces index), observationRows catalog sourceId =
        observationRows initial sourceId ++ ChangeLog.inTurn (brought sourceId traces) index

section Sequenced

variable {deployment : Deployment} {sourceId : String} {initial : List CatalogRow}
  {traces : Nat → List (Process × ProcessAction)} {world : World} {runs : List Run}
  {index : Nat} {run : Run} {action : ProcessAction} {process : Process}

theorem brought_of_active
    (remembers : ∀ index (run : Run), runs[index]? = some run →
      run.Remembers deployment (traces index))
    (unbegun : ∀ index, runs.length ≤ index → traces index = []) (inTurns : InTurns runs)
    (found : runs[index]? = some run) (source : run.plan.sourceId = sourceId)
    (writes : run.plan.mode.writes = true)
    (active : Process.ended run.phase = false ∨ settled run = false) {later : Nat}
    (after : index < later) : brought sourceId traces later = [] := by
  by_contra some
  cases place : runs[later]? with
  | none =>
      apply some
      rw [brought, unbegun later (List.getElem?_eq_none_iff.mp place)]
      rfl
  | some other =>
      obtain ⟨otherSource, otherWrites, read⟩ :=
        (remembers later other place).of_observationRows some
      obtain ⟨gone, done⟩ := inTurns.ended after found place
        ⟨source.trans otherSource.symm, writes, otherWrites⟩
      rw [gone, done read] at active
      rcases active with alive | flying <;> contradiction

theorem Sequenced.begin {plan : RunPlan}
    (sequenced : Sequenced sourceId initial traces ⟨world, runs⟩)
    (unbegun : ∀ index, runs.length ≤ index → traces index = []) :
    Sequenced sourceId initial traces ⟨world, runs ++ [Run.start plan]⟩ where
  catalog := by
    have none : brought sourceId traces runs.length = [] := by
      rw [brought, unbegun _ (Nat.le_refl _)]
      rfl
    rw [List.length_append, List.length_singleton, ChangeLog.inTurn_succ, none, List.append_nil]
    exact sequenced.catalog
  read := by
    intro index run found source writes catalog read
    rcases Nat.lt_or_ge index runs.length with old | new
    · rw [List.getElem?_append_left old] at found
      exact sequenced.read index run found source writes catalog read
    · rw [unbegun index new] at read
      cases read

theorem exists_of_set (found : runs[index]? = some run)
    (taken : Process.Step deployment ⟨world, run⟩ action process) {other : Nat} {next : Run}
    (place : (runs.set index process.run)[other]? = some next) :
    ∃ before, runs[other]? = some before ∧ next.plan = before.plan := by
  by_cases same : index = other
  · subst other
    rw [List.getElem?_set_self (List.getElem?_eq_some_iff.mp found).1, Option.some.injEq] at place
    subst next
    exact ⟨run, found, taken.plan_eq⟩
  · rw [List.getElem?_set_ne same] at place
    exact ⟨next, place, rfl⟩

theorem settled_of_landing {current : Process} (landed : current.landing action ≠ []) :
    settled current.run = false ∧ action = .land := by
  unfold Process.landing at landed
  split at landed
  · split at landed
    next rows flying => exact ⟨by simp [settled, flying], rfl⟩
    next => exact (landed rfl).elim
  · exact (landed rfl).elim

section Act

variable {later : Nat → List (Process × ProcessAction)}

theorem brought_self (self : later index = traces index ++ [(⟨world, run⟩, action)]) :
    brought sourceId later index = brought sourceId traces index ++
      observationRows (Process.landing ⟨world, run⟩ action) sourceId := by
  rw [brought, self, shown_snoc, observationRows_append]
  rfl

theorem brought_others (others : ∀ other, other ≠ index → later other = traces other) :
    ∀ other, other ≠ index → brought sourceId later other = brought sourceId traces other := by
  intro other different
  rw [brought, others other different]
  rfl

theorem Sequenced.quiet (sequenced : Sequenced sourceId initial traces ⟨world, runs⟩)
    (remembers : ∀ index (run : Run), runs[index]? = some run →
      run.Remembers deployment (traces index))
    (unbegun : ∀ index, runs.length ≤ index → traces index = []) (inTurns : InTurns runs)
    (found : runs[index]? = some run)
    (taken : Process.Step deployment ⟨world, run⟩ action process)
    (none : observationRows (Process.landing ⟨world, run⟩ action) sourceId = [])
    (self : later index = traces index ++ [(⟨world, run⟩, action)])
    (others : ∀ other, other ≠ index → later other = traces other) :
    Sequenced sourceId initial later ⟨process.world, runs.set index process.run⟩ := by
  have same : brought sourceId later = brought sourceId traces := by
    funext other
    by_cases here : other = index
    · rw [here, brought_self self, none, List.append_nil]
    · exact brought_others others other here
  constructor
  · rw [taken.catalog_eq, observationRows_append, none, List.append_nil, same, List.length_set]
    exact sequenced.catalog
  · intro other next place source writes catalog read
    rw [same]
    obtain ⟨before, earlier, plan⟩ := exists_of_set found taken place
    rw [plan] at source writes
    by_cases here : other = index
    · subst other
      rw [self, shown_snoc] at read
      rcases List.mem_append.mp read with old | new
      · exact sequenced.read index before earlier source writes catalog old
      · unfold Process.reads at new
        split at new
        · -- no later writer has brought anything when the run reads the catalog
          rw [List.mem_singleton.mp new, sequenced.catalog]
          rw [found, Option.some.injEq] at earlier
          subst before
          have early : Process.Unrecorded run.phase := .inl (by rw [taken.loading]; trivial)
          have inside := (List.getElem?_eq_some_iff.mp found).1
          refine congrArg _ (ChangeLog.inTurn_of_idle (Nat.le_of_lt inside) ?_)
          intro writer after bound
          rcases Nat.eq_or_lt_of_le after with rfl | after
          · rw [brought, ((remembers index run found).accounts.early early).2]
            rfl
          · exact brought_of_active remembers unbegun inTurns found source writes
              (.inl (Process.ended_of_unrecorded early)) after
        · cases new
    · rw [others other here] at read
      exact sequenced.read other before earlier source writes catalog read

/-- A writer's rows come after those of the writers before it. -/
theorem Sequenced.land (sequenced : Sequenced sourceId initial traces ⟨world, runs⟩)
    (remembers : ∀ index (run : Run), runs[index]? = some run →
      run.Remembers deployment (traces index))
    (unbegun : ∀ index, runs.length ≤ index → traces index = []) (inTurns : InTurns runs)
    (found : runs[index]? = some run)
    (taken : Process.Step deployment ⟨world, run⟩ .land process)
    (source : run.plan.sourceId = sourceId) (writes : run.plan.mode.writes = true)
    (flying : settled run = false)
    (self : later index = traces index ++ [(⟨world, run⟩, .land)])
    (others : ∀ other, other ≠ index → later other = traces other) :
    Sequenced sourceId initial later ⟨process.world, runs.set index process.run⟩ := by
  have inside := (List.getElem?_eq_some_iff.mp found).1
  constructor
  · have idle : ∀ writer, index < writer → writer < runs.length →
        brought sourceId traces writer = [] := fun writer after _ =>
      brought_of_active remembers unbegun inTurns found source writes (.inr flying) after
    rw [taken.catalog_eq, observationRows_append, sequenced.catalog, List.length_set,
      List.append_assoc,
      ChangeLog.inTurn_append inside (brought_self self) (brought_others others) idle]
  · intro other next place otherSource otherWrites catalog read
    obtain ⟨before, earlier, plan⟩ := exists_of_set found taken place
    rw [plan] at otherSource otherWrites
    have known : catalog ∈ shown Process.reads (traces other) := by
      by_cases here : other = index
      · subst other
        rw [self, shown_snoc] at read
        exact (List.mem_append.mp read).resolve_right List.not_mem_nil
      · rwa [others other here] at read
    -- a later writer would have read the catalog before this request was settled
    have first : other ≤ index := by
      by_contra beyond
      have state := (remembers other before earlier).state_of_reads otherWrites known
      obtain ⟨-, done⟩ := inTurns.ended (Nat.lt_of_not_le beyond) found earlier
        ⟨source.trans otherSource.symm, writes, otherWrites⟩
      rw [done (by simp [state])] at flying
      cases flying
    rw [sequenced.read other before earlier otherSource otherWrites catalog known]
    refine congrArg _ (ChangeLog.inTurn_congr fun writer less => ?_)
    exact (brought_others others writer (Nat.ne_of_lt (Nat.lt_of_lt_of_le less first))).symm

theorem Sequenced.act (sequenced : Sequenced sourceId initial traces ⟨world, runs⟩)
    (sound : Sound deployment run)
    (remembers : ∀ index (run : Run), runs[index]? = some run →
      run.Remembers deployment (traces index))
    (unbegun : ∀ index, runs.length ≤ index → traces index = []) (inTurns : InTurns runs)
    (found : runs[index]? = some run)
    (taken : Process.Step deployment ⟨world, run⟩ action process)
    (self : later index = traces index ++ [(⟨world, run⟩, action)])
    (others : ∀ other, other ≠ index → later other = traces other) :
    Sequenced sourceId initial later ⟨process.world, runs.set index process.run⟩ := by
  by_cases none : observationRows (Process.landing ⟨world, run⟩ action) sourceId = []
  · exact sequenced.quiet remembers unbegun inTurns found taken none self others
  · have after := taken.remembers sound.fresh sound.reached (remembers index run found)
    rw [← self] at after
    have bringing : observationRows (shown Process.landing (later index)) sourceId ≠ [] := by
      rw [self, shown_snoc, observationRows_append]
      simp [none]
    obtain ⟨source, writes, -⟩ := after.of_observationRows bringing
    rw [taken.plan_eq] at source writes
    have landed : Process.landing ⟨world, run⟩ action ≠ [] :=
      fun quiet => none (by rw [quiet]; rfl)
    obtain ⟨flying, rfl⟩ := settled_of_landing landed
    exact sequenced.land remembers unbegun inTurns found taken source writes flying self others

end Act

end Sequenced

theorem sequenced_of_exec {deployment : Deployment} {world : World}
    {actions : List SystemAction} {final : System} (sourceId : String)
    (exec : (turnsMachine deployment).exec ⟨world, []⟩ actions = some final) :
    Sequenced sourceId world.catalog (trace deployment world actions) final := by
  refine (turnsMachine deployment).exec_induction (motive := fun actions system =>
    Sequenced sourceId world.catalog (trace deployment world actions) system) ?_ ?_ exec
  · exact ⟨(List.append_nil _).symm, by simp⟩
  · intro actions middle action next before sequenced stepped
    have plain := (machine deployment).exec_of_restrict turns before
    obtain ⟨-, taken⟩ := (machine deployment).restrict_step_eq_some_iff turns |>.mp stepped
    rw [show trace deployment world (actions ++ [action]) = _ from
      funext (trace_snoc plain taken)]
    cases Step.of_step taken with
    | begin =>
        simp only [steps, List.append_nil]
        exact sequenced.begin (trace_eq_nil plain)
    | act found moved =>
        refine sequenced.act (sound_of_exec plain _ (List.mem_of_getElem? found))
          (remembers_of_exec plain) (trace_eq_nil plain) (inTurns_of_exec before) found moved ?_ ?_
        · rw [steps_self found]
        · intro other different
          rw [steps_other different.symm, List.append_nil]

end System

end AntiEntropator.Ingest
