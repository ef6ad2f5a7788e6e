import AntiEntropator.Lakehouse.Bootstrap.Stack

/-!
# What a bootstrap guarantees

Of every run of `init`, among services that may refuse what they are asked or
lose its answer, and wherever the run is cut off.
-/

namespace AntiEntropator.Lakehouse

open Dialogue

variable {World : Type} {services : Services World} {libraries : ClientLibraries}
  {config : LakehouseConfig}

/-- A bootstrap that reports success leaves a lakehouse that ingest accepts, whatever went wrong
on the way. -/
theorem successful_init_leaves_a_ready_lakehouse (truthful : services.Truthful libraries config)
    {world final : World} {exchanges : List (Sigma Call.Reply)}
    (runs : Runs services.answers (init libraries config) world exchanges (some (.ok ())) final) :
    ∃ projectId, Ready services libraries config projectId final :=
  (truthful.init_yields world).runs runs

theorem successful_init_leaves_a_ready_lakehouse_fresh :
    ∃ exchanges final,
      Runs freshStack.answers (init stackLibraries stackConfig) {} exchanges (some (.ok ()))
        final ∧
      ∃ projectId, Ready freshStack stackLibraries stackConfig projectId final := by
  obtain ⟨exchanges, final, runs, -⟩ := freshStack_init
  exact ⟨exchanges, final, runs, successful_init_leaves_a_ready_lakehouse freshStack_truthful runs⟩

/-- The changes a run of `init` asks for, in any world and wherever it stops: each at most once,
in one order, with the configured names, and those behind the project in one project, whose id
is what the state file gets. -/
theorem init_asks_for_each_change_once {World : Type} {answers : Answers World Call.Reply}
    {world final : World} {exchanges : List (Sigma Call.Reply)}
    {ending : Option (Except Error Unit)}
    (runs : Runs answers (init libraries config) world exchanges ending final) :
    InitChanges libraries config (marks change? exchanges) :=
  init_sends.runs runs

theorem init_asks_for_each_change_once_fresh :
    ∃ exchanges final,
      Runs freshStack.answers (init stackLibraries stackConfig) {} exchanges (some (.ok ()))
        final ∧
      InitChanges stackLibraries stackConfig (marks change? exchanges) := by
  obtain ⟨exchanges, final, runs, -⟩ := freshStack_init
  exact ⟨exchanges, final, runs, init_asks_for_each_change_once runs⟩

/-- Whenever `init` asks for a change, wherever the run goes from there, what the change builds on
is there, in whatever world the run has come to. -/
theorem init_builds_on_what_is_there (truthful : services.Truthful libraries config)
    {world final : World} {before after : List (Sigma Call.Reply)} {exchange : Sigma Call.Reply}
    {ending : Option (Except Error Unit)} {change : Change}
    (runs : Runs services.answers (init libraries config) world (before ++ exchange :: after) ending
      final) (asked : change? exchange.1 = some change) :
    (∃ middle, Runs services.answers (init libraries config) world before none middle) ∧
      ∀ middle, Runs services.answers (init libraries config) world before none middle →
        Founded services libraries config middle change :=
  ⟨runs.exists_cut, fun _ reached =>
    (truthful.init_founding world).asks_of_reached runs reached change asked⟩

theorem init_builds_on_what_is_there_fresh :
    ∃ (before : List (Sigma Call.Reply)) (exchange : Sigma Call.Reply) (middle : Stack)
      (change : Change),
      change? exchange.1 = some change ∧
      Runs freshStack.answers (init stackLibraries stackConfig) {} before none middle ∧
      Founded freshStack stackLibraries stackConfig middle change := by
  obtain ⟨exchanges, final, runs, bucket⟩ := freshStack_init
  have changed : ∃ exchange ∈ exchanges, change? exchange.1 ≠ none := by
    by_contra silent
    push Not at silent
    have same : final.bucket = false := freshStack_silent.runs (runs.restrict silent)
    exact Bool.false_ne_true (same.symm.trans bucket)
  obtain ⟨exchange, member, asked⟩ := changed
  obtain ⟨before, after, rfl⟩ := List.append_of_mem member
  obtain ⟨change, some⟩ := Option.ne_none_iff_exists'.mp asked
  obtain ⟨⟨middle, reached⟩, founded⟩ :=
    init_builds_on_what_is_there freshStack_truthful runs some
  exact ⟨before, exchange, middle, change, some, reached, founded middle reached⟩

/-- Once the services answer as they should, `init` succeeds, whatever earlier runs of it left
behind, if no foreign table was there before them that ingest would refuse. -/
theorem init_recovers_from_any_history (truthful : services.Truthful libraries config)
    {answers : Answers World Call.Reply}
    (allowed : ∀ {world call reply after}, answers world call reply after →
      services.answers world call reply after)
    (healthy : (services.within answers).Healthy libraries config)
    (total : ∀ world call, ∃ reply after, answers world call reply after)
    (credentials : validateS3Credentials config = .ok ()) {world later : World}
    (accepting : Accepting services libraries world)
    (history : Interrupted services libraries config world later) :
    (∃ exchanges final, Runs answers (init libraries config) later exchanges (some (.ok ())) final) ∧
    ∀ exchanges ended final, Runs answers (init libraries config) later exchanges (some ended) final →
      ended = .ok () ∧ ∃ projectId, Ready services libraries config projectId final := by
  have succeeds : ∀ exchanges ended final,
      Runs answers (init libraries config) later exchanges (some ended) final →
      ended = .ok () ∧ ∃ projectId, Ready services libraries config projectId final := by
    intro exchanges ended final runs
    have alive := (healthy.restrict (Schooled libraries config)).init_alive
      (truthful.restrict fun answered => allowed answered.2) (truthful.steady allowed) credentials
      (history.accepting truthful accepting)
    have yielded := alive.runs (init_schooled runs)
    cases ended with
    | ok result =>
        obtain ⟨projectId, ready⟩ := yielded
        exact ⟨rfl, projectId, ready.bucket, ready.project, ready.warehouse, ready.catalog⟩
    | error error => exact yielded.elim
  refine ⟨?_, succeeds⟩
  obtain ⟨exchanges, ended, final, runs⟩ := exists_runs total (init libraries config) later
  have returned := (succeeds exchanges ended final runs).1
  subst returned
  exact ⟨exchanges, final, runs⟩

theorem init_recovers_from_any_history_fresh :
    ∃ later, Interrupted (freshStack.losing (.msg "connection reset")) stackLibraries stackConfig {}
        later ∧
      ∃ exchanges final,
        Runs freshStack.answers (init stackLibraries stackConfig) later exchanges (some (.ok ()))
          final := by
  have total : ∀ stack call, ∃ reply after,
      (freshStack.losing (.msg "connection reset")).answers stack call reply after := by
    intro stack call
    obtain ⟨reply, after, answered⟩ := freshStack_total stack call
    exact ⟨reply, after, .inl answered⟩
  obtain ⟨exchanges, ended, later, runs⟩ :=
    exists_runs total (init stackLibraries stackConfig) {}
  have history : Interrupted (freshStack.losing (.msg "connection reset")) stackLibraries
      stackConfig {} later := .again .none runs
  exact ⟨later, history, (init_recovers_from_any_history
    (freshStack_truthful.losing (.msg "connection reset")) .inl freshStack_healthy
    freshStack_total credentials_stackConfig (accepting_freshStack {}) history).1⟩

/-- Bootstrapping a ready lakehouse again, in the project that is known: the services are asked for
no change, wherever the run stops, and it succeeds. -/
theorem init_is_idempotent (truthful : services.Truthful libraries config)
    (healthy : services.Healthy libraries config) (observant : services.Observant libraries config)
    (readable : services.Readable) (credentials : validateS3Credentials config = .ok ()) {projectId : String}
    {world final : World} (ready : Ready services libraries config projectId world)
    (known : config.projectId.or (services.savedId libraries world) = some projectId)
    {exchanges : List (Sigma Call.Reply)} {ending : Option (Except Error Unit)}
    (runs : Runs services.answers (init libraries config) world exchanges ending final) :
    (∀ exchange ∈ exchanges, ∀ request, change? exchange.1 ≠ some (.request request)) ∧
    (∀ ended, ending = some ended → ended = .ok ()) ∧
    Ready services libraries config projectId final := by
  have idle := observant.init_idle readable healthy truthful credentials ready known
  refine ⟨fun exchange member => ?_, ?_, ?_⟩
  · obtain ⟨before, after, rfl⟩ := List.append_of_mem member
    obtain ⟨middle, -, asked⟩ := Ensures.asked idle runs
    exact asked
  · rintro ended rfl
    have yielded := idle.runs runs
    cases ended with
    | ok result => rfl
    | error error => exact yielded.elim
  · exact ready.kept (truthful.respected.runs runs)

theorem init_is_idempotent_ready :
    ∃ exchanges final,
      Runs freshStack.answers (init stackLibraries stackConfig) readyStack exchanges
        (some (.ok ())) final ∧
      ∀ exchange ∈ exchanges, ∀ request, change? exchange.1 ≠ some (.request request) := by
  obtain ⟨exchanges, ended, final, runs⟩ :=
    exists_runs freshStack_total (init stackLibraries stackConfig) readyStack
  obtain ⟨idle, ends, -⟩ := init_is_idempotent freshStack_truthful freshStack_healthy
    stackServices_observant stackServices_readable credentials_stackConfig ready_readyStack
    known_readyStack runs
  have returned := ends ended rfl
  subst returned
  exact ⟨exchanges, final, runs, idle⟩

/-- Where the state file can be written, a bootstrap that reports success leaves the project's id
in it, and whatever works after it, with the state file as it is, finds that project: the one its
own environment names if there is one, and the bootstrapped one if not. -/
theorem successful_init_is_remembered (truthful : services.Truthful libraries config)
    (writable : services.Writable) (readable : services.Readable) {path : String}
    (place : libraries.stateFilePath = some path) {world final : World}
    {exchanges : List (Sigma Call.Reply)}
    (runs : Runs services.answers (init libraries config) world exchanges (some (.ok ())) final) :
    ∃ projectId, Ready services libraries config projectId final ∧
      services.file final path = some (libraries.json.toVecPretty (stateDocument projectId)) ∧
      readState libraries (services.file final path) = some projectId ∧
      ∀ (other : LakehouseConfig) (later : World),
        services.file later path = services.file final path →
        ∀ {asked : List (Sigma Call.Reply)} {ended : Except Error String} {after : World},
          Runs services.answers (resolveProjectId libraries other) later asked (some ended) after →
          ended = .ok (other.projectId.getD projectId) := by
  obtain ⟨projectId, ready, written⟩ := (writable.init_saves truthful place world).runs runs
  have read : readState libraries (services.file final path) = some projectId := by
    rw [written, readState_stateDocument]
  refine ⟨projectId, ready, written, read, fun other later same asked ended after resolved => ?_⟩
  have known : services.savedId libraries later = some projectId :=
    Services.savedId_eq_of_readState place (by rw [same, read])
  have yielded := (readable.resolveProjectId_yields truthful known other).runs resolved
  cases ended with
  | ok id => exact congrArg Except.ok yielded
  | error error => exact yielded.elim

theorem successful_init_is_remembered_fresh :
    ∃ projectId final, Ready freshStack stackLibraries stackConfig projectId final ∧
      (∀ {asked : List (Sigma Call.Reply)} {ended : Except Error String} {after : Stack},
        Runs freshStack.answers (resolveProjectId stackLibraries stackConfig) final asked
          (some ended) after → ended = .ok projectId) ∧
      ∀ {asked : List (Sigma Call.Reply)} {ended : Except Error String} {after : Stack},
        Runs freshStack.answers (resolveProjectId stackLibraries
          { stackConfig with projectId := some "another" }) final asked
          (some ended) after → ended = .ok "another" := by
  obtain ⟨exchanges, final, runs, -⟩ := freshStack_init
  obtain ⟨projectId, ready, -, -, resolved⟩ := successful_init_is_remembered freshStack_truthful
    stackServices_writable stackServices_readable rfl runs
  exact ⟨projectId, final, ready, resolved stackConfig final rfl, resolved _ final rfl⟩

end AntiEntropator.Lakehouse
