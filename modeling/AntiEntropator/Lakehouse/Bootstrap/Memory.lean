import AntiEntropator.Lakehouse.Bootstrap.Repeat

/-!
# What later commands know

`init` keeps the project's id in the state file, where the commands after it
find it.  A project that the environment names comes before it, valid or not.
-/

namespace AntiEntropator.Lakehouse

open Dialogue

variable {World : Type} {services : Services World} {libraries : ClientLibraries}
  {config : LakehouseConfig}

structure Services.Writable (services : Services World) : Prop where
  directory : ∀ {world path reply after},
    services.answers world (.createParents path) reply after → reply = .ok ()
  write : ∀ {world path bytes reply after},
    services.answers world (.writeFile path bytes) reply after → reply = .ok ()

def Unwriting : World → Call → Prop :=
  fun _ call => ∀ change, change? call = some change → ∀ path bytes, change ≠ .file path bytes

theorem Services.Truthful.unwriting (truthful : services.Truthful libraries config) :
    Respected (Asked services.answers Unwriting) fun world after =>
      services.file after = services.file world where
  refl := fun _ => rfl
  trans := fun first second => second.trans first
  answer := fun {world question answer after} answered => by
    funext path
    refine truthful.file_kept answered.2 fun bytes same => ?_
    subst same
    exact answered.1 _ rfl path bytes rfl

theorem Services.Writable.saveProjectIdToState_yields (writable : services.Writable)
    (truthful : services.Truthful libraries config) {path : String}
    (place : libraries.stateFilePath = some path) (projectId : String) (world : World) :
    Yields services.answers Free True
      (fun _ after =>
        services.file after path = some (libraries.json.toVecPretty (stateDocument projectId)))
      (Client.attempt (saveProjectIdToState libraries projectId)) world := by
  have saved : Yields services.answers Free False
      (fun _ after =>
        services.file after path = some (libraries.json.toVecPretty (stateDocument projectId)))
      (saveProjectIdToState libraries projectId) world := by
    unfold saveProjectIdToState
    rw [place]
    have directory : Yields services.answers Free False (fun _ _ => True)
        (Client.context "Failed to create state file directory"
          (Client.demand (.createParents path) id)) world := by
      refine Client.yields_context.mpr (Client.yields_demand.mpr
        ⟨trivial, fun reply after answered => ?_⟩)
      rw [writable.directory answered]
      trivial
    refine directory.bind fun _ made _ => ?_
    refine Client.yields_context.mpr (Client.yields_demand.mpr
      ⟨trivial, fun reply after answered => ?_⟩)
    have written := writable.write answered
    subst written
    exact ends_ok.mpr (truthful.file_written answered)
  refine yields_attempt.mpr (Ensures.mono saved (fun _ _ asked => asked) fun ended after holds => ?_)
  cases ended with
  | ok result => exact holds
  | error error => exact holds.elim

/-- Nothing is written after the id. -/
theorem Services.Writable.initProject_saves (writable : services.Writable)
    (truthful : services.Truthful libraries config) {path : String}
    (place : libraries.stateFilePath = some path) {projectId : String}
    (known : config.projectId = some projectId) (world : World) :
    Yields services.answers Free True
      (fun _ after =>
        services.file after path = some (libraries.json.toVecPretty (stateDocument projectId)))
      (initProject libraries config projectId) world := by
  have request : ∀ request, ∀ change ∈ [Change.request request], ∀ path bytes,
      change ≠ .file path bytes := by
    rintro request change member path bytes rfl
    cases List.mem_singleton.mp member
  have requests : ∀ {allowed : List Change},
      (∀ change ∈ allowed, ∀ path bytes, change ≠ .file path bytes) →
      ∀ sent, AtMost allowed sent → ∀ change ∈ sent, ∀ path bytes, change ≠ .file path bytes :=
    fun requests sent atMost change member => requests change (atMost.subset member)
  unfold initProject
  refine Yields.bind (writable.saveProjectIdToState_yields truthful place projectId world)
    fun _ saved stored => ?_
  have rest : Yields services.answers Unwriting True (fun _ _ => True)
      (do
        let _ ← ensureWarehouse libraries config projectId
        let _ ← createNamespace libraries config
        let _ ← createFileCatalogTable libraries config
        checkTableSchema libraries config) saved := by
    have house : ∀ world, Yields services.answers Unwriting True (fun _ _ => True)
        (ensureWarehouse libraries config projectId) world := fun world =>
      (ensureWarehouse_sends projectId).asks (requests (request _))
    have name : ∀ world, Yields services.answers Unwriting True (fun _ _ => True)
        (createNamespace libraries config) world := fun world =>
      (createNamespace_sends known).asks fun sent ⟨_, _, atMost⟩ =>
        requests (request _) sent atMost
    have table : ∀ world, Yields services.answers Unwriting True (fun _ _ => True)
        (createFileCatalogTable libraries config) world := by
      refine fun world => (createFileCatalogTable_sends known).asks fun sent ⟨_, _, atMost⟩ =>
        requests ?_ sent atMost
      unfold tableChanges
      split
      · exact request _
      · exact List.forall_mem_nil _
    have checked : ∀ world, Yields services.answers Unwriting True (fun _ _ => True)
        (checkTableSchema libraries config) world := fun world =>
      checkTableSchema_sends.asks fun sent none change member => by
        rw [none] at member
        cases member
    exact (house saved).bind fun _ housed _ => (name housed).bind fun _ named _ =>
      (table named).bind fun _ tabled _ => checked tabled
  refine (rest.keeping truthful.unwriting).free.mono fun _ after ⟨_, same⟩ => ?_
  rw [same]
  exact stored

/-- What the state file of the platform names goes before the legacy one. -/
theorem Services.savedId_eq_of_readState {path : String}
    (place : libraries.stateFilePath = some path) {projectId : String} {world : World}
    (saved : readState libraries (services.file world path) = some projectId) :
    services.savedId libraries world = some projectId := by
  rw [Services.savedId, place, Option.bind_some, saved]
  rfl

theorem Services.Readable.resolveProjectId_yields (readable : services.Readable)
    (truthful : services.Truthful libraries config) {projectId : String} {world : World}
    (saved : services.savedId libraries world = some projectId) (other : LakehouseConfig) :
    Yields services.answers Silent False
      (fun id _ => id = other.projectId.getD projectId) (resolveProjectId libraries other)
      world := by
  unfold resolveProjectId
  cases other.projectId with
  | some id => exact yields_pure.mpr rfl
  | none =>
      refine (readable.loadProjectIdFromState_idle truthful world).bind fun id after same => ?_
      rw [same, saved]
      exact yields_pure.mpr rfl

theorem Services.Writable.init_saves (writable : services.Writable)
    (truthful : services.Truthful libraries config) {path : String}
    (place : libraries.stateFilePath = some path) (world : World) :
    Yields services.answers Free True
      (fun _ after => ∃ projectId, Ready services libraries config projectId after ∧
        services.file after path = some (libraries.json.toVecPretty (stateDocument projectId)))
      (init libraries config) world := by
  unfold init
  refine (yields_free _ world).bind fun _ validated _ => ?_
  refine (yields_free _ validated).bind fun _ reached _ => ?_
  refine (yields_free _ reached).bind fun _ connected _ => ?_
  refine Yields.bind (truthful.createBucket_yields connected) fun _ stored bucket => ?_
  refine Yields.bind ((truthful.findProject_yields stored).reaching truthful.respected)
    fun projectId found ⟨project, kept⟩ => ?_
  have behind := truthful.withProject (some projectId)
  have saves := writable.initProject_saves behind place rfl found
  refine ((behind.initProject_yields rfl (kept _ bucket) project).with saves).mono
    fun _ after ⟨ready, saved⟩ => ⟨projectId, ?_, saved⟩
  exact ⟨ready.bucket, ready.project, ready.warehouse, ready.catalog⟩

end AntiEntropator.Lakehouse
