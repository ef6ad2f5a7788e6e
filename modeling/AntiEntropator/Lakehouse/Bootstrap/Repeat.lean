import AntiEntropator.Lakehouse.Bootstrap.Recovery

/-!
# Bootstrapping again

Over a lakehouse that is ready, in the project that is known, `init` finds
everything and asks the services for no change.
-/

namespace AntiEntropator.Lakehouse

open Dialogue

variable {World : Type} {services : Services World} {libraries : ClientLibraries}
  {config : LakehouseConfig}

def Unasking : World → Call → Prop :=
  fun _ call => ∀ request, change? call ≠ some (.request request)

/-- The id that the state files name. -/
def Services.savedId (services : Services World) (libraries : ClientLibraries) (world : World) :
    Option String :=
  libraries.stateFilePath.bind fun path =>
    (readState libraries (services.file world path)).or
      (readState libraries (services.file world legacyStateFile))

/-- Services whose checks find what there is. -/
structure Services.Observant (services : Services World) (libraries : ClientLibraries)
    (config : LakehouseConfig) : Prop where
  bucket_head : ∀ {world instant reply after},
    services.holds world (.bucket (bucketUrl config)) →
    services.answers world (.send (bucketRequest libraries config instant "HEAD")) reply after →
    Responds (fun response => response.isSuccess = true) reply
  project_get : ∀ {world projectId reply after},
    services.holds world (.project projectId) →
    services.answers world (.send (verifyProjectRequest config projectId)) reply after →
    Responds (fun response => response.isSuccess = true) reply
  warehouse_list : ∀ {world projectId reply after},
    services.holds world (.project projectId) →
    services.holds world (.warehouse projectId config.warehouse) →
    services.answers world (.send (listWarehousesRequest config projectId)) reply after →
    Responds (fun response => response.isSuccess = true ∧
      ∃ names, response.json libraries readWarehouseNames = .ok names ∧ config.warehouse ∈ names)
      reply
  namespace_head : ∀ {world} {catalogConfig : CatalogConfigResult} {reply after},
    services.holds world (.namespace catalogConfig.warehousePrefix namespaceName) →
    services.answers world (.send (headRequest (namespaceUrl config catalogConfig)
      catalogConfig.projectId)) reply after →
    Responds (fun response => response.isSuccess = true) reply
  table_head : ∀ {world} {catalogConfig : CatalogConfigResult} {schema reply after},
    services.holds world (catalogTable catalogConfig.warehousePrefix schema) →
    services.answers world (.send (headRequest (tableUrl config catalogConfig)
      catalogConfig.projectId)) reply after →
    Responds (fun response => response.isSuccess = true) reply

def Services.Readable (services : Services World) : Prop :=
  ∀ {world path reply after}, services.answers world (.readFile path) reply after →
    reply = services.file world path

/-! ## Steps that only look -/

theorem looked {answers : Answers World Call.Reply} {accepts : HttpResponse → Prop}
    {request : HttpRequest} {world : World} (reading : change? (.send request) = none)
    (responds : ∀ reply after, answers world (.send request) reply after →
      Responds accepts reply) :
    Yields answers Silent False (fun reply _ => Responds accepts reply)
      (Client.attempt (Client.send request)) world := by
  refine yields_attempt.mpr ⟨reading, fun reply after answered => ?_⟩
  have responded := responds reply after answered
  cases reply with
  | ok response => exact responded
  | error error => exact responded

theorem succeeded_of_responds {reply : Except Error HttpResponse}
    (responds : Responds (fun response => response.isSuccess = true) reply) :
    succeeded reply = true := succeeded_iff.mpr responds

theorem Services.Truthful.files (truthful : services.Truthful libraries config) :
    Respected (Asked services.answers Silent) fun world after =>
      services.file after = services.file world where
  refl := fun _ => rfl
  trans := fun first second => second.trans first
  answer := fun {world question answer after} answered => by
    funext path
    refine truthful.file_kept answered.2 fun bytes same => ?_
    subst same
    cases answered.1

theorem Services.Truthful.silent (truthful : services.Truthful libraries config) :
    Respected (Asked services.answers Silent) fun world after =>
      services.Grows world after ∧ services.file after = services.file world :=
  truthful.respected.among.and truthful.files

theorem Services.Truthful.unasking (truthful : services.Truthful libraries config) {α : Type}
    {client : Client α} {post : α → World → Prop} {world : World}
    (silent : Yields services.answers Silent False post client world) :
    Yields services.answers Unasking False
      (fun result after => post result after ∧ services.Grows world after ∧
        services.file after = services.file world) client world := by
  refine Ensures.mono (silent.keeping truthful.silent) (fun _ _ asked request same => ?_)
    fun ended final holds => holds
  rw [asked] at same
  cases same

theorem Ready.kept {projectId : String} {world after : World}
    (ready : Ready services libraries config projectId world)
    (grown : services.Grows world after) : Ready services libraries config projectId after := by
  obtain ⟨bucket, project, warehouse, warehousePrefix, schema, route, named, table, accepted⟩ :=
    ready
  exact ⟨grown _ bucket, grown _ project, grown _ warehouse, warehousePrefix, schema,
    grown _ route, grown _ named, grown _ table, accepted⟩

theorem Services.Readable.loadProjectIdFromState_idle (readable : services.Readable)
    (truthful : services.Truthful libraries config) (world : World) :
    Yields services.answers Silent False (fun id _ => id = services.savedId libraries world)
      (loadProjectIdFromState libraries) world := by
  have loaded : ∀ path world, Yields services.answers Silent False
      (fun id after => id = readState libraries (services.file world path) ∧
        services.file after = services.file world)
      (loadStateFromPath libraries path) world := by
    intro path world
    have read : Yields services.answers Silent False
        (fun content _ => content = services.file world path)
        (Dialogue.query (Call.readFile path) : Client (Option (List UInt8))) world :=
      yields_query.mpr ⟨rfl, fun _ _ answered => readable answered⟩
    refine (read.keeping truthful.files).bind fun content after ⟨same, kept⟩ => ?_
    exact yields_pure.mpr ⟨by rw [same], kept⟩
  unfold loadProjectIdFromState Services.savedId
  cases libraries.stateFilePath with
  | none => exact yields_pure.mpr rfl
  | some path =>
      refine (loaded path world).bind fun id after ⟨same, kept⟩ => ?_
      rw [Option.bind_some, ← same, ← kept]
      cases id with
      | some id => exact yields_pure.mpr rfl
      | none => exact (loaded legacyStateFile after).mono fun _ _ holds => holds.1

namespace Services.Observant

theorem buildClient_idle (healthy : services.Healthy libraries config)
    (truthful : services.Truthful libraries config) (seconds : Nat) (world : World) :
    Yields services.answers Silent False
      (fun _ after => services.Grows world after ∧ services.file after = services.file world)
      (Client.buildClient seconds) world :=
  ((silent_of_nothing (buildClient_sends seconds)
    (healthy.buildClient_alive seconds world)).keeping truthful.silent).mono fun _ _ holds => holds.2

theorem createBucket_idle (observant : services.Observant libraries config)
    (healthy : services.Healthy libraries config) (truthful : services.Truthful libraries config)
    {world : World} (bucket : services.holds world (.bucket (bucketUrl config))) :
    Yields services.answers Silent False (fun _ _ => True) (createBucket libraries config)
      world := by
  unfold createBucket
  refine (buildClient_idle healthy truthful 10 world).bind fun _ connected ⟨kept, _⟩ => ?_
  have found : Yields services.answers Silent False (fun reply _ => succeeded reply = true)
      (Client.attempt (sendSignedS3 libraries config "HEAD" (bucketUrl config)
        (s3HostFromEndpoint config.s3Endpoint) ("/" ++ config.bucket))) connected := by
    refine ⟨rfl, fun instant read told => ?_⟩
    have there := truthful.kept told (kept _ bucket)
    exact (looked rfl fun _ _ answered => observant.bucket_head there answered).mono
      fun _ _ => succeeded_of_responds
  refine found.bind fun reply after success => ?_
  rw [if_pos success]
  exact yields_pure.mpr trivial

theorem findProject_idle (observant : services.Observant libraries config)
    (readable : services.Readable) (healthy : services.Healthy libraries config) (truthful : services.Truthful libraries config)
    {projectId : String} {world : World} (project : services.holds world (.project projectId))
    (known : config.projectId.or (services.savedId libraries world) = some projectId) :
    Yields services.answers Silent False (fun id _ => id = projectId)
      (findProject libraries config) world := by
  unfold findProject
  refine ((readable.loadProjectIdFromState_idle truthful world).keeping truthful.silent).bind
    fun loadedId loaded ⟨same, kept, _⟩ => ?_
  rw [same, known]
  have verified : Yields services.answers Silent False (fun valid _ => valid = true)
      (verifyProjectExists config projectId) loaded := by
    unfold verifyProjectExists
    have built : Yields services.answers Silent False
        (fun ended after => ended = .ok () ∧ services.Grows loaded after)
        (Client.attempt (Client.buildClient 5)) loaded := by
      refine yields_attempt.mpr (Ensures.mono (buildClient_idle healthy truthful 5 loaded)
        (fun _ _ asked => asked) fun ended after holds => ?_)
      cases ended with
      | ok result => exact ⟨rfl, holds.1⟩
      | error error => exact holds.elim
    refine built.bind fun ended connected ⟨same, grown⟩ => ?_
    subst same
    refine (looked rfl fun _ _ answered =>
      observant.project_get (grown _ (kept _ project)) answered).bind fun reply after responds => ?_
    exact yields_pure.mpr (succeeded_of_responds responds)
  refine verified.bind fun valid after found => ?_
  rw [if_pos found]
  exact yields_pure.mpr rfl

theorem ensureWarehouse_idle (observant : services.Observant libraries config)
    (healthy : services.Healthy libraries config) (truthful : services.Truthful libraries config)
    {projectId : String} {world : World} (project : services.holds world (.project projectId))
    (warehouse : services.holds world (.warehouse projectId config.warehouse)) :
    Yields services.answers Silent False (fun _ _ => True)
      (ensureWarehouse libraries config projectId) world := by
  unfold ensureWarehouse
  refine (buildClient_idle healthy truthful 10 world).bind fun _ connected ⟨kept, _⟩ => ?_
  have listed : Yields services.answers Silent False
      (fun response _ => response.isSuccess = true ∧
        ∃ names, response.json libraries readWarehouseNames = .ok names ∧
          config.warehouse ∈ names)
      (Client.context "Failed to list warehouses"
        (Client.send (listWarehousesRequest config projectId))) connected := by
    refine Client.yields_context.mpr (Client.yields_send.mpr ⟨rfl, fun reply after answered => ?_⟩)
    obtain ⟨response, rfl, accepted⟩ :=
      observant.warehouse_list (kept _ project) (kept _ warehouse) answered
    exact accepted
  refine listed.bind fun response after ⟨success, names, read, member⟩ => ?_
  have named : Yields services.answers Silent False (fun result _ => result = names)
      (listedWarehouses libraries response) after := by
    unfold listedWarehouses
    rw [if_pos success, Client.yields_context, yields_ofExcept, read]
    exact rfl
  refine named.bind fun result final same => ?_
  rw [same, if_pos member]
  exact yields_pure.mpr trivial

theorem headFinds_idle {url projectId : String} {world : World}
    (found : ∀ reply after, services.answers world (.send (headRequest url projectId)) reply after →
      Responds (fun response => response.isSuccess = true) reply) :
    Yields services.answers Silent False (fun finds _ => finds = true) (headFinds url projectId)
      world :=
  (looked rfl found).bind fun _ _ responds => yields_pure.mpr (succeeded_of_responds responds)

theorem getWarehousePrefix_idle (healthy : services.Healthy libraries config)
    (truthful : services.Truthful libraries config) {projectId warehousePrefix : String}
    (known : config.projectId = some projectId) {world : World}
    (warehouse : services.holds world (.warehouse projectId config.warehouse))
    (route : services.holds world (.route projectId config.warehouse warehousePrefix)) :
    Yields services.answers Silent False
      (fun result after => result.warehousePrefix = warehousePrefix ∧ services.Grows world after)
      (getWarehousePrefix libraries config) world := by
  refine (silent_of_nothing getWarehousePrefix_sends
    (healthy.getWarehousePrefix_routes truthful (resolves_of_known known world) warehouse)).mono
    fun result after ⟨_, otherRoute, grown⟩ => ?_
  exact ⟨truthful.route_unique otherRoute (grown _ route), grown⟩

theorem createNamespace_idle (observant : services.Observant libraries config)
    (healthy : services.Healthy libraries config) (truthful : services.Truthful libraries config)
    {projectId warehousePrefix : String} (known : config.projectId = some projectId) {world : World}
    (warehouse : services.holds world (.warehouse projectId config.warehouse))
    (route : services.holds world (.route projectId config.warehouse warehousePrefix))
    (named : services.holds world (.namespace warehousePrefix namespaceName)) :
    Yields services.answers Silent False (fun _ _ => True) (createNamespace libraries config)
      world := by
  unfold createNamespace
  refine (getWarehousePrefix_idle healthy truthful known warehouse route).bind
    fun catalogConfig routed ⟨same, grown⟩ => ?_
  subst same
  refine (buildClient_idle healthy truthful 10 routed).bind fun _ connected ⟨kept, _⟩ => ?_
  refine (headFinds_idle fun _ _ answered =>
    observant.namespace_head (kept _ (grown _ named)) answered).bind fun finds after found => ?_
  rw [if_pos found]
  exact yields_pure.mpr trivial

theorem createFileCatalogTable_idle (observant : services.Observant libraries config)
    (healthy : services.Healthy libraries config) (truthful : services.Truthful libraries config)
    {projectId warehousePrefix : String} {schema : Schema}
    (known : config.projectId = some projectId) {world : World}
    (warehouse : services.holds world (.warehouse projectId config.warehouse))
    (route : services.holds world (.route projectId config.warehouse warehousePrefix))
    (table : services.holds world (catalogTable warehousePrefix schema)) :
    Yields services.answers Silent False (fun _ _ => True)
      (createFileCatalogTable libraries config) world := by
  unfold createFileCatalogTable
  refine (getWarehousePrefix_idle healthy truthful known warehouse route).bind
    fun catalogConfig routed ⟨same, grown⟩ => ?_
  subst same
  refine (buildClient_idle healthy truthful 30 routed).bind fun _ connected ⟨kept, _⟩ => ?_
  refine (headFinds_idle fun _ _ answered =>
    observant.table_head (kept _ (grown _ table)) answered).bind fun finds after found => ?_
  rw [if_pos found]
  exact yields_pure.mpr trivial

theorem withProject (observant : services.Observant libraries config)
    (projectId : Option String) : services.Observant libraries { config with projectId } where
  bucket_head := observant.bucket_head
  project_get := observant.project_get
  warehouse_list := observant.warehouse_list
  namespace_head := observant.namespace_head
  table_head := observant.table_head

/-! ## The whole -/

/-- Only the state file is written again. -/
theorem initProject_idle (observant : services.Observant libraries config)
    (healthy : services.Healthy libraries config) (truthful : services.Truthful libraries config)
    {projectId : String} (known : config.projectId = some projectId) {world : World}
    (ready : Ready services libraries config projectId world) :
    Yields services.answers Unasking False (fun _ _ => True)
      (initProject libraries config projectId) world := by
  obtain ⟨-, project, warehouse, warehousePrefix, schema, route, named, table, accepted⟩ := ready
  have saved : Yields services.answers Unasking False (fun _ after => services.Grows world after)
      (Client.attempt (saveProjectIdToState libraries projectId)) world := by
    have files : Yields services.answers
        (fun _ call => ∀ item, change? call = some item → ∀ request, item ≠ .request request) False
        (fun _ after => services.Grows world after)
        (Client.attempt (saveProjectIdToState libraries projectId)) world := by
      refine (attempt_sends (saveProjectIdToState_sends projectId)).asking
        (fun sent saved item member request same => ?_)
        (((attempt_alive _ world).reaching truthful.respected).mono fun _ _ holds => holds.2)
      have allowed := saved.subset member
      unfold stateChanges at allowed
      split at allowed <;> simp [same] at allowed
    exact Ensures.mono files (fun _ _ asked request same => asked _ same request rfl)
      fun _ _ holds => holds
  unfold initProject
  refine saved.bind fun _ saved zeroth => ?_
  refine (truthful.unasking (observant.ensureWarehouse_idle healthy truthful (zeroth _ project)
    (zeroth _ warehouse))).bind fun _ housed ⟨_, first, _⟩ => ?_
  have heldAfter : ∀ resource, services.holds world resource → services.holds housed resource :=
    fun resource held => first _ (zeroth _ held)
  refine (truthful.unasking (observant.createNamespace_idle healthy truthful known
    (heldAfter _ warehouse) (heldAfter _ route) (heldAfter _ named))).bind
    fun _ spaced ⟨_, second, _⟩ => ?_
  refine (truthful.unasking (observant.createFileCatalogTable_idle healthy truthful known
    (second _ (heldAfter _ warehouse)) (second _ (heldAfter _ route))
    (second _ (heldAfter _ table)))).bind fun _ tabled ⟨_, third, _⟩ => ?_
  have later : ∀ resource, services.holds world resource → services.holds tabled resource :=
    fun resource held => third _ (second _ (heldAfter _ held))
  exact (truthful.unasking (silent_of_nothing checkTableSchema_sends
    (healthy.checkTableSchema_alive truthful (resolves_of_known known tabled) (later _ warehouse)
      (later _ route) (later _ table) accepted))).mono fun _ _ _ => trivial

theorem init_idle (observant : services.Observant libraries config)
    (readable : services.Readable) (healthy : services.Healthy libraries config) (truthful : services.Truthful libraries config)
    (credentials : validateS3Credentials config = .ok ()) {projectId : String} {world : World}
    (ready : Ready services libraries config projectId world)
    (known : config.projectId.or (services.savedId libraries world) = some projectId) :
    Yields services.answers Unasking False (fun _ _ => True) (init libraries config) world := by
  unfold init
  rw [credentials]
  refine yields_bind.mpr (yields_ofExcept.mpr (ends_ok.mpr ?_))
  have rustfs := silent_of_nothing checkRustfs_sends (healthy.checkRustfs_alive world)
  refine Yields.bind (Client.yields_context.mpr (truthful.unasking rustfs))
    fun _ reached ⟨_, first, fileFirst⟩ => ?_
  have catalog := silent_of_nothing checkCatalog_sends (healthy.checkCatalog_alive reached)
  refine Yields.bind (Client.yields_context.mpr (truthful.unasking catalog))
    fun _ connected ⟨_, second, fileSecond⟩ => ?_
  have connectedReady := (ready.kept first).kept second
  refine (truthful.unasking (observant.createBucket_idle healthy truthful
    connectedReady.bucket)).bind fun _ stored ⟨_, third, fileThird⟩ => ?_
  have storedReady := connectedReady.kept third
  have sameFiles : services.file stored = services.file world :=
    fileThird.trans (fileSecond.trans fileFirst)
  have stillKnown : config.projectId.or (services.savedId libraries stored) = some projectId := by
    rw [Services.savedId, sameFiles]
    exact known
  refine (truthful.unasking (observant.findProject_idle readable healthy truthful
    storedReady.project stillKnown)).bind fun id found ⟨same, fourth, _⟩ => ?_
  subst same
  have foundReady := storedReady.kept fourth
  exact (observant.withProject (some id)).initProject_idle (healthy.withProject (some id))
    (truthful.withProject (some id)) rfl
    ⟨foundReady.bucket, foundReady.project, foundReady.warehouse, foundReady.catalog⟩

end Services.Observant

end AntiEntropator.Lakehouse
