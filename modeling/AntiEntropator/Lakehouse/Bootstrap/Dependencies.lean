import AntiEntropator.Lakehouse.Bootstrap.Order
import AntiEntropator.Lakehouse.Bootstrap.Safety

/-!
# What a bootstrap builds on

Wherever a run stops, what it has asked for had its place: a warehouse is only
asked for over a bucket and in a project that exist, a namespace in a warehouse,
the table in a namespace, and only the id of a project that exists is saved.
-/

namespace AntiEntropator.Lakehouse

open Dialogue

variable {World : Type} {services : Services World} {libraries : ClientLibraries}
  {config : LakehouseConfig}

/-- What a change builds on is there. -/
structure Founded (services : Services World) (libraries : ClientLibraries)
    (config : LakehouseConfig) (world : World) (change : Change) : Prop where
  saved : ∀ path projectId,
    change = .file path (libraries.json.toVecPretty (stateDocument projectId)) →
    services.holds world (.project projectId)
  warehouse : ∀ projectId, change = .request (createWarehouseRequest config projectId) →
    services.holds world (.bucket (bucketUrl config)) ∧ services.holds world (.project projectId)
  «namespace» : ∀ catalogConfig : CatalogConfigResult,
    change = .request (createNamespaceRequest config catalogConfig) →
    services.holds world (.warehouse catalogConfig.projectId config.warehouse) ∧
    services.holds world
      (.route catalogConfig.projectId config.warehouse catalogConfig.warehousePrefix)
  table : ∀ (catalogConfig : CatalogConfigResult) schemaJson,
    change = .request (createTableRequest config catalogConfig schemaJson) →
    services.holds world
      (.route catalogConfig.projectId config.warehouse catalogConfig.warehousePrefix) ∧
    services.holds world (.namespace catalogConfig.warehousePrefix namespaceName)

def Services.Founding (services : Services World) (libraries : ClientLibraries)
    (config : LakehouseConfig) (world : World) (call : Call) : Prop :=
  ∀ change, change? call = some change → Founded services libraries config world change

theorem founding_of_silent {α : Type} {client : Client α} {failing : Prop}
    {post : α → World → Prop} {world : World}
    (silent : Yields services.answers Silent failing post client world) :
    Yields services.answers (services.Founding libraries config) failing post client world := by
  refine Ensures.mono silent (fun final call asked change same => ?_) fun _ _ holds => holds
  rw [asked] at same
  cases same

theorem createWarehouseRequest_injective {first second : String}
    (same : createWarehouseRequest config first = createWarehouseRequest config second) :
    first = second := by
  simpa [createWarehouseRequest, projectHeader] using (HttpRequest.mk.inj same).2.2.2.1

/-- The path of a warehouse's namespaces has its prefix, and nothing else that varies. -/
theorem namespacesUrl_injective {first second : CatalogConfigResult}
    (same : namespacesUrl config first = namespacesUrl config second) :
    first.warehousePrefix = second.warehousePrefix := by
  rw [namespacesUrl, namespacesUrl] at same
  have texts := congrArg String.toList same
  simp only [String.toList_append, List.append_assoc, List.append_cancel_left_eq] at texts
  exact String.toList_injective (List.append_cancel_right texts)

theorem tablesUrl_injective {first second : CatalogConfigResult}
    (same : tablesUrl config first = tablesUrl config second) :
    first.warehousePrefix = second.warehousePrefix := by
  have texts := congrArg String.toList same
  simp only [tablesUrl, namespaceUrl, String.toList_append, List.append_assoc] at texts
  have base : namespacesUrl config first = namespacesUrl config second :=
    String.toList_injective (List.append_cancel_right texts)
  exact namespacesUrl_injective base

theorem stateDocument_injective {first second : String}
    (same : libraries.json.toVecPretty (stateDocument first) =
      libraries.json.toVecPretty (stateDocument second)) : first = second := by
  have read := congrArg (fun bytes => readState libraries (some bytes)) same
  simpa only [readState_stateDocument, Option.some.injEq] using read

/-! ## What each request builds on -/

theorem founded_bucket {world : World} {instant : DateTime} :
    Founded services libraries config world
      (.request (bucketRequest libraries config instant "PUT")) := by
  constructor <;> simp [bucketRequest, signedS3Request, createWarehouseRequest,
    createNamespaceRequest, createTableRequest]

theorem founded_project {world : World} :
    Founded services libraries config world (.request (createProjectRequest config)) := by
  constructor <;> simp [createProjectRequest, createWarehouseRequest, createNamespaceRequest,
    createTableRequest, buildCreateWarehouseRequest]

theorem founded_saved {world : World} {path projectId : String}
    (project : services.holds world (.project projectId)) :
    Founded services libraries config world
      (.file path (libraries.json.toVecPretty (stateDocument projectId))) where
  saved := fun other id same => by
    obtain ⟨-, bytes⟩ := Change.file.inj same
    rw [← stateDocument_injective bytes]
    exact project
  warehouse := nofun
  «namespace» := nofun
  table := nofun

theorem founded_warehouse {world : World} {projectId : String}
    (bucket : services.holds world (.bucket (bucketUrl config)))
    (project : services.holds world (.project projectId)) :
    Founded services libraries config world
      (.request (createWarehouseRequest config projectId)) where
  saved := nofun
  warehouse := fun id same => by
    rw [← createWarehouseRequest_injective (Change.request.inj same)]
    exact ⟨bucket, project⟩
  «namespace» := by simp [createWarehouseRequest, createNamespaceRequest, buildCreateWarehouseRequest]
  table := by simp [createWarehouseRequest, createTableRequest, buildCreateWarehouseRequest]

theorem founded_namespace {world : World} {catalogConfig : CatalogConfigResult}
    (warehouse : services.holds world (.warehouse catalogConfig.projectId config.warehouse))
    (route : services.holds world
      (.route catalogConfig.projectId config.warehouse catalogConfig.warehousePrefix)) :
    Founded services libraries config world
      (.request (createNamespaceRequest config catalogConfig)) where
  saved := nofun
  warehouse := by simp [createWarehouseRequest, createNamespaceRequest, buildCreateWarehouseRequest]
  «namespace» := fun other same => by
    have parts := HttpRequest.mk.inj (Change.request.inj same)
    have sameProject : catalogConfig.projectId = other.projectId := by
      simpa [projectHeader] using parts.2.2.2.1
    rw [← sameProject, ← namespacesUrl_injective parts.2.1]
    exact ⟨warehouse, route⟩
  table := by simp [createTableRequest, createNamespaceRequest]

theorem founded_table {world : World} {catalogConfig : CatalogConfigResult} {schemaJson : Json}
    (route : services.holds world
      (.route catalogConfig.projectId config.warehouse catalogConfig.warehousePrefix))
    (named : services.holds world (.namespace catalogConfig.warehousePrefix namespaceName)) :
    Founded services libraries config world
      (.request (createTableRequest config catalogConfig schemaJson)) where
  saved := nofun
  warehouse := by simp [createWarehouseRequest, createTableRequest, buildCreateWarehouseRequest]
  «namespace» := by simp [createTableRequest, createNamespaceRequest]
  table := fun other value same => by
    have parts := HttpRequest.mk.inj (Change.request.inj same)
    have sameProject : catalogConfig.projectId = other.projectId := by
      simpa [projectHeader] using parts.2.2.2.1
    rw [← sameProject, ← tablesUrl_injective parts.2.1]
    exact ⟨route, named⟩

namespace Services.Truthful

/-! ## Every step -/

theorem createBucket_founding (truthful : services.Truthful libraries config) (world : World) :
    Yields services.answers (services.Founding libraries config) True
      (fun _ after => services.holds after (.bucket (bucketUrl config)))
      (createBucket libraries config) world := by
  have asking : Yields services.answers (fun _ call => ∀ change, change? call = some change →
        ∃ instant, change = .request (bucketRequest libraries config instant "PUT")) True
      (fun _ after => services.holds after (.bucket (bucketUrl config)))
      (createBucket libraries config) world :=
    createBucket_sends.asking (fun sent ⟨instant, atMost⟩ change member =>
      ⟨instant, List.mem_singleton.mp (atMost.subset member)⟩) (truthful.createBucket_yields world)
  refine Ensures.mono asking (fun final call asked change same => ?_) fun _ _ holds => holds
  obtain ⟨instant, rfl⟩ := asked change same
  exact founded_bucket

theorem findProject_founding (truthful : services.Truthful libraries config) (world : World) :
    Yields services.answers (services.Founding libraries config) True
      (fun id after => services.holds after (.project id)) (findProject libraries config)
      world := by
  have asking : Yields services.answers (fun _ call => ∀ change, change? call = some change →
        change = .request (createProjectRequest config)) True
      (fun id after => services.holds after (.project id)) (findProject libraries config) world :=
    findProject_sends.asking (fun sent atMost change member =>
      List.mem_singleton.mp (atMost.subset member)) (truthful.findProject_yields world)
  refine Ensures.mono asking (fun final call asked change same => ?_) fun _ _ holds => holds
  rw [asked change same]
  exact founded_project

theorem saveProjectIdToState_founding (truthful : services.Truthful libraries config)
    {projectId : String} {world : World} (project : services.holds world (.project projectId)) :
    Yields services.answers (services.Founding libraries config) True (fun _ _ => True)
      (Client.attempt (saveProjectIdToState libraries projectId)) world := by
  have asking : Yields services.answers (fun _ call => ∀ change, change? call = some change →
        change ∈ stateChanges libraries projectId) True (fun _ _ => True)
      (Client.attempt (saveProjectIdToState libraries projectId)) world :=
    (attempt_sends (saveProjectIdToState_sends projectId)).asks
      fun sent atMost change member => atMost.subset member
  refine Ensures.mono (asking.since truthful.respected.among)
    (fun final call ⟨asked, grown⟩ change same => ?_) fun _ _ holds => holds
  have member := asked change same
  unfold stateChanges at member
  split at member
  · rw [List.mem_singleton.mp member]
    exact founded_saved (grown _ project)
  · cases member

theorem ensureWarehouse_founding (truthful : services.Truthful libraries config)
    {projectId : String} {world : World}
    (bucket : services.holds world (.bucket (bucketUrl config)))
    (project : services.holds world (.project projectId)) :
    Yields services.answers (services.Founding libraries config) True
      (fun _ after => services.holds after (.warehouse projectId config.warehouse))
      (ensureWarehouse libraries config projectId) world := by
  have asking : Yields services.answers (fun _ call => ∀ change, change? call = some change →
        change = .request (createWarehouseRequest config projectId)) True
      (fun _ after => services.holds after (.warehouse projectId config.warehouse))
      (ensureWarehouse libraries config projectId) world :=
    (ensureWarehouse_sends projectId).asking (fun sent atMost change member =>
      List.mem_singleton.mp (atMost.subset member)) (truthful.ensureWarehouse_yields projectId world)
  refine Ensures.mono (asking.since truthful.respected.among)
    (fun final call ⟨asked, grown⟩ change same => ?_) fun _ _ holds => holds
  rw [asked change same]
  exact founded_warehouse (grown _ bucket) (grown _ project)

theorem getWarehousePrefix_founding (truthful : services.Truthful libraries config)
    {projectId : String} (known : config.projectId = some projectId) (world : World) :
    Yields services.answers (services.Founding libraries config) True
      (fun result after => result.projectId = projectId ∧
        services.holds after (.route projectId config.warehouse result.warehousePrefix) ∧
        services.Grows world after)
      (getWarehousePrefix libraries config) world := by
  have silent := silent_of_nothing getWarehousePrefix_sends
    (truthful.getWarehousePrefix_yields known world)
  exact ((founding_of_silent silent).reaching truthful.respected).mono
    fun _ _ ⟨⟨same, route⟩, grown⟩ => ⟨same, route, grown⟩

theorem silent_founding (truthful : services.Truthful libraries config) {α : Type}
    {client : Client α} {known : α → Prop} {world : World}
    (sends : Sends change? Nothing known client) :
    Yields services.answers (services.Founding libraries config) True
      (fun _ after => services.Grows world after) client world :=
  ((founding_of_silent (silent_of_nothing sends (yields_free client world))).reaching
    truthful.respected).mono fun _ _ holds => holds.2

theorem change_founding {α : Type} {request : HttpRequest} {text : String}
    {rest : HttpResponse → Client α} {world : World}
    (founded : Founded services libraries config world (.request request))
    (silent : ∀ response, Sends change? Nothing (fun _ => True) (rest response)) :
    Yields services.answers (services.Founding libraries config) True (fun _ _ => True)
      (Client.context text (Client.send request) >>= rest) world := by
  have sent : Yields services.answers (services.Founding libraries config) True
      (fun _ _ => True) (Client.context text (Client.send request)) world := by
    refine Client.yields_context.mpr (Client.yields_send.mpr ⟨fun change same => ?_,
      fun reply after _ => ends_true_iff.mpr fun _ _ => trivial⟩)
    rw [change?] at same
    split at same
    · cases same
      exact founded
    · cases same
      exact founded
    · cases same
    · cases same
  refine sent.bind fun response after _ => ?_
  exact founding_of_silent (silent_of_nothing (silent response) (yields_free _ _))

theorem createNamespace_founding (truthful : services.Truthful libraries config)
    {projectId : String} (known : config.projectId = some projectId) {world : World}
    (warehouse : services.holds world (.warehouse projectId config.warehouse)) :
    Yields services.answers (services.Founding libraries config) True (fun _ _ => True)
      (createNamespace libraries config) world := by
  unfold createNamespace
  refine (truthful.getWarehousePrefix_founding known world).bind
    fun catalogConfig routed ⟨same, route, first⟩ => ?_
  subst same
  refine (truthful.silent_founding (buildClient_sends 10)).bind fun _ connected second => ?_
  refine (truthful.silent_founding (headFinds_sends _ _)).bind fun finds seen third => ?_
  split
  · exact yields_pure.mpr trivial
  · exact change_founding (founded_namespace (third _ (second _ (first _ warehouse)))
      (third _ (second _ route))) fun response => created_sends

theorem createFileCatalogTable_founding (truthful : services.Truthful libraries config)
    {projectId warehousePrefix : String} (known : config.projectId = some projectId)
    {world : World}
    (route : services.holds world (.route projectId config.warehouse warehousePrefix))
    (named : services.holds world (.namespace warehousePrefix namespaceName)) :
    Yields services.answers (services.Founding libraries config) True (fun _ _ => True)
      (createFileCatalogTable libraries config) world := by
  unfold createFileCatalogTable
  refine (truthful.getWarehousePrefix_founding known world).bind
    fun catalogConfig routed ⟨same, otherRoute, first⟩ => ?_
  subst same
  have samePrefix := truthful.route_unique otherRoute (first _ route)
  subst samePrefix
  refine (truthful.silent_founding (buildClient_sends 30)).bind fun _ connected second => ?_
  refine (truthful.silent_founding (headFinds_sends _ _)).bind fun finds seen third => ?_
  split
  · exact yields_pure.mpr trivial
  · refine (truthful.silent_founding (context_sends ofExcept_sends)).bind
      fun schemaJson written fourth => ?_
    exact change_founding (founded_table (fourth _ (third _ (second _ otherRoute)))
      (fourth _ (third _ (second _ (first _ named))))) fun response => created_sends

/-! ## The whole -/

theorem initProject_founding (truthful : services.Truthful libraries config)
    {projectId : String} (known : config.projectId = some projectId) {world : World}
    (bucket : services.holds world (.bucket (bucketUrl config)))
    (project : services.holds world (.project projectId)) :
    Yields services.answers (services.Founding libraries config) True (fun _ _ => True)
      (initProject libraries config projectId) world := by
  unfold initProject
  refine ((truthful.saveProjectIdToState_founding project).reaching truthful.respected).bind
    fun _ saved ⟨_, zeroth⟩ => ?_
  refine (truthful.ensureWarehouse_founding (zeroth _ bucket) (zeroth _ project)).bind
    fun _ housed warehouse => ?_
  refine ((truthful.createNamespace_founding known warehouse).with
    (truthful.createNamespace_yields known housed)).bind
    fun _ spaced ⟨_, warehousePrefix, route, named⟩ => ?_
  refine (truthful.createFileCatalogTable_founding known route named).bind fun _ tabled _ => ?_
  exact founding_of_silent (silent_of_nothing checkTableSchema_sends (yields_free _ _))

theorem init_founding (truthful : services.Truthful libraries config) (world : World) :
    Yields services.answers (services.Founding libraries config) True (fun _ _ => True)
      (init libraries config) world := by
  unfold init
  refine (truthful.silent_founding ofExcept_sends).bind fun _ validated _ => ?_
  refine (truthful.silent_founding (context_sends checkRustfs_sends)).bind fun _ reached _ => ?_
  refine (truthful.silent_founding (context_sends checkCatalog_sends)).bind
    fun _ connected _ => ?_
  refine (truthful.createBucket_founding connected).bind fun _ stored bucket => ?_
  refine ((truthful.findProject_founding stored).reaching truthful.respected).bind
    fun projectId found ⟨project, kept⟩ => ?_
  refine Ensures.mono ((truthful.withProject (some projectId)).initProject_founding rfl
    (kept _ bucket) project) (fun final call founding change same => ?_) fun _ _ holds => holds
  have founded := founding change same
  exact ⟨founded.saved, founded.warehouse, founded.namespace, founded.table⟩

end Services.Truthful

end AntiEntropator.Lakehouse
