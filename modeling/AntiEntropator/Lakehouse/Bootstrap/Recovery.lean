import AntiEntropator.Lakehouse.Bootstrap.Order
import AntiEntropator.Lakehouse.Bootstrap.Safety

/-!
# Recovering a bootstrap

Once the services answer as they should, `init` succeeds from whatever earlier
runs left behind, unless a table is in its place that ingest would refuse.
-/

namespace AntiEntropator.Lakehouse

open Dialogue

variable {World : Type} {services : Services World} {libraries : ClientLibraries}
  {config : LakehouseConfig}

def Services.within (services : Services World) (answers : Answers World Call.Reply) :
    Services World :=
  { services with answers }

/-- The response to a request, if it is one of these. -/
def Responds (accepts : HttpResponse → Prop) (reply : Except Error HttpResponse) : Prop :=
  ∃ response, reply = .ok response ∧ accepts response

/-- A project's id can be taken from the answer to the request for it: a conflict names it. -/
def NamesProject (libraries : ClientLibraries) (response : HttpResponse) : Prop :=
  ((response.status = 200 ∨ response.status = 201) ∧
    ∃ id, response.json libraries readProjectResponse = .ok id) ∨
  response.status = 409 ∧
    ∃ id, (getMember "project-id" (response.jsonOrNull libraries)).bind Ingest.readString = some id

/-- Services that are up and answer what they are asked. -/
structure Services.Healthy (services : Services World) (libraries : ClientLibraries)
    (config : LakehouseConfig) : Prop where
  client : ∀ {world seconds reply after},
    services.answers world (.buildClient seconds) reply after → reply = .ok ()
  rustfs : ∀ {world reply after},
    services.answers world (.send (rustfsRequest config)) reply after →
    Responds (fun response => rustfsStatusIsReachable response = true) reply
  lakekeeper : ∀ {world reply after},
    services.answers world (.send (swaggerRequest config)) reply after →
    Responds (fun response => response.isSuccess = true) reply
  bucket_put : ∀ {world instant reply after},
    services.answers world (.send (bucketRequest libraries config instant "PUT")) reply after →
    Responds (fun response => response.isSuccess = true ∨ response.status = 409) reply
  project_post : ∀ {world reply after},
    services.answers world (.send (createProjectRequest config)) reply after →
    Responds (NamesProject libraries) reply
  warehouse_list : ∀ {world projectId reply after},
    services.holds world (.project projectId) →
    services.answers world (.send (listWarehousesRequest config projectId)) reply after →
    Responds (fun response => response.isSuccess = true ∧
      ∃ names, response.json libraries readWarehouseNames = .ok names) reply
  warehouse_post : ∀ {world projectId reply after},
    services.holds world (.project projectId) →
    services.answers world (.send (createWarehouseRequest config projectId)) reply after →
    Responds HttpResponse.Settled reply
  endpoint : ∀ projectId, ∃ request, catalogConfigRequest libraries config projectId = .ok request
  route_get : ∀ {world projectId request reply after},
    services.holds world (.warehouse projectId config.warehouse) →
    catalogConfigRequest libraries config projectId = .ok request →
    services.answers world (.send request) reply after →
    Responds (fun response => response.isSuccess = true ∧
      ∃ defaults overrides warehousePrefix,
        response.json libraries readCatalogConfig = .ok (defaults, overrides) ∧
        mapGet "prefix" defaults = some warehousePrefix) reply
  namespace_post : ∀ {world} {catalogConfig : CatalogConfigResult} {reply after},
    services.holds world
      (.route catalogConfig.projectId config.warehouse catalogConfig.warehousePrefix) →
    services.answers world (.send (createNamespaceRequest config catalogConfig)) reply after →
    Responds HttpResponse.Settled reply
  schema_value : ∃ schemaJson, libraries.schemaToValue buildFileCatalogSchema = .ok schemaJson
  table_post : ∀ {world} {catalogConfig : CatalogConfigResult} {schemaJson reply after},
    services.holds world (.namespace catalogConfig.warehousePrefix namespaceName) →
    services.answers world (.send (createTableRequest config catalogConfig schemaJson)) reply
      after → Responds HttpResponse.Settled reply
  catalog_load : ∀ {world name properties reply after},
    services.answers world (.loadCatalog name properties) reply after → reply = .ok ()
  table_load : ∀ {world} {catalogConfig : CatalogConfigResult} {schema reply after},
    services.holds world (catalogTable catalogConfig.warehousePrefix schema) →
    services.answers world (.loadTable (buildRestCatalogProps config catalogConfig) namespaceName
      fileCatalogTable) reply after → reply = .ok schema

/-! ## Every step gets through -/

theorem sent_alive {answers : Answers World Call.Reply} {accepts : HttpResponse → Prop}
    {request : HttpRequest} {world : World} (text : String)
    (responds : ∀ reply after, answers world (.send request) reply after →
      Responds accepts reply) :
    Yields answers Free False
      (fun response after => accepts response ∧ answers world (.send request) (.ok response) after)
      (Client.context text (Client.send request)) world := by
  refine Client.yields_context.mpr (Client.yields_send.mpr ⟨trivial, fun reply after answered => ?_⟩)
  obtain ⟨response, rfl, accepted⟩ := responds reply after answered
  exact ⟨accepted, answered⟩

theorem attempt_alive {α : Type} {answers : Answers World Call.Reply} (client : Client α)
    (world : World) :
    Yields answers Free False (fun _ _ => True) (Client.attempt client) world :=
  (yields_free client world).attempt.mono fun _ _ _ => trivial

theorem headFinds_alive {answers : Answers World Call.Reply} (url projectId : String)
    (world : World) :
    Yields answers Free False (fun _ _ => True) (headFinds url projectId) world :=
  (attempt_alive _ world).bind fun _ _ _ => yields_pure.mpr trivial

theorem created_alive {answers : Answers World Call.Reply} {text : String}
    {response : HttpResponse} {world : World} (settled : response.Settled) :
    Yields answers Free False (fun _ _ => True) (created libraries text response) world := by
  unfold created
  split
  next => exact yields_pure.mpr trivial
  next unsuccessful =>
    rw [if_pos (by unfold HttpResponse.Settled at settled; tauto)]
    exact yields_pure.mpr trivial

/-- The project that is worked in is this one. -/
def Resolves (services : Services World) (libraries : ClientLibraries) (config : LakehouseConfig)
    (projectId : String) (world : World) : Prop :=
  Yields services.answers Free False
    (fun id after => id = projectId ∧ services.Grows world after)
    (resolveProjectId libraries config) world

theorem resolves_of_known {projectId : String} (known : config.projectId = some projectId)
    (world : World) : Resolves services libraries config projectId world := by
  unfold Resolves resolveProjectId
  rw [known]
  exact yields_pure.mpr ⟨rfl, fun _ held => held⟩

namespace Services.Healthy

theorem buildClient_alive (healthy : services.Healthy libraries config) (seconds : Nat)
    (world : World) :
    Yields services.answers Free False (fun _ after =>
      services.answers world (.buildClient seconds) (.ok ()) after)
      (Client.buildClient seconds) world := by
  refine Client.yields_demand.mpr ⟨trivial, fun reply after answered => ?_⟩
  have built := healthy.client answered
  subst built
  exact answered

theorem checkRustfs_alive (healthy : services.Healthy libraries config) (world : World) :
    Yields services.answers Free False (fun _ _ => True) (checkRustfs libraries config) world := by
  unfold checkRustfs
  refine (healthy.buildClient_alive 5 world).bind fun _ connected _ => ?_
  refine (sent_alive _ fun _ _ answered => healthy.rustfs answered).bind fun response after held => ?_
  rw [if_pos held.1]
  exact yields_pure.mpr trivial

theorem checkCatalog_alive (healthy : services.Healthy libraries config) (world : World) :
    Yields services.answers Free False (fun _ _ => True) (checkCatalog libraries config) world := by
  unfold checkCatalog
  refine (healthy.buildClient_alive 5 world).bind fun _ connected _ => ?_
  refine (sent_alive _ fun _ _ answered => healthy.lakekeeper answered).bind
    fun response after held => ?_
  rw [if_pos held.1]
  exact yields_pure.mpr trivial

theorem createBucket_alive (healthy : services.Healthy libraries config) (world : World) :
    Yields services.answers Free False (fun _ _ => True) (createBucket libraries config) world := by
  unfold createBucket
  refine (healthy.buildClient_alive 10 world).bind fun _ connected _ => ?_
  refine (attempt_alive _ connected).bind fun head seen _ => ?_
  split
  next => exact yields_pure.mpr trivial
  next =>
    have put : Yields services.answers Free False
        (fun response _ => response.isSuccess = true ∨ response.status = 409)
        (Client.context "Failed to create bucket" (sendSignedS3 libraries config "PUT"
          (bucketUrl config) (s3HostFromEndpoint config.s3Endpoint) ("/" ++ config.bucket)))
        seen := by
      refine Client.yields_context.mpr ((yields_sendSignedS3 libraries config).mpr
        ⟨trivial, fun instant read _ => ?_⟩)
      refine Client.yields_send.mpr ⟨trivial, fun reply after answered => ?_⟩
      obtain ⟨response, rfl, accepted⟩ := healthy.bucket_put answered
      exact accepted
    refine put.bind fun response after settled => ?_
    split
    next => exact yields_pure.mpr trivial
    next unsuccessful =>
      rw [if_pos (settled.resolve_left unsuccessful)]
      exact yields_pure.mpr trivial

theorem ensureProject_alive (healthy : services.Healthy libraries config) (world : World) :
    Yields services.answers Free False (fun _ _ => True) (ensureProject libraries config) world := by
  unfold ensureProject
  refine (healthy.buildClient_alive 10 world).bind fun _ connected _ => ?_
  refine (sent_alive _ fun _ _ answered => healthy.project_post answered).bind
    fun response after ⟨named, _⟩ => ?_
  rcases named with ⟨success, id, read⟩ | ⟨conflict, id, read⟩
  · rw [if_pos success, yields_bind, Client.yields_context, yields_ofExcept, read]
    exact yields_pure.mpr trivial
  · rw [if_neg (by omega), if_pos conflict]
    dsimp only
    rw [read]
    exact yields_pure.mpr trivial

theorem findProject_alive (healthy : services.Healthy libraries config) (world : World) :
    Yields services.answers Free False (fun _ _ => True) (findProject libraries config) world := by
  have ensured : ∀ world, Yields services.answers Free False (fun _ _ => True)
      (ensureProject libraries config >>= fun project => pure project.1) world :=
    fun world => (healthy.ensureProject_alive world).bind fun _ _ _ => yields_pure.mpr trivial
  have read : ∀ path world, Yields services.answers Free False (fun _ _ => True)
      (loadStateFromPath libraries path) world :=
    fun path world => yields_bind.mpr (yields_query.mpr ⟨trivial, fun _ _ _ => trivial⟩)
  have loaded : Yields services.answers Free False (fun _ _ => True)
      (loadProjectIdFromState libraries) world := by
    unfold loadProjectIdFromState
    split
    · refine (read _ world).bind fun id after _ => ?_
      split
      · exact yields_pure.mpr trivial
      · exact read _ after
    · exact yields_pure.mpr trivial
  unfold findProject
  refine loaded.bind fun loadedId known _ => ?_
  split
  next id _ =>
    have verified : Yields services.answers Free False (fun _ _ => True)
        (verifyProjectExists config id) known := by
      unfold verifyProjectExists
      refine (attempt_alive _ known).bind fun built connected _ => ?_
      split
      · exact yields_pure.mpr trivial
      · exact (attempt_alive _ connected).bind fun _ _ _ => yields_pure.mpr trivial
    refine verified.bind fun valid checked _ => ?_
    split
    · exact yields_pure.mpr trivial
    · exact ensured checked
  next => exact ensured known

theorem ensureWarehouse_alive (healthy : services.Healthy libraries config)
    (truthful : services.Truthful libraries config) {projectId : String} {world : World}
    (project : services.holds world (.project projectId)) :
    Yields services.answers Free False (fun _ _ => True)
      (ensureWarehouse libraries config projectId) world := by
  unfold ensureWarehouse
  refine (healthy.buildClient_alive 10 world).bind fun _ connected built => ?_
  have stillThere := truthful.kept built project
  refine (sent_alive _ fun _ _ answered => healthy.warehouse_list stillThere answered).bind
    fun list listed ⟨⟨success, names, read⟩, answered⟩ => ?_
  have there := truthful.kept answered stillThere
  have named : Yields services.answers Free False
      (fun result after => result = names ∧ after = listed) (listedWarehouses libraries list)
      listed := by
    unfold listedWarehouses
    rw [if_pos success, Client.yields_context, yields_ofExcept, read]
    exact ⟨rfl, rfl⟩
  refine named.bind ?_
  rintro _ _ ⟨rfl, rfl⟩
  split
  next => exact yields_pure.mpr trivial
  next =>
    refine (sent_alive _ fun _ _ answered => healthy.warehouse_post there answered).bind
      fun response after settled => ?_
    exact created_alive settled.1

theorem getWarehousePrefix_alive (healthy : services.Healthy libraries config)
    (truthful : services.Truthful libraries config) {projectId : String} {world : World}
    (resolves : Resolves services libraries config projectId world)
    (warehouse : services.holds world (.warehouse projectId config.warehouse)) :
    Yields services.answers Free False (fun result _ => result.projectId = projectId)
      (getWarehousePrefix libraries config) world := by
  unfold getWarehousePrefix
  refine resolves.bind fun id resolved ⟨same, grown⟩ => ?_
  subst same
  refine (healthy.buildClient_alive 10 _).bind fun _ connected built => ?_
  obtain ⟨request, url⟩ := healthy.endpoint id
  rw [url]
  refine yields_bind.mpr (yields_ofExcept.mpr (ends_ok.mpr ?_))
  have there := truthful.kept built (grown _ warehouse)
  refine (sent_alive _ fun _ _ answered => healthy.route_get there url answered).bind
    fun response after ⟨⟨success, defaults, overrides, warehousePrefix, read, found⟩, _⟩ => ?_
  rw [if_pos success, yields_bind, Client.yields_context, yields_ofExcept, read]
  refine ends_ok.mpr ?_
  dsimp only
  rw [found]
  exact yields_pure.mpr rfl

theorem getWarehousePrefix_routes (healthy : services.Healthy libraries config)
    (truthful : services.Truthful libraries config) {projectId : String} {world : World}
    (resolves : Resolves services libraries config projectId world)
    (warehouse : services.holds world (.warehouse projectId config.warehouse)) :
    Yields services.answers Free False
      (fun result after => result.projectId = projectId ∧
        services.holds after (.route projectId config.warehouse result.warehousePrefix) ∧
        services.Grows world after)
      (getWarehousePrefix libraries config) world := by
  have found := (truthful.getWarehousePrefix_finds world).reaching truthful.respected
  refine ((healthy.getWarehousePrefix_alive truthful resolves warehouse).with found).mono
    fun result after ⟨same, ⟨_, route⟩, grown⟩ => ?_
  subst same
  exact ⟨rfl, route, grown⟩

theorem createNamespace_alive (healthy : services.Healthy libraries config)
    (truthful : services.Truthful libraries config) {projectId : String}
    (known : config.projectId = some projectId) {world : World}
    (warehouse : services.holds world (.warehouse projectId config.warehouse)) :
    Yields services.answers Free False (fun _ _ => True) (createNamespace libraries config)
      world := by
  unfold createNamespace
  refine (healthy.getWarehousePrefix_routes truthful (resolves_of_known known world) warehouse).bind
    fun catalogConfig routed ⟨same, route, _⟩ => ?_
  subst same
  refine (healthy.buildClient_alive 10 routed).bind fun _ connected built => ?_
  refine Yields.bind ((headFinds_alive _ _ connected).reaching truthful.respected)
    fun finds seen ⟨_, kept⟩ => ?_
  have there := kept _ (truthful.kept built route)
  split
  next => exact yields_pure.mpr trivial
  next =>
    refine (sent_alive _ fun _ _ answered => healthy.namespace_post there answered).bind
      fun response after settled => ?_
    exact created_alive settled.1

theorem createFileCatalogTable_alive (healthy : services.Healthy libraries config)
    (truthful : services.Truthful libraries config) {projectId warehousePrefix : String}
    (known : config.projectId = some projectId) {world : World}
    (warehouse : services.holds world (.warehouse projectId config.warehouse))
    (route : services.holds world (.route projectId config.warehouse warehousePrefix))
    (named : services.holds world (.namespace warehousePrefix namespaceName)) :
    Yields services.answers Free False
      (fun _ after => ∃ schema, services.holds after (catalogTable warehousePrefix schema))
      (createFileCatalogTable libraries config) world := by
  unfold createFileCatalogTable
  refine (healthy.getWarehousePrefix_routes truthful (resolves_of_known known world) warehouse).bind
    fun catalogConfig routed ⟨_, otherRoute, grown⟩ => ?_
  have same := truthful.route_unique otherRoute (grown _ route)
  subst same
  refine (healthy.buildClient_alive 30 routed).bind fun _ connected built => ?_
  have present : Yields services.answers Free True
      (fun finds after => finds = true →
        ∃ schema, services.holds after (catalogTable catalogConfig.warehousePrefix schema))
      (headFinds (tableUrl config catalogConfig) catalogConfig.projectId) connected :=
    Truthful.headFinds_yields fun _ _ answered success => truthful.table_head answered success
  refine ((headFinds_alive _ _ connected).with (present.reaching truthful.respected)).bind
    fun finds seen ⟨_, found, kept⟩ => ?_
  split
  next success => exact yields_pure.mpr (found success)
  next =>
    obtain ⟨schemaJson, value⟩ := healthy.schema_value
    rw [value]
    refine yields_bind.mpr (Client.yields_context.mpr (yields_ofExcept.mpr (ends_ok.mpr ?_)))
    have there := kept _ (truthful.kept built (grown _ named))
    refine (sent_alive _ fun _ _ answered => healthy.table_post there answered).bind
      fun response after ⟨settled, posted⟩ => ?_
    have safe : Yields services.answers Free True
        (fun _ after => ∃ schema,
          services.holds after (catalogTable catalogConfig.warehousePrefix schema))
        (created libraries "Failed to create table" response) after :=
      Truthful.created_yields fun _ => truthful.table_post posted settled
    exact ((created_alive settled).with safe).mono fun _ _ holds => holds.2

theorem buildRestCatalog_alive (healthy : services.Healthy libraries config)
    (truthful : services.Truthful libraries config) {projectId warehousePrefix : String}
    {world : World} (resolves : Resolves services libraries config projectId world)
    (warehouse : services.holds world (.warehouse projectId config.warehouse))
    (route : services.holds world (.route projectId config.warehouse warehousePrefix)) :
    Yields services.answers Free False
      (fun properties after => ∃ catalogConfig,
        properties = buildRestCatalogProps config catalogConfig ∧
        catalogConfig.warehousePrefix = warehousePrefix ∧ services.Grows world after)
      (buildRestCatalog libraries config) world := by
  unfold buildRestCatalog
  refine (healthy.getWarehousePrefix_routes truthful resolves warehouse).bind
    fun catalogConfig routed ⟨_, otherRoute, grown⟩ => ?_
  have loaded : Yields services.answers Free False (fun _ _ => True)
      (Client.context "Failed to build RestCatalog" (Client.demand
        (.loadCatalog "anti_entropator" (buildRestCatalogProps config catalogConfig)) id))
      routed := by
    refine Client.yields_context.mpr (Client.yields_demand.mpr
      ⟨trivial, fun reply after answered => ?_⟩)
    rw [healthy.catalog_load answered]
    trivial
  refine (loaded.reaching truthful.respected).bind fun _ after ⟨_, kept⟩ => ?_
  exact yields_pure.mpr ⟨catalogConfig, rfl, truthful.route_unique otherRoute (grown _ route),
    fun _ held => kept _ (grown _ held)⟩

theorem loadTable_alive (healthy : services.Healthy libraries config)
    {catalogConfig : CatalogConfigResult} {schema : Schema} {world : World}
    (table : services.holds world (catalogTable catalogConfig.warehousePrefix schema)) :
    Yields services.answers Free False (fun result _ => result = schema)
      (loadTable (buildRestCatalogProps config catalogConfig)) world := by
  refine Client.yields_context.mpr (Client.yields_demand.mpr
    ⟨trivial, fun reply after answered => ?_⟩)
  rw [healthy.table_load table answered]
  exact rfl

theorem checkTableSchema_alive (healthy : services.Healthy libraries config)
    (truthful : services.Truthful libraries config) {projectId warehousePrefix : String}
    {schema : Schema} {world : World}
    (resolves : Resolves services libraries config projectId world)
    (warehouse : services.holds world (.warehouse projectId config.warehouse))
    (route : services.holds world (.route projectId config.warehouse warehousePrefix))
    (table : services.holds world (catalogTable warehousePrefix schema))
    (accepted : verifyTableSchema libraries.displayType schema = .ok ()) :
    Yields services.answers Free False (fun _ _ => True) (checkTableSchema libraries config)
      world := by
  unfold checkTableSchema
  refine (healthy.buildRestCatalog_alive truthful resolves warehouse route).bind
    fun properties built ⟨catalogConfig, same, pathPrefix, grown⟩ => ?_
  subst same pathPrefix
  refine (healthy.loadTable_alive (grown _ table)).bind fun result after same => ?_
  subst same
  rw [accepted]
  trivial

theorem withProject (healthy : services.Healthy libraries config) (projectId : Option String) :
    services.Healthy libraries { config with projectId } where
  client := healthy.client
  rustfs := healthy.rustfs
  lakekeeper := healthy.lakekeeper
  bucket_put := healthy.bucket_put
  project_post := healthy.project_post
  warehouse_list := healthy.warehouse_list
  warehouse_post := healthy.warehouse_post
  endpoint := healthy.endpoint
  route_get := healthy.route_get
  namespace_post := healthy.namespace_post
  schema_value := healthy.schema_value
  table_post := healthy.table_post
  catalog_load := healthy.catalog_load
  table_load := healthy.table_load

end Services.Healthy

/-! ## The whole -/

/-- Every table in the place of ours would be accepted. -/
def Accepting (services : Services World) (libraries : ClientLibraries) (world : World) : Prop :=
  ∀ warehousePrefix schema, services.holds world (catalogTable warehousePrefix schema) →
    verifyTableSchema libraries.displayType schema = .ok ()

def Steady (services : Services World) (libraries : ClientLibraries) : Prop :=
  ∀ world call reply after, services.answers world call reply after →
    Accepting services libraries world → Accepting services libraries after

theorem Steady.respected (steady : Steady services libraries) :
    Respected services.answers fun world after =>
      Accepting services libraries world → Accepting services libraries after where
  refl := fun _ accepting => accepting
  trans := fun first second accepting => second (first accepting)
  answer := fun answered accepting => steady _ _ _ _ answered accepting

namespace Services.Healthy

theorem initProject_alive (healthy : services.Healthy libraries config)
    (truthful : services.Truthful libraries config) (steady : Steady services libraries)
    {projectId : String} (known : config.projectId = some projectId) {world : World}
    (accepting : Accepting services libraries world)
    (project : services.holds world (.project projectId)) :
    Yields services.answers Free False (fun _ _ => True) (initProject libraries config projectId)
      world := by
  have respected := truthful.respected.and steady.respected
  unfold initProject
  refine Yields.bind ((attempt_alive _ world).reaching respected)
    fun _ saved ⟨_, zeroth⟩ => ?_
  have house := healthy.ensureWarehouse_alive truthful (zeroth.1 _ project)
  refine (house.with ((truthful.ensureWarehouse_yields projectId saved).reaching respected)).bind
    fun _ housed ⟨_, warehouse, first⟩ => ?_
  have name := healthy.createNamespace_alive truthful known warehouse
  refine (name.with ((truthful.createNamespace_yields known housed).reaching respected)).bind
    fun _ named ⟨_, ⟨warehousePrefix, route, nameHeld⟩, second⟩ => ?_
  have table := healthy.createFileCatalogTable_alive truthful known (second.1 _ warehouse) route
    nameHeld
  refine (table.reaching respected).bind fun _ tabled ⟨⟨schema, held⟩, third⟩ => ?_
  exact healthy.checkTableSchema_alive truthful (resolves_of_known known tabled)
    (third.1 _ (second.1 _ warehouse)) (third.1 _ route) held (third.2 (second.2 (first.2 (zeroth.2 accepting))) _ _ held)

theorem init_alive (healthy : services.Healthy libraries config)
    (truthful : services.Truthful libraries config) (steady : Steady services libraries)
    (credentials : validateS3Credentials config = .ok ()) {world : World}
    (accepting : Accepting services libraries world) :
    Yields services.answers Free False
      (fun _ after => ∃ projectId, Ready services libraries config projectId after)
      (init libraries config) world := by
  have alive : Yields services.answers Free False (fun _ _ => True) (init libraries config)
      world := by
    unfold init
    rw [credentials]
    refine yields_bind.mpr (yields_ofExcept.mpr (ends_ok.mpr ?_))
    have rustfs := (healthy.checkRustfs_alive world).reaching steady.respected
    refine Yields.bind (Client.yields_context.mpr rustfs) fun _ reached ⟨_, first⟩ => ?_
    have catalog := (healthy.checkCatalog_alive reached).reaching steady.respected
    refine Yields.bind (Client.yields_context.mpr catalog) fun _ connected ⟨_, second⟩ => ?_
    refine ((healthy.createBucket_alive connected).reaching steady.respected).bind
      fun _ stored ⟨_, third⟩ => ?_
    have project := (healthy.findProject_alive stored).with (truthful.findProject_yields stored)
    refine (project.reaching steady.respected).bind fun projectId found ⟨⟨_, held⟩, fourth⟩ => ?_
    exact (healthy.withProject (some projectId)).initProject_alive
      (truthful.withProject (some projectId)) steady rfl
      (fourth (third (second (first accepting)))) held
  exact (alive.with (truthful.init_yields world)).mono fun _ _ holds => holds.2

end Services.Healthy

/-! ## What `init` asks for keeps tables acceptable -/

/-- A request to where tables are made has the schema of the code. -/
def Schooled (libraries : ClientLibraries) (config : LakehouseConfig) (call : Call) : Prop :=
  ∀ request catalogConfig, call = .send request → request.method = .post →
    request.url = tablesUrl config catalogConfig →
    ∃ schemaJson, libraries.schemaToValue buildFileCatalogSchema = .ok schemaJson ∧
      request.body = (createTableRequest config catalogConfig schemaJson).body

theorem tablesUrl_ne_namespacesUrl (first second : CatalogConfigResult) :
    tablesUrl config first ≠ namespacesUrl config second := by
  intro same
  have texts := congrArg (fun text => text.toList.reverse.take 3) same
  simp [tablesUrl, namespacesUrl] at texts

theorem tablesUrl_ne_management (catalogConfig : CatalogConfigResult) :
    tablesUrl config catalogConfig ≠ projectUrl config ∧
      tablesUrl config catalogConfig ≠ warehousesUrl config := by
  constructor <;> intro same <;> have texts := congrArg String.toList same
  · simp [tablesUrl, namespaceUrl, namespacesUrl, projectUrl] at texts
  · simp [tablesUrl, namespaceUrl, namespacesUrl, warehousesUrl] at texts

theorem schooled_of_initChanges {exchanges : List (Sigma Call.Reply)}
    (changes : InitChanges libraries config (marks change? exchanges)) :
    ∀ exchange ∈ exchanges, Schooled libraries config exchange.1 := by
  intro exchange member request catalogConfig asked posted url
  obtain ⟨instant, projectId, namespaceConfig, tableConfig, -, -, sublist⟩ := changes
  have marked : Change.request request ∈ marks change? exchanges := by
    refine List.mem_filterMap.mpr ⟨exchange, member, ?_⟩
    rw [asked, change?, posted]
  have allowed := sublist.subset marked
  simp only [projectChanges, List.mem_append, List.mem_singleton, Change.request.injEq] at allowed
  rcases allowed with rfl | rfl | state | rfl | rfl | table
  · cases posted
  · exact absurd url.symm (tablesUrl_ne_management catalogConfig).1
  · unfold stateChanges at state
    split at state <;> simp at state
  · exact absurd url.symm (tablesUrl_ne_management catalogConfig).2
  · exact absurd url.symm (tablesUrl_ne_namespacesUrl catalogConfig namespaceConfig)
  · unfold tableChanges at table
    split at table
    next value written =>
      cases Change.request.inj (List.mem_singleton.mp table)
      exact ⟨value, written, rfl⟩
    next => cases table

theorem init_schooled {answers : Answers World Call.Reply} {world final : World}
    {exchanges : List (Sigma Call.Reply)} {ending : Option (Except Error Unit)}
    (runs : Runs answers (init libraries config) world exchanges ending final) :
    Runs (fun world call reply after =>
      Schooled libraries config call ∧ answers world call reply after)
      (init libraries config) world exchanges ending final :=
  runs.restrict (schooled_of_initChanges (init_sends.runs runs))

theorem Services.Truthful.steady (truthful : services.Truthful libraries config)
    {answers : Answers World Call.Reply}
    (allowed : ∀ {world call reply after}, answers world call reply after →
      services.answers world call reply after) :
    Steady (services.within fun world call reply after =>
      Schooled libraries config call ∧ answers world call reply after) libraries := by
  rintro world call reply after ⟨schooled, answered⟩ accepting warehousePrefix schema held
  rcases truthful.table_appears (allowed answered) held with
    before | ⟨request, catalogConfig, asked, posted, url, written⟩
  · exact accepting warehousePrefix schema before
  · obtain ⟨schemaJson, value, body⟩ := schooled request catalogConfig asked posted url
    rw [written schemaJson value body]
    exact (verifyTableSchema_eq_ok_iff libraries.displayType).mpr fun field member =>
      ⟨field, member, rfl, rfl, rfl⟩

theorem Services.Truthful.restrict (truthful : services.Truthful libraries config)
    {answers : Answers World Call.Reply}
    (allowed : ∀ {world call reply after}, answers world call reply after →
      services.answers world call reply after) :
    (services.within answers).Truthful libraries config where
  kept := fun answered => truthful.kept (allowed answered)
  route_unique := truthful.route_unique
  table_unique := truthful.table_unique
  bucket_head := fun answered => truthful.bucket_head (allowed answered)
  bucket_put := fun answered => truthful.bucket_put (allowed answered)
  project_get := fun answered => truthful.project_get (allowed answered)
  project_post := fun answered => truthful.project_post (allowed answered)
  project_conflict := fun answered => truthful.project_conflict (allowed answered)
  warehouse_list := fun answered => truthful.warehouse_list (allowed answered)
  warehouse_post := fun answered => truthful.warehouse_post (allowed answered)
  route_get := fun built answered => truthful.route_get built (allowed answered)
  namespace_head := fun answered => truthful.namespace_head (allowed answered)
  namespace_post := fun answered => truthful.namespace_post (allowed answered)
  table_head := fun answered => truthful.table_head (allowed answered)
  table_post := fun answered => truthful.table_post (allowed answered)
  table_load := fun answered => truthful.table_load (allowed answered)
  table_appears := fun answered => truthful.table_appears (allowed answered)
  file_read := fun answered => truthful.file_read (allowed answered)
  file_written := fun answered => truthful.file_written (allowed answered)
  file_kept := fun answered => truthful.file_kept (allowed answered)

theorem Services.Healthy.restrict {answers : Answers World Call.Reply}
    (healthy : (services.within answers).Healthy libraries config)
    (condition : Call → Prop) :
    (services.within fun world call reply after =>
      condition call ∧ answers world call reply after).Healthy libraries config where
  client := fun answered => healthy.client answered.2
  rustfs := fun answered => healthy.rustfs answered.2
  lakekeeper := fun answered => healthy.lakekeeper answered.2
  bucket_put := fun answered => healthy.bucket_put answered.2
  project_post := fun answered => healthy.project_post answered.2
  warehouse_list := fun held answered => healthy.warehouse_list held answered.2
  warehouse_post := fun held answered => healthy.warehouse_post held answered.2
  endpoint := healthy.endpoint
  route_get := fun held built answered => healthy.route_get held built answered.2
  namespace_post := fun held answered => healthy.namespace_post held answered.2
  schema_value := healthy.schema_value
  table_post := fun held answered => healthy.table_post held answered.2
  catalog_load := fun answered => healthy.catalog_load answered.2
  table_load := fun held answered => healthy.table_load held answered.2

/-! ## Histories -/

/-- The worlds that bootstraps leave behind, each wherever and however it stopped, and whatever
project its environment named. -/
inductive Interrupted (services : Services World) (libraries : ClientLibraries)
    (config : LakehouseConfig) (world : World) : World → Prop where
  | none : Interrupted services libraries config world world
  | again {middle after : World} {projectId : Option String} {exchanges : List (Sigma Call.Reply)}
      {ending : Option (Except Error Unit)} :
      Interrupted services libraries config world middle →
      Runs services.answers (init libraries { config with projectId }) middle exchanges ending
        after →
      Interrupted services libraries config world after

theorem Interrupted.accepting (truthful : services.Truthful libraries config)
    {world later : World} (history : Interrupted services libraries config world later)
    (accepting : Accepting services libraries world) : Accepting services libraries later := by
  induction history with
  | none => exact accepting
  | @again middle after projectId exchanges ending before runs inductionHypothesis =>
      have steady := ((truthful.withProject projectId).steady fun answered => answered).respected
      exact steady.runs (init_schooled runs) inductionHypothesis

end AntiEntropator.Lakehouse
