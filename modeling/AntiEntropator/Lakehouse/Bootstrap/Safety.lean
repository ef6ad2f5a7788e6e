import AntiEntropator.Lakehouse.Bootstrap.Services

/-!
# What a successful bootstrap leaves

Whatever is lost, refused or repeated on the way: every step that returns has
found or made what it is for, and what is there stays.
-/

namespace AntiEntropator.Lakehouse

open Dialogue

variable {World : Type} {services : Services World} {libraries : ClientLibraries}
  {config : LakehouseConfig}

def Services.Grows (services : Services World) (world after : World) : Prop :=
  ∀ resource, services.holds world resource → services.holds after resource

theorem Services.Truthful.respected (truthful : services.Truthful libraries config) :
    Respected services.answers services.Grows where
  refl := fun _ _ held => held
  trans := fun first second resource held => second resource (first resource held)
  answer := fun answered _ held => truthful.kept answered held

theorem succeeded_iff {reply : Except Error HttpResponse} :
    succeeded reply = true ↔ ∃ response, reply = .ok response ∧ response.isSuccess = true := by
  cases reply with
  | ok response => simp [succeeded]
  | error error => simp [succeeded]

namespace Services.Truthful

theorem createBucket_yields (truthful : services.Truthful libraries config) (world : World) :
    Yields services.answers Free True
      (fun _ after => services.holds after (.bucket (bucketUrl config)))
      (createBucket libraries config) world := by
  unfold createBucket
  refine (yields_free _ _).bind fun _ connected _ => ?_
  have checked : Yields services.answers Free True
      (fun response after => response.isSuccess = true →
        services.holds after (.bucket (bucketUrl config)))
      (sendSignedS3 libraries config "HEAD" (bucketUrl config)
        (s3HostFromEndpoint config.s3Endpoint) ("/" ++ config.bucket)) connected :=
    (yields_sendSignedS3 libraries config).mpr ⟨trivial, fun instant read _ =>
      Client.send_free fun response after answered => truthful.bucket_head answered⟩
  refine checked.attempt.bind fun head seen found => ?_
  split
  next success =>
    obtain ⟨response, rfl, success⟩ := succeeded_iff.mp success
    exact yields_pure.mpr (found response rfl success)
  next =>
    have put : Yields services.answers Free True
        (fun response after => response.isSuccess = true ∨ response.status = 409 →
          services.holds after (.bucket (bucketUrl config)))
        (sendSignedS3 libraries config "PUT" (bucketUrl config)
          (s3HostFromEndpoint config.s3Endpoint) ("/" ++ config.bucket)) seen :=
      (yields_sendSignedS3 libraries config).mpr ⟨trivial, fun instant read _ =>
        Client.send_free fun response after answered => truthful.bucket_put answered⟩
    refine Yields.bind (Client.yields_context.mpr put) fun response after settled => ?_
    split
    next success => exact yields_pure.mpr (settled (.inl success))
    next =>
      split
      next conflict => exact yields_pure.mpr (settled (.inr conflict))
      next => exact Client.yields_throw.mpr trivial

/-! ## The project -/

theorem verifyProjectExists_yields (truthful : services.Truthful libraries config)
    (projectId : String) (world : World) :
    Yields services.answers Free True
      (fun valid after => valid = true → services.holds after (.project projectId))
      (verifyProjectExists config projectId) world := by
  unfold verifyProjectExists
  refine (yields_free _ _).bind fun built connected _ => ?_
  cases built with
  | error error => exact yields_pure.mpr nofun
  | ok _ =>
      have sent : Yields services.answers Free True
          (fun response after => response.isSuccess = true →
            services.holds after (.project projectId))
          (Client.send (verifyProjectRequest config projectId)) connected :=
        Client.send_free fun response after answered => truthful.project_get answered
      refine sent.attempt.bind fun reply after found => yields_pure.mpr fun success => ?_
      obtain ⟨response, rfl, success⟩ := succeeded_iff.mp success
      exact found response rfl success

theorem ensureProject_yields (truthful : services.Truthful libraries config) (world : World) :
    Yields services.answers Free True
      (fun project after => services.holds after (.project project.1))
      (ensureProject libraries config) world := by
  unfold ensureProject
  refine (yields_free _ _).bind fun _ connected _ => ?_
  refine (Client.sent_free _ _).bind fun response after answered => ?_
  split
  next success =>
    rw [yields_bind, Client.yields_context, yields_ofExcept, ends_true_iff]
    exact fun id read => yields_pure.mpr (truthful.project_post answered success read)
  next =>
    split
    next conflict =>
      dsimp only
      split
      next id read => exact yields_pure.mpr (truthful.project_conflict answered conflict read)
      next => exact Client.yields_throw.mpr trivial
    next => exact Client.yields_throw.mpr trivial

theorem findProject_yields (truthful : services.Truthful libraries config) (world : World) :
    Yields services.answers Free True (fun id after => services.holds after (.project id))
      (findProject libraries config) world := by
  have ensured : ∀ world, Yields services.answers Free True
      (fun id after => services.holds after (.project id))
      (ensureProject libraries config >>= fun project => pure project.1) world :=
    fun world => (truthful.ensureProject_yields world).bind fun _ _ held => yields_pure.mpr held
  unfold findProject
  refine (yields_free _ _).bind fun loadedId loaded _ => ?_
  split
  next id known =>
    refine (truthful.verifyProjectExists_yields id loaded).bind fun valid checked found => ?_
    split
    next success => exact yields_pure.mpr (found success)
    next => exact ensured checked
  next => exact ensured loaded

/-! ## The warehouse -/

theorem created_yields {text : String} {response : HttpResponse} {post : World → Prop}
    {world : World} (settled : response.Settled → post world) :
    Yields services.answers Free True (fun _ => post) (created libraries text response) world := by
  unfold created
  split
  next success => exact yields_pure.mpr (settled (by tauto))
  next =>
    split
    next conflict => exact yields_pure.mpr (settled (by tauto))
    next => exact Client.yields_throw.mpr trivial

theorem ensureWarehouse_yields (truthful : services.Truthful libraries config)
    (projectId : String) (world : World) :
    Yields services.answers Free True
      (fun _ after => services.holds after (.warehouse projectId config.warehouse))
      (ensureWarehouse libraries config projectId) world := by
  unfold ensureWarehouse
  refine (yields_free _ _).bind fun _ connected _ => ?_
  refine (Client.sent_free _ _).bind fun list listed answered => ?_
  have named : Yields services.answers Free True
      (fun names after => config.warehouse ∈ names →
        services.holds after (.warehouse projectId config.warehouse))
      (listedWarehouses libraries list) listed := by
    unfold listedWarehouses
    split
    next success =>
      rw [Client.yields_context, yields_ofExcept, ends_true_iff]
      exact fun names read member => truthful.warehouse_list answered success read member
    next => exact yields_pure.mpr fun member => absurd member List.not_mem_nil
  refine named.bind fun names read found => ?_
  split
  next member => exact yields_pure.mpr (found member)
  next =>
    refine (Client.sent_free _ _).bind fun response after posted => ?_
    exact created_yields (truthful.warehouse_post posted)

/-! ## Behind the project -/

theorem withProject (truthful : services.Truthful libraries config) (projectId : Option String) :
    services.Truthful libraries { config with projectId } where
  kept := truthful.kept
  route_unique := truthful.route_unique
  table_unique := truthful.table_unique
  bucket_head := truthful.bucket_head
  bucket_put := truthful.bucket_put
  project_get := truthful.project_get
  project_post := truthful.project_post
  project_conflict := truthful.project_conflict
  warehouse_list := truthful.warehouse_list
  warehouse_post := truthful.warehouse_post
  route_get := truthful.route_get
  namespace_head := truthful.namespace_head
  namespace_post := truthful.namespace_post
  table_head := truthful.table_head
  table_post := truthful.table_post
  table_load := truthful.table_load
  table_appears := truthful.table_appears
  file_read := truthful.file_read
  file_written := truthful.file_written
  file_kept := truthful.file_kept

theorem getWarehousePrefix_finds (truthful : services.Truthful libraries config) (world : World) :
    Yields services.answers Free True
      (fun result after => (∀ projectId, config.projectId = some projectId →
          result.projectId = projectId) ∧
        services.holds after (.route result.projectId config.warehouse result.warehousePrefix))
      (getWarehousePrefix libraries config) world := by
  have resolved : Yields services.answers Free True
      (fun id _ => ∀ projectId, config.projectId = some projectId → id = projectId)
      (resolveProjectId libraries config) world := by
    unfold resolveProjectId
    cases config.projectId with
    | some id => exact yields_pure.mpr fun _ same => Option.some.inj same
    | none => exact (yields_free _ _).mono fun _ _ _ => nofun
  unfold getWarehousePrefix
  refine resolved.bind fun projectId known same => ?_
  refine (yields_free _ _).bind fun _ connected _ => ?_
  rw [yields_bind, yields_ofExcept, ends_true_iff]
  intro request built
  refine (Client.sent_free _ _).bind fun response after answered => ?_
  split
  next success =>
    rw [yields_bind, Client.yields_context, yields_ofExcept, ends_true_iff]
    rintro ⟨defaults, overrides⟩ read
    dsimp only
    split
    next => exact Client.yields_throw.mpr trivial
    next warehousePrefix found =>
      exact yields_pure.mpr ⟨same, truthful.route_get built answered success read found⟩
  next => exact Client.yields_throw.mpr trivial

theorem getWarehousePrefix_yields (truthful : services.Truthful libraries config)
    {projectId : String} (known : config.projectId = some projectId) (world : World) :
    Yields services.answers Free True
      (fun result after => result.projectId = projectId ∧
        services.holds after (.route projectId config.warehouse result.warehousePrefix))
      (getWarehousePrefix libraries config) world := by
  refine (truthful.getWarehousePrefix_finds world).mono fun result after ⟨same, route⟩ => ?_
  have one := same projectId known
  subst one
  exact ⟨rfl, route⟩

theorem headFinds_yields {url projectId : String} {found : World → Prop} {world : World}
    (answered : ∀ response after,
      services.answers world (.send (headRequest url projectId)) (.ok response) after →
      response.isSuccess = true → found after) :
    Yields services.answers Free True (fun finds after => finds = true → found after)
      (headFinds url projectId) world := by
  unfold headFinds
  refine (Client.send_free answered).attempt.bind fun reply after known => ?_
  refine yields_pure.mpr fun success => ?_
  obtain ⟨response, rfl, success⟩ := succeeded_iff.mp success
  exact known response rfl success

theorem createNamespace_yields (truthful : services.Truthful libraries config)
    {projectId : String} (known : config.projectId = some projectId) (world : World) :
    Yields services.answers Free True
      (fun _ after => ∃ warehousePrefix,
        services.holds after (.route projectId config.warehouse warehousePrefix) ∧
        services.holds after (.namespace warehousePrefix namespaceName))
      (createNamespace libraries config) world := by
  unfold createNamespace
  refine (truthful.getWarehousePrefix_yields known world).bind fun catalogConfig routed held => ?_
  obtain ⟨-, route⟩ := held
  refine Yields.bind (Yields.reaching truthful.respected (yields_free (Client.buildClient 10) routed))
    fun _ connected kept => ?_
  have present : Yields services.answers Free True
      (fun finds after => finds = true →
        services.holds after (.namespace catalogConfig.warehousePrefix namespaceName))
      (headFinds (namespaceUrl config catalogConfig) catalogConfig.projectId) connected :=
    headFinds_yields fun _ _ answered success => truthful.namespace_head answered success
  refine (present.reaching truthful.respected).bind fun finds seen found => ?_
  have routeSeen := found.2 _ (kept.2 _ route)
  split
  next success => exact yields_pure.mpr ⟨_, routeSeen, found.1 success⟩
  next =>
    refine (Client.sent_free _ _).bind fun response after posted => ?_
    exact created_yields fun settled =>
      ⟨_, truthful.kept posted routeSeen, truthful.namespace_post posted settled⟩

theorem buildRestCatalog_yields (truthful : services.Truthful libraries config) (world : World) :
    Yields services.answers Free True
      (fun properties after => ∃ catalogConfig : CatalogConfigResult,
        properties = buildRestCatalogProps config catalogConfig ∧
        (∀ projectId, config.projectId = some projectId → catalogConfig.projectId = projectId) ∧
        services.holds after
          (.route catalogConfig.projectId config.warehouse catalogConfig.warehousePrefix))
      (buildRestCatalog libraries config) world := by
  unfold buildRestCatalog
  refine (truthful.getWarehousePrefix_finds world).bind fun catalogConfig routed held => ?_
  refine Yields.bind ((yields_free _ routed).reaching truthful.respected) fun _ _ kept => ?_
  exact yields_pure.mpr ⟨catalogConfig, rfl, held.1, kept.2 _ held.2⟩

theorem loadTable_yields (truthful : services.Truthful libraries config)
    (catalogConfig : CatalogConfigResult) (world : World) :
    Yields services.answers Free True
      (fun schema after =>
        services.holds after (catalogTable catalogConfig.warehousePrefix schema))
      (loadTable (buildRestCatalogProps config catalogConfig)) world :=
  Client.yields_context.mpr (Client.demand_free fun reply schema _ loaded
      (same : reply = .ok schema) => truthful.table_load (same ▸ loaded))

theorem checkTableSchema_yields (truthful : services.Truthful libraries config)
    {projectId : String} (known : config.projectId = some projectId) (world : World) :
    Yields services.answers Free True
      (fun _ after => ∃ warehousePrefix schema,
        services.holds after (.route projectId config.warehouse warehousePrefix) ∧
        services.holds after (catalogTable warehousePrefix schema) ∧
        verifyTableSchema libraries.displayType schema = .ok ())
      (checkTableSchema libraries config) world := by
  unfold checkTableSchema
  refine (truthful.buildRestCatalog_yields world).bind
    fun properties built ⟨catalogConfig, same, project, route⟩ => ?_
  subst same
  have one := project projectId known
  subst one
  refine ((truthful.loadTable_yields catalogConfig built).reaching truthful.respected).bind
    fun schema after ⟨table, kept⟩ => ?_
  exact yields_ofExcept.mpr (ends_true_iff.mpr fun _ accepted =>
    ⟨_, schema, kept _ route, table, accepted⟩)

/-! ## The whole -/

theorem initProject_yields (truthful : services.Truthful libraries config)
    {projectId : String} (known : config.projectId = some projectId) {world : World}
    (bucket : services.holds world (.bucket (bucketUrl config)))
    (project : services.holds world (.project projectId)) :
    Yields services.answers Free True (fun _ => Ready services libraries config projectId)
      (initProject libraries config projectId) world := by
  unfold initProject
  refine Yields.bind ((yields_free _ world).reaching truthful.respected)
    fun _ saved ⟨_, zeroth⟩ => ?_
  refine Yields.bind
    ((truthful.ensureWarehouse_yields projectId saved).reaching truthful.respected)
    fun _ housed ⟨warehouse, first⟩ => ?_
  refine Yields.bind ((truthful.createNamespace_yields known housed).reaching truthful.respected)
    fun _ named ⟨⟨warehousePrefix, route, nameHeld⟩, second⟩ => ?_
  refine Yields.bind ((yields_free _ named).reaching truthful.respected)
    fun _ tabled ⟨_, third⟩ => ?_
  refine ((truthful.checkTableSchema_yields known tabled).reaching truthful.respected).mono
    fun _ after ⟨⟨other, schema, otherRoute, table, accepted⟩, fourth⟩ => ?_
  have later : ∀ resource, services.holds named resource → services.holds after resource :=
    fun resource held => fourth _ (third _ held)
  have same : other = warehousePrefix := truthful.route_unique otherRoute (later _ route)
  subst same
  exact {
    bucket := later _ (second _ (first _ (zeroth _ bucket)))
    project := later _ (second _ (first _ (zeroth _ project)))
    warehouse := later _ (second _ warehouse)
    catalog := ⟨other, schema, otherRoute, later _ nameHeld, table, accepted⟩ }

theorem init_yields (truthful : services.Truthful libraries config) (world : World) :
    Yields services.answers Free True
      (fun _ after => ∃ projectId, Ready services libraries config projectId after)
      (init libraries config) world := by
  unfold init
  refine (yields_free _ world).bind fun _ validated _ => ?_
  refine (yields_free _ validated).bind fun _ reached _ => ?_
  refine (yields_free _ reached).bind fun _ connected _ => ?_
  refine Yields.bind (truthful.createBucket_yields connected) fun _ stored bucket => ?_
  refine Yields.bind ((truthful.findProject_yields stored).reaching truthful.respected)
    fun projectId found ⟨project, kept⟩ => ?_
  refine ((truthful.withProject (some projectId)).initProject_yields rfl (kept _ bucket)
    project).mono fun _ after ready => ⟨projectId, ?_⟩
  exact ⟨ready.bucket, ready.project, ready.warehouse, ready.catalog⟩

end Services.Truthful

end AntiEntropator.Lakehouse
