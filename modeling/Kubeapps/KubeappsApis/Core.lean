/-
  The core API of kubeapps-apis (cmd/kubeapps-apis/server: plugins.go, packages.go).

  The server opens a number of shared objects. Each of them registers a plugin, and those whose server
  has the packages API are asked one after the other for a list of packages. The files and what Go's
  `plugin` package finds in them are parameters, and so is the text that Go prints for a plugin. The
  registration with gRPC and with the gateway is what the functions of the plugin return.

  `newPluginsServer_perm`: the order of the files does not matter. `core_lists_iff`: the core API
  passes the page size on and gives no next token, so a client that follows the tokens, which with the
  plugin itself walks over all charts (`walk_lists_iff`), has seen all charts of the helm plugin exactly
  if they fit on one page.
-/
import Kubeapps.HelmPlugin.Summaries
import Kubeapps.Lib.Text

namespace Kubeapps.KubeappsApis

open Kubeapps.Lib Kubeapps.Assetsvc
open Kubeapps.HelmPlugin (SummariesRequest RpcError Accepted)

/-! ## Plugins -/

/-- `plugins.Plugin`. -/
structure Plugin where
  name : String
  version : String
  deriving DecidableEq, Repr

/-- `corev1.AvailablePackageReference`. Of its context only the namespace is ever set. -/
structure PackageReference where
  contextNamespace : Option String
  identifier : String
  plugin : Option Plugin
  deriving DecidableEq, Repr

/-- `corev1.AvailablePackageSummary`. -/
structure PackageSummary where
  availablePackageRef : Option PackageReference
  displayName : String
  latestPkgVersion : String
  iconUrl : String
  shortDescription : String
  deriving DecidableEq, Repr

/-- `corev1.GetAvailablePackageSummariesResponse`. -/
structure PackagesResponse where
  availablePackagesSummaries : List PackageSummary
  nextPageToken : String
  deriving DecidableEq, Repr

/-- `GetAvailablePackageSummaries` of a `PackagesServiceServer`. -/
abbrev PackagesServer (ε : Type) := SummariesRequest → Except ε PackagesResponse

/-- `pkgsPluginWithServer`. -/
structure PkgsPluginWithServer (ε : Type) where
  plugin : Plugin
  server : PackagesServer ε

/-- What `Lookup` finds under a name: nothing, a value of another type, as `%T` prints it, or a value
    of the type that is wanted. -/
inductive Symbol (α : Type) where
  | missing (err : String)
  | mismatched (got : String)
  | found (value : α)

/-- A shared object. `registerWithGRPCServer` fails, or returns `nil`, or a server, which has the
    packages API or not. -/
structure SharedObject (ε : Type) where
  getPluginDetail : Symbol Plugin
  registerWithGRPCServer : Symbol (Except String (Option (Option (PackagesServer ε))))
  registerHTTPHandlerFromEndpoint : Symbol (Except String Unit)

/-- `sprint` prints a plugin, and `typeText` the type that is wanted of a function. -/
structure Env (ε : Type) where
  createClientGetter : Except String Unit
  openPlugin : String → Except String (SharedObject ε)
  sprint : Plugin → String
  typeText : String → String

structure PluginsServer (ε : Type) where
  plugins : List Plugin
  packagesPlugins : List (PkgsPluginWithServer ε)

section Registration

variable {ε : Type}

/-- Look a function up and check its type. `whose` is the plugin or its path, `mismatch` what the text
    says between it and the types. -/
def Env.lookup {α : Type} (env : Env ε) (symbol : Symbol α) (function whose mismatch : String) :
    Except String α :=
  match symbol with
  | .missing err => .error ("unable to lookup " ++ function.quote ++ " for " ++ whose ++ ": " ++ err)
  | .mismatched got =>
      .error ("unable to use " ++ function.quote ++ " in plugin " ++ whose ++ mismatch ++ "want: " ++
        env.typeText function ++ "\ngot: " ++ got)
  | .found value => .ok value

/-- `getPluginDetail`. -/
def Env.getPluginDetail (env : Env ε) (p : SharedObject ε) (pluginPath : String) :
    Except String Plugin :=
  env.lookup p.getPluginDetail "GetPluginDetail" pluginPath.quote
    " due to a mismatched signature. \n"

/-- `registerGRPC`, with `registerPluginsSatisfyingCoreAPIs`: the server for the packages API, if the
    plugin has one. -/
def Env.registerGRPC (env : Env ε) (p : SharedObject ε) (pluginDetail : Plugin) :
    Except String (Option (PackagesServer ε)) := do
  let grpcFn ← env.lookup p.registerWithGRPCServer "RegisterWithGRPCServer" (env.sprint pluginDetail)
    " due to mismatched signature.\n"
  match grpcFn with
  | .error err =>
      .error ("plug-in " ++ (env.sprint pluginDetail).quote ++ " failed to register due to: " ++ err)
  | .ok none =>
      .error ("registration for plug-in " ++ env.sprint pluginDetail ++ " failed due to: " ++
        env.typeText "RegisterWithGRPCServer" ++ " returned nil when non-nil value was expected")
  | .ok (some server) => .ok server

/-- `registerHTTP`. -/
def Env.registerHTTP (env : Env ε) (p : SharedObject ε) (pluginDetail : Plugin) :
    Except String Unit := do
  let gwfn ← env.lookup p.registerHTTPHandlerFromEndpoint "RegisterHTTPHandlerFromEndpoint"
    (env.sprint pluginDetail) " due to mismatched signature.\n"
  gwfn

/-- One turn of the loop of `registerPlugins`. -/
def Env.registerPlugin (env : Env ε) (pluginPath : String) :
    Except String (Plugin × Option (PackagesServer ε)) := do
  let p ← (env.openPlugin pluginPath).mapError fun err =>
    "unable to open plugin " ++ pluginPath.quote ++ ": " ++ err
  let pluginDetail ← env.getPluginDetail p pluginPath
  let server ← env.registerGRPC p pluginDetail
  env.registerHTTP p pluginDetail
  return (pluginDetail, server)

/-- `registerPlugins`. -/
def Env.registerPlugins (env : Env ε) (pluginPaths : List String) :
    Except String (List (Plugin × Option (PackagesServer ε))) := do
  env.createClientGetter.mapError fun err => "unable to create a ClientGetter: " ++ err
  pluginPaths.mapM env.registerPlugin

/-- The order of `sortPlugins`, as `≤`. -/
def pluginLe (p q : Plugin) : Bool :=
  decide (p.name < q.name ∨ (p.name = q.name ∧ p.version ≤ q.version))

/-- `sortPlugins`. -/
def sortPlugins (plugins : List Plugin) : List Plugin := plugins.mergeSort pluginLe

/-- The plugins whose server has the packages API. -/
def packagesPlugins (registered : List (Plugin × Option (PackagesServer ε))) :
    List (PkgsPluginWithServer ε) :=
  registered.filterMap fun r => r.2.map (PkgsPluginWithServer.mk r.1)

/-- `NewPluginsServer`, after the files were found. -/
def newPluginsServer (env : Env ε) (pluginPaths : List String) :
    Except String (PluginsServer ε) :=
  match env.registerPlugins pluginPaths with
  | .error err => .error ("failed to register plugins: " ++ err)
  | .ok registered => .ok ⟨sortPlugins (registered.map Prod.fst), packagesPlugins registered⟩

end Registration

/-- `listSOFiles`. `cwd` is the working directory, and `glob` is `fs.Glob` on the root directory. -/
def listSOFiles (cwd : Except String String) (glob : String → Except String (List String))
    (pluginDirs : List String) : Except String (List String) := do
  let matched ← pluginDirs.mapM fun pluginDir => do
    let pluginDir ←
      if pluginDir.toList.head? = some '/' then .ok pluginDir
      else cwd.map fun dir => pathJoin [dir, pluginDir]
    -- `filepath.Rel` from the root
    let dir := pathClean pluginDir
    let relPluginDir := if dir = "/" then "." else String.ofList (dir.toList.drop 1)
    let m ← glob (pathJoin [relPluginDir, "/", "*.so"])
    return m.map fun match_ => pathJoin ["/", match_]
  return matched.flatten

/-! ## The packages of all plugins -/

/-- The plugin that a summary came from is put into its reference. -/
def withPlugin (plugin : Plugin) (r : PackageSummary) : PackageSummary :=
  let ref := r.availablePackageRef.getD ⟨none, "", none⟩
  { r with availablePackageRef := some { ref with plugin := some plugin } }

/-- One turn of the loop of `GetAvailablePackageSummaries`. -/
def addPluginPkgs {ε : Type} (request : SummariesRequest) (pkgs : List PackageSummary)
    (p : PkgsPluginWithServer ε) : Except ε (List PackageSummary) := do
  let response ← p.server request
  return pkgs ++ response.availablePackagesSummaries.map (withPlugin p.plugin)

/-- `GetAvailablePackageSummaries` of `packagesServer`. -/
def getAvailablePackageSummaries {ε : Type} (plugins : List (PkgsPluginWithServer ε)) :
    PackagesServer ε := fun request => do
  let pkgs ← plugins.foldlM (addPluginPkgs request) []
  return ⟨pkgs, ""⟩

/-- The summaries that came from a plugin. -/
def fromPlugin (plugin : Plugin) (pkgs : List PackageSummary) : List PackageSummary :=
  pkgs.filter fun r => decide (r.availablePackageRef.bind PackageReference.plugin = some plugin)

section Aggregate

variable {ε : Type} {plugins : List (PkgsPluginWithServer ε)} {request : SummariesRequest}
  {response : PackagesResponse}

/-- What a plugin adds to the answer. -/
def pluginPkgs (request : SummariesRequest) (p : PkgsPluginWithServer ε) :
    Except ε (List PackageSummary) :=
  (p.server request).map fun response =>
    response.availablePackagesSummaries.map (withPlugin p.plugin)

theorem foldlM_addPluginPkgs (plugins : List (PkgsPluginWithServer ε)) (pkgs : List PackageSummary) :
    plugins.foldlM (addPluginPkgs request) pkgs =
      (plugins.mapM (pluginPkgs request)).map fun parts => pkgs ++ parts.flatten := by
  induction plugins generalizing pkgs with
  | nil => simp [pure, Except.pure, Except.map]
  | cons p plugins ih =>
      rw [List.foldlM_cons, List.mapM_cons, addPluginPkgs, pluginPkgs]
      cases p.server request with
      | error err => rfl
      | ok response =>
          change plugins.foldlM (addPluginPkgs request) _ = _
          rw [ih]
          cases hparts : plugins.mapM (pluginPkgs request) with
          | error err => rfl
          | ok parts =>
              apply congrArg Except.ok
              simp only [List.flatten_cons, List.append_assoc]

/-- The answer has the parts of all plugins, one after the other. -/
theorem getAvailablePackageSummaries_eq :
    getAvailablePackageSummaries plugins request =
      (plugins.mapM (pluginPkgs request)).map fun parts => ⟨parts.flatten, ""⟩ := by
  unfold getAvailablePackageSummaries
  rw [foldlM_addPluginPkgs]
  cases plugins.mapM (pluginPkgs request) with
  | error err => rfl
  | ok parts => rfl

end Aggregate

/-! ## The order of the files -/

/-- Two answers with the same summaries, or two failures. -/
inductive SameAnswer {ε : Type} : Except ε PackagesResponse → Except ε PackagesResponse → Prop where
  | failed (err err' : ε) : SameAnswer (.error err) (.error err')
  | answered {pkgs pkgs' : List PackageSummary} (token : String) (h : pkgs.Perm pkgs') :
      SameAnswer (.ok ⟨pkgs, token⟩) (.ok ⟨pkgs', token⟩)

section Order

variable {ε : Type}

/-- A loop over the same calls in another order. -/
theorem mapM_perm {α γ : Type} {f : α → Except ε γ} {xs xs' : List α} (hperm : xs.Perm xs')
    {ys : List γ} (h : xs.mapM f = .ok ys) : ∃ ys', xs'.mapM f = .ok ys' ∧ ys.Perm ys' := by
  induction hperm generalizing ys with
  | nil => exact ⟨ys, h, List.Perm.refl _⟩
  | cons x _ ih =>
      rw [List.mapM_cons] at h
      obtain ⟨y, hy, hrest⟩ := bind_eq_ok h
      obtain ⟨zs, hzs, hret⟩ := bind_eq_ok hrest
      obtain ⟨zs', hzs', hperm⟩ := ih hzs
      rw [← Except.ok.inj hret]
      refine ⟨y :: zs', ?_, hperm.cons y⟩
      rw [List.mapM_cons, hy, hzs']
      rfl
  | swap x x' xs =>
      rw [List.mapM_cons, List.mapM_cons] at h
      obtain ⟨y, hy, hrest⟩ := bind_eq_ok h
      obtain ⟨ys₁, hys₁, hret⟩ := bind_eq_ok hrest
      obtain ⟨y', hy', hrest'⟩ := bind_eq_ok hys₁
      obtain ⟨zs, hzs, hret'⟩ := bind_eq_ok hrest'
      rw [← Except.ok.inj hret, ← Except.ok.inj hret']
      refine ⟨y' :: y :: zs, ?_, List.Perm.swap y' y zs⟩
      rw [List.mapM_cons, List.mapM_cons, hy', hy, hzs]
      rfl
  | trans _ _ ih ih' =>
      obtain ⟨ys₁, h₁, hperm₁⟩ := ih h
      obtain ⟨ys₂, h₂, hperm₂⟩ := ih' h₁
      exact ⟨ys₂, h₂, hperm₁.trans hperm₂⟩

theorem pluginLe_iff (p q : Plugin) :
    pluginLe p q = true ↔ p.name < q.name ∨ (p.name = q.name ∧ p.version ≤ q.version) := by
  rw [pluginLe, decide_eq_true_iff]

theorem pluginLe_total (p q : Plugin) : (pluginLe p q || pluginLe q p) = true := by
  rw [Bool.or_eq_true, pluginLe_iff, pluginLe_iff]
  by_cases hpq : p.name < q.name
  · exact Or.inl (Or.inl hpq)
  · by_cases hqp : q.name < p.name
    · exact Or.inr (Or.inl hqp)
    · have hname : p.name = q.name := String.le_antisymm (String.not_lt.mp hqp) (String.not_lt.mp hpq)
      rcases String.le_total p.version q.version with hv | hv
      · exact Or.inl (Or.inr ⟨hname, hv⟩)
      · exact Or.inr (Or.inr ⟨hname.symm, hv⟩)

theorem pluginLe_trans (p q r : Plugin) (hpq : pluginLe p q = true) (hqr : pluginLe q r = true) :
    pluginLe p r = true := by
  rw [pluginLe_iff] at hpq hqr ⊢
  rcases hpq with hpq | ⟨hpq, hv⟩
  · rcases hqr with hqr | ⟨hqr, -⟩
    · exact Or.inl (String.lt_trans hpq hqr)
    · exact Or.inl (hqr ▸ hpq)
  · rcases hqr with hqr | ⟨hqr, hv'⟩
    · exact Or.inl (hpq ▸ hqr)
    · exact Or.inr ⟨hpq.trans hqr, String.le_trans hv hv'⟩

theorem pluginLe_antisymm (p q : Plugin) (hpq : pluginLe p q = true) (hqp : pluginLe q p = true) :
    p = q := by
  rw [pluginLe_iff] at hpq hqp
  rcases hpq with hpq | ⟨hname, hv⟩
  · rcases hqp with hqp | ⟨hname, -⟩
    · exact absurd hqp (String.lt_asymm hpq)
    · exact absurd (hname ▸ hpq) (String.lt_irrefl _)
  · rcases hqp with hqp | ⟨-, hv'⟩
    · exact absurd (hname ▸ hqp) (String.lt_irrefl _)
    · cases p
      cases q
      dsimp only at hname hv hv'
      rw [hname, String.le_antisymm hv hv']

theorem pairwise_sortPlugins (plugins : List Plugin) :
    (sortPlugins plugins).Pairwise fun p q => pluginLe p q = true :=
  List.pairwise_mergeSort pluginLe_trans pluginLe_total plugins

/-- Any way to sort gives the same list. -/
theorem sortPlugins_perm {plugins plugins' : List Plugin} (h : plugins.Perm plugins') :
    sortPlugins plugins = sortPlugins plugins' := by
  apply List.Perm.eq_of_pairwise (fun p q _ _ => pluginLe_antisymm p q)
    (pairwise_sortPlugins plugins) (pairwise_sortPlugins plugins')
  exact (List.mergeSort_perm plugins pluginLe).trans
    (h.trans (List.mergeSort_perm plugins' pluginLe).symm)

/-- The same plugins in another order give the same answer. -/
theorem sameAnswer_of_perm {plugins plugins' : List (PkgsPluginWithServer ε)}
    (h : plugins.Perm plugins') (request : SummariesRequest) :
    SameAnswer (getAvailablePackageSummaries plugins request)
      (getAvailablePackageSummaries plugins' request) := by
  rw [getAvailablePackageSummaries_eq, getAvailablePackageSummaries_eq]
  cases hparts : plugins.mapM (pluginPkgs request) with
  | ok parts =>
      obtain ⟨parts', hparts', hperm⟩ := mapM_perm h hparts
      rw [hparts']
      exact SameAnswer.answered "" hperm.flatten
  | error err =>
      cases hparts' : plugins'.mapM (pluginPkgs request) with
      | ok parts' =>
          obtain ⟨parts, hok, -⟩ := mapM_perm h.symm hparts'
          rw [hparts] at hok
          cases hok
      | error err' => exact SameAnswer.failed err err'

/-- A server that starts with the files in one order starts with them in every order. It has the same
    plugins, in the same order, and gives the same answers. -/
theorem newPluginsServer_perm (env : Env ε) (paths paths' : List String) (hperm : paths.Perm paths')
    (ps : PluginsServer ε) (h : newPluginsServer env paths = .ok ps) :
    ∃ ps', newPluginsServer env paths' = .ok ps' ∧ ps'.plugins = ps.plugins ∧
      ps.plugins.Pairwise (fun p q => pluginLe p q = true) ∧
      ∀ request, SameAnswer (getAvailablePackageSummaries ps.packagesPlugins request)
        (getAvailablePackageSummaries ps'.packagesPlugins request) := by
  unfold newPluginsServer at h ⊢
  cases hreg : env.registerPlugins paths with
  | error err =>
      rw [hreg] at h
      cases h
  | ok registered =>
      rw [hreg] at h
      obtain ⟨u, hgetter, hmap⟩ := bind_eq_ok hreg
      obtain ⟨registered', hmap', hregistered⟩ := mapM_perm hperm hmap
      have hreg' : env.registerPlugins paths' = .ok registered' := by
        unfold Env.registerPlugins
        rw [hgetter]
        exact hmap'
      rw [hreg', ← Except.ok.inj h]
      refine ⟨_, rfl, ?_, pairwise_sortPlugins _, sameAnswer_of_perm ?_⟩
      · exact sortPlugins_perm (hregistered.symm.map _)
      · exact hregistered.filterMap _

/-- The files of the helm and the kapp plugin. -/
def twoPlugins : Env String where
  createClientGetter := .ok ()
  openPlugin path :=
    let detail : Plugin :=
      if path = "/plugins/helm.so" then ⟨"helm.packages", "v1alpha1"⟩
      else ⟨"kapp_controller.packages", "v1alpha1"⟩
    .ok ⟨.found detail, .found (.ok (some (some fun _ => .ok ⟨[], ""⟩))), .found (.ok ())⟩
  sprint p := "name:" ++ p.name.quote ++ " version:" ++ p.version.quote
  typeText function := function

theorem newPluginsServer_perm_two : ∃ ps ps',
    newPluginsServer twoPlugins ["/plugins/kapp.so", "/plugins/helm.so"] = .ok ps ∧
      newPluginsServer twoPlugins ["/plugins/helm.so", "/plugins/kapp.so"] = .ok ps' ∧
      ps'.plugins = ps.plugins := by
  obtain ⟨ps', hps', hplugins, -⟩ := newPluginsServer_perm twoPlugins
    ["/plugins/kapp.so", "/plugins/helm.so"] ["/plugins/helm.so", "/plugins/kapp.so"]
    (List.Perm.swap _ _ []) _ rfl
  exact ⟨_, ps', rfl, hps', hplugins⟩

end Order

/-! ## A client that follows the tokens -/

/-- `GetPluginDetail` of the helm plugin. -/
def helmPlugin : Plugin := ⟨"helm.packages", "v1alpha1"⟩

/-- A summary of the helm plugin. -/
def ofHelmSummary (pkg : HelmPlugin.AvailablePackageSummary) : PackageSummary where
  availablePackageRef := some ⟨some pkg.availablePackageRef.contextNamespace,
    pkg.availablePackageRef.identifier, some helmPlugin⟩
  displayName := pkg.displayName
  latestPkgVersion := pkg.latestPkgVersion
  iconUrl := pkg.iconUrl
  shortDescription := pkg.shortDescription

/-- The server of the helm plugin, when the database orders the rows in this way. -/
def helmServer (s : HelmPlugin.Server) (pg : Postgres) (table : ChartTable) (order : RowOrder pg) :
    PackagesServer RpcError := fun request =>
  (s.getAvailablePackageSummaries pg table order request).map fun response =>
    ⟨response.availablePackagesSummaries.map ofHelmSummary, response.nextPageToken⟩

/-- The requests from the `k`-th one on, with the tokens that the answers give, up to the answer
    without a next token; and the summaries that were listed. -/
inductive TokenWalk {ε : Type} (server : Nat → PackagesServer ε) (request : SummariesRequest) :
    Nat → String → List PackageSummary → Prop where
  | last {k : Nat} {token : String} {response : PackagesResponse}
      (hresponse : server k { request with pageToken := token } = .ok response)
      (hend : response.nextPageToken = "") :
      TokenWalk server request k token response.availablePackagesSummaries
  | next {k : Nat} {token : String} {response : PackagesResponse} {rest : List PackageSummary}
      (hresponse : server k { request with pageToken := token } = .ok response)
      (hnext : response.nextPageToken ≠ "")
      (hrest : TokenWalk server request (k + 1) response.nextPageToken rest) :
      TokenWalk server request k token (response.availablePackagesSummaries ++ rest)

/-- The plugins of a core API, with the helm plugin among others. -/
def corePlugins (s : HelmPlugin.Server) (pg : Postgres) (table : ChartTable)
    (before after : List (PkgsPluginWithServer RpcError)) (order : RowOrder pg) :
    List (PkgsPluginWithServer RpcError) :=
  before ++ ⟨helmPlugin, helmServer s pg table order⟩ :: after

/-- The walk over the core API ends, and has listed every chart that matches once. -/
def CoreListsAll (s : HelmPlugin.Server) (pg : Postgres) (table : ChartTable) (ns : String)
    (request : SummariesRequest) (before after : List (PkgsPluginWithServer RpcError))
    (orders : Nat → RowOrder pg) : Prop :=
  ∃ charts summaries pkgs,
    matchingCharts pg table s.globalPackagingNamespace (request.chartQuery ns) = .ok charts ∧
    charts.mapM s.responsePackage = .ok summaries ∧
    TokenWalk (fun k => getAvailablePackageSummaries (corePlugins s pg table before after (orders k)))
      request 0 "" pkgs ∧
    (fromPlugin helmPlugin pkgs).Perm (summaries.map ofHelmSummary)

section Parts

variable {ε : Type} {plugins : List (PkgsPluginWithServer ε)} {request : SummariesRequest}

/-- The core API gives no token, so that the walk over it is one request. -/
theorem tokenWalk_core {plugins : Nat → List (PkgsPluginWithServer ε)} {k : Nat} {token : String}
    {pkgs : List PackageSummary} :
    TokenWalk (fun k => getAvailablePackageSummaries (plugins k)) request k token pkgs ↔
      ∃ parts, (plugins k).mapM (pluginPkgs { request with pageToken := token }) = .ok parts ∧
        pkgs = parts.flatten := by
  have hanswer : ∀ response,
      getAvailablePackageSummaries (plugins k) { request with pageToken := token } = .ok response →
      ∃ parts, (plugins k).mapM (pluginPkgs { request with pageToken := token }) = .ok parts ∧
        response = ⟨parts.flatten, ""⟩ := by
    intro response hresponse
    rw [getAvailablePackageSummaries_eq] at hresponse
    cases hparts : (plugins k).mapM (pluginPkgs { request with pageToken := token }) with
    | error err =>
        rw [hparts] at hresponse
        cases hresponse
    | ok parts =>
        rw [hparts] at hresponse
        exact ⟨parts, rfl, (Except.ok.inj hresponse).symm⟩
  constructor
  · intro hwalk
    cases hwalk with
    | last hresponse _ =>
        obtain ⟨parts, hparts, rfl⟩ := hanswer _ hresponse
        exact ⟨parts, hparts, rfl⟩
    | next hresponse hnext _ =>
        obtain ⟨parts, -, rfl⟩ := hanswer _ hresponse
        exact absurd rfl hnext
  · rintro ⟨parts, hparts, rfl⟩
    have hresponse : getAvailablePackageSummaries (plugins k) { request with pageToken := token } =
        .ok ⟨parts.flatten, ""⟩ := by
      rw [getAvailablePackageSummaries_eq, hparts]
      rfl
    change TokenWalk _ _ _ _ (PackagesResponse.mk parts.flatten "").availablePackagesSummaries
    exact TokenWalk.last hresponse rfl

theorem fromPlugin_append (plugin : Plugin) (pkgs pkgs' : List PackageSummary) :
    fromPlugin plugin (pkgs ++ pkgs') = fromPlugin plugin pkgs ++ fromPlugin plugin pkgs' :=
  List.filter_append pkgs pkgs'

/-- All summaries of a part came from its plugin. -/
theorem plugin_of_mem_part {p : PkgsPluginWithServer ε} {part : List PackageSummary}
    (h : pluginPkgs request p = .ok part) {r : PackageSummary} (hr : r ∈ part) :
    r.availablePackageRef.bind PackageReference.plugin = some p.plugin := by
  unfold pluginPkgs at h
  cases hp : p.server request with
  | error err =>
      rw [hp] at h
      cases h
  | ok response =>
      rw [hp] at h
      rw [← Except.ok.inj h] at hr
      obtain ⟨r', -, rfl⟩ := List.mem_map.mp hr
      rfl

theorem fromPlugin_self {p : PkgsPluginWithServer ε} {part : List PackageSummary}
    (h : pluginPkgs request p = .ok part) : fromPlugin p.plugin part = part := by
  rw [fromPlugin, List.filter_eq_self]
  exact fun r hr => decide_eq_true (plugin_of_mem_part h hr)

/-- The other plugins' parts have nothing from this one. -/
theorem fromPlugin_others {plugin : Plugin} (hother : ∀ p ∈ plugins, p.plugin ≠ plugin)
    {parts : List (List PackageSummary)} (h : plugins.mapM (pluginPkgs request) = .ok parts) :
    fromPlugin plugin parts.flatten = [] := by
  rw [fromPlugin, List.filter_eq_nil_iff]
  intro r hr hplugin
  obtain ⟨part, hpart, hr⟩ := List.mem_flatten.mp hr
  obtain ⟨p, hp, hok⟩ := exists_of_mem_mapM h hpart
  rw [plugin_of_mem_part hok hr, decide_eq_true_iff] at hplugin
  exact hother p hp (Option.some.inj hplugin)

/-- The parts of some plugins, one more, and others. -/
theorem mapM_parts_iff {before after : List (PkgsPluginWithServer ε)} {p : PkgsPluginWithServer ε}
    {parts : List (List PackageSummary)} :
    (before ++ p :: after).mapM (pluginPkgs request) = .ok parts ↔
      ∃ pre part post, before.mapM (pluginPkgs request) = .ok pre ∧ pluginPkgs request p = .ok part ∧
        after.mapM (pluginPkgs request) = .ok post ∧ parts = pre ++ part :: post := by
  rw [List.mapM_append, List.mapM_cons]
  constructor
  · intro h
    obtain ⟨pre, hpre, hrest⟩ := bind_eq_ok h
    obtain ⟨rest, hmid, hret⟩ := bind_eq_ok hrest
    obtain ⟨part, hpart, hmid⟩ := bind_eq_ok hmid
    obtain ⟨post, hpost, hret'⟩ := bind_eq_ok hmid
    refine ⟨pre, part, post, hpre, hpart, hpost, ?_⟩
    rw [← Except.ok.inj hret, ← Except.ok.inj hret']
  · rintro ⟨pre, part, post, hpre, hpart, hpost, rfl⟩
    rw [hpre, hpart, hpost]
    rfl

/-- The plugins all answer exactly if each of them does. -/
theorem mapM_pluginPkgs_isOk : (∃ parts, plugins.mapM (pluginPkgs request) = .ok parts) ↔
    ∀ p ∈ plugins, ∃ response, p.server request = .ok response := by
  constructor
  · rintro ⟨parts, hparts⟩ p hp
    obtain ⟨part, -, hpart⟩ := mapM_eq_ok hparts p hp
    unfold pluginPkgs at hpart
    cases hserver : p.server request with
    | error err =>
        rw [hserver] at hpart
        cases hpart
    | ok response => exact ⟨response, rfl⟩
  · intro hall
    induction plugins with
    | nil => exact ⟨[], rfl⟩
    | cons p plugins ih =>
        rw [List.forall_mem_cons] at hall
        obtain ⟨response, hresponse⟩ := hall.1
        obtain ⟨parts, hparts⟩ := ih hall.2
        refine ⟨response.availablePackagesSummaries.map (withPlugin p.plugin) :: parts, ?_⟩
        rw [List.mapM_cons, hparts, pluginPkgs, hresponse]
        rfl

end Parts

section Helm

variable {s : HelmPlugin.Server} {pg : Postgres} {table : ChartTable} {request : SummariesRequest}
  {ns : String} {charts : List ChartRow}

/-- The rows of the first page. -/
def firstRows (order : RowOrder pg) (pageSize : Int) (charts : List ChartRow) : List ChartRow :=
  if pageSize > 0 then (order.sort charts).take pageSize.toNat else order.sort charts

theorem selectCharts_first (order : RowOrder pg) (hrequest : Accepted s request ns)
    (hcharts : matchingCharts pg table s.globalPackagingNamespace (request.chartQuery ns) =
      .ok charts) :
    s.selectCharts pg table order { request with pageToken := "" } =
      .ok (firstRows order request.pageSize.toInt charts, 1) := by
  unfold firstRows
  by_cases hpos : request.pageSize.toInt > 0
  · have hsize : request.pageSize.toInt = request.pageSize.toInt.toNat := by omega
    have hpage := HelmPlugin.selectCharts_page order hrequest hsize (by omega) hcharts
      (k := 0) (by omega)
    rw [if_pos hpos]
    simpa [HelmPlugin.pageToken, page] using hpage
  · have hmatching := hcharts
    unfold matchingCharts at hmatching
    rw [if_neg hpos, HelmPlugin.selectCharts_eq hrequest
      (show HelmPlugin.pageOffsetFromPageToken "" = .ok 1 from if_pos rfl)]
    unfold getPaginatedChartListWithFilters getPaginatedChartList
    dsimp only at hmatching ⊢
    rw [hmatching]
    simp only [bind, Except.bind, if_neg hpos]
    rfl

/-- The part of the helm plugin, if there is one. -/
theorem helmPart_eq_ok (order : RowOrder pg) (hrequest : Accepted s request ns)
    (hcharts : matchingCharts pg table s.globalPackagingNamespace (request.chartQuery ns) =
      .ok charts) {part : List PackageSummary} :
    pluginPkgs { request with pageToken := "" } ⟨helmPlugin, helmServer s pg table order⟩ =
        .ok part ↔
      ∃ first, (firstRows order request.pageSize.toInt charts).mapM s.responsePackage = .ok first ∧
        part = first.map ofHelmSummary := by
  unfold pluginPkgs helmServer HelmPlugin.Server.getAvailablePackageSummaries
  dsimp only
  rw [selectCharts_first order hrequest hcharts]
  dsimp only [bind, Except.bind]
  cases (firstRows order request.pageSize.toInt charts).mapM s.responsePackage with
  | error err =>
      constructor
      · intro h
        cases h
      · rintro ⟨first, hfirst, -⟩
        cases hfirst
  | ok first =>
      have hmap : (first.map ofHelmSummary).map (withPlugin helmPlugin) = first.map ofHelmSummary := by
        rw [List.map_map]
        rfl
      constructor
      · intro h
        refine ⟨first, rfl, ?_⟩
        rw [← Except.ok.inj h]
        exact hmap
      · rintro ⟨first', hfirst, rfl⟩
        rw [← Except.ok.inj hfirst]
        exact congrArg Except.ok hmap

/-- What the walk over the core API lists, and what of it is from the helm plugin. -/
theorem coreWalk_iff (orders : Nat → RowOrder pg) (hrequest : Accepted s request ns)
    (hcharts : matchingCharts pg table s.globalPackagingNamespace (request.chartQuery ns) =
      .ok charts) {before after : List (PkgsPluginWithServer RpcError)} {pkgs : List PackageSummary} :
    TokenWalk (fun k => getAvailablePackageSummaries (corePlugins s pg table before after (orders k)))
        request 0 "" pkgs ↔
      ∃ pre first post, before.mapM (pluginPkgs { request with pageToken := "" }) = .ok pre ∧
        (firstRows (orders 0) request.pageSize.toInt charts).mapM s.responsePackage = .ok first ∧
        after.mapM (pluginPkgs { request with pageToken := "" }) = .ok post ∧
        pkgs = (pre ++ first.map ofHelmSummary :: post).flatten := by
  unfold corePlugins
  rw [tokenWalk_core]
  simp only [mapM_parts_iff]
  constructor
  · rintro ⟨parts, ⟨pre, part, post, hpre, hpart, hpost, rfl⟩, hpkgs⟩
    obtain ⟨first, hfirst, rfl⟩ := (helmPart_eq_ok (orders 0) hrequest hcharts).mp hpart
    exact ⟨pre, first, post, hpre, hfirst, hpost, hpkgs⟩
  · rintro ⟨pre, first, post, hpre, hfirst, hpost, hpkgs⟩
    have hpart := (helmPart_eq_ok (orders 0) hrequest hcharts).mpr ⟨first, hfirst, rfl⟩
    exact ⟨_, ⟨pre, _, post, hpre, hpart, hpost, rfl⟩, hpkgs⟩

/-- Of an answer with the helm plugin among others, what is from the helm plugin. -/
theorem fromPlugin_core {before after : List (PkgsPluginWithServer RpcError)}
    (hother : ∀ p ∈ before ++ after, p.plugin ≠ helmPlugin) {pre post : List (List PackageSummary)}
    (hpre : before.mapM (pluginPkgs request) = .ok pre)
    (hpost : after.mapM (pluginPkgs request) = .ok post)
    (first : List HelmPlugin.AvailablePackageSummary) :
    fromPlugin helmPlugin (pre ++ first.map ofHelmSummary :: post).flatten =
      first.map ofHelmSummary := by
  have hself : fromPlugin helmPlugin (first.map ofHelmSummary) = first.map ofHelmSummary := by
    rw [fromPlugin, List.filter_eq_self]
    intro r hr
    obtain ⟨pkg, -, rfl⟩ := List.mem_map.mp hr
    rfl
  rw [List.flatten_append, List.flatten_cons, fromPlugin_append, fromPlugin_append, hself,
    fromPlugin_others (fun p hp => hother p (List.mem_append_left _ hp)) hpre,
    fromPlugin_others (fun p hp => hother p (List.mem_append_right _ hp)) hpost,
    List.nil_append, List.append_nil]

theorem length_firstRows (order : RowOrder pg) {pageSize : Int} (hpos : pageSize > 0)
    (charts : List ChartRow) :
    (firstRows order pageSize charts).length = min pageSize.toNat charts.length := by
  rw [firstRows, if_pos hpos, List.length_take, (order.isOrder charts).perm.length_eq]

/-- The first page has all charts if they fit. -/
theorem firstRows_perm (order : RowOrder pg) {pageSize : Int}
    (hfits : pageSize ≤ 0 ∨ charts.length ≤ pageSize) :
    (firstRows order pageSize charts).Perm charts := by
  have hperm := (order.isOrder charts).perm
  unfold firstRows
  by_cases hpos : pageSize > 0
  · have hlen : (order.sort charts).length ≤ pageSize.toNat := by
      rw [hperm.length_eq]
      omega
    rw [if_pos hpos, List.take_of_length_le hlen]
    exact hperm
  · rw [if_neg hpos]
    exact hperm

end Helm

/-- A client that follows the tokens of the core API has seen every chart that matches exactly if the
    other plugins answer, the query can be evaluated, the charts are valid, and they fit on one
    page. -/
theorem core_lists_iff (s : HelmPlugin.Server) (pg : Postgres) (table : ChartTable)
    (request : SummariesRequest) (ns : String) (hrequest : Accepted s request ns)
    (before after : List (PkgsPluginWithServer RpcError))
    (hother : ∀ p ∈ before ++ after, p.plugin ≠ helmPlugin) (orders : Nat → RowOrder pg) :
    CoreListsAll s pg table ns request before after orders ↔
      (∀ p ∈ before ++ after,
        ∃ response, p.server { request with pageToken := "" } = .ok response) ∧
      ∃ charts, matchingCharts pg table s.globalPackagingNamespace (request.chartQuery ns) =
          .ok charts ∧
        (∀ row ∈ charts, s.invalid row.info = none) ∧
        (request.pageSize.toInt ≤ 0 ∨ charts.length ≤ request.pageSize.toInt) := by
  constructor
  · rintro ⟨charts, summaries, pkgs, hcharts, hsummaries, hwalk, hperm⟩
    obtain ⟨pre, first, post, hpre, hfirst, hpost, rfl⟩ :=
      (coreWalk_iff orders hrequest hcharts).mp hwalk
    refine ⟨fun p hp => ?_, charts, hcharts,
      (HelmPlugin.mapM_responsePackage s charts).mpr ⟨summaries, hsummaries⟩, ?_⟩
    · rcases List.mem_append.mp hp with hp | hp
      · exact mapM_pluginPkgs_isOk.mp ⟨pre, hpre⟩ p hp
      · exact mapM_pluginPkgs_isOk.mp ⟨post, hpost⟩ p hp
    · rw [fromPlugin_core hother hpre hpost] at hperm
      have hlen := hperm.length_eq
      rw [List.length_map, List.length_map, HelmPlugin.length_mapM_ok hfirst,
        HelmPlugin.length_mapM_ok hsummaries] at hlen
      by_cases hpos : request.pageSize.toInt > 0
      · rw [length_firstRows (orders 0) hpos] at hlen
        omega
      · exact Or.inl (by omega)
  · rintro ⟨hall, charts, hcharts, hvalid, hfits⟩
    obtain ⟨summaries, hsummaries⟩ := (HelmPlugin.mapM_responsePackage s charts).mp hvalid
    obtain ⟨first, hfirst, hperm⟩ := mapM_perm (firstRows_perm (orders 0) hfits).symm hsummaries
    obtain ⟨pre, hpre⟩ := mapM_pluginPkgs_isOk.mpr fun p hp =>
      hall p (List.mem_append_left _ hp)
    obtain ⟨post, hpost⟩ := mapM_pluginPkgs_isOk.mpr fun p hp =>
      hall p (List.mem_append_right _ hp)
    refine ⟨charts, summaries, _, hcharts, hsummaries,
      (coreWalk_iff orders hrequest hcharts).mpr ⟨pre, first, post, hpre, hfirst, hpost, rfl⟩, ?_⟩
    rw [fromPlugin_core hother hpre hpost]
    exact (hperm.map ofHelmSummary).symm

/-! ### Two charts beside a plugin without pages -/

/-- The kapp plugin, with one package. It does not look at the page that is asked for. -/
def kappEntry : PkgsPluginWithServer RpcError where
  plugin := ⟨"kapp_controller.packages", "v1alpha1"⟩
  server _ := .ok ⟨[⟨none, "simple-app.corp.com", "1.2.3", "", ""⟩], ""⟩

/-- With two charts to a page both are listed, with one chart to a page they are not. -/
theorem core_lists_twoNginx :
    let orders := fun _ : Nat => RowOrder.stable HelmPlugin.namespaceQueries
    CoreListsAll HelmPlugin.teamServer HelmPlugin.namespaceQueries HelmPlugin.twoNginx "team"
        (HelmPlugin.teamRequest 2) [] [kappEntry] orders ∧
      ¬ CoreListsAll HelmPlugin.teamServer HelmPlugin.namespaceQueries HelmPlugin.twoNginx "team"
        (HelmPlugin.teamRequest 1) [] [kappEntry] orders := by
  intro orders
  have hother : ∀ p ∈ [] ++ [kappEntry], p.plugin ≠ helmPlugin := by
    intro p hp
    rw [List.mem_singleton.mp hp]
    decide
  have hiff := fun pageSize => core_lists_iff HelmPlugin.teamServer HelmPlugin.namespaceQueries
    HelmPlugin.twoNginx (HelmPlugin.teamRequest pageSize) "team"
    (HelmPlugin.accepted_teamRequest pageSize) [] [kappEntry] hother orders
  constructor
  · refine (hiff 2).mpr ⟨fun p hp => ?_, HelmPlugin.twoNginx.rows,
      HelmPlugin.matchingCharts_twoNginx 2, by decide, Or.inr (by decide)⟩
    rw [List.mem_singleton.mp hp]
    exact ⟨_, rfl⟩
  · intro hlists
    obtain ⟨-, charts, hcharts, -, hfits⟩ := (hiff 1).mp hlists
    rw [← Except.ok.inj ((HelmPlugin.matchingCharts_twoNginx 1).symm.trans hcharts)] at hfits
    exact absurd hfits (by decide)

end Kubeapps.KubeappsApis
