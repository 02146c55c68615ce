/-
  The handlers of kubeops that install and upgrade a release
  (cmd/kubeops/internal/handler/handler.go), with `agent.UpgradeRelease` and
  `agent.CreateRelease` run alone (pkg/agent/agent.go; CreateRelease.lean has many at once).

  `createRelease` and `upgradeRelease` do the same four steps, parse the request, look up the
  repository, get the chart and the registry secrets, and call the agent. They differ twice:

  * `createRelease` looks up the repository on the cluster of Kubeapps, `upgradeRelease` on the
    target. `sameLookup_iff`: the lookups agree for every token and request only if these are one
    cluster (or neither has a client).
  * `upgradeRelease` does not look at the error of `GetChart`. `upgradeRelease_reports_iff`: it
    calls the agent without a chart unless the registry secrets fail too.

  Helm's actions are fields of `HandlerEnv`, functions of the release store.
-/
import Kubeapps.Agent.CreateRelease
import Kubeapps.Kubeops.Chart

namespace Kubeapps.Kubeops

open Kubeapps.Lib Kubeapps.Controller Kubeapps.Kube.Clusters

/-! ## Configuration -/

/-- `Options`, as far as the two handlers read them. The main function ends without a
    `POD_NAMESPACE`. -/
structure Options where
  userAgent : String
  kubeappsNamespace : String
  clustersConfig : ClustersConfig
  kubeappsNamespace_ne : kubeappsNamespace ≠ ""

/-- What the process has for every request. The handler is made from the options. -/
structure Installation where
  options : Options
  kubeHandler : KubeHandler
  clustersConfig_eq : kubeHandler.clustersConfig = options.clustersConfig

/-- `Config`: the installation, with the target cluster and the token of a request. -/
structure Config extends Installation where
  cluster : String
  token : String

/-- `KubeappsClusterName`. -/
def Installation.kubeappsCluster (i : Installation) : String :=
  i.options.clustersConfig.kubeappsClusterName

/-- A request; reading its body may fail. -/
structure Request where
  body : Except String String

structure Params where
  namespaceParam : String
  releaseName : String
  deriving DecidableEq, Repr

/-- A `Resolver`: `InitClient` makes the client that `GetChart` uses. -/
structure Resolver (Chart : Type) where
  initClient : AppRepository → Option Secret → Option Secret →
    Except String (ParsedDetails → String → Except String Chart)

/-- What the handlers call outside of the modelled code. An action of Helm on the store returns,
    and leaves a store. -/
structure HandlerEnv (Chart Release CompatRelease Store : Type) extends Env where
  resolver : String → String → Resolver Chart
  newDockerSecretsPostRenderer : StringMap → Except String StringMap
  getValues : String → Except String Value
  readValues : String → Except String Value
  getRelease : String → Store → Except String Release
  install : String → String → StringMap → Option Chart → Value → Store →
    Except String Release × Store
  uninstall : String → Store → Except String Unit × Store
  upgrade : String → StringMap → Option Chart → Value → Store → Except String Release × Store
  convert : Release → Except String CompatRelease
  /-- The body of `returnForbiddenActions`, if `ParseForbiddenActions` finds any. -/
  forbiddenActions : String → Option String

variable {Chart Release CompatRelease Store : Type}

/-! ## Answers -/

inductive Response (Release CompatRelease : Type) where
  | error (code : Nat) (body : String)
  | release (r : Release)
  | compatRelease (r : CompatRelease)
  deriving DecidableEq

/-- `[rR]elease.*failed` on one line. -/
def releaseFailed (line : List Char) : Bool :=
  line.tails.any fun t =>
    ("release".toList.isPrefixOf t || "Release".toList.isPrefixOf t) &&
      decide ("failed".toList <:+: t.drop 7)

/-- `ErrorCode`. -/
def errorCode (err : String) : Nat :=
  if contains err "is still in use" || contains err "already exists" then 409
  else if contains err "Unauthorized" || contains err "forbidden" then 403
  else if contains err "not found" || contains err "no revision for release" then 404
  else if (err.toList.splitOn '\n').any releaseFailed then 422
  else 500

/-- `returnErrMessage`. -/
def returnErrMessage (env : HandlerEnv Chart Release CompatRelease Store) (err : String) :
    Response Release CompatRelease :=
  let code := errorCode err
  if code = 403 then
    match env.forbiddenActions err with
    | some body => .error 403 body
    | none => .error code err
  else .error code err

/-! ## The agent -/

/-- What both handlers give to the agent. `chart` is a pointer. -/
structure ReleaseArgs (Chart : Type) where
  name : String
  values : String
  chart : Option Chart
  registrySecrets : StringMap

/-- `agent.CreateRelease`. -/
def agentCreateRelease (env : HandlerEnv Chart Release CompatRelease Store) (ns : String)
    (args : ReleaseArgs Chart) (st : Store) : Except String Release × Store :=
  match env.getRelease args.name st with
  | .ok _ => (.error ("release " ++ args.name ++ " already exists"), st)
  | .error _ =>
      match env.newDockerSecretsPostRenderer args.registrySecrets with
      | .error err => (.error err, st)
      | .ok postRenderer =>
          match env.getValues args.values with
          | .error err => (.error err, st)
          | .ok values =>
              match env.install args.name ns postRenderer args.chart values st with
              | (.ok release, st') => (.ok release, st')
              | (.error err, st') =>
                  match env.uninstall args.name st' with
                  | (.ok (), st'') => (.error (Agent.deleteMessage args.name err none), st'')
                  | (.error errDelete, st'') =>
                      (.error (Agent.deleteMessage args.name err (some errDelete)), st'')

/-- `agent.UpgradeRelease`. -/
def agentUpgradeRelease (env : HandlerEnv Chart Release CompatRelease Store)
    (args : ReleaseArgs Chart) (st : Store) : Except String Release × Store :=
  match env.getRelease args.name st with
  | .error err => (.error err, st)
  | .ok _ =>
      match env.newDockerSecretsPostRenderer args.registrySecrets with
      | .error err => (.error err, st)
      | .ok postRenderer =>
          match env.readValues args.values with
          | .error err =>
              (.error ("Unable to upgrade the release because values could not be parsed: " ++ err),
                st)
          | .ok values =>
              match env.upgrade args.name postRenderer args.chart values st with
              | (.error err, st') => (.error ("Unable to upgrade the release: " ++ err), st')
              | (.ok res, st') => (.ok res, st')

/-! ## The steps -/

/-- `handlerutil.ParseRequest`. -/
def parseRequest (env : Env) (req : Request) : Except String ParsedDetails := do
  let body ← req.body
  parseDetails env body

/-- `GetAppRepoAndRelatedSecrets` with the arguments that the handlers share. -/
def lookupRepo (env : Env) (cfg : Config) (cluster : String) (details : ParsedDetails) :
    Except String RepoAndSecrets :=
  getAppRepoAndRelatedSecrets env details.appRepositoryResourceName
    details.appRepositoryResourceNamespace cfg.kubeHandler cfg.token cluster
    cfg.options.kubeappsNamespace cfg.kubeappsCluster

/-- The error of the handlers for a lookup that failed. -/
def lookupError (details : ParsedDetails) (err : String) : String :=
  "unable to get app repository " ++ details.appRepositoryResourceName.quote ++ ": " ++ err

/-- `handlerutil.GetChart` with the resolver for the type of the repository. -/
def getChart (env : HandlerEnv Chart Release CompatRelease Store) (cfg : Config)
    (details : ParsedDetails) (repo : RepoAndSecrets) : Except String Chart := do
  let resolver := env.resolver repo.appRepo.spec.type cfg.options.userAgent
  let client ← resolver.initClient repo.appRepo repo.caCertSecret repo.authSecret
  client details repo.appRepo.spec.url

/-- `RegistrySecretsPerDomain` with the arguments that the handlers share. -/
def lookupRegistrySecrets (env : Env) (cfg : Config) (repo : RepoAndSecrets) :
    Except String StringMap :=
  registrySecretsPerDomain env repo.appRepo.spec.dockerRegistrySecrets cfg.cluster repo.appRepo.ns
    cfg.token cfg.kubeHandler

/-! ## The handlers -/

/-- `CreateRelease` up to the call of the agent. -/
def createArgs (env : HandlerEnv Chart Release CompatRelease Store) (cfg : Config) (req : Request) :
    Except String (ReleaseArgs Chart) := do
  let chartDetails ← parseRequest env.toEnv req
  let repo ← (lookupRepo env.toEnv cfg cfg.kubeappsCluster chartDetails).mapError
    (lookupError chartDetails)
  let ch ← getChart env cfg chartDetails repo
  let registrySecrets ← lookupRegistrySecrets env.toEnv cfg repo
  return ⟨chartDetails.releaseName, chartDetails.values, some ch, registrySecrets⟩

/-- `CreateRelease`. -/
def createRelease (env : HandlerEnv Chart Release CompatRelease Store) (cfg : Config)
    (req : Request) (params : Params) (st : Store) : Response Release CompatRelease × Store :=
  match createArgs env cfg req with
  | .error err => (returnErrMessage env err, st)
  | .ok args =>
      match agentCreateRelease env params.namespaceParam args st with
      | (.error err, st') => (returnErrMessage env err, st')
      | (.ok release, st') => (.release release, st')

/-- `upgradeRelease` up to the call of the agent. -/
def upgradeArgs (env : HandlerEnv Chart Release CompatRelease Store) (cfg : Config) (req : Request)
    (params : Params) : Except String (ReleaseArgs Chart) := do
  let chartDetails ← parseRequest env.toEnv req
  let repo ← (lookupRepo env.toEnv cfg cfg.cluster chartDetails).mapError
    (lookupError chartDetails)
  -- the next call overwrites the error of this one
  let ch := (getChart env cfg chartDetails repo).toOption
  let registrySecrets ← lookupRegistrySecrets env.toEnv cfg repo
  return ⟨params.releaseName, chartDetails.values, ch, registrySecrets⟩

/-- `upgradeRelease`. -/
def upgradeRelease (env : HandlerEnv Chart Release CompatRelease Store) (cfg : Config)
    (req : Request) (params : Params) (st : Store) : Response Release CompatRelease × Store :=
  match upgradeArgs env cfg req params with
  | .error err => (returnErrMessage env err, st)
  | .ok args =>
      match agentUpgradeRelease env args st with
      | (.error err, st') => (returnErrMessage env err, st')
      | (.ok rel, st') =>
          match env.convert rel with
          | .error err => (returnErrMessage env err, st')
          | .ok compatRelease => (.compatRelease compatRelease, st')

/-! ## The lookup of the repository -/

/-- The clientset that a lookup uses, if there is one. -/
def lookupClientset (cfg : Config) (cluster : String) (details : ParsedDetails) :
    Option Clientset :=
  (repoClient cfg.kubeHandler cfg.token cluster cfg.options.kubeappsNamespace cfg.kubeappsCluster
    details.appRepositoryResourceNamespace).toOption.map (·.clientset)

/-- The clientset is that of the service for a global repository, and otherwise the one of the user
    on the cluster of Kubeapps. -/
structure KubeappsIdentity (cfg : Config) (details : ParsedDetails) (cs : Clientset) : Prop where
  service : UsesService cfg.options.kubeappsNamespace cfg.kubeappsCluster
    details.appRepositoryResourceNamespace → cs = cfg.kubeHandler.kubeappsSvcClientset
  user : ¬ UsesService cfg.options.kubeappsNamespace cfg.kubeappsCluster
    details.appRepositoryResourceNamespace →
      newClusterConfig cfg.kubeHandler.config cfg.token cfg.kubeappsCluster
        cfg.kubeHandler.clustersConfig = .ok cs.config

/-- The two handlers look up with one clientset, the right one, and so with one result whatever the
    clusters contain. -/
structure SameLookup (cfg : Config) (details : ParsedDetails) : Prop where
  clientset : lookupClientset cfg cfg.kubeappsCluster details =
    lookupClientset cfg cfg.cluster details
  identity : ∀ cs, lookupClientset cfg cfg.cluster details = some cs →
    KubeappsIdentity cfg details cs
  result : ∀ env : Env, (lookupRepo env cfg cfg.kubeappsCluster details).toOption =
    (lookupRepo env cfg cfg.cluster details).toOption

section Lookup

variable {cfg : Config} {details : ParsedDetails}

/-- The result of a lookup depends on its clientset only. -/
theorem lookupRepo_congr {cluster cluster' : String}
    (hcs : lookupClientset cfg cluster details = lookupClientset cfg cluster' details) (env : Env) :
    (lookupRepo env cfg cluster details).toOption =
      (lookupRepo env cfg cluster' details).toOption := by
  unfold lookupClientset at hcs
  unfold lookupRepo getAppRepoAndRelatedSecrets
  cases hu : repoClient cfg.kubeHandler cfg.token cluster cfg.options.kubeappsNamespace
      cfg.kubeappsCluster details.appRepositoryResourceNamespace with
  | error err =>
      cases hu' : repoClient cfg.kubeHandler cfg.token cluster' cfg.options.kubeappsNamespace
          cfg.kubeappsCluster details.appRepositoryResourceNamespace with
      | error err' => rfl
      | ok u' =>
          rw [hu, hu'] at hcs
          cases hcs
  | ok u =>
      cases hu' : repoClient cfg.kubeHandler cfg.token cluster' cfg.options.kubeappsNamespace
          cfg.kubeappsCluster details.appRepositoryResourceNamespace with
      | error err' =>
          rw [hu, hu'] at hcs
          cases hcs
      | ok u' =>
          rw [hu, hu'] at hcs
          have hclientset : u.clientset = u'.clientset := Option.some.inj hcs
          simp only [Except.mapError, Except.bind, bind, hclientset]

/-- `createRelease` looks up as it should. -/
theorem createRelease_identity {cs : Clientset}
    (hcs : lookupClientset cfg cfg.kubeappsCluster details = some cs) :
    KubeappsIdentity cfg details cs := by
  unfold lookupClientset at hcs
  have hname : cfg.kubeappsCluster = cfg.kubeHandler.clustersConfig.kubeappsClusterName := by
    rw [cfg.clustersConfig_eq]
    rfl
  constructor
  · intro hservice
    rw [repoClient_service hservice, hname] at hcs
    by_cases hunknown : KubeappsClusterUnknown cfg.kubeHandler
    · rw [asSVC_unknown hunknown] at hcs
      cases hcs
    · rw [asSVC_known hunknown] at hcs
      exact (Option.some.inj hcs).symm
  · intro hservice
    rw [repoClient_user hservice] at hcs
    cases hu : cfg.kubeHandler.asUser cfg.token cfg.kubeappsCluster with
    | error err =>
        rw [hu] at hcs
        cases hcs
    | ok u =>
        rw [hu] at hcs
        have hclientset : u.clientset = cs := Option.some.inj hcs
        rw [← hclientset]
        exact asUser_config hu

/-- Without a configuration of the cluster of Kubeapps there is no clientset for it. -/
theorem lookupClientset_unknown (hunknown : KubeappsClusterUnknown cfg.kubeHandler) :
    lookupClientset cfg cfg.kubeappsCluster details = none := by
  have hname : cfg.kubeappsCluster = cfg.kubeHandler.clustersConfig.kubeappsClusterName := by
    rw [cfg.clustersConfig_eq]
    rfl
  have hun : Unreachable cfg.kubeHandler cfg.kubeappsCluster := by
    intro token config hconfig
    rcases newClusterConfig_cases cfg.kubeHandler.config cfg.kubeHandler.clustersConfig token
        cfg.kubeappsCluster with ⟨_, _, herr⟩ | ⟨hknown, _⟩
    · rw [herr] at hconfig
      cases hconfig
    · rw [hname] at hknown
      exact absurd hknown (not_or.mpr ⟨hunknown.1, not_not.mpr hunknown.2⟩)
  unfold lookupClientset
  by_cases hservice : UsesService cfg.options.kubeappsNamespace cfg.kubeappsCluster
      details.appRepositoryResourceNamespace
  · rw [repoClient_service hservice, hname, asSVC_unknown hunknown]
    rfl
  · rw [repoClient_user hservice, unreachable_iff.1 hun]
    rfl

end Lookup

/-- The name of some repository in the namespace of Kubeapps. -/
def globalDetails (options : Options) : ParsedDetails where
  appRepositoryResourceName := "bitnami"
  appRepositoryResourceNamespace := options.kubeappsNamespace
  chartName := "nginx"
  releaseName := "web"
  version := "1.0.0"
  values := ""
  name_ne := by decide
  namespace_ne := options.kubeappsNamespace_ne

/-- The lookups agree for every token and request exactly if the target is the cluster of Kubeapps,
    or no client can be made for either. -/
theorem sameLookup_iff (i : Installation) (cluster : String) :
    (∀ token details, SameLookup ⟨i, cluster, token⟩ details) ↔
      cluster = i.kubeappsCluster ∨
        (KubeappsClusterUnknown i.kubeHandler ∧ Unreachable i.kubeHandler cluster) := by
  constructor
  · intro hall
    by_cases hcluster : cluster = i.kubeappsCluster
    · exact Or.inl hcluster
    right
    have hservice : UsesService i.options.kubeappsNamespace i.kubeappsCluster
        (globalDetails i.options).appRepositoryResourceNamespace := Or.inr rfl
    have hname : i.kubeappsCluster = i.kubeHandler.clustersConfig.kubeappsClusterName := by
      rw [i.clustersConfig_eq]
      rfl
    have hsame : ∀ token, ((i.kubeHandler.asSVC i.kubeappsCluster).toOption.map (·.clientset)) =
        (i.kubeHandler.asUser token cluster).toOption.map (·.clientset) := by
      intro token
      have hcs := (hall token (globalDetails i.options)).clientset
      unfold lookupClientset at hcs
      dsimp only [Installation.kubeappsCluster] at hcs hservice hcluster ⊢
      rw [repoClient_service hservice, repoClient_of_ne hcluster] at hcs
      exact hcs
    by_cases hunknown : KubeappsClusterUnknown i.kubeHandler
    · refine ⟨hunknown, unreachable_iff.2 fun token => ?_⟩
      have hnone := hsame token
      rw [hname, asSVC_unknown hunknown] at hnone
      exact Option.map_eq_none_iff.mp hnone.symm
    · -- the service has one clientset, and those of two users have different tokens
      have htoken : ∀ token, i.kubeHandler.kubeappsSvcClientset.config.bearerToken = token := by
        intro token
        have hcs := hsame token
        rw [hname, asSVC_known hunknown] at hcs
        obtain ⟨u, hu, hcs⟩ := Option.map_eq_some_iff.mp hcs.symm
        have hclientset : u.clientset = i.kubeHandler.kubeappsSvcClientset := hcs
        have hok : i.kubeHandler.asUser token cluster = .ok u := by
          cases hres : i.kubeHandler.asUser token cluster with
          | error err =>
              rw [hres] at hu
              cases hu
          | ok u' =>
              rw [hres] at hu
              rw [← Option.some.inj hu]
        rw [← hclientset]
        exact (newClusterConfig_bearerToken (asUser_config hok)).1
      have htwo : "a" = "b" := (htoken "a").symm.trans (htoken "b")
      exact absurd htwo (by decide)
  · intro hcond token details
    have hclientset : lookupClientset ⟨i, cluster, token⟩ i.kubeappsCluster details =
        lookupClientset ⟨i, cluster, token⟩ cluster details := by
      rcases hcond with hcluster | ⟨hunknown, hun⟩
      · rw [hcluster]
      · by_cases hcluster : cluster = i.kubeappsCluster
        · rw [hcluster]
        · have hnone : lookupClientset ⟨i, cluster, token⟩ i.kubeappsCluster details = none :=
            lookupClientset_unknown hunknown
          refine hnone.trans ?_
          unfold lookupClientset
          rw [repoClient_of_ne hcluster, unreachable_iff.1 hun]
          rfl
    exact ⟨hclientset, fun cs hcs => createRelease_identity (hclientset.trans hcs),
      lookupRepo_congr hclientset⟩

/-- An installation with the additional cluster `cluster-1`. -/
def twoClustersInstallation : Installation where
  options := {
    userAgent := "kubeops", kubeappsNamespace := "kubeapps"
    clustersConfig := (twoClusters "").clustersConfig, kubeappsNamespace_ne := by decide }
  kubeHandler := twoClusters ""
  clustersConfig_eq := rfl

/-- A global repository without secrets. -/
def globalRepo : AppRepository where
  ns := "kubeapps"
  name := "bitnami"
  uid := "uid-1"
  deletionTimestamp := none
  spec := {
    type := "helm", url := "https://charts.bitnami.com/bitnami", auth := ⟨none, none⟩
    resyncRequests := 0, syncJobPodTemplate := .zero, dockerRegistrySecrets := []
    ociRepositories := [], tlsInsecureSkipVerify := false, filterRule := ⟨"", []⟩
    description := "", passCredentials := false }
  ns_valid := validNamespace_kubeapps
  name_valid := validName_bitnamiRepo

/-- The repository is on the cluster of Kubeapps only. -/
def globalRepoEnv : Env where
  getAppRepository config _ _ :=
    if config.host = "https://kubernetes.default" then .ok globalRepo else .error "not found"
  getSecret _ _ _ := .error "not found"
  unmarshalDetails _ := .ok (globalDetails twoClustersInstallation.options).toDetails
  dockerAuths _ := .ok []

/-- On an additional cluster an upgrade does not find the repository from which the release was
    installed. -/
theorem upgrade_looks_up_elsewhere :
    let cfg : Config := ⟨twoClustersInstallation, "cluster-1", "token"⟩
    let details := globalDetails cfg.options
    lookupRepo globalRepoEnv cfg cfg.kubeappsCluster details = .ok ⟨globalRepo, none, none⟩ ∧
      (lookupRepo globalRepoEnv cfg cfg.cluster details).toOption = none ∧
      ¬ SameLookup cfg details := by
  intro cfg details
  have hcreate : lookupRepo globalRepoEnv cfg cfg.kubeappsCluster details =
      .ok ⟨globalRepo, none, none⟩ := rfl
  have hupgrade : (lookupRepo globalRepoEnv cfg cfg.cluster details).toOption = none := by
    decide
  refine ⟨hcreate, hupgrade, fun hsame => ?_⟩
  have hresult := hsame.result globalRepoEnv
  rw [hcreate, hupgrade] at hresult
  cases hresult

/-! ## Failures before the agent is called -/

/-- The first of the steps that fails, with its error. -/
inductive EarlierFailure (env : HandlerEnv Chart Release CompatRelease Store) (cfg : Config)
    (cluster : String) (req : Request) : String → Prop where
  | request {err : String} (hreq : parseRequest env.toEnv req = .error err) :
      EarlierFailure env cfg cluster req err
  | appRepo {details : ParsedDetails} {err : String}
      (hreq : parseRequest env.toEnv req = .ok details)
      (hrepo : lookupRepo env.toEnv cfg cluster details = .error err) :
      EarlierFailure env cfg cluster req (lookupError details err)
  | chart {details : ParsedDetails} {repo : RepoAndSecrets} {err : String}
      (hreq : parseRequest env.toEnv req = .ok details)
      (hrepo : lookupRepo env.toEnv cfg cluster details = .ok repo)
      (hchart : getChart env cfg details repo = .error err) : EarlierFailure env cfg cluster req err
  | registrySecrets {details : ParsedDetails} {repo : RepoAndSecrets} {ch : Chart} {err : String}
      (hreq : parseRequest env.toEnv req = .ok details)
      (hrepo : lookupRepo env.toEnv cfg cluster details = .ok repo)
      (hchart : getChart env cfg details repo = .ok ch)
      (hsecrets : lookupRegistrySecrets env.toEnv cfg repo = .error err) :
      EarlierFailure env cfg cluster req err

/-- `GetChart` returns this chart for the request. -/
def ReturnsChart (env : HandlerEnv Chart Release CompatRelease Store) (cfg : Config)
    (cluster : String) (req : Request) (ch : Chart) : Prop :=
  ∃ details repo, parseRequest env.toEnv req = .ok details ∧
    lookupRepo env.toEnv cfg cluster details = .ok repo ∧ getChart env cfg details repo = .ok ch

/-- A handler that answers like this on the store `st`, with these arguments for the agent: the chart
    among them is one that `GetChart` returned, and an earlier failure is the answer and leaves the
    store alone. -/
structure ReportsFailures (env : HandlerEnv Chart Release CompatRelease Store) (cfg : Config)
    (cluster : String) (req : Request) (args : Except String (ReleaseArgs Chart))
    (st : Store) (answer : Response Release CompatRelease × Store) : Prop where
  chart : ∀ a, args = .ok a → ∃ ch, ReturnsChart env cfg cluster req ch ∧ a.chart = some ch
  failure : ∀ err, EarlierFailure env cfg cluster req err → answer = (returnErrMessage env err, st)

section Failures

variable {env : HandlerEnv Chart Release CompatRelease Store} {cfg : Config} {req : Request}
  {params : Params} {st : Store}

theorem mapError_eq_ok {ε ε' α : Type} {f : ε → ε'} {x : Except ε α} {a : α}
    (h : x.mapError f = .ok a) : x = .ok a := by
  cases x with
  | error e => cases h
  | ok b =>
      have hb : b = a := Except.ok.inj h
      rw [hb]

theorem createRelease_reports : ReportsFailures env cfg cfg.kubeappsCluster req
    (createArgs env cfg req) st (createRelease env cfg req params st) := by
  constructor
  · intro a ha
    obtain ⟨details, hreq, ha⟩ := bind_eq_ok ha
    obtain ⟨repo, hrepo, ha⟩ := bind_eq_ok ha
    obtain ⟨ch, hchart, ha⟩ := bind_eq_ok ha
    obtain ⟨registrySecrets, _, ha⟩ := bind_eq_ok ha
    refine ⟨ch, ⟨details, repo, hreq, mapError_eq_ok hrepo, hchart⟩, ?_⟩
    rw [← Except.ok.inj ha]
  · intro err hfail
    have hargs : createArgs env cfg req = .error err := by
      unfold createArgs
      cases hfail with
      | request hreq =>
          rw [hreq]
          rfl
      | appRepo hreq hrepo =>
          simp only [hreq, hrepo, bind, Except.bind, Except.mapError]
      | chart hreq hrepo hchart =>
          simp only [hreq, hrepo, hchart, bind, Except.bind, Except.mapError]
      | registrySecrets hreq hrepo hchart hsecrets =>
          simp only [hreq, hrepo, hchart, hsecrets, bind, Except.bind, Except.mapError]
    unfold createRelease
    rw [hargs]

/-- The upgrade has arguments for the agent as soon as the other three steps succeed. -/
theorem upgradeArgs_eq (params : Params) {details : ParsedDetails} {repo : RepoAndSecrets}
    (hreq : parseRequest env.toEnv req = .ok details)
    (hrepo : lookupRepo env.toEnv cfg cfg.cluster details = .ok repo) :
    upgradeArgs env cfg req params =
      (lookupRegistrySecrets env.toEnv cfg repo).map fun registrySecrets =>
        ⟨params.releaseName, details.values, (getChart env cfg details repo).toOption,
          registrySecrets⟩ := by
  unfold upgradeArgs
  simp only [hreq, hrepo, bind, Except.bind, Except.mapError]
  cases lookupRegistrySecrets env.toEnv cfg repo with
  | error err => rfl
  | ok registrySecrets => rfl

theorem upgradeRelease_of_error {err : String}
    (hargs : upgradeArgs env cfg req params = .error err) :
    upgradeRelease env cfg req params st = (returnErrMessage env err, st) := by
  unfold upgradeRelease
  rw [hargs]

end Failures

/-- An upgrade reports the failures of the steps before it exactly if, whenever `GetChart` fails,
    the registry secrets fail with the same answer. -/
theorem upgradeRelease_reports_iff (env : HandlerEnv Chart Release CompatRelease Store)
    (cfg : Config) (req : Request) (params : Params) (st : Store) :
    ReportsFailures env cfg cfg.cluster req (upgradeArgs env cfg req params) st
        (upgradeRelease env cfg req params st) ↔
      ∀ details repo err, parseRequest env.toEnv req = .ok details →
        lookupRepo env.toEnv cfg cfg.cluster details = .ok repo →
        getChart env cfg details repo = .error err →
        ∃ err', lookupRegistrySecrets env.toEnv cfg repo = .error err' ∧
          returnErrMessage env err' = returnErrMessage env err := by
  constructor
  · intro hreports details repo err hreq hrepo hchart
    have hargs := upgradeArgs_eq params hreq hrepo
    cases hsecrets : lookupRegistrySecrets env.toEnv cfg repo with
    | error err' =>
        refine ⟨err', rfl, ?_⟩
        rw [hsecrets] at hargs
        have hanswer := hreports.failure err (.chart hreq hrepo hchart)
        rw [upgradeRelease_of_error hargs] at hanswer
        exact (Prod.ext_iff.mp hanswer).1
    | ok registrySecrets =>
        rw [hsecrets, hchart] at hargs
        obtain ⟨ch, _, hnil⟩ := hreports.chart _ hargs
        cases hnil
  · intro hcond
    constructor
    · intro a ha
      obtain ⟨details, hreq, hrest⟩ := bind_eq_ok ha
      obtain ⟨repo, hrepo, hrest⟩ := bind_eq_ok hrest
      have hrepo := mapError_eq_ok hrepo
      rw [upgradeArgs_eq _ hreq hrepo] at ha
      cases hsecrets : lookupRegistrySecrets env.toEnv cfg repo with
      | error err' =>
          rw [hsecrets] at ha
          cases ha
      | ok registrySecrets =>
          cases hchart : getChart env cfg details repo with
          | error err =>
              obtain ⟨err', herr, _⟩ := hcond details repo err hreq hrepo hchart
              rw [hsecrets] at herr
              cases herr
          | ok ch =>
              refine ⟨ch, ⟨details, repo, hreq, hrepo, hchart⟩, ?_⟩
              rw [hsecrets, hchart] at ha
              rw [← Except.ok.inj ha]
              rfl
    · intro err hfail
      cases hfail with
      | request hreq =>
          apply upgradeRelease_of_error
          unfold upgradeArgs
          rw [hreq]
          rfl
      | appRepo hreq hrepo =>
          apply upgradeRelease_of_error
          unfold upgradeArgs
          simp only [hreq, hrepo, bind, Except.bind, Except.mapError]
      | chart hreq hrepo hchart =>
          obtain ⟨err', hsecrets, hanswer⟩ := hcond _ _ _ hreq hrepo hchart
          rw [← hanswer]
          apply upgradeRelease_of_error
          rw [upgradeArgs_eq _ hreq hrepo, hsecrets]
          rfl
      | registrySecrets hreq hrepo hchart hsecrets =>
          apply upgradeRelease_of_error
          rw [upgradeArgs_eq _ hreq hrepo, hsecrets]
          rfl

/-- One release, `web`; the download of every chart fails. A chart is its name, a release its name
    with its chart, and an upgrade without a chart fails. -/
def noDownloadEnv : HandlerEnv String (String × String) (String × String) (List String) where
  toEnv := globalRepoEnv
  resolver _ _ := ⟨fun _ _ _ => .ok fun _ _ => .error "chart download request failed"⟩
  newDockerSecretsPostRenderer secrets := .ok secrets
  getValues _ := .ok (.map [])
  readValues _ := .ok (.map [])
  getRelease name st := if name ∈ st then .ok (name, "nginx") else .error "release: not found"
  install name _ _ ch _ st := (.ok (name, ch.getD ""), name :: st)
  uninstall name st := (.ok (), st.filter (· ≠ name))
  upgrade name _ ch _ st :=
    match ch with
    | some ch => (.ok (name, ch), st)
    | none => (.error "no chart provided", st)
  convert release := .ok release
  forbiddenActions _ := none

/-- The agent is called without a chart, and the download error is not the answer. -/
theorem upgradeRelease_without_chart :
    let cfg : Config := ⟨twoClustersInstallation, "default", "token"⟩
    let req : Request := ⟨.ok ""⟩
    let params : Params := ⟨"default", "web"⟩
    upgradeArgs noDownloadEnv cfg req params = .ok ⟨"web", "", none, ∅⟩ ∧
      upgradeRelease noDownloadEnv cfg req params ["web"] =
        (.error 500 "Unable to upgrade the release: no chart provided", ["web"]) ∧
      createRelease noDownloadEnv cfg req params ["web"] =
        (.error 500 "chart download request failed", ["web"]) ∧
      ¬ ReportsFailures noDownloadEnv cfg cfg.cluster req (upgradeArgs noDownloadEnv cfg req params)
        ["web"] (upgradeRelease noDownloadEnv cfg req params ["web"]) := by
  intro cfg req params
  have hargs : upgradeArgs noDownloadEnv cfg req params = .ok ⟨"web", "", none, ∅⟩ := rfl
  refine ⟨hargs, by decide +kernel, by decide, fun hreports => ?_⟩
  obtain ⟨ch, _, hnil⟩ := hreports.chart _ hargs
  cases hnil

end Kubeapps.Kubeops
