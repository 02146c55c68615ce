/-
  What kubeops looks up for a chart request (pkg/chart/chart.go: ParseDetails,
  GetAppRepoAndRelatedSecrets, RegistrySecretsPerDomain).

  An API server answers by the client that asks, and a client is the config it was made from
  (ClusterConfig.lean), so `Env.getAppRepository` and `Env.getSecret` are functions of the config.
  Whether a body or a `.dockerconfigjson` decodes is also a field of `Env`.
-/
import Kubeapps.Controller.AppRepository
import Kubeapps.Kube.ClusterConfig

namespace Kubeapps.Kubeops

open Kubeapps.Controller Kubeapps.Kube.Clusters

/-- What is read of a `corev1.Secret`. -/
structure Secret where
  name : String
  type : String
  data : StringMap
  deriving DecidableEq

/-- `Details`. -/
structure Details where
  appRepositoryResourceName : String
  appRepositoryResourceNamespace : String
  chartName : String
  releaseName : String
  version : String
  values : String
  deriving DecidableEq, Repr

/-- What `ParseDetails` has checked. -/
structure ParsedDetails extends Details where
  name_ne : appRepositoryResourceName ≠ ""
  namespace_ne : appRepositoryResourceNamespace ≠ ""

/-- What answers outside of the program. -/
structure Env where
  getAppRepository : RestConfig → String → String → Except String AppRepository
  getSecret : RestConfig → String → String → Except String Secret
  unmarshalDetails : String → Except String Details
  /-- The keys of `auths` in a docker config. -/
  dockerAuths : String → Except String (List String)

/-- `ParseDetails`. -/
def parseDetails (env : Env) (data : String) : Except String ParsedDetails :=
  match env.unmarshalDetails data with
  | .error err => .error ("Unable to parse request body: " ++ err)
  | .ok details =>
      if hname : details.appRepositoryResourceName = "" then
        .error "an AppRepositoryResourceName is required"
      else if hns : details.appRepositoryResourceNamespace = "" then
        .error "an AppRepositoryResourceNamespace is required"
      else .ok ⟨details, hname, hns⟩

/-- `Error()` of a `ClusterError`. -/
def clusterErrorText : ClusterError → String
  | .noConfiguration cluster => "cluster " ++ cluster.quote ++ " has no configuration"
  | .clientset msg => msg

/-- The client of `GetAppRepoAndRelatedSecrets`: the user's, or the service's for a global
    repository if the cluster is the one of Kubeapps. The user's is made in either case. -/
def repoClient (handler : KubeHandler) (userAuthToken cluster kubeappsNamespace kubeappsCluster
    appRepoNamespace : String) : Except ClusterError UserHandler :=
  let client := handler.asUser userAuthToken cluster
  let isKubeappsCluster := cluster = kubeappsCluster
  let nonUIKubeappsCluster := cluster = ""
  let isGlobalAppRepository := kubeappsNamespace = appRepoNamespace
  if isKubeappsCluster ∧ (nonUIKubeappsCluster ∨ isGlobalAppRepository) then handler.asSVC cluster
  else client

/-- The repository with its CA secret and its auth secret. -/
structure RepoAndSecrets where
  appRepo : AppRepository
  caCertSecret : Option Secret
  authSecret : Option Secret
  deriving DecidableEq

/-- `GetAppRepoAndRelatedSecrets`. -/
def getAppRepoAndRelatedSecrets (env : Env) (appRepoName appRepoNamespace : String)
    (handler : KubeHandler) (userAuthToken cluster kubeappsNamespace kubeappsCluster : String) :
    Except String RepoAndSecrets := do
  let client ← (repoClient handler userAuthToken cluster kubeappsNamespace kubeappsCluster
    appRepoNamespace).mapError fun err => "unable to create clientset: " ++ clusterErrorText err
  let config := client.clientset.config
  let appRepo ← (env.getAppRepository config appRepoName appRepoNamespace).mapError fun err =>
    "unable to get app repository " ++ appRepoName.quote ++ ": " ++ err
  let caCertSecret ←
    match appRepo.spec.auth.customCA with
    | some ref => (some <$> env.getSecret config ref.name appRepo.ns).mapError fun err =>
        "unable to read secret " ++ ref.name.quote ++ ": " ++ err
    | none => pure none
  let authSecret ←
    match appRepo.spec.auth.header with
    | some ref => some <$> env.getSecret config ref.name appRepo.ns
    | none => pure none
  return ⟨appRepo, caCertSecret, authSecret⟩

/-- One secret of the loop of `RegistrySecretsPerDomain`. -/
def addRegistrySecret (env : Env) (config : RestConfig) (ns : String) (secretsPerDomain : StringMap)
    (secretName : String) : Except String StringMap := do
  let secret ← env.getSecret config secretName ns
  if secret.type ≠ "kubernetes.io/dockerconfigjson" then
    throw ("AppRepository secret must be of type \"kubernetes.io/dockerconfigjson\". Secret " ++
      secretName.quote ++ " had type " ++ secret.type.quote)
  match secret.data.lookup ".dockerconfigjson" with
  | none =>
      throw ("AppRepository secret must have a data map with a key \".dockerconfigjson\". Secret " ++
        secretName.quote ++ " did not")
  | some dockerConfigJSONBytes =>
      let auths ← env.dockerAuths dockerConfigJSONBytes
      return auths.foldl (fun m key => m.insert key secretName) secretsPerDomain

/-- `RegistrySecretsPerDomain`: the name of the secret for each registry domain. -/
def registrySecretsPerDomain (env : Env) (appRepoSecrets : List String)
    (cluster ns token : String) (authHandler : KubeHandler) : Except String StringMap := do
  let client ← (authHandler.asUser token cluster).mapError clusterErrorText
  appRepoSecrets.foldlM (addRegistrySecret env client.clientset.config ns) ∅

/-! ## The client of a lookup -/

section Client

variable {h : KubeHandler} {token cluster : String}

theorem getSvcClientset_kubeapps (config : RestConfig) :
    h.getSvcClientsetForCluster h.clustersConfig.kubeappsClusterName config =
      .ok h.kubeappsSvcClientset := if_pos (Or.inr rfl)

/-- A name without a configuration is the only error. -/
theorem newClusterConfig_cases (inClusterConfig : RestConfig) (clustersConfig : ClustersConfig)
    (token cluster : String) :
    (cluster ≠ "" ∧ clustersConfig.clusters cluster = none ∧
      newClusterConfig inClusterConfig token cluster clustersConfig =
        .error (.noConfiguration cluster)) ∨
    ((cluster = "" ∨ clustersConfig.clusters cluster ≠ none) ∧
      ∃ config, newClusterConfig inClusterConfig token cluster clustersConfig = .ok config) := by
  unfold newClusterConfig
  dsimp only
  by_cases hname : cluster = ""
  · right
    rw [if_pos hname]
    exact ⟨Or.inl hname, _, rfl⟩
  · rw [if_neg hname]
    cases hcluster : clustersConfig.clusters cluster with
    | none => exact Or.inl ⟨hname, rfl, rfl⟩
    | some c =>
        right
        refine ⟨Or.inr (Option.some_ne_none c), ?_⟩
        dsimp only
        split
        · exact ⟨_, rfl⟩
        · split
          · exact ⟨_, rfl⟩
          · exact ⟨_, rfl⟩

/-- The cluster of Kubeapps has a name and no configuration. -/
def KubeappsClusterUnknown (h : KubeHandler) : Prop :=
  h.clustersConfig.kubeappsClusterName ≠ "" ∧
    h.clustersConfig.clusters h.clustersConfig.kubeappsClusterName = none

theorem asSVC_unknown (hunknown : KubeappsClusterUnknown h) :
    (h.asSVC h.clustersConfig.kubeappsClusterName).toOption = none := by
  unfold KubeHandler.asSVC
  rcases newClusterConfig_cases h.config h.clustersConfig "" _ with
    ⟨_, _, herr⟩ | ⟨hknown, _⟩
  · rw [herr]
    rfl
  · exact absurd hknown (not_or.mpr ⟨hunknown.1, not_not.mpr hunknown.2⟩)

theorem asSVC_known (hknown : ¬ KubeappsClusterUnknown h) :
    h.asSVC h.clustersConfig.kubeappsClusterName =
      .ok ⟨h.kubeappsNamespace, h.kubeappsSvcClientset, h.kubeappsSvcClientset⟩ := by
  unfold KubeHandler.asSVC
  rcases newClusterConfig_cases h.config h.clustersConfig "" _ with
    ⟨hname, hnone, _⟩ | ⟨_, config, hconfig⟩
  · exact absurd ⟨hname, hnone⟩ hknown
  · rw [hconfig]
    show (h.getSvcClientsetForCluster h.clustersConfig.kubeappsClusterName config >>= _) = _
    rw [getSvcClientset_kubeapps]
    rfl

/-- A cluster for which no client of a user can be made, whatever the token. -/
def Unreachable (h : KubeHandler) (cluster : String) : Prop :=
  ∀ token config, newClusterConfig h.config token cluster h.clustersConfig = .ok config →
    h.clientsetError config ≠ none

theorem asUser_config {u : UserHandler} (hu : h.asUser token cluster = .ok u) :
    newClusterConfig h.config token cluster h.clustersConfig = .ok u.clientset.config := by
  obtain ⟨config, hconfig, hrest⟩ := Lib.bind_eq_ok hu
  obtain ⟨cs, hcs, hrest⟩ := Lib.bind_eq_ok hrest
  obtain ⟨svc, _, hret⟩ := Lib.bind_eq_ok hrest
  rw [← Except.ok.inj hret, clientsetForConfig_ok hcs]
  exact hconfig

/-- If the client of the user can be made, so can that of the service. -/
theorem asUser_isOk {config : RestConfig}
    (hconfig : newClusterConfig h.config token cluster h.clustersConfig = .ok config)
    (herr : h.clientsetError config = none) : ∃ u, h.asUser token cluster = .ok u := by
  have hcs : h.clientsetForConfig config = .ok ⟨config⟩ := by
    unfold KubeHandler.clientsetForConfig
    rw [herr]
  have hsvc : ∃ svc, h.getSvcClientsetForCluster cluster config = .ok svc := by
    unfold KubeHandler.getSvcClientsetForCluster
    split
    · exact ⟨_, rfl⟩
    · rename_i hother
      cases hcluster : h.clustersConfig.clusters cluster with
      | none =>
          unfold newClusterConfig at hconfig
          rw [if_neg fun hempty => hother (Or.inl hempty), hcluster] at hconfig
          cases hconfig
      | some c => exact ⟨_, hcs⟩
  obtain ⟨svc, hsvc⟩ := hsvc
  refine ⟨⟨h.kubeappsNamespace, svc, ⟨config⟩⟩, ?_⟩
  unfold KubeHandler.asUser
  rw [hconfig]
  show (h.clientsetForConfig config >>= _) = _
  rw [hcs]
  show (h.getSvcClientsetForCluster cluster config >>= _) = _
  rw [hsvc]
  rfl

theorem unreachable_iff :
    Unreachable h cluster ↔ ∀ token, (h.asUser token cluster).toOption = none := by
  constructor
  · intro hun token
    cases hu : h.asUser token cluster with
    | error err => rfl
    | ok u =>
        obtain ⟨config, hconfig, hrest⟩ := Lib.bind_eq_ok hu
        obtain ⟨cs, hcs, _⟩ := Lib.bind_eq_ok hrest
        unfold KubeHandler.clientsetForConfig at hcs
        split at hcs
        · cases hcs
        · rename_i hnone
          exact absurd hnone (hun token config hconfig)
  · intro hall token config hconfig herr
    obtain ⟨u, hu⟩ := asUser_isOk hconfig herr
    have hnone := hall token
    rw [hu] at hnone
    cases hnone

/-- The repository is global, or the cluster of Kubeapps is not one of the UI. -/
def UsesService (kubeappsNamespace kubeappsCluster appRepoNamespace : String) : Prop :=
  kubeappsCluster = "" ∨ kubeappsNamespace = appRepoNamespace

variable {kubeappsNamespace kubeappsCluster appRepoNamespace : String}

theorem repoClient_service (hservice : UsesService kubeappsNamespace kubeappsCluster
    appRepoNamespace) : repoClient h token kubeappsCluster kubeappsNamespace kubeappsCluster
      appRepoNamespace = h.asSVC kubeappsCluster := if_pos ⟨rfl, hservice⟩

theorem repoClient_user (hservice : ¬ UsesService kubeappsNamespace kubeappsCluster
    appRepoNamespace) : repoClient h token kubeappsCluster kubeappsNamespace kubeappsCluster
      appRepoNamespace = h.asUser token kubeappsCluster := if_neg fun hboth => hservice hboth.2

/-- On another cluster it is always the client of the user. -/
theorem repoClient_of_ne (hcluster : cluster ≠ kubeappsCluster) :
    repoClient h token cluster kubeappsNamespace kubeappsCluster appRepoNamespace =
      h.asUser token cluster := if_neg fun hboth => hcluster hboth.1

end Client

end Kubeapps.Kubeops
