/-
  The clientsets of a user and of the service on the clusters (pkg/kube/kube_handler.go:
  NewClusterConfig, getSvcClientsetForCluster, AsUser, AsSVC).

  Of a `rest.Config` the host, the token, the TLS part and the wrappers of the transport are here;
  the other fields are copied with it. A clientset is what it was made from. `clientsetError` is the
  error of its creation, if there is one, as a function of the config.

  `getSvcClientsetForCluster` copies the config, puts the service token into the copy, and makes the
  clientset from the original. So on an additional cluster the service clientset has the token of
  the user, or none for `AsSVC`, and never the service token (`svc_clientsets_iff`).
-/
import Kubeapps.Lib.Go

namespace Kubeapps.Kube.Clusters

open Kubeapps.Lib (bind_eq_ok)

/-! ## Configurations -/

/-- `rest.TLSClientConfig`. -/
structure TLSClientConfig where
  insecure : Bool
  serverName : String
  certFile : String
  keyFile : String
  caFile : String
  certData : String
  keyData : String
  caData : String
  nextProtos : List String
  deriving DecidableEq, Repr

/-- `rest.TLSClientConfig{}`. -/
def TLSClientConfig.zero : TLSClientConfig := ⟨false, "", "", "", "", "", "", "", []⟩

/-- What wraps a transport: the function that a config came with, or a
    `pinnipedProxyRoundTripper` with its headers. -/
inductive Wrapper where
  | existing (name : String)
  | pinnipedProxy (headers : List (String × String))
  deriving DecidableEq, Repr

/-- `rest.Config`. The wrappers are in the order in which they are put around the transport. -/
structure RestConfig where
  host : String
  bearerToken : String
  bearerTokenFile : String
  tlsClientConfig : TLSClientConfig
  wrapTransport : List Wrapper
  deriving DecidableEq, Repr

/-- `ClusterConfig`. -/
structure ClusterConfig where
  apiServiceURL : String
  certificateAuthorityData : String
  certificateAuthorityDataDecoded : String
  caFile : String
  serviceToken : String
  insecure : Bool
  pinnipedEnable : Bool
  deriving DecidableEq, Repr

structure ClustersConfig where
  kubeappsClusterName : String
  pinnipedProxyURL : String
  clusters : String → Option ClusterConfig

inductive ClusterError where
  /-- `cluster %q has no configuration`. -/
  | noConfiguration (cluster : String)
  | clientset (msg : String)
  deriving DecidableEq, Repr

def pinnipedHeaders (clusterConfig : ClusterConfig) : List (String × String) :=
  (if clusterConfig.apiServiceURL ≠ "" then
      [("PINNIPED_PROXY_API_SERVER_URL", clusterConfig.apiServiceURL)] else []) ++
    if clusterConfig.certificateAuthorityData ≠ "" then
      [("PINNIPED_PROXY_API_SERVER_CERT", clusterConfig.certificateAuthorityData)] else []

/-- The TLS part of the config for an additional cluster. -/
def clusterTLS (clusterConfig : ClusterConfig) : TLSClientConfig :=
  let tls := { TLSClientConfig.zero with insecure := clusterConfig.insecure }
  if clusterConfig.certificateAuthorityDataDecoded ≠ "" then
    { tls with
      caData := clusterConfig.certificateAuthorityDataDecoded
      caFile := clusterConfig.caFile }
  else tls

/-- `NewClusterConfig`. -/
def newClusterConfig (inClusterConfig : RestConfig) (userToken cluster : String)
    (clustersConfig : ClustersConfig) : Except ClusterError RestConfig :=
  let config := { inClusterConfig with bearerToken := userToken, bearerTokenFile := "" }
  if cluster = "" then .ok config
  else
    match clustersConfig.clusters cluster with
    | none => .error (.noConfiguration cluster)
    | some clusterConfig =>
        if userToken ≠ "" ∧ clusterConfig.pinnipedEnable = true then
          .ok { config with
            host := clustersConfig.pinnipedProxyURL
            wrapTransport :=
              config.wrapTransport ++ [.pinnipedProxy (pinnipedHeaders clusterConfig)] }
        else if cluster = clustersConfig.kubeappsClusterName then .ok config
        else
          .ok { config with
            host := clusterConfig.apiServiceURL
            tlsClientConfig := clusterTLS clusterConfig }

/-! ## Handlers -/

/-- A clientset made from a config. -/
structure Clientset where
  config : RestConfig
  deriving DecidableEq, Repr

/-- `kubeHandler`. -/
structure KubeHandler where
  config : RestConfig
  kubeappsNamespace : String
  kubeappsSvcClientset : Clientset
  clustersConfig : ClustersConfig
  clientsetError : RestConfig → Option String

/-- `userHandler`. -/
structure UserHandler where
  kubeappsNamespace : String
  svcClientset : Clientset
  clientset : Clientset
  deriving DecidableEq, Repr

/-- `clientsetForConfig`. -/
def KubeHandler.clientsetForConfig (h : KubeHandler) (config : RestConfig) :
    Except ClusterError Clientset :=
  match h.clientsetError config with
  | some msg => .error (.clientset msg)
  | none => .ok ⟨config⟩

/-- `getSvcClientsetForCluster`. -/
def KubeHandler.getSvcClientsetForCluster (h : KubeHandler) (cluster : String)
    (config : RestConfig) : Except ClusterError Clientset :=
  if cluster = "" ∨ cluster = h.clustersConfig.kubeappsClusterName then .ok h.kubeappsSvcClientset
  else
    match h.clustersConfig.clusters cluster with
    | none => .error (.noConfiguration cluster)
    | some additionalCluster =>
        -- the copy with the service token is made, and nothing reads it
        let _svcConfig := { config with bearerToken := additionalCluster.serviceToken }
        h.clientsetForConfig config

/-- `AsUser`. -/
def KubeHandler.asUser (h : KubeHandler) (token cluster : String) :
    Except ClusterError UserHandler := do
  let config ← newClusterConfig h.config token cluster h.clustersConfig
  let clientset ← h.clientsetForConfig config
  let svcClientset ← h.getSvcClientsetForCluster cluster config
  return ⟨h.kubeappsNamespace, svcClientset, clientset⟩

/-- `AsSVC`. -/
def KubeHandler.asSVC (h : KubeHandler) (cluster : String) : Except ClusterError UserHandler := do
  let config ← newClusterConfig h.config "" cluster h.clustersConfig
  let svcClientset ← h.getSvcClientsetForCluster cluster config
  return ⟨h.kubeappsNamespace, svcClientset, svcClientset⟩

/-! ## Tokens -/

/-- A configured cluster other than the one on which Kubeapps is installed. -/
structure AdditionalCluster (h : KubeHandler) (cluster : String) (c : ClusterConfig) : Prop where
  nonempty : cluster ≠ ""
  not_kubeapps : cluster ≠ h.clustersConfig.kubeappsClusterName
  configured : h.clustersConfig.clusters cluster = some c

section Tokens

variable {h : KubeHandler} {cluster token : String} {c : ClusterConfig} {config : RestConfig}
  {u : UserHandler}

/-- On every branch the config has the token that was asked for. -/
theorem newClusterConfig_bearerToken {inClusterConfig : RestConfig} {clustersConfig : ClustersConfig}
    (hconfig : newClusterConfig inClusterConfig token cluster clustersConfig = .ok config) :
    config.bearerToken = token ∧ config.bearerTokenFile = "" := by
  unfold newClusterConfig at hconfig
  split at hconfig
  · rw [← Except.ok.inj hconfig]
    exact ⟨rfl, rfl⟩
  · split at hconfig
    · simp at hconfig
    · split at hconfig
      · rw [← Except.ok.inj hconfig]
        exact ⟨rfl, rfl⟩
      · split at hconfig
        · rw [← Except.ok.inj hconfig]
          exact ⟨rfl, rfl⟩
        · rw [← Except.ok.inj hconfig]
          exact ⟨rfl, rfl⟩

theorem clientsetForConfig_ok {cs : Clientset} (hcs : h.clientsetForConfig config = .ok cs) :
    cs.config = config := by
  unfold KubeHandler.clientsetForConfig at hcs
  split at hcs
  · simp at hcs
  · rw [← Except.ok.inj hcs]

/-- On an additional cluster the service clientset is made from the config that is given. -/
theorem getSvcClientsetForCluster_ok (hadd : AdditionalCluster h cluster c) {cs : Clientset}
    (hcs : h.getSvcClientsetForCluster cluster config = .ok cs) : cs.config = config := by
  unfold KubeHandler.getSvcClientsetForCluster at hcs
  rw [if_neg (not_or.mpr ⟨hadd.nonempty, hadd.not_kubeapps⟩), hadd.configured] at hcs
  exact clientsetForConfig_ok hcs

/-- Both clientsets of a user are made from the config with the token of the user. -/
theorem asUser_ok (hadd : AdditionalCluster h cluster c) (huser : h.asUser token cluster = .ok u) :
    newClusterConfig h.config token cluster h.clustersConfig = .ok u.clientset.config ∧
      u.svcClientset.config = u.clientset.config := by
  obtain ⟨config, hconfig, hrest⟩ := bind_eq_ok huser
  obtain ⟨cs, hcs, hrest⟩ := bind_eq_ok hrest
  obtain ⟨svc, hsvc, hret⟩ := bind_eq_ok hrest
  rw [← Except.ok.inj hret, clientsetForConfig_ok hcs, getSvcClientsetForCluster_ok hadd hsvc]
  exact ⟨hconfig, rfl⟩

/-- The clientset of the service is made from the config without a token. -/
theorem asSVC_ok (hadd : AdditionalCluster h cluster c) (hsvc : h.asSVC cluster = .ok u) :
    newClusterConfig h.config "" cluster h.clustersConfig = .ok u.svcClientset.config ∧
      u.clientset = u.svcClientset := by
  obtain ⟨config, hconfig, hrest⟩ := bind_eq_ok hsvc
  obtain ⟨svc, hcs, hret⟩ := bind_eq_ok hrest
  rw [← Except.ok.inj hret, getSvcClientsetForCluster_ok hadd hcs]
  exact ⟨hconfig, rfl⟩

end Tokens

/-- What the clientsets of two users and of the service should have: the users' tokens, and one
    config with the service token for the service. -/
structure ServiceClientsets (c : ClusterConfig) (token₁ token₂ : String) (u₁ u₂ svc : UserHandler) :
    Prop where
  same : u₁.svcClientset.config = u₂.svcClientset.config
  service₁ : u₁.svcClientset.config.bearerToken = c.serviceToken
  service₂ : u₂.svcClientset.config.bearerToken = c.serviceToken
  user₁ : u₁.clientset.config.bearerToken = token₁
  user₂ : u₂.clientset.config.bearerToken = token₂
  service : svc.svcClientset.config.bearerToken = c.serviceToken
  service_clientset : svc.clientset.config.bearerToken = c.serviceToken

/-- On an additional cluster the clientsets are as they should be exactly if there is no token at
    all. -/
theorem svc_clientsets_iff (h : KubeHandler) (cluster : String) (c : ClusterConfig)
    (hadd : AdditionalCluster h cluster c) (token₁ token₂ : String) (u₁ u₂ svc : UserHandler)
    (h₁ : h.asUser token₁ cluster = .ok u₁) (h₂ : h.asUser token₂ cluster = .ok u₂)
    (hsvc : h.asSVC cluster = .ok svc) :
    ServiceClientsets c token₁ token₂ u₁ u₂ svc ↔
      token₁ = "" ∧ token₂ = "" ∧ c.serviceToken = "" := by
  obtain ⟨hconfig₁, hsame₁⟩ := asUser_ok hadd h₁
  obtain ⟨hconfig₂, hsame₂⟩ := asUser_ok hadd h₂
  obtain ⟨hconfig, hclientset⟩ := asSVC_ok hadd hsvc
  have htoken₁ := (newClusterConfig_bearerToken hconfig₁).1
  have htoken₂ := (newClusterConfig_bearerToken hconfig₂).1
  have htoken := (newClusterConfig_bearerToken hconfig).1
  constructor
  · intro hall
    have hservice : c.serviceToken = "" := by rw [← hall.service, htoken]
    have hs₁ := hall.service₁
    have hs₂ := hall.service₂
    rw [hsame₁, htoken₁, hservice] at hs₁
    rw [hsame₂, htoken₂, hservice] at hs₂
    exact ⟨hs₁, hs₂, hservice⟩
  · rintro ⟨hempty₁, hempty₂, hservice⟩
    have hsame : u₁.clientset.config = u₂.clientset.config := by
      rw [hempty₁] at hconfig₁
      rw [hempty₂, hconfig₁] at hconfig₂
      exact Except.ok.inj hconfig₂
    constructor
    · rw [hsame₁, hsame₂, hsame]
    · rw [hsame₁, htoken₁, hempty₁, hservice]
    · rw [hsame₂, htoken₂, hempty₂, hservice]
    · exact htoken₁
    · exact htoken₂
    · rw [htoken, hservice]
    · rw [hclientset, htoken, hservice]

/-- An installation with the additional cluster `cluster-1`. -/
def twoClusters (serviceToken : String) : KubeHandler where
  config := ⟨"https://kubernetes.default", "", " ", .zero, []⟩
  kubeappsNamespace := "kubeapps"
  kubeappsSvcClientset := ⟨⟨"https://kubernetes.default", "pod-token", "", .zero, []⟩⟩
  clustersConfig := {
    kubeappsClusterName := "default"
    pinnipedProxyURL := "https://pinniped-proxy"
    clusters := fun name =>
      if name = "default" then some ⟨"", "", "", "", "", false, false⟩
      else if name = "cluster-1" then
        some ⟨"https://cluster-1.example.com:7890", "", "", "", serviceToken, false, false⟩
      else none }
  clientsetError := fun _ => none

/-- Both clientsets on `cluster-1`, made with this token. -/
def cluster1Handler (token : String) : UserHandler :=
  let cs : Clientset := ⟨⟨"https://cluster-1.example.com:7890", token, "", .zero, []⟩⟩
  ⟨"kubeapps", cs, cs⟩

theorem svc_clientsets_no_token :
    ServiceClientsets ⟨"https://cluster-1.example.com:7890", "", "", "", "", false, false⟩ "" ""
      (cluster1Handler "") (cluster1Handler "") (cluster1Handler "") :=
  (svc_clientsets_iff (twoClusters "") "cluster-1" _ ⟨by decide, by decide, rfl⟩ "" "" _ _ _ rfl rfl
    rfl).mpr ⟨rfl, rfl, rfl⟩

/-- The service clientset of a user has the token of the user, and that of `AsSVC` has none, although
    there is a service token. -/
theorem svc_clientset_has_user_token :
    let h := twoClusters "service-token"
    h.asUser "token-1" "cluster-1" = .ok (cluster1Handler "token-1") ∧
      h.asUser "token-2" "cluster-1" = .ok (cluster1Handler "token-2") ∧
      h.asSVC "cluster-1" = .ok (cluster1Handler "") ∧
      (cluster1Handler "token-1").svcClientset.config.bearerToken = "token-1" ∧
      ∀ c, h.clustersConfig.clusters "cluster-1" = some c →
        c.serviceToken = "service-token" ∧
        ¬ ServiceClientsets c "token-1" "token-2" (cluster1Handler "token-1")
          (cluster1Handler "token-2") (cluster1Handler "") := by
  intro h
  refine ⟨rfl, rfl, rfl, rfl, fun c hc => ?_⟩
  have htoken : c.serviceToken = "service-token" := by
    rw [← Option.some.inj hc]
  refine ⟨htoken, fun hall => ?_⟩
  have hservice := hall.service
  rw [htoken] at hservice
  exact absurd hservice (by decide)

end Kubeapps.Kube.Clusters
