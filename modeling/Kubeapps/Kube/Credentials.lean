/-
  The credentials of a repository (pkg/kube/kube_handler.go), from the request to the sync job.

  They are in a secret of the repository's namespace. A repository outside the Kubeapps namespace
  has a copy of it there, since that is where the sync job runs.

  * `secretRefs_resolve_iff`: after a create or an update the references of the job resolve exactly
    if the request has no CA beside registry credentials, or the CA is there already.
-/
import Kubeapps.Kube.AppRepositories

namespace Kubeapps.Kube

open Kubeapps.Lib Kubeapps.Controller
open Kubeapps.Syncer (RepoKey)

/-! ## The secrets that the sync job refers to -/

/-- The secret keys that variables and volumes refer to. -/
def secretKeys (env : List EnvVar) (volumes : List Volume) : List SecretKeySelector :=
  env.filterMap EnvVar.secretKeyRef ++ volumes.flatMap fun v =>
    match v.secret with
    | none => []
    | some (name, items) => items.map fun item => ⟨name, item.1⟩

def podSecretKeys (spec : PodSpec) : List SecretKeySelector :=
  secretKeys (spec.containers.flatMap Container.env) spec.volumes

/-- The secret keys that the job takes from the repository: those of its variable and of its
    volume. -/
def secretRefs (appRepo : AppRepository) (config : Config) : List SecretKeySelector :=
  secretKeys (authEnvVars appRepo config) (customCAVolumes appRepo config)

/-- The job refers to what the pod template of the repository refers to, to the password of the
    database, and to `secretRefs`. -/
theorem mem_podSecretKeys_syncJobSpec {ref : SecretKeySelector} {appRepo : AppRepository}
    {config : Config} :
    ref ∈ podSecretKeys (syncJobSpec appRepo config).template.spec ↔
      ref ∈ podSecretKeys appRepo.spec.syncJobPodTemplate.spec ∨
        ref = ⟨config.dbSecretName, config.dbSecretKey⟩ ∨ ref ∈ secretRefs appRepo config := by
  have hadded : ref ∈ secretKeys (apprepoSyncJobEnvVars appRepo config)
      (customCAVolumes appRepo config) ↔
      ref = ⟨config.dbSecretName, config.dbSecretKey⟩ ∨ ref ∈ secretRefs appRepo config := by
    simp [secretKeys, secretRefs, apprepoSyncJobEnvVars, dbPassword]
  rw [← hadded]
  unfold podSecretKeys syncJobSpec secretKeys
  rcases hcs : appRepo.spec.syncJobPodTemplate.spec.containers with _ | ⟨c, cs⟩
  · simp only [syncContainer, Container.zero, hcs, List.flatMap_cons, List.flatMap_nil,
      List.nil_append, List.append_nil, List.filterMap_nil, List.flatMap_append, List.mem_append]
    tauto
  · simp only [syncContainer, hcs, List.flatMap_cons, List.filterMap_append, List.flatMap_append,
      List.mem_append]
    tauto

/-- The key is there, in the namespace of the job. -/
def Resolves (st : KubeState) (kubeappsNamespace : String) (ref : SecretKeySelector) : Prop :=
  ∃ s, st.secrets kubeappsNamespace ref.name = some s ∧ ref.key ∈ s.data

instance (st : KubeState) (kubeappsNamespace : String) (ref : SecretKeySelector) :
    Decidable (Resolves st kubeappsNamespace ref) :=
  match hs : st.secrets kubeappsNamespace ref.name with
  | none => .isFalse (by unfold Resolves; simp [hs])
  | some s => decidable_of_iff (ref.key ∈ s.data) (by unfold Resolves; simp [hs])

theorem secretRefs_eq (appRepo : AppRepository) (config : Config) :
    secretRefs appRepo config =
      (appRepo.spec.auth.header.toList ++ appRepo.spec.auth.customCA.toList).map
        fun ref => secretKeyRefForRepo ref appRepo config := by
  have hkey : ∀ ref, (secretKeyRefForRepo ref appRepo config).key = ref.key := by
    intro ref
    unfold secretKeyRefForRepo
    split <;> rfl
  unfold secretRefs secretKeys authEnvVars customCAVolumes
  rw [List.map_append]
  congr 1
  · cases appRepo.spec.auth.header with
    | none => rfl
    | some ref =>
        dsimp only
        split <;> rfl
  · cases appRepo.spec.auth.customCA with
    | none => rfl
    | some ref =>
        show [(⟨(secretKeyRefForRepo ref appRepo config).name, ref.key⟩ : SecretKeySelector)] = _
        rw [← hkey ref]
        rfl

/-- If both registry credentials and a CA are given, the secret that the reference to the CA goes to
    has it already: the repository's own secret, or the user's, of which a copy is made. -/
def CARecorded (h : UserHandler) (req : AppRepositoryRequest) (ns : String) (st : KubeState) : Prop :=
  req.authRegCreds = "" ∨ req.customCA = "" ∨
    ∃ s, st.secrets ns (if ns = h.kubeappsNamespace then secretNameForRepo req.name
      else req.authRegCreds) = some s ∧ "ca.crt" ∈ s.data

section Refs

variable {h : UserHandler} {st st' : KubeState} {req : AppRepositoryRequest} {ns : String}
  {appRepo : AppRepository} {config : Config}

theorem ca_mem_secretsForRequest : "ca.crt" ∈ secretsForRequest req ↔ req.customCA ≠ "" := by
  unfold secretsForRequest
  by_cases hca : req.customCA = ""
  · by_cases hheader : req.authHeader = ""
    · simp [hca, hheader, Finmap.notMem_empty]
    · simp [hca, hheader, Finmap.mem_insert, Finmap.notMem_empty]
  · simp [hca, Finmap.mem_insert]

theorem header_mem_secretsForRequest :
    "authorizationHeader" ∈ secretsForRequest req ↔ req.authHeader ≠ "" := by
  unfold secretsForRequest
  by_cases hca : req.customCA = ""
  · by_cases hheader : req.authHeader = ""
    · simp [hca, hheader, Finmap.notMem_empty]
    · simp [hca, hheader, Finmap.mem_insert, Finmap.notMem_empty]
  · by_cases hheader : req.authHeader = ""
    · simp [hca, hheader, Finmap.mem_insert, Finmap.notMem_empty]
    · simp [hca, hheader, Finmap.mem_insert]

/-- The references of a request. -/
def RequestRef (req : AppRepositoryRequest) (ref : SecretKeySelector) : Prop :=
  (authForRequest req).header = some ref ∨ (authForRequest req).customCA = some ref

theorem resolve_iff_requestRefs (hspec : appRepo.spec = appRepositoryForRequest req) (ns' : String) :
    (∀ ref ∈ secretRefs appRepo config, Resolves st ns' ref) ↔
      ∀ ref, RequestRef req ref → Resolves st ns' (secretKeyRefForRepo ref appRepo config) := by
  have hauth : appRepo.spec.auth = authForRequest req := by rw [hspec]; rfl
  rw [secretRefs_eq, hauth]
  simp only [List.forall_mem_map, List.mem_append, Option.mem_toList]
  exact Iff.rfl

/-- Without registry credentials the references are to what the repository's secret gets. -/
theorem requestRef_of_no_creds (hreg : req.authRegCreds = "") {ref : SecretKeySelector}
    (href : RequestRef req ref) :
    ref.name = secretNameForRepo req.name ∧ ref.key ∈ secretsForRequest req := by
  unfold RequestRef authForRequest at href
  rw [if_neg (not_not.mpr hreg), Option.ite_none_right_eq_some, Option.ite_none_right_eq_some] at href
  rcases href with ⟨hheader, heq⟩ | ⟨hca, heq⟩
  · rw [← Option.some.inj heq]
    exact ⟨rfl, header_mem_secretsForRequest.2 hheader⟩
  · rw [← Option.some.inj heq]
    exact ⟨rfl, ca_mem_secretsForRequest.2 hca⟩

theorem requestRef_of_creds (hreg : req.authRegCreds ≠ "") (ref : SecretKeySelector) :
    RequestRef req ref ↔ ref = ⟨req.authRegCreds, ".dockerconfigjson"⟩ ∨
      (req.customCA ≠ "" ∧ ref = ⟨secretNameForRepo req.name, "ca.crt"⟩) := by
  unfold RequestRef authForRequest
  rw [if_pos hreg, Option.ite_none_right_eq_some, Option.some_inj, Option.some_inj]
  rw [eq_comm, @eq_comm _ _ ref]

theorem resolves_put {s : StoredSecret} {ns' name key : String} :
    Resolves (st.putSecret ns' name (some s)) ns' ⟨name, key⟩ ↔ key ∈ s.data := by
  unfold Resolves
  simp

/-- The references to the repository's own secret, once it was put. -/
theorem resolves_own_iff (hkey : appRepo.key = ⟨ns, req.name⟩)
    (hconfig : config.kubeappsNamespace = h.kubeappsNamespace) {data : StringMap}
    {owners : List OwnerReference} (hst : st' = copied h appRepo ns data
      (st.putSecret ns (secretNameForRepo appRepo.name) (some ⟨owners, data⟩)))
    {ref : SecretKeySelector} (href : ref.name = secretNameForRepo req.name) :
    Resolves st' h.kubeappsNamespace (secretKeyRefForRepo ref appRepo config) ↔ ref.key ∈ data := by
  have hns : appRepo.ns = ns := congrArg RepoKey.ns hkey
  have hname : appRepo.name = req.name := congrArg RepoKey.name hkey
  unfold secretKeyRefForRepo
  unfold copied at hst
  rw [hconfig, hns, hname]
  rw [hns, hname] at hst
  by_cases hin : ns = h.kubeappsNamespace
  · rw [if_pos hin] at hst ⊢
    rw [hst, ← hin, ← href]
    exact resolves_put
  · rw [if_neg hin] at hst ⊢
    rw [hst]
    exact resolves_put

/-- The references after a request with registry credentials, of which `s` is the secret. Outside
    the Kubeapps namespace they go to the copy of `s`. -/
theorem resolves_creds_iff (hkey : appRepo.key = ⟨ns, req.name⟩)
    (hconfig : config.kubeappsNamespace = h.kubeappsNamespace) {s : StoredSecret}
    (hst : st' = copied h appRepo ns s.data (st.putRepo appRepo)) (ref : SecretKeySelector) :
    Resolves st' h.kubeappsNamespace (secretKeyRefForRepo ref appRepo config) ↔
      if ns = h.kubeappsNamespace then Resolves st ns ref else ref.key ∈ s.data := by
  have hns : appRepo.ns = ns := congrArg RepoKey.ns hkey
  unfold secretKeyRefForRepo
  unfold copied at hst
  rw [hconfig, hns]
  rw [hns] at hst
  by_cases hin : ns = h.kubeappsNamespace
  · rw [if_pos hin] at hst
    rw [if_pos hin, if_pos hin, hst, ← hin]
    exact Iff.rfl
  · rw [if_neg hin] at hst
    rw [if_neg hin, if_neg hin, hst]
    exact resolves_put

end Refs

/-- After a create or an update that succeeds, the secret keys that the sync job takes from the
    repository are in the Kubeapps namespace exactly if the CA is not lost to the registry
    credentials. -/
theorem secretRefs_resolve_iff (kind : WriteKind) (h : UserHandler) (req : AppRepositoryRequest)
    (ns : String) (st st' : KubeState) (appRepo : AppRepository) (config : Config)
    (hconfig : config.kubeappsNamespace = h.kubeappsNamespace)
    (huser : req.authRegCreds ≠ "" → ∀ s, st.secrets ns req.authRegCreds = some s →
      ".dockerconfigjson" ∈ s.data)
    (hwrite : (writeAppRepository kind h req ns).exec st = (.ok appRepo, st')) :
    (∀ ref ∈ secretRefs appRepo config, Resolves st' h.kubeappsNamespace ref) ↔
      CARecorded h req ns st := by
  obtain ⟨hkey, hspec, _, u, hrecord⟩ := writeAppRepository_ok hwrite
  rw [resolve_iff_requestRefs hspec]
  rcases recordSecret_ok hrecord with ⟨hreg, hempty, _⟩ | ⟨hreg, s, hs, hst⟩ | ⟨hreg, _, owners, hst⟩
  · refine iff_of_true (fun ref href => ?_) (.inl hreg)
    have hmem := (requestRef_of_no_creds hreg href).2
    rw [hempty] at hmem
    exact absurd hmem Finmap.notMem_empty
  · have hdocker : ".dockerconfigjson" ∈ s.data := huser hreg s hs
    have hrefs := resolves_creds_iff hkey hconfig hst
    have hheader : if ns = h.kubeappsNamespace then
        Resolves st ns ⟨req.authRegCreds, ".dockerconfigjson"⟩ else ".dockerconfigjson" ∈ s.data := by
      split
      · exact ⟨s, hs, hdocker⟩
      · exact hdocker
    have hca : (if ns = h.kubeappsNamespace then
        Resolves st ns ⟨secretNameForRepo req.name, "ca.crt"⟩ else "ca.crt" ∈ s.data) ↔
        ∃ s', st.secrets ns (if ns = h.kubeappsNamespace then secretNameForRepo req.name
          else req.authRegCreds) = some s' ∧ "ca.crt" ∈ s'.data := by
      split
      · exact Iff.rfl
      · rw [show st.secrets ns req.authRegCreds = some s from hs]
        simp
    constructor
    · intro hall
      by_cases hno : req.customCA = ""
      · exact .inr (.inl hno)
      · have hresolved := hall _ ((requestRef_of_creds hreg _).mpr (.inr ⟨hno, rfl⟩))
        exact .inr (.inr (hca.mp ((hrefs _).mp hresolved)))
    · intro hrec ref href
      rw [hrefs]
      rcases (requestRef_of_creds hreg ref).mp href with heq | ⟨hsome, heq⟩
      · rw [heq]
        exact hheader
      · rw [heq]
        exact hca.mpr ((hrec.resolve_left hreg).resolve_left hsome)
  · refine iff_of_true (fun ref href => ?_) (.inl hreg)
    obtain ⟨hname, hmem⟩ := requestRef_of_no_creds hreg href
    exact (resolves_own_iff hkey hconfig hst hname).mpr hmem

/-- A handler that is refused nothing. -/
def freeHandler : UserHandler := ⟨"kubeapps", fun _ => none, "3f1c"⟩

/-- A request for the repository `bitnami` with these credentials. -/
def bitnamiRequest (authHeader customCA authRegCreds : String) : AppRepositoryRequest where
  name := "bitnami"
  type := ""
  repoURL := "https://charts.bitnami.com/bitnami"
  authHeader := authHeader
  customCA := customCA
  authRegCreds := authRegCreds
  registrySecrets := []
  syncJobPodTemplate := .zero
  resyncRequests := 0
  ociRepositories := []
  tlsInsecureSkipVerify := false
  filterRule := ⟨"", []⟩
  description := ""
  passCredentials := false

theorem validNamespace_team : ValidNamespace "team" := by decide

/-- The AppRepository of a request in the namespace `team`. -/
def bitnamiCreated (req : AppRepositoryRequest) : AppRepository where
  ns := "team"
  name := "bitnami"
  uid := "3f1c"
  deletionTimestamp := none
  spec := appRepositoryForRequest req
  ns_valid := validNamespace_team
  name_valid := validName_bitnamiRepo

/-- Nothing but the docker config secret `regcred` of the namespace `team`. -/
def teamState : KubeState where
  apprepos := fun _ => none
  secrets := fun ns name => if ns = "team" ∧ name = "regcred" then
    some ⟨[], (∅ : StringMap).insert ".dockerconfigjson" "e30="⟩ else none
  repos_key := no_repos_key

theorem secretRefs_resolve_bitnami :
    let req := bitnamiRequest "Bearer x" "-----BEGIN CERTIFICATE-----" ""
    ∀ ref ∈ secretRefs (bitnamiCreated req) defaultConfig,
      Resolves ((createAppRepository freeHandler req "team").exec teamState).2 "kubeapps" ref := by
  intro req
  have hwrite : (writeAppRepository .create freeHandler req "team").exec teamState =
      (.ok (bitnamiCreated req), ((createAppRepository freeHandler req "team").exec teamState).2) :=
    Prod.ext (by decide) rfl
  refine (secretRefs_resolve_iff .create freeHandler req "team" teamState _ _ defaultConfig rfl ?_
    hwrite).mpr (.inl rfl)
  intro hreg
  exact absurd rfl hreg

/-- The copy of the registry credentials does not have the CA. -/
theorem ca_lost_to_creds :
    let req := bitnamiRequest "" "-----BEGIN CERTIFICATE-----" "regcred"
    let res := (createAppRepository freeHandler req "team").exec teamState
    res.1 = .ok (bitnamiCreated req) ∧
      ⟨"team-apprepo-bitnami", "ca.crt"⟩ ∈ secretRefs (bitnamiCreated req) defaultConfig ∧
      ¬ Resolves res.2 "kubeapps" ⟨"team-apprepo-bitnami", "ca.crt"⟩ := by
  decide

end Kubeapps.Kube
