/-
  The HTTP clients that send requests to a repository, and what they take from its secrets
  (pkg/kube/kube_utils.go).

  There are three of them. The backend tests a repository with the secret of the request
  (pkg/kube/kube_handler.go: getValidationCli). The sync job downloads the index with the variable
  and the file that the controller gives to its pod (cmd/asset-syncer/sync.go). Kubeops downloads
  charts with the secrets that the repository names (pkg/chart/chart.go: InitClient).

  `clients_agree_iff`: for a request that has no CA beside registry credentials, the three are
  equal, or none of them can be made, exactly if a docker config among the credentials has one
  entry or is no config. Of one with no entry or several the sync job drops the error, and goes on
  without a header.

  The decoding of docker configs and certificates is a field of `ClientEnv`. The pod template is taken
  to set none of the variables and files that the sync job reads. The proxies are left out: the
  backend and kubeops take them from the pod template, the sync job from its environment.
-/
import Kubeapps.Kube.Credentials
import Kubeapps.Kubeops.Chart
import Kubeapps.Lib.Base64

namespace Kubeapps.Kube

open Kubeapps.Lib Kubeapps.Controller
open Kubeapps.Syncer (RepoKey)

/-- An entry of a docker config, with what its `auth` decodes to. -/
structure DockerConfigEntry where
  username : String
  password : String
  deriving DecidableEq, Repr

/-- What the clients use of other packages. `unmarshalDockerConfig` gives the entries of `auths`,
    and the empty string is no JSON. -/
structure ClientEnv where
  unmarshalDockerConfig : String → Except String (List (String × DockerConfigEntry))
  unmarshal_empty : (unmarshalDockerConfig "").toOption = none
  appendCertsFromPEM : String → Bool

/-- A client: what is added to the certificates of the system, whether the certificate of the server
    is checked, and the `Authorization` header. -/
structure RepoClient where
  certs : String
  insecureSkipVerify : Bool
  authorization : Option String
  deriving DecidableEq, Repr

/-! ## The clients of kube_utils.go -/

/-- `GetAuthHeaderFromDockerConfig`. -/
def getAuthHeaderFromDockerConfig : List (String × DockerConfigEntry) → Except String String
  | [] => .error "The given config doesn't include an auth entry"
  | [(_, entry)] =>
      .ok ("Basic " ++ encodeBase64 (bytes (entry.username ++ ":" ++ entry.password)))
  | _ :: _ :: _ => .error "The given config should include one auth entry"

def errNoKey (name key : String) : String :=
  "secret " ++ name.quote ++ " did not contain key " ++ key.quote

/-- `getDataFromRegistrySecret`. -/
def getDataFromRegistrySecret (env : ClientEnv) (key : String) (s : Secret) :
    Except String String :=
  match s.data.lookup key with
  | none => .error (errNoKey s.name key)
  | some dockerConfigJson =>
      match env.unmarshalDockerConfig dockerConfigJson with
      | .error err =>
          .error ("Unable to parse secret " ++ s.name ++ " as a Docker config. Got: " ++ err)
      | .ok auths => getAuthHeaderFromDockerConfig auths

/-- `GetDataFromSecret`. -/
def getDataFromSecret (env : ClientEnv) (key : String) (s : Secret) : Except String String :=
  if key = ".dockerconfigjson" then getDataFromRegistrySecret env key s
  else
    match (s.stringData.lookup key).or (s.data.lookup key) with
    | some auth => .ok auth
    | none => .error (errNoKey s.name key)

/-- The certificates of `InitHTTPClient`. -/
def certsData (spec : AppRepositorySpec) (caCertSecret : Option Secret) : Except String String :=
  match caCertSecret, spec.auth.customCA with
  | some s, some ref =>
      match (s.data.lookup ref.key).or (s.stringData.lookup ref.key) with
      | some customData => .ok customData
      | none => .error (errNoKey ref.name ref.key)
  | _, _ => .ok ""

/-- `GetCertPool`, on a host that has a pool. -/
def getCertPool (env : ClientEnv) (certs : String) : Except String String :=
  if certs ≠ "" ∧ env.appendCertsFromPEM certs = false then
    .error "failed to append certs to RootCAs"
  else .ok certs

/-- The `Authorization` header that `InitNetClient` sets. -/
def authorizationHeader (env : ClientEnv) (spec : AppRepositorySpec) (authSecret : Option Secret) :
    Except String (Option String) :=
  match authSecret, spec.auth.header with
  | some s, some ref => some <$> getDataFromSecret env ref.key s
  | _, _ => .ok none

/-- `InitNetClient`, with `InitHTTPClient`. -/
def initNetClient (env : ClientEnv) (spec : AppRepositorySpec)
    (caCertSecret authSecret : Option Secret) : Except String RepoClient := do
  let certs ← certsData spec caCertSecret
  let pool ← getCertPool env certs
  let auth ← authorizationHeader env spec authSecret
  return ⟨pool, spec.tlsInsecureSkipVerify, auth⟩

/-! ## The three clients -/

/-- `secretForRequest` of a repository that is not created: it has the name of the request. -/
def requestSecret (h : UserHandler) (req : AppRepositoryRequest) (ns : String) :
    Api (Option Secret) :=
  if req.authRegCreds ≠ "" then do
    let secret ← getSecret h req.authRegCreds ns
    return some secret
  else if secretsForRequest req = ∅ then return none
  else return some {
    name := secretNameForRepo req.name
    ownerReferences := [⟨"kubeapps.com/v1alpha1", "AppRepository", req.name, "", false, true⟩]
    data := ∅
    stringData := secretsForRequest req }

/-- `getValidationCli`: the client. -/
def getValidationCli (env : ClientEnv) (h : UserHandler) (req : AppRepositoryRequest)
    (requestNamespace : String) : Api RepoClient :=
  if req.registrySecrets ≠ [] ∧ requestNamespace = h.kubeappsNamespace then
    throw errGlobalRepositoryWithSecrets
  else do
    let repoSecret ← requestSecret h req requestNamespace
    match initNetClient env (appRepositoryForRequest req) repoSecret repoSecret with
    | .ok cli => return cli
    | .error err => throw (.other ("Unable to create HTTP client: " ++ err))

/-- A secret as kubeops gets it from the server. -/
def netSecret (s : Kubeops.Secret) : Secret := ⟨s.name, [], s.data, ∅⟩

/-- `GetAppRepoAndRelatedSecrets` and `InitClient`, which is the same for both kinds of clients. -/
def chartClient (env : ClientEnv) (server : Kubeops.Env) (handler : Clusters.KubeHandler)
    (userAuthToken cluster kubeappsNamespace kubeappsCluster : String) (k : RepoKey) :
    Except String RepoClient := do
  let r ← Kubeops.getAppRepoAndRelatedSecrets server k.name k.ns handler userAuthToken cluster
    kubeappsNamespace kubeappsCluster
  initNetClient env r.appRepo.spec (r.caCertSecret.map netSecret) (r.authSecret.map netSecret)

/-- What a pod of the namespace gets for a secret key. -/
def secretValue (st : KubeState) (ns : String) (ref : SecretKeySelector) : Option String :=
  (st.secrets ns ref.name).bind fun s => s.data.lookup ref.key

/-- The value of a variable. A pod does not start without a secret key that it refers to. -/
def envValue (st : KubeState) (ns : String) (v : EnvVar) : Option (String × String) :=
  match v.secretKeyRef with
  | none => some (v.name, v.value)
  | some ref => (secretValue st ns ref).map fun value => (v.name, value)

def containerEnv (st : KubeState) (ns : String) (env : List EnvVar) :
    Option (List (String × String)) := env.mapM (envValue st ns)

/-- The files of a secret volume. -/
def volumeFiles (st : KubeState) (ns : String) (volumes : List Volume) (name : String) :
    Option (List (String × String)) := do
  let v ← volumes.find? fun v => v.name = name
  let (secretName, items) ← v.secret
  items.mapM fun item => (secretValue st ns ⟨secretName, item.1⟩).map fun file => (item.2, file)

def mountedFiles (st : KubeState) (ns : String) (volumes : List Volume)
    (mounts : List VolumeMount) : Option (List (String × String)) :=
  (mounts.mapM fun m => (volumeFiles st ns volumes m.name).map fun files =>
    files.map fun file => (m.mountPath ++ "/" ++ file.1, file.2)).map List.flatten

/-- `os.Getenv`. -/
def getenv (vars : List (String × String)) (name : String) : String := (vars.lookup name).getD ""

def additionalCAFile : String := "/usr/local/share/ca-certificates/ca.crt"

/-- `NewWithCertFile`: the certificates of the file, if it is there. -/
def newWithCertFile (env : ClientEnv) (files : List (String × String)) : Except String String :=
  match files.lookup additionalCAFile with
  | some certs => getCertPool env certs
  | none => .ok ""

/-- The `authorizationHeader` of `syncCmd`. -/
def syncHeader (env : ClientEnv) (vars : List (String × String)) : Except String String :=
  if getenv vars "DOCKER_CONFIG_JSON" ≠ "" then
    -- the error of `GetAuthHeaderFromDockerConfig` is overwritten by the next one
    (env.unmarshalDockerConfig (getenv vars "DOCKER_CONFIG_JSON")).map fun auths =>
      (getAuthHeaderFromDockerConfig auths).toOption.getD ""
  else .ok (getenv vars "AUTHORIZATION_HEADER")

/-- An empty header is none. -/
def sentHeader (header : String) : Option String := if header = "" then none else some header

def syncClient (env : ClientEnv) (vars files : List (String × String)) (skipTLS : Bool) :
    Except String RepoClient := do
  let pool ← newWithCertFile env files
  let header ← syncHeader env vars
  return ⟨pool, skipTLS, sentHeader header⟩

/-- The client of the sync job, whose pod has the variables and files of the repository beside those
    of its template. -/
def syncJobClient (env : ClientEnv) (config : Config) (st : KubeState) (appRepo : AppRepository) :
    Except String RepoClient :=
  match containerEnv st config.kubeappsNamespace (authEnvVars appRepo config),
      mountedFiles st config.kubeappsNamespace (customCAVolumes appRepo config)
        (customCAVolumeMounts appRepo) with
  | some vars, some files => syncClient env vars files appRepo.spec.tlsInsecureSkipVerify
  | _, _ => .error "the pod does not start"

/-! ## Without registry credentials -/

/-- The client that a request without registry credentials asks for. -/
def requestClient (env : ClientEnv) (req : AppRepositoryRequest) : Except String RepoClient := do
  let pool ← getCertPool env req.customCA
  return ⟨pool, req.tlsInsecureSkipVerify, sentHeader req.authHeader⟩

/-- The secret has the values of the map, under `data` or under `stringData`. -/
def Secret.Holds (s : Secret) (m : StringMap) : Prop :=
  ∀ key, (s.data.lookup key).or (s.stringData.lookup key) = m.lookup key ∧
    (s.stringData.lookup key).or (s.data.lookup key) = m.lookup key

section Own

variable {env : ClientEnv} {h : UserHandler} {st : KubeState} {req : AppRepositoryRequest}
  {ns : String} {appRepo : AppRepository} {config : Config}

theorem getCertPool_empty : getCertPool env "" = .ok "" := if_neg fun hboth => hboth.1 rfl

theorem holds_of_data {s : Secret} {m : StringMap} (hdata : s.data = m ∧ s.stringData = ∅) :
    s.Holds m := fun key => by simp [hdata.1, hdata.2]

theorem holds_stringData (name : String) (owners : List OwnerReference) (m : StringMap) :
    (⟨name, owners, ∅, m⟩ : Secret).Holds m := fun key => by simp

theorem lookup_authHeader (hheader : req.authHeader ≠ "") :
    (secretsForRequest req).lookup "authorizationHeader" = some req.authHeader := by
  unfold secretsForRequest
  rw [if_pos hheader]
  split
  · rw [Finmap.lookup_insert_of_ne _ (by decide), Finmap.lookup_insert]
  · rw [Finmap.lookup_insert]

theorem lookup_customCA (hca : req.customCA ≠ "") :
    (secretsForRequest req).lookup "ca.crt" = some req.customCA := by
  unfold secretsForRequest
  rw [if_pos hca, Finmap.lookup_insert]

theorem secretsForRequest_empty (hempty : secretsForRequest req = ∅) :
    req.authHeader = "" ∧ req.customCA = "" := by
  constructor
  · by_contra hheader
    have hmem := header_mem_secretsForRequest.mpr hheader
    rw [hempty] at hmem
    exact Finmap.notMem_empty hmem
  · by_contra hca
    have hmem := ca_mem_secretsForRequest.mpr hca
    rw [hempty] at hmem
    exact Finmap.notMem_empty hmem

theorem requestHeader_none (hreg : req.authRegCreds = "") (hheader : req.authHeader = "") :
    (authForRequest req).header = none := by
  unfold authForRequest
  rw [if_neg (not_not.mpr hreg), if_neg (not_not.mpr hheader)]

theorem requestHeader_own (hreg : req.authRegCreds = "") (hheader : req.authHeader ≠ "") :
    (authForRequest req).header =
      some ⟨secretNameForRepo req.name, "authorizationHeader"⟩ := by
  unfold authForRequest
  rw [if_neg (not_not.mpr hreg), if_pos hheader]

theorem requestHeader_creds (hreg : req.authRegCreds ≠ "") :
    (authForRequest req).header = some ⟨req.authRegCreds, ".dockerconfigjson"⟩ := if_pos hreg

theorem requestCA_none (hca : req.customCA = "") : (authForRequest req).customCA = none :=
  if_neg (not_not.mpr hca)

theorem requestCA_own (hca : req.customCA ≠ "") :
    (authForRequest req).customCA = some ⟨secretNameForRepo req.name, "ca.crt"⟩ := if_pos hca

theorem auth_of_spec (hspec : appRepo.spec = appRepositoryForRequest req) :
    appRepo.spec.auth = authForRequest req := by
  rw [hspec]
  rfl

/-- The certificates and the header of a secret that has those of the request. -/
theorem certsData_own {ca : Option Secret}
    (hsecret : req.customCA ≠ "" → ∃ s, ca = some s ∧ s.Holds (secretsForRequest req)) :
    certsData (appRepositoryForRequest req) ca = .ok req.customCA := by
  unfold certsData
  show (match ca, (authForRequest req).customCA with
    | some s, some ref => _
    | _, _ => _) = _
  by_cases hca : req.customCA = ""
  · rw [requestCA_none hca, hca]
    cases ca <;> rfl
  · obtain ⟨s, hs, hholds⟩ := hsecret hca
    rw [requestCA_own hca, hs]
    dsimp only
    rw [(hholds "ca.crt").1, lookup_customCA hca]

theorem authorizationHeader_own {auth : Option Secret} (hreg : req.authRegCreds = "")
    (hsecret : req.authHeader ≠ "" → ∃ s, auth = some s ∧ s.Holds (secretsForRequest req)) :
    authorizationHeader env (appRepositoryForRequest req) auth =
      .ok (sentHeader req.authHeader) := by
  unfold authorizationHeader sentHeader
  show (match auth, (authForRequest req).header with
    | some s, some ref => _
    | _, _ => _) = _
  by_cases hheader : req.authHeader = ""
  · rw [requestHeader_none hreg hheader, if_pos hheader]
    cases auth <;> rfl
  · obtain ⟨s, hs, hholds⟩ := hsecret hheader
    rw [requestHeader_own hreg hheader, hs, if_neg hheader]
    dsimp only
    unfold getDataFromSecret
    rw [if_neg (by decide), (hholds _).2, lookup_authHeader hheader]
    rfl

theorem initNetClient_own {ca auth : Option Secret} (hreg : req.authRegCreds = "")
    (hca : req.customCA ≠ "" → ∃ s, ca = some s ∧ s.Holds (secretsForRequest req))
    (hauth : req.authHeader ≠ "" → ∃ s, auth = some s ∧ s.Holds (secretsForRequest req)) :
    initNetClient env (appRepositoryForRequest req) ca auth = requestClient env req := by
  unfold initNetClient
  rw [certsData_own hca, authorizationHeader_own hreg hauth]
  rfl

/-! ### The pod of the sync job -/

theorem containerEnv_auth {ref : SecretKeySelector} (href : appRepo.spec.auth.header = some ref) :
    containerEnv st ns (authEnvVars appRepo config) =
      (secretValue st ns (secretKeyRefForRepo ref appRepo config)).map fun value =>
        [(if ref.key = ".dockerconfigjson" then "DOCKER_CONFIG_JSON" else "AUTHORIZATION_HEADER",
          value)] := by
  unfold authEnvVars containerEnv
  rw [href]
  dsimp only
  split <;>
  · rw [List.mapM_cons, envValue]
    dsimp only
    cases secretValue st ns (secretKeyRefForRepo ref appRepo config) with
    | none => rfl
    | some value => rfl

theorem secretKeyRefForRepo_key (ref : SecretKeySelector) :
    (secretKeyRefForRepo ref appRepo config).key = ref.key := by
  unfold secretKeyRefForRepo
  split <;> rfl

theorem mountedFiles_ca {ref : SecretKeySelector} (href : appRepo.spec.auth.customCA = some ref) :
    mountedFiles st ns (customCAVolumes appRepo config) (customCAVolumeMounts appRepo) =
      (secretValue st ns (secretKeyRefForRepo ref appRepo config)).map fun value =>
        [(additionalCAFile, value)] := by
  have hself : (⟨(secretKeyRefForRepo ref appRepo config).name, ref.key⟩ : SecretKeySelector) =
      secretKeyRefForRepo ref appRepo config := by
    rw [← secretKeyRefForRepo_key  ref]
  unfold customCAVolumes customCAVolumeMounts mountedFiles volumeFiles
  rw [href]
  simp only [List.mapM_cons, List.mapM_nil, List.find?_cons, decide_true, Option.bind_eq_bind,
    Option.bind_some, hself]
  cases secretValue st ns (secretKeyRefForRepo ref appRepo config) with
  | none => rfl
  | some value => rfl

end Own

section Writes

variable {env : ClientEnv} {h : UserHandler} {st st' : KubeState} {req : AppRepositoryRequest}
  {ns : String} {appRepo : AppRepository} {config : Config}

theorem syncJob_own (hreg : req.authRegCreds = "")
    (hspec : appRepo.spec = appRepositoryForRequest req)
    (hvalue : ∀ ref, RequestRef req ref →
      secretValue st config.kubeappsNamespace (secretKeyRefForRepo ref appRepo config) =
        (secretsForRequest req).lookup ref.key) :
    syncJobClient env config st appRepo = requestClient env req := by
  have hauth := auth_of_spec hspec
  have henv : containerEnv st config.kubeappsNamespace (authEnvVars appRepo config) =
      some (if req.authHeader = "" then [] else [("AUTHORIZATION_HEADER", req.authHeader)]) := by
    by_cases hheader : req.authHeader = ""
    · unfold authEnvVars
      rw [hauth, requestHeader_none hreg hheader, if_pos hheader]
      rfl
    · have href := requestHeader_own hreg hheader
      rw [containerEnv_auth (by rw [hauth]; exact href), hvalue _ (.inl href), if_neg hheader,
        lookup_authHeader hheader]
      rfl
  have hfiles : mountedFiles st config.kubeappsNamespace (customCAVolumes appRepo config)
      (customCAVolumeMounts appRepo) =
      some (if req.customCA = "" then [] else [(additionalCAFile, req.customCA)]) := by
    by_cases hca : req.customCA = ""
    · unfold customCAVolumes customCAVolumeMounts
      rw [hauth, requestCA_none hca, if_pos hca]
      rfl
    · have href := requestCA_own hca
      rw [mountedFiles_ca (by rw [hauth]; exact href), hvalue _ (.inr href), if_neg hca,
        lookup_customCA hca]
      rfl
  have hpool : newWithCertFile env (if req.customCA = "" then [] else
      [(additionalCAFile, req.customCA)]) = getCertPool env req.customCA := by
    split
    · rename_i hca
      rw [hca, getCertPool_empty]
      rfl
    · rfl
  have hheader : syncHeader env (if req.authHeader = "" then [] else
      [("AUTHORIZATION_HEADER", req.authHeader)]) = .ok req.authHeader := by
    split
    · rename_i hheader
      rw [hheader]
      rfl
    · rfl
  unfold syncJobClient
  rw [henv, hfiles, hspec]
  show syncClient env _ _ req.tlsInsecureSkipVerify = _
  unfold syncClient
  rw [hpool, hheader]
  rfl

/-! ## With registry credentials -/

/-- The header for the docker config of a secret, if it has one. -/
def credsHeader (env : ClientEnv) (dockerConfigJson : Option String) : Option String := do
  let config ← dockerConfigJson
  let auths ← (env.unmarshalDockerConfig config).toOption
  (getAuthHeaderFromDockerConfig auths).toOption

/-- The header of the sync job. The variable may be empty. -/
def jobHeader (env : ClientEnv) (dockerConfigJson : Option String) : Option (Option String) := do
  let config ← dockerConfigJson
  if config = "" then return none
  else
    let auths ← (env.unmarshalDockerConfig config).toOption
    return (getAuthHeaderFromDockerConfig auths).toOption

/-- A docker config with one entry, or none at all. -/
def OneEntry (env : ClientEnv) (dockerConfigJson : String) : Prop :=
  dockerConfigJson ≠ "" ∧
    ∀ auths, env.unmarshalDockerConfig dockerConfigJson = .ok auths → auths.length = 1

theorem registryHeader (s : Secret) :
    (getDataFromRegistrySecret env ".dockerconfigjson" s).toOption =
      credsHeader env (s.data.lookup ".dockerconfigjson") := by
  unfold getDataFromRegistrySecret credsHeader
  cases s.data.lookup ".dockerconfigjson" with
  | none => rfl
  | some config =>
      dsimp only [Option.bind_eq_bind, Option.bind_some]
      cases env.unmarshalDockerConfig config <;> rfl

/-- One entry gives a header, and nothing else does. -/
theorem headerOf_cases (auths : List (String × DockerConfigEntry)) :
    (auths.length = 1 ∧ ∃ header ≠ "", getAuthHeaderFromDockerConfig auths = .ok header) ∨
      (auths.length ≠ 1 ∧ (getAuthHeaderFromDockerConfig auths).toOption = none) := by
  match auths with
  | [] => exact .inr ⟨by decide, rfl⟩
  | [(_, entry)] =>
      refine .inl ⟨rfl, _, ?_, rfl⟩
      intro hempty
      have hlength := congrArg String.length hempty
      rw [String.length_append] at hlength
      exact absurd hlength (by simp)
  | _ :: _ :: _ => exact .inr ⟨by simp, rfl⟩

/-- The sync job has the header of the others exactly if the config has one entry. -/
theorem headers_agree_iff (dockerConfigJson : Option String) :
    (credsHeader env dockerConfigJson).map some = jobHeader env dockerConfigJson ↔
      ∀ config, dockerConfigJson = some config → OneEntry env config := by
  unfold credsHeader jobHeader
  cases dockerConfigJson with
  | none => exact ⟨fun _ _ hconfig => (nomatch hconfig), fun _ => rfl⟩
  | some config =>
      simp only [Option.bind_eq_bind, Option.bind_some, Option.some.injEq, forall_eq']
      unfold OneEntry
      by_cases hempty : config = ""
      · rw [if_pos hempty, hempty, env.unmarshal_empty]
        simp
      · rw [if_neg hempty]
        cases hauths : env.unmarshalDockerConfig config with
        | error err => simp [Except.toOption, hempty]
        | ok auths =>
            rcases headerOf_cases auths with ⟨hone, header, _, hheader⟩ | ⟨hmany, hnone⟩
            · simp [Except.toOption, hempty, hheader, hone]
            · simp [Except.toOption, hempty, hmany] at hnone ⊢
              simp [hnone]

/-- Otherwise there is no header, and the sync job goes on without one. -/
theorem headers_of_not_oneEntry {dockerConfigJson : String}
    (h : ¬ OneEntry env dockerConfigJson) :
    credsHeader env (some dockerConfigJson) = none ∧
      jobHeader env (some dockerConfigJson) = some none := by
  unfold credsHeader jobHeader
  simp only [Option.bind_eq_bind, Option.bind_some]
  by_cases hempty : dockerConfigJson = ""
  · rw [if_pos hempty, hempty, env.unmarshal_empty]
    exact ⟨rfl, rfl⟩
  · rw [if_neg hempty]
    cases hauths : env.unmarshalDockerConfig dockerConfigJson with
    | error err =>
        refine absurd ⟨hempty, fun auths hok => ?_⟩ h
        exact nomatch hauths.symm.trans hok
    | ok auths =>
        rcases headerOf_cases auths with ⟨hone, _⟩ | ⟨_, hnone⟩
        · refine absurd ⟨hempty, fun auths' hok => ?_⟩ h
          rw [← Except.ok.inj (hauths.symm.trans hok)]
          exact hone
        · simp only [Except.toOption] at hnone ⊢
          simp [hnone]

theorem syncHeader_docker (value : String) :
    (syncHeader env [("DOCKER_CONFIG_JSON", value)]).toOption.map sentHeader =
      jobHeader env (some value) := by
  have hget : getenv [("DOCKER_CONFIG_JSON", value)] "DOCKER_CONFIG_JSON" = value := rfl
  unfold syncHeader jobHeader
  rw [hget]
  dsimp only [Option.bind_eq_bind, Option.bind_some]
  by_cases hempty : value = ""
  · rw [if_neg (not_not.mpr hempty), if_pos hempty]
    rfl
  · rw [if_pos hempty, if_neg hempty]
    cases env.unmarshalDockerConfig value with
    | error err => rfl
    | ok auths =>
        show some (sentHeader ((getAuthHeaderFromDockerConfig auths).toOption.getD "")) =
          some (getAuthHeaderFromDockerConfig auths).toOption
        rcases headerOf_cases auths with ⟨_, header, hne, hheader⟩ | ⟨_, hnone⟩
        · rw [hheader]
          exact congrArg some (if_neg hne)
        · rw [hnone]
          rfl

theorem initNetClient_creds {ca : Option Secret} {s : Secret} (hreg : req.authRegCreds ≠ "")
    (hca : req.customCA = "") :
    (initNetClient env (appRepositoryForRequest req) ca (some s)).toOption =
      (credsHeader env (s.data.lookup ".dockerconfigjson")).map fun header =>
        ⟨"", req.tlsInsecureSkipVerify, some header⟩ := by
  have hcerts : certsData (appRepositoryForRequest req) ca = .ok req.customCA :=
    certsData_own fun hne => absurd hca hne
  have hheader := requestHeader_creds hreg
  have hauth : authorizationHeader env (appRepositoryForRequest req) (some s) =
      some <$> getDataFromRegistrySecret env ".dockerconfigjson" s := by
    unfold authorizationHeader
    show (match some s, (authForRequest req).header with
      | some s, some ref => _
      | _, _ => _) = _
    rw [hheader]
    rfl
  unfold initNetClient
  rw [hcerts, hauth, hca, ← registryHeader]
  show (getCertPool env "" >>= _ : Except String RepoClient).toOption = _
  rw [getCertPool_empty]
  cases getDataFromRegistrySecret env ".dockerconfigjson" s <;> rfl

theorem syncJob_creds (hreg : req.authRegCreds ≠ "") (hca : req.customCA = "")
    (hspec : appRepo.spec = appRepositoryForRequest req) :
    (syncJobClient env config st appRepo).toOption =
      (jobHeader env (secretValue st config.kubeappsNamespace
        (secretKeyRefForRepo ⟨req.authRegCreds, ".dockerconfigjson"⟩ appRepo config))).map
          fun header => ⟨"", req.tlsInsecureSkipVerify, header⟩ := by
  have hauth := auth_of_spec hspec
  have hheader := requestHeader_creds hreg
  have hfiles : mountedFiles st config.kubeappsNamespace (customCAVolumes appRepo config)
      (customCAVolumeMounts appRepo) = some [] := by
    unfold customCAVolumes customCAVolumeMounts
    rw [hauth, requestCA_none hca]
    rfl
  unfold syncJobClient
  rw [containerEnv_auth (by rw [hauth]; exact hheader), hfiles, hspec, if_pos rfl]
  cases secretValue st config.kubeappsNamespace
      (secretKeyRefForRepo ⟨req.authRegCreds, ".dockerconfigjson"⟩ appRepo config) with
  | none => rfl
  | some value =>
      have hsent : (syncHeader env [("DOCKER_CONFIG_JSON", value)]).toOption.map sentHeader =
          jobHeader env (some value) := syncHeader_docker value
      rw [← hsent]
      show (syncClient env [("DOCKER_CONFIG_JSON", value)] []
        req.tlsInsecureSkipVerify).toOption = _
      unfold syncClient
      cases syncHeader env [("DOCKER_CONFIG_JSON", value)] <;> rfl

end Writes

/-! ## After a create or an update -/

/-- The server answers with what it has. -/
structure ReadsFrom (server : Kubeops.Env) (config : Clusters.RestConfig) (st : KubeState) :
    Prop where
  appRepository : ∀ name ns,
    (server.getAppRepository config name ns).toOption = st.apprepos ⟨ns, name⟩
  secret : ∀ name ns, (server.getSecret config name ns).toOption.map Kubeops.Secret.data =
    (st.secrets ns name).map StoredSecret.data

/-- The three clients are equal, or none of them can be made. -/
def ClientsAgree (validation : Except ApiError RepoClient)
    (syncJob chart : Except String RepoClient) : Prop :=
  validation.toOption = chart.toOption ∧ syncJob.toOption = chart.toOption

section Clients

variable {env : ClientEnv} {h : UserHandler} {st st' : KubeState} {req : AppRepositoryRequest}
  {ns : String} {appRepo : AppRepository} {config : Config}

theorem copied_apprepos (data : StringMap) :
    (copied h appRepo ns data st).apprepos = st.apprepos := by
  unfold copied
  split <;> rfl

/-- A copy is in another namespace. -/
theorem copied_secrets (data : StringMap) (name : String) :
    (copied h appRepo ns data st).secrets ns name = st.secrets ns name := by
  unfold copied
  split
  · rfl
  · rename_i hns
    exact KubeState.putSecret_of_ne_ns _ _ _ _ hns name

theorem secretValue_put {s : StoredSecret} {name key : String} :
    secretValue (st.putSecret ns name (some s)) ns ⟨name, key⟩ = s.data.lookup key := by
  unfold secretValue
  rw [KubeState.putSecret_self]
  rfl

theorem secretValue_own (hkey : appRepo.key = ⟨ns, req.name⟩)
    (hconfig : config.kubeappsNamespace = h.kubeappsNamespace) {data : StringMap}
    {owners : List OwnerReference} {ref : SecretKeySelector}
    (href : ref.name = secretNameForRepo req.name) :
    secretValue (copied h appRepo ns data
        (st.putSecret ns (secretNameForRepo appRepo.name) (some ⟨owners, data⟩)))
      config.kubeappsNamespace (secretKeyRefForRepo ref appRepo config) = data.lookup ref.key := by
  have hns : appRepo.ns = ns := congrArg RepoKey.ns hkey
  have hname : appRepo.name = req.name := congrArg RepoKey.name hkey
  unfold secretKeyRefForRepo copied
  rw [hconfig, hns, hname]
  by_cases hin : ns = h.kubeappsNamespace
  · rw [if_pos hin, if_pos hin, ← hin, ← href]
    exact secretValue_put
  · rw [if_neg hin, if_neg hin]
    exact secretValue_put

theorem secretValue_creds (hkey : appRepo.key = ⟨ns, req.name⟩)
    (hconfig : config.kubeappsNamespace = h.kubeappsNamespace) {s : StoredSecret}
    {ref : SecretKeySelector} (hs : st.secrets ns ref.name = some s) :
    secretValue (copied h appRepo ns s.data st) config.kubeappsNamespace
      (secretKeyRefForRepo ref appRepo config) = s.data.lookup ref.key := by
  have hns : appRepo.ns = ns := congrArg RepoKey.ns hkey
  unfold secretKeyRefForRepo copied
  rw [hconfig, hns]
  by_cases hin : ns = h.kubeappsNamespace
  · rw [if_pos hin, if_pos hin, ← hin]
    unfold secretValue
    rw [hs]
    rfl
  · rw [if_neg hin, if_neg hin]
    exact secretValue_put

/-! ### The test of the repository -/

theorem writeAppRepository_guard {kind : WriteKind}
    (hwrite : (writeAppRepository kind h req ns).exec st = (.ok appRepo, st')) :
    ¬ (req.registrySecrets ≠ [] ∧ ns = h.kubeappsNamespace) := by
  cases kind with
  | create =>
      obtain ⟨_, hwrite⟩ := Call.exec_ite_throw_ok hwrite
      exact (Call.exec_ite_throw_ok hwrite).1
  | update =>
      obtain ⟨_, hwrite⟩ := Call.exec_ite_throw_ok hwrite
      exact (Call.exec_ite_throw_ok hwrite).1

theorem validation_eq (hguard : ¬ (req.registrySecrets ≠ [] ∧ ns = h.kubeappsNamespace))
    {secret : Option Secret} (hsecret : (requestSecret h req ns).exec st = (.ok secret, st)) :
    ((getValidationCli env h req ns).exec st).1.toOption =
      (initNetClient env (appRepositoryForRequest req) secret secret).toOption := by
  unfold getValidationCli
  rw [if_neg hguard, Call.exec_bind, hsecret]
  dsimp only
  cases initNetClient env (appRepositoryForRequest req) secret secret <;> rfl

/-- The user's secret that a write has found. -/
theorem requestSecret_creds {u : Unit} (hreg : req.authRegCreds ≠ "")
    (hrecord : (recordSecret h req appRepo ns).exec (st.putRepo appRepo) = (.ok u, st'))
    {s : StoredSecret} (hs : st.secrets ns req.authRegCreds = some s) :
    (requestSecret h req ns).exec st = (.ok (some (s.sent req.authRegCreds)), st) := by
  obtain ⟨secret, st₁, hsecret, _⟩ := Call.exec_bind_ok hrecord
  unfold secretForRequest at hsecret
  rw [if_pos hreg] at hsecret
  obtain ⟨found, st₂, hget, _⟩ := Call.exec_bind_ok hsecret
  have hfree : h.refused (.getSecret ns req.authRegCreds) = none := by
    simp only [getSecret, UserHandler.request, Call.exec_of] at hget
    split at hget
    · simp at hget
    · assumption
  unfold requestSecret
  rw [if_pos hreg, Call.exec_bind]
  simp only [getSecret, UserHandler.request, Call.exec_of, hfree, hs]
  rfl

theorem requestSecret_own (h : UserHandler) (ns : String) (st : KubeState)
    (hreg : req.authRegCreds = "") :
    ∃ secret, (requestSecret h req ns).exec st = (.ok secret, st) ∧
      (secretsForRequest req ≠ ∅ → ∃ s, secret = some s ∧ s.Holds (secretsForRequest req)) := by
  unfold requestSecret
  rw [if_neg (not_not.mpr hreg)]
  by_cases hempty : secretsForRequest req = ∅
  · rw [if_pos hempty]
    exact ⟨none, rfl, fun hne => absurd hempty hne⟩
  · rw [if_neg hempty]
    exact ⟨_, rfl, fun _ => ⟨_, rfl, holds_stringData _ _ _⟩⟩

/-! ### Kubeops -/

section Chart

variable {server : Kubeops.Env} {handler : Clusters.KubeHandler}
  {token cluster kns kcluster : String} {client : Clusters.UserHandler} {k : RepoKey}

theorem reads_secret {rest : Clusters.RestConfig} (hreads : ReadsFrom server rest st)
    {name : String} {s : StoredSecret} (hs : st.secrets ns name = some s) :
    ∃ x, server.getSecret rest name ns = .ok x ∧ (netSecret x).data = s.data := by
  have hdata := hreads.secret name ns
  rw [hs] at hdata
  cases hx : server.getSecret rest name ns with
  | error err =>
      rw [hx] at hdata
      cases hdata
  | ok x =>
      rw [hx] at hdata
      exact ⟨x, rfl, Option.some.inj hdata⟩

/-- The secret for a reference of the repository. -/
theorem related_secret {rest : Clusters.RestConfig} (hreads : ReadsFrom server rest st)
    (related : Option SecretKeySelector)
    (hthere : ∀ ref, related = some ref → ∃ s, st.secrets ns ref.name = some s) :
    ∃ o : Option Kubeops.Secret,
      (∀ ref, related = some ref → ∃ x, o = some x ∧ server.getSecret rest ref.name ns = .ok x) ∧
      (related = none → o = none) ∧
      ∀ ref s, related = some ref → st.secrets ns ref.name = some s →
        ∃ x, o.map netSecret = some x ∧ x.data = s.data ∧ x.stringData = ∅ := by
  cases related with
  | none => exact ⟨none, fun _ href => (nomatch href), fun _ => rfl, fun _ _ href => (nomatch href)⟩
  | some ref =>
      obtain ⟨s, hs⟩ := hthere ref rfl
      obtain ⟨x, hx, hdata⟩ := reads_secret hreads hs
      refine ⟨some x, ?_, fun hnone => (nomatch hnone), ?_⟩
      · intro ref' href
        rw [← Option.some.inj href]
        exact ⟨x, rfl, hx⟩
      · intro ref' s' href hs'
        rw [← Option.some.inj href, hs] at hs'
        rw [← Option.some.inj hs']
        exact ⟨netSecret x, rfl, hdata, rfl⟩

/-- The client of kubeops, if the secrets of the repository are there. -/
theorem chartClient_eq (env : ClientEnv)
    (hclient : Kubeops.repoClient handler token cluster kns kcluster k.ns = .ok client)
    (hreads : ReadsFrom server client.clientset.config st) (hrepo : st.apprepos k = some appRepo)
    (hns : appRepo.ns = k.ns)
    (hca : ∀ ref, appRepo.spec.auth.customCA = some ref → ∃ s, st.secrets k.ns ref.name = some s)
    (hheader : ∀ ref, appRepo.spec.auth.header = some ref →
      ∃ s, st.secrets k.ns ref.name = some s) :
    ∃ ca auth, chartClient env server handler token cluster kns kcluster k =
        initNetClient env appRepo.spec ca auth ∧
      (∀ ref s, appRepo.spec.auth.customCA = some ref → st.secrets k.ns ref.name = some s →
        ∃ x, ca = some x ∧ x.data = s.data ∧ x.stringData = ∅) ∧
      (∀ ref s, appRepo.spec.auth.header = some ref → st.secrets k.ns ref.name = some s →
        ∃ x, auth = some x ∧ x.data = s.data ∧ x.stringData = ∅) := by
  have hget : server.getAppRepository client.clientset.config k.name k.ns = .ok appRepo := by
    have hoption := hreads.appRepository k.name k.ns
    rw [hrepo] at hoption
    cases hx : server.getAppRepository client.clientset.config k.name k.ns with
    | error err =>
        rw [hx] at hoption
        cases hoption
    | ok a =>
        rw [hx] at hoption
        rw [Option.some.inj hoption]
  obtain ⟨ca, hcaSome, hcaNone, hcaData⟩ := related_secret hreads _ hca
  obtain ⟨auth, hauthSome, hauthNone, hauthData⟩ := related_secret hreads _ hheader
  refine ⟨ca.map netSecret, auth.map netSecret, ?_, hcaData, hauthData⟩
  unfold chartClient Kubeops.getAppRepoAndRelatedSecrets
  rw [hclient]
  show ((server.getAppRepository client.clientset.config k.name k.ns).mapError _ >>= _ >>= _ :
    Except String RepoClient) = _
  rw [hget]
  dsimp only [Except.mapError, bind, Except.bind]
  rw [hns]
  cases hcaRef : appRepo.spec.auth.customCA with
  | none =>
      rw [hcaNone hcaRef]
      cases hheaderRef : appRepo.spec.auth.header with
      | none =>
          rw [hauthNone hheaderRef]
          rfl
      | some ref =>
          obtain ⟨x, hx, hsecret⟩ := hauthSome ref hheaderRef
          rw [hx]
          dsimp only
          rw [hsecret]
          rfl
  | some caRef =>
      obtain ⟨xca, hxca, hcaSecret⟩ := hcaSome caRef hcaRef
      rw [hxca]
      dsimp only
      rw [hcaSecret]
      cases hheaderRef : appRepo.spec.auth.header with
      | none =>
          rw [hauthNone hheaderRef]
          rfl
      | some ref =>
          obtain ⟨x, hx, hsecret⟩ := hauthSome ref hheaderRef
          rw [hx]
          dsimp only
          rw [hsecret]
          rfl

/-! ### The three clients -/

/-- Without registry credentials all three are what the request asks for. -/
theorem agree_own (hreg : req.authRegCreds = "")
    (hguard : ¬ (req.registrySecrets ≠ [] ∧ ns = h.kubeappsNamespace))
    (hkey : appRepo.key = ⟨ns, req.name⟩) (hspec : appRepo.spec = appRepositoryForRequest req)
    (hclient : Kubeops.repoClient handler token cluster kns kcluster ns = .ok client)
    (hreads : ReadsFrom server client.clientset.config st')
    (hrepo : st'.apprepos ⟨ns, req.name⟩ = some appRepo)
    (hown : secretsForRequest req ≠ ∅ → ∃ owners,
      st'.secrets ns (secretNameForRepo req.name) = some ⟨owners, secretsForRequest req⟩)
    (hvalue : ∀ ref, RequestRef req ref →
      secretValue st' config.kubeappsNamespace (secretKeyRefForRepo ref appRepo config) =
        (secretsForRequest req).lookup ref.key) :
    ClientsAgree ((getValidationCli env h req ns).exec st).1 (syncJobClient env config st' appRepo)
      (chartClient env server handler token cluster kns kcluster ⟨ns, req.name⟩) := by
  have hauth := auth_of_spec hspec
  have hheaderNe : req.authHeader ≠ "" → secretsForRequest req ≠ ∅ :=
    fun hne hempty => hne (secretsForRequest_empty hempty).1
  have hcaNe : req.customCA ≠ "" → secretsForRequest req ≠ ∅ :=
    fun hne hempty => hne (secretsForRequest_empty hempty).2
  have hthere : ∀ ref, RequestRef req ref → ∃ s, st'.secrets ns ref.name = some s := by
    intro ref href
    obtain ⟨hname, hmem⟩ := requestRef_of_no_creds hreg href
    obtain ⟨owners, hs⟩ := hown fun hempty => Finmap.notMem_empty (hempty ▸ hmem)
    exact ⟨_, by rw [hname]; exact hs⟩
  obtain ⟨secret, hsecret, hholds⟩ := requestSecret_own h ns st hreg
  obtain ⟨ca, auth, hchart, hca, hheader⟩ := chartClient_eq (k := ⟨ns, req.name⟩) env
    hclient hreads hrepo (congrArg RepoKey.ns hkey)
    (fun ref href => hthere ref (.inr (hauth ▸ href)))
    (fun ref href => hthere ref (.inl (hauth ▸ href)))
  have hchartOwn : initNetClient env (appRepositoryForRequest req) ca auth =
      requestClient env req := by
    refine initNetClient_own hreg (fun hne => ?_) (fun hne => ?_)
    · obtain ⟨owners, hs⟩ := hown (hcaNe hne)
      obtain ⟨x, hx, hdata⟩ := hca _ _ (hauth ▸ requestCA_own hne) hs
      exact ⟨x, hx, holds_of_data hdata⟩
    · obtain ⟨owners, hs⟩ := hown (hheaderNe hne)
      obtain ⟨x, hx, hdata⟩ := hheader _ _ (hauth ▸ requestHeader_own hreg hne) hs
      exact ⟨x, hx, holds_of_data hdata⟩
  rw [hchart, hspec, hchartOwn]
  refine ⟨?_, congrArg _ (syncJob_own hreg hspec hvalue)⟩
  rw [validation_eq hguard hsecret]
  exact congrArg _ (initNetClient_own hreg (fun hne => hholds (hcaNe hne))
    (fun hne => hholds (hheaderNe hne)))

/-- With registry credentials and no CA the docker config decides what the clients are. -/
theorem clients_creds (env : ClientEnv) (hreg : req.authRegCreds ≠ "") (hnoCA : req.customCA = "")
    (hguard : ¬ (req.registrySecrets ≠ [] ∧ ns = h.kubeappsNamespace))
    (hkey : appRepo.key = ⟨ns, req.name⟩) (hspec : appRepo.spec = appRepositoryForRequest req)
    (hclient : Kubeops.repoClient handler token cluster kns kcluster ns = .ok client)
    (hreads : ReadsFrom server client.clientset.config st')
    (hrepo : st'.apprepos ⟨ns, req.name⟩ = some appRepo) {s : StoredSecret}
    (hsecret : (requestSecret h req ns).exec st = (.ok (some (s.sent req.authRegCreds)), st))
    (hs : st'.secrets ns req.authRegCreds = some s)
    (hvalue : secretValue st' config.kubeappsNamespace
      (secretKeyRefForRepo ⟨req.authRegCreds, ".dockerconfigjson"⟩ appRepo config) =
        s.data.lookup ".dockerconfigjson") :
    ((getValidationCli env h req ns).exec st).1.toOption =
        (credsHeader env (s.data.lookup ".dockerconfigjson")).map (fun header =>
          ⟨"", req.tlsInsecureSkipVerify, some header⟩) ∧
      (syncJobClient env config st' appRepo).toOption =
        (jobHeader env (s.data.lookup ".dockerconfigjson")).map (fun header =>
          ⟨"", req.tlsInsecureSkipVerify, header⟩) ∧
      (chartClient env server handler token cluster kns kcluster ⟨ns, req.name⟩).toOption =
        (credsHeader env (s.data.lookup ".dockerconfigjson")).map (fun header =>
          ⟨"", req.tlsInsecureSkipVerify, some header⟩) := by
  have hauth := auth_of_spec hspec
  have hheader := requestHeader_creds hreg
  obtain ⟨ca, auth, hchart, _, hauthData⟩ := chartClient_eq (k := ⟨ns, req.name⟩) env
    hclient hreads hrepo (congrArg RepoKey.ns hkey)
    (fun ref href => by
      rw [hauth, requestCA_none hnoCA] at href
      cases href)
    (fun ref href => by
      rw [hauth, hheader] at href
      rw [← Option.some.inj href]
      exact ⟨s, hs⟩)
  obtain ⟨x, hx, hdata, _⟩ := hauthData _ s (hauth ▸ hheader) hs
  refine ⟨?_, ?_, ?_⟩
  · rw [validation_eq hguard hsecret, initNetClient_creds hreg hnoCA]
    rfl
  · rw [syncJob_creds hreg hnoCA hspec, hvalue]
  · rw [hchart, hspec, hx, initNetClient_creds hreg hnoCA, hdata]

end Chart

end Clients

/-- The clients for one docker config agree exactly if it has one entry, or is none. -/
theorem agree_iff_oneEntry {validation : Except ApiError RepoClient}
    {syncJob chart : Except String RepoClient} {skip : Bool} {dockerConfigJson : Option String}
    (hclients : validation.toOption =
        (credsHeader env dockerConfigJson).map (fun header => ⟨"", skip, some header⟩) ∧
      syncJob.toOption = (jobHeader env dockerConfigJson).map (fun header => ⟨"", skip, header⟩) ∧
      chart.toOption =
        (credsHeader env dockerConfigJson).map (fun header => ⟨"", skip, some header⟩)) :
    ClientsAgree validation syncJob chart ↔
      ∀ config, dockerConfigJson = some config → OneEntry env config := by
  obtain ⟨hvalidation, hjob, hchart⟩ := hclients
  have hinjective : Function.Injective fun header : Option String =>
      (⟨"", skip, header⟩ : RepoClient) := fun _ _ heq => congrArg RepoClient.authorization heq
  have hsome : (credsHeader env dockerConfigJson).map
      (fun header => (⟨"", skip, some header⟩ : RepoClient)) =
      ((credsHeader env dockerConfigJson).map some).map fun header => ⟨"", skip, header⟩ :=
    (Option.map_map _ _ _).symm
  rw [← headers_agree_iff]
  unfold ClientsAgree
  rw [hvalidation, hjob, hchart, hsome]
  constructor
  · exact fun hagree => (Option.map_injective hinjective hagree.2).symm
  · exact fun hheaders => ⟨rfl, by rw [hheaders]⟩

/-- After a create or an update the backend, the sync job and kubeops have the same client for the
    repository, or none of them has one, exactly if the docker config of its registry credentials
    has one entry or is none. If it is empty, or has no entry or several, the sync job has a client
    without a header and the other two have none. -/
theorem clients_agree_iff (kind : WriteKind) (env : ClientEnv) (h : UserHandler)
    (req : AppRepositoryRequest) (ns : String) (st st' : KubeState) (appRepo : AppRepository)
    (config : Config) (server : Kubeops.Env) (handler : Clusters.KubeHandler)
    (token cluster kubeappsCluster : String) (client : Clusters.UserHandler)
    (hconfig : config.kubeappsNamespace = h.kubeappsNamespace)
    (hca : req.authRegCreds = "" ∨ req.customCA = "")
    (hwrite : (writeAppRepository kind h req ns).exec st = (.ok appRepo, st'))
    (hclient : Kubeops.repoClient handler token cluster h.kubeappsNamespace kubeappsCluster ns =
      .ok client)
    (hreads : ReadsFrom server client.clientset.config st') :
    (ClientsAgree ((getValidationCli env h req ns).exec st).1 (syncJobClient env config st' appRepo)
      (chartClient env server handler token cluster h.kubeappsNamespace kubeappsCluster
        ⟨ns, req.name⟩) ↔
    (req.authRegCreds ≠ "" → ∀ s dockerConfigJson, st.secrets ns req.authRegCreds = some s →
      s.data.lookup ".dockerconfigjson" = some dockerConfigJson →
        OneEntry env dockerConfigJson)) ∧
    (req.authRegCreds ≠ "" → ∀ s dockerConfigJson, st.secrets ns req.authRegCreds = some s →
      s.data.lookup ".dockerconfigjson" = some dockerConfigJson → ¬ OneEntry env dockerConfigJson →
        (syncJobClient env config st' appRepo).toOption =
            some ⟨"", req.tlsInsecureSkipVerify, none⟩ ∧
          ((getValidationCli env h req ns).exec st).1.toOption = none ∧
          (chartClient env server handler token cluster h.kubeappsNamespace kubeappsCluster
            ⟨ns, req.name⟩).toOption = none) := by
  have hguard := writeAppRepository_guard hwrite
  obtain ⟨hkey, hspec, _, u, hrecord⟩ := writeAppRepository_ok hwrite
  have hname : appRepo.name = req.name := congrArg RepoKey.name hkey
  have hput : (st.putRepo appRepo).apprepos ⟨ns, req.name⟩ = some appRepo := by
    rw [← hkey]
    exact KubeState.putRepo_self ..
  rcases recordSecret_ok hrecord with ⟨hreg, hempty, hst⟩ | ⟨hreg, s, hs, hst⟩ |
    ⟨hreg, hne, owners, hst⟩
  · refine ⟨iff_of_true ?_ fun hcreds => absurd hreg hcreds, fun hcreds => absurd hreg hcreds⟩
    rw [hst] at hreads ⊢
    refine agree_own hreg hguard hkey hspec hclient hreads hput (fun hne => absurd hempty hne) ?_
    intro ref href
    have hmem := (requestRef_of_no_creds hreg href).2
    rw [hempty] at hmem
    exact absurd hmem Finmap.notMem_empty
  · have hs₀ : st.secrets ns req.authRegCreds = some s := hs
    have hsecret := requestSecret_creds hreg hrecord hs₀
    have hrepo : st'.apprepos ⟨ns, req.name⟩ = some appRepo := by
      rw [hst, copied_apprepos]
      exact hput
    have hs' : st'.secrets ns req.authRegCreds = some s := by
      rw [hst, copied_secrets]
      exact hs
    have hclients := clients_creds env hreg (hca.resolve_left hreg) hguard hkey hspec hclient
      hreads hrepo hsecret hs' (by rw [hst]; exact secretValue_creds hkey hconfig hs)
    refine ⟨?_, ?_⟩
    · rw [agree_iff_oneEntry hclients]
      constructor
      · intro hentry _ s' dockerConfigJson hs'' hlookup
        rw [hs₀] at hs''
        exact hentry dockerConfigJson (Option.some.inj hs'' ▸ hlookup)
      · intro hentry dockerConfigJson hlookup
        exact hentry hreg s dockerConfigJson hs₀ hlookup
    · intro _ s' dockerConfigJson hs'' hlookup hnot
      rw [hs₀] at hs''
      obtain ⟨hvalidation, hjob, hchart⟩ := hclients
      obtain ⟨hcreds, hheader⟩ := headers_of_not_oneEntry hnot
      rw [Option.some.inj hs'', hlookup, hcreds] at hvalidation hchart
      rw [Option.some.inj hs'', hlookup, hheader] at hjob
      exact ⟨hjob, hvalidation, hchart⟩
  · refine ⟨iff_of_true ?_ fun hcreds => absurd hreg hcreds, fun hcreds => absurd hreg hcreds⟩
    have hrepo : st'.apprepos ⟨ns, req.name⟩ = some appRepo := by
      rw [hst, copied_apprepos]
      exact hput
    refine agree_own hreg hguard hkey hspec hclient hreads hrepo (fun _ => ⟨owners, ?_⟩) ?_
    · rw [hst, copied_secrets, hname]
      exact KubeState.putSecret_self ..
    · intro ref href
      rw [hst]
      exact secretValue_own hkey hconfig (requestRef_of_no_creds hreg href).1

/-- An API server that answers everybody with what it has. -/
def serverOf (st : KubeState) : Kubeops.Env where
  getAppRepository _ name ns :=
    match st.apprepos ⟨ns, name⟩ with
    | some appRepo => .ok appRepo
    | none => .error "not found"
  getSecret _ name ns :=
    match st.secrets ns name with
    | some s => .ok ⟨name, "Opaque", s.data⟩
    | none => .error "not found"
  unmarshalDetails _ := .error "EOF"
  dockerAuths _ := .ok []

theorem readsFrom_serverOf (st : KubeState) (config : Clusters.RestConfig) :
    ReadsFrom (serverOf st) config st where
  appRepository name ns := by
    unfold serverOf
    dsimp only
    cases st.apprepos ⟨ns, name⟩ <;> rfl
  secret name ns := by
    unfold serverOf
    dsimp only
    cases st.secrets ns name <;> rfl

/-- `one` and `two` stand for docker configs with one and with two entries. -/
def dockerEnv : ClientEnv where
  unmarshalDockerConfig s :=
    if s = "one" then .ok [("https://index.docker.io/v1/", ⟨"alice", "pass"⟩)]
    else if s = "two" then
      .ok [("https://index.docker.io/v1/", ⟨"alice", "pass"⟩), ("quay.io", ⟨"alice", "word"⟩)]
    else .error "invalid character"
  unmarshal_empty := rfl
  appendCertsFromPEM _ := true

/-- The docker config `regcred` of the namespace `team`. -/
def regcredState (dockerConfigJson : String) : KubeState where
  apprepos := fun _ => none
  secrets := fun ns name => if ns = "team" ∧ name = "regcred" then
    some ⟨[], (∅ : StringMap).insert ".dockerconfigjson" dockerConfigJson⟩ else none
  repos_key := no_repos_key

/-- The three clients of a repository of `team` with this docker config. -/
def RegcredClientsAgree (dockerConfigJson : String) : Prop :=
  let req := bitnamiRequest "" "" "regcred"
  let st := regcredState dockerConfigJson
  let st' := ((createAppRepository freeHandler req "team").exec st).2
  ClientsAgree ((getValidationCli dockerEnv freeHandler req "team").exec st).1
    (syncJobClient dockerEnv defaultConfig st' (bitnamiCreated req))
    (chartClient dockerEnv (serverOf st') (Clusters.twoClusters "") "token" "default" "kubeapps"
      "default" ⟨"team", "bitnami"⟩)

theorem regcred_clients_agree : RegcredClientsAgree "one" ∧ ¬ RegcredClientsAgree "two" := by
  let req := bitnamiRequest "" "" "regcred"
  have hsecret : ∀ config, (regcredState config).secrets "team" "regcred" =
      some ⟨[], (∅ : StringMap).insert ".dockerconfigjson" config⟩ := fun _ => rfl
  have hone : (writeAppRepository .create freeHandler req "team").exec (regcredState "one") =
      (.ok (bitnamiCreated req),
        ((createAppRepository freeHandler req "team").exec (regcredState "one")).2) :=
    Prod.ext (by decide) rfl
  have htwo : (writeAppRepository .create freeHandler req "team").exec (regcredState "two") =
      (.ok (bitnamiCreated req),
        ((createAppRepository freeHandler req "team").exec (regcredState "two")).2) :=
    Prod.ext (by decide) rfl
  constructor
  · refine (clients_agree_iff .create dockerEnv freeHandler req "team" _ _ _ defaultConfig _
      (Clusters.twoClusters "") "token" "default" "default" _ rfl (.inr rfl) hone rfl
      (readsFrom_serverOf _ _)).1.mpr ?_
    intro _ s dockerConfigJson hs hlookup
    have hs' := Option.some.inj ((hsecret "one").symm.trans hs)
    rw [← hs', Finmap.lookup_insert] at hlookup
    rw [← Option.some.inj hlookup]
    refine ⟨by decide, fun auths hauths => ?_⟩
    rw [← Except.ok.inj hauths]
    rfl
  · intro hagree
    have hentry := (clients_agree_iff .create dockerEnv freeHandler req "team" _ _ _ defaultConfig _
      (Clusters.twoClusters "") "token" "default" "default" _ rfl (.inr rfl) htwo rfl
      (readsFrom_serverOf _ _)).1.mp hagree (by decide) _ "two" (hsecret "two")
      (Finmap.lookup_insert _)
    exact absurd (hentry.2 _ rfl) (by decide)

end Kubeapps.Kube
