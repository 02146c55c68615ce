/-
  The AppRepository requests of the backend (pkg/kube/kube_handler.go: CreateAppRepository,
  UpdateAppRepository, DeleteAppRepository) and the secrets that they write.

  The state is what the API server has: AppRepositories, and secrets by namespace and name. A call
  that fails keeps what it has done. `refused` is whatever keeps the server from a request
  (permissions, admission, the network), as a function of the request; what exists, what does not
  and what has an invalid name are errors of the server itself. The body is given as it is decoded.

  The spec lemmas (`recordSecret_ok`, `writeAppRepository_ok`, `deleteAppRepository_ok`) say what a
  call that succeeds has done. What follows for the credentials is in Credentials.lean.
-/
import Kubeapps.Controller.SyncHandler
import Kubeapps.Lib.Call

namespace Kubeapps.Kube

open Kubeapps.Lib Kubeapps.Controller
open Kubeapps.Syncer (RepoKey FilterRuleSpec)

/-! ## The API server -/

/-- A `corev1.Secret` as it is sent. -/
structure Secret where
  name : String
  ownerReferences : List OwnerReference
  data : StringMap
  stringData : StringMap
  deriving DecidableEq

/-- A secret as it is kept: `stringData` has been written into `data`. -/
structure StoredSecret where
  ownerReferences : List OwnerReference
  data : StringMap
  deriving DecidableEq

def Secret.stored (secret : Secret) : StoredSecret :=
  ⟨secret.ownerReferences, secret.stringData ∪ secret.data⟩

def StoredSecret.sent (name : String) (secret : StoredSecret) : Secret :=
  ⟨name, secret.ownerReferences, secret.data, ∅⟩

@[simp] theorem stored_sent (name : String) (secret : StoredSecret) :
    (secret.sent name).stored = secret := by
  simp [Secret.stored, StoredSecret.sent]

structure KubeState where
  apprepos : RepoKey → Option AppRepository
  secrets : String → String → Option StoredSecret
  repos_key : ∀ k apprepo, apprepos k = some apprepo → apprepo.key = k

theorem no_repos_key (k : RepoKey) (apprepo : AppRepository)
    (h : (fun _ => none : RepoKey → Option AppRepository) k = some apprepo) : apprepo.key = k :=
  nomatch h

namespace KubeState

def putRepo (st : KubeState) (apprepo : AppRepository) : KubeState where
  apprepos := Function.update st.apprepos apprepo.key (some apprepo)
  secrets := st.secrets
  repos_key := repos_key_update st.repos_key apprepo

def eraseRepo (st : KubeState) (k : RepoKey) : KubeState where
  apprepos := Function.update st.apprepos k none
  secrets := st.secrets
  repos_key := repos_key_remove st.repos_key k

def putSecret (st : KubeState) (ns name : String) (secret : Option StoredSecret) : KubeState :=
  { st with secrets := Function.update st.secrets ns (Function.update (st.secrets ns) name secret) }

section

variable (st : KubeState) (k : RepoKey) (apprepo : AppRepository) (ns name : String)
  (secret : Option StoredSecret)

@[simp] theorem putRepo_secrets : (st.putRepo apprepo).secrets = st.secrets := rfl

@[simp] theorem eraseRepo_secrets : (st.eraseRepo k).secrets = st.secrets := rfl

@[simp] theorem putSecret_apprepos : (st.putSecret ns name secret).apprepos = st.apprepos := rfl

@[simp] theorem putRepo_self : (st.putRepo apprepo).apprepos apprepo.key = some apprepo :=
  Function.update_self ..

@[simp] theorem eraseRepo_self : (st.eraseRepo k).apprepos k = none := Function.update_self ..

@[simp] theorem putSecret_self : (st.putSecret ns name secret).secrets ns name = secret := by
  simp [putSecret]

theorem putRepo_of_ne {k' : RepoKey} (h : k' ≠ apprepo.key) :
    (st.putRepo apprepo).apprepos k' = st.apprepos k' := Function.update_of_ne h ..

theorem eraseRepo_of_ne {k' : RepoKey} (h : k' ≠ k) :
    (st.eraseRepo k).apprepos k' = st.apprepos k' := Function.update_of_ne h ..

theorem putSecret_of_ne_ns {ns' : String} (h : ns' ≠ ns) (name' : String) :
    (st.putSecret ns name secret).secrets ns' name' = st.secrets ns' name' := by
  simp [putSecret, Function.update_of_ne h]

theorem putSecret_of_ne {name' : String} (h : name' ≠ name) (ns' : String) :
    (st.putSecret ns name secret).secrets ns' name' = st.secrets ns' name' := by
  by_cases hns : ns' = ns
  · subst hns
    simp [putSecret, Function.update_of_ne h]
  · exact putSecret_of_ne_ns st ns name secret hns name'

/-- Writing what is there. -/
theorem putSecret_same (h : st.secrets ns name = secret) : st.putSecret ns name secret = st := by
  unfold putSecret
  rw [← h, Function.update_eq_self, Function.update_eq_self]

end

end KubeState

/-- The requests, with the clientset that makes them where the code has a choice. -/
inductive ApiRequest where
  | createAppRepository (k : RepoKey)
  | getAppRepository (k : RepoKey)
  | updateAppRepository (k : RepoKey)
  | deleteAppRepository (k : RepoKey)
  | getSecret (ns name : String)
  | createSecret (asService : Bool) (ns name : String)
  | updateSecret (ns name : String)
  | deleteSecret (ns name : String)
  deriving DecidableEq

inductive ApiError where
  | alreadyExists (name : String)
  | notFound (name : String)
  | other (msg : String)
  deriving DecidableEq, Repr

/-- A `userHandler`. `newUID` is what the server gives to the next object. -/
structure UserHandler where
  kubeappsNamespace : String
  refused : ApiRequest → Option String
  newUID : String

abbrev Api := Call KubeState ApiError

/-! ## Requests to the server -/

/-- A request that may be refused. -/
def UserHandler.request {α : Type} (h : UserHandler) (req : ApiRequest)
    (f : KubeState → Except ApiError α × KubeState) : Api α :=
  .of fun st =>
    match h.refused req with
    | some msg => (.error (.other msg), st)
    | none => f st

def createAppRepositoryObject (h : UserHandler) (k : RepoKey) (spec : AppRepositorySpec) :
    Api AppRepository :=
  h.request (.createAppRepository k) fun st =>
    if hvalid : ValidKey k then
      match st.apprepos k with
      | some _ => (.error (.alreadyExists k.name), st)
      | none =>
          let apprepo : AppRepository := {
            ns := k.ns, name := k.name, uid := h.newUID, deletionTimestamp := none, spec := spec
            ns_valid := hvalid.validNamespace, name_valid := hvalid.validName }
          (.ok apprepo, st.putRepo apprepo)
    else (.error (.other "metadata.name: Invalid value"), st)

def getAppRepositoryObject (h : UserHandler) (k : RepoKey) : Api AppRepository :=
  h.request (.getAppRepository k) fun st =>
    match st.apprepos k with
    | some apprepo => (.ok apprepo, st)
    | none => (.error (.notFound k.name), st)

def updateAppRepositoryObject (h : UserHandler) (apprepo : AppRepository) : Api AppRepository :=
  h.request (.updateAppRepository apprepo.key) fun st =>
    match st.apprepos apprepo.key with
    | some _ => (.ok apprepo, st.putRepo apprepo)
    | none => (.error (.notFound apprepo.name), st)

def deleteAppRepositoryObject (h : UserHandler) (k : RepoKey) : Api Unit :=
  h.request (.deleteAppRepository k) fun st =>
    match st.apprepos k with
    | some _ => (.ok (), st.eraseRepo k)
    | none => (.error (.notFound k.name), st)

/-- `GetSecret`. -/
def getSecret (h : UserHandler) (name ns : String) : Api Secret :=
  h.request (.getSecret ns name) fun st =>
    match st.secrets ns name with
    | some secret => (.ok (secret.sent name), st)
    | none => (.error (.notFound name), st)

def createSecret (h : UserHandler) (asService : Bool) (ns : String) (secret : Secret) : Api Unit :=
  h.request (.createSecret asService ns secret.name) fun st =>
    match st.secrets ns secret.name with
    | some _ => (.error (.alreadyExists secret.name), st)
    | none => (.ok (), st.putSecret ns secret.name (some secret.stored))

def updateSecret (h : UserHandler) (ns : String) (secret : Secret) : Api Unit :=
  h.request (.updateSecret ns secret.name) fun st =>
    match st.secrets ns secret.name with
    | some _ => (.ok (), st.putSecret ns secret.name (some secret.stored))
    | none => (.error (.notFound secret.name), st)

def deleteSecret (h : UserHandler) (ns name : String) : Api Unit :=
  h.request (.deleteSecret ns name) fun st =>
    match st.secrets ns name with
    | some _ => (.ok (), st.putSecret ns name none)
    | none => (.error (.notFound name), st)

/-- Create a secret with one of the clientsets, or update it with the user's if there is one. -/
def putSecretObject (h : UserHandler) (asService : Bool) (ns : String) (secret : Secret) : Api Unit :=
  tryCatch (createSecret h asService ns secret) fun
    | .alreadyExists _ => updateSecret h ns secret
    | err => throw err

/-! ## The calls of the backend -/

/-- `appRepositoryRequestDetails`. -/
structure AppRepositoryRequest where
  name : String
  type : String
  repoURL : String
  authHeader : String
  customCA : String
  authRegCreds : String
  registrySecrets : List String
  syncJobPodTemplate : PodTemplateSpec
  resyncRequests : Nat
  ociRepositories : List String
  tlsInsecureSkipVerify : Bool
  filterRule : FilterRuleSpec
  description : String
  passCredentials : Bool
  deriving DecidableEq

/-- The `auth` of `appRepositoryForRequest`. -/
def authForRequest (req : AppRepositoryRequest) : AppRepositoryAuth where
  header :=
    if req.authRegCreds ≠ "" then some ⟨req.authRegCreds, ".dockerconfigjson"⟩
    else if req.authHeader ≠ "" then some ⟨secretNameForRepo req.name, "authorizationHeader"⟩
    else none
  customCA := if req.customCA ≠ "" then some ⟨secretNameForRepo req.name, "ca.crt"⟩ else none

/-- `appRepositoryForRequest`: the spec of the AppRepository. -/
def appRepositoryForRequest (req : AppRepositoryRequest) : AppRepositorySpec where
  type := if req.type = "" then "helm" else req.type
  url := req.repoURL
  auth := authForRequest req
  resyncRequests := req.resyncRequests
  syncJobPodTemplate := req.syncJobPodTemplate
  dockerRegistrySecrets := req.registrySecrets
  ociRepositories := req.ociRepositories
  tlsInsecureSkipVerify := req.tlsInsecureSkipVerify
  filterRule := req.filterRule
  description := req.description
  passCredentials := req.passCredentials

/-- The `StringData` of `secretForRequest`. -/
def secretsForRequest (req : AppRepositoryRequest) : StringMap :=
  let header : StringMap :=
    if req.authHeader ≠ "" then (∅ : StringMap).insert "authorizationHeader" req.authHeader else ∅
  if req.customCA ≠ "" then header.insert "ca.crt" req.customCA else header

/-- `secretForRequest`. -/
def secretForRequest (h : UserHandler) (req : AppRepositoryRequest) (appRepo : AppRepository)
    (ns : String) : Api (Option Secret) :=
  if req.authRegCreds ≠ "" then do
    let secret ← getSecret h req.authRegCreds ns
    return some secret
  else if secretsForRequest req = ∅ then return none
  else return some {
    name := secretNameForRepo appRepo.name
    ownerReferences :=
      [⟨"kubeapps.com/v1alpha1", "AppRepository", appRepo.name, appRepo.uid, false, true⟩]
    data := ∅
    stringData := secretsForRequest req }

/-- `applyAppRepositorySecret`. -/
def applyAppRepositorySecret (h : UserHandler) (repoSecret : Secret) (requestNamespace : String) :
    Api Unit :=
  putSecretObject h false requestNamespace repoSecret

/-- `copyAppRepositorySecret`. -/
def copyAppRepositorySecret (h : UserHandler) (repoSecret : Secret) (appRepo : AppRepository) :
    Api Unit :=
  putSecretObject h true h.kubeappsNamespace { repoSecret with
    name := kubeappsSecretNameForRepo appRepo.name appRepo.ns
    ownerReferences := [] }

/-- What `CreateAppRepository` and `UpdateAppRepository` do with the secret of the request once the
    AppRepository is there. -/
def recordSecret (h : UserHandler) (req : AppRepositoryRequest) (appRepo : AppRepository)
    (requestNamespace : String) : Api Unit := do
  match ← secretForRequest h req appRepo requestNamespace with
  | none => return ()
  | some repoSecret =>
      -- a docker config secret exists already
      let apply : Api Unit :=
        if ".dockerconfigjson" ∉ repoSecret.data then
          applyAppRepositorySecret h repoSecret requestNamespace
        else pure ()
      let copy : Api Unit :=
        if requestNamespace ≠ h.kubeappsNamespace then copyAppRepositorySecret h repoSecret appRepo
        else pure ()
      apply
      copy

def errKubeappsNamespace : ApiError :=
  .other "kubeappsNamespace must be configured to enable app repository handler"

/-- `ErrGlobalRepositoryWithSecrets`. -/
def errGlobalRepositoryWithSecrets : ApiError :=
  .other ("docker registry secrets cannot be set for app repositories available in all namespaces")

/-- `CreateAppRepository`. -/
def createAppRepository (h : UserHandler) (req : AppRepositoryRequest) (requestNamespace : String) :
    Api AppRepository :=
  if h.kubeappsNamespace = "" then throw errKubeappsNamespace
  else if req.registrySecrets ≠ [] ∧ requestNamespace = h.kubeappsNamespace then
    throw errGlobalRepositoryWithSecrets
  else do
    let appRepo ← createAppRepositoryObject h ⟨requestNamespace, req.name⟩
      (appRepositoryForRequest req)
    recordSecret h req appRepo requestNamespace
    return appRepo

/-- `UpdateAppRepository`. -/
def updateAppRepository (h : UserHandler) (req : AppRepositoryRequest) (requestNamespace : String) :
    Api AppRepository :=
  if h.kubeappsNamespace = "" then throw errKubeappsNamespace
  else if req.registrySecrets ≠ [] ∧ requestNamespace = h.kubeappsNamespace then
    throw errGlobalRepositoryWithSecrets
  else do
    let existing ← getAppRepositoryObject h ⟨requestNamespace, req.name⟩
    let appRepo ← updateAppRepositoryObject h { existing with spec := appRepositoryForRequest req }
    recordSecret h req appRepo requestNamespace
    return appRepo

/-- The repository has credentials. -/
def HasCredentials (spec : AppRepositorySpec) : Prop :=
  spec.auth.header ≠ none ∨ spec.auth.customCA ≠ none

instance (spec : AppRepositorySpec) : Decidable (HasCredentials spec) :=
  inferInstanceAs (Decidable (_ ∨ _))

/-- `DeleteAppRepository`. -/
def deleteAppRepository (h : UserHandler) (repoName repoNamespace : String) : Api Unit := do
  let appRepo ← getAppRepositoryObject h ⟨repoNamespace, repoName⟩
  deleteAppRepositoryObject h ⟨repoNamespace, repoName⟩
  if HasCredentials appRepo.spec ∧ repoNamespace ≠ h.kubeappsNamespace then
    deleteSecret h h.kubeappsNamespace (kubeappsSecretNameForRepo repoName repoNamespace)

/-! ## What the calls do -/

section Specs

variable {h : UserHandler} {st st' : KubeState} {req : AppRepositoryRequest} {ns : String}
  {appRepo : AppRepository}

theorem request_ok {α : Type} {r : ApiRequest} {f : KubeState → Except ApiError α × KubeState}
    {a : α} (hreq : (h.request r f).exec st = (.ok a, st')) : f st = (.ok a, st') := by
  simp only [UserHandler.request, Call.exec_of] at hreq
  split at hreq
  · simp at hreq
  · exact hreq

theorem getAppRepositoryObject_ok {k : RepoKey}
    (hget : (getAppRepositoryObject h k).exec st = (.ok appRepo, st')) :
    st' = st ∧ st.apprepos k = some appRepo := by
  have hok := request_ok hget
  split at hok
  · rename_i a ha
    obtain ⟨hres, hst⟩ := Prod.mk.inj hok
    exact ⟨hst.symm, by rw [ha, Except.ok.inj hres]⟩
  · simp at hok

theorem createAppRepositoryObject_ok {k : RepoKey} {spec : AppRepositorySpec}
    (hcreate : (createAppRepositoryObject h k spec).exec st = (.ok appRepo, st')) :
    st.apprepos k = none ∧ appRepo.key = k ∧ appRepo.spec = spec ∧ st' = st.putRepo appRepo := by
  have hok := request_ok hcreate
  split at hok
  · split at hok
    · simp at hok
    · rename_i hnone
      obtain ⟨hres, hst⟩ := Prod.mk.inj hok
      have hrepo := Except.ok.inj hres
      subst hrepo
      exact ⟨hnone, rfl, rfl, hst.symm⟩
  · simp at hok

theorem updateAppRepositoryObject_ok {new : AppRepository}
    (hupdate : (updateAppRepositoryObject h new).exec st = (.ok appRepo, st')) :
    appRepo = new ∧ st' = st.putRepo new := by
  have hok := request_ok hupdate
  split at hok
  · obtain ⟨hres, hst⟩ := Prod.mk.inj hok
    exact ⟨(Except.ok.inj hres).symm, hst.symm⟩
  · simp at hok

theorem createSecret_ok {asService : Bool} {secret : Secret} {u : Unit}
    (hcreate : (createSecret h asService ns secret).exec st = (.ok u, st')) :
    st' = st.putSecret ns secret.name (some secret.stored) := by
  have hok := request_ok hcreate
  split at hok
  · simp at hok
  · exact (Prod.mk.inj hok).2.symm

theorem updateSecret_ok {secret : Secret} {u : Unit}
    (hupdate : (updateSecret h ns secret).exec st = (.ok u, st')) :
    st' = st.putSecret ns secret.name (some secret.stored) := by
  have hok := request_ok hupdate
  split at hok
  · exact (Prod.mk.inj hok).2.symm
  · simp at hok

/-- A request that fails changes nothing. -/
theorem createSecret_error {asService : Bool} {secret : Secret} {e : ApiError}
    (hcreate : (createSecret h asService ns secret).exec st = (.error e, st')) : st' = st := by
  simp only [createSecret, UserHandler.request, Call.exec_of] at hcreate
  split at hcreate
  · exact (Prod.mk.inj hcreate).2.symm
  · split at hcreate
    · exact (Prod.mk.inj hcreate).2.symm
    · simp at hcreate

theorem putSecretObject_ok {asService : Bool} {secret : Secret} {u : Unit}
    (hput : (putSecretObject h asService ns secret).exec st = (.ok u, st')) :
    st' = st.putSecret ns secret.name (some secret.stored) := by
  unfold putSecretObject at hput
  rw [Call.exec_catch] at hput
  split at hput
  · rename_i v st₁ hcreate
    rw [createSecret_ok hcreate] at hput
    exact (Prod.mk.inj hput).2.symm
  · rename_i e st₁ hcreate
    rw [createSecret_error hcreate] at hput
    split at hput
    · exact updateSecret_ok hput
    · simp at hput

/-- `secretForRequest` changes nothing. It returns the user's secret, nothing, or a new one. -/
theorem secretForRequest_ok {secret : Option Secret}
    (hsecret : (secretForRequest h req appRepo ns).exec st = (.ok secret, st')) :
    st' = st ∧
      ((req.authRegCreds ≠ "" ∧ ∃ s, st.secrets ns req.authRegCreds = some s ∧
          secret = some (s.sent req.authRegCreds)) ∨
        (req.authRegCreds = "" ∧ secretsForRequest req = ∅ ∧ secret = none) ∨
        (req.authRegCreds = "" ∧ secretsForRequest req ≠ ∅ ∧ ∃ owners, secret =
          some ⟨secretNameForRepo appRepo.name, owners, ∅, secretsForRequest req⟩)) := by
  unfold secretForRequest at hsecret
  split at hsecret
  · rename_i hreg
    obtain ⟨s, st₁, hget, hret⟩ := Call.exec_bind_ok hsecret
    have hok := request_ok hget
    split at hok
    · rename_i s' hs'
      obtain ⟨hres, hst⟩ := Prod.mk.inj hok
      obtain ⟨hres', hst'⟩ := Prod.mk.inj hret
      rw [← hst', ← hst]
      refine ⟨rfl, .inl ⟨hreg, s', hs', ?_⟩⟩
      rw [← Except.ok.inj hres', ← Except.ok.inj hres]
    · simp at hok
  · rename_i hreg
    have hreg' : req.authRegCreds = "" := not_not.mp hreg
    split at hsecret
    · rename_i hempty
      obtain ⟨hres, hst⟩ := Prod.mk.inj hsecret
      exact ⟨hst.symm, .inr (.inl ⟨hreg', hempty, (Except.ok.inj hres).symm⟩)⟩
    · rename_i hne
      obtain ⟨hres, hst⟩ := Prod.mk.inj hsecret
      exact ⟨hst.symm, .inr (.inr ⟨hreg', hne, _, (Except.ok.inj hres).symm⟩)⟩

/-- The copy of a secret in the Kubeapps namespace, for a repository outside it. -/
def copied (h : UserHandler) (appRepo : AppRepository) (ns : String) (data : StringMap)
    (st : KubeState) : KubeState :=
  if ns = h.kubeappsNamespace then st
  else st.putSecret h.kubeappsNamespace (kubeappsSecretNameForRepo appRepo.name appRepo.ns)
    (some ⟨[], data⟩)

/-- The last part of `recordSecret`. -/
theorem copy_ok {secret : Secret} {u : Unit}
    (hcopy : (if ns ≠ h.kubeappsNamespace then copyAppRepositorySecret h secret appRepo
      else pure () : Api Unit).exec st = (.ok u, st')) :
    st' = copied h appRepo ns (secret.stringData ∪ secret.data) st := by
  unfold copied
  split at hcopy
  · rename_i hns
    rw [if_neg hns]
    exact putSecretObject_ok hcopy
  · rename_i hns
    rw [if_pos (not_not.mp hns)]
    exact (Prod.mk.inj hcopy).2.symm

/-- What a success of `recordSecret` has done: nothing, the copy of the user's secret, or a secret
    of the repository and its copy. -/
theorem recordSecret_ok {u : Unit} (hrecord : (recordSecret h req appRepo ns).exec st = (.ok u, st')) :
    (req.authRegCreds = "" ∧ secretsForRequest req = ∅ ∧ st' = st) ∨
      (req.authRegCreds ≠ "" ∧ ∃ s, st.secrets ns req.authRegCreds = some s ∧
        st' = copied h appRepo ns s.data st) ∨
      (req.authRegCreds = "" ∧ secretsForRequest req ≠ ∅ ∧ ∃ owners,
        st' = copied h appRepo ns (secretsForRequest req) (st.putSecret ns
          (secretNameForRepo appRepo.name) (some ⟨owners, secretsForRequest req⟩))) := by
  unfold recordSecret at hrecord
  obtain ⟨secret, st₁, hsecret, hrest⟩ := Call.exec_bind_ok hrecord
  obtain ⟨hst, hcases⟩ := secretForRequest_ok hsecret
  subst hst
  rcases hcases with ⟨hreg, s, hs, rfl⟩ | ⟨hreg, hempty, rfl⟩ | ⟨hreg, hne, owners, rfl⟩
  · dsimp only at hrest
    obtain ⟨v, st₂, happly, hcopy⟩ := Call.exec_bind_ok hrest
    -- a secret that was fetched is written back as it is
    have hsame : st₂ = st₁ := by
      split at happly
      · rw [putSecretObject_ok happly]
        exact KubeState.putSecret_same _ _ _ _ (by rw [stored_sent]; exact hs)
      · exact (Prod.mk.inj happly).2.symm
    subst hsame
    refine .inr (.inl ⟨hreg, s, hs, ?_⟩)
    rw [copy_ok hcopy]
    simp [StoredSecret.sent]
  · exact .inl ⟨hreg, hempty, (Prod.mk.inj hrest).2.symm⟩
  · dsimp only at hrest
    obtain ⟨v, st₂, happly, hcopy⟩ := Call.exec_bind_ok hrest
    have hput : st₂ = st₁.putSecret ns (secretNameForRepo appRepo.name)
        (some ⟨owners, secretsForRequest req⟩) := by
      split at happly
      · rw [putSecretObject_ok happly]
        simp [Secret.stored]
      · rename_i hnot
        exact absurd (not_not.mp hnot) Finmap.notMem_empty
    subst hput
    refine .inr (.inr ⟨hreg, hne, owners, ?_⟩)
    rw [copy_ok hcopy]
    simp

/-- `CreateAppRepository` or `UpdateAppRepository`. -/
inductive WriteKind where
  | create
  | update
  deriving DecidableEq, Repr

def writeAppRepository (kind : WriteKind) (h : UserHandler) (req : AppRepositoryRequest)
    (requestNamespace : String) : Api AppRepository :=
  match kind with
  | .create => createAppRepository h req requestNamespace
  | .update => updateAppRepository h req requestNamespace

/-- A success has put the AppRepository of the request, and then recorded its secret. -/
theorem writeAppRepository_ok {kind : WriteKind}
    (hwrite : (writeAppRepository kind h req ns).exec st = (.ok appRepo, st')) :
    appRepo.key = ⟨ns, req.name⟩ ∧ appRepo.spec = appRepositoryForRequest req ∧
      (kind = .create → st.apprepos ⟨ns, req.name⟩ = none) ∧
      ∃ u, (recordSecret h req appRepo ns).exec (st.putRepo appRepo) = (.ok u, st') := by
  cases kind with
  | create =>
      obtain ⟨_, hwrite⟩ := Call.exec_ite_throw_ok hwrite
      obtain ⟨_, hwrite⟩ := Call.exec_ite_throw_ok hwrite
      obtain ⟨a, st₁, hcreate, hrest⟩ := Call.exec_bind_ok hwrite
      obtain ⟨hnone, hkey, hspec, hst⟩ := createAppRepositoryObject_ok hcreate
      obtain ⟨u, st₂, hrecord, hret⟩ := Call.exec_bind_ok hrest
      obtain ⟨hres, hst'⟩ := Prod.mk.inj hret
      have ha := Except.ok.inj hres
      subst ha hst hst'
      exact ⟨hkey, hspec, fun _ => hnone, u, hrecord⟩
  | update =>
      obtain ⟨_, hwrite⟩ := Call.exec_ite_throw_ok hwrite
      obtain ⟨_, hwrite⟩ := Call.exec_ite_throw_ok hwrite
      obtain ⟨old, st₀, hget, hrest⟩ := Call.exec_bind_ok hwrite
      obtain ⟨hst₀, hold⟩ := getAppRepositoryObject_ok hget
      obtain ⟨a, st₁, hupdate, hrest⟩ := Call.exec_bind_ok hrest
      obtain ⟨hnew, hst⟩ := updateAppRepositoryObject_ok hupdate
      obtain ⟨u, st₂, hrecord, hret⟩ := Call.exec_bind_ok hrest
      obtain ⟨hres, hst'⟩ := Prod.mk.inj hret
      have ha := Except.ok.inj hres
      subst ha hst hst' hst₀ hnew
      exact ⟨st₀.repos_key _ old hold, rfl, by simp, u, hrecord⟩

theorem deleteAppRepositoryObject_ok {k : RepoKey} {u : Unit}
    (hdelete : (deleteAppRepositoryObject h k).exec st = (.ok u, st')) : st' = st.eraseRepo k := by
  have hok := request_ok hdelete
  split at hok
  · exact (Prod.mk.inj hok).2.symm
  · simp at hok

theorem deleteSecret_ok {name : String} {u : Unit}
    (hdelete : (deleteSecret h ns name).exec st = (.ok u, st')) :
    st' = st.putSecret ns name none := by
  have hok := request_ok hdelete
  split at hok
  · exact (Prod.mk.inj hok).2.symm
  · simp at hok

/-- A success has removed the AppRepository and, if it had credentials, their copy. -/
theorem deleteAppRepository_ok {name : String} {u : Unit}
    (hdelete : (deleteAppRepository h name ns).exec st = (.ok u, st')) :
    ∃ appRepo, st.apprepos ⟨ns, name⟩ = some appRepo ∧
      st' = if HasCredentials appRepo.spec ∧ ns ≠ h.kubeappsNamespace then
          (st.eraseRepo ⟨ns, name⟩).putSecret h.kubeappsNamespace
            (kubeappsSecretNameForRepo name ns) none
        else st.eraseRepo ⟨ns, name⟩ := by
  obtain ⟨appRepo, st₁, hget, hrest⟩ := Call.exec_bind_ok hdelete
  obtain ⟨hst₁, hrepo⟩ := getAppRepositoryObject_ok hget
  obtain ⟨v, st₂, herase, hrest⟩ := Call.exec_bind_ok hrest
  have hst₂ := deleteAppRepositoryObject_ok herase
  subst hst₂ hst₁
  refine ⟨appRepo, hrepo, ?_⟩
  split at hrest
  · rename_i hcreds
    rw [if_pos hcreds]
    exact deleteSecret_ok hrest
  · rename_i hcreds
    rw [if_neg hcreds]
    exact (Prod.mk.inj hrest).2.symm

end Specs

end Kubeapps.Kube
