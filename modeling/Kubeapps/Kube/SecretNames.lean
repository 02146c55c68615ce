/-
  Whose secret a secret of the Kubeapps namespace is (pkg/kube/kube_handler.go: secretNameForRepo,
  KubeappsSecretNameForRepo).

  The credentials of a repository of the Kubeapps namespace are in `apprepo-<name>`, and those of
  another one are copied to `<namespace>-apprepo-<name>`. With a dash in front the first is the
  second for an empty namespace, so one condition (`Collide`) says when two repositories have
  one secret: one of them is the other one, cut at a later `-apprepo-`.

  * `calls_keep_iff`: the calls on a repository write one secret of the Kubeapps namespace, its own;
    that of another repository is safe from them exactly if the two do not collide.
-/
import Kubeapps.Kube.Copies

namespace Kubeapps.Kube

open Kubeapps.Lib Kubeapps.Controller
open Kubeapps.Syncer (RepoKey)

/-! ## Names -/

/-- The secret of the Kubeapps namespace with the credentials of the repository. -/
def credentialsSecret (kns : String) (k : RepoKey) : String :=
  if k.ns = kns then secretNameForRepo k.name else copyName k

/-- What is in front of `-apprepo-`, with a dash in front of the whole name. -/
def nameTag (kns : String) (k : RepoKey) : List Char :=
  if k.ns = kns then [] else '-' :: k.ns.toList

/-- One of two repositories is the other one, cut at a later `-apprepo-`. -/
def Collide (kns : String) (k k' : RepoKey) : Prop :=
  Shifted '-' "apprepo".toList (nameTag kns k) k.name.toList (nameTag kns k') k'.name.toList ∨
    Shifted '-' "apprepo".toList (nameTag kns k') k'.name.toList (nameTag kns k) k.name.toList

instance (kns : String) (k k' : RepoKey) : Decidable (Collide kns k k') :=
  inferInstanceAs (Decidable (_ ∨ _))

section Names

variable {kns : String} {k k' : RepoKey}

theorem toList_credentialsSecret (kns : String) (k : RepoKey) :
    '-' :: (credentialsSecret kns k).toList =
      joined '-' "apprepo".toList (nameTag kns k) k.name.toList := by
  unfold credentialsSecret nameTag
  split
  · simp [secretNameForRepo, joined]
  · unfold copyName
    rw [toList_kubeappsSecretNameForRepo]
    simp [joined]

theorem nameTag_eq_iff : nameTag kns k = nameTag kns k' ↔ k.ns = k'.ns := by
  unfold nameTag
  by_cases hk : k.ns = kns
  · by_cases hk' : k'.ns = kns
    · simp [hk, hk']
    · simp [hk, hk', Ne.symm hk']
  · by_cases hk' : k'.ns = kns
    · simp [hk, hk']
    · simp [hk, hk', String.toList_inj]

/-- When two repositories have one secret. -/
theorem credentialsSecret_eq_iff :
    credentialsSecret kns k = credentialsSecret kns k' ↔ k = k' ∨ Collide kns k k' := by
  rw [← String.toList_inj, ← List.cons_inj_right '-', toList_credentialsSecret,
    toList_credentialsSecret, joined_eq_iff (by decide), nameTag_eq_iff, String.toList_inj]
  refine or_congr_left ?_
  cases k
  cases k'
  simp

end Names

/-! ## What the calls write -/

/-- A secret of the Kubeapps namespace. -/
abbrev secretAt (kns name : String) (st : KubeState) : Option StoredSecret := st.secrets kns name

section Frames

variable {h : UserHandler} {st : KubeState} {req : AppRepositoryRequest} {ns kns name : String}
  {appRepo : AppRepository}

theorem keeps_request {α γ : Type} {view : KubeState → γ} {r : ApiRequest}
    {f : KubeState → Except ApiError α × KubeState} (hf : ∀ st, view (f st).2 = view st) :
    Call.Keeps view (h.request r f) := by
  intro st
  rw [UserHandler.request, Call.exec_of]
  split
  · rfl
  · exact hf st

theorem createAppRepositoryObject_keeps {k : RepoKey} {spec : AppRepositorySpec} :
    Call.Keeps (secretAt kns name) (createAppRepositoryObject h k spec) := by
  refine keeps_request fun st => ?_
  split
  · split <;> rfl
  · rfl

theorem getAppRepositoryObject_keeps {k : RepoKey} :
    Call.Keeps (secretAt kns name) (getAppRepositoryObject h k) := by
  refine keeps_request fun st => ?_
  split <;> rfl

theorem updateAppRepositoryObject_keeps :
    Call.Keeps (secretAt kns name) (updateAppRepositoryObject h appRepo) := by
  refine keeps_request fun st => ?_
  split <;> rfl

theorem deleteAppRepositoryObject_keeps {k : RepoKey} :
    Call.Keeps (secretAt kns name) (deleteAppRepositoryObject h k) := by
  refine keeps_request fun st => ?_
  split <;> rfl

theorem getSecret_keeps {name' : String} : Call.Keeps (secretAt kns name) (getSecret h name' ns) := by
  refine keeps_request fun st => ?_
  split <;> rfl

theorem putSecret_other {name' : String} {secret : Option StoredSecret}
    (hne : ns = kns → name' ≠ name) :
    secretAt kns name (st.putSecret ns name' secret) = secretAt kns name st := by
  by_cases hns : ns = kns
  · exact KubeState.putSecret_of_ne _ _ _ _ (Ne.symm (hne hns)) kns
  · exact KubeState.putSecret_of_ne_ns _ _ _ _ (Ne.symm hns) name

theorem deleteSecret_keeps {name' : String} (hne : ns = kns → name' ≠ name) :
    Call.Keeps (secretAt kns name) (deleteSecret h ns name') := by
  refine keeps_request fun st => ?_
  split
  · exact putSecret_other hne
  · rfl

/-- Another secret is not changed by a put, whether it succeeds or not. -/
theorem putSecretObject_keeps {asService : Bool} {secret : Secret}
    (hne : ns = kns → secret.name ≠ name) :
    Call.Keeps (secretAt kns name) (putSecretObject h asService ns secret) := by
  refine Call.keeps_catch ?_ fun e => ?_
  · refine keeps_request fun st => ?_
    split
    · rfl
    · exact putSecret_other hne
  · split
    · refine keeps_request fun st => ?_
      split
      · exact putSecret_other hne
      · rfl
    · exact Call.keeps_throw _

/-- To put what is there changes nothing. -/
theorem putSecretObject_same {asService : Bool} {secret : StoredSecret} {name' : String}
    (hsecret : st.secrets ns name' = some secret) :
    ((putSecretObject h asService ns (secret.sent name')).exec st).2 = st := by
  unfold putSecretObject
  rw [Call.exec_catch]
  split
  · rename_i u st₁ hcreate
    rw [createSecret_ok hcreate, stored_sent]
    exact KubeState.putSecret_same _ _ _ _ hsecret
  · rename_i e st₁ hcreate
    rw [createSecret_error hcreate]
    split
    · rw [updateSecret, UserHandler.request, Call.exec_of]
      split
      · rfl
      · rw [show st.secrets ns (secret.sent name').name = some secret from hsecret]
        rw [stored_sent]
        exact KubeState.putSecret_same _ _ _ _ hsecret
    · rfl

theorem secretForRequest_keeps :
    Call.Keeps (secretAt kns name) (secretForRequest h req appRepo ns) := by
  unfold secretForRequest
  split
  · exact Call.keeps_bind getSecret_keeps fun _ _ _ _ => rfl
  · exact Call.keeps_ite (Call.keeps_pure _) (Call.keeps_pure _)

theorem copy_keeps {secret : Secret} (hns : appRepo.ns = ns)
    (hname : name ≠ credentialsSecret h.kubeappsNamespace appRepo.key) :
    Call.Keeps (secretAt h.kubeappsNamespace name)
      (if ns ≠ h.kubeappsNamespace then copyAppRepositorySecret h secret appRepo else pure ()) := by
  split
  · rename_i hout
    refine putSecretObject_keeps fun _ heq => hname ?_
    rw [credentialsSecret, if_neg (by rw [← hns] at hout; exact hout)]
    exact heq.symm
  · exact Call.keeps_pure _

/-- The secret of a request changes no secret of the Kubeapps namespace but that of the repository.
    Registry credentials of the user are at most put as they are. -/
theorem recordSecret_keeps (hns : appRepo.ns = ns)
    (hname : name ≠ credentialsSecret h.kubeappsNamespace appRepo.key) :
    Call.Keeps (secretAt h.kubeappsNamespace name) (recordSecret h req appRepo ns) := by
  refine Call.keeps_bind secretForRequest_keeps fun st₀ secret st hsecret => ?_
  obtain ⟨hst, hcases⟩ := secretForRequest_ok hsecret
  subst hst
  rcases hcases with ⟨_, s, hs, rfl⟩ | ⟨_, _, rfl⟩ | ⟨_, _, owners, rfl⟩
  · have happly : ((if ".dockerconfigjson" ∉ (s.sent req.authRegCreds).data then
        applyAppRepositorySecret h (s.sent req.authRegCreds) ns else pure () : Api Unit).exec st).2 =
        st := by
      split
      · exact putSecretObject_same hs
      · rfl
    dsimp only
    rw [Call.exec_bind]
    split
    · rename_i u st₁ hrun
      have hsame : st₁ = st := by rw [← happly, hrun]
      rw [hsame]
      exact copy_keeps hns hname st
    · rename_i e st₁ hrun
      have hsame : st₁ = st := by rw [← happly, hrun]
      rw [hsame]
  · rfl
  · refine Call.keeps_bind ?_ (fun _ _ st₁ _ => copy_keeps hns hname st₁) st
    refine Call.keeps_ite (putSecretObject_keeps fun hin heq => hname ?_) (Call.keeps_pure _)
    rw [credentialsSecret, if_pos (by rw [← hin]; exact hns)]
    exact heq.symm

theorem writeAppRepository_keeps {kind : WriteKind}
    (hname : name ≠ credentialsSecret h.kubeappsNamespace ⟨ns, req.name⟩) :
    Call.Keeps (secretAt h.kubeappsNamespace name) (writeAppRepository kind h req ns) := by
  have hrecord : ∀ {a : AppRepository}, a.key = ⟨ns, req.name⟩ → ∀ st,
      secretAt h.kubeappsNamespace name ((do
        recordSecret h req a ns
        return a : Api AppRepository).exec st).2 = secretAt h.kubeappsNamespace name st := by
    intro a hkey
    refine Call.keeps_bind (recordSecret_keeps (congrArg RepoKey.ns hkey) ?_) fun _ _ _ _ => rfl
    rw [hkey]
    exact hname
  cases kind with
  | create =>
      refine Call.keeps_ite (Call.keeps_throw _) (Call.keeps_ite (Call.keeps_throw _) ?_)
      refine Call.keeps_bind createAppRepositoryObject_keeps fun st a st₁ hcreate => ?_
      exact hrecord (createAppRepositoryObject_ok hcreate).2.1 st₁
  | update =>
      refine Call.keeps_ite (Call.keeps_throw _) (Call.keeps_ite (Call.keeps_throw _) ?_)
      refine Call.keeps_bind getAppRepositoryObject_keeps fun st old st₁ hget => ?_
      have hold : old.key = ⟨ns, req.name⟩ := st.repos_key _ _ (getAppRepositoryObject_ok hget).2
      refine Call.keeps_bind updateAppRepositoryObject_keeps (fun _ a st₂ hupdate => ?_) st₁
      refine hrecord ?_ st₂
      rw [(updateAppRepositoryObject_ok hupdate).1]
      exact hold

theorem deleteAppRepository_keeps {repoName : String}
    (hname : name ≠ credentialsSecret h.kubeappsNamespace ⟨ns, repoName⟩) :
    Call.Keeps (secretAt h.kubeappsNamespace name) (deleteAppRepository h repoName ns) := by
  refine Call.keeps_bind getAppRepositoryObject_keeps fun _ a st₁ _ => ?_
  refine Call.keeps_bind deleteAppRepositoryObject_keeps (fun _ _ st₂ _ => ?_) st₁
  split
  · rename_i hcreds
    refine deleteSecret_keeps (fun _ heq => hname ?_) st₂
    rw [credentialsSecret, if_neg hcreds.2]
    exact heq.symm
  · rfl

/-- A call on a repository changes one secret of the Kubeapps namespace at most, its own. -/
theorem call_keeps (c : RepoCall) (hname : name ≠ credentialsSecret kns c.key) :
    Call.Keeps (secretAt kns name) (c.run kns) := by
  obtain ⟨refused, newUID, op⟩ := c
  cases op with
  | write kind req ns => exact Call.keeps_bind (writeAppRepository_keeps hname) fun _ _ _ _ => rfl
  | delete repoName ns => exact deleteAppRepository_keeps hname

end Frames

/-! ## Calls that are refused nothing -/

section Free

variable {h : UserHandler} {st : KubeState} {ns : String}

theorem request_free {α : Type} (hfree : ∀ r, h.refused r = none) (r : ApiRequest)
    (f : KubeState → Except ApiError α × KubeState) : (h.request r f).exec st = f st := by
  rw [UserHandler.request, Call.exec_of, hfree]

theorem createAppRepositoryObject_free (hfree : ∀ r, h.refused r = none) {k : RepoKey}
    (hvalid : ValidKey k) (hnone : st.apprepos k = none) (spec : AppRepositorySpec) :
    ∃ a, a.key = k ∧ (createAppRepositoryObject h k spec).exec st = (.ok a, st.putRepo a) := by
  rw [createAppRepositoryObject, request_free hfree, dif_pos hvalid, hnone]
  exact ⟨_, rfl, rfl⟩

theorem putSecretObject_free (hfree : ∀ r, h.refused r = none) (asService : Bool) (secret : Secret) :
    (putSecretObject h asService ns secret).exec st =
      (.ok (), st.putSecret ns secret.name (some secret.stored)) := by
  unfold putSecretObject
  rw [Call.exec_catch, createSecret, request_free hfree]
  cases hold : st.secrets ns secret.name with
  | none => rfl
  | some old =>
      show (updateSecret h ns secret).exec st = _
      rw [updateSecret, request_free hfree, hold]

/-- A request with a header makes the secret of the repository. -/
theorem recordSecret_free (hfree : ∀ r, h.refused r = none) {req : AppRepositoryRequest}
    (hreg : req.authRegCreds = "") (hsome : secretsForRequest req ≠ ∅) {a : AppRepository}
    (hns : a.ns = ns) :
    secretAt h.kubeappsNamespace (credentialsSecret h.kubeappsNamespace a.key)
      ((recordSecret h req a ns).exec st).2 ≠ none := by
  have hkey : a.key.ns = ns := hns
  unfold recordSecret secretForRequest
  rw [if_neg (not_not.mpr hreg), if_neg hsome, Call.exec_bind, Call.exec_pure]
  dsimp only
  rw [if_pos Finmap.notMem_empty, Call.exec_bind, applyAppRepositorySecret,
    putSecretObject_free hfree]
  dsimp only
  by_cases hin : ns = h.kubeappsNamespace
  · rw [if_neg (not_not.mpr hin), credentialsSecret, if_pos (hkey.trans hin), hin]
    simp [secretAt, AppRepository.key]
  · rw [if_pos hin, credentialsSecret, if_neg (by rw [hkey]; exact hin),
      copyAppRepositorySecret, putSecretObject_free hfree]
    simp [secretAt, copyName, AppRepository.key]

end Free

/-- No call on the repository changes that secret of the Kubeapps namespace, whether it succeeds or
    not. -/
def Untouched (kns : String) (k : RepoKey) (name : String) : Prop :=
  ∀ c : RepoCall, c.key = k → Call.Keeps (secretAt kns name) (c.run kns)

/-- A create of the repository with a header. -/
def headerCall (k : RepoKey) (authHeader : String) : RepoCall :=
  ⟨fun _ => none, "3f1c",
    .write .create { bitnamiRequest authHeader "" "" with name := k.name } k.ns⟩

/-- No AppRepositories and no secrets. -/
def emptyState : KubeState := ⟨fun _ => none, fun _ _ => none, no_repos_key⟩

theorem headerCall_writes {kns : String} (hkns : kns ≠ "") {k : RepoKey} (hk : ValidKey k) :
    secretAt kns (credentialsSecret kns k)
      (((headerCall k "Bearer x").run kns).exec emptyState).2 ≠ none := by
  let h : UserHandler := ⟨kns, fun _ => none, "3f1c"⟩
  let req : AppRepositoryRequest := { bitnamiRequest "Bearer x" "" "" with name := k.name }
  have hfree : ∀ r, h.refused r = none := fun _ => rfl
  have hnone : emptyState.apprepos k = none := rfl
  have hsome : secretsForRequest req ≠ ∅ :=
    mt secretsForRequest_eq_empty.1 (by simp [req, bitnamiRequest])
  obtain ⟨a, hkey, hcreate⟩ :=
    createAppRepositoryObject_free hfree hk hnone (appRepositoryForRequest req)
  have hsecret : secretAt kns (credentialsSecret kns a.key)
      ((recordSecret h req a k.ns).exec (emptyState.putRepo a)).2 ≠ none :=
    recordSecret_free hfree rfl hsome (congrArg RepoKey.ns hkey)
  have hrun : (((headerCall k "Bearer x").run kns).exec emptyState).2 =
      ((recordSecret h req a k.ns).exec (emptyState.putRepo a)).2 := by
    have hreg : ¬ (req.registrySecrets ≠ [] ∧ k.ns = h.kubeappsNamespace) := fun hboth => hboth.1 rfl
    have hexec : ((createAppRepository h req k.ns).exec emptyState).2 =
        ((recordSecret h req a k.ns).exec (emptyState.putRepo a)).2 := by
      rw [createAppRepository, if_neg hkns, if_neg hreg, Call.exec_bind]
      rw [show (createAppRepositoryObject h ⟨k.ns, req.name⟩ (appRepositoryForRequest req)).exec
        emptyState = _ from hcreate]
      exact Call.exec_bind_pure _ (fun _ => a) _
    rw [← hexec]
    exact Call.exec_bind_pure _ (fun _ => ()) _
  rw [hkey] at hsecret
  rw [hrun]
  exact hsecret

/-- A secret is safe from the calls on a repository unless it is the repository's own. -/
theorem untouched_iff {kns : String} (hkns : kns ≠ "") {k : RepoKey} (hk : ValidKey k)
    (name : String) : Untouched kns k name ↔ name ≠ credentialsSecret kns k := by
  constructor
  · intro hkeep hname
    have hwrites := headerCall_writes hkns hk
    rw [← hname, hkeep (headerCall k "Bearer x") rfl] at hwrites
    exact hwrites rfl
  · intro hname c hc
    exact call_keeps c (by rw [hc]; exact hname)

/-- The calls on a repository change one secret of the Kubeapps namespace, and that of another
    repository is another one, exactly if neither of the two is the other one, cut at a later
    `-apprepo-`. -/
theorem calls_keep_iff (kns : String) (hkns : kns ≠ "") (k k' : RepoKey) (hk : ValidKey k)
    (hne : k ≠ k') :
    (credentialsSecret kns k ≠ credentialsSecret kns k' ↔ ¬ Collide kns k k') ∧
      (Untouched kns k (credentialsSecret kns k') ↔ ¬ Collide kns k k') ∧
      ∀ name, Untouched kns k name ↔ name ≠ credentialsSecret kns k := by
  have hnames : credentialsSecret kns k ≠ credentialsSecret kns k' ↔ ¬ Collide kns k k' := by
    rw [Ne, credentialsSecret_eq_iff, or_iff_right hne]
  have hall := untouched_iff hkns hk
  refine ⟨hnames, ?_, hall⟩
  rw [hall, ne_comm, hnames]

theorem calls_keep_other : Untouched "kubeapps" ⟨"team", "bitnami"⟩ "other-apprepo-bitnami" :=
  (calls_keep_iff "kubeapps" (by decide) ⟨"team", "bitnami"⟩ ⟨"other", "bitnami"⟩ (by decide)
    (by decide)).2.1.mpr (by decide)

/-- Two repositories of different namespaces with one secret, which the second one overwrites, and a
    repository of the Kubeapps namespace that has its secret in common with one of another. -/
theorem secret_overwritten :
    let k : RepoKey := ⟨"a-apprepo-b", "c"⟩
    let k' : RepoKey := ⟨"a", "b-apprepo-c"⟩
    let st := (((headerCall k "Bearer x").run "kubeapps").exec emptyState).2
    let st' := (((headerCall k' "Bearer y").run "kubeapps").exec st).2
    ValidKey k ∧ ValidKey k' ∧ k ≠ k' ∧
      secretAt "kubeapps" (credentialsSecret "kubeapps" k) st =
        some ⟨[], (∅ : StringMap).insert "authorizationHeader" "Bearer x"⟩ ∧
      secretAt "kubeapps" (credentialsSecret "kubeapps" k) st' =
        some ⟨[], (∅ : StringMap).insert "authorizationHeader" "Bearer y"⟩ ∧
      credentialsSecret "kubeapps" ⟨"kubeapps", "a-apprepo-x"⟩ =
        credentialsSecret "kubeapps" ⟨"apprepo-a", "x"⟩ := by
  decide

end Kubeapps.Kube
