/-
  What a failed `CreateAppRepository` leaves (pkg/kube/kube_handler.go).

  The AppRepository is the first thing that is written, and nothing is taken back.
  `create_unchanged_iff`: a failure leaves the state as it was exactly if the AppRepository is not
  created, or everything after it succeeds. The calls after it are those of `recordSecret`;
  `recordSecret_succeeds_iff` says when all of them do.
-/
import Kubeapps.Kube.SecretNames
import Kubeapps.Kube.Credentials

namespace Kubeapps.Kube

open Kubeapps.Lib Kubeapps.Controller
open Kubeapps.Syncer (RepoKey)

/-- The secret can be created, or updated if it is there. -/
def CanPut (h : UserHandler) (asService : Bool) (ns name : String) (st : KubeState) : Prop :=
  h.refused (.createSecret asService ns name) = none ∧
    ((st.secrets ns name).isSome = true → h.refused (.updateSecret ns name) = none)

/-- The copy of the repository's secret can be written, if it needs one. -/
def CanCopy (h : UserHandler) (ns repo : String) (st : KubeState) : Prop :=
  ns ≠ h.kubeappsNamespace →
    CanPut h true h.kubeappsNamespace (kubeappsSecretNameForRepo repo ns) st

/-- The AppRepository of the request is created. -/
def Creates (h : UserHandler) (req : AppRepositoryRequest) (ns : String) (st : KubeState) : Prop :=
  h.kubeappsNamespace ≠ "" ∧ ¬ (req.registrySecrets ≠ [] ∧ ns = h.kubeappsNamespace) ∧
    h.refused (.createAppRepository ⟨ns, req.name⟩) = none ∧ ValidKey ⟨ns, req.name⟩ ∧
      st.apprepos ⟨ns, req.name⟩ = none

/-- The secret of the request is found, and it and its copy can be written. -/
def Records (h : UserHandler) (req : AppRepositoryRequest) (ns : String) (st : KubeState) : Prop :=
  if req.authRegCreds ≠ "" then
    h.refused (.getSecret ns req.authRegCreds) = none ∧
      ∃ s, st.secrets ns req.authRegCreds = some s ∧
        (".dockerconfigjson" ∉ s.data → CanPut h false ns req.authRegCreds st) ∧
          CanCopy h ns req.name st
  else secretsForRequest req ≠ ∅ →
    CanPut h false ns (secretNameForRepo req.name) st ∧ CanCopy h ns req.name st

section Failed

variable {h : UserHandler} {st st' : KubeState} {req : AppRepositoryRequest} {ns : String}
  {appRepo : AppRepository}

theorem putSecretObject_succeeds_iff {asService : Bool} {secret : Secret} :
    (putSecretObject h asService ns secret).Succeeds st ↔ CanPut h asService ns secret.name st := by
  unfold Call.Succeeds putSecretObject CanPut
  rw [Call.exec_catch, createSecret, UserHandler.request, Call.exec_of]
  cases hcreate : h.refused (.createSecret asService ns secret.name) with
  | some msg =>
      constructor
      · intro hsucceeds
        obtain ⟨_, _, hres⟩ := hsucceeds
        cases hres
      · intro hput
        cases hput.1
  | none =>
      cases hsecret : st.secrets ns secret.name with
      | none =>
          refine ⟨fun _ => ⟨rfl, ?_⟩, fun _ => ⟨(), _, rfl⟩⟩
          intro hsome
          cases hsome
      | some old =>
          dsimp only
          rw [updateSecret, UserHandler.request, Call.exec_of, hsecret]
          cases hupdate : h.refused (.updateSecret ns secret.name) with
          | some msg =>
              constructor
              · intro hsucceeds
                obtain ⟨_, _, hres⟩ := hsucceeds
                cases hres
              · intro hput
                cases hput.2 rfl
          | none => exact ⟨fun _ => ⟨rfl, fun _ => rfl⟩, fun _ => ⟨(), _, rfl⟩⟩

/-- The last part of `recordSecret`, after the repository's own secret was put. -/
theorem copy_succeeds_iff {secret : Secret} (hkey : appRepo.key = ⟨ns, req.name⟩)
    (hst : ns ≠ h.kubeappsNamespace →
      st'.secrets h.kubeappsNamespace = st.secrets h.kubeappsNamespace) :
    (if ns ≠ h.kubeappsNamespace then copyAppRepositorySecret h secret appRepo
      else pure () : Api Unit).Succeeds st' ↔ CanCopy h ns req.name st := by
  obtain ⟨hns, hname⟩ := RepoKey.mk.inj hkey
  unfold CanCopy
  by_cases hkns : ns ≠ h.kubeappsNamespace
  · rw [if_pos hkns]
    unfold copyAppRepositorySecret
    rw [putSecretObject_succeeds_iff, hns, hname]
    unfold CanPut
    rw [hst hkns]
    exact ⟨fun hput _ => hput, fun hput => hput hkns⟩
  · rw [if_neg hkns]
    exact ⟨fun _ hne => absurd hne hkns, fun _ => Call.succeeds_pure () st'⟩

theorem not_refused_of_ok {α : Type} {r : ApiRequest}
    {f : KubeState → Except ApiError α × KubeState} {a : α}
    (hreq : (h.request r f).exec st = (.ok a, st')) : h.refused r = none := by
  rw [UserHandler.request, Call.exec_of] at hreq
  split at hreq
  · cases (Prod.mk.inj hreq).1
  · assumption

/-- The user's secret is found exactly if it is there and may be read. -/
theorem secretForRequest_creds_iff {secret : Option Secret} (hreg : req.authRegCreds ≠ "") :
    (secretForRequest h req appRepo ns).exec st = (.ok secret, st') ↔
      st' = st ∧ h.refused (.getSecret ns req.authRegCreds) = none ∧
        ∃ s, st.secrets ns req.authRegCreds = some s ∧
          secret = some (s.sent req.authRegCreds) := by
  constructor
  · intro hsecret
    obtain ⟨hst, hcases⟩ := secretForRequest_ok hsecret
    refine ⟨hst, ?_, ?_⟩
    · unfold secretForRequest at hsecret
      rw [if_pos hreg] at hsecret
      obtain ⟨s, st₁, hget, _⟩ := Call.exec_bind_ok hsecret
      exact not_refused_of_ok hget
    · rcases hcases with ⟨_, s, hs, hsent⟩ | ⟨hempty, _⟩ | ⟨hempty, _⟩
      · exact ⟨s, hs, hsent⟩
      · exact absurd hempty hreg
      · exact absurd hempty hreg
  · intro ⟨hst, hrefused, s, hs, hsent⟩
    unfold secretForRequest getSecret
    rw [if_pos hreg, Call.exec_bind, UserHandler.request, Call.exec_of, hrefused, hs, hst, hsent]
    rfl

/-- What is done with a secret: the write in the namespace of the request, and the copy. -/
theorem write_and_copy_succeeds_iff {secret : Secret} {own : Prop} [Decidable own]
    (hkey : appRepo.key = ⟨ns, req.name⟩) :
    (do
      (if own then applyAppRepositorySecret h secret ns else pure () : Api Unit)
      (if ns ≠ h.kubeappsNamespace then copyAppRepositorySecret h secret appRepo
        else pure () : Api Unit)).Succeeds st ↔
      (own → CanPut h false ns secret.name st) ∧ CanCopy h ns req.name st := by
  rw [Call.succeeds_bind]
  by_cases hown : own
  · rw [if_pos hown]
    constructor
    · intro ⟨_, st₁, happly, hcopy⟩
      have hput : CanPut h false ns secret.name st :=
        putSecretObject_succeeds_iff.1 ⟨_, st₁, happly⟩
      refine ⟨fun _ => hput, (copy_succeeds_iff hkey fun hkns => ?_).mp hcopy⟩
      rw [putSecretObject_ok happly]
      exact Function.update_of_ne (Ne.symm hkns) ..
    · intro ⟨hput, hcopy⟩
      obtain ⟨u, st₁, happly⟩ := putSecretObject_succeeds_iff.2 (hput hown)
      refine ⟨u, st₁, happly, (copy_succeeds_iff hkey fun hkns => ?_).mpr hcopy⟩
      rw [putSecretObject_ok happly]
      exact Function.update_of_ne (Ne.symm hkns) ..
  · rw [if_neg hown]
    constructor
    · intro ⟨_, st₁, hpure, hcopy⟩
      rw [← (Prod.mk.inj hpure).2] at hcopy
      exact ⟨fun h => absurd h hown, (copy_succeeds_iff hkey fun _ => rfl).mp hcopy⟩
    · intro ⟨_, hcopy⟩
      exact ⟨(), st, rfl, (copy_succeeds_iff hkey fun _ => rfl).mpr hcopy⟩

theorem recordSecret_succeeds_iff (hkey : appRepo.key = ⟨ns, req.name⟩) :
    (recordSecret h req appRepo ns).Succeeds st ↔ Records h req ns st := by
  obtain ⟨_, hname⟩ := RepoKey.mk.inj hkey
  unfold recordSecret Records
  rw [Call.succeeds_bind]
  by_cases hreg : req.authRegCreds ≠ ""
  · rw [if_pos hreg]
    constructor
    · intro ⟨secret, st₁, hsecret, hrest⟩
      obtain ⟨hst, hrefused, s, hs, hsent⟩ := (secretForRequest_creds_iff hreg).mp hsecret
      rw [hst, hsent] at hrest
      exact ⟨hrefused, s, hs, (write_and_copy_succeeds_iff hkey).mp hrest⟩
    · intro ⟨hrefused, s, hs, hwrite⟩
      refine ⟨_, st, (secretForRequest_creds_iff hreg).mpr ⟨rfl, hrefused, s, hs, rfl⟩, ?_⟩
      exact (write_and_copy_succeeds_iff hkey).mpr hwrite
  · rw [if_neg hreg]
    by_cases hempty : secretsForRequest req = ∅
    · have hnone : (secretForRequest h req appRepo ns).exec st = (.ok none, st) := by
        unfold secretForRequest
        rw [if_neg hreg, if_pos hempty]
        rfl
      exact ⟨fun _ hne => absurd hempty hne, fun _ => ⟨none, st, hnone, Call.succeeds_pure () st⟩⟩
    · obtain ⟨secret, hsecret, hdata, hsome⟩ :
          ∃ secret : Secret, secret.name = secretNameForRepo appRepo.name ∧ secret.data = ∅ ∧
            (secretForRequest h req appRepo ns).exec st = (.ok (some secret), st) := by
        unfold secretForRequest
        rw [if_neg hreg, if_neg hempty]
        exact ⟨_, rfl, rfl, rfl⟩
      have hown : ".dockerconfigjson" ∉ secret.data := by
        rw [hdata]
        exact Finmap.notMem_empty
      have hputName : CanPut h false ns secret.name st ↔
          CanPut h false ns (secretNameForRepo req.name) st := by
        rw [hsecret, hname]
      constructor
      · intro ⟨secret', st₁, hsecret', hrest⟩ _
        rw [hsome] at hsecret'
        obtain ⟨hres, hst⟩ := Prod.mk.inj hsecret'
        rw [← hst, ← Except.ok.inj hres] at hrest
        obtain ⟨hput, hcopy⟩ := (write_and_copy_succeeds_iff hkey).mp hrest
        exact ⟨hputName.mp (hput hown), hcopy⟩
      · intro hwrite
        obtain ⟨hput, hcopy⟩ := hwrite hempty
        refine ⟨some secret, st, hsome, (write_and_copy_succeeds_iff hkey).mpr ?_⟩
        exact ⟨fun _ => hputName.mpr hput, hcopy⟩

/-! ## The AppRepository -/

/-- Nothing that is done with a secret changes the AppRepositories. -/
theorem putSecretObject_keeps_repos {asService : Bool} {secret : Secret} :
    Call.Keeps KubeState.apprepos (putSecretObject h asService ns secret) := by
  refine Call.keeps_catch ?_ fun e => ?_
  · refine keeps_request fun st => ?_
    split <;> rfl
  · split
    · refine keeps_request fun st => ?_
      split <;> rfl
    · exact Call.keeps_throw _

theorem recordSecret_keeps_repos :
    Call.Keeps KubeState.apprepos (recordSecret h req appRepo ns) := by
  refine Call.keeps_bind ?_ ?_
  · unfold secretForRequest
    split
    · refine Call.keeps_bind ?_ fun _ _ _ _ => rfl
      refine keeps_request fun st => ?_
      split <;> rfl
    · exact Call.keeps_ite (Call.keeps_pure _) (Call.keeps_pure _)
  · intro st secret st' _
    cases secret with
    | none => rfl
    | some secret =>
        refine Call.keeps_bind ?_ (fun st' _ _ _ => ?_) st'
        · exact Call.keeps_ite putSecretObject_keeps_repos (Call.keeps_pure _)
        · exact Call.keeps_ite putSecretObject_keeps_repos (Call.keeps_pure _) _

theorem createAppRepositoryObject_error {k : RepoKey} {spec : AppRepositorySpec} {e : ApiError}
    (hcreate : (createAppRepositoryObject h k spec).exec st = (.error e, st')) : st' = st := by
  rw [createAppRepositoryObject, UserHandler.request, Call.exec_of] at hcreate
  split at hcreate
  · exact (Prod.mk.inj hcreate).2.symm
  · split at hcreate
    · split at hcreate
      · exact (Prod.mk.inj hcreate).2.symm
      · cases (Prod.mk.inj hcreate).1
    · exact (Prod.mk.inj hcreate).2.symm

theorem createAppRepositoryObject_succeeds_iff {k : RepoKey} {spec : AppRepositorySpec} :
    (createAppRepositoryObject h k spec).Succeeds st ↔
      h.refused (.createAppRepository k) = none ∧ ValidKey k ∧ st.apprepos k = none := by
  unfold Call.Succeeds
  rw [createAppRepositoryObject, UserHandler.request, Call.exec_of]
  cases hrefused : h.refused (.createAppRepository k) with
  | some msg =>
      constructor
      · intro hsucceeds
        obtain ⟨_, _, hres⟩ := hsucceeds
        cases hres
      · intro hcreates
        cases hcreates.1
  | none =>
      by_cases hvalid : ValidKey k
      · rw [dif_pos hvalid]
        cases hrepo : st.apprepos k with
        | none => exact ⟨fun _ => ⟨rfl, hvalid, rfl⟩, fun _ => ⟨_, _, rfl⟩⟩
        | some old =>
            constructor
            · intro hsucceeds
              obtain ⟨_, _, hres⟩ := hsucceeds
              cases hres
            · intro hcreates
              cases hcreates.2.2
      · rw [dif_neg hvalid]
        constructor
        · intro hsucceeds
          obtain ⟨_, _, hres⟩ := hsucceeds
          cases hres
        · intro hcreates
          exact absurd hcreates.2.1 hvalid

/-- An AppRepository that is not created leaves everything as it was. -/
theorem create_of_not_creates (hno : ¬ Creates h req ns st) :
    ((createAppRepository h req ns).exec st).2 = st := by
  unfold createAppRepository
  by_cases hkns : h.kubeappsNamespace = ""
  · rw [if_pos hkns]
    rfl
  · rw [if_neg hkns]
    by_cases hglobal : req.registrySecrets ≠ [] ∧ ns = h.kubeappsNamespace
    · rw [if_pos hglobal]
      rfl
    · rw [if_neg hglobal, Call.exec_bind]
      have hfails : ¬ (createAppRepositoryObject h ⟨ns, req.name⟩
          (appRepositoryForRequest req)).Succeeds st := by
        rw [createAppRepositoryObject_succeeds_iff]
        exact fun hsucceeds => hno ⟨hkns, hglobal, hsucceeds⟩
      split
      · rename_i appRepo st₁ hcreate
        exact absurd ⟨appRepo, st₁, hcreate⟩ hfails
      · rename_i e st₁ hcreate
        exact createAppRepositoryObject_error hcreate

/-- Once the AppRepository is created, the call is the creation and `recordSecret`. -/
theorem create_of_creates (hcreates : Creates h req ns st) :
    ∃ appRepo, appRepo.key = ⟨ns, req.name⟩ ∧
      (createAppRepository h req ns).exec st =
        (do recordSecret h req appRepo ns; return appRepo : Api AppRepository).exec
          (st.putRepo appRepo) := by
  obtain ⟨hkns, hglobal, hcreates⟩ := hcreates
  obtain ⟨appRepo, st₁, hcreate⟩ := createAppRepositoryObject_succeeds_iff.2 hcreates
  obtain ⟨_, hkey, _, hst⟩ := createAppRepositoryObject_ok hcreate
  refine ⟨appRepo, hkey, ?_⟩
  unfold createAppRepository
  rw [if_neg hkns, if_neg hglobal, Call.exec_bind, hcreate, hst]

/-- A failure leaves the state as it was exactly if the AppRepository is not created, or nothing
    after it fails. -/
theorem create_unchanged_iff (h : UserHandler) (req : AppRepositoryRequest) (ns : String)
    (st : KubeState) :
    (∀ e st', (createAppRepository h req ns).exec st = (.error e, st') → st' = st) ↔
      (Creates h req ns st → Records h req ns st) := by
  by_cases hcreates : Creates h req ns st
  · obtain ⟨appRepo, hkey, hexec⟩ := create_of_creates hcreates
    have hrecords : Records h req ns (st.putRepo appRepo) ↔ Records h req ns st := Iff.rfl
    rw [hexec]
    constructor
    · intro hsame _
      rw [← hrecords, ← recordSecret_succeeds_iff hkey]
      by_contra hfails
      obtain ⟨e, he⟩ := Call.exec_of_not_succeeds hfails
      obtain ⟨st₁, hrecord⟩ : ∃ st₁,
          (recordSecret h req appRepo ns).exec (st.putRepo appRepo) = (.error e, st₁) :=
        ⟨_, Prod.ext he rfl⟩
      have hrepos : st₁.apprepos = (st.putRepo appRepo).apprepos := by
        have hkeeps := @recordSecret_keeps_repos h req ns appRepo (st.putRepo appRepo)
        rw [hrecord] at hkeeps
        exact hkeeps
      have hst : st₁ = st := by
        refine hsame e st₁ ?_
        rw [Call.exec_bind, hrecord]
      rw [hst] at hrepos
      have hsome := congrFun hrepos appRepo.key
      rw [KubeState.putRepo_self, hkey, hcreates.2.2.2.2] at hsome
      exact nomatch hsome
    · intro hrecord e st' herror
      obtain ⟨u, st₁, hsucceeds⟩ :=
        (recordSecret_succeeds_iff hkey).mpr (hrecords.mpr (hrecord hcreates))
      rw [Call.exec_bind, hsucceeds] at herror
      exact nomatch (Prod.mk.inj herror).1
  · constructor
    · exact fun _ hyes => absurd hyes hcreates
    · intro _ e st' herror
      have hst := create_of_not_creates hcreates
      rw [herror] at hst
      exact hst

end Failed

/-- The registry credentials of the request are not there: the AppRepository stays, and the same
    request then finds it. -/
theorem create_without_creds :
    let req := bitnamiRequest "" "" "nocreds"
    let res := (createAppRepository freeHandler req "team").exec teamState
    res.1 = .error (.notFound "nocreds") ∧ (res.2.apprepos ⟨"team", "bitnami"⟩).isSome = true ∧
      ((createAppRepository freeHandler req "team").exec res.2).1 =
        .error (.alreadyExists "bitnami") ∧
      ¬ ∀ e st', (createAppRepository freeHandler req "team").exec teamState = (.error e, st') →
        st' = teamState := by
  have hleft : ((createAppRepository freeHandler (bitnamiRequest "" "" "nocreds") "team").exec
      teamState).1 = .error (.notFound "nocreds") := by decide
  have hrepo : (((createAppRepository freeHandler (bitnamiRequest "" "" "nocreds") "team").exec
      teamState).2.apprepos ⟨"team", "bitnami"⟩).isSome = true := by decide
  refine ⟨hleft, hrepo, by decide, fun hsame => ?_⟩
  have hst : ((createAppRepository freeHandler (bitnamiRequest "" "" "nocreds") "team").exec
      teamState).2 = teamState := hsame _ _ (Prod.ext hleft rfl)
  rw [hst] at hrepo
  exact Bool.noConfusion hrepo

end Kubeapps.Kube
