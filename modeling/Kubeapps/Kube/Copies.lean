/-
  The copies of credentials in the Kubeapps namespace (pkg/kube/kube_handler.go), over runs of
  CreateAppRepository, UpdateAppRepository and DeleteAppRepository.

  A copy is made by a create or an update whose request has credentials, and removed by a delete if
  the repository has credentials then. An update whose request has none takes the credentials from
  the repository and leaves the copy, and no later delete removes it.

  * `copies_owned_iff`: all along a run each copy is that of a repository with credentials, exactly
    if every update of a repository with credentials has credentials in its request.
-/
import Kubeapps.Kube.Credentials
import Kubeapps.Lib.Steps

namespace Kubeapps.Kube

open Kubeapps.Lib Kubeapps.Controller
open Kubeapps.Syncer (RepoKey)

/-! ## Runs of calls -/

inductive RepoOp where
  | write (kind : WriteKind) (req : AppRepositoryRequest) (requestNamespace : String)
  | delete (repoName repoNamespace : String)

/-- A call, with what the server refuses during it and the UID that it gives. -/
structure RepoCall where
  refused : ApiRequest → Option String
  newUID : String
  op : RepoOp

/-- The repository that the call is for. -/
def RepoCall.key (c : RepoCall) : RepoKey :=
  match c.op with
  | .write _ req ns => ⟨ns, req.name⟩
  | .delete name ns => ⟨ns, name⟩

/-- The call by a user of the installation in the namespace `kns`. -/
def RepoCall.run (kns : String) (c : RepoCall) : Api Unit :=
  let h : UserHandler := ⟨kns, c.refused, c.newUID⟩
  match c.op with
  | .write kind req ns => do
      let _ ← writeAppRepository kind h req ns
      return ()
  | .delete name ns => deleteAppRepository h name ns

/-- A call that succeeds, on one of the repositories `K`. -/
def callStep (kns : String) (K : Set RepoKey) (st : KubeState) (c : { c : RepoCall // c.key ∈ K }) :
    Option KubeState :=
  match (c.1.run kns).exec st with
  | (.ok _, st') => some st'
  | (.error _, _) => none

/-- The name of the copy. -/
def copyName (k : RepoKey) : String := kubeappsSecretNameForRepo k.name k.ns

/-- Repositories outside the Kubeapps namespace, no two of which have one copy. -/
structure Apart (kns : String) (K : Set RepoKey) : Prop where
  outside : ∀ k ∈ K, k.ns ≠ kns
  inj : Set.InjOn copyName K

def Credentialed (st : KubeState) (k : RepoKey) : Prop :=
  ∃ appRepo, st.apprepos k = some appRepo ∧ HasCredentials appRepo.spec

/-- The copies are those of repositories with credentials. -/
def CopiesOwned (kns : String) (K : Set RepoKey) (st : KubeState) : Prop :=
  ∀ k ∈ K, st.secrets kns (copyName k) ≠ none → Credentialed st k

/-- There is a copy for each repository with credentials, and no other. -/
def CopiesMatch (kns : String) (K : Set RepoKey) (st : KubeState) : Prop :=
  ∀ k ∈ K, st.secrets kns (copyName k) ≠ none ↔ Credentialed st k

/-- The request has credentials. -/
def GivesCredentials (req : AppRepositoryRequest) : Prop :=
  req.authHeader ≠ "" ∨ req.authRegCreds ≠ "" ∨ req.customCA ≠ ""

instance (req : AppRepositoryRequest) : Decidable (GivesCredentials req) :=
  inferInstanceAs (Decidable (_ ∨ _ ∨ _))

/-- The call does not update a repository with credentials to one without. -/
def KeepsCredentials (st : KubeState) (c : RepoCall) : Prop :=
  ∀ req ns, c.op = .write .update req ns → Credentialed st ⟨ns, req.name⟩ → GivesCredentials req

/-! ## What a call does to repositories and copies -/

section Effects

variable {h : UserHandler} {st st' : KubeState} {req : AppRepositoryRequest} {ns kns : String}
  {appRepo : AppRepository} {K : Set RepoKey}

theorem hasCredentials_forRequest :
    HasCredentials (appRepositoryForRequest req) ↔ GivesCredentials req := by
  unfold HasCredentials appRepositoryForRequest authForRequest GivesCredentials
  by_cases hreg : req.authRegCreds = ""
  · by_cases hheader : req.authHeader = ""
    · simp [hreg, hheader]
    · simp [hreg, hheader]
  · simp [hreg]

theorem secretsForRequest_eq_empty :
    secretsForRequest req = ∅ ↔ req.authHeader = "" ∧ req.customCA = "" := by
  constructor
  · intro hempty
    have hheader : _ ∈ secretsForRequest req ↔ _ := header_mem_secretsForRequest
    have hca : _ ∈ secretsForRequest req ↔ _ := ca_mem_secretsForRequest
    rw [hempty] at hheader hca
    simp only [Finmap.notMem_empty, false_iff, not_not] at hheader hca
    exact ⟨hheader, hca⟩
  · rintro ⟨hheader, hca⟩
    simp [secretsForRequest, hheader, hca]

theorem copied_outside (hns : ns ≠ h.kubeappsNamespace) (data : StringMap) :
    copied h appRepo ns data st =
      st.putSecret h.kubeappsNamespace (copyName appRepo.key) (some ⟨[], data⟩) :=
  if_neg hns

/-- Outside the Kubeapps namespace a copy is made exactly if the request has credentials. -/
theorem recordSecret_copies {u : Unit} (hns : ns ≠ h.kubeappsNamespace)
    (hrecord : (recordSecret h req appRepo ns).exec st = (.ok u, st')) :
    st'.apprepos = st.apprepos ∧
      ((¬ GivesCredentials req ∧
          st'.secrets h.kubeappsNamespace = st.secrets h.kubeappsNamespace) ∨
        (GivesCredentials req ∧ ∃ s, st'.secrets h.kubeappsNamespace =
          Function.update (st.secrets h.kubeappsNamespace) (copyName appRepo.key) (some s))) := by
  unfold GivesCredentials
  rcases recordSecret_ok hrecord with ⟨hreg, hempty, hst⟩ | ⟨hreg, s, _, hst⟩ |
    ⟨hreg, hsome, owners, hst⟩
  · have hnone := secretsForRequest_eq_empty.1 hempty
    rw [hst]
    exact ⟨rfl, .inl ⟨by simp [hreg, hnone], rfl⟩⟩
  · rw [hst, copied_outside hns]
    exact ⟨rfl, .inr ⟨.inr (.inl hreg), _, Function.update_self ..⟩⟩
  · rw [hst, copied_outside hns]
    refine ⟨rfl, .inr ⟨?_, ⟨[], secretsForRequest req⟩, ?_⟩⟩
    · have hgiven := mt secretsForRequest_eq_empty.2 hsome
      tauto
    · show Function.update _ _ _ _ = _
      rw [Function.update_self]
      congr 1
      funext name
      exact KubeState.putSecret_of_ne_ns _ _ _ _ (Ne.symm hns) name

/-- A call changes nothing of other repositories, or of other secrets of the Kubeapps namespace. -/
structure Frame (kns : String) (st st' : KubeState) (k : RepoKey) : Prop where
  apprepos : ∀ k', k' ≠ k → st'.apprepos k' = st.apprepos k'
  secrets : ∀ name, name ≠ copyName k → st'.secrets kns name = st.secrets kns name

theorem credentialed_of_some {k : RepoKey} (hrepo : st.apprepos k = some appRepo) :
    Credentialed st k ↔ HasCredentials appRepo.spec := by
  unfold Credentialed
  simp [hrepo]

theorem credentialed_of_none {k : RepoKey} (hrepo : st.apprepos k = none) : ¬ Credentialed st k := by
  unfold Credentialed
  simp [hrepo]

theorem write_effect {kind : WriteKind} (hns : ns ≠ h.kubeappsNamespace)
    (hwrite : (writeAppRepository kind h req ns).exec st = (.ok appRepo, st')) :
    let k : RepoKey := ⟨ns, req.name⟩
    let kns := h.kubeappsNamespace
    Frame kns st st' k ∧ (kind = .create → ¬ Credentialed st k) ∧
      (Credentialed st' k ↔ GivesCredentials req) ∧
      (st'.secrets kns (copyName k) ≠ none ↔
        GivesCredentials req ∨ st.secrets kns (copyName k) ≠ none) := by
  intro k kns
  obtain ⟨hkey, hspec, hcreate, u, hrecord⟩ := writeAppRepository_ok hwrite
  obtain ⟨hrepos, hsecrets⟩ := recordSecret_copies hns hrecord
  have hrepo : st'.apprepos k = some appRepo := by
    have hself := st.putRepo_self appRepo
    rw [hkey] at hself
    rw [hrepos]
    exact hself
  have hcreds : Credentialed st' k ↔ GivesCredentials req := by
    rw [credentialed_of_some hrepo, hspec]
    exact hasCredentials_forRequest
  have hother : ∀ k', k' ≠ k → st'.apprepos k' = st.apprepos k' := by
    intro k' hk'
    rw [hrepos]
    exact KubeState.putRepo_of_ne _ _ (by rw [hkey]; exact hk')
  rw [hkey, KubeState.putRepo_secrets] at hsecrets
  rcases hsecrets with ⟨hno, hsame⟩ | ⟨hgives, s, hput⟩
  · refine ⟨⟨hother, fun name _ => congrFun hsame name⟩, fun hk => credentialed_of_none (hcreate hk),
      hcreds, ?_⟩
    rw [show st'.secrets kns = st.secrets kns from hsame]
    simp [hno]
  · refine ⟨⟨hother, fun name hname => ?_⟩, fun hk => credentialed_of_none (hcreate hk), hcreds, ?_⟩
    · rw [show st'.secrets kns = _ from hput]
      exact Function.update_of_ne hname ..
    · rw [show st'.secrets kns = _ from hput, Function.update_self]
      simp [hgives]

theorem delete_effect {name : String} {u : Unit} (hns : ns ≠ h.kubeappsNamespace)
    (hdelete : (deleteAppRepository h name ns).exec st = (.ok u, st')) :
    let k : RepoKey := ⟨ns, name⟩
    let kns := h.kubeappsNamespace
    Frame kns st st' k ∧ ¬ Credentialed st' k ∧
      (st'.secrets kns (copyName k) ≠ none ↔
        ¬ Credentialed st k ∧ st.secrets kns (copyName k) ≠ none) := by
  intro k kns
  obtain ⟨appRepo, hrepo, hst⟩ := deleteAppRepository_ok hdelete
  have hcreds := credentialed_of_some hrepo
  by_cases hhas : HasCredentials appRepo.spec
  · rw [if_pos ⟨hhas, hns⟩] at hst
    have hgone : st'.secrets kns (copyName k) = none := by
      rw [hst]
      exact KubeState.putSecret_self ..
    rw [hgone, hst]
    refine ⟨⟨fun k' hk' => KubeState.eraseRepo_of_ne _ _ hk',
      fun name' hname' => KubeState.putSecret_of_ne _ _ _ _ hname' _⟩,
      credentialed_of_none (KubeState.eraseRepo_self ..), ?_⟩
    simp [hcreds, hhas, k]
  · rw [if_neg (fun hboth => hhas hboth.1)] at hst
    rw [hst]
    refine ⟨⟨fun k' hk' => KubeState.eraseRepo_of_ne _ _ hk', fun _ _ => rfl⟩,
      credentialed_of_none (KubeState.eraseRepo_self ..), ?_⟩
    rw [KubeState.eraseRepo_secrets]
    simp [hcreds, hhas, k]

/-- What a call does: it leaves other repositories alone, and it is a write or a delete. -/
theorem callStep_cases (hapart : Apart kns K) {c : { c : RepoCall // c.key ∈ K }}
    (hstep : callStep kns K st c = some st') :
    Frame kns st st' c.1.key ∧
      ((∃ kind req ns, c.1.op = .write kind req ns ∧ (kind = .create → ¬ Credentialed st c.1.key) ∧
          (Credentialed st' c.1.key ↔ GivesCredentials req) ∧
          (st'.secrets kns (copyName c.1.key) ≠ none ↔
            GivesCredentials req ∨ st.secrets kns (copyName c.1.key) ≠ none)) ∨
        (∃ name ns, c.1.op = .delete name ns ∧ ¬ Credentialed st' c.1.key ∧
          (st'.secrets kns (copyName c.1.key) ≠ none ↔
            ¬ Credentialed st c.1.key ∧ st.secrets kns (copyName c.1.key) ≠ none))) := by
  obtain ⟨⟨refused, newUID, op⟩, hkey⟩ := c
  have hns := hapart.outside _ hkey
  unfold callStep at hstep
  split at hstep
  · rename_i u st₁ hrun
    rw [Option.some.inj hstep] at hrun
    cases op with
    | write kind req ns =>
        obtain ⟨appRepo, st₂, hwrite, hret⟩ := Call.exec_bind_ok hrun
        rw [(Prod.mk.inj hret).2] at hwrite
        obtain ⟨hframe, heffect⟩ := write_effect hns hwrite
        exact ⟨hframe, .inl ⟨kind, req, ns, rfl, heffect⟩⟩
    | delete name ns =>
        obtain ⟨hframe, heffect⟩ := delete_effect hns hrun
        exact ⟨hframe, .inr ⟨name, ns, rfl, heffect⟩⟩
  · simp at hstep

end Effects

/-! ## The copies along a run -/

section Runs

variable {kns : String} {K : Set RepoKey} {st st' : KubeState} {c : { c : RepoCall // c.key ∈ K }}

theorem CopiesMatch.owned (hmatch : CopiesMatch kns K st) : CopiesOwned kns K st :=
  fun k hk hcopy => (hmatch k hk).mp hcopy

/-- Other repositories keep their copy, since no two have one. -/
theorem frame_other (hapart : Apart kns K) (hframe : Frame kns st st' c.1.key) {k : RepoKey}
    (hk : k ∈ K) (hne : k ≠ c.1.key) :
    st'.secrets kns (copyName k) = st.secrets kns (copyName k) ∧
      (Credentialed st' k ↔ Credentialed st k) := by
  have hname : copyName k ≠ copyName c.1.key := fun heq => hne (hapart.inj hk c.2 heq)
  refine ⟨hframe.secrets _ hname, ?_⟩
  unfold Credentialed
  rw [hframe.apprepos k hne]

/-- A call that keeps credentials keeps the copies matched. -/
theorem copiesMatch_step (hapart : Apart kns K) (hmatch : CopiesMatch kns K st)
    (hok : KeepsCredentials st c.1) (hstep : callStep kns K st c = some st') :
    CopiesMatch kns K st' := by
  obtain ⟨hframe, hcases⟩ := callStep_cases hapart hstep
  intro k hk
  by_cases hne : k = c.1.key
  · rw [hne]
    have hown := hmatch c.1.key c.2
    rcases hcases with ⟨kind, req, ns, hop, hcreate, hcreds, hcopy⟩ | ⟨name, ns, hop, hno, hcopy⟩
    · rw [hcreds, hcopy, hown]
      have hkey : c.1.key = ⟨ns, req.name⟩ := by
        unfold RepoCall.key
        rw [hop]
      have hgives : Credentialed st c.1.key → GivesCredentials req := by
        intro hold
        cases kind with
        | create => exact absurd hold (hcreate rfl)
        | update => exact hok req ns hop (hkey ▸ hold)
      exact ⟨fun hor => hor.elim id hgives, .inl⟩
    · rw [hcopy, hown]
      simp [hno]
  · obtain ⟨hsame, hcreds⟩ := frame_other hapart hframe hk hne
    rw [hsame, hcreds]
    exact hmatch k hk

/-- A call that takes the credentials from a repository leaves its copy behind. -/
theorem not_owned_step (hapart : Apart kns K) (hmatch : CopiesMatch kns K st)
    (hmiss : ¬ KeepsCredentials st c.1) (hstep : callStep kns K st c = some st') :
    ¬ CopiesOwned kns K st' := by
  unfold KeepsCredentials at hmiss
  push Not at hmiss
  obtain ⟨req, ns, hop, hold, hno⟩ := hmiss
  have hkey : c.1.key = ⟨ns, req.name⟩ := by
    unfold RepoCall.key
    rw [hop]
  rw [← hkey] at hold
  obtain ⟨-, hcases⟩ := callStep_cases hapart hstep
  intro howned
  rcases hcases with ⟨kind, req', ns', hop', _, hcreds, hcopy⟩ | ⟨name, ns', hop', _⟩
  · rw [hop] at hop'
    injection hop' with _ hreq _
    rw [← hreq] at hcreds hcopy
    have hleft := howned c.1.key c.2 (hcopy.mpr (.inr ((hmatch _ c.2).mpr hold)))
    exact hno (hcreds.mp hleft)
  · rw [hop] at hop'
    simp at hop'

end Runs

/-- All along a run of calls that succeed, each copy is that of an AppRepository with credentials,
    exactly if no update takes the credentials from a repository that has some. -/
theorem copies_owned_iff (kns : String) (K : Set RepoKey) (hapart : Apart kns K)
    (st st' : KubeState) (calls : List { c : RepoCall // c.key ∈ K }) (hstart : CopiesMatch kns K st)
    (hruns : runs (callStep kns K) st calls = some st') :
    Always (callStep kns K) (CopiesOwned kns K) st calls ↔
      StepsMeet (callStep kns K) (fun s c => KeepsCredentials s c.1) st calls :=
  always_iff_stepsMeet (fun _ hmatch => hmatch.owned)
    (fun _ _ _ hmatch hok hstep => copiesMatch_step hapart hmatch hok hstep)
    (fun _ _ _ hmatch hmiss hstep => not_owned_step hapart hmatch hmiss hstep) hruns hstart

/-- The repository `bitnami` of the namespace `team`. -/
def teamRepo : Set RepoKey := {⟨"team", "bitnami"⟩}

theorem teamRepo_apart : Apart "kubeapps" teamRepo where
  outside k hk := by
    rw [Set.mem_singleton_iff.mp hk]
    decide
  inj := Set.injOn_singleton ..

theorem teamState_match : CopiesMatch "kubeapps" teamRepo teamState := by
  intro k _
  simp [Credentialed, teamState]

/-- A write with this header that is refused nothing. -/
def teamWrite (kind : WriteKind) (authHeader : String) : { c : RepoCall // c.key ∈ teamRepo } :=
  ⟨⟨fun _ => none, "3f1c", .write kind (bitnamiRequest authHeader "" "") "team"⟩, rfl⟩

def teamDelete : { c : RepoCall // c.key ∈ teamRepo } :=
  ⟨⟨fun _ => none, "3f1c", .delete "bitnami" "team"⟩, rfl⟩

theorem copies_owned_bitnami :
    Always (callStep "kubeapps" teamRepo) (CopiesOwned "kubeapps" teamRepo) teamState
      [teamWrite .create "Bearer x", teamWrite .update "Bearer y", teamDelete] := by
  have hkept : ∀ s (c : { c : RepoCall // c.key ∈ teamRepo }),
      c ∈ [teamWrite .create "Bearer x", teamWrite .update "Bearer y", teamDelete] →
      KeepsCredentials s c.1 := by
    intro s c hc req ns hop _
    simp only [List.mem_cons, List.not_mem_nil, or_false] at hc
    rcases hc with rfl | rfl | rfl
    · simp [teamWrite] at hop
    · simp only [teamWrite, RepoOp.write.injEq] at hop
      rw [← hop.2.1]
      decide
    · simp [teamDelete] at hop
  have hsome : (runs (callStep "kubeapps" teamRepo) teamState
      [teamWrite .create "Bearer x", teamWrite .update "Bearer y", teamDelete]).isSome = true := by
    decide
  obtain ⟨st', hruns⟩ := Option.isSome_iff_exists.mp hsome
  refine (copies_owned_iff _ _ teamRepo_apart _ _ _ teamState_match hruns).mpr ?_
  exact ⟨hkept _ _ (by simp), fun _ _ => ⟨hkept _ _ (by simp), fun _ _ => ⟨hkept _ _ (by simp),
    fun _ _ => trivial⟩⟩⟩

/-- After an update without the credentials and a delete there is no repository, but its copy. -/
theorem copy_outlives_repo : ∃ st', runs (callStep "kubeapps" teamRepo) teamState
      [teamWrite .create "Bearer x", teamWrite .update "", teamDelete] = some st' ∧
    st'.apprepos ⟨"team", "bitnami"⟩ = none ∧
    st'.secrets "kubeapps" "team-apprepo-bitnami" =
      some ⟨[], (∅ : StringMap).insert "authorizationHeader" "Bearer x"⟩ ∧
    ¬ CopiesOwned "kubeapps" teamRepo st' := by
  have hend : (runs (callStep "kubeapps" teamRepo) teamState
      [teamWrite .create "Bearer x", teamWrite .update "", teamDelete]).map (fun st' =>
        (st'.apprepos ⟨"team", "bitnami"⟩, st'.secrets "kubeapps" "team-apprepo-bitnami")) =
      some (none, some ⟨[], (∅ : StringMap).insert "authorizationHeader" "Bearer x"⟩) := by
    decide
  obtain ⟨st', hruns, hboth⟩ := Option.map_eq_some_iff.mp hend
  obtain ⟨hnone, hcopy⟩ := Prod.mk.inj hboth
  refine ⟨st', hruns, hnone, hcopy, fun howned => ?_⟩
  refine credentialed_of_none hnone (howned _ rfl ?_)
  rw [show copyName ⟨"team", "bitnami"⟩ = "team-apprepo-bitnami" from rfl, hcopy]
  simp

end Kubeapps.Kube
