/-
  The reconciliation of one key (cmd/apprepository-controller/controller.go: syncHandler).

  `listed` is what the CronJob lister knows, `cronjobs` what the API server has in the Kubeapps
  namespace; the two may differ. A call is a sequence of phases, each of them up to the next
  reading of a lister or the next request to the API server, so that calls can interleave with
  each other and with events. `handlerStep` is one phase, `fault` the error of its request, if it
  is refused. Creating what exists and updating what does not are errors of the server itself.
  The events that the controller records are left out.

  `foreign_cronJob_kept_iff`: a CronJob that belongs to somebody else is kept exactly if the lister
  does not know it or the update is refused. The test of its owner comes after the update, on the
  object that the update returned.
-/
import Kubeapps.Controller.Jobs

namespace Kubeapps.Controller

open Kubeapps.Lib
open Kubeapps.Syncer (RepoKey)

/-! ## Keys -/

/-- `cache.MetaNamespaceKeyFunc`. -/
def metaNamespaceKey (k : RepoKey) : String :=
  if k.ns = "" then k.name else k.ns ++ "/" ++ k.name

/-- `cache.SplitMetaNamespaceKey`. -/
def splitMetaNamespaceKey (key : String) : Option RepoKey :=
  match splitSlash key with
  | [name] => some ⟨"", String.ofList name⟩
  | [ns, name] => some ⟨String.ofList ns, String.ofList name⟩
  | _ => none

/-- The namespace and the name that the API server takes for an AppRepository. -/
def ValidKey (k : RepoKey) : Prop := ValidNamespace k.ns ∧ ValidName k.name

instance (k : RepoKey) : Decidable (ValidKey k) := inferInstanceAs (Decidable (_ ∧ _))

theorem ValidKey.validNamespace {k : RepoKey} (h : ValidKey k) : ValidNamespace k.ns := h.1

theorem ValidKey.validName {k : RepoKey} (h : ValidKey k) : ValidName k.name := h.2

theorem AppRepository.validKey (apprepo : AppRepository) : ValidKey apprepo.key :=
  ⟨apprepo.ns_valid, apprepo.name_valid⟩

theorem ns_ne_of_valid {k : RepoKey} (h : ValidKey k) : k.ns ≠ "" := by
  intro hns
  have hlab := h.1.1
  rw [hns] at hlab
  simp [dnsLabel] at hlab

theorem splitMetaNamespaceKey_of_valid {k : RepoKey} (h : ValidKey k) :
    splitMetaNamespaceKey (metaNamespaceKey k) = some k := by
  have hne := ns_ne_of_valid h
  have hns : '/' ∉ k.ns.toList := by
    intro hmem
    have hchar := mem_validNamespace h.1 hmem
    revert hchar
    decide
  have hname : '/' ∉ k.name.toList := by
    intro hmem
    have hchar := mem_validName h.2 hmem
    revert hchar
    decide
  have hsplit : splitSlash (metaNamespaceKey k) = [k.ns.toList, k.name.toList] := by
    have hjoin : (metaNamespaceKey k).toList = ['/'].intercalate [k.ns.toList, k.name.toList] := by
      simp [metaNamespaceKey, hne, List.intercalate]
    unfold splitSlash
    rw [hjoin, List.splitOn_intercalate]
    · intro l hl
      rcases List.mem_cons.mp hl with rfl | hl
      · exact hns
      · rw [List.mem_singleton.mp hl]
        exact hname
    · simp
  unfold splitMetaNamespaceKey
  rw [hsplit]
  simp

/-- A key with a namespace is read back only from itself. -/
theorem metaNamespaceKey_of_split {key : String} {k : RepoKey} (hns : k.ns ≠ "")
    (h : splitMetaNamespaceKey key = some k) : key = metaNamespaceKey k := by
  have hjoin : ['/'].intercalate (splitSlash key) = key.toList := List.intercalate_splitOn '/'
  unfold splitMetaNamespaceKey at h
  split at h
  · rw [← Option.some.inj h] at hns
    exact absurd rfl hns
  · rename_i ns name hsplit
    rw [hsplit] at hjoin
    rw [← Option.some.inj h] at hns ⊢
    rw [← String.toList_inj, ← hjoin]
    simp [metaNamespaceKey, hns, List.intercalate]
  · simp at h

/-- AppRepositories kept under their keys, after one is put. -/
theorem repos_key_update {apprepos : RepoKey → Option AppRepository}
    (h : ∀ k a, apprepos k = some a → a.key = k) (apprepo : AppRepository) (k : RepoKey)
    (a : AppRepository)
    (ha : Function.update apprepos apprepo.key (some apprepo) k = some a) : a.key = k :=
  forall_update h (fun _ hnew => by rw [Option.some.inj hnew]) k a ha

/-- The same, after one is removed. -/
theorem repos_key_remove {apprepos : RepoKey → Option AppRepository}
    (h : ∀ k a, apprepos k = some a → a.key = k) (removed : RepoKey) (k : RepoKey)
    (a : AppRepository) (ha : Function.update apprepos removed none k = some a) : a.key = k :=
  forall_update h (fun _ hnew => by cases hnew) k a ha

/-! ## Owners -/

/-- `metav1.GetControllerOf`. -/
def getControllerOf (object : CronJob) : Option OwnerReference :=
  object.ownerReferences.find? OwnerReference.controller

/-- `metav1.IsControlledBy`. -/
def isControlledBy (object : CronJob) (owner : AppRepository) : Bool :=
  match getControllerOf object with
  | none => false
  | some ref => ref.uid = owner.uid

/-- `objectBelongsTo`. -/
def objectBelongsTo (object : CronJob) (parent : AppRepository) : Bool :=
  object.labels.get labelRepoName = parent.name && object.labels.get labelRepoNamespace = parent.ns

/-- The CronJob of an AppRepository belongs to it by its labels. -/
theorem objectBelongsTo_newCronJob (apprepo : AppRepository) (config : Config) :
    objectBelongsTo (newCronJob apprepo config) apprepo = true := by
  have hne : labelRepoName ≠ labelRepoNamespace := by decide
  simp [objectBelongsTo, newCronJob, StringMap.get, jobLabels_lookup, hne]

/-! ## Phases -/

/-- AppRepositories as the lister has them, CronJobs of the Kubeapps namespace as the lister and as
    the API server has them, and the jobs that were created. -/
structure Cluster where
  apprepos : RepoKey → Option AppRepository
  listed : String → Option CronJob
  cronjobs : String → Option CronJob
  jobs : List Job

/-- What `syncHandler` does next. -/
inductive Phase where
  | start
  | createCleanupJob (k : RepoKey)
  | deleteCronJob (k : RepoKey)
  | getCronJob (apprepo : AppRepository)
  | createCronJob (apprepo : AppRepository)
  | updateCronJob (apprepo : AppRepository)
  | createSyncJob (apprepo : AppRepository) (cronjob : CronJob)
  | checkOwner (apprepo : AppRepository) (cronjob : CronJob)
  | returned (err : Option String)

/-- `MessageResourceExists`. -/
def messageResourceExists (name : String) : String :=
  "Resource \"" ++ name ++ "\" already exists and is not managed by AppRepository"

/-- One phase of `syncHandler key`. -/
def handlerStep (config : Config) (key : String) (fault : Option String) (cl : Cluster) :
    Phase → Cluster × Phase
  | .start =>
      match splitMetaNamespaceKey key with
      | none => (cl, .returned none)
      | some k =>
          match cl.apprepos k with
          | none => (cl, .createCleanupJob k)
          | some apprepo => (cl, .getCronJob apprepo)
  | .createCleanupJob k =>
      match fault with
      | some err => (cl, .returned (some err))
      | none =>
          let job := newCleanupJob config.kubeappsNamespace k.ns k.name config
          ({ cl with jobs := cl.jobs ++ [job] }, .deleteCronJob k)
  | .deleteCronJob k =>
      match fault with
      | some err => (cl, .returned (some err))
      | none =>
          -- that there is no such CronJob is not an error
          ({ cl with cronjobs := Function.update cl.cronjobs (cronJobName k.ns k.name) none },
            .returned none)
  | .getCronJob apprepo =>
      match cl.listed (cronJobName apprepo.ns apprepo.name) with
      | none => (cl, .createCronJob apprepo)
      | some _ => (cl, .updateCronJob apprepo)
  | .createCronJob apprepo =>
      let name := cronJobName apprepo.ns apprepo.name
      let cronjob := newCronJob apprepo config
      match fault, cl.cronjobs name with
      | some err, _ => (cl, .returned (some err))
      | none, some _ =>
          (cl, .returned (some ("cronjobs.batch \"" ++ name ++ "\" already exists")))
      | none, none =>
          ({ cl with cronjobs := Function.update cl.cronjobs name (some cronjob) },
            .createSyncJob apprepo cronjob)
  | .updateCronJob apprepo =>
      let name := cronJobName apprepo.ns apprepo.name
      let cronjob := newCronJob apprepo config
      match fault, cl.cronjobs name with
      | some err, _ => (cl, .returned (some err))
      | none, none => (cl, .returned (some ("cronjobs.batch \"" ++ name ++ "\" not found")))
      | none, some _ =>
          ({ cl with cronjobs := Function.update cl.cronjobs name (some cronjob) },
            .createSyncJob apprepo cronjob)
  | .createSyncJob apprepo cronjob =>
      match fault with
      | some err => (cl, .returned (some err))
      | none =>
          ({ cl with jobs := cl.jobs ++ [newSyncJob apprepo config] }, .checkOwner apprepo cronjob)
  | .checkOwner apprepo cronjob =>
      if !isControlledBy cronjob apprepo && !objectBelongsTo cronjob apprepo then
        (cl, .returned (some (messageResourceExists cronjob.name)))
      else (cl, .returned none)
  | .returned err => (cl, .returned err)

/-! ## A whole call -/

/-- The requests of a call. -/
inductive ApiCall where
  | createCleanupJob
  | deleteCronJob
  | createCronJob
  | updateCronJob
  | createSyncJob
  deriving DecidableEq, Repr

/-- The request of a phase. -/
def Phase.request : Phase → Option ApiCall
  | .createCleanupJob _ => some .createCleanupJob
  | .deleteCronJob _ => some .deleteCronJob
  | .createCronJob _ => some .createCronJob
  | .updateCronJob _ => some .updateCronJob
  | .createSyncJob _ _ => some .createSyncJob
  | _ => none

/-- A bound on the phases to come. -/
def Phase.rank : Phase → Nat
  | .start => 5
  | .createCleanupJob _ => 2
  | .deleteCronJob _ => 1
  | .getCronJob _ => 4
  | .createCronJob _ => 3
  | .updateCronJob _ => 3
  | .createSyncJob _ _ => 2
  | .checkOwner _ _ => 1
  | .returned _ => 0

/-- The call from a phase on, for at most `n` phases. -/
def handlerRun (config : Config) (faults : ApiCall → Option String) (key : String) :
    Nat → Cluster × Phase → Cluster × Phase
  | 0, s => s
  | n + 1, (cl, ph) =>
      handlerRun config faults key n (handlerStep config key (ph.request.bind faults) cl ph)

/-- `syncHandler`, with nobody else at work: the cluster it leaves and the error it returns. -/
def syncHandler (config : Config) (faults : ApiCall → Option String) (key : String)
    (cl : Cluster) : Cluster × Option String :=
  match handlerRun config faults key 5 (cl, .start) with
  | (cl', .returned err) => (cl', err)
  | (cl', _) => (cl', none)

section Handler

variable {config : Config} {faults : ApiCall → Option String} {key : String}

theorem rank_handlerStep (config : Config) (key : String) (fault : Option String) (cl : Cluster)
    (ph : Phase) : (handlerStep config key fault cl ph).2.rank ≤ ph.rank - 1 := by
  cases ph with
  | start =>
      simp only [handlerStep]
      split
      · simp [Phase.rank]
      · split <;> simp [Phase.rank]
  | getCronJob apprepo =>
      simp only [handlerStep]
      split <;> simp [Phase.rank]
  | createCronJob apprepo =>
      simp only [handlerStep]
      split <;> simp [Phase.rank]
  | updateCronJob apprepo =>
      simp only [handlerStep]
      split <;> simp [Phase.rank]
  | checkOwner apprepo cronjob =>
      simp only [handlerStep]
      split <;> simp [Phase.rank]
  | returned err => simp [handlerStep, Phase.rank]
  | createCleanupJob k => cases fault <;> simp [handlerStep, Phase.rank]
  | deleteCronJob k => cases fault <;> simp [handlerStep, Phase.rank]
  | createSyncJob apprepo cronjob => cases fault <;> simp [handlerStep, Phase.rank]

theorem rank_handlerRun (n : Nat) (s : Cluster × Phase) :
    (handlerRun config faults key n s).2.rank ≤ s.2.rank - n := by
  induction n generalizing s with
  | zero => simp [handlerRun]
  | succ n ih =>
      obtain ⟨cl, ph⟩ := s
      have hstep := rank_handlerStep config key (ph.request.bind faults) cl ph
      have hrest := ih (handlerStep config key (ph.request.bind faults) cl ph)
      rw [handlerRun]
      dsimp only
      omega

/-- The bound on the phases is enough: the call returns. -/
theorem syncHandler_returns (cl : Cluster) :
    handlerRun config faults key 5 (cl, .start) =
      ((syncHandler config faults key cl).1, .returned (syncHandler config faults key cl).2) := by
  have hrank : (handlerRun config faults key 5 (cl, .start)).2.rank ≤ 0 :=
    rank_handlerRun 5 (cl, .start)
  unfold syncHandler
  generalize handlerRun config faults key 5 (cl, .start) = s at hrank ⊢
  obtain ⟨cl', ph⟩ := s
  cases ph with
  | returned err => rfl
  | _ => simp [Phase.rank] at hrank

end Handler

/-! ## A CronJob of somebody else -/

section Foreign

variable (config : Config) {faults : ApiCall → Option String} {cl : Cluster}
  {apprepo : AppRepository} {foreign : CronJob}

/-- A CronJob that the lister does not know is not overwritten: the server refuses to create it. -/
theorem syncHandler_of_not_listed (hrepo : cl.apprepos apprepo.key = some apprepo)
    (hforeign : cl.cronjobs (cronJobName apprepo.ns apprepo.name) = some foreign)
    (hlisted : cl.listed (cronJobName apprepo.ns apprepo.name) = none) :
    ∃ err, syncHandler config faults (metaNamespaceKey apprepo.key) cl = (cl, some err) := by
  have hsplit := splitMetaNamespaceKey_of_valid apprepo.validKey
  cases hfault : faults .createCronJob with
  | some err =>
      refine ⟨err, ?_⟩
      simp [syncHandler, handlerRun, handlerStep, hsplit, hrepo, hlisted, Phase.request, hfault]
  | none =>
      refine ⟨"cronjobs.batch \"" ++ cronJobName apprepo.ns apprepo.name ++
        "\" already exists", ?_⟩
      simp [syncHandler, handlerRun, handlerStep, hsplit, hrepo, hlisted, Phase.request, hfault,
        hforeign]

theorem syncHandler_of_update_refused (hrepo : cl.apprepos apprepo.key = some apprepo)
    {old : CronJob} (hlisted : cl.listed (cronJobName apprepo.ns apprepo.name) = some old)
    {err : String} (hfault : faults .updateCronJob = some err) :
    syncHandler config faults (metaNamespaceKey apprepo.key) cl = (cl, some err) := by
  have hsplit := splitMetaNamespaceKey_of_valid apprepo.validKey
  simp [syncHandler, handlerRun, handlerStep, hsplit, hrepo, hlisted, Phase.request, hfault]

/-- An update that is not refused replaces the CronJob, whatever the call returns later. -/
theorem syncHandler_of_updated (hrepo : cl.apprepos apprepo.key = some apprepo)
    (hforeign : cl.cronjobs (cronJobName apprepo.ns apprepo.name) = some foreign)
    {old : CronJob} (hlisted : cl.listed (cronJobName apprepo.ns apprepo.name) = some old)
    (hfault : faults .updateCronJob = none) :
    (syncHandler config faults (metaNamespaceKey apprepo.key) cl).1.cronjobs
      (cronJobName apprepo.ns apprepo.name) = some (newCronJob apprepo config) := by
  have hsplit := splitMetaNamespaceKey_of_valid apprepo.validKey
  have hbelongs := objectBelongsTo_newCronJob apprepo config
  cases hjob : faults .createSyncJob with
  | some err =>
      simp [syncHandler, handlerRun, handlerStep, hsplit, hrepo, hlisted, Phase.request, hfault,
        hforeign, hjob]
  | none =>
      simp [syncHandler, handlerRun, handlerStep, hsplit, hrepo, hlisted, Phase.request, hfault,
        hforeign, hjob, hbelongs]

end Foreign

/-- If the CronJob of an AppRepository's name is neither controlled by it nor labelled with it,
    `syncHandler` returns an error and leaves the CronJob as it was exactly if the lister does not
    know the CronJob or the server refuses the update. -/
theorem foreign_cronJob_kept_iff (config : Config) (faults : ApiCall → Option String)
    (cl : Cluster) (apprepo : AppRepository) (foreign : CronJob)
    (hrepo : cl.apprepos apprepo.key = some apprepo)
    (hforeign : cl.cronjobs (cronJobName apprepo.ns apprepo.name) = some foreign)
    (_hcontrolled : isControlledBy foreign apprepo = false)
    (hbelongs : objectBelongsTo foreign apprepo = false) :
    ((syncHandler config faults (metaNamespaceKey apprepo.key) cl).2 ≠ none ∧
      (syncHandler config faults (metaNamespaceKey apprepo.key) cl).1.cronjobs
        (cronJobName apprepo.ns apprepo.name) = some foreign) ↔
      (cl.listed (cronJobName apprepo.ns apprepo.name) = none ∨ faults .updateCronJob ≠ none) := by
  cases hlisted : cl.listed (cronJobName apprepo.ns apprepo.name) with
  | none =>
      obtain ⟨err, herr⟩ := syncHandler_of_not_listed config hrepo hforeign hlisted
      rw [herr]
      simp [hforeign]
  | some old =>
      cases hfault : faults .updateCronJob with
      | some err =>
          rw [syncHandler_of_update_refused config hrepo hlisted hfault]
          simp [hforeign]
      | none =>
          have hnew := syncHandler_of_updated config hrepo hforeign hlisted hfault
          have hne : newCronJob apprepo config ≠ foreign := by
            intro heq
            rw [← heq, objectBelongsTo_newCronJob] at hbelongs
            simp at hbelongs
          simp [hnew, hne]

/-- A CronJob with the name of the repository `bitnami` of the Kubeapps namespace that somebody else
    has created. -/
def foreignCronJob : CronJob where
  name := cronJobName "kubeapps" "bitnami"
  ownerReferences := []
  labels := ∅
  schedule := "0 0 * * *"
  concurrencyPolicy := "Allow"
  jobTemplate := ⟨none, .zero⟩

/-- It and the AppRepository are there; the lister may know it or not. -/
def foreignCluster (listed : Bool) : Cluster where
  apprepos k :=
    if k = ⟨"kubeapps", "bitnami"⟩ then some (bitnamiRepo "kubeapps" validNamespace_kubeapps .zero) else none
  listed name := if listed = true ∧ name = foreignCronJob.name then some foreignCronJob else none
  cronjobs name := if name = foreignCronJob.name then some foreignCronJob else none
  jobs := []

theorem foreign_cronJob_kept_unlisted :
    (syncHandler defaultConfig (fun _ => none) "kubeapps/bitnami" (foreignCluster false)).2 ≠ none ∧
      (syncHandler defaultConfig (fun _ => none) "kubeapps/bitnami"
        (foreignCluster false)).1.cronjobs foreignCronJob.name = some foreignCronJob :=
  (foreign_cronJob_kept_iff defaultConfig (fun _ => none) (foreignCluster false)
    (bitnamiRepo "kubeapps" validNamespace_kubeapps .zero) foreignCronJob (by decide)
    (by decide) (by decide) (by decide)).mpr (.inl (by decide))

/-- The lister knows the CronJob. It is overwritten, and nothing is reported. -/
theorem foreign_cronJob_overwritten :
    isControlledBy foreignCronJob (bitnamiRepo "kubeapps" validNamespace_kubeapps .zero) = false ∧
    objectBelongsTo foreignCronJob (bitnamiRepo "kubeapps" validNamespace_kubeapps .zero) = false ∧
    (syncHandler defaultConfig (fun _ => none) "kubeapps/bitnami" (foreignCluster true)).2 = none ∧
    (syncHandler defaultConfig (fun _ => none) "kubeapps/bitnami"
      (foreignCluster true)).1.cronjobs foreignCronJob.name ≠ some foreignCronJob := by
  decide

end Kubeapps.Controller
