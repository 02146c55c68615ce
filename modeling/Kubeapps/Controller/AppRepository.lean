/-
  The AppRepository resource (cmd/apprepository-controller/pkg/apis/apprepository/v1alpha1/
  types.go), the parts of a pod template that the controller reads or writes, and the names that
  the two components derive from a repository.

  A map is a `Finmap`. Of a pod template, a container and a volume only what the controller looks
  at is here; the other fields are copied with the template, and nothing depends on them. `Status`
  is read by nobody. An AppRepository carries that the API server has checked
  its namespace and its name.
-/
import Mathlib.Data.Finmap
import Kubeapps.Lib.Go
import Kubeapps.Lib.Joined
import Kubeapps.Lib.Text
import Kubeapps.Syncer.Database
import Kubeapps.Syncer.HelmRepo

namespace Kubeapps.Controller

open Kubeapps.Lib

/-- `map[string]string`. -/
abbrev StringMap := Finmap fun _ : String => String

/-- `m[key]`, the empty string for a missing key. -/
def StringMap.get (m : StringMap) (key : String) : String := (m.lookup key).getD ""

/-! ## Pod templates -/

/-- `corev1.SecretKeySelector`. -/
structure SecretKeySelector where
  name : String
  key : String
  deriving DecidableEq, Repr

/-- `corev1.EnvVar`: a value, or a key of a secret. -/
structure EnvVar where
  name : String
  value : String
  secretKeyRef : Option SecretKeySelector
  deriving DecidableEq, Repr

/-- A `corev1.Volume`. `secret` is its secret's name with the keys it takes and their paths; a
    volume of another kind has none. -/
structure Volume where
  name : String
  secret : Option (String × List (String × String))
  deriving DecidableEq, Repr

structure VolumeMount where
  name : String
  readOnly : Bool
  mountPath : String
  deriving DecidableEq, Repr

structure Container where
  name : String
  image : String
  imagePullPolicy : String
  command : List String
  args : List String
  env : List EnvVar
  volumeMounts : List VolumeMount
  deriving DecidableEq, Repr

/-- `corev1.Container{}`. -/
def Container.zero : Container := ⟨"", "", "", [], [], [], []⟩

/-- `imagePullSecrets` are the names of `corev1.LocalObjectReference`s. -/
structure PodSpec where
  restartPolicy : String
  containers : List Container
  imagePullSecrets : List String
  volumes : List Volume
  deriving DecidableEq, Repr

structure PodTemplateSpec where
  labels : StringMap
  spec : PodSpec
  deriving DecidableEq

/-- `corev1.PodTemplateSpec{}`. -/
def PodTemplateSpec.zero : PodTemplateSpec := ⟨∅, ⟨"", [], [], []⟩⟩

/-! ## AppRepositories -/

/-- `AppRepositoryAuth`: the secret keys of its two pointers. -/
structure AppRepositoryAuth where
  header : Option SecretKeySelector
  customCA : Option SecretKeySelector
  deriving DecidableEq, Repr

structure AppRepositorySpec where
  type : String
  url : String
  auth : AppRepositoryAuth
  resyncRequests : Nat
  syncJobPodTemplate : PodTemplateSpec
  dockerRegistrySecrets : List String
  ociRepositories : List String
  tlsInsecureSkipVerify : Bool
  filterRule : Syncer.FilterRuleSpec
  description : String
  passCredentials : Bool
  deriving DecidableEq

structure AppRepository where
  ns : String
  name : String
  uid : String
  deletionTimestamp : Option String
  spec : AppRepositorySpec
  ns_valid : ValidNamespace ns
  name_valid : ValidName name
  deriving DecidableEq

def AppRepository.key (apprepo : AppRepository) : Syncer.RepoKey := ⟨apprepo.ns, apprepo.name⟩

/-! ## Names -/

/-- `cronJobName`. -/
def cronJobName (ns name : String) : String := "apprepo-" ++ ns ++ "-sync-" ++ name

/-- `deleteJobName`. -/
def deleteJobName (ns name : String) : String := "apprepo-" ++ ns ++ "-cleanup-" ++ name

/-- `secretNameForRepo`. -/
def secretNameForRepo (repoName : String) : String := "apprepo-" ++ repoName

/-- `KubeappsSecretNameForRepo`. -/
def kubeappsSecretNameForRepo (repoName ns : String) : String :=
  ns ++ "-" ++ secretNameForRepo repoName

/-- One of two repositories is the other one, cut at a later `-word-`. -/
def CutsAt (word : String) (k k' : Syncer.RepoKey) : Prop :=
  Shifted '-' word.toList k.ns.toList k.name.toList k'.ns.toList k'.name.toList ∨
    Shifted '-' word.toList k'.ns.toList k'.name.toList k.ns.toList k.name.toList

instance (word : String) (k k' : Syncer.RepoKey) : Decidable (CutsAt word k k') :=
  inferInstanceAs (Decidable (_ ∨ _))

theorem toList_joined_eq_iff {word : String} (hword : '-' ∉ word.toList) (k k' : Syncer.RepoKey) :
    joined '-' word.toList k.ns.toList k.name.toList =
        joined '-' word.toList k'.ns.toList k'.name.toList ↔ k = k' ∨ CutsAt word k k' := by
  rw [joined_eq_iff hword]
  refine or_congr_left ?_
  rw [String.toList_inj, String.toList_inj]
  cases k
  cases k'
  simp

theorem toList_cronJobName (ns name : String) : (cronJobName ns name).toList =
    "apprepo-".toList ++ joined '-' "sync".toList ns.toList name.toList := by
  simp [cronJobName, joined]

/-- When two repositories have one CronJob. -/
theorem cronJobName_eq_iff (k k' : Syncer.RepoKey) :
    cronJobName k.ns k.name = cronJobName k'.ns k'.name ↔ k = k' ∨ CutsAt "sync" k k' := by
  rw [← toList_joined_eq_iff (by decide), ← String.toList_inj, toList_cronJobName,
    toList_cronJobName]
  exact List.append_right_inj _

theorem toList_kubeappsSecretNameForRepo (ns name : String) :
    (kubeappsSecretNameForRepo name ns).toList =
      joined '-' "apprepo".toList ns.toList name.toList := by
  simp [kubeappsSecretNameForRepo, secretNameForRepo, joined]

theorem validName_bitnamiRepo : ValidName "bitnami" := by decide

theorem validNamespace_kubeapps : ValidNamespace "kubeapps" := by decide

end Kubeapps.Controller
