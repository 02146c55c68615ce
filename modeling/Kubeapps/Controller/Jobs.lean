/-
  The jobs that the controller builds for an AppRepository (cmd/apprepository-controller/
  controller.go: newCronJob, newSyncJob, newCleanupJob, syncJobSpec and what they call).

  `syncJobSpec` starts from a shallow copy of the repository's pod template. What it assigns to a
  field of the copy stays in the copy; what it writes through the labels map or the containers
  slice, which the copy shares with the cached AppRepository if they are not empty, is written
  into the AppRepository. `syncJobSpec` is the value that a call returns, `afterSyncJobSpec` the
  AppRepository that it leaves behind.

  `jobs_repeatable_iff`: any number of calls build the same pod and leave the AppRepository alone
  exactly if its template has no container, and no labels or those of the job already. With a
  container every call adds another copy of the environment (`env_after_calls`).
-/
import Mathlib.Data.List.Sort
import Kubeapps.Controller.AppRepository

namespace Kubeapps.Controller

open Kubeapps.Lib

/-- `Config`: the flags of the controller that the jobs depend on. -/
structure Config where
  repoSyncImage : String
  imagePullSecretsRefs : List String
  repoSyncCommand : String
  kubeappsNamespace : String
  dbURL : String
  dbUser : String
  dbName : String
  dbSecretName : String
  dbSecretKey : String
  userAgentComment : String
  crontab : String
  ttlSecondsAfterFinished : String
  deriving DecidableEq, Repr

/-! ## Owner references and labels -/

structure OwnerReference where
  apiVersion : String
  kind : String
  name : String
  uid : String
  controller : Bool
  blockOwnerDeletion : Bool
  deriving DecidableEq, Repr

/-- `ownerReferencesForAppRepo`. -/
def ownerReferencesForAppRepo (apprepo : AppRepository) (childNamespace : String) :
    List OwnerReference :=
  if apprepo.ns = childNamespace then
    [⟨"kubeapps.com/v1alpha1", "AppRepository", apprepo.name, apprepo.uid, true, true⟩]
  else []

def labelRepoName : String := "apprepositories.kubeapps.com/repo-name"

def labelRepoNamespace : String := "apprepositories.kubeapps.com/repo-namespace"

/-- `jobLabels`. -/
def jobLabels (apprepo : AppRepository) : StringMap :=
  ((∅ : StringMap).insert labelRepoName apprepo.name).insert labelRepoNamespace apprepo.ns

/-! ## Arguments and environment -/

/-- `json.Marshal` of a character of a string, with its HTML escapes. -/
def jsonChar (c : Char) : List Char :=
  let hex (n : Nat) : List Char := (Nat.toDigits 16 n).leftpad 4 '0'
  if c = '"' ∨ c = '\\' then ['\\', c]
  else if c = '\n' then ['\\', 'n']
  else if c = '\r' then ['\\', 'r']
  else if c = '\t' then ['\\', 't']
  else if c.toNat < 0x20 ∨ c ∈ ['<', '>', '&'] ∨ c.toNat = 0x2028 ∨ c.toNat = 0x2029 then
    '\\' :: 'u' :: hex c.toNat
  else [c]

def jsonString (s : String) : String := "\"" ++ String.ofList (s.toList.flatMap jsonChar) ++ "\""

/-- `json.Marshal` of a filter rule. It does not fail: there are only strings. The keys of a map are
    sorted, an empty one is left out. -/
def marshalFilterRule (rule : Syncer.FilterRuleSpec) : String :=
  let sorted := rule.vars.insertionSort fun a b => a.1 ≤ b.1
  let entries := sorted.map fun (k, v) => jsonString k ++ ":" ++ jsonString v
  let vars :=
    if rule.vars = [] then "" else ",\"variables\":\x7b" ++ ",".intercalate entries ++ "\x7d"
  "\x7b\"jq\":" ++ jsonString rule.jq ++ vars ++ "\x7d"

example : marshalFilterRule ⟨".name == $var0", [("$var0", "a\"b")]⟩ =
    "\x7b\"jq\":\".name == $var0\",\"variables\":\x7b\"$var0\":\"a\\\"b\"\x7d\x7d" := by
  decide

/-- `dbFlags`. -/
def dbFlags (config : Config) : List String :=
  ["--database-url=" ++ config.dbURL, "--database-user=" ++ config.dbUser,
    "--database-name=" ++ config.dbName]

/-- `apprepoSyncJobArgs`. -/
def apprepoSyncJobArgs (apprepo : AppRepository) (config : Config) : List String :=
  "sync" :: dbFlags config ++
    (if config.userAgentComment ≠ "" then ["--user-agent-comment=" ++ config.userAgentComment]
      else []) ++
    ["--namespace=" ++ apprepo.ns, apprepo.name, apprepo.spec.url, apprepo.spec.type] ++
    (if apprepo.spec.ociRepositories ≠ [] then
      ["--oci-repositories", ",".intercalate apprepo.spec.ociRepositories] else []) ++
    (if apprepo.spec.tlsInsecureSkipVerify then ["--tls-insecure-skip-verify"] else []) ++
    (if apprepo.spec.passCredentials then ["--pass-credentials"] else []) ++
    (if apprepo.spec.filterRule.jq ≠ "" then
      ["--filter-rules", marshalFilterRule apprepo.spec.filterRule] else [])

/-- `apprepoCleanupJobArgs`. -/
def apprepoCleanupJobArgs (ns name : String) (config : Config) : List String :=
  "delete" :: name :: ("--namespace=" ++ ns) :: dbFlags config

/-- `secretKeyRefForRepo`. -/
def secretKeyRefForRepo (keyRef : SecretKeySelector) (apprepo : AppRepository) (config : Config) :
    SecretKeySelector :=
  if apprepo.ns = config.kubeappsNamespace then keyRef
  else { keyRef with name := kubeappsSecretNameForRepo apprepo.name apprepo.ns }

/-- The variable with the password of the database. -/
def dbPassword (config : Config) : EnvVar :=
  ⟨"DB_PASSWORD", "", some ⟨config.dbSecretName, config.dbSecretKey⟩⟩

/-- The variable with the credentials of the repository. -/
def authEnvVars (apprepo : AppRepository) (config : Config) : List EnvVar :=
  match apprepo.spec.auth.header with
  | none => []
  | some ref =>
      if ref.key = ".dockerconfigjson" then
        [⟨"DOCKER_CONFIG_JSON", "", some (secretKeyRefForRepo ref apprepo config)⟩]
      else [⟨"AUTHORIZATION_HEADER", "", some (secretKeyRefForRepo ref apprepo config)⟩]

/-- `apprepoSyncJobEnvVars`. -/
def apprepoSyncJobEnvVars (apprepo : AppRepository) (config : Config) : List EnvVar :=
  dbPassword config :: authEnvVars apprepo config

/-- The volume with the CA of the repository. -/
def customCAVolumes (apprepo : AppRepository) (config : Config) : List Volume :=
  match apprepo.spec.auth.customCA with
  | none => []
  | some ref =>
      [⟨ref.name, some ((secretKeyRefForRepo ref apprepo config).name, [(ref.key, "ca.crt")])⟩]

def customCAVolumeMounts (apprepo : AppRepository) : List VolumeMount :=
  match apprepo.spec.auth.customCA with
  | none => []
  | some ref => [⟨ref.name, true, "/usr/local/share/ca-certificates"⟩]

/-! ## Jobs -/

structure JobSpec where
  ttlSecondsAfterFinished : Option Int
  template : PodTemplateSpec
  deriving DecidableEq

/-- A `batchv1.Job` to be created. `ns` is its namespace if it says one. -/
structure Job where
  generateName : String
  ns : String
  ownerReferences : List OwnerReference
  spec : JobSpec
  deriving DecidableEq

structure CronJob where
  name : String
  ownerReferences : List OwnerReference
  labels : StringMap
  schedule : String
  concurrencyPolicy : String
  jobTemplate : JobSpec
  deriving DecidableEq

/-- `strconv.ParseInt(s, 10, 32)`. -/
def parseInt32 (s : String) : Option Int :=
  let digits (cs : List Char) : Option Nat :=
    if cs ≠ [] ∧ cs.all Char.isDigit = true then
      some (cs.foldl (fun n c => 10 * n + (c.toNat - '0'.toNat)) 0)
    else none
  let bounded (n : Int) : Option Int := if -2 ^ 31 ≤ n ∧ n < 2 ^ 31 then some n else none
  match s.toList with
  | [] => none
  | c :: cs =>
      if c = '-' then (digits cs).bind fun n => bounded (-n)
      else if c = '+' then (digits cs).bind fun n => bounded n
      else (digits (c :: cs)).bind fun n => bounded n

/-- `ttlLifetimeJobs`. -/
def ttlLifetimeJobs (config : Config) : Option Int :=
  if config.ttlSecondsAfterFinished ≠ "" then parseInt32 config.ttlSecondsAfterFinished else none

/-- What `syncJobSpec` does to the first container. -/
def syncContainer (apprepo : AppRepository) (config : Config) (c : Container) : Container where
  name := "sync"
  image := config.repoSyncImage
  imagePullPolicy := "IfNotPresent"
  command := [config.repoSyncCommand]
  args := apprepoSyncJobArgs apprepo config
  env := c.env ++ apprepoSyncJobEnvVars apprepo config
  volumeMounts := c.volumeMounts ++ customCAVolumeMounts apprepo

/-- `syncJobSpec`: the value returned. -/
def syncJobSpec (apprepo : AppRepository) (config : Config) : JobSpec :=
  let podTemplateSpec := apprepo.spec.syncJobPodTemplate
  { ttlSecondsAfterFinished := ttlLifetimeJobs config
    template := {
      labels := jobLabels apprepo ∪ podTemplateSpec.labels
      spec := {
        restartPolicy := "OnFailure"
        containers :=
          match podTemplateSpec.spec.containers with
          | [] => [syncContainer apprepo config .zero]
          | c :: cs => syncContainer apprepo config c :: cs
        imagePullSecrets := podTemplateSpec.spec.imagePullSecrets ++ config.imagePullSecretsRefs
        volumes := podTemplateSpec.spec.volumes ++ customCAVolumes apprepo config } } }

/-- The pod template of the AppRepository after a call: a labels map and a containers slice that are
    not empty have been written to. -/
def templateAfter (apprepo : AppRepository) (config : Config) : PodTemplateSpec :=
  let old := apprepo.spec.syncJobPodTemplate
  { labels := if old.labels = ∅ then old.labels else jobLabels apprepo ∪ old.labels
    spec := { old.spec with
      containers :=
        match old.spec.containers with
        | [] => []
        | c :: cs => syncContainer apprepo config c :: cs } }

/-- `syncJobSpec`: the AppRepository left behind. -/
def afterSyncJobSpec (apprepo : AppRepository) (config : Config) : AppRepository :=
  { apprepo with
    spec := { apprepo.spec with syncJobPodTemplate := templateAfter apprepo config } }

/-- `newCronJob`. -/
def newCronJob (apprepo : AppRepository) (config : Config) : CronJob where
  name := cronJobName apprepo.ns apprepo.name
  ownerReferences := ownerReferencesForAppRepo apprepo config.kubeappsNamespace
  labels := jobLabels apprepo
  schedule := config.crontab
  concurrencyPolicy := "Replace"
  jobTemplate := syncJobSpec apprepo config

/-- `newSyncJob`. -/
def newSyncJob (apprepo : AppRepository) (config : Config) : Job where
  generateName := cronJobName apprepo.ns apprepo.name ++ "-"
  ns := ""
  ownerReferences := ownerReferencesForAppRepo apprepo config.kubeappsNamespace
  spec := syncJobSpec apprepo config

/-- `cleanupJobSpec`. -/
def cleanupJobSpec (ns name : String) (config : Config) : JobSpec where
  ttlSecondsAfterFinished := ttlLifetimeJobs config
  template := {
    labels := ∅
    spec := {
      restartPolicy := "Never"
      imagePullSecrets := config.imagePullSecretsRefs
      containers := [{
        name := "delete"
        image := config.repoSyncImage
        imagePullPolicy := "IfNotPresent"
        command := [config.repoSyncCommand]
        args := apprepoCleanupJobArgs ns name config
        env := [dbPassword config]
        volumeMounts := [] }]
      volumes := [] } }

/-- `newCleanupJob`. -/
def newCleanupJob (kubeappsNamespace repoNamespace name : String) (config : Config) : Job where
  generateName := deleteJobName repoNamespace name ++ "-"
  ns := kubeappsNamespace
  ownerReferences := []
  spec := cleanupJobSpec repoNamespace name config

/-! ## Repeated calls -/

/-- The two callers of `syncJobSpec`. -/
inductive JobCall where
  | newCronJob
  | newSyncJob
  deriving DecidableEq, Repr

def JobCall.podSpec (apprepo : AppRepository) (config : Config) : JobCall → PodTemplateSpec
  | .newCronJob => (Controller.newCronJob apprepo config).jobTemplate.template
  | .newSyncJob => (Controller.newSyncJob apprepo config).spec.template

/-- Calls one after the other on the cached AppRepository: the pods they return, and the
    AppRepository at the end. -/
def callJobs (config : Config) : AppRepository → List JobCall → List PodTemplateSpec × AppRepository
  | apprepo, [] => ([], apprepo)
  | apprepo, call :: calls =>
      let (pods, last) := callJobs config (afterSyncJobSpec apprepo config) calls
      (call.podSpec apprepo config :: pods, last)

/-- The pods are equal, the AppRepository is as it was, and the first container of each pod has
    each variable and each mount of the job once. -/
structure Repeatable (config : Config) (apprepo : AppRepository) (calls : List JobCall) : Prop where
  equal : ∀ p ∈ (callJobs config apprepo calls).1, ∀ q ∈ (callJobs config apprepo calls).1, p = q
  unchanged : (callJobs config apprepo calls).2.spec = apprepo.spec
  env_once : ∀ p ∈ (callJobs config apprepo calls).1, ∀ c ∈ p.spec.containers.head?,
    ∀ v ∈ apprepoSyncJobEnvVars apprepo config, c.env.count v = 1
  mounts_once : ∀ p ∈ (callJobs config apprepo calls).1, ∀ c ∈ p.spec.containers.head?,
    ∀ m ∈ customCAVolumeMounts apprepo, c.volumeMounts.count m = 1

/-- The template has the labels of the job. -/
def HasJobLabels (apprepo : AppRepository) : Prop :=
  apprepo.spec.syncJobPodTemplate.labels.lookup labelRepoName = some apprepo.name ∧
    apprepo.spec.syncJobPodTemplate.labels.lookup labelRepoNamespace = some apprepo.ns

/-- Nothing in the template that a call would write to. -/
def Unshared (apprepo : AppRepository) : Prop :=
  apprepo.spec.syncJobPodTemplate.spec.containers = [] ∧
    (apprepo.spec.syncJobPodTemplate.labels = ∅ ∨ HasJobLabels apprepo)

section Repeated

variable {apprepo : AppRepository} {config : Config}

theorem podSpec_eq (call : JobCall) :
    call.podSpec apprepo config = (syncJobSpec apprepo config).template := by
  cases call <;> rfl

theorem jobLabels_lookup (apprepo : AppRepository) (key : String) :
    (jobLabels apprepo).lookup key =
      if key = labelRepoNamespace then some apprepo.ns
      else if key = labelRepoName then some apprepo.name else none := by
  unfold jobLabels
  by_cases hns : key = labelRepoNamespace
  · rw [if_pos hns, hns, Finmap.lookup_insert]
  · rw [if_neg hns, Finmap.lookup_insert_of_ne _ hns]
    by_cases hname : key = labelRepoName
    · rw [if_pos hname, hname, Finmap.lookup_insert]
    · rw [if_neg hname, Finmap.lookup_insert_of_ne _ hname, Finmap.lookup_empty]

theorem lookup_union_jobLabels (apprepo : AppRepository) (labels : StringMap) (key : String) :
    (jobLabels apprepo ∪ labels).lookup key =
      if key = labelRepoNamespace then some apprepo.ns
      else if key = labelRepoName then some apprepo.name else labels.lookup key := by
  have hjob := jobLabels_lookup apprepo key
  by_cases hns : key = labelRepoNamespace
  · rw [if_pos hns] at hjob ⊢
    rw [Finmap.lookup_union_left (Finmap.mem_iff.mpr ⟨_, hjob⟩), hjob]
  · rw [if_neg hns] at hjob ⊢
    by_cases hname : key = labelRepoName
    · rw [if_pos hname] at hjob ⊢
      rw [Finmap.lookup_union_left (Finmap.mem_iff.mpr ⟨_, hjob⟩), hjob]
    · rw [if_neg hname] at hjob ⊢
      rw [Finmap.lookup_union_right (Finmap.lookup_eq_none.mp hjob)]

/-- Writing the labels of the job changes nothing exactly if they are there. -/
theorem union_jobLabels_eq_iff (apprepo : AppRepository) (labels : StringMap) :
    jobLabels apprepo ∪ labels = labels ↔
      labels.lookup labelRepoName = some apprepo.name ∧
        labels.lookup labelRepoNamespace = some apprepo.ns := by
  have hne : labelRepoName ≠ labelRepoNamespace := by decide
  constructor
  · intro h
    have hname := lookup_union_jobLabels apprepo labels labelRepoName
    have hns := lookup_union_jobLabels apprepo labels labelRepoNamespace
    rw [h, if_neg hne, if_pos rfl] at hname
    rw [h, if_pos rfl] at hns
    exact ⟨hname, hns⟩
  · intro ⟨hname, hns⟩
    apply Finmap.ext_lookup
    intro key
    rw [lookup_union_jobLabels]
    split
    · rename_i hkey
      rw [hkey, hns]
    · split
      · rename_i hkey
        rw [hkey, hname]
      · rfl

theorem syncContainer_ne_self (c : Container) : syncContainer apprepo config c ≠ c := by
  intro h
  have hlen := congrArg (fun c => c.env.length) h
  simp [syncContainer, apprepoSyncJobEnvVars] at hlen

/-- A call leaves the AppRepository as it was exactly if there is nothing shared to write to. -/
theorem templateAfter_eq_iff :
    templateAfter apprepo config = apprepo.spec.syncJobPodTemplate ↔ Unshared apprepo := by
  unfold templateAfter Unshared HasJobLabels
  constructor
  · intro h
    have hlabels := congrArg PodTemplateSpec.labels h
    have hcontainers := congrArg (fun t => t.spec.containers) h
    dsimp only at hlabels hcontainers
    constructor
    · split at hcontainers
      · rename_i hnil
        exact hnil
      · rename_i c cs hcons
        rw [hcons] at hcontainers
        exact absurd (List.cons.inj hcontainers).1 (syncContainer_ne_self c)
    · split at hlabels
      · rename_i hempty
        exact .inl hempty
      · exact .inr ((union_jobLabels_eq_iff apprepo _).mp hlabels)
  · intro ⟨hcontainers, hlabels⟩
    have hlabels' : (if apprepo.spec.syncJobPodTemplate.labels = ∅ then
        apprepo.spec.syncJobPodTemplate.labels
        else jobLabels apprepo ∪ apprepo.spec.syncJobPodTemplate.labels) =
          apprepo.spec.syncJobPodTemplate.labels := by
      split
      · rfl
      · rename_i hne
        rcases hlabels with hempty | hhas
        · exact absurd hempty hne
        · exact (union_jobLabels_eq_iff apprepo _).mpr hhas
    dsimp only
    rw [hlabels', hcontainers]
    dsimp only
    rw [← hcontainers]

theorem callJobs_of_unshared (h : Unshared apprepo) (calls : List JobCall) :
    callJobs config apprepo calls =
      (calls.map fun _ => (syncJobSpec apprepo config).template, apprepo) := by
  have hself : afterSyncJobSpec apprepo config = apprepo := by
    unfold afterSyncJobSpec
    rw [templateAfter_eq_iff.2 h]
  induction calls with
  | nil => rfl
  | cons call calls ih => rw [callJobs, hself, ih, List.map_cons, podSpec_eq]

theorem nodup_apprepoSyncJobEnvVars : (apprepoSyncJobEnvVars apprepo config).Nodup := by
  unfold apprepoSyncJobEnvVars authEnvVars dbPassword
  split
  · simp
  · split <;> simp

theorem repeatable_of_unshared (h : Unshared apprepo) (calls : List JobCall) :
    Repeatable config apprepo calls := by
  have hpod : ∀ p ∈ (callJobs config apprepo calls).1,
      p = (syncJobSpec apprepo config).template := by
    intro p hp
    rw [callJobs_of_unshared h] at hp
    obtain ⟨_, _, hp'⟩ := List.mem_map.mp hp
    exact hp'.symm
  have hfirst : ∀ p ∈ (callJobs config apprepo calls).1, ∀ c ∈ p.spec.containers.head?,
      c = syncContainer apprepo config .zero := by
    intro p hp c hc
    rw [hpod p hp] at hc
    simp only [syncJobSpec, h.1, List.head?_cons, Option.mem_def, Option.some.injEq] at hc
    exact hc.symm
  refine ⟨fun p hp q hq => (hpod p hp).trans (hpod q hq).symm, ?_, ?_, ?_⟩
  · rw [callJobs_of_unshared h]
  · intro p hp c hc v hv
    rw [hfirst p hp c hc]
    exact List.count_eq_one_of_mem nodup_apprepoSyncJobEnvVars hv
  · intro p hp c hc m hm
    rw [hfirst p hp c hc]
    unfold customCAVolumeMounts at hm
    simp only [syncContainer, Container.zero, List.nil_append, customCAVolumeMounts]
    split at hm
    · simp at hm
    · rename_i ref href
      rw [List.mem_singleton.mp hm]
      simp

/-- With a container in the template, its environment has one more copy of the job's after every
    call. -/
theorem env_after_calls (calls : List JobCall) {c : Container} {cs : List Container}
    (h : apprepo.spec.syncJobPodTemplate.spec.containers = c :: cs) :
    ∃ c', (callJobs config apprepo calls).2.spec.syncJobPodTemplate.spec.containers = c' :: cs ∧
      c'.env = c.env ++
        (List.replicate calls.length (apprepoSyncJobEnvVars apprepo config)).flatten := by
  induction calls generalizing apprepo c with
  | nil => exact ⟨c, h, by simp⟩
  | cons call calls ih =>
      have hafter : (afterSyncJobSpec apprepo config).spec.syncJobPodTemplate.spec.containers =
          syncContainer apprepo config c :: cs := by
        simp only [afterSyncJobSpec, templateAfter]
        rw [h]
      obtain ⟨c', hc', henv⟩ := ih hafter
      refine ⟨c', hc', ?_⟩
      -- the job's variables are read from fields that no call writes to
      have hvars : apprepoSyncJobEnvVars (afterSyncJobSpec apprepo config) config =
          apprepoSyncJobEnvVars apprepo config := rfl
      rw [henv, hvars]
      simp [syncContainer, List.replicate_succ]

end Repeated

/-- Any number of calls of `newCronJob` and `newSyncJob` return equal pods and leave the AppRepository
    alone exactly if its pod template has no container, and no labels or the job's. -/
theorem jobs_repeatable_iff (config : Config) (apprepo : AppRepository) :
    (∀ calls, Repeatable config apprepo calls) ↔ Unshared apprepo := by
  constructor
  · intro h
    have hone := (h [.newCronJob]).unchanged
    exact templateAfter_eq_iff.1 (congrArg AppRepositorySpec.syncJobPodTemplate hone)
  · intro h calls
    exact repeatable_of_unshared h calls

/-- The repository `bitnami` of a namespace, with this pod template. -/
def bitnamiRepo (ns : String) (hns : ValidNamespace ns) (template : PodTemplateSpec) :
    AppRepository where
  ns := ns
  name := "bitnami"
  uid := "3f1c"
  deletionTimestamp := none
  spec := {
    type := "helm"
    url := "https://charts.bitnami.com/bitnami"
    auth := ⟨none, none⟩
    resyncRequests := 0
    syncJobPodTemplate := template
    dockerRegistrySecrets := []
    ociRepositories := []
    tlsInsecureSkipVerify := false
    filterRule := ⟨"", []⟩
    description := ""
    passCredentials := false }
  ns_valid := hns
  name_valid := validName_bitnamiRepo

/-- A template with one container that sets nothing. -/
def oneContainer : PodTemplateSpec :=
  { PodTemplateSpec.zero with spec := { PodTemplateSpec.zero.spec with containers := [.zero] } }

def defaultConfig : Config where
  repoSyncImage := "bitnami/kubeapps-asset-syncer"
  imagePullSecretsRefs := []
  repoSyncCommand := "/chart-repo"
  kubeappsNamespace := "kubeapps"
  dbURL := "postgresql.kubeapps"
  dbUser := "admin"
  dbName := "assets"
  dbSecretName := "postgresql"
  dbSecretKey := "postgresql-password"
  userAgentComment := ""
  crontab := "*/10 * * * *"
  ttlSecondsAfterFinished := "3600"

/-- The job created after the CronJob has the password of the database twice. -/
theorem second_job_has_env_twice :
    let apprepo := bitnamiRepo "kubeapps" validNamespace_kubeapps oneContainer
    (callJobs defaultConfig apprepo [.newCronJob, .newSyncJob]).1.map (fun p =>
        p.spec.containers.map Container.env) =
      [[[dbPassword defaultConfig]], [[dbPassword defaultConfig, dbPassword defaultConfig]]] ∧
    ¬ Repeatable defaultConfig apprepo [.newCronJob, .newSyncJob] := by
  refine ⟨by decide, fun h => ?_⟩
  have hspec := h.unchanged
  exact absurd hspec (by decide)

end Kubeapps.Controller
