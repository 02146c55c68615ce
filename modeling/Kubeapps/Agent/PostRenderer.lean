/-
  `DockerSecretsPostRenderer` (pkg/agent/docker_secrets_postrenderer.go): the post-renderer that
  adds image pull secrets to the manifests Helm has rendered.

  The code works on untyped trees and changes them in place. Here `processResourceList` returns the
  changed trees. `resourceOf` is its case analysis of one item: a list of resources, a resource with
  a pod spec at the path of its kind, or something it logs and skips. An unchecked type assertion
  that fails is a panic; the log is left out.

  `gopkg.in/yaml.v2` and the docker reference package are the fields of `Imports`. A document is
  decoded to a tree without sharing: an alias is decoded again at each place that uses it.
-/
import Mathlib.Algebra.Group.Int.Defs
import Kubeapps.Lib.Yaml

namespace Kubeapps.Agent

open Kubeapps.Lib Kubeapps.Lib.Yaml

/-! ## Pull secrets of a pod spec -/

/-- `secrets` maps a registry domain to a single secret to be used for that domain. -/
structure DockerSecretsPostRenderer where
  secrets : List (String × String)

/-- The packages the renderer calls. `decode` reads documents until the end of the input, `domain` is
    `reference.Domain` of the reference that `ParseNormalizedNamed` returns, if it returns one. -/
structure Imports where
  decode : String → Except String (List Yaml)
  encode : List Yaml → Except String String
  domain : String → Option String

/-- The dynamic type of a decoded value, as the runtime prints it. -/
def typeName : Yaml → String
  | .scalar .null => "nil"
  | .scalar (.bool _) => "bool"
  | .scalar (.int n) => if n < 2 ^ 63 then "int" else "uint64"
  | .scalar (.float _) => "float64"
  | .scalar (.str _) => "string"
  | .seq _ => "[]interface \x7b\x7d"
  | .map _ => "map[interface \x7b\x7d]interface \x7b\x7d"

/-- An assertion `v.(target)` without the second result, where `v` has another type. -/
def conversion {α : Type} (v : Yaml) (target : String) : Go α :=
  panics ("interface conversion: interface \x7b\x7d is " ++ typeName v ++ ", not " ++ target)

/-- The name of an entry of `imagePullSecrets`, if it is a string. -/
def pullSecretName (pullSecret : Entries) : Option String :=
  match get "name" pullSecret with
  | some (.scalar (.str n)) => some n
  | _ => none

/-- The names of the entries of `imagePullSecrets`. Each entry is asserted to be a map. -/
def pullSecretNames : List Yaml → Go (List String)
  | [] => return []
  | .map pullSecret :: rest => do
      let names ← pullSecretNames rest
      match pullSecretName pullSecret with
      | some n => return n :: names
      | none => return names
  | s :: _ => conversion s "map[interface \x7b\x7d]interface \x7b\x7d"

/-- The pull secrets that a pod spec has. The value of the key is asserted to be a slice. -/
def existingPullSecrets (podSpec : Entries) : Go (List String) :=
  match get "imagePullSecrets" podSpec with
  | none => return []
  | some (.seq secrets) => pullSecretNames secrets
  | some v => conversion v "[]interface \x7b\x7d"

/-- The secret for the registry domain of a container's image. -/
def containerSecret (imports : Imports) (r : DockerSecretsPostRenderer) : Yaml → Option String
  | .map container =>
      match get "image" container with
      | some (.scalar (.str image)) => (imports.domain image).bind fun d => lookup d r.secrets
      | _ => none
  | _ => none

/-- One turn of the loop over the containers. -/
def addSecret (imports : Imports) (r : DockerSecretsPostRenderer) (names : List String)
    (container : Yaml) : List String :=
  match containerSecret imports r container with
  | some secretName => if secretName ∈ names then names else names ++ [secretName]
  | none => names

def pullSecretList (names : List String) : Yaml :=
  .seq (names.map fun n => .map [(.str "name", .scalar (.str n))])

def updatePodSpecWithPullSecrets (imports : Imports) (r : DockerSecretsPostRenderer)
    (podSpec : Entries) : Go Entries :=
  match get "containers" podSpec with
  | some (.seq containers) => do
      let existing ← existingPullSecrets podSpec
      let names := containers.foldl (addSecret imports r) existing
      return if 0 < names.length then set "imagePullSecrets" (pullSecretList names) podSpec
        else podSpec
  | _ => return podSpec

/-! ## Resources -/

/-- Where `getResourcePodSpec` looks for the pod spec of a kind. -/
def podSpecKeys : String → Option (List String)
  | "Pod" => some ["spec"]
  | "DaemonSet" | "Deployment" | "Job" | "ReplicaSet" | "ReplicationController" | "StatefulSet" =>
      some ["spec", "template", "spec"]
  | "PodTemplate" => some ["template", "spec"]
  | "CronJob" => some ["spec", "jobTemplate", "spec", "template", "spec"]
  | _ => none

def getResourcePodSpec (kind : String) (resource : Entries) : Option Entries :=
  (podSpecKeys kind).bind fun keys => getMap keys resource

/-- What an item of a list is to `processResourceList`. -/
inductive Resource where
  | list (resource : Entries) (items : List Yaml)
  | pod (resource : Entries) (keys : List String)
  | skipped

/-- A resource with an `items` key is never looked at for a pod spec. -/
def resourceOf : Yaml → Resource
  | .map resource =>
      match get "kind" resource with
      | some (.scalar (.str kind)) =>
          match get "items" resource with
          | some (.seq items) => .list resource items
          | some _ => .skipped
          | none =>
              match podSpecKeys kind, getResourcePodSpec kind resource with
              | some keys, some _ => .pod resource keys
              | _, _ => .skipped
      | _ => .skipped
  | _ => .skipped

theorem resourceOf_list {item : Yaml} {m : Entries} {items : List Yaml}
    (h : resourceOf item = .list m items) :
    item = .map m ∧ get "items" m = some (.seq items) := by
  unfold resourceOf at h
  grind

theorem sizeOf_items {item : Yaml} {m : Entries} {items : List Yaml}
    (h : resourceOf item = .list m items) : sizeOf items < sizeOf item := by
  obtain ⟨hitem, hitems⟩ := resourceOf_list h
  have := sizeOf_get hitems
  rw [hitem]
  simp only [Yaml.map.sizeOf_spec, Yaml.seq.sizeOf_spec] at this ⊢
  omega

/-- `processResourceList`, with what it does to a pod spec. -/
def processItems (update : Entries → Go Entries) : List Yaml → Go (List Yaml)
  | [] => return []
  | item :: rest =>
      match _h : resourceOf item with
      | .list resource items => do
          let items' ← processItems update items
          return .map (set "items" (.seq items') resource) :: (← processItems update rest)
      | .pod resource keys => do
          let resource' ← updateMapM update keys resource
          return .map resource' :: (← processItems update rest)
      | .skipped => return item :: (← processItems update rest)
termination_by docs => sizeOf docs
decreasing_by
  all_goals simp only [List.cons.sizeOf_spec]
  · have := sizeOf_items _h
    omega
  all_goals omega

def processResourceList (imports : Imports) (r : DockerSecretsPostRenderer) :
    List Yaml → Go (List Yaml) :=
  processItems (updatePodSpecWithPullSecrets imports r)

def run (imports : Imports) (r : DockerSecretsPostRenderer) (renderedManifests : String) :
    Go String :=
  if r.secrets.length = 0 then return renderedManifests
  else do
    let resourceList ← liftErr (imports.decode renderedManifests)
    let resourceList ← processResourceList imports r resourceList
    liftErr (imports.encode resourceList)

end Kubeapps.Agent
