/-
  What the flux plugin reads of a HelmRepository, and the value it caches for one
  (cmd/kubeapps-apis/plugins/fluxv2/packages/v1alpha1: conditions.go, utils.go, cache.go).

  A HelmRepository is an untyped tree (`Value`). The accessors of apimachinery's `unstructured`
  package, the HTTP client, Helm's index library and the protobuf encoder are parameters
  (`Env`); the theorems hold for all of them. `Accessors.nested` are accessors that behave as
  the documentation of the package says.
-/
import Kubeapps.Helm.Index

namespace Kubeapps.Flux

open Kubeapps.Lib Kubeapps.Models Kubeapps.Helm

/-- `unstructured.NestedString`, `NestedInt64` and `NestedSlice`: an error when the path or
    the value has another type, `none` when the field is not found. -/
structure Accessors where
  nestedString : Value → List String → Except String (Option String)
  nestedInt64 : Value → List String → Except String (Option Int)
  nestedSlice : Value → List String → Except String (Option (List Value))

/-- `corev1.AvailablePackageSummary`, as `indexOneRepo` fills it. -/
structure AvailablePackageSummary where
  displayName : String
  latestPkgVersion : String
  iconUrl : String
  contextNamespace : String
  identifier : String
  deriving DecidableEq, Repr

/-- Everything `onAddOrModifyRepo` calls that is not part of the plugin. `β` is `[]byte`. -/
structure Env (β : Type) where
  acc : Accessors
  rt : Runtime
  lib : IndexLib β
  get : String → Except String β
  marshal : List AvailablePackageSummary → Except String β
  sprint : Value → String

variable {β : Type}

/-! ## `isRepoReady` -/

/-- The text of the error for a `Ready` condition with status "False". -/
def conditionMessage (sprint : Value → String) (entries : List (String × Value)) : String :=
  match lookup "message" entries with
  | some (.string msg) => msg
  | _ => "No message available in condition: " ++ sprint (.map entries)

/-- The loop over `status.conditions`: the first `Ready` condition whose status is "True" or
    "False" decides. -/
def readyCondition (sprint : Value → String) : List Value → Except String Bool
  | [] => .ok false
  | .map entries :: rest =>
      match lookup "type" entries, lookup "status" entries with
      | some (.string "Ready"), some (.string "True") => .ok true
      | some (.string "Ready"), some (.string "False") =>
          .error (conditionMessage sprint entries)
      | _, _ => readyCondition sprint rest
  | _ :: rest => readyCondition sprint rest

def isRepoReady (env : Env β) (obj : Value) : Except String Bool := do
  match ← env.acc.nestedInt64 obj ["status", "observedGeneration"] with
  | none => return false
  | some observedGeneration =>
      match ← env.acc.nestedInt64 obj ["metadata", "generation"] with
      | none => return false
      | some generation =>
          if generation ≠ observedGeneration then return false
          else
            match ← env.acc.nestedSlice obj ["status", "conditions"] with
            | none => return false
            | some conditions => readyCondition env.sprint conditions

/-! ## `indexOneRepo` and `onAddOrModifyRepo` -/

/-- `err` printed by `%v`. -/
def printErr : Option String → String
  | none => "<nil>"
  | some e => e

/-- A required string field: `msg` is the text before the error, the object follows it. -/
def requiredString (env : Env β) (obj : Value) (path : List String) (msg : String) :
    Except String String :=
  match env.acc.nestedString obj path with
  | .ok (some s) => .ok s
  | .ok none => .error (msg ++ printErr none ++ ":\n" ++ env.sprint obj)
  | .error e => .error (msg ++ printErr (some e) ++ ":\n" ++ env.sprint obj)

/-- `newPackageRepository`, as the `models.Repo` that `indexOneRepo` makes of it. -/
def newPackageRepository (env : Env β) (obj : Value) : Except String Repo := do
  let name ← requiredString env obj ["metadata", "name"]
    "required field metadata.name not found on HelmRepository: "
  let ns ← requiredString env obj ["metadata", "namespace"]
    "field metadata.namespace not found on HelmRepository: "
  let url ← requiredString env obj ["spec", "url"]
    "required field spec.url not found on HelmRepository: "
  return ⟨ns, name, url, "helm"⟩

def summary (repo : Repo) (c : Chart) : Go AvailablePackageSummary := do
  let v ← index0 c.chartVersions
  return ⟨c.name, v.version, c.icon, repo.ns, c.id⟩

def indexOneRepo (env : Env β) (obj : Value) : Go (List AvailablePackageSummary) := do
  let repo ← liftErr (newPackageRepository env obj)
  let notReady (err : Option String) : String :=
    "cannot index repository [" ++ repo.name ++ "] because it is not in 'Ready' state:" ++
      printErr err ++ "\n" ++ env.sprint obj
  match isRepoReady env obj with
  | .error e => errors (notReady (some e))
  | .ok false => errors (notReady none)
  | .ok true =>
      let indexUrl ← liftErr (requiredString env obj ["status", "url"]
        ("expected field status.url not found on HelmRepository [" ++ repo.name ++ "]: "))
      let bytes ← liftErr (env.get indexUrl)
      let charts ← chartsFromIndex env.rt env.lib bytes repo true
      charts.mapM (summary repo)

/-- `onAddOrModifyRepo`: the bytes to store, `none` for "do not store". -/
def onAddOrModifyRepo (env : Env β) (_key : String) (obj : Value) : Go (Option β) := do
  let ready ← liftErr (isRepoReady env obj)
  if ready then
    let packages ← indexOneRepo env obj
    let bytes ← liftErr (env.marshal packages)
    return some bytes
  else return none

/-- `onDeleteRepo`. -/
def onDeleteRepo (_key : String) (_obj : Value) : Except String Bool := .ok true

/-- `redisKeyFor`, for a cache of the resource `resource`. -/
def redisKeyFor (env : Env β) (resource : String) (obj : Value) : Except String String := do
  let name ← requiredString env obj ["metadata", "name"]
    "required field metadata.name not found on: "
  let ns ← requiredString env obj ["metadata", "namespace"]
    "required field metadata.namespace not found on: "
  return resource ++ ":" ++ ns ++ ":" ++ name

/-! ## Accessors after the documentation of `unstructured` -/

/-- Follow `path` through nested maps. -/
def nestedField : Value → List String → Except String (Option Value)
  | v, [] => .ok (some v)
  | .nil, _ :: _ => .ok none
  | .map entries, f :: fs =>
      match lookup f entries with
      | none => .ok none
      | some v => nestedField v fs
  | _, f :: _ => .error (f ++ " accessor error: expected map[string]interface")

def Accessors.nested : Accessors where
  nestedString v path :=
    match nestedField v path with
    | .ok (some (.string s)) => .ok (some s)
    | .ok (some _) => .error "accessor error: expected string"
    | .ok none => .ok none
    | .error e => .error e
  nestedInt64 v path :=
    match nestedField v path with
    | .ok (some (.int64 n)) => .ok (some n)
    | .ok (some _) => .error "accessor error: expected int64"
    | .ok none => .ok none
    | .error e => .error e
  nestedSlice v path :=
    match nestedField v path with
    | .ok (some (.slice xs)) => .ok (some xs)
    | .ok (some _) => .error "accessor error: expected slice"
    | .ok none => .ok none
    | .error e => .error e

end Kubeapps.Flux
