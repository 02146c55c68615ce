/-
  What a user may not do (pkg/auth/auth.go), with the reading of a manifest (pkg/yaml/yaml.go).

  The API server answers an access review or a discovery request by its content, so `UserAuth` is
  two functions. The reader of YAML documents and the decoder of objects are those of
  `k8s.io/apimachinery`, fields of `YamlUtils`. `range` over the map of `reduceActionsByVerb` goes
  through `Runtime`. The regular expression of `ParseForbiddenActions` is `roleAt`: each group is
  lazy, so it ends where the text after it first stands, and no group has a line break.

  `isAllowed_eq` says what the checks of one verb return: the refusal of each resource that is
  refused, in their order.
-/
import Kubeapps.Lib.Go
import Kubeapps.Lib.Merge

namespace Kubeapps.Auth

open Kubeapps.Lib

/-! ## Answers of the API server -/

/-- `k8sErrors.IsNotFound` of an error. -/
inductive ApiError where
  | notFound (msg : String)
  | other (msg : String)
  deriving DecidableEq, Repr

def ApiError.text : ApiError → String
  | .notFound msg => msg
  | .other msg => msg

/-- What is read of a `metav1.APIResource`. -/
structure APIResource where
  name : String
  kind : String
  namespaced : Bool
  deriving DecidableEq, Repr

/-- `k8sAuthInterface`, by `verb`, `group`, `resource` and `namespace`. -/
structure UserAuth where
  getResourceList : String → Except ApiError (List APIResource)
  canI : String → String → String → String → Except ApiError Bool

/-- `Action`: a set of verbs against a resource. -/
structure Action where
  apiVersion : String
  resource : String
  ns : String
  clusterWide : Bool
  verbs : List String
  deriving DecidableEq, Repr

structure ResourceInfo where
  name : String
  namespaced : Bool
  deriving DecidableEq, Repr

/-- `resource`. -/
@[ext] structure Resource where
  apiVersion : String
  kind : String
  ns : String
  deriving DecidableEq, Repr

/-- `resolve`. -/
def UserAuth.resolve (u : UserAuth) (groupVersion kind : String) : Except ApiError ResourceInfo :=
  match u.getResourceList groupVersion with
  | .error err => .error err
  | .ok resources =>
      match resources.find? fun r => r.kind = kind with
      | some r => .ok ⟨r.name, r.namespaced⟩
      | none =>
          .error (.other ("Unable to find the kind " ++ kind ++ " in the resource group " ++
            groupVersion))

/-! ## The objects of a manifest -/

/-- What is read of an `unstructured.Unstructured`. -/
structure Unstructured where
  ns : String
  apiVersion : String
  kind : String
  deriving DecidableEq, Repr

/-- A `runtime.Object` by its dynamic type. -/
inductive RuntimeObject where
  | unstructuredList (items : List Unstructured)
  | unstructured (o : Unstructured)
  | other

/-- `read` is what the YAML reader returns until the end of the input. -/
structure YamlUtils where
  read : String → List (Except String String)
  toJSON : String → Except String String
  decode : String → Except String RuntimeObject

/-- `flattenToV1`. -/
def flattenToV1 : List RuntimeObject → Go (List Unstructured)
  | [] => return []
  | .unstructuredList items :: rest => do return items ++ (← flattenToV1 rest)
  | .unstructured o :: rest => do return o :: (← flattenToV1 rest)
  | .other :: _ => panics "Unexpected unstructured object type"

/-- The loop of `ParseObjects` over the documents. -/
def decodeDocuments (y : YamlUtils) : List (Except String String) → Except String (List RuntimeObject)
  | [] => return []
  | doc :: rest => do
      let jsondata ← y.toJSON (← doc)
      if jsondata = "null" then decodeDocuments y rest
      else
        let obj ← y.decode jsondata
        return obj :: (← decodeDocuments y rest)

/-- `ParseObjects`. -/
def parseObjects (y : YamlUtils) (manifest : String) : Go (List Unstructured) := do
  flattenToV1 (← liftErr (decodeDocuments y (y.read manifest)))

/-- `fmt.Sprintf("%s/%s/%s", a, b, c)`. -/
def slashed (a b c : String) : String := a ++ "/" ++ b ++ "/" ++ c

/-- An object in its own namespace or, if it has none, in the default one. -/
def resourceOf (defaultNs : String) (obj : Unstructured) : Resource :=
  ⟨obj.apiVersion, obj.kind, if obj.ns = "" then defaultNs else obj.ns⟩

def Resource.toCheck (r : Resource) : String := slashed r.ns r.apiVersion r.kind

/-- The loop of `getResourcesToCheck`; `seen` are the keys of its map. -/
def collectResources (defaultNs : String) : List String → List Unstructured → List Resource
  | _, [] => []
  | seen, obj :: rest =>
      let r := resourceOf defaultNs obj
      if r.toCheck ∈ seen then collectResources defaultNs seen rest
      else r :: collectResources defaultNs (r.toCheck :: seen) rest

/-- `getResourcesToCheck`. -/
def getResourcesToCheck (y : YamlUtils) (defaultNs manifest : String) : Go (List Resource) := do
  return collectResources defaultNs [] (← parseObjects y manifest)

/-! ## Checks -/

/-- An answer of the API server whose errors are all returned. -/
def apiCall {α : Type} : Except ApiError α → Go α
  | .ok a => .ok a
  | .error err => errors err.text

/-- The action that reports one refused verb. -/
def rejectedAction (verb : String) (i : Resource) (rInfo : ResourceInfo) : Action where
  apiVersion := i.apiVersion
  resource := rInfo.name
  ns := if rInfo.namespaced then i.ns else ""
  clusterWide := !rInfo.namespaced
  verbs := [verb]

/-- `strings.Split(group, "/")[0]`. -/
def groupID (group : String) : String := String.ofList (group.toList.takeWhile (· ≠ '/'))

/-- The two reviews of `isAllowed`. The core API group is empty, and a refused group with a version
    is asked for again without it. -/
def UserAuth.reviews (u : UserAuth) (verb : String) (i : Resource) (rInfo : ResourceInfo) :
    Go Bool := do
  let group := if i.apiVersion = "v1" then "" else i.apiVersion
  let allowed ← apiCall (u.canI verb group rInfo.name i.ns)
  if !allowed && decide ('/' ∈ group.toList) then
    apiCall (u.canI verb (groupID group) rInfo.name i.ns)
  else return allowed

/-- `isAllowed`. A kind whose group version is not registered may be one of the chart's own CRDs
    and is left out. -/
def UserAuth.isAllowed (u : UserAuth) (verb : String) : List Resource → Go (List Action)
  | [] => return []
  | i :: rest =>
      match u.resolve i.apiVersion i.kind with
      | .error (.notFound _) => u.isAllowed verb rest
      | .error (.other msg) => errors msg
      | .ok rInfo => do
          let allowed ← u.reviews verb i rInfo
          let rejectedActions ← u.isAllowed verb rest
          return if allowed then rejectedActions else rejectedAction verb i rInfo :: rejectedActions

/-! ## Merged actions -/

/-- `uniqVerbs`. The map of the source has the verbs of the result. -/
def uniqVerbs (current new : List String) : List String :=
  new.foldl (fun res v => if v ∈ res then res else res ++ [v]) current

/-- The key of an action in the map. -/
def Action.req (a : Action) : String := slashed a.ns a.apiVersion a.resource

/-- The action that takes the place of `old`: no cluster-wide flag is set. -/
def Action.merge (old action : Action) : Action where
  apiVersion := action.apiVersion
  resource := action.resource
  ns := action.ns
  clusterWide := false
  verbs := uniqVerbs old.verbs action.verbs

/-- `reduceActionsByVerb`. -/
def reduceActionsByVerb (rt : Runtime) (actions : List Action) : List Action :=
  (rt.range (mergeByKey Action.req Action.merge actions)).map Prod.snd

/-- The verbs the loop of an upgrade asks for. -/
def UserAuth.isAllowedAll (u : UserAuth) (resources : List Resource) :
    List String → Go (List Action)
  | [] => return []
  | v :: rest => do
      let actions ← u.isAllowed v resources
      return actions ++ (← u.isAllowedAll resources rest)

/-- `GetForbiddenActions`. -/
def getForbiddenActions (rt : Runtime) (y : YamlUtils) (u : UserAuth)
    (ns action manifest : String) : Go (List Action) := do
  let resources ← getResourcesToCheck y ns manifest
  if action = "upgrade" then
    let forbiddenActions ← u.isAllowedAll resources ["create", "update", "delete"]
    return if forbiddenActions ≠ [] then reduceActionsByVerb rt forbiddenActions
      else forbiddenActions
  else u.isAllowed action resources

/-! ## Refusals in a message -/

/-- A group `(.*?)` with the text `lit` after it: what it matches, and what is left after `lit`. -/
def lazyUntil (lit : List Char) : List Char → Option (List Char × List Char)
  | [] => none
  | c :: cs =>
      if lit.isPrefixOf (c :: cs) then some ([], (c :: cs).drop lit.length)
      else if c = '\n' then none
      else (lazyUntil lit cs).map fun m => (c :: m.1, m.2)

/-- The text `lit`: what is left after it. -/
def literal (lit cs : List Char) : Option (List Char) :=
  if lit.isPrefixOf cs then some (cs.drop lit.length) else none

/-- A match of the regular expression here: its action, and what is left. The namespace is empty
    where its optional group does not match. -/
def roleAt (cs : List Char) : Option (Action × List Char) := do
  let cs ← literal "User \"".toList cs
  let (_, cs) ← lazyUntil "\" cannot ".toList cs
  let (verb, cs) ← lazyUntil " resource \"".toList cs
  let (resource, cs) ← lazyUntil "\" in API group \"".toList cs
  let (group, cs) ← lazyUntil ['"'] cs
  let inNamespace := (literal " in the namespace \"".toList cs).bind (lazyUntil ['"'])
  let (ns, cs) := inNamespace.getD ([], cs)
  return ({
    apiVersion := String.ofList group
    resource := String.ofList resource
    ns := String.ofList ns
    clusterWide := decide (ns = [])
    verbs := [String.ofList verb] }, cs)

/-- `FindAllStringSubmatch`, as actions. The first `skip` characters are those of the last match. -/
def findRoles : Nat → List Char → List Action
  | _, [] => []
  | skip + 1, _ :: cs => findRoles skip cs
  | 0, c :: cs =>
      match roleAt (c :: cs) with
      | some (role, rest) => role :: findRoles (cs.length - rest.length) cs
      | none => findRoles 0 cs

/-- The refusals a message tells of. -/
def refusals (message : String) : List Action := findRoles 0 message.toList

/-- `ParseForbiddenActions`. -/
def parseForbiddenActions (rt : Runtime) (message : String) : List Action :=
  reduceActionsByVerb rt (refusals message)

/-! ## What the checks return -/

section Checks

variable (u : UserAuth) (verb : String)

/-- The groups a permission may be given for: the group with its version, or without it. -/
def groupsOf (apiVersion : String) : List String :=
  if apiVersion = "v1" then [""]
  else if '/' ∈ apiVersion.toList then [apiVersion, groupID apiVersion]
  else [apiVersion]

/-- The verb is allowed on a resource, for one of its groups. -/
def UserAuth.Allows (u : UserAuth) (verb apiVersion resource ns : String) : Prop :=
  ∃ group ∈ groupsOf apiVersion, u.canI verb group resource ns = .ok true

instance (apiVersion resource ns : String) : Decidable (u.Allows verb apiVersion resource ns) :=
  inferInstanceAs (Decidable (∃ group ∈ groupsOf apiVersion, _))

/-- The report of a resource on which the verb is refused. -/
def UserAuth.refusal (i : Resource) : Option Action :=
  match u.resolve i.apiVersion i.kind with
  | .ok rInfo =>
      if u.Allows verb i.apiVersion rInfo.name i.ns then none
      else some (rejectedAction verb i rInfo)
  | .error _ => none

theorem refusal_of_resolve {i : Resource} {rInfo : ResourceInfo}
    (h : u.resolve i.apiVersion i.kind = .ok rInfo) :
    u.refusal verb i = if u.Allows verb i.apiVersion rInfo.name i.ns then none
      else some (rejectedAction verb i rInfo) := by
  unfold UserAuth.refusal
  rw [h]

theorem refusal_of_error {i : Resource} {err : ApiError}
    (h : u.resolve i.apiVersion i.kind = .error err) : u.refusal verb i = none := by
  unfold UserAuth.refusal
  rw [h]

theorem apiCall_eq_ok {α : Type} {x : Except ApiError α} {a : α} (h : apiCall x = .ok a) :
    x = .ok a := by
  cases x with
  | ok b => exact congrArg _ (Except.ok.inj h)
  | error err => cases h

theorem reviews_eq_ok {i : Resource} {rInfo : ResourceInfo} {allowed : Bool}
    (h : u.reviews verb i rInfo = .ok allowed) :
    allowed = true ↔ u.Allows verb i.apiVersion rInfo.name i.ns := by
  obtain ⟨first, hfirst, h⟩ := bind_eq_ok h
  have hfirst := apiCall_eq_ok hfirst
  unfold UserAuth.Allows groupsOf
  by_cases hcore : i.apiVersion = "v1"
  · simp only [hcore, if_true] at hfirst h
    rw [if_neg (by simp)] at h
    rw [if_pos hcore, ← Except.ok.inj h]
    simp [hfirst]
  · simp only [hcore, if_false] at hfirst h
    rw [if_neg hcore]
    by_cases hslash : '/' ∈ i.apiVersion.toList
    · rw [if_pos hslash]
      cases first with
      | true =>
          rw [if_neg (by simp)] at h
          rw [← Except.ok.inj h]
          simp [hfirst]
      | false =>
          rw [if_pos (by simp [hslash])] at h
          have hsecond := apiCall_eq_ok h
          simp [hfirst, hsecond]
    · rw [if_neg (by simp [hslash])] at h
      rw [if_neg hslash, ← Except.ok.inj h]
      simp [hfirst]

/-- Where the checks of a verb end, no group version is known without the kind. -/
theorem resolves_of_isAllowed {items : List Resource} {actions : List Action}
    (h : u.isAllowed verb items = .ok actions) :
    ∀ i ∈ items, (∃ rInfo, u.resolve i.apiVersion i.kind = .ok rInfo) ∨
      ∃ msg, u.resolve i.apiVersion i.kind = .error (.notFound msg) := by
  induction items generalizing actions with
  | nil => exact fun i hi => absurd hi List.not_mem_nil
  | cons i items ih =>
      unfold UserAuth.isAllowed at h
      rw [List.forall_mem_cons]
      split at h
      · rename_i msg hres
        exact ⟨.inr ⟨msg, hres⟩, ih h⟩
      · cases h
      · rename_i rInfo hres
        obtain ⟨allowed, _, h⟩ := bind_eq_ok h
        obtain ⟨rejected, hrest, _⟩ := bind_eq_ok h
        exact ⟨.inl ⟨rInfo, hres⟩, ih hrest⟩

theorem isAllowed_eq {items : List Resource} {actions : List Action}
    (h : u.isAllowed verb items = .ok actions) : actions = items.filterMap (u.refusal verb) := by
  induction items generalizing actions with
  | nil => exact (Except.ok.inj h).symm
  | cons i items ih =>
      unfold UserAuth.isAllowed at h
      rw [List.filterMap_cons]
      split at h
      · rename_i msg hres
        rw [refusal_of_error u verb hres]
        exact ih h
      · cases h
      · rename_i rInfo hres
        obtain ⟨allowed, hallowed, h⟩ := bind_eq_ok h
        obtain ⟨rejected, hrest, h⟩ := bind_eq_ok h
        have hiff := reviews_eq_ok u verb hallowed
        rw [refusal_of_resolve u verb hres, ← Except.ok.inj h, ih hrest]
        by_cases hall : u.Allows verb i.apiVersion rInfo.name i.ns
        · rw [if_pos (hiff.mpr hall), if_pos hall]
        · rw [if_neg (hiff.not.mpr hall), if_neg hall]

theorem isAllowedAll_eq {items : List Resource} {verbs : List String} {actions : List Action}
    (h : u.isAllowedAll items verbs = .ok actions) :
    actions = verbs.flatMap fun v => items.filterMap (u.refusal v) := by
  induction verbs generalizing actions with
  | nil => exact (Except.ok.inj h).symm
  | cons v verbs ih =>
      obtain ⟨first, hfirst, h⟩ := bind_eq_ok h
      obtain ⟨rest, hrest, h⟩ := bind_eq_ok h
      rw [List.flatMap_cons, ← isAllowed_eq u v hfirst, ← ih hrest]
      exact (Except.ok.inj h).symm

end Checks

end Kubeapps.Auth
