/-
  The operators in the dashboard's store (src/dashboard/src/reducers/operators.ts: catalogReducer;
  src/dashboard/src/actions/operators.ts).

  Every action of a page sets a flag of `isFetchingElem` before its call and clears it after the
  answer. `operators_loading`: in every interleaving of the actions, a flag that is set is going to
  be cleared by one of those that run. The exception is a check of the OLM that is answered with a
  success other than 200: nothing is dispatched then, and the page goes on loading.

  Of the objects only what is read here is kept, and of an error its message. The order of `sort` by
  name is a parameter. What a promise resolves to is left out where no other action reads it.
-/
import Kubeapps.Lib.Thunks

namespace Kubeapps.Dashboard

open Kubeapps.Lib

/-- `IPackageManifest`. -/
structure PackageManifest where
  name : String
  deriving DecidableEq, Repr

/-- `IClusterServiceVersionCRD`. -/
structure ServiceVersionCRD where
  name : String
  version : String
  deriving DecidableEq, Repr

/-- `IClusterServiceVersion`, with the `owned` of its `customresourcedefinitions`, which the type
    has. (At a version without them `getResource` would throw.) -/
structure ClusterServiceVersion where
  name : String
  owned : Option (List ServiceVersionCRD)
  deriving DecidableEq, Repr

/-- `IResource`. -/
structure OperatorsResource where
  apiVersion : String
  name : String
  deriving DecidableEq, Repr

/-- The fields of `isFetchingElem`. -/
inductive OperatorsElem where
  | OLM
  | operator
  | csv
  | resource
  | subscriptions
  deriving DecidableEq, Repr

structure OperatorsFetching where
  OLM : Bool
  operator : Bool
  csv : Bool
  resource : Bool
  subscriptions : Bool
  deriving DecidableEq, Repr

namespace OperatorsFetching

def get (elems : OperatorsFetching) : OperatorsElem → Bool
  | .OLM => elems.OLM
  | .operator => elems.operator
  | .csv => elems.csv
  | .resource => elems.resource
  | .subscriptions => elems.subscriptions

def set (elems : OperatorsFetching) (item : OperatorsElem) (fetching : Bool) : OperatorsFetching :=
  match item with
  | .OLM => { elems with OLM := fetching }
  | .operator => { elems with operator := fetching }
  | .csv => { elems with csv := fetching }
  | .resource => { elems with resource := fetching }
  | .subscriptions => { elems with subscriptions := fetching }

/-- `Object.values(composedIsFetching).some(v => v)`. -/
def some (elems : OperatorsFetching) : Bool :=
  [elems.OLM, elems.operator, elems.csv, elems.resource, elems.subscriptions].any id

theorem get_set (elems : OperatorsFetching) (item e : OperatorsElem) (fetching : Bool) :
    (elems.set item fetching).get e = if e = item then fetching else elems.get e := by
  cases item <;> cases e <;> rfl

theorem some_eq_true {elems : OperatorsFetching} : elems.some = true ↔ ∃ e, elems.get e = true := by
  constructor
  · intro h
    simp only [some, List.any_cons, List.any_nil, id_eq, Bool.or_eq_true] at h
    rcases h with h | h | h | h | h | h
    · exact ⟨.OLM, h⟩
    · exact ⟨.operator, h⟩
    · exact ⟨.csv, h⟩
    · exact ⟨.resource, h⟩
    · exact ⟨.subscriptions, h⟩
    · cases h
  · intro h
    obtain ⟨e, he⟩ := h
    cases e <;> simp only [get] at he <;> simp [some, he]

end OperatorsFetching

/-- `IOperatorsStateError`. -/
structure OperatorsStateError where
  fetch : Option String := none
  create : Option String := none
  delete : Option String := none
  update : Option String := none
  deriving DecidableEq, Repr

structure OperatorsErrors where
  operator : OperatorsStateError := {}
  csv : OperatorsStateError := {}
  resource : OperatorsStateError := {}
  subscriptions : OperatorsStateError := {}
  deriving DecidableEq, Repr

/-- `IOperatorsState`. -/
structure OperatorsState where
  isFetching : Bool
  isFetchingElem : OperatorsFetching
  isOLMInstalled : Bool
  operators : List PackageManifest
  operator : Option PackageManifest
  errors : OperatorsErrors
  csvs : List ClusterServiceVersion
  csv : Option ClusterServiceVersion
  resources : List OperatorsResource
  resource : Option OperatorsResource
  subscriptions : List OperatorsResource
  deriving DecidableEq, Repr

def operatorsInitialState : OperatorsState where
  isFetching := false
  isFetchingElem := ⟨false, false, false, false, false⟩
  isOLMInstalled := false
  operators := []
  operator := none
  errors := {}
  csvs := []
  csv := none
  resources := []
  resource := none
  subscriptions := []

inductive OperatorAction where
  | checkingOLM
  | OLMInstalled
  | errorOLMCheck (err : String)
  | requestOperators
  | receiveOperators (operators : List PackageManifest)
  | requestOperator
  | receiveOperator (operator : PackageManifest)
  | errorOperators (err : String)
  | requestCSVs
  | receiveCSVs (csvs : List ClusterServiceVersion)
  | errorCSVs (err : String)
  | requestCSV
  | receiveCSV (csv : ClusterServiceVersion)
  | creatingResource
  | resourceCreated (resource : OperatorsResource)
  | errorResourceCreate (err : String)
  | updatingResource
  | resourceUpdated (resource : OperatorsResource)
  | errorResourceUpdate (err : String)
  | deletingResource
  | resourceDeleted
  | errorResourceDelete (err : String)
  | requestCustomResources
  | receiveCustomResources (resources : List OperatorsResource)
  | errorCustomResource (err : String)
  | requestCustomResource
  | receiveCustomResource (resource : OperatorsResource)
  | creatingOperator
  | operatorCreated (resource : OperatorsResource)
  | errorOperatorCreate (err : String)
  | requestSubscriptions
  | receiveSubscriptions (resources : List OperatorsResource)
  | errorSubscriptionList (err : String)
  | locationChange
  | setNamespaceState
  deriving DecidableEq, Repr

/-- The two fields that `isFetching` of the source composes. -/
def OperatorsState.fetching (state : OperatorsState) (item : OperatorsElem) (fetching : Bool) :
    OperatorsState :=
  let composedIsFetching := state.isFetchingElem.set item fetching
  { state with isFetching := composedIsFetching.some, isFetchingElem := composedIsFetching }

def catalogReducer (state : OperatorsState) : OperatorAction → OperatorsState
  | .checkingOLM => state.fetching .OLM true
  | .OLMInstalled => { state with isOLMInstalled := true }.fetching .OLM false
  | .errorOLMCheck err =>
      { state.fetching .OLM false with
        errors := { state.errors with operator := { fetch := some err } } }
  | .requestOperators => state.fetching .operator true
  | .receiveOperators operators =>
      { state.fetching .operator false with operators := operators }
  | .requestOperator => state.fetching .operator true
  | .receiveOperator operator =>
      { state.fetching .operator false with operator := some operator }
  | .errorOperators err =>
      { state.fetching .operator false with
        operator := none
        errors := { state.errors with operator := { fetch := some err } } }
  | .requestCSVs => state.fetching .csv true
  | .receiveCSVs csvs => { state.fetching .csv false with csvs := csvs }
  | .requestCSV => state.fetching .csv true
  | .receiveCSV csv => { state.fetching .csv false with csv := some csv }
  | .errorCSVs err =>
      { state.fetching .csv false with
        csv := none
        errors := { state.errors with csv := { fetch := some err } } }
  | .creatingResource => state.fetching .resource true
  | .resourceCreated _ => state.fetching .resource false
  | .updatingResource => state.fetching .resource true
  | .resourceUpdated _ => state.fetching .resource false
  | .deletingResource => state.fetching .resource true
  | .resourceDeleted => state.fetching .resource false
  | .errorResourceDelete err =>
      { state.fetching .resource false with
        errors := { state.errors with resource := { delete := some err } } }
  | .errorResourceCreate err =>
      { state.fetching .resource false with
        errors := { state.errors with resource := { create := some err } } }
  | .errorResourceUpdate err =>
      { state.fetching .resource false with
        errors := { state.errors with resource := { update := some err } } }
  | .requestCustomResources => state.fetching .resource true
  | .receiveCustomResources resources =>
      { state.fetching .resource false with resources := resources }
  | .errorCustomResource err =>
      { state.fetching .resource false with
        resource := none
        errors := { state.errors with resource := { fetch := some err } } }
  | .requestCustomResource => state.fetching .resource true
  | .receiveCustomResource resource =>
      { state.fetching .resource false with resource := some resource }
  | .creatingOperator => state.fetching .operator true
  | .operatorCreated _ => state.fetching .operator false
  | .errorOperatorCreate err =>
      { state.fetching .operator false with
        errors := { state.errors with operator := { create := some err } } }
  | .requestSubscriptions => state.fetching .subscriptions true
  | .receiveSubscriptions subscriptions =>
      { state.fetching .subscriptions false with subscriptions := subscriptions }
  | .errorSubscriptionList err =>
      -- the resource is reset, not the subscriptions
      { state.fetching .subscriptions false with
        resource := none
        errors := { state.errors with subscriptions := { fetch := some err } } }
  | .locationChange => { state with errors := {} }
  | .setNamespaceState => { operatorsInitialState with isOLMInstalled := state.isOLMInstalled }

/-- The flag that an action writes, and what. -/
def OperatorAction.effect : OperatorAction → Option (OperatorsElem × Bool)
  | .checkingOLM => some (.OLM, true)
  | .OLMInstalled | .errorOLMCheck _ => some (.OLM, false)
  | .requestOperators | .requestOperator | .creatingOperator => some (.operator, true)
  | .receiveOperators _ | .receiveOperator _ | .errorOperators _ | .operatorCreated _
  | .errorOperatorCreate _ => some (.operator, false)
  | .requestCSVs | .requestCSV => some (.csv, true)
  | .receiveCSVs _ | .receiveCSV _ | .errorCSVs _ => some (.csv, false)
  | .creatingResource | .updatingResource | .deletingResource | .requestCustomResources
  | .requestCustomResource => some (.resource, true)
  | .resourceCreated _ | .resourceUpdated _ | .resourceDeleted | .errorResourceDelete _
  | .errorResourceCreate _ | .errorResourceUpdate _ | .receiveCustomResources _
  | .errorCustomResource _ | .receiveCustomResource _ => some (.resource, false)
  | .requestSubscriptions => some (.subscriptions, true)
  | .receiveSubscriptions _ | .errorSubscriptionList _ => some (.subscriptions, false)
  | .locationChange | .setNamespaceState => none

/-! ## The actions of the pages -/

/-- A call of `Operators`, with its arguments. -/
inductive OperatorsCall where
  | isOLMInstalled (cluster ns : String)
  | getOperators (cluster ns : String)
  | getOperator (cluster ns name : String)
  | getCSVs (cluster ns : String)
  | getCSV (cluster ns name : String)
  | createResource (cluster ns apiVersion resource body : String)
  | deleteResource (cluster ns apiVersion plural name : String)
  | updateResource (cluster ns apiVersion resource name body : String)
  | listResources (cluster ns apiVersion resource : String)
  | getResource (cluster ns apiVersion crd name : String)
  | createOperator (cluster ns name channel installPlanApproval csv : String)
  | listSubscriptions (cluster ns : String)
  deriving DecidableEq, Repr

/-- The data of a response with a success status. -/
inductive OperatorsData where
  | status (status : Nat)
  | manifests (items : List PackageManifest)
  | manifest (data : PackageManifest)
  | csvs (items : List ClusterServiceVersion)
  | csv (data : ClusterServiceVersion)
  | resources (items : List OperatorsResource)
  | resource (data : OperatorsResource)
  | deleted
  deriving DecidableEq, Repr

abbrev OperatorsAnswer := Except String OperatorsData

/-- The answers to a call that expects data of one kind; every call can fail. -/
def OperatorsAnswer.of {γ : Type} (get : OperatorsData → Option γ) :
    OperatorsAnswer → Option (Except String γ)
  | .ok data => (get data).map .ok
  | .error err => some (.error err)

namespace OperatorsData

def status? : OperatorsData → Option Nat
  | .status code => some code
  | _ => none

def manifests? : OperatorsData → Option (List PackageManifest)
  | .manifests items => some items
  | _ => none

def manifest? : OperatorsData → Option PackageManifest
  | .manifest data => some data
  | _ => none

def csvs? : OperatorsData → Option (List ClusterServiceVersion)
  | .csvs items => some items
  | _ => none

def csv? : OperatorsData → Option ClusterServiceVersion
  | .csv data => some data
  | _ => none

def resources? : OperatorsData → Option (List OperatorsResource)
  | .resources items => some items
  | _ => none

def resource? : OperatorsData → Option OperatorsResource
  | .resource data => some data
  | _ => none

def deleted? : OperatorsData → Option Unit
  | .deleted => some ()
  | _ => none

end OperatorsData

abbrev OperatorThunk := Thunk OperatorsCall OperatorAction OperatorsAnswer

section Actions

open Thunk OperatorsAnswer

variable (sortOperators : List PackageManifest → List PackageManifest)
  (sortCSVs : List ClusterServiceVersion → List ClusterServiceVersion) (cluster ns : String)

def checkOLMInstalled : OperatorThunk :=
  dispatch .checkingOLM <| call (.isOLMInstalled cluster ns) (of OperatorsData.status?) fun
    | .ok status => if status = 200 then dispatch .OLMInstalled ret else ret
    | .error err => dispatch (.errorOLMCheck err) ret

def getOperators : OperatorThunk :=
  attempt .requestOperators (.getOperators cluster ns) (of OperatorsData.manifests?)
    (fun operators => .receiveOperators (sortOperators operators)) .errorOperators

def getOperator (operatorName : String) : OperatorThunk :=
  attempt .requestOperator (.getOperator cluster ns operatorName) (of OperatorsData.manifest?)
    .receiveOperator .errorOperators

/-- `rest` is what the caller does with the list that the promise resolves to. -/
def getCSVs (rest : List ClusterServiceVersion → OperatorThunk) : OperatorThunk :=
  dispatch .requestCSVs <| call (.getCSVs cluster ns) (of OperatorsData.csvs?) fun
    | .ok csvs => dispatch (.receiveCSVs (sortCSVs csvs)) (rest (sortCSVs csvs))
    | .error err => dispatch (.errorCSVs err) (rest [])

def getCSV (name : String) (rest : Option ClusterServiceVersion → OperatorThunk) : OperatorThunk :=
  dispatch .requestCSV <| call (.getCSV cluster ns name) (of OperatorsData.csv?) fun
    | .ok csv => dispatch (.receiveCSV csv) (rest (some csv))
    | .error err => dispatch (.errorCSVs err) (rest none)

def createResource (apiVersion resource body : String) : OperatorThunk :=
  attempt .creatingResource (.createResource cluster ns apiVersion resource body)
    (of OperatorsData.resource?) .resourceCreated .errorResourceCreate

def deleteResource (plural : String) (resource : OperatorsResource) : OperatorThunk :=
  attempt .deletingResource (.deleteResource cluster ns resource.apiVersion plural resource.name)
    (of OperatorsData.deleted?) (fun _ => .resourceDeleted) .errorResourceDelete

def updateResource (apiVersion resource name body : String) : OperatorThunk :=
  attempt .updatingResource (.updateResource cluster ns apiVersion resource name body)
    (of OperatorsData.resource?) .resourceUpdated .errorResourceUpdate

structure ParsedCRD where
  plural : String
  group : String
  deriving DecidableEq, Repr

def parseCRD (crdName : String) : ParsedCRD :=
  let parsedCRD := crdName.toList.splitOn '.'
  { plural := String.ofList (parsedCRD.headD [])
    group := String.ofList (['.'].intercalate (parsedCRD.drop 1)) }

/-- The call of `getResources` for one owned CRD. -/
def listResources (crd : ServiceVersionCRD) : OperatorsCall :=
  let { plural, group } := parseCRD crd.name
  .listResources cluster ns s!"{group}/{crd.version}" plural

/-- The answers to `n` calls that are out, in any order, and what they are put together to. -/
def gatherResources : Nat → List OperatorsCall → List OperatorsResource → OperatorThunk
  | 0, _, resources => dispatch (.receiveCustomResources resources) ret
  | n + 1, out, resources =>
      calls out (of OperatorsData.resources?) fun j answer =>
        match answer with
        | .ok items => gatherResources n (out.eraseIdx j) (resources ++ items)
        | .error err =>
            dispatch (.errorCustomResource err) (gatherResources n (out.eraseIdx j) resources)

def getResources : OperatorThunk :=
  dispatch .requestCustomResources <| getCSVs sortCSVs cluster ns fun csvs =>
    let out := csvs.flatMap fun csv => (csv.owned.getD []).map (listResources cluster ns)
    gatherResources out.length out []

def getResource (csvName crdName resourceName : String) : OperatorThunk :=
  dispatch .requestCustomResource <| getCSV cluster ns csvName fun
    | some csv =>
        match csv.owned.bind fun owned => owned.find? fun c => c.name = crdName with
        | some crd =>
            let { plural, group } := parseCRD crd.name
            call (.getResource cluster ns s!"{group}/{crd.version}" plural resourceName)
              (of OperatorsData.resource?) fun
              | .ok resource => dispatch (.receiveCustomResource resource) ret
              | .error err => dispatch (.errorCustomResource err) ret
        | none =>
            dispatch (.errorCustomResource
              s!"Not found a valid CRD definition for {csvName}/{crdName}") ret
    | none => dispatch (.errorCustomResource s!"CSV {csvName} not found in {ns}") ret

def createOperator (name channel installPlanApproval csv : String) : OperatorThunk :=
  attempt .creatingOperator (.createOperator cluster ns name channel installPlanApproval csv)
    (of OperatorsData.resource?) .operatorCreated .errorOperatorCreate

def listSubscriptions : OperatorThunk :=
  dispatch .requestSubscriptions <|
    call (.listSubscriptions cluster "operators") (of OperatorsData.resources?) fun
      | .error err => dispatch (.errorSubscriptionList err) ret
      | .ok globalSubs =>
          if ns ≠ "operators" then
            call (.listSubscriptions cluster ns) (of OperatorsData.resources?) fun
              | .ok items => dispatch (.receiveSubscriptions (globalSubs ++ items)) ret
              | .error err => dispatch (.errorSubscriptionList err) ret
          else dispatch (.receiveSubscriptions globalSubs) ret

end Actions

/-- What a page can call. -/
inductive OperatorsRequest where
  | checkOLMInstalled (cluster ns : String)
  | getOperators (cluster ns : String)
  | getOperator (cluster ns operatorName : String)
  | getCSVs (cluster ns : String)
  | getCSV (cluster ns name : String)
  | createResource (cluster ns apiVersion resource body : String)
  | deleteResource (cluster ns plural : String) (resource : OperatorsResource)
  | updateResource (cluster ns apiVersion resource name body : String)
  | getResources (cluster ns : String)
  | getResource (cluster ns csvName crdName resourceName : String)
  | createOperator (cluster ns name channel installPlanApproval csv : String)
  | listSubscriptions (cluster ns : String)

section Requests

variable (sortOperators : List PackageManifest → List PackageManifest)
  (sortCSVs : List ClusterServiceVersion → List ClusterServiceVersion)

def OperatorsRequest.thunk : OperatorsRequest → OperatorThunk
  | .checkOLMInstalled cluster ns => Dashboard.checkOLMInstalled cluster ns
  | .getOperators cluster ns => Dashboard.getOperators sortOperators cluster ns
  | .getOperator cluster ns operatorName => Dashboard.getOperator cluster ns operatorName
  | .getCSVs cluster ns => Dashboard.getCSVs sortCSVs cluster ns fun _ => .ret
  | .getCSV cluster ns name => Dashboard.getCSV cluster ns name fun _ => .ret
  | .createResource cluster ns apiVersion resource body =>
      Dashboard.createResource cluster ns apiVersion resource body
  | .deleteResource cluster ns plural resource =>
      Dashboard.deleteResource cluster ns plural resource
  | .updateResource cluster ns apiVersion resource name body =>
      Dashboard.updateResource cluster ns apiVersion resource name body
  | .getResources cluster ns => Dashboard.getResources sortCSVs cluster ns
  | .getResource cluster ns csvName crdName resourceName =>
      Dashboard.getResource cluster ns csvName crdName resourceName
  | .createOperator cluster ns name channel installPlanApproval csv =>
      Dashboard.createOperator cluster ns name channel installPlanApproval csv
  | .listSubscriptions cluster ns => Dashboard.listSubscriptions cluster ns

abbrev OperatorsPage := Thunks OperatorsState OperatorsCall OperatorAction OperatorsAnswer

abbrev OperatorsLabel := ThunksLabel OperatorsRequest OperatorAction OperatorsAnswer

def OperatorsPage.step : OperatorsPage → OperatorsLabel → Option OperatorsPage :=
  Thunks.step catalogReducer (OperatorsRequest.thunk sortOperators sortCSVs)

def OperatorsPage.initial : OperatorsPage := ⟨operatorsInitialState, []⟩

end Requests

/-! ## What an action does to the flags -/

def OperatorAction.Sets (e : OperatorsElem) (a : OperatorAction) : Prop := a.effect = some (e, true)

def OperatorAction.Clears (e : OperatorsElem) (a : OperatorAction) : Prop :=
  a.effect = some (e, false) ∨ a = .setNamespaceState

/-- The OLM is found or the check fails: not a success with another status than 200. -/
def OperatorsAnswer.Checked (e : OperatorsElem) (r : OperatorsAnswer) : Prop :=
  e = .OLM → ∀ status, r = .ok (.status status) → status = 200

theorem get_catalogReducer (state : OperatorsState) (a : OperatorAction) (e : OperatorsElem) :
    (catalogReducer state a).isFetchingElem.get e =
      match a.effect with
      | some (item, fetching) => if e = item then fetching else state.isFetchingElem.get e
      | none => if a = .setNamespaceState then false else state.isFetchingElem.get e := by
  cases a with
  | locationChange => rfl
  | setNamespaceState => cases e <;> rfl
  | _ => exact OperatorsFetching.get_set _ _ _ _

theorem isFetching_catalogReducer {state : OperatorsState} (a : OperatorAction)
    (h : state.isFetching = state.isFetchingElem.some) :
    (catalogReducer state a).isFetching = (catalogReducer state a).isFetchingElem.some := by
  cases a with
  | locationChange => exact h
  | _ => rfl

theorem sets_or_catalogReducer {e : OperatorsElem} (state : OperatorsState) (a : OperatorAction)
    (h : (catalogReducer state a).isFetchingElem.get e = true) :
    a.Sets e ∨ state.isFetchingElem.get e = true ∧ ¬ a.Clears e := by
  rw [get_catalogReducer] at h
  unfold OperatorAction.Sets OperatorAction.Clears
  rcases heff : a.effect with _ | ⟨item, fetching⟩
  · simp only [heff] at h
    split at h
    · cases h
    · rename_i hns
      exact .inr ⟨h, by simp [hns]⟩
  · simp only [heff] at h
    have hns : a ≠ .setNamespaceState := by
      intro ha
      rw [ha] at heff
      cases heff
    split at h
    · rename_i he
      rw [he, h]
      exact .inl rfl
    · rename_i he
      exact .inr ⟨h, by simp [hns, Ne.symm he]⟩

/-! ## Every action of a page is tidy -/

section Tidy

open Thunk OperatorAction

variable {ok : OperatorsAnswer → Prop} {e : OperatorsElem}
  (sortOperators : List PackageManifest → List PackageManifest)
  (sortCSVs : List ClusterServiceVersion → List ClusterServiceVersion) (cluster ns : String)

theorem not_sets {a : OperatorAction} {item : OperatorsElem} (h : a.effect = some (item, false)) :
    ¬ a.Sets e := by
  intro hset
  rw [OperatorAction.Sets, h] at hset
  cases hset

theorem clears_of_sets {request a : OperatorAction} {item : OperatorsElem}
    (hrequest : request.effect = some (item, true)) (h : a.effect = some (item, false))
    (hset : request.Sets e) : a.Clears e := by
  rw [OperatorAction.Sets, hrequest] at hset
  cases hset
  exact .inl h

/-- One request with its two answers, all of one element. -/
theorem tidy_request {γ : Type} {request : OperatorAction} {query : OperatorsCall}
    {get : OperatorsAnswer → Option (Except String γ)} {receive : γ → OperatorAction}
    {fail : String → OperatorAction} (item : OperatorsElem)
    (hrequest : request.effect = some (item, true))
    (hreceive : ∀ x, (receive x).effect = some (item, false))
    (hfail : ∀ err, (fail err).effect = some (item, false)) :
    (attempt request query get receive fail).Tidy ok (Sets e) (Clears e) :=
  tidy_attempt (fun x => ⟨not_sets (hreceive x), clears_of_sets hrequest (hreceive x)⟩)
    fun err => ⟨not_sets (hfail err), clears_of_sets hrequest (hfail err)⟩

/-- A last action that sets nothing. -/
theorem tidy_last {a : OperatorAction} {item : OperatorsElem} (h : a.effect = some (item, false)) :
    (dispatch a ret : OperatorThunk).Tidy ok (Sets e) (Clears e) :=
  ⟨fun hset => absurd hset (not_sets h), trivial⟩

theorem tidy_checkOLMInstalled :
    (checkOLMInstalled cluster ns).Tidy (OperatorsAnswer.Checked e) (Sets e) (Clears e) := by
  refine ⟨fun hset => clears_call fun r x hx hok => ?_, tidy_call fun r x hx hok => ?_⟩
  · obtain rfl : OperatorsElem.OLM = e := by cases hset; rfl
    cases x with
    | error err => exact .inl (.inl rfl)
    | ok status =>
        have h200 : status = 200 := by
          cases r with
          | error err => cases hx
          | ok data => cases data <;> cases hx; exact hok rfl _ rfl
        dsimp only
        rw [if_pos h200]
        exact .inl (.inl rfl)
  · cases x with
    | error err => exact tidy_last rfl
    | ok status =>
        dsimp only
        split
        · exact tidy_last rfl
        · trivial

theorem tidy_getCSVs {rest : List ClusterServiceVersion → OperatorThunk}
    (h : ∀ csvs, (rest csvs).Tidy ok (Sets e) (Clears e)) :
    (getCSVs sortCSVs cluster ns rest).Tidy ok (Sets e) (Clears e) := by
  refine ⟨fun hset => clears_call fun r x _ _ => ?_, tidy_call fun r x _ _ => ?_⟩
  · cases x with
    | ok csvs => exact .inl (clears_of_sets rfl rfl hset)
    | error err => exact .inl (clears_of_sets rfl rfl hset)
  · cases x with
    | ok csvs => exact ⟨fun hset => absurd hset (not_sets rfl), h _⟩
    | error err => exact ⟨fun hset => absurd hset (not_sets rfl), h _⟩

theorem clears_getCSVs {rest : List ClusterServiceVersion → OperatorThunk}
    (h : ∀ csvs, (rest csvs).Clears ok (Clears e)) :
    (getCSVs sortCSVs cluster ns rest).Clears ok (Clears e) := by
  refine .inr (clears_call fun r x _ _ => ?_)
  cases x with
  | ok csvs => exact .inr (h _)
  | error err => exact .inr (h _)

theorem tidy_getCSV {name : String} {rest : Option ClusterServiceVersion → OperatorThunk}
    (h : ∀ csv, (rest csv).Tidy ok (Sets e) (Clears e)) :
    (getCSV cluster ns name rest).Tidy ok (Sets e) (Clears e) := by
  refine ⟨fun hset => clears_call fun r x _ _ => ?_, tidy_call fun r x _ _ => ?_⟩
  · cases x with
    | ok csv => exact .inl (clears_of_sets rfl rfl hset)
    | error err => exact .inl (clears_of_sets rfl rfl hset)
  · cases x with
    | ok csv => exact ⟨fun hset => absurd hset (not_sets rfl), h _⟩
    | error err => exact ⟨fun hset => absurd hset (not_sets rfl), h _⟩

theorem clears_getCSV {name : String} {rest : Option ClusterServiceVersion → OperatorThunk}
    (h : ∀ csv, (rest csv).Clears ok (Clears e)) :
    (getCSV cluster ns name rest).Clears ok (Clears e) := by
  refine .inr (clears_call fun r x _ _ => ?_)
  cases x with
  | ok csv => exact .inr (h _)
  | error err => exact .inr (h _)

theorem tidy_gatherResources (n : Nat) (out : List OperatorsCall)
    (resources : List OperatorsResource) :
    (gatherResources n out resources).Tidy ok (Sets e) (Clears e) := by
  induction n generalizing out resources with
  | zero => exact tidy_last rfl
  | succ n ih =>
      refine tidy_calls fun j r x _ _ _ => ?_
      cases x with
      | ok items => exact ih _ _
      | error err => exact ⟨fun hset => absurd hset (not_sets rfl), ih _ _⟩

/-- However many of the calls fail, the list is received in the end. -/
theorem clears_gatherResources (n : Nat) (out : List OperatorsCall)
    (resources : List OperatorsResource) :
    (gatherResources n out resources).Clears ok (Clears .resource) := by
  induction n generalizing out resources with
  | zero => exact .inl (.inl rfl)
  | succ n ih =>
      refine clears_calls fun j r x _ _ _ => ?_
      cases x with
      | ok items => exact ih _ _
      | error err => exact .inr (ih _ _)

theorem tidy_getResources : (getResources sortCSVs cluster ns).Tidy ok (Sets e) (Clears e) := by
  refine ⟨fun hset => ?_, tidy_getCSVs _ _ _ fun csvs => tidy_gatherResources _ _ _⟩
  obtain rfl : OperatorsElem.resource = e := by cases hset; rfl
  exact clears_getCSVs _ _ _ fun csvs => clears_gatherResources _ _ _

theorem tidy_getResource (csvName crdName resourceName : String) :
    (getResource cluster ns csvName crdName resourceName).Tidy ok (Sets e) (Clears e) := by
  refine ⟨fun hset => clears_getCSV _ _ fun csv => ?_, tidy_getCSV _ _ fun csv => ?_⟩
  · cases csv with
    | none => exact .inl (clears_of_sets rfl rfl hset)
    | some csv =>
        dsimp only
        split
        · refine clears_call fun r x _ _ => ?_
          cases x with
          | ok resource => exact .inl (clears_of_sets rfl rfl hset)
          | error err => exact .inl (clears_of_sets rfl rfl hset)
        · exact .inl (clears_of_sets rfl rfl hset)
  · cases csv with
    | none => exact tidy_last rfl
    | some csv =>
        dsimp only
        split
        · refine tidy_call fun r x _ _ => ?_
          cases x with
          | ok resource => exact tidy_last rfl
          | error err => exact tidy_last rfl
        · exact tidy_last rfl

theorem tidy_listSubscriptions : (listSubscriptions cluster ns).Tidy ok (Sets e) (Clears e) := by
  refine ⟨fun hset => clears_call fun r x _ _ => ?_, tidy_call fun r x _ _ => ?_⟩
  · cases x with
    | error err => exact .inl (clears_of_sets rfl rfl hset)
    | ok globalSubs =>
        dsimp only
        split
        · refine clears_call fun r x _ _ => ?_
          cases x with
          | ok items => exact .inl (clears_of_sets rfl rfl hset)
          | error err => exact .inl (clears_of_sets rfl rfl hset)
        · exact .inl (clears_of_sets rfl rfl hset)
  · cases x with
    | error err => exact tidy_last rfl
    | ok globalSubs =>
        dsimp only
        split
        · refine tidy_call fun r x _ _ => ?_
          cases x with
          | ok items => exact tidy_last rfl
          | error err => exact tidy_last rfl
        · exact tidy_last rfl

theorem tidy_thunk (request : OperatorsRequest) :
    (request.thunk sortOperators sortCSVs).Tidy (OperatorsAnswer.Checked e) (Sets e) (Clears e) := by
  cases request with
  | checkOLMInstalled cluster ns => exact tidy_checkOLMInstalled cluster ns
  | getOperators cluster ns => exact tidy_request .operator rfl (fun _ => rfl) fun _ => rfl
  | getOperator cluster ns name => exact tidy_request .operator rfl (fun _ => rfl) fun _ => rfl
  | getCSVs cluster ns =>
      have hret : ∀ csvs : List ClusterServiceVersion,
          (ret : OperatorThunk).Tidy (OperatorsAnswer.Checked e) (Sets e) (Clears e) :=
        fun _ => trivial
      exact tidy_getCSVs sortCSVs cluster ns hret
  | getCSV cluster ns name =>
      have hret : ∀ csv : Option ClusterServiceVersion,
          (ret : OperatorThunk).Tidy (OperatorsAnswer.Checked e) (Sets e) (Clears e) :=
        fun _ => trivial
      exact tidy_getCSV cluster ns hret
  | createResource => exact tidy_request .resource rfl (fun _ => rfl) fun _ => rfl
  | deleteResource => exact tidy_request .resource rfl (fun _ => rfl) fun _ => rfl
  | updateResource => exact tidy_request .resource rfl (fun _ => rfl) fun _ => rfl
  | getResources cluster ns => exact tidy_getResources sortCSVs cluster ns
  | getResource cluster ns csvName crdName resourceName =>
      exact tidy_getResource cluster ns csvName crdName resourceName
  | createOperator => exact tidy_request .operator rfl (fun _ => rfl) fun _ => rfl
  | listSubscriptions cluster ns => exact tidy_listSubscriptions cluster ns

end Tidy

/-! ## Every run -/

section Runs

variable {sortOperators : List PackageManifest → List PackageManifest}
  {sortCSVs : List ClusterServiceVersion → List ClusterServiceVersion} {ls : List OperatorsLabel}
  {s : OperatorsPage}

theorem isFetching_of_runs
    (hr : runs (OperatorsPage.step sortOperators sortCSVs) OperatorsPage.initial ls = some s) :
    s.store.isFetching = s.store.isFetchingElem.some := by
  have hstep : ∀ (s : OperatorsPage) l s', s.store.isFetching = s.store.isFetchingElem.some →
      OperatorsPage.step sortOperators sortCSVs s l = some s' →
        s'.store.isFetching = s'.store.isFetchingElem.some := by
    intro s l s' hi hs
    exact Thunks.store_invariant (fun state => state.isFetching = state.isFetchingElem.some)
      (fun _ a h => isFetching_catalogReducer a h) hi hs
  exact runs_invariant hstep hr rfl

/-- From outside come the change of the location and of the namespace, which set nothing. -/
def OutsideOnly (ls : List OperatorsLabel) : Prop :=
  ∀ a, .dispatch a ∈ ls → ∀ e, ¬ a.Sets e

/-- No check of the OLM was answered with a success other than 200. -/
def OLMChecked (ls : List OperatorsLabel) : Prop :=
  ∀ i j status, .answer i j (.ok (.status status)) ∈ ls → status = 200

theorem meets_label {e : OperatorsElem} (houtside : OutsideOnly ls)
    (hchecked : e = .OLM → OLMChecked ls) (l : OperatorsLabel) (hl : l ∈ ls) :
    Thunks.Meets (OperatorsAnswer.Checked e) (OperatorAction.Sets e) l := by
  cases l with
  | start request => trivial
  | dispatch a => exact houtside a hl e
  | go i => trivial
  | answer i j r =>
      intro he status hstatus
      rw [hstatus] at hl
      exact hchecked he i j status hl

/-- **A flag that is set is going to be cleared.** Whatever the interleaving and the answers are, the
    page is loading exactly as long as some flag is set, and then there is a running action that
    clears that flag before it returns. For the flag of the OLM this takes that no check was
    answered with a success other than 200. When every action has returned, nothing but the check
    can be left loading. -/
theorem operators_loading
    (hr : runs (OperatorsPage.step sortOperators sortCSVs) OperatorsPage.initial ls = some s)
    (houtside : OutsideOnly ls) :
    (s.store.isFetching = true ↔ ∃ e, s.store.isFetchingElem.get e = true) ∧
      (∀ e, (e = .OLM → OLMChecked ls) → s.store.isFetchingElem.get e = true →
        ∃ t ∈ s.running, t.Clears (OperatorsAnswer.Checked e) (OperatorAction.Clears e)) ∧
      (s.Done → s.store.isFetching = s.store.isFetchingElem.OLM ∧
        (OLMChecked ls → s.store.isFetching = false)) := by
  have hfetching := isFetching_of_runs hr
  have hclears : ∀ e, (e = .OLM → OLMChecked ls) → s.store.isFetchingElem.get e = true →
      ∃ t ∈ s.running, t.Clears (OperatorsAnswer.Checked e) (OperatorAction.Clears e) := by
    intro e hchecked he
    have hinitial : ¬ operatorsInitialState.isFetchingElem.get e = true := by
      cases e <;> decide
    exact Thunks.clears_of_runs (fun state => state.isFetchingElem.get e = true)
      sets_or_catalogReducer (tidy_thunk sortOperators sortCSVs) hinitial
      (meets_label houtside hchecked) hr he
  refine ⟨?_, hclears, fun hdone => ?_⟩
  · rw [hfetching]
    exact OperatorsFetching.some_eq_true
  · have hnone : ∀ e, (e = .OLM → OLMChecked ls) → s.store.isFetchingElem.get e = false := by
      intro e hchecked
      rw [← Bool.not_eq_true]
      exact fun he => Thunks.not_of_done hdone (hclears e hchecked he)
    have hOLM : s.store.isFetching = s.store.isFetchingElem.OLM := by
      rw [hfetching, Bool.eq_iff_iff, OperatorsFetching.some_eq_true]
      constructor
      · intro h
        obtain ⟨e, he⟩ := h
        by_cases hOLM : e = .OLM
        · rw [hOLM] at he
          exact he
        · rw [hnone e fun h => absurd h hOLM] at he
          cases he
      · exact fun h => ⟨.OLM, h⟩
    exact ⟨hOLM, fun hchecked => hOLM.trans (hnone .OLM fun _ => hchecked)⟩

/-- Two actions whose answers come the other way round. -/
theorem operators_loading_crossed :
    ∃ s, runs (OperatorsPage.step id id) OperatorsPage.initial
        [.start (.getOperators "default" "ns"), .start (.checkOLMInstalled "default" "ns"), .go 0,
          .go 1, .answer 1 0 (.ok (.status 200)), .dispatch .locationChange, .go 1,
          .answer 0 0 (.error "not found"), .go 0] = some s ∧
      s.store.isFetching = s.store.isFetchingElem.OLM ∧ s.store.isFetching = false := by
  have houtside : OutsideOnly
      [.start (.getOperators "default" "ns"), .start (.checkOLMInstalled "default" "ns"), .go 0,
        .go 1, .answer 1 0 (.ok (.status 200)), .dispatch .locationChange, .go 1,
        .answer 0 0 (.error "not found"), .go 0] := by
    intro a ha e
    simp only [List.mem_cons, reduceCtorEq, ThunksLabel.dispatch.injEq, List.not_mem_nil, or_false,
      false_or] at ha
    rw [ha]
    exact fun h => nomatch h
  have hchecked : OLMChecked
      [.start (.getOperators "default" "ns"), .start (.checkOLMInstalled "default" "ns"), .go 0,
        .go 1, .answer 1 0 (.ok (.status 200)), .dispatch .locationChange, .go 1,
        .answer 0 0 (.error "not found"), .go 0] := by
    intro i j status h
    simp only [List.mem_cons, reduceCtorEq, ThunksLabel.answer.injEq, List.not_mem_nil, or_false,
      false_or, Except.ok.injEq, OperatorsData.status.injEq] at h
    rcases h with h | h
    · exact h.2.2
    · exact False.elim h.2.2
  refine ⟨_, rfl, ?_⟩
  obtain ⟨_, _, hdone⟩ := @operators_loading id id _ _ rfl houtside
  refine ⟨(hdone ?_).1, (hdone ?_).2 hchecked⟩
  · intro t ht
    change t ∈ [Thunk.ret, Thunk.ret] at ht
    simpa using ht
  · intro t ht
    change t ∈ [Thunk.ret, Thunk.ret] at ht
    simpa using ht

/-- After a check that is answered with a success other than 200 the page goes on loading, also
    when nothing runs any more. -/
theorem isFetching_of_not_checked {cluster ns : String} {status : Nat} (hstatus : status ≠ 200) :
    ∃ s', runs (OperatorsPage.step sortOperators sortCSVs) s
        [.start (.checkOLMInstalled cluster ns), .go s.running.length,
          .answer s.running.length 0 (.ok (.status status))] = some s' ∧
      s'.store.isFetching = true ∧ s'.running = s.running ++ [.ret] := by
  refine ⟨⟨catalogReducer s.store .checkingOLM, s.running ++ [.ret]⟩, ?_, ?_, rfl⟩
  · simp [runs, OperatorsPage.step, Thunks.step, OperatorsRequest.thunk, checkOLMInstalled,
      Thunk.call, Thunk.calls, OperatorsAnswer.of, OperatorsData.status?, hstatus]
  · simp [catalogReducer, OperatorsState.fetching, OperatorsFetching.set, OperatorsFetching.some]

end Runs

end Kubeapps.Dashboard
