/-
  The clusters of the dashboard's store (src/dashboard/src/reducers/cluster.ts: clusterReducer;
  src/dashboard/src/shared/Namespace.ts: getCurrentNamespace).

  An object of JavaScript that is used as a map is its own properties. A property that every object
  inherits (`inherited`) can be read where there is no such cluster; it is a function, and has none
  of the fields. A field that is missing is undefined, and so is `none` here. A cluster of the
  config is not called `__proto__`.

  A reducer that reads a property of undefined throws; the store then keeps its state.

  `addressed_frame_iff`: what an action leaves alone. `always_usable_iff`: the runs in whose states
  the current cluster has an entry, the entries are complete and nothing was thrown.
-/
import Mathlib.Data.List.Lex
import Kubeapps.Lib.Go
import Kubeapps.Lib.Steps

namespace Kubeapps.Dashboard

open Kubeapps.Lib

/-- `IClusterState`. `error` is the action and the error. -/
structure ClusterState where
  currentNamespace : Option String
  namespaces : Option (List String)
  canCreateNS : Option Bool
  error : Option (String × String)
  deriving DecidableEq, Repr

def ClusterState.empty : ClusterState := ⟨none, none, none, none⟩

/-- `IClustersState`. -/
structure ClustersState where
  currentCluster : String
  clusters : String → Option ClusterState

/-- A property is read of undefined. -/
structure Thrown where
  property : String
  deriving DecidableEq, Repr

/-- The properties of `Object.prototype`. -/
def inherited : List String :=
  ["constructor", "__defineGetter__", "__defineSetter__", "hasOwnProperty", "__lookupGetter__",
    "__lookupSetter__", "isPrototypeOf", "propertyIsEnumerable", "toString", "valueOf", "__proto__",
    "toLocaleString"]

/-- `state.clusters[cluster]`. -/
def ClustersState.entry (state : ClustersState) (cluster : String) : Option ClusterState :=
  match state.clusters cluster with
  | some entry => some entry
  | none => if cluster ∈ inherited then some .empty else none

/-- `state.clusters[cluster].property`. -/
def ClustersState.read {α : Type} (state : ClustersState) (cluster property : String)
    (field : ClusterState → α) : Except Thrown α :=
  match state.entry cluster with
  | some entry => .ok (field entry)
  | none => .error ⟨property⟩

/-- `...state.clusters[cluster]`. Nothing is spread of undefined. -/
def ClustersState.spread (state : ClustersState) (cluster : String) : ClusterState :=
  (state.entry cluster).getD .empty

/-- `{ ...state, clusters: { ...state.clusters, [cluster]: entry } }`. -/
def ClustersState.put (state : ClustersState) (cluster : String) (entry : ClusterState) :
    ClustersState :=
  { state with clusters := Function.update state.clusters cluster (some entry) }

/-- A string that is neither undefined nor empty. -/
def truthy : Option String → Option String
  | some "" => none
  | s => s

/-- `a || b`. -/
def orElse (a b : Option String) : Option String :=
  match truthy a with
  | some s => some s
  | none => b

/-- The UTF-16 code units of a string, by which `sort` compares. -/
def codeUnits (s : String) : List Nat :=
  s.toList.flatMap fun c =>
    if c.toNat < 0x10000 then [c.toNat]
    else [0xd800 + (c.toNat - 0x10000) / 0x400, 0xdc00 + (c.toNat - 0x10000) % 0x400]

/-- `sort()`. -/
def sortStrings (ss : List String) : List String :=
  ss.mergeSort fun a b => decide (codeUnits a ≤ codeUnits b)

/-- What `getCurrentNamespace` reads of the browser: the namespaces in the local storage, and the
    namespace of the token. -/
structure Browser where
  storedNS : String → Option String
  tokenNS : String

/-- `getCurrentNamespace`. -/
def getCurrentNamespace (browser : Browser) (cluster : String) (currentNS : Option String)
    (availableNS : List String) : String :=
  let available (ns : Option String) := (truthy ns).filter fun ns => ns ∈ availableNS
  match truthy currentNS, available (browser.storedNS cluster), available (some browser.tokenNS) with
  | some ns, _, _ => ns
  | none, some storedNS, _ => storedNS
  | none, none, some tokenNS => tokenNS
  | none, none, none => availableNS.headD ""

/-- The namespace actions that are addressed to a cluster. -/
inductive NamespaceAction where
  | receiveNamespace (cluster name : String)
  | receiveNamespaces (cluster : String) (namespaces : List String)
  | setNamespaceState (cluster ns : String)
  | errorNamespaces (cluster err op : String)
  | setAllowCreate (cluster : String) (allowed : Bool)
  deriving DecidableEq, Repr

def NamespaceAction.cluster : NamespaceAction → String
  | receiveNamespace cluster _ => cluster
  | receiveNamespaces cluster _ => cluster
  | setNamespaceState cluster _ => cluster
  | errorNamespaces cluster _ _ => cluster
  | setAllowCreate cluster _ => cluster

/-- The actions of the reducer. The clusters of a config are a first one and the others. -/
inductive ClusterAction where
  | addressed (a : NamespaceAction)
  | clearClusters
  | locationChange (pathname : String)
  | receiveConfig (first : String) (rest : List String)
  /-- Any other action. -/
  | other
  deriving DecidableEq, Repr

/-- `initialState`, for the namespace of the token when the dashboard is loaded. -/
def initialClusters (tokenNS : String) : ClustersState where
  currentCluster := "default"
  clusters := Function.update (fun _ => none) "default" (some ⟨some tokenNS, some [], some false, none⟩)

/-- The namespace actions of `clusterReducer`. -/
def addressedReducer (browser : Browser) (state : ClustersState) :
    NamespaceAction → Except Thrown ClustersState
  | .receiveNamespace cluster name => do
      match ← state.read cluster "namespaces" ClusterState.namespaces with
      | none => throw ⟨"includes"⟩
      | some namespaces =>
          if name ∈ namespaces then return state
          else return state.put cluster { state.spread cluster with
            namespaces := some (sortStrings (namespaces ++ [name])), error := none }
  | .receiveNamespaces cluster namespaces => do
      let currentNamespace ← state.read cluster "currentNamespace" ClusterState.currentNamespace
      return state.put cluster { state.spread cluster with
        namespaces := some namespaces
        currentNamespace := some (getCurrentNamespace browser cluster currentNamespace namespaces)
        error := none }
  | .setNamespaceState cluster ns =>
      return { state.put cluster { state.spread state.currentCluster with
        currentNamespace := some ns, error := none } with currentCluster := cluster }
  | .errorNamespaces cluster err op =>
      return state.put cluster { state.spread cluster with error := some (op, err) }
  | .setAllowCreate cluster allowed =>
      return state.put cluster { state.spread cluster with canCreateNS := some allowed }

/-- The groups of `/(?:\/c\/(?<cluster>[^/]*))?(?:\/ns\/(?<namespace>[^/]*))?/`, which matches at
    the beginning of every path. -/
def locationGroups (pathname : String) : Option String × Option String :=
  let segment (cs : List Char) := String.ofList (cs.takeWhile (· ≠ '/'))
  let (cluster, rest) : Option String × List Char :=
    match pathname.toList with
    | '/' :: 'c' :: '/' :: rest => (some (segment rest), rest.dropWhile (· ≠ '/'))
    | rest => (none, rest)
  match rest with
  | '/' :: 'n' :: 's' :: '/' :: rest => (cluster, some (segment rest))
  | _ => (cluster, none)

/-- The cluster that a path selects. -/
def ClustersState.selected (state : ClustersState) (pathname : String) : String :=
  (truthy (locationGroups pathname).1).getD state.currentCluster

/-- `clusterReducer`. -/
def clusterReducer (tokenNS : String) (browser : Browser) (state : ClustersState) :
    ClusterAction → Except Thrown ClustersState
  | .addressed a => addressedReducer browser state a
  | .clearClusters => return { state with clusters := (initialClusters tokenNS).clusters }
  | .locationChange pathname => do
      let currentCluster := state.selected pathname
      let currentNamespace ←
        match truthy (locationGroups pathname).2 with
        | some ns => pure (some ns)
        | none => state.read currentCluster "currentNamespace" ClusterState.currentNamespace
      return { state.put currentCluster { state.spread currentCluster with
        currentNamespace := currentNamespace } with currentCluster := currentCluster }
  | .receiveConfig first rest =>
      return { state with
        currentCluster := first
        clusters := fun cluster =>
          if cluster ∈ first :: rest then some ⟨some "", some [], some false, none⟩ else none }
  | .other => return state

/-! ## What an action leaves alone -/

/-- The state after an action. -/
def ClustersState.after (browser : Browser) (state : ClustersState) (a : NamespaceAction) :
    ClustersState :=
  match addressedReducer browser state a with
  | .ok state' => state'
  | .error _ => state

/-- No other cluster is changed, and `setNamespaceState` changes the namespace and the error of its
    own cluster only. -/
def Framed (state state' : ClustersState) (a : NamespaceAction) : Prop :=
  (∀ cluster, cluster ≠ a.cluster → state'.clusters cluster = state.clusters cluster) ∧
    ∀ cluster ns, a = .setNamespaceState cluster ns →
      (state'.spread cluster).namespaces = (state.spread cluster).namespaces ∧
        (state'.spread cluster).canCreateNS = (state.spread cluster).canCreateNS

/-- The current cluster has what `setNamespaceState` leaves to the cluster that it is for. -/
def SameLists (state : ClustersState) : NamespaceAction → Prop
  | .setNamespaceState cluster _ =>
      (state.spread state.currentCluster).namespaces = (state.spread cluster).namespaces ∧
        (state.spread state.currentCluster).canCreateNS = (state.spread cluster).canCreateNS
  | _ => True

theorem put_self (state : ClustersState) (cluster : String) (entry : ClusterState) :
    (state.put cluster entry).clusters cluster = some entry := Function.update_self ..

theorem put_of_ne {state : ClustersState} {cluster cluster' : String} (h : cluster' ≠ cluster)
    (entry : ClusterState) : (state.put cluster entry).clusters cluster' = state.clusters cluster' :=
  Function.update_of_ne h ..

theorem entry_of_some {state : ClustersState} {cluster : String} {entry : ClusterState}
    (h : state.clusters cluster = some entry) : state.entry cluster = some entry := by
  unfold ClustersState.entry
  rw [h]

theorem spread_of_some {state : ClustersState} {cluster : String} {entry : ClusterState}
    (h : state.clusters cluster = some entry) : state.spread cluster = entry := by
  unfold ClustersState.spread
  rw [entry_of_some h]
  rfl

theorem read_of_some {α : Type} {state : ClustersState} {cluster : String} {entry : ClusterState}
    (h : state.clusters cluster = some entry) (property : String) (field : ClusterState → α) :
    state.read cluster property field = .ok (field entry) := by
  unfold ClustersState.read
  rw [entry_of_some h]

/-- An action changes nothing, or puts one entry for its cluster. -/
theorem addressed_cases {browser : Browser} {state state' : ClustersState} {a : NamespaceAction}
    (h : addressedReducer browser state a = .ok state') :
    state' = state ∨ ∃ entry, state'.clusters = (state.put a.cluster entry).clusters := by
  cases a with
  | receiveNamespace cluster name =>
      obtain ⟨namespaces, _, h⟩ := bind_eq_ok h
      cases namespaces with
      | none => exact absurd h (by simp [throw, throwThe, MonadExceptOf.throw])
      | some namespaces =>
          dsimp only at h
          split at h
          · exact Or.inl (Except.ok.inj h).symm
          · rw [← Except.ok.inj h]
            exact Or.inr ⟨_, rfl⟩
  | receiveNamespaces cluster namespaces =>
      obtain ⟨currentNamespace, _, h⟩ := bind_eq_ok h
      rw [← Except.ok.inj h]
      exact Or.inr ⟨_, rfl⟩
  | setNamespaceState cluster ns =>
      rw [← Except.ok.inj h]
      exact Or.inr ⟨_, rfl⟩
  | errorNamespaces cluster err op =>
      rw [← Except.ok.inj h]
      exact Or.inr ⟨_, rfl⟩
  | setAllowCreate cluster allowed =>
      rw [← Except.ok.inj h]
      exact Or.inr ⟨_, rfl⟩

theorem after_other {browser : Browser} {state : ClustersState} {a : NamespaceAction}
    {cluster : String} (h : cluster ≠ a.cluster) :
    (state.after browser a).clusters cluster = state.clusters cluster := by
  unfold ClustersState.after
  split
  · rename_i state' hstate
    rcases addressed_cases hstate with rfl | ⟨entry, hentry⟩
    · rfl
    · rw [hentry]
      exact put_of_ne h entry
  · rfl

theorem after_setNamespaceState (browser : Browser) (state : ClustersState) (cluster ns : String) :
    (state.after browser (.setNamespaceState cluster ns)).spread cluster =
      { state.spread state.currentCluster with currentNamespace := some ns, error := none } :=
  spread_of_some (put_self state cluster _)

/-- The other clusters are left alone always, and `setNamespaceState` leaves the lists of its own
    cluster alone exactly if the current cluster has the same. -/
theorem addressed_frame_iff (browser : Browser) (state : ClustersState) (a : NamespaceAction) :
    Framed state (state.after browser a) a ↔ SameLists state a := by
  have hother : ∀ cluster, cluster ≠ a.cluster →
      (state.after browser a).clusters cluster = state.clusters cluster :=
    fun cluster h => after_other h
  constructor
  · intro ⟨_, hown⟩
    cases a with
    | setNamespaceState cluster ns =>
        have hlists := hown cluster ns rfl
        rw [after_setNamespaceState] at hlists
        exact hlists
    | receiveNamespace cluster name => trivial
    | receiveNamespaces cluster namespaces => trivial
    | errorNamespaces cluster err op => trivial
    | setAllowCreate cluster allowed => trivial
  · intro hsame
    refine ⟨hother, ?_⟩
    intro cluster ns ha
    rw [ha] at hsame ⊢
    rw [after_setNamespaceState]
    exact hsame

/-- Two clusters with namespaces of their own. -/
def twoClusters : ClustersState where
  currentCluster := "default"
  clusters := Function.update
    (Function.update (fun _ => none) "second" (some ⟨some "web", some ["web"], some false, none⟩))
    "default" (some ⟨some "team", some ["kubeapps", "team"], some true, none⟩)

/-- A browser with an empty local storage and no token. -/
def Browser.fresh : Browser := ⟨fun _ => none, ""⟩

/-- Selecting the second cluster gives it the namespaces and the rights of the first. -/
theorem setNamespaceState_takes_lists :
    (twoClusters.clusters "second").isSome = true ∧
      ((twoClusters.after .fresh (.setNamespaceState "second" "web")).clusters "second") =
        some ⟨some "web", some ["kubeapps", "team"], some true, none⟩ ∧
      ¬ Framed twoClusters (twoClusters.after .fresh (.setNamespaceState "second" "web"))
        (.setNamespaceState "second" "web") := by
  refine ⟨rfl, rfl, ?_⟩
  intro ⟨_, hown⟩
  have hlists := (hown "second" "web" rfl).1
  exact absurd hlists (by decide)

/-! ## Runs -/

/-- The store, and whether a reducer has thrown. -/
structure ClusterStore where
  state : ClustersState
  thrown : Bool

/-- An action is dispatched, with what the browser has at that time. -/
def dispatchCluster (tokenNS : String) (store : ClusterStore) (label : Browser × ClusterAction) :
    Option ClusterStore :=
  match clusterReducer tokenNS label.1 store.state label.2 with
  | .ok state => some { store with state := state }
  | .error _ => some { store with thrown := true }

def ClusterStore.init (tokenNS : String) : ClusterStore := ⟨initialClusters tokenNS, false⟩

/-- An entry with a list of namespaces and a flag. -/
def ClusterState.Complete (entry : ClusterState) : Prop :=
  entry.namespaces.isSome = true ∧ entry.canCreateNS.isSome = true

/-- The current cluster has an entry, and every entry is complete. -/
def ClustersState.Usable (state : ClustersState) : Prop :=
  (state.clusters state.currentCluster).isSome = true ∧
    ∀ cluster entry, state.clusters cluster = some entry → entry.Complete

def ClusterStore.Usable (store : ClusterStore) : Prop :=
  store.state.Usable ∧ store.thrown = false

/-- The clusters that an action reads are there. -/
def Present (state : ClustersState) : ClusterAction → Prop
  | .addressed (.setNamespaceState _ _) => True
  | .addressed a => (state.clusters a.cluster).isSome = true
  | .clearClusters => state.currentCluster = "default"
  | .locationChange pathname => (state.clusters (state.selected pathname)).isSome = true
  | .receiveConfig _ _ => True
  | .other => True

theorem initialClusters_of_ne (tokenNS : String) {cluster : String} (h : cluster ≠ "default") :
    (initialClusters tokenNS).clusters cluster = none := by
  unfold initialClusters
  dsimp only
  rw [Function.update_of_ne h]

theorem complete_initial (tokenNS : String) : ∀ cluster entry,
    (initialClusters tokenNS).clusters cluster = some entry → entry.Complete := by
  intro cluster entry hentry
  by_cases heq : cluster = "default"
  · rw [heq] at hentry
    rw [← Option.some.inj hentry]
    exact ⟨rfl, rfl⟩
  · rw [initialClusters_of_ne tokenNS heq] at hentry
    exact absurd hentry (by simp)

section Usable

variable {tokenNS : String} {browser : Browser} {state state' : ClustersState} {a : ClusterAction}

theorem usable_put (h : ∀ cluster entry, state.clusters cluster = some entry → entry.Complete)
    {cluster : String} {entry : ClusterState} (hentry : entry.Complete) :
    ∀ cluster' entry', (state.put cluster entry).clusters cluster' = some entry' →
      entry'.Complete :=
  fun cluster' entry' => forall_update h (fun _ heq => Option.some.inj heq ▸ hentry) cluster' entry'

theorem complete_spread (h : state.Usable) {cluster : String}
    (hcluster : (state.clusters cluster).isSome = true) : (state.spread cluster).Complete := by
  obtain ⟨entry, hentry⟩ := Option.isSome_iff_exists.mp hcluster
  rw [spread_of_some hentry]
  exact h.2 cluster entry hentry

/-- Putting an entry for a cluster keeps the current one. -/
theorem isSome_put {cluster : String} (hcluster : (state.clusters cluster).isSome = true)
    (cluster' : String) (entry : ClusterState) :
    ((state.put cluster' entry).clusters cluster).isSome = true := by
  by_cases heq : cluster = cluster'
  · rw [heq, put_self]
    rfl
  · rw [put_of_ne heq]
    exact hcluster

theorem usable_of_put {cluster : String} {entry : ClusterState} (h : state.Usable)
    (hentry : entry.Complete) : (state.put cluster entry).Usable :=
  ⟨isSome_put h.1 cluster entry, usable_put h.2 hentry⟩

/-- Selecting the cluster of an entry that is put. -/
theorem usable_of_select {cluster : String} {entry : ClusterState} (h : state.Usable)
    (hentry : entry.Complete) :
    { state.put cluster entry with currentCluster := cluster }.Usable :=
  ⟨congrArg Option.isSome (put_self state cluster entry), usable_put h.2 hentry⟩

theorem selected_isSome (h : state.Usable) {pathname : String}
    (hcluster : truthy (locationGroups pathname).1 = none) :
    (state.clusters (state.selected pathname)).isSome = true := by
  unfold ClustersState.selected
  rw [hcluster]
  exact h.1

/-- An action whose clusters are there does not throw, and keeps the state usable. -/
theorem usable_step (h : state.Usable) (hpresent : Present state a) :
    ∃ state', clusterReducer tokenNS browser state a = .ok state' ∧ state'.Usable := by
  cases a with
  | addressed a =>
      cases a with
      | receiveNamespace cluster name =>
          have hcluster : (state.clusters cluster).isSome = true := hpresent
          obtain ⟨entry, hentry⟩ := Option.isSome_iff_exists.mp hcluster
          obtain ⟨hnamespaces, hcreate⟩ := h.2 cluster entry hentry
          obtain ⟨namespaces, hsome⟩ := Option.isSome_iff_exists.mp hnamespaces
          show ∃ state', (state.read cluster "namespaces" ClusterState.namespaces >>= _) = _ ∧ _
          rw [read_of_some hentry, hsome]
          by_cases hmem : name ∈ namespaces
          · exact ⟨state, if_pos hmem, h⟩
          · refine ⟨_, if_neg hmem, usable_of_put h ⟨rfl, ?_⟩⟩
            exact (complete_spread h hpresent).2
      | receiveNamespaces cluster namespaces =>
          have hcluster : (state.clusters cluster).isSome = true := hpresent
          obtain ⟨entry, hentry⟩ := Option.isSome_iff_exists.mp hcluster
          show ∃ state', (state.read cluster "currentNamespace" ClusterState.currentNamespace >>= _) =
            _ ∧ _
          rw [read_of_some hentry]
          exact ⟨_, rfl, usable_of_put h ⟨rfl, (complete_spread h hpresent).2⟩⟩
      | setNamespaceState cluster ns =>
          exact ⟨_, rfl, usable_of_select h (complete_spread h h.1)⟩
      | errorNamespaces cluster err op =>
          exact ⟨_, rfl, usable_of_put h (complete_spread h hpresent)⟩
      | setAllowCreate cluster allowed =>
          exact ⟨_, rfl, usable_of_put h ⟨(complete_spread h hpresent).1, rfl⟩⟩
  | clearClusters =>
      refine ⟨_, rfl, ?_, ?_⟩
      · show ((initialClusters tokenNS).clusters state.currentCluster).isSome = true
        rw [show state.currentCluster = "default" from hpresent]
        rfl
      · exact complete_initial tokenNS
  | locationChange pathname =>
      obtain ⟨entry, hentry⟩ := Option.isSome_iff_exists.mp hpresent
      have hcomplete := complete_spread h hpresent
      unfold clusterReducer
      dsimp only
      cases truthy (locationGroups pathname).2 with
      | some ns => exact ⟨_, rfl, usable_of_select h hcomplete⟩
      | none =>
          dsimp only
          rw [read_of_some hentry]
          exact ⟨_, rfl, usable_of_select h hcomplete⟩
  | receiveConfig first rest =>
      refine ⟨_, rfl, ?_, ?_⟩
      · exact congrArg Option.isSome (if_pos List.mem_cons_self)
      · intro cluster entry hentry
        dsimp only at hentry
        split at hentry
        · rw [← Option.some.inj hentry]
          exact ⟨rfl, rfl⟩
        · exact absurd hentry (by simp)
  | other => exact ⟨state, rfl, h⟩

theorem spread_of_none {cluster : String} (h : ¬ (state.clusters cluster).isSome = true) :
    state.spread cluster = .empty := by
  have hnone : state.clusters cluster = none := by simpa using h
  unfold ClustersState.spread ClustersState.entry
  rw [hnone]
  dsimp only
  split <;> rfl

theorem read_of_none {α : Type} {cluster property : String} {field : ClusterState → α} {value : α}
    (h : ¬ (state.clusters cluster).isSome = true)
    (hread : state.read cluster property field = .ok value) : value = field .empty := by
  have hempty := spread_of_none h
  unfold ClustersState.spread at hempty
  unfold ClustersState.read at hread
  cases hentry : state.entry cluster with
  | none =>
      rw [hentry] at hread
      exact absurd hread (by simp)
  | some entry =>
      rw [hentry] at hread hempty
      have heq : entry = .empty := hempty
      rw [heq] at hread
      exact (Except.ok.inj hread).symm

theorem not_usable_of_put {cluster : String} {entry : ClusterState} (hentry : ¬ entry.Complete)
    (hstate : state'.clusters = (state.put cluster entry).clusters) : ¬ state'.Usable := by
  intro h
  refine hentry (h.2 cluster entry ?_)
  rw [hstate]
  exact put_self state cluster entry

/-- An action whose cluster is not there throws, or leaves a state that is not usable. -/
theorem not_usable_step (hpresent : ¬ Present state a)
    (hstep : clusterReducer tokenNS browser state a = .ok state') : ¬ state'.Usable := by
  have hempty : ∀ {cluster : String}, ¬ (state.clusters cluster).isSome = true →
      state.spread cluster = .empty := fun hnone => spread_of_none hnone
  cases a with
  | addressed a =>
      cases a with
      | receiveNamespace cluster name =>
          obtain ⟨namespaces, hread, hstep⟩ := bind_eq_ok hstep
          have hcluster : ¬ (state.clusters cluster).isSome = true := hpresent
          rw [read_of_none hcluster hread] at hstep
          cases hstep
      | receiveNamespaces cluster namespaces =>
          have hcluster : ¬ (state.clusters cluster).isSome = true := hpresent
          obtain ⟨currentNamespace, _, hstep⟩ := bind_eq_ok hstep
          refine not_usable_of_put ?_ (congrArg ClustersState.clusters (Except.ok.inj hstep).symm)
          rw [hempty hcluster]
          exact fun hcomplete => Bool.noConfusion hcomplete.2
      | setNamespaceState cluster ns => exact absurd trivial hpresent
      | errorNamespaces cluster err op =>
          have hcluster : ¬ (state.clusters cluster).isSome = true := hpresent
          refine not_usable_of_put ?_ (congrArg ClustersState.clusters (Except.ok.inj hstep).symm)
          rw [hempty hcluster]
          exact fun hcomplete => Bool.noConfusion hcomplete.1
      | setAllowCreate cluster allowed =>
          have hcluster : ¬ (state.clusters cluster).isSome = true := hpresent
          refine not_usable_of_put ?_ (congrArg ClustersState.clusters (Except.ok.inj hstep).symm)
          rw [hempty hcluster]
          exact fun hcomplete => Bool.noConfusion hcomplete.1
  | clearClusters =>
      intro h
      rw [← Except.ok.inj hstep] at h
      have hnone := initialClusters_of_ne tokenNS hpresent
      have hcurrent : ((initialClusters tokenNS).clusters state.currentCluster).isSome = true := h.1
      rw [hnone] at hcurrent
      exact Bool.noConfusion hcurrent
  | locationChange pathname =>
      have hput : ∃ currentNamespace, state'.clusters = (state.put (state.selected pathname)
          { state.spread (state.selected pathname) with
            currentNamespace := currentNamespace }).clusters := by
        unfold clusterReducer at hstep
        dsimp only at hstep
        cases hns : truthy (locationGroups pathname).2 with
        | some ns =>
            rw [hns] at hstep
            rw [← Except.ok.inj hstep]
            exact ⟨_, rfl⟩
        | none =>
            rw [hns] at hstep
            obtain ⟨currentNamespace, _, hstep⟩ := bind_eq_ok hstep
            rw [← Except.ok.inj hstep]
            exact ⟨_, rfl⟩
      obtain ⟨currentNamespace, hstate⟩ := hput
      refine not_usable_of_put ?_ hstate
      rw [hempty hpresent]
      exact fun hcomplete => Bool.noConfusion hcomplete.1
  | receiveConfig first rest => exact absurd trivial hpresent
  | other => exact absurd trivial hpresent

end Usable

theorem dispatchCluster_isSome (tokenNS : String) (store : ClusterStore)
    (label : Browser × ClusterAction) : ∃ store', dispatchCluster tokenNS store label = some store' := by
  unfold dispatchCluster
  split
  · exact ⟨_, rfl⟩
  · exact ⟨_, rfl⟩

/-- Everything can be dispatched. -/
theorem exists_clusterRun (tokenNS : String) (store : ClusterStore)
    (labels : List (Browser × ClusterAction)) :
    ∃ store', runs (dispatchCluster tokenNS) store labels = some store' := by
  induction labels generalizing store with
  | nil => exact ⟨store, rfl⟩
  | cons label labels ih =>
      obtain ⟨store', hstore⟩ := dispatchCluster_isSome tokenNS store label
      obtain ⟨store'', hrun⟩ := ih store'
      exact ⟨store'', runs_cons_eq_some.2 ⟨store', hstore, hrun⟩⟩

theorem usable_init (tokenNS : String) : (ClusterStore.init tokenNS).Usable := by
  exact ⟨⟨rfl, complete_initial tokenNS⟩, rfl⟩

/-- The runs without a state that is not usable, and without a throw, are those whose actions find
    their clusters. -/
theorem always_usable_iff (tokenNS : String) (labels : List (Browser × ClusterAction)) :
    Always (dispatchCluster tokenNS) ClusterStore.Usable (.init tokenNS) labels ↔
      StepsMeet (dispatchCluster tokenNS) (fun store label => Present store.state label.2)
        (.init tokenNS) labels := by
  obtain ⟨store, hrun⟩ := exists_clusterRun tokenNS (.init tokenNS) labels
  refine always_iff_stepsMeet (fun _ h => h) ?_ ?_ hrun (usable_init tokenNS)
  · intro st label st' h hpresent hstep
    obtain ⟨state', hstate, husable⟩ := usable_step h.1 hpresent
    unfold dispatchCluster at hstep
    rw [hstate] at hstep
    rw [← Option.some.inj hstep]
    exact ⟨husable, h.2⟩
  · intro st label st' _ hpresent hstep husable
    unfold dispatchCluster at hstep
    split at hstep
    · rename_i state' hstate
      rw [← Option.some.inj hstep] at husable
      exact not_usable_step hpresent hstate husable.1
    · rw [← Option.some.inj hstep] at husable
      exact Bool.noConfusion husable.2

/-- Clearing the clusters keeps the name of a cluster that is gone, and the next change of the
    location throws. -/
theorem clearClusters_throws :
    runs (dispatchCluster "") (.init "") [(.fresh, .receiveConfig "prod" []),
        (.fresh, .clearClusters), (.fresh, .locationChange "/login")] =
      some ⟨{ initialClusters "" with currentCluster := "prod" }, true⟩ ∧
    ¬ Always (dispatchCluster "") ClusterStore.Usable (.init "")
      [(.fresh, .receiveConfig "prod" []), (.fresh, .clearClusters),
        (.fresh, .locationChange "/login")] := by
  have hrun : runs (dispatchCluster "") (.init "") [(.fresh, .receiveConfig "prod" []),
      (.fresh, .clearClusters), (.fresh, .locationChange "/login")] =
        some ⟨{ initialClusters "" with currentCluster := "prod" }, true⟩ := rfl
  refine ⟨hrun, fun hall => ?_⟩
  exact Bool.noConfusion (hall _ _ List.prefix_rfl hrun).2

end Kubeapps.Dashboard
