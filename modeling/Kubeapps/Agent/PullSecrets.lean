/-
  What `DockerSecretsPostRenderer.Run` does to the manifests.

  `podSpecsOf` lists the pod specs of a list of documents, `mapPodSpecs f` applies `f` to each of
  them where it stands. The renderer is `mapPodSpecs` of `rendered`, which gives a pod spec the
  names it lists and then, each once, the secrets its containers use; where `rendered` cannot be
  computed the code panics.

  `run_adds_pull_secrets`: with pull secrets that are lists of mappings, the documents keep their
  number and order, nothing but the pull secrets of the pod specs changes, and a second run changes
  nothing.

  `documented_iff`: the file's comments leave invalid resources to the API server, but two
  assertions are unchecked. `Run` does what they say exactly if no pod spec with a list of
  containers has pull secrets that are something else.
-/
import Mathlib.Data.List.Basic
import Kubeapps.Agent.PostRenderer

namespace Kubeapps.Agent

open Kubeapps.Lib Kubeapps.Lib.Yaml

/-! ## The pod specs of the documents -/

/-- The pod specs, in the order the code reaches them. -/
def podSpecsOf : List Yaml → List Entries
  | [] => []
  | item :: rest =>
      match _h : resourceOf item with
      | .list _ items => podSpecsOf items ++ podSpecsOf rest
      | .pod resource keys => (getMap keys resource).toList ++ podSpecsOf rest
      | .skipped => podSpecsOf rest
termination_by docs => sizeOf docs
decreasing_by
  all_goals simp only [List.cons.sizeOf_spec]
  · have := sizeOf_items _h
    omega
  all_goals omega

/-- Apply `f` to every pod spec. -/
def mapPodSpecs (f : Entries → Entries) : List Yaml → List Yaml
  | [] => []
  | item :: rest =>
      match _h : resourceOf item with
      | .list resource items =>
          .map (set "items" (.seq (mapPodSpecs f items)) resource) :: mapPodSpecs f rest
      | .pod resource keys => .map (updateMap f keys resource) :: mapPodSpecs f rest
      | .skipped => item :: mapPodSpecs f rest
termination_by docs => sizeOf docs
decreasing_by
  all_goals simp only [List.cons.sizeOf_spec]
  · have := sizeOf_items _h
    omega
  all_goals omega

theorem resourceOf_pod {item : Yaml} {m : Entries} {keys : List String}
    (h : resourceOf item = .pod m keys) :
    item = .map m ∧ ∃ kind p, get "kind" m = some (.scalar (.str kind)) ∧ get "items" m = none ∧
      podSpecKeys kind = some keys ∧ getMap keys m = some p := by
  unfold resourceOf getResourcePodSpec at h
  grind

theorem resourceOf_list_kind {item : Yaml} {m : Entries} {items : List Yaml}
    (h : resourceOf item = .list m items) :
    ∃ kind, get "kind" m = some (.scalar (.str kind)) := by
  unfold resourceOf at h
  grind

/-- No path to a pod spec goes through the keys that say what the resource is. -/
theorem podSpecKeys_cons {kind : String} {keys : List String} (h : podSpecKeys kind = some keys) :
    ∃ key rest, keys = key :: rest ∧ "kind" ≠ key ∧ "items" ≠ key := by
  unfold podSpecKeys at h
  split at h
  case h_10 => exact nomatch h
  all_goals
    rw [← Option.some.inj h]
    exact ⟨_, _, rfl, by simp, by simp⟩

/-- A list is the same list with other items. -/
theorem resourceOf_set_items {item : Yaml} {m : Entries} {items : List Yaml}
    (h : resourceOf item = .list m items) (items' : List Yaml) :
    resourceOf (.map (set "items" (.seq items') m)) =
      .list (set "items" (.seq items') m) items' := by
  obtain ⟨kind, hkind⟩ := resourceOf_list_kind h
  have hkind' : get "kind" (set "items" (.seq items') m) = some (.scalar (.str kind)) := by
    rw [get_set_of_ne (by simp), hkind]
  simp only [resourceOf, hkind', get_set_self]

/-- A resource has its pod spec where it was, whatever it now is. -/
theorem resourceOf_updateMap {item : Yaml} {m : Entries} {keys : List String}
    (h : resourceOf item = .pod m keys) (f : Entries → Entries) :
    resourceOf (.map (updateMap f keys m)) = .pod (updateMap f keys m) keys := by
  obtain ⟨-, kind, p, hkind, hitems, hkeys, hp⟩ := resourceOf_pod h
  have hp' : getResourcePodSpec kind (updateMap f keys m) = some (f p) := by
    unfold getResourcePodSpec
    rw [hkeys]
    exact getMap_updateMap hp f
  obtain ⟨key, rest, rfl, hne, hne'⟩ := podSpecKeys_cons hkeys
  have hkind' : get "kind" (updateMap f (key :: rest) m) = some (.scalar (.str kind)) := by
    rw [get_updateMap_of_ne hne, hkind]
  have hitems' : get "items" (updateMap f (key :: rest) m) = none := by
    rw [get_updateMap_of_ne hne', hitems]
  simp only [resourceOf, hkind', hitems', hkeys, hp']

section Items

variable {item : Yaml} {m p : Entries} {items : List Yaml} {keys : List String}
  {update : Entries → Go Entries} {f g : Entries → Entries} (rest : List Yaml)

theorem podSpecsOf_cons (item : Yaml) :
    podSpecsOf (item :: rest) =
      match resourceOf item with
      | .list _ items => podSpecsOf items ++ podSpecsOf rest
      | .pod resource keys => (getMap keys resource).toList ++ podSpecsOf rest
      | .skipped => podSpecsOf rest := by
  rw [podSpecsOf]
  grind

theorem podSpecsOf_list (h : resourceOf item = .list m items) :
    podSpecsOf (item :: rest) = podSpecsOf items ++ podSpecsOf rest := by
  rw [podSpecsOf_cons, h]

theorem podSpecsOf_pod (h : resourceOf item = .pod m keys) (hp : getMap keys m = some p) :
    podSpecsOf (item :: rest) = p :: podSpecsOf rest := by
  rw [podSpecsOf_cons, h]
  dsimp only
  rw [hp]
  rfl

theorem podSpecsOf_skipped (h : resourceOf item = .skipped) :
    podSpecsOf (item :: rest) = podSpecsOf rest := by
  rw [podSpecsOf_cons, h]

theorem mapPodSpecs_cons (f : Entries → Entries) (item : Yaml) :
    mapPodSpecs f (item :: rest) =
      match resourceOf item with
      | .list resource items =>
          .map (set "items" (.seq (mapPodSpecs f items)) resource) :: mapPodSpecs f rest
      | .pod resource keys => .map (updateMap f keys resource) :: mapPodSpecs f rest
      | .skipped => item :: mapPodSpecs f rest := by
  rw [mapPodSpecs]
  grind

theorem mapPodSpecs_list (h : resourceOf item = .list m items) :
    mapPodSpecs f (item :: rest) =
      .map (set "items" (.seq (mapPodSpecs f items)) m) :: mapPodSpecs f rest := by
  rw [mapPodSpecs_cons, h]

theorem mapPodSpecs_pod (h : resourceOf item = .pod m keys) :
    mapPodSpecs f (item :: rest) = .map (updateMap f keys m) :: mapPodSpecs f rest := by
  rw [mapPodSpecs_cons, h]

theorem mapPodSpecs_skipped (h : resourceOf item = .skipped) :
    mapPodSpecs f (item :: rest) = item :: mapPodSpecs f rest := by
  rw [mapPodSpecs_cons, h]

theorem processItems_cons (update : Entries → Go Entries) (item : Yaml) :
    processItems update (item :: rest) =
      match resourceOf item with
      | .list resource items => do
          let items' ← processItems update items
          return .map (set "items" (.seq items') resource) :: (← processItems update rest)
      | .pod resource keys => do
          let resource' ← updateMapM update keys resource
          return .map resource' :: (← processItems update rest)
      | .skipped => return item :: (← processItems update rest) := by
  rw [processItems]
  grind

theorem processItems_list (h : resourceOf item = .list m items) :
    processItems update (item :: rest) = (do
      let items' ← processItems update items
      return .map (set "items" (.seq items') m) :: (← processItems update rest)) := by
  rw [processItems_cons, h]

theorem processItems_pod (h : resourceOf item = .pod m keys) :
    processItems update (item :: rest) = (do
      let m' ← updateMapM update keys m
      return .map m' :: (← processItems update rest)) := by
  rw [processItems_cons, h]

theorem processItems_skipped (h : resourceOf item = .skipped) :
    processItems update (item :: rest) = (do return item :: (← processItems update rest)) := by
  rw [processItems_cons, h]

theorem podSpecsOf_nil : podSpecsOf [] = [] := by rw [podSpecsOf]

theorem mapPodSpecs_nil (f : Entries → Entries) : mapPodSpecs f [] = [] := by rw [mapPodSpecs]

theorem processItems_nil (update : Entries → Go Entries) : processItems update [] = .ok [] := by
  rw [processItems]
  rfl

end Items

/-- The induction that follows the code through nested lists. -/
theorem items_induction {P : List Yaml → Prop} (hnil : P [])
    (hlist : ∀ item m items rest, resourceOf item = .list m items → P items → P rest →
      P (item :: rest))
    (hpod : ∀ item m keys p rest, resourceOf item = .pod m keys → getMap keys m = some p →
      P rest → P (item :: rest))
    (hskipped : ∀ item rest, resourceOf item = .skipped → P rest → P (item :: rest))
    (docs : List Yaml) : P docs := by
  induction docs using podSpecsOf.induct with
  | case1 => exact hnil
  | case2 item rest m items h ihitems ih => exact hlist item m items rest h ihitems ih
  | case3 item rest m keys h ih =>
      obtain ⟨-, kind, p, -, -, -, hp⟩ := resourceOf_pod h
      exact hpod item m keys p rest h hp ih
  | case4 item rest h ih => exact hskipped item rest h ih

/-! ## Laws -/

theorem length_mapPodSpecs (f : Entries → Entries) (docs : List Yaml) :
    (mapPodSpecs f docs).length = docs.length := by
  apply items_induction (P := fun docs => (mapPodSpecs f docs).length = docs.length)
  · rw [mapPodSpecs_nil]
  · intro item m items rest h _ ih
    rw [mapPodSpecs_list rest h, List.length_cons, List.length_cons, ih]
  · intro item m keys p rest h _ ih
    rw [mapPodSpecs_pod rest h, List.length_cons, List.length_cons, ih]
  · intro item rest h ih
    rw [mapPodSpecs_skipped rest h, List.length_cons, List.length_cons, ih]

theorem podSpecsOf_mapPodSpecs (f : Entries → Entries) (docs : List Yaml) :
    podSpecsOf (mapPodSpecs f docs) = (podSpecsOf docs).map f := by
  apply items_induction (P := fun docs => podSpecsOf (mapPodSpecs f docs) = (podSpecsOf docs).map f)
  · rw [mapPodSpecs_nil, podSpecsOf_nil]
    rfl
  · intro item m items rest h ihitems ih
    rw [mapPodSpecs_list rest h, podSpecsOf_list _ (resourceOf_set_items h _), ihitems, ih,
      podSpecsOf_list rest h, List.map_append]
  · intro item m keys p rest h hp ih
    rw [mapPodSpecs_pod rest h,
      podSpecsOf_pod _ (resourceOf_updateMap h f) (getMap_updateMap hp f), ih,
      podSpecsOf_pod rest h hp, List.map_cons]
  · intro item rest h ih
    rw [mapPodSpecs_skipped rest h, podSpecsOf_skipped _ h, ih, podSpecsOf_skipped rest h]

theorem mapPodSpecs_mapPodSpecs (f g : Entries → Entries) (docs : List Yaml) :
    mapPodSpecs g (mapPodSpecs f docs) = mapPodSpecs (g ∘ f) docs := by
  apply items_induction
    (P := fun docs => mapPodSpecs g (mapPodSpecs f docs) = mapPodSpecs (g ∘ f) docs)
  · rw [mapPodSpecs_nil, mapPodSpecs_nil, mapPodSpecs_nil]
  · intro item m items rest h ihitems ih
    rw [mapPodSpecs_list rest h, mapPodSpecs_list _ (resourceOf_set_items h _), set_set, ihitems,
      ih, mapPodSpecs_list rest h]
  · intro item m keys p rest h hp ih
    rw [mapPodSpecs_pod rest h, mapPodSpecs_pod _ (resourceOf_updateMap h f),
      updateMap_updateMap hp, ih, mapPodSpecs_pod rest h]
  · intro item rest h ih
    rw [mapPodSpecs_skipped rest h, mapPodSpecs_skipped _ h, ih, mapPodSpecs_skipped rest h]

/-- Where every pod spec is updated, the code maps the update. -/
theorem processItems_ok {update : Entries → Go Entries} {g : Entries → Entries} {docs : List Yaml}
    (h : ∀ p ∈ podSpecsOf docs, update p = .ok (g p)) :
    processItems update docs = .ok (mapPodSpecs g docs) := by
  revert h
  apply items_induction (P := fun docs => (∀ p ∈ podSpecsOf docs, update p = .ok (g p)) →
    processItems update docs = .ok (mapPodSpecs g docs))
  · intro _
    rw [processItems_nil, mapPodSpecs_nil]
  · intro item m items rest hitem ihitems ih h
    rw [podSpecsOf_list rest hitem] at h
    rw [processItems_list rest hitem, ihitems fun p hp => h p (List.mem_append_left _ hp),
      ih fun p hp => h p (List.mem_append_right _ hp), mapPodSpecs_list rest hitem]
    rfl
  · intro item m keys p rest hitem hp ih h
    rw [podSpecsOf_pod rest hitem hp] at h
    rw [processItems_pod rest hitem, updateMapM_ok hp (h p List.mem_cons_self),
      ih fun q hq => h q (List.mem_cons_of_mem _ hq), mapPodSpecs_pod rest hitem]
    rfl
  · intro item rest hitem ih h
    rw [podSpecsOf_skipped rest hitem] at h
    rw [processItems_skipped rest hitem, ih h, mapPodSpecs_skipped rest hitem]
    rfl

/-- Where the code gets through, every pod spec is updated. -/
theorem updated_of_processItems {update : Entries → Go Entries} {docs docs' : List Yaml}
    (h : processItems update docs = .ok docs') :
    ∀ p ∈ podSpecsOf docs, ∃ p', update p = .ok p' := by
  revert h docs'
  apply items_induction (P := fun docs => ∀ {docs' : List Yaml},
    processItems update docs = .ok docs' → ∀ p ∈ podSpecsOf docs, ∃ p', update p = .ok p')
  · intro _ _ p hp
    rw [podSpecsOf_nil] at hp
    exact absurd hp List.not_mem_nil
  · intro item m items rest hitem ihitems ih docs' h p hp
    rw [processItems_list rest hitem] at h
    obtain ⟨items', hitems, h⟩ := bind_eq_ok h
    obtain ⟨rest', hrest, -⟩ := bind_eq_ok h
    rw [podSpecsOf_list rest hitem, List.mem_append] at hp
    exact hp.elim (ihitems hitems p) (ih hrest p)
  · intro item m keys q rest hitem hq ih docs' h p hp
    rw [processItems_pod rest hitem] at h
    obtain ⟨m', hm, h⟩ := bind_eq_ok h
    obtain ⟨rest', hrest, -⟩ := bind_eq_ok h
    rw [podSpecsOf_pod rest hitem hq, List.mem_cons] at hp
    refine hp.elim (fun heq => ?_) (ih hrest p)
    rw [heq]
    cases hu : update q with
    | ok q' => exact ⟨q', rfl⟩
    | error e =>
        rw [updateMapM_error hq hu] at hm
        exact nomatch hm
  · intro item rest hitem ih docs' h p hp
    rw [processItems_skipped rest hitem] at h
    obtain ⟨rest', hrest, -⟩ := bind_eq_ok h
    rw [podSpecsOf_skipped rest hitem] at hp
    exact ih hrest p hp

/-- Otherwise it fails as one of the updates does. -/
theorem exists_of_processItems_error {update : Entries → Go Entries} {docs : List Yaml} {e : Fail}
    (h : processItems update docs = .error e) : ∃ p ∈ podSpecsOf docs, update p = .error e := by
  revert h
  apply items_induction (P := fun docs => processItems update docs = .error e →
    ∃ p ∈ podSpecsOf docs, update p = .error e)
  · intro h
    rw [processItems_nil] at h
    exact nomatch h
  · intro item m items rest hitem ihitems ih h
    rw [processItems_list rest hitem] at h
    rw [podSpecsOf_list rest hitem]
    obtain h | ⟨items', -, h⟩ := bind_eq_error h
    · obtain ⟨p, hp, hu⟩ := ihitems h
      exact ⟨p, List.mem_append_left _ hp, hu⟩
    · obtain h | ⟨rest', -, h⟩ := bind_eq_error h
      · obtain ⟨p, hp, hu⟩ := ih h
        exact ⟨p, List.mem_append_right _ hp, hu⟩
      · exact nomatch h
  · intro item m keys q rest hitem hq ih h
    rw [processItems_pod rest hitem] at h
    rw [podSpecsOf_pod rest hitem hq]
    obtain h | ⟨m', -, h⟩ := bind_eq_error h
    · refine ⟨q, List.mem_cons_self, ?_⟩
      cases hu : update q with
      | ok q' =>
          rw [updateMapM_ok hq (g := fun _ => q') hu] at h
          exact nomatch h
      | error e' =>
          rw [updateMapM_error hq hu] at h
          exact h
    · obtain h | ⟨rest', -, h⟩ := bind_eq_error h
      · obtain ⟨p, hp, hu⟩ := ih h
        exact ⟨p, List.mem_cons_of_mem _ hp, hu⟩
      · exact nomatch h
  · intro item rest hitem ih h
    rw [processItems_skipped rest hitem] at h
    rw [podSpecsOf_skipped rest hitem]
    obtain h | ⟨rest', -, h⟩ := bind_eq_error h
    · exact ih h
    · exact nomatch h

/-! ## One pod spec -/

/-- The string name of an entry that is a mapping. -/
def secretNameOf : Yaml → Option String
  | .map pullSecret => pullSecretName pullSecret
  | _ => none

/-- The string names that a pod spec lists. -/
def listedSecrets (podSpec : Entries) : List String :=
  match get "imagePullSecrets" podSpec with
  | some (.seq secrets) => secrets.filterMap secretNameOf
  | _ => []

/-- The names it lists, then each secret its containers use that is not one of them, in the order
    of first use. -/
def pullSecrets (imports : Imports) (r : DockerSecretsPostRenderer) (podSpec : Entries)
    (containers : List Yaml) : List String :=
  let listed := listedSecrets podSpec
  listed ++ ((containers.filterMap (containerSecret imports r)).filter (· ∉ listed)).eraseDups

/-- A pod spec with its pull secrets. -/
def rendered (imports : Imports) (r : DockerSecretsPostRenderer) (podSpec : Entries) : Entries :=
  match get "containers" podSpec with
  | some (.seq containers) =>
      let names := pullSecrets imports r podSpec containers
      if names = [] then podSpec else set "imagePullSecrets" (pullSecretList names) podSpec
  | _ => podSpec

/-- The pull secrets, where there are any, are a list of mappings. -/
def PullSecretsOk (podSpec : Entries) : Prop :=
  ∀ v, get "imagePullSecrets" podSpec = some v → ∃ maps : List Entries, v = .seq (maps.map .map)

def HasContainers (podSpec : Entries) : Prop :=
  ∃ containers, get "containers" podSpec = some (.seq containers)

/-- A loop that adds what is new. -/
theorem foldl_add_new {α : Type} [DecidableEq α] (names used : List α) :
    used.foldl (fun acc x => if x ∈ acc then acc else acc ++ [x]) names =
      names ++ (used.filter (· ∉ names)).eraseDups := by
  induction used generalizing names with
  | nil => simp
  | cons x used ih =>
      by_cases hx : x ∈ names
      · rw [List.foldl_cons, if_pos hx, ih, List.filter_cons_of_neg (by simpa using hx)]
      · rw [List.foldl_cons, if_neg hx, ih, List.filter_cons_of_pos (by simpa using hx),
          List.eraseDups_cons, List.filter_filter, List.append_assoc]
        have hfilter : used.filter (· ∉ names ++ [x]) =
            used.filter fun y => !y == x && decide (y ∉ names) := by
          apply List.filter_congr
          intro y _
          grind
        rw [hfilter]
        rfl

theorem append_new_of_subset {α : Type} [DecidableEq α] {names used : List α}
    (h : ∀ x ∈ used, x ∈ names) : names ++ (used.filter (· ∉ names)).eraseDups = names := by
  have hnil : used.filter (· ∉ names) = [] := by
    apply List.filter_eq_nil_iff.2
    intro x hx
    simpa using h x hx
  rw [hnil, List.eraseDups_nil, List.append_nil]

theorem foldl_addSecret (imports : Imports) (r : DockerSecretsPostRenderer) (containers : List Yaml)
    (names : List String) :
    containers.foldl (addSecret imports r) names =
      names ++
        ((containers.filterMap (containerSecret imports r)).filter (· ∉ names)).eraseDups := by
  rw [← foldl_add_new, List.foldl_filterMap]
  congr 1
  funext acc c
  unfold addSecret
  cases containerSecret imports r c <;> rfl

theorem pullSecretNames_cons (m : Entries) (rest : List Yaml) :
    pullSecretNames (.map m :: rest) =
      (do return (secretNameOf (.map m)).toList ++ (← pullSecretNames rest)) := by
  rw [pullSecretNames]
  congr 1
  funext names
  have hname : secretNameOf (.map m) = pullSecretName m := rfl
  rw [hname]
  cases pullSecretName m <;> rfl

theorem pullSecretNames_maps (maps : List Entries) :
    pullSecretNames (maps.map .map) = .ok ((maps.map Yaml.map).filterMap secretNameOf) := by
  induction maps with
  | nil => rfl
  | cons m maps ih =>
      rw [List.map_cons, pullSecretNames_cons, ih]
      cases h : secretNameOf (.map m) with
      | none =>
          rw [List.filterMap_cons_none h]
          rfl
      | some n =>
          rw [List.filterMap_cons_some h]
          rfl

theorem maps_of_pullSecretNames {secrets : List Yaml} {names : List String}
    (h : pullSecretNames secrets = .ok names) : ∃ maps : List Entries, secrets = maps.map .map := by
  induction secrets generalizing names with
  | nil => exact ⟨[], rfl⟩
  | cons s rest ih =>
      cases s with
      | map m =>
          obtain ⟨names', hnames, -⟩ := bind_eq_ok h
          obtain ⟨maps, hmaps⟩ := ih hnames
          exact ⟨m :: maps, by rw [hmaps, List.map_cons]⟩
      | scalar _ => exact nomatch h
      | seq _ => exact nomatch h

theorem not_errors_pullSecretNames (secrets : List Yaml) (msg : String) :
    pullSecretNames secrets ≠ errors msg := by
  induction secrets with
  | nil => exact fun h => nomatch h
  | cons s rest ih =>
      cases s with
      | map m =>
          intro h
          rw [pullSecretNames_cons] at h
          obtain h | ⟨names, -, h⟩ := bind_eq_error h
          · exact ih h
          · exact nomatch h
      | scalar _ => exact fun h => nomatch h
      | seq _ => exact fun h => nomatch h

section PodSpec

variable {imports : Imports} {r : DockerSecretsPostRenderer} {p : Entries}

theorem existingPullSecrets_ok (h : PullSecretsOk p) :
    existingPullSecrets p = .ok (listedSecrets p) := by
  unfold existingPullSecrets listedSecrets
  cases hv : get "imagePullSecrets" p with
  | none => rfl
  | some v =>
      obtain ⟨maps, rfl⟩ := h v hv
      exact pullSecretNames_maps maps

theorem pullSecretsOk_of_existing {names : List String} (h : existingPullSecrets p = .ok names) :
    PullSecretsOk p := by
  intro v hv
  unfold existingPullSecrets at h
  rw [hv] at h
  cases v with
  | seq secrets =>
      obtain ⟨maps, hmaps⟩ := maps_of_pullSecretNames h
      exact ⟨maps, by rw [hmaps]⟩
  | scalar _ => exact nomatch h
  | map _ => exact nomatch h

theorem update_of_containers {containers : List Yaml}
    (h : get "containers" p = some (.seq containers)) :
    updatePodSpecWithPullSecrets imports r p = (do
      let existing ← existingPullSecrets p
      let names := containers.foldl (addSecret imports r) existing
      return if 0 < names.length then set "imagePullSecrets" (pullSecretList names) p else p) := by
  unfold updatePodSpecWithPullSecrets
  rw [h]

theorem update_of_not_containers (h : ¬ HasContainers p) :
    updatePodSpecWithPullSecrets imports r p = .ok p := by
  unfold updatePodSpecWithPullSecrets
  split
  · rename_i containers hc
    exact absurd ⟨containers, hc⟩ h
  · rfl

theorem rendered_of_not_containers (h : ¬ HasContainers p) : rendered imports r p = p := by
  unfold rendered
  split
  · rename_i containers hc
    exact absurd ⟨containers, hc⟩ h
  · rfl

theorem rendered_of_containers {containers : List Yaml}
    (h : get "containers" p = some (.seq containers)) :
    rendered imports r p =
      if pullSecrets imports r p containers = [] then p
      else set "imagePullSecrets" (pullSecretList (pullSecrets imports r p containers)) p := by
  unfold rendered
  rw [h]

/-- What the code does to a pod spec that it accepts. -/
theorem update_ok (h : HasContainers p → PullSecretsOk p) :
    updatePodSpecWithPullSecrets imports r p = .ok (rendered imports r p) := by
  by_cases hc : HasContainers p
  · have hok := h hc
    obtain ⟨containers, hcontainers⟩ := hc
    have hnames : containers.foldl (addSecret imports r) (listedSecrets p) =
        pullSecrets imports r p containers := foldl_addSecret imports r containers (listedSecrets p)
    rw [update_of_containers hcontainers, existingPullSecrets_ok hok,
      rendered_of_containers hcontainers, ← hnames]
    dsimp only [bind, Except.bind]
    by_cases hnil : containers.foldl (addSecret imports r) (listedSecrets p) = []
    · rw [if_pos hnil, hnil]
      rfl
    · rw [if_neg hnil, if_pos (List.length_pos_iff.2 hnil)]
      rfl
  · rw [update_of_not_containers hc, rendered_of_not_containers hc]

/-- It accepts those whose pull secrets are a list of mappings. -/
theorem pullSecretsOk_of_update {p' : Entries}
    (h : updatePodSpecWithPullSecrets imports r p = .ok p') (hc : HasContainers p) :
    PullSecretsOk p := by
  obtain ⟨containers, hcontainers⟩ := hc
  rw [update_of_containers hcontainers] at h
  obtain ⟨existing, hexisting, -⟩ := bind_eq_ok h
  exact pullSecretsOk_of_existing hexisting

/-- An assertion is all that can fail. -/
theorem panics_of_update_error {e : Fail}
    (h : updatePodSpecWithPullSecrets imports r p = .error e) : ∃ msg, e = .panic msg := by
  cases e with
  | panic msg => exact ⟨msg, rfl⟩
  | error msg =>
      exfalso
      unfold updatePodSpecWithPullSecrets at h
      split at h
      · obtain h | ⟨existing, -, h⟩ := bind_eq_error h
        · unfold existingPullSecrets at h
          split at h
          · exact nomatch h
          · exact not_errors_pullSecretNames _ msg h
          · exact nomatch h
        · exact nomatch h
      · exact nomatch h

/-! ### Rendering twice -/

theorem listedSecrets_set (names : List String) :
    listedSecrets (set "imagePullSecrets" (pullSecretList names) p) = names := by
  unfold listedSecrets pullSecretList
  rw [get_set_self]
  dsimp only
  rw [List.filterMap_map]
  exact List.filterMap_some

/-- Every secret that the containers use is listed. -/
theorem mem_pullSecrets {containers : List Yaml} {s : String}
    (hs : s ∈ containers.filterMap (containerSecret imports r)) :
    s ∈ pullSecrets imports r p containers := by
  apply List.mem_append.2
  by_cases hlisted : s ∈ listedSecrets p
  · exact .inl hlisted
  · exact .inr (List.mem_eraseDups.2 (List.mem_filter.2 ⟨hs, by simpa using hlisted⟩))

theorem pullSecrets_set (containers : List Yaml) :
    pullSecrets imports r
      (set "imagePullSecrets" (pullSecretList (pullSecrets imports r p containers)) p)
      containers = pullSecrets imports r p containers := by
  let p' := set "imagePullSecrets" (pullSecretList (pullSecrets imports r p containers)) p
  let used := containers.filterMap (containerSecret imports r)
  calc pullSecrets imports r p' containers
      = listedSecrets p' ++ (used.filter (· ∉ listedSecrets p')).eraseDups := rfl
    _ = pullSecrets imports r p containers := by
        rw [listedSecrets_set]
        exact append_new_of_subset fun s hs => mem_pullSecrets hs

/-- A pod spec that has its pull secrets keeps them. -/
theorem rendered_rendered (imports : Imports) (r : DockerSecretsPostRenderer) (p : Entries) :
    rendered imports r (rendered imports r p) = rendered imports r p := by
  by_cases hc : HasContainers p
  · obtain ⟨containers, hcontainers⟩ := hc
    by_cases hnil : pullSecrets imports r p containers = []
    · have hsame : rendered imports r p = p := by
        rw [rendered_of_containers hcontainers, if_pos hnil]
      rw [hsame, hsame]
    · have hset : rendered imports r p =
          set "imagePullSecrets" (pullSecretList (pullSecrets imports r p containers)) p := by
        rw [rendered_of_containers hcontainers, if_neg hnil]
      have hcontainers' : get "containers"
          (set "imagePullSecrets" (pullSecretList (pullSecrets imports r p containers)) p) =
            some (.seq containers) := by
        rw [get_set_of_ne (by simp), hcontainers]
      rw [hset, rendered_of_containers hcontainers', pullSecrets_set, if_neg hnil, set_set]
  · rw [rendered_of_not_containers hc, rendered_of_not_containers hc]

theorem pullSecretsOk_rendered (h : PullSecretsOk p) : PullSecretsOk (rendered imports r p) := by
  unfold rendered
  split
  · dsimp only
    split
    · exact h
    · intro v hv
      rw [get_set_self] at hv
      rw [← Option.some.inj hv]
      exact ⟨_, by unfold pullSecretList; rw [List.map_map]; rfl⟩
  · exact h

/-- Pull secrets are all that is set. -/
theorem erase_rendered (imports : Imports) (r : DockerSecretsPostRenderer) (p : Entries) :
    erase "imagePullSecrets" (rendered imports r p) = erase "imagePullSecrets" p := by
  unfold rendered
  split
  · dsimp only
    split
    · rfl
    · exact erase_set _ _ p
  · rfl

end PodSpec

/-! ## `Run` -/

/-- The documents without the pull secrets of their pod specs. -/
def withoutPullSecrets : List Yaml → List Yaml := mapPodSpecs (erase "imagePullSecrets")

/-- The documents can be written, and what is written is read back. -/
def Imports.RoundTrips (imports : Imports) (docs : List Yaml) : Prop :=
  ∃ text, imports.encode docs = .ok text ∧ imports.decode text = .ok docs

section Run

variable {imports : Imports} {r : DockerSecretsPostRenderer} {input : String} {docs : List Yaml}

theorem processResourceList_ok (h : ∀ p ∈ podSpecsOf docs, HasContainers p → PullSecretsOk p) :
    processResourceList imports r docs = .ok (mapPodSpecs (rendered imports r) docs) :=
  processItems_ok fun p hp => update_ok (h p hp)

theorem pullSecretsOk_of_processResourceList {docs' : List Yaml}
    (h : processResourceList imports r docs = .ok docs') :
    ∀ p ∈ podSpecsOf docs, HasContainers p → PullSecretsOk p := by
  intro p hp hc
  obtain ⟨p', hp'⟩ := updated_of_processItems h p hp
  exact pullSecretsOk_of_update hp' hc

theorem run_of_decode (hsecrets : r.secrets ≠ []) (hdecode : imports.decode input = .ok docs) :
    run imports r input = (do
      let docs' ← processResourceList imports r docs
      liftErr (imports.encode docs')) := by
  unfold run
  rw [if_neg fun h => hsecrets (List.length_eq_zero_iff.1 h), hdecode]
  rfl

/-- The rest of a document is what it was. -/
theorem withoutPullSecrets_rendered (imports : Imports) (r : DockerSecretsPostRenderer)
    (docs : List Yaml) :
    withoutPullSecrets (mapPodSpecs (rendered imports r) docs) = withoutPullSecrets docs := by
  unfold withoutPullSecrets
  rw [mapPodSpecs_mapPodSpecs]
  congr 1
  funext p
  exact erase_rendered imports r p

/-- Rendered documents are rendered to themselves. -/
theorem processResourceList_rendered (h : ∀ p ∈ podSpecsOf docs, PullSecretsOk p) :
    processResourceList imports r (mapPodSpecs (rendered imports r) docs) =
      .ok (mapPodSpecs (rendered imports r) docs) := by
  have hok : ∀ p ∈ podSpecsOf (mapPodSpecs (rendered imports r) docs),
      HasContainers p → PullSecretsOk p := by
    intro p hp _
    rw [podSpecsOf_mapPodSpecs] at hp
    obtain ⟨q, hq, rfl⟩ := List.mem_map.1 hp
    exact pullSecretsOk_rendered (h q hq)
  have hidem : rendered imports r ∘ rendered imports r = rendered imports r := by
    funext p
    exact rendered_rendered imports r p
  rw [processResourceList_ok hok, mapPodSpecs_mapPodSpecs, hidem]

/-- With pull secrets that are lists of mappings: the documents keep their number and order and all
    but their pull secrets, each pod spec is `rendered`, and a second run returns its input. -/
theorem run_adds_pull_secrets (hsecrets : r.secrets ≠ [])
    (hdecode : imports.decode input = .ok docs)
    (hok : ∀ p ∈ podSpecsOf docs, PullSecretsOk p)
    (hround : ∀ docs', processResourceList imports r docs = .ok docs' → imports.RoundTrips docs') :
    ∃ output docs', run imports r input = .ok output ∧ imports.decode output = .ok docs' ∧
      docs'.length = docs.length ∧ withoutPullSecrets docs' = withoutPullSecrets docs ∧
      podSpecsOf docs' = (podSpecsOf docs).map (rendered imports r) ∧
      run imports r output = .ok output := by
  have hprocess : processResourceList imports r docs =
      .ok (mapPodSpecs (rendered imports r) docs) :=
    processResourceList_ok fun p hp _ => hok p hp
  obtain ⟨output, hencode, hdecode'⟩ := hround _ hprocess
  refine ⟨output, _, ?_, hdecode', length_mapPodSpecs _ docs,
    withoutPullSecrets_rendered imports r docs, podSpecsOf_mapPodSpecs _ docs, ?_⟩
  · rw [run_of_decode hsecrets hdecode, hprocess]
    exact congrArg liftErr hencode
  · rw [run_of_decode hsecrets hdecode', processResourceList_rendered hok]
    exact congrArg liftErr hencode

end Run

/-! ### One pod -/

/-- A pod with one container and what else its spec has. -/
def podDoc (more : Entries) : Yaml :=
  .map [(.str "kind", .scalar (.str "Pod")),
    (.str "spec", .map ((.str "containers", .seq [.map [(.str "image",
      .scalar (.str "registry.example.com/app:1.0"))]]) :: more))]

def podText : String :=
  "kind: Pod\nspec:\n  containers:\n  - image: registry.example.com/app:1.0\n"

def pulledText (name : String) : String :=
  podText ++ "  imagePullSecrets:\n  - name: " ++ name ++ "\n"

/-- The packages on this pod, before and after it is rendered, and with a key without a value. -/
def podImports : Imports where
  decode text :=
    if text = podText then .ok [podDoc []]
    else if text = pulledText "regcred" then
      .ok [podDoc [(.str "imagePullSecrets", pullSecretList ["regcred"])]]
    else if text = podText ++ "  imagePullSecrets:\n" then
      .ok [podDoc [(.str "imagePullSecrets", .scalar .null)]]
    else .error "yaml: unknown document"
  encode
    | [.map [(.str "kind", .scalar (.str "Pod")), (.str "spec", .map [(.str "containers", .seq
        [.map [(.str "image", .scalar (.str "registry.example.com/app:1.0"))]]),
        (.str "imagePullSecrets", .seq [.map [(.str "name", .scalar (.str name))]])])]] =>
          .ok (pulledText name)
    | _ => .error "yaml: unknown document"
  domain image :=
    if image = "registry.example.com/app:1.0" then some "registry.example.com" else none

def podRenderer : DockerSecretsPostRenderer where
  secrets := [("registry.example.com", "regcred")]

theorem podSpecsOf_podDoc (more : Entries) :
    podSpecsOf [podDoc more] = [(.str "containers", .seq [.map [(.str "image",
      .scalar (.str "registry.example.com/app:1.0"))]]) :: more] := by
  have h : resourceOf (podDoc more) = .pod _ ["spec"] := rfl
  rw [podSpecsOf_pod [] h rfl, podSpecsOf_nil]

theorem rendered_podDoc : mapPodSpecs (rendered podImports podRenderer) [podDoc []] =
    [podDoc [(.str "imagePullSecrets", pullSecretList ["regcred"])]] := by
  have h : resourceOf (podDoc []) = .pod _ ["spec"] := rfl
  rw [mapPodSpecs_pod [] h, mapPodSpecs_nil]
  rfl

theorem run_adds_pull_secrets_podDoc :
    ∃ output docs', run podImports podRenderer podText = .ok output ∧
      podImports.decode output = .ok docs' ∧ docs'.length = [podDoc []].length ∧
      withoutPullSecrets docs' = withoutPullSecrets [podDoc []] ∧
      podSpecsOf docs' = (podSpecsOf [podDoc []]).map (rendered podImports podRenderer) ∧
      run podImports podRenderer output = .ok output := by
  have hok : ∀ p ∈ podSpecsOf [podDoc []], PullSecretsOk p := by
    intro p hp v hv
    rw [podSpecsOf_podDoc, List.mem_singleton] at hp
    rw [hp] at hv
    exact nomatch hv
  refine run_adds_pull_secrets (by simp [podRenderer]) rfl hok ?_
  intro docs' h
  rw [processResourceList_ok fun p hp _ => hok p hp, rendered_podDoc] at h
  rw [← Except.ok.inj h]
  exact ⟨pulledText "regcred", rfl, rfl⟩

/-! ## Invalid resources -/

/-- A pod spec that the file's comments leave to the API server. -/
def Invalid (podSpec : Entries) : Prop := ¬ (HasContainers podSpec ∧ PullSecretsOk podSpec)

/-- The documented behaviour: no panic, an error only if the manifests cannot be parsed or written
    again, and resources that are not valid stay as they are. -/
structure Documented (imports : Imports) (r : DockerSecretsPostRenderer) (input : String) :
    Prop where
  not_panics : ¬ Panics (run imports r input)
  errors_only : ∀ msg, run imports r input = errors msg →
    imports.decode input = .error msg ∨ ∃ docs docs', imports.decode input = .ok docs ∧
      processResourceList imports r docs = .ok docs' ∧ imports.encode docs' = .error msg
  left : ∀ docs docs', imports.decode input = .ok docs →
    processResourceList imports r docs = .ok docs' →
      withoutPullSecrets docs' = withoutPullSecrets docs ∧
        List.Forall₂ (fun p p' => Invalid p → p' = p) (podSpecsOf docs) (podSpecsOf docs')

section Documented

variable {imports : Imports} {r : DockerSecretsPostRenderer} {input : String} {docs : List Yaml}

/-- A run over documents that the code gets through is as documented. -/
theorem documented_of_process (hsecrets : r.secrets ≠ [])
    (hdecode : imports.decode input = .ok docs)
    (h : ∀ p ∈ podSpecsOf docs, HasContainers p → PullSecretsOk p) :
    Documented imports r input := by
  have hprocess : processResourceList imports r docs =
      .ok (mapPodSpecs (rendered imports r) docs) := processResourceList_ok h
  have hrun : run imports r input =
      liftErr (imports.encode (mapPodSpecs (rendered imports r) docs)) := by
    rw [run_of_decode hsecrets hdecode, hprocess]
    rfl
  refine ⟨?_, ?_, ?_⟩
  · rw [hrun]
    exact not_panics_liftErr _
  · intro msg herror
    refine .inr ⟨docs, _, hdecode, hprocess, ?_⟩
    rw [hrun] at herror
    cases hencode : imports.encode (mapPodSpecs (rendered imports r) docs) with
    | ok text =>
        rw [hencode] at herror
        exact nomatch herror
    | error e =>
        rw [hencode] at herror
        rw [Fail.error.inj (Except.error.inj herror)]
  · intro docs₁ docs' hdocs₁ hdocs'
    rw [hdecode] at hdocs₁
    rw [← Except.ok.inj hdocs₁] at hdocs' ⊢
    rw [hprocess] at hdocs'
    rw [← Except.ok.inj hdocs', podSpecsOf_mapPodSpecs]
    refine ⟨withoutPullSecrets_rendered imports r docs, ?_⟩
    rw [List.forall₂_map_right_iff, List.forall₂_same]
    intro p hp hinvalid
    exact rendered_of_not_containers fun hc => hinvalid ⟨hc, h p hp hc⟩

/-- `Run` is as documented exactly if each pod spec whose containers are a list has no pull secrets
    or a list of mappings. -/
theorem documented_iff (hsecrets : r.secrets ≠ []) (hdecode : imports.decode input = .ok docs) :
    Documented imports r input ↔ ∀ p ∈ podSpecsOf docs, HasContainers p → PullSecretsOk p := by
  refine ⟨?_, documented_of_process hsecrets hdecode⟩
  intro h
  cases hprocess : processResourceList imports r docs with
  | ok docs' => exact pullSecretsOk_of_processResourceList hprocess
  | error e =>
      exfalso
      obtain ⟨p, -, hp⟩ := exists_of_processItems_error hprocess
      obtain ⟨msg, rfl⟩ := panics_of_update_error hp
      apply h.not_panics
      rw [run_of_decode hsecrets hdecode, hprocess]
      exact ⟨msg, rfl⟩

end Documented

theorem documented_podDoc : Documented podImports podRenderer podText ↔
    ∀ p ∈ podSpecsOf [podDoc []], HasContainers p → PullSecretsOk p :=
  documented_iff (by simp [podRenderer]) rfl

/-- A key without a value, which the decoder reads as a null, ends the process. -/
theorem empty_pull_secrets_panic :
    podImports.decode (podText ++ "  imagePullSecrets:\n") =
        .ok [podDoc [(.str "imagePullSecrets", .scalar .null)]] ∧
      run podImports podRenderer (podText ++ "  imagePullSecrets:\n") =
        panics "interface conversion: interface \x7b\x7d is nil, not []interface \x7b\x7d" ∧
      ¬ Documented podImports podRenderer (podText ++ "  imagePullSecrets:\n") := by
  have hdecode : podImports.decode (podText ++ "  imagePullSecrets:\n") =
      .ok [podDoc [(.str "imagePullSecrets", .scalar .null)]] := rfl
  have hrun : run podImports podRenderer (podText ++ "  imagePullSecrets:\n") =
      panics "interface conversion: interface \x7b\x7d is nil, not []interface \x7b\x7d" := by
    have h : resourceOf (podDoc [(.str "imagePullSecrets", .scalar .null)]) = .pod _ ["spec"] := rfl
    rw [run_of_decode (by simp [podRenderer]) hdecode]
    unfold processResourceList
    rw [processItems_pod [] h]
    rfl
  exact ⟨hdecode, hrun, fun h => h.not_panics ⟨_, hrun⟩⟩

end Kubeapps.Agent
