/-
  The resources of a release by kind (src/dashboard/src/components/AppView/AppView.tsx:
  parseResources).

  A manifest is a resource or a list of manifests, to any depth; what has `items` is a list,
  whatever its kind. Resources are pushed to their bucket in place, and a nested list is parsed on
  its own and concatenated bucket by bucket. `parseResources_get`: a bucket has the refs of the
  leaves of its kind, in the order of the leaves.
-/
import Kubeapps.Dashboard.Kube

namespace Kubeapps.Dashboard

open Kubeapps.Lib

/-! ## Manifests -/

/-- `IResource`: what a `ResourceRef` reads of it. -/
structure ManifestItem where
  apiVersion : String
  kind : String
  name : Option String
  ns : Option String
  deriving DecidableEq, Repr

/-- `IResource | IK8sList<IResource>`. -/
inductive Manifest where
  | resource (item : ManifestItem)
  | list (items : List Manifest)

/-- `IKind`. -/
structure ResourceKind where
  plural : String
  namespaced : Bool
  deriving DecidableEq, Repr

/-- `new ResourceRef(item, cluster, kind.plural, kind.namespaced, releaseNamespace)`. An unknown
    kind has neither; URLs print `undefined` for the plural. -/
def newResourceRef (kinds : String → Option ResourceKind) (cluster releaseNamespace : String)
    (item : ManifestItem) : ResourceRef :=
  let kind := kinds item.kind
  let namespaced := (kind.map ResourceKind.namespaced).getD false
  { cluster := cluster
    apiVersion := item.apiVersion
    plural := (kind.map ResourceKind.plural).getD "undefined"
    namespaced := namespaced
    ns := if namespaced = true then (truthy item.ns).getD releaseNamespace else ""
    name := item.name }

/-! ## Buckets -/

/-- The keys of `IAppViewResourceRefs`. -/
inductive Bucket where
  | deployments
  | statefulsets
  | daemonsets
  | services
  | ingresses
  | secrets
  | otherResources
  deriving DecidableEq, Repr

/-- `IAppViewResourceRefs`. -/
abbrev AppViewResourceRefs := Bucket → List ResourceRef

def allBuckets : List Bucket :=
  [.ingresses, .deployments, .statefulsets, .daemonsets, .otherResources, .services, .secrets]

/-- The bucket that the `switch` of `parseResources` chooses. -/
def bucketOf : String → Bucket
  | "Deployment" => .deployments
  | "StatefulSet" => .statefulsets
  | "DaemonSet" => .daemonsets
  | "Service" => .services
  | "Ingress" => .ingresses
  | "Secret" => .secrets
  | _ => .otherResources

def AppViewResourceRefs.push (result : AppViewResourceRefs) (b : Bucket) (ref : ResourceRef) :
    AppViewResourceRefs :=
  fun b' => if b' = b then result b' ++ [ref] else result b'

/-- `assignWith(result, source, (prev, newArray) => prev.concat(newArray))`. -/
def AppViewResourceRefs.assignWith (result source : AppViewResourceRefs) : AppViewResourceRefs :=
  fun b => result b ++ source b

section Parse

variable (ref : ManifestItem → ResourceRef)

mutual

/-- One turn of the loop of `parseResources`. -/
def parseResource : Manifest → AppViewResourceRefs → AppViewResourceRefs
  | .list items, result => result.assignWith (parseEach items fun _ => [])
  | .resource item, result => result.push (bucketOf item.kind) (ref item)

def parseEach : List Manifest → AppViewResourceRefs → AppViewResourceRefs
  | [], result => result
  | i :: rest, result => parseEach rest (parseResource i result)

end

end Parse

/-- `parseResources`. -/
def parseResources (resources : List Manifest) (kinds : String → Option ResourceKind)
    (cluster releaseNamespace : String) : AppViewResourceRefs :=
  parseEach (newResourceRef kinds cluster releaseNamespace) resources fun _ => []

/-! ## Leaves -/

mutual

/-- The resources of a manifest, from left to right. -/
def Manifest.leaves : Manifest → List ManifestItem
  | .resource item => [item]
  | .list items => leavesOf items

def leavesOf : List Manifest → List ManifestItem
  | [] => []
  | i :: rest => i.leaves ++ leavesOf rest

end

/-- The leaves of a bucket. -/
def ofBucket (b : Bucket) (leaves : List ManifestItem) : List ManifestItem :=
  leaves.filter fun item => bucketOf item.kind = b

theorem ofBucket_append (b : Bucket) (leaves leaves' : List ManifestItem) :
    ofBucket b (leaves ++ leaves') = ofBucket b leaves ++ ofBucket b leaves' :=
  List.filter_append ..

theorem push_apply (result : AppViewResourceRefs) (ref : ManifestItem → ResourceRef)
    (item : ManifestItem) (b : Bucket) :
    result.push (bucketOf item.kind) (ref item) b = result b ++ (ofBucket b [item]).map ref := by
  unfold AppViewResourceRefs.push ofBucket
  rw [List.filter_singleton]
  by_cases hb : bucketOf item.kind = b
  · rw [if_pos hb.symm, decide_eq_true hb]
    rfl
  · rw [if_neg (Ne.symm hb), decide_eq_false hb]
    exact (List.append_nil _).symm

section Parse

variable (ref : ManifestItem → ResourceRef) (b : Bucket)

mutual

/-- A manifest adds the refs of its leaves to their buckets. -/
theorem parseResource_apply (i : Manifest) (result : AppViewResourceRefs) :
    parseResource ref i result b = result b ++ (ofBucket b i.leaves).map ref := by
  cases i with
  | resource item =>
      rw [parseResource, Manifest.leaves]
      exact push_apply result ref item b
  | list items =>
      rw [parseResource, Manifest.leaves, AppViewResourceRefs.assignWith, parseEach_apply items]
      rfl

theorem parseEach_apply (resources : List Manifest) (result : AppViewResourceRefs) :
    parseEach ref resources result b = result b ++ (ofBucket b (leavesOf resources)).map ref := by
  cases resources with
  | nil =>
      rw [parseEach, leavesOf]
      exact (List.append_nil _).symm
  | cons i rest =>
      rw [parseEach, leavesOf, parseEach_apply rest, parseResource_apply i, ofBucket_append,
        List.map_append, List.append_assoc]

end

end Parse

/-! ## The buckets together -/

theorem mem_allBuckets (b : Bucket) : b ∈ allBuckets := by
  cases b <;> decide

/-- Sorted by `f` into distinct buckets, nothing is lost and nothing is there twice. -/
theorem perm_flatMap_filter {α β : Type} [DecidableEq β] (f : α → β) {bs : List β} {l : List α}
    (hbs : bs.Nodup) (hl : ∀ a ∈ l, f a ∈ bs) : (bs.flatMap fun b => l.filter (f · = b)).Perm l := by
  induction bs generalizing l with
  | nil =>
      cases l with
      | nil => exact List.Perm.refl _
      | cons a l => exact absurd (hl a List.mem_cons_self) List.not_mem_nil
  | cons b bs ih =>
      rw [List.nodup_cons] at hbs
      rw [List.flatMap_cons]
      -- what is not of the first bucket is of the others
      have hrest : ∀ a ∈ l.filter fun a => !decide (f a = b), f a ∈ bs := by
        intro a ha
        obtain ⟨hmem, hne⟩ := List.mem_filter.mp ha
        exact (List.mem_cons.mp (hl a hmem)).resolve_left (by simpa using hne)
      have hsame : (bs.flatMap fun b' => l.filter (f · = b')) =
          bs.flatMap fun b' => (l.filter fun a => !decide (f a = b)).filter (f · = b') := by
        apply List.flatMap_congr
        intro b' hb'
        rw [List.filter_filter]
        apply List.filter_congr
        intro a _
        by_cases ha : f a = b'
        · have hne : f a ≠ b := fun h => hbs.1 (by rwa [← h, ha])
          rw [decide_eq_true ha, decide_eq_false hne]
          rfl
        · rw [decide_eq_false ha]
          rfl
      rw [hsame]
      exact ((ih hbs.2 hrest).append_left _).trans (List.filter_append_perm _ l)

/-- Every leaf is in the bucket of its kind, in the order of the leaves, and the buckets together
    are the leaves. -/
theorem parseResources_sorted (resources : List Manifest) (kinds : String → Option ResourceKind)
    (cluster releaseNamespace : String) :
    (∀ b, parseResources resources kinds cluster releaseNamespace b =
      ((leavesOf resources).filter fun item => bucketOf item.kind = b).map
        (newResourceRef kinds cluster releaseNamespace)) ∧
    (allBuckets.flatMap (parseResources resources kinds cluster releaseNamespace)).Perm
      ((leavesOf resources).map (newResourceRef kinds cluster releaseNamespace)) := by
  have hget : ∀ b, parseResources resources kinds cluster releaseNamespace b =
      (ofBucket b (leavesOf resources)).map (newResourceRef kinds cluster releaseNamespace) :=
    fun b => parseEach_apply _ b resources _
  refine ⟨hget, ?_⟩
  have hperm := perm_flatMap_filter (fun item : ManifestItem => bucketOf item.kind)
    (l := leavesOf resources) (show allBuckets.Nodup by decide) fun item _ => mem_allBuckets _
  have hmap : allBuckets.flatMap (parseResources resources kinds cluster releaseNamespace) =
      (allBuckets.flatMap fun b => ofBucket b (leavesOf resources)).map
        (newResourceRef kinds cluster releaseNamespace) := by
    rw [List.map_flatMap]
    exact List.flatMap_congr fun b _ => hget b
  rw [hmap]
  exact hperm.map _

/-- A service between two deployments, the second in a list in a list. -/
example (ref : ManifestItem → ResourceRef) (first second service : ManifestItem)
    (h : first.kind = "Deployment") (h' : second.kind = "Deployment")
    (h'' : service.kind = "Service") :
    parseEach ref [.resource first, .list [.resource service, .list [.resource second]]]
      (fun _ => []) .deployments = [ref first, ref second] := by
  simp [parseEach, parseResource, AppViewResourceRefs.push, AppViewResourceRefs.assignWith,
    bucketOf, h, h', h'']

end Kubeapps.Dashboard
