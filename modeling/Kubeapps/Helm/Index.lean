/-
  `helm.ChartsFromIndex` (pkg/helm/index.go): the charts of an `index.yaml`.

  Decoding the bytes and `SortEntries` are Helm's and are parameters (`IndexLib`). `SortEntries`
  reads the version of every element it compares, so it may panic on a null element.

  An entry of the index is a Go slice of pointers, each to a struct with an embedded pointer
  to the metadata: the list, its elements and the metadata may each be missing, and the code
  indexes and dereferences all three. `copier.Copy` copies the fields of equal name.
-/
import Kubeapps.Lib.Go
import Kubeapps.Lib.Text
import Kubeapps.Models.Chart

namespace Kubeapps.Helm

open Kubeapps.Lib Kubeapps.Models

/-- `chart.Metadata`, the fields that are copied or read. -/
structure Metadata where
  name : String
  version : String
  description : String
  home : String
  keywords : List String
  maintainers : List Maintainer
  sources : List String
  icon : String
  appVersion : String
  deprecated : Bool
  annotations : List (String × String)
  deriving DecidableEq, Repr

/-- `repo.ChartVersion` of Helm. -/
structure EntryVersion where
  metadata : Option Metadata
  urls : List String
  created : String
  digest : String
  deriving DecidableEq, Repr

/-- The versions of one chart; a null element is `none`. -/
abbrev Entry := List (Option EntryVersion)

/-- `repo.IndexFile`: the entries by key. -/
structure IndexFile where
  entries : List (String × Entry)

/-- Helm's decoder and its `SortEntries`, on index contents of type `β`. -/
structure IndexLib (β : Type) where
  unmarshal : β → Except String IndexFile
  sortEntry : Entry → Go Entry

variable {β : Type}

/-- `parseRepoIndex`. -/
def parseRepoIndex (lib : IndexLib β) (contents : β) : Go (List (String × Entry)) := do
  let index ← liftErr (lib.unmarshal contents)
  index.entries.mapM fun (key, entry) => do return (key, ← lib.sortEntry entry)

/-- Dereference an element and its embedded metadata. -/
def deref : Option EntryVersion → Go (EntryVersion × Metadata)
  | some v =>
      match v.metadata with
      | some m => .ok (v, m)
      | none => panics "invalid memory address or nil pointer dereference"
  | none => panics "invalid memory address or nil pointer dereference"

/-- The `ChartVersion` `copier.Copy` makes of one element. -/
def chartVersion (v : EntryVersion) (m : Metadata) : ChartVersion where
  version := m.version
  appVersion := m.appVersion
  created := v.created
  digest := v.digest
  urls := v.urls
  readme := ""
  values := ""
  schema := ""

/-- `newChart`. The first element gives the fields of the chart; `shallow` keeps only the
    first version. -/
def newChart (entry : Entry) (r : Repo) (shallow : Bool) : Go Chart := do
  let (_, m) ← deref (← index0 entry)
  let versions ← (if shallow then entry.take 1 else entry).mapM fun e => do
    let (v, m) ← deref e
    return chartVersion v m
  let name := pathEscape m.name
  return {
    id := r.name ++ "/" ++ name
    name := name
    repo := r
    description := m.description
    home := m.home
    keywords := m.keywords
    maintainers := m.maintainers
    sources := m.sources
    icon := m.icon
    rawIcon := ""
    iconContentType := ""
    category := (lookup "category" m.annotations).getD ""
    chartVersions := versions }

/-- The loop of `ChartsFromIndex` over the entries, in the order they are visited. -/
def collectCharts (r : Repo) (shallow : Bool) : List (String × Entry) → Go (List Chart)
  | [] => .ok []
  | (_, entry) :: rest => do
      let (_, m) ← deref (← index0 entry)
      if m.deprecated then collectCharts r shallow rest
      else
        let c ← newChart entry r shallow
        let cs ← collectCharts r shallow rest
        return c :: cs

/-- `ChartsFromIndex`. -/
def chartsFromIndex (rt : Runtime) (lib : IndexLib β) (contents : β) (r : Repo)
    (shallow : Bool) : Go (List Chart) := do
  let entries ← parseRepoIndex lib contents
  let charts ← collectCharts r shallow (rt.range entries)
  return rt.sort (fun a b => decide (a.id < b.id)) charts

/-! ## What a returned chart looks like -/

/-- The id is `repo/name` with an escaped name; there is no stored icon yet. -/
theorem newChart_id {entry : Entry} {r : Repo} {shallow : Bool} {c : Chart}
    (h : newChart entry r shallow = .ok c) :
    (∃ m : Metadata, c.name = pathEscape m.name) ∧ c.id = r.name ++ "/" ++ c.name ∧
      c.repo = r ∧ c.rawIcon = "" ∧ c.iconContentType = "" := by
  unfold newChart at h
  obtain ⟨e, _, h⟩ := bind_eq_ok h
  obtain ⟨⟨_, m⟩, _, h⟩ := bind_eq_ok h
  obtain ⟨versions, _, h⟩ := bind_eq_ok h
  cases h
  exact ⟨⟨m, rfl⟩, rfl, rfl, rfl, rfl⟩

/-- `ChartVersions[0]` exists. -/
theorem newChart_versions {entry : Entry} {r : Repo} {shallow : Bool} {c : Chart}
    (h : newChart entry r shallow = .ok c) : c.chartVersions ≠ [] := by
  unfold newChart at h
  obtain ⟨e, he, h⟩ := bind_eq_ok h
  obtain ⟨⟨_, m⟩, _, h⟩ := bind_eq_ok h
  obtain ⟨versions, hversions, h⟩ := bind_eq_ok h
  have hc := Except.ok.inj h
  rw [← hc]
  cases entry with
  | nil => simp [index0, panics] at he
  | cons x rest =>
      have hcons : ∃ rest', (if shallow then (x :: rest).take 1 else x :: rest) = x :: rest' := by
        split
        · exact ⟨[], rfl⟩
        · exact ⟨rest, rfl⟩
      obtain ⟨rest', hrest'⟩ := hcons
      rw [hrest', List.mapM_cons] at hversions
      obtain ⟨v, _, hversions⟩ := bind_eq_ok hversions
      obtain ⟨vs, _, hversions⟩ := bind_eq_ok hversions
      have hvs := Except.ok.inj hversions
      rw [← hvs]
      exact List.cons_ne_nil v vs

theorem mem_collectCharts {r : Repo} {shallow : Bool} {entries : List (String × Entry)}
    {cs : List Chart} (h : collectCharts r shallow entries = .ok cs) {c : Chart} (hc : c ∈ cs) :
    ∃ entry, newChart entry r shallow = .ok c := by
  induction entries generalizing cs with
  | nil =>
      cases h
      cases hc
  | cons p rest ih =>
      obtain ⟨key, entry⟩ := p
      unfold collectCharts at h
      obtain ⟨e, _, h⟩ := bind_eq_ok h
      obtain ⟨⟨_, m⟩, _, h⟩ := bind_eq_ok h
      dsimp only at h
      split at h
      · exact ih h hc
      · obtain ⟨c', hc', h⟩ := bind_eq_ok h
        obtain ⟨cs', hcs', h⟩ := bind_eq_ok h
        cases h
        rcases List.mem_cons.mp hc with rfl | hc
        · exact ⟨entry, hc'⟩
        · exact ih hcs' hc

theorem mem_chartsFromIndex {rt : Runtime} {lib : IndexLib β} {contents : β} {r : Repo}
    {shallow : Bool} {cs : List Chart} (h : chartsFromIndex rt lib contents r shallow = .ok cs)
    {c : Chart} (hc : c ∈ cs) : ∃ entry, newChart entry r shallow = .ok c := by
  unfold chartsFromIndex at h
  obtain ⟨entries, _, h⟩ := bind_eq_ok h
  obtain ⟨charts, hcharts, h⟩ := bind_eq_ok h
  cases h
  exact mem_collectCharts hcharts ((rt.sort_perm _ _).mem_iff.mp hc)

end Kubeapps.Helm
