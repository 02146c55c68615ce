/-
  The charts that the store keeps of the pages it receives (src/dashboard/src/reducers/charts.ts:
  receiveCharts; cmd/assetsvc/handler.go: newChartResponse).

  A chart is known by the namespace and name of its repository and its own name, but its id, by
  which the reducer drops what it has already, leaves the namespace out.
-/
import Mathlib.Data.List.Induction
import Kubeapps.Dashboard.Charts
import Kubeapps.Helm.Index
import Kubeapps.Lib.Joined

namespace Kubeapps.Dashboard

open Kubeapps.Lib

/-! ## Pages -/

/-- A chart as the server lists it: its id is made by `newChart`, and its repository is a resource
    of the cluster. -/
structure ServedChart where
  chart : Models.Chart
  id_eq : chart.id = chart.repo.name ++ "/" ++ chart.name
  repo_valid : ValidName chart.repo.name

theorem served_newChart {entry : Helm.Entry} {r : Models.Repo} {shallow : Bool} {c : Models.Chart}
    (h : Helm.newChart entry r shallow = .ok c) (hname : ValidName r.name) :
    ∃ s : ServedChart, s.chart = c := by
  obtain ⟨_, hid, hrepo, _⟩ := Helm.newChart_id h
  rw [← hrepo] at hid hname
  exact ⟨⟨c, hid, hname⟩, rfl⟩

/-- What tells charts apart: the namespace and name of the repository, and the name. -/
def ServedChart.key (c : ServedChart) : String × String × String :=
  (c.chart.repo.ns, c.chart.repo.name, c.chart.name)

/-- `newChartResponse`. `attributes` is the JSON text of the attributes. -/
def newChartResponse (attributes : Models.Chart → String) (c : ServedChart) : Chart where
  id := c.chart.id
  attributes := attributes c.chart

structure ChartsPage where
  items : List ServedChart
  page : Nat
  totalPages : Nat

/-- The store after a reset and these pages. -/
def receivePages (attributes : Models.Chart → String) (state : ChartState)
    (pages : List ChartsPage) : ChartState :=
  pages.foldl
    (fun state p => chartsReducer state
      (.receiveCharts (p.items.map (newChartResponse attributes)) p.page p.totalPages))
    (chartsReducer state .resetRequestCharts)

/-- Every chart that was delivered is kept, where it was delivered first. -/
def KeepsEveryChart (attributes : Models.Chart → String) (pages : List ChartsPage)
    (state : ChartState) : Prop :=
  state.items =
    (uniqBy ServedChart.key (pages.flatMap ChartsPage.items)).map (newChartResponse attributes)

/-! ## What is kept -/

/-- The id without the namespace. -/
def keyId (key : String × String × String) : String := key.2.1 ++ "/" ++ key.2.2

theorem newChartResponse_id (attributes : Models.Chart → String) :
    Chart.id ∘ newChartResponse attributes = keyId ∘ ServedChart.key := by
  funext c
  exact c.id_eq

theorem keyId_eq_iff (c d : ServedChart) :
    keyId c.key = keyId d.key ↔
      c.chart.repo.name = d.chart.repo.name ∧ c.chart.name = d.chart.name := by
  constructor
  · intro h
    have hchars := congrArg String.toList h
    unfold keyId ServedChart.key at hchars
    simp only [String.toList_append, List.append_assoc] at hchars
    obtain ⟨hrepo, hname⟩ := append_cons_inj (slash_not_mem_validName c.repo_valid)
      (slash_not_mem_validName d.repo_valid) hchars
    exact ⟨String.toList_inj.mp hrepo, String.toList_inj.mp hname⟩
  · intro ⟨hrepo, hname⟩
    unfold keyId ServedChart.key
    rw [hrepo, hname]

/-- One id is kept for each that was delivered. -/
theorem items_receivePages (attributes : Models.Chart → String) (state : ChartState)
    (pages : List ChartsPage) :
    (receivePages attributes state pages).items =
      (uniqBy (keyId ∘ ServedChart.key) (pages.flatMap ChartsPage.items)).map
        (newChartResponse attributes) := by
  rw [← newChartResponse_id attributes, map_uniqBy]
  induction pages using List.reverseRecOn with
  | nil => rfl
  | append_singleton pages p ih =>
      have hstep : (receivePages attributes state (pages ++ [p])).items =
          uniqBy Chart.id ((receivePages attributes state pages).items ++
            p.items.map (newChartResponse attributes)) := by
        unfold receivePages
        rw [List.foldl_append]
        rfl
      rw [hstep, ih, uniqBy_uniqBy_append, List.flatMap_append, List.map_append,
        List.flatMap_singleton]

/-- **What the store keeps of the pages.** After a reset every delivered chart is kept, once and in
    the order of first delivery, exactly if no two of them have the same repository name and name
    in different namespaces. -/
theorem keepsEveryChart_iff (attributes : Models.Chart → String) (state : ChartState)
    (pages : List ChartsPage) :
    KeepsEveryChart attributes pages (receivePages attributes state pages) ↔
      ∀ c ∈ pages.flatMap ChartsPage.items, ∀ d ∈ pages.flatMap ChartsPage.items,
        c.chart.repo.name = d.chart.repo.name → c.chart.name = d.chart.name →
          c.chart.repo.ns = d.chart.repo.ns := by
  unfold KeepsEveryChart
  rw [items_receivePages]
  constructor
  · intro h c hc d hd hrepo hname
    have hlen := congrArg List.length h
    rw [List.length_map, List.length_map] at hlen
    have hkey := eq_of_length_uniqBy hlen hc hd ((keyId_eq_iff c d).mpr ⟨hrepo, hname⟩)
    exact congrArg Prod.fst hkey
  · intro h
    have hkeys : ∀ c ∈ pages.flatMap ChartsPage.items, ∀ d ∈ pages.flatMap ChartsPage.items,
        (keyId ∘ ServedChart.key) c = (keyId ∘ ServedChart.key) d ↔ c.key = d.key := ?_
    rw [uniqBy_congr hkeys]
    intro c hc d hd
    constructor
    · intro hid
      obtain ⟨hrepo, hname⟩ := (keyId_eq_iff c d).mp hid
      unfold ServedChart.key
      rw [h c hc d hd hrepo hname, hrepo, hname]
    · exact congrArg keyId

/-- The chart nginx of the repository bitnami in the namespace `ns`. -/
def servedNginx (ns : String) : ServedChart where
  chart :=
    { id := "bitnami/nginx", name := "nginx", repo := ⟨ns, "bitnami", "", "helm"⟩,
      description := "", home := "", keywords := [], maintainers := [], sources := [], icon := "",
      rawIcon := "", iconContentType := "", category := "", chartVersions := [] }
  id_eq := by rfl
  repo_valid := by
    show ValidName "bitnami"
    decide

/-- Of two repositories of one name, that of the namespace is lost. -/
theorem not_keepsEveryChart_bitnami :
    ¬ KeepsEveryChart (fun c => c.repo.ns) [⟨[servedNginx "kubeapps"], 1, 2⟩,
        ⟨[servedNginx "team"], 2, 2⟩]
      (receivePages (fun c => c.repo.ns) initialCharts [⟨[servedNginx "kubeapps"], 1, 2⟩,
        ⟨[servedNginx "team"], 2, 2⟩]) := by
  unfold KeepsEveryChart
  decide

end Kubeapps.Dashboard
