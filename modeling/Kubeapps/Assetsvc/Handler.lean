/-
  The requests to assetsvc (cmd/assetsvc/handler.go).

  The router gives the elements of the path unescaped. Each handler unescapes the namespace, the
  repository and the version once more, and leaves the name of the chart, which is stored escaped.
  `Endpoint` is a route with the values of its form, which are text. A `Response` is given by the
  rows and charts that it is made of; what is left out is how their fields are put into JSON.

  `serve_namespaces`: nothing in a response is from another namespace than the unescaped one of the
  path and the one of Kubeapps, unless a list is asked for with `_all`.
-/
import Kubeapps.Assetsvc.PageParams
import Kubeapps.Assetsvc.RightRows
import Kubeapps.Assetsvc.Search

namespace Kubeapps.Assetsvc

open Kubeapps.Lib Kubeapps.Models
open Kubeapps.Lib.Sql (Dialect)

/-! ## Requests and responses -/

/-- The variables of a route; one that the route has not is empty. -/
structure Params where
  ns : Bytes
  repo : Bytes
  chartName : Bytes
  version : Bytes
  deriving DecidableEq

structure Form where
  name : String
  version : String
  appversion : String
  repos : String
  categories : String
  q : String
  page : String
  size : String
  deriving DecidableEq

inductive Endpoint where
  | listChartsWithFilters (form : Form)
  | getChartCategories (form : Form)
  | getChart
  | listChartVersions
  | getChartVersion
  | getChartIcon
  | getChartVersionReadme
  | getChartVersionValues
  | getChartVersionSchema

/-- `panicked` is `ChartVersions[0]` of a chart that has none. -/
inductive Response where
  | error (code : Nat) (msg : String)
  | panicked
  | chartList (rows : List ChartRow) (totalPages : Nat)
  | chartCategories (rows : List ChartRow)
  | chart (c : Chart)
  | chartVersionList (c : Chart)
  | chartVersion (c : Chart)
  | icon (c : Chart)
  | file (row : ChartFilesRow) (text : String)

/-- The manager of the process: the database, and how it answers this request where it has a
    choice. -/
structure AssetManager where
  pg : Postgres
  charts : ChartTable
  files : ChartFilesTable
  kubeappsNamespace : String
  order : RowOrder pg
  pick : Pick
  filesPick : FilesPick

/-! ## The handlers -/

def pathUnescape (bs : Bytes) : Option Bytes := unescape .pathSegment bs

/-- `extractDecodedNamespaceAndRepoAndVersionParams`. -/
def extractDecodedParams (params : Params) : Option (Bytes × Bytes × Bytes) := do
  let ns ← pathUnescape params.ns
  let repo ← pathUnescape params.repo
  let version ← pathUnescape params.version
  return (ns, repo, version)

/-- `strings.Split(strings.TrimSpace(s), ",")`. -/
def splitList (s : String) : List String :=
  ((trimSpace s).toList.splitOn ',').map String.ofList

/-- `extractChartQueryFromRequest`. -/
def extractChartQueryFromRequest (ns repo : String) (form : Form) : ChartQuery where
  ns := ns
  chartName := form.name
  version := form.version
  appVersion := form.appversion
  searchQuery := form.q
  repos := (if repo ≠ "" then [repo] else []) ++
    if form.repos ≠ "" then splitList form.repos else []
  categories := if form.categories ≠ "" then splitList form.categories else []

/-- A query with this parameter, which PostgreSQL refuses unless it is text. -/
def withText {α : Type} (bs : Bytes) (query : String → Except String α) : Except String α :=
  match ofBytes? bs with
  | some s => query s
  | none => .error "pq: invalid byte sequence for encoding \"UTF8\""

/-- `getChartID`. -/
def getChartID (repo chartName : Bytes) : Bytes := repo ++ ascii '/' :: chartName

/-- `newChartResponse` and `newChartVersionResponse` look at the first version. -/
def hasVersions (c : Chart) : Bool := !c.chartVersions.isEmpty

namespace AssetManager

variable (m : AssetManager)

def listChartsWithFilters (ns repo : Bytes) (form : Form) : Response :=
  let (pageNumber, pageSize) := getPageAndSizeParams form.page form.size
  match withText ns fun ns => withText repo fun repo =>
      getPaginatedChartListWithFilters m.pg m.charts m.order m.kubeappsNamespace
        (extractChartQueryFromRequest ns repo form) pageNumber pageSize with
  -- the error is logged, and the list is empty
  | .error _ => .chartList [] 0
  | .ok (rows, totalPages) =>
      if rows.all (fun row => hasVersions row.info) then .chartList rows totalPages else .panicked

def getChartCategories (ns repo : Bytes) (form : Form) : Response :=
  match withText ns fun ns => withText repo fun repo =>
      matchingCharts m.pg m.charts m.kubeappsNamespace
        (extractChartQueryFromRequest ns repo form) with
  | .error _ => .error 500 "could not fetch chart categories"
  | .ok rows => .chartCategories rows

/-- `manager.GetChart`. -/
def getChart (ns chartID : Bytes) : Except String Chart :=
  withText ns fun ns => Assetsvc.getChart m.pg m.charts m.pick ns chartID

/-- `manager.GetChartVersion`. -/
def getChartVersion (ns chartID version : Bytes) : Except String Chart :=
  withText ns fun ns =>
    match ofBytes? version with
    | some version => Assetsvc.getChartVersion m.pg m.charts m.pick ns chartID version
    | none => .error errChartVersionNotFound

/-- The handlers of one chart. -/
def chartHandler (notFound : String) (result : Except String Chart) (respond : Chart → Response) :
    Response :=
  match result with
  | .error _ => .error 404 notFound
  | .ok chart => respond chart

def respondChart (chart : Chart) : Response :=
  if hasVersions chart then .chart chart else .panicked

def respondIcon (chart : Chart) : Response :=
  if chart.rawIcon = "" then .error 404 "404 page not found" else .icon chart

/-- The handlers of one file of a version. -/
def fileHandler (ns fileID : Bytes) (text : ChartFiles → String) (mayBeEmpty : Bool) : Response :=
  match withText ns fun ns =>
      chartFilesRow m.pg m.files m.filesPick ns fileID enableFallbackQueryMode with
  | .error _ => .error 404 "404 page not found"
  | .ok row =>
      if text row.info = "" ∧ mayBeEmpty = false then .error 404 "404 page not found"
      else .file row (text row.info)

/-- The handler of a route. -/
def serve (endpoint : Endpoint) (params : Params) : Response :=
  match extractDecodedParams params with
  | none => .error 400 "could not decode params"
  | some (ns, repo, version) =>
      let chartID := getChartID repo params.chartName
      let fileID := chartID ++ ascii '-' :: version
      match endpoint with
      | .listChartsWithFilters form => m.listChartsWithFilters ns repo form
      | .getChartCategories form => m.getChartCategories ns repo form
      | .getChart => chartHandler "could not find chart" (m.getChart ns chartID) respondChart
      | .listChartVersions =>
          chartHandler "could not find chart" (m.getChart ns chartID) .chartVersionList
      | .getChartVersion =>
          chartHandler "could not find chart version" (m.getChartVersion ns chartID version)
            .chartVersion
      | .getChartIcon => chartHandler "404 page not found" (m.getChart ns chartID) respondIcon
      | .getChartVersionReadme => m.fileHandler ns fileID ChartFiles.readme false
      | .getChartVersionValues => m.fileHandler ns fileID ChartFiles.values true
      | .getChartVersionSchema => m.fileHandler ns fileID ChartFiles.schema true

end AssetManager

/-! ## Namespaces -/

/-- What a clause that PostgreSQL does not refuse selects. -/
def Postgres.ReadsWhere (pg : Postgres) (d : Dialect) (isNil : String → Bool) : Prop :=
  ∀ text params cond select, readWhere text = some cond → pg.where_ text params = .ok select →
    ∀ row, select row = true ↔
      Selected d ⟨row.repoName, row.repoNamespace, chartJson isNil row.info⟩ params cond

/-- The namespaces of what a response is made of. -/
def Response.namespaces : Response → List String
  | .error _ _ | .panicked => []
  | .chartList rows _ => rows.map fun row => row.info.repo.ns
  | .chartCategories rows => rows.map ChartRow.repoNamespace
  | .chart c | .chartVersionList c | .chartVersion c | .icon c => [c.repo.ns]
  | .file row _ => [row.repoNamespace]

/-- The charts that a response shows. -/
def Response.charts : Response → List Chart
  | .error _ _ | .panicked | .chartCategories _ | .file _ _ => []
  | .chartList rows _ => rows.map ChartRow.info
  | .chart c | .chartVersionList c | .chartVersion c | .icon c => [c]

theorem mem_namespaces_of_mem_charts {response : Response} {c : Chart}
    (h : c ∈ response.charts) : c.repo.ns ∈ response.namespaces := by
  cases response with
  | error code msg => cases h
  | panicked => cases h
  | chartList rows totalPages =>
      obtain ⟨row, hrow, rfl⟩ := List.mem_map.mp h
      exact List.mem_map_of_mem hrow
  | chartCategories rows => cases h
  | file row text => cases h
  | _ =>
      rw [List.mem_singleton.mp h]
      exact List.mem_singleton_self _

/-- Every row is as the sync job stores it; it stores none without an id. -/
def AllStored (table : ChartTable) : Prop := ∀ row ∈ table.rows, ∃ name, StoredChart row name

theorem eq_bytes_of_ofBytes? {bs : Bytes} {s : String} (h : ofBytes? bs = some s) :
    bs = bytes s := by
  unfold ofBytes? String.fromUTF8? at h
  split at h
  · rw [← Option.some.inj h]
    rfl
  · cases h

theorem withText_ok {α : Type} {bs : Bytes} {query : String → Except String α} {a : α}
    (h : withText bs query = .ok a) : ∃ s, bs = bytes s ∧ query s = .ok a := by
  unfold withText at h
  split at h
  · rename_i s hs
    exact ⟨s, eq_bytes_of_ofBytes? hs, h⟩
  · cases h

section Rows

variable {pg : Postgres} {d : Dialect} {isNil : String → Bool} {table : ChartTable}
  {files : ChartFilesTable} {kubeappsNamespace : String} {cq : ChartQuery} {ns : String}

/-- The rows of a list are of the two namespaces, unless all are asked for. -/
theorem matchingCharts_namespaces (hreads : pg.ReadsWhere d isNil) {rows : List ChartRow}
    (h : matchingCharts pg table kubeappsNamespace cq = .ok rows) :
    ∀ row ∈ rows, cq.ns = "_all" ∨ row.repoNamespace = cq.ns ∨
      row.repoNamespace = kubeappsNamespace := by
  obtain ⟨cond, hread, hselected⟩ := exists_readWhere kubeappsNamespace cq
  unfold matchingCharts matching at h
  dsimp only at h
  cases hwhere : pg.where_ (generateWhereClause kubeappsNamespace cq).1
      (generateWhereClause kubeappsNamespace cq).2 with
  | error err =>
      rw [hwhere] at h
      cases h
  | ok select =>
      rw [hwhere] at h
      intro row hrow
      rw [← Except.ok.inj h] at hrow
      have hsel := (hreads _ _ cond select hread hwhere row).mp (List.mem_filter.mp hrow).2
      exact ((hselected d _).mp hsel).1

/-- A page has rows of the list only. -/
theorem getPaginatedChartList_mem {order : RowOrder pg} {pageNumber pageSize : Int}
    {rows : List ChartRow} {totalPages : Nat}
    (h : getPaginatedChartListWithFilters pg table order kubeappsNamespace cq pageNumber pageSize =
      .ok (rows, totalPages)) :
    ∃ all, matchingCharts pg table kubeappsNamespace cq = .ok all ∧ ∀ row ∈ rows, row ∈ all := by
  cases hall : matchingCharts pg table kubeappsNamespace cq with
  | error err =>
      rw [getPaginatedChartList_error order pageNumber pageSize hall] at h
      cases h
  | ok all =>
      refine ⟨all, rfl, fun row hrow => ?_⟩
      have hperm : ∀ row, row ∈ order.sort all ↔ row ∈ all := fun row =>
        (order.isOrder all).1.mem_iff
      unfold getPaginatedChartListWithFilters getPaginatedChartList at h
      unfold matchingCharts at hall
      dsimp only at h hall
      generalize (if pageNumber ≤ 0 then 1 else pageNumber) = number at h
      obtain ⟨rows', hrows', h⟩ := bind_eq_ok h
      obtain rfl := Except.ok.inj (hall.symm.trans hrows')
      split at h
      · split at h
        · cases h
        · obtain ⟨count, _, h⟩ := bind_eq_ok h
          obtain ⟨rfl, _⟩ := Prod.mk.inj (Except.ok.inj h)
          exact (hperm row).mp (List.mem_of_mem_drop (List.mem_of_mem_take hrow))
      · obtain ⟨rfl, _⟩ := Prod.mk.inj (Except.ok.inj h)
        exact (hperm row).mp hrow

theorem textParam_ok {s t : String} (h : textParam (bytes s) = .ok t) : s = t := by
  by_cases hzero : Char.ofNat 0 ∈ s.toList
  · rw [textParam_zero hzero] at h
    cases h
  · rw [textParam_bytes hzero] at h
    exact Except.ok.inj h

theorem queryOne_ok {pick : Pick} {op : String → String → Bool} {chartID : Bytes} {c : Chart}
    (h : queryOne table pick op ns chartID = .ok c) :
    ∃ row ∈ table.rows, row.repoNamespace = ns ∧ row.info = c := by
  unfold queryOne at h
  obtain ⟨ns', hns, h⟩ := bind_eq_ok h
  obtain ⟨id, _, h⟩ := bind_eq_ok h
  rw [← textParam_ok hns] at h
  split at h
  · cases h
  · rename_i row hpick
    obtain ⟨hrow, hrowns, _⟩ := mem_rowsWhere.mp (pick.mem _ _ hpick)
    exact ⟨row, hrow, hrowns, Except.ok.inj h⟩

/-- One chart is of a row of the namespace. -/
theorem queryWithFallback_ok {pick : Pick} {chartID : Bytes} {withFallback : Bool} {c : Chart}
    (h : queryWithFallback pg table pick ns chartID withFallback = .ok c) :
    ∃ row ∈ table.rows, row.repoNamespace = ns ∧ row.info = c := by
  unfold queryWithFallback at h
  split at h
  · rename_i chart hone
    obtain rfl := Except.ok.inj h
    exact queryOne_ok hone
  · split at h
    · split at h
      · exact queryOne_ok h
      · cases h
    · cases h

theorem queryFiles_ok {pick : FilesPick} {op : String → String → Bool} {filesID : Bytes}
    {row : ChartFilesRow} (h : queryFiles files pick op ns filesID = .ok row) :
    row.repoNamespace = ns := by
  unfold queryFiles at h
  obtain ⟨ns', hns, h⟩ := bind_eq_ok h
  obtain ⟨id, _, h⟩ := bind_eq_ok h
  rw [← textParam_ok hns] at h
  split at h
  · cases h
  · rename_i row' hpick
    obtain rfl := Except.ok.inj h
    exact (mem_filesWhere.mp (pick.mem _ _ hpick)).2.1

theorem chartFilesRow_ok {pick : FilesPick} {filesID : Bytes} {withFallback : Bool}
    {row : ChartFilesRow} (h : chartFilesRow pg files pick ns filesID withFallback = .ok row) :
    row.repoNamespace = ns := by
  unfold chartFilesRow at h
  split at h
  · rename_i row' hone
    obtain rfl := Except.ok.inj h
    exact queryFiles_ok hone
  · split at h
    · split at h
      · exact queryFiles_ok h
      · cases h
    · cases h

end Rows

section Serve

variable {m : AssetManager} {d : Dialect} {isNil : String → Bool} {x : String}

/-- The namespaces that a request for `ns` may show. -/
def AssetManager.Shown (m : AssetManager) (ns x : String) : Prop :=
  ns = "_all" ∨ x = ns ∨ x = m.kubeappsNamespace

theorem list_namespaces (hreads : m.pg.ReadsWhere d isNil) (hstored : AllStored m.charts)
    {ns repo : Bytes} {form : Form}
    (h : x ∈ (m.listChartsWithFilters ns repo form).namespaces) :
    ∃ s, ns = bytes s ∧ m.Shown s x := by
  unfold AssetManager.listChartsWithFilters at h
  dsimp only at h
  split at h
  · cases h
  · rename_i rows totalPages hrows
    obtain ⟨s, hs, hrows⟩ := withText_ok hrows
    obtain ⟨repo', _, hrows⟩ := withText_ok hrows
    obtain ⟨all, hall, hsub⟩ := getPaginatedChartList_mem hrows
    split at h
    · obtain ⟨row, hrow, rfl⟩ := List.mem_map.mp h
      have hmem := (matchingCharts_sublist hall).subset (hsub row hrow)
      obtain ⟨name, hrow'⟩ := hstored row hmem
      rw [hrow'.info_ns]
      exact ⟨s, hs, matchingCharts_namespaces hreads hall row (hsub row hrow)⟩
    · cases h

theorem categories_namespaces (hreads : m.pg.ReadsWhere d isNil) {ns repo : Bytes} {form : Form}
    (h : x ∈ (m.getChartCategories ns repo form).namespaces) :
    ∃ s, ns = bytes s ∧ m.Shown s x := by
  unfold AssetManager.getChartCategories at h
  split at h
  · cases h
  · rename_i rows hrows
    obtain ⟨s, hs, hrows⟩ := withText_ok hrows
    obtain ⟨repo', _, hrows⟩ := withText_ok hrows
    obtain ⟨row, hrow, rfl⟩ := List.mem_map.mp h
    exact ⟨s, hs, matchingCharts_namespaces hreads hrows row hrow⟩

/-- The stored charts have the namespace of their row. -/
theorem getChart_namespace (hstored : AllStored m.charts) {ns chartID : Bytes} {c : Chart}
    (h : m.getChart ns chartID = .ok c) : ns = bytes c.repo.ns := by
  obtain ⟨s, hs, h⟩ := withText_ok h
  obtain ⟨row, hrow, hns, rfl⟩ := queryWithFallback_ok h
  obtain ⟨name, hrow'⟩ := hstored row hrow
  rw [hs, hrow'.info_ns, hns]

theorem getChartVersion_namespace (hstored : AllStored m.charts) {ns chartID version : Bytes}
    {c : Chart} (h : m.getChartVersion ns chartID version = .ok c) : ns = bytes c.repo.ns := by
  obtain ⟨s, hs, h⟩ := withText_ok h
  split at h
  · obtain ⟨chart, hchart, hkeep⟩ := bind_eq_ok h
    obtain ⟨row, hrow, hns, rfl⟩ := queryWithFallback_ok hchart
    obtain ⟨name, hrow'⟩ := hstored row hrow
    unfold keepVersion at hkeep
    split at hkeep
    · rw [← Except.ok.inj hkeep, hs, ← hns]
      exact congrArg bytes hrow'.info_ns.symm
    · cases hkeep
  · cases h

theorem chartHandler_namespaces {notFound : String} {result : Except String Chart}
    {respond : Chart → Response} {ns : Bytes} (hresult : ∀ c, result = .ok c → ns = bytes c.repo.ns)
    (hrespond : ∀ c, x ∈ (respond c).namespaces → x = c.repo.ns)
    (h : x ∈ (AssetManager.chartHandler notFound result respond).namespaces) :
    ∃ s, ns = bytes s ∧ m.Shown s x := by
  unfold AssetManager.chartHandler at h
  split at h
  · cases h
  · rename_i c
    exact ⟨c.repo.ns, hresult c rfl, .inr (.inl (hrespond c h))⟩

theorem respondChart_namespaces {c : Chart}
    (h : x ∈ (AssetManager.respondChart c).namespaces) : x = c.repo.ns := by
  unfold AssetManager.respondChart at h
  split at h
  · exact List.mem_singleton.mp h
  · cases h

theorem respondIcon_namespaces {c : Chart}
    (h : x ∈ (AssetManager.respondIcon c).namespaces) : x = c.repo.ns := by
  unfold AssetManager.respondIcon at h
  split at h
  · cases h
  · exact List.mem_singleton.mp h

theorem fileHandler_namespaces {ns fileID : Bytes} {text : ChartFiles → String} {mayBeEmpty : Bool}
    (h : x ∈ (m.fileHandler ns fileID text mayBeEmpty).namespaces) :
    ∃ s, ns = bytes s ∧ m.Shown s x := by
  unfold AssetManager.fileHandler at h
  split at h
  · cases h
  · rename_i row hrow
    obtain ⟨s, hs, hrow⟩ := withText_ok hrow
    split at h
    · cases h
    · have hx : x = row.repoNamespace := List.mem_singleton.mp h
      exact ⟨s, hs, .inr (.inl (hx.trans (chartFilesRow_ok hrow)))⟩

/-- What a response shows is of the namespace that the path spells when it is unescaped twice, or
    of Kubeapps'; or all namespaces were asked for. -/
theorem serve_namespaces (hreads : m.pg.ReadsWhere d isNil) (hstored : AllStored m.charts)
    {endpoint : Endpoint} {params : Params}
    (h : x ∈ (m.serve endpoint params).namespaces) :
    ∃ ns, pathUnescape params.ns = some (bytes ns) ∧ m.Shown ns x := by
  unfold AssetManager.serve at h
  split at h
  · cases h
  · rename_i ns repo version hparams
    have hns : pathUnescape params.ns = some ns := by
      unfold extractDecodedParams at hparams
      obtain ⟨ns', hns, hrest⟩ := Option.bind_eq_some_iff.mp hparams
      obtain ⟨repo', _, hrest⟩ := Option.bind_eq_some_iff.mp hrest
      obtain ⟨version', _, hret⟩ := Option.bind_eq_some_iff.mp hrest
      rw [hns, (Prod.mk.inj (Option.some.inj hret)).1]
    rw [hns]
    suffices hshown : ∃ s, ns = bytes s ∧ m.Shown s x by
      obtain ⟨s, hs, hshown⟩ := hshown
      exact ⟨s, by rw [hs], hshown⟩
    cases endpoint with
    | listChartsWithFilters form => exact list_namespaces hreads hstored h
    | getChartCategories form => exact categories_namespaces hreads h
    | getChart =>
        exact chartHandler_namespaces (fun _ => getChart_namespace hstored)
          (fun _ => respondChart_namespaces) h
    | listChartVersions =>
        refine chartHandler_namespaces (fun _ => getChart_namespace hstored) ?_ h
        exact fun _ hx => List.mem_singleton.mp hx
    | getChartVersion =>
        refine chartHandler_namespaces (fun _ => getChartVersion_namespace hstored) ?_ h
        exact fun _ hx => List.mem_singleton.mp hx
    | getChartIcon =>
        exact chartHandler_namespaces (fun _ => getChart_namespace hstored)
          (fun _ => respondIcon_namespaces) h
    | getChartVersionReadme => exact fileHandler_namespaces h
    | getChartVersionValues => exact fileHandler_namespaces h
    | getChartVersionSchema => exact fileHandler_namespaces h

end Serve

end Kubeapps.Assetsvc
