/-
  The catalog (src/dashboard/src/components/Catalog/Catalog.tsx: the effects that fetch and reset;
  src/dashboard/src/actions/charts.ts: fetchCharts).

  A change of the cluster, the namespace, the repositories or the search runs the effects in their
  order: fetch the current page for the new query, set the page to 1 and reset the charts; with
  another page than 1 before, the page changes and page 1 is fetched. A scroll sets the page (an
  observer of an earlier rendering may set any), and a retry fetches it again. Requests are answered
  in any order; an answer is a page of the query that was asked for, or an error.

  `CatalogView` is what does not depend on the contents, and `answers` what was delivered since the
  list was last reset. `catalog_right_iff` settles, for each schedule, when the store is right
  whatever the server has.
-/
import Kubeapps.Dashboard.Charts
import Kubeapps.Lib.Steps

namespace Kubeapps.Dashboard

open Kubeapps.Lib

/-- What the charts are fetched for. -/
structure CatalogQuery where
  cluster : String
  ns : String
  repos : String
  search : String
  deriving DecidableEq, Repr

/-- The pages of each query, from 1 on. -/
structure ChartServer where
  items : CatalogQuery → Nat → List Chart
  totalPages : CatalogQuery → Nat

/-- An answer that was delivered. -/
inductive CatalogAnswer where
  | page (query : CatalogQuery) (page : Nat)
  | error
  deriving DecidableEq, Repr

/-- The state of the component, the requests without an answer, and the answers since the last
    reset. -/
structure CatalogView where
  query : CatalogQuery
  page : Nat
  pending : List (CatalogQuery × Nat)
  answers : List CatalogAnswer
  deriving DecidableEq, Repr

inductive CatalogEvent where
  | changeQuery (query : CatalogQuery)
  | setPage (page : Nat)
  | retry
  | respond (request : Nat)
  | fail (request : Nat) (message : String)
  deriving DecidableEq, Repr

/-- The requests of the effects for a new query. -/
def fetchedFor (query : CatalogQuery) (page : Nat) : List (CatalogQuery × Nat) :=
  if page = 1 then [(query, 1)] else [(query, page), (query, 1)]

/-- The component after its first rendering. -/
def CatalogView.mount (query : CatalogQuery) : CatalogView := ⟨query, 1, fetchedFor query 1, []⟩

def CatalogView.step (view : CatalogView) : CatalogEvent → Option CatalogView
  | .changeQuery query =>
      if query = view.query then none
      else some ⟨query, 1, view.pending ++ fetchedFor query view.page, []⟩
  | .setPage page =>
      if page = view.page then none
      else some { view with page := page, pending := view.pending ++ [(view.query, page)] }
  | .retry => some { view with pending := view.pending ++ [(view.query, view.page)] }
  | .respond request => do
      let (query, page) ← view.pending[request]?
      some { view with
        pending := view.pending.eraseIdx request
        answers := view.answers ++ [.page query page] }
  | .fail request _ => do
      let _ ← view.pending[request]?
      some { view with
        pending := view.pending.eraseIdx request
        answers := view.answers ++ [.error] }

/-- The actions of the effects for a new query. -/
def effectsFor (page : Nat) : List ChartsAction :=
  if page = 1 then [.requestCharts (some 1), .resetRequestCharts]
  else [.requestCharts (some page), .resetRequestCharts, .requestCharts (some 1)]

/-- The actions that an event dispatches. -/
def CatalogView.actions (server : ChartServer) (view : CatalogView) :
    CatalogEvent → List ChartsAction
  | .changeQuery _ => effectsFor view.page
  | .setPage page => [.requestCharts (some page)]
  | .retry => [.clearErrorChart, .requestCharts (some view.page)]
  | .respond request =>
      match view.pending[request]? with
      | some (query, page) =>
          [.receiveCharts (server.items query page) page (server.totalPages query)]
      | none => []
  | .fail _ message => [.errorChart message]

/-- The component and the store. -/
structure Catalog where
  view : CatalogView
  charts : ChartState

def Catalog.mount (charts : ChartState) (query : CatalogQuery) : Catalog :=
  ⟨.mount query, (effectsFor 1).foldl chartsReducer charts⟩

def Catalog.step (server : ChartServer) (catalog : Catalog) (e : CatalogEvent) : Option Catalog :=
  (catalog.view.step e).map fun view =>
    ⟨view, (catalog.view.actions server e).foldl chartsReducer catalog.charts⟩

/-- The charts are those of answers for the latest query, and they are said to be all only when every
    page of it has come. -/
def Catalog.Right (server : ChartServer) (catalog : Catalog) : Prop :=
  (∀ c ∈ catalog.charts.items, ∃ page,
    .page catalog.view.query page ∈ catalog.view.answers ∧
      c ∈ server.items catalog.view.query page) ∧
  (catalog.charts.hasFinishedFetching = true →
    ∀ page, 1 ≤ page → page ≤ server.totalPages catalog.view.query →
      .page catalog.view.query page ∈ catalog.view.answers)

/-- Every answer since the reset is for the latest query or an error, and the last one, if it is a
    page, has all earlier pages before it. -/
def CatalogView.InOrder (view : CatalogView) : Prop :=
  (∀ query page, .page query page ∈ view.answers → query = view.query) ∧
  ∀ query page, view.answers.getLast? = some (.page query page) →
    ∀ earlier, 1 ≤ earlier → earlier < page → .page query earlier ∈ view.answers

/-! ## What the store has of the answers -/

/-- The charts come from the answers, each chart of an answer is there under its id, and the last
    answer says whether the charts are all. -/
structure Catalog.Merged (server : ChartServer) (catalog : Catalog) : Prop where
  sound : ∀ c ∈ catalog.charts.items, ∃ query page,
    .page query page ∈ catalog.view.answers ∧ c ∈ server.items query page
  complete : ∀ query page, .page query page ∈ catalog.view.answers →
    ∀ c ∈ server.items query page, ∃ c' ∈ catalog.charts.items, c'.id = c.id
  finished : catalog.charts.hasFinishedFetching = true ↔ ∃ query page,
    catalog.view.answers.getLast? = some (.page query page) ∧ server.totalPages query ≤ page

section Merged

variable {server : ChartServer} {catalog catalog' : Catalog} {e : CatalogEvent}

/-- The items and the flag are all that the invariant sees of the store. -/
theorem merged_congr (h : catalog.Merged server) (hanswers : catalog'.view.answers = catalog.view.answers)
    (hitems : catalog'.charts.items = catalog.charts.items)
    (hfinished : catalog'.charts.hasFinishedFetching = catalog.charts.hasFinishedFetching) :
    catalog'.Merged server := by
  constructor
  · rw [hitems, hanswers]
    exact h.sound
  · rw [hitems, hanswers]
    exact h.complete
  · rw [hfinished, hanswers]
    exact h.finished

theorem merged_reset (hanswers : catalog.view.answers = []) (hitems : catalog.charts.items = [])
    (hfinished : catalog.charts.hasFinishedFetching = false) : catalog.Merged server := by
  constructor
  · rw [hitems]
    exact fun _ hc => nomatch hc
  · rw [hanswers]
    exact fun _ _ hpage => nomatch hpage
  · rw [hfinished, hanswers]
    exact ⟨fun h => Bool.noConfusion h, fun ⟨_, _, h, _⟩ => nomatch h⟩

theorem effectsFor_resets (page : Nat) (charts : ChartState) :
    ((effectsFor page).foldl chartsReducer charts).items = [] ∧
      ((effectsFor page).foldl chartsReducer charts).hasFinishedFetching = false := by
  unfold effectsFor
  split
  · exact ⟨rfl, rfl⟩
  · exact ⟨rfl, rfl⟩

theorem merged_mount (charts : ChartState) (query : CatalogQuery) :
    (Catalog.mount charts query).Merged server := by
  obtain ⟨hitems, hfinished⟩ := effectsFor_resets 1 charts
  exact merged_reset rfl hitems hfinished

/-- The items after an answer that is a page. -/
theorem merged_receive (h : catalog.Merged server) {query : CatalogQuery} {page : Nat}
    (hanswers : catalog'.view.answers = catalog.view.answers ++ [.page query page])
    (hcharts : catalog'.charts = chartsReducer catalog.charts
      (.receiveCharts (server.items query page) page (server.totalPages query))) :
    catalog'.Merged server := by
  have hitems : catalog'.charts.items =
      uniqBy Chart.id (catalog.charts.items ++ server.items query page) := by
    rw [hcharts]
    rfl
  constructor
  · intro c hc
    rw [hitems] at hc
    rw [hanswers]
    rcases List.mem_append.mp ((uniqBy_sublist Chart.id _).subset hc) with hold | hnew
    · obtain ⟨query', page', hpage, hmem⟩ := h.sound c hold
      exact ⟨query', page', List.mem_append_left _ hpage, hmem⟩
    · exact ⟨query, page, List.mem_append_right _ List.mem_cons_self, hnew⟩
  · intro query' page' hpage c hc
    rw [hanswers] at hpage
    rw [hitems]
    rcases List.mem_append.mp hpage with hold | hnew
    · obtain ⟨c', hc', hid'⟩ := h.complete query' page' hold c hc
      obtain ⟨c'', hc'', hid''⟩ := exists_mem_uniqBy Chart.id (List.mem_append_left _ hc')
      exact ⟨c'', hc'', hid''.trans hid'⟩
    · obtain ⟨hquery, hpage⟩ := CatalogAnswer.page.inj (List.mem_singleton.mp hnew)
      rw [hquery, hpage] at hc
      exact exists_mem_uniqBy Chart.id (List.mem_append_right _ hc)
  · rw [hanswers, hcharts, List.getLast?_concat]
    constructor
    · exact fun hlast => ⟨query, page, rfl, of_decide_eq_true hlast⟩
    · intro ⟨query', page', heq, hlast⟩
      obtain ⟨hquery, hpage⟩ := CatalogAnswer.page.inj (Option.some.inj heq)
      rw [← hquery, ← hpage] at hlast
      exact decide_eq_true hlast

/-- An error leaves the items, and says that they are not all. -/
theorem merged_error (h : catalog.Merged server) {message : String}
    (hanswers : catalog'.view.answers = catalog.view.answers ++ [.error])
    (hcharts : catalog'.charts = chartsReducer catalog.charts (.errorChart message)) :
    catalog'.Merged server := by
  have hpages : ∀ query page, .page query page ∈ catalog'.view.answers ↔
      .page query page ∈ catalog.view.answers := by
    intro query page
    rw [hanswers, List.mem_append, List.mem_singleton]
    exact or_iff_left fun heq => nomatch heq
  constructor
  · rw [hcharts]
    intro c hc
    obtain ⟨query, page, hpage, hmem⟩ := h.sound c hc
    exact ⟨query, page, (hpages query page).mpr hpage, hmem⟩
  · rw [hcharts]
    exact fun query page hpage => h.complete query page ((hpages query page).mp hpage)
  · rw [hcharts, hanswers, List.getLast?_concat]
    exact ⟨fun hlast => Bool.noConfusion hlast, fun ⟨_, _, heq, _⟩ => nomatch heq⟩

theorem merged_step (h : catalog.Merged server) (hstep : catalog.step server e = some catalog') :
    catalog'.Merged server := by
  obtain ⟨view, hview, hcatalog⟩ := Option.map_eq_some_iff.mp hstep
  rw [← hcatalog]
  unfold CatalogView.step at hview
  cases e with
  | changeQuery query =>
      obtain ⟨hitems, hfinished⟩ := effectsFor_resets catalog.view.page catalog.charts
      refine merged_reset ?_ hitems hfinished
      dsimp only at hview
      split at hview
      · exact nomatch hview
      · rw [← Option.some.inj hview]
  | setPage page =>
      dsimp only at hview
      split at hview
      · exact nomatch hview
      · rw [← Option.some.inj hview]
        exact merged_congr h rfl rfl rfl
  | retry =>
      rw [← Option.some.inj hview]
      exact merged_congr h rfl rfl rfl
  | respond request =>
      obtain ⟨⟨query, page⟩, hpending, hview⟩ := Option.bind_eq_some_iff.mp hview
      rw [← Option.some.inj hview]
      refine merged_receive h rfl ?_
      unfold CatalogView.actions
      dsimp only
      rw [hpending]
      rfl
  | fail request message =>
      obtain ⟨_, _, hview⟩ := Option.bind_eq_some_iff.mp hview
      rw [← Option.some.inj hview]
      exact merged_error h rfl rfl

end Merged

/-! ## Schedules -/

section Schedule

variable {server : ChartServer}

/-- Whatever the server has, a schedule that can be run leaves the same view. -/
theorem exists_catalogRun (server : ChartServer) (catalog : Catalog) {view : CatalogView}
    {events : List CatalogEvent} (h : runs CatalogView.step catalog.view events = some view) :
    ∃ charts, runs (Catalog.step server) catalog events = some ⟨view, charts⟩ := by
  induction events generalizing catalog with
  | nil =>
      refine ⟨catalog.charts, ?_⟩
      rw [← Option.some.inj h]
      rfl
  | cons e events ih =>
      obtain ⟨view', hview, hrest⟩ := runs_cons_eq_some.1 h
      have hstep : catalog.step server e =
          some ⟨view', (catalog.view.actions server e).foldl chartsReducer catalog.charts⟩ :=
        congrArg (Option.map _) hview
      obtain ⟨charts, hrun⟩ := ih ⟨view', _⟩ hrest
      exact ⟨charts, runs_cons_eq_some.2 ⟨_, hstep, hrun⟩⟩

theorem merged_run {charts : ChartState} {query : CatalogQuery} {events : List CatalogEvent}
    {catalog : Catalog}
    (h : runs (Catalog.step server) (.mount charts query) events = some catalog) :
    catalog.Merged server :=
  runs_invariant (fun _ _ _ hmerged hstep => merged_step hmerged hstep) h
    (merged_mount charts query)

theorem right_of_inOrder {catalog : Catalog} (h : catalog.Merged server)
    (horder : catalog.view.InOrder) : catalog.Right server := by
  obtain ⟨hlatest, hearlier⟩ := horder
  constructor
  · intro c hc
    obtain ⟨query, page, hpage, hmem⟩ := h.sound c hc
    have heq := hlatest query page hpage
    rw [heq] at hpage hmem
    exact ⟨page, hpage, hmem⟩
  · intro hfinished page hone htotal
    obtain ⟨query, last, hlast, hle⟩ := h.finished.mp hfinished
    have hmem := List.mem_of_getLast? hlast
    have heq := hlatest query last hmem
    rw [heq] at hlast hle hmem
    by_cases hpage : page = last
    · rw [hpage]
      exact hmem
    · exact hearlier catalog.view.query last hlast page hone (by omega)

/-- A server on which only the other queries have a chart. -/
def otherCharts (query : CatalogQuery) : ChartServer where
  items query' _ := if query' = query then [] else [⟨"chart", ""⟩]
  totalPages _ := 0

/-- A server without charts, where every query has `n` pages. -/
def emptyPages (n : Nat) : ChartServer := ⟨fun _ _ => [], fun _ => n⟩

/-- For every schedule: the store is right whatever the server has exactly if the answers since the
    last reset came in order. -/
theorem catalog_right_iff (charts : ChartState) (query : CatalogQuery) (events : List CatalogEvent)
    (view : CatalogView) (hrun : runs CatalogView.step (.mount query) events = some view) :
    (∀ server charts', runs (Catalog.step server) (.mount charts query) events =
      some ⟨view, charts'⟩ → Catalog.Right server ⟨view, charts'⟩) ↔ view.InOrder := by
  constructor
  · intro hright
    have hlatest : ∀ query' page, .page query' page ∈ view.answers → query' = view.query := by
      intro query' page hpage
      by_contra hne
      obtain ⟨charts', hcharts⟩ :=
        exists_catalogRun (otherCharts view.query) (.mount charts query) hrun
      have hitems : (otherCharts view.query).items query' page = [⟨"chart", ""⟩] := if_neg hne
      obtain ⟨c, hc, _⟩ := (merged_run hcharts).complete query' page hpage ⟨"chart", ""⟩
        (by rw [hitems]; exact List.mem_cons_self)
      obtain ⟨page', _, hmem⟩ := (hright _ charts' hcharts).1 c hc
      have hempty : (otherCharts view.query).items view.query page' = [] := if_pos rfl
      rw [hempty] at hmem
      exact nomatch hmem
    refine ⟨hlatest, ?_⟩
    intro query' page hlast earlier hone hlt
    have heq := hlatest query' page (List.mem_of_getLast? hlast)
    obtain ⟨charts', hcharts⟩ := exists_catalogRun (emptyPages page) (.mount charts query) hrun
    have hfinished : charts'.hasFinishedFetching = true :=
      (merged_run hcharts).finished.mpr ⟨query', page, hlast, Nat.le_refl page⟩
    rw [heq]
    exact (hright _ charts' hcharts).2 hfinished earlier hone (Nat.le_of_lt hlt)
  · intro horder server charts' hcharts
    exact right_of_inOrder (merged_run hcharts) horder

/-- All charts of a namespace, and a search in it. -/
def allCharts : CatalogQuery := ⟨"default", "team", "", ""⟩

def nginxCharts : CatalogQuery := ⟨"default", "team", "", "nginx"⟩

/-- One chart for each of the two queries. -/
def twoCharts : ChartServer where
  items query _ := if query = nginxCharts then [⟨"bitnami/nginx", ""⟩] else [⟨"bitnami/redis", ""⟩]
  totalPages _ := 1

/-- The answer of the first query comes before the search. -/
theorem catalog_right_search : ∃ charts',
    runs (Catalog.step twoCharts) (.mount initialCharts allCharts)
        [.respond 0, .changeQuery nginxCharts, .respond 0] =
      some ⟨⟨nginxCharts, 1, [], [.page nginxCharts 1]⟩, charts'⟩ ∧
    Catalog.Right twoCharts ⟨⟨nginxCharts, 1, [], [.page nginxCharts 1]⟩, charts'⟩ := by
  have hright := (catalog_right_iff initialCharts allCharts
    [.respond 0, .changeQuery nginxCharts, .respond 0]
    ⟨nginxCharts, 1, [], [.page nginxCharts 1]⟩ (by decide)).mpr ?_
  · exact ⟨_, rfl, hright twoCharts _ rfl⟩
  · refine ⟨?_, ?_⟩
    · intro query page hpage
      exact (CatalogAnswer.page.inj (List.mem_singleton.mp hpage)).1
    · intro query page hlast earlier hone hlt
      obtain ⟨_, hpage⟩ := CatalogAnswer.page.inj (Option.some.inj hlast)
      omega

/-- The answer of the first query comes after that of the search, and its chart is listed. -/
theorem catalog_lists_stale :
    (runs (Catalog.step twoCharts) (.mount initialCharts allCharts)
        [.changeQuery nginxCharts, .respond 1, .respond 0]).map
      (fun catalog => (catalog.view.query, catalog.view.pending, catalog.charts.items)) =
        some (nginxCharts, [], [⟨"bitnami/nginx", ""⟩, ⟨"bitnami/redis", ""⟩]) ∧
    ¬ ∀ catalog, runs (Catalog.step twoCharts) (.mount initialCharts allCharts)
        [.changeQuery nginxCharts, .respond 1, .respond 0] = some catalog →
      catalog.Right twoCharts := by
  have hstale : (runs (Catalog.step twoCharts) (.mount initialCharts allCharts)
      [.changeQuery nginxCharts, .respond 1, .respond 0]).map
        (fun catalog => (catalog.view.query, catalog.view.pending, catalog.charts.items)) =
          some (nginxCharts, [], [⟨"bitnami/nginx", ""⟩, ⟨"bitnami/redis", ""⟩]) := by decide
  refine ⟨hstale, fun hright => ?_⟩
  obtain ⟨catalog, hrun, hcatalog⟩ := Option.map_eq_some_iff.mp hstale
  obtain ⟨hquery, hrest⟩ := Prod.mk.inj hcatalog
  have hredis : ⟨"bitnami/redis", ""⟩ ∈ catalog.charts.items := by
    rw [(Prod.mk.inj hrest).2]
    exact List.mem_cons_of_mem _ List.mem_cons_self
  obtain ⟨page, _, hmem⟩ := (hright catalog hrun).1 _ hredis
  have hnginx : twoCharts.items nginxCharts page = [⟨"bitnami/nginx", ""⟩] := by
    unfold twoCharts
    dsimp only
    exact if_pos rfl
  rw [hquery, hnginx] at hmem
  exact absurd hmem (by decide)

end Schedule

end Kubeapps.Dashboard
