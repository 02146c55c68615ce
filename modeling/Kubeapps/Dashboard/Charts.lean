/-
  The charts of the dashboard's store (src/dashboard/src/reducers/charts.ts: chartsReducer,
  chartsSelectedReducer).

  The attributes of charts, versions and categories, and the schemas, are their JSON texts: nothing
  here looks into them. `size` is left out, which no action changes.
-/
import Kubeapps.Lib.UniqBy

namespace Kubeapps.Dashboard

open Kubeapps.Lib

/-- `IChart`. -/
structure Chart where
  id : String
  attributes : String
  deriving DecidableEq, Repr

/-- `IChartVersion`. -/
structure ChartVersion where
  version : String
  attributes : String
  deriving DecidableEq, Repr

/-- `IChartState["selected"]`. -/
structure SelectedChart where
  error : Option String
  version : Option ChartVersion
  versions : List ChartVersion
  readme : Option String
  readmeError : Option String
  values : Option String
  schema : Option String
  deriving DecidableEq, Repr

/-- What `receiveDeployedChartVersion` has set. -/
structure DeployedChart where
  chartVersion : Option ChartVersion
  values : Option String
  schema : Option String
  deriving DecidableEq, Repr

/-- `IChartState`. -/
structure ChartState where
  isFetching : Bool
  hasFinishedFetching : Bool
  items : List Chart
  categories : List String
  selected : SelectedChart
  deployed : DeployedChart
  deriving DecidableEq, Repr

/-- `ChartsAction`. `other` is one that the reducer has no case for: `requestChart`,
    `requestChartsCategories`, or one of the namespaces. -/
inductive ChartsAction where
  | requestCharts (page : Option Nat)
  | errorChart (err : String)
  | clearErrorChart
  | errorChartCategories (err : String)
  | receiveCharts (items : List Chart) (page totalPages : Nat)
  | receiveChartCategories (categories : List String)
  | receiveChartVersions (versions : List ChartVersion)
  | selectChartVersion (chartVersion : ChartVersion) (values schema : Option String)
  | requestDeployedChartVersion
  | receiveDeployedChartVersion (chartVersion : ChartVersion) (values schema : Option String)
  | resetChartVersion
  | resetRequestCharts
  | selectReadme (readme : String)
  | errorReadme (message : String)
  | other
  deriving DecidableEq, Repr

def initialSelected : SelectedChart := ⟨none, none, [], none, none, none, none⟩

/-- `initialState`. -/
def initialCharts : ChartState := ⟨false, false, [], [], initialSelected, ⟨none, none, none⟩⟩

/-- `chartsSelectedReducer`. -/
def chartsSelectedReducer (state : SelectedChart) : ChartsAction → SelectedChart
  | .selectChartVersion chartVersion values schema =>
      { state with
        error := none, readmeError := none, version := some chartVersion, values := values,
        schema := schema }
  | .receiveChartVersions versions => { state with error := none, versions := versions }
  | .selectReadme readme => { state with readme := some readme, readmeError := none }
  | .errorChart err => { state with error := some err }
  | .clearErrorChart => { state with error := none }
  | .errorReadme message => { state with readmeError := some message }
  | .resetChartVersion => initialSelected
  | _ => state

/-- `chartsReducer`. -/
def chartsReducer (state : ChartState) (action : ChartsAction) : ChartState :=
  match action with
  | .requestCharts _ => { state with isFetching := true }
  | .receiveCharts items page totalPages =>
      { state with
        isFetching := false
        hasFinishedFetching := decide (page ≥ totalPages)
        items := uniqBy Chart.id (state.items ++ items) }
  | .receiveChartCategories categories => { state with categories := categories }
  | .receiveChartVersions _ | .selectChartVersion .. =>
      { state with isFetching := false, selected := chartsSelectedReducer state.selected action }
  | .requestDeployedChartVersion => { state with deployed := ⟨none, none, none⟩ }
  | .receiveDeployedChartVersion chartVersion values schema =>
      { state with isFetching := false, deployed := ⟨some chartVersion, values, schema⟩ }
  | .resetRequestCharts => { state with hasFinishedFetching := false, items := [] }
  | .resetChartVersion | .selectReadme _ | .errorReadme _ | .errorChart _ =>
      { state with
        isFetching := false, hasFinishedFetching := false
        selected := chartsSelectedReducer state.selected action }
  | .clearErrorChart => { state with selected := chartsSelectedReducer state.selected action }
  | .errorChartCategories _ => { state with isFetching := false, categories := [] }
  | .other => state

end Kubeapps.Dashboard
