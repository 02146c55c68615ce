/-
  The data model shared by the components (pkg/chart/models/chart.go).

  A time is its printed form. `Repo` is a value: no code of the models shares or mutates it.
  `Chart.info` of the database is the chart itself: `json.Marshal` writes every field, so a
  row and the chart it came from determine each other.
-/
import Mathlib.Tactic.Cases

namespace Kubeapps.Models

/-- `models.Repo`. -/
structure Repo where
  ns : String
  name : String
  url : String
  type : String
  deriving DecidableEq, Repr

/-- `models.RepoInternal`. -/
structure RepoInternal where
  ns : String
  name : String
  url : String
  type : String
  authorizationHeader : String
  deriving DecidableEq, Repr

/-- The part of a repository that travels with its charts. -/
def RepoInternal.repo (r : RepoInternal) : Repo := ⟨r.ns, r.name, r.url, r.type⟩

structure Maintainer where
  name : String
  email : String
  url : String
  deriving DecidableEq, Repr

/-- `models.ChartVersion`. -/
structure ChartVersion where
  version : String
  appVersion : String
  created : String
  digest : String
  urls : List String
  readme : String
  values : String
  schema : String
  deriving DecidableEq, Repr

/-- `models.Chart`. -/
structure Chart where
  id : String
  name : String
  repo : Repo
  description : String
  home : String
  keywords : List String
  maintainers : List Maintainer
  sources : List String
  icon : String
  rawIcon : String
  iconContentType : String
  category : String
  chartVersions : List ChartVersion
  deriving DecidableEq, Repr

/-- The strings of a chart. -/
def chartStrings (c : Chart) : List String :=
  [c.id, c.name, c.repo.ns, c.repo.name, c.repo.url, c.repo.type, c.description, c.home, c.icon,
    c.rawIcon, c.iconContentType, c.category] ++ c.keywords ++ c.sources ++
  c.maintainers.flatMap (fun m => [m.name, m.email, m.url]) ++
  c.chartVersions.flatMap fun v =>
    [v.version, v.appVersion, v.created, v.digest, v.readme, v.values, v.schema] ++ v.urls

/-- A chart without the two fields `updateIcon` fills in later. -/
def Chart.noIcon (c : Chart) : Chart := { c with rawIcon := "", iconContentType := "" }

@[simp] theorem Chart.noIcon_id (c : Chart) : c.noIcon.id = c.id := rfl

@[simp] theorem Chart.noIcon_name (c : Chart) : c.noIcon.name = c.name := rfl

@[simp] theorem Chart.noIcon_chartVersions (c : Chart) :
    c.noIcon.chartVersions = c.chartVersions := rfl

/-- `models.ChartFiles`. -/
structure ChartFiles where
  id : String
  readme : String
  values : String
  schema : String
  repo : Repo
  digest : String
  deriving DecidableEq, Repr

/-- The strings of `ChartFiles`. -/
def chartFilesStrings (f : ChartFiles) : List String :=
  [f.id, f.readme, f.values, f.schema, f.repo.ns, f.repo.name, f.repo.url, f.repo.type, f.digest]

/-- What `FetchFiles` returns: the values of `readme`, `values` and `schema`, if present. -/
structure FileMap where
  readme : Option String
  values : Option String
  schema : Option String
  deriving DecidableEq, Repr

end Kubeapps.Models
