/-
  Chart repositories of type "helm" and the filter rules of an AppRepository
  (cmd/asset-syncer/utils.go: parseRepoURL, compileJQ, satisfy, filterCharts, HelmRepo).

  `gojq` is a parameter. A query is run on the chart itself: what the code passes is the
  chart's JSON decoded again, which has all of its fields. `json.Marshal` does not fail on a
  chart, so the two "Unable to parse chart" errors have no branch here.
-/
import Kubeapps.Helm.Index
import Kubeapps.Lib.Url

namespace Kubeapps.Syncer

open Kubeapps.Lib Kubeapps.Models Kubeapps.Helm

/-- `parseRepoURL`. -/
def parseRepoURL (net : NetUrl) (repoURL : String) : Except String net.Url :=
  net.parseRequestURI (trimSpace repoURL)

/-! ## Filter rules -/

/-- `apprepov1alpha1.FilterRuleSpec`; `vars` are its `Variables`. -/
structure FilterRuleSpec where
  jq : String
  vars : List (String × String)
  deriving DecidableEq, Repr

/-- The first value a `gojq` iterator yields: an error, a Boolean, or anything else (also
    nothing at all), with its printed form. -/
inductive JqResult where
  | error (msg : String)
  | bool (b : Bool)
  | other (text : String)

/-- `gojq.Parse`, `gojq.Compile` and `Code.Run(…).Next()`. -/
structure Gojq where
  Query : Type
  Code : Type
  parse : String → Except String Query
  compile : Query → List String → Except String Code
  run : Code → Chart → List String → JqResult

/-- `gojq` on the one query `.name == $var0`. -/
def Gojq.nameEq : Gojq where
  Query := Unit
  Code := Unit
  parse q := if q = ".name == $var0" then .ok () else .error "unexpected token"
  compile _ names := if names = ["$var0"] then .ok () else .error "variable not defined: $var0"
  run _ c values := .bool (values = [c.name])

/-- `compileJQ`: the code and the values of the variables, in one order. -/
def compileJQ (rt : Runtime) (jq : Gojq) (rule : FilterRuleSpec) :
    Except String (jq.Code × List String) :=
  match jq.parse rule.jq with
  | .error e => .error ("Unable to parse jq query: " ++ e)
  | .ok query =>
      let vars := rt.range rule.vars
      match jq.compile query (vars.map Prod.fst) with
      | .error e => .error ("Unable to compile jq: " ++ e)
      | .ok code => .ok (code, vars.map Prod.snd)

def satisfy (jq : Gojq) (c : Chart) (code : jq.Code) (vars : List String) :
    Except String Bool :=
  match jq.run code c vars with
  | .error e => .error ("Unable to run jq: " ++ e)
  | .other text => .error ("Unable to convert jq result to boolean. Got: " ++ text)
  | .bool b => .ok b

/-- The loop of `filterCharts`. -/
def filterLoop (jq : Gojq) (code : jq.Code) (vars : List String) :
    List Chart → Except String (List Chart)
  | [] => .ok []
  | c :: cs => do
      let satisfied ← satisfy jq c code vars
      let rest ← filterLoop jq code vars cs
      return if satisfied then c :: rest else rest

/-- `filterCharts`. No rule, or one without a query, keeps every chart. -/
def filterCharts (rt : Runtime) (jq : Gojq) (charts : List Chart) (rule : Option FilterRuleSpec) :
    Except String (List Chart) :=
  match rule with
  | none => .ok charts
  | some rule =>
      if rule.jq = "" then .ok charts
      else
        match compileJQ rt jq rule with
        | .error e => .error e
        | .ok (code, vars) => filterLoop jq code vars charts

/-- Without a query every chart is kept. -/
theorem filterCharts_of_no_rule {rule : Option FilterRuleSpec}
    (h : ∀ f, rule = some f → f.jq = "") (rt : Runtime) (jq : Gojq) (charts : List Chart) :
    filterCharts rt jq charts rule = .ok charts := by
  unfold filterCharts
  cases rule with
  | none => rfl
  | some f => simp [h f rfl]

theorem filterLoop_sublist {jq : Gojq} {code : jq.Code} {vars : List String}
    {charts out : List Chart} (h : filterLoop jq code vars charts = .ok out) :
    out.Sublist charts := by
  induction charts generalizing out with
  | nil =>
      cases h
      exact List.Sublist.refl []
  | cons c cs ih =>
      unfold filterLoop at h
      obtain ⟨b, _, h⟩ := bind_eq_ok h
      obtain ⟨rest, hrest, h⟩ := bind_eq_ok h
      cases h
      split
      · exact (ih hrest).cons_cons c
      · exact (ih hrest).cons c

/-- A filter only drops charts. -/
theorem filterCharts_sublist {rt : Runtime} {jq : Gojq} {charts out : List Chart}
    {rule : Option FilterRuleSpec} (h : filterCharts rt jq charts rule = .ok out) :
    out.Sublist charts := by
  unfold filterCharts at h
  split at h
  · cases h
    exact List.Sublist.refl _
  · split at h
    · cases h
      exact List.Sublist.refl _
    · split at h
      · cases h
      · exact filterLoop_sublist h

/-! ## `HelmRepo` -/

variable {β : Type}

/-- `HelmRepo`, without its HTTP client. `β` is the type of index contents. -/
structure HelmRepo (β : Type) where
  content : β
  internal : RepoInternal
  filter : Option FilterRuleSpec

/-- The libraries a sync job calls on an index. `getSha256` is the checksum of the bytes. -/
structure IndexEnv (β : Type) where
  rt : Runtime
  lib : IndexLib β
  jq : Gojq
  getSha256 : β → String

/-- `HelmRepo.Charts`. -/
def HelmRepo.charts (env : IndexEnv β) (r : HelmRepo β) (fetchLatestOnly : Bool) :
    Go (List Chart) := do
  let charts ← chartsFromIndex env.rt env.lib r.content r.internal.repo fetchLatestOnly
  if charts.length = 0 then errors "no charts in repository index"
  else liftErr (filterCharts env.rt env.jq charts r.filter)

theorem liftErr_eq_ok {α : Type} {x : Except String α} {a : α} (h : liftErr x = .ok a) :
    x = .ok a := by
  cases x with
  | error e => cases h
  | ok b =>
      cases h
      rfl

/-- A chart of a Helm repository is one of its index. -/
theorem helmRepo_charts_newChart {env : IndexEnv β} {r : HelmRepo β} {fetchLatestOnly : Bool}
    {cs : List Chart} (h : r.charts env fetchLatestOnly = .ok cs) {c : Chart} (hc : c ∈ cs) :
    ∃ entry, newChart entry r.internal.repo fetchLatestOnly = .ok c := by
  unfold HelmRepo.charts at h
  obtain ⟨charts, hcharts, h⟩ := bind_eq_ok h
  split at h
  · cases h
  · exact mem_chartsFromIndex hcharts
      ((filterCharts_sublist (liftErr_eq_ok h)).mem hc)

theorem mem_helmRepo_charts {env : IndexEnv β} {r : HelmRepo β} {fetchLatestOnly : Bool}
    {cs : List Chart} (h : r.charts env fetchLatestOnly = .ok cs) {c : Chart} (hc : c ∈ cs) :
    (∃ m : Metadata, c.name = pathEscape m.name) ∧ c.id = r.internal.name ++ "/" ++ c.name ∧
      c.repo = r.internal.repo ∧ c.rawIcon = "" ∧ c.iconContentType = "" := by
  obtain ⟨entry, he⟩ := helmRepo_charts_newChart h hc
  exact newChart_id he

/-! ## An index with one version of each chart -/

/-- The entry of version 1.0.0 of a chart. -/
def namedEntry (name : String) : String × Entry :=
  (name, [some {
    metadata := some ⟨name, "1.0.0", "", "", [], [], [], "", "", false, []⟩
    urls := [name ++ "-1.0.0.tgz"]
    created := ""
    digest := "sha256:" ++ name }])

/-- The libraries on contents that list the names of the charts. -/
def namedEnv (names : β → List String) (getSha256 : β → String) : IndexEnv β where
  rt := Runtime.stable
  lib := { unmarshal := fun b => .ok ⟨(names b).map namedEntry⟩, sortEntry := .ok }
  jq := Gojq.nameEq
  getSha256 := getSha256

/-- The rule that keeps the chart of this name. -/
def nameRule (name : String) : FilterRuleSpec := ⟨".name == $var0", [("$var0", name)]⟩

/-- The chart of such an index. -/
def namedChart (r : RepoInternal) (name : String) : Chart where
  id := r.name ++ "/" ++ name
  name := name
  repo := r.repo
  description := ""
  home := ""
  keywords := []
  maintainers := []
  sources := []
  icon := ""
  rawIcon := ""
  iconContentType := ""
  category := ""
  chartVersions := [⟨"1.0.0", "", "", "sha256:" ++ name, [name ++ "-1.0.0.tgz"], "", "", ""⟩]

def bitnami : RepoInternal := ⟨"default", "bitnami", "https://charts.example.com", "helm", ""⟩

theorem validName_bitnami : ValidName bitnami.name := by decide

end Kubeapps.Syncer
