/-
  The text of the statement of `removeMissingCharts` (cmd/asset-syncer/postgresql_utils.go).

  The ids are put between quotes as they are. What they are made of was escaped where the chart
  was made, for another purpose: the name of a Helm chart by `newChart`, that of an OCI
  repository by `pullAndExtract`, both with `url.PathEscape`, which leaves no quote.

  `rightDelete_iff`: for what `Charts` returns the text is one DELETE with these ids as its
  literals, exactly if there is a chart.
-/
import Kubeapps.Lib.SqlDelete
import Kubeapps.Syncer.Sync

namespace Kubeapps.Syncer

open Kubeapps.Lib Kubeapps.Lib.Sql Kubeapps.Models

/-- The statement is one DELETE on the rows of the repository, its literals denote the ids of the
    charts, and it removes the rows with other ids and no other row. -/
structure RightDelete (db : Database) (k : RepoKey) (charts : List Chart) : Prop where
  statement : (lex (removeMissingText (charts.map Chart.id)).toList).bind readDelete =
    some ⟨"charts", "chart_id", charts.map Chart.id, [("repo_name", 1), ("repo_namespace", 2)]⟩
  removed : ∃ db', removeMissingCharts db k (charts.map Chart.id) = .ok db' ∧
    (∀ id, db'.charts k id = if id ∈ charts.map Chart.id then db.charts k id else none) ∧
    ∀ k', k' ≠ k → db'.charts k' = db.charts k'

/-- The tokens after the list. -/
def removeMissingTokens : List Token :=
  [.word "AND", .word "repo_name", .op "=", .param 1, .word "AND", .word "repo_namespace", .op "=",
    .param 2]

theorem lexFrom_removeMissingHead :
    lexFrom .none removeMissingHead.toList = some (deleteHead "charts" "chart_id", .none) := by
  decide +kernel

theorem lexes_removeMissingTail :
    Lexes " AND repo_name = $1 AND repo_namespace = $2".toList removeMissingTokens :=
  ⟨removeMissingTokens.dropLast, .param 2, [.param 2], by decide +kernel, rfl, rfl⟩

/-- The tokens of the text. -/
theorem lex_removeMissingText {ids : List String} (hq : ∀ id ∈ ids, '\'' ∉ id.toList) :
    lex (removeMissingText ids).toList =
      some (deleteHead "charts" "chart_id" ++ (idTokens ids ++ removeMissingTokens)) := by
  have htail : removeMissingTail = ")" ++ " AND repo_name = $1 AND repo_namespace = $2" := by
    decide
  unfold removeMissingText
  rw [htail]
  exact lex_notIn lexFrom_removeMissingHead lexes_removeMissingTail hq

theorem deleteCharts_rows (db : Database) (k : RepoKey) (ids : List String) :
    (∀ id, (db.deleteCharts k fun id => !ids.contains id).charts k id =
      if id ∈ ids then db.charts k id else none) ∧
      ∀ k', k' ≠ k → (db.deleteCharts k fun id => !ids.contains id).charts k' = db.charts k' := by
  constructor
  · intro id
    simp only [Database.deleteCharts, Function.update_self]
    by_cases hid : id ∈ ids
    · simp [hid]
    · simp [hid]
  · intro k' hk'
    simp only [Database.deleteCharts, Function.update_of_ne hk']

/-- For every list of charts that a repository of either type gives. -/
theorem rightDelete_iff (db : Database) (k : RepoKey) (hname : ValidName k.name)
    (charts : List Chart) (hret : Returned k charts) : RightDelete db k charts ↔ charts ≠ [] := by
  have hq : ∀ id ∈ charts.map Chart.id, '\'' ∉ id.toList := by
    intro id hid
    obtain ⟨c, hc, rfl⟩ := List.mem_map.mp hid
    exact returned_no_quote hname hret hc
  constructor
  · rintro ⟨hstatement, _⟩ rfl
    rw [lex_removeMissingText hq] at hstatement
    cases hstatement
  · intro hne
    have hids : charts.map Chart.id ≠ [] := fun hnil => hne (List.map_eq_nil_iff.mp hnil)
    constructor
    · rw [lex_removeMissingText hq, Option.bind_some]
      exact readDelete_idTokens hids rfl
    · exact ⟨_, removeMissingCharts_ok hids hq db k, deleteCharts_rows db k _⟩

/-- The charts of an index with one chart of this name. -/
def oneChartIndex (name : String) (filter : Option FilterRuleSpec) : Go (List Chart) :=
  (nginxRepo filter).charts (namedEnv (fun _ => [name]) fun _ => "") false

/-- A name that would end the literal and the statement. -/
theorem rightDelete_iff_breakout : ∃ charts,
    charts.map Chart.id = ["bitnami/x%27%29%3B%20DROP%20TABLE%20charts%3B%20--"] ∧
      RightDelete Database.empty ⟨"default", "bitnami"⟩ charts := by
  have hids : (oneChartIndex "x'); DROP TABLE charts; --" none).toOption.map (List.map Chart.id) =
      some ["bitnami/x%27%29%3B%20DROP%20TABLE%20charts%3B%20--"] := by
    decide +kernel
  obtain ⟨charts, hcharts, heq⟩ := Option.map_eq_some_iff.mp hids
  have hok : oneChartIndex "x'); DROP TABLE charts; --" none = .ok charts := by
    cases hindex : oneChartIndex "x'); DROP TABLE charts; --" none with
    | error f =>
        rw [hindex] at hcharts
        cases hcharts
    | ok cs =>
        rw [hindex] at hcharts
        cases hcharts
        rfl
  refine ⟨charts, heq, (rightDelete_iff Database.empty ⟨"default", "bitnami"⟩ validName_bitnami
    charts (.helm _ (nginxRepo none) false rfl hok)).2 ?_⟩
  rintro rfl
  cases heq

/-- A filter that keeps no chart. -/
theorem not_rightDelete_empty :
    Returned ⟨"default", "bitnami"⟩ [] ∧
      ¬ RightDelete Database.empty ⟨"default", "bitnami"⟩ [] := by
  have hnone : oneChartIndex "nginx" (some (nameRule "redis")) = .ok [] := by decide +kernel
  refine ⟨.helm _ (nginxRepo (some (nameRule "redis"))) false rfl hnone, ?_⟩
  rintro ⟨hstatement, _⟩
  rw [List.map_nil, lex_removeMissingText fun id hid => absurd hid List.not_mem_nil] at hstatement
  cases hstatement

end Kubeapps.Syncer
