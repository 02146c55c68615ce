/-
  The queries that filter rules are made of, and what `gojq` does with them
  (cmd/asset-syncer/utils.go: compileJQ, satisfy, filterCharts).

  A query compares the name of a chart with variables, or tests it against a variable that is a
  regular expression, and may be negated. `Gojq.Runs` is what is relied on: the text of such a
  query is parsed, compiled with its variables in any order, and yields the value that it has for
  the values in the same order.

  `filterCharts_of_runs`: the charts that are kept are those for which the query is true, in
  whatever order the map of the variables is visited.
-/
import Mathlib.Data.List.Perm.Basic
import Kubeapps.Lib.Merge
import Kubeapps.Syncer.HelmRepo

namespace Kubeapps.Syncer

open Kubeapps.Lib Kubeapps.Models

/-! ## Queries -/

/-- `.name == $a or .name == $b …`, `.name | test($a)` and `… | not`. A variable is written with
    its `$`. -/
inductive JqQuery where
  | oneOf (vars : List String)
  | test (var : String)
  | not (q : JqQuery)
  deriving DecidableEq, Repr

namespace JqQuery

def text : JqQuery → String
  | oneOf vars => " or ".intercalate (vars.map fun var => ".name == " ++ var)
  | test var => ".name | test(" ++ var ++ ")"
  | not q => q.text ++ " | not"

def vars : JqQuery → List String
  | oneOf vars => vars
  | test var => [var]
  | not q => q.vars

/-- The value for a chart with this name; `regexp` compiles a regular expression. -/
def eval (regexp : String → Option (String → Bool)) (value : String → Option String)
    (name : String) : JqQuery → Option Bool
  | oneOf vars => some (vars.any fun var => value var = some name)
  | test var => ((value var).bind regexp).map fun isMatch => isMatch name
  | not q => (q.eval regexp value name).map Bool.not

theorem text_ne_empty {q : JqQuery} (h : q.vars ≠ []) : q.text ≠ "" := by
  have hmem : ∃ c, c ∈ q.text.toList := by
    cases q with
    | oneOf vars =>
        obtain ⟨var, hvar⟩ := List.exists_mem_of_ne_nil vars h
        refine ⟨'.', ?_⟩
        show '.' ∈ (" or ".intercalate (vars.map fun var => ".name == " ++ var)).toList
        rw [String.toList_intercalate]
        apply mem_intercalate_of_mem
          (List.mem_map_of_mem (List.mem_map_of_mem hvar) : (".name == " ++ var).toList ∈ _)
        rw [String.toList_append]
        exact List.mem_append_left _ (by decide)
    | test var =>
        refine ⟨'.', ?_⟩
        show '.' ∈ (".name | test(" ++ var ++ ")").toList
        rw [String.toList_append, String.toList_append]
        exact List.mem_append_left _ (List.mem_append_left _ (by decide))
    | not q =>
        refine ⟨'|', ?_⟩
        show '|' ∈ (q.text ++ " | not").toList
        rw [String.toList_append]
        exact List.mem_append_right _ (by decide)
  obtain ⟨c, hc⟩ := hmem
  intro hempty
  rw [hempty] at hc
  exact absurd hc List.not_mem_nil

end JqQuery

/-! ## `gojq` on them -/

/-- `gojq` parses the query, compiles it with its variables in any order, and runs it. -/
def Gojq.Runs (jq : Gojq) (regexp : String → Option (String → Bool)) (q : JqQuery) : Prop :=
  ∃ query, jq.parse q.text = .ok query ∧
    ∀ vars : List (String × String), (vars.map Prod.fst).Perm q.vars →
      ∃ code, jq.compile query (vars.map Prod.fst) = .ok code ∧
        ∀ (chart : Chart) (b : Bool),
          q.eval regexp (fun var => vars.lookup var) chart.name = some b →
            jq.run code chart (vars.map Prod.snd) = .bool b

/-- A `gojq` for one query. The code is the list of the variables. -/
def Gojq.only (regexp : String → Option (String → Bool)) (q : JqQuery) : Gojq where
  Query := Unit
  Code := List String
  parse text := if text = q.text then .ok () else .error "unexpected token"
  compile _ names :=
    if ∀ var ∈ q.vars, var ∈ names then .ok names else .error "variable not defined"
  run names chart values :=
    match q.eval regexp (fun var => (names.zip values).lookup var) chart.name with
    | some b => .bool b
    | none => .error "invalid regular expression"

theorem Gojq.runs_only (regexp : String → Option (String → Bool)) (q : JqQuery) :
    (Gojq.only regexp q).Runs regexp q := by
  refine ⟨(), if_pos rfl, fun vars hvars => ⟨vars.map Prod.fst, if_pos ?_, ?_⟩⟩
  · intro var hvar
    exact hvars.mem_iff.mpr hvar
  · intro chart b hb
    show (match q.eval regexp (fun var =>
      ((vars.map Prod.fst).zip (vars.map Prod.snd)).lookup var) chart.name with
      | some b => JqResult.bool b
      | none => _) = _
    have hzip : (vars.map Prod.fst).zip (vars.map Prod.snd) = vars := by
      rw [List.zip_map', List.map_id']
    rw [hzip, hb]

section Filter

variable {jq : Gojq} {regexp : String → Option (String → Bool)} {q : JqQuery}

/-- The value of a variable does not depend on the order of a map. -/
theorem lookup_perm {vars vars' : List (String × String)} (h : vars.Perm vars')
    (hnodup : (vars.map Prod.fst).Nodup) (var : String) : vars.lookup var = vars'.lookup var := by
  have hnodup' : (vars'.map Prod.fst).Nodup := (h.map Prod.fst).nodup_iff.mp hnodup
  apply Option.ext
  intro value
  show vars.lookup var = some value ↔ vars'.lookup var = some value
  rw [← mem_iff_lookup hnodup, ← mem_iff_lookup hnodup']
  exact h.mem_iff

theorem filterLoop_eq_filter {code : jq.Code} {vars : List String} {keep : Chart → Bool}
    (h : ∀ chart, jq.run code chart vars = .bool (keep chart)) (charts : List Chart) :
    filterLoop jq code vars charts = .ok (charts.filter keep) := by
  induction charts with
  | nil => rfl
  | cons chart charts ih =>
      unfold filterLoop satisfy
      rw [h chart, ih, List.filter_cons]
      rfl

/-- The rule with this query keeps the charts for which it is true. -/
theorem filterCharts_of_runs (hjq : jq.Runs regexp q) {rule : FilterRuleSpec}
    (htext : rule.jq = q.text) (hne : q.vars ≠ [])
    (hvars : (rule.vars.map Prod.fst).Perm q.vars) (hnodup : (rule.vars.map Prod.fst).Nodup)
    {keep : Chart → Bool}
    (hkeep : ∀ chart : Chart,
      q.eval regexp (fun var => rule.vars.lookup var) chart.name = some (keep chart))
    (rt : Runtime) (charts : List Chart) :
    filterCharts rt jq charts (some rule) = .ok (charts.filter keep) := by
  obtain ⟨query, hparse, hcompile⟩ := hjq
  have hperm := rt.range_perm rule.vars
  obtain ⟨code, hcode, hrun⟩ := hcompile (rt.range rule.vars) ((hperm.map Prod.fst).trans hvars)
  have hcompiled : compileJQ rt jq rule = .ok (code, (rt.range rule.vars).map Prod.snd) := by
    unfold compileJQ
    rw [htext, hparse]
    simp only [hcode]
  unfold filterCharts
  simp only
  rw [htext, if_neg (JqQuery.text_ne_empty hne), hcompiled]
  apply filterLoop_eq_filter
  intro chart
  apply hrun
  rw [← hkeep chart]
  congr 1
  funext var
  exact (lookup_perm hperm.symm hnodup var).symm

end Filter

end Kubeapps.Syncer
