/-
  One chart by its id (cmd/assetsvc/pkg/utils/postgresql_utils.go: GetChartWithFallback,
  GetChartVersionWithFallback).

  An id that no row has is looked for again with `ILIKE`: the first slash of the id becomes a `%`,
  and what is left of the id is a pattern too. The answer to a query of one row may be any row that
  matches (`Pick`), so a query is sure of its answer only if a single row does
  (`queryOne_of_unique`, `exists_pick`).

  An id is bytes here: PostgreSQL refuses a text that is not UTF-8 or has a zero byte.
-/
import Kubeapps.Assetsvc.Charts
import Kubeapps.Lib.Percent

namespace Kubeapps.Assetsvc

open Kubeapps.Lib Kubeapps.Models

/-! ## The queries -/

/-- `LIKE`: the pattern and the text. A pattern that ends with its escape character is an error of
    PostgreSQL if it gets there; no text matches it. -/
def like : List Char → List Char → Bool
  | [], text => text.isEmpty
  | '%' :: pattern, text => text.tails.any (like pattern)
  | '_' :: pattern, text =>
      match text with
      | [] => false
      | _ :: text => like pattern text
  | ['\\'], _ => false
  | '\\' :: c :: pattern, text =>
      match text with
      | [] => false
      | d :: text => c == d && like pattern text
  | c :: pattern, text =>
      match text with
      | [] => false
      | d :: text => c == d && like pattern text

/-- `text ILIKE pattern`. -/
def Postgres.ilike (pg : Postgres) (text pattern : String) : Bool :=
  like (pattern.toList.map pg.foldCase) (text.toList.map pg.foldCase)

/-- A parameter of a text column. -/
def textParam (bs : Bytes) : Except String String :=
  if 0 ∈ bs then .error "pq: invalid byte sequence for encoding \"UTF8\": 0x00"
  else
    match ofBytes? bs with
    | some s => .ok s
    | none => .error "pq: invalid byte sequence for encoding \"UTF8\""

/-- The rows with `repo_namespace = $1` whose `chart_id` compares with `$2`. A NULL does not. -/
def rowsWhere (table : ChartTable) (op : String → String → Bool) (ns chartID : String) :
    List ChartRow :=
  table.rows.filter fun row =>
    row.repoNamespace = ns && row.chartId.any fun id => op id chartID

/-- `QueryOne` on these rows. -/
def queryOne (table : ChartTable) (pick : Pick) (op : String → String → Bool) (ns : String)
    (chartID : Bytes) : Except String Chart := do
  let ns ← textParam (bytes ns)
  let chartID ← textParam chartID
  match pick.pick (rowsWhere table op ns chartID) with
  | none => throw "sql: no rows in result set"
  | some row => return row.info

/-- The two queries of both functions. -/
def queryWithFallback (pg : Postgres) (table : ChartTable) (pick : Pick) (ns : String)
    (chartID : Bytes) (withFallback : Bool) : Except String Chart :=
  match queryOne table pick (· == ·) ns chartID with
  | .ok chart => .ok chart
  | .error err =>
      match chartID.splitOn (ascii '/') with
      | [repo, name] =>
          if withFallback then
            queryOne table pick pg.ilike ns (repo ++ ascii '%' :: name)
          else .error err
      | _ => .error err

/-- `GetChartWithFallback`. The icon that is decoded is the one that was encoded. -/
def getChartWithFallback (pg : Postgres) (table : ChartTable) (pick : Pick) (ns : String)
    (chartID : Bytes) (withFallback : Bool) : Except String Chart :=
  queryWithFallback pg table pick ns chartID withFallback

def errChartVersionNotFound : String := "chart version not found"

/-- The chart with its first version of this name only. -/
def keepVersion (chart : Chart) (version : String) : Except String Chart :=
  match chart.chartVersions.find? fun c => c.version = version with
  | some c => .ok { chart with chartVersions := [c] }
  | none => .error errChartVersionNotFound

/-- `GetChartVersionWithFallback`. -/
def getChartVersionWithFallback (pg : Postgres) (table : ChartTable) (pick : Pick) (ns : String)
    (chartID : Bytes) (version : String) (withFallback : Bool) : Except String Chart := do
  let chart ← queryWithFallback pg table pick ns chartID withFallback
  keepVersion chart version

def enableFallbackQueryMode : Bool := true

/-- `GetChart`. -/
def getChart (pg : Postgres) (table : ChartTable) (pick : Pick) (ns : String) (chartID : Bytes) :
    Except String Chart :=
  getChartWithFallback pg table pick ns chartID enableFallbackQueryMode

/-- `GetChartVersion`. -/
def getChartVersion (pg : Postgres) (table : ChartTable) (pick : Pick) (ns : String)
    (chartID : Bytes) (version : String) : Except String Chart :=
  getChartVersionWithFallback pg table pick ns chartID version enableFallbackQueryMode

/-! ## One query -/

theorem textParam_bytes {s : String} (h : Char.ofNat 0 ∉ s.toList) :
    textParam (bytes s) = .ok s := by
  have hzero : (0 : UInt8) ∉ bytes s := by
    intro hmem
    exact h ((ascii_mem_bytes (c := Char.ofNat 0) (by decide)).mp hmem)
  unfold textParam
  rw [if_neg hzero, ofBytes?_bytes]

theorem textParam_zero {s : String} (h : Char.ofNat 0 ∈ s.toList) :
    textParam (bytes s) = .error "pq: invalid byte sequence for encoding \"UTF8\": 0x00" :=
  if_pos ((ascii_mem_bytes (c := Char.ofNat 0) (by decide)).mpr h)

section

variable {table : ChartTable} {pick : Pick} {op : String → String → Bool} {ns chartID : String}
  {row : ChartRow}

theorem mem_rowsWhere : row ∈ rowsWhere table op ns chartID ↔
    row ∈ table.rows ∧ row.repoNamespace = ns ∧ ∃ id, row.chartId = some id ∧ op id chartID = true := by
  unfold rowsWhere
  rw [List.mem_filter, Bool.and_eq_true, decide_eq_true_iff, Option.any_eq_true]

theorem queryOne_eq (hns : Char.ofNat 0 ∉ ns.toList) (hid : Char.ofNat 0 ∉ chartID.toList) :
    queryOne table pick op ns (bytes chartID) =
      match pick.pick (rowsWhere table op ns chartID) with
      | none => .error "sql: no rows in result set"
      | some row => .ok row.info := by
  unfold queryOne
  rw [textParam_bytes hns, textParam_bytes hid]
  rfl

theorem queryOne_zero (table : ChartTable) (pick : Pick) (op : String → String → Bool)
    (ns : String) {chartID : String} (hid : Char.ofNat 0 ∈ chartID.toList) :
    ∃ err, queryOne table pick op ns (bytes chartID) = .error err := by
  unfold queryOne
  rw [textParam_zero hid]
  cases textParam (bytes ns) with
  | error err => exact ⟨err, rfl⟩
  | ok ns => exact ⟨_, rfl⟩

/-- The only row that matches is the answer. -/
theorem queryOne_of_unique (hns : Char.ofNat 0 ∉ ns.toList) (hid : Char.ofNat 0 ∉ chartID.toList)
    (hrow : ∀ row', row' ∈ rowsWhere table op ns chartID ↔ row' = row) :
    queryOne table pick op ns (bytes chartID) = .ok row.info := by
  rw [queryOne_eq hns hid]
  cases hpick : pick.pick (rowsWhere table op ns chartID) with
  | none =>
      have hne : rowsWhere table op ns chartID ≠ [] :=
        List.ne_nil_of_mem ((hrow row).mpr rfl)
      exact absurd hpick (pick.some_of_ne_nil _ hne)
  | some row' => rw [(hrow row').mp (pick.mem _ _ hpick)]

theorem queryOne_of_none (hns : Char.ofNat 0 ∉ ns.toList) (hid : Char.ofNat 0 ∉ chartID.toList)
    (hrow : ∀ row', row' ∉ rowsWhere table op ns chartID) :
    queryOne table pick op ns (bytes chartID) = .error "sql: no rows in result set" := by
  rw [queryOne_eq hns hid]
  cases hpick : pick.pick (rowsWhere table op ns chartID) with
  | none => rfl
  | some row' => exact absurd (pick.mem _ _ hpick) (hrow row')

/-- The answer is one of the rows that match, if there are any. -/
theorem queryOne_cases (table : ChartTable) (pick : Pick) (op : String → String → Bool)
    (hns : Char.ofNat 0 ∉ ns.toList) (hid : Char.ofNat 0 ∉ chartID.toList) :
    (rowsWhere table op ns chartID = [] ∧
        queryOne table pick op ns (bytes chartID) = .error "sql: no rows in result set") ∨
      ∃ row ∈ rowsWhere table op ns chartID,
        queryOne table pick op ns (bytes chartID) = .ok row.info := by
  rw [queryOne_eq hns hid]
  cases hpick : pick.pick (rowsWhere table op ns chartID) with
  | none =>
      by_cases hrows : rowsWhere table op ns chartID = []
      · exact .inl ⟨hrows, rfl⟩
      · exact absurd hpick (pick.some_of_ne_nil _ hrows)
  | some row => exact .inr ⟨row, pick.mem _ _ hpick, rfl⟩

/-- Answer with this row whenever it matches. -/
def Pick.prefer (row : ChartRow) : Pick where
  pick rows := if row ∈ rows then some row else rows.head?
  mem rows row' h := by
    by_cases hmem : row ∈ rows
    · rw [if_pos hmem] at h
      rw [← Option.some.inj h]
      exact hmem
    · rw [if_neg hmem] at h
      exact List.mem_of_mem_head? h
  some_of_ne_nil rows hne := by
    by_cases hmem : row ∈ rows
    · rw [if_pos hmem]
      exact Option.some_ne_none row
    · rw [if_neg hmem]
      exact fun hnone => hne (List.head?_eq_none_iff.mp hnone)

/-- Every row that matches may be the answer. -/
theorem queryOne_prefer (hns : Char.ofNat 0 ∉ ns.toList) (hid : Char.ofNat 0 ∉ chartID.toList)
    (hrow : row ∈ rowsWhere table op ns chartID) :
    queryOne table (Pick.prefer row) op ns (bytes chartID) = .ok row.info := by
  rw [queryOne_eq hns hid]
  show (match (if row ∈ rowsWhere table op ns chartID then some row else _) with
    | none => _
    | some row => _) = _
  rw [if_pos hrow]

end

end Kubeapps.Assetsvc
