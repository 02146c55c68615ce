/-
  The queries of the catalog on the table `charts` (cmd/assetsvc/pkg/utils/postgresql_utils.go:
  GenerateWhereClause, GetPaginatedChartList, GetChartWithFallback,
  GetChartVersionWithFallback).

  The text of a `WHERE` clause and its parameters are made as in the source; what PostgreSQL makes
  of them is `Postgres.where_`, a predicate on rows or an error. So are the collation of the
  database and the folding of `ILIKE`. `RowOrder` is one way to answer `ORDER BY (info->>'name')`:
  rows with names that compare equal may come in any order, which every query may choose anew.
  Likewise `Pick` is one way to answer a query of one row without an order.

  `info` is the chart (`Models.Chart`), as in the database of the sync job. A serial has four
  bytes.
-/
import Mathlib.Algebra.Group.Nat.Defs
import Kubeapps.Lib.Paging
import Kubeapps.Lib.Text
import Kubeapps.Models.Chart

namespace Kubeapps.Assetsvc

open Kubeapps.Lib Kubeapps.Models

/-! ## The table -/

/-- A row of `charts`. -/
structure ChartRow where
  id : Nat
  repoName : String
  repoNamespace : String
  chartId : Option String
  info : Chart
  deriving DecidableEq, Repr

structure ChartTable where
  rows : List ChartRow
  serial : ∀ row ∈ rows, row.id < 2 ^ 31
  primaryKey : (rows.map ChartRow.id).Nodup
  unique : ∀ row ∈ rows, ∀ row' ∈ rows, row.repoName = row'.repoName →
    row.repoNamespace = row'.repoNamespace → row.chartId = row'.chartId → row.chartId ≠ none →
      row = row'

theorem ChartTable.nodup (table : ChartTable) : table.rows.Nodup :=
  List.Nodup.of_map ChartRow.id table.primaryKey

theorem ChartTable.length_le (table : ChartTable) : table.rows.length ≤ 2 ^ 31 := by
  have hsub : table.rows.map ChartRow.id ⊆ List.range (2 ^ 31) := by
    intro i hi
    obtain ⟨row, hrow, rfl⟩ := List.mem_map.mp hi
    exact List.mem_range.mpr (table.serial row hrow)
  have hle := (List.subperm_of_subset table.primaryKey hsub).length_le
  rwa [List.length_map, List.length_range] at hle

/-- What PostgreSQL does with a query. -/
structure Postgres where
  where_ : String → List String → Except String (ChartRow → Bool)
  le : String → String → Bool
  le_total : ∀ a b, le a b = true ∨ le b a = true
  le_trans : ∀ a b c, le a b = true → le b c = true → le a c = true
  foldCase : Char → Char

/-- `ORDER BY (info->>'name') ASC`. -/
def Postgres.NameLe (pg : Postgres) (row row' : ChartRow) : Prop :=
  pg.le row.info.name row'.info.name = true

instance (pg : Postgres) : DecidableRel pg.NameLe :=
  fun _ _ => inferInstanceAs (Decidable (_ = _))

/-- The order of the rows in the answer to one query. -/
structure RowOrder (pg : Postgres) where
  sort : List ChartRow → List ChartRow
  isOrder : ∀ rows, IsOrder pg.NameLe rows (sort rows)

/-- Some way to answer a query: rows with equal names stay as they are in the table. -/
def RowOrder.stable (pg : Postgres) : RowOrder pg where
  sort rows := rows.insertionSort pg.NameLe
  isOrder rows :=
    have : Std.Total pg.NameLe := ⟨fun a b => pg.le_total a.info.name b.info.name⟩
    have : IsTrans ChartRow pg.NameLe :=
      ⟨fun a b c => pg.le_trans a.info.name b.info.name c.info.name⟩
    ⟨List.perm_insertionSort _ rows, List.pairwise_insertionSort _ rows⟩

/-- Answer queries for `charts` with `l`. -/
def RowOrder.ofList {pg : Postgres} {charts l : List ChartRow} (hl : IsOrder pg.NameLe charts l) : RowOrder pg where
  sort rows := if rows = charts then l else (RowOrder.stable pg).sort rows
  isOrder rows := by
    by_cases hrows : rows = charts
    · rw [if_pos hrows, hrows]
      exact hl
    · rw [if_neg hrows]
      exact (RowOrder.stable pg).isOrder rows

theorem RowOrder.ofList_sort {pg : Postgres} {charts l : List ChartRow} (hl : IsOrder pg.NameLe charts l) :
    (RowOrder.ofList hl).sort charts = l := if_pos rfl

/-- The row that is the answer to one query of one row. -/
structure Pick where
  pick : List ChartRow → Option ChartRow
  mem : ∀ rows row, pick rows = some row → row ∈ rows
  some_of_ne_nil : ∀ rows, rows ≠ [] → pick rows ≠ none

/-! ## Lists of charts -/

structure ChartQuery where
  ns : String
  chartName : String
  version : String
  appVersion : String
  searchQuery : String
  repos : List String
  categories : List String
  deriving DecidableEq, Repr

/-- `$n`. -/
def param (n : Nat) : String := "$" ++ toString n

/-- A clause for each value that is not empty, with the parameters so far. -/
def valueClauses (clause : String → String) (params values : List String) :
    List String × List String :=
  values.foldl (fun (params, clauses) value =>
    if value ≠ "" then
      (params ++ [value], clauses ++ [clause (param (params.length + 1))])
    else (params, clauses)) (params, [])

/-- The disjunction of the clauses for a list of values, if there are any. -/
def addValueClauses (clause : String → String) (values : List String)
    (acc : List String × List String) : List String × List String :=
  let (params, clauses) := valueClauses clause acc.1 values
  if clauses ≠ [] then (params, acc.2 ++ ["(" ++ " OR ".intercalate clauses ++ ")"])
  else (params, acc.2)

/-- The jsonb literal for a version and an app version. -/
def versionsLiteral (version appVersion : String) : String :=
  "[\x7b\"version\":\"" ++ version ++ "\",\"app_version\":\"" ++ appVersion ++ "\"\x7d]"

/-- The columns that a search looks at. -/
def searchColumns : List String :=
  ["info ->> 'name'", "info ->> 'description'", "info -> 'repo' ->> 'name'", "info ->> 'keywords'",
    "info ->> 'sources'", "info -> 'maintainers' ->> 'name'"]

/-- `GenerateWhereClause`: the clause and its parameters. -/
def generateWhereClause (kubeappsNamespace : String) (cq : ChartQuery) : String × List String :=
  let acc : List String × List String := ([], [])
  let acc :=
    if cq.ns ≠ "_all" then
      let params := acc.1 ++ [cq.ns, kubeappsNamespace]
      (params, acc.2 ++ ["(repo_namespace = " ++ param (params.length - 1) ++
        " OR repo_namespace = " ++ param params.length ++ ")"])
    else acc
  let acc :=
    if cq.chartName ≠ "" then
      let params := acc.1 ++ [cq.chartName]
      (params, acc.2 ++ ["(info->>'name' = " ++ param params.length ++ ")"])
    else acc
  let acc :=
    if cq.version ≠ "" ∧ cq.appVersion ≠ "" then
      let params := acc.1 ++ [versionsLiteral cq.version cq.appVersion]
      (params, acc.2 ++ ["(info->'chartVersions' @> " ++ param params.length ++ "::jsonb)"])
    else acc
  let acc := addValueClauses (fun p => "(repo_name = " ++ p ++ ")") cq.repos acc
  let acc := addValueClauses (fun p => "info->>'category' = " ++ p) cq.categories acc
  let acc :=
    if cq.searchQuery ≠ "" then
      let params := acc.1 ++ ["%" ++ cq.searchQuery ++ "%"]
      let like (column : String) := "(" ++ column ++ " ILIKE " ++ param params.length ++ ")"
      (params, acc.2 ++ ["(" ++ " OR ".intercalate (searchColumns.map like) ++ ")"])
    else acc
  if acc.2 ≠ [] then ("WHERE " ++ " AND ".intercalate acc.2, acc.1) else ("", acc.1)

/-- The rows of a query, before they are ordered. -/
def matching (pg : Postgres) (table : ChartTable) (whereQuery : String) (params : List String) :
    Except String (List ChartRow) :=
  (pg.where_ whereQuery params).map table.rows.filter

/-- An `int` of 64 bits. -/
def toInt (n : Int) : Int := n.bmod (2 ^ 64)

/-- `GetPaginatedChartList`: the rows of the page, and the number of pages. -/
def getPaginatedChartList (pg : Postgres) (table : ChartTable) (order : RowOrder pg)
    (whereQuery : String) (params : List String) (pageNumber pageSize : Int) :
    Except String (List ChartRow × Nat) := do
  let pageNumber := if pageNumber ≤ 0 then 1 else pageNumber
  let rows := order.sort (← matching pg table whereQuery params)
  if pageSize > 0 then
    let offset := toInt ((pageNumber - 1) * pageSize)
    if offset < 0 then throw "pq: OFFSET must not be negative"
    let charts := (rows.drop offset.toNat).take pageSize.toNat
    let count := (← matching pg table whereQuery params).length
    return (charts, (count + pageSize.toNat - 1) / pageSize.toNat)
  else return (rows, 1)

/-- `GetPaginatedChartListWithFilters`. -/
def getPaginatedChartListWithFilters (pg : Postgres) (table : ChartTable) (order : RowOrder pg)
    (kubeappsNamespace : String) (cq : ChartQuery) (pageNumber pageSize : Int) :
    Except String (List ChartRow × Nat) :=
  let (whereQuery, params) := generateWhereClause kubeappsNamespace cq
  getPaginatedChartList pg table order whereQuery params pageNumber pageSize

/-- The rows that a query is about. -/
def matchingCharts (pg : Postgres) (table : ChartTable) (kubeappsNamespace : String)
    (cq : ChartQuery) : Except String (List ChartRow) :=
  let (whereQuery, params) := generateWhereClause kubeappsNamespace cq
  matching pg table whereQuery params

section

variable {pg : Postgres} {table : ChartTable} {kubeappsNamespace : String} {cq : ChartQuery}
  {rows : List ChartRow}

theorem matchingCharts_sublist (h : matchingCharts pg table kubeappsNamespace cq = .ok rows) :
    rows.Sublist table.rows := by
  unfold matchingCharts matching at h
  dsimp only at h
  cases hp : pg.where_ (generateWhereClause kubeappsNamespace cq).1
      (generateWhereClause kubeappsNamespace cq).2 with
  | error err =>
      rw [hp] at h
      cases h
  | ok p =>
      rw [hp] at h
      rw [← Except.ok.inj h]
      exact List.filter_sublist

/-- Page `k` of a list, as long as the offset stays in the range of the table. -/
theorem getPaginatedChartList_page (order : RowOrder pg) {k size : Nat} (hsize : 0 < size)
    (hoffset : k * size < 2 ^ 62)
    (h : matchingCharts pg table kubeappsNamespace cq = .ok rows) :
    getPaginatedChartListWithFilters pg table order kubeappsNamespace cq (k + 1 : Nat) size =
      .ok (page size k (order.sort rows), (rows.length + size - 1) / size) := by
  have hoff : toInt (((k + 1 : Nat) - 1 : Int) * size) = (k * size : Nat) := by
    unfold toInt
    have hcast : (((k + 1 : Nat) - 1 : Int) * size) = ((k * size : Nat) : Int) := by
      rw [Int.natCast_add, Int.natCast_mul]
      congr 1
      omega
    rw [hcast]
    exact Int.bmod_eq_of_le (by omega) (by omega)
  unfold matchingCharts at h
  unfold getPaginatedChartListWithFilters getPaginatedChartList
  dsimp only at h ⊢
  have hpos : ¬ ((k + 1 : Nat) : Int) ≤ 0 := by omega
  have hsize' : (size : Int) > 0 := by omega
  rw [h, if_neg hpos]
  simp only [bind, Except.bind, if_pos hsize', hoff]
  rw [if_neg (by omega)]
  rfl

theorem getPaginatedChartList_error (order : RowOrder pg) {err : String} (pageNumber pageSize : Int)
    (h : matchingCharts pg table kubeappsNamespace cq = .error err) :
    getPaginatedChartListWithFilters pg table order kubeappsNamespace cq pageNumber pageSize =
      .error err := by
  unfold matchingCharts at h
  unfold getPaginatedChartListWithFilters getPaginatedChartList
  dsimp only at h ⊢
  rw [h]
  rfl

end

end Kubeapps.Assetsvc
