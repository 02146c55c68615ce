/-
  What a lookup by id returns (cmd/assetsvc/pkg/utils/postgresql_utils.go: GetChart,
  GetChartVersion, GetChartFiles), against the id that was asked for.

  An id that is stored leads to its chart. The fallback asks for `repo%name`, where a `%` or an `_`
  of the name is a wildcard too: it can answer with a chart of a repository whose name only begins
  with the requested one, or with a chart whose name only ends with it. The files of a version are
  found in the same way; the id of a row does not even determine its chart and its version
  (Syncer/FilesIds.lean).
-/
import Kubeapps.Assetsvc.GetChart
import Kubeapps.Helm.Index
import Kubeapps.Lib.Joined

namespace Kubeapps.Assetsvc

open Kubeapps.Lib Kubeapps.Models

/-! ## The table `files` -/

/-- A row of `files`. -/
structure ChartFilesRow where
  id : Nat
  chartId : String
  repoName : String
  repoNamespace : String
  chartFilesID : String
  info : ChartFiles
  deriving DecidableEq, Repr

structure ChartFilesTable where
  rows : List ChartFilesRow
  primaryKey : (rows.map ChartFilesRow.id).Nodup
  unique : ∀ row ∈ rows, ∀ row' ∈ rows, row.repoNamespace = row'.repoNamespace →
    row.chartFilesID = row'.chartFilesID → row = row'

/-- The row that is the answer to one query of one row of `files`. -/
structure FilesPick where
  pick : List ChartFilesRow → Option ChartFilesRow
  mem : ∀ rows row, pick rows = some row → row ∈ rows
  some_of_ne_nil : ∀ rows, rows ≠ [] → pick rows ≠ none

/-- The rows with `repo_namespace = $1` whose `chart_files_id` compares with `$2`. -/
def filesWhere (table : ChartFilesTable) (op : String → String → Bool) (ns filesID : String) :
    List ChartFilesRow :=
  table.rows.filter fun row => row.repoNamespace = ns && op row.chartFilesID filesID

/-- `QueryOne` on these rows. -/
def queryFiles (table : ChartFilesTable) (pick : FilesPick) (op : String → String → Bool)
    (ns : String) (filesID : Bytes) : Except String ChartFilesRow := do
  let ns ← textParam (bytes ns)
  let filesID ← textParam filesID
  match pick.pick (filesWhere table op ns filesID) with
  | none => throw "sql: no rows in result set"
  | some row => return row

/-- The row that answers `GetChartFilesWithFallback`. -/
def chartFilesRow (pg : Postgres) (table : ChartFilesTable) (pick : FilesPick) (ns : String)
    (filesID : Bytes) (withFallback : Bool) : Except String ChartFilesRow :=
  match queryFiles table pick (· == ·) ns filesID with
  | .ok row => .ok row
  | .error err =>
      match filesID.splitOn (ascii '/') with
      | [repo, name] =>
          if withFallback then queryFiles table pick pg.ilike ns (repo ++ ascii '%' :: name)
          else .error err
      | _ => .error err

/-- `GetChartFilesWithFallback`. -/
def getChartFilesWithFallback (pg : Postgres) (table : ChartFilesTable) (pick : FilesPick)
    (ns : String) (filesID : Bytes) (withFallback : Bool) : Except String ChartFiles :=
  ChartFilesRow.info <$> chartFilesRow pg table pick ns filesID withFallback

/-- `GetChartFiles`. -/
def getChartFiles (pg : Postgres) (table : ChartFilesTable) (pick : FilesPick) (ns : String)
    (filesID : Bytes) : Except String ChartFiles :=
  getChartFilesWithFallback pg table pick ns filesID enableFallbackQueryMode

/-! ## Stored rows and right ones -/

/-- A row as the sync job stores the chart of this name. -/
structure StoredChart (row : ChartRow) (name : String) : Prop where
  ns_valid : ValidNamespace row.repoNamespace
  repo_valid : ValidName row.repoName
  chartId : row.chartId = some (row.repoName ++ "/" ++ pathEscape name)
  info_name : row.info.name = pathEscape name
  info_ns : row.info.repo.ns = row.repoNamespace
  info_repo : row.info.repo.name = row.repoName

/-- The upsert of a chart that `newChart` has made writes such a row. -/
theorem storedChart_newChart {entry : Helm.Entry} {r : Repo} {shallow : Bool} {c : Chart}
    (h : Helm.newChart entry r shallow = .ok c) (hns : ValidNamespace r.ns)
    (hname : ValidName r.name) (id : Nat) :
    ∃ name, StoredChart ⟨id, r.name, r.ns, some c.id, c⟩ name := by
  obtain ⟨⟨m, hm⟩, hid, hrepo, _⟩ := Helm.newChart_id h
  rw [hm] at hid
  exact ⟨m.name, hns, hname, congrArg some hid, hm, congrArg Repo.ns hrepo,
    congrArg Repo.name hrepo⟩

/-- All rows with an id are. -/
def StoredCharts (table : ChartTable) : Prop :=
  ∀ row ∈ table.rows, row.chartId ≠ none → ∃ name, StoredChart row name

/-- A row as the sync job stores the files of a version of the chart of this name. -/
structure StoredFiles (row : ChartFilesRow) (name version : String) : Prop where
  ns_valid : ValidNamespace row.repoNamespace
  repo_valid : ValidName row.repoName
  filesID : row.chartFilesID = row.repoName ++ "/" ++ pathEscape name ++ "-" ++ version

/-- The last element of a name. -/
def lastSegment (name : String) : Option (List Char) := (splitSlash name).getLast?

/-- The chart is of this repository, and its name ends as the requested one. -/
def RightChart (ns repo name : String) (chart : Chart) : Prop :=
  chart.repo.ns = ns ∧ chart.repo.name = repo ∧
    ∃ name', chart.name = pathEscape name' ∧ lastSegment name' = lastSegment name

/-- The row is of this repository, and its info was fetched for the requested version of a chart
    whose name ends as the requested one. -/
def RightFiles (ns repo name version : String) (row : ChartFilesRow)
    (fetchedFor : String × String) : Prop :=
  row.repoNamespace = ns ∧ row.repoName = repo ∧ lastSegment fetchedFor.1 = lastSegment name ∧
    fetchedFor.2 = version

/-- The id of a chart. -/
def chartIDOf (repo name : String) : String := repo ++ "/" ++ pathEscape name

/-- The pattern of the fallback. -/
def alikeOf (repo name : String) : String := repo ++ "%" ++ pathEscape name

/-- The id is stored, or no chart whose id is like the pattern is a wrong one. -/
def NoWrongChart (pg : Postgres) (table : ChartTable) (ns repo name : String)
    (has : Chart → Prop) : Prop :=
  rowsWhere table (· == ·) ns (chartIDOf repo name) ≠ [] ∨
    ∀ row ∈ rowsWhere table pg.ilike ns (alikeOf repo name), has row.info →
      RightChart ns repo name row.info

/-- No row of `files` with the id, or else with an id like the pattern, is a wrong one. There is no
    pattern for an id with two slashes, and no query with a zero byte. -/
def NoWrongFiles (pg : Postgres) (table : ChartFilesTable)
    (fetchedFor : ChartFilesRow → String × String) (ns repo name version : String) : Prop :=
  Char.ofNat 0 ∈ version.toList ∨
    (∀ row ∈ filesWhere table (· == ·) ns (chartIDOf repo name ++ "-" ++ version),
      RightFiles ns repo name version row (fetchedFor row)) ∧
    (filesWhere table (· == ·) ns (chartIDOf repo name ++ "-" ++ version) = [] →
      '/' ∉ version.toList →
      ∀ row ∈ filesWhere table pg.ilike ns (alikeOf repo name ++ "-" ++ version),
        RightFiles ns repo name version row (fetchedFor row))

/-! ## The rows that can be the answer -/

section Answers

variable {pg : Postgres} {table : ChartTable} {files : ChartFilesTable} {ns repo x : String}

theorem splitOn_of_mem {b : UInt8} {bs : Bytes} (h : b ∈ bs) :
    ∃ u v rest, bs.splitOn b = u :: v :: rest := by
  obtain ⟨xs, ys, hsplit⟩ := List.append_of_mem h
  rw [hsplit, List.splitOn_append_cons_self]
  obtain ⟨u, us, hu⟩ := List.exists_cons_of_ne_nil (List.splitOn_ne_nil b xs)
  obtain ⟨v, vs, hv⟩ := List.exists_cons_of_ne_nil (List.splitOn_ne_nil b ys)
  rw [hu, hv]
  cases us with
  | nil => exact ⟨u, v, vs, rfl⟩
  | cons w us => exact ⟨u, w, us ++ v :: vs, rfl⟩

theorem splitOn_id (hrepo : '/' ∉ repo.toList) (x : String) :
    (bytes (repo ++ "/" ++ x)).splitOn (ascii '/') =
      bytes repo :: (bytes x).splitOn (ascii '/') := by
  have hslash : bytes "/" = [ascii '/'] := by decide
  have hnot : ascii '/' ∉ bytes repo := by
    rw [ascii_mem_bytes (by decide)]
    exact hrepo
  rw [bytes_append, bytes_append, hslash, List.append_assoc, List.singleton_append,
    List.splitOn_append_cons_self_of_not_mem hnot]

theorem bytes_alike (repo x : String) :
    bytes (repo ++ "%" ++ x) = bytes repo ++ ascii '%' :: bytes x := by
  have hpercent : bytes "%" = [ascii '%'] := by decide
  rw [bytes_append, bytes_append, hpercent, List.append_assoc, List.singleton_append]

/-- With one slash there are two queries. -/
theorem queryWithFallback_eq (hrepo : '/' ∉ repo.toList) (hx : '/' ∉ x.toList) (pick : Pick) :
    queryWithFallback pg table pick ns (bytes (repo ++ "/" ++ x)) true =
      match queryOne table pick (· == ·) ns (bytes (repo ++ "/" ++ x)) with
      | .ok chart => .ok chart
      | .error _ => queryOne table pick pg.ilike ns (bytes (repo ++ "%" ++ x)) := by
  have hnot : ascii '/' ∉ bytes x := by
    rw [ascii_mem_bytes (by decide)]
    exact hx
  unfold queryWithFallback
  rw [splitOn_id hrepo, List.splitOn_eq_singleton hnot, bytes_alike]
  rfl

/-- A row that can be the answer. -/
def CanAnswer (pg : Postgres) (table : ChartTable) (ns repo x : String) (row : ChartRow) : Prop :=
  row ∈ rowsWhere table (· == ·) ns (repo ++ "/" ++ x) ∨
    (rowsWhere table (· == ·) ns (repo ++ "/" ++ x) = [] ∧
      row ∈ rowsWhere table pg.ilike ns (repo ++ "%" ++ x))

theorem queryOne_zero_ns (table : ChartTable) (pick : Pick) (op : String → String → Bool)
    (chartID : Bytes) (hns : Char.ofNat 0 ∈ ns.toList) :
    ∃ err, queryOne table pick op ns chartID = .error err := by
  unfold queryOne
  rw [textParam_zero hns]
  exact ⟨_, rfl⟩

theorem canAnswer_of_ok (hrepo : '/' ∉ repo.toList) (hx : '/' ∉ x.toList)
    (hzero : Char.ofNat 0 ∉ (repo ++ x).toList) {pick : Pick} {chart : Chart}
    (h : queryWithFallback pg table pick ns (bytes (repo ++ "/" ++ x)) true = .ok chart) :
    ∃ row, CanAnswer pg table ns repo x row ∧ row.info = chart := by
  have hid : Char.ofNat 0 ∉ (repo ++ "/" ++ x).toList := by simpa using hzero
  have halike : Char.ofNat 0 ∉ (repo ++ "%" ++ x).toList := by simpa using hzero
  rw [queryWithFallback_eq hrepo hx] at h
  have hns : Char.ofNat 0 ∉ ns.toList := by
    intro hns
    obtain ⟨err, herr⟩ := queryOne_zero_ns table pick (· == ·) (bytes (repo ++ "/" ++ x)) hns
    obtain ⟨err', herr'⟩ := queryOne_zero_ns table pick pg.ilike (bytes (repo ++ "%" ++ x)) hns
    rw [herr] at h
    exact absurd (herr'.symm.trans h) (by simp)
  rcases queryOne_cases table pick (· == ·) hns hid with ⟨hnil, herr⟩ | ⟨row, hrow, hok⟩
  · rw [herr] at h
    rcases queryOne_cases table pick pg.ilike hns halike with ⟨_, herr'⟩ | ⟨row, hrow, hok⟩
    · exact absurd (herr'.symm.trans h) (by simp)
    · exact ⟨row, .inr ⟨hnil, hrow⟩, Except.ok.inj (hok.symm.trans h)⟩
  · rw [hok] at h
    exact ⟨row, .inl hrow, Except.ok.inj h⟩

/-- And each of them is, for some choice of the database. -/
theorem ok_of_canAnswer (pg : Postgres) (hns : Char.ofNat 0 ∉ ns.toList) (hrepo : '/' ∉ repo.toList)
    (hx : '/' ∉ x.toList) (hzero : Char.ofNat 0 ∉ (repo ++ x).toList) {row : ChartRow}
    (h : CanAnswer pg table ns repo x row) :
    queryWithFallback pg table (Pick.prefer row) ns (bytes (repo ++ "/" ++ x)) true =
      .ok row.info := by
  have hid : Char.ofNat 0 ∉ (repo ++ "/" ++ x).toList := by simpa using hzero
  have halike : Char.ofNat 0 ∉ (repo ++ "%" ++ x).toList := by simpa using hzero
  rw [queryWithFallback_eq hrepo hx]
  rcases h with hrow | ⟨hnil, hrow⟩
  · rw [queryOne_prefer hns hid hrow]
  · have hnone : ∀ row', row' ∉ rowsWhere table (· == ·) ns (repo ++ "/" ++ x) := by
      rw [hnil]
      exact fun row' => List.not_mem_nil
    rw [queryOne_of_none hns hid hnone]
    exact queryOne_prefer hns halike hrow

/-! ## The same for files -/

theorem mem_filesWhere {op : String → String → Bool} {filesID : String} {row : ChartFilesRow} :
    row ∈ filesWhere files op ns filesID ↔
      row ∈ files.rows ∧ row.repoNamespace = ns ∧ op row.chartFilesID filesID = true := by
  unfold filesWhere
  rw [List.mem_filter, Bool.and_eq_true, decide_eq_true_iff]

theorem queryFiles_eq {op : String → String → Bool} {filesID : String} (pick : FilesPick)
    (hns : Char.ofNat 0 ∉ ns.toList) (hid : Char.ofNat 0 ∉ filesID.toList) :
    queryFiles files pick op ns (bytes filesID) =
      match pick.pick (filesWhere files op ns filesID) with
      | none => .error "sql: no rows in result set"
      | some row => .ok row := by
  unfold queryFiles
  rw [textParam_bytes hns, textParam_bytes hid]
  rfl

theorem queryFiles_cases (op : String → String → Bool) {filesID : String} (pick : FilesPick)
    (hns : Char.ofNat 0 ∉ ns.toList) (hid : Char.ofNat 0 ∉ filesID.toList) :
    (filesWhere files op ns filesID = [] ∧
        queryFiles files pick op ns (bytes filesID) = .error "sql: no rows in result set") ∨
      ∃ row ∈ filesWhere files op ns filesID,
        queryFiles files pick op ns (bytes filesID) = .ok row := by
  rw [queryFiles_eq pick hns hid]
  cases hpick : pick.pick (filesWhere files op ns filesID) with
  | none =>
      by_cases hrows : filesWhere files op ns filesID = []
      · exact .inl ⟨hrows, rfl⟩
      · exact absurd hpick (pick.some_of_ne_nil _ hrows)
  | some row => exact .inr ⟨row, pick.mem _ _ hpick, rfl⟩

/-- A zero byte is refused. -/
theorem queryFiles_zero (files : ChartFilesTable) (pick : FilesPick) (op : String → String → Bool)
    (filesID : String) (h : Char.ofNat 0 ∈ ns.toList ∨ Char.ofNat 0 ∈ filesID.toList) :
    ∃ err, queryFiles files pick op ns (bytes filesID) = .error err := by
  unfold queryFiles
  by_cases hns : Char.ofNat 0 ∈ ns.toList
  · rw [textParam_zero hns]
    exact ⟨_, rfl⟩
  · rw [textParam_bytes hns, textParam_zero (h.resolve_left hns)]
    exact ⟨_, rfl⟩

/-- Answer with this row whenever it matches. -/
def FilesPick.prefer (row : ChartFilesRow) : FilesPick where
  pick rows := if row ∈ rows then some row else rows.head?
  mem rows row' h := by
    by_cases hmem : row ∈ rows
    · rw [if_pos hmem] at h
      rw [← Option.some.inj h]
      exact hmem
    · rw [if_neg hmem] at h
      exact List.mem_of_mem_head? h
  some_of_ne_nil rows hne := by
    by_cases hmem : row ∈ rows
    · rw [if_pos hmem]
      exact Option.some_ne_none row
    · rw [if_neg hmem]
      exact fun hnone => hne (List.head?_eq_none_iff.mp hnone)

theorem queryFiles_prefer {op : String → String → Bool} {filesID : String} {row : ChartFilesRow}
    (hns : Char.ofNat 0 ∉ ns.toList) (hid : Char.ofNat 0 ∉ filesID.toList)
    (hrow : row ∈ filesWhere files op ns filesID) :
    queryFiles files (FilesPick.prefer row) op ns (bytes filesID) = .ok row := by
  rw [queryFiles_eq _ hns hid]
  show (match (if row ∈ filesWhere files op ns filesID then some row else _) with
    | none => _
    | some row => _) = _
  rw [if_pos hrow]

/-- There is a second query only for an id with one slash. -/
theorem chartFilesRow_eq (hrepo : '/' ∉ repo.toList) (x : String) (pick : FilesPick) :
    chartFilesRow pg files pick ns (bytes (repo ++ "/" ++ x)) true =
      match queryFiles files pick (· == ·) ns (bytes (repo ++ "/" ++ x)) with
      | .ok row => .ok row
      | .error err =>
          if '/' ∈ x.toList then .error err
          else queryFiles files pick pg.ilike ns (bytes (repo ++ "%" ++ x)) := by
  have hmem : ascii '/' ∈ bytes x ↔ '/' ∈ x.toList := ascii_mem_bytes (by decide)
  unfold chartFilesRow
  rw [splitOn_id hrepo]
  by_cases hx : '/' ∈ x.toList
  · obtain ⟨u, v, rest, hsplit⟩ := splitOn_of_mem (hmem.mpr hx)
    rw [hsplit]
    simp only [if_pos hx]
  · rw [List.splitOn_eq_singleton (mt hmem.mp hx), bytes_alike]
    simp only [if_neg hx]
    rfl

/-- A row of `files` that can be the answer. -/
def FilesCanAnswer (pg : Postgres) (files : ChartFilesTable) (ns repo x : String)
    (row : ChartFilesRow) : Prop :=
  row ∈ filesWhere files (· == ·) ns (repo ++ "/" ++ x) ∨
    (filesWhere files (· == ·) ns (repo ++ "/" ++ x) = [] ∧ '/' ∉ x.toList ∧
      row ∈ filesWhere files pg.ilike ns (repo ++ "%" ++ x))

theorem filesCanAnswer_of_ok (hrepo : '/' ∉ repo.toList) {pick : FilesPick}
    {row : ChartFilesRow}
    (h : chartFilesRow pg files pick ns (bytes (repo ++ "/" ++ x)) true = .ok row) :
    Char.ofNat 0 ∉ (repo ++ x).toList ∧ FilesCanAnswer pg files ns repo x row := by
  rw [chartFilesRow_eq hrepo] at h
  have hvalid : ¬ (Char.ofNat 0 ∈ ns.toList ∨ Char.ofNat 0 ∈ (repo ++ x).toList) := by
    intro hzero
    obtain ⟨err, herr⟩ := queryFiles_zero files pick (· == ·) (repo ++ "/" ++ x)
      (hzero.imp id (by simp))
    obtain ⟨err', herr'⟩ := queryFiles_zero files pick pg.ilike (repo ++ "%" ++ x)
      (hzero.imp id (by simp))
    rw [herr, herr'] at h
    by_cases hx : '/' ∈ x.toList
    · simp only [if_pos hx] at h
      exact absurd h (by simp)
    · simp only [if_neg hx] at h
      exact absurd h (by simp)
  obtain ⟨hns, hzero⟩ := not_or.mp hvalid
  refine ⟨hzero, ?_⟩
  have hid : Char.ofNat 0 ∉ (repo ++ "/" ++ x).toList := by simpa using hzero
  have halike : Char.ofNat 0 ∉ (repo ++ "%" ++ x).toList := by simpa using hzero
  rcases queryFiles_cases (· == ·) pick hns hid with ⟨hnil, herr⟩ | ⟨row', hrow, hok⟩
  · rw [herr] at h
    by_cases hx : '/' ∈ x.toList
    · simp only [if_pos hx] at h
      exact absurd h (by simp)
    · simp only [if_neg hx] at h
      rcases queryFiles_cases pg.ilike pick hns halike with ⟨_, herr'⟩ | ⟨row', hrow, hok⟩
      · exact absurd (herr'.symm.trans h) (by simp)
      · rw [← Except.ok.inj (hok.symm.trans h)]
        exact .inr ⟨hnil, hx, hrow⟩
  · rw [hok] at h
    rw [← Except.ok.inj h]
    exact .inl hrow

theorem ok_of_filesCanAnswer (hns : Char.ofNat 0 ∉ ns.toList) (hrepo : '/' ∉ repo.toList)
    (hzero : Char.ofNat 0 ∉ (repo ++ x).toList) {row : ChartFilesRow}
    (h : FilesCanAnswer pg files ns repo x row) :
    chartFilesRow pg files (FilesPick.prefer row) ns (bytes (repo ++ "/" ++ x)) true =
      .ok row := by
  have hid : Char.ofNat 0 ∉ (repo ++ "/" ++ x).toList := by simpa using hzero
  have halike : Char.ofNat 0 ∉ (repo ++ "%" ++ x).toList := by simpa using hzero
  rw [chartFilesRow_eq hrepo]
  rcases h with hrow | ⟨hnil, hx, hrow⟩
  · rw [queryFiles_prefer hns hid hrow]
  · rcases queryFiles_cases (· == ·) (FilesPick.prefer row) hns hid with
      ⟨_, herr⟩ | ⟨row', hrow', _⟩
    · rw [herr]
      simp only [if_neg hx]
      exact queryFiles_prefer hns halike hrow
    · rw [hnil] at hrow'
      exact absurd hrow' List.not_mem_nil

end Answers

/-! ## Right answers -/

theorem zero_not_mem_validName {repo : String} (h : ValidName repo) :
    Char.ofNat 0 ∉ repo.toList := by
  intro hmem
  rcases mem_validName h hmem with hc | hc
  · exact absurd hc (by decide)
  · exact absurd hc (by decide)

theorem not_mem_pathEscape {c : Char} (hc : pathSegmentChar c = false) (hpercent : c ≠ '%')
    (name : String) : c ∉ (pathEscape name).toList := by
  intro hmem
  rcases mem_pathEscape hmem with h | h
  · rw [hc] at h
    exact Bool.noConfusion h
  · exact hpercent h

section Right

variable {pg : Postgres} {table : ChartTable} {files : ChartFilesTable} {ns repo name : String}

/-- The namespace of a row has no zero byte. -/
theorem zero_not_mem_ns (hns : ValidNamespace ns) : Char.ofNat 0 ∉ ns.toList :=
  fun hmem => absurd (mem_validNamespace hns hmem) (by decide)

/-- The row with the id of a chart is that chart's. -/
theorem right_of_exact (hstored : StoredCharts table) (hrepo : ValidName repo) {row : ChartRow}
    (h : row ∈ rowsWhere table (· == ·) ns (chartIDOf repo name)) :
    RightChart ns repo name row.info := by
  obtain ⟨hrow, hns, id, hid, heq⟩ := mem_rowsWhere.1 h
  obtain ⟨name', hstored⟩ := hstored row hrow (by simp [hid])
  have hsame : row.repoName ++ "/" ++ pathEscape name' = repo ++ "/" ++ pathEscape name := by
    rw [hstored.chartId] at hid
    rw [Option.some.inj hid]
    exact beq_iff_eq.mp heq
  have hlist := congrArg String.toList hsame
  simp only [String.toList_append, List.append_assoc] at hlist
  obtain ⟨hr, hn⟩ := append_cons_inj (slash_not_mem_validName hstored.repo_valid)
    (slash_not_mem_validName hrepo) hlist
  refine ⟨hstored.info_ns.trans hns, hstored.info_repo.trans (String.toList_inj.mp hr),
    name, ?_, rfl⟩
  rw [hstored.info_name]
  exact String.toList_inj.mp hn

/-- What a call makes of a row that can be the answer is right if and only if there is no wrong
    row. -/
theorem right_of_call_iff (pg : Postgres) (ns name : String) (hstored : StoredCharts table)
    (hrepo : ValidName repo) (keep : Chart → Except String Chart) {has : Chart → Prop}
    (hkeep : ∀ chart chart', keep chart = .ok chart' →
      chart'.repo = chart.repo ∧ chart'.name = chart.name)
    (hhas : ∀ chart, has chart ↔ ∃ chart', keep chart = .ok chart') :
    (∀ pick chart, (queryWithFallback pg table pick ns (bytes (chartIDOf repo name)) true).bind
        keep = .ok chart → RightChart ns repo name chart) ↔
      NoWrongChart pg table ns repo name has := by
  have hright : ∀ chart chart', keep chart = .ok chart' →
      (RightChart ns repo name chart' ↔ RightChart ns repo name chart) := by
    intro chart chart' h
    unfold RightChart
    rw [(hkeep chart chart' h).1, (hkeep chart chart' h).2]
  have hslash := slash_not_mem_validName hrepo
  have hname : '/' ∉ (pathEscape name).toList := not_mem_pathEscape (by decide) (by decide) name
  have hzero : Char.ofNat 0 ∉ (repo ++ pathEscape name).toList := by
    rw [String.toList_append, List.mem_append]
    exact not_or.mpr ⟨zero_not_mem_validName hrepo,
      not_mem_pathEscape (by decide) (by decide) name⟩
  constructor
  · intro h
    by_cases hexact : rowsWhere table (· == ·) ns (chartIDOf repo name) = []
    · refine .inr fun row hrow hrowHas => ?_
      obtain ⟨hmem, hns, id, hid, _⟩ := mem_rowsWhere.1 hrow
      obtain ⟨_, hrowStored⟩ := hstored row hmem (by simp [hid])
      have hnsZero := zero_not_mem_ns (hns ▸ hrowStored.ns_valid)
      obtain ⟨chart', hok⟩ := (hhas row.info).mp hrowHas
      rw [← hright _ _ hok]
      apply h (Pick.prefer row)
      have hquery := ok_of_canAnswer pg hnsZero hslash hname hzero
        (.inr ⟨hexact, hrow⟩)
      unfold chartIDOf
      rw [hquery]
      exact hok
    · exact .inl hexact
  · intro h pick chart hok
    cases hquery : queryWithFallback pg table pick ns (bytes (chartIDOf repo name)) true with
    | error err =>
        rw [hquery] at hok
        exact absurd hok (by simp [Except.bind])
    | ok chart₀ =>
        rw [hquery] at hok
        rw [hright chart₀ chart hok]
        obtain ⟨row, hrow, hinfo⟩ := canAnswer_of_ok hslash hname hzero hquery
        rw [← hinfo]
        rcases hrow with hrow | ⟨hnil, hrow⟩
        · exact right_of_exact hstored hrepo hrow
        · apply h.resolve_left (fun hne => hne hnil) row hrow
          rw [hinfo]
          exact (hhas chart₀).mpr ⟨chart, hok⟩

theorem keepVersion_ok {chart chart' : Chart} {version : String}
    (h : keepVersion chart version = .ok chart') :
    chart'.repo = chart.repo ∧ chart'.name = chart.name := by
  unfold keepVersion at h
  split at h
  · rw [← Except.ok.inj h]
    exact ⟨rfl, rfl⟩
  · exact absurd h (by simp)

theorem exists_keepVersion_iff {chart : Chart} {version : String} :
    (∃ v ∈ chart.chartVersions, v.version = version) ↔
      ∃ chart', keepVersion chart version = .ok chart' := by
  unfold keepVersion
  cases hfind : chart.chartVersions.find? fun c => c.version = version with
  | none =>
      rw [List.find?_eq_none] at hfind
      constructor
      · intro ⟨v, hv, heq⟩
        exact absurd (decide_eq_true heq) (hfind v hv)
      · intro ⟨_, h⟩
        exact absurd h (by simp)
  | some v =>
      refine ⟨fun _ => ⟨_, rfl⟩, fun _ => ⟨v, List.mem_of_find?_eq_some hfind, ?_⟩⟩
      simpa using List.find?_some hfind

/-- The files that are served are right if and only if there is no wrong row. -/
theorem right_files_iff {fetchedFor : ChartFilesRow → String × String}
    (hfiles : ∀ row ∈ files.rows, StoredFiles row (fetchedFor row).1 (fetchedFor row).2)
    (hrepo : ValidName repo) (version : String) :
    (∀ pick info, getChartFiles pg files pick ns (bytes (chartIDOf repo name ++ "-" ++ version)) =
        .ok info → ∃ row, chartFilesRow pg files pick ns
          (bytes (chartIDOf repo name ++ "-" ++ version)) true = .ok row ∧ row.info = info ∧
            RightFiles ns repo name version row (fetchedFor row)) ↔
      NoWrongFiles pg files fetchedFor ns repo name version := by
  have hid : chartIDOf repo name ++ "-" ++ version =
      repo ++ "/" ++ (pathEscape name ++ "-" ++ version) := by
    unfold chartIDOf
    simp only [String.append_assoc]
  have halike : alikeOf repo name ++ "-" ++ version =
      repo ++ "%" ++ (pathEscape name ++ "-" ++ version) := by
    unfold alikeOf
    simp only [String.append_assoc]
  have hslash := slash_not_mem_validName hrepo
  have hname : '/' ∉ (pathEscape name ++ "-" ++ version).toList ↔ '/' ∉ version.toList := by
    have hnot := not_mem_pathEscape (c := '/') (by decide) (by decide) name
    simp [hnot]
  have hzero : Char.ofNat 0 ∉ (repo ++ (pathEscape name ++ "-" ++ version)).toList ↔
      Char.ofNat 0 ∉ version.toList := by
    have hnot := not_mem_pathEscape (c := Char.ofNat 0) (by decide) (by decide) name
    have hrepoZero := zero_not_mem_validName hrepo
    simp [hnot, hrepoZero]
  unfold NoWrongFiles
  rw [hid, halike]
  constructor
  · intro h
    by_cases hv : Char.ofNat 0 ∈ version.toList
    · exact .inl hv
    · have hright : ∀ row, FilesCanAnswer pg files ns repo (pathEscape name ++ "-" ++ version) row →
          RightFiles ns repo name version row (fetchedFor row) := by
        intro row hrow
        have hnsRow : row ∈ files.rows ∧ row.repoNamespace = ns := by
          rcases hrow with hrow | ⟨_, _, hrow⟩
          · exact ⟨(mem_filesWhere.1 hrow).1, (mem_filesWhere.1 hrow).2.1⟩
          · exact ⟨(mem_filesWhere.1 hrow).1, (mem_filesWhere.1 hrow).2.1⟩
        have hns := zero_not_mem_ns (hnsRow.2 ▸ (hfiles row hnsRow.1).ns_valid)
        have hok := ok_of_filesCanAnswer hns hslash (hzero.mpr hv) hrow
        have hget : getChartFiles pg files (FilesPick.prefer row) ns
            (bytes (repo ++ "/" ++ (pathEscape name ++ "-" ++ version))) = .ok row.info := by
          unfold getChartFiles getChartFilesWithFallback enableFallbackQueryMode
          rw [hok]
          rfl
        obtain ⟨row', hok', _, hright⟩ := h (FilesPick.prefer row) row.info hget
        rw [Except.ok.inj (hok.symm.trans hok')]
        exact hright
      refine .inr ⟨fun row hrow => hright row (.inl hrow), fun hnil hvslash row hrow => ?_⟩
      exact hright row (.inr ⟨hnil, hname.mpr hvslash, hrow⟩)
  · intro h pick info hok
    unfold getChartFiles getChartFilesWithFallback enableFallbackQueryMode at hok
    cases hrow : chartFilesRow pg files pick ns
        (bytes (repo ++ "/" ++ (pathEscape name ++ "-" ++ version))) true with
    | error err =>
        rw [hrow] at hok
        exact absurd hok (by simp)
    | ok row =>
        rw [hrow] at hok
        refine ⟨row, rfl, Except.ok.inj hok, ?_⟩
        obtain ⟨hz, hcan⟩ := filesCanAnswer_of_ok hslash hrow
        obtain ⟨hexact, hpattern⟩ := h.resolve_left (hzero.mp hz)
        rcases hcan with hrow | ⟨hnil, hvslash, hrow⟩
        · exact hexact row hrow
        · exact hpattern hnil (hname.mp hvslash) row hrow

/-- The charts, the charts with one version and the files that are served for an id are those it
    stands for if and only if there is no wrong row that can be taken for them. -/
theorem served_right_iff (pg : Postgres) (ns name version : String)
    (fetchedFor : ChartFilesRow → String × String) (hcharts : StoredCharts table)
    (hfiles : ∀ row ∈ files.rows, StoredFiles row (fetchedFor row).1 (fetchedFor row).2)
    (hrepo : ValidName repo) :
    ((∀ pick chart, getChart pg table pick ns (bytes (chartIDOf repo name)) = .ok chart →
        RightChart ns repo name chart) ↔ NoWrongChart pg table ns repo name fun _ => True) ∧
    ((∀ pick chart, getChartVersion pg table pick ns (bytes (chartIDOf repo name)) version =
        .ok chart → RightChart ns repo name chart) ↔
      NoWrongChart pg table ns repo name fun c => ∃ v ∈ c.chartVersions, v.version = version) ∧
    ((∀ pick info, getChartFiles pg files pick ns
        (bytes (chartIDOf repo name ++ "-" ++ version)) = .ok info →
          ∃ row, chartFilesRow pg files pick ns
            (bytes (chartIDOf repo name ++ "-" ++ version)) true = .ok row ∧ row.info = info ∧
              RightFiles ns repo name version row (fetchedFor row)) ↔
      NoWrongFiles pg files fetchedFor ns repo name version) := by
  refine ⟨?_, ?_, right_files_iff hfiles hrepo version⟩
  · have hbind : ∀ x : Except String Chart, x.bind .ok = x := by
      intro x
      cases x with
      | error err => rfl
      | ok chart => rfl
    have hiff := right_of_call_iff pg ns name hcharts hrepo .ok
      (fun chart chart' h => by rw [Except.ok.inj h]; exact ⟨rfl, rfl⟩)
      (fun chart => ⟨fun _ => ⟨chart, rfl⟩, fun _ => trivial⟩)
    simp only [hbind] at hiff
    exact hiff
  · exact right_of_call_iff pg ns name hcharts hrepo (keepVersion · version)
      (fun _ _ => keepVersion_ok) fun _ => exists_keepVersion_iff

end Right

/-! ## A chart `wordpress` and the request for `stable/wordpress` -/

def anyPostgres : Postgres where
  where_ _ _ := .error "pq: syntax error"
  le _ _ := true
  le_total _ _ := .inl rfl
  le_trans _ _ _ _ _ := rfl
  foldCase := Char.toLower

/-- Version 1.0.0 of `wordpress` in this repository of the namespace `team`. -/
def wordpressRow (repoName : String) : ChartRow where
  id := 1
  repoName := repoName
  repoNamespace := "team"
  chartId := some (repoName ++ "/" ++ "wordpress")
  info := {
    id := repoName ++ "/" ++ "wordpress", name := "wordpress"
    repo := ⟨"team", repoName, "https://charts.example.com", "helm"⟩
    description := "", home := "", keywords := [], maintainers := [], sources := [], icon := ""
    rawIcon := "", iconContentType := "", category := ""
    chartVersions := [⟨"1.0.0", "6.2.0", "", "", [], "", "", ""⟩] }

theorem wordpressRow_serial (repoName : String) :
    ∀ row ∈ [wordpressRow repoName], row.id < 2 ^ 31 := by
  intro row hrow
  rw [List.mem_singleton.mp hrow]
  exact (by decide : 1 < 2 ^ 31)

def wordpressTable (repoName : String) : ChartTable where
  rows := [wordpressRow repoName]
  serial := wordpressRow_serial repoName
  primaryKey := List.nodup_singleton 1
  unique row hrow row' hrow' _ _ _ _ := by
    rw [List.mem_singleton.mp hrow, List.mem_singleton.mp hrow']

def wordpressFilesRow : ChartFilesRow where
  id := 1
  chartId := "stable/wordpress"
  repoName := "stable"
  repoNamespace := "team"
  chartFilesID := "stable/wordpress-1.0.0"
  info := { id := "stable/wordpress-1.0.0", readme := "", values := "", schema := ""
            repo := ⟨"team", "stable", "https://charts.example.com", "helm"⟩, digest := "" }

def wordpressFiles : ChartFilesTable where
  rows := [wordpressFilesRow]
  primaryKey := List.nodup_singleton 1
  unique row hrow row' hrow' _ _ := by
    rw [List.mem_singleton.mp hrow, List.mem_singleton.mp hrow']

theorem pathEscape_wordpress : "wordpress" = pathEscape "wordpress" := by
  apply bytes_injective
  rw [bytes_pathEscape]
  decide

theorem storedCharts_wordpress {repoName : String} (h : ValidName repoName) :
    StoredCharts (wordpressTable repoName) := by
  intro row hrow _
  rw [List.mem_singleton.mp hrow]
  refine ⟨"wordpress", (by decide : ValidNamespace "team"), h, ?_, pathEscape_wordpress, rfl, rfl⟩
  rw [← pathEscape_wordpress]
  rfl

theorem storedFiles_wordpress : ∀ row ∈ wordpressFiles.rows,
    StoredFiles row "wordpress" "1.0.0" := by
  intro row hrow
  rw [List.mem_singleton.mp hrow]
  refine ⟨(by decide : ValidNamespace "team"), (by decide : ValidName "stable"), ?_⟩
  rw [← pathEscape_wordpress]
  decide

/-- The row of the repository itself is found by its id. -/
theorem served_right_stable :
    (∀ pick chart, getChart anyPostgres (wordpressTable "stable") pick "team"
        (bytes (chartIDOf "stable" "wordpress")) = .ok chart →
      RightChart "team" "stable" "wordpress" chart) ∧
    ∀ pick info, getChartFiles anyPostgres wordpressFiles pick "team"
        (bytes (chartIDOf "stable" "wordpress" ++ "-" ++ "1.0.0")) = .ok info →
      ∃ row, chartFilesRow anyPostgres wordpressFiles pick "team"
          (bytes (chartIDOf "stable" "wordpress" ++ "-" ++ "1.0.0")) true = .ok row ∧
        row.info = info ∧ RightFiles "team" "stable" "wordpress" "1.0.0" row
          ("wordpress", "1.0.0") := by
  have hrepo : ValidName "stable" := by decide
  have hright : RightFiles "team" "stable" "wordpress" "1.0.0" wordpressFilesRow
      ("wordpress", "1.0.0") := ⟨rfl, rfl, rfl, rfl⟩
  have hfound : wordpressFilesRow ∈ filesWhere wordpressFiles (· == ·) "team"
      (chartIDOf "stable" "wordpress" ++ "-" ++ "1.0.0") := by
    unfold chartIDOf
    rw [← pathEscape_wordpress]
    decide
  obtain ⟨hchart, _, hfiles⟩ := served_right_iff anyPostgres "team" "wordpress" "1.0.0"
    (fun _ => ("wordpress", "1.0.0")) (storedCharts_wordpress hrepo) storedFiles_wordpress hrepo
  refine ⟨hchart.mpr (.inl ?_), hfiles.mpr (.inr ⟨?_, ?_⟩)⟩
  · unfold chartIDOf
    rw [← pathEscape_wordpress]
    decide
  · intro row hrow
    rw [List.mem_singleton.mp (mem_filesWhere.1 hrow).1]
    exact hright
  · intro hnil
    rw [hnil] at hfound
    exact absurd hfound List.not_mem_nil

/-- The chart of `stable-mirror` is served for `stable/wordpress`. -/
theorem served_of_mirror : StoredCharts (wordpressTable "stable-mirror") ∧
    ¬ ∀ pick chart, getChart anyPostgres (wordpressTable "stable-mirror") pick "team"
        (bytes (chartIDOf "stable" "wordpress")) = .ok chart →
      RightChart "team" "stable" "wordpress" chart := by
  refine ⟨storedCharts_wordpress (by decide), fun h => ?_⟩
  have hcan : CanAnswer anyPostgres (wordpressTable "stable-mirror") "team" "stable"
      (pathEscape "wordpress") (wordpressRow "stable-mirror") := by
    unfold CanAnswer
    rw [← pathEscape_wordpress]
    exact .inr (by decide)
  have hzero : Char.ofNat 0 ∉ ("stable" ++ pathEscape "wordpress").toList ∧
      '/' ∉ (pathEscape "wordpress").toList := by
    rw [← pathEscape_wordpress]
    decide
  have hok := ok_of_canAnswer anyPostgres (by decide) (by decide) hzero.2 hzero.1 hcan
  have hrepo := (h (Pick.prefer (wordpressRow "stable-mirror")) _ hok).2.1
  exact absurd hrepo (by decide)

end Kubeapps.Assetsvc
