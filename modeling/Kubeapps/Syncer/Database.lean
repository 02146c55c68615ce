/-
  The PostgreSQL tables of the catalog and the statements the sync job runs on them
  (pkg/dbutils/postgresql_utils.go: InitTables, EnsureRepoExists; cmd/asset-syncer/
  postgresql_utils.go: the rest).

  A table is a partial function of its unique key, so `UNIQUE` holds by construction: `repos` of
  (namespace, name), `charts` of the repository and `chart_id`, `files` of (repo_namespace,
  chart_files_ID). `chart_id` may be NULL and NULLs are never equal, so the rows without an id
  are a list on the side. `Database` carries the foreign keys: a statement that would break one
  fails, and deleting a row deletes the rows that refer to it. The serial ids are left out.

  `info` of a chart is the chart (`Models.Chart`); `updateIcon` is `info || '{…}'` on the two icon
  fields. A jsonb value has no U+0000, so a statement that brings one fails (`jsonbTakes`); the
  limits on the size of a value are left out. The text of `removeMissingCharts` is assembled as in
  the source and read back by `parseNotIn`. Every statement is atomic; there are no transactions
  around them.
-/
import Mathlib.Logic.Function.Basic
import Kubeapps.Lib.Sql
import Kubeapps.Models.Chart

namespace Kubeapps.Syncer

open Kubeapps.Lib Kubeapps.Models

/-- The key of a repository: `namespace` and `name`. -/
structure RepoKey where
  ns : String
  name : String
  deriving DecidableEq, Repr

def repoKey (r : RepoInternal) : RepoKey := ⟨r.ns, r.name⟩

/-- A row of `repos`. Both columns may be NULL. -/
structure RepoRow where
  checksum : Option String
  lastUpdate : Option String
  deriving DecidableEq, Repr

/-- A row of `files`. The repository is in the namespace of the row's key. -/
structure FilesRow where
  chartId : String
  repoName : String
  info : ChartFiles
  deriving DecidableEq, Repr

/-- The three tables. -/
structure Tables where
  repos : RepoKey → Option RepoRow
  charts : RepoKey → String → Option Chart
  nullCharts : RepoKey → List Chart
  files : String → String → Option FilesRow

/-- Tables that satisfy their foreign keys. -/
structure Database extends Tables where
  charts_fk : ∀ k id, charts k id ≠ none → repos k ≠ none
  nullCharts_fk : ∀ k, nullCharts k ≠ [] → repos k ≠ none
  files_fk : ∀ ns id row, files ns id = some row →
    repos ⟨ns, row.repoName⟩ ≠ none ∧ charts ⟨ns, row.repoName⟩ row.chartId ≠ none

/-- PostgreSQL takes no U+0000 in a text, and none in a string of a jsonb value. -/
def jsonbTakes (ss : List String) : Bool := ss.all fun s => !s.toList.contains (Char.ofNat 0)

/-- The tables after `InitTables`. -/
def Database.empty : Database where
  repos _ := none
  charts _ _ := none
  nullCharts _ := []
  files _ _ := none
  charts_fk _ _ h := absurd rfl h
  nullCharts_fk _ h := absurd rfl h
  files_fk _ _ _ h := by cases h

namespace Database

/-! ## Statements on `repos` -/

/-- Put a row into `repos`. -/
def putRepo (db : Database) (k : RepoKey) (row : RepoRow) : Database where
  repos := Function.update db.repos k (some row)
  charts := db.charts
  nullCharts := db.nullCharts
  files := db.files
  charts_fk k' id h := by
    by_cases hk : k' = k
    · simp [hk]
    · rw [Function.update_of_ne hk]
      exact db.charts_fk k' id h
  nullCharts_fk k' h := by
    by_cases hk : k' = k
    · simp [hk]
    · rw [Function.update_of_ne hk]
      exact db.nullCharts_fk k' h
  files_fk ns id row' h := by
    obtain ⟨h1, h2⟩ := db.files_fk ns id row' h
    refine ⟨?_, h2⟩
    by_cases hk : (⟨ns, row'.repoName⟩ : RepoKey) = k
    · simp [hk]
    · rw [Function.update_of_ne hk]
      exact h1

/-- `EnsureRepoExists`: insert the repository unless it is there. -/
def ensureRepoExists (db : Database) (k : RepoKey) : Database :=
  match db.repos k with
  | none => db.putRepo k ⟨none, none⟩
  | some _ => db

/-- `LastChecksum`: the empty string for no row and for a NULL. -/
def lastChecksum (db : Database) (k : RepoKey) : String :=
  ((db.repos k).bind RepoRow.checksum).getD ""

/-- `UpdateLastCheck`. -/
def updateLastCheck (db : Database) (k : RepoKey) (checksum now : String) : Database :=
  db.putRepo k ⟨some checksum, some now⟩

/-- `Delete` of the cleanup job: the row goes, and with it the charts and files that refer to
    it. -/
def delete (db : Database) (k : RepoKey) : Database where
  repos := Function.update db.repos k none
  charts := Function.update db.charts k fun _ => none
  nullCharts := Function.update db.nullCharts k []
  files ns id :=
    match db.files ns id with
    | some row => if ns = k.ns ∧ row.repoName = k.name then none else some row
    | none => none
  charts_fk k' id h := by
    by_cases hk : k' = k
    · subst hk
      rw [Function.update_self] at h
      exact absurd rfl h
    · rw [Function.update_of_ne hk] at h ⊢
      exact db.charts_fk k' id h
  nullCharts_fk k' h := by
    by_cases hk : k' = k
    · subst hk
      rw [Function.update_self] at h
      exact absurd rfl h
    · rw [Function.update_of_ne hk] at h ⊢
      exact db.nullCharts_fk k' h
  files_fk ns id row h := by
    split at h
    · rename_i row' hrow
      split at h
      · cases h
      · rename_i hother
        cases h
        have hk : (⟨ns, row.repoName⟩ : RepoKey) ≠ k := by
          intro heq
          subst heq
          exact hother ⟨rfl, rfl⟩
        rw [Function.update_of_ne hk, Function.update_of_ne hk]
        exact db.files_fk ns id row hrow
    · cases h

/-! ## Statements on `charts` -/

/-- The upsert of `importCharts`. It fails on a string with U+0000, and without a row of the
    repository. -/
def upsertChart (db : Database) (k : RepoKey) (c : Chart) : Except String Database :=
  if jsonbTakes (chartStrings c) = false then .error "unsupported Unicode escape sequence"
  else if hrepo : db.repos k = none then
    .error "insert or update on table \"charts\" violates foreign key constraint"
  else .ok {
    repos := db.repos
    charts := Function.update db.charts k (Function.update (db.charts k) c.id (some c))
    nullCharts := db.nullCharts
    files := db.files
    charts_fk := by
      intro k' id h
      by_cases hk : k' = k
      · rw [hk]
        exact hrepo
      · rw [Function.update_of_ne hk] at h
        exact db.charts_fk k' id h
    nullCharts_fk := db.nullCharts_fk
    files_fk := by
      intro ns id row h
      obtain ⟨h1, h2⟩ := db.files_fk ns id row h
      refine ⟨h1, ?_⟩
      by_cases hk : (⟨ns, row.repoName⟩ : RepoKey) = k
      · subst hk
        rw [Function.update_self]
        by_cases hid : row.chartId = c.id
        · simp [hid]
        · rw [Function.update_of_ne hid]
          exact h2
      · rw [Function.update_of_ne hk]
        exact h2 }

/-- Delete the charts of `k` whose id `gone` selects, with their files. -/
def deleteCharts (db : Database) (k : RepoKey) (gone : String → Bool) : Database where
  repos := db.repos
  charts := Function.update db.charts k fun id => if gone id then none else db.charts k id
  nullCharts := db.nullCharts
  files ns id :=
    match db.files ns id with
    | some row => if ns = k.ns ∧ row.repoName = k.name ∧ gone row.chartId = true then none
        else some row
    | none => none
  charts_fk k' id h := by
    by_cases hk : k' = k
    · subst hk
      rw [Function.update_self] at h
      split at h
      · exact absurd rfl h
      · exact db.charts_fk k' id h
    · rw [Function.update_of_ne hk] at h
      exact db.charts_fk k' id h
  nullCharts_fk := db.nullCharts_fk
  files_fk ns id row h := by
    split at h
    · rename_i row' hrow
      split at h
      · cases h
      · rename_i hkeep
        cases h
        obtain ⟨h1, h2⟩ := db.files_fk ns id row hrow
        refine ⟨h1, ?_⟩
        by_cases hk : (⟨ns, row.repoName⟩ : RepoKey) = k
        · subst hk
          have hgone : gone row.chartId = false := by
            cases hg : gone row.chartId with
            | false => rfl
            | true => exact absurd ⟨rfl, rfl, hg⟩ hkeep
          simpa [hgone] using h2
        · rw [Function.update_of_ne hk]
          exact h2
    · cases h

/-- `updateIcon`: `UPDATE … RETURNING ID` of the row of one chart. No row is an error. -/
def updateIcon (db : Database) (k : RepoKey) (id data contentType : String) :
    Except String Database :=
  match h : db.charts k id with
  | none => .error "sql: no rows in result set"
  | some c => .ok {
      repos := db.repos
      charts := Function.update db.charts k (Function.update (db.charts k) id
        (some { c with rawIcon := data, iconContentType := contentType }))
      nullCharts := db.nullCharts
      files := db.files
      charts_fk := by
        intro k' id' h'
        by_cases hk : k' = k
        · rw [hk]
          exact db.charts_fk k id (by rw [h]; simp)
        · rw [Function.update_of_ne hk] at h'
          exact db.charts_fk k' id' h'
      nullCharts_fk := db.nullCharts_fk
      files_fk := by
        intro ns fid row hf
        obtain ⟨h1, h2⟩ := db.files_fk ns fid row hf
        refine ⟨h1, ?_⟩
        by_cases hk : (⟨ns, row.repoName⟩ : RepoKey) = k
        · subst hk
          rw [Function.update_self]
          by_cases hid : row.chartId = id
          · simp [hid]
          · rw [Function.update_of_ne hid]
            exact h2
        · rw [Function.update_of_ne hk]
          exact h2 }

/-! ## Statements on `files` -/

/-- `filesExist`. -/
def filesExist (db : Database) (k : RepoKey) (chartFilesID digest : String) : Bool :=
  match db.files k.ns chartFilesID with
  | some row => row.repoName = k.name && row.info.digest = digest
  | none => false

/-- `insertFiles`: on a conflict only `info` changes, and no foreign key is checked. A string with
    U+0000 is refused in either case. -/
def insertFiles (db : Database) (k : RepoKey) (chartId : String) (files : ChartFiles) :
    Except String Database :=
  let put (row : FilesRow) (h : db.repos ⟨k.ns, row.repoName⟩ ≠ none ∧
      db.charts ⟨k.ns, row.repoName⟩ row.chartId ≠ none) : Database := {
    repos := db.repos
    charts := db.charts
    nullCharts := db.nullCharts
    files := Function.update db.files k.ns
      (Function.update (db.files k.ns) files.id (some row))
    charts_fk := db.charts_fk
    nullCharts_fk := db.nullCharts_fk
    files_fk := by
      intro ns id row' hf
      by_cases hns : ns = k.ns
      · subst hns
        rw [Function.update_self] at hf
        by_cases hid : id = files.id
        · subst hid
          rw [Function.update_self] at hf
          cases hf
          exact h
        · rw [Function.update_of_ne hid] at hf
          exact db.files_fk k.ns id row' hf
      · rw [Function.update_of_ne hns] at hf
        exact db.files_fk ns id row' hf }
  if jsonbTakes (chartId :: chartFilesStrings files) = false then
    .error "unsupported Unicode escape sequence"
  else
    match hrow : db.files k.ns files.id with
    | some row => .ok (put { row with info := files } (db.files_fk k.ns files.id row hrow))
    | none =>
        if h : db.repos k ≠ none ∧ db.charts k chartId ≠ none then
          .ok (put ⟨chartId, k.name, files⟩ h)
        else .error "insert or update on table \"files\" violates foreign key constraint"

/-! ## What the statements change -/

variable {db : Database} {k : RepoKey}

theorem ensureRepoExists_repos_self (db : Database) (k : RepoKey) :
    (db.ensureRepoExists k).repos k ≠ none := by
  unfold ensureRepoExists
  split
  · simp [putRepo]
  · rename_i h
    simp [h]

theorem ensureRepoExists_repos_of_ne (db : Database) {k k' : RepoKey} (h : k' ≠ k) :
    (db.ensureRepoExists k).repos k' = db.repos k' := by
  unfold ensureRepoExists
  split
  · exact Function.update_of_ne h _ _
  · rfl

@[simp] theorem ensureRepoExists_charts (db : Database) (k : RepoKey) :
    (db.ensureRepoExists k).charts = db.charts := by
  unfold ensureRepoExists
  split <;> rfl

@[simp] theorem ensureRepoExists_nullCharts (db : Database) (k : RepoKey) :
    (db.ensureRepoExists k).nullCharts = db.nullCharts := by
  unfold ensureRepoExists
  split <;> rfl

@[simp] theorem ensureRepoExists_files (db : Database) (k : RepoKey) :
    (db.ensureRepoExists k).files = db.files := by
  unfold ensureRepoExists
  split <;> rfl

/-- A new row has no checksum, so `EnsureRepoExists` does not change what is read. -/
@[simp] theorem ensureRepoExists_lastChecksum (db : Database) (k k' : RepoKey) :
    (db.ensureRepoExists k).lastChecksum k' = db.lastChecksum k' := by
  unfold ensureRepoExists
  split
  · rename_i h
    by_cases hk : k' = k
    · subst hk
      simp [lastChecksum, putRepo, h]
    · simp [lastChecksum, putRepo, hk]
  · rfl

/-- The upsert of a chart that jsonb takes, on a repository that exists. -/
theorem upsertChart_ok (h : db.repos k ≠ none) {c : Chart}
    (htakes : jsonbTakes (chartStrings c) = true) : ∃ db', db.upsertChart k c = .ok db' := by
  unfold upsertChart
  rw [if_neg (by simp [htakes]), dif_neg h]
  exact ⟨_, rfl⟩

/-- What an upsert that succeeds has found, and what it leaves. -/
theorem upsertChart_eq_ok {c : Chart} {db' : Database} (h : db.upsertChart k c = .ok db') :
    db.repos k ≠ none ∧ jsonbTakes (chartStrings c) = true ∧ db'.toTables = { db.toTables with
      charts := Function.update db.charts k (Function.update (db.charts k) c.id (some c)) } := by
  unfold upsertChart at h
  split at h
  · simp at h
  · rename_i htakes
    split at h
    · simp at h
    · rename_i hrepo
      have hdb := Except.ok.inj h
      exact ⟨hrepo, by simpa using htakes, by rw [← hdb]⟩

/-- A row of `files` is deleted with its chart, and only then. -/
theorem deleteCharts_files (db : Database) (k : RepoKey) (gone : String → Bool)
    (ns id : String) (row : FilesRow) :
    (db.deleteCharts k gone).files ns id = some row ↔
      db.files ns id = some row ∧
        ¬ (ns = k.ns ∧ row.repoName = k.name ∧ gone row.chartId = true) := by
  simp only [deleteCharts]
  cases hrow : db.files ns id with
  | none => simp
  | some row' =>
      dsimp only
      split
      · rename_i hgone
        simp only [reduceCtorEq, Option.some.injEq, false_iff]
        rintro ⟨rfl, hkeep⟩
        exact hkeep hgone
      · rename_i hkeep
        constructor
        · intro h
          cases h
          exact ⟨rfl, hkeep⟩
        · intro h
          exact h.1

theorem updateLastCheck_lastChecksum (db : Database) (k : RepoKey) (checksum now : String) :
    (db.updateLastCheck k checksum now).lastChecksum k = checksum := by
  simp [lastChecksum, updateLastCheck, putRepo]

theorem updateLastCheck_lastChecksum_of_ne (db : Database) {k k' : RepoKey} (h : k' ≠ k)
    (checksum now : String) :
    (db.updateLastCheck k checksum now).lastChecksum k' = db.lastChecksum k' := by
  simp [lastChecksum, updateLastCheck, putRepo, h]

/-- `updateIcon` fills in the icon of one row. -/
theorem updateIcon_ok {id data contentType : String} {db' : Database}
    (h : db.updateIcon k id data contentType = .ok db') :
    ∃ c, db.charts k id = some c ∧ db'.toTables = { db.toTables with
      charts := Function.update db.charts k (Function.update (db.charts k) id
        (some { c with rawIcon := data, iconContentType := contentType })) } := by
  unfold updateIcon at h
  split at h
  · simp at h
  · rename_i c hc
    have hdb := Except.ok.inj h
    exact ⟨c, hc, by rw [← hdb]⟩

/-- `insertFiles` puts one row. It is the old row with new `info`, or one of the repository. -/
theorem insertFiles_ok {chartId : String} {files : ChartFiles} {db' : Database}
    (h : db.insertFiles k chartId files = .ok db') :
    ∃ row, row.info = files ∧
      ((∃ old, db.files k.ns files.id = some old ∧ row.repoName = old.repoName) ∨
        (db.files k.ns files.id = none ∧ row.repoName = k.name)) ∧
      db'.toTables = { db.toTables with
        files := Function.update db.files k.ns
          (Function.update (db.files k.ns) files.id (some row)) } := by
  unfold insertFiles at h
  dsimp only at h
  split at h
  · simp at h
  split at h
  · rename_i old hold
    have hdb := Except.ok.inj h
    exact ⟨{ old with info := files }, rfl, .inl ⟨old, hold, rfl⟩, by rw [← hdb]⟩
  · rename_i hnone
    split at h
    · have hdb := Except.ok.inj h
      exact ⟨⟨chartId, k.name, files⟩, rfl, .inr ⟨hnone, rfl⟩, by rw [← hdb]⟩
    · simp at h

/-- With strings that jsonb takes it fails only for want of the chart's row. -/
theorem insertFiles_error {chartId e : String} {files : ChartFiles}
    (htakes : jsonbTakes (chartId :: chartFilesStrings files) = true)
    (h : db.insertFiles k chartId files = .error e) : db.charts k chartId = none := by
  unfold insertFiles at h
  dsimp only at h
  rw [if_neg (by simp [htakes])] at h
  split at h
  · simp at h
  · split at h
    · simp at h
    · rename_i hfk
      by_contra hrow
      exact hfk ⟨db.charts_fk k chartId hrow, hrow⟩

end Database

end Kubeapps.Syncer
