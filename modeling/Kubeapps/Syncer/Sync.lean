/-
  `Sync` (cmd/asset-syncer/postgresql_utils.go): one list of charts written to the tables.

  `sync` is the source's function. A run of it is also a list of statements (`syncStmts`), each
  atomic and stopped at the first error (`execStmts_syncStmts`); that is the form in which two
  jobs interleave. `InitTables` finds its tables and has no statement here.

  `sync_ok`: with at least one chart, no quote in an id and no U+0000 in a string, the rows of
  the repository are those of the list. Without a chart the text of `removeMissingCharts` is not
  SQL (`sync_empty`), and a chart with U+0000 is refused (`takes_of_sync`): the call fails. The
  ids that `Charts` returns have no quote (`returned_no_quote`), so for these lists
  `sync_exact_iff` decides when `Sync` does what it is for.
-/
import Mathlib.Data.List.Nodup
import Kubeapps.Syncer.Database
import Kubeapps.Syncer.OciCharts

namespace Kubeapps.Syncer

open Kubeapps.Lib Kubeapps.Models

/-! ## The functions of the source -/

/-- `importCharts`. The result has the tables as the statements left them, and the error. -/
def importCharts (db : Database) (k : RepoKey) : List Chart → Database × Option String
  | [] => (db, none)
  | c :: cs =>
      match db.upsertChart k c with
      | .error e => (db, some e)
      | .ok db' => importCharts db' k cs

/-- The text of the statement of `removeMissingCharts`, up to its list. -/
def removeMissingHead : String := "DELETE FROM charts WHERE chart_id NOT IN ("

/-- The rest of the text. The two parameters are the repository. -/
def removeMissingTail : String := ") AND repo_name = $1 AND repo_namespace = $2"

/-- The text `removeMissingCharts` sends for these ids. -/
def removeMissingText (chartIDs : List String) : String :=
  removeMissingHead ++ ", ".intercalate (chartIDs.map quoted) ++ removeMissingTail

/-- `removeMissingCharts`, on the ids of the charts: what the database makes of the text. A
    NULL `chart_id` is not `NOT IN` anything. -/
def removeMissingCharts (db : Database) (k : RepoKey) (chartIDs : List String) :
    Except String Database :=
  match parseNotIn removeMissingHead removeMissingTail (removeMissingText chartIDs) with
  | none => .error "syntax error"
  | some ids => .ok (db.deleteCharts k fun id => !ids.contains id)

/-- `Sync`. -/
def sync (db : Database) (k : RepoKey) (charts : List Chart) : Database × Option String :=
  match importCharts (db.ensureRepoExists k) k charts with
  | (db', some e) => (db', some e)
  | (db', none) =>
      match removeMissingCharts db' k (charts.map Chart.id) with
      | .error e => (db', some e)
      | .ok db'' => (db'', none)

/-! ## As a list of statements -/

/-- A statement of `Sync`. -/
inductive Stmt where
  | ensureRepoExists
  | upsertChart (c : Chart)
  | removeMissingCharts (chartIDs : List String)
  deriving DecidableEq

/-- Run one statement for the repository `k`. -/
def Stmt.exec (k : RepoKey) (db : Database) : Stmt → Except String Database
  | .ensureRepoExists => .ok (db.ensureRepoExists k)
  | .upsertChart c => db.upsertChart k c
  | .removeMissingCharts chartIDs => Syncer.removeMissingCharts db k chartIDs

/-- Run statements up to the first that fails. -/
def execStmts (k : RepoKey) : List Stmt → Database → Database × Option String
  | [], db => (db, none)
  | st :: sts, db =>
      match st.exec k db with
      | .error e => (db, some e)
      | .ok db' => execStmts k sts db'

/-- The statements of `Sync`, in order. -/
def syncStmts (charts : List Chart) : List Stmt :=
  .ensureRepoExists :: (charts.map .upsertChart ++ [.removeMissingCharts (charts.map Chart.id)])

theorem execStmts_append (k : RepoKey) (as bs : List Stmt) (db : Database) :
    execStmts k (as ++ bs) db =
      match execStmts k as db with
      | (db', some e) => (db', some e)
      | (db', none) => execStmts k bs db' := by
  induction as generalizing db with
  | nil => rfl
  | cons st as ih =>
      simp only [List.cons_append, execStmts]
      cases st.exec k db with
      | error e => rfl
      | ok db' => exact ih db'

theorem execStmts_upserts (k : RepoKey) (charts : List Chart) (db : Database) :
    execStmts k (charts.map .upsertChart) db = importCharts db k charts := by
  induction charts generalizing db with
  | nil => rfl
  | cons c cs ih =>
      simp only [List.map_cons, execStmts, importCharts, Stmt.exec]
      cases db.upsertChart k c with
      | error e => rfl
      | ok db' => exact ih db'

/-- `Sync` runs its statements up to the first error. -/
theorem execStmts_syncStmts (db : Database) (k : RepoKey) (charts : List Chart) :
    execStmts k (syncStmts charts) db = sync db k charts := by
  unfold syncStmts sync
  simp only [execStmts, Stmt.exec]
  rw [execStmts_append, execStmts_upserts]
  cases importCharts (db.ensureRepoExists k) k charts with
  | mk db' err =>
      cases err with
      | some e => rfl
      | none => rfl

/-! ## The rows after an import -/

/-- The rows of a repository after the upserts of `charts`. -/
def upsertRows (charts : List Chart) (rows : String → Option Chart) : String → Option Chart :=
  charts.foldl (fun rows c => Function.update rows c.id (some c)) rows

theorem upsertRows_cons (c : Chart) (cs : List Chart) (rows : String → Option Chart) :
    upsertRows (c :: cs) rows = upsertRows cs (Function.update rows c.id (some c)) := rfl

theorem upsertRows_of_not_mem {charts : List Chart} {id : String}
    (h : id ∉ charts.map Chart.id) (rows : String → Option Chart) :
    upsertRows charts rows id = rows id := by
  induction charts generalizing rows with
  | nil => rfl
  | cons c cs ih =>
      simp only [List.map_cons, List.mem_cons, not_or] at h
      rw [upsertRows_cons, ih h.2, Function.update_of_ne h.1]

/-- An id of the list has a chart of the list in its row. -/
theorem upsertRows_of_mem {charts : List Chart} {id : String} (h : id ∈ charts.map Chart.id)
    (rows : String → Option Chart) :
    ∃ c ∈ charts, c.id = id ∧ upsertRows charts rows id = some c := by
  induction charts generalizing rows with
  | nil => cases h
  | cons c cs ih =>
      by_cases hcs : id ∈ cs.map Chart.id
      · obtain ⟨c', hc', hid, hrow⟩ := ih hcs (Function.update rows c.id (some c))
        exact ⟨c', List.mem_cons_of_mem _ hc', hid, hrow⟩
      · have hid : id = c.id := by
          rcases List.mem_cons.mp h with h | h
          · exact h
          · exact absurd h hcs
        refine ⟨c, List.mem_cons_self, hid.symm, ?_⟩
        rw [upsertRows_cons, upsertRows_of_not_mem hcs, hid, Function.update_self]

/-- The charts of a list have distinct ids, up to repetition. -/
def DistinctIds (charts : List Chart) : Prop :=
  ∀ a ∈ charts, ∀ b ∈ charts, a.id = b.id → a = b

instance (charts : List Chart) : Decidable (DistinctIds charts) := by
  unfold DistinctIds
  infer_instance

theorem distinctIds_of_nodup {charts : List Chart} (h : (charts.map Chart.id).Nodup) :
    DistinctIds charts := by
  intro a ha b hb hid
  exact List.inj_on_of_nodup_map h ha hb hid

theorem upsertRows_self {charts : List Chart} (hd : DistinctIds charts) {c : Chart}
    (hc : c ∈ charts) (rows : String → Option Chart) :
    upsertRows charts rows c.id = some c := by
  obtain ⟨c', hc', hid, hrow⟩ := upsertRows_of_mem (List.mem_map_of_mem hc) rows
  rw [hrow, hd c' hc' c hc hid]

/-! ## The two outcomes -/

theorem removeMissingCharts_ok {ids : List String} (hne : ids ≠ [])
    (hq : ∀ id ∈ ids, '\'' ∉ id.toList) (db : Database) (k : RepoKey) :
    removeMissingCharts db k ids = .ok (db.deleteCharts k fun id => !ids.contains id) := by
  unfold removeMissingCharts removeMissingText
  rw [parseNotIn_quoted hne hq (by decide)]

theorem removeMissingCharts_nil (db : Database) (k : RepoKey) :
    removeMissingCharts db k [] = .error "syntax error" := by
  unfold removeMissingCharts removeMissingText
  rw [parseNotIn_empty (by decide)]

/-- jsonb takes every chart of the list. -/
def JsonbCharts (charts : List Chart) : Prop := ∀ c ∈ charts, jsonbTakes (chartStrings c) = true

instance (charts : List Chart) : Decidable (JsonbCharts charts) :=
  inferInstanceAs (Decidable (∀ c ∈ charts, jsonbTakes (chartStrings c) = true))

theorem importCharts_ok {db : Database} {k : RepoKey} (h : db.repos k ≠ none)
    {charts : List Chart} (htakes : JsonbCharts charts) :
    ∃ db', importCharts db k charts = (db', none) ∧ db'.toTables = { db.toTables with
      charts := Function.update db.charts k (upsertRows charts (db.charts k)) } := by
  induction charts generalizing db with
  | nil =>
      refine ⟨db, rfl, ?_⟩
      simp [upsertRows]
  | cons c cs ih =>
      obtain ⟨db', hdb'⟩ := Database.upsertChart_ok h (htakes c List.mem_cons_self)
      obtain ⟨_, _, htab⟩ := Database.upsertChart_eq_ok hdb'
      have hrepos : db'.repos = db.repos := by rw [htab]
      obtain ⟨db'', hdb'', htab'⟩ :=
        ih (by rw [hrepos]; exact h) fun c' hc' => htakes c' (List.mem_cons_of_mem c hc')
      refine ⟨db'', ?_, ?_⟩
      · simp only [importCharts, hdb']
        exact hdb''
      · rw [htab', htab]
        simp [upsertRows_cons]

/-- An import that succeeds has had every chart taken. -/
theorem takes_of_importCharts {db db' : Database} {k : RepoKey} {charts : List Chart}
    (h : importCharts db k charts = (db', none)) : JsonbCharts charts := by
  induction charts generalizing db with
  | nil => exact fun c hc => absurd hc List.not_mem_nil
  | cons c cs ih =>
      simp only [importCharts] at h
      cases hup : db.upsertChart k c with
      | error e =>
          rw [hup] at h
          cases h
      | ok db'' =>
          rw [hup] at h
          intro c' hc'
          rcases List.mem_cons.mp hc' with rfl | hc'
          · exact (Database.upsertChart_eq_ok hup).2.1
          · exact ih h c' hc'

/-- So has a `Sync` that succeeds. -/
theorem takes_of_sync {db db' : Database} {k : RepoKey} {charts : List Chart}
    (h : sync db k charts = (db', none)) : JsonbCharts charts := by
  unfold sync at h
  cases himp : importCharts (db.ensureRepoExists k) k charts with
  | mk db'' err =>
      cases err with
      | some e =>
          rw [himp] at h
          cases h
      | none => exact takes_of_importCharts himp

/-- Without a chart `Sync` fails: the text of its last statement is not SQL. -/
theorem sync_empty (db : Database) (k : RepoKey) :
    sync db k [] = (db.ensureRepoExists k, some "syntax error") := by
  simp [sync, importCharts, removeMissingCharts_nil]

/-- The tables after a `Sync` that succeeds. -/
structure Synced (db db' : Database) (k : RepoKey) (charts : List Chart) : Prop where
  repos_self : db'.repos k ≠ none
  repos_of_ne : ∀ k', k' ≠ k → db'.repos k' = db.repos k'
  checksum : ∀ k', db'.lastChecksum k' = db.lastChecksum k'
  charts_self : db'.charts k = fun id =>
    if id ∈ charts.map Chart.id then upsertRows charts (db.charts k) id else none
  charts_of_ne : ∀ k', k' ≠ k → db'.charts k' = db.charts k'
  nullCharts : db'.nullCharts = db.nullCharts
  files : ∀ ns id row, db'.files ns id = some row ↔ db.files ns id = some row ∧
    ¬ (ns = k.ns ∧ row.repoName = k.name ∧ row.chartId ∉ charts.map Chart.id)

/-- With a chart, no quote in an id and nothing that jsonb refuses, `Sync` succeeds. -/
theorem sync_ok {charts : List Chart} (hne : charts ≠ [])
    (hq : ∀ c ∈ charts, '\'' ∉ c.id.toList) (htakes : JsonbCharts charts) (db : Database)
    (k : RepoKey) : ∃ db', sync db k charts = (db', none) ∧ Synced db db' k charts := by
  obtain ⟨db', hdb', htab⟩ := importCharts_ok (db.ensureRepoExists_repos_self k) htakes
  have hids : charts.map Chart.id ≠ [] := by simpa using hne
  have hquote : ∀ id ∈ charts.map Chart.id, '\'' ∉ id.toList := by
    intro id hid
    obtain ⟨c, hc, rfl⟩ := List.mem_map.mp hid
    exact hq c hc
  have hrm := removeMissingCharts_ok hids hquote db' k
  refine ⟨db'.deleteCharts k fun id => !(charts.map Chart.id).contains id, ?_, ?_⟩
  · simp only [sync, hdb', hrm]
  have hrepos : db'.repos = (db.ensureRepoExists k).repos := by rw [htab]
  have hcharts : db'.charts = Function.update db.charts k (upsertRows charts (db.charts k)) := by
    rw [htab, Database.ensureRepoExists_charts]
  have hnull : db'.nullCharts = db.nullCharts := by
    rw [htab, Database.ensureRepoExists_nullCharts]
  have hfiles : db'.files = db.files := by rw [htab, Database.ensureRepoExists_files]
  refine ⟨?_, ?_, ?_, ?_, ?_, hnull, ?_⟩
  · show db'.repos k ≠ none
    rw [hrepos]
    exact db.ensureRepoExists_repos_self k
  · intro k' hk'
    show db'.repos k' = db.repos k'
    rw [hrepos, db.ensureRepoExists_repos_of_ne hk']
  · intro k'
    show db'.lastChecksum k' = db.lastChecksum k'
    rw [← db.ensureRepoExists_lastChecksum k k']
    simp only [Database.lastChecksum, hrepos]
  · funext id
    simp only [Database.deleteCharts, Function.update_self, hcharts]
    by_cases hid : id ∈ charts.map Chart.id <;> simp [hid]
  · intro k' hk'
    simp only [Database.deleteCharts, Function.update_of_ne hk', hcharts]
  · intro ns id row
    rw [Database.deleteCharts_files, hfiles]
    simp

/-! ## The lists `Charts` returns -/

/-- The lists of charts `Repo.Charts` can return for the repository `k`, of either type. -/
inductive Returned (k : RepoKey) (charts : List Chart) : Prop
  | helm {β : Type} (env : IndexEnv β) (r : HelmRepo β) (fetchLatestOnly : Bool)
      (hk : repoKey r.internal = k) (h : r.charts env fetchLatestOnly = .ok charts)
  | oci (env : OciEnv) (r : OCIRegistry) (tags : Tags) (fetchLatestOnly : Bool)
      (hk : repoKey r.internal = k) (h : ChartsEnds env r tags fetchLatestOnly (.ok charts))

/-- A chart an OCI registry returns has the id of one of its pulls, and its versions. -/
theorem pulled_of_chartsEnds {env : OciEnv} {r : OCIRegistry} {tags : Tags}
    {fetchLatestOnly : Bool} {charts : List Chart}
    (h : ChartsEnds env r tags fetchLatestOnly (.ok charts)) {c : Chart} (hc : c ∈ charts) :
    ∃ repoURL app tag c', pullAndExtract env repoURL app tag r = .ok c' ∧ c'.id = c.id ∧
      ∀ cv ∈ c'.chartVersions, cv ∈ c.chartVersions := by
  unfold ChartsEnds at h
  split at h
  · cases h
  rename_i repoURL _
  obtain ⟨as, s, hrun, hout⟩ := h
  split at hout
  · exact absurd hout id
  · cases hout
  rename_i hret
  have hfilter := filterCharts_sublist (liftErr_eq_ok hout.symm)
  have hmem := (perm_pulledCharts env s.received).mem_iff.mp (hfilter.mem hc)
  obtain ⟨_, _, hmerged⟩ := mergeCharts_spec (okCharts s.received)
  obtain ⟨c', rest, hsame, heq⟩ := hmerged c hmem
  have hc' : c' ∈ (okCharts s.received).filter fun x => x.id = c.id := by simp [hsame]
  obtain ⟨hok, hid⟩ := List.mem_filter.mp hc'
  obtain ⟨j, hj⟩ := mem_okCharts.1 hok
  have hans := of_decide_eq_true ((Pool.inv_runs hrun).okReceived _ hj)
  have hpull : pullAndExtract env repoURL j.appName j.tag r = .ok c' := by
    cases hp : pullAndExtract env repoURL j.appName j.tag r with
    | ok d =>
        rw [hp] at hans
        cases hans
        rfl
    | error f =>
        rw [hp] at hans
        cases f <;> cases hans
  refine ⟨repoURL, j.appName, j.tag, c', hpull, of_decide_eq_true hid, fun cv hcv => ?_⟩
  rw [heq]
  exact List.mem_flatMap.mpr ⟨c', List.mem_cons_self, hcv⟩

/-- Every chart that `Charts` returns has a version. -/
theorem returned_versions {k : RepoKey} {charts : List Chart} (h : Returned k charts) {c : Chart}
    (hc : c ∈ charts) : c.chartVersions ≠ [] := by
  cases h with
  | helm env r fetchLatestOnly hk h =>
      obtain ⟨entry, he⟩ := helmRepo_charts_newChart h hc
      exact Helm.newChart_versions he
  | oci env r tags fetchLatestOnly hk h =>
      obtain ⟨repoURL, app, tag, c', hpull, _, hsub⟩ := pulled_of_chartsEnds h hc
      obtain ⟨_, cv, hcv⟩ := pullAndExtract_spec hpull
      have hmem := hsub cv (by simp [hcv])
      exact List.ne_nil_of_mem hmem

theorem quote_not_mem_pathEscape (s : String) : '\'' ∉ (pathEscape s).toList := by
  intro h
  rcases mem_pathEscape h with h | h
  · exact absurd h (by decide)
  · exact absurd h (by decide)

theorem quote_not_mem_validName {s : String} (h : ValidName s) : '\'' ∉ s.toList := by
  intro hc
  rcases mem_validName h hc with h | h
  · exact absurd h (by decide)
  · exact absurd h (by decide)

/-- No id that `Charts` returns has a quote in it. -/
theorem returned_no_quote {k : RepoKey} (hname : ValidName k.name) {charts : List Chart}
    (h : Returned k charts) {c : Chart} (hc : c ∈ charts) : '\'' ∉ c.id.toList := by
  cases h with
  | helm env r fetchLatestOnly hk h =>
      subst hk
      obtain ⟨⟨m, hm⟩, hid, _⟩ := mem_helmRepo_charts h hc
      rw [hid, hm]
      simp only [String.toList_append, List.mem_append, not_or]
      exact ⟨⟨quote_not_mem_validName hname, by decide⟩, quote_not_mem_pathEscape m.name⟩
  | oci env r tags fetchLatestOnly hk h =>
      subst hk
      obtain ⟨repoURL, app, tag, c', hpull, hid, _⟩ := pulled_of_chartsEnds h hc
      rw [← hid, (pullAndExtract_spec hpull).1]
      intro hquote
      rcases mem_pathJoin hquote with ⟨e, he, hmem⟩ | hquote | hquote
      · rcases List.mem_cons.mp he with rfl | he
        · exact quote_not_mem_validName hname hmem
        · cases List.mem_singleton.mp he
          exact quote_not_mem_pathEscape app hmem
      · exact absurd hquote (by decide)
      · exact absurd hquote (by decide)

/-! ## When `Sync` is exact -/

/-- What `Sync` is for: it succeeds and leaves one row for each chart, no other row of the
    repository, and the rows of every other repository as they were. -/
structure SyncExact (db : Database) (k : RepoKey) (charts : List Chart) (db' : Database) : Prop
    where
  result : sync db k charts = (db', none)
  rows : ∀ c ∈ charts, db'.charts k c.id = some c
  no_other : ∀ id, db'.charts k id ≠ none → ∃ c ∈ charts, c.id = id
  no_null : db'.nullCharts k = []
  others : ∀ k', k' ≠ k → db'.repos k' = db.repos k' ∧ db'.charts k' = db.charts k' ∧
    db'.nullCharts k' = db.nullCharts k'
  other_files : ∀ ns id row, ¬ (ns = k.ns ∧ row.repoName = k.name) →
    (db'.files ns id = some row ↔ db.files ns id = some row)

theorem syncExact_of_synced {db db' : Database} {k : RepoKey} {charts : List Chart}
    (hd : DistinctIds charts) (hnull : db.nullCharts k = [])
    (hres : sync db k charts = (db', none)) (hs : Synced db db' k charts) :
    SyncExact db k charts db' := by
  refine ⟨hres, ?_, ?_, ?_, ?_, ?_⟩
  · intro c hc
    rw [hs.charts_self]
    simp only [List.mem_map_of_mem hc, ↓reduceIte]
    exact upsertRows_self hd hc _
  · intro id hid
    rw [hs.charts_self] at hid
    by_cases hmem : id ∈ charts.map Chart.id
    · exact List.mem_map.mp hmem
    · simp [hmem] at hid
  · rw [hs.nullCharts]
    exact hnull
  · intro k' hk'
    exact ⟨hs.repos_of_ne k' hk', hs.charts_of_ne k' hk', by rw [hs.nullCharts]⟩
  · intro ns id row hother
    rw [hs.files]
    constructor
    · exact fun h => h.1
    · exact fun h => ⟨h, fun hgone => hother ⟨hgone.1, hgone.2.1⟩⟩

/-- **When `Sync` is exact.** For every state of the tables and every list of charts with distinct
    ids that `Charts` can return for a repository, `Sync` succeeds with exactly these rows if and
    only if the list has a chart, no string of a chart has U+0000, and the table had no row of the
    repository with a NULL id (no statement of the program writes one). -/
theorem sync_exact_iff (db : Database) (k : RepoKey) (charts : List Chart)
    (hname : ValidName k.name) (hret : Returned k charts)
    (hids : (charts.map Chart.id).Nodup) :
    (∃ db', SyncExact db k charts db') ↔
      charts ≠ [] ∧ JsonbCharts charts ∧ db.nullCharts k = [] := by
  constructor
  · rintro ⟨db', h⟩
    have hne : charts ≠ [] := by
      rintro rfl
      have := h.result
      rw [sync_empty] at this
      cases this
    have htakes := takes_of_sync h.result
    refine ⟨hne, htakes, ?_⟩
    obtain ⟨db'', hres, hs⟩ :=
      sync_ok hne (fun c hc => returned_no_quote hname hret hc) htakes db k
    cases h.result.symm.trans hres
    rw [← hs.nullCharts]
    exact h.no_null
  · rintro ⟨hne, htakes, hnull⟩
    obtain ⟨db', hres, hs⟩ :=
      sync_ok hne (fun c hc => returned_no_quote hname hret hc) htakes db k
    exact ⟨db', syncExact_of_synced (distinctIds_of_nodup hids) hnull hres hs⟩

/-- A repository with one chart, with or without a rule that drops it. -/
def nginxRepo (filter : Option FilterRuleSpec) : HelmRepo Unit := ⟨(), bitnami, filter⟩

def nginxIndexEnv : IndexEnv Unit := namedEnv (fun _ => ["nginx"]) fun _ => "4f53cda18c2baa0c"

theorem sync_exact_nginx :
    ∃ db', SyncExact Database.empty ⟨"default", "bitnami"⟩ [namedChart bitnami "nginx"] db' := by
  have hret : (nginxRepo none).charts nginxIndexEnv false = .ok [namedChart bitnami "nginx"] := by
    decide +kernel
  exact (sync_exact_iff _ _ _ validName_bitnami (.helm nginxIndexEnv (nginxRepo none) false rfl hret)
    (by decide)).mpr ⟨by decide, by decide +kernel, rfl⟩

/-- A filter rule that keeps no chart of the index makes `Charts` return the empty list, on which
    `Sync` fails. -/
theorem sync_fails_on_empty_list :
    Returned ⟨"default", "bitnami"⟩ [] ∧ (([] : List Chart).map Chart.id).Nodup ∧
      sync Database.empty ⟨"default", "bitnami"⟩ [] =
        (Database.empty.ensureRepoExists ⟨"default", "bitnami"⟩, some "syntax error") ∧
      ¬ ∃ db', SyncExact Database.empty ⟨"default", "bitnami"⟩ [] db' := by
  have hret : (nginxRepo (some (nameRule "redis"))).charts nginxIndexEnv false = .ok [] := by
    decide +kernel
  refine ⟨.helm nginxIndexEnv (nginxRepo (some (nameRule "redis"))) false rfl hret, List.nodup_nil,
    sync_empty _ _, ?_⟩
  rintro ⟨db', h⟩
  have := h.result
  rw [sync_empty] at this
  cases this

end Kubeapps.Syncer
