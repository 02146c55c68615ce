/-
  One run of the sync job (cmd/asset-syncer/sync.go: the `Run` of `syncCmd`), from the reading of
  the stored checksum on.

  A run compares the checksum of the repository with the stored one and ends if they are equal.
  Otherwise it makes one pass over all versions, or two if nothing was stored, the first one
  over the latest versions only. A pass is a `Sync` and a `fetchFiles`. At the end the checksum is
  stored. `SyncInput` is what the run got from its repository: the checksum and what `Charts`
  returns in either mode (for an OCI registry after `FilterIndex`).

  `runStep` does one statement on the tables, or one action of `fetchFiles`; the tables are shared,
  so that runs can interleave. The state of a pass is kept row by row: a row is as the list of
  charts has it as soon as no statement that touches it is left (`Pending`). `RunInv` is what
  holds during a run that nobody disturbs, `runInv_step` its step lemma.
-/
import Kubeapps.Syncer.FetchFiles
import Kubeapps.Syncer.Sync

namespace Kubeapps.Syncer

open Kubeapps.Lib Kubeapps.Models

/-! ## Small steps -/

/-- What a run gets from its repository. -/
structure SyncInput where
  repo : RepoRef
  checksum : String
  charts : Bool → Go (List Chart)

def SyncInput.key (inp : SyncInput) : RepoKey := repoKey inp.repo.internal

/-- The input of a Helm repository. -/
def helmInput {β : Type} (env : IndexEnv β) (r : HelmRepo β) : SyncInput where
  repo := ⟨.helm, r.internal⟩
  checksum := env.getSha256 r.content
  charts := r.charts env

/-- How the job ended: there was nothing to do, the checksum was stored, `logrus.Fatal`, or a
    panic. -/
inductive Outcome where
  | skipped
  | completed
  | fatal (msg : String)
  | panicked
  deriving DecidableEq, Repr

/-- What the job does next. `passes` are the modes of the passes to come. -/
inductive RunPhase where
  | lastChecksum
  | charts (passes : List Bool)
  | syncing (cs : List Chart) (stmts : List Stmt) (passes : List Bool)
  | fetching (st : FetchFiles) (passes : List Bool)
  | finished (out : Outcome)
  deriving DecidableEq

/-- The next statement or local step of the job, at the time `now`, or an action of
    `fetchFiles`. -/
inductive RunLabel where
  | next (now : String)
  | fetch (l : FetchLabel)
  deriving DecidableEq

/-- `fetchLatestOnlySlice`. -/
def passesFor (lastChecksum : String) : List Bool :=
  if lastChecksum = "" then [true, false] else [false]

/-- One step of a run. -/
def runStep (env : FetchEnv) (inp : SyncInput) (s : Database × RunPhase) (l : RunLabel) :
    Option (Database × RunPhase) :=
  match s, l with
  | (db, .lastChecksum), .next _ =>
      let last := db.lastChecksum inp.key
      if last = inp.checksum then some (db, .finished .skipped)
      else some (db, .charts (passesFor last))
  | (db, .charts []), .next now =>
      some (db.updateLastCheck inp.key inp.checksum now, .finished .completed)
  | (db, .charts (b :: rest)), .next _ =>
      match inp.charts b with
      | .ok cs => some (db, .syncing cs (syncStmts cs) rest)
      | .error (.error e) => some (db, .finished (.fatal e))
      | .error (.panic _) => some (db, .finished .panicked)
  | (db, .syncing cs (st :: sts) rest), .next _ =>
      match st.exec inp.key db with
      | .ok db' => some (db', .syncing cs sts rest)
      | .error e =>
          some (db, .finished (.fatal ("Can't add chart repository to database: " ++ e)))
  | (db, .syncing cs [] rest), .next _ => some (db, .fetching (FetchFiles.init cs) rest)
  | (db, .fetching st rest), .fetch l =>
      (FetchFiles.step env inp.repo (db, st) l).map fun (db', st') => (db', .fetching st' rest)
  | (db, .fetching st rest), .next _ =>
      match st.phase with
      | .running => none
      | .returned => some (db, .charts rest)
      | .crashed => some (db, .finished .panicked)
  | _, _ => none

/-- Everything a step of a run can do. -/
inductive RunMoves (env : FetchEnv) (inp : SyncInput) (db : Database) :
    RunPhase → RunLabel → Database → RunPhase → Prop
  | skip (now : String) (hlast : db.lastChecksum inp.key = inp.checksum) :
      RunMoves env inp db .lastChecksum (.next now) db (.finished .skipped)
  | plan (now : String) (hlast : db.lastChecksum inp.key ≠ inp.checksum) :
      RunMoves env inp db .lastChecksum (.next now) db
        (.charts (passesFor (db.lastChecksum inp.key)))
  | store (now : String) :
      RunMoves env inp db (.charts []) (.next now)
        (db.updateLastCheck inp.key inp.checksum now) (.finished .completed)
  | chartsOk (now : String) (b : Bool) (rest : List Bool) (cs : List Chart)
      (hcs : inp.charts b = .ok cs) :
      RunMoves env inp db (.charts (b :: rest)) (.next now) db (.syncing cs (syncStmts cs) rest)
  | chartsErr (now : String) (b : Bool) (rest : List Bool) (f : Fail) (out : Outcome)
      (hcs : inp.charts b = .error f) (hout : out ≠ .skipped ∧ out ≠ .completed) :
      RunMoves env inp db (.charts (b :: rest)) (.next now) db (.finished out)
  | stmt (now : String) (cs : List Chart) (st : Stmt) (sts : List Stmt) (rest : List Bool)
      (db' : Database) (hst : st.exec inp.key db = .ok db') :
      RunMoves env inp db (.syncing cs (st :: sts) rest) (.next now) db' (.syncing cs sts rest)
  | stmtErr (now : String) (cs : List Chart) (st : Stmt) (sts : List Stmt) (rest : List Bool)
      (e msg : String) (hst : st.exec inp.key db = .error e) :
      RunMoves env inp db (.syncing cs (st :: sts) rest) (.next now) db (.finished (.fatal msg))
  | startFetch (now : String) (cs : List Chart) (rest : List Bool) :
      RunMoves env inp db (.syncing cs [] rest) (.next now) db
        (.fetching (FetchFiles.init cs) rest)
  | fetch (l : FetchLabel) (st st' : FetchFiles) (rest : List Bool) (db' : Database)
      (hst : FetchFiles.step env inp.repo (db, st) l = some (db', st')) :
      RunMoves env inp db (.fetching st rest) (.fetch l) db' (.fetching st' rest)
  | fetched (now : String) (st : FetchFiles) (rest : List Bool) (hret : st.phase = .returned) :
      RunMoves env inp db (.fetching st rest) (.next now) db (.charts rest)
  | crashed (now : String) (st : FetchFiles) (rest : List Bool) (hcrash : st.phase = .crashed) :
      RunMoves env inp db (.fetching st rest) (.next now) db (.finished .panicked)

theorem moves_of_runStep {env : FetchEnv} {inp : SyncInput} {db db' : Database}
    {ph ph' : RunPhase} {l : RunLabel} (h : runStep env inp (db, ph) l = some (db', ph')) :
    RunMoves env inp db ph l db' ph' := by
  unfold runStep at h
  split at h
  · rename_i now heq
    obtain ⟨rfl, rfl⟩ := Prod.mk.inj heq
    dsimp only at h
    split at h
    · rename_i hlast
      obtain ⟨rfl, rfl⟩ := Prod.mk.inj (Option.some.inj h)
      exact .skip now hlast
    · rename_i hlast
      obtain ⟨rfl, rfl⟩ := Prod.mk.inj (Option.some.inj h)
      exact .plan now hlast
  · rename_i now heq
    obtain ⟨rfl, rfl⟩ := Prod.mk.inj heq
    obtain ⟨rfl, rfl⟩ := Prod.mk.inj (Option.some.inj h)
    exact .store now
  · rename_i b rest now heq
    obtain ⟨rfl, rfl⟩ := Prod.mk.inj heq
    split at h
    · rename_i cs hcs
      obtain ⟨rfl, rfl⟩ := Prod.mk.inj (Option.some.inj h)
      exact .chartsOk now b rest cs hcs
    · rename_i e hcs
      obtain ⟨rfl, rfl⟩ := Prod.mk.inj (Option.some.inj h)
      exact .chartsErr now b rest _ _ hcs (by simp)
    · rename_i msg hcs
      obtain ⟨rfl, rfl⟩ := Prod.mk.inj (Option.some.inj h)
      exact .chartsErr now b rest _ _ hcs (by simp)
  · rename_i cs st sts rest now heq
    obtain ⟨rfl, rfl⟩ := Prod.mk.inj heq
    split at h
    · rename_i db'' hst
      obtain ⟨rfl, rfl⟩ := Prod.mk.inj (Option.some.inj h)
      exact .stmt now cs st sts rest db'' hst
    · rename_i e hst
      obtain ⟨rfl, rfl⟩ := Prod.mk.inj (Option.some.inj h)
      exact .stmtErr now cs st sts rest e _ hst
  · rename_i cs rest now heq
    obtain ⟨rfl, rfl⟩ := Prod.mk.inj heq
    obtain ⟨rfl, rfl⟩ := Prod.mk.inj (Option.some.inj h)
    exact .startFetch now cs rest
  · rename_i st rest l heq
    obtain ⟨rfl, rfl⟩ := Prod.mk.inj heq
    obtain ⟨⟨db'', st'⟩, hst, heq'⟩ := Option.map_eq_some_iff.mp h
    obtain ⟨rfl, rfl⟩ := Prod.mk.inj heq'
    exact .fetch l st st' rest db'' hst
  · rename_i st rest now heq
    obtain ⟨rfl, rfl⟩ := Prod.mk.inj heq
    split at h
    · simp at h
    · rename_i hret
      obtain ⟨rfl, rfl⟩ := Prod.mk.inj (Option.some.inj h)
      exact .fetched now st rest hret
    · rename_i hcrash
      obtain ⟨rfl, rfl⟩ := Prod.mk.inj (Option.some.inj h)
      exact .crashed now st rest hcrash
  · simp at h

/-- A run that is over does not move. -/
theorem not_finished_of_runMoves {env : FetchEnv} {inp : SyncInput} {db db' : Database}
    {ph ph' : RunPhase} {l : RunLabel} (hm : RunMoves env inp db ph l db' ph') (out : Outcome) :
    ph ≠ .finished out := by
  cases hm <;> simp

/-! ## Rows -/

/-- The row of a chart, up to its icon. -/
def Database.row (db : Database) (k : RepoKey) (id : String) : Option Chart :=
  (db.charts k id).map Chart.noIcon

/-- The chart of a list with this id, up to its icon. -/
def chartOf (cs : List Chart) (id : String) : Option Chart :=
  (cs.find? fun c => c.id = id).map Chart.noIcon

/-- The rows of a repository are exactly these charts, up to their icons. -/
structure RowsAre (db : Database) (k : RepoKey) (cs : List Chart) : Prop where
  rows : ∀ c ∈ cs, db.row k c.id = some c.noIcon
  no_other : ∀ id, id ∉ cs.map Chart.id → db.row k id = none
  no_null : db.nullCharts k = []

theorem chartOf_self {cs : List Chart} (hd : DistinctIds cs) {c : Chart} (hc : c ∈ cs) :
    chartOf cs c.id = some c.noIcon := by
  unfold chartOf
  have hsome : (cs.find? fun x => x.id = c.id).isSome := by
    rw [List.find?_isSome]
    exact ⟨c, hc, by simp⟩
  obtain ⟨x, hx⟩ := Option.isSome_iff_exists.mp hsome
  have hid : x.id = c.id := by simpa using List.find?_some hx
  have heq : x = c := hd x (List.mem_of_find?_eq_some hx) c hc hid
  rw [hx, heq]
  rfl

theorem chartOf_of_not_mem {cs : List Chart} {id : String} (h : id ∉ cs.map Chart.id) :
    chartOf cs id = none := by
  unfold chartOf
  rw [Option.map_eq_none_iff, List.find?_eq_none]
  intro c hc hid
  have hid' : c.id = id := by simpa using hid
  exact h (hid' ▸ List.mem_map_of_mem hc)

/-- With distinct ids the rows are given id by id. -/
theorem rowsAre_iff {cs : List Chart} (hd : DistinctIds cs) {db : Database} {k : RepoKey} :
    RowsAre db k cs ↔ db.nullCharts k = [] ∧ ∀ id, db.row k id = chartOf cs id := by
  constructor
  · intro h
    refine ⟨h.no_null, fun id => ?_⟩
    by_cases hid : id ∈ cs.map Chart.id
    · obtain ⟨c, hc, rfl⟩ := List.mem_map.mp hid
      rw [h.rows c hc, chartOf_self hd hc]
    · rw [h.no_other id hid, chartOf_of_not_mem hid]
  · intro h
    refine ⟨fun c hc => ?_, fun id hid => ?_, h.1⟩
    · rw [h.2, chartOf_self hd hc]
    · rw [h.2, chartOf_of_not_mem hid]

/-- The order of the charts does not matter. -/
theorem rowsAre_congr {db : Database} {k : RepoKey} {cs cs' : List Chart}
    (h : ∀ c, c ∈ cs' ↔ c ∈ cs) (hr : RowsAre db k cs) : RowsAre db k cs' := by
  refine ⟨fun c hc => hr.rows c ((h c).mp hc), fun id hid => hr.no_other id ?_, hr.no_null⟩
  intro hmem
  obtain ⟨c, hc, hid'⟩ := List.mem_map.mp hmem
  exact hid (List.mem_map.mpr ⟨c, (h c).mpr hc, hid'⟩)

/-- Tables with the same rows up to icons. -/
theorem rowsAre_of_row_eq {db db' : Database} {k : RepoKey} {cs : List Chart}
    (hnull : db'.nullCharts = db.nullCharts) (hrow : ∀ id, db'.row k id = db.row k id)
    (h : RowsAre db k cs) : RowsAre db' k cs := by
  refine ⟨fun c hc => ?_, fun id hid => ?_, ?_⟩
  · rw [hrow, h.rows c hc]
  · rw [hrow, h.no_other id hid]
  · rw [hnull, h.no_null]

/-! ## What a statement of `Sync` changes -/

/-- The statement writes or deletes the row of this id. -/
def Stmt.Touches (id : String) : Stmt → Prop
  | .ensureRepoExists => False
  | .upsertChart c => c.id = id
  | .removeMissingCharts chartIDs => id ∉ chartIDs

instance (id : String) (st : Stmt) : Decidable (st.Touches id) :=
  match st with
  | .ensureRepoExists => .isFalse fun h => False.elim h
  | .upsertChart c => inferInstanceAs (Decidable (c.id = id))
  | .removeMissingCharts chartIDs => inferInstanceAs (Decidable (id ∉ chartIDs))

/-- A statement that touches the row is still to come. -/
def Pending (sts : List Stmt) (id : String) : Prop := ∃ st ∈ sts, st.Touches id

instance (sts : List Stmt) (id : String) : Decidable (Pending sts id) :=
  inferInstanceAs (Decidable (∃ st ∈ sts, st.Touches id))

theorem pending_syncStmts (cs : List Chart) (id : String) : Pending (syncStmts cs) id := by
  by_cases hid : id ∈ cs.map Chart.id
  · obtain ⟨c, hc, hc'⟩ := List.mem_map.mp hid
    exact ⟨.upsertChart c, by simp [syncStmts, hc], hc'⟩
  · exact ⟨.removeMissingCharts (cs.map Chart.id), by simp [syncStmts], hid⟩

theorem not_pending_cons {st : Stmt} {sts : List Stmt} {id : String}
    (h : ¬ Pending (st :: sts) id) : ¬ st.Touches id ∧ ¬ Pending sts id :=
  ⟨fun ht => h ⟨st, List.mem_cons_self, ht⟩,
    fun ⟨st', hst', ht⟩ => h ⟨st', List.mem_cons_of_mem _ hst', ht⟩⟩

/-- What a statement for the repository `k` leaves alone. -/
structure Frame (k : RepoKey) (db db' : Database) : Prop where
  nullCharts : db'.nullCharts = db.nullCharts
  checksum : ∀ k', db'.lastChecksum k' = db.lastChecksum k'
  repos : db.repos k ≠ none → db'.repos k ≠ none
  charts : ∀ k', k' ≠ k → db'.charts k' = db.charts k'
  files_of : ∀ ns id row, db'.files ns id = some row → db.files ns id = some row
  files : ∀ ns id row, ¬ (ns = k.ns ∧ row.repoName = k.name) → db.files ns id = some row →
    db'.files ns id = some row

theorem frame_ensureRepoExists (db : Database) (k : RepoKey) :
    Frame k db (db.ensureRepoExists k) := by
  refine ⟨by simp, fun k' => by simp, fun _ => db.ensureRepoExists_repos_self k, ?_, ?_, ?_⟩
  · intro k' _
    simp
  · intro ns id row h
    simpa using h
  · intro ns id row _ h
    simpa using h

theorem frame_of_exec {k : RepoKey} {db db' : Database} {st : Stmt}
    (h : st.exec k db = .ok db') : Frame k db db' := by
  cases st with
  | ensureRepoExists =>
      have hdb := Except.ok.inj h
      rw [← hdb]
      exact frame_ensureRepoExists db k
  | upsertChart c =>
      obtain ⟨hrepo, _, htab⟩ := Database.upsertChart_eq_ok h
      have hrepos : db'.repos = db.repos := by rw [htab]
      refine ⟨by rw [htab], ?_, ?_, ?_, ?_, ?_⟩
      · intro k'
        unfold Database.lastChecksum
        rw [hrepos]
      · intro _
        rw [hrepos]
        exact hrepo
      · intro k' hk'
        have hcharts := congrArg Tables.charts htab
        rw [hcharts]
        exact Function.update_of_ne hk' _ _
      · intro ns id row hf
        rwa [htab] at hf
      · intro ns id row _ hf
        rwa [htab]
  | removeMissingCharts chartIDs =>
      simp only [Stmt.exec, Syncer.removeMissingCharts] at h
      split at h
      · simp at h
      · have hdb := Except.ok.inj h
        subst hdb
        refine ⟨rfl, fun k' => rfl, fun hrepo => hrepo, ?_, ?_, ?_⟩
        · intro k' hk'
          exact Function.update_of_ne hk' _ _
        · intro ns id row hf
          exact ((Database.deleteCharts_files db k _ ns id row).mp hf).1
        · intro ns id row hother hf
          exact (Database.deleteCharts_files db k _ ns id row).mpr
            ⟨hf, fun hgone => hother ⟨hgone.1, hgone.2.1⟩⟩

/-- No chart of the list has a quote in its id. -/
def NoQuote (cs : List Chart) : Prop := ∀ c ∈ cs, '\'' ∉ c.id.toList

theorem noQuote_ids {cs : List Chart} (hq : NoQuote cs) :
    ∀ id ∈ cs.map Chart.id, '\'' ∉ id.toList := by
  intro id hid
  obtain ⟨c, hc, hid'⟩ := List.mem_map.mp hid
  rw [← hid']
  exact hq c hc

theorem stmt_mem_syncStmts {cs : List Chart} {st : Stmt} (h : st ∈ syncStmts cs) :
    st = .ensureRepoExists ∨ (∃ c ∈ cs, st = .upsertChart c) ∨
      st = .removeMissingCharts (cs.map Chart.id) := by
  simp only [syncStmts, List.mem_cons, List.mem_append, List.mem_map, List.not_mem_nil,
    or_false] at h
  rcases h with h | ⟨c, hc, h⟩ | h
  · exact .inl h
  · exact .inr (.inl ⟨c, hc, h.symm⟩)
  · exact .inr (.inr h)

/-- A row that the statement does not touch stays, one that it touches becomes that of the
    list. -/
theorem row_of_exec {k : RepoKey} {cs : List Chart} (hq : NoQuote cs) {db db' : Database}
    {st : Stmt} (hst : st ∈ syncStmts cs) (h : st.exec k db = .ok db') (id : String) :
    (¬ st.Touches id → db'.row k id = db.row k id) ∧
      (DistinctIds cs → st.Touches id → db'.row k id = chartOf cs id) := by
  unfold Database.row
  rcases stmt_mem_syncStmts hst with rfl | ⟨c, hc, rfl⟩ | rfl
  · have hdb := Except.ok.inj h
    rw [← hdb, Database.ensureRepoExists_charts]
    exact ⟨fun _ => rfl, fun _ ht => False.elim ht⟩
  · obtain ⟨_, _, htab⟩ := Database.upsertChart_eq_ok h
    have hcharts := congrArg Tables.charts htab
    rw [hcharts]
    dsimp only
    rw [Function.update_self]
    constructor
    · intro ht
      have hne : id ≠ c.id := fun heq => ht heq.symm
      rw [Function.update_of_ne hne]
    · intro hd ht
      have heq : c.id = id := ht
      rw [← heq, Function.update_self, chartOf_self hd hc]
      rfl
  · by_cases hne : cs = []
    · subst hne
      simp [Stmt.exec, removeMissingCharts_nil] at h
    · have hids : cs.map Chart.id ≠ [] := by simpa using hne
      have hrm := removeMissingCharts_ok hids (noQuote_ids hq) db k
      have hdb := Except.ok.inj (hrm.symm.trans h)
      rw [← hdb]
      simp only [Database.deleteCharts, Function.update_self]
      constructor
      · intro ht
        have hmem : id ∈ cs.map Chart.id := not_not.mp ht
        simp [hmem]
      · intro _ ht
        have hmem : id ∉ cs.map Chart.id := ht
        rw [chartOf_of_not_mem hmem]
        simp [hmem]

/-- With a chart in the list a statement fails only on a chart that jsonb refuses. -/
theorem exec_ok {k : RepoKey} {cs : List Chart} (hne : cs ≠ []) (hq : NoQuote cs)
    {db : Database} {st : Stmt} (hst : st ∈ syncStmts cs)
    (htakes : ∀ c, st = .upsertChart c → jsonbTakes (chartStrings c) = true)
    (hrepo : st = .ensureRepoExists ∨ db.repos k ≠ none) : ∃ db', st.exec k db = .ok db' := by
  rcases stmt_mem_syncStmts hst with rfl | ⟨c, hc, rfl⟩ | rfl
  · exact ⟨_, rfl⟩
  · have hrepo' : db.repos k ≠ none := by simpa using hrepo
    exact Database.upsertChart_ok hrepo' (htakes c rfl)
  · have hids : cs.map Chart.id ≠ [] := by simpa using hne
    exact ⟨_, removeMissingCharts_ok hids (noQuote_ids hq) db k⟩

/-! ## A run that nobody disturbs -/

/-- The action does not panic: not on the URL of a version, and not on an icon. -/
def noPanic (env : FetchEnv) (repo : RepoRef) (st : FetchFiles) : FetchLabel → Bool
  | .act w =>
      match st.workers[w]?, repo.kind with
      | some (.fetchFiles j), .helm =>
          !decide (Panics (tarballRequest env repo.internal j.chartVersion))
      | _, _ => true
  | .iconAnswer _ res => !decide (Panics res)
  | _ => true

/-- While a checksum is stored, no action of `fetchFiles` panics in the pass over all versions, and
    no upsert of it is refused. -/
def deepWritten (env : FetchEnv) (inp : SyncInput) (db : Database) : RunPhase → RunLabel → Bool
  | .fetching st [], .fetch l =>
      noPanic env inp.repo st l || decide (db.lastChecksum inp.key = "")
  | .syncing _ (.upsertChart c :: _) [], .next _ =>
      jsonbTakes (chartStrings c) || decide (db.lastChecksum inp.key = "")
  | _, _ => true

/-- The fetch of a version's files does not fail in this action, and the files are not refused. -/
def filesFetched (env : FetchEnv) (repo : RepoRef) (st : FetchFiles) : FetchLabel → Bool
  | .act w =>
      match st.workers[w]?, repo.kind with
      | some (.fetchFiles j), .helm =>
          (tarballRequest env repo.internal j.chartVersion).toOption.isSome
      | some (.insertFiles j files), _ =>
          jsonbTakes (filesChartID repo.internal j.name ::
            chartFilesStrings (chartFiles repo.internal j files))
      | _, _ => true
  | .filesAnswer _ res => res.toOption.isSome
  | _ => true

/-- In the pass over all versions no fetch of files fails and no files are refused. -/
def deepFetched (env : FetchEnv) (inp : SyncInput) : RunPhase → RunLabel → Bool
  | .fetching st [], .fetch l => filesFetched env inp.repo st l
  | _, _ => true

theorem tarballRequest_of_filesFetched {env : FetchEnv} {repo : RepoRef} {st : FetchFiles}
    {w : Nat} (h : filesFetched env repo st (.act w) = true) {j : FilesJob}
    (hw : st.workers[w]? = some (.fetchFiles j)) (hkind : repo.kind = .helm) :
    ∃ req, tarballRequest env repo.internal j.chartVersion = .ok req := by
  simp only [filesFetched, hw, hkind] at h
  cases hreq : tarballRequest env repo.internal j.chartVersion with
  | ok req => exact ⟨req, rfl⟩
  | error f =>
      rw [hreq] at h
      simp [Except.toOption] at h

theorem takes_of_filesFetched {env : FetchEnv} {repo : RepoRef} {st : FetchFiles} {w : Nat}
    (h : filesFetched env repo st (.act w) = true) {j : FilesJob} {files : FileMap}
    (hw : st.workers[w]? = some (.insertFiles j files)) :
    jsonbTakes (filesChartID repo.internal j.name ::
      chartFilesStrings (chartFiles repo.internal j files)) = true := by
  simpa only [filesFetched, hw] using h

/-- No panic so far, and none to come in the main goroutine. -/
def FetchFiles.Safe (st : FetchFiles) : Prop :=
  st.phase ≠ .crashed ∧ MainAct.sendFiles none ∉ st.main

theorem safe_init {cs : List Chart} (h : ∀ c ∈ cs, c.chartVersions ≠ []) :
    (FetchFiles.init cs).Safe := by
  refine ⟨by simp [FetchFiles.init], ?_⟩
  intro hmem
  have hmem' : ∃ c ∈ cs, firstJob c = none := by simpa [FetchFiles.init, mainActs] using hmem
  obtain ⟨c, hc, hnone⟩ := hmem'
  have hnil : c.chartVersions = [] := by simpa [firstJob] using hnone
  exact h c hc hnil

theorem safe_moves {env : FetchEnv} {repo : RepoRef} {db db' : Database} {st st' : FetchFiles}
    {l : FetchLabel} (hok : noPanic env repo st l = true)
    (hm : FetchFiles.Moves env repo db st l db' st') (h : st.Safe) : st'.Safe := by
  obtain ⟨hphase, hmain⟩ := h
  cases hm with
  | sendIcon c rest hm hcap => exact ⟨hphase, fun hmem => hmain (by simp [hm, hmem])⟩
  | closeIcons rest hm => exact ⟨hphase, fun hmem => hmain (by simp [hm, hmem])⟩
  | sendFiles j rest hm hcap => exact ⟨hphase, fun hmem => hmain (by simp [hm, hmem])⟩
  | mainCrash rest hm => exact absurd (by simp [hm]) hmain
  | closeFiles rest hm => exact ⟨hphase, fun hmem => hmain (by simp [hm, hmem])⟩
  | wait hm hall => exact ⟨by simp, hmain⟩
  | tarballCrash w j msg hw hkind hreq =>
      have hpanics : Panics (tarballRequest env repo.internal j.chartVersion) := ⟨msg, hreq⟩
      simp [noPanic, hw, hkind, hpanics] at hok
  | iconCrash w c msg hw =>
      have hpanics : Panics (.error (.panic msg) : Go String) := ⟨msg, rfl⟩
      simp [noPanic, hpanics] at hok
  | _ => exact ⟨hphase, hmain⟩

/-- What the run has for its `Charts`: ids without a quote and at least one version of each
    chart. -/
structure InputOk (inp : SyncInput) : Prop where
  no_quote : ∀ b cs, inp.charts b = .ok cs → NoQuote cs
  versions : ∀ b cs, inp.charts b = .ok cs → ∀ c ∈ cs, c.chartVersions ≠ []

theorem inputOk_helm {β : Type} (env : IndexEnv β) {r : HelmRepo β} (hname : ValidName r.internal.name) :
    InputOk (helmInput env r) := by
  have hret : ∀ b cs, (helmInput env r).charts b = .ok cs → Returned (repoKey r.internal) cs := by
    intro b cs hcs
    have hcharts : r.charts env b = .ok cs := hcs
    exact .helm env r b rfl hcharts
  refine ⟨fun b cs hcs c hc => ?_, fun b cs hcs c hc => ?_⟩
  · exact returned_no_quote (k := repoKey r.internal) hname (hret b cs hcs) hc
  · exact returned_versions (hret b cs hcs) hc

/-- An input that a repository of either type can give. For an OCI registry each of the two lists
    is the outcome of some schedule of `Charts`. -/
inductive FromRepo : SyncInput → Prop
  | helm {β : Type} (env : IndexEnv β) (r : HelmRepo β) : FromRepo (helmInput env r)
  | oci (env : OciEnv) (r : OCIRegistry) (tags : Tags) (checksum : String)
      (charts : Bool → Go (List Chart)) (h : ∀ b, ChartsEnds env r tags b (charts b)) :
      FromRepo ⟨⟨.oci, r.internal⟩, checksum, charts⟩

/-- A run of some repository. -/
structure SyncJob where
  env : FetchEnv
  input : SyncInput
  valid : ValidName input.repo.internal.name
  fromRepo : FromRepo input

theorem inputOk_of_fromRepo {inp : SyncInput} (hname : ValidName inp.repo.internal.name)
    (h : FromRepo inp) : InputOk inp := by
  cases h with
  | helm env r =>
      have hname' : ValidName r.internal.name := hname
      exact inputOk_helm env (r := r) hname'
  | oci env r tags checksum charts h =>
      have hret : ∀ b cs, charts b = .ok cs → Returned (repoKey r.internal) cs := by
        intro b cs hcs
        exact .oci env r tags b rfl (hcs ▸ h b)
      refine ⟨fun b cs hcs c hc => ?_, fun b cs hcs c hc => ?_⟩
      · exact returned_no_quote (k := repoKey r.internal) hname (hret b cs hcs) hc
      · exact returned_versions (hret b cs hcs) hc

/-- The charts of all versions have distinct ids. -/
def SyncInput.Distinct (inp : SyncInput) : Prop :=
  ∀ cs, inp.charts false = .ok cs → DistinctIds cs

instance (inp : SyncInput) : Decidable inp.Distinct :=
  match h : inp.charts false with
  | .ok cs => decidable_of_iff (DistinctIds cs) (by simp [SyncInput.Distinct, h])
  | .error f => .isTrue (by simp [SyncInput.Distinct, h])

/-- The rows are the charts of all versions. -/
def DeepRows (inp : SyncInput) (db : Database) : Prop :=
  ∃ cs, inp.charts false = .ok cs ∧ RowsAre db inp.key cs

/-- The phase fits what the run got from its repository. -/
def Shape (inp : SyncInput) : RunPhase → Prop
  | .charts passes => passes <:+ [true, false]
  | .syncing cs sts rest =>
      (∃ b, (b :: rest) <:+ [true, false] ∧ inp.charts b = .ok cs) ∧ sts <:+ syncStmts cs
  | .fetching _ rest => ∃ b, (b :: rest) <:+ [true, false]
  | _ => True

theorem suffix_passesFor (last : String) : passesFor last <:+ [true, false] := by
  unfold passesFor
  split
  · exact List.suffix_refl _
  · exact ⟨[true], rfl⟩

theorem shape_step {env : FetchEnv} {inp : SyncInput} {db db' : Database} {ph ph' : RunPhase}
    {l : RunLabel} (hm : RunMoves env inp db ph l db' ph') (h : Shape inp ph) :
    Shape inp ph' := by
  cases hm with
  | plan now hlast => exact suffix_passesFor _
  | chartsOk now b rest cs hcs => exact ⟨⟨b, h, hcs⟩, List.suffix_refl _⟩
  | stmt now cs st sts rest db'' hst => exact ⟨h.1, (List.suffix_cons st sts).trans h.2⟩
  | startFetch now cs rest =>
      obtain ⟨⟨b, hb, _⟩, _⟩ := h
      exact ⟨b, hb⟩
  | fetch l st st' rest db'' hst => exact h
  | fetched now st rest hret =>
      obtain ⟨b, hb⟩ := h
      exact (List.suffix_cons b rest).trans hb
  | _ => exact trivial

/-- The last pass is the one over all versions. -/
theorem eq_false_of_last_pass {b : Bool} (h : [b] <:+ [true, false]) : b = false := by
  obtain ⟨pre, hpre⟩ := h
  have hlast := congrArg List.getLast? hpre
  simpa using hlast

/-- A run with the tables to itself. `Before` is what the tables satisfied when it began. It is
    lost only once the pass over all versions changes a row, and from there the run completes while
    a checksum is stored.
    A pass over the latest versions is made only while nothing is stored. -/
def RunInv (inp : SyncInput) (Before : Database → Prop) (db : Database) : RunPhase → Prop
  | .lastChecksum => Before db
  | .charts [] => DeepRows inp db
  | .charts [_] => Before db
  | .charts _ => db.lastChecksum inp.key = ""
  | .syncing cs sts [] =>
      (cs = [] → Before db) ∧ (sts = syncStmts cs ∨ db.repos inp.key ≠ none) ∧
        ∀ id, ¬ Pending sts id → db.row inp.key id = chartOf cs id
  | .syncing _ _ _ => db.lastChecksum inp.key = ""
  | .fetching st [] => DeepRows inp db ∧ (db.lastChecksum inp.key = "" ∨ st.Safe)
  | .fetching _ _ => db.lastChecksum inp.key = ""
  | .finished .skipped => Before db ∧ db.lastChecksum inp.key = inp.checksum
  | .finished .completed => DeepRows inp db ∧ db.lastChecksum inp.key = inp.checksum
  | .finished _ => Before db

section RunStep

variable {env : FetchEnv} {inp : SyncInput} {db db' : Database} {ph ph' : RunPhase} {l : RunLabel}

/-- An action of `fetchFiles` keeps every row up to its icon, and what is stored. -/
theorem frame_fetch {l : FetchLabel} {st st' : FetchFiles}
    (h : FetchFiles.step env inp.repo (db, st) l = some (db', st')) :
    db'.nullCharts = db.nullCharts ∧ (∀ k, db'.lastChecksum k = db.lastChecksum k) ∧
      ∀ k id, db'.row k id = db.row k id := by
  obtain ⟨_, hm⟩ := FetchFiles.moves_of_step h
  obtain ⟨hrepos, hnull, hrow⟩ := FetchFiles.tables_moves hm
  refine ⟨hnull, fun k => ?_, hrow⟩
  unfold Database.lastChecksum
  rw [hrepos]

theorem nullCharts_runMoves (hm : RunMoves env inp db ph l db' ph') :
    db'.nullCharts = db.nullCharts := by
  cases hm with
  | store now => rfl
  | stmt now cs st sts rest db'' hst => exact (frame_of_exec hst).nullCharts
  | fetch l st st' rest db'' hst => exact (frame_fetch hst).1
  | _ => rfl

/-- A statement of the pass over all versions. -/
theorem syncing_step {Before : Database → Prop} {cs : List Chart} {st : Stmt} {sts : List Stmt}
    (hensure : ∀ d, Before d → Before (d.ensureRepoExists inp.key)) (hq : NoQuote cs)
    (hd : DistinctIds cs) (hsuf : (st :: sts) <:+ syncStmts cs)
    (hst : st.exec inp.key db = .ok db') (h : RunInv inp Before db (.syncing cs (st :: sts) [])) :
    RunInv inp Before db' (.syncing cs sts []) := by
  obtain ⟨hbefore, hrepo, hrows⟩ := h
  have hmem : st ∈ syncStmts cs := hsuf.subset List.mem_cons_self
  refine ⟨?_, .inr ?_, ?_⟩
  · -- without a chart only `EnsureRepoExists` succeeds
    intro hnil
    subst hnil
    rcases stmt_mem_syncStmts hmem with rfl | ⟨c, hc, _⟩ | rfl
    · have hdb := Except.ok.inj hst
      rw [← hdb]
      exact hensure db (hbefore rfl)
    · simp at hc
    · simp [Stmt.exec, removeMissingCharts_nil] at hst
  · rcases hrepo with hall | hrepo
    · have hfirst : st = .ensureRepoExists := (List.cons.inj hall).1
      subst hfirst
      have hdb := Except.ok.inj hst
      rw [← hdb]
      exact db.ensureRepoExists_repos_self _
    · exact (frame_of_exec hst).repos hrepo
  · intro id hpend
    obtain ⟨hsame, htouch⟩ := row_of_exec hq hmem hst id
    by_cases ht : st.Touches id
    · exact htouch hd ht
    · rw [hsame ht]
      refine hrows id fun hp => ?_
      obtain ⟨st', hst', ht'⟩ := hp
      rcases List.mem_cons.mp hst' with rfl | hst'
      · exact ht ht'
      · exact hpend ⟨st', hst', ht'⟩

theorem deepRows_fetch {l : FetchLabel} {st st' : FetchFiles}
    (h : FetchFiles.step env inp.repo (db, st) l = some (db', st')) (hr : DeepRows inp db) :
    DeepRows inp db' := by
  obtain ⟨cs, hcs, hrows⟩ := hr
  obtain ⟨hnull, _, hrow⟩ := frame_fetch h
  exact ⟨cs, hcs, rowsAre_of_row_eq hnull (hrow inp.key) hrows⟩

/-- One step of a run with the tables to itself. `Before` holds of tables that have nothing
    stored, and `EnsureRepoExists` keeps it. -/
theorem runInv_step {Before : Database → Prop}
    (hempty : ∀ d : Database, d.lastChecksum inp.key = "" → Before d)
    (hensure : ∀ d, Before d → Before (d.ensureRepoExists inp.key))
    (hin : InputOk inp) (hdist : inp.Distinct) (hnull : db.nullCharts inp.key = [])
    (hok : deepWritten env inp db ph l = true) (hm : RunMoves env inp db ph l db' ph')
    (hshape : Shape inp ph) (h : RunInv inp Before db ph) : RunInv inp Before db' ph' := by
  cases hm with
  | skip now hlast => exact ⟨h, hlast⟩
  | plan now hlast =>
      by_cases hnone : db.lastChecksum inp.key = ""
      · simp [passesFor, hnone, RunInv]
      · simpa [passesFor, hnone, RunInv] using h
  | store now =>
      obtain ⟨cs, hcs, hrows⟩ := h
      exact ⟨⟨cs, hcs, hrows.rows, hrows.no_other, hrows.no_null⟩,
        db.updateLastCheck_lastChecksum _ _ _⟩
  | chartsOk now b rest cs hcs =>
      cases rest with
      | nil =>
          exact ⟨fun _ => h, .inl rfl, fun id hpend => absurd (pending_syncStmts cs id) hpend⟩
      | cons b' rest => exact h
  | chartsErr now b rest f out hcs hout =>
      have hbefore : Before db := by
        cases rest with
        | nil => exact h
        | cons b' rest => exact hempty db h
      cases out with
      | skipped => exact absurd rfl hout.1
      | completed => exact absurd rfl hout.2
      | fatal msg => exact hbefore
      | panicked => exact hbefore
  | stmt now cs st sts rest db'' hst =>
      obtain ⟨⟨b, hb, hcs⟩, hsuf⟩ := hshape
      cases rest with
      | nil =>
          have hb' := eq_false_of_last_pass hb
          subst hb'
          exact syncing_step hensure (hin.no_quote false cs hcs) (hdist cs hcs) hsuf hst h
      | cons b' rest =>
          show db'.lastChecksum inp.key = ""
          rw [(frame_of_exec hst).checksum]
          exact h
  | stmtErr now cs st sts rest e msg hst =>
      obtain ⟨⟨b, hb, hcs⟩, hsuf⟩ := hshape
      cases rest with
      | nil =>
          obtain ⟨hbefore, hrepo, _⟩ := h
          by_cases hnone : db.lastChecksum inp.key = ""
          · exact hempty db hnone
          by_cases hne : cs = []
          · exact hbefore hne
          · have hfirst : st = .ensureRepoExists ∨ db.repos inp.key ≠ none := by
              rcases hrepo with hall | hrepo
              · exact .inl (List.cons.inj hall).1
              · exact .inr hrepo
            have htakes : ∀ c, st = .upsertChart c → jsonbTakes (chartStrings c) = true := by
              rintro c rfl
              simpa [deepWritten, hnone] using hok
            obtain ⟨db'', hdb''⟩ := exec_ok hne (hin.no_quote b cs hcs)
              (hsuf.subset List.mem_cons_self) htakes hfirst
            rw [hst] at hdb''
            simp at hdb''
      | cons b' rest => exact hempty db h
  | startFetch now cs rest =>
      obtain ⟨⟨b, hb, hcs⟩, _⟩ := hshape
      cases rest with
      | nil =>
          have hb' := eq_false_of_last_pass hb
          subst hb'
          have hrows : ∀ id, db.row inp.key id = chartOf cs id :=
            fun id => h.2.2 id fun ⟨st, hst, _⟩ => by simp at hst
          exact ⟨⟨cs, hcs, (rowsAre_iff (hdist cs hcs)).mpr ⟨hnull, hrows⟩⟩,
            .inr (safe_init (hin.versions false cs hcs))⟩
      | cons b' rest => exact h
  | fetch l st st' rest db'' hst =>
      cases rest with
      | nil =>
          refine ⟨deepRows_fetch hst h.1, ?_⟩
          rw [(frame_fetch hst).2.1]
          by_cases hnone : db.lastChecksum inp.key = ""
          · exact .inl hnone
          · have hsafe : noPanic env inp.repo st l = true := by
              simpa [deepWritten, hnone] using hok
            exact .inr (safe_moves hsafe (FetchFiles.moves_of_step hst).2
              (h.2.resolve_left hnone))
      | cons b' rest =>
          show db'.lastChecksum inp.key = ""
          rw [(frame_fetch hst).2.1]
          exact h
  | fetched now st rest hret =>
      cases rest with
      | nil => exact h.1
      | cons b' rest =>
          cases rest with
          | nil => exact hempty db h
          | cons b'' rest => exact h
  | crashed now st rest hcrash =>
      cases rest with
      | nil =>
          rcases h.2 with hnone | hsafe
          · exact hempty db hnone
          · exact absurd hcrash hsafe.1
      | cons b' rest => exact hempty db h

end RunStep

/-! ## Schedules for one chart with one version and no icon -/

/-- `fetchFiles` with all the work done by one worker. `answer` is what it does with the version
    once it knows whether it has its files. -/
def fetchOne (answer : List FetchLabel) : List FetchLabel :=
  let leave := (List.range numWorkers).map .receive
  [.main, .main, .main, .main, .receive 0, .act 0] ++ leave ++ [.receive 0, .act 0] ++ answer ++
    leave ++ [.wait]

/-- One pass: `Charts`, the three statements of `Sync` and `fetchFiles`. -/
def passOne (answer : List FetchLabel) : List RunLabel :=
  List.replicate 5 (.next "") ++ (fetchOne answer).map .fetch ++ [.next ""]

/-- The files are downloaded and inserted. -/
def downloaded : List FetchLabel := [.act 0, .filesAnswer 0 (.ok ⟨none, none, none⟩), .act 0]

/-- The download fails. -/
def notDownloaded : List FetchLabel := [.act 0, .filesAnswer 0 (.error "404 Not Found")]

/-- A first run, with these two answers in its passes. -/
def runOne (first second : List FetchLabel) : List RunLabel :=
  [.next ""] ++ passOne first ++ passOne second ++ [.next "2023-01-01"]

end Kubeapps.Syncer
