/-
  The cleanup of a deleted repository beside a run of its sync job (cmd/asset-syncer/delete.go;
  the controller creates the job in `syncHandler` when the AppRepository is gone).

  The cleanup job is one statement, `Delete`. The sync job goes on: its pod is not killed, and the
  pod of a run that failed is started again (`RestartPolicy: OnFailure`). Two statements of a run
  insert the repository's row, `EnsureRepoExists` and `UpdateLastCheck`; every other one needs the
  row or leaves `repos` alone.

  `no_rows_after_cleanup`: nothing is left exactly if neither of the two runs after the
  `Delete`. `cleanup_leaves_rows` is a schedule in which one does.
-/
import Kubeapps.Syncer.Overlap

namespace Kubeapps.Syncer

open Kubeapps.Lib Kubeapps.Models

/-! ## What is left of a repository -/

/-- No table has a row of the repository. -/
structure NoRows (db : Database) (k : RepoKey) : Prop where
  repos : db.repos k = none
  charts : ∀ id, db.charts k id = none
  nullCharts : db.nullCharts k = []
  files : ∀ id row, db.files k.ns id = some row → row.repoName ≠ k.name

/-- The foreign keys leave nothing without a row in `repos`. -/
theorem noRows_iff {db : Database} {k : RepoKey} : NoRows db k ↔ db.repos k = none := by
  refine ⟨NoRows.repos, fun h => ⟨h, fun id => ?_, ?_, fun id row hrow hname => ?_⟩⟩
  · by_contra hne
    exact db.charts_fk k id hne h
  · by_contra hne
    exact db.nullCharts_fk k hne h
  · have hfk := (db.files_fk k.ns id row hrow).1
    rw [hname] at hfk
    exact hfk h

/-! ## The two jobs -/

/-- A statement or action of the sync job, the start of its pod after a failure, or the statement
    of the cleanup job. -/
inductive CleanupLabel where
  | run (l : RunLabel)
  | restart (job : SyncJob)
  | delete

/-- The tables, the run of the sync job's current pod, and whether the cleanup job is over. -/
structure CleanupState where
  db : Database
  job : SyncJob
  phase : RunPhase
  deleted : Bool

/-- The sync job has started, and no statement of it has run. -/
def CleanupState.start (db : Database) (job : SyncJob) : CleanupState :=
  ⟨db, job, .lastChecksum, false⟩

/-- The pod ended with an error, so that another one is started. -/
def failed : RunPhase → Bool
  | .finished (.fatal _) => true
  | .finished .panicked => true
  | _ => false

def CleanupState.step (k : RepoKey) (s : CleanupState) : CleanupLabel → Option CleanupState
  | .run l =>
      (runStep s.job.env s.job.input (s.db, s.phase) l).map fun (db, ph) =>
        { s with db := db, phase := ph }
  | .restart job =>
      if failed s.phase = true ∧ job.input.key = k then
        some { s with job := job, phase := .lastChecksum }
      else none
  | .delete =>
      if s.deleted then none else some { s with db := s.db.delete k, deleted := true }

/-- The next statement of the run inserts the repository's row. -/
def insertsRepo : RunPhase → Bool
  | .charts [] => true
  | .syncing _ (.ensureRepoExists :: _) _ => true
  | _ => false

/-- Not a statement that inserts the repository's row after the `Delete`. -/
def CleanupOk (s : CleanupState) : CleanupLabel → Prop
  | .run _ => s.deleted = true → insertsRepo s.phase = false
  | _ => True

instance (s : CleanupState) (l : CleanupLabel) : Decidable (CleanupOk s l) :=
  match l with
  | .run _ => inferInstanceAs (Decidable (s.deleted = true → insertsRepo s.phase = false))
  | .restart _ => .isTrue trivial
  | .delete => .isTrue trivial

/-! ## What a step does to the row in `repos` -/

section Step

variable {env : FetchEnv} {inp : SyncInput} {db db' : Database} {ph ph' : RunPhase} {l : RunLabel}

theorem exec_repos_none {st : Stmt} (hst : st ≠ .ensureRepoExists)
    (h : st.exec inp.key db = .ok db') (hnone : db.repos inp.key = none) :
    db'.repos inp.key = none := by
  cases st with
  | ensureRepoExists => exact absurd rfl hst
  | upsertChart c => exact absurd hnone (Database.upsertChart_eq_ok h).1
  | removeMissingCharts chartIDs =>
      simp only [Stmt.exec, Syncer.removeMissingCharts] at h
      split at h
      · simp at h
      · have hdb := Except.ok.inj h
        rw [← hdb]
        exact hnone

/-- A run does not bring the row back by any other statement. -/
theorem repos_none_runMoves (hm : RunMoves env inp db ph l db' ph')
    (hins : insertsRepo ph = false) (hnone : db.repos inp.key = none) :
    db'.repos inp.key = none := by
  cases hm with
  | store now => simp [insertsRepo] at hins
  | stmt now cs st sts rest db'' hst =>
      refine exec_repos_none ?_ hst hnone
      intro heq
      subst heq
      simp [insertsRepo] at hins
  | fetch l st st' rest db'' hst =>
      obtain ⟨_, hfm⟩ := FetchFiles.moves_of_step hst
      rw [(FetchFiles.tables_moves hfm).1]
      exact hnone
  | _ => exact hnone

/-- A run does not delete the row. -/
theorem repos_some_runMoves (hm : RunMoves env inp db ph l db' ph')
    (hsome : db.repos inp.key ≠ none) : db'.repos inp.key ≠ none := by
  cases hm with
  | store now => simp [Database.updateLastCheck, Database.putRepo]
  | stmt now cs st sts rest db'' hst => exact (frame_of_exec hst).repos hsome
  | fetch l st st' rest db'' hst =>
      obtain ⟨_, hfm⟩ := FetchFiles.moves_of_step hst
      rw [(FetchFiles.tables_moves hfm).1]
      exact hsome
  | _ => exact hsome

theorem repos_some_of_insertsRepo (hm : RunMoves env inp db ph l db' ph')
    (hins : insertsRepo ph = true) : db'.repos inp.key ≠ none := by
  cases hm with
  | store now => simp [Database.updateLastCheck, Database.putRepo]
  | stmt now cs st sts rest db'' hst =>
      cases st with
      | ensureRepoExists =>
          have hdb := Except.ok.inj hst
          rw [← hdb]
          exact db.ensureRepoExists_repos_self _
      | _ => simp [insertsRepo] at hins
  | stmtErr now cs st sts rest e msg hst =>
      cases st with
      | ensureRepoExists => simp [Stmt.exec] at hst
      | _ => simp [insertsRepo] at hins
  | _ => simp [insertsRepo] at hins

end Step

/-! ## Runs -/

section Runs

variable {k : RepoKey} {s s' : CleanupState} {a : CleanupLabel}

/-- The job is one of the repository. -/
def OfRepo (k : RepoKey) (s : CleanupState) : Prop := s.job.input.key = k

/-- What a step of the two jobs does. -/
inductive CleanupMoves (k : RepoKey) (s : CleanupState) : CleanupLabel → CleanupState → Prop
  | run (l : RunLabel) (db : Database) (ph : RunPhase)
      (hm : RunMoves s.job.env s.job.input s.db s.phase l db ph) :
      CleanupMoves k s (.run l) { s with db := db, phase := ph }
  | restart (job : SyncJob) (hkey : job.input.key = k) :
      CleanupMoves k s (.restart job) { s with job := job, phase := .lastChecksum }
  | delete (hnot : s.deleted = false) :
      CleanupMoves k s .delete { s with db := s.db.delete k, deleted := true }

theorem cleanupMoves_of_step (h : s.step k a = some s') : CleanupMoves k s a s' := by
  cases a with
  | run l =>
      obtain ⟨⟨db, ph⟩, hstep, heq⟩ := Option.map_eq_some_iff.mp h
      subst heq
      exact .run l db ph (moves_of_runStep hstep)
  | restart job =>
      simp only [CleanupState.step] at h
      split at h
      · rename_i hcond
        have heq := Option.some.inj h
        subst heq
        exact .restart job hcond.2
      · simp at h
  | delete =>
      simp only [CleanupState.step] at h
      split at h
      · simp at h
      · rename_i hnot
        have heq := Option.some.inj h
        subst heq
        exact .delete (by simpa using hnot)

theorem ofRepo_step (hk : OfRepo k s) (h : s.step k a = some s') : OfRepo k s' := by
  cases cleanupMoves_of_step h with
  | run l db ph hm => exact hk
  | restart job hkey => exact hkey
  | delete hnot => exact hk

/-- After the `Delete` the row is not there. -/
def Clean (k : RepoKey) (s : CleanupState) : Prop :=
  OfRepo k s ∧ (s.deleted = true → s.db.repos k = none)

theorem clean_step (hclean : Clean k s) (hok : CleanupOk s a) (h : s.step k a = some s') :
    Clean k s' := by
  obtain ⟨hk, hnone⟩ := hclean
  refine ⟨ofRepo_step hk h, ?_⟩
  cases cleanupMoves_of_step h with
  | run l db ph hm =>
      intro hdel
      have hkey : s.job.input.key = k := hk
      rw [← hkey] at hnone ⊢
      exact repos_none_runMoves hm (hok hdel) (hnone hdel)
  | restart job hkey => exact hnone
  | delete hnot =>
      intro _
      simp [Database.delete]

/-- The `Delete` has run and the row is there. No other statement takes it away. -/
def Resurrected (k : RepoKey) (s : CleanupState) : Prop :=
  OfRepo k s ∧ s.deleted = true ∧ s.db.repos k ≠ none

theorem resurrected_step (hres : Resurrected k s) (h : s.step k a = some s') :
    Resurrected k s' := by
  obtain ⟨hk, hdel, hrow⟩ := hres
  refine ⟨ofRepo_step hk h, ?_⟩
  cases cleanupMoves_of_step h with
  | run l db ph hm =>
      have hkey : s.job.input.key = k := hk
      rw [← hkey] at hrow ⊢
      exact ⟨hdel, repos_some_runMoves hm hrow⟩
  | restart job hkey => exact ⟨hdel, hrow⟩
  | delete hnot =>
      rw [hdel] at hnot
      simp at hnot

/-- A statement that inserts the row, after the `Delete`. -/
theorem resurrected_of_not_ok (hk : OfRepo k s) (hmiss : ¬ CleanupOk s a)
    (h : s.step k a = some s') : Resurrected k s' := by
  refine ⟨ofRepo_step hk h, ?_⟩
  cases cleanupMoves_of_step h with
  | run l db ph hm =>
      have hmiss' : s.deleted = true ∧ insertsRepo s.phase = true := by
        simpa [CleanupOk] using hmiss
      have hkey : s.job.input.key = k := hk
      rw [← hkey]
      exact ⟨hmiss'.1, repos_some_of_insertsRepo hm hmiss'.2⟩
  | restart job hkey => exact absurd trivial hmiss
  | delete hnot => exact absurd trivial hmiss

end Runs

/-- For every interleaving of a sync job of a repository with its cleanup job: once the cleanup is
    done, no table has a row of the repository exactly if no `EnsureRepoExists` and no
    `UpdateLastCheck` ran after the `Delete`. -/
theorem no_rows_after_cleanup (db : Database) (job : SyncJob) (as : List CleanupLabel)
    (s : CleanupState)
    (hrun : runs (CleanupState.step job.input.key) (.start db job) as = some s)
    (hdeleted : s.deleted = true) :
    NoRows s.db job.input.key ↔
      StepsMeet (CleanupState.step job.input.key) CleanupOk (.start db job) as := by
  rw [noRows_iff]
  constructor
  · intro hnone
    have hkey : ∀ s a s', OfRepo job.input.key s →
        CleanupState.step job.input.key s a = some s' → OfRepo job.input.key s' :=
      fun _ _ _ => ofRepo_step
    have hmiss : ∀ s a s', OfRepo job.input.key s → ¬ CleanupOk s a →
        CleanupState.step job.input.key s a = some s' → Resurrected job.input.key s' :=
      fun _ _ _ => resurrected_of_not_ok
    have hkeep : ∀ s a s', Resurrected job.input.key s →
        CleanupState.step job.input.key s a = some s' → Resurrected job.input.key s' :=
      fun _ _ _ => resurrected_step
    exact stepsMeet_of_runs hkey hmiss hkeep hrun rfl fun hres => hres.2.2 hnone
  · intro hmeet
    have hstep : ∀ s a s', Clean job.input.key s → CleanupOk s a →
        CleanupState.step job.input.key s a = some s' → Clean job.input.key s' :=
      fun _ _ _ => clean_step
    have hstart : Clean job.input.key (.start db job) :=
      ⟨rfl, fun h => by simp [CleanupState.start] at h⟩
    exact (runs_invariant_of_meet hstep hmeet hrun hstart).2 hdeleted

/-! ## A repository with one chart -/

/-- The `Delete` after `n` steps of a first run, which downloads the files again in its second pass
    if they are gone. -/
def cleanupAfter (n : Nat) (second : List FetchLabel) : List CleanupLabel :=
  let all := runOne downloaded second
  (all.take n).map .run ++ .delete :: (all.drop n).map .run

def cleanupResult (s : CleanupState) : RunPhase × Bool × Option RepoRow × Option Chart :=
  (s.phase, s.deleted, s.db.repos (repoKey bitnami), s.db.row (repoKey bitnami) "bitnami/nginx")

/-- The `Delete` comes last. -/
theorem no_rows_after_late_cleanup :
    ∃ s, runs (CleanupState.step (repoKey bitnami)) (.start .empty (oneChartJobs .first))
        (cleanupAfter (runOne downloaded []).length []) = some s ∧
      s.phase = .finished .completed ∧ NoRows s.db (repoKey bitnami) := by
  have heval : (runs (CleanupState.step (repoKey bitnami)) (.start .empty (oneChartJobs .first))
      (cleanupAfter (runOne downloaded []).length [])).map cleanupResult =
        some (.finished .completed, true, none, none) := by
    decide +kernel
  obtain ⟨s, hrun, hs⟩ := Option.map_eq_some_iff.mp heval
  simp only [cleanupResult, Prod.mk.injEq] at hs
  obtain ⟨hphase, hdel, _, _⟩ := hs
  have hcheck : ∀ s a, decide (CleanupOk s a) = true → CleanupOk s a :=
    fun _ _ => of_decide_eq_true
  refine ⟨s, hrun, hphase, ?_⟩
  exact (no_rows_after_cleanup .empty (oneChartJobs .first) _ s hrun hdel).mpr
    (stepsMeet_of_meets hcheck (by decide +kernel))

/-- The `Delete` comes before the pass over all versions, which inserts the repository and its
    chart again. -/
theorem cleanup_leaves_rows :
    ∃ s, runs (CleanupState.step (repoKey bitnami)) (.start .empty (oneChartJobs .first))
        (cleanupAfter (1 + (passOne downloaded).length) downloaded) = some s ∧
      s.phase = .finished .completed ∧ s.deleted = true ∧
      s.db.row (repoKey bitnami) "bitnami/nginx" = some (namedChart bitnami "nginx") ∧
      ¬ NoRows s.db (repoKey bitnami) := by
  have heval : (runs (CleanupState.step (repoKey bitnami)) (.start .empty (oneChartJobs .first))
      (cleanupAfter (1 + (passOne downloaded).length) downloaded)).map cleanupResult =
        some (.finished .completed, true, some ⟨some (oneChartSha256 .first), some "2023-01-01"⟩,
          some (namedChart bitnami "nginx")) := by
    decide +kernel
  obtain ⟨s, hrun, hs⟩ := Option.map_eq_some_iff.mp heval
  simp only [cleanupResult, Prod.mk.injEq] at hs
  obtain ⟨hphase, hdel, hrepo, hrow⟩ := hs
  refine ⟨s, hrun, hphase, hdel, hrow, fun hno => ?_⟩
  rw [hno.repos] at hrepo
  simp at hrepo

end Kubeapps.Syncer
