/-
  The invalidation of the cache beside a run of a sync job (cmd/asset-syncer/invalidate-cache.go;
  `InvalidateCache` and `InitTables` in pkg/dbutils/postgresql_utils.go).

  `InvalidateCache` is four statements: one DROP of the three tables and the three CREATEs of
  `InitTables`. `Sync` begins with an `InitTables` of its own, whose error it ignores. The tables
  are created in one order and dropped together, so `created` counts those that exist. On a
  missing table `LastChecksum` and `filesExist` read nothing and `updateIcon` and `insertFiles` log
  an error, as they do on an empty one; any other statement ends the run. Statements are atomic, also
  two CREATEs of one table.

  `complete_after_invalidation`: a run that got to its end has left its repository complete
  exactly if no DROP came between its last upsert and its end. Otherwise the repository has no
  chart at all, and the checksum that the run stores makes every later run with the same index skip
  it.
-/
import Kubeapps.Syncer.Cleanup

namespace Kubeapps.Syncer

open Kubeapps.Lib Kubeapps.Models

/-! ## The two jobs -/

/-- `CREATE TABLE IF NOT EXISTS` of the `n`-th table. It refers to those before it. -/
def createTable (created n : Nat) : Option Nat :=
  if n < created then some created else if n = created then some (created + 1) else none

/-- The number of tables of `InitTables`. -/
def numTables : Nat := 3

/-- The tables, how many of them exist, the run with the statements of `InitTables` it has done,
    and those the invalidation job has done since its DROP. -/
structure Invalidation where
  db : Database
  created : Nat
  phase : RunPhase
  inited : Nat
  invalidating : Option Nat

/-- All tables exist and the run has not begun. -/
def Invalidation.start (db : Database) : Invalidation := ⟨db, numTables, .lastChecksum, 0, none⟩

/-- A step of the run, the next CREATE of its `InitTables`, and the statements of
    `InvalidateCache`. -/
inductive InvalidationLabel where
  | run (l : RunLabel)
  | initTable
  | dropTables
  | createTable
  deriving DecidableEq

/-- The run is at the beginning of a `Sync`. -/
def beginsSync : RunPhase → Bool
  | .syncing _ (.ensureRepoExists :: _) _ => true
  | _ => false

/-- The end of a statement without its table. -/
def noRelation (table : String) : String := "pq: relation \"" ++ table ++ "\" does not exist"

/-- Where a run goes whose next statement has no table. -/
def missingTable (created : Nat) (ph : RunPhase) (l : RunLabel) : Option RunPhase :=
  match ph, l with
  | .charts [], .next _ =>
      if created < 1 then some (.finished (.fatal (noRelation "repos"))) else none
  | .syncing _ (.ensureRepoExists :: _) _, .next _ =>
      if created < 1 then
        some (.finished (.fatal ("Can't add chart repository to database: " ++ noRelation "repos")))
      else none
  | .syncing _ (_ :: _) _, .next _ =>
      if created < 2 then
        some (.finished (.fatal ("Can't add chart repository to database: " ++ noRelation "charts")))
      else none
  | .fetching st rest, .fetch (.act w) =>
      match st.phase, st.workers[w]? with
      | .running, some (.insertFiles _ _) =>
          if created < 3 then some (.fetching (st.setWorker w .onFiles) rest) else none
      | _, _ => none
  | _, _ => none

def Invalidation.step (job : SyncJob) (s : Invalidation) : InvalidationLabel → Option Invalidation
  | .run l =>
      if beginsSync s.phase = true ∧ s.inited < numTables then none
      else
        match missingTable s.created s.phase l with
        | some ph => some { s with phase := ph, inited := 0 }
        | none =>
            (runStep job.env job.input (s.db, s.phase) l).map fun (db, ph) =>
              { s with db := db, phase := ph, inited := 0 }
  | .initTable =>
      if beginsSync s.phase = true ∧ s.inited < numTables then
        match Syncer.createTable s.created s.inited with
        | some created => some { s with created := created, inited := s.inited + 1 }
        -- `Sync` goes on after the error
        | none => some { s with inited := numTables }
      else none
  | .dropTables =>
      match s.invalidating with
      | none => some { s with db := .empty, created := 0, invalidating := some 0 }
      | some _ => none
  | .createTable =>
      match s.invalidating with
      | none => none
      | some n =>
          match Syncer.createTable s.created n with
          | some created =>
              some { s with
                created := created
                invalidating := if n + 1 < numTables then some (n + 1) else none }
          | none => some { s with invalidating := none }

/-- What a step of the two jobs does. -/
inductive InvalidationMoves (job : SyncJob) (s : Invalidation) :
    InvalidationLabel → Invalidation → Prop
  | run (l : RunLabel) (db : Database) (ph : RunPhase)
      (hm : RunMoves job.env job.input s.db s.phase l db ph) :
      InvalidationMoves job s (.run l) { s with db := db, phase := ph, inited := 0 }
  | missing (l : RunLabel) (ph : RunPhase) (hm : missingTable s.created s.phase l = some ph) :
      InvalidationMoves job s (.run l) { s with phase := ph, inited := 0 }
  | initTable (created inited : Nat) :
      InvalidationMoves job s .initTable { s with created := created, inited := inited }
  | dropTables :
      InvalidationMoves job s .dropTables
        { s with db := .empty, created := 0, invalidating := some 0 }
  | createTable (created : Nat) (invalidating : Option Nat) :
      InvalidationMoves job s .createTable
        { s with created := created, invalidating := invalidating }

theorem invalidationMoves_of_step {job : SyncJob} {s s' : Invalidation} {a : InvalidationLabel}
    (h : s.step job a = some s') : InvalidationMoves job s a s' := by
  cases a with
  | run l =>
      simp only [Invalidation.step] at h
      split at h
      · cases h
      · split at h
        · rename_i ph hm
          cases h
          exact .missing l ph hm
        · obtain ⟨⟨db, ph⟩, hstep, heq⟩ := Option.map_eq_some_iff.mp h
          subst heq
          exact .run l db ph (moves_of_runStep hstep)
  | initTable =>
      simp only [Invalidation.step] at h
      split at h
      · split at h
        · cases h
          exact .initTable _ _
        · cases h
          exact .initTable s.created _
      · cases h
  | dropTables =>
      simp only [Invalidation.step] at h
      split at h
      · cases h
        exact .dropTables
      · cases h
  | createTable =>
      simp only [Invalidation.step] at h
      split at h
      · cases h
      · split at h
        · cases h
          exact .createTable _ _
        · cases h
          exact .createTable s.created _

/-- A statement without its table ends the run, or it is the insertion of files and the worker goes
    on. -/
theorem missingTable_cases {created : Nat} {ph ph' : RunPhase} {l : RunLabel}
    (h : missingTable created ph l = some ph') :
    (∃ msg, ph' = .finished (.fatal msg)) ∨
      ∃ st st' rest, ph = .fetching st rest ∧ ph' = .fetching st' rest := by
  unfold missingTable at h
  split at h
  · split at h
    · cases h
      exact .inl ⟨_, rfl⟩
    · cases h
  · split at h
    · cases h
      exact .inl ⟨_, rfl⟩
    · cases h
  · split at h
    · cases h
      exact .inl ⟨_, rfl⟩
    · cases h
  · split at h
    · split at h
      · cases h
        exact .inr ⟨_, _, _, rfl, rfl⟩
      · cases h
    · cases h
  · cases h

/-! ## The condition -/

/-- The repository has a chart row for every chart of the index, and no other. -/
def Complete (inp : SyncInput) (db : Database) : Prop :=
  ∃ cs, inp.charts false = .ok cs ∧
    ∀ id, db.charts inp.key id ≠ none ↔ id ∈ cs.map Chart.id

def Stmt.isRemove : Stmt → Bool
  | .removeMissingCharts _ => true
  | _ => false

/-- The run has no upsert before it any more. -/
def pastUpserts : RunPhase → Bool
  | .syncing _ sts [] => sts.all Stmt.isRemove
  | .fetching _ [] => true
  | .charts [] => true
  | .finished .completed => true
  | _ => false

/-- Not a DROP after the last upsert of the run. -/
def DropOk (s : Invalidation) (a : InvalidationLabel) : Prop :=
  a = .dropTables → pastUpserts s.phase = false

instance (s : Invalidation) (a : InvalidationLabel) : Decidable (DropOk s a) :=
  inferInstanceAs (Decidable (a = .dropTables → pastUpserts s.phase = false))

/-- Not a DROP after the end of the run. -/
def DropInRun (s : Invalidation) (a : InvalidationLabel) : Prop :=
  a = .dropTables → s.phase ≠ .finished .completed

instance (s : Invalidation) (a : InvalidationLabel) : Decidable (DropInRun s a) :=
  inferInstanceAs (Decidable (a = .dropTables → s.phase ≠ .finished .completed))

/-! ## What a statement of `Sync` does to the ids of the rows -/

section Presence

variable {inp : SyncInput} {db db' : Database} {cs : List Chart}

/-- A statement leaves an id that it touches in the table exactly if the list has it. -/
theorem present_of_exec (hq : NoQuote cs) {st : Stmt} (hst : st ∈ syncStmts cs)
    (h : st.exec inp.key db = .ok db') (id : String) :
    (¬ st.Touches id → (db'.charts inp.key id ≠ none ↔ db.charts inp.key id ≠ none)) ∧
      (st.Touches id → (db'.charts inp.key id ≠ none ↔ id ∈ cs.map Chart.id)) := by
  constructor
  · intro ht
    have hrow := (row_of_exec hq hst h id).1 ht
    simp only [Database.row] at hrow
    rw [not_iff_not, ← Option.map_eq_none_iff, hrow, Option.map_eq_none_iff]
  · intro ht
    rcases stmt_mem_syncStmts hst with rfl | ⟨c, hc, rfl⟩ | rfl
    · exact False.elim ht
    · obtain ⟨_, _, htab⟩ := Database.upsertChart_eq_ok h
      have hcharts := congrArg Tables.charts htab
      have hid : c.id = id := ht
      rw [hcharts, ← hid]
      dsimp only
      rw [Function.update_self, Function.update_self]
      simp only [ne_eq, reduceCtorEq, not_false_eq_true, true_iff]
      exact List.mem_map_of_mem hc
    · have hids : cs.map Chart.id ≠ [] := by
        intro hnil
        rw [hnil] at h
        simp [Stmt.exec, removeMissingCharts_nil] at h
      have hrm := removeMissingCharts_ok hids (noQuote_ids hq) db inp.key
      have hdb := Except.ok.inj (hrm.symm.trans h)
      have hmem : id ∉ cs.map Chart.id := ht
      have hnone : db'.charts inp.key id = none := by
        rw [← hdb]
        simp only [Database.deleteCharts, Function.update_self]
        simp [hmem]
      exact ⟨fun hne => absurd hnone hne, fun hin => absurd hin hmem⟩

/-- The last statement does not succeed without a chart. -/
theorem ne_nil_of_exec {st : Stmt} (hst : st = .removeMissingCharts (cs.map Chart.id))
    (h : st.exec inp.key db = .ok db') : cs ≠ [] := by
  rintro rfl
  subst hst
  simp [Stmt.exec, removeMissingCharts_nil] at h

/-- `EnsureRepoExists` is the first statement and none of the others. -/
theorem eq_of_ensure_mem {sts : List Stmt} (hsuf : sts <:+ syncStmts cs)
    (hmem : Stmt.ensureRepoExists ∈ sts) : sts = syncStmts cs := by
  rcases List.suffix_cons_iff.mp hsuf with h | h
  · exact h
  · exact absurd (h.subset hmem) (by simp)

/-- The last statement is the removal. -/
theorem last_of_suffix {st : Stmt} (hsuf : [st] <:+ syncStmts cs) :
    st = .removeMissingCharts (cs.map Chart.id) := by
  obtain ⟨pre, hpre⟩ := hsuf
  have hsplit : syncStmts cs = (.ensureRepoExists :: cs.map .upsertChart) ++
      [.removeMissingCharts (cs.map Chart.id)] := rfl
  have hlast := congrArg List.getLast? hpre
  rw [hsplit, List.getLast?_concat, List.getLast?_concat] at hlast
  exact Option.some.inj hlast

end Presence

/-! ## Runs without a DROP after the last upsert -/

/-- The ids that no statement is to touch any more are as in the list; or the rows were dropped
    before the last upsert, which will fail. -/
def Filling (inp : SyncInput) (db : Database) (cs : List Chart) (sts : List Stmt) : Prop :=
  (∀ id, ¬ Pending sts id → (db.charts inp.key id ≠ none ↔ id ∈ cs.map Chart.id)) ∨
    (db.repos inp.key = none ∧ Stmt.ensureRepoExists ∉ sts ∧ ∃ c, Stmt.upsertChart c ∈ sts)

/-- What holds of the rows in the pass over all versions. -/
def Filled (inp : SyncInput) (db : Database) : RunPhase → Prop
  | .syncing cs sts [] => Filling inp db cs sts
  | .fetching _ [] => Complete inp db
  | .charts [] => Complete inp db
  | .finished .completed => Complete inp db
  | _ => True

/-- Behind the statements of a pass there are charts. -/
def Charted (inp : SyncInput) : RunPhase → Prop
  | .syncing cs [] _ => cs ≠ []
  | .fetching _ [] => ∃ cs, inp.charts false = .ok cs ∧ cs ≠ []
  | .charts [] => ∃ cs, inp.charts false = .ok cs ∧ cs ≠ []
  | .finished .completed => ∃ cs, inp.charts false = .ok cs ∧ cs ≠ []
  | _ => True

section Moves

variable {env : FetchEnv} {inp : SyncInput} {db db' : Database} {ph ph' : RunPhase} {l : RunLabel}

theorem filling_exec {cs : List Chart} {st : Stmt} {sts : List Stmt} (hq : NoQuote cs)
    (hsuf : (st :: sts) <:+ syncStmts cs) (hst : st.exec inp.key db = .ok db')
    (h : Filling inp db cs (st :: sts)) : Filling inp db' cs sts := by
  have hmem : st ∈ syncStmts cs := hsuf.subset List.mem_cons_self
  rcases h with hrows | ⟨hrepo, hensure, c, hc⟩
  · refine .inl fun id hpend => ?_
    obtain ⟨hsame, htouch⟩ := present_of_exec hq hmem hst id
    by_cases ht : st.Touches id
    · exact htouch ht
    · rw [hsame ht]
      refine hrows id fun ⟨st', hst', ht'⟩ => ?_
      rcases List.mem_cons.mp hst' with rfl | hst'
      · exact ht ht'
      · exact hpend ⟨st', hst', ht'⟩
  · -- an upsert fails without the repository, so `st` is none
    have hne : st ≠ .ensureRepoExists := fun heq => hensure (heq ▸ List.mem_cons_self)
    refine .inr ⟨exec_repos_none hne hst hrepo, fun hm => hensure (List.mem_cons_of_mem _ hm), c, ?_⟩
    rcases List.mem_cons.mp hc with rfl | hc
    · exact absurd hrepo (Database.upsertChart_eq_ok hst).1
    · exact hc

theorem complete_fetch {lf : FetchLabel} {st st' : FetchFiles}
    (h : FetchFiles.step env inp.repo (db, st) lf = some (db', st')) (hc : Complete inp db) :
    Complete inp db' := by
  obtain ⟨cs, hcs, hids⟩ := hc
  refine ⟨cs, hcs, fun id => ?_⟩
  have hrow := (frame_fetch h).2.2 inp.key id
  simp only [Database.row] at hrow
  rw [← hids id, not_iff_not, ← Option.map_eq_none_iff, hrow, Option.map_eq_none_iff]

theorem filled_runMoves (hin : InputOk inp) (hm : RunMoves env inp db ph l db' ph')
    (hshape : Shape inp ph) (h : Filled inp db ph) : Filled inp db' ph' := by
  cases hm with
  | skip now hlast => trivial
  | plan now hlast =>
      unfold passesFor
      split <;> trivial
  | store now => exact h
  | chartsOk now b rest cs hcs =>
      cases rest with
      | nil => exact .inl fun id hpend => absurd (pending_syncStmts cs id) hpend
      | cons b' rest => trivial
  | chartsErr now b rest f out hcs hout =>
      cases out with
      | completed => exact absurd rfl hout.2
      | _ => trivial
  | stmt now cs st sts rest db'' hst =>
      cases rest with
      | nil =>
          obtain ⟨⟨b, _, hcs⟩, hsuf⟩ := hshape
          exact filling_exec (hin.no_quote b cs hcs) hsuf hst h
      | cons b' rest => trivial
  | stmtErr now cs st sts rest e msg hst => trivial
  | startFetch now cs rest =>
      cases rest with
      | nil =>
          obtain ⟨⟨b, hb, hcs⟩, _⟩ := hshape
          have hb' := eq_false_of_last_pass hb
          subst hb'
          rcases h with hrows | ⟨_, _, c, hc⟩
          · exact ⟨cs, hcs, fun id => hrows id fun ⟨st, hst, _⟩ => by simp at hst⟩
          · simp at hc
      | cons b' rest => trivial
  | fetch lf st st' rest db'' hst =>
      cases rest with
      | nil => exact complete_fetch hst h
      | cons b' rest => trivial
  | fetched now st rest hret =>
      cases rest with
      | nil => exact h
      | cons b' rest => trivial
  | crashed now st rest hcrash => trivial

theorem charted_runMoves (hm : RunMoves env inp db ph l db' ph') (hshape : Shape inp ph)
    (h : Charted inp ph) : Charted inp ph' := by
  cases hm with
  | skip now hlast => trivial
  | plan now hlast =>
      unfold passesFor
      split <;> trivial
  | store now => exact h
  | chartsOk now b rest cs hcs => trivial
  | chartsErr now b rest f out hcs hout =>
      cases out with
      | completed => exact absurd rfl hout.2
      | _ => trivial
  | stmt now cs st sts rest db'' hst =>
      cases sts with
      | nil => exact ne_nil_of_exec (last_of_suffix hshape.2) hst
      | cons st' sts => trivial
  | stmtErr now cs st sts rest e msg hst => trivial
  | startFetch now cs rest =>
      cases rest with
      | nil =>
          obtain ⟨⟨b, hb, hcs⟩, _⟩ := hshape
          have hb' := eq_false_of_last_pass hb
          subst hb'
          exact ⟨cs, hcs, h⟩
      | cons b' rest => trivial
  | fetch lf st st' rest db'' hst =>
      cases rest with
      | nil => exact h
      | cons b' rest => trivial
  | fetched now st rest hret =>
      cases rest with
      | nil => exact h
      | cons b' rest => trivial
  | crashed now st rest hcrash => trivial

/-- No chart of the repository, and no upsert to come. -/
def Dropped (inp : SyncInput) (db : Database) (ph : RunPhase) : Prop :=
  (∀ id, db.charts inp.key id = none) ∧
    (pastUpserts ph = true ∨ (∃ msg, ph = .finished (.fatal msg)) ∨ ph = .finished .panicked)

theorem none_of_remove {ids : List String} {id : String}
    (h : (Stmt.removeMissingCharts ids).exec inp.key db = .ok db')
    (hnone : db.charts inp.key id = none) : db'.charts inp.key id = none := by
  simp only [Stmt.exec, Syncer.removeMissingCharts] at h
  split at h
  · cases h
  · have hdb := Except.ok.inj h
    rw [← hdb]
    simp [Database.deleteCharts, hnone]

theorem dropped_runMoves (hm : RunMoves env inp db ph l db' ph') (h : Dropped inp db ph) :
    Dropped inp db' ph' := by
  obtain ⟨hnone, hpast | ⟨msg, hfin⟩ | hfin⟩ := h
  · cases hm with
    | store now => exact ⟨hnone, .inl rfl⟩
    | stmt now cs st sts rest db'' hst =>
        cases rest with
        | nil =>
            simp only [pastUpserts, List.all_cons, Bool.and_eq_true] at hpast
            cases st with
            | removeMissingCharts ids =>
                exact ⟨fun id => none_of_remove hst (hnone id), .inl hpast.2⟩
            | ensureRepoExists => simp [Stmt.isRemove] at hpast
            | upsertChart c => simp [Stmt.isRemove] at hpast
        | cons b' rest => simp [pastUpserts] at hpast
    | stmtErr now cs st sts rest e msg hst => exact ⟨hnone, .inr (.inl ⟨_, rfl⟩)⟩
    | startFetch now cs rest =>
        cases rest with
        | nil => exact ⟨hnone, .inl rfl⟩
        | cons b' rest => simp [pastUpserts] at hpast
    | fetch lf st st' rest db'' hst =>
        cases rest with
        | nil =>
            refine ⟨fun id => ?_, .inl rfl⟩
            have hrow := (frame_fetch hst).2.2 inp.key id
            simpa [Database.row, hnone id] using hrow
        | cons b' rest => simp [pastUpserts] at hpast
    | fetched now st rest hret =>
        cases rest with
        | nil => exact ⟨hnone, .inl rfl⟩
        | cons b' rest => simp [pastUpserts] at hpast
    | crashed now st rest hcrash => exact ⟨hnone, .inr (.inr rfl)⟩
    | skip now hlast => simp [pastUpserts] at hpast
    | plan now hlast => simp [pastUpserts] at hpast
    | chartsOk now b rest cs hcs => simp [pastUpserts] at hpast
    | chartsErr now b rest f out hcs hout => simp [pastUpserts] at hpast
  · exact absurd hfin (not_finished_of_runMoves hm _)
  · exact absurd hfin (not_finished_of_runMoves hm _)

/-- The last statement of a run stores the checksum. -/
theorem stored_runMoves (hm : RunMoves env inp db ph l db' ph')
    (hdone : ph' = .finished .completed) : db'.lastChecksum inp.key = inp.checksum := by
  cases hm with
  | store now => exact db.updateLastCheck_lastChecksum _ _ _
  | chartsErr now b rest f out hcs hout =>
      cases hdone
      exact absurd rfl hout.2
  | skip now hlast => cases hdone
  | plan now hlast => cases hdone
  | chartsOk now b rest cs hcs => cases hdone
  | stmt now cs st sts rest db'' hst => cases hdone
  | stmtErr now cs st sts rest e msg hst => cases hdone
  | startFetch now cs rest => cases hdone
  | fetch lf st st' rest db'' hst => cases hdone
  | fetched now st rest hret => cases hdone
  | crashed now st rest hcrash => cases hdone

end Moves

/-! ## Runs -/

section Runs

variable {job : SyncJob} {s s' : Invalidation} {a : InvalidationLabel}

/-- What every step keeps. -/
def Ordered (inp : SyncInput) (s : Invalidation) : Prop :=
  Shape inp s.phase ∧ Charted inp s.phase

theorem ordered_step (hi : Ordered job.input s) (h : s.step job a = some s') :
    Ordered job.input s' := by
  obtain ⟨hshape, hcharted⟩ := hi
  cases invalidationMoves_of_step h with
  | run l db ph hm => exact ⟨shape_step hm hshape, charted_runMoves hm hshape hcharted⟩
  | missing l ph hm =>
      rcases missingTable_cases hm with ⟨msg, rfl⟩ | ⟨st, st', rest, hph, rfl⟩
      · exact ⟨trivial, trivial⟩
      · simp only [hph] at hshape hcharted
        refine ⟨hshape, ?_⟩
        cases rest with
        | nil => exact hcharted
        | cons b rest => trivial
  | initTable created inited => exact ⟨hshape, hcharted⟩
  | dropTables => exact ⟨hshape, hcharted⟩
  | createTable created invalidating => exact ⟨hshape, hcharted⟩

/-- A DROP before the last upsert leaves the run to fill the tables, or to fail at an upsert. -/
theorem filled_drop (hshape : Shape job.input s.phase) (hok : pastUpserts s.phase = false) :
    Filled job.input .empty s.phase := by
  cases hph : s.phase with
  | syncing cs sts rest =>
      cases rest with
      | nil =>
          rw [hph] at hshape hok
          by_cases hensure : Stmt.ensureRepoExists ∈ sts
          · have hall := eq_of_ensure_mem hshape.2 hensure
            subst hall
            exact .inl fun id hpend => absurd (pending_syncStmts cs id) hpend
          · refine .inr ⟨rfl, hensure, ?_⟩
            simp only [pastUpserts] at hok
            obtain ⟨st, hst, hrem⟩ := List.all_eq_false.mp hok
            cases st with
            | upsertChart c => exact ⟨c, hst⟩
            | ensureRepoExists => exact absurd hst hensure
            | removeMissingCharts ids => simp [Stmt.isRemove] at hrem
      | cons b rest => trivial
  | fetching st rest =>
      cases rest with
      | nil => simp [hph, pastUpserts] at hok
      | cons b rest => trivial
  | charts passes =>
      cases passes with
      | nil => simp [hph, pastUpserts] at hok
      | cons b rest => trivial
  | finished out =>
      cases out with
      | completed => simp [hph, pastUpserts] at hok
      | _ => trivial
  | lastChecksum => trivial

theorem filled_step (hin : InputOk job.input) (hi : Ordered job.input s) (hok : DropOk s a)
    (hf : Filled job.input s.db s.phase) (h : s.step job a = some s') :
    Filled job.input s'.db s'.phase := by
  cases invalidationMoves_of_step h with
  | run l db ph hm => exact filled_runMoves hin hm hi.1 hf
  | missing l ph hm =>
      rcases missingTable_cases hm with ⟨msg, rfl⟩ | ⟨st, st', rest, hph, rfl⟩
      · trivial
      · simp only [hph] at hf
        cases rest with
        | nil => exact hf
        | cons b rest => trivial
  | initTable created inited => exact hf
  | dropTables => exact filled_drop hi.1 (hok rfl)
  | createTable created invalidating => exact hf

theorem dropped_step (hl : Dropped job.input s.db s.phase) (h : s.step job a = some s') :
    Dropped job.input s'.db s'.phase := by
  cases invalidationMoves_of_step h with
  | run l db ph hm => exact dropped_runMoves hm hl
  | missing l ph hm =>
      obtain ⟨hnone, hpast⟩ := hl
      refine ⟨hnone, ?_⟩
      rcases missingTable_cases hm with ⟨msg, rfl⟩ | ⟨st, st', rest, hph, rfl⟩
      · exact .inr (.inl ⟨msg, rfl⟩)
      · simp only [hph] at hpast
        cases rest with
        | nil => exact .inl rfl
        | cons b rest => simp [pastUpserts] at hpast
  | initTable created inited => exact hl
  | dropTables => exact ⟨fun _ => rfl, hl.2⟩
  | createTable created invalidating => exact hl

/-- A DROP after the last upsert. -/
theorem dropped_of_not_ok (hmiss : ¬ DropOk s a) (h : s.step job a = some s') :
    Dropped job.input s'.db s'.phase := by
  have hmiss' : a = .dropTables ∧ pastUpserts s.phase = true := by
    simpa [DropOk] using hmiss
  obtain ⟨rfl, hpast⟩ := hmiss'
  cases invalidationMoves_of_step h with
  | dropTables => exact ⟨fun _ => rfl, .inl hpast⟩

/-- A run that has ended has stored its checksum. -/
def StoredSum (inp : SyncInput) (s : Invalidation) : Prop :=
  s.phase = .finished .completed → s.db.lastChecksum inp.key = inp.checksum

theorem storedSum_step (hok : DropInRun s a) (hs : StoredSum job.input s)
    (h : s.step job a = some s') : StoredSum job.input s' := by
  cases invalidationMoves_of_step h with
  | run l db ph hm =>
      intro hdone
      exact stored_runMoves hm hdone
  | missing l ph hm =>
      intro hdone
      dsimp only at hdone
      rcases missingTable_cases hm with ⟨msg, rfl⟩ | ⟨st, st', rest, hph, rfl⟩ <;> cases hdone
  | initTable created inited => exact hs
  | dropTables =>
      intro hdone
      exact absurd hdone (hok rfl)
  | createTable created invalidating => exact hs

end Runs

/-- For every interleaving of a run of a sync job with invalidations of the cache, once the run has
    got to its end: the rows are complete exactly if no DROP came after the last upsert; otherwise
    there is none; and the checksum is stored, unless a DROP came after the end. -/
theorem complete_after_invalidation (db : Database) (job : SyncJob)
    (as : List InvalidationLabel) (s : Invalidation)
    (hrun : runs (Invalidation.step job) (.start db) as = some s)
    (hdone : s.phase = .finished .completed) :
    (Complete job.input s.db ↔ StepsMeet (Invalidation.step job) DropOk (.start db) as) ∧
    (¬ Complete job.input s.db → ∀ id, s.db.charts job.input.key id = none) ∧
    (StepsMeet (Invalidation.step job) DropInRun (.start db) as →
      s.db.lastChecksum job.input.key = job.input.checksum) := by
  have hin := inputOk_of_fromRepo job.valid job.fromRepo
  have hord : ∀ s a s', Ordered job.input s → s.step job a = some s' → Ordered job.input s' :=
    fun _ _ _ => ordered_step
  have hstart : Ordered job.input (.start db) := ⟨trivial, trivial⟩
  have hcharted := (runs_invariant hord hrun hstart).2
  rw [hdone] at hcharted
  -- a DROP that is too late empties the rows for good
  have hlate : ¬ StepsMeet (Invalidation.step job) DropOk (.start db) as →
      Dropped job.input s.db s.phase := fun hmiss => by
    by_contra hnot
    exact hmiss (stepsMeet_of_runs hord (fun _ _ _ _ => dropped_of_not_ok)
      (fun _ _ _ => dropped_step) hrun hstart hnot)
  have hfilled : StepsMeet (Invalidation.step job) DropOk (.start db) as →
      Complete job.input s.db := fun hmeet => by
    have hstep : ∀ s a s', (Ordered job.input s ∧ Filled job.input s.db s.phase) → DropOk s a →
        s.step job a = some s' → Ordered job.input s' ∧ Filled job.input s'.db s'.phase :=
      fun _ _ _ hi hok h => ⟨ordered_step hi.1 h, filled_step hin hi.1 hok hi.2 h⟩
    have hend := (runs_invariant_of_meet hstep hmeet hrun ⟨hstart, trivial⟩).2
    rwa [hdone] at hend
  refine ⟨⟨fun hcomplete => ?_, hfilled⟩, fun hnot => ?_, fun hmeet => ?_⟩
  · by_contra hmiss
    obtain ⟨cs, hcs, hne⟩ := hcharted
    obtain ⟨cs', hcs', hids⟩ := hcomplete
    obtain rfl := Except.ok.inj (hcs'.symm.trans hcs)
    obtain ⟨c, hc⟩ := List.exists_mem_of_ne_nil cs' hne
    exact (hids c.id).mpr (List.mem_map_of_mem hc) ((hlate hmiss).1 c.id)
  · exact (hlate fun hmeet => hnot (hfilled hmeet)).1
  · have hstep : ∀ s a s', StoredSum job.input s → DropInRun s a → s.step job a = some s' →
        StoredSum job.input s' := fun _ _ _ hs hok h => storedSum_step hok hs h
    exact runs_invariant_of_meet hstep hmeet hrun (fun h => by cases h) hdone

/-! ## A repository with one chart -/

/-- One pass, with the CREATEs of its `InitTables` and whatever `during` is before `fetchFiles`. -/
def invalidationPass (answer : List FetchLabel) (during : List InvalidationLabel) :
    List InvalidationLabel :=
  let all := (passOne answer).map .run
  all.take 1 ++ List.replicate numTables .initTable ++ (all.drop 1).take 3 ++ during ++ all.drop 4

/-- `InvalidateCache`. -/
def invalidateCache : List InvalidationLabel :=
  .dropTables :: List.replicate numTables .createTable

/-- A first run, with these statements in its last pass. -/
def runInvalidated (during : List InvalidationLabel) : List InvalidationLabel :=
  [.run (.next "")] ++ invalidationPass downloaded [] ++ invalidationPass downloaded during ++
    [.run (.next "2023-01-01")]

/-- The invalidation comes after the last upsert of the run: the run completes and stores its
    checksum, and nothing is in the catalog. -/
theorem complete_after_invalidation_late :
    ∃ s, runs (Invalidation.step (oneChartJobs .first)) (.start .empty)
        (runInvalidated invalidateCache) = some s ∧ s.phase = .finished .completed ∧
      ¬ Complete (oneChartJobs .first).input s.db ∧
      (∀ id, s.db.charts (oneChartJobs .first).input.key id = none) ∧
      s.db.lastChecksum (oneChartJobs .first).input.key = (oneChartJobs .first).input.checksum := by
  have heval : (runs (Invalidation.step (oneChartJobs .first)) (.start .empty)
      (runInvalidated invalidateCache)).map
        (fun s => (s.phase, s.db.row (repoKey bitnami) "bitnami/nginx")) =
      some (.finished .completed, none) := by
    decide +kernel
  obtain ⟨s, hrun, hs⟩ := Option.map_eq_some_iff.mp heval
  simp only [Prod.mk.injEq] at hs
  obtain ⟨hdone, hrow⟩ := hs
  obtain ⟨_, hempty, hsum⟩ := complete_after_invalidation .empty (oneChartJobs .first) _ s hrun hdone
  have hmeet : StepsMeet (Invalidation.step (oneChartJobs .first)) DropInRun (.start .empty)
      (runInvalidated invalidateCache) :=
    stepsMeet_of_meets (fun _ _ => of_decide_eq_true) (by decide +kernel)
  have hnot : ¬ Complete (oneChartJobs .first).input s.db := by
    rintro ⟨cs, hcs, hids⟩
    have hcharts : (oneChartJobs .first).input.charts false =
        .ok [namedChart bitnami "nginx"] := by decide +kernel
    obtain rfl := Except.ok.inj (hcharts.symm.trans hcs)
    have hnone : s.db.charts (repoKey bitnami) "bitnami/nginx" = none :=
      Option.map_eq_none_iff.mp hrow
    exact (hids "bitnami/nginx").mpr (by decide +kernel) hnone
  exact ⟨s, hrun, hdone, hnot, hempty hnot, hsum hmeet⟩

end Kubeapps.Syncer
