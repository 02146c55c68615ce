/-
  Two runs of one repository side by side: the job that the controller launches when a repository
  changes, and a run of its CronJob.

  Each run does its statements one at a time on the shared tables, in any order of the two. Both
  end with a last write of every row (the upsert of the chart, or the delete), so a row ends as
  the run has it whose last write came second. A run is `overtaken` when the other one makes its
  last write of a row after it, and has something else for the row.

  `overlap_consistent`: if the run that stores its checksum last was not overtaken, the rows are
  its charts. Otherwise they are not (`overtaken_rows`), and the checksum that is stored hides it
  (`overlap_mixes_indexes`).
-/
import Kubeapps.Syncer.Run

namespace Kubeapps.Syncer

open Kubeapps.Lib Kubeapps.Models

/-! ## The two runs -/

inductive Side where
  | first
  | second
  deriving DecidableEq, Repr

def Side.other : Side → Side
  | .first => .second
  | .second => .first

@[simp] theorem Side.other_other (x : Side) : x.other.other = x := by cases x <;> rfl

@[simp] theorem Side.other_ne (x : Side) : x.other ≠ x := by cases x <;> simp [other]

theorem Side.eq_or_eq_other (x y : Side) : y = x ∨ y = x.other := by
  cases x <;> cases y <;> simp [other]

/-- The run has made its last write of this row. -/
def wrote (id : String) : RunPhase → Bool
  | .syncing _ sts [] => !decide (Pending sts id)
  | .fetching _ [] => true
  | .charts [] => true
  | .finished .completed => true
  | _ => false

/-- The run has no write of this row before it that it has begun to make. -/
def settled (id : String) : RunPhase → Bool
  | .lastChecksum => true
  | .finished .skipped => true
  | ph => wrote id ph

/-- The charts of all versions. -/
def SyncInput.deep (inp : SyncInput) : List Chart :=
  match inp.charts false with
  | .ok cs => cs
  | .error _ => []

/-- The step from `ph` to `ph'` is the last write of a row that the other run has written and has
    something else for. -/
def overtakes (theirs : List Chart) (ph ph' theirPhase : RunPhase) : Bool :=
  match ph, ph' with
  | .syncing cs (st :: _) [], .syncing _ _ _ =>
      ((cs ++ theirs).map Chart.id).any fun id =>
        decide (st.Touches id) && wrote id theirPhase && decide (chartOf cs id ≠ chartOf theirs id)
  | _, _ => false

/-- The tables, the two runs, and which of them was overtaken. -/
structure Overlap where
  db : Database
  phase : Side → RunPhase
  overtaken : Side → Bool

/-- Before the runs. -/
def Overlap.start (db : Database) : Overlap := ⟨db, fun _ => .lastChecksum, fun _ => false⟩

/-- One step of one run. -/
def Overlap.step (jobs : Side → SyncJob) (s : Overlap) (a : Side × RunLabel) : Option Overlap :=
  (runStep (jobs a.1).env (jobs a.1).input (s.db, s.phase a.1) a.2).map fun (db, ph') =>
    { db := db
      phase := Function.update s.phase a.1 ph'
      overtaken := Function.update s.overtaken a.1.other (s.overtaken a.1.other ||
        overtakes (jobs a.1.other).input.deep (s.phase a.1) ph' (s.phase a.1.other)) }

/-- What a step of the run `x` does. -/
structure OverlapMove (jobs : Side → SyncJob) (s : Overlap) (x : Side) (l : RunLabel)
    (s' : Overlap) : Prop where
  run : RunMoves (jobs x).env (jobs x).input s.db (s.phase x) l s'.db (s'.phase x)
  other : s'.phase x.other = s.phase x.other
  overtaken_self : s'.overtaken x = s.overtaken x
  overtaken_other : s'.overtaken x.other = (s.overtaken x.other ||
    overtakes (jobs x.other).input.deep (s.phase x) (s'.phase x) (s.phase x.other))

theorem overlapMove_of_step {jobs : Side → SyncJob} {s s' : Overlap} {x : Side} {l : RunLabel}
    (h : Overlap.step jobs s (x, l) = some s') : OverlapMove jobs s x l s' := by
  unfold Overlap.step at h
  obtain ⟨⟨db', ph'⟩, hstep, heq⟩ := Option.map_eq_some_iff.mp h
  subst heq
  have hne := x.other_ne
  refine ⟨?_, ?_, ?_, ?_⟩
  · simpa using moves_of_runStep hstep
  · simp [hne]
  · simp [hne.symm]
  · simp

/-! ## What a step does to the rows -/

/-- A step that keeps every row, one of the pass over the latest versions, or a last write. -/
inductive RowMove (inp : SyncInput) (db : Database) (ph : RunPhase) (db' : Database)
    (ph' : RunPhase) : Prop
  | quiet (hrow : ∀ id, db'.row inp.key id = db.row inp.key id)
      (hwrote : ∀ id, wrote id ph' = true → wrote id ph = true)
      (hsettled : ∀ id, settled id ph' = true → settled id ph = true)
  | shallow (hsettled : ∀ id, settled id ph' = false)
  | deep (cs : List Chart) (st : Stmt) (sts : List Stmt) (hph : ph = .syncing cs (st :: sts) [])
      (hph' : ph' = .syncing cs sts []) (hcs : inp.charts false = .ok cs)
      (htouch : ∀ id, st.Touches id → db'.row inp.key id = chartOf cs id)
      (hsame : ∀ id, ¬ st.Touches id → db'.row inp.key id = db.row inp.key id)

theorem wrote_of_settled_false {id : String} {ph : RunPhase} (h : settled id ph = false) :
    wrote id ph = false := by
  cases ph with
  | lastChecksum => rfl
  | finished out => cases out <;> first | rfl | exact h
  | _ => exact h

theorem not_pending_nil (id : String) : ¬ Pending [] id := by
  rintro ⟨st, hst, _⟩
  simp at hst

theorem rowMove_of_runMoves {env : FetchEnv} {inp : SyncInput} {db db' : Database}
    {ph ph' : RunPhase} {l : RunLabel} (hin : InputOk inp) (hdist : inp.Distinct)
    (hshape : Shape inp ph) (hm : RunMoves env inp db ph l db' ph') :
    RowMove inp db ph db' ph' := by
  cases hm with
  | skip now hlast => exact .quiet (fun _ => rfl) (fun _ h => h) (fun _ _ => rfl)
  | plan now hlast =>
      refine .shallow fun id => ?_
      unfold passesFor
      split <;> rfl
  | store now => exact .quiet (fun _ => rfl) (fun _ _ => rfl) (fun _ _ => rfl)
  | chartsOk now b rest cs hcs =>
      refine .shallow fun id => ?_
      cases rest with
      | nil => simp [settled, wrote, pending_syncStmts]
      | cons b' rest => rfl
  | chartsErr now b rest f out hcs hout =>
      refine .shallow fun id => ?_
      cases out with
      | skipped => exact absurd rfl hout.1
      | completed => exact absurd rfl hout.2
      | fatal msg => rfl
      | panicked => rfl
  | stmt now cs st sts rest db'' hst =>
      obtain ⟨⟨b, hb, hcs⟩, hsuf⟩ := hshape
      cases rest with
      | nil =>
          rw [eq_false_of_last_pass hb] at hcs
          have hmem : st ∈ syncStmts cs := hsuf.subset List.mem_cons_self
          have hrow := row_of_exec (hin.no_quote false cs hcs) hmem hst
          exact .deep cs st sts rfl rfl hcs (fun id => (hrow id).2 (hdist cs hcs))
            fun id => (hrow id).1
      | cons b' rest => exact .shallow fun id => rfl
  | stmtErr now cs st sts rest e msg hst => exact .shallow fun id => rfl
  | startFetch now cs rest =>
      cases rest with
      | nil =>
          have hwrote : ∀ id, wrote id (.syncing cs [] []) = true := by
            intro id
            simp [wrote, not_pending_nil]
          exact .quiet (fun _ => rfl) (fun id _ => hwrote id) (fun id _ => hwrote id)
      | cons b rest => exact .shallow fun id => rfl
  | fetch l st st' rest db'' hst =>
      have hrow := (frame_fetch hst).2.2 inp.key
      cases rest with
      | nil => exact .quiet hrow (fun _ _ => rfl) (fun _ _ => rfl)
      | cons b rest => exact .shallow fun id => rfl
  | fetched now st rest hret =>
      cases rest with
      | nil => exact .quiet (fun _ => rfl) (fun _ _ => rfl) (fun _ _ => rfl)
      | cons b rest => exact .shallow fun id => rfl
  | crashed now st rest hcrash => exact .shallow fun id => rfl

/-- A last write is seen by the run that had something else for the row. -/
theorem overtakes_of_touches {cs theirs : List Chart} {st : Stmt} {sts : List Stmt} {id : String}
    {theirPhase : RunPhase} (ht : st.Touches id) (hwrote : wrote id theirPhase = true)
    (hne : chartOf cs id ≠ chartOf theirs id) :
    overtakes theirs (.syncing cs (st :: sts) []) (.syncing cs sts []) theirPhase = true := by
  have hmem : id ∈ (cs ++ theirs).map Chart.id := by
    by_contra hmem
    rw [List.map_append, List.mem_append, not_or] at hmem
    rw [chartOf_of_not_mem hmem.1, chartOf_of_not_mem hmem.2] at hne
    exact hne rfl
  simp only [overtakes, List.any_eq_true, Bool.and_eq_true, decide_eq_true_eq]
  exact ⟨id, hmem, ⟨ht, hwrote⟩, hne⟩

theorem wrote_of_not_touches {cs : List Chart} {st : Stmt} {sts : List Stmt} {id : String}
    (ht : ¬ st.Touches id) (h : wrote id (.syncing cs sts []) = true) :
    wrote id (.syncing cs (st :: sts) []) = true := by
  simp only [wrote, Bool.not_eq_true', decide_eq_false_iff_not] at h ⊢
  rintro ⟨st', hst', ht'⟩
  rcases List.mem_cons.mp hst' with rfl | hst'
  · exact ht ht'
  · exact h ⟨st', hst', ht'⟩

/-! ## The invariant -/

/-- The run has not compared the checksums, or has found its own. -/
def waiting : RunPhase → Bool
  | .lastChecksum => true
  | .finished .skipped => true
  | _ => false

/-- The run that stores its checksum last was not overtaken. -/
def OverlapOk (s : Overlap) (a : Side × RunLabel) : Prop :=
  s.phase a.1 = .charts [] → s.phase a.1.other = .finished .completed → s.overtaken a.1 = false

instance (s : Overlap) (a : Side × RunLabel) : Decidable (OverlapOk s a) :=
  inferInstanceAs (Decidable (s.phase a.1 = .charts [] →
    s.phase a.1.other = .finished .completed → s.overtaken a.1 = false))

structure OverlapInv (jobs : Side → SyncJob) (k : RepoKey) (s : Overlap) : Prop where
  shape : ∀ x, Shape (jobs x).input (s.phase x)
  no_null : s.db.nullCharts k = []
  returned : ∀ x id, wrote id (s.phase x) = true → ∃ cs, (jobs x).input.charts false = .ok cs
  rows : ∀ x id, wrote id (s.phase x) = true → settled id (s.phase x.other) = true →
    s.overtaken x = false → s.db.row k id = chartOf (jobs x).input.deep id
  early : ∀ x, waiting (s.phase x) = true → s.overtaken x.other = false
  untouched : (∀ x, waiting (s.phase x) = true) →
    (∀ x, s.db.lastChecksum k = (jobs x).input.checksum → DeepRows (jobs x).input s.db) ∧
      ∀ x, s.phase x = .finished .skipped → s.db.lastChecksum k = (jobs x).input.checksum
  one : ∀ x, s.phase x = .finished .completed → s.phase x.other ≠ .finished .completed →
    s.db.lastChecksum k = (jobs x).input.checksum
  both : (∀ x, s.phase x = .finished .completed) →
    ∃ x, s.db.lastChecksum k = (jobs x).input.checksum ∧ s.overtaken x = false

theorem deep_eq {inp : SyncInput} {cs : List Chart} (h : inp.charts false = .ok cs) :
    inp.deep = cs := by
  simp [SyncInput.deep, h]

theorem settled_of_wrote {id : String} {ph : RunPhase} (h : wrote id ph = true) :
    settled id ph = true := by
  by_contra hno
  rw [Bool.not_eq_true] at hno
  rw [wrote_of_settled_false hno] at h
  simp at h

section Step

variable {env : FetchEnv} {inp : SyncInput} {db db' : Database} {ph ph' : RunPhase} {l : RunLabel}

/-- The rows of the run that moves. -/
theorem rows_self (hm : RowMove inp db ph db' ph') {id : String}
    (h : wrote id ph = true → db.row inp.key id = chartOf inp.deep id)
    (hwrote' : wrote id ph' = true) : db'.row inp.key id = chartOf inp.deep id := by
  cases hm with
  | quiet hrow hwrote hsettled =>
      rw [hrow]
      exact h (hwrote id hwrote')
  | shallow hsettled =>
      rw [wrote_of_settled_false (hsettled id)] at hwrote'
      simp at hwrote'
  | deep cs st sts hph hph' hcs htouch hsame =>
      subst hph hph'
      by_cases ht : st.Touches id
      · rw [htouch id ht, deep_eq hcs]
      · rw [hsame id ht]
        exact h (wrote_of_not_touches ht hwrote')

/-- The rows of the other run, which was not overtaken in this step. -/
theorem rows_other {theirs : List Chart} {theirPhase : RunPhase}
    (hm : RowMove inp db ph db' ph') {id : String} (hwrote : wrote id theirPhase = true)
    (hover : overtakes theirs ph ph' theirPhase = false)
    (h : settled id ph = true → db.row inp.key id = chartOf theirs id)
    (hsettled' : settled id ph' = true) : db'.row inp.key id = chartOf theirs id := by
  cases hm with
  | quiet hrow hwrote' hsettled =>
      rw [hrow]
      exact h (hsettled id hsettled')
  | shallow hsettled =>
      rw [hsettled id] at hsettled'
      simp at hsettled'
  | deep cs st sts hph hph' hcs htouch hsame =>
      subst hph hph'
      by_cases ht : st.Touches id
      · rw [htouch id ht]
        by_contra hne
        rw [overtakes_of_touches ht hwrote hne] at hover
        simp at hover
      · rw [hsame id ht]
        exact h (settled_of_wrote (wrote_of_not_touches ht hsettled'))

theorem returned_self (hm : RowMove inp db ph db' ph') {id : String}
    (h : wrote id ph = true → ∃ cs, inp.charts false = .ok cs) (hwrote' : wrote id ph' = true) :
    ∃ cs, inp.charts false = .ok cs := by
  cases hm with
  | quiet hrow hwrote hsettled => exact h (hwrote id hwrote')
  | shallow hsettled =>
      rw [wrote_of_settled_false (hsettled id)] at hwrote'
      simp at hwrote'
  | deep cs st sts hph hph' hcs htouch hsame => exact ⟨cs, hcs⟩

/-- A step stores the checksum of its run, or leaves what is stored. -/
theorem checksum_runMoves (hm : RunMoves env inp db ph l db' ph') :
    (ph = .charts [] ∧ ph' = .finished .completed ∧ db'.lastChecksum inp.key = inp.checksum) ∨
      (ph' ≠ .finished .completed ∧ db'.lastChecksum inp.key = db.lastChecksum inp.key) := by
  cases hm with
  | store now => exact .inl ⟨rfl, rfl, db.updateLastCheck_lastChecksum _ _ _⟩
  | stmt now cs st sts rest db'' hst => exact .inr ⟨by simp, (frame_of_exec hst).checksum _⟩
  | fetch l st st' rest db'' hst => exact .inr ⟨by simp, (frame_fetch hst).2.1 _⟩
  | chartsErr now b rest f out hcs hout => exact .inr ⟨by simpa using hout.2, rfl⟩
  | _ => exact .inr ⟨by simp, rfl⟩

/-- A run that waits after a step has found its own checksum. -/
theorem waiting_runMoves (hm : RunMoves env inp db ph l db' ph') (h : waiting ph' = true) :
    ph = .lastChecksum ∧ ph' = .finished .skipped ∧ db' = db ∧
      db.lastChecksum inp.key = inp.checksum := by
  cases hm with
  | skip now hlast => exact ⟨rfl, rfl, rfl, hlast⟩
  | chartsErr now b rest f out hcs hout =>
      cases out with
      | skipped => exact absurd rfl hout.1
      | _ => simp [waiting] at h
  | _ => simp [waiting] at h

end Step

section OverlapStep

variable {jobs : Side → SyncJob} {k : RepoKey} {s s' : Overlap} {x : Side} {l : RunLabel}

theorem overlap_shape_step (hm : OverlapMove jobs s x l s')
    (h : ∀ z, Shape (jobs z).input (s.phase z)) (z : Side) :
    Shape (jobs z).input (s'.phase z) := by
  rcases x.eq_or_eq_other z with rfl | rfl
  · exact shape_step hm.run (h z)
  · rw [hm.other]
    exact h _

/-- The rows that each run has written and nobody else is about to write. -/
theorem overlap_rows_step (hkey : ∀ x, (jobs x).input.key = k) (hi : OverlapInv jobs k s)
    (hm : OverlapMove jobs s x l s')
    (hrm : RowMove (jobs x).input s.db (s.phase x) s'.db (s'.phase x)) (z : Side) (id : String)
    (hwrote : wrote id (s'.phase z) = true) (hsettled : settled id (s'.phase z.other) = true)
    (hover : s'.overtaken z = false) : s'.db.row k id = chartOf (jobs z).input.deep id := by
  rcases x.eq_or_eq_other z with rfl | rfl
  · rw [hm.other] at hsettled
    rw [hm.overtaken_self] at hover
    have hbefore : wrote id (s.phase z) = true →
        s.db.row (jobs z).input.key id = chartOf (jobs z).input.deep id := by
      intro hw
      rw [hkey]
      exact hi.rows z id hw hsettled hover
    have hrow := rows_self hrm hbefore hwrote
    rwa [hkey] at hrow
  · rw [hm.other] at hwrote
    rw [Side.other_other] at hsettled
    rw [hm.overtaken_other, Bool.or_eq_false_iff] at hover
    have hbefore : settled id (s.phase x) = true →
        s.db.row (jobs x).input.key id = chartOf (jobs x.other).input.deep id := by
      intro hs
      rw [hkey]
      exact hi.rows x.other id hwrote (by rw [Side.other_other]; exact hs) hover.1
    have hrow := rows_other hrm hwrote hover.2 hbefore hsettled
    rwa [hkey] at hrow

theorem overlap_early_step (hi : OverlapInv jobs k s) (hm : OverlapMove jobs s x l s') (z : Side)
    (hwait : waiting (s'.phase z) = true) : s'.overtaken z.other = false := by
  rcases x.eq_or_eq_other z with rfl | rfl
  · obtain ⟨hph, _, _, _⟩ := waiting_runMoves hm.run hwait
    rw [hm.overtaken_other, hph, Bool.or_eq_false_iff]
    exact ⟨hi.early z (by rw [hph]; rfl), rfl⟩
  · rw [hm.other] at hwait
    have hearly := hi.early x.other hwait
    rw [Side.other_other] at hearly ⊢
    rw [hm.overtaken_self]
    exact hearly

theorem overlap_untouched_step (hkey : ∀ x, (jobs x).input.key = k) (hi : OverlapInv jobs k s)
    (hm : OverlapMove jobs s x l s') (hwait : ∀ z, waiting (s'.phase z) = true) :
    (∀ z, s'.db.lastChecksum k = (jobs z).input.checksum → DeepRows (jobs z).input s'.db) ∧
      ∀ z, s'.phase z = .finished .skipped → s'.db.lastChecksum k = (jobs z).input.checksum := by
  obtain ⟨hph, _, hdb, hlast⟩ := waiting_runMoves hm.run (hwait x)
  have hbefore : ∀ z, waiting (s.phase z) = true := by
    intro z
    rcases x.eq_or_eq_other z with rfl | rfl
    · rw [hph]
      rfl
    · rw [← hm.other]
      exact hwait _
  obtain ⟨hrows, hskipped⟩ := hi.untouched hbefore
  rw [hdb]
  refine ⟨hrows, fun z hz => ?_⟩
  rcases x.eq_or_eq_other z with rfl | rfl
  · rw [← hkey z, hlast]
  · rw [hm.other] at hz
    exact hskipped _ hz

theorem overlap_one_step (hkey : ∀ x, (jobs x).input.key = k) (hi : OverlapInv jobs k s)
    (hm : OverlapMove jobs s x l s') (z : Side) (hdone : s'.phase z = .finished .completed)
    (hother : s'.phase z.other ≠ .finished .completed) :
    s'.db.lastChecksum k = (jobs z).input.checksum := by
  rcases x.eq_or_eq_other z with rfl | rfl
  · rcases checksum_runMoves hm.run with ⟨_, _, hsum⟩ | ⟨hnot, _⟩
    · rw [← hkey z, hsum]
    · exact absurd hdone hnot
  · rw [hm.other] at hdone
    rw [Side.other_other] at hother
    rcases checksum_runMoves hm.run with ⟨_, hph', _⟩ | ⟨_, hsum⟩
    · exact absurd hph' hother
    · rw [hkey] at hsum
      rw [hsum]
      refine hi.one x.other hdone ?_
      rw [Side.other_other]
      exact not_finished_of_runMoves hm.run _

theorem overlap_both_step (hkey : ∀ x, (jobs x).input.key = k) (hok : OverlapOk s (x, l))
    (hm : OverlapMove jobs s x l s') (hdone : ∀ z, s'.phase z = .finished .completed) :
    ∃ z, s'.db.lastChecksum k = (jobs z).input.checksum ∧ s'.overtaken z = false := by
  have hother := hdone x.other
  rw [hm.other] at hother
  rcases checksum_runMoves hm.run with ⟨hph, _, hsum⟩ | ⟨hnot, _⟩
  · refine ⟨x, by rw [← hkey x, hsum], ?_⟩
    rw [hm.overtaken_self]
    exact hok hph hother
  · exact absurd (hdone x) hnot

theorem overlapInv_step (hkey : ∀ x, (jobs x).input.key = k)
    (hdist : ∀ x, (jobs x).input.Distinct) (hi : OverlapInv jobs k s) (hok : OverlapOk s (x, l))
    (h : Overlap.step jobs s (x, l) = some s') : OverlapInv jobs k s' := by
  have hm := overlapMove_of_step h
  have hrm : RowMove (jobs x).input s.db (s.phase x) s'.db (s'.phase x) :=
    rowMove_of_runMoves (inputOk_of_fromRepo (jobs x).valid (jobs x).fromRepo) (hdist x)
      (hi.shape x) hm.run
  refine ⟨overlap_shape_step hm hi.shape, ?_, ?_, overlap_rows_step hkey hi hm hrm,
    overlap_early_step hi hm, overlap_untouched_step hkey hi hm, overlap_one_step hkey hi hm,
    overlap_both_step hkey hok hm⟩
  · rw [nullCharts_runMoves hm.run]
    exact hi.no_null
  · intro z id hwrote
    rcases x.eq_or_eq_other z with rfl | rfl
    · exact returned_self hrm (hi.returned z id) hwrote
    · rw [hm.other] at hwrote
      exact hi.returned _ id hwrote

end OverlapStep

theorem overlapInv_start {jobs : Side → SyncJob} {k : RepoKey} {db : Database}
    (hnull : db.nullCharts k = [])
    (hstart : ∀ x, db.lastChecksum k = (jobs x).input.checksum → DeepRows (jobs x).input db) :
    OverlapInv jobs k (Overlap.start db) := by
  refine ⟨fun _ => trivial, hnull, ?_, ?_, fun _ _ => rfl, fun _ => ⟨hstart, ?_⟩, ?_, ?_⟩
  · intro x id hwrote
    simp [Overlap.start, wrote] at hwrote
  · intro x id hwrote
    simp [Overlap.start, wrote] at hwrote
  · intro x hx
    simp [Overlap.start] at hx
  · intro x hx
    simp [Overlap.start] at hx
  · intro hx
    have hfirst := hx .first
    simp [Overlap.start] at hfirst

/-- A run that is over, and whose rows nobody overtook. -/
theorem deepRows_of_overlapInv {jobs : Side → SyncJob} {k : RepoKey}
    (hkey : ∀ x, (jobs x).input.key = k) (hdist : ∀ x, (jobs x).input.Distinct) {s : Overlap}
    (hi : OverlapInv jobs k s) {x : Side} (hdone : s.phase x = .finished .completed)
    (hother : ∀ id, settled id (s.phase x.other) = true) (hover : s.overtaken x = false) :
    DeepRows (jobs x).input s.db := by
  have hwrote : ∀ id, wrote id (s.phase x) = true := fun id => by rw [hdone]; rfl
  obtain ⟨cs, hcs⟩ := hi.returned x "" (hwrote "")
  refine ⟨cs, hcs, (rowsAre_iff (hdist x cs hcs)).mpr ⟨?_, fun id => ?_⟩⟩
  · rw [hkey]
    exact hi.no_null
  · rw [hkey, hi.rows x id (hwrote id) (hother id) hover, deep_eq hcs]

/-- **Two runs side by side.** For every two runs of one repository and every order of their
    steps: if the run that stores its checksum last was not overtaken, then when both are over
    the rows are exactly the charts of a run whose checksum is stored. The tables begin with the
    charts of the runs if the checksum of one is stored, and the charts have distinct ids. -/
theorem overlap_consistent (jobs : Side → SyncJob) (k : RepoKey)
    (hkey : ∀ x, (jobs x).input.key = k) (hdist : ∀ x, (jobs x).input.Distinct)
    (db : Database) (hnull : db.nullCharts k = [])
    (hstart : ∀ x, db.lastChecksum k = (jobs x).input.checksum → DeepRows (jobs x).input db)
    (as : List (Side × RunLabel)) (s : Overlap)
    (hmeet : StepsMeet (Overlap.step jobs) OverlapOk (Overlap.start db) as)
    (hrun : runs (Overlap.step jobs) (Overlap.start db) as = some s)
    (hends : ∀ x, s.phase x = .finished .skipped ∨ s.phase x = .finished .completed) :
    ∃ x, s.db.lastChecksum k = (jobs x).input.checksum ∧
      ∃ cs, (jobs x).input.charts false = .ok cs ∧ RowsAre s.db k cs := by
  have hi : OverlapInv jobs k s := runs_invariant_of_meet
    (fun _ _ _ hi hok h => overlapInv_step hkey hdist hi hok h) hmeet hrun
    (overlapInv_start hnull hstart)
  have hshow : ∀ x, DeepRows (jobs x).input s.db →
      ∃ cs, (jobs x).input.charts false = .ok cs ∧ RowsAre s.db k cs := by
    rintro x ⟨cs, hcs, hrows⟩
    exact ⟨cs, hcs, hkey x ▸ hrows⟩
  by_cases hall : ∀ x, s.phase x = .finished .completed
  · obtain ⟨x, hsum, hover⟩ := hi.both hall
    refine ⟨x, hsum, hshow x (deepRows_of_overlapInv hkey hdist hi (hall x) (fun id => ?_) hover)⟩
    rw [hall x.other]
    rfl
  · obtain ⟨y, hy⟩ := not_forall.mp hall
    have hskipped : s.phase y = .finished .skipped := (hends y).resolve_right hy
    rcases hends y.other with hother | hother
    · -- both were skipped
      have hwait : ∀ z, waiting (s.phase z) = true := by
        intro z
        rcases y.eq_or_eq_other z with rfl | rfl
        · rw [hskipped]
          rfl
        · rw [hother]
          rfl
      obtain ⟨hrows, hsum⟩ := hi.untouched hwait
      exact ⟨y, hsum y hskipped, hshow y (hrows y (hsum y hskipped))⟩
    · -- one was skipped, the other completed
      have hover : s.overtaken y.other = false := hi.early y (by rw [hskipped]; rfl)
      have hsum := hi.one y.other hother (by rw [Side.other_other, hskipped]; simp)
      refine ⟨y.other, hsum, hshow _ (deepRows_of_overlapInv hkey hdist hi hother
        (fun id => ?_) hover)⟩
      rw [Side.other_other, hskipped]
      rfl

/-! ## A run that was overtaken -/

section Overtaken

variable {env : FetchEnv} {inp : SyncInput} {db db' : Database} {ph ph' : RunPhase} {l : RunLabel}

/-- The run does not write this row any more. -/
def Past (id : String) (ph : RunPhase) : Prop := wrote id ph = true ∨ ∃ out, ph = .finished out

/-- The run has begun its last writes. -/
def deepening : RunPhase → Bool
  | .syncing _ _ [] => true
  | .fetching _ [] => true
  | .charts [] => true
  | .finished _ => true
  | _ => false

theorem past_runMoves (hin : InputOk inp) (hshape : Shape inp ph)
    (hm : RunMoves env inp db ph l db' ph') {id : String} (h : Past id ph) :
    db'.row inp.key id = db.row inp.key id ∧ Past id ph' := by
  have hwrote : wrote id ph = true := by
    rcases h with h | ⟨out, hout⟩
    · exact h
    · exact absurd hout (not_finished_of_runMoves hm out)
  cases hm with
  | store now => exact ⟨rfl, .inr ⟨_, rfl⟩⟩
  | stmt now cs st sts rest db'' hst =>
      obtain ⟨⟨b, _, hcs⟩, hsuf⟩ := hshape
      cases rest with
      | nil =>
          simp only [wrote, Bool.not_eq_true', decide_eq_false_iff_not] at hwrote
          obtain ⟨ht, hpend⟩ := not_pending_cons hwrote
          have hmem : st ∈ syncStmts cs := hsuf.subset List.mem_cons_self
          refine ⟨(row_of_exec (hin.no_quote b cs hcs) hmem hst id).1 ht, .inl ?_⟩
          simp [wrote, hpend]
      | cons b' rest => simp [wrote] at hwrote
  | stmtErr now cs st sts rest e msg hst => exact ⟨rfl, .inr ⟨_, rfl⟩⟩
  | startFetch now cs rest =>
      cases rest with
      | nil => exact ⟨rfl, .inl rfl⟩
      | cons b rest => simp [wrote] at hwrote
  | fetch l st st' rest db'' hst =>
      cases rest with
      | nil => exact ⟨(frame_fetch hst).2.2 inp.key id, .inl rfl⟩
      | cons b rest => simp [wrote] at hwrote
  | fetched now st rest hret =>
      cases rest with
      | nil => exact ⟨rfl, .inl rfl⟩
      | cons b rest => simp [wrote] at hwrote
  | crashed now st rest hcrash => exact ⟨rfl, .inr ⟨_, rfl⟩⟩
  | _ => simp [wrote] at hwrote

theorem deepening_runMoves (hin : InputOk inp) (hdist : inp.Distinct) (hshape : Shape inp ph)
    (hm : RunMoves env inp db ph l db' ph') (id : String) (h : deepening ph = true) :
    (db'.row inp.key id = db.row inp.key id ∨ db'.row inp.key id = chartOf inp.deep id) ∧
      deepening ph' = true := by
  cases hm with
  | store now => exact ⟨.inl rfl, rfl⟩
  | stmt now cs st sts rest db'' hst =>
      obtain ⟨⟨b, hb, hcs⟩, hsuf⟩ := hshape
      cases rest with
      | nil =>
          rw [eq_false_of_last_pass hb] at hcs
          have hmem : st ∈ syncStmts cs := hsuf.subset List.mem_cons_self
          obtain ⟨hsame, htouch⟩ := row_of_exec (hin.no_quote false cs hcs) hmem hst id
          refine ⟨?_, rfl⟩
          by_cases ht : st.Touches id
          · rw [deep_eq hcs]
            exact .inr (htouch (hdist cs hcs) ht)
          · exact .inl (hsame ht)
      | cons b' rest => simp [deepening] at h
  | stmtErr now cs st sts rest e msg hst => exact ⟨.inl rfl, rfl⟩
  | startFetch now cs rest =>
      cases rest with
      | nil => exact ⟨.inl rfl, rfl⟩
      | cons b rest => simp [deepening] at h
  | fetch l st st' rest db'' hst =>
      cases rest with
      | nil => exact ⟨.inl ((frame_fetch hst).2.2 inp.key id), rfl⟩
      | cons b rest => simp [deepening] at h
  | fetched now st rest hret =>
      cases rest with
      | nil => exact ⟨.inl rfl, rfl⟩
      | cons b rest => simp [deepening] at h
  | crashed now st rest hcrash => exact ⟨.inl rfl, rfl⟩
  | _ => simp [deepening] at h

/-- An overtaking step leaves the row of the run that makes it. -/
theorem row_of_overtakes (hin : InputOk inp) (hdist : inp.Distinct) (hshape : Shape inp ph)
    {theirs : List Chart} {theirPhase : RunPhase} (hm : RunMoves env inp db ph l db' ph')
    (h : overtakes theirs ph ph' theirPhase = true) :
    deepening ph' = true ∧ ∃ id, wrote id theirPhase = true ∧
      chartOf inp.deep id ≠ chartOf theirs id ∧ db'.row inp.key id = chartOf inp.deep id := by
  cases hm with
  | stmt now cs st sts rest db'' hst =>
      obtain ⟨⟨b, hb, hcs⟩, hsuf⟩ := hshape
      cases rest with
      | nil =>
          rw [eq_false_of_last_pass hb] at hcs
          simp only [overtakes, List.any_eq_true, Bool.and_eq_true, decide_eq_true_eq] at h
          obtain ⟨id, _, ⟨ht, hwrote⟩, hne⟩ := h
          have hmem : st ∈ syncStmts cs := hsuf.subset List.mem_cons_self
          have hrow := (row_of_exec (hin.no_quote false cs hcs) hmem hst id).2 (hdist cs hcs) ht
          rw [deep_eq hcs]
          exact ⟨rfl, id, hwrote, hne, hrow⟩
      | cons b' rest => simp [overtakes] at h
  | _ => simp [overtakes] at h

end Overtaken

/-- Some row that an overtaken run does not write any more is as the other run has it. -/
def Lost (jobs : Side → SyncJob) (k : RepoKey) (s : Overlap) (x : Side) : Prop :=
  deepening (s.phase x.other) = true ∧ ∃ id, Past id (s.phase x) ∧
    chartOf (jobs x.other).input.deep id ≠ chartOf (jobs x).input.deep id ∧
    s.db.row k id = chartOf (jobs x.other).input.deep id

theorem lost_step {jobs : Side → SyncJob} {k : RepoKey} (hkey : ∀ x, (jobs x).input.key = k)
    (hdist : ∀ x, (jobs x).input.Distinct) {s s' : Overlap} {x : Side} {l : RunLabel}
    (hshape : ∀ x, Shape (jobs x).input (s.phase x))
    (hi : ∀ x, s.overtaken x = true → Lost jobs k s x) (hm : OverlapMove jobs s x l s') (z : Side)
    (hover : s'.overtaken z = true) : Lost jobs k s' z := by
  have hin : ∀ y, InputOk (jobs y).input := fun y =>
    inputOk_of_fromRepo (jobs y).valid (jobs y).fromRepo
  unfold Lost
  rcases x.eq_or_eq_other z with rfl | rfl
  · -- the run that was overtaken moves
    rw [hm.overtaken_self] at hover
    obtain ⟨hdeep, id, hpast, hne, hrow⟩ := hi z hover
    obtain ⟨hsame, hpast'⟩ := past_runMoves (hin z) (hshape z) hm.run hpast
    rw [hkey] at hsame
    rw [hm.other]
    exact ⟨hdeep, id, hpast', hne, hsame.trans hrow⟩
  · rw [hm.overtaken_other, Bool.or_eq_true] at hover
    rw [hm.other, Side.other_other]
    rcases hover with hover | hover
    · -- the other run goes on
      obtain ⟨hdeep, id, hpast, hne, hrow⟩ := hi x.other hover
      rw [Side.other_other] at hdeep hne hrow
      obtain ⟨hrow', hdeep'⟩ := deepening_runMoves (hin x) (hdist x) (hshape x) hm.run id hdeep
      rw [hkey] at hrow'
      refine ⟨hdeep', id, hpast, hne, ?_⟩
      rcases hrow' with hsame | hown
      · exact hsame.trans hrow
      · exact hown
    · -- the step that overtakes
      obtain ⟨hdeep', id, hwrote, hne, hrow⟩ :=
        row_of_overtakes (hin x) (hdist x) (hshape x) hm.run hover
      rw [hkey] at hrow
      exact ⟨hdeep', id, .inl hwrote, hne, hrow⟩

/-- What holds of an overtaken run in every order of the steps. -/
structure LostInv (jobs : Side → SyncJob) (k : RepoKey) (s : Overlap) : Prop where
  shape : ∀ x, Shape (jobs x).input (s.phase x)
  lost : ∀ x, s.overtaken x = true → Lost jobs k s x

/-- The condition is exact: in every order of the steps, a run that was overtaken does not have
    its charts in the rows. -/
theorem overtaken_rows {jobs : Side → SyncJob} {k : RepoKey}
    (hkey : ∀ x, (jobs x).input.key = k) (hdist : ∀ x, (jobs x).input.Distinct) {db : Database}
    {as : List (Side × RunLabel)} {s : Overlap}
    (hrun : runs (Overlap.step jobs) (Overlap.start db) as = some s) {x : Side}
    (hover : s.overtaken x = true) : ¬ DeepRows (jobs x).input s.db := by
  have hstart : LostInv jobs k (Overlap.start db) :=
    ⟨fun _ => trivial, fun x hx => by simp [Overlap.start] at hx⟩
  have hinv : LostInv jobs k s := by
    refine runs_invariant (fun s a s' hi h => ?_) hrun hstart
    have hm := overlapMove_of_step h
    exact ⟨overlap_shape_step hm hi.shape, lost_step hkey hdist hi.shape hi.lost hm⟩
  obtain ⟨_, id, _, hne, hrow⟩ := hinv.lost x hover
  rintro ⟨cs, hcs, hrows⟩
  have hall := ((rowsAre_iff (hdist x cs hcs)).mp hrows).2 id
  rw [hkey, hrow] at hall
  rw [deep_eq hcs] at hne
  exact hne hall

/-! ## Two indexes -/

/-- An index with `nginx` and one with `redis`. -/
def oneChart : Side → List String
  | .first => ["nginx"]
  | .second => ["redis"]

def oneChartSha256 : Side → String
  | .first => "b5bb9d8014a0f9b1"
  | .second => "7d865e959b246691"

/-- The runs that downloaded them. -/
def oneChartJobs (x : Side) : SyncJob where
  env := plainFetch
  input := helmInput (namedEnv oneChart oneChartSha256) ⟨x, bitnami, none⟩
  valid := validName_bitnami
  fromRepo := .helm _ _

/-- Both passes of a first run, without the reading and the storing of the checksum. -/
def bothPasses (x : Side) : List (Side × RunLabel) :=
  (passOne downloaded ++ passOne []).map fun l => (x, l)

/-- Both runs read the checksum, make their passes one after the other, and store their
    checksums in this order. -/
def oneChartSchedule (stores : List Side) : List (Side × RunLabel) :=
  [(.first, .next ""), (.second, .next "")] ++ bothPasses .first ++ bothPasses .second ++
    stores.map fun x => (x, .next "2023-01-01")

def oneChartResult (s : Overlap) : (RunPhase × RunPhase) × String × Option Chart × Option Chart :=
  ((s.phase .first, s.phase .second), s.db.lastChecksum (repoKey bitnami),
    s.db.row (repoKey bitnami) "bitnami/nginx", s.db.row (repoKey bitnami) "bitnami/redis")

theorem oneChartSchedule_ends (stores : List Side) (last : Side)
    (h : (runs (Overlap.step oneChartJobs) (Overlap.start Database.empty)
      (oneChartSchedule stores)).map oneChartResult =
        some ((.finished .completed, .finished .completed), oneChartSha256 last, none,
          some (namedChart bitnami "redis"))) :
    ∃ s, runs (Overlap.step oneChartJobs) (Overlap.start Database.empty)
        (oneChartSchedule stores) = some s ∧ (∀ x, s.phase x = .finished .completed) ∧
      s.db.lastChecksum (repoKey bitnami) = oneChartSha256 last ∧
      s.db.row (repoKey bitnami) "bitnami/nginx" = none := by
  obtain ⟨s, hrun, hs⟩ := Option.map_eq_some_iff.mp h
  simp only [oneChartResult, Prod.mk.injEq] at hs
  obtain ⟨⟨hfirst, hsecond⟩, hlast, hnginx, _⟩ := hs
  refine ⟨s, hrun, fun x => ?_, hlast, hnginx⟩
  cases x with
  | first => exact hfirst
  | second => exact hsecond

theorem overlap_consistent_in_order :
    ∃ s, runs (Overlap.step oneChartJobs) (Overlap.start Database.empty)
        (oneChartSchedule [.first, .second]) = some s ∧
      s.db.lastChecksum (repoKey bitnami) = oneChartSha256 .second ∧
      ∃ x, s.db.lastChecksum (repoKey bitnami) = oneChartSha256 x ∧
        ∃ cs, (oneChartJobs x).input.charts false = .ok cs ∧ RowsAre s.db (repoKey bitnami) cs := by
  obtain ⟨s, hrun, hdone, hlast, _⟩ :=
    oneChartSchedule_ends [.first, .second] .second (by decide +kernel)
  have hcheck : ∀ s a, decide (OverlapOk s a) = true → OverlapOk s a :=
    fun _ _ => of_decide_eq_true
  have hdist : ∀ x, (oneChartJobs x).input.Distinct := by
    intro x
    cases x with
    | first => decide +kernel
    | second => decide +kernel
  have hne : ∀ x, oneChartSha256 x ≠ "" := by
    intro x
    cases x <;> decide
  refine ⟨s, hrun, hlast, overlap_consistent oneChartJobs (repoKey bitnami) (fun _ => rfl) hdist
    Database.empty rfl (fun x hx => absurd hx.symm (hne x)) _ s
    (stepsMeet_of_meets hcheck (by decide +kernel)) hrun (fun x => .inr (hdone x))⟩

/-- The first run stores its checksum last, when the rows are those of the second. -/
theorem overlap_mixes_indexes :
    ∃ s, runs (Overlap.step oneChartJobs) (Overlap.start Database.empty)
        (oneChartSchedule [.second, .first]) = some s ∧
      (∀ x, s.phase x = .finished .completed) ∧
      s.db.lastChecksum (repoKey bitnami) = oneChartSha256 .first ∧
      ¬ ∃ x, s.db.lastChecksum (repoKey bitnami) = oneChartSha256 x ∧
        ∃ cs, (oneChartJobs x).input.charts false = .ok cs ∧ RowsAre s.db (repoKey bitnami) cs := by
  obtain ⟨s, hrun, hdone, hlast, hnginx⟩ :=
    oneChartSchedule_ends [.second, .first] .first (by decide +kernel)
  refine ⟨s, hrun, hdone, hlast, ?_⟩
  rintro ⟨x, hsum, cs, hcs, hrows⟩
  have hx : x = .first := by
    cases x with
    | first => rfl
    | second =>
        rw [hlast] at hsum
        exact absurd hsum (by decide)
  subst hx
  have hcharts : (oneChartJobs .first).input.charts false =
      .ok [namedChart bitnami "nginx"] := by decide +kernel
  have heq := Except.ok.inj (hcharts.symm.trans hcs)
  have hrow := hrows.rows (namedChart bitnami "nginx") (by simp [← heq])
  rw [show (namedChart bitnami "nginx").id = "bitnami/nginx" from by decide, hnginx] at hrow
  simp at hrow

end Kubeapps.Syncer
