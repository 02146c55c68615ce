/-
  Runs of the sync job one after the other.

  A `World` is the tables and the run in progress, or the last one. `World.step` begins a run
  when none is in progress, or does one step of it. `stored` remembers, for each repository, the
  run that stored its checksum.

  `rows_are_current_charts`: what a run leaves are the charts of its own index and filter rule, as
  long as every run on the index whose checksum is stored keeps the charts of the run that
  stored it, and no run stops between its first write and the new checksum. The job compares the
  checksum of the index only, so a new filter rule on the same index is not noticed
  (`filter_change_is_skipped`).
-/
import Kubeapps.Syncer.Run

namespace Kubeapps.Syncer

open Kubeapps.Lib Kubeapps.Models Kubeapps.Helm

universe u

/-! ## Worlds -/

section World

variable {ι : Type u}

/-- The tables, the run in progress or the last one, and who stored what. -/
structure World (ι : Type u) where
  db : Database
  current : Option (ι × RunPhase)
  stored : RepoKey → Option ι

inductive WorldLabel (ι : Type u) where
  | begin (i : ι)
  | run (l : RunLabel)

/-- No run is in progress. -/
def World.idle (w : World ι) : Bool :=
  match w.current with
  | none => true
  | some (_, .finished _) => true
  | some _ => false

/-- The start of a run, or a step of the run in progress. -/
def World.step (env : ι → FetchEnv) (input : ι → SyncInput) (w : World ι) :
    WorldLabel ι → Option (World ι)
  | .begin i => if w.idle then some { w with current := some (i, .lastChecksum) } else none
  | .run l =>
      match w.current with
      | none => none
      | some (i, ph) =>
          (runStep (env i) (input i) (w.db, ph) l).map fun (db, ph') =>
            { db := db
              current := some (i, ph')
              stored := if ph' = .finished .completed then
                Function.update w.stored (input i).key (some i) else w.stored }

/-- Before the first run. -/
def World.start (db : Database) : World ι := ⟨db, none, fun _ => none⟩

variable {env : ι → FetchEnv} {input : ι → SyncInput} {w w' : World ι} {l : WorldLabel ι}

/-- The two kinds of steps. -/
theorem world_step_cases (h : World.step env input w l = some w') :
    (∃ i, l = .begin i ∧ w.idle = true ∧ w' = { w with current := some (i, .lastChecksum) }) ∨
      ∃ i ph rl db' ph', l = .run rl ∧ w.current = some (i, ph) ∧
        RunMoves (env i) (input i) w.db ph rl db' ph' ∧
        w' = ⟨db', some (i, ph'), if ph' = .finished .completed then
          Function.update w.stored (input i).key (some i) else w.stored⟩ := by
  unfold World.step at h
  cases l with
  | begin i =>
      simp only [Option.ite_none_right_eq_some] at h
      exact .inl ⟨i, rfl, h.1, (Option.some.inj h.2).symm⟩
  | run rl =>
      dsimp only at h
      split at h
      · simp at h
      · rename_i i ph hcur
        obtain ⟨⟨db', ph'⟩, hstep, heq⟩ := Option.map_eq_some_iff.mp h
        exact .inr ⟨i, ph, rl, db', ph', rfl, hcur, moves_of_runStep hstep, heq.symm⟩

/-- A run that finds its checksum stored changes nothing. -/
theorem runs_skipped {i : ι} (hidle : w.idle = true)
    (hlast : w.db.lastChecksum (input i).key = (input i).checksum) (now : String) :
    runs (World.step env input) w [.begin i, .run (.next now)] =
      some ⟨w.db, some (i, .finished .skipped), w.stored⟩ := by
  refine runs_cons_eq_some.2 ⟨{ w with current := some (i, .lastChecksum) }, ?_, ?_⟩
  · simp [World.step, hidle]
  · simp [runs, World.step, runStep, hlast]

end World

/-! ## Runs of one repository -/

/-- The second run has the charts of the first. -/
def SameCharts (a b : SyncInput) : Prop :=
  ∀ cs, a.charts false = .ok cs → ∃ cs', b.charts false = .ok cs' ∧ ∀ c, c ∈ cs' ↔ c ∈ cs

instance (a b : SyncInput) : Decidable (SameCharts a b) :=
  match ha : a.charts false, hb : b.charts false with
  | .ok cs, .ok cs' =>
      decidable_of_iff ((∀ c ∈ cs', c ∈ cs) ∧ ∀ c ∈ cs, c ∈ cs')
        (by simp [SameCharts, ha, hb, iff_def, forall_and])
  | .ok cs, .error f => .isFalse (by simp [SameCharts, ha, hb])
  | .error f, _ => .isTrue (by simp [SameCharts, ha])

theorem deepRows_of_sameCharts {a b : SyncInput} (hkey : a.key = b.key) (h : SameCharts a b)
    {db : Database} (hr : DeepRows a db) : DeepRows b db := by
  obtain ⟨cs, hcs, hrows⟩ := hr
  obtain ⟨cs', hcs', hsame⟩ := h cs hcs
  exact ⟨cs', hcs', hkey ▸ rowsAre_congr hsame hrows⟩

section OneRepository

variable {ι : Type u} (env : ι → FetchEnv) (input : ι → SyncInput) (k : RepoKey)

/-- Nothing is stored, or the rows are the charts of the run that stored the checksum. -/
def Settled (stored : Option ι) (db : Database) : Prop :=
  db.lastChecksum k = "" ∨
    ∃ i, stored = some i ∧ db.lastChecksum k = (input i).checksum ∧ DeepRows (input i) db

/-- A run may begin: its charts have distinct ids, and if it finds its checksum stored, it has
    the charts of the run that stored it. -/
def MayBegin (w : World ι) (i : ι) : Prop :=
  (input i).Distinct ∧ ∀ i', w.stored k = some i' → (input i').checksum = (input i).checksum →
    SameCharts (input i') (input i)

/-- A step of the history meets this. -/
def RowsOk (w : World ι) : WorldLabel ι → Prop
  | .begin i => MayBegin input k w i
  | .run l => ∀ run ∈ w.current, deepWritten (env run.1) (input run.1) w.db run.2 l = true

/-- The invariant of a history. -/
structure RowsInv (w : World ι) : Prop where
  no_null : w.db.nullCharts k = []
  settled : w.idle = true → Settled input k (w.stored k) w.db
  run : ∀ i ph, w.current = some (i, ph) → Shape (input i) ph ∧
    RunInv (input i) (Settled input k (w.stored k)) w.db ph
  begun : w.idle = false → ∀ i ph, w.current = some (i, ph) → MayBegin input k w i
  result : ∀ i out, w.current = some (i, .finished out) → out = .skipped ∨ out = .completed →
    DeepRows (input i) w.db

variable {env input k}

theorem settled_ensureRepoExists {stored : Option ι} {db : Database} {k' : RepoKey}
    (h : Settled input k stored db) : Settled input k stored (db.ensureRepoExists k') := by
  rcases h with h | ⟨i, hi, hsum, cs, hcs, hrows⟩
  · exact .inl (by simpa using h)
  · refine .inr ⟨i, hi, by simpa using hsum, cs, hcs, ?_⟩
    refine rowsAre_of_row_eq (by simp) (fun id => ?_) hrows
    simp [Database.row]

/-- The rows of the last run, once it is over. -/
theorem settled_of_runInv {stored : Option ι} {db : Database} {i : ι} {out : Outcome}
    (hne : out ≠ .completed)
    (h : RunInv (input i) (Settled input k stored) db (.finished out)) :
    Settled input k stored db := by
  cases out with
  | skipped => exact h.1
  | completed => exact absurd rfl hne
  | fatal msg => exact h
  | panicked => exact h

theorem idle_of_current {w : World ι} {i : ι} {ph : RunPhase} (h : w.current = some (i, ph)) :
    w.idle = true ↔ ∃ out, ph = .finished out := by
  unfold World.idle
  rw [h]
  cases ph <;> simp

/-- A run that ends well leaves its own charts: it wrote them, or they are those of the run that
    stored the same checksum. -/
theorem deepRows_of_runInv (hkey : ∀ i, (input i).key = k) {w : World ι} {i : ι} {db : Database}
    {out : Outcome} (hsum : (input i).checksum ≠ "") (hbegun : MayBegin input k w i)
    (hout : out = .skipped ∨ out = .completed)
    (h : RunInv (input i) (Settled input k (w.stored k)) db (.finished out)) :
    DeepRows (input i) db := by
  rcases hout with rfl | rfl
  · obtain ⟨hsettled, hlast⟩ := h
    rw [hkey] at hlast
    rcases hsettled with hnone | ⟨i', hi', hsum', hrows⟩
    · exact absurd (hlast.symm.trans hnone) hsum
    · have hsame := hbegun.2 i' hi' (hsum'.symm.trans hlast)
      exact deepRows_of_sameCharts ((hkey i').trans (hkey i).symm) hsame hrows
  · exact h.1

theorem rowsInv_step (hkey : ∀ i, (input i).key = k) (hin : ∀ i, InputOk (input i))
    (hsums : ∀ i, (input i).checksum ≠ "") {w w' : World ι} {l : WorldLabel ι}
    (hi : RowsInv input k w) (hok : RowsOk env input k w l)
    (h : World.step env input w l = some w') : RowsInv input k w' := by
  rcases world_step_cases h with ⟨i, rfl, hidle, rfl⟩ | ⟨i, ph, rl, db', ph', rfl, hcur, hm, rfl⟩
  · refine ⟨hi.no_null, fun hidle' => ?_, fun i' ph hcur => ?_, fun _ i' ph hcur => ?_,
      fun i' out hcur => ?_⟩
    · simp [World.idle] at hidle'
    · obtain ⟨rfl, rfl⟩ := Prod.mk.inj (Option.some.inj hcur)
      exact ⟨trivial, hi.settled hidle⟩
    · obtain ⟨rfl, rfl⟩ := Prod.mk.inj (Option.some.inj hcur)
      exact hok
    · simp at hcur
  · have hactive : w.idle = false := by
      rw [← Bool.not_eq_true, idle_of_current hcur]
      rintro ⟨out, hout⟩
      exact not_finished_of_runMoves hm out hout
    have hbegun := hi.begun hactive i ph hcur
    obtain ⟨hshape, hinv⟩ := hi.run i ph hcur
    have hnull : w.db.nullCharts (input i).key = [] := by rw [hkey, hi.no_null]
    have hinv' : RunInv (input i) (Settled input k (w.stored k)) db' ph' := by
      refine runInv_step (fun d hd => .inl ?_) (fun d hd => settled_ensureRepoExists hd) (hin i)
        hbegun.1 hnull (hok (i, ph) hcur) hm hshape hinv
      rw [← hkey i, hd]
    have hnull' : db'.nullCharts k = [] := by rw [nullCharts_runMoves hm, hi.no_null]
    have hresult : ∀ i' out, some (i, ph') = some (i', RunPhase.finished out) →
        out = .skipped ∨ out = .completed → DeepRows (input i') db' := by
      intro i' out hcur' hout
      obtain ⟨rfl, rfl⟩ := Prod.mk.inj (Option.some.inj hcur')
      exact deepRows_of_runInv hkey (hsums i) hbegun hout hinv'
    by_cases hdone : ph' = .finished .completed
    · -- the run has stored its checksum
      subst hdone
      obtain ⟨hrows, hsum⟩ := hinv'
      refine ⟨hnull', fun _ => ?_, fun i' ph hcur' => ?_, fun hidle => ?_, hresult⟩
      · refine .inr ⟨i, by simp [hkey], ?_, hrows⟩
        rw [← hkey i, hsum]
      · obtain ⟨rfl, rfl⟩ := Prod.mk.inj (Option.some.inj hcur')
        exact ⟨trivial, hrows, hsum⟩
      · simp [World.idle] at hidle
    · rw [if_neg hdone]
      refine ⟨hnull', fun hidle => ?_, fun i' ph hcur' => ?_, fun _ i' ph hcur' => ?_, hresult⟩
      · obtain ⟨out, rfl⟩ := (idle_of_current rfl).mp hidle
        exact settled_of_runInv (fun hout => hdone (by rw [hout])) hinv'
      · obtain ⟨rfl, rfl⟩ := Prod.mk.inj (Option.some.inj hcur')
        exact ⟨shape_step hm hshape, hinv'⟩
      · obtain ⟨rfl, rfl⟩ := Prod.mk.inj (Option.some.inj hcur')
        exact hbegun

theorem rowsInv_runs (hkey : ∀ i, (input i).key = k) (hin : ∀ i, InputOk (input i))
    (hsums : ∀ i, (input i).checksum ≠ "") {db : Database} (hnone : db.lastChecksum k = "")
    (hnull : db.nullCharts k = []) {as : List (WorldLabel ι)} {w : World ι}
    (hmeet : StepsMeet (World.step env input) (RowsOk env input k) (World.start db) as)
    (hrun : runs (World.step env input) (World.start db) as = some w) : RowsInv input k w := by
  have hstart : RowsInv input k (World.start db) := by
    refine ⟨hnull, fun _ => .inl hnone, ?_, ?_, ?_⟩
    · intro i ph hcur
      simp [World.start] at hcur
    · intro hidle
      simp [World.idle, World.start] at hidle
    · intro i out hcur
      simp [World.start] at hcur
  exact runs_invariant_of_meet (fun _ _ _ hi hok h => rowsInv_step hkey hin hsums hi hok h)
    hmeet hrun hstart

end OneRepository

/-! ## A Helm repository whose index and filter rule change -/

section Helm

variable {β : Type}

/-- What a run of a Helm repository finds: the index, the filter rule, and the choices of the
    runtime. -/
structure HelmRun (β : Type) where
  rt : Runtime
  content : β
  filter : Option FilterRuleSpec

/-- The repository of the run. -/
def HelmRun.repo (r : RepoInternal) (i : HelmRun β) : HelmRepo β := ⟨i.content, r, i.filter⟩

def HelmRun.indexEnv (lib : IndexLib β) (jq : Gojq) (getSha256 : β → String) (i : HelmRun β) :
    IndexEnv β := ⟨i.rt, lib, jq, getSha256⟩

/-- The input of the run. -/
def HelmRun.input (lib : IndexLib β) (jq : Gojq) (getSha256 : β → String) (r : RepoInternal)
    (i : HelmRun β) : SyncInput := helmInput (i.indexEnv lib jq getSha256) (i.repo r)

/-- When a history keeps the rows current. A run on the index of the run that stored the checksum
    has the charts of that run; the charts of a run have distinct ids; while a checksum is stored,
    in a pass over all versions no fetch panics and no chart has U+0000. -/
def CurrentOk (env : FetchEnv) (lib : IndexLib β) (jq : Gojq) (getSha256 : β → String)
    (r : RepoInternal) (w : World (HelmRun β)) : WorldLabel (HelmRun β) → Prop
  | .begin i => (i.input lib jq getSha256 r).Distinct ∧
      ∀ i' ∈ w.stored (repoKey r), i'.content = i.content →
        SameCharts (i'.input lib jq getSha256 r) (i.input lib jq getSha256 r)
  | .run l => ∀ run ∈ w.current,
      deepWritten env (run.1.input lib jq getSha256 r) w.db run.2 l = true

instance [DecidableEq β] (env : FetchEnv) (lib : IndexLib β) (jq : Gojq) (getSha256 : β → String)
    (r : RepoInternal) (w : World (HelmRun β)) (l : WorldLabel (HelmRun β)) :
    Decidable (CurrentOk env lib jq getSha256 r w l) :=
  match l with
  | .begin i => inferInstanceAs (Decidable ((i.input lib jq getSha256 r).Distinct ∧
      ∀ i' ∈ w.stored (repoKey r), i'.content = i.content →
        SameCharts (i'.input lib jq getSha256 r) (i.input lib jq getSha256 r)))
  | .run l => inferInstanceAs (Decidable (∀ run ∈ w.current,
      deepWritten env (run.1.input lib jq getSha256 r) w.db run.2 l = true))

/-- **The rows are the charts of the current index and filter rule.** In every history of runs of
    one Helm repository, from tables that have nothing stored for it: if every run that finds
    the index whose checksum is stored has a filter rule that keeps the same charts, and while a
    checksum is stored no pass over all versions is cut short by a chart with U+0000 or by a panic,
    then after each run that completes or is skipped the rows are exactly the charts of that run. -/
theorem rows_are_current_charts (env : FetchEnv) (lib : IndexLib β) (jq : Gojq)
    (getSha256 : β → String) (hinj : Function.Injective getSha256)
    (hne : ∀ content, getSha256 content ≠ "") (r : RepoInternal) (hname : ValidName r.name)
    (db : Database) (hnone : db.lastChecksum (repoKey r) = "")
    (hnull : db.nullCharts (repoKey r) = [])
    (as : List (WorldLabel (HelmRun β))) (w : World (HelmRun β))
    (hmeet : StepsMeet (World.step (fun _ => env) (HelmRun.input lib jq getSha256 r))
      (CurrentOk env lib jq getSha256 r) (World.start db) as)
    (hrun : runs (World.step (fun _ => env) (HelmRun.input lib jq getSha256 r))
      (World.start db) as = some w)
    (i : HelmRun β) (out : Outcome) (hcur : w.current = some (i, .finished out))
    (hout : out = .skipped ∨ out = .completed) :
    ∃ cs, (i.repo r).charts (i.indexEnv lib jq getSha256) false = .ok cs ∧
      RowsAre w.db (repoKey r) cs := by
  have hmeet' : StepsMeet (World.step (fun _ => env) (HelmRun.input lib jq getSha256 r))
      (RowsOk (fun _ => env) (HelmRun.input lib jq getSha256 r) (repoKey r)) (World.start db)
      as := by
    refine stepsMeet_mono (fun w l hok => ?_) hmeet
    cases l with
    | begin i => exact ⟨hok.1, fun i' hi' hsum => hok.2 i' hi' (hinj hsum)⟩
    | run l => exact hok
  have hin : ∀ i : HelmRun β, InputOk (i.input lib jq getSha256 r) := fun i =>
    inputOk_helm (i.indexEnv lib jq getSha256) hname
  have hsums : ∀ i : HelmRun β, (i.input lib jq getSha256 r).checksum ≠ "" := fun i =>
    hne i.content
  have hkey : ∀ i : HelmRun β, (i.input lib jq getSha256 r).key = repoKey r := fun _ => rfl
  have hinv := rowsInv_runs hkey hin hsums hnone hnull hmeet' hrun
  exact hinv.result i out hcur hout

end Helm

/-! ## A filter rule that changes -/

/-- Two indexes. -/
def catalog : Bool → List String
  | true => ["nginx", "redis"]
  | false => ["nginx"]

def catalogSha256 : Bool → String
  | true => "b5bb9d8014a0f9b1"
  | false => "7d865e959b246691"

def catalogEnv : IndexEnv Bool := namedEnv catalog catalogSha256

def catalogInput : HelmRun Bool → SyncInput :=
  HelmRun.input catalogEnv.lib catalogEnv.jq catalogSha256 bitnami

/-- The step function of histories of this repository. -/
def catalogStep : World (HelmRun Bool) → WorldLabel (HelmRun Bool) →
    Option (World (HelmRun Bool)) := World.step (fun _ => plainFetch) catalogInput

/-- A run on the first index that keeps `nginx` only. -/
def filteredRun : HelmRun Bool := ⟨Runtime.stable, true, some (nameRule "nginx")⟩

/-- A run on the same index without a rule. -/
def unfilteredRun : HelmRun Bool := ⟨Runtime.stable, true, none⟩

/-- The first run, with every fetch answered. -/
def filteredHistory : List (WorldLabel (HelmRun Bool)) :=
  .begin filteredRun :: (runOne downloaded []).map .run

theorem filteredHistory_ends : ∃ w, runs catalogStep (World.start Database.empty) filteredHistory =
    some w ∧ w.idle = true ∧ w.db.lastChecksum (repoKey bitnami) = catalogSha256 true ∧
    w.db.row (repoKey bitnami) "bitnami/redis" = none := by
  have heval : (runs catalogStep (World.start Database.empty) filteredHistory).map (fun w =>
      (w.idle, w.db.lastChecksum (repoKey bitnami),
        w.db.row (repoKey bitnami) "bitnami/redis")) =
      some (true, catalogSha256 true, none) := by
    decide +kernel
  obtain ⟨w, hrun, hw⟩ := Option.map_eq_some_iff.mp heval
  simp only [Prod.mk.injEq] at hw
  exact ⟨w, hrun, hw.1, hw.2.1, hw.2.2⟩

/-- The history of both runs. -/
def catalogHistory (second : HelmRun Bool) : List (WorldLabel (HelmRun Bool)) :=
  filteredHistory ++ [.begin second, .run (.next "")]

/-- A second run on the first index is skipped. -/
theorem catalogHistory_ends (second : HelmRun Bool) (hcontent : second.content = true) :
    ∃ w, runs catalogStep (World.start Database.empty) (catalogHistory second) = some w ∧
      w.current = some (second, .finished .skipped) ∧
      w.db.row (repoKey bitnami) "bitnami/redis" = none := by
  obtain ⟨w, hrun, hidle, hlast, hredis⟩ := filteredHistory_ends
  have hsum : w.db.lastChecksum (catalogInput second).key = (catalogInput second).checksum := by
    rw [show (catalogInput second).checksum = catalogSha256 second.content from rfl, hcontent]
    exact hlast
  exact ⟨⟨w.db, some (second, .finished .skipped), w.stored⟩,
    runs_append_eq_some.2 ⟨w, hrun, runs_skipped hidle hsum ""⟩, rfl, hredis⟩

theorem rows_are_current_charts_filtered :
    ∃ w, runs catalogStep (World.start Database.empty) (catalogHistory filteredRun) = some w ∧
      w.current = some (filteredRun, .finished .skipped) ∧
      ∃ cs, (filteredRun.repo bitnami).charts catalogEnv false = .ok cs ∧
        RowsAre w.db (repoKey bitnami) cs := by
  obtain ⟨w, hrun, hcur, _⟩ := catalogHistory_ends filteredRun rfl
  have hinj : Function.Injective catalogSha256 := by
    intro a b hab
    revert a b
    decide
  have hne : ∀ content, catalogSha256 content ≠ "" := by decide
  have hcheck : ∀ w l, decide (CurrentOk plainFetch catalogEnv.lib catalogEnv.jq catalogSha256
      bitnami w l) = true → CurrentOk plainFetch catalogEnv.lib catalogEnv.jq catalogSha256
      bitnami w l := fun _ _ => of_decide_eq_true
  have hmeet : StepsMeet catalogStep (CurrentOk plainFetch catalogEnv.lib catalogEnv.jq
      catalogSha256 bitnami) (World.start Database.empty) (catalogHistory filteredRun) :=
    stepsMeet_of_meets hcheck (by decide +kernel)
  exact ⟨w, hrun, hcur, rows_are_current_charts plainFetch catalogEnv.lib catalogEnv.jq
    catalogSha256 hinj hne bitnami validName_bitnami Database.empty rfl rfl _ w hmeet hrun
    filteredRun .skipped hcur (.inl rfl)⟩

/-- A rule that is dropped between two runs on one index is not noticed: the second run is
    skipped and `redis` is missing, though every fetch succeeded. -/
theorem filter_change_is_skipped :
    ∃ w, runs catalogStep (World.start Database.empty) (catalogHistory unfilteredRun) = some w ∧
      meets catalogStep (fun w l => match l with
        | .begin _ => true
        | .run l => decide (∀ run ∈ w.current,
            deepFetched plainFetch (catalogInput run.1) run.2 l = true))
        (World.start Database.empty) (catalogHistory unfilteredRun) = true ∧
      w.current = some (unfilteredRun, .finished .skipped) ∧
      (unfilteredRun.repo bitnami).charts catalogEnv false =
        .ok [namedChart bitnami "nginx", namedChart bitnami "redis"] ∧
      ¬ ∃ cs, (unfilteredRun.repo bitnami).charts catalogEnv false = .ok cs ∧
        RowsAre w.db (repoKey bitnami) cs := by
  obtain ⟨w, hrun, hcur, hredis⟩ := catalogHistory_ends unfilteredRun rfl
  have hcharts : (unfilteredRun.repo bitnami).charts catalogEnv false =
      .ok [namedChart bitnami "nginx", namedChart bitnami "redis"] := by
    decide +kernel
  refine ⟨w, hrun, by decide +kernel, hcur, hcharts, ?_⟩
  rintro ⟨cs, hcs, hrows⟩
  have heq := Except.ok.inj (hcharts.symm.trans hcs)
  have hrow := hrows.rows (namedChart bitnami "redis") (by simp [← heq])
  have hid : (namedChart bitnami "redis").id = "bitnami/redis" := by decide
  rw [hid, hredis] at hrow
  simp at hrow

end Kubeapps.Syncer
