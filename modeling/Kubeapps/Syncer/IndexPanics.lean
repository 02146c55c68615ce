/-
  A run of the sync job on an index that it does not check (cmd/asset-syncer/utils.go: fetchFiles,
  chartTarballURL; pkg/helm/index.go: ChartsFromIndex).

  A panic, in the main goroutine or in a worker, ends the process. `panicked_step` says which
  steps panic: making the charts of an index with an empty entry or with an element that is not a
  version with metadata, the turn of a worker to the files of a version without a URL, and an icon
  on which the image libraries panic. For such an index there are no charts at all; for such a
  version or icon the charts that are still on the channel are lost.

  `run_never_panics_iff` has the rest too: a run is bounded, and until it is over some party can
  move.
-/
import Kubeapps.Helm.IndexCharts
import Kubeapps.Syncer.ImportJobs

namespace Kubeapps.Syncer

open Kubeapps.Lib Kubeapps.Models Kubeapps.Helm

variable {β : Type}

/-! ## What panics -/

/-- No entry is empty, and every element is a version with metadata. -/
def GoodEntries (index : IndexFile) : Prop := ∀ e ∈ index.entries, e.2 ≠ [] ∧ Described e.2

theorem panics_helmCharts {env : IndexEnv β} {older : String → String → Prop} {r : HelmRepo β}
    {index : IndexFile} (hlib : SortsEntries env.lib older)
    (hparse : env.lib.unmarshal r.content = .ok index) (fetchLatestOnly : Bool) :
    Panics (r.charts env fetchLatestOnly) ↔ ¬ GoodEntries index := by
  unfold GoodEntries
  rw [← panics_chartsFromIndex (r := r.internal.repo) hlib hparse env.rt fetchLatestOnly]
  unfold HelmRepo.charts
  cases chartsFromIndex env.rt env.lib r.content r.internal.repo fetchLatestOnly with
  | error f => exact Iff.rfl
  | ok charts =>
      refine iff_of_false ?_ (not_panics_ok charts)
      show ¬ Panics (if charts.length = 0 then _ else _)
      split
      · exact not_panics_errors _
      · exact not_panics_liftErr _

/-- With a repository URL that parses there is a tarball URL for every version with a URL. -/
theorem chartTarballURL_ok {net : NetUrl} {r : RepoInternal} (hurl : ∃ u, net.parse r.url = .ok u)
    {cv : ChartVersion} (hurls : cv.urls ≠ []) : ∃ url, chartTarballURL net r cv = .ok url := by
  obtain ⟨u, hu⟩ := hurl
  obtain ⟨source, rest, hcons⟩ := List.exists_cons_of_ne_nil hurls
  have hfirst : ∀ f : String → Go String, (index0 (source :: rest) >>= f) = f source := fun f => rfl
  unfold chartTarballURL
  rw [hcons, hfirst, hu]
  cases parseRepoURL net source with
  | ok v => exact ⟨source, rfl⟩
  | error e => exact ⟨_, rfl⟩

theorem panics_tarballRequest {env : FetchEnv} {r : RepoInternal}
    (hurl : ∃ u, env.net.parse r.url = .ok u) (cv : ChartVersion) :
    Panics (tarballRequest env r cv) ↔ cv.urls = [] := by
  unfold tarballRequest
  by_cases hurls : cv.urls = []
  · refine iff_of_true ?_ hurls
    unfold chartTarballURL
    rw [hurls]
    exact ⟨_, rfl⟩
  · obtain ⟨url, hsource⟩ := chartTarballURL_ok hurl hurls
    refine iff_of_false ?_ hurls
    rw [hsource]
    exact not_panics_liftErr _

/-! ## A step of the run -/

/-- The process has crashed. -/
def RunPhase.Panicked : RunPhase → Prop
  | .finished out => out = .panicked
  | .fetching st _ => st.phase = .crashed
  | _ => False

instance (ph : RunPhase) : Decidable ph.Panicked :=
  match ph with
  | .lastChecksum => .isFalse id
  | .charts _ => .isFalse id
  | .syncing _ _ _ => .isFalse id
  | .fetching st _ => inferInstanceAs (Decidable (st.phase = .crashed))
  | .finished out => inferInstanceAs (Decidable (out = .panicked))

/-- The step does not index what is not there, and its icon can be decoded or not: the charts are
    made of good entries, the version whose files a worker fetches has a URL, and no image library
    panics. -/
def Guarded (index : IndexFile) (s : Database × RunPhase) (l : RunLabel) : Prop :=
  match s.2, l with
  | .charts (_ :: _), .next _ => GoodEntries index
  | .fetching st _, .fetch (.act w) =>
      ∀ j, st.workers[w]? = some (.fetchFiles j) → j.chartVersion.urls ≠ []
  | .fetching _ _, .fetch (.iconAnswer _ res) => ¬ Panics res
  | _, _ => True

/-- The charts are those of the repository in either mode, and the jobs of a fetch are theirs. -/
def SoundPhase (inp : SyncInput) : RunPhase → Prop
  | .syncing cs _ _ => ∃ b, inp.charts b = .ok cs
  | .fetching st _ => ∃ cs log, (∃ b, inp.charts b = .ok cs) ∧ JobsInv cs log st
  | _ => True

section Run

variable {fetch : FetchEnv} {env : IndexEnv β} {r : HelmRepo β} {db db' : Database}
  {ph ph' : RunPhase} {l : RunLabel}

theorem versions_of_helmInput {b : Bool} {cs : List Chart} (h : (helmInput env r).charts b = .ok cs) :
    ∀ c ∈ cs, c.chartVersions ≠ [] := by
  have hcharts : r.charts env b = .ok cs := h
  intro c hc
  obtain ⟨entry, hentry⟩ := helmRepo_charts_newChart hcharts hc
  exact newChart_versions hentry

theorem soundPhase_step (hm : RunMoves fetch (helmInput env r) db ph l db' ph')
    (h : SoundPhase (helmInput env r) ph) : SoundPhase (helmInput env r) ph' := by
  cases hm with
  | chartsOk now b rest cs hcs => exact ⟨b, hcs⟩
  | stmt now cs st sts rest db'' hst => exact h
  | startFetch now cs rest =>
      obtain ⟨b, hcs⟩ := h
      exact ⟨cs, [], ⟨b, hcs⟩, jobsInv_init (versions_of_helmInput hcs)⟩
  | fetch l st st' rest db'' hst =>
      obtain ⟨cs, log, hcs, hi⟩ := h
      obtain ⟨hrun, hmoves⟩ := FetchFiles.moves_of_step hst
      exact ⟨cs, _, hcs, jobsInv_step hi hrun (taskMove_of_moves hmoves)⟩
  | _ => trivial

/-- Making the charts. -/
theorem panicked_charts {b : Bool} {rest : List Bool} {now : String}
    (h : runStep fetch (helmInput env r) (db, .charts (b :: rest)) (.next now) = some (db', ph')) :
    ph'.Panicked ↔ Panics (r.charts env b) := by
  unfold runStep at h
  dsimp only at h
  split at h
  · rename_i cs hcs
    have hcharts : r.charts env b = .ok cs := hcs
    obtain ⟨_, rfl⟩ := Prod.mk.inj (Option.some.inj h)
    rw [hcharts]
    exact iff_of_false id (not_panics_ok cs)
  · rename_i e hcs
    have hcharts : r.charts env b = .error (.error e) := hcs
    obtain ⟨_, rfl⟩ := Prod.mk.inj (Option.some.inj h)
    rw [hcharts]
    exact iff_of_false Outcome.noConfusion (not_panics_errors e)
  · rename_i msg hcs
    have hcharts : r.charts env b = .error (.panic msg) := hcs
    obtain ⟨_, rfl⟩ := Prod.mk.inj (Option.some.inj h)
    rw [hcharts]
    exact iff_of_true rfl ⟨msg, rfl⟩

/-- A worker that turns to a version without a URL panics. -/
theorem crashed_of_act {st st' : FetchFiles} {w : Nat} {j : FilesJob} {msg : String}
    (hw : st.workers[w]? = some (.fetchFiles j))
    (hreq : tarballRequest fetch (helmInput env r).repo.internal j.chartVersion =
      .error (.panic msg))
    (h : FetchFiles.step fetch (helmInput env r).repo (db, st) (.act w) = some (db', st')) :
    st'.phase = .crashed := by
  have hrun := (FetchFiles.moves_of_step h).1
  have hkind : (helmInput env r).repo.kind = .helm := rfl
  have hact : FetchFiles.step fetch (helmInput env r).repo (db, st) (.act w) =
      some (db, { st with phase := .crashed }) := by
    rw [step_act hrun]
    unfold FetchFiles.stepAct
    rw [hw]
    dsimp only
    unfold FetchFiles.stepFetch
    rw [hkind, hreq]
  obtain ⟨_, rfl⟩ := Prod.mk.inj (Option.some.inj (hact.symm.trans h))
  rfl

/-- So does one whose icon makes the image libraries panic. -/
theorem crashed_of_iconAnswer {st st' : FetchFiles} {w : Nat} {msg : String}
    (h : FetchFiles.step fetch (helmInput env r).repo (db, st)
      (.iconAnswer w (.error (.panic msg))) = some (db', st')) : st'.phase = .crashed := by
  cases (FetchFiles.moves_of_step h).2 with
  | iconCrash w c msg hw => rfl

/-- An action of `fetchFiles`. -/
theorem panicked_fetch (hurl : ∃ u, fetch.net.parse r.internal.url = .ok u) {st : FetchFiles}
    {rest : List Bool} {l : FetchLabel}
    (hsound : SoundPhase (helmInput env r) (.fetching st rest))
    (h : runStep fetch (helmInput env r) (db, .fetching st rest) (.fetch l) = some (db', ph')) :
    ph'.Panicked ↔
      (∃ w j, l = .act w ∧ st.workers[w]? = some (.fetchFiles j) ∧ j.chartVersion.urls = []) ∨
        ∃ w res, l = .iconAnswer w res ∧ Panics res := by
  obtain ⟨⟨db'', st'⟩, hst, heq⟩ := Option.map_eq_some_iff.mp h
  obtain ⟨rfl, rfl⟩ := Prod.mk.inj heq
  obtain ⟨cs, log, hne, hi⟩ := hsound
  obtain ⟨hrun, hmoves⟩ := FetchFiles.moves_of_step hst
  constructor
  · intro hcrash
    rcases crash_of_moves hi hrun hmoves hcrash with ⟨w, j, msg, hl, hw, _, hreq⟩ | ⟨w, msg, hl⟩
    · exact .inl ⟨w, j, hl, hw, (panics_tarballRequest hurl _).1 ⟨msg, hreq⟩⟩
    · exact .inr ⟨w, _, hl, msg, rfl⟩
  · rintro (⟨w, j, rfl, hw, hurls⟩ | ⟨w, res, rfl, msg, rfl⟩)
    · obtain ⟨msg, hreq⟩ := (panics_tarballRequest hurl _).2 hurls
      exact crashed_of_act hw hreq hst
    · exact crashed_of_iconAnswer hst

/-- What a step of a run that has not crashed does to an index: it crashes exactly if it is not
    guarded. -/
theorem panicked_step {older : String → String → Prop} {index : IndexFile}
    (hlib : SortsEntries env.lib older) (hparse : env.lib.unmarshal r.content = .ok index)
    (hurl : ∃ u, fetch.net.parse r.internal.url = .ok u)
    (hsound : SoundPhase (helmInput env r) ph) (hph : ¬ ph.Panicked)
    (h : runStep fetch (helmInput env r) (db, ph) l = some (db', ph')) :
    ph'.Panicked ↔ ¬ Guarded index (db, ph) l := by
  have hguarded : ∀ {s : Database × RunPhase} {l : RunLabel}, Guarded index s l → ¬ ph'.Panicked →
      (ph'.Panicked ↔ ¬ Guarded index s l) :=
    fun hg hno => iff_of_false hno (not_not.mpr hg)
  cases moves_of_runStep h with
  | skip now hlast => exact hguarded trivial Outcome.noConfusion
  | plan now hlast => exact hguarded trivial id
  | store now => exact hguarded trivial Outcome.noConfusion
  | chartsOk now b rest cs hcs =>
      rw [panicked_charts h, panics_helmCharts hlib hparse]
      exact Iff.rfl
  | chartsErr now b rest f out hcs hout =>
      rw [panicked_charts h, panics_helmCharts hlib hparse]
      exact Iff.rfl
  | stmt now cs st sts rest db'' hst => exact hguarded trivial id
  | stmtErr now cs st sts rest e msg hst => exact hguarded trivial Outcome.noConfusion
  | startFetch now cs rest => exact hguarded trivial PoolPhase.noConfusion
  | fetch l st st' rest db'' hst =>
      rw [panicked_fetch hurl hsound h]
      cases l with
      | act w => simp [Guarded]
      | iconAnswer w res => simp [Guarded]
      | _ => simp [Guarded]
  | fetched now st rest hret => exact hguarded trivial id
  | crashed now st rest hcrash => exact absurd hcrash hph

end Run

/-! ## A run comes to an end -/

/-- An upper bound for the steps of a pass. -/
def passWork (inp : SyncInput) (fetchLatestOnly : Bool) : Nat :=
  match inp.charts fetchLatestOnly with
  | .ok cs => (syncStmts cs).length + work (FetchFiles.init cs) + 3
  | .error _ => 0

/-- An upper bound for the steps that are left. -/
def runWork (inp : SyncInput) : RunPhase → Nat
  | .lastChecksum => passWork inp true + passWork inp false + 2
  | .charts passes => (passes.map (passWork inp)).sum + 1
  | .syncing cs sts rest =>
      sts.length + work (FetchFiles.init cs) + (rest.map (passWork inp)).sum + 3
  | .fetching st rest => work st + (rest.map (passWork inp)).sum + 2
  | .finished _ => 0

theorem runWork_step {fetch : FetchEnv} {inp : SyncInput} {s s' : Database × RunPhase}
    {l : RunLabel} (h : runStep fetch inp s l = some s') : runWork inp s'.2 < runWork inp s.2 := by
  obtain ⟨db, ph⟩ := s
  obtain ⟨db', ph'⟩ := s'
  cases moves_of_runStep h with
  | plan now hlast =>
      unfold passesFor
      split
      all_goals
        simp only [runWork, List.map_cons, List.map_nil, List.sum_cons, List.sum_nil]
        omega
  | chartsOk now b rest cs hcs =>
      simp only [runWork, passWork, hcs, List.map_cons, List.sum_cons]
      omega
  | fetch l st st' rest db'' hst =>
      have hwork := work_step hst
      simp only [runWork] at hwork ⊢
      omega
  | fetched now st rest hret =>
      simp only [runWork]
      omega
  | _ => simp [runWork]

/-- Until the run is over some party can move. -/
theorem exists_runStep {fetch : FetchEnv} {inp : SyncInput} {s : Database × RunPhase}
    (hsound : SoundPhase inp s.2) (hleft : ∀ out, s.2 ≠ .finished out) :
    ∃ l s', runStep fetch inp s l = some s' := by
  obtain ⟨db, ph⟩ := s
  cases ph with
  | lastChecksum =>
      refine ⟨.next "", ?_⟩
      unfold runStep
      dsimp only
      split <;> exact ⟨_, rfl⟩
  | charts passes =>
      refine ⟨.next "", ?_⟩
      cases passes with
      | nil => exact ⟨_, rfl⟩
      | cons b rest =>
          unfold runStep
          dsimp only
          split <;> exact ⟨_, rfl⟩
  | syncing cs stmts rest =>
      refine ⟨.next "", ?_⟩
      cases stmts with
      | nil => exact ⟨_, rfl⟩
      | cons st sts =>
          unfold runStep
          dsimp only
          split <;> exact ⟨_, rfl⟩
  | fetching st rest =>
      obtain ⟨cs, log, _, hi⟩ := hsound
      cases hphase : st.phase with
      | running =>
          obtain ⟨l, s', _, hs'⟩ := exists_move hi hphase ⟨fun _ => errors "", fun _ => .error ""⟩ db
          refine ⟨.fetch l, ?_⟩
          unfold runStep
          dsimp only
          rw [hs']
          exact ⟨_, rfl⟩
      | returned =>
          refine ⟨.next "", ?_⟩
          unfold runStep
          dsimp only
          rw [hphase]
          exact ⟨_, rfl⟩
      | crashed =>
          refine ⟨.next "", ?_⟩
          unfold runStep
          dsimp only
          rw [hphase]
          exact ⟨_, rfl⟩
  | finished out => exact absurd rfl (hleft out)

/-! ## Whole runs -/

section Whole

variable {fetch : FetchEnv} {env : IndexEnv β} {older : String → String → Prop} {r : HelmRepo β}
  {index : IndexFile}

/-- Every version of the index has a URL. -/
def AllURLs (index : IndexFile) : Prop := ∀ e ∈ index.entries, ∀ v, some v ∈ e.2 → v.urls ≠ []

theorem urls_entryChart {repo : Repo} {entry : Entry} {c : Chart}
    (hchart : entryChart repo entry = some c) {cv : ChartVersion} (hcv : cv ∈ c.chartVersions) :
    ∃ v, some v ∈ entry ∧ cv.urls = v.urls := by
  obtain ⟨p, ps, hversions, rfl⟩ := entryChart_eq_some hchart
  rw [← hversions] at hcv
  obtain ⟨⟨v, m⟩, hmem, rfl⟩ := List.mem_map.mp hcv
  obtain ⟨e, he, hderef⟩ := List.mem_filterMap.mp hmem
  refine ⟨v, ?_, rfl⟩
  unfold deref at hderef
  split at hderef
  · split at hderef
    · cases hderef
      exact he
    · cases hderef
  · cases hderef

/-- The URLs of a chart version are those of a version in the index. -/
theorem urls_of_helmCharts (hlib : SortsEntries env.lib older)
    (hparse : env.lib.unmarshal r.content = .ok index) (hgood : GoodEntries index) {b : Bool}
    {cs : List Chart} (h : r.charts env b = .ok cs) {c : Chart} (hc : c ∈ cs) {cv : ChartVersion}
    (hcv : cv ∈ c.chartVersions) : ∃ e ∈ index.entries, ∃ v, some v ∈ e.2 ∧ cv.urls = v.urls := by
  obtain ⟨charts, hperm, hcharts⟩ := chartsFromIndex_described (r := r.internal.repo) hlib hparse
    (fun e he => (hgood e he).1) (fun e he => (hgood e he).2) env.rt b
  unfold HelmRepo.charts at h
  rw [hcharts] at h
  have hmem : c ∈ charts := by
    obtain ⟨charts', heq, hrest⟩ := bind_eq_ok h
    obtain rfl := Except.ok.inj heq
    split at hrest
    · cases hrest
    · exact (env.rt.sort_perm _ charts).mem_iff.mp
        ((filterCharts_sublist (liftErr_eq_ok hrest)).mem hc)
  obtain ⟨c', hc', rfl⟩ := List.mem_map.mp (hperm.mem_iff.mp hmem)
  obtain ⟨e, he, hchart⟩ := List.mem_filterMap.mp hc'
  obtain ⟨sorted, hsorted⟩ := hlib.sorts e.2 (hgood e he).2
  have hcv' : cv ∈ c'.chartVersions := by
    unfold inMode at hcv
    split at hcv
    · exact List.mem_of_mem_take hcv
    · exact hcv
  obtain ⟨v, hv, hurls⟩ := urls_entryChart hchart hcv'
  rw [sortedEntry_ok hsorted] at hv
  exact ⟨e, he, v, (hlib.perm e.2 sorted hsorted).mem_iff.mp hv, hurls⟩

theorem mem_filesOrder {charts : List Chart} {j : FilesJob} (h : j ∈ filesOrder charts) :
    ∃ c ∈ charts, j.chartVersion ∈ c.chartVersions := by
  rcases List.mem_append.mp h with hfirst | hother
  · obtain ⟨c, hc, hj⟩ := List.mem_filterMap.mp hfirst
    obtain ⟨cv, hcv, rfl⟩ := Option.map_eq_some_iff.mp hj
    exact ⟨c, hc, List.mem_of_mem_head? hcv⟩
  · obtain ⟨c, hc, hj⟩ := List.mem_flatMap.mp hother
    obtain ⟨cv, hcv, rfl⟩ := List.mem_map.mp hj
    exact ⟨c, hc, List.mem_of_mem_tail hcv⟩

/-- No icon makes the image libraries panic. -/
def IconsDecode (l : RunLabel) : Prop := ∀ w res, l = .fetch (.iconAnswer w res) → ¬ Panics res

/-- On an index without gaps and with such icons every step is guarded. -/
theorem guarded_of_index (hlib : SortsEntries env.lib older)
    (hparse : env.lib.unmarshal r.content = .ok index) (hgood : GoodEntries index)
    (hurls : AllURLs index) {s : Database × RunPhase} {l : RunLabel}
    (hsound : SoundPhase (helmInput env r) s.2) (hicons : IconsDecode l) : Guarded index s l := by
  obtain ⟨db, ph⟩ := s
  unfold Guarded
  split
  · exact hgood
  · rename_i st rest w heq
    obtain rfl : ph = .fetching st rest := heq
    obtain ⟨cs, log, ⟨b, hcs⟩, hi⟩ := hsound
    intro j hj
    obtain ⟨c, hc, hcv⟩ := mem_filesOrder (hi.hands _ (List.mem_of_getElem? hj) j rfl)
    obtain ⟨e, he, v, hv, hsame⟩ := urls_of_helmCharts hlib hparse hgood hcs hc hcv
    rw [hsame]
    exact hurls e he v hv
  · exact hicons _ _ rfl
  · trivial

end Whole

/-- A run on an index: it ends, until then some party can move, and it never crashes exactly if
    all of its steps are guarded, which they are if the index has no gaps and no icon makes the
    image libraries panic. -/
theorem run_never_panics_iff (fetch : FetchEnv) (env : IndexEnv β) (older : String → String → Prop)
    (hlib : SortsEntries env.lib older) (r : HelmRepo β) (index : IndexFile)
    (hparse : env.lib.unmarshal r.content = .ok index)
    (hurl : ∃ u, fetch.net.parse r.internal.url = .ok u) (db : Database) (as : List RunLabel)
    (t : Database × RunPhase)
    (hr : runs (runStep fetch (helmInput env r)) (db, .lastChecksum) as = some t) :
    as.length ≤ runWork (helmInput env r) .lastChecksum ∧
      ((∀ out, t.2 ≠ .finished out) → ∃ l t', runStep fetch (helmInput env r) t l = some t') ∧
      (Always (runStep fetch (helmInput env r)) (fun s => ¬ s.2.Panicked) (db, .lastChecksum) as ↔
        StepsMeet (runStep fetch (helmInput env r)) (Guarded index) (db, .lastChecksum) as) ∧
      (GoodEntries index → AllURLs index → (∀ l ∈ as, IconsDecode l) →
        StepsMeet (runStep fetch (helmInput env r)) (Guarded index) (db, .lastChecksum) as) := by
  have hsound : ∀ s a s', SoundPhase (helmInput env r) s.2 →
      runStep fetch (helmInput env r) s a = some s' → SoundPhase (helmInput env r) s'.2 :=
    fun s a s' hs hstep => soundPhase_step (moves_of_runStep hstep) hs
  refine ⟨?_, fun hleft => ?_, ?_, fun hgood hurls hicons => ?_⟩
  · have hbound := runs_measure (μ := fun s : Database × RunPhase => runWork (helmInput env r) s.2)
      (fun _ _ _ hstep => runWork_step hstep) hr
    dsimp only at hbound
    omega
  · exact exists_runStep (runs_invariant hsound hr trivial) hleft
  · have hkeep : ∀ s a s', SoundPhase (helmInput env r) s.2 ∧ ¬ s.2.Panicked →
        Guarded index s a → runStep fetch (helmInput env r) s a = some s' →
          SoundPhase (helmInput env r) s'.2 ∧ ¬ s'.2.Panicked := by
      intro s a s' hs hok hstep
      refine ⟨hsound s a s' hs.1 hstep, ?_⟩
      rw [panicked_step hlib hparse hurl hs.1 hs.2 hstep]
      exact not_not.mpr hok
    refine always_iff_stepsMeet (fun _ h => h.2) hkeep ?_ hr ⟨trivial, id⟩
    intro s a s' hs hmiss hstep
    rw [panicked_step hlib hparse hurl hs.1 hs.2 hstep]
    exact not_not.mpr hmiss
  · have hphases := stepsMeet_of_invariant (s := (db, RunPhase.lastChecksum)) hsound trivial as
    exact stepsMeet_mono
      (fun s l hok => guarded_of_index hlib hparse hgood hurls hok.1 hok.2)
      (stepsMeet_and hphases (stepsMeet_of_forall hicons))

/-! ## Two indexes of nginx -/

/-- Contents are decoded already; there are no filters. -/
def decodedEnv : IndexEnv IndexFile where
  rt := Runtime.stable
  lib := textOrder
  jq := Gojq.nameEq
  getSha256 _ := "sha256"

/-- `nginx: [{name: nginx, version: 1.0.0}]`. -/
def noURL : IndexFile :=
  ⟨[("nginx", [some { nginxVersion "1.0.0" with urls := [] }])]⟩

/-- A version with a URL. -/
def oneVersion : IndexFile := ⟨[("nginx", [some (nginxVersion "1.0.0")])]⟩

/-- The pass over the latest versions, until the first worker has looked for the files. -/
def firstVersionSchedule : List RunLabel :=
  List.replicate 6 (.next "now") ++
    ([.main, .main, .main, .receive 0, .act 0, .receive 0, .receive 0, .act 0, .act 0] :
      List FetchLabel).map .fetch

theorem run_never_panics_iff_nginx :
    ∃ t, runs (runStep plainFetch (helmInput decodedEnv ⟨oneVersion, bitnami, none⟩))
        (Database.empty, .lastChecksum) firstVersionSchedule = some t ∧
      Always (runStep plainFetch (helmInput decodedEnv ⟨oneVersion, bitnami, none⟩))
        (fun s => ¬ s.2.Panicked) (Database.empty, .lastChecksum) firstVersionSchedule := by
  have hsome : (runs (runStep plainFetch (helmInput decodedEnv ⟨oneVersion, bitnami, none⟩))
      (Database.empty, .lastChecksum) firstVersionSchedule).isSome = true := by decide +kernel
  obtain ⟨t, hr⟩ := Option.isSome_iff_exists.mp hsome
  have hall := run_never_panics_iff plainFetch decodedEnv (· < ·) sortsEntries_textOrder
    ⟨oneVersion, bitnami, none⟩ oneVersion rfl ⟨_, rfl⟩ Database.empty firstVersionSchedule t hr
  refine ⟨t, hr, hall.2.2.1.2 (hall.2.2.2 ?_ ?_ ?_)⟩
  · intro e he
    rw [List.mem_singleton.mp he]
    unfold Described
    simp [deref, nginxVersion]
  · intro e he v hv
    rw [List.mem_singleton.mp he] at hv
    cases List.mem_singleton.mp hv
    exact List.cons_ne_nil _ _
  · rintro l hl w res rfl
    simp [firstVersionSchedule] at hl

/-- An empty entry list, and a version without a URL: both are panics. -/
theorem run_panics :
    (∃ t, runs (runStep plainFetch (helmInput decodedEnv ⟨⟨[("nginx", [])]⟩, bitnami, none⟩))
        (Database.empty, .lastChecksum) [.next "now", .next "now"] = some t ∧ t.2.Panicked) ∧
      ∃ t, runs (runStep plainFetch (helmInput decodedEnv ⟨noURL, bitnami, none⟩))
        (Database.empty, .lastChecksum) firstVersionSchedule = some t ∧ t.2.Panicked := by
  constructor
  · exact ⟨_, rfl, rfl⟩
  · have hcrash : ((runs (runStep plainFetch (helmInput decodedEnv ⟨noURL, bitnami, none⟩))
        (Database.empty, .lastChecksum) firstVersionSchedule).map fun s => decide s.2.Panicked) =
        some true := by decide +kernel
    obtain ⟨t, hr, ht⟩ := Option.map_eq_some_iff.mp hcrash
    exact ⟨t, hr, of_decide_eq_true ht⟩

end Kubeapps.Syncer
