/-
  `OCIRegistry.Charts`, for every order in which the pulls complete.

  The versions of a chart are appended as its pulls arrive and its other fields are those of the
  pull that arrives first (`mergeCharts_spec`). `charts_exact_iff`: the result is one chart for
  each repository, with the fields of its newest tag and its versions newest first, exactly when
  the repositories have different chart ids and at least one tag each and the pulls of each
  repository arrive newest first. Nothing in the code makes them.

  `firstSync_safe_iff` is about the whole first sync: when it can panic.
-/
import Kubeapps.Syncer.FilterIndex

namespace Kubeapps.Syncer

open Kubeapps.Lib Kubeapps.Models

/-! ## The map of charts -/

/-- The charts that arrive. -/
def okCharts (received : List (PullChartJob × Except String Chart)) : List Chart :=
  received.filterMap fun x => x.2.toOption

/-- The map after these charts have arrived. -/
def mergeCharts (cs : List Chart) : List Chart := cs.foldl (fun charts c => addChart c charts) []

theorem gatherCharts_eq (received : List (PullChartJob × Except String Chart))
    (charts : List Chart) :
    gatherCharts received charts =
      (okCharts received).foldl (fun charts c => addChart c charts) charts := by
  induction received generalizing charts with
  | nil => rfl
  | cons x rest ih =>
      obtain ⟨j, res⟩ := x
      cases res with
      | error e =>
          rw [gatherCharts, ih]
          rfl
      | ok c =>
          rw [gatherCharts, ih]
          rfl

theorem map_id_addChart (c : Chart) (charts : List Chart) :
    (addChart c charts).map Chart.id =
      if c.id ∈ charts.map Chart.id then charts.map Chart.id
      else charts.map Chart.id ++ [c.id] := by
  induction charts with
  | nil => simp [addChart]
  | cons c' rest ih =>
      rw [addChart]
      by_cases hid : c'.id = c.id
      · simp [hid]
      · rw [if_neg hid, List.map_cons, ih]
        by_cases hmem : c.id ∈ rest.map Chart.id
        · simp [hmem]
        · have hne : ¬ c.id = c'.id := fun h => hid h.symm
          simp [hmem, hne]

/-- An entry after one more chart: one of another id, the one of its id with its versions
    appended, or a new one. -/
theorem mem_addChart {c x : Chart} {charts : List Chart}
    (hnodup : (charts.map Chart.id).Nodup) (h : x ∈ addChart c charts) :
    (x ∈ charts ∧ x.id ≠ c.id) ∨
      (∃ c' ∈ charts, c'.id = c.id ∧
        x = { c' with chartVersions := c'.chartVersions ++ c.chartVersions }) ∨
      (c.id ∉ charts.map Chart.id ∧ x = c) := by
  induction charts with
  | nil =>
      cases List.mem_singleton.mp h
      exact .inr (.inr ⟨List.not_mem_nil, rfl⟩)
  | cons c' rest ih =>
      rw [List.map_cons, List.nodup_cons] at hnodup
      rw [addChart] at h
      split at h
      · rename_i hid
        rcases List.mem_cons.mp h with rfl | hx
        · exact .inr (.inl ⟨c', List.mem_cons_self, hid, rfl⟩)
        · refine .inl ⟨List.mem_cons_of_mem _ hx, ?_⟩
          intro hxc
          exact hnodup.1 (hid ▸ hxc ▸ List.mem_map_of_mem hx)
      · rename_i hid
        rcases List.mem_cons.mp h with rfl | hx
        · exact .inl ⟨List.mem_cons_self, hid⟩
        · rcases ih hnodup.2 hx with ⟨hx, hne⟩ | ⟨d, hd, hid', rfl⟩ | ⟨hnew, rfl⟩
          · exact .inl ⟨List.mem_cons_of_mem _ hx, hne⟩
          · exact .inr (.inl ⟨d, List.mem_cons_of_mem _ hd, hid', rfl⟩)
          · refine .inr (.inr ⟨?_, rfl⟩)
            rw [List.map_cons, List.mem_cons, not_or]
            exact ⟨fun h => hid h.symm, hnew⟩

/-- A chart of the map is made of the charts of its id: the first one, with the versions of
    all of them. -/
def MergedFrom (cs : List Chart) (c : Chart) : Prop :=
  ∃ c₀ rest, (cs.filter fun x => x.id = c.id) = c₀ :: rest ∧
    c = { c₀ with chartVersions := (c₀ :: rest).flatMap Chart.chartVersions }

/-- The map has one chart of each id that arrived. -/
theorem mergeCharts_spec (cs : List Chart) :
    ((mergeCharts cs).map Chart.id).Nodup ∧
      (∀ id, id ∈ (mergeCharts cs).map Chart.id ↔ id ∈ cs.map Chart.id) ∧
      ∀ c ∈ mergeCharts cs, MergedFrom cs c := by
  induction cs using List.reverseRecOn with
  | nil => simp [mergeCharts]
  | append_singleton cs d ih =>
      obtain ⟨hnodup, hmem, hmerged⟩ := ih
      have hstep : mergeCharts (cs ++ [d]) = addChart d (mergeCharts cs) := by
        simp [mergeCharts]
      rw [hstep]
      refine ⟨?_, ?_, ?_⟩
      · rw [map_id_addChart]
        split
        · exact hnodup
        · rename_i hnew
          refine List.nodup_append.mpr ⟨hnodup, List.nodup_singleton _, ?_⟩
          intro a ha b hb hab
          cases List.mem_singleton.mp hb
          exact hnew (hab ▸ ha)
      · intro id
        rw [map_id_addChart]
        split
        · rename_i hin
          rw [hmem, List.map_append, List.mem_append]
          refine ⟨.inl, ?_⟩
          rintro (h | h)
          · exact h
          · cases List.mem_singleton.mp h
            exact (hmem _).mp hin
        · rw [List.mem_append, hmem, List.map_append, List.mem_append]
          rfl
      · intro x hx
        rcases mem_addChart hnodup hx with ⟨hx, hne⟩ | ⟨c', hc', hid, rfl⟩ | ⟨hnew, rfl⟩
        · obtain ⟨c₀, rest, hfilter, heq⟩ := hmerged x hx
          refine ⟨c₀, rest, ?_, heq⟩
          rw [List.filter_append, hfilter]
          simp [Ne.symm hne]
        · obtain ⟨c₀, rest, hfilter, heq⟩ := hmerged c' hc'
          refine ⟨c₀, rest ++ [d], ?_, ?_⟩
          · rw [List.filter_append]
            simp only [hfilter]
            simp [hid]
          · rw [heq]
            simp
        · refine ⟨x, [], ?_, by simp⟩
          rw [hmem] at hnew
          rw [List.filter_append]
          have hnil : (cs.filter fun y => y.id = x.id) = [] := by
            refine List.filter_eq_nil_iff.mpr fun y hy => ?_
            simp only [decide_eq_true_eq]
            intro hid
            exact hnew (hid ▸ List.mem_map_of_mem hy)
          rw [hnil]
          simp

/-! ## The pulls -/

section Pulls

variable {env : OciEnv} {repoURL : env.net.Url} {r : OCIRegistry} {tags : Tags}

/-- The chart of a pull has the id of its repository and one version. -/
theorem pullAndExtract_spec {appName tag : String} {c : Chart}
    (h : pullAndExtract env repoURL appName tag r = .ok c) :
    c.id = r.chartID appName ∧ ∃ cv, c.chartVersions = [cv] := by
  unfold pullAndExtract at h
  obtain ⟨⟨buf, digest⟩, _, h⟩ := bind_eq_ok h
  obtain ⟨files, _, h⟩ := bind_eq_ok h
  obtain ⟨m, _, h⟩ := bind_eq_ok h
  obtain ⟨maintainers, _, h⟩ := bind_eq_ok h
  cases h
  exact ⟨rfl, _, rfl⟩

/-- A received result is the one of its job. -/
theorem pullAnswers_ok {j : PullChartJob} {res : Except String Chart}
    (h : pullAnswers env repoURL r j (some res) = true) {c : Chart}
    (hc : pullAndExtract env repoURL j.appName j.tag r = .ok c) : res = .ok c := by
  simp only [pullAnswers, hc, pullResult, decide_eq_true_eq, Option.some.injEq] at h
  exact h

theorem pullAnswers_total (j : PullChartJob) : ∃ res, pullAnswers env repoURL r j res = true :=
  ⟨pullResult (pullAndExtract env repoURL j.appName j.tag r), by simp [pullAnswers]⟩

/-- The jobs of `Charts(false)`. -/
def pullJobs (r : OCIRegistry) (tags : Tags) : List PullChartJob :=
  r.repositories.flatMap fun appName => (tags.get appName).tags.map fun tag => ⟨appName, tag⟩

theorem pullItems_false (r : OCIRegistry) (tags : Tags) :
    pullItems r tags false = (pullJobs r tags).map some := by
  simp [pullItems, pullJobs, List.map_flatMap, Function.comp_def]

theorem mem_pullJobs {j : PullChartJob} :
    j ∈ pullJobs r tags ↔ j.appName ∈ r.repositories ∧ j.tag ∈ (tags.get j.appName).tags := by
  obtain ⟨app, tag⟩ := j
  simp only [pullJobs, List.mem_flatMap, List.mem_map, PullChartJob.mk.injEq]
  constructor
  · rintro ⟨a, ha, t, ht, rfl, rfl⟩
    exact ⟨ha, ht⟩
  · rintro ⟨ha, ht⟩
    exact ⟨app, ha, tag, ht, rfl, rfl⟩

/-- Every pull succeeds and the version of every chart is its tag. -/
def PullsSucceed (env : OciEnv) (repoURL : env.net.Url) (r : OCIRegistry) (tags : Tags) : Prop :=
  ∀ j ∈ pullJobs r tags, ∃ c, pullAndExtract env repoURL j.appName j.tag r = .ok c ∧
    c.chartVersions.map ChartVersion.version = [j.tag]

/-- The tags of a repository in the order their pulls arrive. -/
def arrived (appName : String) (received : List (PullChartJob × Except String Chart)) :
    List String :=
  (received.filter fun x => x.1.appName = appName).map fun x => x.1.tag

/-- Received results are those of jobs, and successful. -/
def Faithful (env : OciEnv) (repoURL : env.net.Url) (r : OCIRegistry) (tags : Tags)
    (received : List (PullChartJob × Except String Chart)) : Prop :=
  ∀ x ∈ received, x.1 ∈ pullJobs r tags ∧ ∃ c, x.2 = .ok c ∧
    pullAndExtract env repoURL x.1.appName x.1.tag r = .ok c ∧
    c.chartVersions.map ChartVersion.version = [x.1.tag]

theorem faithful_of_returned {as : List (PoolLabel (Except String Chart))} {s : PullPool}
    (hpull : PullsSucceed env repoURL r tags)
    (h : runs (Pool.step numWorkers (pullAnswers env repoURL r)) (pullPool r tags false) as =
      some s) (hr : s.phase = .returned) :
    Faithful env repoURL r tags s.received ∧
      (s.received.map Prod.fst).Perm (pullJobs r tags) := by
  obtain ⟨hperm, hans⟩ := Pool.perm_of_returned (by decide) h hr
  rw [pullItems_false] at hperm
  have hjobs := (List.map_perm_map_iff fun _ _ h => Option.some.inj h).mp hperm
  refine ⟨fun x hx => ?_, hjobs⟩
  have hmem := hjobs.mem_iff.mp (List.mem_map_of_mem hx)
  obtain ⟨c, hc, hv⟩ := hpull x.1 hmem
  exact ⟨hmem, c, pullAnswers_ok (hans x hx) hc, hc, hv⟩

theorem mem_okCharts {received : List (PullChartJob × Except String Chart)} {c : Chart} :
    c ∈ okCharts received ↔ ∃ j, (j, .ok c) ∈ received := by
  simp only [okCharts, List.mem_filterMap, Prod.exists]
  constructor
  · rintro ⟨j, res, hmem, hres⟩
    cases res with
    | error e => cases hres
    | ok c' =>
        cases hres
        exact ⟨j, hmem⟩
  · rintro ⟨j, hmem⟩
    exact ⟨j, .ok c, hmem, rfl⟩

/-- The ids that arrive are those of the repositories with a tag. -/
theorem mem_ids_okCharts {received : List (PullChartJob × Except String Chart)}
    (hf : Faithful env repoURL r tags received)
    (hjobs : (received.map Prod.fst).Perm (pullJobs r tags)) {id : String} :
    id ∈ (okCharts received).map Chart.id ↔
      ∃ app ∈ r.repositories, (tags.get app).tags ≠ [] ∧ r.chartID app = id := by
  constructor
  · intro h
    obtain ⟨c, hc, rfl⟩ := List.mem_map.mp h
    obtain ⟨j, hj⟩ := mem_okCharts.1 hc
    obtain ⟨hmem, c', hc', hpull, _⟩ := hf _ hj
    cases hc'
    obtain ⟨happ, htag⟩ := mem_pullJobs.1 hmem
    exact ⟨j.appName, happ, List.ne_nil_of_mem htag, (pullAndExtract_spec hpull).1.symm⟩
  · rintro ⟨app, happ, hne, rfl⟩
    obtain ⟨tag, htag⟩ := List.exists_mem_of_ne_nil _ hne
    have hmem : (⟨app, tag⟩ : PullChartJob) ∈ received.map Prod.fst :=
      hjobs.mem_iff.mpr (mem_pullJobs.2 ⟨happ, htag⟩)
    obtain ⟨⟨j, res⟩, hx, rfl⟩ := List.mem_map.mp hmem
    obtain ⟨_, c, hres, hpull, _⟩ := hf _ hx
    simp only at hres
    subst hres
    refine List.mem_map.mpr ⟨c, mem_okCharts.2 ⟨_, hx⟩, (pullAndExtract_spec hpull).1⟩

/-- With different ids, the versions of the charts of one id are the arrivals of one
    repository. -/
theorem versions_okCharts {received : List (PullChartJob × Except String Chart)}
    (hf : Faithful env repoURL r tags received)
    (hinj : ∀ a ∈ r.repositories, ∀ b ∈ r.repositories, r.chartID a = r.chartID b → a = b)
    {app : String} (happ : app ∈ r.repositories) :
    (((okCharts received).filter fun c => c.id = r.chartID app).flatMap
        Chart.chartVersions).map ChartVersion.version = arrived app received := by
  induction received with
  | nil => rfl
  | cons x rest ih =>
      have hrest : Faithful env repoURL r tags rest := fun y hy => hf y (List.mem_cons_of_mem x hy)
      obtain ⟨hmem, c, hres, hpull, hv⟩ := hf x List.mem_cons_self
      have hok : okCharts (x :: rest) = c :: okCharts rest := by
        rw [okCharts, List.filterMap_cons, hres]
        rfl
      have hid := (pullAndExtract_spec hpull).1
      by_cases ha : x.1.appName = app
      · have hcid : c.id = r.chartID app := by rw [hid, ha]
        simp only [hok, arrived, List.filter_cons, hcid, ha, decide_true, ↓reduceIte,
          List.flatMap_cons, List.map_append, List.map_cons, hv]
        rw [ih hrest]
        rfl
      · have hcid : ¬ c.id = r.chartID app := by
          rw [hid]
          intro h
          exact ha (hinj _ (mem_pullJobs.1 hmem).1 _ happ h)
        simp only [hok, arrived, List.filter_cons, hcid, ha, decide_false, Bool.false_eq_true,
          ↓reduceIte]
        exact ih hrest

theorem arrived_perm {received : List (PullChartJob × Except String Chart)}
    (hjobs : (received.map Prod.fst).Perm (pullJobs r tags)) (hnodup : r.repositories.Nodup)
    {app : String} (happ : app ∈ r.repositories) :
    (arrived app received).Perm (tags.get app).tags := by
  have hfilter : ((pullJobs r tags).filter fun j => j.appName = app) =
      (tags.get app).tags.map fun t => ⟨app, t⟩ := by
    refine filter_flatMap_of_nodup PullChartJob.appName
      (fun a => (tags.get a).tags.map fun t => ⟨a, t⟩) ?_ hnodup happ
    intro a x hx
    obtain ⟨t, _, rfl⟩ := List.mem_map.mp hx
    rfl
  have hperm := (hjobs.filter fun j => j.appName = app).map PullChartJob.tag
  rw [hfilter, List.filter_map, List.map_map, List.map_map] at hperm
  simpa [arrived, Function.comp_def] using hperm

/-! ## Newest first -/

/-- A chart of `app` as it should be: each tag's version once, newest first, each as it was
    pulled, and the fields of the chart those of its first version. -/
structure NewestFirst (env : OciEnv) (repoURL : env.net.Url) (r : OCIRegistry) (tags : Tags)
    (app : String) (c : Chart) : Prop where
  versions : (c.chartVersions.map ChartVersion.version).Perm (tags.get app).tags
  descending : env.semver.Descending (c.chartVersions.map ChartVersion.version)
  pulled : ∀ cv ∈ c.chartVersions, ∃ c', pullAndExtract env repoURL app cv.version r = .ok c' ∧
    c'.chartVersions = [cv]
  fields : ∃ cv rest c', c.chartVersions = cv :: rest ∧
    pullAndExtract env repoURL app cv.version r = .ok c' ∧
    c = { c' with chartVersions := c.chartVersions }

/-- What `Charts(false)` should return before its filter: one chart for each repository, as it
    should be. -/
def ChartsExact (env : OciEnv) (repoURL : env.net.Url) (r : OCIRegistry) (tags : Tags)
    (charts : List Chart) : Prop :=
  (charts.map Chart.id).Perm (r.repositories.map r.chartID) ∧
    ∀ app ∈ r.repositories, ∀ c ∈ charts, c.id = r.chartID app →
      NewestFirst env repoURL r tags app c

theorem perm_pulledCharts (env : OciEnv)
    (received : List (PullChartJob × Except String Chart)) :
    (pulledCharts env received).Perm (mergeCharts (okCharts received)) := by
  unfold pulledCharts
  rw [gatherCharts_eq]
  exact env.rt.range_perm _

theorem chartsExact_congr {charts charts' : List Chart} (h : charts.Perm charts') :
    ChartsExact env repoURL r tags charts ↔ ChartsExact env repoURL r tags charts' := by
  unfold ChartsExact
  rw [(h.map Chart.id).congr_left]
  simp only [h.mem_iff]

/-- What arrives for an id is what was pulled for its repository. -/
theorem pulled_of_mem_filter {received : List (PullChartJob × Except String Chart)}
    (hf : Faithful env repoURL r tags received)
    (hinj : ∀ a ∈ r.repositories, ∀ b ∈ r.repositories, r.chartID a = r.chartID b → a = b)
    {app : String} (happ : app ∈ r.repositories) {c : Chart}
    (hc : c ∈ (okCharts received).filter fun x => x.id = r.chartID app) :
    ∃ cv, c.chartVersions = [cv] ∧ pullAndExtract env repoURL app cv.version r = .ok c := by
  obtain ⟨hmem, hid⟩ := List.mem_filter.mp hc
  obtain ⟨j, hj⟩ := mem_okCharts.1 hmem
  obtain ⟨hjob, c', hc', hpull, hv⟩ := hf _ hj
  cases hc'
  obtain ⟨hcid, cv, hcv⟩ := pullAndExtract_spec hpull
  have ha : j.appName = app :=
    hinj _ (mem_pullJobs.1 hjob).1 _ happ (hcid.symm.trans (of_decide_eq_true hid))
  have htag : cv.version = j.tag := by
    rw [hcv] at hv
    exact List.singleton_inj.mp hv
  exact ⟨cv, hcv, by rw [htag, ← ha]; exact hpull⟩

theorem newestFirst_of_merged {received : List (PullChartJob × Except String Chart)}
    (hf : Faithful env repoURL r tags received)
    (hjobs : (received.map Prod.fst).Perm (pullJobs r tags))
    (hinj : ∀ a ∈ r.repositories, ∀ b ∈ r.repositories, r.chartID a = r.chartID b → a = b)
    (hnodup : r.repositories.Nodup) {app : String} (happ : app ∈ r.repositories) {c : Chart}
    (hid : c.id = r.chartID app) (hm : MergedFrom (okCharts received) c)
    (hdesc : env.semver.Descending (arrived app received)) :
    NewestFirst env repoURL r tags app c := by
  obtain ⟨c₀, rest, hfilter, heq⟩ := hm
  rw [hid] at hfilter
  have hvers : c.chartVersions = ((okCharts received).filter
      fun x => x.id = r.chartID app).flatMap Chart.chartVersions := by
    rw [hfilter, heq]
  have harr : c.chartVersions.map ChartVersion.version = arrived app received := by
    rw [hvers, versions_okCharts hf hinj happ]
  refine ⟨?_, ?_, ?_, ?_⟩
  · rw [harr]
    exact arrived_perm hjobs hnodup happ
  · rw [harr]
    exact hdesc
  · intro cv hcv
    rw [hvers] at hcv
    obtain ⟨c', hc', hmem⟩ := List.mem_flatMap.mp hcv
    obtain ⟨cv', hcv', hpull⟩ := pulled_of_mem_filter hf hinj happ hc'
    rw [hcv'] at hmem
    cases List.mem_singleton.mp hmem
    exact ⟨c', hpull, hcv'⟩
  · obtain ⟨cv, hcv, hpull⟩ := pulled_of_mem_filter hf hinj happ
      (hfilter ▸ List.mem_cons_self : c₀ ∈ _)
    refine ⟨cv, rest.flatMap Chart.chartVersions, c₀, ?_, hpull, ?_⟩
    · rw [heq, List.flatMap_cons, hcv]
      rfl
    · rw [heq]

/-- The pulls of each repository arrive newest first, from repositories that have a tag and
    whose chart ids differ. -/
def ArriveNewestFirst (env : OciEnv) (r : OCIRegistry) (tags : Tags)
    (received : List (PullChartJob × Except String Chart)) : Prop :=
  (r.repositories.map r.chartID).Nodup ∧ (∀ app ∈ r.repositories, (tags.get app).tags ≠ []) ∧
    ∀ app ∈ r.repositories, env.semver.Descending (arrived app received)

theorem chartsExact_iff_arrive {received : List (PullChartJob × Except String Chart)}
    (hf : Faithful env repoURL r tags received)
    (hjobs : (received.map Prod.fst).Perm (pullJobs r tags)) :
    ChartsExact env repoURL r tags (pulledCharts env received) ↔
      ArriveNewestFirst env r tags received := by
  rw [chartsExact_congr (perm_pulledCharts env received)]
  obtain ⟨hnodup, hmem, hmerged⟩ := mergeCharts_spec (okCharts received)
  constructor
  · rintro ⟨hperm, hall⟩
    have hids : (r.repositories.map r.chartID).Nodup := hperm.nodup_iff.mp hnodup
    have hinj : ∀ a ∈ r.repositories, ∀ b ∈ r.repositories, r.chartID a = r.chartID b → a = b :=
      fun a ha b hb => List.inj_on_of_nodup_map hids ha hb
    -- the chart of a repository, which the equality of the ids provides
    have hchart : ∀ app ∈ r.repositories,
        ∃ c ∈ mergeCharts (okCharts received), c.id = r.chartID app := by
      intro app happ
      exact List.mem_map.mp (hperm.mem_iff.mpr (List.mem_map_of_mem happ))
    refine ⟨hids, ?_, ?_⟩
    · intro app happ hnil
      obtain ⟨c, hc, hid⟩ := hchart app happ
      obtain ⟨cv, rest, c', hcv, _⟩ := (hall app happ c hc hid).fields
      have hlen := (hall app happ c hc hid).versions.length_eq
      rw [hcv, hnil] at hlen
      cases hlen
    · intro app happ
      obtain ⟨c, hc, hid⟩ := hchart app happ
      obtain ⟨c₀, rest, hfilter, heq⟩ := hmerged c hc
      have harr : c.chartVersions.map ChartVersion.version = arrived app received := by
        rw [← versions_okCharts hf hinj happ, ← hid, hfilter, heq]
      rw [← harr]
      exact (hall app happ c hc hid).descending
  · rintro ⟨hids, hne, hdesc⟩
    have hinj : ∀ a ∈ r.repositories, ∀ b ∈ r.repositories, r.chartID a = r.chartID b → a = b :=
      fun a ha b hb => List.inj_on_of_nodup_map hids ha hb
    refine ⟨?_, ?_⟩
    · refine (List.perm_ext_iff_of_nodup hnodup hids).mpr fun id => ?_
      rw [hmem, mem_ids_okCharts hf hjobs, List.mem_map]
      constructor
      · rintro ⟨app, happ, _, hid⟩
        exact ⟨app, happ, hid⟩
      · rintro ⟨app, happ, hid⟩
        exact ⟨app, happ, hne app happ, hid⟩
    · intro app happ c hc hid
      exact newestFirst_of_merged hf hjobs hinj (List.Nodup.of_map _ hids) happ hid (hmerged c hc)
        (hdesc app happ)

/-- **The order of the versions is the order of arrival.** With every pull succeeding and every
    chart carrying its tag as version, `Charts(false)` always comes to an end and never panics,
    and what it has then pulled (and returns, without a filter rule) is one chart for each
    repository, newest version first with the fields of the newest, if and only if the pulls of
    every repository arrived newest first and every repository has a tag and a chart id of its
    own. -/
theorem charts_exact_iff (env : OciEnv) (repoURL : env.net.Url) (r : OCIRegistry) (tags : Tags)
    (hpull : PullsSucceed env repoURL r tags) :
    Pool.AlwaysEnds numWorkers numWorkers (pullAnswers env repoURL r) (pullItems r tags false) ∧
      ∀ as s, runs (Pool.step numWorkers (pullAnswers env repoURL r)) (pullPool r tags false) as =
        some s → s.phase ≠ .running →
          s.phase = .returned ∧
          ((∀ f, r.filter = some f → f.jq = "") →
            r.chartsOf env s.received = .ok (pulledCharts env s.received)) ∧
          (ChartsExact env repoURL r tags (pulledCharts env s.received) ↔
            ArriveNewestFirst env r tags s.received) := by
  refine ⟨Pool.alwaysEnds (by decide) pullAnswers_total numWorkers _, fun as s h hend => ?_⟩
  have hret : s.phase = .returned := by
    cases hp : s.phase with
    | running => exact absurd hp hend
    | returned => rfl
    | crashed =>
        exfalso
        have hcrash := (Pool.inv_runs h).crashed hp
        rw [pullItems_false] at hcrash
        rcases hcrash with hnone | ⟨j, hj, hbad⟩
        · simp at hnone
        · obtain ⟨j', hj', heq⟩ := List.mem_map.mp hj
          cases heq
          obtain ⟨c, hc, _⟩ := hpull j hj'
          simp [pullAnswers, hc, pullResult] at hbad
  obtain ⟨hf, hjobs⟩ := faithful_of_returned hpull h hret
  refine ⟨hret, fun hrule => ?_, chartsExact_iff_arrive hf hjobs⟩
  rw [OCIRegistry.chartsOf, filterCharts_of_no_rule hrule]
  rfl

end Pulls

/-! ### Two tags of one repository -/

/-- The chart of a tag of `nginxEnv`. -/
def nginxChart (tag : String) : Chart where
  id := "charts/nginx"
  name := "nginx"
  repo := nginxRegistry.internal.repo
  description := "Chart of " ++ tag
  home := ""
  keywords := []
  maintainers := []
  sources := []
  icon := ""
  rawIcon := ""
  iconContentType := ""
  category := ""
  chartVersions := [⟨tag, "", "", "sha256:" ++ tag, [], "", "", ""⟩]

def nginxURL : PlainUrl := ⟨"https", "registry.example.com", "/charts"⟩

/-- Two pulls, by the workers 0 and 1. The pull of worker `w` completes first. -/
def twoPulls (w : Nat) : List (PoolLabel (Except String Chart)) :=
  let done (w : Nat) : List (PoolLabel (Except String Chart)) :=
    [.finish w (some (.ok (nginxChart (if w = 0 then "2.0.0" else "1.0.0")))), .put w, .receive]
  [.send, .send, .closeJobs, .take 0, .take 1] ++ done w ++ done (1 - w) ++
    (List.range numWorkers).map .exit ++ [.closeResults, .ret]

/-- The pool after the two pulls. -/
def twoPulled (first second : String) : PullPool where
  pending := []
  jobs := []
  jobsClosed := true
  workers := List.replicate numWorkers .exited
  results := []
  resultsClosed := true
  received := [(⟨"nginx", first⟩, .ok (nginxChart first)),
    (⟨"nginx", second⟩, .ok (nginxChart second))]
  phase := .returned

/-- The two schedules, run. -/
theorem runs_twoPulls :
    runs (Pool.step numWorkers (pullAnswers (nginxEnv ["2.0.0", "1.0.0"]) nginxURL nginxRegistry))
        (pullPool nginxRegistry (nginxTags ["2.0.0", "1.0.0"]) false) (twoPulls 0) =
          some (twoPulled "2.0.0" "1.0.0") ∧
      runs (Pool.step numWorkers (pullAnswers (nginxEnv ["2.0.0", "1.0.0"]) nginxURL nginxRegistry))
        (pullPool nginxRegistry (nginxTags ["2.0.0", "1.0.0"]) false) (twoPulls 1) =
          some (twoPulled "1.0.0" "2.0.0") := by
  decide +kernel

theorem nginx_pullsSucceed :
    PullsSucceed (nginxEnv ["2.0.0", "1.0.0"]) nginxURL nginxRegistry
      (nginxTags ["2.0.0", "1.0.0"]) := by
  intro j hj
  obtain ⟨happ, htag⟩ := mem_pullJobs.1 hj
  obtain ⟨app, tag⟩ := j
  cases List.mem_singleton.mp happ
  rcases List.mem_cons.mp htag with rfl | htag
  · exact ⟨nginxChart "2.0.0", by decide +kernel, rfl⟩
  · cases List.mem_singleton.mp htag
    exact ⟨nginxChart "1.0.0", by decide +kernel, rfl⟩

theorem charts_exact_nginx :
    ChartsExact (nginxEnv ["2.0.0", "1.0.0"]) nginxURL nginxRegistry
      (nginxTags ["2.0.0", "1.0.0"])
      (pulledCharts (nginxEnv ["2.0.0", "1.0.0"]) (twoPulled "2.0.0" "1.0.0").received) := by
  have h := (charts_exact_iff _ _ _ _ nginx_pullsSucceed).2 _ _ runs_twoPulls.1 (by decide)
  refine h.2.2.mpr ⟨by decide, ?_, ?_⟩
  · intro app happ
    cases List.mem_singleton.mp happ
    decide
  · intro app happ
    cases List.mem_singleton.mp happ
    exact ⟨([(2, 0, 0), (1, 0, 0)] : List (Fin 10 × Fin 10 × Fin 10)), rfl,
      List.pairwise_pair.mpr rfl⟩

/-- When the older tag's pull completes first, the chart has its fields and lists it first. -/
theorem charts_older_first :
    ∃ s, runs (Pool.step numWorkers
        (pullAnswers (nginxEnv ["2.0.0", "1.0.0"]) nginxURL nginxRegistry))
        (pullPool nginxRegistry (nginxTags ["2.0.0", "1.0.0"]) false) (twoPulls 1) = some s ∧
      s.phase = .returned ∧
      nginxRegistry.chartsOf (nginxEnv ["2.0.0", "1.0.0"]) s.received = .ok [{
        nginxChart "1.0.0" with
        chartVersions := (nginxChart "1.0.0").chartVersions ++
          (nginxChart "2.0.0").chartVersions }] ∧
      ¬ ChartsExact (nginxEnv ["2.0.0", "1.0.0"]) nginxURL nginxRegistry
        (nginxTags ["2.0.0", "1.0.0"])
        (pulledCharts (nginxEnv ["2.0.0", "1.0.0"]) s.received) := by
  refine ⟨_, runs_twoPulls.2, rfl, by decide +kernel, ?_⟩
  intro h
  have hfirst := (h.2 "nginx" (by decide) _ List.mem_cons_self (by decide +kernel)).descending
  obtain ⟨vs, hvs, hdesc⟩ := hfirst
  have hvs' : vs = ([(1, 0, 0), (2, 0, 0)] : List (Fin 10 × Fin 10 × Fin 10)) :=
    Option.some.inj (hvs.symm.trans rfl)
  subst hvs'
  exact absurd (List.pairwise_pair.mp hdesc) (by decide)

end Kubeapps.Syncer
