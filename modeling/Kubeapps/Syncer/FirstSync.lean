/-
  The calls of a first sync on an OCI registry: `Checksum`, `FilterIndex`, `Charts(true)`,
  `Charts(false)`, each on the tags the calls before it left.

  They always come to an end. `firstSync_safe_iff` says for which registries that end is a result
  or an error and never a panic: every Helm chart's tag parses and, unless the URL of the
  repository does not, every listed repository has a tag that is a Helm chart and no pulled chart
  has a null maintainer.
-/
import Kubeapps.Syncer.OciCharts

namespace Kubeapps.Syncer

open Kubeapps.Lib Kubeapps.Models

variable {env : OciEnv} {repoURL : env.net.Url} {r : OCIRegistry} {tags : Tags}

/-! ## Panics of a pull -/

/-- The artifact is pulled, unpacked and decoded, and one of its maintainers is null. -/
def NullMaintainer (env : OciEnv) (repoURL : env.net.Url) (appName tag : String) : Prop :=
  ∃ buf digest files m,
    env.pullOCIChart (pathJoin
      [env.net.host repoURL, env.net.path repoURL, appName ++ ":" ++ tag]) = .ok (buf, digest) ∧
    extractFilesFromBuffer buf = .ok files ∧ env.yamlUnmarshal files.metadata = .ok m ∧
    none ∈ m.maintainers

theorem panics_derefMaintainers {ms : List (Option Maintainer)} :
    Panics (derefMaintainers ms) ↔ none ∈ ms := by
  induction ms with
  | nil => simp [derefMaintainers, not_panics_ok]
  | cons m ms ih =>
      cases m with
      | none =>
          simp only [derefMaintainers, List.mem_cons, true_or, iff_true]
          exact ⟨_, rfl⟩
      | some m =>
          simp only [List.mem_cons, reduceCtorEq, false_or, ← ih, derefMaintainers]
          cases hms : derefMaintainers ms with
          | ok l =>
              refine iff_of_false ?_ (not_panics_ok l)
              exact not_panics_ok (m :: l)
          | error f => exact Iff.rfl

theorem panics_liftErr_bind {α β : Type} {x : Except String α} {f : α → Go β} :
    Panics (liftErr x >>= f) ↔ ∃ a, x = .ok a ∧ Panics (f a) := by
  cases x with
  | error e =>
      refine iff_of_false ?_ ?_
      · exact not_panics_errors e
      · rintro ⟨a, h, _⟩
        cases h
  | ok a =>
      constructor
      · intro h
        exact ⟨a, rfl, h⟩
      · rintro ⟨a', h, hp⟩
        cases h
        exact hp

theorem panics_bind_pure {α β : Type} {x : Go α} {f : α → β} :
    Panics (x >>= fun a => pure (f a)) ↔ Panics x := by
  cases x with
  | error e =>
      constructor
      · rintro ⟨msg, h⟩
        cases h
        exact ⟨msg, rfl⟩
      · rintro ⟨msg, h⟩
        cases h
        exact ⟨msg, rfl⟩
  | ok a => exact iff_of_false (not_panics_ok (f a)) (not_panics_ok a)

/-- A pull panics on a null maintainer and on nothing else. -/
theorem panics_pullAndExtract {appName tag : String} :
    Panics (pullAndExtract env repoURL appName tag r) ↔
      NullMaintainer env repoURL appName tag := by
  unfold pullAndExtract NullMaintainer
  rw [panics_liftErr_bind]
  simp only [panics_liftErr_bind, Prod.exists]
  constructor
  · rintro ⟨buf, digest, hpull, files, hfiles, m, hm, hp⟩
    rw [panics_bind_pure, panics_derefMaintainers] at hp
    exact ⟨buf, digest, files, m, hpull, hfiles, hm, hp⟩
  · rintro ⟨buf, digest, files, m, hpull, hfiles, hm, hp⟩
    refine ⟨buf, digest, hpull, files, hfiles, m, hm, ?_⟩
    rw [panics_bind_pure, panics_derefMaintainers]
    exact hp

theorem pullResult_eq_none {x : Go Chart} : pullResult x = none ↔ Panics x := by
  cases x with
  | ok c => exact iff_of_false (by simp [pullResult]) (not_panics_ok c)
  | error f =>
      cases f with
      | error e => exact iff_of_false (by simp [pullResult]) (not_panics_errors e)
      | panic msg => exact iff_of_true rfl ⟨msg, rfl⟩

/-! ## Panics of `Charts` -/

/-- Every schedule of `Charts` comes to an end. -/
def ChartsTerminates (env : OciEnv) (r : OCIRegistry) (tags : Tags) (fetchLatestOnly : Bool) :
    Prop :=
  ∀ repoURL, parseRepoURL env.net r.internal.url = .ok repoURL →
    Pool.AlwaysEnds numWorkers numWorkers (pullAnswers env repoURL r)
      (pullItems r tags fetchLatestOnly)

theorem charts_terminates (env : OciEnv) (r : OCIRegistry) (tags : Tags)
    (fetchLatestOnly : Bool) : ChartsTerminates env r tags fetchLatestOnly :=
  fun _ _ => Pool.alwaysEnds (by decide) pullAnswers_total numWorkers _

/-- An item of the producer that panics, or whose pull does. -/
def BadItem (env : OciEnv) (repoURL : env.net.Url) (items : List (Option PullChartJob)) : Prop :=
  none ∈ items ∨ ∃ j, some j ∈ items ∧ NullMaintainer env repoURL j.appName j.tag

/-- `Charts` panics in some schedule exactly when an item is bad. -/
theorem charts_panics_iff (hurl : parseRepoURL env.net r.internal.url = .ok repoURL)
    (fetchLatestOnly : Bool) :
    (∃ out, ChartsEnds env r tags fetchLatestOnly out ∧ Panics out) ↔
      BadItem env repoURL (pullItems r tags fetchLatestOnly) := by
  have hnone : ∀ j, pullAnswers env repoURL r j none = true ↔
      NullMaintainer env repoURL j.appName j.tag := by
    intro j
    rw [← panics_pullAndExtract (r := r), ← pullResult_eq_none]
    simp [pullAnswers, eq_comm]
  unfold ChartsEnds
  simp only [hurl]
  constructor
  · rintro ⟨out, ⟨as, s, hrun, hout⟩, hp⟩
    split at hout
    · exact absurd hout id
    · rename_i hcrash
      rcases (Pool.inv_runs hrun).crashed hcrash with hmem | ⟨j, hj, hbad⟩
      · exact .inl hmem
      · exact .inr ⟨j, hj, (hnone j).mp hbad⟩
    · rw [hout] at hp
      exact absurd hp (not_panics_liftErr _)
  · intro hbad
    have hstart : runs (Pool.step numWorkers (pullAnswers env repoURL r))
        (pullPool r tags fetchLatestOnly) [] = some (pullPool r tags fetchLatestOnly) := rfl
    have hbad' : none ∈ pullItems r tags fetchLatestOnly ∨
        ∃ j, some j ∈ pullItems r tags fetchLatestOnly ∧
          ∀ res, pullAnswers env repoURL r j (some res) = false := by
      rcases hbad with hmem | ⟨j, hj, hnull⟩
      · exact .inl hmem
      · refine .inr ⟨j, hj, fun res => ?_⟩
        have := of_decide_eq_true ((hnone j).mpr hnull)
        simp [pullAnswers, ← this]
    obtain ⟨bs, t, hrun, hcrash⟩ :=
      Pool.exists_crash (by decide) (by decide) pullAnswers_total hbad' hstart
    refine ⟨panics "goroutine panicked", ⟨bs, t, hrun, ?_⟩, _, rfl⟩
    rw [hcrash]

/-- With an unparsable URL `Charts` returns an error. -/
theorem not_panics_of_url_error {e : String}
    (hurl : parseRepoURL env.net r.internal.url = .error e) {fetchLatestOnly : Bool}
    {out : Go (List Chart)} (h : ChartsEnds env r tags fetchLatestOnly out) : ¬ Panics out := by
  unfold ChartsEnds at h
  simp only [hurl] at h
  rw [h]
  exact not_panics_errors e

theorem none_mem_pullItems {fetchLatestOnly : Bool} :
    none ∈ pullItems r tags fetchLatestOnly ↔
      fetchLatestOnly = true ∧ ∃ app ∈ r.repositories, (tags.get app).tags = [] := by
  cases fetchLatestOnly with
  | false => simp [pullItems]
  | true =>
      simp only [pullItems, ↓reduceIte, List.mem_flatMap, List.mem_singleton, true_and]
      refine exists_congr fun app => and_congr_right fun _ => ?_
      rw [eq_comm, Option.map_eq_none_iff, List.head?_eq_none_iff]

theorem mem_pullItems {fetchLatestOnly : Bool} {j : PullChartJob}
    (h : some j ∈ pullItems r tags fetchLatestOnly) : j ∈ pullJobs r tags := by
  rw [mem_pullJobs]
  cases fetchLatestOnly with
  | false =>
      rw [pullItems_false] at h
      obtain ⟨j', hj', heq⟩ := List.mem_map.mp h
      cases heq
      exact mem_pullJobs.1 hj'
  | true =>
      simp only [pullItems, ↓reduceIte, List.mem_flatMap, List.mem_singleton] at h
      obtain ⟨app, happ, heq⟩ := h
      obtain ⟨tag, htag, rfl⟩ := Option.map_eq_some_iff.mp heq.symm
      exact ⟨happ, List.mem_of_head? htag⟩

/-! ## The sequence -/

/-- Every call of the first sync, made on what the calls before it left, comes to an end with a
    result or an error. -/
def FirstSyncSafe (env : OciEnv) (r : OCIRegistry) : Prop :=
  ∀ tags sum, r.checksum env = .ok (tags, sum) →
    (FilterIndexTerminates env r tags ∧
      ∀ out, FilterIndexEnds env r tags out → ¬ Panics out) ∧
    ∀ tags', FilterIndexEnds env r tags (.ok tags') → ∀ fetchLatestOnly,
      ChartsTerminates env r tags' fetchLatestOnly ∧
        ∀ out, ChartsEnds env r tags' fetchLatestOnly out → ¬ Panics out

/-- The tags of the Helm charts of a repository. -/
def HelmTag (env : OciEnv) (app t : String) : Prop :=
  ∃ tl, env.tagList app = .ok tl ∧ t ∈ tl.tags ∧ env.isHelmChart app t = .ok true

/-- `Checksum` fails; or every Helm chart's tag is a version and, if the URL parses, every
    repository has a Helm chart and none of the charts has a null maintainer. -/
def FirstSyncReady (env : OciEnv) (r : OCIRegistry) : Prop :=
  (∃ e, r.checksum env = .error e) ∨
    (∀ app ∈ r.repositories, ∀ t, HelmTag env app t → env.semver.Valid t) ∧
    ∀ repoURL, parseRepoURL env.net r.internal.url = .ok repoURL → ∀ app ∈ r.repositories,
      (∃ t, HelmTag env app t) ∧
      ∀ t v, HelmTag env app t → env.semver.newVersion t = .ok v →
        ¬ NullMaintainer env repoURL app (env.semver.string v)

section Sequence

variable {sum : String}

theorem helmTag_iff (hsum : r.checksum env = .ok (tags, sum)) {app t : String}
    (happ : app ∈ r.repositories) :
    HelmTag env app t ↔ t ∈ helmTags env app (checkJobs r tags) := by
  rw [mem_helmTags_checkJobs happ]
  constructor
  · rintro ⟨tl, htl, ht, hhelm⟩
    cases (checksum_tags hsum happ).symm.trans htl
    exact ⟨ht, hhelm⟩
  · rintro ⟨ht, hhelm⟩
    exact ⟨_, checksum_tags hsum happ, ht, hhelm⟩

/-- `FilterIndex` panics in some schedule, and then in all, when a tag is not a version. -/
theorem filterIndex_panics (hsum : r.checksum env = .ok (tags, sum)) {app t : String}
    (happ : app ∈ r.repositories) (ht : HelmTag env app t) (hbad : ¬ env.semver.Valid t) :
    ∃ out, FilterIndexEnds env r tags out ∧ Panics out := by
  obtain ⟨out, hends⟩ := exists_filterIndexEnds env r tags
  obtain ⟨gathered, rfl, hg⟩ := returned_of_ends hends
  refine ⟨_, hends, orderAll_panics happ ((hg app).mem_iff.mpr ?_) hbad⟩
  exact (helmTag_iff hsum happ).mp ht

theorem filterIndex_ok (hsum : r.checksum env = .ok (tags, sum))
    (hvalid : ∀ app ∈ r.repositories, ∀ t, HelmTag env app t → env.semver.Valid t)
    {out : Go Tags} (h : FilterIndexEnds env r tags out) : ∃ tags', out = .ok tags' := by
  obtain ⟨gathered, rfl, hg⟩ := returned_of_ends h
  refine orderAll_ok fun app happ t ht => hvalid app happ t ?_
  exact (helmTag_iff hsum happ).mpr ((hg app).mem_iff.mp ht)

/-- The tags after `FilterIndex` are the printed versions of the Helm charts' tags. -/
theorem mem_filterIndex (hsum : r.checksum env = .ok (tags, sum)) {tags' : Tags}
    (h : FilterIndexEnds env r tags (.ok tags')) {app : String} (happ : app ∈ r.repositories)
    {u : String} :
    u ∈ (tags'.get app).tags ↔
      ∃ t v, HelmTag env app t ∧ env.semver.newVersion t = .ok v ∧ u = env.semver.string v := by
  obtain ⟨gathered, heq, hg⟩ := returned_of_ends h
  rw [mem_orderAll heq.symm happ]
  constructor
  · rintro ⟨t, ht, v, hv, hu⟩
    exact ⟨t, v, (helmTag_iff hsum happ).mpr ((hg app).mem_iff.mp ht), hv, hu⟩
  · rintro ⟨t, v, ht, hv, hu⟩
    exact ⟨t, (hg app).mem_iff.mpr ((helmTag_iff hsum happ).mp ht), v, hv, hu⟩

end Sequence

theorem ready_of_safe (h : FirstSyncSafe env r) : FirstSyncReady env r := by
  cases hsum : r.checksum env with
  | error e => exact .inl ⟨e, hsum⟩
  | ok res =>
      obtain ⟨tags, sum⟩ := res
      obtain ⟨⟨_, hfilter⟩, hcharts⟩ := h tags sum hsum
      have hvalid : ∀ app ∈ r.repositories, ∀ t, HelmTag env app t → env.semver.Valid t := by
        intro app happ t ht
        by_contra hbad
        obtain ⟨out, hends, hp⟩ := filterIndex_panics hsum happ ht hbad
        exact hfilter out hends hp
      obtain ⟨out, hends⟩ := exists_filterIndexEnds env r tags
      obtain ⟨tags', rfl⟩ := filterIndex_ok hsum hvalid hends
      refine .inr ⟨hvalid, fun repoURL hurl app happ => ⟨?_, ?_⟩⟩
      · -- otherwise `Charts(true)` indexes the empty list of tags
        by_contra hno
        have hnil : (tags'.get app).tags = [] := by
          rw [List.eq_nil_iff_forall_not_mem]
          intro u hu
          obtain ⟨t, _, ht, _⟩ := (mem_filterIndex hsum hends happ).mp hu
          exact hno ⟨t, ht⟩
        have hbad : BadItem env repoURL (pullItems r tags' true) :=
          .inl (none_mem_pullItems.2 ⟨rfl, app, happ, hnil⟩)
        obtain ⟨out, hout, hp⟩ := (charts_panics_iff hurl true).mpr hbad
        exact (hcharts tags' hends true).2 out hout hp
      · -- otherwise `Charts(false)` pulls the chart with the null maintainer
        intro t v ht hv hnull
        have hmem := (mem_filterIndex hsum hends happ).mpr ⟨t, v, ht, hv, rfl⟩
        have hjob : some ⟨app, env.semver.string v⟩ ∈ pullItems r tags' false := by
          rw [pullItems_false]
          exact List.mem_map_of_mem (mem_pullJobs.2 ⟨happ, hmem⟩)
        have hbad : BadItem env repoURL (pullItems r tags' false) := .inr ⟨_, hjob, hnull⟩
        obtain ⟨out, hout, hp⟩ := (charts_panics_iff hurl false).mpr hbad
        exact (hcharts tags' hends false).2 out hout hp

theorem safe_of_ready (h : FirstSyncReady env r) : FirstSyncSafe env r := by
  intro tags sum hsum
  rcases h with ⟨e, he⟩ | ⟨hvalid, hready⟩
  · cases he.symm.trans hsum
  refine ⟨⟨filterIndex_terminates env r tags, ?_⟩, ?_⟩
  · intro out hends
    obtain ⟨tags', rfl⟩ := filterIndex_ok hsum hvalid hends
    exact not_panics_ok tags'
  · intro tags' hends fetchLatestOnly
    refine ⟨charts_terminates env r tags' fetchLatestOnly, fun out hout hp => ?_⟩
    cases hurl : parseRepoURL env.net r.internal.url with
    | error e => exact not_panics_of_url_error hurl hout hp
    | ok repoURL =>
        rcases (charts_panics_iff hurl fetchLatestOnly).mp ⟨out, hout, hp⟩ with
          hnone | ⟨j, hj, hnull⟩
        · obtain ⟨_, app, happ, hnil⟩ := none_mem_pullItems.1 hnone
          obtain ⟨⟨t, ht⟩, _⟩ := hready repoURL hurl app happ
          obtain ⟨v, hv⟩ := hvalid app happ t ht
          have := (mem_filterIndex hsum hends happ).mpr ⟨t, v, ht, hv, rfl⟩
          rw [hnil] at this
          cases this
        · obtain ⟨happ, htag⟩ := mem_pullJobs.1 (mem_pullItems hj)
          obtain ⟨t, v, ht, hv, hu⟩ := (mem_filterIndex hsum hends happ).mp htag
          rw [hu] at hnull
          exact (hready repoURL hurl j.appName happ).2 t v ht hv hnull

/-- **When the first sync cannot panic.** -/
theorem firstSync_safe_iff (env : OciEnv) (r : OCIRegistry) :
    FirstSyncSafe env r ↔ FirstSyncReady env r :=
  ⟨ready_of_safe, safe_of_ready⟩

/-- A repository without tags: `Charts(true)` indexes the empty list. -/
theorem firstSync_panics_on_empty_repository : ¬ FirstSyncSafe (nginxEnv []) nginxRegistry := by
  intro h
  rcases ready_of_safe h with ⟨e, he⟩ | ⟨_, hready⟩
  · cases he
  · have hurl : PlainUrl.parseRequestURI (trimSpace nginxRegistry.internal.url) = .ok nginxURL := by
      decide
    obtain ⟨⟨t, tl, htl, ht, _⟩, _⟩ := hready nginxURL hurl "nginx" (by decide)
    cases htl
    cases ht

end Kubeapps.Syncer
