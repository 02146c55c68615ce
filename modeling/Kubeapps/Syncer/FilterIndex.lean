/-
  `OCIRegistry.FilterIndex` after `Checksum`, for every schedule of the tag checkers.

  The tags that arrive for a repository are those of its Helm charts, in some order
  (`gathered_perm`). They are then parsed, sorted and printed. A tag that does not parse ends the
  process (`orderAll_panics`), and one that is not in the form versions are printed in is
  replaced by another string. `filterIndex_exact_iff`: the filtered list is that of the registry
  exactly when every tag of a Helm chart is a canonical version.
-/
import Kubeapps.Syncer.Oci

namespace Kubeapps.Syncer

open Kubeapps.Lib Kubeapps.Models

variable {env : OciEnv}

/-! ## The tags after `Checksum` -/

theorem collectTags_of_not_mem {apps : List String} {tags tags' : Tags} {app : String}
    (h : collectTags env apps tags = .ok tags') (happ : app ∉ apps) : tags' app = tags app := by
  induction apps generalizing tags with
  | nil =>
      cases h
      rfl
  | cons a rest ih =>
      simp only [List.mem_cons, not_or] at happ
      unfold collectTags at h
      split at h
      · cases h
      · rw [ih h happ.2, Function.update_of_ne happ.1]

theorem collectTags_of_mem {apps : List String} {tags tags' : Tags} {app : String}
    (h : collectTags env apps tags = .ok tags') (happ : app ∈ apps) :
    ∃ tl, env.tagList app = .ok tl ∧ tags' app = some tl := by
  induction apps generalizing tags with
  | nil => cases happ
  | cons a rest ih =>
      unfold collectTags at h
      split at h
      · cases h
      · rename_i tl htl
        by_cases hrest : app ∈ rest
        · exact ih h hrest
        · have happ : app = a := by
            rcases List.mem_cons.mp happ with happ | happ
            · exact happ
            · exact absurd happ hrest
          subst happ
          refine ⟨tl, htl, ?_⟩
          rw [collectTags_of_not_mem h hrest, Function.update_self]

/-- After `Checksum` the tags of every repository are the registry's. -/
theorem checksum_tags {r : OCIRegistry} {tags : Tags} {sum : String}
    (h : r.checksum env = .ok (tags, sum)) {app : String} (happ : app ∈ r.repositories) :
    env.tagList app = .ok (tags.get app) := by
  unfold OCIRegistry.checksum at h
  obtain ⟨tags', htags', h⟩ := bind_eq_ok h
  obtain ⟨sum', _, h⟩ := bind_eq_ok h
  cases h
  obtain ⟨tl, htl, hget⟩ := collectTags_of_mem htags' happ
  rw [htl, Tags.get, hget]
  rfl

/-! ## What arrives -/

/-- The tags of `app` among these jobs that are Helm charts. -/
def helmTags (env : OciEnv) (app : String) (js : List CheckTagJob) : List String :=
  (js.filter fun j => j.appName = app ∧ env.isHelmChart j.appName j.tag = .ok true).map
    CheckTagJob.tag

theorem get_update_self (tags : Tags) (app : String) (tl : TagList) :
    Tags.get (Function.update tags app (some tl)) app = tl := by
  simp [Tags.get]

theorem get_update_of_ne (tags : Tags) {app a : String} (h : app ≠ a) (tl : TagList) :
    Tags.get (Function.update tags a (some tl)) app = tags.get app := by
  simp [Tags.get, h]

/-- The receiving loop keeps, by repository, what arrives with a positive answer. -/
theorem gatherTags_get {received : List (CheckTagJob × Except String Bool)}
    (hans : ∀ x ∈ received, x.2 = env.isHelmChart x.1.appName x.1.tag) (unfiltered tags : Tags)
    (app : String) :
    ((gatherTags unfiltered received tags).get app).tags =
      (tags.get app).tags ++ helmTags env app (received.map Prod.fst) := by
  induction received generalizing tags with
  | nil => simp [gatherTags, helmTags]
  | cons x rest ih =>
      obtain ⟨j, res⟩ := x
      have hres := hans (j, res) List.mem_cons_self
      have hrest := fun y hy => hans y (List.mem_cons_of_mem _ hy)
      simp only at hres
      cases hr : res with
      | error e =>
          rw [gatherTags, ih hrest]
          simp [helmTags, ← hres, hr]
      | ok b =>
          cases b with
          | false =>
              rw [gatherTags, ih hrest]
              simp [helmTags, ← hres, hr]
          | true =>
              rw [gatherTags, ih hrest]
              by_cases happ : app = j.appName
              · subst happ
                rw [get_update_self]
                simp [helmTags, ← hres, hr]
              · rw [get_update_of_ne _ happ]
                simp [helmTags, Ne.symm happ]

/-- The jobs of one of several distinct repositories. -/
theorem helmTags_checkJobs {r : OCIRegistry} (hnodup : r.repositories.Nodup) (tags : Tags)
    {app : String} (happ : app ∈ r.repositories) :
    helmTags env app (checkJobs r tags) =
      (tags.get app).tags.filter fun t => env.isHelmChart app t = .ok true := by
  have hjobs : ((checkJobs r tags).filter fun j => j.appName = app) =
      (tags.get app).tags.map fun t => ⟨app, t⟩ := by
    refine filter_flatMap_of_nodup CheckTagJob.appName
      (fun a => (tags.get a).tags.map fun t => ⟨a, t⟩) ?_ hnodup happ
    intro a x hx
    obtain ⟨t, _, rfl⟩ := List.mem_map.mp hx
    rfl
  have hsplit : helmTags env app (checkJobs r tags) =
      ((((checkJobs r tags).filter fun j => j.appName = app).filter
        fun j => env.isHelmChart j.appName j.tag = .ok true).map CheckTagJob.tag) := by
    simp only [helmTags, List.filter_filter, Bool.decide_and, Bool.and_comm]
  rw [hsplit, hjobs]
  simp [List.filter_map, Function.comp_def]

/-- Without regard to multiplicity this needs no distinct names. -/
theorem mem_helmTags_checkJobs {r : OCIRegistry} {tags : Tags} {app t : String}
    (happ : app ∈ r.repositories) :
    t ∈ helmTags env app (checkJobs r tags) ↔
      t ∈ (tags.get app).tags ∧ env.isHelmChart app t = .ok true := by
  simp only [helmTags, checkJobs, List.mem_map, List.mem_filter, List.mem_flatMap,
    decide_eq_true_eq]
  constructor
  · rintro ⟨j, ⟨⟨a, _, t', ht', rfl⟩, rfl, hhelm⟩, rfl⟩
    exact ⟨ht', hhelm⟩
  · rintro ⟨ht, hhelm⟩
    exact ⟨⟨app, t⟩, ⟨⟨app, happ, t, ht, rfl⟩, rfl, hhelm⟩, rfl⟩

section Returned

variable {r : OCIRegistry} {tags : Tags} {as : List (PoolLabel (Except String Bool))}
  {s : CheckPool}

/-- When the pool has returned, what was gathered for a repository is, up to order, the tags of
    its Helm charts. -/
theorem gathered_perm
    (h : runs (Pool.step numWorkers (checkAnswers env)) (checkPool r tags) as = some s)
    (hr : s.phase = .returned) (app : String) :
    ((gatherTags tags s.received fun _ => none).get app).tags.Perm
      (helmTags env app (checkJobs r tags)) := by
  obtain ⟨hperm, hans⟩ := Pool.perm_of_returned (by decide) h hr
  have hans' : ∀ x ∈ s.received, x.2 = env.isHelmChart x.1.appName x.1.tag := by
    intro x hx
    simpa [checkAnswers] using hans x hx
  have hjobs : (s.received.map Prod.fst).Perm (checkJobs r tags) :=
    (List.map_perm_map_iff fun _ _ h => Option.some.inj h).mp hperm
  rw [gatherTags_get hans']
  exact (hjobs.filter _).map _

end Returned

/-! ## Parsing, sorting and printing -/

theorem orderTags_eq_ok {ts out : List String} :
    orderTags env ts = .ok out ↔ ∃ vs, env.semver.parseAll ts = some vs ∧
      out = (env.rt.sort (fun a b => env.semver.lessThan b a) vs).map env.semver.string := by
  unfold orderTags
  cases hvs : env.semver.parseAll ts with
  | none => simp [panics]
  | some vs => simp [eq_comm]

theorem orderTags_ok {ts : List String} (h : ∀ t ∈ ts, env.semver.Valid t) :
    ∃ out, orderTags env ts = .ok out := by
  obtain ⟨vs, hvs⟩ := Semver.parseAll_isSome.2 h
  exact ⟨_, orderTags_eq_ok.2 ⟨vs, hvs, rfl⟩⟩

/-- A tag that is no version panics. -/
theorem orderTags_panics {ts : List String} {t : String} (ht : t ∈ ts)
    (hbad : ¬ env.semver.Valid t) : Panics (orderTags env ts) := by
  unfold orderTags
  cases hvs : env.semver.parseAll ts with
  | none => exact ⟨_, rfl⟩
  | some vs => exact absurd (Semver.parseAll_isSome.1 ⟨vs, hvs⟩ t ht) hbad

theorem valid_of_orderTags {ts out : List String} (h : orderTags env ts = .ok out) :
    ∀ t ∈ ts, env.semver.Valid t := by
  obtain ⟨vs, hvs, _⟩ := orderTags_eq_ok.1 h
  exact Semver.parseAll_isSome.1 ⟨vs, hvs⟩

/-- The printed tags are those of the versions of the list. -/
theorem mem_orderTags {ts out : List String} (h : orderTags env ts = .ok out) {u : String} :
    u ∈ out ↔ ∃ t ∈ ts, ∃ v, env.semver.newVersion t = .ok v ∧ u = env.semver.string v := by
  obtain ⟨vs, hvs, rfl⟩ := orderTags_eq_ok.1 h
  rw [((env.rt.sort_perm _ vs).map env.semver.string).mem_iff]
  clear h
  induction ts generalizing vs with
  | nil =>
      cases hvs
      simp
  | cons t ts ih =>
      obtain ⟨v, ws, hv, hws, rfl⟩ := Semver.parseAll_cons_eq_some.1 hvs
      simp only [List.map_cons, List.mem_cons, ih ws hws, exists_eq_or_imp]
      constructor
      · rintro (rfl | hu)
        · exact .inl ⟨v, hv, rfl⟩
        · exact .inr hu
      · rintro (⟨v', hv', rfl⟩ | hu)
        · cases hv.symm.trans hv'
          exact .inl rfl
        · exact .inr hu

/-- Canonical tags come out as they went in, newest first. -/
theorem orderTags_exact {ts : List String} (hc : ∀ t ∈ ts, env.semver.Canonical t) :
    ∃ out, orderTags env ts = .ok out ∧ out.Perm ts ∧ env.semver.Descending out := by
  have hvalid : ∀ t ∈ ts, env.semver.Valid t := by
    intro t ht
    obtain ⟨v, hv, _⟩ := hc t ht
    exact ⟨v, hv⟩
  obtain ⟨vs, hvs⟩ := Semver.parseAll_isSome.2 hvalid
  have hperm := env.rt.sort_perm (fun a b => env.semver.lessThan b a) vs
  have hsorted := env.rt.sort_ordered (fun a b => env.semver.lessThan b a) vs
    (fun a b h => env.semver.lessThan_asymm b a h)
    (fun a b c hab hbc => env.semver.lessThan_trans c b a hbc hab)
  refine ⟨_, orderTags_eq_ok.2 ⟨vs, hvs, rfl⟩, ?_, ?_⟩
  · have hprinted := hperm.map env.semver.string
    rwa [Semver.map_string_of_canonical hvs hc] at hprinted
  · refine ⟨_, Semver.parseAll_map_string ?_, hsorted⟩
    intro v hv
    obtain ⟨t, ht, hp⟩ := Semver.mem_parseAll hvs (hperm.mem_iff.mp hv)
    obtain ⟨v', hv', hs⟩ := hc t ht
    cases hp.symm.trans hv'
    rw [hs, hp]

theorem orderAll_cons {app : String} {rest : List String} {tags tags' : Tags} :
    orderAll env (app :: rest) tags = .ok tags' ↔
      ∃ ordered, orderTags env (tags.get app).tags = .ok ordered ∧
        orderAll env rest
          (Function.update tags app (some ⟨(tags.get app).name, ordered⟩)) = .ok tags' := by
  rw [orderAll]
  cases orderTags env (tags.get app).tags with
  | error f => simp
  | ok ordered => simp

theorem orderAll_of_not_mem {apps : List String} {tags tags' : Tags} {app : String}
    (h : orderAll env apps tags = .ok tags') (happ : app ∉ apps) : tags' app = tags app := by
  induction apps generalizing tags with
  | nil =>
      cases h
      rfl
  | cons a rest ih =>
      simp only [List.mem_cons, not_or] at happ
      obtain ⟨ordered, _, hrest⟩ := orderAll_cons.1 h
      rw [ih hrest happ.2, Function.update_of_ne happ.1]

/-- Each of several distinct repositories gets its own list ordered. -/
theorem orderAll_of_mem {apps : List String} (hnodup : apps.Nodup) {tags tags' : Tags}
    {app : String} (h : orderAll env apps tags = .ok tags') (happ : app ∈ apps) :
    orderTags env (tags.get app).tags = .ok (tags'.get app).tags := by
  induction apps generalizing tags with
  | nil => cases happ
  | cons a rest ih =>
      rw [List.nodup_cons] at hnodup
      obtain ⟨ordered, hord, hrest⟩ := orderAll_cons.1 h
      rcases List.mem_cons.mp happ with rfl | hin
      · rw [hord, Tags.get, orderAll_of_not_mem hrest hnodup.1, Function.update_self]
        rfl
      · have hne : app ≠ a := by
          rintro rfl
          exact hnodup.1 hin
        rw [← ih hnodup.2 hrest hin, get_update_of_ne _ hne]

theorem orderAll_panics {apps : List String} {tags : Tags} {app t : String} (happ : app ∈ apps)
    (ht : t ∈ (tags.get app).tags) (hbad : ¬ env.semver.Valid t) :
    Panics (orderAll env apps tags) := by
  induction apps generalizing tags with
  | nil => cases happ
  | cons a rest ih =>
      rw [orderAll]
      by_cases ha : app = a
      · subst ha
        obtain ⟨msg, hmsg⟩ := orderTags_panics ht hbad
        rw [hmsg]
        exact ⟨msg, rfl⟩
      · have hrest : app ∈ rest := by
          rcases List.mem_cons.mp happ with happ | happ
          · exact absurd happ ha
          · exact happ
        cases hord : orderTags env (tags.get a).tags with
        | error f =>
            cases f with
            | panic msg => exact ⟨msg, rfl⟩
            | error e =>
                unfold orderTags at hord
                split at hord <;> cases hord
        | ok ordered =>
            refine ih hrest ?_
            rwa [get_update_of_ne _ ha]

theorem orderAll_ok {apps : List String} {tags : Tags}
    (h : ∀ app ∈ apps, ∀ t ∈ (tags.get app).tags, env.semver.Valid t) :
    ∃ tags', orderAll env apps tags = .ok tags' := by
  induction apps generalizing tags with
  | nil => exact ⟨tags, rfl⟩
  | cons a rest ih =>
      obtain ⟨ordered, hord⟩ := orderTags_ok (h a List.mem_cons_self)
      have hnext : ∀ app ∈ rest, ∀ t ∈ (Tags.get (Function.update tags a
          (some ⟨(tags.get a).name, ordered⟩)) app).tags, env.semver.Valid t := by
        intro app happ t ht
        by_cases ha : app = a
        · -- a repository that is listed again: its tags are printed versions by now
          subst ha
          rw [get_update_self] at ht
          obtain ⟨t', _, v, hv, rfl⟩ := (mem_orderTags hord).mp ht
          obtain ⟨v', hv', _⟩ := Semver.canonical_string hv
          exact ⟨v', hv'⟩
        · rw [get_update_of_ne _ ha] at ht
          exact h app (List.mem_cons_of_mem a happ) t ht
      obtain ⟨tags', htags'⟩ := ih hnext
      exact ⟨tags', orderAll_cons.2 ⟨ordered, hord, htags'⟩⟩

/-- The strings `FilterIndex` leaves, without regard to multiplicity and order. -/
theorem mem_orderAll {apps : List String} {tags tags' : Tags} {app : String}
    (h : orderAll env apps tags = .ok tags') (happ : app ∈ apps) {u : String} :
    u ∈ (tags'.get app).tags ↔
      ∃ t ∈ (tags.get app).tags, ∃ v, env.semver.newVersion t = .ok v ∧
        u = env.semver.string v := by
  induction apps generalizing tags with
  | nil => cases happ
  | cons a rest ih =>
      obtain ⟨ordered, hord, hrest⟩ := orderAll_cons.1 h
      by_cases ha : app = a
      · subst ha
        by_cases hin : app ∈ rest
        · rw [ih hrest hin, get_update_self]
          constructor
          · rintro ⟨t, ht, v, hv, rfl⟩
            obtain ⟨t', ht', v', hv', rfl⟩ := (mem_orderTags hord).mp ht
            obtain ⟨w, hw, hs⟩ := Semver.canonical_string hv'
            cases hv.symm.trans hw
            exact ⟨t', ht', v', hv', hs⟩
          · rintro ⟨t, ht, v, hv, rfl⟩
            obtain ⟨w, hw, hs⟩ := Semver.canonical_string hv
            exact ⟨_, (mem_orderTags hord).mpr ⟨t, ht, v, hv, rfl⟩, w, hw, hs.symm⟩
        · rw [Tags.get, orderAll_of_not_mem hrest hin, Function.update_self]
          exact mem_orderTags hord
      · have hin : app ∈ rest := by
          rcases List.mem_cons.mp happ with happ | happ
          · exact absurd happ ha
          · exact happ
        rw [ih hrest hin, get_update_of_ne _ ha]

/-! ## The outcome -/

/-- Every schedule of `FilterIndex` comes to an end. -/
def FilterIndexTerminates (env : OciEnv) (r : OCIRegistry) (tags : Tags) : Prop :=
  Pool.AlwaysEnds numWorkers numWorkers (checkAnswers env) ((checkJobs r tags).map some)

theorem checkAnswers_total (j : CheckTagJob) : ∃ res, checkAnswers env j res = true :=
  ⟨some (env.isHelmChart j.appName j.tag), by simp [checkAnswers]⟩

theorem filterIndex_terminates (env : OciEnv) (r : OCIRegistry) (tags : Tags) :
    FilterIndexTerminates env r tags :=
  Pool.alwaysEnds (by decide) checkAnswers_total numWorkers _

/-- No goroutine of `FilterIndex` panics, so an outcome is that of the sequential part. -/
theorem returned_of_ends {r : OCIRegistry} {tags : Tags} {out : Go Tags}
    (h : FilterIndexEnds env r tags out) :
    ∃ gathered : Tags, out = orderAll env r.repositories gathered ∧
      ∀ app, (gathered.get app).tags.Perm (helmTags env app (checkJobs r tags)) := by
  obtain ⟨as, s, hrun, hout⟩ := h
  split at hout
  · exact absurd hout id
  · rename_i hcrash
    exfalso
    rcases (Pool.inv_runs hrun).crashed hcrash with hmem | ⟨j, _, hnone⟩
    · simp at hmem
    · simp [checkAnswers] at hnone
  · rename_i hret
    exact ⟨_, hout, fun app => gathered_perm hrun hret app⟩

theorem exists_filterIndexEnds (env : OciEnv) (r : OCIRegistry) (tags : Tags) :
    ∃ out, FilterIndexEnds env r tags out := by
  have hstart : runs (Pool.step numWorkers (checkAnswers env)) (checkPool r tags) [] =
      some (checkPool r tags) := rfl
  obtain ⟨bs, t, hrun, hret⟩ := Pool.exists_return (by decide) checkAnswers_total (by simp)
    (by simp [checkAnswers]) hstart
  refine ⟨orderAll env r.repositories (gatherTags tags t.received fun _ => none), bs, t, hrun, ?_⟩
  rw [hret]

/-- What `FilterIndex` should leave: for each repository the tags of the registry that are Helm
    charts and versions, the same strings as often as there, newest first. -/
def FilterIndexExact (env : OciEnv) (r : OCIRegistry) (out : Go Tags) : Prop :=
  ∃ tags', out = .ok tags' ∧ ∀ app ∈ r.repositories, ∀ tl, env.tagList app = .ok tl →
    (tags'.get app).tags.Perm
      (tl.tags.filter fun t => env.isHelmChart app t = .ok true ∧ env.semver.Valid t) ∧
    env.semver.Descending (tags'.get app).tags

/-- Every tag of a Helm chart is a version in the form versions are printed in. -/
def CanonicalTags (env : OciEnv) (r : OCIRegistry) : Prop :=
  ∀ app ∈ r.repositories, ∀ tl, env.tagList app = .ok tl → ∀ t ∈ tl.tags,
    env.isHelmChart app t = .ok true → env.semver.Canonical t

section Exact

variable {r : OCIRegistry} {tags : Tags} {sum : String}

/-- What is gathered for one of several distinct repositories. -/
theorem gathered_perm_filter (hnodup : r.repositories.Nodup) {gathered : Tags}
    (hg : ∀ app, (gathered.get app).tags.Perm (helmTags env app (checkJobs r tags)))
    {app : String} (happ : app ∈ r.repositories) :
    (gathered.get app).tags.Perm
      ((tags.get app).tags.filter fun t => env.isHelmChart app t = .ok true) := by
  rw [← helmTags_checkJobs hnodup tags happ]
  exact hg app

/-- If all Helm charts among the tags are versions, the filter for both is the one for charts. -/
theorem filter_helm_valid {app : String} {ts : List String}
    (h : ∀ t ∈ ts, env.isHelmChart app t = .ok true → env.semver.Valid t) :
    (ts.filter fun t => env.isHelmChart app t = .ok true ∧ env.semver.Valid t) =
      ts.filter fun t => env.isHelmChart app t = .ok true := by
  refine List.filter_congr fun t ht => ?_
  by_cases hhelm : env.isHelmChart app t = .ok true
  · simp [hhelm, h t ht hhelm]
  · simp [hhelm]

theorem exact_of_canonical (hnodup : r.repositories.Nodup)
    (hsum : r.checksum env = .ok (tags, sum)) (hc : CanonicalTags env r) {out : Go Tags}
    (h : FilterIndexEnds env r tags out) : FilterIndexExact env r out := by
  obtain ⟨gathered, rfl, hg⟩ := returned_of_ends h
  have hcanon : ∀ app ∈ r.repositories, ∀ t ∈ (gathered.get app).tags,
      env.semver.Canonical t := by
    intro app happ t ht
    have hmem := List.mem_filter.mp ((gathered_perm_filter hnodup hg happ).mem_iff.mp ht)
    exact hc app happ _ (checksum_tags hsum happ) t hmem.1 (of_decide_eq_true hmem.2)
  obtain ⟨tags', htags'⟩ := orderAll_ok fun app happ t ht => by
    obtain ⟨v, hv, _⟩ := hcanon app happ t ht
    exact ⟨v, hv⟩
  refine ⟨tags', htags', fun app happ tl htl => ?_⟩
  cases (checksum_tags hsum happ).symm.trans htl
  obtain ⟨ordered, hord, hperm, hdesc⟩ := orderTags_exact (hcanon app happ)
  cases hord.symm.trans (orderAll_of_mem hnodup htags' happ)
  rw [filter_helm_valid]
  · exact ⟨hperm.trans (gathered_perm_filter hnodup hg happ), hdesc⟩
  · intro t ht hhelm
    obtain ⟨v, hv, _⟩ := hc app happ _ htl t ht hhelm
    exact ⟨v, hv⟩

theorem canonical_of_exact (hnodup : r.repositories.Nodup)
    (hsum : r.checksum env = .ok (tags, sum))
    (h : ∀ out, FilterIndexEnds env r tags out → FilterIndexExact env r out) :
    CanonicalTags env r := by
  intro app happ tl htl t ht hhelm
  cases (checksum_tags hsum happ).symm.trans htl
  obtain ⟨out, hends⟩ := exists_filterIndexEnds env r tags
  obtain ⟨gathered, rfl, hg⟩ := returned_of_ends hends
  obtain ⟨tags', htags', hexact⟩ := h _ hends
  have hperm := gathered_perm_filter hnodup hg happ
  have hord := orderAll_of_mem hnodup htags' happ
  have hvalid : ∀ t ∈ (tags.get app).tags, env.isHelmChart app t = .ok true →
      env.semver.Valid t := by
    intro t' ht' hhelm'
    refine valid_of_orderTags hord t' (hperm.mem_iff.mpr ?_)
    exact List.mem_filter.mpr ⟨ht', decide_eq_true hhelm'⟩
  have hfinal := (hexact app happ _ (checksum_tags hsum happ)).1
  rw [filter_helm_valid hvalid] at hfinal
  obtain ⟨vs, hvs, heq⟩ := orderTags_eq_ok.1 hord
  rw [heq] at hfinal
  have hprinted : (vs.map env.semver.string).Perm (gathered.get app).tags :=
    (((env.rt.sort_perm _ vs).map _).symm.trans hfinal).trans hperm.symm
  refine Semver.canonical_of_perm hvs hprinted t (hperm.mem_iff.mpr ?_)
  exact List.mem_filter.mpr ⟨ht, decide_eq_true hhelm⟩

/-- **`FilterIndex` is exact when the tags are canonical, and only then.** For distinct
    repositories whose tags `Checksum` has read, all schedules end, and end with exactly the
    tags of the Helm charts, newest first, if and only if each of these tags is a version spelled
    as versions are printed. A tag whose `IsHelmChart` call fails counts as no Helm chart. -/
theorem filterIndex_exact_iff (env : OciEnv) (r : OCIRegistry) (tags : Tags) (sum : String)
    (hnodup : r.repositories.Nodup) (hsum : r.checksum env = .ok (tags, sum)) :
    (FilterIndexTerminates env r tags ∧
        ∀ out, FilterIndexEnds env r tags out → FilterIndexExact env r out) ↔
      CanonicalTags env r := by
  constructor
  · intro h
    exact canonical_of_exact hnodup hsum h.2
  · intro hc
    exact ⟨filterIndex_terminates env r tags, fun out h => exact_of_canonical hnodup hsum hc h⟩

end Exact

/-- The tags `Checksum` reads of `nginxEnv`. -/
def nginxTags (tags : List String) : Tags :=
  Function.update (fun _ => none) "nginx" (some ⟨"nginx", tags⟩)

theorem filterIndex_exact_nginx :
    CanonicalTags (nginxEnv ["1.0.0", "2.0.0"]) nginxRegistry ∧
      FilterIndexTerminates (nginxEnv ["1.0.0", "2.0.0"]) nginxRegistry
        (nginxTags ["1.0.0", "2.0.0"]) ∧
      ∀ out, FilterIndexEnds (nginxEnv ["1.0.0", "2.0.0"]) nginxRegistry
        (nginxTags ["1.0.0", "2.0.0"]) out →
        FilterIndexExact (nginxEnv ["1.0.0", "2.0.0"]) nginxRegistry out := by
  have hc : CanonicalTags (nginxEnv ["1.0.0", "2.0.0"]) nginxRegistry := by
    intro app happ tl htl t ht _
    cases List.mem_singleton.mp happ
    cases htl
    rcases List.mem_cons.mp ht with rfl | ht
    · exact ⟨((1, 0, 0) : Fin 10 × Fin 10 × Fin 10), rfl, rfl⟩
    · cases List.mem_singleton.mp ht
      exact ⟨((2, 0, 0) : Fin 10 × Fin 10 × Fin 10), rfl, rfl⟩
  exact ⟨hc, (filterIndex_exact_iff _ _ _ "4f53cda18c2baa0c" (by decide) rfl).mpr hc⟩

/-- The schedule of one job: it is sent, checked and received, then the workers leave. -/
def oneTagSchedule : List (PoolLabel (Except String Bool)) :=
  [.send, .closeJobs, .take 0, .finish 0 (some (.ok true)), .put 0, .receive] ++
    (List.range numWorkers).map .exit ++ [.closeResults, .ret]

/-- The pool at the end of it. -/
def oneTagPool (tag : String) : CheckPool where
  pending := []
  jobs := []
  jobsClosed := true
  workers := List.replicate numWorkers .exited
  results := []
  resultsClosed := true
  received := [(⟨"nginx", tag⟩, .ok true)]
  phase := .returned

/-- The tag `v1.0.0` of a Helm chart is replaced by `1.0.0`, which the registry does not have. -/
theorem filterIndex_renames_tag :
    ∃ tags', FilterIndexEnds (nginxEnv ["v1.0.0"]) nginxRegistry (nginxTags ["v1.0.0"])
        (.ok tags') ∧ (tags'.get "nginx").tags = ["1.0.0"] ∧
      ¬ FilterIndexExact (nginxEnv ["v1.0.0"]) nginxRegistry (.ok tags') := by
  have hord : orderTags (nginxEnv ["v1.0.0"]) ((gatherTags (nginxTags ["v1.0.0"])
      (oneTagPool "v1.0.0").received fun _ => none).get "nginx").tags = .ok ["1.0.0"] := by
    decide
  obtain ⟨tags', htags'⟩ : ∃ tags', orderAll (nginxEnv ["v1.0.0"]) ["nginx"]
      (gatherTags (nginxTags ["v1.0.0"]) (oneTagPool "v1.0.0").received fun _ => none) =
        .ok tags' :=
    ⟨_, orderAll_cons.2 ⟨["1.0.0"], hord, rfl⟩⟩
  have hget : (tags'.get "nginx").tags = ["1.0.0"] := by
    have := orderAll_of_mem (by decide) htags' List.mem_cons_self
    rw [hord] at this
    exact (Except.ok.inj this).symm
  refine ⟨tags', ⟨oneTagSchedule, oneTagPool "v1.0.0", rfl, htags'.symm⟩, hget, ?_⟩
  rintro ⟨tags'', heq, hexact⟩
  cases heq
  have hperm := (hexact "nginx" (by decide) _ rfl).1
  rw [hget] at hperm
  have hmem := hperm.mem_iff.mp List.mem_cons_self
  exact absurd (List.mem_filter.mp hmem).1 (by decide)

end Kubeapps.Syncer
