/-
  How the flux plugin gets the URL of a chart tarball (server.go: pullChartTarball; conditions.go:
  isChartPullComplete, waitUntilChartPullComplete).

  It takes the first completed HelmChart of the namespace with this chart and repository. If there
  is none it creates one and watches the namespace from then on. The watch is the list of the
  events that arrive on it, of the new HelmChart and of all others in the order in which they come;
  a list that ends before the wait does is a call that still waits (`none`).

  The first event with a completed HelmChart ends the wait, whichever HelmChart that is.
  `pullChartTarball_iff` says what of the events decides whether the URL is the right one;
  `pullChartTarball_of_own_events` is the case in which no other HelmChart completes meanwhile.
-/
import Kubeapps.Flux.Cache

namespace Kubeapps.Flux

open Kubeapps.Lib

variable {β : Type}

/-! ## HelmCharts -/

/-- `isChartPullComplete`: generation and conditions are looked at as for a HelmRepository. With
    status "False" it returns true beside the error, and both callers return the error. -/
def isChartPullComplete (env : Env β) (unstructuredChart : Value) : Except String Bool :=
  isRepoReady env unstructuredChart

/-- The field status.url of a HelmChart. -/
def chartURL (env : Env β) (unstructuredChart : Value) : Except String String :=
  requiredString env unstructuredChart ["status", "url"]
    "expected field status.url not found on HelmChart: "

/-- The HelmChart has this chart and this repository. -/
def Requested (env : Env β) (repoName chartName : String) (unstructuredChart : Value) : Prop :=
  env.acc.nestedString unstructuredChart ["spec", "chart"] = .ok (some chartName) ∧
    env.acc.nestedString unstructuredChart ["spec", "sourceRef", "name"] = .ok (some repoName)

instance (env : Env β) (repoName chartName : String) :
    DecidablePred (Requested env repoName chartName) :=
  fun _ => inferInstanceAs (Decidable (_ ∧ _))

/-- The HelmChart that `pullChartTarball` creates. -/
def newHelmChart (repoName chartName : String) : Value :=
  .map [
    ("apiVersion", .string "source.toolkit.fluxcd.io/v1beta1"),
    ("kind", .string "HelmChart"),
    ("metadata", .map [("generateName", .string (chartName ++ "-"))]),
    ("spec", .map [
      ("chart", .string chartName),
      ("sourceRef", .map [("name", .string repoName), ("kind", .string "HelmRepository")]),
      ("interval", .string "10m")])]

/-! ## The wait -/

/-- An event printed by `%v`. What a closed channel returns has the empty type. -/
def printEvent (env : Env β) (event : Event) : String :=
  let type :=
    match event.type with
    | .added => "ADDED"
    | .modified => "MODIFIED"
    | .deleted => "DELETED"
    | .other type => type
  "\x7b" ++ type ++ " " ++ (event.object.map env.sprint).getD "<nil>" ++ "\x7d"

/-- `waitUntilChartPullComplete`. -/
def waitUntilChartPullComplete (env : Env β) : List Event → Option (Except String String)
  | [] => none
  | event :: rest =>
      if event.type = .modified then
        match event.object with
        | none => some (.error "Could not cast to unstructured.Unstructured")
        | some unstructuredChart =>
            match isChartPullComplete env unstructuredChart with
            | .error err => some (.error err)
            | .ok true => some (chartURL env unstructuredChart)
            | .ok false => waitUntilChartPullComplete env rest
      else some (.error ("got unexpected event: " ++ printEvent env event))

/-- A Modified event of a HelmChart that is not complete. -/
def Event.Pending (env : Env β) (event : Event) : Prop :=
  event.type = .modified ∧
    ∃ chart, event.object = some chart ∧ isChartPullComplete env chart = .ok false

/-- The first event that is not of a pending HelmChart is of a completed one, this one. -/
def FirstComplete (env : Env β) (events : List Event) (chart : Value) : Prop :=
  ∃ before event after, events = before ++ event :: after ∧ (∀ e ∈ before, e.Pending env) ∧
    event.type = .modified ∧ event.object = some chart ∧ isChartPullComplete env chart = .ok true

/-- A pending event is passed over. -/
theorem wait_pending {env : Env β} {event : Event} (hpending : event.Pending env)
    (rest : List Event) :
    waitUntilChartPullComplete env (event :: rest) = waitUntilChartPullComplete env rest := by
  obtain ⟨htype, chart, hobject, hdone⟩ := hpending
  rw [waitUntilChartPullComplete, if_pos htype, hobject]
  dsimp only
  rw [hdone]

/-- A wait that returns a URL has it from the first completed HelmChart. -/
theorem wait_eq_ok_iff (env : Env β) (events : List Event) (url : String) :
    waitUntilChartPullComplete env events = some (.ok url) ↔
      ∃ chart, FirstComplete env events chart ∧ chartURL env chart = .ok url := by
  constructor
  · intro hwait
    induction events with
    | nil => cases hwait
    | cons event rest ih =>
        by_cases hpending : event.Pending env
        · rw [wait_pending hpending] at hwait
          obtain ⟨chart, ⟨before, last, after, hevents, hbefore, hlast⟩, hurl⟩ := ih hwait
          refine ⟨chart, ⟨event :: before, last, after, ?_, ?_, hlast⟩, hurl⟩
          · rw [hevents, List.cons_append]
          · intro e he
            rcases List.mem_cons.mp he with rfl | he
            · exact hpending
            · exact hbefore e he
        · unfold waitUntilChartPullComplete at hwait
          split at hwait
          · rename_i htype
            split at hwait
            · cases hwait
            · rename_i chart hobject
              split at hwait
              · cases hwait
              · rename_i hdone
                refine ⟨chart, ⟨[], event, rest, rfl, ?_, htype, hobject, hdone⟩, ?_⟩
                · intro e he
                  cases he
                · exact Option.some.inj hwait
              · rename_i hdone
                exact absurd ⟨htype, chart, hobject, hdone⟩ hpending
          · cases hwait
  · rintro ⟨chart, ⟨before, event, after, rfl, hbefore, htype, hobject, hdone⟩, hurl⟩
    induction before with
    | nil =>
        rw [List.nil_append, waitUntilChartPullComplete, if_pos htype, hobject]
        dsimp only
        rw [hdone]
        exact congrArg some hurl
    | cons first before ih =>
        rw [List.cons_append, wait_pending (hbefore first List.mem_cons_self)]
        exact ih fun e he => hbefore e (List.mem_cons_of_mem first he)

theorem FirstComplete.mem {env : Env β} {events : List Event} {chart : Value}
    (h : FirstComplete env events chart) : ∃ event ∈ events, event.object = some chart := by
  obtain ⟨before, event, after, rfl, _, _, hobject, _⟩ := h
  exact ⟨event, List.mem_append_right before List.mem_cons_self, hobject⟩

/-! ## `pullChartTarball` -/

/-- The HelmCharts of one namespace: what a list, a create and a watch from a resource version
    answer. -/
structure HelmCharts where
  list : Except String (List Value)
  create : Value → Except String Value
  watch : String → Except String (List Event)

/-- The loop over the HelmCharts that exist. -/
def existingChart (env : Env β) (repoName chartName : String) :
    List Value → Except String (Option String)
  | [] => .ok none
  | unstructuredChart :: rest =>
      if Requested env repoName chartName unstructuredChart then
        match isChartPullComplete env unstructuredChart with
        | .error err => .error err
        | .ok true => (chartURL env unstructuredChart).map some
        | .ok false => existingChart env repoName chartName rest
      else existingChart env repoName chartName rest

/-- `GetResourceVersion`. -/
def resourceVersion (env : Env β) (obj : Value) : String :=
  match env.acc.nestedString obj ["metadata", "resourceVersion"] with
  | .ok (some version) => version
  | _ => ""

/-- Create the HelmChart and watch. -/
def watchNewChart (env : Env β) (charts : HelmCharts) (repoName chartName : String) :
    Except String (List Event) := do
  let newChart ← charts.create (newHelmChart repoName chartName)
  charts.watch (resourceVersion env newChart)

/-- `pullChartTarball`. -/
def pullChartTarball (env : Env β) (resourceIfc : Except String HelmCharts)
    (repoName chartName : String) : Option (Except String String) :=
  match resourceIfc with
  | .error err => some (.error err)
  | .ok charts =>
      match charts.list with
      | .error err => some (.error err)
      | .ok items =>
          match existingChart env repoName chartName items with
          | .error err => some (.error err)
          | .ok (some url) => some (.ok url)
          | .ok none =>
              match watchNewChart env charts repoName chartName with
              | .error err => some (.error err)
              | .ok events => waitUntilChartPullComplete env events

/-- A HelmChart as the call sees it, in the list or in an event. -/
def Seen (env : Env β) (charts : HelmCharts) (repoName chartName : String) (chart : Value) : Prop :=
  (∃ items, charts.list = .ok items ∧ chart ∈ items) ∨
    ∃ events, watchNewChart env charts repoName chartName = .ok events ∧
      ∃ event ∈ events, event.object = some chart

/-- The URL is the one of a HelmChart with this chart and this repository. -/
def RequestedURL (env : Env β) (charts : HelmCharts) (repoName chartName url : String) : Prop :=
  ∃ chart, Seen env charts repoName chartName chart ∧ Requested env repoName chartName chart ∧
    chartURL env chart = .ok url

section

variable {env : Env β} {charts : HelmCharts} {repoName chartName : String}

/-- The loop returns only URLs of HelmCharts with this chart and this repository. -/
theorem existingChart_requested {items : List Value} {url : String}
    (h : existingChart env repoName chartName items = .ok (some url)) :
    ∃ chart ∈ items, Requested env repoName chartName chart ∧ chartURL env chart = .ok url := by
  induction items with
  | nil => cases h
  | cons chart rest ih =>
      have hrest : existingChart env repoName chartName rest = .ok (some url) →
          ∃ c ∈ chart :: rest, Requested env repoName chartName c ∧ chartURL env c = .ok url := by
        intro hrest
        obtain ⟨c, hc, hreq⟩ := ih hrest
        exact ⟨c, List.mem_cons_of_mem chart hc, hreq⟩
      unfold existingChart at h
      split at h
      · rename_i hreq
        split at h
        · cases h
        · refine ⟨chart, List.mem_cons_self, hreq, ?_⟩
          cases hurl : chartURL env chart with
          | error err =>
              rw [hurl] at h
              cases h
          | ok url' =>
              rw [hurl] at h
              rw [Option.some.inj (Except.ok.inj h)]
        · exact hrest h
      · exact hrest h

/-- A call that does not find the chart returns what the watch gives. -/
theorem pullChartTarball_of_watch {items : List Value} {events : List Event}
    (hlist : charts.list = .ok items)
    (hnone : existingChart env repoName chartName items = .ok none)
    (hwatch : watchNewChart env charts repoName chartName = .ok events) :
    pullChartTarball env (.ok charts) repoName chartName =
      waitUntilChartPullComplete env events := by
  unfold pullChartTarball
  dsimp only
  rw [hlist]
  dsimp only
  rw [hnone]
  dsimp only
  rw [hwatch]

/-- Where the URL comes from: the list, or else the watch. -/
theorem pullChartTarball_eq_ok {url : String}
    (h : pullChartTarball env (.ok charts) repoName chartName = some (.ok url)) :
    ∃ items, charts.list = .ok items ∧
      (existingChart env repoName chartName items = .ok (some url) ∨
        (existingChart env repoName chartName items = .ok none ∧
          ∃ events, watchNewChart env charts repoName chartName = .ok events ∧
            waitUntilChartPullComplete env events = some (.ok url))) := by
  unfold pullChartTarball at h
  dsimp only at h
  split at h
  · cases h
  · rename_i items hlist
    refine ⟨items, hlist, ?_⟩
    split at h
    · cases h
    · rename_i url' hexisting
      rw [hexisting, Except.ok.inj (Option.some.inj h)]
      exact Or.inl rfl
    · rename_i hnone
      split at h
      · cases h
      · rename_i events hwatch
        exact Or.inr ⟨hnone, events, hwatch, h⟩

end

/-- A URL that is returned is the right one exactly if, whenever the call has to watch, the HelmChart
    that completes first has this chart and this repository, or has no URL, or has the URL of one
    that does. -/
theorem pullChartTarball_iff (env : Env β) (charts : HelmCharts) (repoName chartName : String) :
    (∀ url, pullChartTarball env (.ok charts) repoName chartName = some (.ok url) →
        RequestedURL env charts repoName chartName url) ↔
      ∀ items events chart, charts.list = .ok items →
        existingChart env repoName chartName items = .ok none →
        watchNewChart env charts repoName chartName = .ok events →
        FirstComplete env events chart →
          Requested env repoName chartName chart ∨ (∀ url, chartURL env chart ≠ .ok url) ∨
            ∃ chart', Seen env charts repoName chartName chart' ∧
              Requested env repoName chartName chart' ∧ chartURL env chart' = chartURL env chart := by
  constructor
  · intro hall items events chart hlist hnone hwatch hfirst
    cases hurl : chartURL env chart with
    | error err =>
        refine Or.inr (Or.inl fun url hok => ?_)
        cases hok
    | ok url =>
        have hwait := (wait_eq_ok_iff env events url).mpr ⟨chart, hfirst, hurl⟩
        obtain ⟨chart', hseen, hreq, hurl'⟩ :=
          hall url ((pullChartTarball_of_watch hlist hnone hwatch).trans hwait)
        exact Or.inr (Or.inr ⟨chart', hseen, hreq, hurl'⟩)
  · intro hcond url hpull
    obtain ⟨items, hlist, hexisting | ⟨hnone, events, hwatch, hwait⟩⟩ :=
      pullChartTarball_eq_ok hpull
    · obtain ⟨chart, hmem, hreq, hurl⟩ := existingChart_requested hexisting
      exact ⟨chart, Or.inl ⟨items, hlist, hmem⟩, hreq, hurl⟩
    · obtain ⟨chart, hfirst, hurl⟩ := (wait_eq_ok_iff env events url).mp hwait
      rcases hcond items events chart hlist hnone hwatch hfirst with hreq | hno | ⟨c, hc, hreq, heq⟩
      · exact ⟨chart, Or.inr ⟨events, hwatch, hfirst.mem⟩, hreq, hurl⟩
      · exact absurd hurl (hno url)
      · exact ⟨c, hc, hreq, heq.trans hurl⟩

/-- As long as no other HelmChart completes while the call waits, the URL is the right one. -/
theorem pullChartTarball_of_own_events (env : Env β) (charts : HelmCharts)
    (repoName chartName : String)
    (hown : ∀ events event chart, watchNewChart env charts repoName chartName = .ok events →
      event ∈ events → event.object = some chart → isChartPullComplete env chart = .ok true →
        Requested env repoName chartName chart) (url : String)
    (hpull : pullChartTarball env (.ok charts) repoName chartName = some (.ok url)) :
    RequestedURL env charts repoName chartName url := by
  obtain ⟨items, hlist, hexisting | ⟨_, events, hwatch, hwait⟩⟩ := pullChartTarball_eq_ok hpull
  · obtain ⟨chart, hmem, hreq, hurl⟩ := existingChart_requested hexisting
    exact ⟨chart, Or.inl ⟨items, hlist, hmem⟩, hreq, hurl⟩
  · obtain ⟨chart, hfirst, hurl⟩ := (wait_eq_ok_iff env events url).mp hwait
    obtain ⟨event, hevent, hobject⟩ := hfirst.mem
    obtain ⟨_, _, _, _, _, _, _, hdone⟩ := hfirst
    exact ⟨chart, Or.inr ⟨events, hwatch, event, hevent, hobject⟩,
      hown events event chart hwatch hevent hobject hdone, hurl⟩

/-- A HelmChart of the repository `bitnami`, completed if it has a URL. -/
def bitnamiChart (chartName : String) (url : Option String) : Value :=
  .map [
    ("metadata", .map [("generation", .int64 1)]),
    ("spec", .map [
      ("chart", .string chartName),
      ("sourceRef", .map [("name", .string "bitnami"), ("kind", .string "HelmRepository")])]),
    ("status", .map (
      match url with
      | some url => [
          ("observedGeneration", .int64 1), ("url", .string url),
          ("conditions", .slice [.map [("type", .string "Ready"), ("status", .string "True")]])]
      | none => []))]

/-- While the HelmChart for `nginx` is reconciled, that for `redis` completes. -/
def twoCharts : HelmCharts where
  list := .ok [bitnamiChart "redis" none]
  create _ := .ok (bitnamiChart "nginx" none)
  watch _ := .ok [
    ⟨.modified, some (bitnamiChart "nginx" none)⟩,
    ⟨.modified, some (bitnamiChart "redis" (some "http://source-controller/redis-latest.tgz"))⟩,
    ⟨.modified, some (bitnamiChart "nginx" (some "http://source-controller/nginx-latest.tgz"))⟩]

/-- The tarball of `redis` is returned for `nginx`. -/
theorem pullChartTarball_other_chart :
    let url := "http://source-controller/redis-latest.tgz"
    pullChartTarball emptyIndexEnv (.ok twoCharts) "bitnami" "nginx" = some (.ok url) ∧
      ¬ (∀ url, pullChartTarball emptyIndexEnv (.ok twoCharts) "bitnami" "nginx" =
        some (.ok url) → RequestedURL emptyIndexEnv twoCharts "bitnami" "nginx" url) := by
  intro url
  have hpull : pullChartTarball emptyIndexEnv (.ok twoCharts) "bitnami" "nginx" =
      some (.ok url) := by decide
  refine ⟨hpull, fun hall => ?_⟩
  obtain ⟨chart, hseen, hreq, hurl⟩ := hall url hpull
  -- the HelmCharts seen for `nginx` have no URL or another one
  rcases hseen with ⟨items, hlist, hmem⟩ | ⟨events, hwatch, event, hmem, hobject⟩
  · rw [← Except.ok.inj hlist, List.mem_singleton] at hmem
    subst hmem
    exact absurd hreq.1 (by decide)
  · rw [← Except.ok.inj hwatch] at hmem
    simp only [List.mem_cons, List.not_mem_nil, or_false] at hmem
    rcases hmem with rfl | rfl | rfl
    · rw [← Option.some.inj hobject] at hurl
      exact absurd hurl (by decide)
    · rw [← Option.some.inj hobject] at hreq
      exact absurd hreq.1 (by decide)
    · rw [← Option.some.inj hobject] at hurl
      exact absurd hurl (by decide)

end Kubeapps.Flux
