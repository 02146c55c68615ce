/-
  The version selector of a chart (src/dashboard/src/actions/charts.ts: getChart, getChartVersion;
  src/dashboard/src/components/UpgradeForm/UpgradeForm.tsx: selectVersion).

  A selection starts a call of `getChartVersion`, which waits three times: for the version, its
  values and its schema. The answers of several calls arrive in any order, and each call ends by
  overwriting the selection. `selected_iff`: when all have arrived, the selection is that of the
  version requested last exactly if the call that ends last is one for it, or for a version with the
  same answers.
-/
import Kubeapps.Dashboard.Charts
import Kubeapps.Lib.Steps

namespace Kubeapps.Dashboard

open Kubeapps.Lib

/-- What is answered for the versions of the chart. `none` is a `NotFoundError`. -/
structure VersionServer where
  chartVersion : String → ChartVersion
  values : String → Option String
  schema : String → Option String

/-- What a call of `getChart` waits for, with what it has received. -/
inductive VersionCall where
  | chartVersion
  | values (chartVersion : ChartVersion)
  | schema (chartVersion : ChartVersion) (values : String)
  deriving DecidableEq, Repr

structure VersionRequest where
  version : String
  call : VersionCall
  deriving DecidableEq, Repr

/-- What `getChart` does with an answer: it waits again, or returns. -/
inductive Resumed where
  | waits (call : VersionCall)
  | returns (chartVersion : ChartVersion) (values schema : String)
  deriving DecidableEq, Repr

/-- `getChart`, from an answer on. -/
def VersionRequest.resume (server : VersionServer) (req : VersionRequest) : Resumed :=
  match req.call with
  | .chartVersion => .waits (.values (server.chartVersion req.version))
  | .values chartVersion =>
      match server.values req.version with
      | some values => .waits (.schema chartVersion values)
      | none => .returns chartVersion "" "\x7b\x7d"
  | .schema chartVersion values =>
      match server.schema req.version with
      | some schema => .returns chartVersion values schema
      | none => .returns chartVersion values "\x7b\x7d"

/-- The store, and the calls that wait. -/
structure VersionSelector where
  charts : ChartState
  pending : List VersionRequest
  deriving DecidableEq, Repr

inductive VersionEvent where
  | getChartVersion (version : String)
  | respond (request : Nat)
  deriving DecidableEq, Repr

def VersionSelector.step (server : VersionServer) (st : VersionSelector) :
    VersionEvent → Option VersionSelector
  | .getChartVersion version =>
      some ⟨chartsReducer st.charts .other, st.pending ++ [⟨version, .chartVersion⟩]⟩
  | .respond request => do
      let req ← st.pending[request]?
      match req.resume server with
      | .waits call => some { st with pending := st.pending.set request { req with call := call } }
      | .returns chartVersion values schema =>
          some ⟨chartsReducer st.charts
              (.selectChartVersion chartVersion (some values) (some schema)),
            st.pending.eraseIdx request⟩

/-- The version, values and schema that are answered for a version. -/
def VersionServer.answer (server : VersionServer) (version : String) :
    ChartVersion × String × String :=
  match server.values version with
  | some values =>
      (server.chartVersion version, values, (server.schema version).getD "\x7b\x7d")
  | none => (server.chartVersion version, "", "\x7b\x7d")

/-- The selection is that of the version. -/
def ChartState.Selects (server : VersionServer) (charts : ChartState) (version : String) : Prop :=
  charts.selected.version = some (server.answer version).1 ∧
    charts.selected.values = some (server.answer version).2.1 ∧
      charts.selected.schema = some (server.answer version).2.2

/-- The versions that are requested. -/
def requested (events : List VersionEvent) : List String :=
  events.filterMap fun
    | .getChartVersion version => some version
    | .respond _ => none

/-- The only call that waits before the last event is one for the version, or for one with the same
    answers. -/
def EndsLast (server : VersionServer) (charts : ChartState) (events : List VersionEvent)
    (version : String) : Prop :=
  ∃ before last st req, events = before ++ [last] ∧
    runs (VersionSelector.step server) ⟨charts, []⟩ before = some st ∧ st.pending = [req] ∧
      server.answer req.version = server.answer version

/-- What a call has received is what is answered for its version. -/
def VersionRequest.Of (server : VersionServer) (req : VersionRequest) : Prop :=
  match req.call with
  | .chartVersion => True
  | .values chartVersion => chartVersion = server.chartVersion req.version
  | .schema chartVersion values =>
      chartVersion = server.chartVersion req.version ∧ server.values req.version = some values

theorem eq_singleton_of_eraseIdx {α : Type} {l : List α} {i : Nat} {a : α} (ha : l[i]? = some a)
    (h : l.eraseIdx i = []) : l = [a] := by
  obtain ⟨hi, hget⟩ := List.getElem?_eq_some_iff.mp ha
  have hlen := congrArg List.length h
  rw [List.length_eraseIdx_of_lt hi, List.length_nil] at hlen
  have hone : l.length = 1 := by omega
  obtain ⟨b, hb⟩ := List.length_eq_one_iff.mp hone
  have hzero : i = 0 := by omega
  rw [hb, hzero] at ha
  rw [hb, Option.some.inj ha]

section Versions

variable {server : VersionServer} {req : VersionRequest} {st st' : VersionSelector}
  {e : VersionEvent}

theorem of_resume (h : req.Of server) {call : VersionCall}
    (hresume : req.resume server = .waits call) : { req with call := call }.Of server := by
  obtain ⟨version, waiting⟩ := req
  unfold VersionRequest.resume at hresume
  cases waiting with
  | chartVersion =>
      rw [← Resumed.waits.inj hresume]
      exact rfl
  | values chartVersion =>
      dsimp only at hresume
      cases hvalues : server.values version with
      | none =>
          rw [hvalues] at hresume
          exact nomatch hresume
      | some values =>
          rw [hvalues] at hresume
          rw [← Resumed.waits.inj hresume]
          exact ⟨h, hvalues⟩
  | schema chartVersion values =>
      dsimp only at hresume
      cases hschema : server.schema version with
      | none =>
          rw [hschema] at hresume
          exact nomatch hresume
      | some schema =>
          rw [hschema] at hresume
          exact nomatch hresume

/-- A call returns what is answered for its version. -/
theorem answer_of_resume (h : req.Of server) {chartVersion : ChartVersion} {values schema : String}
    (hresume : req.resume server = .returns chartVersion values schema) :
    server.answer req.version = (chartVersion, values, schema) := by
  obtain ⟨version, waiting⟩ := req
  unfold VersionRequest.resume at hresume
  unfold VersionServer.answer
  cases waiting with
  | chartVersion => exact nomatch hresume
  | values received =>
      dsimp only at hresume ⊢
      cases hvalues : server.values version with
      | none =>
          rw [hvalues] at hresume
          obtain ⟨hversion, hvalues', hschema⟩ := Resumed.returns.inj hresume
          rw [← hversion, ← hvalues', ← hschema]
          exact congrArg (·, "", "\x7b\x7d") (show server.chartVersion version = received from h.symm)
      | some values =>
          rw [hvalues] at hresume
          exact nomatch hresume
  | schema received values' =>
      obtain ⟨hreceived, hvalues⟩ := h
      dsimp only at hreceived hvalues hresume ⊢
      rw [hvalues, ← hreceived]
      cases hschema : server.schema version with
      | none =>
          rw [hschema] at hresume
          obtain ⟨hversion, hvalues', hschema'⟩ := Resumed.returns.inj hresume
          rw [← hversion, ← hvalues', ← hschema']
          rfl
      | some schema' =>
          rw [hschema] at hresume
          obtain ⟨hversion, hvalues', hschema'⟩ := Resumed.returns.inj hresume
          rw [← hversion, ← hvalues', ← hschema']
          rfl

theorem pendingOf_step (h : ∀ req ∈ st.pending, req.Of server)
    (hstep : st.step server e = some st') : ∀ req ∈ st'.pending, req.Of server := by
  cases e with
  | getChartVersion version =>
      rw [← Option.some.inj hstep]
      intro req hreq
      rcases List.mem_append.mp hreq with hold | hnew
      · exact h req hold
      · rw [List.mem_singleton.mp hnew]
        exact trivial
  | respond request =>
      obtain ⟨req, hreq, hstep⟩ := Option.bind_eq_some_iff.mp hstep
      split at hstep
      · rename_i call hresume
        rw [← Option.some.inj hstep]
        intro req' hreq'
        rcases List.mem_or_eq_of_mem_set hreq' with hold | hnew
        · exact h req' hold
        · rw [hnew]
          exact of_resume (h req (List.mem_of_getElem? hreq)) hresume
      · rw [← Option.some.inj hstep]
        exact fun req' hreq' => h req' (List.mem_of_mem_eraseIdx hreq')

/-- The event after which nothing waits ends the only call, which then is the selection. -/
theorem selects_of_last (h : ∀ req ∈ st.pending, req.Of server)
    (hstep : st.step server e = some st') (hdone : st'.pending = []) :
    ∃ req, st.pending = [req] ∧ st'.charts.Selects server req.version := by
  cases e with
  | getChartVersion version =>
      rw [← Option.some.inj hstep] at hdone
      exact absurd hdone (List.append_ne_nil_of_right_ne_nil _ (List.cons_ne_nil _ _))
  | respond request =>
      obtain ⟨req, hreq, hstep⟩ := Option.bind_eq_some_iff.mp hstep
      split at hstep
      · rw [← Option.some.inj hstep] at hdone
        have hlen := congrArg List.length hdone
        rw [List.length_set, List.length_nil] at hlen
        rw [List.eq_nil_of_length_eq_zero hlen] at hreq
        exact nomatch hreq
      · rename_i chartVersion values schema hresume
        rw [← Option.some.inj hstep] at hdone ⊢
        have hanswer := answer_of_resume (h req (List.mem_of_getElem? hreq)) hresume
        refine ⟨req, eq_singleton_of_eraseIdx hreq hdone, ?_⟩
        unfold ChartState.Selects
        rw [hanswer]
        exact ⟨rfl, rfl, rfl⟩

theorem pendingOf_run {charts : ChartState} {events : List VersionEvent}
    (hrun : runs (VersionSelector.step server) ⟨charts, []⟩ events = some st) :
    ∀ req ∈ st.pending, req.Of server := by
  have hkeep : ∀ (st : VersionSelector) (e : VersionEvent) (st' : VersionSelector),
      (∀ req ∈ st.pending, req.Of server) → st.step server e = some st' →
        ∀ req ∈ st'.pending, req.Of server :=
    fun _ _ _ h hstep => pendingOf_step h hstep
  exact runs_invariant hkeep hrun fun _ hreq => nomatch hreq

theorem selects_iff {charts : ChartState} {version version' : String}
    (h : charts.Selects server version) :
    charts.Selects server version' ↔ server.answer version = server.answer version' := by
  obtain ⟨hversion, hvalues, hschema⟩ := h
  constructor
  · intro ⟨hversion', hvalues', hschema'⟩
    rw [hversion] at hversion'
    rw [hvalues] at hvalues'
    rw [hschema] at hschema'
    exact Prod.ext (Option.some.inj hversion')
      (Prod.ext (Option.some.inj hvalues') (Option.some.inj hschema'))
  · intro heq
    unfold ChartState.Selects
    rw [← heq]
    exact ⟨hversion, hvalues, hschema⟩

end Versions

/-- When every call has ended, the selection is that of the version requested last exactly if the
    call that ends last is one for it. -/
theorem selected_iff (server : VersionServer) (charts : ChartState) (events : List VersionEvent)
    (st : VersionSelector)
    (hrun : runs (VersionSelector.step server) ⟨charts, []⟩ events = some st)
    (hdone : st.pending = []) (version : String)
    (hlast : (requested events).getLast? = some version) :
    st.charts.Selects server version ↔ EndsLast server charts events version := by
  have hne : events ≠ [] := by
    intro heq
    rw [heq] at hlast
    exact nomatch hlast
  obtain ⟨before, last, hevents⟩ := (List.eq_nil_or_concat' events).resolve_left hne
  rw [hevents] at hrun
  obtain ⟨middle, hbefore, hstep⟩ := runs_append_eq_some.1 hrun
  obtain ⟨st', hstep, hst⟩ := runs_cons_eq_some.1 hstep
  rw [runs_nil] at hst
  rw [Option.some.inj hst] at hstep
  obtain ⟨req, hpending, hselects⟩ := selects_of_last (pendingOf_run hbefore) hstep hdone
  rw [selects_iff hselects]
  constructor
  · intro heq
    exact ⟨before, last, middle, req, hevents, hbefore, hpending, heq⟩
  · intro ⟨before', last', middle', req', hevents', hbefore', hpending', heq⟩
    rw [hevents] at hevents'
    rw [← (List.append_inj' hevents' rfl).1, hbefore] at hbefore'
    rw [← Option.some.inj hbefore', hpending] at hpending'
    rw [(List.cons.inj hpending').1]
    exact heq

/-- Two versions of a chart. -/
def twoVersions : VersionServer where
  chartVersion version := ⟨version, ""⟩
  values version := some ("version: " ++ version)
  schema _ := none

/-- The first selection is answered before the second one is made. -/
def inTurn : List VersionEvent :=
  [.getChartVersion "1.0.0", .respond 0, .respond 0, .respond 0, .getChartVersion "2.0.0",
    .respond 0, .respond 0, .respond 0]

theorem selected_in_order :
    ∃ st, runs (VersionSelector.step twoVersions) ⟨initialCharts, []⟩ inTurn = some st ∧
      st.charts.Selects twoVersions "2.0.0" := by
  refine ⟨_, rfl, (selected_iff twoVersions initialCharts inTurn _ rfl rfl "2.0.0" rfl).mpr ?_⟩
  exact ⟨[.getChartVersion "1.0.0", .respond 0, .respond 0, .respond 0, .getChartVersion "2.0.0",
    .respond 0, .respond 0], .respond 0, _, _, rfl, rfl, rfl, rfl⟩

/-- Two versions are selected, and the answers for the first one come last. -/
def overtaken : List VersionEvent :=
  [.getChartVersion "1.0.0", .getChartVersion "2.0.0", .respond 1, .respond 1, .respond 1,
    .respond 0, .respond 0, .respond 0]

theorem overtaken_selects_first :
    (runs (VersionSelector.step twoVersions) ⟨initialCharts, []⟩ overtaken).map
      (fun st => (st.pending, st.charts.selected.version, st.charts.selected.values)) =
        some ([], some ⟨"1.0.0", ""⟩, some "version: 1.0.0") ∧
    ¬ ∀ st, runs (VersionSelector.step twoVersions) ⟨initialCharts, []⟩ overtaken = some st →
      st.charts.Selects twoVersions "2.0.0" := by
  have hfirst : (runs (VersionSelector.step twoVersions) ⟨initialCharts, []⟩ overtaken).map
      (fun st => (st.pending, st.charts.selected.version, st.charts.selected.values)) =
        some ([], some ⟨"1.0.0", ""⟩, some "version: 1.0.0") := by decide
  refine ⟨hfirst, fun hselects => ?_⟩
  obtain ⟨st, hrun, hst⟩ := Option.map_eq_some_iff.mp hfirst
  have hversion := (hselects st hrun).1
  rw [(Prod.mk.inj (Prod.mk.inj hst).2).1] at hversion
  exact absurd hversion (by decide)

end Kubeapps.Dashboard
