/-
  The update information of a release (src/dashboard/src/actions/apps.ts: getAppUpdateInfo).

  The candidates are sorted by their latest versions and the first one is reported, which is the
  oldest: `reportsGreatest_iff` says when that is also the newest. The version library is
  `Lib.Semver`; a string that is no version makes its functions throw, and what is thrown is
  reported in `error`.
-/
import Mathlib.Data.List.Basic
import Kubeapps.Lib.Semver

namespace Kubeapps.Dashboard

open Kubeapps.Lib

/-- `IRepo`. -/
structure ChartRepo where
  ns : String
  name : String
  url : String
  deriving DecidableEq, Repr

/-- What is read of a chart: `attributes.repo` and the latest version. -/
structure ChartInfo where
  repo : ChartRepo
  version : String
  app_version : String
  deriving DecidableEq, Repr

/-- `IChartUpdateInfo`. -/
structure ChartUpdateInfo where
  upToDate : Bool
  chartLatestVersion : String
  appLatestVersion : String
  repository : ChartRepo
  error : Option String
  deriving DecidableEq, Repr

section Compare

variable (lib : Semver)

/-- `semver.compare`. -/
def semverCompare (a b : String) : Except String Ordering := do
  let v ← lib.newVersion a
  let w ← lib.newVersion b
  return if lib.lessThan v w then .lt else if lib.lessThan w v then .gt else .eq

/-- `semver.gte`. -/
def semverGte (a b : String) : Except String Bool := do
  return (← semverCompare lib a b) ≠ .lt

/-- A chart is put before the first one that is not smaller. -/
def insertChart (c : ChartInfo) : List ChartInfo → Except String (List ChartInfo)
  | [] => return [c]
  | d :: ds => do
      if (← semverCompare lib c.version d.version) ≠ .gt then
        return c :: d :: ds
      else
        return d :: (← insertChart c ds)

/-- `chartsInfo.sort`, which is stable: every stable sort by a comparison that does not throw
    gives this list, and with two or more charts each is compared. -/
def sortCharts : List ChartInfo → Except String (List ChartInfo)
  | [] => return []
  | c :: cs => do insertChart lib c (← sortCharts cs)

/-- The `updateInfo` of `sortedCharts`, or without charts the one it starts with. -/
def updateInfoOf (currentVersion : String) : List ChartInfo → Except String ChartUpdateInfo
  | [] => return ⟨true, "", "", ⟨"", "", ""⟩, none⟩
  | c :: _ => do
      let upToDate ← semverGte lib currentVersion c.version
      return ⟨upToDate, c.version, c.app_version, c.repo, none⟩

/-- `getAppUpdateInfo`, when `Chart.listWithFilters` answers `charts`: what is dispatched. -/
def getAppUpdateInfo (charts : Except String (List ChartInfo)) (currentVersion : String) :
    ChartUpdateInfo :=
  match charts.bind fun cs => (sortCharts lib cs).bind (updateInfoOf lib currentVersion) with
  | .ok info => info
  | .error e => ⟨false, "", "", ⟨"", "", ""⟩, some e⟩

end Compare

/-! ## What is to be reported -/

section Greatest

variable (lib : Semver)

/-- `c` has the greatest latest version of `charts`. -/
def Greatest (charts : List ChartInfo) (c : ChartInfo) : Prop :=
  c ∈ charts ∧ ∀ d ∈ charts, ¬ lib.Less c.version d.version

/-- The greatest latest version is reported, and whether the current one is at least that. -/
def ReportsGreatest (charts : List ChartInfo) (currentVersion : String)
    (info : ChartUpdateInfo) : Prop :=
  info.error = none ∧ ∃ c, Greatest lib charts c ∧ info.chartLatestVersion = c.version ∧
    info.appLatestVersion = c.app_version ∧ info.repository = c.repo ∧
      (info.upToDate = true ↔ lib.AtLeast currentVersion c.version)

end Greatest

/-! ## The sort -/

section Sorted

variable {lib : Semver} {c d : ChartInfo} {cs : List ChartInfo}

theorem semverCompare_ok {a b : String} {v w : lib.Version} (hv : lib.newVersion a = .ok v)
    (hw : lib.newVersion b = .ok w) :
    semverCompare lib a b =
      .ok (if lib.lessThan v w then .lt else if lib.lessThan w v then .gt else .eq) := by
  unfold semverCompare
  rw [hv, hw]
  rfl

theorem semverCompare_gt_iff {a b : String} (ha : lib.Valid a) (hb : lib.Valid b) :
    ∃ o, semverCompare lib a b = .ok o ∧ (o = .gt ↔ lib.Less b a) := by
  obtain ⟨v, hv⟩ := ha
  obtain ⟨w, hw⟩ := hb
  refine ⟨_, semverCompare_ok hv hw, ?_⟩
  rw [Semver.less_iff hw hv]
  cases hvw : lib.lessThan v w with
  | true => simp [lib.lessThan_asymm v w hvw]
  | false =>
      cases hwv : lib.lessThan w v with
      | true => simp
      | false => simp

theorem semverGte_iff {a b : String} (ha : lib.Valid a) (hb : lib.Valid b) :
    ∃ r, semverGte lib a b = .ok r ∧ (r = true ↔ lib.AtLeast a b) := by
  obtain ⟨v, hv⟩ := ha
  obtain ⟨w, hw⟩ := hb
  unfold semverGte
  rw [semverCompare_ok hv hw]
  refine ⟨_, rfl, ?_⟩
  rw [Semver.atLeast_iff hv hw]
  cases hvw : lib.lessThan v w with
  | true => simp
  | false =>
      cases hwv : lib.lessThan w v with
      | true => simp
      | false => simp

theorem insertChart_of_less (hc : lib.Valid c.version) (hd : lib.Valid d.version)
    (h : lib.Less d.version c.version) :
    insertChart lib c (d :: cs) = (insertChart lib c cs).map (d :: ·) := by
  obtain ⟨o, ho, hgt⟩ := semverCompare_gt_iff hc hd
  rw [insertChart, ho, hgt.mpr h]
  cases insertChart lib c cs with
  | ok es => rfl
  | error e => rfl

theorem insertChart_of_not_less (hc : lib.Valid c.version) (hd : lib.Valid d.version)
    (h : ¬ lib.Less d.version c.version) :
    insertChart lib c (d :: cs) = .ok (c :: d :: cs) := by
  obtain ⟨o, ho, hgt⟩ := semverCompare_gt_iff hc hd
  have hne : o ≠ .gt := fun heq => h (hgt.mp heq)
  rw [insertChart, ho]
  exact if_pos hne

/-- Sorted, the oldest first. -/
def Ascending (lib : Semver) (cs : List ChartInfo) : Prop :=
  cs.Pairwise fun c d => ¬ lib.Less d.version c.version

theorem insertChart_spec (hc : lib.Valid c.version) (hcs : ∀ d ∈ cs, lib.Valid d.version)
    (hasc : Ascending lib cs) :
    ∃ es, insertChart lib c cs = .ok es ∧ es.Perm (c :: cs) ∧ Ascending lib es := by
  induction cs with
  | nil => exact ⟨[c], rfl, List.Perm.refl _, List.pairwise_singleton _ c⟩
  | cons d ds ih =>
      have hd := hcs d List.mem_cons_self
      have hds : ∀ x ∈ ds, lib.Valid x.version := fun x hx => hcs x (List.mem_cons_of_mem d hx)
      obtain ⟨hfirst, hrest⟩ := List.pairwise_cons.mp hasc
      by_cases hless : lib.Less d.version c.version
      · obtain ⟨es, hes, hperm, hsorted⟩ := ih hds hrest
        refine ⟨d :: es, ?_, ?_, List.pairwise_cons.mpr ⟨fun x hx => ?_, hsorted⟩⟩
        · rw [insertChart_of_less hc hd hless, hes]
          rfl
        · exact (hperm.cons d).trans (List.Perm.swap c d ds)
        · rcases List.mem_cons.mp (hperm.mem_iff.mp hx) with rfl | hx
          · exact Semver.less_asymm hless
          · exact hfirst x hx
      · refine ⟨c :: d :: ds, insertChart_of_not_less hc hd hless, List.Perm.refl _, ?_⟩
        refine List.pairwise_cons.mpr ⟨fun x hx => ?_, hasc⟩
        rcases List.mem_cons.mp hx with rfl | hx
        · exact hless
        · exact Semver.not_less_trans hd (hfirst x hx) hless

theorem sortCharts_spec (hcs : ∀ d ∈ cs, lib.Valid d.version) :
    ∃ es, sortCharts lib cs = .ok es ∧ es.Perm cs ∧ Ascending lib es := by
  induction cs with
  | nil => exact ⟨[], rfl, List.Perm.refl _, List.Pairwise.nil⟩
  | cons c cs ih =>
      obtain ⟨ds, hds, hperm, hasc⟩ := ih fun x hx => hcs x (List.mem_cons_of_mem c hx)
      have hvalid : ∀ d ∈ ds, lib.Valid d.version := fun d hd =>
        hcs d (List.mem_cons_of_mem c (hperm.mem_iff.mp hd))
      obtain ⟨es, hes, hperm', hasc'⟩ := insertChart_spec (hcs c List.mem_cons_self) hvalid hasc
      refine ⟨es, ?_, hperm'.trans (hperm.cons c), hasc'⟩
      rw [sortCharts, hds]
      exact hes

/-- What is reported is the oldest of the latest versions. -/
theorem getAppUpdateInfo_least (hne : cs ≠ []) (hcs : ∀ d ∈ cs, lib.Valid d.version)
    {currentVersion : String} (hcur : lib.Valid currentVersion) :
    ∃ c ∈ cs, (∀ d ∈ cs, ¬ lib.Less d.version c.version) ∧ ∃ r : Bool,
      getAppUpdateInfo lib (.ok cs) currentVersion = ⟨r, c.version, c.app_version, c.repo, none⟩ ∧
        (r = true ↔ lib.AtLeast currentVersion c.version) := by
  obtain ⟨es, hes, hperm, hasc⟩ := sortCharts_spec hcs
  cases es with
  | nil => exact absurd hperm.nil_eq.symm hne
  | cons c ds =>
      have hc : c ∈ cs := hperm.mem_iff.mp List.mem_cons_self
      obtain ⟨r, hr, hiff⟩ := semverGte_iff hcur (hcs c hc)
      refine ⟨c, hc, fun d hd => ?_, r, ?_, hiff⟩
      · rcases List.mem_cons.mp (hperm.mem_iff.mpr hd) with rfl | hd
        · exact fun hless => Semver.less_asymm hless hless
        · exact (List.pairwise_cons.mp hasc).1 d hd
      · have hinfo : updateInfoOf lib currentVersion (c :: ds) =
            .ok ⟨r, c.version, c.app_version, c.repo, none⟩ := by
          rw [updateInfoOf, hr]
          rfl
        unfold getAppUpdateInfo
        rw [Except.bind, hes, Except.bind, hinfo]

/-- A current version that is none is an error. -/
theorem getAppUpdateInfo_error (hne : cs ≠ []) (hcs : ∀ d ∈ cs, lib.Valid d.version)
    {currentVersion : String} (hcur : ¬ lib.Valid currentVersion) :
    (getAppUpdateInfo lib (.ok cs) currentVersion).error ≠ none := by
  obtain ⟨es, hes, hperm, hasc⟩ := sortCharts_spec hcs
  cases es with
  | nil => exact absurd hperm.nil_eq.symm hne
  | cons c ds =>
      cases hv : lib.newVersion currentVersion with
      | ok v => exact absurd ⟨v, hv⟩ hcur
      | error e =>
          have hinfo : updateInfoOf lib currentVersion (c :: ds) = .error e := by
            rw [updateInfoOf, semverGte, semverCompare, hv]
            rfl
          unfold getAppUpdateInfo
          rw [Except.bind, hes, Except.bind, hinfo]
          exact Option.some_ne_none e

end Sorted

/-- **The greatest version is reported exactly if there is only one.** For candidates with valid
    latest versions: the current version is one, and no candidate's latest version is greater than
    that of another. -/
theorem reportsGreatest_iff (lib : Semver) (charts : List ChartInfo) (hne : charts ≠ [])
    (hvalid : ∀ c ∈ charts, lib.Valid c.version) (currentVersion : String) :
    ReportsGreatest lib charts currentVersion
        (getAppUpdateInfo lib (.ok charts) currentVersion) ↔
      lib.Valid currentVersion ∧
        ∀ c ∈ charts, ∀ d ∈ charts, ¬ lib.Less c.version d.version := by
  by_cases hcur : lib.Valid currentVersion
  · obtain ⟨c, hc, hleast, r, hinfo, hr⟩ := getAppUpdateInfo_least hne hvalid hcur
    rw [hinfo]
    constructor
    · rintro ⟨_, c', ⟨_, hgreatest⟩, hversion, _, _, _⟩
      dsimp only at hversion
      refine ⟨hcur, fun x hx y hy => ?_⟩
      have hxc : ¬ lib.Less x.version c.version := hleast x hx
      have hcy : ¬ lib.Less c.version y.version := hversion ▸ hgreatest y hy
      exact Semver.not_less_trans (hvalid c hc) hxc hcy
    · intro ⟨_, hall⟩
      exact ⟨rfl, c, ⟨hc, hall c hc⟩, rfl, rfl, rfl, hr⟩
  · constructor
    · exact fun h => absurd h.1 (getAppUpdateInfo_error hne hvalid hcur)
    · exact fun h => absurd h.1 hcur

def nginxOf (version : String) : ChartInfo :=
  ⟨⟨"kubeapps", "bitnami", "https://charts.bitnami.com"⟩, version, "1.25"⟩

theorem reportsGreatest_same :
    ReportsGreatest .oneDigit [nginxOf "1.0.0", nginxOf "1.0.0"] "0.9.0"
      (getAppUpdateInfo .oneDigit (.ok [nginxOf "1.0.0", nginxOf "1.0.0"]) "0.9.0") := by
  have hv : Semver.oneDigit.Valid "1.0.0" := ⟨(1, 0, 0), by rfl⟩
  have hall : ∀ c ∈ [nginxOf "1.0.0", nginxOf "1.0.0"], c = nginxOf "1.0.0" := by simp
  refine (reportsGreatest_iff .oneDigit _ (List.cons_ne_nil _ _) (fun c hc => ?_) _).mpr
    ⟨⟨(0, 9, 0), by rfl⟩, fun c hc d hd => ?_⟩
  · rw [hall c hc]
    exact hv
  · rw [hall c hc, hall d hd]
    exact fun h => Semver.less_asymm h h

/-- Of two candidates the older one is reported, and a release of that version is up to date. -/
theorem not_reportsGreatest_twoVersions :
    ¬ ReportsGreatest .oneDigit [nginxOf "1.0.0", nginxOf "2.0.0"] "1.0.0"
      (getAppUpdateInfo .oneDigit (.ok [nginxOf "1.0.0", nginxOf "2.0.0"]) "1.0.0") := by
  have hinfo : getAppUpdateInfo .oneDigit (.ok [nginxOf "1.0.0", nginxOf "2.0.0"]) "1.0.0" =
      ⟨true, "1.0.0", "1.25", (nginxOf "1.0.0").repo, none⟩ := by decide
  rw [hinfo]
  intro ⟨_, c, ⟨hc, hgreatest⟩, hversion, _⟩
  refine hgreatest (nginxOf "2.0.0") (by simp) ?_
  rw [← hversion]
  exact ⟨(1, 0, 0), (2, 0, 0), by rfl, by rfl, by decide⟩

end Kubeapps.Dashboard
