/-
  The list of releases in the dashboard's store (src/dashboard/src/reducers/apps.ts: appsReducer;
  src/dashboard/src/actions/apps.ts: fetchApps, fetchAppsWithUpdateInfo, getAppUpdateInfo).

  `fetchAppsWithUpdateInfo` asks for the list and then, for every release of it at once, for its
  charts. The answers come in any order, and each is put into the first entry with the name of its
  release: `shows_own_iff` says when every entry gets its own. Of a release object only the name and
  the update information are read.
-/
import Kubeapps.Dashboard.UpdateInfo
import Kubeapps.Lib.Steps

namespace Kubeapps.Dashboard

open Kubeapps.Lib

/-- `IAppOverview`, with the version of `chartMetadata`. -/
structure AppOverview where
  releaseName : String
  ns : String
  chartVersion : String
  updateInfo : Option ChartUpdateInfo
  deriving DecidableEq, Repr

/-- `IRelease`. -/
structure AppRelease where
  name : String
  updateInfo : Option ChartUpdateInfo
  deriving DecidableEq, Repr

inductive AppErrorKind where
  | fetchError
  | createError
  | upgradeError
  | rollbackError
  | deleteError
  deriving DecidableEq, Repr

structure AppError where
  kind : AppErrorKind
  message : String
  deriving DecidableEq, Repr

/-- `IAppState`. -/
structure AppState where
  isFetching : Bool
  error : Option AppError
  items : List AppRelease
  listOverview : Option (List AppOverview)
  selected : Option AppRelease
  deriving DecidableEq, Repr

inductive AppsAction where
  | requestApps
  | receiveApps (apps : List AppRelease)
  | listApps
  | receiveAppList (apps : List AppOverview)
  | requestAppUpdateInfo
  | receiveAppUpdateInfo (releaseName : String) (updateInfo : ChartUpdateInfo)
  | requestDeleteApp
  | receiveDeleteApp
  | requestDeployApp
  | receiveDeployApp
  | requestUpgradeApp
  | receiveUpgradeApp
  | requestRollbackApp
  | receiveRollbackApp
  | errorApp (err : AppError)
  | selectApp (app : AppRelease)
  | locationChange
  deriving DecidableEq, Repr

/-- `listOverview` with the information in the first entry of the name, if there is one. -/
def putUpdateInfo (releaseName : String) (updateInfo : ChartUpdateInfo)
    (listOverview : List AppOverview) : List AppOverview :=
  match listOverview.findIdx? fun a => a.releaseName = releaseName with
  | some i => listOverview.modify i fun a => { a with updateInfo := some updateInfo }
  | none => listOverview

def appsReducer (state : AppState) : AppsAction → AppState
  | .requestApps => { state with isFetching := true }
  | .receiveApps apps => { state with isFetching := false, items := apps }
  | .errorApp err => { state with isFetching := false, error := some err }
  | .selectApp app => { state with isFetching := false, selected := some app }
  | .listApps => { state with isFetching := true }
  | .receiveAppList apps => { state with isFetching := false, listOverview := some apps }
  | .requestAppUpdateInfo => { state with isFetching := true }
  | .requestDeleteApp => { state with isFetching := true }
  | .receiveDeleteApp => { state with isFetching := false }
  | .requestDeployApp => { state with isFetching := true }
  | .receiveDeployApp => { state with isFetching := false }
  | .requestRollbackApp => { state with isFetching := true }
  | .receiveRollbackApp => { state with isFetching := false }
  | .receiveAppUpdateInfo releaseName updateInfo =>
      { state with
        isFetching := false
        listOverview := state.listOverview.map (putUpdateInfo releaseName updateInfo)
        selected := state.selected.map fun app =>
          if app.name = releaseName then { app with updateInfo := some updateInfo } else app }
  | .locationChange => { state with error := none, isFetching := false, selected := none }
  -- an upgrade does not show in the state
  | .requestUpgradeApp => state
  | .receiveUpgradeApp => state

/-! ## The page -/

/-- Where a `fetchAppsWithUpdateInfo` stands, or one of its `getAppUpdateInfo`. -/
inductive AppsThunk where
  | listApps
  | listed
  | getAppUpdateInfo (app : AppOverview)
  | updated (app : AppOverview) (updateInfo : ChartUpdateInfo)
  deriving DecidableEq, Repr

structure AppsPage where
  store : AppState
  thunks : List AppsThunk
  deriving DecidableEq, Repr

/-- A call of `fetchAppsWithUpdateInfo`, an answer to the thunk `i`, or an action that another one
    dispatches. -/
inductive AppsEvent where
  | fetchAppsWithUpdateInfo
  | listApps (i : Nat) (res : Except String (List AppOverview))
  | listWithFilters (i : Nat) (res : Except String (List ChartInfo))
  | dispatch (action : AppsAction)

section Page

variable (lib : Semver)

def AppsPage.step (page : AppsPage) : AppsEvent → Option AppsPage
  | .fetchAppsWithUpdateInfo =>
      some { store := appsReducer page.store .listApps, thunks := page.thunks ++ [.listApps] }
  | .listApps i res =>
      match page.thunks[i]?, res with
      | some .listApps, .ok apps =>
          -- every `getAppUpdateInfo` dispatches its request at once
          some {
            store := apps.foldl (fun state _ => appsReducer state .requestAppUpdateInfo)
              (appsReducer page.store (.receiveAppList apps))
            thunks := page.thunks.set i .listed ++ apps.map .getAppUpdateInfo }
      | some .listApps, .error message =>
          some { store := appsReducer page.store (.errorApp ⟨.fetchError, message⟩)
                 thunks := page.thunks.set i .listed }
      | _, _ => none
  | .listWithFilters i res =>
      match page.thunks[i]? with
      | some (.getAppUpdateInfo app) =>
          let updateInfo := getAppUpdateInfo lib res app.chartVersion
          some { store := appsReducer page.store (.receiveAppUpdateInfo app.releaseName updateInfo)
                 thunks := page.thunks.set i (.updated app updateInfo) }
      | _ => none
  | .dispatch action => some { page with store := appsReducer page.store action }

/-- After the call of `fetchAppsWithUpdateInfo`. -/
def AppsPage.start (store : AppState) : AppsPage :=
  ⟨appsReducer store .listApps, [.listApps]⟩

/-- The event brings neither another list nor update information of another call. -/
def AppsEvent.Quiet : AppsEvent → Prop
  | .listApps _ _ => False
  | .dispatch (.receiveAppList _) => False
  | .dispatch (.receiveAppUpdateInfo _ _) => False
  | _ => True

/-- The entry of every release of `apps` has the update information that was computed for it. -/
def ShowsOwn (apps : List AppOverview) (page : AppsPage) : Prop :=
  ∃ listOverview, page.store.listOverview = some listOverview ∧
    ∀ (i : Nat) app, apps[i]? = some app → ∃ updateInfo,
      page.thunks[i + 1]? = some (.updated app updateInfo) ∧
        listOverview[i]? = some { app with updateInfo := some updateInfo }

end Page

/-! ## What an event does to the list -/

theorem listOverview_quiet {action : AppsAction} (h : (AppsEvent.dispatch action).Quiet)
    (state : AppState) : (appsReducer state action).listOverview = state.listOverview := by
  cases action with
  | receiveAppList apps => exact False.elim h
  | receiveAppUpdateInfo name info => exact False.elim h
  | _ => rfl

theorem listOverview_requests (apps : List AppOverview) (state : AppState) :
    (apps.foldl (fun state _ => appsReducer state .requestAppUpdateInfo) state).listOverview =
      state.listOverview := by
  induction apps generalizing state with
  | nil => rfl
  | cons app apps ih => exact ih _

/-- The entry with index `i` is the first of its name. -/
def FirstOfName (apps : List AppOverview) (i : Nat) : Prop :=
  ∀ (j : Nat) app app', j < i → apps[j]? = some app' → apps[i]? = some app →
    app'.releaseName ≠ app.releaseName

/-- Two lists with the same names in the same order. -/
def SameNames (apps listOverview : List AppOverview) : Prop :=
  listOverview.map AppOverview.releaseName = apps.map AppOverview.releaseName

section Names

variable {apps listOverview : List AppOverview} {name : String} {info : ChartUpdateInfo}

theorem findIdx_of_sameNames (h : SameNames apps listOverview) :
    listOverview.findIdx? (fun a => a.releaseName = name) =
      apps.findIdx? fun a => a.releaseName = name := by
  have hmap : ∀ l : List AppOverview, l.findIdx? (fun a => a.releaseName = name) =
      (l.map AppOverview.releaseName).findIdx? fun n => n = name := fun l => by
    rw [List.findIdx?_map]
    rfl
  rw [hmap, hmap, h]

/-- A name of the list has a first entry, which is `i` only if `i` is first of its name. -/
theorem findIdx_of_get {i : Nat} {app : AppOverview} (hi : apps[i]? = some app) :
    ∃ k, apps.findIdx? (fun a => a.releaseName = app.releaseName) = some k ∧
      (FirstOfName apps i → k = i) ∧ FirstOfName apps k := by
  have hmem : app ∈ apps := List.mem_of_getElem? hi
  have hfind := List.findIdx?_eq_some_of_exists (p := fun a => a.releaseName = app.releaseName)
    ⟨app, hmem, by simp⟩
  obtain ⟨hlt, hk, hbefore⟩ := List.findIdx?_eq_some_iff_getElem.mp hfind
  have hname : apps[apps.findIdx fun a => a.releaseName = app.releaseName].releaseName =
      app.releaseName := by simpa using hk
  refine ⟨_, hfind, fun hfirst => ?_, fun j a a' hj ha' ha hsame => ?_⟩
  · rcases Nat.lt_trichotomy (apps.findIdx fun a => a.releaseName = app.releaseName) i with
      hki | hki | hki
    · exact absurd hname (hfirst _ _ _ hki (List.getElem?_eq_getElem hlt) hi)
    · exact hki
    · have hi' := List.getElem?_eq_some_iff.mp hi
      obtain ⟨hilt, hget⟩ := hi'
      exact absurd (by simp [hget]) (hbefore i hki)
  · rw [List.getElem?_eq_getElem hlt] at ha
    have hjlt : j < apps.length := Nat.lt_trans hj hlt
    rw [List.getElem?_eq_getElem hjlt] at ha'
    cases ha
    cases ha'
    exact absurd (by simpa using hsame.trans hname) (hbefore j hj)

theorem firstOfName_of_nodup (h : (apps.map AppOverview.releaseName).Nodup) (i : Nat) :
    FirstOfName apps i := by
  intro j app app' hj happ' happ hname
  have hnodup := List.nodup_iff_getElem?_ne_getElem?.mp h
  obtain ⟨hi, _⟩ := List.getElem?_eq_some_iff.mp happ
  refine hnodup j i hj (by simpa using hi) ?_
  rw [List.getElem?_map, List.getElem?_map, happ', happ]
  simp [hname]

theorem nodup_of_firstOfName (h : ∀ (i : Nat) app, apps[i]? = some app → FirstOfName apps i) :
    (apps.map AppOverview.releaseName).Nodup := by
  rw [List.nodup_iff_getElem?_ne_getElem?]
  intro j i hj hi heq
  rw [List.length_map] at hi
  have happ := List.getElem?_eq_getElem hi
  have happ' := List.getElem?_eq_getElem (Nat.lt_trans hj hi)
  refine h i _ happ j _ _ hj happ' happ ?_
  rw [List.getElem?_map, List.getElem?_map, happ, happ'] at heq
  simpa using heq

theorem sameNames_put (h : SameNames apps listOverview) :
    SameNames apps (putUpdateInfo name info listOverview) := by
  unfold putUpdateInfo
  split
  · rw [SameNames, ← h]
    apply List.ext_getElem?
    intro n
    simp only [List.getElem?_map, List.getElem?_modify]
    cases listOverview[n]? with
    | none => rfl
    | some a =>
        simp only [Option.map_eq_map, Option.map_some]
        split <;> rfl
  · exact h

/-- One entry gets the information of `app`: the one that is first of the name. -/
theorem exists_put (h : SameNames apps listOverview) {i : Nat} {app : AppOverview}
    (hi : apps[i]? = some app) (info : ChartUpdateInfo) :
    ∃ k, FirstOfName apps k ∧ (FirstOfName apps i → k = i) ∧
      (∀ j, j ≠ k → (putUpdateInfo app.releaseName info listOverview)[j]? = listOverview[j]?) ∧
      (putUpdateInfo app.releaseName info listOverview)[k]? =
        listOverview[k]?.map fun a => { a with updateInfo := some info } := by
  obtain ⟨k, hk, hki, hfirst⟩ := findIdx_of_get hi
  refine ⟨k, hfirst, hki, ?_⟩
  unfold putUpdateInfo
  rw [findIdx_of_sameNames h, hk]
  refine ⟨fun j hj => ?_, ?_⟩
  · rw [List.getElem?_modify]
    simp [hj.symm]
  · rw [List.getElem?_modify]
    simp

end Names

/-! ## The answers to one list -/

/-- The thunks of the releases in the order of the list, and what is in the entries: those that are
    not first of their name are as they came, and with distinct names those that were answered have
    what was computed for them. -/
structure Batch (apps : List AppOverview) (page : AppsPage) : Prop where
  thunk : ∀ (i : Nat) app, apps[i]? = some app →
    page.thunks[i + 1]? = some (.getAppUpdateInfo app) ∨
      ∃ info, page.thunks[i + 1]? = some (.updated app info)
  pending : ∀ (j : Nat) app, page.thunks[j]? = some (.getAppUpdateInfo app) →
    ∃ i, j = i + 1 ∧ apps[i]? = some app
  overview : ∃ listOverview, page.store.listOverview = some listOverview ∧
    SameNames apps listOverview ∧
    (∀ i, ¬ FirstOfName apps i → listOverview[i]? = apps[i]?) ∧
    ((apps.map AppOverview.releaseName).Nodup → ∀ (i : Nat) app, apps[i]? = some app →
      (page.thunks[i + 1]? = some (.getAppUpdateInfo app) → listOverview[i]? = some app) ∧
      ∀ info, page.thunks[i + 1]? = some (.updated app info) →
        listOverview[i]? = some { app with updateInfo := some info })

section Run

variable {lib : Semver} {apps : List AppOverview} {page page' : AppsPage}

/-- The list arrives. -/
theorem batch_listed {store : AppState}
    (h : (AppsPage.start store).step lib (.listApps 0 (.ok apps)) = some page) :
    Batch apps page := by
  have hpage : page = ⟨apps.foldl (fun state _ => appsReducer state .requestAppUpdateInfo)
      (appsReducer (AppsPage.start store).store (.receiveAppList apps)),
      .listed :: apps.map .getAppUpdateInfo⟩ := (Option.some.inj h).symm
  subst hpage
  refine ⟨fun i app hi => .inl ?_, fun j app hj => ?_, apps, ?_, rfl, fun i _ => rfl, ?_⟩
  · simp [hi]
  · cases j with
    | zero => simp at hj
    | succ i => exact ⟨i, rfl, by simpa using hj⟩
  · rw [listOverview_requests]
    rfl
  · intro _ i app hi
    refine ⟨fun _ => hi, fun info hinfo => ?_⟩
    simp [hi] at hinfo

/-- Neither the list nor a thunk that updates an entry has changed. -/
theorem Batch.congr (hb : Batch apps page)
    (hl : page'.store.listOverview = page.store.listOverview)
    (ht : ∀ (n : Nat) t, t ≠ AppsThunk.listApps →
      (page'.thunks[n]? = some t ↔ page.thunks[n]? = some t)) : Batch apps page' := by
  obtain ⟨hthunk, hpending, l, hsome, hnames, hrest, hown⟩ := hb
  refine ⟨fun i app hi => ?_, fun j app hj => ?_, l, hl.trans hsome, hnames, hrest, ?_⟩
  · rcases hthunk i app hi with h | ⟨info, h⟩
    · exact .inl ((ht _ _ (by simp)).mpr h)
    · exact .inr ⟨info, (ht _ _ (by simp)).mpr h⟩
  · exact hpending j app ((ht _ _ (by simp)).mp hj)
  · intro hnodup i app hi
    obtain ⟨hwait, hdone⟩ := hown hnodup i app hi
    exact ⟨fun h => hwait ((ht _ _ (by simp)).mp h),
      fun info h => hdone info ((ht _ _ (by simp)).mp h)⟩

/-- The answer for one release arrives. -/
theorem batch_updated (hb : Batch apps page) {j : Nat} {app : AppOverview}
    (hj : page.thunks[j]? = some (.getAppUpdateInfo app)) (info : ChartUpdateInfo) :
    Batch apps
      { store := appsReducer page.store (.receiveAppUpdateInfo app.releaseName info)
        thunks := page.thunks.set j (.updated app info) } := by
  obtain ⟨hthunk, hpending, l, hl, hnames, hrest, hown⟩ := hb
  obtain ⟨i, rfl, hi⟩ := hpending j app hj
  obtain ⟨k, hfirst, hki, hother, hput⟩ := exists_put hnames hi info
  have hself : (page.thunks.set (i + 1) (.updated app info))[i + 1]? = some (.updated app info) :=
    List.getElem?_set_self (List.getElem?_eq_some_iff.mp hj).1
  have hne : ∀ n, n ≠ i → (page.thunks.set (i + 1) (.updated app info))[n + 1]? =
      page.thunks[n + 1]? := fun n hn => List.getElem?_set_ne (by omega)
  refine ⟨fun n a hn => ?_, fun n a hn => ?_, putUpdateInfo app.releaseName info l, ?_,
    sameNames_put hnames, ?_, ?_⟩
  · by_cases hni : n = i
    · subst hni
      rw [hi] at hn
      cases hn
      exact .inr ⟨info, hself⟩
    · dsimp only
      rw [hne n hni]
      exact hthunk n a hn
  · dsimp only at hn
    by_cases hni : n = i + 1
    · subst hni
      rw [hself] at hn
      cases hn
    · rw [List.getElem?_set_ne (Ne.symm hni)] at hn
      exact hpending n a hn
  · simp [appsReducer, hl]
  · intro n hn
    have hnk : n ≠ k := fun heq => hn (heq ▸ hfirst)
    rw [hother n hnk, hrest n hn]
  · -- with distinct names the entry is that of the release itself
    intro hnodup n a hn
    have hk : k = i := hki (firstOfName_of_nodup hnodup i)
    subst hk
    dsimp only
    by_cases hnk : n = k
    · subst hnk
      rw [hi] at hn
      cases hn
      rw [hself, hput, (hown hnodup n app hi).1 hj]
      refine ⟨fun h => (by cases h), fun info' h => ?_⟩
      cases h
      rfl
    · rw [hne n hnk, hother n hnk]
      exact hown hnodup n a hn

theorem batch_step {event : AppsEvent} (hquiet : event.Quiet) (hb : Batch apps page)
    (h : page.step lib event = some page') : Batch apps page' := by
  cases event with
  | listApps i res => exact False.elim hquiet
  | dispatch action =>
      obtain rfl := Option.some.inj h
      exact hb.congr (listOverview_quiet hquiet _) fun n t _ => Iff.rfl
  | fetchAppsWithUpdateInfo =>
      obtain rfl := Option.some.inj h
      refine hb.congr rfl fun n t ht => ?_
      dsimp only
      rcases Nat.lt_trichotomy n page.thunks.length with hn | hn | hn
      · rw [List.getElem?_append_left hn]
      · subst hn
        simp [ht.symm]
      · have hlen : (page.thunks ++ [AppsThunk.listApps]).length ≤ n := by
          rw [List.length_append, List.length_singleton]
          omega
        rw [List.getElem?_eq_none hlen, List.getElem?_eq_none (Nat.le_of_lt hn)]
  | listWithFilters j res =>
      simp only [AppsPage.step] at h
      split at h
      · rename_i app hj
        obtain rfl := Option.some.inj h
        exact batch_updated hb hj _
      · cases h

end Run

/-! ## Result -/

/-- **Every release shows its own update information**, in whatever order the answers come and
    whatever they are, exactly if the names of the releases are distinct. `apps` is the answer of
    the server; a release of another namespace with the same name is a second one. -/
theorem shows_own_iff (lib : Semver) (store : AppState) (apps : List AppOverview)
    (hnew : ∀ app ∈ apps, app.updateInfo = none) (events : List AppsEvent) (page : AppsPage)
    (hquiet : ∀ event ∈ events, event.Quiet)
    (hrun : runs (AppsPage.step lib) (AppsPage.start store) (.listApps 0 (.ok apps) :: events) =
      some page)
    (hdone : ∀ app, .getAppUpdateInfo app ∉ page.thunks) :
    ShowsOwn apps page ↔ (apps.map AppOverview.releaseName).Nodup := by
  obtain ⟨listed, hfirst, hrest⟩ := runs_cons_eq_some.1 hrun
  have hstep : ∀ page event page', Batch apps page → event.Quiet →
      AppsPage.step lib page event = some page' → Batch apps page' :=
    fun _ _ _ hb hq hs => batch_step hq hb hs
  have hbatch := runs_invariant_of_meet hstep (stepsMeet_of_forall hquiet) hrest
    (batch_listed hfirst)
  obtain ⟨hthunk, _, l, hl, _, hkept, hown⟩ := hbatch
  have hupdated : ∀ (i : Nat) app, apps[i]? = some app →
      ∃ info, page.thunks[i + 1]? = some (.updated app info) := by
    intro i app hi
    rcases hthunk i app hi with h | h
    · exact absurd (List.mem_of_getElem? h) (hdone app)
    · exact h
  constructor
  · rintro ⟨l', hl', hshows⟩
    rw [hl] at hl'
    cases hl'
    refine nodup_of_firstOfName fun i app hi => ?_
    by_contra hnot
    obtain ⟨info, _, hentry⟩ := hshows i app hi
    rw [hkept i hnot, hi] at hentry
    have hinfo := congrArg AppOverview.updateInfo (Option.some.inj hentry)
    rw [hnew app (List.mem_of_getElem? hi)] at hinfo
    cases hinfo
  · intro hnodup
    refine ⟨l, hl, fun i app hi => ?_⟩
    obtain ⟨info, hinfo⟩ := hupdated i app hi
    exact ⟨info, hinfo, (hown hnodup i app hi).2 info hinfo⟩

/-! ### The release `wordpress` of two namespaces -/

def noApps : AppState := ⟨false, none, [], none, none⟩

def wordpressOf (ns chartVersion : String) : AppOverview := ⟨"wordpress", ns, chartVersion, none⟩

def wordpresses : List AppOverview := [wordpressOf "blog" "1.0.0", wordpressOf "shop" "2.0.0"]

/-- The second release is answered first. -/
def wordpressAnswers : List AppsEvent :=
  [.listWithFilters 2 (.ok [nginxOf "2.0.0"]), .listWithFilters 1 (.ok [nginxOf "2.0.0"])]

/-- The thunk does not wait for charts. -/
def AppsThunk.updated? : AppsThunk → Bool
  | .listApps => true
  | .listed => true
  | .getAppUpdateInfo _ => false
  | .updated _ _ => true

/-- What was computed for the release of `shop` is lost. -/
theorem shows_own_wordpress :
    ∃ page, runs (AppsPage.step .oneDigit) (AppsPage.start noApps)
        (.listApps 0 (.ok wordpresses) :: wordpressAnswers) = some page ∧
      page.store.listOverview.map (·.map AppOverview.updateInfo) =
        some [some ⟨false, "2.0.0", "1.25", (nginxOf "2.0.0").repo, none⟩, none] ∧
      ¬ ShowsOwn wordpresses page := by
  have heval : (runs (AppsPage.step .oneDigit) (AppsPage.start noApps)
      (.listApps 0 (.ok wordpresses) :: wordpressAnswers)).map (fun page =>
        (page.store.listOverview.map (·.map AppOverview.updateInfo),
          page.thunks.all AppsThunk.updated?)) =
      some (some [some ⟨false, "2.0.0", "1.25", (nginxOf "2.0.0").repo, none⟩, none], true) := by
    decide
  obtain ⟨page, hrun, hpage⟩ := Option.map_eq_some_iff.mp heval
  simp only [Prod.mk.injEq, List.all_eq_true] at hpage
  obtain ⟨hshown, hall⟩ := hpage
  refine ⟨page, hrun, hshown, fun hown => ?_⟩
  have hdone : ∀ app, .getAppUpdateInfo app ∉ page.thunks := fun app hmem =>
    Bool.noConfusion (hall _ hmem)
  have hnodup := (shows_own_iff .oneDigit noApps wordpresses (by decide) wordpressAnswers page
    (by simp [wordpressAnswers, AppsEvent.Quiet]) hrun hdone).mp hown
  exact absurd hnodup (by decide)

end Kubeapps.Dashboard
