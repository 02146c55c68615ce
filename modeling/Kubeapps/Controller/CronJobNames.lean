/-
  Whose CronJob the workers touch (cmd/apprepository-controller/controller.go: cronJobName).

  A call of `syncHandler` is about the repository of its key, and only touches the CronJob with the
  name of that repository. `Sound` is what every run preserves for that.

  * `cronJob_spared_iff`: the processing of a key never touches the CronJob of another repository
    exactly if the two cannot be cut from one name.
-/
import Kubeapps.Controller.Workers

namespace Kubeapps.Controller

open Kubeapps.Lib
open Kubeapps.Syncer (RepoKey)

/-! ## Whose CronJob a call touches -/

/-- The phase is one of a call for the key. -/
def PhaseOf (key : String) : Phase → Prop
  | .start => True
  | .createCleanupJob k => splitMetaNamespaceKey key = some k
  | .deleteCronJob k => splitMetaNamespaceKey key = some k
  | .getCronJob apprepo => splitMetaNamespaceKey key = some apprepo.key
  | .createCronJob apprepo => splitMetaNamespaceKey key = some apprepo.key
  | .updateCronJob apprepo => splitMetaNamespaceKey key = some apprepo.key
  | .createSyncJob apprepo _ => splitMetaNamespaceKey key = some apprepo.key
  | .checkOwner apprepo _ => splitMetaNamespaceKey key = some apprepo.key
  | .returned _ => True

/-- AppRepositories are listed under their keys, and every call is about its own. -/
structure Sound (s : ControllerState) : Prop where
  repos_key : ∀ k apprepo, s.cluster.apprepos k = some apprepo → apprepo.key = k
  phase : ∀ key ph, s.handling key = some ph → PhaseOf key ph

section Touched

variable {config : Config} {key : String} {fault : Option String} {cl : Cluster} {ph : Phase}
  {s s' : ControllerState} {l : Label}

theorem apprepos_handlerStep (config : Config) (key : String) (fault : Option String)
    (cl : Cluster) (ph : Phase) : (handlerStep config key fault cl ph).1.apprepos = cl.apprepos := by
  cases ph with
  | start =>
      simp only [handlerStep]
      split
      · rfl
      · split <;> rfl
  | createCleanupJob k => cases fault <;> rfl
  | deleteCronJob k => cases fault <;> rfl
  | getCronJob apprepo =>
      simp only [handlerStep]
      split <;> rfl
  | createCronJob apprepo =>
      simp only [handlerStep]
      split <;> rfl
  | updateCronJob apprepo =>
      simp only [handlerStep]
      split <;> rfl
  | createSyncJob apprepo cronjob => cases fault <;> rfl
  | checkOwner apprepo cronjob =>
      simp only [handlerStep]
      split <;> rfl
  | returned err => rfl

theorem phaseOf_handlerStep (hrepos : ∀ k apprepo, cl.apprepos k = some apprepo → apprepo.key = k)
    (h : PhaseOf key ph) : PhaseOf key (handlerStep config key fault cl ph).2 := by
  cases ph with
  | start =>
      simp only [handlerStep]
      split
      · trivial
      · rename_i k hsplit
        split
        · exact hsplit
        · rename_i apprepo hrepo
          rw [← hrepos k apprepo hrepo] at hsplit
          exact hsplit
  | createCleanupJob k =>
      cases fault with
      | none => exact h
      | some err => trivial
  | deleteCronJob k => cases fault <;> trivial
  | getCronJob apprepo =>
      simp only [handlerStep]
      split <;> exact h
  | createCronJob apprepo =>
      simp only [handlerStep]
      split
      · trivial
      · trivial
      · exact h
  | updateCronJob apprepo =>
      simp only [handlerStep]
      split
      · trivial
      · trivial
      · exact h
  | createSyncJob apprepo cronjob =>
      cases fault with
      | none => exact h
      | some err => trivial
  | checkOwner apprepo cronjob =>
      simp only [handlerStep]
      split <;> trivial
  | returned err => trivial

/-- A call writes no other CronJob than that of its key. -/
theorem cronjobs_handlerStep {k : RepoKey} (hkey : splitMetaNamespaceKey key = some k)
    (h : PhaseOf key ph) {name : String} (hname : name ≠ cronJobName k.ns k.name) :
    (handlerStep config key fault cl ph).1.cronjobs name = cl.cronjobs name := by
  have hown : ∀ apprepo : AppRepository, splitMetaNamespaceKey key = some apprepo.key →
      name ≠ cronJobName apprepo.ns apprepo.name := by
    intro apprepo hsplit
    have hk : apprepo.key = k := Option.some.inj (hsplit.symm.trans hkey)
    rw [← hk] at hname
    exact hname
  cases ph with
  | start =>
      simp only [handlerStep]
      split
      · rfl
      · split <;> rfl
  | createCleanupJob k' => cases fault <;> rfl
  | deleteCronJob k' =>
      have hk : k' = k := Option.some.inj (h.symm.trans hkey)
      subst hk
      cases fault with
      | none => exact Function.update_of_ne hname _ _
      | some err => rfl
  | getCronJob apprepo =>
      simp only [handlerStep]
      split <;> rfl
  | createCronJob apprepo =>
      simp only [handlerStep]
      split
      · rfl
      · rfl
      · exact Function.update_of_ne (hown apprepo h) _ _
  | updateCronJob apprepo =>
      simp only [handlerStep]
      split
      · rfl
      · rfl
      · exact Function.update_of_ne (hown apprepo h) _ _
  | createSyncJob apprepo cronjob => cases fault <;> rfl
  | checkOwner apprepo cronjob =>
      simp only [handlerStep]
      split <;> rfl
  | returned err => rfl

theorem sound_start (cronjobs : String → Option CronJob) : Sound (.start cronjobs) :=
  ⟨fun _ _ h => by simp [ControllerState.start] at h,
    fun _ _ h => by simp [ControllerState.start] at h⟩

theorem sound_step (hs : Sound s) (h : s.step config l = some s') : Sound s' := by
  obtain ⟨hrepos, hphase⟩ := hs
  cases moves_of_controllerStep h with
  | added apprepo hnew => exact ⟨repos_key_update hrepos apprepo, hphase⟩
  | updated old apprepo hold => exact ⟨repos_key_update hrepos apprepo, hphase⟩
  | deleted k old hold =>
      exact ⟨repos_key_remove hrepos k, hphase⟩
  | get key q hq =>
      refine ⟨hrepos, forall_update hphase fun ph hph => ?_⟩
      rw [← Option.some.inj hph]
      trivial
  | work key fault ph hph =>
      refine ⟨?_, forall_update hphase fun ph' hph' => ?_⟩
      · rw [apprepos_handlerStep]
        exact hrepos
      · rw [← Option.some.inj hph']
        exact phaseOf_handlerStep hrepos (hphase key ph hph)
  | finish key err q hph hq =>
      exact ⟨hrepos, forall_update hphase fun ph hph => by simp at hph⟩
  | _ => exact ⟨hrepos, hphase⟩

end Touched

/-- In no run does a phase of a call for the first repository change the CronJob of the second. -/
def Spares (config : Config) (k k' : RepoKey) : Prop :=
  ∀ cronjobs as s, runs (ControllerState.step config) (.start cronjobs) as = some s →
    ∀ fault s', s.step config (.work (metaNamespaceKey k) fault) = some s' →
      s'.cluster.cronjobs (cronJobName k'.ns k'.name) =
        s.cluster.cronjobs (cronJobName k'.ns k'.name)

theorem spares_of_ne {config : Config} {k k' : RepoKey} (hk : ValidKey k)
    (hne : cronJobName k.ns k.name ≠ cronJobName k'.ns k'.name) : Spares config k k' := by
  intro cronjobs as s hrun fault s' hstep
  have hstep' : ∀ s a s', Sound s → ControllerState.step config s a = some s' → Sound s' :=
    fun _ _ _ => sound_step
  have hsound := runs_invariant hstep' hrun (sound_start cronjobs)
  cases moves_of_controllerStep hstep with
  | work key fault ph hph =>
      exact cronjobs_handlerStep (splitMetaNamespaceKey_of_valid hk) (hsound.phase _ ph hph)
        hne.symm

/-- The controller comes to create the CronJob of an AppRepository. -/
theorem exists_createCronJob (config : Config) (apprepo : AppRepository) :
    ∃ as s, runs (ControllerState.step config) (.start fun _ => none) as = some s ∧
      s.handling (metaNamespaceKey apprepo.key) = some (.createCronJob apprepo) ∧
      s.cluster.cronjobs = fun _ => none := by
  have hsplit := splitMetaNamespaceKey_of_valid apprepo.validKey
  obtain ⟨q, q', hfire, hget⟩ := Workqueue.get_of_empty (metaNamespaceKey apprepo.key)
  refine ⟨[.added apprepo, .fire (metaNamespaceKey apprepo.key), .get,
    .work (metaNamespaceKey apprepo.key) none, .work (metaNamespaceKey apprepo.key) none], ?_⟩
  simp only [runs, ControllerState.step, ControllerState.start, enqueueAppRepo, hfire, hget,
    Option.bind_some, Option.map_some, handlerStep, hsplit, Function.update_self]
  exact ⟨_, rfl, by simp, rfl⟩

/-- An AppRepository with this key. -/
def repoWithKey (k : RepoKey) (h : ValidKey k) : AppRepository :=
  { bitnamiRepo "kubeapps" validNamespace_kubeapps .zero with
    ns := k.ns, name := k.name, ns_valid := h.validNamespace, name_valid := h.validName }

theorem not_spares_of_eq {config : Config} {k k' : RepoKey} (hk : ValidKey k)
    (heq : cronJobName k.ns k.name = cronJobName k'.ns k'.name) : ¬ Spares config k k' := by
  intro hspares
  obtain ⟨as, s, hrun, hph, hnone⟩ := exists_createCronJob config (repoWithKey k hk)
  have hkey : metaNamespaceKey (repoWithKey k hk).key = metaNamespaceKey k := rfl
  have hname : cronJobName (repoWithKey k hk).ns (repoWithKey k hk).name =
      cronJobName k'.ns k'.name := heq
  rw [hkey] at hph
  have hstep : ∃ s', s.step config (.work (metaNamespaceKey k) none) = some s' ∧
      s'.cluster.cronjobs (cronJobName k'.ns k'.name) =
        some (newCronJob (repoWithKey k hk) config) := by
    simp only [ControllerState.step, hph, handlerStep, hname, hnone]
    exact ⟨_, rfl, by simp⟩
  obtain ⟨s', hs', hnew⟩ := hstep
  have hsame := hspares _ as s hrun none s' hs'
  rw [hnew, hnone] at hsame
  simp at hsame

/-- For two different repositories with valid names: they have different CronJobs, and in no run does
    the processing of the one create, overwrite or delete the CronJob of the other, exactly if
    neither is the other one cut at a later `-sync-`. -/
theorem cronJob_spared_iff (config : Config) (k k' : RepoKey) (hk : ValidKey k)
    (hk' : ValidKey k') (hne : k ≠ k') :
    (cronJobName k.ns k.name ≠ cronJobName k'.ns k'.name ↔ ¬ CutsAt "sync" k k') ∧
      (Spares config k k' ↔ ¬ CutsAt "sync" k k') ∧
      (Spares config k' k ↔ ¬ CutsAt "sync" k k') := by
  have hnames : cronJobName k.ns k.name = cronJobName k'.ns k'.name ↔ CutsAt "sync" k k' := by
    rw [cronJobName_eq_iff]
    exact or_iff_right hne
  refine ⟨not_congr hnames, ?_, ?_⟩
  · rw [← hnames]
    exact ⟨fun h heq => not_spares_of_eq hk heq h, fun h => spares_of_ne hk h⟩
  · rw [← hnames]
    exact ⟨fun h heq => not_spares_of_eq hk' heq.symm h, fun h => spares_of_ne hk' (Ne.symm h)⟩

theorem cronJob_spared_bitnami :
    ¬ CutsAt "sync" ⟨"kubeapps", "bitnami"⟩ ⟨"default", "bitnami"⟩ ∧
      Spares defaultConfig ⟨"kubeapps", "bitnami"⟩ ⟨"default", "bitnami"⟩ := by
  have hcuts : ¬ CutsAt "sync" ⟨"kubeapps", "bitnami"⟩ ⟨"default", "bitnami"⟩ := by decide
  exact ⟨hcuts, (cronJob_spared_iff defaultConfig ⟨"kubeapps", "bitnami"⟩ ⟨"default", "bitnami"⟩
    (by decide) (by decide) (by decide)).2.1.mpr hcuts⟩

/-- The repositories `b-sync-c` of the namespace `a` and `c` of the namespace `a-sync-b`. -/
theorem cronJob_shared :
    ValidKey ⟨"a", "b-sync-c"⟩ ∧ ValidKey ⟨"a-sync-b", "c"⟩ ∧
      cronJobName "a" "b-sync-c" = cronJobName "a-sync-b" "c" ∧
      ¬ Spares defaultConfig ⟨"a", "b-sync-c"⟩ ⟨"a-sync-b", "c"⟩ :=
  ⟨by decide, by decide, by decide,
    not_spares_of_eq (by decide) (by decide)⟩

end Kubeapps.Controller
