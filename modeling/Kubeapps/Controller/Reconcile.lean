/-
  Reconciliation of the CronJobs, over runs of the controller
  (cmd/apprepository-controller/controller.go).

  * `cronJob_reconciled`: an AppRepository that is not to be processed has its CronJob, in every run
    in which every update that changes the CronJob changes the URL or the resync counter too, and
    no CronJob of another namespace's repository is deleted by others.

  The invariant (`ReconcileInv`) follows the CronJob through a call in progress: `Upcoming` says
  for each phase what the call still has to do, and `Apart` that no other call does it.
-/
import Kubeapps.Controller.CronJobNames

namespace Kubeapps.Controller

open Kubeapps.Lib
open Kubeapps.Syncer (RepoKey)

/-! ## Reconciliation -/

/-- An AppRepository that is neither to be processed nor being processed has its CronJob. -/
def Reconciled (config : Config) (k : RepoKey) (s : ControllerState) : Prop :=
  ∀ apprepo, s.cluster.apprepos k = some apprepo → ¬ s.queue.Pending (metaNamespaceKey k) →
    s.handling (metaNamespaceKey k) = none →
      s.cluster.cronjobs (cronJobName k.ns k.name) = some (newCronJob apprepo config)

/-- Only the repository itself has this CronJob. -/
def OwnName (k k' : RepoKey) : Prop :=
  cronJobName k'.ns k'.name = cronJobName k.ns k.name → k' = k

/-- No AppRepository appears that has the CronJob of `k` too. -/
def NoForeign (k : RepoKey) (_ : ControllerState) : Label → Prop
  | .added apprepo => OwnName k apprepo.key
  | _ => True

/-- The request of the phase, if it makes one, does not fail. -/
def RequestsSucceed (config : Config) (s : ControllerState) : Label → Prop
  | .work key fault => ∀ ph, s.handling key = some ph → ph.request ≠ none →
      ∀ err, (handlerStep config key fault s.cluster ph).2 ≠ .returned (some err)
  | _ => True

/-- An update that changes the CronJob changes the URL or the resync counter too, and a CronJob that
    somebody deletes is in the namespace of its AppRepository, which is not being deleted. -/
def Noticed (config : Config) (k : RepoKey) (s : ControllerState) : Label → Prop
  | .updated apprepo => ∀ old, apprepo.key = k → s.cluster.apprepos k = some old →
      old.spec.url ≠ apprepo.spec.url ∨ old.spec.resyncRequests ≠ apprepo.spec.resyncRequests ∨
        newCronJob old config = newCronJob apprepo config
  | .cronJobDeleted name => ∀ apprepo, name = cronJobName k.ns k.name →
      s.cluster.apprepos k = some apprepo →
        apprepo.ns = config.kubeappsNamespace ∧ apprepo.deletionTimestamp = none
  | _ => True

/-- No AppRepository and no key at work has the CronJob of `k` too. -/
structure Apart (k : RepoKey) (s : ControllerState) : Prop where
  repos : ∀ k' apprepo, s.cluster.apprepos k' = some apprepo → OwnName k k'
  keys : ∀ key k', s.queue.Pending key ∨ s.handling key ≠ none →
    splitMetaNamespaceKey key = some k' → OwnName k k'

/-- The CronJob is that of the AppRepository, or a call is on its way to make it so. -/
def Upcoming (config : Config) (apprepo : AppRepository) (cronjob : Option CronJob) :
    Option Phase → Prop
  | none => cronjob = some (newCronJob apprepo config)
  | some .start => True
  | some (.createCleanupJob _) => False
  | some (.deleteCronJob _) => False
  | some (.getCronJob read) => newCronJob read config = newCronJob apprepo config
  | some (.createCronJob read) => newCronJob read config = newCronJob apprepo config
  | some (.updateCronJob read) => newCronJob read config = newCronJob apprepo config
  | some (.createSyncJob _ _) => cronjob = some (newCronJob apprepo config)
  | some (.checkOwner _ _) => cronjob = some (newCronJob apprepo config)
  | some (.returned _) => cronjob = some (newCronJob apprepo config)

structure ReconcileInv (config : Config) (k : RepoKey) (s : ControllerState) : Prop where
  sound : Sound s
  apart : Apart k s
  upcoming : ∀ apprepo, s.cluster.apprepos k = some apprepo →
    s.queue.Pending (metaNamespaceKey k) ∨
      Upcoming config apprepo (s.cluster.cronjobs (cronJobName k.ns k.name))
        (s.handling (metaNamespaceKey k))

section Reconcile

variable {config : Config} {k : RepoKey} {s s' : ControllerState} {l : Label}

/-! ### Keys apart -/

/-- Keys stay apart if those that come to the queue are of AppRepositories that are apart. -/
theorem apart_of (hs : Apart k s)
    (hrepos : ∀ k' a, s'.cluster.apprepos k' = some a → OwnName k k')
    (hkeys : ∀ key, s'.queue.Pending key ∨ s'.handling key ≠ none →
      (s.queue.Pending key ∨ s.handling key ≠ none) ∨
        ∃ a : AppRepository, OwnName k a.key ∧ key = metaNamespaceKey a.key) : Apart k s' := by
  refine ⟨hrepos, fun key k' hat hsplit => ?_⟩
  rcases hkeys key hat with hold | ⟨a, hown, hkey⟩
  · exact hs.keys key k' hold hsplit
  · rw [hkey, splitMetaNamespaceKey_of_valid a.validKey] at hsplit
    rw [← Option.some.inj hsplit]
    exact hown

/-- The same, for a step that only adds to the queue. -/
theorem apart_of_queue (hs : Apart k s)
    (hrepos : ∀ k' a, s'.cluster.apprepos k' = some a → OwnName k k')
    (hhandling : s'.handling = s.handling)
    (hqueue : ∀ key, s'.queue.Pending key → s.queue.Pending key ∨
      ∃ a : AppRepository, OwnName k a.key ∧ key = metaNamespaceKey a.key) : Apart k s' := by
  refine apart_of hs hrepos fun key hat => ?_
  rcases hat with hp | hw
  · exact (hqueue key hp).imp_left .inl
  · rw [hhandling] at hw
    exact .inl (.inr hw)

/-- The same, for a step of a worker. -/
theorem apart_of_worker (hs : Apart k s) (hrepos : s'.cluster.apprepos = s.cluster.apprepos)
    {key' : String} (hkey' : s.queue.Pending key' ∨ s.handling key' ≠ none)
    (hqueue : ∀ key, key ≠ key' → s'.queue.Pending key → s.queue.Pending key)
    {ph : Option Phase} (hhandling : s'.handling = Function.update s.handling key' ph) :
    Apart k s' := by
  refine apart_of hs (by rw [hrepos]; exact hs.repos) fun key hat => .inl ?_
  by_cases hkey : key = key'
  · rw [hkey]
    exact hkey'
  · rw [hhandling, Function.update_of_ne hkey] at hat
    exact hat.imp_left (hqueue key hkey)

theorem pending_enqueue_own {q : Workqueue String} {a : AppRepository} {key : String}
    (hown : OwnName k a.key) (hp : (enqueueAppRepo q a).Pending key) :
    q.Pending key ∨ ∃ a : AppRepository, OwnName k a.key ∧ key = metaNamespaceKey a.key := by
  rcases (pending_enqueueAppRepo a).mp hp with hkey | hold
  · exact .inr ⟨a, hown, hkey⟩
  · exact .inl hold

theorem pending_handleObject_own {q : Workqueue String} {object : CronJob} {key : String}
    {apprepos : RepoKey → Option AppRepository}
    (hkeys : ∀ k a, apprepos k = some a → a.key = k)
    (hrepos : ∀ k' a, apprepos k' = some a → OwnName k k')
    (hp : (handleObject config apprepos q object).Pending key) :
    q.Pending key ∨ ∃ a : AppRepository, OwnName k a.key ∧ key = metaNamespaceKey a.key := by
  rcases handleObject_cases config apprepos q object with heq | ⟨k', a, ha, heq⟩
  · rw [heq] at hp
    exact .inl hp
  · rw [heq] at hp
    refine pending_enqueue_own ?_ hp
    rw [hkeys k' a ha]
    exact hrepos k' a ha

theorem apart_step (hsound : Sound s) (hs : Apart k s) (hforeign : NoForeign k s l)
    (h : s.step config l = some s') : Apart k s' := by
  have hput : ∀ {apprepo : AppRepository}, OwnName k apprepo.key → ∀ k' a,
      Function.update s.cluster.apprepos apprepo.key (some apprepo) k' = some a → OwnName k k' :=
    fun hown => forall_update hs.repos fun _ _ => hown
  cases moves_of_controllerStep h with
  | added apprepo hnew =>
      exact apart_of_queue hs (hput hforeign) rfl fun key hp => pending_enqueue_own hforeign hp
  | updated old apprepo hold =>
      have hown := hs.repos apprepo.key old hold
      refine apart_of_queue hs (hput hown) rfl fun key hp => ?_
      dsimp only at hp
      rcases onUpdate_cases s.queue old apprepo with heq | ⟨heq, _⟩
      · rw [heq] at hp
        exact pending_enqueue_own hown hp
      · rw [heq] at hp
        exact .inl hp
  | deleted k' old hold =>
      have hkey := hsound.repos_key k' old hold
      have hown : OwnName k old.key := by
        rw [hkey]
        exact hs.repos k' old hold
      refine apart_of_queue hs (forall_update hs.repos fun _ hnew => by cases hnew) rfl
        fun key hp => ?_
      rw [← hkey] at hp
      exact pending_enqueue_own hown hp
  | cronJobDeleted name object hobject =>
      exact apart_of_queue hs hs.repos rfl fun key hp =>
        pending_handleObject_own hsound.repos_key hs.repos hp
  | observed name q hq =>
      refine apart_of_queue hs hs.repos rfl fun key hp => ?_
      dsimp only at hp
      rcases hq with hq | ⟨object, hq⟩
      · rw [hq] at hp
        exact .inl hp
      · rw [hq] at hp
        exact pending_handleObject_own hsound.repos_key hs.repos hp
  | fire key q hq =>
      exact apart_of_queue hs hs.repos rfl fun _ hp => .inl ((Workqueue.pending_fire hq).mp hp)
  | get key q hq =>
      exact apart_of_worker hs rfl (.inl (.inl (Workqueue.get_eq_some hq).1))
        (fun _ hne hp => (Workqueue.pending_get hq hne).mp hp) rfl
  | work key fault ph hph =>
      exact apart_of_worker hs (apprepos_handlerStep ..) (.inr (by simp [hph])) (fun _ _ hp => hp) rfl
  | finish key err q hph hq =>
      exact apart_of_worker hs rfl (.inr (by simp [hph])) (fun _ _ hp => (pending_of_same hq).mp hp)
        rfl

/-! ### The CronJob of `k` -/

/-- The controller that a CronJob of the Kubeapps namespace names is found. -/
theorem handleObject_newCronJob {apprepos : RepoKey → Option AppRepository}
    {apprepo : AppRepository} (q : Workqueue String)
    (hrepo : apprepos apprepo.key = some apprepo) (hns : apprepo.ns = config.kubeappsNamespace)
    (hdel : apprepo.deletionTimestamp = none) :
    handleObject config apprepos q (newCronJob apprepo config) = enqueueAppRepo q apprepo := by
  have hfound : apprepos ⟨config.kubeappsNamespace, apprepo.name⟩ = some apprepo := by
    rw [← hns]
    exact hrepo
  simp [handleObject, getControllerOf, newCronJob, ownerReferencesForAppRepo, hns, hfound, hdel]

/-- What is upcoming depends on the AppRepository through its CronJob only. -/
theorem upcoming_congr {apprepo apprepo' : AppRepository} {cronjob : Option CronJob}
    {ph : Option Phase} (heq : newCronJob apprepo config = newCronJob apprepo' config)
    (h : Upcoming config apprepo cronjob ph) : Upcoming config apprepo' cronjob ph := by
  cases ph with
  | none => simpa only [Upcoming, heq] using h
  | some ph => cases ph <;> first | exact h | simpa only [Upcoming, heq] using h

/-- The CronJob can matter only where it is that of the AppRepository already. -/
theorem upcoming_cases {apprepo : AppRepository} {cronjob : Option CronJob} {ph : Option Phase}
    (h : Upcoming config apprepo cronjob ph) :
    cronjob = some (newCronJob apprepo config) ∨
      ∀ cronjob', Upcoming config apprepo cronjob' ph := by
  cases ph with
  | none => exact .inl h
  | some ph => cases ph <;> first | exact .inl h | exact .inr fun _ => h

/-- A phase of the call for `k` itself. -/
theorem upcoming_handlerStep {cl : Cluster} {ph : Phase} {fault : Option String}
    {apprepo : AppRepository} (hk : ValidKey k) (hphase : PhaseOf (metaNamespaceKey k) ph)
    (hrepo : cl.apprepos k = some apprepo)
    (hok : ph.request ≠ none → ∀ err,
      (handlerStep config (metaNamespaceKey k) fault cl ph).2 ≠ .returned (some err))
    (h : Upcoming config apprepo (cl.cronjobs (cronJobName k.ns k.name)) (some ph)) :
    Upcoming config apprepo
      ((handlerStep config (metaNamespaceKey k) fault cl ph).1.cronjobs (cronJobName k.ns k.name))
      (some (handlerStep config (metaNamespaceKey k) fault cl ph).2) := by
  have hsplit := splitMetaNamespaceKey_of_valid hk
  have hname : ∀ a : AppRepository, splitMetaNamespaceKey (metaNamespaceKey k) = some a.key →
      cronJobName a.ns a.name = cronJobName k.ns k.name := by
    intro a ha
    have hkey : k = a.key := Option.some.inj (hsplit.symm.trans ha)
    rw [hkey]
    rfl
  cases ph with
  | start =>
      simp only [handlerStep, hsplit, hrepo]
      rfl
  | createCleanupJob k' => exact False.elim h
  | deleteCronJob k' => exact False.elim h
  | getCronJob read =>
      simp only [handlerStep]
      split <;> exact h
  | createCronJob read =>
      have hread := hname read hphase
      have hok' := hok (by simp [Phase.request])
      simp only [handlerStep] at hok' ⊢
      split at hok'
      · exact absurd rfl (hok' _)
      · exact absurd rfl (hok' _)
      · dsimp only [Upcoming]
        rw [hread, Function.update_self]
        exact congrArg some h
  | updateCronJob read =>
      have hread := hname read hphase
      have hok' := hok (by simp [Phase.request])
      simp only [handlerStep] at hok' ⊢
      split at hok'
      · exact absurd rfl (hok' _)
      · exact absurd rfl (hok' _)
      · dsimp only [Upcoming]
        rw [hread, Function.update_self]
        exact congrArg some h
  | createSyncJob read cronjob =>
      cases fault with
      | none => exact h
      | some err => exact absurd rfl (hok (by simp [Phase.request]) err)
  | checkOwner read cronjob =>
      simp only [handlerStep]
      split <;> exact h
  | returned err => exact h

/-- A phase of a call for another key leaves the CronJob of `k` alone. -/
theorem cronjobs_other_key (hk : ValidKey k) (hsound : Sound s) (hapart : Apart k s) {key : String}
    {fault : Option String} {ph : Phase} (hph : s.handling key = some ph)
    (hkey : key ≠ metaNamespaceKey k) :
    (handlerStep config key fault s.cluster ph).1.cronjobs (cronJobName k.ns k.name) =
      s.cluster.cronjobs (cronJobName k.ns k.name) := by
  have hphase := hsound.phase key ph hph
  cases hsplit : splitMetaNamespaceKey key with
  | none =>
      cases ph with
      | start => simp [handlerStep, hsplit]
      | returned err => rfl
      | _ => simp [PhaseOf, hsplit] at hphase
  | some k' =>
      refine cronjobs_handlerStep hsplit hphase fun heq => ?_
      have hkk := hapart.keys key k' (.inr (by simp [hph])) hsplit heq.symm
      subst hkk
      exact hkey (metaNamespaceKey_of_split (ns_ne_of_valid hk) hsplit)

theorem upcoming_step (hk : ValidKey k) (hs : ReconcileInv config k s)
    (hreq : RequestsSucceed config s l) (hok : Noticed config k s l)
    (h : s.step config l = some s') (apprepo : AppRepository)
    (hrepo' : s'.cluster.apprepos k = some apprepo) :
    s'.queue.Pending (metaNamespaceKey k) ∨
      Upcoming config apprepo (s'.cluster.cronjobs (cronJobName k.ns k.name))
        (s'.handling (metaNamespaceKey k)) := by
  obtain ⟨hsound, hapart, hup⟩ := hs
  cases moves_of_controllerStep h with
  | added new hnew =>
      by_cases hkey : k = new.key
      · left
        rw [hkey]
        exact (pending_enqueueAppRepo new).mpr (.inl rfl)
      · have hrepo : s.cluster.apprepos k = some apprepo := by
          simpa [Function.update_of_ne hkey] using hrepo'
        rcases hup apprepo hrepo with hp | hu
        · exact .inl ((pending_enqueueAppRepo new).mpr (.inr hp))
        · exact .inr hu
  | updated old new hold =>
      by_cases hkey : k = new.key
      · have hnew : new = apprepo := by simpa [hkey] using hrepo'
        rcases onUpdate_cases s.queue old new with heq | ⟨heq, hurl, hresync⟩
        · left
          dsimp only
          rw [heq, hkey]
          exact (pending_enqueueAppRepo new).mpr (.inl rfl)
        · -- nothing is added, so the CronJob is the same
          have hsame : newCronJob old config = newCronJob new config := by
            rcases hok old hkey.symm (hkey ▸ hold) with hne | hne | hsame
            · exact absurd hurl hne
            · exact absurd hresync hne
            · exact hsame
          dsimp only
          rw [heq]
          rcases hup old (hkey ▸ hold) with hp | hu
          · exact .inl hp
          · rw [← hnew]
            exact .inr (upcoming_congr hsame hu)
      · have hrepo : s.cluster.apprepos k = some apprepo := by
          simpa [Function.update_of_ne hkey] using hrepo'
        rcases hup apprepo hrepo with hp | hu
        · exact .inl (pending_onUpdate old new hp)
        · exact .inr hu
  | deleted k' old hold =>
      by_cases hkey : k = k'
      · subst hkey
        simp at hrepo'
      · have hrepo : s.cluster.apprepos k = some apprepo := by
          simpa [Function.update_of_ne hkey] using hrepo'
        rcases hup apprepo hrepo with hp | hu
        · exact .inl (Workqueue.pending_addRateLimited.2 (.inr hp))
        · exact .inr hu
  | cronJobDeleted name object hobject =>
      rcases hup apprepo hrepo' with hp | hu
      · exact .inl (pending_handleObject config _ object hp)
      · by_cases hname : cronJobName k.ns k.name = name
        · obtain ⟨hns, hdel⟩ := hok apprepo hname.symm hrepo'
          rcases upcoming_cases hu with hcron | hany
          · -- the event leads back to the AppRepository
            left
            have hkey := hsound.repos_key k apprepo hrepo'
            rw [hname, hobject] at hcron
            rw [Option.some.inj hcron]
            dsimp only
            rw [handleObject_newCronJob s.queue (hkey.symm ▸ hrepo') hns hdel]
            exact (pending_enqueueAppRepo apprepo).mpr (.inl (by rw [hkey]))
          · exact .inr (hany _)
        · right
          dsimp only
          rw [Function.update_of_ne hname]
          exact hu
  | observed name q hq =>
      rcases hup apprepo hrepo' with hp | hu
      · left
        rcases hq with hq | ⟨object, hq⟩
        · dsimp only
          rw [hq]
          exact hp
        · dsimp only
          rw [hq]
          exact pending_handleObject config _ object hp
      · exact .inr hu
  | fire key q hq =>
      rcases hup apprepo hrepo' with hp | hu
      · exact .inl ((Workqueue.pending_fire hq).mpr hp)
      · exact .inr hu
  | get key q hq =>
      by_cases hkey : metaNamespaceKey k = key
      · right
        simp [hkey, Upcoming]
      · dsimp only
        rw [Function.update_of_ne hkey, Workqueue.pending_get hq hkey]
        exact hup apprepo hrepo'
  | work key fault ph hph =>
      have hrepo : s.cluster.apprepos k = some apprepo := by
        simpa [apprepos_handlerStep] using hrepo'
      rcases hup apprepo hrepo with hp | hu
      · exact .inl hp
      · right
        by_cases hkey : key = metaNamespaceKey k
        · subst hkey
          rw [hph] at hu
          dsimp only
          rw [Function.update_self]
          exact upcoming_handlerStep hk (hsound.phase _ ph hph) hrepo
            (fun hr => hreq ph hph hr) hu
        · -- a call for another key writes another CronJob
          dsimp only
          rw [cronjobs_other_key hk hsound hapart hph hkey, Function.update_of_ne (Ne.symm hkey)]
          exact hu
  | finish key err q hph hq =>
      rcases hup apprepo hrepo' with hp | hu
      · exact .inl ((pending_of_same hq).mpr hp)
      · right
        by_cases hkey : metaNamespaceKey k = key
        · rw [hkey, hph] at hu
          dsimp only
          rw [hkey, Function.update_self]
          exact hu
        · dsimp only
          rw [Function.update_of_ne hkey]
          exact hu

theorem reconcileInv_step (hk : ValidKey k) (hs : ReconcileInv config k s)
    (hok : (NoForeign k s l ∧ RequestsSucceed config s l) ∧ Noticed config k s l)
    (h : s.step config l = some s') : ReconcileInv config k s' :=
  ⟨sound_step hs.sound h, apart_step hs.sound hs.apart hok.1.1 h,
    upcoming_step hk hs hok.1.2 hok.2 h⟩

end Reconcile

/-- In every run of the controller in which every request succeeds and no other AppRepository has
    the CronJob's name: an AppRepository that is neither in the queue nor being processed has the
    CronJob that `newCronJob` builds for it, if every update that changes that CronJob changes the
    URL or the resync counter, and nobody deletes the CronJob of an AppRepository outside the
    Kubeapps namespace or of one that is being deleted. -/
theorem cronJob_reconciled (config : Config) (k : RepoKey) (hk : ValidKey k)
    (cronjobs : String → Option CronJob) (as : List Label) (s : ControllerState)
    (hrun : runs (ControllerState.step config) (.start cronjobs) as = some s)
    (hforeign : StepsMeet (ControllerState.step config) (NoForeign k) (.start cronjobs) as)
    (hreq : StepsMeet (ControllerState.step config) (RequestsSucceed config) (.start cronjobs) as)
    (hok : StepsMeet (ControllerState.step config) (Noticed config k) (.start cronjobs) as) :
    Reconciled config k s := by
  have hstep : ∀ s a s', ReconcileInv config k s →
      (NoForeign k s a ∧ RequestsSucceed config s a) ∧ Noticed config k s a →
      ControllerState.step config s a = some s' → ReconcileInv config k s' :=
    fun _ _ _ hs hok h => reconcileInv_step hk hs hok h
  have hstart : ReconcileInv config k (.start cronjobs) := by
    refine ⟨sound_start cronjobs, ⟨fun k' a ha => ?_, fun key k' hat _ => ?_⟩, fun a ha => ?_⟩
    · simp [ControllerState.start] at ha
    · simp [ControllerState.start, Workqueue.Pending, Workqueue.empty] at hat
    · simp [ControllerState.start] at ha
  have hinv := runs_invariant_of_meet hstep (stepsMeet_and (stepsMeet_and hforeign hreq) hok) hrun
    hstart
  intro apprepo hrepo hnot hnone
  rcases hinv.upcoming apprepo hrepo with hp | hu
  · exact absurd hp hnot
  · rw [hnone] at hu
    exact hu

/-! ### The CronJob of one repository -/

def noForeign (k : RepoKey) (_ : ControllerState) : Label → Bool
  | .added apprepo => cronJobName apprepo.ns apprepo.name ≠ cronJobName k.ns k.name ||
      apprepo.key = k
  | _ => true

theorem noForeign_of_eq_true {k : RepoKey} {s : ControllerState} {l : Label}
    (h : noForeign k s l = true) : NoForeign k s l := by
  cases l with
  | added apprepo =>
      intro heq
      have heq' : cronJobName apprepo.ns apprepo.name = cronJobName k.ns k.name := heq
      simpa [noForeign, heq'] using h
  | _ => trivial

def requestsSucceed (config : Config) (s : ControllerState) : Label → Bool
  | .work key fault =>
      match s.handling key with
      | none => true
      | some ph =>
          match (handlerStep config key fault s.cluster ph).2 with
          | .returned (some _) => ph.request = none
          | _ => true
  | _ => true

theorem requestsSucceed_of_eq_true {config : Config} {s : ControllerState} {l : Label}
    (h : requestsSucceed config s l = true) : RequestsSucceed config s l := by
  cases l with
  | work key fault =>
      intro ph hph hreq err herr
      simp only [requestsSucceed, hph, herr, decide_eq_true_eq] at h
      exact hreq h
  | _ => trivial

/-- `Noticed` for events of other repositories and updates of the URL. -/
def noticed (k : RepoKey) (s : ControllerState) : Label → Bool
  | .updated apprepo => apprepo.key ≠ k ||
      (s.cluster.apprepos k).all fun old => old.spec.url ≠ apprepo.spec.url
  | .cronJobDeleted name => name ≠ cronJobName k.ns k.name
  | _ => true

theorem noticed_of_eq_true {config : Config} {k : RepoKey} {s : ControllerState} {l : Label}
    (h : noticed k s l = true) : Noticed config k s l := by
  cases l with
  | updated apprepo =>
      intro old hkey hold
      left
      simpa [noticed, hkey, hold] using h
  | cronJobDeleted name =>
      intro apprepo hname _
      simp [noticed, hname] at h
  | _ => trivial

/-- The first event of `apprepo`, and its processing. `tail` is what comes then. -/
def processedSchedule (apprepo : AppRepository) (tail : List Label) : List Label :=
  let key := metaNamespaceKey apprepo.key
  [.added apprepo, .fire key, .get] ++ List.replicate 5 (.work key none) ++ [.finish key] ++ tail

/-- The AppRepository of a namespace, its key's place in the controller, and its CronJob. -/
def repoState (k : RepoKey) (s : ControllerState) :
    Option AppRepository × Bool × Bool × Option CronJob :=
  (s.cluster.apprepos k, decide (s.queue.Pending (metaNamespaceKey k)),
    (s.handling (metaNamespaceKey k)).isSome, s.cluster.cronjobs (cronJobName k.ns k.name))

theorem cronJob_reconciled_bitnami :
    ∃ s, runs (ControllerState.step defaultConfig) (.start fun _ => none)
        (processedSchedule (bitnamiRepo "default" (by decide) .zero) []) = some s ∧
      s.cluster.cronjobs (cronJobName "default" "bitnami") =
        some (newCronJob (bitnamiRepo "default" (by decide) .zero) defaultConfig) := by
  have heval : (runs (ControllerState.step defaultConfig) (.start fun _ => none)
      (processedSchedule (bitnamiRepo "default" (by decide) .zero) [])).map
        (fun s => (s.cluster.apprepos ⟨"default", "bitnami"⟩,
          decide (s.queue.Pending "default/bitnami"), (s.handling "default/bitnami").isSome)) =
        some (some (bitnamiRepo "default" (by decide) .zero), false, false) := by
    decide
  obtain ⟨s, hrun, hs⟩ := Option.map_eq_some_iff.mp heval
  simp only [Prod.mk.injEq, decide_eq_false_iff_not, Option.isSome_eq_false_iff,
    Option.isNone_iff_eq_none] at hs
  obtain ⟨hrepo, hnot, hidle⟩ := hs
  have hkey : metaNamespaceKey ⟨"default", "bitnami"⟩ = "default/bitnami" := by decide
  refine ⟨s, hrun, cronJob_reconciled defaultConfig ⟨"default", "bitnami"⟩ (by decide +kernel)
    (fun _ => none) _ s hrun
    (stepsMeet_of_meets (fun _ _ => noForeign_of_eq_true) (by decide))
    (stepsMeet_of_meets (fun _ _ => requestsSucceed_of_eq_true) (by decide))
    (stepsMeet_of_meets (fun _ _ => noticed_of_eq_true) (by decide +kernel)) _ hrepo ?_ ?_⟩
  · rw [hkey]
    exact hnot
  · rw [hkey]
    exact hidle

/-- An update that turns certificate checks off. -/
def insecureRepo : AppRepository :=
  let old := bitnamiRepo "kubeapps" validNamespace_kubeapps .zero
  { old with spec := { old.spec with tlsInsecureSkipVerify := true } }

/-- The update is not noticed: the CronJob goes on with the old arguments. -/
theorem update_not_noticed :
    ∃ s, runs (ControllerState.step defaultConfig) (.start fun _ => none)
        (processedSchedule (bitnamiRepo "kubeapps" validNamespace_kubeapps .zero) [.updated insecureRepo]) =
          some s ∧
      s.cluster.cronjobs (cronJobName "kubeapps" "bitnami") =
        some (newCronJob (bitnamiRepo "kubeapps" validNamespace_kubeapps .zero) defaultConfig) ∧
      ¬ Reconciled defaultConfig ⟨"kubeapps", "bitnami"⟩ s := by
  have heval : (runs (ControllerState.step defaultConfig) (.start fun _ => none)
      (processedSchedule (bitnamiRepo "kubeapps" validNamespace_kubeapps .zero)
        [.updated insecureRepo])).map (repoState ⟨"kubeapps", "bitnami"⟩) =
        some (some insecureRepo, false, false,
          some (newCronJob (bitnamiRepo "kubeapps" validNamespace_kubeapps .zero) defaultConfig)) := by
    decide +kernel
  obtain ⟨s, hrun, hs⟩ := Option.map_eq_some_iff.mp heval
  simp only [repoState, Prod.mk.injEq, decide_eq_false_iff_not, Option.isSome_eq_false_iff,
    Option.isNone_iff_eq_none] at hs
  obtain ⟨hrepo, hnot, hidle, hcron⟩ := hs
  refine ⟨s, hrun, hcron, fun h => ?_⟩
  have hnew := h insecureRepo hrepo hnot hidle
  rw [hcron] at hnew
  exact absurd hnew (by decide)

/-- The CronJob of a repository outside the Kubeapps namespace has no owner. Nobody creates it
    again. -/
theorem deletion_not_noticed :
    ∃ s, runs (ControllerState.step defaultConfig) (.start fun _ => none)
        (processedSchedule (bitnamiRepo "default" (by decide) .zero)
          [.cronJobDeleted (cronJobName "default" "bitnami")]) = some s ∧
      s.cluster.cronjobs (cronJobName "default" "bitnami") = none ∧
      ¬ Reconciled defaultConfig ⟨"default", "bitnami"⟩ s := by
  have heval : (runs (ControllerState.step defaultConfig) (.start fun _ => none)
      (processedSchedule (bitnamiRepo "default" (by decide) .zero)
        [.cronJobDeleted (cronJobName "default" "bitnami")])).map
          (repoState ⟨"default", "bitnami"⟩) =
        some (some (bitnamiRepo "default" (by decide) .zero), false, false, none) := by
    decide
  obtain ⟨s, hrun, hs⟩ := Option.map_eq_some_iff.mp heval
  simp only [repoState, Prod.mk.injEq, decide_eq_false_iff_not, Option.isSome_eq_false_iff,
    Option.isNone_iff_eq_none] at hs
  obtain ⟨hrepo, hnot, hidle, hcron⟩ := hs
  refine ⟨s, hrun, hcron, fun h => ?_⟩
  have hnew := h _ hrepo hnot hidle
  rw [hcron] at hnew
  simp at hnew

end Kubeapps.Controller
