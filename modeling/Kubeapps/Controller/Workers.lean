/-
  The controller (cmd/apprepository-controller/controller.go): the event handlers of NewController,
  the work queue and the workers that call `syncHandler` (processNextWorkItem).

  A label is an event of an informer, the end of a delay of the queue, or a step of a worker.
  Events are delivered in the step in which they happen, except for the changes that the workers
  make to CronJobs, which the lister sees later (`observed`). There is no bound on the number of
  workers; `handling` are the calls of `syncHandler` in progress, by key.

  * `failed_keys_pending_iff`: a key whose `syncHandler` failed is to be processed again exactly if
    an event has added it during the call. `processNextWorkItem` does not put it back.
-/
import Kubeapps.Controller.SyncHandler
import Kubeapps.Lib.Steps
import Kubeapps.Lib.Workqueue

namespace Kubeapps.Controller

open Kubeapps.Lib
open Kubeapps.Syncer (RepoKey)

/-! ## Event handlers -/

/-- `enqueueAppRepo`. -/
def enqueueAppRepo (q : Workqueue String) (apprepo : AppRepository) : Workqueue String :=
  q.addRateLimited (metaNamespaceKey apprepo.key)

/-- The `UpdateFunc` of the AppRepositories. -/
def onUpdate (q : Workqueue String) (oldApp newApp : AppRepository) : Workqueue String :=
  if oldApp.spec.url ≠ newApp.spec.url ∨ oldApp.spec.resyncRequests ≠ newApp.spec.resyncRequests then
    enqueueAppRepo q newApp
  else q

/-- `handleObject`, the `DeleteFunc` of the CronJobs. -/
def handleObject (config : Config) (apprepos : RepoKey → Option AppRepository)
    (q : Workqueue String) (object : CronJob) : Workqueue String :=
  match getControllerOf object with
  | none => q
  | some ownerRef =>
      if ownerRef.kind ≠ "AppRepository" then q
      else
        match apprepos ⟨config.kubeappsNamespace, ownerRef.name⟩ with
        | none => q
        | some apprepo =>
            if apprepo.deletionTimestamp ≠ none then q else enqueueAppRepo q apprepo

/-! ## The controller -/

/-- `failed`: the last call of `syncHandler` for the key has returned an error. -/
structure ControllerState where
  cluster : Cluster
  queue : Workqueue String
  handling : String → Option Phase
  failed : String → Bool

/-- No AppRepository has been listed. There may be CronJobs from earlier. -/
def ControllerState.start (cronjobs : String → Option CronJob) : ControllerState where
  cluster := ⟨fun _ => none, cronjobs, cronjobs, []⟩
  queue := .empty
  handling _ := none
  failed _ := false

inductive Label where
  | added (apprepo : AppRepository)
  | updated (apprepo : AppRepository)
  | deleted (k : RepoKey)
  /-- Somebody else deletes a CronJob. -/
  | cronJobDeleted (name : String)
  /-- The lister catches up on a CronJob. -/
  | observed (name : String)
  | fire (key : String)
  /-- A worker takes the next key. -/
  | get
  /-- A phase of `syncHandler key`. -/
  | work (key : String) (fault : Option String)
  /-- The end of `processNextWorkItem` for the key. -/
  | finish (key : String)

namespace ControllerState

def step (config : Config) (s : ControllerState) : Label → Option ControllerState
  | .added apprepo =>
      match s.cluster.apprepos apprepo.key with
      | some _ => none
      | none => some { s with
          cluster := { s.cluster with
            apprepos := Function.update s.cluster.apprepos apprepo.key (some apprepo) }
          queue := enqueueAppRepo s.queue apprepo }
  | .updated apprepo =>
      match s.cluster.apprepos apprepo.key with
      | none => none
      | some old => some { s with
          cluster := { s.cluster with
            apprepos := Function.update s.cluster.apprepos apprepo.key (some apprepo) }
          queue := onUpdate s.queue old apprepo }
  | .deleted k =>
      match s.cluster.apprepos k with
      | none => none
      | some _ => some { s with
          cluster := { s.cluster with apprepos := Function.update s.cluster.apprepos k none }
          queue := s.queue.addRateLimited (metaNamespaceKey k) }
  | .cronJobDeleted name =>
      match s.cluster.cronjobs name with
      | none => none
      | some object => some { s with
          cluster := { s.cluster with
            cronjobs := Function.update s.cluster.cronjobs name none
            listed := Function.update s.cluster.listed name none }
          queue := handleObject config s.cluster.apprepos s.queue object }
  | .observed name =>
      some { s with
        cluster := { s.cluster with
          listed := Function.update s.cluster.listed name (s.cluster.cronjobs name) }
        queue :=
          match s.cluster.listed name, s.cluster.cronjobs name with
          | some object, none => handleObject config s.cluster.apprepos s.queue object
          | _, _ => s.queue }
  | .fire key => (s.queue.fire key).map fun q => { s with queue := q }
  | .get =>
      s.queue.get.map fun (key, q) => { s with
        queue := q
        handling := Function.update s.handling key (some .start)
        failed := Function.update s.failed key false }
  | .work key fault =>
      match s.handling key with
      | none => none
      | some (.returned _) => none
      | some ph =>
          let (cl, ph') := handlerStep config key fault s.cluster ph
          some { s with cluster := cl, handling := Function.update s.handling key (some ph') }
  | .finish key =>
      match s.handling key with
      | some (.returned err) => some { s with
          -- an error is only logged: `Done`, and neither `Forget` nor `AddRateLimited`
          queue := if err = none then (s.queue.forget key).done key else s.queue.done key
          handling := Function.update s.handling key none
          failed := Function.update s.failed key err.isSome }
      | _ => none

end ControllerState

/-- What a step does to the queue, to the calls in progress and to the cluster. -/
inductive ControllerMoves (config : Config) (s : ControllerState) : Label → ControllerState → Prop
  | added (apprepo : AppRepository) (hnew : s.cluster.apprepos apprepo.key = none) :
      ControllerMoves config s (.added apprepo) { s with
        cluster := { s.cluster with
          apprepos := Function.update s.cluster.apprepos apprepo.key (some apprepo) }
        queue := enqueueAppRepo s.queue apprepo }
  | updated (old apprepo : AppRepository) (hold : s.cluster.apprepos apprepo.key = some old) :
      ControllerMoves config s (.updated apprepo) { s with
        cluster := { s.cluster with
          apprepos := Function.update s.cluster.apprepos apprepo.key (some apprepo) }
        queue := onUpdate s.queue old apprepo }
  | deleted (k : RepoKey) (old : AppRepository) (hold : s.cluster.apprepos k = some old) :
      ControllerMoves config s (.deleted k) { s with
        cluster := { s.cluster with apprepos := Function.update s.cluster.apprepos k none }
        queue := s.queue.addRateLimited (metaNamespaceKey k) }
  | cronJobDeleted (name : String) (object : CronJob)
      (hobject : s.cluster.cronjobs name = some object) :
      ControllerMoves config s (.cronJobDeleted name) { s with
        cluster := { s.cluster with
          cronjobs := Function.update s.cluster.cronjobs name none
          listed := Function.update s.cluster.listed name none }
        queue := handleObject config s.cluster.apprepos s.queue object }
  | observed (name : String) (q : Workqueue String)
      (hq : q = s.queue ∨ ∃ object, q = handleObject config s.cluster.apprepos s.queue object) :
      ControllerMoves config s (.observed name) { s with
        cluster := { s.cluster with
          listed := Function.update s.cluster.listed name (s.cluster.cronjobs name) }
        queue := q }
  | fire (key : String) (q : Workqueue String) (hq : s.queue.fire key = some q) :
      ControllerMoves config s (.fire key) { s with queue := q }
  | get (key : String) (q : Workqueue String) (hq : s.queue.get = some (key, q)) :
      ControllerMoves config s .get { s with
        queue := q
        handling := Function.update s.handling key (some .start)
        failed := Function.update s.failed key false }
  | work (key : String) (fault : Option String) (ph : Phase) (hph : s.handling key = some ph) :
      ControllerMoves config s (.work key fault) { s with
        cluster := (handlerStep config key fault s.cluster ph).1
        handling := Function.update s.handling key
          (some (handlerStep config key fault s.cluster ph).2) }
  | finish (key : String) (err : Option String) (q : Workqueue String)
      (hph : s.handling key = some (.returned err))
      (hq : q.dirty = s.queue.dirty ∧ q.waiting = s.queue.waiting) :
      ControllerMoves config s (.finish key) { s with
        queue := q
        handling := Function.update s.handling key none
        failed := Function.update s.failed key err.isSome }

theorem moves_of_controllerStep {config : Config} {s s' : ControllerState} {l : Label}
    (h : s.step config l = some s') : ControllerMoves config s l s' := by
  cases l with
  | added apprepo =>
      simp only [ControllerState.step] at h
      split at h
      · simp at h
      · rename_i hnew
        rw [← Option.some.inj h]
        exact .added apprepo hnew
  | updated apprepo =>
      simp only [ControllerState.step] at h
      split at h
      · simp at h
      · rename_i old hold
        rw [← Option.some.inj h]
        exact .updated old apprepo hold
  | deleted k =>
      simp only [ControllerState.step] at h
      split at h
      · simp at h
      · rename_i old hold
        rw [← Option.some.inj h]
        exact .deleted k old hold
  | cronJobDeleted name =>
      simp only [ControllerState.step] at h
      split at h
      · simp at h
      · rename_i object hobject
        rw [← Option.some.inj h]
        exact .cronJobDeleted name object hobject
  | observed name =>
      simp only [ControllerState.step] at h
      rw [← Option.some.inj h]
      refine .observed name _ ?_
      split
      · rename_i object _ _
        exact .inr ⟨object, rfl⟩
      · exact .inl rfl
  | fire key =>
      obtain ⟨q, hq, heq⟩ := Option.map_eq_some_iff.mp h
      rw [← heq]
      exact .fire key q hq
  | get =>
      obtain ⟨⟨key, q⟩, hq, heq⟩ := Option.map_eq_some_iff.mp h
      rw [← heq]
      exact .get key q hq
  | work key fault =>
      simp only [ControllerState.step] at h
      split at h
      · simp at h
      · simp at h
      · rename_i ph hnot hph
        rw [← Option.some.inj h]
        exact .work key fault ph hph
  | finish key =>
      simp only [ControllerState.step] at h
      split at h
      · rename_i err hph
        rw [← Option.some.inj h]
        refine .finish key err _ hph ?_
        split <;> exact ⟨rfl, rfl⟩
      · simp at h

/-! ## What the events add to the queue -/

section Events

variable {q : Workqueue String} {key : String}

theorem pending_enqueueAppRepo (apprepo : AppRepository) :
    (enqueueAppRepo q apprepo).Pending key ↔ key = metaNamespaceKey apprepo.key ∨ q.Pending key :=
  Workqueue.pending_addRateLimited

/-- A change of the URL or of the resync counter adds the AppRepository, any other change nothing. -/
theorem onUpdate_cases (q : Workqueue String) (old apprepo : AppRepository) :
    onUpdate q old apprepo = enqueueAppRepo q apprepo ∨
      (onUpdate q old apprepo = q ∧ old.spec.url = apprepo.spec.url ∧
        old.spec.resyncRequests = apprepo.spec.resyncRequests) := by
  unfold onUpdate
  split
  · exact .inl rfl
  · rename_i hsame
    rw [not_or, not_not, not_not] at hsame
    exact .inr ⟨rfl, hsame⟩

/-- `handleObject` adds an AppRepository that exists, or nothing. -/
theorem handleObject_cases (config : Config) (apprepos : RepoKey → Option AppRepository)
    (q : Workqueue String) (object : CronJob) :
    handleObject config apprepos q object = q ∨
      ∃ k apprepo, apprepos k = some apprepo ∧
        handleObject config apprepos q object = enqueueAppRepo q apprepo := by
  unfold handleObject
  split
  · exact .inl rfl
  · split
    · exact .inl rfl
    · split
      · exact .inl rfl
      · rename_i apprepo hrepo
        split
        · exact .inl rfl
        · exact .inr ⟨_, apprepo, hrepo, rfl⟩

theorem pending_onUpdate (old apprepo : AppRepository) (h : q.Pending key) :
    (onUpdate q old apprepo).Pending key := by
  rcases onUpdate_cases q old apprepo with heq | ⟨heq, _⟩
  · rw [heq]
    exact (pending_enqueueAppRepo apprepo).mpr (.inr h)
  · rw [heq]
    exact h

theorem pending_handleObject (config : Config) (apprepos : RepoKey → Option AppRepository)
    (object : CronJob) (h : q.Pending key) :
    (handleObject config apprepos q object).Pending key := by
  rcases handleObject_cases config apprepos q object with heq | ⟨k, apprepo, _, heq⟩
  · rw [heq]
    exact h
  · rw [heq]
    exact (pending_enqueueAppRepo apprepo).mpr (.inr h)

theorem pending_of_same {q' : Workqueue String}
    (h : q'.dirty = q.dirty ∧ q'.waiting = q.waiting) : q'.Pending key ↔ q.Pending key := by
  unfold Workqueue.Pending
  rw [h.1, h.2]

end Events

/-! ## Keys that failed -/

/-- A key whose last call has returned an error is to be processed again. -/
def NoneDropped (s : ControllerState) : Prop := ∀ key, s.failed key = true → s.queue.Pending key

/-- The worker is not about to let go of a key that failed and that no event has added during the
    call. -/
def FinishOk (s : ControllerState) : Label → Prop
  | .finish key => ∀ err, s.handling key = some (.returned (some err)) → s.queue.Pending key
  | _ => True

section Failed

variable {config : Config} {s s' : ControllerState} {l : Label}

theorem noneDropped_step (hs : NoneDropped s) (hok : FinishOk s l)
    (h : s.step config l = some s') : NoneDropped s' := by
  intro x hx
  cases moves_of_controllerStep h with
  | added apprepo hnew => exact (pending_enqueueAppRepo apprepo).mpr (.inr (hs x hx))
  | updated old apprepo hold => exact pending_onUpdate old apprepo (hs x hx)
  | deleted k old hold => exact Workqueue.pending_addRateLimited.2 (.inr (hs x hx))
  | cronJobDeleted name object hobject => exact pending_handleObject config _ object (hs x hx)
  | observed name q hq =>
      rcases hq with hq | ⟨object, hq⟩
      · rw [hq]
        exact hs x hx
      · rw [hq]
        exact pending_handleObject config _ object (hs x hx)
  | fire key q hq => exact (Workqueue.pending_fire hq).mpr (hs x hx)
  | get key q hq =>
      by_cases hkey : x = key
      · subst hkey
        simp at hx
      · have hx' : s.failed x = true := by simpa [Function.update_of_ne hkey] using hx
        exact (Workqueue.pending_get hq hkey).mpr (hs x hx')
  | work key fault ph hph => exact hs x hx
  | finish key err q hph hq =>
      refine (pending_of_same hq).mpr ?_
      by_cases hkey : x = key
      · subst hkey
        cases err with
        | none => simp at hx
        | some msg => exact hok msg hph
      · have hx' : s.failed x = true := by simpa [Function.update_of_ne hkey] using hx
        exact hs x hx'

/-- Such a key is dropped. -/
theorem dropped_of_not_finishOk (hmiss : ¬ FinishOk s l) (h : s.step config l = some s') :
    ¬ NoneDropped s' := by
  intro hs'
  cases moves_of_controllerStep h with
  | finish key err q hph hq =>
      apply hmiss
      intro msg hmsg
      have herr : err = some msg := by
        rw [hph] at hmsg
        simpa using hmsg
      refine (pending_of_same hq).mp (hs' key ?_)
      simp [herr]
  | _ => exact hmiss trivial

end Failed

/-- In every run of the controller, over any events and any pattern of errors: every key whose last
    call of `syncHandler` returned an error is in the queue or scheduled to be added, in every
    state of the run, exactly if an event had added the key whenever a worker finished it with an
    error. -/
theorem failed_keys_pending_iff (config : Config) (cronjobs : String → Option CronJob)
    (as : List Label) (s : ControllerState)
    (hrun : runs (ControllerState.step config) (.start cronjobs) as = some s) :
    Always (ControllerState.step config) NoneDropped (.start cronjobs) as ↔
      StepsMeet (ControllerState.step config) FinishOk (.start cronjobs) as := by
  have hkeep : ∀ s a s', NoneDropped s → FinishOk s a →
      ControllerState.step config s a = some s' → NoneDropped s' :=
    fun _ _ _ => noneDropped_step
  have hmiss : ∀ s a s', NoneDropped s → ¬ FinishOk s a →
      ControllerState.step config s a = some s' → ¬ NoneDropped s' :=
    fun _ _ _ _ => dropped_of_not_finishOk
  have hstart : NoneDropped (.start cronjobs) := by
    intro key hkey
    simp [ControllerState.start] at hkey
  exact always_iff_stepsMeet (fun _ h => h) hkeep hmiss hrun hstart

/-! ### A request that fails -/

def finishOk (s : ControllerState) : Label → Bool
  | .finish key =>
      match s.handling key with
      | some (.returned (some _)) => decide (s.queue.Pending key)
      | _ => true
  | _ => true

theorem finishOk_of_eq_true {s : ControllerState} {l : Label} (h : finishOk s l = true) :
    FinishOk s l := by
  cases l with
  | finish key =>
      intro err herr
      simpa [finishOk, herr] using h
  | _ => trivial

/-- The repository `bitnami` of the Kubeapps namespace, from the first event to the end of a call
    whose third phase, the creation of the CronJob, is refused. `during` are the events before
    that. -/
def refusedSchedule (during : List Label) : List Label :=
  let key := "kubeapps/bitnami"
  [.added (bitnamiRepo "kubeapps" validNamespace_kubeapps .zero), .fire key, .get, .work key none,
    .work key none] ++ during ++ [.work key (some "etcdserver: request timed out"), .finish key]

/-- An update of the URL. -/
def movedRepo : AppRepository :=
  let old := bitnamiRepo "kubeapps" validNamespace_kubeapps .zero
  { old with spec := { old.spec with url := "https://charts.bitnami.com/full" } }

def keyState (key : String) (s : ControllerState) : Bool × Bool × Bool :=
  (s.failed key, decide (s.queue.Pending key), (s.handling key).isSome)

/-- The URL changes during the call, and the key is processed again. -/
theorem failed_key_pending_updated :
    ∃ s, runs (ControllerState.step defaultConfig) (.start fun _ => none)
        (refusedSchedule [.updated movedRepo]) = some s ∧
      s.failed "kubeapps/bitnami" = true ∧ s.queue.Pending "kubeapps/bitnami" := by
  have heval : (runs (ControllerState.step defaultConfig) (.start fun _ => none)
      (refusedSchedule [.updated movedRepo])).map (keyState "kubeapps/bitnami") =
        some (true, true, false) := by
    decide
  obtain ⟨s, hrun, hs⟩ := Option.map_eq_some_iff.mp heval
  have hfailed : s.failed "kubeapps/bitnami" = true := congrArg Prod.fst hs
  have hmeet : StepsMeet (ControllerState.step defaultConfig) FinishOk (.start fun _ => none)
      (refusedSchedule [.updated movedRepo]) :=
    stepsMeet_of_meets (fun _ _ => finishOk_of_eq_true) (by decide)
  have hall := (failed_keys_pending_iff defaultConfig (fun _ => none) _ s hrun).mpr hmeet
  exact ⟨s, hrun, hfailed, hall _ s (List.prefix_refl _) hrun _ hfailed⟩

/-- Nothing happens during the call. The AppRepository has no CronJob, and its key is gone. -/
theorem failed_key_dropped :
    ∃ s, runs (ControllerState.step defaultConfig) (.start fun _ => none) (refusedSchedule []) =
        some s ∧
      s.failed "kubeapps/bitnami" = true ∧ ¬ s.queue.Pending "kubeapps/bitnami" ∧
      s.handling "kubeapps/bitnami" = none ∧ ¬ NoneDropped s := by
  have heval : (runs (ControllerState.step defaultConfig) (.start fun _ => none)
      (refusedSchedule [])).map (keyState "kubeapps/bitnami") = some (true, false, false) := by
    decide
  obtain ⟨s, hrun, hs⟩ := Option.map_eq_some_iff.mp heval
  simp only [keyState, Prod.mk.injEq, decide_eq_false_iff_not, Option.isSome_eq_false_iff,
    Option.isNone_iff_eq_none] at hs
  obtain ⟨hfailed, hnot, hidle⟩ := hs
  exact ⟨s, hrun, hfailed, hnot, hidle, fun h => hnot (h _ hfailed)⟩

end Kubeapps.Controller
