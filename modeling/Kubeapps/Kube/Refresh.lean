/-
  RefreshAppRepository (pkg/kube/kube_handler.go), and the calls that write an AppRepository when
  any number of them is under way at once.

  `RefreshAppRepository` reads the AppRepository and writes it back with one more resync request, and
  `UpdateAppRepository` writes back what it has read with another spec. The API server refuses an
  update of an object that has been written since it was read, so that a call that succeeds has
  written at once. The secrets come after the write and are not part of this (AppRepositories.lean).

  * `refreshes_counted`: the AppRepositories are those that the calls leave one after the other, so
    that no refresh is lost.
  * `refresh_noticed`: what the controller does about a refresh when its informer skips versions.
-/
import Kubeapps.Kube.FailedCreate
import Kubeapps.Controller.Workers
import Kubeapps.Lib.Versioned
import Mathlib.Data.Nat.ModEq

namespace Kubeapps.Kube

open Kubeapps.Lib Kubeapps.Controller
open Kubeapps.Syncer (RepoKey)

/-- `appRepo.Spec.ResyncRequests++`, a `uint`. -/
def refreshed (appRepo : AppRepository) : AppRepository :=
  { appRepo with spec := { appRepo.spec with
      resyncRequests := (appRepo.spec.resyncRequests + 1) % 2 ^ 64 } }

/-- `RefreshAppRepository`. -/
def refreshAppRepository (h : UserHandler) (repoName requestNamespace : String) :
    Api AppRepository := do
  let appRepo ← getAppRepositoryObject h ⟨requestNamespace, repoName⟩
  updateAppRepositoryObject h (refreshed appRepo)

/-! ## The calls -/

/-- `newUID` is what the server gives to an AppRepository that is created. -/
inductive RepoWrite where
  | create (req : AppRepositoryRequest) (requestNamespace newUID : String)
  | update (req : AppRepositoryRequest) (requestNamespace : String)
  | refresh (repoName requestNamespace : String)
  | delete (repoName repoNamespace : String)

namespace RepoWrite

/-- The AppRepository that the call is for. -/
def key : RepoWrite → RepoKey
  | create req ns _ => ⟨ns, req.name⟩
  | update req ns => ⟨ns, req.name⟩
  | refresh name ns => ⟨ns, name⟩
  | delete name ns => ⟨ns, name⟩

/-- What `CreateAppRepository` and `UpdateAppRepository` refuse by themselves. -/
def Rejected (kns : String) (req : AppRepositoryRequest) (ns : String) : Prop :=
  kns = "" ∨ req.registrySecrets ≠ [] ∧ ns = kns

instance (kns : String) (req : AppRepositoryRequest) (ns : String) :
    Decidable (Rejected kns req ns) :=
  inferInstanceAs (Decidable (_ ∨ _))

/-- The new AppRepository. -/
def created (k : RepoKey) (hvalid : ValidKey k) (uid : String) (req : AppRepositoryRequest) :
    AppRepository where
  ns := k.ns
  name := k.name
  uid := uid
  deletionTimestamp := none
  spec := appRepositoryForRequest req
  ns_valid := hvalid.validNamespace
  name_valid := hvalid.validName

/-- The existing AppRepository with the new spec. -/
def updated (req : AppRepositoryRequest) (existing : AppRepository) : AppRepository :=
  { existing with spec := appRepositoryForRequest req }

/-- What the call does to the AppRepositories. The server refuses an invalid name. -/
def write (kns : String) : RepoWrite → VersionedWrite RepoKey AppRepository
  | create req ns uid =>
      if Rejected kns req ns then .reject
      else if hvalid : ValidKey ⟨ns, req.name⟩ then
        .create ⟨ns, req.name⟩ (created ⟨ns, req.name⟩ hvalid uid req)
      else .reject
  | update req ns => if Rejected kns req ns then .reject else .update ⟨ns, req.name⟩ (updated req)
  | refresh name ns => .update ⟨ns, name⟩ refreshed
  | delete name ns => .delete ⟨ns, name⟩

/-- The call by itself. -/
def run (h : UserHandler) : RepoWrite → Api Unit
  | create req ns uid => do
      let _ ← createAppRepository { h with newUID := uid } req ns
  | update req ns => do
      let _ ← updateAppRepository h req ns
  | refresh name ns => do
      let _ ← refreshAppRepository h name ns
  | delete name ns => deleteAppRepository h name ns

end RepoWrite

/-- A server without calls under way. -/
abbrev RepoServer := VersionedStore RepoKey AppRepository RepoWrite

/-! ## One call by itself -/

section Alone

variable {h : UserHandler} {st st' : KubeState} {req : AppRepositoryRequest} {ns : String}

theorem not_rejected {kns : String} {x : Api AppRepository} {appRepo : AppRepository}
    (hcall : (if kns = "" then throw errKubeappsNamespace
      else if req.registrySecrets ≠ [] ∧ ns = kns then throw errGlobalRepositoryWithSecrets
      else x : Api AppRepository).exec st = (.ok appRepo, st')) :
    ¬ RepoWrite.Rejected kns req ns ∧ x.exec st = (.ok appRepo, st') := by
  obtain ⟨hkns, hcall⟩ := Call.exec_ite_throw_ok hcall
  obtain ⟨hglobal, hcall⟩ := Call.exec_ite_throw_ok hcall
  exact ⟨not_or.mpr ⟨hkns, hglobal⟩, hcall⟩

theorem recordSecret_apprepos {appRepo : AppRepository} {u : Unit}
    (hrecord : (recordSecret h req appRepo ns).exec st = (.ok u, st')) :
    st'.apprepos = st.apprepos := by
  have hkeeps : ((recordSecret h req appRepo ns).exec st).2.apprepos = st.apprepos :=
    recordSecret_keeps_repos st
  rw [hrecord] at hkeeps
  exact hkeeps

/-- The server has created it. -/
theorem createAppRepositoryObject_created {k : RepoKey} {appRepo : AppRepository}
    (hcreate : (createAppRepositoryObject h k (appRepositoryForRequest req)).exec st =
      (.ok appRepo, st')) :
    ∃ hvalid, appRepo = RepoWrite.created k hvalid h.newUID req ∧ st' = st.putRepo appRepo := by
  have hok := request_ok hcreate
  split at hok
  · rename_i hvalid
    split at hok
    · simp at hok
    · obtain ⟨hres, hst⟩ := Prod.mk.inj hok
      have hrepo := Except.ok.inj hres
      subst hrepo
      exact ⟨hvalid, rfl, hst.symm⟩
  · simp at hok

theorem apprepos_putRepo {appRepo : AppRepository} {k : RepoKey} (hkey : appRepo.key = k) :
    (st.putRepo appRepo).apprepos = Function.update st.apprepos k (some appRepo) := by
  rw [← hkey]
  rfl

/-- An object that is read and written back. -/
theorem get_update_apprepos {k : RepoKey} {old new appRepo : AppRepository} {st₁ : KubeState}
    {f : AppRepository → AppRepository} (hget : (getAppRepositoryObject h k).exec st = (.ok old, st₁))
    (hupdate : (updateAppRepositoryObject h new).exec st₁ = (.ok appRepo, st')) (hnew : new = f old)
    (hkey : new.key = old.key) :
    st'.apprepos = (VersionedWrite.update k f).apply st.apprepos := by
  obtain ⟨hst₁, hold⟩ := getAppRepositoryObject_ok hget
  obtain ⟨_, hst'⟩ := updateAppRepositoryObject_ok hupdate
  rw [hst', hst₁, apprepos_putRepo (hkey.trans (st.repos_key k old hold)), VersionedWrite.apply, hold,
    hnew]
  rfl

/-- A call that succeeds, with nothing in between its requests, has made its write. -/
theorem run_apprepos {w : RepoWrite} {u : Unit} (hrun : (w.run h).exec st = (.ok u, st')) :
    st'.apprepos = (w.write h.kubeappsNamespace).apply st.apprepos := by
  cases w with
  | create req ns uid =>
      obtain ⟨appRepo, st₁, hcall, hret⟩ := Call.exec_bind_ok hrun
      obtain ⟨hrejected, hcall⟩ := not_rejected hcall
      obtain ⟨a, st₂, hcreate, hrest⟩ := Call.exec_bind_ok hcall
      obtain ⟨v, st₃, hrecord, hpure⟩ := Call.exec_bind_ok hrest
      obtain ⟨hvalid, ha, hst₂⟩ := createAppRepositoryObject_created hcreate
      rw [← (Prod.mk.inj hret).2, ← (Prod.mk.inj hpure).2, recordSecret_apprepos hrecord, hst₂,
        RepoWrite.write, if_neg hrejected, dif_pos hvalid, ha]
      rfl
  | update req ns =>
      obtain ⟨appRepo, st₁, hcall, hret⟩ := Call.exec_bind_ok hrun
      obtain ⟨hrejected, hcall⟩ := not_rejected hcall
      obtain ⟨old, st₂, hget, hrest⟩ := Call.exec_bind_ok hcall
      obtain ⟨a, st₃, hupdate, hrest⟩ := Call.exec_bind_ok hrest
      obtain ⟨v, st₄, hrecord, hpure⟩ := Call.exec_bind_ok hrest
      rw [← (Prod.mk.inj hret).2, ← (Prod.mk.inj hpure).2, recordSecret_apprepos hrecord,
        RepoWrite.write, if_neg hrejected]
      exact get_update_apprepos hget hupdate rfl rfl
  | refresh name ns =>
      obtain ⟨appRepo, st₁, hcall, hret⟩ := Call.exec_bind_ok hrun
      obtain ⟨old, st₂, hget, hupdate⟩ := Call.exec_bind_ok hcall
      rw [← (Prod.mk.inj hret).2]
      exact get_update_apprepos hget hupdate rfl rfl
  | delete name ns =>
      obtain ⟨appRepo, hold, hst'⟩ := deleteAppRepository_ok hrun
      rw [hst']
      split <;> rfl

end Alone

/-! ## The writes of one key -/

/-- A refresh of `k`. -/
def RepoWrite.Refreshes (k : RepoKey) : RepoWrite → Prop
  | .refresh name ns => (⟨ns, name⟩ : RepoKey) = k
  | _ => False

/-- A deletion of `k`. -/
def RepoWrite.Deletes (k : RepoKey) : RepoWrite → Prop
  | .delete name ns => (⟨ns, name⟩ : RepoKey) = k
  | _ => False

instance (k : RepoKey) (w : RepoWrite) : Decidable (w.Refreshes k) := by
  cases w <;> unfold RepoWrite.Refreshes <;> infer_instance

/-- How often `k` was refreshed. -/
def refreshes (k : RepoKey) (log : List RepoWrite) : Nat := log.countP fun w => w.Refreshes k

/-- The writes of `k` are refreshes, of the AppRepository as it is. -/
def OnlyRefreshed (k : RepoKey) (log : List RepoWrite) : Prop :=
  ∀ w ∈ log, w.key = k → w.Refreshes k

section Writes

variable {kns : String} {k : RepoKey} {w : RepoWrite} {log : List RepoWrite}
  {objects : RepoKey → Option AppRepository}

theorem replay_cons (w : RepoWrite) (log : List RepoWrite) :
    replay (RepoWrite.write kns) objects (w :: log) =
      replay (RepoWrite.write kns) ((w.write kns).apply objects) log := rfl

theorem apply_of_ne (h : w.key ≠ k) : (w.write kns).apply objects k = objects k := by
  have hne : k ≠ w.key := Ne.symm h
  cases w with
  | create req ns uid =>
      simp only [RepoWrite.write]
      split
      · rfl
      · split
        · exact Function.update_of_ne hne _ _
        · rfl
  | update req ns =>
      simp only [RepoWrite.write]
      split
      · rfl
      · exact Function.update_of_ne hne _ _
  | refresh name ns => exact Function.update_of_ne hne _ _
  | delete name ns => exact Function.update_of_ne hne _ _

theorem apply_refresh (h : w.Refreshes k) :
    (w.write kns).apply objects k = (objects k).map refreshed := by
  cases w with
  | refresh name ns =>
      subst h
      exact Function.update_self _ _ _
  | _ => exact False.elim h

theorem apply_delete (h : w.Deletes k) : (w.write kns).apply objects k = none := by
  cases w with
  | delete name ns =>
      subst h
      exact Function.update_self _ _ _
  | _ => exact False.elim h

/-- Each refresh counts once. -/
theorem replay_onlyRefreshed (h : OnlyRefreshed k log) :
    replay (RepoWrite.write kns) objects log k =
      (objects k).map refreshed^[refreshes k log] := by
  induction log generalizing objects with
  | nil => exact Option.map_id_apply.symm
  | cons w log ih =>
      have hrest : OnlyRefreshed k log := fun w' hw' => h w' (List.mem_cons_of_mem _ hw')
      rw [replay_cons, ih hrest]
      by_cases hw : w.Refreshes k
      · have hcount : refreshes k (w :: log) = refreshes k log + 1 :=
          List.countP_cons_of_pos (decide_eq_true hw)
        rw [apply_refresh hw, hcount, Option.map_map, Function.iterate_succ]
      · have hkey : w.key ≠ k := fun hkey => hw (h w List.mem_cons_self hkey)
        have hcount : refreshes k (w :: log) = refreshes k log :=
          List.countP_cons_of_neg (by simpa using hw)
        rw [apply_of_ne hkey, hcount]

/-- Where `k` is only refreshed and deleted, it is gone or was only refreshed. -/
theorem replay_none_or (h : ∀ w ∈ log, w.key = k → w.Refreshes k ∨ w.Deletes k) :
    replay (RepoWrite.write kns) objects log k = none ∨ OnlyRefreshed k log := by
  induction log generalizing objects with
  | nil => exact .inr fun w hw => absurd hw List.not_mem_nil
  | cons w log ih =>
      have hrest : ∀ w ∈ log, w.key = k → w.Refreshes k ∨ w.Deletes k :=
        fun w' hw' => h w' (List.mem_cons_of_mem _ hw')
      rw [replay_cons]
      rcases ih hrest with hnone | honly
      · exact .inl hnone
      · by_cases hdelete : w.Deletes k
        · refine .inl ?_
          rw [replay_onlyRefreshed honly, apply_delete hdelete]
          rfl
        · refine .inr fun w' hw' hkey => ?_
          rcases List.mem_cons.mp hw' with rfl | hw'
          · exact (h w' List.mem_cons_self hkey).resolve_right hdelete
          · exact honly w' hw' hkey

theorem iterate_refreshed (n : Nat) (appRepo : AppRepository) :
    (refreshed^[n] appRepo).key = appRepo.key ∧
      (refreshed^[n] appRepo).spec.url = appRepo.spec.url ∧
      (refreshed^[n] appRepo).spec.resyncRequests ≡ appRepo.spec.resyncRequests + n
        [MOD 2 ^ 64] := by
  induction n generalizing appRepo with
  | zero => exact ⟨rfl, rfl, rfl⟩
  | succ n ih =>
      obtain ⟨hkey, hurl, hresync⟩ := ih (refreshed appRepo)
      rw [Function.iterate_succ, Function.comp_apply]
      refine ⟨hkey, hurl, hresync.trans ?_⟩
      have hone : (refreshed appRepo).spec.resyncRequests ≡ appRepo.spec.resyncRequests + 1
          [MOD 2 ^ 64] := Nat.mod_modEq _ _
      have hn := hone.add_right n
      rwa [Nat.add_assoc, Nat.add_comm 1 n] at hn

end Writes

/-! ## Calls at once -/

section Concurrent

variable {kns : String} {s₀ s₁ s₂ : RepoServer} {ls ls₁ ls₂ : List (VersionedLabel RepoWrite)}
  {k : RepoKey} {mid : List RepoWrite}

/-- A later part of a run does what its own writes do. -/
theorem view_later (h₀ : s₀.Fresh)
    (hr₁ : runs (VersionedStore.step (RepoWrite.write kns)) s₀ ls₁ = some s₁)
    (hr₂ : runs (VersionedStore.step (RepoWrite.write kns)) s₁ ls₂ = some s₂)
    (hmid : s₂.log = s₁.log ++ mid) : s₂.view = replay (RepoWrite.write kns) s₁.view mid := by
  have h₁ := (VersionedStore.linearizable h₀ hr₁).1
  have hr : runs (VersionedStore.step (RepoWrite.write kns)) s₀ (ls₁ ++ ls₂) = some s₂ :=
    runs_append_eq_some.mpr ⟨s₁, hr₁, hr₂⟩
  rw [(VersionedStore.linearizable h₀ hr).1, h₁, hmid]
  exact List.foldl_append

/-- **The AppRepositories are linearizable.** In every interleaving of any number of calls, whatever
    the server refuses, a part of a run changes the AppRepositories as its writes do one after the
    other, and these are the writes of the calls that are done with theirs in it, each once. So an
    AppRepository that is only refreshed has as many resync requests more as refreshes are done. -/
theorem refreshes_counted (h₀ : s₀.Fresh)
    (hr₁ : runs (VersionedStore.step (RepoWrite.write kns)) s₀ ls₁ = some s₁)
    (hr₂ : runs (VersionedStore.step (RepoWrite.write kns)) s₁ ls₂ = some s₂)
    (hmid : s₂.log = s₁.log ++ mid) :
    s₂.view = replay (RepoWrite.write kns) s₁.view mid ∧
      (s₂.calls.filterMap WriteStage.written?).Perm
        (s₁.calls.filterMap WriteStage.written? ++ mid) ∧
      ∀ k, OnlyRefreshed k mid → s₂.view k = (s₁.view k).map refreshed^[refreshes k mid] := by
  have hview := view_later h₀ hr₁ hr₂ hmid
  have hr : runs (VersionedStore.step (RepoWrite.write kns)) s₀ (ls₁ ++ ls₂) = some s₂ :=
    runs_append_eq_some.mpr ⟨s₁, hr₁, hr₂⟩
  refine ⟨hview, ?_, fun k honly => ?_⟩
  · have h₁ := (VersionedStore.linearizable h₀ hr₁).2
    have h₂ := (VersionedStore.linearizable h₀ hr).2
    rw [hmid] at h₂
    exact h₂.symm.trans (h₁.append_right mid)
  · rw [hview]
    exact replay_onlyRefreshed honly

/-- `bitnami` in the namespace `team`, and no call. -/
def bitnamiServer : RepoServer where
  objects := Function.update (fun _ => none) ⟨"team", "bitnami"⟩
    (some ⟨0, bitnamiCreated (bitnamiRequest "" "" "")⟩)
  next := 1
  calls := []
  log := []

theorem fresh_bitnamiServer : bitnamiServer.Fresh where
  versions := by
    intro k v h
    by_cases hk : k = ⟨"team", "bitnami"⟩
    · subst hk
      simp only [bitnamiServer, Function.update_self] at h
      cases h
      decide
    · simp [bitnamiServer, Function.update_of_ne hk] at h
  calls := rfl
  log := rfl

/-- Two refreshes read the same version: the second one to write fails. -/
theorem refreshes_counted_conflict :
    ∃ s, runs (VersionedStore.step (RepoWrite.write "kubeapps")) bitnamiServer
        [.call (.refresh "bitnami" "team"), .call (.refresh "bitnami" "team"), .request 0,
          .request 1, .request 1, .request 0] = some s ∧
      s.view ⟨"team", "bitnami"⟩ = some (refreshed (bitnamiCreated (bitnamiRequest "" "" ""))) := by
  obtain ⟨s, hr, hlog⟩ : ∃ s, runs (VersionedStore.step (RepoWrite.write "kubeapps"))
      bitnamiServer [.call (.refresh "bitnami" "team"), .call (.refresh "bitnami" "team"),
        .request 0, .request 1, .request 1, .request 0] = some s ∧
      s.log = bitnamiServer.log ++ [.refresh "bitnami" "team"] := ⟨_, rfl, rfl⟩
  have hstart : runs (VersionedStore.step (RepoWrite.write "kubeapps")) bitnamiServer [] =
      some bitnamiServer := rfl
  obtain ⟨_, _, hcounted⟩ := refreshes_counted fresh_bitnamiServer hstart hr hlog
  refine ⟨s, hr, (hcounted ⟨"team", "bitnami"⟩ ?_).trans rfl⟩
  intro w hw _
  rw [List.mem_singleton.mp hw]
  rfl

/-- What an informer that has seen `old` delivers when it sees `new`. -/
def informerLabel (k : RepoKey) : Option AppRepository → Option AppRepository → Option Label
  | none, none => none
  | none, some new => some (.added new)
  | some _, some new => some (.updated new)
  | some _, none => some (.deleted k)

/-- **A refresh is noticed.** The informer has seen the AppRepository as it is in `s₁` and sees it
    next as it is in `s₂`, whatever it misses in between. If the AppRepository was refreshed then and
    neither created nor updated, the controller has its key to process, unless the counter is back
    where it was. -/
theorem refresh_noticed {config : Config} {c c' : ControllerState} {old : AppRepository} {l : Label}
    (h₀ : s₀.Fresh) (hr₁ : runs (VersionedStore.step (RepoWrite.write kns)) s₀ ls₁ = some s₁)
    (hr₂ : runs (VersionedStore.step (RepoWrite.write kns)) s₁ ls₂ = some s₂)
    (hmid : s₂.log = s₁.log ++ mid) (hold : s₁.view k = some old) (hkey : old.key = k)
    (hseen : c.cluster.apprepos k = some old)
    (hl : informerLabel k (s₁.view k) (s₂.view k) = some l) (hstep : c.step config l = some c')
    (hwrites : ∀ w ∈ mid, w.key = k → w.Refreshes k ∨ w.Deletes k)
    (hrefreshed : ¬ 2 ^ 64 ∣ refreshes k mid) : c'.queue.Pending (metaNamespaceKey k) := by
  have hview : s₂.view k = replay (RepoWrite.write kns) s₁.view mid k :=
    congrFun (view_later h₀ hr₁ hr₂ hmid) k
  rw [hold] at hl
  rcases replay_none_or hwrites with hnone | honly
  · rw [hview, hnone] at hl
    obtain rfl := Option.some.inj hl
    simp only [ControllerState.step, hseen] at hstep
    obtain rfl := Option.some.inj hstep
    exact Workqueue.pending_addRateLimited.mpr (.inl rfl)
  · rw [hview, replay_onlyRefreshed honly, hold] at hl
    obtain rfl := Option.some.inj hl
    obtain ⟨hkey', _, hresync⟩ := iterate_refreshed (refreshes k mid) old
    simp only [ControllerState.step, hkey', hkey, hseen] at hstep
    obtain rfl := Option.some.inj hstep
    rcases onUpdate_cases c.queue old (refreshed^[refreshes k mid] old) with heq | ⟨_, _, hsame⟩
    · rw [heq]
      exact (pending_enqueueAppRepo _).mpr (.inl (by rw [hkey', hkey]))
    · rw [← hsame] at hresync
      exact absurd ((Nat.modEq_zero_iff_dvd).mp (Nat.ModEq.add_left_cancel' _ hresync).symm) hrefreshed

/-- A refresh of the AppRepository that the informer has seen. -/
theorem refresh_noticed_bitnami :
    let apprepo := bitnamiCreated (bitnamiRequest "" "" "")
    let c : ControllerState := { ControllerState.start (fun _ => none) with
      cluster := ⟨Function.update (fun _ => none) ⟨"team", "bitnami"⟩ (some apprepo), fun _ => none,
        fun _ => none, []⟩ }
    ∃ c', c.step defaultConfig (.updated (refreshed apprepo)) = some c' ∧
      c'.queue.Pending "team/bitnami" := by
  intro apprepo c
  obtain ⟨s, hr, hlog, hview⟩ : ∃ s, runs (VersionedStore.step (RepoWrite.write "kubeapps"))
      bitnamiServer [.call (.refresh "bitnami" "team"), .request 0, .request 0] = some s ∧
      s.log = bitnamiServer.log ++ [.refresh "bitnami" "team"] ∧
      s.view ⟨"team", "bitnami"⟩ = some (refreshed apprepo) := ⟨_, rfl, rfl, rfl⟩
  have hstart : runs (VersionedStore.step (RepoWrite.write "kubeapps")) bitnamiServer [] =
      some bitnamiServer := rfl
  obtain ⟨c', hstep⟩ : ∃ c', c.step defaultConfig (.updated (refreshed apprepo)) = some c' :=
    ⟨_, rfl⟩
  have hl : informerLabel ⟨"team", "bitnami"⟩ (bitnamiServer.view ⟨"team", "bitnami"⟩)
      (s.view ⟨"team", "bitnami"⟩) = some (.updated (refreshed apprepo)) := by
    rw [hview]
    rfl
  have hold : bitnamiServer.view ⟨"team", "bitnami"⟩ = some apprepo := rfl
  have hseen : c.cluster.apprepos ⟨"team", "bitnami"⟩ = some apprepo := rfl
  refine ⟨c', hstep, refresh_noticed fresh_bitnamiServer hstart hr hlog hold rfl hseen hl hstep ?_
    (by decide)⟩
  intro w hw _
  rw [List.mem_singleton.mp hw]
  exact .inl rfl

/-- An update that comes after a refresh hides it, if it has the URL and the counter that the
    informer has seen: the controller does nothing. -/
theorem refresh_hidden {config : Config} {c c' : ControllerState} {old new : AppRepository}
    {req : AppRepositoryRequest} (h₀ : s₀.Fresh)
    (hr₁ : runs (VersionedStore.step (RepoWrite.write kns)) s₀ ls₁ = some s₁)
    (hr₂ : runs (VersionedStore.step (RepoWrite.write kns)) s₁ ls₂ = some s₂)
    (hmid : s₂.log = s₁.log ++ (mid ++ [.update req k.ns])) (hname : req.name = k.name)
    (haccepted : ¬ RepoWrite.Rejected kns req k.ns) (hnew : s₂.view k = some new)
    (hkey : new.key = k) (hseen : c.cluster.apprepos k = some old)
    (hurl : req.repoURL = old.spec.url) (hresync : req.resyncRequests = old.spec.resyncRequests)
    (hstep : c.step config (.updated new) = some c') : c'.queue = c.queue := by
  have hview := congrFun (view_later h₀ hr₁ hr₂ hmid) k
  have hk : (⟨k.ns, req.name⟩ : RepoKey) = k := by rw [hname]
  have happly : replay (RepoWrite.write kns) s₁.view (mid ++ [.update req k.ns]) k =
      (replay (RepoWrite.write kns) s₁.view mid k).map (RepoWrite.updated req) := by
    simp [replay, RepoWrite.write, haccepted, VersionedWrite.apply, hk]
  rw [hnew, happly] at hview
  obtain ⟨existing, _, hexisting⟩ := Option.map_eq_some_iff.mp hview.symm
  simp only [ControllerState.step, hkey, hseen] at hstep
  obtain rfl := Option.some.inj hstep
  have hsame : ¬ (old.spec.url ≠ new.spec.url ∨
      old.spec.resyncRequests ≠ new.spec.resyncRequests) := by
    rw [← hexisting, not_or, not_not, not_not]
    exact ⟨hurl.symm, hresync.symm⟩
  exact if_neg hsame

end Concurrent

end Kubeapps.Kube
