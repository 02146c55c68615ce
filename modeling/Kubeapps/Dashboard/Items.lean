/-
  When `kubeReducer` throws.

  The only property that the reducer reads of an entry without a check is `item`, in
  `receiveResourceFromList`. The handler of a list's socket dispatches it for every message, and a
  change of the location empties the items while the socket stays open. `never_throws_iff`: the runs
  that never throw are those in which each message for a list finds an entry.
-/
import Kubeapps.Dashboard.Sockets

namespace Kubeapps.Dashboard

open Kubeapps.Lib

variable {α : Type} {base : String} {page page' : Page α}

/-- The entry that the action reads is there. -/
def KubeAction.Finds (kube : KubeState α) : KubeAction α → Prop
  | receiveResourceFromList key _ => (kube.items key).isSome = true
  | _ => True

/-- A message for a list finds the entry of the list. -/
def PageEvent.Finds (page : Page α) : PageEvent α → Prop
  | message socket (some _) => ∀ s ref, page.window.webSockets socket = some s →
      s.message = some ref → truthy ref.name = none →
        (page.kube.items ref.getResourceURL).isSome = true
  | dispatch a => a.Finds page.kube
  | _ => True

/-- The reducer returns a state exactly if the action finds its entry. -/
theorem kubeReducer_ok_iff (base : String) (kube : KubeState α) (window : Window) (a : KubeAction α) :
    (∃ state, kubeReducer base kube window a = .ok state) ↔ a.Finds kube := by
  unfold kubeReducer
  cases a with
  | receiveResourceFromList key newItem =>
      unfold KubeAction.Finds
      dsimp only
      cases kube.items key with
      | none => exact ⟨fun ⟨_, h⟩ => (nomatch h), fun h => Bool.noConfusion h⟩
      | some item => exact ⟨fun _ => rfl, fun _ => ⟨_, rfl⟩⟩
  | openWatchResource ref handler onError =>
      dsimp only
      cases kube.sockets (ref.watchResourceURL base) with
      | none => exact ⟨fun _ => trivial, fun _ => ⟨_, rfl⟩⟩
      | some handle => exact ⟨fun _ => trivial, fun _ => ⟨_, rfl⟩⟩
  | addTimer id timer =>
      dsimp only
      cases kube.timers id with
      | none => exact ⟨fun _ => trivial, fun _ => ⟨_, rfl⟩⟩
      | some interval => exact ⟨fun _ => trivial, fun _ => ⟨_, rfl⟩⟩
  | removeTimer id =>
      dsimp only
      cases kube.timers id with
      | none => exact ⟨fun _ => trivial, fun _ => ⟨_, rfl⟩⟩
      | some interval => exact ⟨fun _ => trivial, fun _ => ⟨_, rfl⟩⟩
  | closeWatchResource ref => exact ⟨fun _ => trivial, fun _ => ⟨_, rfl⟩⟩
  | requestResource key => exact ⟨fun _ => trivial, fun _ => ⟨_, rfl⟩⟩
  | receiveResource key resource => exact ⟨fun _ => trivial, fun _ => ⟨_, rfl⟩⟩
  | receiveResourceError key error => exact ⟨fun _ => trivial, fun _ => ⟨_, rfl⟩⟩
  | locationChange => exact ⟨fun _ => trivial, fun _ => ⟨_, rfl⟩⟩
  | other => exact ⟨fun _ => trivial, fun _ => ⟨_, rfl⟩⟩

theorem dispatch_thrown_iff (a : KubeAction α) :
    (page.dispatch base a).thrown = false ↔ page.thrown = false ∧ a.Finds page.kube := by
  rw [← kubeReducer_ok_iff base page.kube page.window a]
  unfold Page.dispatch
  cases kubeReducer base page.kube page.window a with
  | ok state => exact ⟨fun h => ⟨h, state, rfl⟩, fun h => h.1⟩
  | error thrown => exact ⟨fun h => Bool.noConfusion h, fun ⟨_, _, h⟩ => nomatch h⟩

theorem dispatch_thrown (a : KubeAction α) (hfinds : a.Finds page.kube) :
    (page.dispatch base a).thrown = false ↔ page.thrown = false := by
  rw [dispatch_thrown_iff]
  exact and_iff_left hfinds

theorem getResource_thrown (ref : ResourceRef) (polling : Bool) :
    (page.getResource base ref polling).thrown = false ↔ page.thrown = false := by
  unfold Page.getResource
  dsimp only
  split
  · exact Iff.rfl
  · split
    · exact Iff.rfl
    · exact @dispatch_thrown α base page (.requestResource ref.getResourceURL) trivial

theorem handler_thrown (ref : ResourceRef) (data : Option (WatchMessage α)) :
    (page.handler base ref data).thrown = false ↔
      page.thrown = false ∧ (data.isSome = true → truthy ref.name = none →
        (page.kube.items ref.getResourceURL).isSome = true) := by
  unfold Page.handler
  rw [dispatch_removeTimer]
  cases data with
  | none => exact ⟨fun h => ⟨h, fun hnone => Bool.noConfusion hnone⟩, fun h => h.1⟩
  | some msg =>
      dsimp only
      split
      · rename_i hname
        rw [dispatch_thrown_iff]
        exact and_congr_right fun _ => ⟨fun h _ _ => h, fun h => h rfl hname⟩
      · rename_i name hname
        rw [dispatch_thrown_iff]
        refine and_congr_right fun _ => ⟨fun _ _ hnone => ?_, fun _ => trivial⟩
        rw [hname] at hnone
        exact nomatch hnone

/-- An event throws exactly if it is a message, or an action, that does not find its entry. -/
theorem step_thrown_iff {e : PageEvent α} (h : page.step base e = some page') :
    page'.thrown = false ↔ page.thrown = false ∧ e.Finds page := by
  cases e with
  | getResource ref =>
      rw [← Option.some.inj h, getResource_thrown]
      exact (and_iff_left trivial).symm
  | getAndWatchResource ref =>
      rw [← Option.some.inj h]
      unfold Page.getAndWatchResource
      rw [dispatch_thrown (.openWatchResource ref ref ref) trivial, getResource_thrown]
      exact (and_iff_left trivial).symm
  | closeWatchResource ref =>
      rw [← Option.some.inj h, dispatch_thrown (.closeWatchResource ref) trivial]
      exact (and_iff_left trivial).symm
  | message socket data =>
      obtain ⟨s, hs, h⟩ := Option.bind_eq_some_iff.mp h
      split at h
      · rename_i ref href
        rw [← Option.some.inj h, handler_thrown]
        refine and_congr_right fun _ => ?_
        cases data with
        | none => exact ⟨fun _ => trivial, fun _ hnone => Bool.noConfusion hnone⟩
        | some msg =>
            constructor
            · intro hfinds s' ref' hs' href' hname
              rw [hs] at hs'
              rw [← Option.some.inj hs', href] at href'
              rw [← Option.some.inj href'] at hname ⊢
              exact hfinds rfl hname
            · exact fun hfinds _ hname => hfinds s ref hs href hname
      · rename_i hnone
        rw [← Option.some.inj h]
        refine (and_iff_left ?_).symm
        cases data with
        | none => trivial
        | some msg =>
            intro s' ref' hs' href'
            rw [hs] at hs'
            rw [← Option.some.inj hs', hnone] at href'
            exact nomatch href'
  | error socket =>
      obtain ⟨s, _, h⟩ := Option.bind_eq_some_iff.mp h
      split at h
      · rename_i ref _
        rw [← Option.some.inj h]
        unfold Page.onError
        rw [dispatch_thrown (.addTimer ref.getResourceURL ref) trivial]
        exact (and_iff_left trivial).symm
      · rw [← Option.some.inj h]
        exact (and_iff_left trivial).symm
  | tick interval =>
      obtain ⟨ref, _, h⟩ := Option.bind_eq_some_iff.mp h
      rw [← Option.some.inj h, getResource_thrown]
      exact (and_iff_left trivial).symm
  | respond request result =>
      obtain ⟨ref, _, h⟩ := Option.bind_eq_some_iff.mp h
      rw [← Option.some.inj h]
      unfold Page.respond
      cases result with
      | ok r =>
          dsimp only
          rw [dispatch_thrown (.receiveResource ref.getResourceURL r) trivial]
          exact (and_iff_left trivial).symm
      | error e =>
          dsimp only
          rw [dispatch_thrown (.receiveResourceError ref.getResourceURL e) trivial]
          exact (and_iff_left trivial).symm
  | dispatch a =>
      unfold Page.step at h
      dsimp only at h
      split at h
      · rw [← Option.some.inj h]
        exact dispatch_thrown_iff a
      · exact nomatch h

/-- A run never throws exactly if each message for a list finds the entry of the list. -/
theorem never_throws_iff (events : List (PageEvent α)) (page : Page α)
    (hrun : runs (Page.step base) .init events = some page) :
    Always (Page.step base) (fun page => page.thrown = false) .init events ↔
      StepsMeet (Page.step base) (fun page e => e.Finds page) .init events := by
  refine always_iff_stepsMeet (fun _ h => h) ?_ ?_ hrun rfl
  · intro page e page' hthrown hfinds hstep
    exact (step_thrown_iff hstep).mpr ⟨hthrown, hfinds⟩
  · intro page e page' _ hmiss hstep hthrown
    exact hmiss ((step_thrown_iff hstep).mp hthrown).2

/-- The pods of the namespace are watched and received; after a change of the location the socket,
    still open, has a message. -/
def navigated : List (PageEvent Unit) :=
  [.getAndWatchResource podsRef, .respond 0 (.ok ⟨none, some []⟩), .dispatch .locationChange,
    .message 0 (some ⟨.modified, ⟨some "web-1", some "team", none, ()⟩⟩)]

theorem navigated_throws :
    ((runs (Page.step "ws://localhost/") .init navigated).map fun page =>
      (page.thrown, (page.window.webSockets 0).map WebSocket.closed)) = some (true, some false) ∧
    ¬ Always (Page.step "ws://localhost/") (fun page => page.thrown = false) .init navigated := by
  have hthrown : ((runs (Page.step "ws://localhost/") .init navigated).map fun page =>
      (page.thrown, (page.window.webSockets 0).map WebSocket.closed)) =
        some (true, some false) := by decide
  refine ⟨hthrown, fun hall => ?_⟩
  obtain ⟨page, hrun, hpage⟩ := Option.map_eq_some_iff.mp hthrown
  have hnever : page.thrown = false := hall navigated page List.prefix_rfl hrun
  rw [hnever] at hpage
  exact Bool.noConfusion (Prod.mk.inj hpage).1

/-- Without the change of the location the message finds the list. -/
theorem never_throws_watched :
    Always (Page.step "ws://localhost/") (fun page => page.thrown = false) .init
      (navigated.eraseIdx 2) := by
  have hsome : (runs (Page.step "ws://localhost/") .init (navigated.eraseIdx 2)).isSome = true := by
    decide
  obtain ⟨page, hrun⟩ := Option.isSome_iff_exists.mp hsome
  rw [never_throws_iff _ page hrun]
  refine ⟨trivial, fun _ h => Option.some.inj h ▸ ⟨trivial, fun _ h => ?_⟩⟩
  rw [← Option.some.inj h]
  refine ⟨?_, fun _ _ => trivial⟩
  intro s ref hs href _
  have hs' : s = ⟨podsRef.watchResourceURL "ws://localhost/", some podsRef, some podsRef, false⟩ :=
    (Option.some.inj hs).symm
  rw [hs'] at href
  rw [← Option.some.inj href]
  decide

end Kubeapps.Dashboard
