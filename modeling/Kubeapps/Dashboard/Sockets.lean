/-
  The web sockets and the intervals of a page.

  The reducer keeps a handle of what it opens. `Page.Tied` says that the handles are exactly what is
  open or running, each under the key of its ref; it is kept by every event, as long as the refs that
  are watched can be told apart by their URLs. The error listener of a socket is the only thing that
  starts an interval, and it is there only while the socket is: hence nothing comes back for a ref
  that was closed (`Page.Gone`), whatever is delivered afterwards.

  `sockets_and_timers` says both of every run.
-/
import Kubeapps.Dashboard.Kube
import Kubeapps.Lib.Handles
import Mathlib.Data.Set.Function

namespace Kubeapps.Dashboard

open Kubeapps.Lib

variable {α : Type} {base : String} {refs : Set ResourceRef} {page page' : Page α}

/-- The web socket is open. -/
def Window.IsOpen (window : Window) (socket : Nat) : Prop :=
  ∃ s, window.webSockets socket = some s ∧ s.closed = false

/-- The open sockets and the running intervals are those of the state, each under its URL. -/
structure Page.Tracked (page : Page α) : Prop where
  sockets : ∀ socket, page.window.IsOpen socket ↔
    ∃ key onError, page.kube.sockets key = some (socket, onError)
  socketURL : ∀ key socket onError, page.kube.sockets key = some (socket, onError) →
    ∃ s, page.window.webSockets socket = some s ∧ s.url = key
  timers : ∀ interval, (page.window.intervals interval).isSome = true ↔
    ∃ key, page.kube.timers key = some interval
  timerURL : ∀ key interval, page.kube.timers key = some interval →
    ∃ ref, page.window.intervals interval = some ref ∧ ref.getResourceURL = key

/-- There is neither an open socket nor a running interval for the ref. -/
def Page.Released (base : String) (page : Page α) (ref : ResourceRef) : Prop :=
  (∀ socket s, page.window.webSockets socket = some s → s.url = ref.watchResourceURL base →
    s.closed = true) ∧
  ∀ interval timer, page.window.intervals interval = some timer →
    timer.getResourceURL ≠ ref.getResourceURL

/-- The refs that an event opens or closes. -/
def PageEvent.watched : PageEvent α → Option ResourceRef
  | getAndWatchResource ref => some ref
  | closeWatchResource ref => some ref
  | _ => none

/-! ## The invariant -/

/-- The sockets that are open. -/
def Window.openSockets (window : Window) : Nat → Option WebSocket :=
  Option.filter (fun s => !s.closed) ∘ window.webSockets

/-- The handles of the sockets. -/
def KubeState.socketHandles (kube : KubeState α) : String → Option Nat :=
  Option.map Prod.fst ∘ kube.sockets

/-- The handles of the sockets are those of the open sockets, and only these have an error
    listener. -/
structure Page.SocketsTied (base : String) (refs : Set ResourceRef) (page : Page α) : Prop where
  next : ∀ socket s, page.window.webSockets socket = some s → socket < page.window.nextSocket
  linked : Linked WebSocket.url page.kube.socketHandles page.window.openSockets
  registered : ∀ key handle, page.kube.sockets key = some handle →
    ∀ s, page.window.webSockets handle.1 = some s → s.error = some handle.2
  listening : ∀ socket s, page.window.webSockets socket = some s → ∀ ref, s.error = some ref →
    ref ∈ refs ∧ s.closed = false ∧ s.url = ref.watchResourceURL base

/-- The timers are the running intervals. -/
structure Page.TimersTied (page : Page α) : Prop where
  next : ∀ interval ref, page.window.intervals interval = some ref →
    interval < page.window.nextInterval
  linked : Linked ResourceRef.getResourceURL page.kube.timers page.window.intervals

/-- The handles of the state are what is open and what is running. -/
structure Page.Tied (base : String) (refs : Set ResourceRef) (page : Page α) : Prop where
  sockets : page.SocketsTied base refs
  timers : page.TimersTied

/-- The state has neither a socket nor a timer for the ref. -/
def Page.Gone (base : String) (ref : ResourceRef) (page : Page α) : Prop :=
  page.kube.sockets (ref.watchResourceURL base) = none ∧
    page.kube.timers ref.getResourceURL = none

/-- The two pages have the same sockets and timers. -/
structure Page.SameHandles (page page' : Page α) : Prop where
  sockets : page'.kube.sockets = page.kube.sockets
  timers : page'.kube.timers = page.kube.timers
  window : page'.window = page.window

theorem sameHandles_refl : page.SameHandles page := ⟨rfl, rfl, rfl⟩

theorem tied_congr (h : page.Tied base refs) (hsame : page.SameHandles page') :
    page'.Tied base refs := by
  obtain ⟨hsockets, htimers, hwindow⟩ := hsame
  obtain ⟨⟨hnext, hlinked, hregistered, hlistening⟩, ⟨hnext', hlinked'⟩⟩ := h
  refine ⟨⟨?_, ?_, ?_, ?_⟩, ⟨?_, ?_⟩⟩ <;> rw [hwindow]
  · exact hnext
  · unfold KubeState.socketHandles
    rw [hsockets]
    exact hlinked
  · rw [hsockets]
    exact hregistered
  · exact hlistening
  · exact hnext'
  · rw [htimers]
    exact hlinked'

theorem gone_congr {ref : ResourceRef} (h : page.Gone base ref) (hsame : page.SameHandles page') :
    page'.Gone base ref := by
  obtain ⟨hsockets, htimers, _⟩ := hsame
  unfold Page.Gone
  rw [hsockets, htimers]
  exact h

theorem tied_init : (Page.init : Page α).Tied base refs := by
  refine ⟨⟨?_, linked_empty, ?_, ?_⟩, ⟨?_, linked_empty⟩⟩
  · exact fun _ _ h => nomatch h
  · exact fun _ _ h => nomatch h
  · exact fun _ _ h => nomatch h
  · exact fun _ _ h => nomatch h

theorem openSockets_eq_some {window : Window} {socket : Nat} {s : WebSocket} :
    window.openSockets socket = some s ↔ window.webSockets socket = some s ∧ s.closed = false := by
  unfold Window.openSockets
  rw [Function.comp_apply, Option.filter_eq_some_iff, Bool.not_eq_true']

theorem socketHandles_eq_some {kube : KubeState α} {key : String} {socket : Nat} :
    kube.socketHandles key = some socket ↔ ∃ onError, kube.sockets key = some (socket, onError) := by
  unfold KubeState.socketHandles
  rw [Function.comp_apply, Option.map_eq_some_iff]
  constructor
  · intro ⟨handle, hhandle, heq⟩
    exact ⟨handle.2, heq ▸ hhandle⟩
  · intro ⟨onError, hhandle⟩
    exact ⟨_, hhandle, rfl⟩

theorem tracked_of_tied (h : page.Tied base refs) : page.Tracked := by
  obtain ⟨hsockets, htimers⟩ := h
  refine ⟨?_, ?_, linked_isSome htimers.linked, ?_⟩
  · intro socket
    have hopen : page.window.IsOpen socket ↔ (page.window.openSockets socket).isSome = true := by
      rw [Option.isSome_iff_exists]
      exact exists_congr fun s => openSockets_eq_some.symm
    rw [hopen, linked_isSome hsockets.linked]
    exact exists_congr fun key => socketHandles_eq_some
  · intro key socket onError hhandle
    obtain ⟨s, hs, hurl⟩ :=
      linked_object hsockets.linked (socketHandles_eq_some.2 ⟨onError, hhandle⟩)
    exact ⟨s, (openSockets_eq_some.1 hs).1, hurl⟩
  · intro key interval htimer
    exact linked_object htimers.linked htimer

theorem released_of_gone {ref : ResourceRef} (h : page.Tied base refs) (hgone : page.Gone base ref) :
    page.Released base ref := by
  constructor
  · intro socket s hs hurl
    by_contra hopen
    have hsome : page.window.openSockets socket = some s :=
      openSockets_eq_some.2 ⟨hs, Bool.eq_false_of_not_eq_true hopen⟩
    refine linked_ne h.sockets.linked ?_ hsome hurl
    exact congrArg (Option.map Prod.fst) hgone.1
  · intro interval timer htimer
    exact linked_ne h.timers.linked hgone.2 htimer

/-! ## What an action does to the handles -/

/-- The interval of a key is gone, and its timer. -/
def Page.stopTimer (page : Page α) (id : String) : Page α :=
  { page with
    kube := { page.kube with timers := Function.update page.kube.timers id none }
    window := { page.window with
      intervals :=
        match page.kube.timers id with
        | some timer => Function.update page.window.intervals timer none
        | none => page.window.intervals } }

/-- The socket of a key is closed, and its handle is gone. -/
def Page.closeSocket (page : Page α) (key : String) : Page α :=
  { page with
    kube := { page.kube with sockets := Function.update page.kube.sockets key none }
    window := { page.window with
      webSockets :=
        match page.kube.sockets key with
        | some (socket, onError) => (page.window.close socket onError).webSockets
        | none => page.window.webSockets } }

/-- A socket is opened for the ref. -/
def Page.openSocket (base : String) (page : Page α) (ref : ResourceRef) : Page α :=
  { page with
    kube := { page.kube with
      sockets := Function.update page.kube.sockets (ref.watchResourceURL base)
        (some (page.window.nextSocket, ref)) }
    window := page.window.watch (ref.watchResourceURL base) ref ref }

/-- An interval is started for the ref. -/
def Page.startTimer (page : Page α) (ref : ResourceRef) : Page α :=
  { page with
    kube := { page.kube with
      timers := Function.update page.kube.timers ref.getResourceURL
        (some page.window.nextInterval) }
    window := page.window.setInterval ref }

/-- An action on the items leaves the handles alone. -/
theorem dispatch_items {a : KubeAction α} (hother : a.IsOther = true)
    (htimer : ∀ id, a ≠ .removeTimer id) : page.SameHandles (page.dispatch base a) := by
  unfold Page.dispatch
  cases a with
  | receiveResourceFromList key newItem =>
      unfold kubeReducer
      dsimp only
      cases page.kube.items key with
      | none => exact ⟨rfl, rfl, rfl⟩
      | some item => exact ⟨rfl, rfl, rfl⟩
  | openWatchResource ref handler onError => exact Bool.noConfusion hother
  | closeWatchResource ref => exact Bool.noConfusion hother
  | addTimer id timer => exact Bool.noConfusion hother
  | removeTimer id => exact absurd rfl (htimer id)
  | requestResource key => exact ⟨rfl, rfl, rfl⟩
  | receiveResource key resource => exact ⟨rfl, rfl, rfl⟩
  | receiveResourceError key error => exact ⟨rfl, rfl, rfl⟩
  | locationChange => exact ⟨rfl, rfl, rfl⟩
  | other => exact ⟨rfl, rfl, rfl⟩

theorem getResource_same (ref : ResourceRef) (polling : Bool) :
    page.SameHandles (page.getResource base ref polling) := by
  unfold Page.getResource
  dsimp only
  split
  · exact sameHandles_refl
  · split
    · exact ⟨rfl, rfl, rfl⟩
    · have hsame : page.SameHandles (page.dispatch base (.requestResource ref.getResourceURL)) :=
        dispatch_items rfl (fun _ h => nomatch h)
      exact ⟨hsame.sockets, hsame.timers, hsame.window⟩

theorem respond_same (base : String) (page : Page α) (ref : ResourceRef) (result : Except String (Item α)) :
    page.SameHandles (page.respond base ref result) := by
  unfold Page.respond
  cases result with
  | ok r => exact dispatch_items rfl (fun _ h => nomatch h)
  | error e => exact dispatch_items rfl (fun _ h => nomatch h)

theorem dispatch_openWatchResource (base : String) (page : Page α) (ref : ResourceRef) :
    page.dispatch base (.openWatchResource ref ref ref) = page ∨
    page.kube.sockets (ref.watchResourceURL base) = none ∧
      page.dispatch base (.openWatchResource ref ref ref) = page.openSocket base ref := by
  unfold Page.dispatch kubeReducer Page.openSocket
  dsimp only
  cases hsocket : page.kube.sockets (ref.watchResourceURL base) with
  | none => exact Or.inr ⟨rfl, rfl⟩
  | some handle => exact Or.inl rfl

theorem dispatch_addTimer (base : String) (page : Page α) (ref : ResourceRef) :
    page.dispatch base (.addTimer ref.getResourceURL ref) = page ∨
    page.kube.timers ref.getResourceURL = none ∧
      page.dispatch base (.addTimer ref.getResourceURL ref) = page.startTimer ref := by
  unfold Page.dispatch kubeReducer Page.startTimer
  dsimp only
  cases htimer : page.kube.timers ref.getResourceURL with
  | none => exact Or.inr ⟨rfl, rfl⟩
  | some timer => exact Or.inl rfl

theorem dispatch_removeTimer (id : String) :
    page.dispatch base (.removeTimer id) = page.stopTimer id := by
  unfold Page.dispatch kubeReducer Page.stopTimer
  dsimp only
  cases htimer : page.kube.timers id with
  | some timer => rfl
  | none =>
      have hupdate : Function.update page.kube.timers id none = page.kube.timers := by
        rw [← htimer]
        exact Function.update_eq_self id page.kube.timers
      rw [hupdate]
      rfl

theorem dispatch_closeWatchResource (ref : ResourceRef) :
    page.dispatch base (.closeWatchResource ref) =
      (page.closeSocket (ref.watchResourceURL base)).stopTimer ref.getResourceURL := by
  unfold Page.dispatch kubeReducer Page.stopTimer Page.closeSocket
  dsimp only
  cases page.kube.sockets (ref.watchResourceURL base) with
  | none =>
      cases page.kube.timers ref.getResourceURL with
      | none => rfl
      | some timer => rfl
  | some handle =>
      cases page.kube.timers ref.getResourceURL with
      | none => rfl
      | some timer => rfl

/-! ## Every event keeps the handles tied -/

theorem socketsTied_openSocket {ref : ResourceRef} (h : page.SocketsTied base refs)
    (href : ref ∈ refs) (hnone : page.kube.sockets (ref.watchResourceURL base) = none) :
    (page.openSocket base ref).SocketsTied base refs := by
  have hfresh : page.window.webSockets page.window.nextSocket = none := by
    by_contra hsome
    obtain ⟨s, hs⟩ := Option.ne_none_iff_exists'.mp hsome
    exact absurd (h.next _ s hs) (by omega)
  constructor
  · refine forall_update ?_ fun _ _ => Nat.lt_succ_self _
    intro socket s hs
    exact Nat.lt_succ_of_lt (h.next socket s hs)
  · unfold Page.openSocket Window.watch Window.openSockets KubeState.socketHandles
    rw [Function.comp_update, Function.comp_update]
    refine linked_start (b := ⟨ref.watchResourceURL base, some ref, some ref, false⟩) h.linked ?_ ?_
    · exact congrArg (Option.filter _) hfresh
    · exact congrArg (Option.map _) hnone
  · refine forall_update ?_ ?_
    · intro key handle hhandle s hs
      have hlt : handle.1 < page.window.nextSocket := by
        obtain ⟨s', hs', _⟩ := linked_object h.linked (socketHandles_eq_some.2 ⟨handle.2, hhandle⟩)
        exact h.next _ s' (openSockets_eq_some.1 hs').1
      have hs' : Function.update page.window.webSockets page.window.nextSocket _ handle.1 = some s := hs
      rw [Function.update_of_ne (by omega)] at hs'
      exact h.registered key handle hhandle s hs'
    · intro handle hhandle s hs
      rw [← Option.some.inj hhandle] at hs ⊢
      have hs' : Function.update page.window.webSockets page.window.nextSocket _
        page.window.nextSocket = some s := hs
      rw [Function.update_self] at hs'
      rw [← Option.some.inj hs']
  · refine forall_update h.listening ?_
    intro s hs ref' href'
    rw [← Option.some.inj hs] at href' ⊢
    rw [← Option.some.inj href']
    exact ⟨href, rfl, rfl⟩

theorem socketsTied_closeSocket (h : page.SocketsTied base refs) (key : String) :
    (page.closeSocket key).SocketsTied base refs := by
  unfold Page.closeSocket
  cases hsocket : page.kube.sockets key with
  | none =>
      have hupdate : Function.update page.kube.sockets key none = page.kube.sockets := by
        rw [← hsocket]
        exact Function.update_eq_self key page.kube.sockets
      rw [hupdate]
      exact ⟨h.next, h.linked, h.registered, h.listening⟩
  | some handle =>
      have hhandle : page.kube.socketHandles key = some handle.1 :=
        congrArg (Option.map Prod.fst) hsocket
      obtain ⟨s, hopen, hurl⟩ := linked_object h.linked hhandle
      obtain ⟨hs, _⟩ := openSockets_eq_some.1 hopen
      have hwindow : (page.window.close handle.1 handle.2).webSockets =
          Function.update page.window.webSockets handle.1
            (some { s with error := none, closed := true }) := by
        unfold Window.close
        rw [hs, Option.map_some, if_pos (h.registered key handle hsocket s hs)]
      dsimp only
      rw [hwindow]
      constructor
      · refine forall_update h.next ?_
        intro s' hs'
        exact h.next handle.1 s hs
      · unfold Window.openSockets KubeState.socketHandles
        rw [Function.comp_update, Function.comp_update]
        exact linked_stop h.linked hhandle
      · intro key' handle' hhandle' s' hs'
        dsimp only at hhandle' hs'
        by_cases hkey : key' = key
        · rw [hkey, Function.update_self] at hhandle'
          exact nomatch hhandle'
        · rw [Function.update_of_ne hkey] at hhandle'
          -- another key has another socket
          have hne : handle'.1 ≠ handle.1 := by
            intro heq
            obtain ⟨s'', hopen', hurl'⟩ :=
              linked_object h.linked (socketHandles_eq_some.2 ⟨handle'.2, hhandle'⟩)
            rw [heq, hopen] at hopen'
            rw [← Option.some.inj hopen', hurl] at hurl'
            exact hkey hurl'.symm
          rw [Function.update_of_ne hne] at hs'
          exact h.registered key' handle' hhandle' s' hs'
      · refine forall_update h.listening ?_
        intro s' hs' ref href
        rw [← Option.some.inj hs'] at href
        exact nomatch href

theorem timersTied_startTimer {ref : ResourceRef} (h : page.TimersTied)
    (hnone : page.kube.timers ref.getResourceURL = none) : (page.startTimer ref).TimersTied := by
  have hfresh : page.window.intervals page.window.nextInterval = none := by
    by_contra hsome
    obtain ⟨timer, htimer⟩ := Option.ne_none_iff_exists'.mp hsome
    exact absurd (h.next _ timer htimer) (by omega)
  constructor
  · refine forall_update ?_ fun _ _ => Nat.lt_succ_self _
    intro interval timer htimer
    exact Nat.lt_succ_of_lt (h.next interval timer htimer)
  · exact linked_start h.linked hfresh hnone

theorem timersTied_stopTimer (h : page.TimersTied) (id : String) :
    (page.stopTimer id).TimersTied := by
  unfold Page.stopTimer
  cases htimer : page.kube.timers id with
  | none =>
      have hupdate : Function.update page.kube.timers id none = page.kube.timers := by
        rw [← htimer]
        exact Function.update_eq_self id page.kube.timers
      rw [hupdate]
      exact ⟨h.next, h.linked⟩
  | some timer =>
      exact ⟨forall_update h.next (fun _ heq => nomatch heq), linked_stop h.linked htimer⟩

theorem tied_open {ref : ResourceRef} (h : page.Tied base refs) (href : ref ∈ refs) :
    (page.dispatch base (.openWatchResource ref ref ref)).Tied base refs := by
  rcases dispatch_openWatchResource base page ref with hpage | ⟨hnone, hpage⟩
  · rw [hpage]
    exact h
  · rw [hpage]
    exact ⟨socketsTied_openSocket h.sockets href hnone, ⟨h.timers.next, h.timers.linked⟩⟩

theorem tied_onError (h : page.Tied base refs) (ref : ResourceRef) :
    (page.onError base ref).Tied base refs := by
  unfold Page.onError
  rcases dispatch_addTimer base page ref with hpage | ⟨hnone, hpage⟩
  · rw [hpage]
    exact h
  · rw [hpage]
    obtain ⟨hsockets, htimers⟩ := h
    exact ⟨⟨hsockets.next, hsockets.linked, hsockets.registered, hsockets.listening⟩,
      timersTied_startTimer htimers hnone⟩

theorem tied_stopTimer (h : page.Tied base refs) (id : String) :
    (page.stopTimer id).Tied base refs := by
  obtain ⟨hsockets, htimers⟩ := h
  exact ⟨⟨hsockets.next, hsockets.linked, hsockets.registered, hsockets.listening⟩,
    timersTied_stopTimer htimers id⟩

theorem tied_close (h : page.Tied base refs) (ref : ResourceRef) :
    (page.dispatch base (.closeWatchResource ref)).Tied base refs := by
  rw [dispatch_closeWatchResource]
  refine tied_stopTimer ?_ _
  exact ⟨socketsTied_closeSocket h.sockets _, ⟨h.timers.next, h.timers.linked⟩⟩

theorem gone_close (page : Page α) (ref : ResourceRef) :
    (page.dispatch base (.closeWatchResource ref)).Gone base ref := by
  rw [dispatch_closeWatchResource]
  exact ⟨Function.update_self .., Function.update_self ..⟩

theorem gone_stopTimer {ref : ResourceRef} (h : page.Gone base ref) (id : String) :
    (page.stopTimer id).Gone base ref := by
  refine ⟨h.1, ?_⟩
  show Function.update page.kube.timers id none ref.getResourceURL = none
  by_cases heq : ref.getResourceURL = id
  · rw [heq, Function.update_self]
  · rw [Function.update_of_ne heq]
    exact h.2

/-- The handler of a message removes a timer, and then changes only the items. -/
theorem handler_same (page : Page α) (ref : ResourceRef) (data : Option (WatchMessage α)) :
    (page.stopTimer ref.getResourceURL).SameHandles (page.handler base ref data) := by
  unfold Page.handler
  rw [dispatch_removeTimer]
  cases data with
  | none => exact sameHandles_refl
  | some msg =>
      dsimp only
      split
      · exact dispatch_items rfl (fun _ h => nomatch h)
      · exact dispatch_items rfl (fun _ h => nomatch h)

/-- An action that is neither an open nor a close nor an `addTimer` at most removes a timer. -/
theorem dispatch_other (base : String) (page : Page α) {a : KubeAction α} (hother : a.IsOther = true) :
    page.SameHandles (page.dispatch base a) ∨ ∃ id, page.dispatch base a = page.stopTimer id := by
  by_cases htimer : ∃ id, a = .removeTimer id
  · obtain ⟨id, ha⟩ := htimer
    rw [ha]
    exact Or.inr ⟨id, dispatch_removeTimer id⟩
  · exact Or.inl (dispatch_items hother fun id ha => htimer ⟨id, ha⟩)

/-- What an event does: the handles stay, a timer goes, an error listener starts one, or the page
    opens or closes what it watches. -/
theorem step_cases {e : PageEvent α} (h : page.step base e = some page') :
    (∃ id, page.SameHandles page' ∨ (page.stopTimer id).SameHandles page') ∨
      (∃ socket s ref, page.window.webSockets socket = some s ∧ s.error = some ref ∧
        page' = page.onError base ref) ∨
      (∃ ref, e = .getAndWatchResource ref ∧ page' = page.getAndWatchResource base ref) ∨
      (∃ ref, e = .closeWatchResource ref ∧
        page' = page.dispatch base (.closeWatchResource ref)) := by
  cases e with
  | getResource ref =>
      rw [← Option.some.inj h]
      exact Or.inl ⟨"", Or.inl (getResource_same ref false)⟩
  | getAndWatchResource ref => exact Or.inr (Or.inr (Or.inl ⟨ref, rfl, (Option.some.inj h).symm⟩))
  | closeWatchResource ref => exact Or.inr (Or.inr (Or.inr ⟨ref, rfl, (Option.some.inj h).symm⟩))
  | message socket data =>
      obtain ⟨s, _, h⟩ := Option.bind_eq_some_iff.mp h
      split at h
      · rename_i ref _
        rw [← Option.some.inj h]
        exact Or.inl ⟨_, Or.inr (handler_same page ref data)⟩
      · rw [← Option.some.inj h]
        exact Or.inl ⟨"", Or.inl sameHandles_refl⟩
  | error socket =>
      obtain ⟨s, hs, h⟩ := Option.bind_eq_some_iff.mp h
      split at h
      · rename_i ref href
        exact Or.inr (Or.inl ⟨socket, s, ref, hs, href, (Option.some.inj h).symm⟩)
      · rw [← Option.some.inj h]
        exact Or.inl ⟨"", Or.inl sameHandles_refl⟩
  | tick interval =>
      obtain ⟨ref, _, h⟩ := Option.bind_eq_some_iff.mp h
      rw [← Option.some.inj h]
      exact Or.inl ⟨"", Or.inl (getResource_same ref true)⟩
  | respond request result =>
      obtain ⟨ref, _, h⟩ := Option.bind_eq_some_iff.mp h
      rw [← Option.some.inj h]
      have hsame := respond_same base { page with pending := page.pending.eraseIdx request } ref
        result
      exact Or.inl ⟨"", Or.inl ⟨hsame.sockets, hsame.timers, hsame.window⟩⟩
  | dispatch a =>
      unfold Page.step at h
      dsimp only at h
      split at h
      · rename_i hother
        rw [← Option.some.inj h]
        rcases dispatch_other base page hother with hsame | ⟨id, hpage⟩
        · exact Or.inl ⟨"", Or.inl hsame⟩
        · rw [hpage]
          exact Or.inl ⟨id, Or.inr sameHandles_refl⟩
      · exact nomatch h

/-- The refs that an event opens or closes are among `refs`. -/
def PageEvent.Of (refs : Set ResourceRef) (e : PageEvent α) : Prop :=
  ∀ ref, e.watched = some ref → ref ∈ refs

theorem tied_step {e : PageEvent α} (h : page.Tied base refs) (hof : e.Of refs)
    (hstep : page.step base e = some page') : page'.Tied base refs := by
  rcases step_cases hstep with ⟨id, hsame⟩ | ⟨_, _, ref, _, _, hpage⟩ | ⟨ref, he, hpage⟩ |
    ⟨ref, _, hpage⟩
  · rcases hsame with hsame | hsame
    · exact tied_congr h hsame
    · exact tied_congr (tied_stopTimer h id) hsame
  · rw [hpage]
    exact tied_onError h ref
  · rw [hpage]
    refine tied_open (tied_congr h (getResource_same ref false)) (hof ref ?_)
    rw [he]
    rfl
  · rw [hpage]
    exact tied_close h ref

/-- A ref that is not opened again stays without a socket and a timer. -/
theorem gone_step {ref : ResourceRef} {e : PageEvent α}
    (hwatch : Set.InjOn (ResourceRef.watchResourceURL base) refs)
    (hget : Set.InjOn ResourceRef.getResourceURL refs) (href : ref ∈ refs)
    (h : page.Tied base refs) (hgone : page.Gone base ref) (hof : e.Of refs)
    (hopen : e ≠ .getAndWatchResource ref) (hstep : page.step base e = some page') :
    page'.Gone base ref := by
  rcases step_cases hstep with ⟨id, hsame⟩ | ⟨socket, s, ref', hs, hlistening, hpage⟩ |
    ⟨ref', he, hpage⟩ | ⟨ref', _, hpage⟩
  · rcases hsame with hsame | hsame
    · exact gone_congr hgone hsame
    · exact gone_congr (gone_stopTimer hgone id) hsame
  · -- the socket is open, so it is that of another ref
    obtain ⟨href', hopened, hurl⟩ := h.sockets.listening socket s hs ref' hlistening
    have hne : ref' ≠ ref := by
      intro heq
      refine linked_ne h.sockets.linked ?_ (openSockets_eq_some.2 ⟨hs, hopened⟩) hurl
      rw [heq]
      exact congrArg (Option.map Prod.fst) hgone.1
    rw [hpage]
    unfold Page.onError
    rcases dispatch_addTimer base page ref' with hsame | ⟨_, hstart⟩
    · rw [hsame]
      exact hgone
    · rw [hstart]
      refine ⟨hgone.1, ?_⟩
      have hkey : ref.getResourceURL ≠ ref'.getResourceURL :=
        fun heq => hne (hget href' href heq.symm)
      exact (Function.update_of_ne hkey ..).trans hgone.2
  · have hne : ref' ≠ ref := fun heq => hopen (heq ▸ he)
    have href' : ref' ∈ refs := hof ref' (by rw [he]; rfl)
    have hgone' : (page.getResource base ref' false).Gone base ref :=
      gone_congr hgone (getResource_same ref' false)
    rw [hpage]
    unfold Page.getAndWatchResource
    rcases dispatch_openWatchResource base (page.getResource base ref' false) ref' with
      hsame | ⟨_, hstart⟩
    · rw [hsame]
      exact hgone'
    · rw [hstart]
      refine ⟨?_, hgone'.2⟩
      have hkey : ref.watchResourceURL base ≠ ref'.watchResourceURL base :=
        fun heq => hne (hwatch href' href heq.symm)
      exact (Function.update_of_ne hkey ..).trans hgone'.1
  · rw [hpage, dispatch_closeWatchResource]
    refine gone_stopTimer ?_ _
    refine ⟨?_, hgone.2⟩
    show Function.update page.kube.sockets (ref'.watchResourceURL base) none _ = none
    by_cases heq : ref.watchResourceURL base = ref'.watchResourceURL base
    · rw [heq, Function.update_self]
    · rw [Function.update_of_ne heq]
      exact hgone.1

theorem tied_run {s t : Page α} {events : List (PageEvent α)} (h : s.Tied base refs)
    (hof : ∀ e ∈ events, e.Of refs) (hrun : runs (Page.step base) s events = some t) :
    t.Tied base refs := by
  refine runs_invariant_of_meet ?_ (stepsMeet_of_forall hof) hrun h
  exact fun _ _ _ htied he hstep => tied_step htied he hstep

theorem gone_run {s t : Page α} {events : List (PageEvent α)} {ref : ResourceRef}
    (hwatch : Set.InjOn (ResourceRef.watchResourceURL base) refs)
    (hget : Set.InjOn ResourceRef.getResourceURL refs) (href : ref ∈ refs)
    (h : s.Tied base refs) (hgone : s.Gone base ref) (hof : ∀ e ∈ events, e.Of refs)
    (hopen : .getAndWatchResource ref ∉ events) (hrun : runs (Page.step base) s events = some t) :
    t.Tied base refs ∧ t.Gone base ref := by
  have hmeet : ∀ e ∈ events, e.Of refs ∧ e ≠ .getAndWatchResource ref :=
    fun e he => ⟨hof e he, fun heq => hopen (heq ▸ he)⟩
  have hkeep : ∀ (page : Page α) (e : PageEvent α) (page' : Page α),
      page.Tied base refs ∧ page.Gone base ref → e.Of refs ∧ e ≠ .getAndWatchResource ref →
        page.step base e = some page' → page'.Tied base refs ∧ page'.Gone base ref := by
    intro page e page' ⟨htied, hgone⟩ ⟨he, hne⟩ hstep
    exact ⟨tied_step htied he hstep, gone_step hwatch hget href htied hgone he hne hstep⟩
  exact runs_invariant_of_meet hkeep (stepsMeet_of_forall hmeet) hrun ⟨h, hgone⟩

/-- In every state of every run the open sockets and running intervals are those of the store, and
    once a ref is closed and not opened again it has neither, whatever is delivered. -/
theorem sockets_and_timers (refs : Set ResourceRef)
    (hwatch : Set.InjOn (ResourceRef.watchResourceURL base) refs)
    (hget : Set.InjOn ResourceRef.getResourceURL refs) (events : List (PageEvent α))
    (hof : ∀ e ∈ events, e.Of refs) (page : Page α)
    (hrun : runs (Page.step base) .init events = some page) :
    page.Tracked ∧
      ∀ before ref after, events = before ++ .closeWatchResource ref :: after →
        .getAndWatchResource ref ∉ after → page.Released base ref := by
  refine ⟨tracked_of_tied (tied_run tied_init hof hrun), ?_⟩
  intro before ref after hevents hopen
  rw [hevents] at hof hrun
  obtain ⟨middle, hbefore, hafter⟩ := runs_append_eq_some.1 hrun
  obtain ⟨closed, hclose, hafter⟩ := runs_cons_eq_some.1 hafter
  have htied : middle.Tied base refs :=
    tied_run tied_init (fun e he => hof e (List.mem_append_left _ he)) hbefore
  have href : ref ∈ refs :=
    hof (.closeWatchResource ref) (List.mem_append_right _ List.mem_cons_self) ref rfl
  rw [← Option.some.inj hclose] at hafter
  have hafterOf : ∀ e ∈ after, e.Of refs :=
    fun e he => hof e (List.mem_append_right _ (List.mem_cons_of_mem _ he))
  obtain ⟨htied', hgone⟩ :=
    gone_run hwatch hget href (tied_close htied ref) (gone_close middle ref) hafterOf hopen hafter
  exact released_of_gone htied' hgone

/-- Pods of a namespace, and a deployment. -/
def podsRef : ResourceRef := ⟨"default", "v1", "pods", true, "team", none⟩

def webRef : ResourceRef := ⟨"default", "apps/v1", "deployments", true, "team", some "web"⟩

/-- A socket fails and falls back to an interval, and a message ends it; the ref is closed while the
    other one is polled, and then both fail again. -/
def watchedTwice : List (PageEvent Unit) :=
  [.getAndWatchResource webRef, .getAndWatchResource podsRef, .error 0, .error 1, .tick 1,
    .message 0 none, .error 0, .closeWatchResource webRef, .error 0, .error 1]

theorem sockets_and_timers_watchedTwice :
    ((runs (Page.step "ws://localhost/") (.init : Page Unit) watchedTwice).map
      fun page => (page.kube.timers webRef.getResourceURL, page.kube.timers podsRef.getResourceURL))
        = some (none, some 2) ∧
    ∀ page, runs (Page.step "ws://localhost/") (.init : Page Unit) watchedTwice = some page →
      page.Tracked ∧ page.Released "ws://localhost/" webRef := by
  refine ⟨by decide, ?_⟩
  intro page hrun
  have hwatch : Set.InjOn (ResourceRef.watchResourceURL "ws://localhost/") {webRef, podsRef} := by
    rw [Set.injOn_pair]
    exact fun h => absurd h (by decide)
  have hget : Set.InjOn ResourceRef.getResourceURL {webRef, podsRef} := by
    rw [Set.injOn_pair]
    exact fun h => absurd h (by decide)
  have hof : ∀ e ∈ watchedTwice, e.Of {webRef, podsRef} := by
    intro e he ref href
    have hall : ∀ e ∈ watchedTwice, e.watched = none ∨ e.watched = some webRef ∨
        e.watched = some podsRef := by decide
    rcases hall e he with hnone | hweb | hpods
    · rw [hnone] at href
      exact nomatch href
    · rw [hweb] at href
      exact Or.inl (Option.some.inj href).symm
    · rw [hpods] at href
      exact Or.inr (Option.some.inj href).symm
  obtain ⟨htracked, hreleased⟩ := sockets_and_timers _ hwatch hget watchedTwice hof page hrun
  refine ⟨htracked, ?_⟩
  exact hreleased (watchedTwice.take 7) webRef (watchedTwice.drop 8) rfl (by simp [watchedTwice])

end Kubeapps.Dashboard
