/-
  The Kubernetes resources of the dashboard's store (src/dashboard/src/reducers/kube.ts:
  kubeReducer; src/dashboard/src/actions/kube.tsx: getResource, getAndWatchResource;
  src/dashboard/src/shared/ResourceRef.ts, src/dashboard/src/shared/Kube.ts: the URLs).

  A page is the store and what the reducer and the actions make outside of it: web sockets with
  their listeners, running intervals, and requests that are not answered yet. A listener is the ref
  that it closes over; `setInterval` gives an id that is not 0. The keys of the items, sockets and
  timers are URLs, so that none of them is a property that every object inherits.

  `α` is what an object has beside the metadata below. `kinds` is left out: only the actions that
  set it use it.
-/
import Kubeapps.Dashboard.Clusters

namespace Kubeapps.Dashboard

open Kubeapps.Lib

/-- `ResourceRef`: what its URLs are made of. -/
structure ResourceRef where
  cluster : String
  apiVersion : String
  plural : String
  namespaced : Bool
  ns : String
  name : Option String
  deriving DecidableEq, Repr

/-- `Kube.getResourceURL`, for a name or none. -/
def Kube.getResourceURL (ref : ResourceRef) (name : Option String) : String :=
  let version :=
    if ref.apiVersion = "v1" ∨ ref.apiVersion = "" then "api/v1" else "apis/" ++ ref.apiVersion
  let inNamespace :=
    if ref.namespaced = true ∧ ref.ns ≠ "" then "/namespaces/" ++ ref.ns else ""
  let ofName :=
    match truthy name with
    | some name => "/" ++ name
    | none => ""
  "api/clusters/" ++ ref.cluster ++ "/" ++ version ++ inNamespace ++ "/" ++ ref.plural ++ ofName

/-- `ResourceRef.getResourceURL`. -/
def ResourceRef.getResourceURL (ref : ResourceRef) : String := Kube.getResourceURL ref ref.name

/-- `ResourceRef.watchResourceURL`. `base` is `WebSocketAPIBase`. -/
def ResourceRef.watchResourceURL (base : String) (ref : ResourceRef) : String :=
  let selector :=
    match truthy ref.name with
    | some name => "&fieldSelector=metadata.name%3D" ++ name
    | none => ""
  base ++ Kube.getResourceURL ref none ++ "?watch=true" ++ selector

/-- `IResource`: the metadata that is read, and the rest. -/
structure Resource (α : Type) where
  name : Option String
  ns : Option String
  selfLink : Option String
  rest : α
  deriving DecidableEq, Repr

/-- `IResource | IK8sList`: the fields of the object itself (none if it has nothing but `items`),
    and the items of a list. -/
structure Item (α : Type) where
  own : Option (Resource α)
  items : Option (List (Resource α))
  deriving DecidableEq, Repr

/-- `IKubeItem`. -/
structure KubeItem (α : Type) where
  isFetching : Bool
  item : Option (Item α)
  error : Option String
  deriving DecidableEq, Repr

/-- `IKubeState`. A socket is the id of a web socket and its `onError`. -/
structure KubeState (α : Type) where
  items : String → Option (KubeItem α)
  sockets : String → Option (Nat × ResourceRef)
  timers : String → Option Nat

/-- `WebSocket`, with the listeners that are registered. -/
structure WebSocket where
  url : String
  message : Option ResourceRef
  error : Option ResourceRef
  closed : Bool
  deriving DecidableEq, Repr

/-- The web sockets that were made, and the intervals that are running. -/
structure Window where
  webSockets : Nat → Option WebSocket
  nextSocket : Nat
  intervals : Nat → Option ResourceRef
  nextInterval : Nat

/-- `ref.watchResource()`, and the two listeners. The id of the socket is `nextSocket`. -/
def Window.watch (window : Window) (url : String) (handler onError : ResourceRef) : Window :=
  { window with
    webSockets := Function.update window.webSockets window.nextSocket
      (some ⟨url, some handler, some onError, false⟩)
    nextSocket := window.nextSocket + 1 }

/-- `removeEventListener("error", onError)` and `close()`. -/
def Window.close (window : Window) (socket : Nat) (onError : ResourceRef) : Window :=
  { window with
    webSockets := Function.update window.webSockets socket
      ((window.webSockets socket).map fun s =>
        { s with error := if s.error = some onError then none else s.error, closed := true }) }

/-- `setInterval`. The id of the interval is `nextInterval`. -/
def Window.setInterval (window : Window) (timer : ResourceRef) : Window :=
  { window with
    intervals := Function.update window.intervals window.nextInterval (some timer)
    nextInterval := window.nextInterval + 1 }

/-- `clearInterval`. -/
def Window.clearInterval (window : Window) (interval : Nat) : Window :=
  { window with intervals := Function.update window.intervals interval none }

/-- `KubeAction`, and the change of the location. `other` is one of the actions for the kinds. -/
inductive KubeAction (α : Type) where
  | requestResource (key : String)
  | receiveResource (key : String) (resource : Item α)
  | receiveResourceFromList (key : String) (resource : Resource α)
  | receiveResourceError (key error : String)
  | openWatchResource (ref handler onError : ResourceRef)
  | closeWatchResource (ref : ResourceRef)
  | addTimer (id : String) (timer : ResourceRef)
  | removeTimer (id : String)
  | locationChange
  | other
  deriving DecidableEq, Repr

section Reducer

variable {α : Type}

def KubeState.putItem (kube : KubeState α) (key : String) (item : KubeItem α) : KubeState α :=
  { kube with items := Function.update kube.items key (some item) }

/-- `stateListItem.items.map(it => ...)`. -/
def updatedItems (items : List (Resource α)) (newItem : Resource α) : List (Resource α) :=
  items.map fun it => if it.selfLink = newItem.selfLink then newItem else it

/-- The item that `receiveResourceFromList` puts for the one that is there. -/
def receivedList (stateListItem : Option (Item α)) (newItem : Resource α) : Item α :=
  match stateListItem with
  | none => ⟨none, some [newItem]⟩
  | some ⟨own, none⟩ => ⟨own, some [newItem]⟩
  | some ⟨own, some items⟩ => ⟨own, some (updatedItems items newItem)⟩

/-- `kubeReducer`. -/
def kubeReducer (base : String) (kube : KubeState α) (window : Window) :
    KubeAction α → Except Thrown (KubeState α × Window)
  | .requestResource key =>
      return (kube.putItem key ((kube.items key).getD ⟨true, none, none⟩), window)
  | .receiveResource key resource => return (kube.putItem key ⟨false, some resource, none⟩, window)
  | .receiveResourceFromList key newItem =>
      match kube.items key with
      | none => throw ⟨"item"⟩
      | some item =>
          return (kube.putItem key ⟨false, some (receivedList item.item newItem), none⟩, window)
  | .receiveResourceError key error => return (kube.putItem key ⟨false, none, some error⟩, window)
  | .openWatchResource ref handler onError =>
      let key := ref.watchResourceURL base
      match kube.sockets key with
      | some _ => return (kube, window)
      | none =>
          return ({ kube with
              sockets := Function.update kube.sockets key (some (window.nextSocket, onError)) },
            window.watch key handler onError)
  | .closeWatchResource ref =>
      let key := ref.watchResourceURL base
      let timerID := ref.getResourceURL
      let window :=
        match kube.sockets key with
        | some (socket, onError) => window.close socket onError
        | none => window
      let window :=
        match kube.timers timerID with
        | some timer => window.clearInterval timer
        | none => window
      return ({ kube with
          sockets := Function.update kube.sockets key none
          timers := Function.update kube.timers timerID none }, window)
  | .addTimer id timer =>
      match kube.timers id with
      | some _ => return (kube, window)
      | none =>
          return ({ kube with timers := Function.update kube.timers id (some window.nextInterval) },
            window.setInterval timer)
  | .removeTimer id =>
      match kube.timers id with
      | some timer =>
          return ({ kube with timers := Function.update kube.timers id none },
            window.clearInterval timer)
      | none => return (kube, window)
  | .locationChange => return ({ kube with items := fun _ => none }, window)
  | .other => return (kube, window)

end Reducer

/-! ## The page -/

/-- The store, the window, the refs whose requests are not answered, and whether the reducer has
    thrown. -/
structure Page (α : Type) where
  kube : KubeState α
  window : Window
  pending : List ResourceRef
  thrown : Bool

/-- The types of the messages of a watch. -/
inductive WatchType where
  | added | modified | deleted
  deriving DecidableEq, Repr

/-- The data of a message. -/
structure WatchMessage (α : Type) where
  type : WatchType
  object : Resource α
  deriving DecidableEq, Repr

/-- What happens on a page. `message` and `error` are events of a web socket (`none` is data that
    `JSON.parse` does not take), `tick` is one of an interval, and `respond` the answer to a
    request. -/
inductive PageEvent (α : Type) where
  | getResource (ref : ResourceRef)
  | getAndWatchResource (ref : ResourceRef)
  | closeWatchResource (ref : ResourceRef)
  | message (socket : Nat) (data : Option (WatchMessage α))
  | error (socket : Nat)
  | tick (interval : Nat)
  | respond (request : Nat) (result : Except String (Item α))
  | dispatch (a : KubeAction α)

/-- The kube actions that neither open nor close a socket nor add a timer. -/
def KubeAction.IsOther {α : Type} : KubeAction α → Bool
  | .openWatchResource .. | .closeWatchResource .. | .addTimer .. => false
  | _ => true

section Page

variable {α : Type}

/-- `initialState`. -/
def Page.init : Page α where
  kube := ⟨fun _ => none, fun _ => none, fun _ => none⟩
  window := ⟨fun _ => none, 0, fun _ => none, 1⟩
  pending := []
  thrown := false

/-- `dispatch(a)`. A reducer that throws leaves the store as it was. -/
def Page.dispatch (base : String) (page : Page α) (a : KubeAction α) : Page α :=
  match kubeReducer base page.kube page.window a with
  | .ok (kube, window) => { page with kube := kube, window := window }
  | .error _ => { page with thrown := true }

def Page.isFetching (page : Page α) (key : String) : Bool :=
  match page.kube.items key with
  | some existing => existing.isFetching
  | none => false

/-- `getResource`, until it waits for the answer. -/
def Page.getResource (base : String) (page : Page α) (ref : ResourceRef) (polling : Bool) :
    Page α :=
  let key := ref.getResourceURL
  if page.isFetching key = true then page
  else
    let page := if polling = true then page else page.dispatch base (.requestResource key)
    { page with pending := page.pending ++ [ref] }

/-- The rest of `getResource`. -/
def Page.respond (base : String) (page : Page α) (ref : ResourceRef)
    (result : Except String (Item α)) : Page α :=
  let key := ref.getResourceURL
  match result with
  | .ok r => page.dispatch base (.receiveResource key r)
  | .error e => page.dispatch base (.receiveResourceError key e)

/-- `getAndWatchResource`. -/
def Page.getAndWatchResource (base : String) (page : Page α) (ref : ResourceRef) : Page α :=
  (page.getResource base ref false).dispatch base (.openWatchResource ref ref ref)

/-- The handler of `getAndWatchResource`. -/
def Page.handler (base : String) (page : Page α) (ref : ResourceRef)
    (data : Option (WatchMessage α)) : Page α :=
  let page := page.dispatch base (.removeTimer ref.getResourceURL)
  match data with
  | none => page
  | some msg =>
      let key := ref.getResourceURL
      match truthy ref.name with
      | none => page.dispatch base (.receiveResourceFromList key msg.object)
      | some _ => page.dispatch base (.receiveResource key ⟨some msg.object, none⟩)

/-- The error listener of `getAndWatchResource`. -/
def Page.onError (base : String) (page : Page α) (ref : ResourceRef) : Page α :=
  page.dispatch base (.addTimer ref.getResourceURL ref)

/-- One event. An event of a socket reaches the listener that is registered, if there is one. -/
def Page.step (base : String) (page : Page α) : PageEvent α → Option (Page α)
  | .getResource ref => some (page.getResource base ref false)
  | .getAndWatchResource ref => some (page.getAndWatchResource base ref)
  | .closeWatchResource ref => some (page.dispatch base (.closeWatchResource ref))
  | .message socket data => do
      let s ← page.window.webSockets socket
      match s.message with
      | some ref => some (page.handler base ref data)
      | none => some page
  | .error socket => do
      let s ← page.window.webSockets socket
      match s.error with
      | some ref => some (page.onError base ref)
      | none => some page
  | .tick interval => do
      let ref ← page.window.intervals interval
      some (page.getResource base ref true)
  | .respond request result => do
      let ref ← page.pending[request]?
      some ({ page with pending := page.pending.eraseIdx request }.respond base ref result)
  | .dispatch a => if a.IsOther = true then some (page.dispatch base a) else none

end Page

end Kubeapps.Dashboard
