/-
  The list that a page keeps for the ref of a list, against the changes that its watch reports.

  `changed` is what a message says: an object is identified by its namespace and name, an added one
  is put, a modified one replaces itself, a deleted one goes. The order of a list means nothing.
  `updatedItems` is what the reducer makes of every message: it has no type any more, and the object
  replaces whatever has its `selfLink`, where none is one like any other.

  `list_follows_iff`: the stored list follows the changes exactly while each message is one that
  replaces the right objects anyway.
-/
import Kubeapps.Dashboard.Sockets

namespace Kubeapps.Dashboard

open Kubeapps.Lib

variable {α : Type} {base : String} {page page' : Page α}

/-- What identifies an object of a list. -/
def Resource.identity (r : Resource α) : Option String × Option String := (r.ns, r.name)

/-- The list after a change. -/
def changed (items : List (Resource α)) (msg : WatchMessage α) : List (Resource α) :=
  let r := msg.object
  match msg.type with
  | .added => items.filter (fun it => it.identity ≠ r.identity) ++ [r]
  | .modified => items.map fun it => if it.identity = r.identity then r else it
  | .deleted => items.filter fun it => it.identity ≠ r.identity

/-- The objects with the `selfLink` of `r` are the object `r` itself. -/
def LinkedAs (items : List (Resource α)) (r : Resource α) : Prop :=
  ∀ it ∈ items, it.selfLink = r.selfLink ↔ it.identity = r.identity

/-- The changes for which replacing by the `selfLink` is right: a modified object, one that is added
    and is there already, and the deletion of one that is not there and has a `selfLink` of its
    own. -/
def Replaces (items : List (Resource α)) (msg : WatchMessage α) : Prop :=
  let r := msg.object
  match msg.type with
  | .added => LinkedAs items r ∧ items.countP (fun it => it.identity = r.identity) = 1
  | .modified => LinkedAs items r
  | .deleted => ∀ it ∈ items, it.identity ≠ r.identity ∧ it.selfLink ≠ r.selfLink

/-! ## One message -/

section Message

variable {items expected : List (Resource α)} {r : Resource α} {msg : WatchMessage α}

theorem changed_perm (h : items.Perm expected) (msg : WatchMessage α) :
    (changed items msg).Perm (changed expected msg) := by
  unfold changed
  cases msg.type with
  | added => exact (h.filter _).append_right _
  | modified => exact h.map _
  | deleted => exact h.filter _

/-- Objects that are linked as `r` are replaced by their identity. -/
theorem updatedItems_of_linkedAs (h : LinkedAs items r) :
    updatedItems items r = items.map fun it => if it.identity = r.identity then r else it := by
  refine List.map_congr_left fun it hit => ?_
  rw [if_congr (h it hit) rfl rfl]

theorem mem_updatedItems_of_linked {it : Resource α} (hit : it ∈ items)
    (hlink : it.selfLink = r.selfLink) : r ∈ updatedItems items r :=
  List.mem_map.mpr ⟨it, hit, if_pos hlink⟩

theorem mem_updatedItems_of_other {it : Resource α} (hit : it ∈ items)
    (hlink : it.selfLink ≠ r.selfLink) : it ∈ updatedItems items r :=
  List.mem_map.mpr ⟨it, hit, if_neg hlink⟩

/-- The other objects are those that are not linked. -/
theorem filter_updatedItems (items : List (Resource α)) (r : Resource α) :
    (updatedItems items r).filter (fun it => it.identity ≠ r.identity) =
      (items.filter fun it => it.identity ≠ r.identity).filter
        fun it => it.selfLink ≠ r.selfLink := by
  unfold updatedItems
  induction items with
  | nil => rfl
  | cons it items ih =>
      rw [List.map_cons]
      by_cases hlink : it.selfLink = r.selfLink
      · rw [if_pos hlink, List.filter_cons_of_neg (by simp), ih]
        by_cases hid : it.identity = r.identity
        · rw [List.filter_cons_of_neg (by simpa using hid)]
        · rw [List.filter_cons_of_pos (by simpa using hid),
            List.filter_cons_of_neg (by simpa using hlink)]
      · rw [if_neg hlink]
        by_cases hid : it.identity = r.identity
        · rw [List.filter_cons_of_neg (by simpa using hid),
            List.filter_cons_of_neg (by simpa using hid), ih]
        · rw [List.filter_cons_of_pos (by simpa using hid),
            List.filter_cons_of_pos (by simpa using hid),
            List.filter_cons_of_pos (by simpa using hlink), ih]

/-- If the other objects are kept and all that are left of the identity are `r`, the list is linked
    as `r`. -/
theorem linkedAs_of_kept
    (hkept : ((updatedItems items r).filter fun it => it.identity ≠ r.identity).length =
      (items.filter fun it => it.identity ≠ r.identity).length)
    (hown : ∀ it ∈ updatedItems items r, it.identity = r.identity → it = r) : LinkedAs items r := by
  rw [filter_updatedItems] at hkept
  intro it hit
  constructor
  · intro hlink
    by_contra hid
    have hmem : it ∈ items.filter fun it => it.identity ≠ r.identity :=
      List.mem_filter.mpr ⟨hit, by simpa using hid⟩
    have hne := List.length_filter_eq_length_iff.mp hkept it hmem
    exact absurd hlink (by simpa using hne)
  · intro hid
    by_contra hlink
    have heq : it = r := hown it (mem_updatedItems_of_other hit hlink) hid
    exact hlink (congrArg Resource.selfLink heq)

theorem map_identity_perm {items : List (Resource α)} {r : Resource α}
    (hcount : items.countP (fun it => it.identity = r.identity) = 1) :
    (items.map fun it => if it.identity = r.identity then r else it).Perm
      (items.filter (fun it => it.identity ≠ r.identity) ++ [r]) := by
  induction items with
  | nil => exact absurd hcount (by simp)
  | cons it items ih =>
      rw [List.map_cons]
      by_cases hid : it.identity = r.identity
      · rw [List.countP_cons_of_pos (by simpa using hid)] at hcount
        have hnone : ∀ it' ∈ items, it'.identity ≠ r.identity := by
          have hzero : items.countP (fun it => it.identity = r.identity) = 0 := by omega
          simpa using List.countP_eq_zero.mp hzero
        have hmap : (items.map fun it => if it.identity = r.identity then r else it) = items := by
          refine (List.map_congr_left fun it' hit' => ?_).trans (List.map_id' items)
          exact if_neg (hnone it' hit')
        rw [if_pos hid, hmap, List.filter_cons_of_neg (by simpa using hid),
          List.filter_eq_self.mpr (by simpa using hnone)]
        exact (List.perm_append_singleton r items).symm
      · rw [List.countP_cons_of_neg (by simpa using hid)] at hcount
        rw [if_neg hid, List.filter_cons_of_pos (by simpa using hid), List.cons_append]
        exact (ih hcount).cons it

/-- What is left of the others after an addition or a modification. -/
theorem filter_append_self (items : List (Resource α)) (r : Resource α) :
    (items.filter (fun it => it.identity ≠ r.identity) ++ [r]).filter
      (fun it => it.identity ≠ r.identity) =
        items.filter fun it => it.identity ≠ r.identity := by
  rw [List.filter_append, List.filter_filter, List.filter_cons_of_neg (by simp), List.filter_nil,
    List.append_nil]
  exact List.filter_congr fun it _ => Bool.and_self _

theorem filter_map_identity (items : List (Resource α)) (r : Resource α) :
    (items.map fun it => if it.identity = r.identity then r else it).filter
      (fun it => it.identity ≠ r.identity) =
        items.filter fun it => it.identity ≠ r.identity := by
  induction items with
  | nil => rfl
  | cons it items ih =>
      rw [List.map_cons]
      by_cases hid : it.identity = r.identity
      · rw [if_pos hid, List.filter_cons_of_neg (by simp), ih,
          List.filter_cons_of_neg (by simpa using hid)]
      · rw [if_neg hid, List.filter_cons_of_pos (by simpa using hid), ih,
          List.filter_cons_of_pos (by simpa using hid)]

/-- The reducer makes the change of the message exactly if replacing is right for it. -/
theorem updatedItems_perm_iff (items : List (Resource α)) (msg : WatchMessage α) :
    (updatedItems items msg.object).Perm (changed items msg) ↔ Replaces items msg := by
  obtain ⟨type, r⟩ := msg
  have hlength : (updatedItems items r).length = items.length := List.length_map ..
  unfold changed Replaces
  dsimp only
  cases type with
  | added =>
      dsimp only
      constructor
      · intro hperm
        have hlinked : LinkedAs items r := by
          refine linkedAs_of_kept ?_ ?_
          · have hothers := hperm.filter fun it => it.identity ≠ r.identity
            rw [filter_append_self] at hothers
            exact hothers.length_eq
          · intro it hit hid
            rcases List.mem_append.mp (hperm.mem_iff.mp hit) with hmem | hmem
            · exact absurd hid (by simpa using (List.mem_filter.mp hmem).2)
            · exact List.mem_singleton.mp hmem
        refine ⟨hlinked, ?_⟩
        have hlen := hperm.length_eq
        rw [hlength, List.length_append, List.length_singleton, ← List.countP_eq_length_filter,
          List.length_eq_countP_add_countP fun it => it.identity = r.identity] at hlen
        simp only [ne_eq, decide_not, decide_eq_true_eq] at hlen
        omega
      · intro ⟨hlinked, hcount⟩
        rw [updatedItems_of_linkedAs hlinked]
        exact map_identity_perm hcount
  | modified =>
      dsimp only
      constructor
      · intro hperm
        refine linkedAs_of_kept ?_ ?_
        · have hothers := hperm.filter fun it => it.identity ≠ r.identity
          rw [filter_map_identity] at hothers
          exact hothers.length_eq
        · intro it hit hid
          obtain ⟨it', _, heq⟩ := List.mem_map.mp (hperm.mem_iff.mp hit)
          by_cases hid' : it'.identity = r.identity
          · rw [if_pos hid'] at heq
            exact heq.symm
          · rw [if_neg hid'] at heq
            exact absurd (heq ▸ hid) hid'
      · intro hlinked
        rw [updatedItems_of_linkedAs hlinked]
  | deleted =>
      dsimp only
      constructor
      · intro hperm it hit
        have hgone : ∀ it' ∈ updatedItems items r, it'.identity ≠ r.identity :=
          fun it' hit' => by simpa using (List.mem_filter.mp (hperm.mem_iff.mp hit')).2
        have hlink : it.selfLink ≠ r.selfLink :=
          fun hlink => hgone r (mem_updatedItems_of_linked hit hlink) rfl
        exact ⟨hgone it (mem_updatedItems_of_other hit hlink), hlink⟩
      · intro hother
        have hsame : updatedItems items r = items := by
          refine (List.map_congr_left fun it hit => ?_).trans (List.map_id' items)
          exact if_neg (hother it hit).2
        rw [hsame, List.filter_eq_self.mpr fun it hit => by simpa using (hother it hit).1]

end Message

/-! ## The messages of a watch -/

/-- The stored list of a ref. -/
def Page.storedList (page : Page α) (ref : ResourceRef) : Option (List (Resource α)) := do
  let stored ← page.kube.items ref.getResourceURL
  let item ← stored.item
  item.items

/-- The handler of the ref is registered on the socket. -/
def Page.Watching (page : Page α) (socket : Nat) (ref : ResourceRef) : Prop :=
  ∃ s, page.window.webSockets socket = some s ∧ s.message = some ref

/-- A message of the socket, on the page and on the list that is expected. -/
def watchStep (base : String) (socket : Nat) (st : Page α × List (Resource α))
    (msg : WatchMessage α) : Option (Page α × List (Resource α)) :=
  (st.1.step base (.message socket (some msg))).map fun page => (page, changed st.2 msg)

/-- The stored list is the expected one. -/
def Follows (ref : ResourceRef) (st : Page α × List (Resource α)) : Prop :=
  ∃ items, st.1.storedList ref = some items ∧ items.Perm st.2

theorem storedList_eq_some {ref : ResourceRef} {items : List (Resource α)} :
    page.storedList ref = some items ↔ ∃ isFetching own error,
      page.kube.items ref.getResourceURL =
        some ⟨isFetching, some ⟨own, some items⟩, error⟩ := by
  constructor
  · intro hstored
    obtain ⟨⟨isFetching, item, error⟩, hentry, hitem⟩ := Option.bind_eq_some_iff.mp hstored
    obtain ⟨⟨own, list⟩, hitem, hlist⟩ := Option.bind_eq_some_iff.mp hitem
    dsimp only at hitem hlist
    rw [hitem, hlist] at hentry
    exact ⟨isFetching, own, error, hentry⟩
  · intro ⟨isFetching, own, error, hentry⟩
    unfold Page.storedList
    rw [hentry]
    rfl

/-- A list's message replaces, whatever its type. -/
theorem handler_list {ref : ResourceRef} {items : List (Resource α)}
    (hname : truthy ref.name = none) (hstored : page.storedList ref = some items)
    (msg : WatchMessage α) :
    (page.handler base ref (some msg)).window.webSockets = page.window.webSockets ∧
      (page.handler base ref (some msg)).storedList ref =
        some (updatedItems items msg.object) := by
  obtain ⟨isFetching, own, error, hentry⟩ := storedList_eq_some.1 hstored
  have hreduce : kubeReducer base (page.stopTimer ref.getResourceURL).kube
      (page.stopTimer ref.getResourceURL).window
      (.receiveResourceFromList ref.getResourceURL msg.object) =
        .ok ((page.stopTimer ref.getResourceURL).kube.putItem ref.getResourceURL
          ⟨false, some ⟨own, some (updatedItems items msg.object)⟩, none⟩,
          (page.stopTimer ref.getResourceURL).window) := by
    unfold kubeReducer
    dsimp only
    rw [show (page.stopTimer ref.getResourceURL).kube.items ref.getResourceURL = _ from hentry]
    rfl
  unfold Page.handler
  rw [dispatch_removeTimer, hname]
  unfold Page.dispatch
  dsimp only
  rw [hreduce]
  refine ⟨rfl, ?_⟩
  rw [storedList_eq_some]
  exact ⟨false, own, none, Function.update_self ..⟩

theorem message_step {socket : Nat} {ref : ResourceRef} {items : List (Resource α)}
    (hname : truthy ref.name = none) (hwatching : page.Watching socket ref)
    (hstored : page.storedList ref = some items) (msg : WatchMessage α) :
    ∃ page', page.step base (.message socket (some msg)) = some page' ∧
      page'.Watching socket ref ∧ page'.storedList ref = some (updatedItems items msg.object) := by
  obtain ⟨s, hs, hlistening⟩ := hwatching
  obtain ⟨hsockets, hlist⟩ :
      (page.handler base ref (some msg)).window.webSockets = page.window.webSockets ∧
        (page.handler base ref (some msg)).storedList ref =
          some (updatedItems items msg.object) := handler_list hname hstored msg
  refine ⟨page.handler base ref (some msg), ?_, ⟨s, hsockets ▸ hs, hlistening⟩, hlist⟩
  unfold Page.step
  dsimp only
  rw [hs, Option.bind_eq_bind, Option.bind_some, hlistening]

/-- While the socket is watched and the list is stored, the messages arrive, and the stored list
    follows exactly if each of them is one that replacing is right for. -/
theorem list_follows_iff (ref : ResourceRef) (hname : truthy ref.name = none) (socket : Nat)
    (page : Page α) (hwatching : page.Watching socket ref) (items : List (Resource α))
    (hstored : page.storedList ref = some items) (messages : List (WatchMessage α)) :
    Always (watchStep base socket) (Follows ref) (page, items) messages ↔
      StepsMeet (watchStep base socket) (fun st msg => Replaces st.2 msg) (page, items)
        messages := by
  have hstep : ∀ (st : Page α × List (Resource α)) (msg : WatchMessage α) (list),
      st.1.Watching socket ref → st.1.storedList ref = some list →
        ∃ page', watchStep base socket st msg = some (page', changed st.2 msg) ∧
          page'.Watching socket ref ∧
            page'.storedList ref = some (updatedItems list msg.object) := by
    intro st msg list hwatching hlist
    obtain ⟨page', hpage, hwatching', hlist'⟩ := message_step hname hwatching hlist msg
    exact ⟨page', congrArg _ hpage, hwatching', hlist'⟩
  have hrun : ∃ st, runs (watchStep base socket) (page, items) messages = some st := by
    refine exists_runs (P := fun st => st.1.Watching socket ref ∧ (st.1.storedList ref).isSome = true)
      ?_ ⟨hwatching, by rw [hstored]; rfl⟩ messages
    intro st msg ⟨hwatching, hsome⟩
    obtain ⟨list, hlist⟩ := Option.isSome_iff_exists.mp hsome
    obtain ⟨page', hpage, hwatching', hlist'⟩ := hstep st msg list hwatching hlist
    exact ⟨_, hpage, hwatching', by rw [hlist']; rfl⟩
  obtain ⟨st, hrun⟩ := hrun
  have hkeep : ∀ (st : Page α × List (Resource α)) (msg : WatchMessage α) (st'),
      st.1.Watching socket ref ∧ Follows ref st → Replaces st.2 msg →
        watchStep base socket st msg = some st' →
          st'.1.Watching socket ref ∧ Follows ref st' := by
    intro st msg st' ⟨hwatching, list, hlist, hperm⟩ hreplaces hst
    obtain ⟨page', hpage, hwatching', hlist'⟩ := hstep st msg list hwatching hlist
    rw [hpage] at hst
    rw [← Option.some.inj hst]
    refine ⟨hwatching', _, hlist', ?_⟩
    exact (hperm.map _).trans ((updatedItems_perm_iff st.2 msg).mpr hreplaces)
  have hmiss : ∀ (st : Page α × List (Resource α)) (msg : WatchMessage α) (st'),
      st.1.Watching socket ref ∧ Follows ref st → ¬ Replaces st.2 msg →
        watchStep base socket st msg = some st' → ¬ Follows ref st' := by
    intro st msg st' ⟨hwatching, list, hlist, hperm⟩ hno hst hfollows
    obtain ⟨page', hpage, _, hlist'⟩ := hstep st msg list hwatching hlist
    rw [hpage] at hst
    rw [← Option.some.inj hst] at hfollows
    obtain ⟨list', hlist'', hperm'⟩ := hfollows
    rw [hlist'] at hlist''
    rw [← Option.some.inj hlist''] at hperm'
    exact hno ((updatedItems_perm_iff st.2 msg).mp ((hperm.map _).symm.trans hperm'))
  exact always_iff_stepsMeet (fun st h => h.2) hkeep hmiss hrun
    ⟨hwatching, items, hstored, List.Perm.refl items⟩

/-- The page on which the pods are watched and were received. -/
def podsPage (items : List (Resource Nat)) : Page Nat :=
  { Page.init.getAndWatchResource "ws://localhost/" podsRef with pending := [] }.respond
    "ws://localhost/" podsRef (.ok ⟨none, some items⟩)

/-- A pod, with or without its `selfLink`. -/
def pod (name : String) (selfLink : Option String) (rest : Nat) : Resource Nat :=
  ⟨some name, some "team", selfLink, rest⟩

/-- What is stored after a message. -/
def storedAfter (items : List (Resource Nat)) (msg : WatchMessage Nat) :
    Option (List (Resource Nat)) :=
  (watchStep "ws://localhost/" 0 (podsPage items, items) msg).bind fun st =>
    st.1.storedList podsRef

/-- Pods with a `selfLink` each: a modified one replaces itself. -/
theorem list_follows_modified :
    Always (watchStep "ws://localhost/" 0) (Follows podsRef)
      (podsPage [pod "web" (some "/web") 0, pod "db" (some "/db") 0],
        [pod "web" (some "/web") 0, pod "db" (some "/db") 0])
      [⟨.modified, pod "web" (some "/web") 1⟩] := by
  refine (list_follows_iff podsRef rfl 0 _ ⟨_, rfl, rfl⟩ _ rfl _).mpr ⟨?_, fun _ _ => trivial⟩
  unfold Replaces LinkedAs
  decide

/-- A deleted pod stays, an added one is not put, and a modified one without a `selfLink` replaces
    the others. -/
theorem deleted_pod_stays :
    runs (Page.step "ws://localhost/") .init [.getAndWatchResource podsRef,
        .respond 0 (.ok ⟨none, some [pod "web" (some "/web") 0]⟩)] =
          some (podsPage [pod "web" (some "/web") 0]) ∧
      storedAfter [pod "web" (some "/web") 0] ⟨.deleted, pod "web" (some "/web") 1⟩ =
        some [pod "web" (some "/web") 1] ∧
      storedAfter [] ⟨.added, pod "web" (some "/web") 0⟩ = some [] ∧
      storedAfter [pod "web" none 0, pod "db" none 0] ⟨.modified, pod "web" none 1⟩ =
        some [pod "web" none 1, pod "web" none 1] ∧
      ¬ Always (watchStep "ws://localhost/" 0) (Follows podsRef)
        (podsPage [pod "web" (some "/web") 0], [pod "web" (some "/web") 0])
        [⟨.deleted, pod "web" (some "/web") 1⟩] := by
  refine ⟨rfl, by decide, by decide, by decide, fun hall => ?_⟩
  have hresult : (runs (watchStep "ws://localhost/" 0)
      (podsPage [pod "web" (some "/web") 0], [pod "web" (some "/web") 0])
      [⟨.deleted, pod "web" (some "/web") 1⟩]).map (fun st => (st.1.storedList podsRef, st.2)) =
        some (some [pod "web" (some "/web") 1], []) := by decide
  obtain ⟨st, hrun, hst⟩ := Option.map_eq_some_iff.mp hresult
  obtain ⟨items, hitems, hperm⟩ := hall _ st List.prefix_rfl hrun
  obtain ⟨hstored, hexpected⟩ := Prod.mk.inj hst
  rw [hstored] at hitems
  rw [← Option.some.inj hitems, hexpected] at hperm
  exact absurd hperm.length_eq (by decide)

end Kubeapps.Dashboard
