/-
  `agent.CreateRelease` (pkg/agent/agent.go) run by any number of users at once against the
  release store of one namespace.

  A call is three remote steps with a local one in between: `GetRelease`, then
  `NewDockerSecretsPostRenderer` and `getValues` on its own arguments, then Helm's install,
  and, if the install fails, `DeleteRelease`. Every step is one label of `step`; the label
  also says what Helm answered. What is assumed of Helm:

  * `GetRelease` may fail with any error, whether or not the release exists. It returns a
    release only if there is one;
  * an install of a name in use fails and leaves the store alone. An install of a free
    name succeeds, or fails before it stores anything, or fails and leaves a failed record;
  * an uninstall that succeeds removes the record of that name. One that fails may have
    removed it or not.

  `Safe` says that no call removed a record that was there when the call began or that
  another call installed successfully. It fails on the code
  (`createRelease_deletes_foreign`): the compensating `DeleteRelease` removes whatever
  holds the name. `safe_of_installs_own` gives the schedules on which it holds, and
  `installsOwn_exact` says that nothing weaker would do: a step outside the condition leaves
  a state from which one `DeleteRelease` breaks `Safe`.
-/
import Mathlib.Logic.Function.Basic
import Kubeapps.Lib.Steps
import Kubeapps.Lib.Text

namespace Kubeapps.Agent

open Kubeapps.Lib

/-! ## Releases and calls -/

/-- The status an install leaves its record in. -/
inductive Status where
  | deployed
  | failed
  deriving DecidableEq, Repr

/-- A record of the release store. `origin` tells records of one name apart: `none` for a
    record of the initial store, `some c` for the one the install of call `c` stored (a
    call installs at most once). -/
structure Release where
  origin : Option Nat
  status : Status
  deriving DecidableEq, Repr

/-- What `CreateRelease` reads of its arguments. The namespace is the store's. -/
structure Args where
  name : String
  valueString : String
  registrySecrets : List (String × String)
  deriving DecidableEq, Repr

/-- The two local calls of `CreateRelease`. Only whether they fail matters here. -/
structure Deps where
  newDockerSecretsPostRenderer : List (String × String) → Except String Unit
  getValues : String → Except String Unit

/-- Where a call stands: before the named step, or returned. -/
inductive Phase where
  | getRelease
  | prepare
  | install
  | deleteRelease (err : String)
  | returned (res : Except String Release)
  deriving DecidableEq

/-- A call in progress. `before` is the record of its name when `GetRelease` ran, the
    first step of the call. -/
structure Call where
  args : Args
  phase : Phase
  before : Option Release
  deriving DecidableEq

/-- A removal by `DeleteRelease`: the call, what it had found when it began, and the
    record removed. -/
structure Deletion where
  call : Nat
  before : Option Release
  release : Release
  deriving DecidableEq, Repr

/-- The release store of the namespace, the calls, and the removals so far. -/
structure State where
  store : String → Option Release
  calls : List Call
  deleted : List Deletion

/-- Calls not yet started on a store of records left by earlier installs. -/
def init (store : String → Option Status) (args : List Args) : State where
  store n := (store n).map fun st => ⟨none, st⟩
  calls := args.map fun a => ⟨a, .getRelease, none⟩
  deleted := []

/-! ## Steps -/

/-- What Helm's install answers: it stored a deployed record, or failed with `err`, with or
    without leaving a failed record. -/
inductive InstallOutcome where
  | ok
  | error (err : String) (stored : Bool)
  deriving DecidableEq

/-- What Helm's uninstall answers. -/
inductive UninstallOutcome where
  | ok
  | error (err : String) (removed : Bool)
  deriving DecidableEq

/-- One step of call `c`, with Helm's answer. `getRelease c none` is a `GetRelease` that
    returned a release. -/
inductive Label where
  | getRelease (c : Nat) (err : Option String)
  | prepare (c : Nat)
  | install (c : Nat) (out : InstallOutcome)
  | deleteRelease (c : Nat) (out : UninstallOutcome)
  deriving DecidableEq

def setCall (s : State) (c : Nat) (call : Call) : State :=
  { s with calls := s.calls.set c call }

/-- `GetRelease`. No error means that the release exists and the call fails; any error is
    taken for "not found". -/
def stepGet (s : State) (c : Nat) (call : Call) (err : Option String) : Option State :=
  let call := { call with before := s.store call.args.name }
  match err with
  | none =>
      if call.before.isSome then
        some (setCall s c { call with
          phase := .returned (.error ("release " ++ call.args.name ++ " already exists")) })
      else none
  | some _ => some (setCall s c { call with phase := .prepare })

/-- `NewDockerSecretsPostRenderer`, then `getValues`. An error of either is returned. -/
def stepPrepare (deps : Deps) (s : State) (c : Nat) (call : Call) : State :=
  match deps.newDockerSecretsPostRenderer call.args.registrySecrets with
  | .error e => setCall s c { call with phase := .returned (.error e) }
  | .ok _ =>
      match deps.getValues call.args.valueString with
      | .error e => setCall s c { call with phase := .returned (.error e) }
      | .ok _ => setCall s c { call with phase := .install }

/-- Store `r` under `n`. -/
def put (s : State) (n : String) (r : Release) : State :=
  { s with store := Function.update s.store n (some r) }

/-- `cmd.Run` of Helm's install. -/
def stepInstall (s : State) (c : Nat) (call : Call) : InstallOutcome → Option State
  | .ok =>
      if (s.store call.args.name).isNone then
        let r : Release := ⟨some c, .deployed⟩
        some (setCall (put s call.args.name r) c { call with phase := .returned (.ok r) })
      else none
  | .error err false => some (setCall s c { call with phase := .deleteRelease err })
  | .error err true =>
      if (s.store call.args.name).isNone then
        some (setCall (put s call.args.name ⟨some c, .failed⟩) c
          { call with phase := .deleteRelease err })
      else none

/-- The error `CreateRelease` returns after its `DeleteRelease` (`none`: it succeeded). -/
def deleteMessage (name err : String) : Option String → String
  | some e =>
      if contains e "release: not found" then
        "Release " ++ name.quote ++ " failed and has been uninstalled: " ++ err
      else
        "Release " ++ name.quote ++ " failed: " ++ err ++
          ". Unable to delete failed release: " ++ e
  | none => "Release " ++ name.quote ++ " failed and has been uninstalled: " ++ err

/-- Drop the record of the call's name and log it. -/
def remove (s : State) (c : Nat) (call : Call) (r : Release) : State :=
  { s with
    store := Function.update s.store call.args.name none
    deleted := ⟨c, call.before, r⟩ :: s.deleted }

/-- `DeleteRelease` of the call's name, after an install that failed with `err`. -/
def stepDelete (s : State) (c : Nat) (call : Call) (err : String) : UninstallOutcome → Option State
  | .ok =>
      match s.store call.args.name with
      | none => none
      | some r => some (setCall (remove s c call r) c { call with
          phase := .returned (.error (deleteMessage call.args.name err none)) })
  | .error e removed =>
      let call' := { call with
        phase := .returned (.error (deleteMessage call.args.name err (some e))) }
      match s.store call.args.name, removed with
      | some r, true => some (setCall (remove s c call r) c call')
      | _, _ => some (setCall s c call')

/-- One step of one call. -/
def step (deps : Deps) (s : State) : Label → Option State
  | .getRelease c err => do
      let call ← s.calls[c]?
      if call.phase = .getRelease then stepGet s c call err else none
  | .prepare c => do
      let call ← s.calls[c]?
      if call.phase = .prepare then some (stepPrepare deps s c call) else none
  | .install c out => do
      let call ← s.calls[c]?
      if call.phase = .install then stepInstall s c call out else none
  | .deleteRelease c out => do
      let call ← s.calls[c]?
      match call.phase with
      | .deleteRelease err => stepDelete s c call err out
      | _ => none

/-! ## The property -/

/-- Removing `r` would hurt call `c`'s neighbours: it was there when `c` began, or another
    call installed it successfully. -/
def Protected (c : Nat) (before : Option Release) (r : Release) : Prop :=
  before = some r ∨ (r.status = .deployed ∧ ∃ d, d ≠ c ∧ r.origin = some d)

/-- No call has removed a record that existed before it or that another call installed
    successfully. -/
def Safe (s : State) : Prop :=
  ∀ d ∈ s.deleted, ¬ Protected d.call d.before d.release

/-- Call `d` has a failed install behind it and its `DeleteRelease` still to run. -/
def Compensating (call : Call) : Prop := ∃ err, call.phase = .deleteRelease err

/-- The condition on a step. An install runs only while its name is free or held by a
    record the call may remove (so `GetRelease` failed because there was no release, and
    nobody installed one since), and no install succeeds while another call of the same
    name has its `DeleteRelease` still to run. -/
def InstallsOwn (s : State) : Label → Prop
  | .install c out =>
      ∀ call, s.calls[c]? = some call →
        (∀ r, s.store call.args.name = some r → ¬ Protected c call.before r) ∧
        (out = .ok → ∀ d call', d ≠ c → s.calls[d]? = some call' →
          call'.args.name = call.args.name → ¬ Compensating call')
  | _ => True

/-! ## What a step can do -/

/-- The install of this call is still to come. -/
def BeforeInstall (call : Call) : Prop :=
  call.phase = .getRelease ∨ call.phase = .prepare ∨ call.phase = .install

/-- Everything a step does to the calls, the store and the log. `c` moves from `call` to
    `call'`; the arguments stay. -/
inductive Moves (s : State) (l : Label) (s' : State) (c : Nat) (call call' : Call) : Prop where
  | look (hp : BeforeInstall call) (hb : call'.before = s.store call.args.name)
      (hn : ¬ Compensating call') (hs : s'.store = s.store) (hd : s'.deleted = s.deleted)
  | prepare (hp : BeforeInstall call) (hb : call'.before = call.before)
      (hn : ¬ Compensating call') (hs : s'.store = s.store) (hd : s'.deleted = s.deleted)
  | installed (hp : BeforeInstall call) (hl : l = .install c .ok)
      (hf : s.store call.args.name = none) (hb : call'.before = call.before)
      (hn : ¬ Compensating call') (ha : ¬ BeforeInstall call')
      (hs : s'.store = Function.update s.store call.args.name (some ⟨some c, .deployed⟩))
      (hd : s'.deleted = s.deleted)
  | failed (hp : BeforeInstall call) (err : String) (hl : l = .install c (.error err false))
      (hb : call'.before = call.before) (ha : ¬ BeforeInstall call') (hs : s'.store = s.store)
      (hd : s'.deleted = s.deleted)
  | failedStored (hp : BeforeInstall call) (err : String)
      (hl : l = .install c (.error err true)) (hf : s.store call.args.name = none)
      (hb : call'.before = call.before) (ha : ¬ BeforeInstall call')
      (hs : s'.store = Function.update s.store call.args.name (some ⟨some c, .failed⟩))
      (hd : s'.deleted = s.deleted)
  | removed (hp : Compensating call) (r : Release) (hr : s.store call.args.name = some r)
      (hb : call'.before = call.before) (hn : ¬ Compensating call') (ha : ¬ BeforeInstall call')
      (hs : s'.store = Function.update s.store call.args.name none)
      (hd : s'.deleted = ⟨c, call.before, r⟩ :: s.deleted)
  | kept (hb : call'.before = call.before) (hn : ¬ Compensating call')
      (ha : ¬ BeforeInstall call') (hs : s'.store = s.store) (hd : s'.deleted = s.deleted)

theorem not_compensating_returned (a : Args) (b : Option Release) (res : Except String Release) :
    ¬ Compensating ⟨a, .returned res, b⟩ := by
  rintro ⟨err, h⟩
  cases h

theorem not_beforeInstall_returned (a : Args) (b : Option Release)
    (res : Except String Release) : ¬ BeforeInstall ⟨a, .returned res, b⟩ := by
  rintro (h | h | h) <;> cases h

theorem not_beforeInstall_deleteRelease (a : Args) (b : Option Release) (err : String) :
    ¬ BeforeInstall ⟨a, .deleteRelease err, b⟩ := by
  rintro (h | h | h) <;> cases h

/-- Inversion of `step`: one call moves, in one of the ways `Moves` lists. -/
theorem step_cases {deps : Deps} {s s' : State} {l : Label} (h : step deps s l = some s') :
    ∃ c call call', s.calls[c]? = some call ∧ s'.calls = s.calls.set c call' ∧
      call'.args = call.args ∧ Moves s l s' c call call' := by
  cases l with
  | getRelease c err =>
      simp only [step, Option.bind_eq_bind, Option.bind_eq_some_iff] at h
      obtain ⟨call, hc, h⟩ := h
      split at h
      · rename_i hp
        unfold stepGet at h
        cases err with
        | none =>
            dsimp only at h
            split at h
            · cases h
              exact ⟨c, call, _, hc, rfl, rfl,
                .look (Or.inl hp) rfl (not_compensating_returned _ _ _) rfl rfl⟩
            · cases h
        | some e =>
            cases h
            refine ⟨c, call, _, hc, rfl, rfl, .look (Or.inl hp) rfl ?_ rfl rfl⟩
            rintro ⟨err, h⟩
            cases h
      · cases h
  | prepare c =>
      simp only [step, Option.bind_eq_bind, Option.bind_eq_some_iff] at h
      obtain ⟨call, hc, h⟩ := h
      split at h
      · rename_i hp
        cases h
        unfold stepPrepare
        split
        · exact ⟨c, call, _, hc, rfl, rfl,
            .prepare (Or.inr (Or.inl hp)) rfl (not_compensating_returned _ _ _) rfl rfl⟩
        · split
          · exact ⟨c, call, _, hc, rfl, rfl,
              .prepare (Or.inr (Or.inl hp)) rfl (not_compensating_returned _ _ _) rfl rfl⟩
          · refine ⟨c, call, _, hc, rfl, rfl, .prepare (Or.inr (Or.inl hp)) rfl ?_ rfl rfl⟩
            rintro ⟨err, h⟩
            cases h
      · cases h
  | install c out =>
      simp only [step, Option.bind_eq_bind, Option.bind_eq_some_iff] at h
      obtain ⟨call, hc, h⟩ := h
      split at h
      · rename_i hp
        have hp' : BeforeInstall call := Or.inr (Or.inr hp)
        cases out with
        | ok =>
            simp only [stepInstall, Option.isNone_iff_eq_none] at h
            split at h
            · rename_i hf
              cases h
              exact ⟨c, call, _, hc, rfl, rfl, .installed hp' rfl hf rfl
                (not_compensating_returned _ _ _) (not_beforeInstall_returned _ _ _) rfl rfl⟩
            · cases h
        | error err stored =>
            cases stored with
            | false =>
                cases h
                exact ⟨c, call, _, hc, rfl, rfl, .failed hp' err rfl rfl
                  (not_beforeInstall_deleteRelease _ _ _) rfl rfl⟩
            | true =>
                simp only [stepInstall, Option.isNone_iff_eq_none] at h
                split at h
                · rename_i hf
                  cases h
                  exact ⟨c, call, _, hc, rfl, rfl, .failedStored hp' err rfl hf rfl
                    (not_beforeInstall_deleteRelease _ _ _) rfl rfl⟩
                · cases h
      · cases h
  | deleteRelease c out =>
      simp only [step, Option.bind_eq_bind, Option.bind_eq_some_iff] at h
      obtain ⟨call, hc, h⟩ := h
      split at h
      · rename_i err hp
        cases out with
        | ok =>
            simp only [stepDelete] at h
            split at h
            · cases h
            · rename_i r hr
              cases h
              exact ⟨c, call, _, hc, rfl, rfl, .removed ⟨err, hp⟩ r hr rfl
                (not_compensating_returned _ _ _) (not_beforeInstall_returned _ _ _) rfl rfl⟩
        | error e removed =>
            simp only [stepDelete] at h
            split at h
            · rename_i r hr
              cases h
              exact ⟨c, call, _, hc, rfl, rfl, .removed ⟨err, hp⟩ r hr rfl
                (not_compensating_returned _ _ _) (not_beforeInstall_returned _ _ _) rfl rfl⟩
            · cases h
              exact ⟨c, call, _, hc, rfl, rfl, .kept rfl
                (not_compensating_returned _ _ _) (not_beforeInstall_returned _ _ _) rfl rfl⟩
      · cases h

/-! ## The invariant of a schedule that meets the condition -/

/-- What every state of such a schedule satisfies: nothing protected was removed, the
    record of an install still to come is nowhere, and a call that is about to run its
    `DeleteRelease` finds nothing protected under its name. -/
structure Inv (s : State) : Prop where
  safe : Safe s
  freshStore : ∀ (c : Nat) (call : Call), s.calls[c]? = some call → BeforeInstall call →
    ∀ n r, s.store n = some r → r.origin ≠ some c
  freshBefore : ∀ (c : Nat) (call : Call), s.calls[c]? = some call → BeforeInstall call →
    ∀ (d : Nat) (x : Call) (r : Release), s.calls[d]? = some x → x.before = some r →
      r.origin ≠ some c
  own : ∀ (c : Nat) (call : Call), s.calls[c]? = some call → Compensating call →
    ∀ r, s.store call.args.name = some r → ¬ Protected c call.before r

theorem inv_init (store : String → Option Status) (args : List Args) :
    Inv (init store args) := by
  have hcall : ∀ (c : Nat) (call : Call), (init store args).calls[c]? = some call →
      call.phase = .getRelease ∧ call.before = none := by
    intro c call h
    simp only [init, List.getElem?_map, Option.map_eq_some_iff] at h
    obtain ⟨a, _, rfl⟩ := h
    exact ⟨rfl, rfl⟩
  refine ⟨?_, ?_, ?_, ?_⟩
  · intro d hd
    cases hd
  · intro c call _ _ n r hr
    simp only [init, Option.map_eq_some_iff] at hr
    obtain ⟨st, _, rfl⟩ := hr
    simp
  · intro c call _ _ d x r hd hb
    rw [(hcall d x hd).2] at hb
    cases hb
  · rintro c call hc ⟨err, hp⟩
    rw [(hcall c call hc).1] at hp
    cases hp

/-- A call of the state after a step is the one that moved or an old one. -/
theorem getElem?_set_cases {calls : List Call} {c d : Nat} {call' x : Call}
    (h : (calls.set c call')[d]? = some x) :
    (d = c ∧ x = call') ∨ (d ≠ c ∧ calls[d]? = some x) := by
  rw [List.getElem?_set] at h
  split at h
  · rename_i hcd
    split at h
    · cases h
      exact Or.inl ⟨hcd.symm, rfl⟩
    · cases h
  · rename_i hcd
    exact Or.inr ⟨fun e => hcd e.symm, h⟩

/-! ### One lemma for each field, about a step of call `c` from `call` to `call'` -/

section Step

variable {s s' : State} {c : Nat} {call call' : Call}

theorem freshStore_step (hi : Inv s) (hc : s.calls[c]? = some call)
    (hcalls : s'.calls = s.calls.set c call') (hp : BeforeInstall call' → BeforeInstall call)
    (hnew : ∀ n r, s'.store n = some r →
      s.store n = some r ∨ (r.origin = some c ∧ ¬ BeforeInstall call')) :
    ∀ (e : Nat) (x : Call), s'.calls[e]? = some x → BeforeInstall x →
      ∀ n r, s'.store n = some r → r.origin ≠ some e := by
  intro e x he hx n r hr
  rw [hcalls] at he
  rcases getElem?_set_cases he with ⟨rfl, rfl⟩ | ⟨hne, he⟩
  · rcases hnew n r hr with hr | ⟨_, hnb⟩
    · exact hi.freshStore e call hc (hp hx) n r hr
    · exact absurd hx hnb
  · rcases hnew n r hr with hr | ⟨ho, _⟩
    · exact hi.freshStore e x he hx n r hr
    · rw [ho]
      intro heq
      exact hne (Option.some.inj heq).symm

theorem freshBefore_step (hi : Inv s) (hc : s.calls[c]? = some call)
    (hcalls : s'.calls = s.calls.set c call') (hp : BeforeInstall call' → BeforeInstall call)
    (hb : call'.before = call.before ∨ call'.before = s.store call.args.name) :
    ∀ (e : Nat) (x : Call), s'.calls[e]? = some x → BeforeInstall x →
      ∀ (d : Nat) (y : Call) (r : Release), s'.calls[d]? = some y → y.before = some r →
        r.origin ≠ some e := by
  intro e x he hx d y r hd hy
  rw [hcalls] at he hd
  -- the old call behind `e` was before its install too
  obtain ⟨x0, he0, hx0⟩ : ∃ x0, s.calls[e]? = some x0 ∧ BeforeInstall x0 := by
    rcases getElem?_set_cases he with ⟨rfl, rfl⟩ | ⟨_, he⟩
    · exact ⟨call, hc, hp hx⟩
    · exact ⟨x, he, hx⟩
  rcases getElem?_set_cases hd with ⟨rfl, rfl⟩ | ⟨_, hd⟩
  · rcases hb with hb | hb
    · rw [hb] at hy
      exact hi.freshBefore e x0 he0 hx0 d call r hc hy
    · rw [hb] at hy
      exact hi.freshStore e x0 he0 hx0 _ r hy
  · exact hi.freshBefore e x0 he0 hx0 d y r hd hy

theorem own_step (hcalls : s'.calls = s.calls.set c call')
    (hmoved : Compensating call' → ∀ r, s'.store call'.args.name = some r →
      ¬ Protected c call'.before r)
    (hother : ∀ (d : Nat) (x : Call), d ≠ c → s.calls[d]? = some x → Compensating x →
      ∀ r, s'.store x.args.name = some r → ¬ Protected d x.before r) :
    ∀ (e : Nat) (x : Call), s'.calls[e]? = some x → Compensating x →
      ∀ r, s'.store x.args.name = some r → ¬ Protected e x.before r := by
  intro e x he hx r hr
  rw [hcalls] at he
  rcases getElem?_set_cases he with ⟨rfl, rfl⟩ | ⟨hne, he⟩
  · exact hmoved hx r hr
  · exact hother e x hne he hx r hr

/-- The record call `c`'s install stores is not protected from `c`, nor, when it is a
    failed one, from anybody: its install was still to come. -/
theorem not_protected_new (hi : Inv s) (hc : s.calls[c]? = some call)
    (hp : BeforeInstall call) {d : Nat} {x : Call} (hd : s.calls[d]? = some x) {st : Status}
    (hst : st = .failed ∨ d = c) : ¬ Protected d x.before ⟨some c, st⟩ := by
  rintro (hb | ⟨hs, e, hne, ho⟩)
  · exact hi.freshBefore c call hc hp d x _ hd hb rfl
  · rcases hst with rfl | rfl
    · cases hs
    · exact hne (Option.some.inj ho).symm

end Step

/-- A step that meets `InstallsOwn` keeps the invariant. -/
theorem inv_step {deps : Deps} {s s' : State} {l : Label} (hi : Inv s) (hok : InstallsOwn s l)
    (h : step deps s l = some s') : Inv s' := by
  obtain ⟨c, call, call', hc, hcalls, hargs, hm⟩ := step_cases h
  cases hm with
  | look hp hb hn hs hd =>
      refine ⟨?_, freshStore_step hi hc hcalls (fun _ => hp) ?_,
        freshBefore_step hi hc hcalls (fun _ => hp) (Or.inr hb), own_step hcalls ?_ ?_⟩
      · unfold Safe
        rw [hd]
        exact hi.safe
      · rw [hs]
        exact fun n r hr => Or.inl hr
      · exact fun hx => absurd hx hn
      · rw [hs]
        exact fun d x _ hx => hi.own d x hx
  | prepare hp hb hn hs hd =>
      refine ⟨?_, freshStore_step hi hc hcalls (fun _ => hp) ?_,
        freshBefore_step hi hc hcalls (fun _ => hp) (Or.inl hb), own_step hcalls ?_ ?_⟩
      · unfold Safe
        rw [hd]
        exact hi.safe
      · rw [hs]
        exact fun n r hr => Or.inl hr
      · exact fun hx => absurd hx hn
      · rw [hs]
        exact fun d x _ hx => hi.own d x hx
  | installed hp hl hf hb hn ha hs hd =>
      subst hl
      obtain ⟨_, hquiet⟩ := hok call hc
      refine ⟨?_, freshStore_step hi hc hcalls (fun _ => hp) ?_,
        freshBefore_step hi hc hcalls (fun _ => hp) (Or.inl hb), own_step hcalls ?_ ?_⟩
      · unfold Safe
        rw [hd]
        exact hi.safe
      · intro n r hr
        rw [hs, Function.update_apply] at hr
        split at hr
        · cases hr
          exact Or.inr ⟨rfl, ha⟩
        · exact Or.inl hr
      · exact fun hx => absurd hx hn
      · intro d x hne hd hx r hr
        have hname : x.args.name ≠ call.args.name :=
          fun he => hquiet rfl d x hne hd he hx
        rw [hs, Function.update_of_ne hname] at hr
        exact hi.own d x hd hx r hr
  | failed hp err hl hb ha hs hd =>
      subst hl
      obtain ⟨hmine, _⟩ := hok call hc
      refine ⟨?_, freshStore_step hi hc hcalls (fun _ => hp) ?_,
        freshBefore_step hi hc hcalls (fun _ => hp) (Or.inl hb), own_step hcalls ?_ ?_⟩
      · unfold Safe
        rw [hd]
        exact hi.safe
      · rw [hs]
        exact fun n r hr => Or.inl hr
      · rw [hs, hargs, hb]
        exact fun _ r hr => hmine r hr
      · rw [hs]
        exact fun d x _ hx => hi.own d x hx
  | failedStored hp err hl hf hb ha hs hd =>
      refine ⟨?_, freshStore_step hi hc hcalls (fun _ => hp) ?_,
        freshBefore_step hi hc hcalls (fun _ => hp) (Or.inl hb), own_step hcalls ?_ ?_⟩
      · unfold Safe
        rw [hd]
        exact hi.safe
      · intro n r hr
        rw [hs, Function.update_apply] at hr
        split at hr
        · cases hr
          exact Or.inr ⟨rfl, ha⟩
        · exact Or.inl hr
      · intro _ r hr
        rw [hs, hargs, Function.update_self] at hr
        cases hr
        rw [hb]
        exact not_protected_new hi hc hp hc (Or.inl rfl)
      · intro d x _ hd' hx r hr
        rw [hs, Function.update_apply] at hr
        split at hr
        · cases hr
          exact not_protected_new hi hc hp hd' (Or.inl rfl)
        · exact hi.own d x hd' hx r hr
  | removed hp r hr hb hn ha hs hd =>
      refine ⟨?_, freshStore_step hi hc hcalls (fun hx => absurd hx ha) ?_,
        freshBefore_step hi hc hcalls (fun hx => absurd hx ha) (Or.inl hb),
        own_step hcalls ?_ ?_⟩
      · intro d hmem
        rw [hd] at hmem
        rcases List.mem_cons.mp hmem with rfl | hmem
        · exact hi.own c call hc hp r hr
        · exact hi.safe d hmem
      · intro n r' hr'
        rw [hs, Function.update_apply] at hr'
        split at hr'
        · cases hr'
        · exact Or.inl hr'
      · exact fun hx => absurd hx hn
      · intro d x _ hd' hx r' hr'
        rw [hs, Function.update_apply] at hr'
        split at hr'
        · cases hr'
        · exact hi.own d x hd' hx r' hr'
  | kept hb hn ha hs hd =>
      refine ⟨?_, freshStore_step hi hc hcalls (fun hx => absurd hx ha) ?_,
        freshBefore_step hi hc hcalls (fun hx => absurd hx ha) (Or.inl hb),
        own_step hcalls ?_ ?_⟩
      · unfold Safe
        rw [hd]
        exact hi.safe
      · rw [hs]
        exact fun n r hr => Or.inl hr
      · exact fun hx => absurd hx hn
      · rw [hs]
        exact fun d x _ hx => hi.own d x hx

/-! ## Results -/

/-- **No foreign release is lost on a schedule that meets the condition.** From any release
    store and for any number of calls, if no install runs on a name held by a record
    protected from its call and none succeeds while another call of that name has its
    `DeleteRelease` still to run, then no call has removed a release that existed before it
    or that another call installed. -/
theorem safe_of_installs_own (deps : Deps) (store : String → Option Status) (args : List Args)
    (as : List Label) (s : State) (hm : StepsMeet (step deps) InstallsOwn (init store args) as)
    (hr : runs (step deps) (init store args) as = some s) : Safe s := by
  have hstep : ∀ s l s', Inv s → InstallsOwn s l → step deps s l = some s' → Inv s' :=
    fun _ _ _ hi hok h => inv_step hi hok h
  exact (runs_invariant_of_meet hstep hm hr (inv_init store args)).safe

/-- Both local calls succeed on every argument. -/
def acceptAll : Deps := ⟨fun _ => .ok (), fun _ => .ok ()⟩

def appArgs : Args := ⟨"app", "", []⟩

/-- One call whose install fails and leaves a failed record, on an empty store. -/
def failedInstall : List Label :=
  [.getRelease 0 (some "release: not found"), .prepare 0,
    .install 0 (.error "timed out waiting for the condition" true), .deleteRelease 0 .ok]

theorem safe_of_installs_own_failed_install :
    StepsMeet (step acceptAll) InstallsOwn (init (fun _ => none) [appArgs]) failedInstall ∧
      ∃ s, runs (step acceptAll) (init (fun _ => none) [appArgs]) failedInstall = some s ∧
        s.deleted = [⟨0, none, ⟨some 0, .failed⟩⟩] ∧ Safe s := by
  have hm : StepsMeet (step acceptAll) InstallsOwn (init (fun _ => none) [appArgs])
      failedInstall := by
    refine ⟨trivial, ?_⟩
    rintro s1 ⟨⟩
    refine ⟨trivial, ?_⟩
    rintro s2 ⟨⟩
    refine ⟨?_, ?_⟩
    · rintro call ⟨⟩
      refine ⟨fun r hr => ?_, fun h => ?_⟩
      · exact absurd (show (none : Option Release) = some r from hr) (by simp)
      · exact absurd h (by simp)
    · rintro s3 ⟨⟩
      exact ⟨trivial, fun _ _ => trivial⟩
  exact ⟨hm, _, rfl, rfl, safe_of_installs_own _ _ _ _ _ hm rfl⟩

/-- Two users install "app" at once. The second finds the name taken and uninstalls the
    release of the first. -/
def race : List Label :=
  [.getRelease 0 (some "release: not found"), .getRelease 1 (some "release: not found"),
    .prepare 0, .prepare 1, .install 0 .ok,
    .install 1 (.error "cannot re-use a name that is still in use" false),
    .deleteRelease 1 .ok]

/-- One user, a release "app" in the store, and a `GetRelease` that fails for a reason
    other than "not found". -/
def transientError : List Label :=
  [.getRelease 0 (some "etcdserver: request timed out"), .prepare 0,
    .install 0 (.error "cannot re-use a name that is still in use" false),
    .deleteRelease 0 .ok]

/-- Both ways to lose a release: the loser of a race uninstalls the winner's, and a call
    whose `GetRelease` failed on a live release uninstalls that release. -/
theorem createRelease_deletes_foreign :
    (∃ s, runs (step acceptAll) (init (fun _ => none) [appArgs, appArgs]) race = some s ∧
      ¬ Safe s) ∧
    (∃ s, runs (step acceptAll) (init (fun _ => some .deployed) [appArgs]) transientError =
      some s ∧ ¬ Safe s) := by
  constructor
  · refine ⟨_, rfl, fun hs => ?_⟩
    exact hs ⟨1, none, ⟨some 0, .deployed⟩⟩ (by decide)
      (Or.inr ⟨rfl, 0, by decide, rfl⟩)
  · refine ⟨_, rfl, fun hs => ?_⟩
    exact hs ⟨0, some ⟨none, .deployed⟩, ⟨none, .deployed⟩⟩ (by decide) (Or.inl rfl)

/-- A `DeleteRelease` that succeeds removes whatever holds the name of its call. -/
theorem step_deleteRelease_ok (deps : Deps) {s : State} {c : Nat} {call : Call} {err : String}
    {r : Release} (hc : s.calls[c]? = some call) (hp : call.phase = .deleteRelease err)
    (hr : s.store call.args.name = some r) :
    ∃ t, step deps s (.deleteRelease c .ok) = some t ∧
      t.deleted = ⟨c, call.before, r⟩ :: s.deleted := by
  refine ⟨setCall (remove s c call r) c { call with
    phase := .returned (.error (deleteMessage call.args.name err none)) }, ?_, rfl⟩
  simp [step, hc, hp, stepDelete, hr]

/-- The condition cannot be weakened: after a step outside it, one `DeleteRelease` that
    succeeds removes a protected release. -/
theorem installsOwn_exact {deps : Deps} {s s' : State} {l : Label}
    (h : step deps s l = some s') (hbad : ¬ InstallsOwn s l) :
    ∃ c t, step deps s' (.deleteRelease c .ok) = some t ∧ ¬ Safe t := by
  cases l with
  | getRelease c err => exact absurd trivial hbad
  | prepare c => exact absurd trivial hbad
  | deleteRelease c out => exact absurd trivial hbad
  | install c out =>
      simp only [step, Option.bind_eq_bind, Option.bind_eq_some_iff] at h
      obtain ⟨call, hc, h⟩ := h
      split at h
      case isFalse => cases h
      have hlt : c < s.calls.length := (List.getElem?_eq_some_iff.mp hc).1
      simp only [InstallsOwn, hc, Option.some.injEq, forall_eq', not_and_or, not_forall,
        not_not] at hbad
      rcases hbad with ⟨r, hr, hprot⟩ | ⟨rfl, d, x, hne, hd, hname, err, hphase⟩
      · -- the name is held by a protected record, so the install fails and stores nothing
        obtain ⟨err, rfl⟩ : ∃ err, out = .error err false := by
          cases out with
          | ok => simp [stepInstall, hr] at h
          | error err stored =>
              cases stored with
              | false => exact ⟨err, rfl⟩
              | true => simp [stepInstall, hr] at h
        cases h
        have hcall : (setCall s c { call with phase := .deleteRelease err }).calls[c]? =
            some { call with phase := .deleteRelease err } := List.getElem?_set_self hlt
        obtain ⟨t, ht, hdel⟩ := step_deleteRelease_ok deps hcall rfl hr
        exact ⟨c, t, ht, fun hs => hs _ (hdel ▸ List.mem_cons_self) hprot⟩
      · -- `d` is about to run its `DeleteRelease`, and finds the release just installed
        simp only [stepInstall] at h
        split at h
        case isFalse => cases h
        cases h
        have hcall : (setCall (put s call.args.name ⟨some c, .deployed⟩) c
            { call with phase := .returned (.ok ⟨some c, .deployed⟩) }).calls[d]? = some x := by
          simp only [setCall, put, List.getElem?_set_ne hne.symm, hd]
        have hstore : (setCall (put s call.args.name ⟨some c, .deployed⟩) c
            { call with phase := .returned (.ok ⟨some c, .deployed⟩) }).store x.args.name =
              some ⟨some c, .deployed⟩ := by
          simp only [setCall, put, hname, Function.update_self]
        obtain ⟨t, ht, hdel⟩ := step_deleteRelease_ok deps hcall hphase hstore
        exact ⟨d, t, ht, fun hs => hs _ (hdel ▸ List.mem_cons_self)
          (Or.inr ⟨rfl, c, hne.symm, rfl⟩)⟩

end Kubeapps.Agent
