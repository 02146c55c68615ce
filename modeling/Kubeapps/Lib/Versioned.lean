/-
  Optimistic concurrency: objects with a version, which an update has to name.

  Every write gives the object a version that was never given before. An update is two requests: the
  object is read, and what is made of it is written if the object still has the version that was
  read. A deletion reads the object too and then deletes whatever is there. Any number of calls is
  under way at once; a request can be refused, and a call that fails has written nothing.

  * `linearizable`: in every run the objects are those of the writes in their order, each made at
    once and without the others in between, and these are the writes of the calls that are done.
  * `log_prefix`: this order is one that the order of the calls allows.
-/
import Kubeapps.Lib.Steps
import Mathlib.Logic.Function.Basic

namespace Kubeapps.Lib

structure Versioned (α : Type) where
  version : Nat
  object : α

/-- What a call writes. `reject` is a call that makes no request. -/
inductive VersionedWrite (κ α : Type) where
  | reject
  | create (k : κ) (x : α)
  | update (k : κ) (f : α → α)
  | delete (k : κ)

/-- Where a call stands: before its first request, after it has read an object, or at the end. -/
inductive WriteStage (α ω : Type) where
  | started (op : ω)
  | read (op : ω) (seen : Versioned α)
  | written (op : ω)
  | failed (op : ω)

/-- The server, the calls and, in their order, the writes that were made. `next` is the version of
    the next one. -/
structure VersionedStore (κ α ω : Type) where
  objects : κ → Option (Versioned α)
  next : Nat
  calls : List (WriteStage α ω)
  log : List ω

/-- A new call, a request of the call `i`, or a request of it that is refused. -/
inductive VersionedLabel (ω : Type) where
  | call (op : ω)
  | request (i : Nat)
  | refuse (i : Nat)

variable {κ α ω : Type} [DecidableEq κ]

/-- The write, made at once. -/
def VersionedWrite.apply (w : VersionedWrite κ α) (objects : κ → Option α) : κ → Option α :=
  match w with
  | reject => objects
  | create k x => Function.update objects k (some x)
  | update k f => Function.update objects k ((objects k).map f)
  | delete k => Function.update objects k none

/-- The writes one after the other. -/
def replay (write : ω → VersionedWrite κ α) (objects : κ → Option α) (log : List ω) :
    κ → Option α :=
  log.foldl (fun objects op => (write op).apply objects) objects

namespace VersionedStore

/-- The objects without their versions. -/
def view (s : VersionedStore κ α ω) (k : κ) : Option α := (s.objects k).map Versioned.object

/-- The call `i` goes on to `stage`. -/
def go (s : VersionedStore κ α ω) (i : Nat) (stage : WriteStage α ω) : VersionedStore κ α ω :=
  { s with calls := s.calls.set i stage }

/-- The call `i` writes `object` to `k` and is done. -/
def put (s : VersionedStore κ α ω) (i : Nat) (op : ω) (k : κ) (object : Option α) :
    VersionedStore κ α ω where
  objects := Function.update s.objects k (object.map fun x => ⟨s.next, x⟩)
  next := s.next + 1
  calls := s.calls.set i (.written op)
  log := s.log ++ [op]

/-- The first request. -/
def start (write : ω → VersionedWrite κ α) (s : VersionedStore κ α ω) (i : Nat) (op : ω) :
    VersionedStore κ α ω :=
  match write op with
  | .reject => s.go i (.failed op)
  | .create k x =>
      match s.objects k with
      | some _ => s.go i (.failed op)
      | none => s.put i op k (some x)
  | .update k _ | .delete k =>
      match s.objects k with
      | some v => s.go i (.read op v)
      | none => s.go i (.failed op)

/-- The request after an object was read. -/
def finish (write : ω → VersionedWrite κ α) (s : VersionedStore κ α ω) (i : Nat) (op : ω)
    (seen : Versioned α) : VersionedStore κ α ω :=
  match write op with
  | .update k f =>
      match s.objects k with
      -- a conflict, if the object was written in the meantime
      | some v => if v.version = seen.version then s.put i op k (some (f seen.object))
          else s.go i (.failed op)
      | none => s.go i (.failed op)
  | .delete k =>
      match s.objects k with
      | some _ => s.put i op k none
      | none => s.go i (.failed op)
  | .reject | .create _ _ => s.go i (.failed op)

def step (write : ω → VersionedWrite κ α) (s : VersionedStore κ α ω) :
    VersionedLabel ω → Option (VersionedStore κ α ω)
  | .call op => some { s with calls := s.calls ++ [.started op] }
  | .request i =>
      match s.calls[i]? with
      | some (.started op) => some (s.start write i op)
      | some (.read op seen) => some (s.finish write i op seen)
      | _ => none
  | .refuse i =>
      match s.calls[i]? with
      | some (.started op) | some (.read op _) => some (s.go i (.failed op))
      | _ => none

/-- Objects with versions below `next`, and no call. -/
structure Fresh (s : VersionedStore κ α ω) : Prop where
  versions : ∀ k v, s.objects k = some v → v.version < s.next
  calls : s.calls = []
  log : s.log = []

/-! ## What a step does -/

/-- The call `i` has still to make a request. -/
def Open (s : VersionedStore κ α ω) (i : Nat) (op : ω) : Prop :=
  s.calls[i]? = some (.started op) ∨ ∃ seen, s.calls[i]? = some (.read op seen)

/-- A call begins, fails, reads an object or makes its write at once. -/
inductive Moves (write : ω → VersionedWrite κ α) (s : VersionedStore κ α ω) :
    VersionedStore κ α ω → Prop where
  | called (op : ω) : Moves write s { s with calls := s.calls ++ [.started op] }
  | failed {i : Nat} {op : ω} (hopen : s.Open i op) : Moves write s (s.go i (.failed op))
  | read {i : Nat} {op : ω} {k : κ} {v : Versioned α} (hopen : s.Open i op)
      (hobject : s.objects k = some v)
      (hkey : ∀ k' f, write op = .update k' f → k' = k) : Moves write s (s.go i (.read op v))
  | put {i : Nat} {op : ω} {k : κ} {object : Option α} (hopen : s.Open i op)
      (happly : Function.update s.view k object = (write op).apply s.view) :
      Moves write s (s.put i op k object)

/-- An object that still has the version that a call has read is the object that it has read. -/
def Current (write : ω → VersionedWrite κ α) (s : VersionedStore κ α ω) (op : ω)
    (seen : Versioned α) : Prop :=
  ∀ k f v, write op = .update k f → s.objects k = some v → v.version = seen.version →
    v.object = seen.object

section Step

variable {write : ω → VersionedWrite κ α} {s s' : VersionedStore κ α ω} {i : Nat} {op : ω}

omit [DecidableEq κ] in
theorem view_of_objects {k : κ} {v : Versioned α} (h : s.objects k = some v) :
    s.view k = some v.object := by
  rw [view, h]
  rfl

theorem moves_start (hopen : s.Open i op) : Moves write s (s.start write i op) := by
  unfold start
  split
  · exact .failed hopen
  · rename_i k x hwrite
    split
    · exact .failed hopen
    · refine .put hopen ?_
      rw [hwrite]
      rfl
  · rename_i k f hwrite
    split
    · rename_i v hobject
      refine .read hopen hobject fun k' f' h => ?_
      rw [hwrite] at h
      cases h
      rfl
    · exact .failed hopen
  · rename_i k hwrite
    split
    · rename_i v hobject
      refine .read hopen hobject fun k' f' h => ?_
      rw [hwrite] at h
      cases h
    · exact .failed hopen

theorem moves_finish {seen : Versioned α} (hopen : s.Open i op) (hcurrent : Current write s op seen) :
    Moves write s (s.finish write i op seen) := by
  unfold finish
  split
  · rename_i k f hwrite
    split
    · rename_i v hobject
      split
      · rename_i hversion
        refine .put hopen ?_
        rw [hwrite]
        dsimp only [VersionedWrite.apply]
        rw [view_of_objects hobject, hcurrent k f v hwrite hobject hversion]
        rfl
      · exact .failed hopen
    · exact .failed hopen
  · rename_i k hwrite
    split
    · refine .put hopen ?_
      rw [hwrite]
      rfl
    · exact .failed hopen
  · exact .failed hopen
  · exact .failed hopen

theorem moves_of_step {l : VersionedLabel ω}
    (hcurrent : ∀ op seen, .read op seen ∈ s.calls → Current write s op seen)
    (h : s.step write l = some s') : Moves write s s' := by
  cases l with
  | call op =>
      obtain rfl := Option.some.inj h
      exact .called op
  | request i =>
      simp only [step] at h
      split at h
      · rename_i op hi
        obtain rfl := Option.some.inj h
        exact moves_start (.inl hi)
      · rename_i op seen hi
        obtain rfl := Option.some.inj h
        exact moves_finish (.inr ⟨seen, hi⟩) (hcurrent op seen (List.mem_of_getElem? hi))
      · cases h
  | refuse i =>
      simp only [step] at h
      split at h
      · rename_i op hi
        obtain rfl := Option.some.inj h
        exact .failed (.inl hi)
      · rename_i op seen hi
        obtain rfl := Option.some.inj h
        exact .failed (.inr ⟨seen, hi⟩)
      · cases h

end Step

end VersionedStore

/-! ## Every run -/

/-- The operation of a call that has made its write. -/
def WriteStage.written? : WriteStage α ω → Option ω
  | .written op => some op
  | _ => none

/-- An entry that yields nothing is replaced. -/
theorem perm_filterMap_set {β γ : Type} {f : β → Option γ} {l : List β} {i : Nat} {a b : β}
    (hi : l[i]? = some a) (ha : f a = none) :
    ((l.set i b).filterMap f).Perm ((f b).toList ++ l.filterMap f) := by
  induction l generalizing i with
  | nil => cases hi
  | cons c l ih =>
      cases i with
      | zero =>
          obtain rfl : c = a := Option.some.inj hi
          rw [List.set_cons_zero, List.filterMap_cons_none ha]
          cases hb : f b with
          | none => rw [List.filterMap_cons_none hb]; exact List.Perm.refl _
          | some d => rw [List.filterMap_cons_some hb]; exact List.Perm.refl _
      | succ i =>
          have hrest := ih hi
          rw [List.set_cons_succ]
          cases hc : f c with
          | none =>
              rw [List.filterMap_cons_none hc, List.filterMap_cons_none hc]
              exact hrest
          | some d =>
              rw [List.filterMap_cons_some hc, List.filterMap_cons_some hc]
              exact (hrest.cons d).trans List.perm_middle.symm

namespace VersionedStore

/-- `objects₀` are the objects before the first call. -/
structure Inv (write : ω → VersionedWrite κ α) (objects₀ : κ → Option α)
    (s : VersionedStore κ α ω) : Prop where
  versions : ∀ k v, s.objects k = some v → v.version < s.next
  seen : ∀ op seen, .read op seen ∈ s.calls → seen.version < s.next ∧ Current write s op seen
  replayed : s.view = replay write objects₀ s.log
  written : s.log.Perm (s.calls.filterMap WriteStage.written?)

section Runs

variable {write : ω → VersionedWrite κ α} {objects₀ : κ → Option α} {s s' : VersionedStore κ α ω}
  {i : Nat} {op : ω}

theorem inv_fresh (h : s.Fresh) : s.Inv write s.view where
  versions := h.versions
  seen := by
    intro op seen hmem
    rw [h.calls] at hmem
    cases hmem
  replayed := by
    rw [h.log]
    rfl
  written := by
    rw [h.log, h.calls]
    exact List.Perm.refl _

omit [DecidableEq κ] in
/-- A call that is open has not written. -/
theorem Open.exists_stage (h : s.Open i op) :
    ∃ stage, s.calls[i]? = some stage ∧ stage.written? = none := by
  rcases h with h | ⟨seen, h⟩
  · exact ⟨_, h, rfl⟩
  · exact ⟨_, h, rfl⟩

omit [DecidableEq κ] in
theorem perm_calls_set (h : s.Open i op) (stage : WriteStage α ω) :
    ((s.calls.set i stage).filterMap WriteStage.written?).Perm
      (stage.written?.toList ++ s.calls.filterMap WriteStage.written?) := by
  obtain ⟨old, hold, hnone⟩ := h.exists_stage
  exact perm_filterMap_set hold hnone

omit [DecidableEq κ] in
/-- A call that goes on without a write. -/
theorem perm_calls_go (h : s.Open i op) {stage : WriteStage α ω} (hstage : stage.written? = none) :
    ((s.calls.set i stage).filterMap WriteStage.written?).Perm
      (s.calls.filterMap WriteStage.written?) := by
  have hset := perm_calls_set h stage
  rw [hstage] at hset
  exact hset

theorem view_put (object : Option α) (k : κ) :
    (s.put i op k object).view = Function.update s.view k object := by
  funext k'
  simp only [view, put]
  by_cases hk : k' = k
  · subst hk
    rw [Function.update_self, Function.update_self, Option.map_map]
    cases object <;> rfl
  · rw [Function.update_of_ne hk, Function.update_of_ne hk]
    rfl

/-- A write gives its object a version that no call has read. -/
theorem current_put {op' : ω} {seen : Versioned α} {k : κ} {object : Option α}
    (hseen : seen.version < s.next) (h : Current write s op' seen) :
    Current write (s.put i op k object) op' seen := by
  intro k' f v hwrite hobject hversion
  simp only [put] at hobject
  by_cases hk : k' = k
  · rw [hk, Function.update_self] at hobject
    obtain ⟨x, _, hx⟩ := Option.map_eq_some_iff.mp hobject
    rw [← hx] at hversion
    exact absurd hversion (Nat.ne_of_gt hseen)
  · rw [Function.update_of_ne hk] at hobject
    exact h k' f v hwrite hobject hversion

theorem inv_moves (hinv : s.Inv write objects₀) (h : Moves write s s') : s'.Inv write objects₀ := by
  cases h with
  | called op =>
      refine ⟨hinv.versions, fun op' seen hmem => ?_, hinv.replayed, ?_⟩
      · rcases List.mem_append.mp hmem with hmem | hmem
        · exact hinv.seen op' seen hmem
        · cases List.mem_singleton.mp hmem
      · rw [List.filterMap_append]
        change s.log.Perm (_ ++ [])
        rw [List.append_nil]
        exact hinv.written
  | failed hopen =>
      refine ⟨hinv.versions, fun op' seen hmem => ?_, hinv.replayed, ?_⟩
      · rcases List.mem_or_eq_of_mem_set hmem with hmem | hmem
        · exact hinv.seen op' seen hmem
        · cases hmem
      · exact hinv.written.trans (perm_calls_go hopen rfl).symm
  | @read i op k v hopen hobject hkey =>
      refine ⟨hinv.versions, fun op' seen hmem => ?_, hinv.replayed, ?_⟩
      · rcases List.mem_or_eq_of_mem_set hmem with hmem | hmem
        · exact hinv.seen op' seen hmem
        · cases hmem
          refine ⟨hinv.versions k v hobject, fun k' f v' hwrite hobject' _ => ?_⟩
          rw [hkey k' f hwrite, show (s.go i _).objects = s.objects from rfl, hobject] at hobject'
          rw [Option.some.inj hobject']
      · exact hinv.written.trans (perm_calls_go hopen rfl).symm
  | @put i op k object hopen happly =>
      refine ⟨fun k' v hobject => ?_, fun op' seen hmem => ?_, ?_, ?_⟩
      · simp only [put] at hobject ⊢
        by_cases hk : k' = k
        · rw [hk, Function.update_self] at hobject
          obtain ⟨x, _, hx⟩ := Option.map_eq_some_iff.mp hobject
          rw [← hx]
          exact Nat.lt_succ_self _
        · rw [Function.update_of_ne hk] at hobject
          exact Nat.lt_succ_of_lt (hinv.versions k' v hobject)
      · rcases List.mem_or_eq_of_mem_set hmem with hmem | hmem
        · obtain ⟨hlt, hcurrent⟩ := hinv.seen op' seen hmem
          exact ⟨Nat.lt_succ_of_lt hlt, current_put hlt hcurrent⟩
        · cases hmem
      · rw [view_put, happly, hinv.replayed]
        simp [put, replay]
      · have hset := perm_calls_set hopen (.written op)
        exact ((List.perm_append_singleton op s.log).trans (hinv.written.cons op)).trans hset.symm

theorem inv_step {l : VersionedLabel ω} (hinv : s.Inv write objects₀)
    (h : s.step write l = some s') : s'.Inv write objects₀ :=
  inv_moves hinv (moves_of_step (fun op seen hmem => (hinv.seen op seen hmem).2) h)

/-- **Linearizability.** In every interleaving of the calls, whatever is refused, the objects are
    those that the writes of the log leave, each made at once and in this order, and the log has
    exactly one entry for each call that is done with its write. -/
theorem linearizable {s₀ : VersionedStore κ α ω} {ls : List (VersionedLabel ω)} (h₀ : s₀.Fresh)
    (hr : runs (step write) s₀ ls = some s) :
    s.view = replay write s₀.view s.log ∧
      s.log.Perm (s.calls.filterMap WriteStage.written?) := by
  have hinv : s.Inv write s₀.view :=
    runs_invariant (fun _ _ _ hi hs => inv_step hi hs) hr (inv_fresh h₀)
  exact ⟨hinv.replayed, hinv.written⟩

/-- The log is only added to: a call that is done before another one begins is before it. -/
theorem log_prefix {s₀ : VersionedStore κ α ω} {ls : List (VersionedLabel ω)}
    (hinv : s₀.Inv write objects₀) (hr : runs (step write) s₀ ls = some s) : s₀.log <+: s.log := by
  have hstep : ∀ s l s', s.Inv write objects₀ ∧ s₀.log <+: s.log → step write s l = some s' →
      s'.Inv write objects₀ ∧ s₀.log <+: s'.log := by
    intro s l s' hi hs
    refine ⟨inv_step hi.1 hs, ?_⟩
    cases moves_of_step (fun op seen hmem => (hi.1.seen op seen hmem).2) hs with
    | called op => exact hi.2
    | failed hopen => exact hi.2
    | read hopen hobject hkey => exact hi.2
    | put hopen happly => exact hi.2.trans (List.prefix_append _ _)
  exact (runs_invariant hstep hr ⟨hinv, List.prefix_refl _⟩).2

end Runs

end VersionedStore

end Kubeapps.Lib
