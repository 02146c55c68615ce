/-
  Asynchronous calls that dispatch actions to one store.

  A thunk dispatches actions, starts other thunks and waits for answers. The thunks of a page share
  the store and move in any order, one dispatch or one answer at a time; `reduce` is the store's
  reducer. A thunk that waits has one or several calls out and goes on with the first answer; what
  a call answers is in the label. A wait takes the answers it `accepts`, so that one type has the
  answers to all calls.

  An action can put the store into a state that a later one is to end (`P`: something is shown as
  loading). A thunk `Clears` it if it dispatches such an action before it returns, whatever the
  answers are; it is `Tidy` if it clears what it has set.

  * `clears_of_runs`: if all thunks are tidy, some running thunk clears `P` as long as it holds.
  * `ok` leaves out answers after which a thunk is not tidy.
-/
import Kubeapps.Lib.Steps

namespace Kubeapps.Lib

inductive Thunk (κ α ρ : Type) where
  | ret
  | dispatch (a : α) (rest : Thunk κ α ρ)
  | start (thunk rest : Thunk κ α ρ)
  | wait (calls : List κ) (accepts : ρ → Bool) (next : Nat → ρ → Thunk κ α ρ)

/-- The store and the thunks that were started, in their order. -/
structure Thunks (σ κ α ρ : Type) where
  store : σ
  running : List (Thunk κ α ρ)

/-- A thunk is started or an action dispatched from outside, thunk `i` goes on, or its call `j` is
    answered. -/
inductive ThunksLabel (ι α ρ : Type) where
  | start (i : ι)
  | dispatch (a : α)
  | go (i : Nat)
  | answer (i j : Nat) (r : ρ)

namespace Thunk

variable {κ α ρ γ : Type}

/-- Calls whose answers are those that `get` finds a result in. -/
def calls (queries : List κ) (get : ρ → Option γ) (next : Nat → γ → Thunk κ α ρ) :
    Thunk κ α ρ :=
  wait queries (fun r => (get r).isSome) fun j r =>
    match get r with
    | some x => next j x
    | none => ret

def call (query : κ) (get : ρ → Option γ) (next : γ → Thunk κ α ρ) : Thunk κ α ρ :=
  calls [query] get fun _ => next

/-- `request` is dispatched, and after the answer `receive` or `fail`. -/
def attempt {ε : Type} (request : α) (query : κ) (get : ρ → Option (Except ε γ)) (receive : γ → α)
    (fail : ε → α) : Thunk κ α ρ :=
  dispatch request <| call query get fun
    | .ok x => dispatch (receive x) ret
    | .error err => dispatch (fail err) ret

/-- An action of `clears` is dispatched before the thunk returns. -/
def Clears (ok : ρ → Prop) (clears : α → Prop) : Thunk κ α ρ → Prop
  | ret => False
  | dispatch a rest => clears a ∨ rest.Clears ok clears
  | start _ rest => rest.Clears ok clears
  | wait calls accepts next =>
      ∀ j r, j < calls.length → accepts r = true → ok r → (next j r).Clears ok clears

/-- After an action of `sets` there is one of `clears`. -/
def Tidy (ok : ρ → Prop) (sets clears : α → Prop) : Thunk κ α ρ → Prop
  | ret => True
  | dispatch a rest => (sets a → rest.Clears ok clears) ∧ rest.Tidy ok sets clears
  | start thunk rest => thunk.Tidy ok sets clears ∧ rest.Tidy ok sets clears
  | wait calls accepts next =>
      ∀ j r, j < calls.length → accepts r = true → ok r → (next j r).Tidy ok sets clears

section Call

variable {ok : ρ → Prop} {sets clears : α → Prop} {queries : List κ} {query : κ}
  {get : ρ → Option γ} {next : Nat → γ → Thunk κ α ρ} {rest : γ → Thunk κ α ρ}

theorem clears_calls (h : ∀ j r x, j < queries.length → get r = some x → ok r →
    (next j x).Clears ok clears) : (calls queries get next).Clears ok clears := by
  intro j r hj hr hok
  obtain ⟨x, hx⟩ := Option.isSome_iff_exists.mp hr
  dsimp only
  rw [hx]
  exact h j r x hj hx hok

theorem tidy_calls (h : ∀ j r x, j < queries.length → get r = some x → ok r →
    (next j x).Tidy ok sets clears) : (calls queries get next).Tidy ok sets clears := by
  intro j r hj hr hok
  obtain ⟨x, hx⟩ := Option.isSome_iff_exists.mp hr
  dsimp only
  rw [hx]
  exact h j r x hj hx hok

theorem clears_call (h : ∀ r x, get r = some x → ok r → (rest x).Clears ok clears) :
    (call query get rest).Clears ok clears :=
  clears_calls fun _ r x _ hx hok => h r x hx hok

theorem tidy_call (h : ∀ r x, get r = some x → ok r → (rest x).Tidy ok sets clears) :
    (call query get rest).Tidy ok sets clears :=
  tidy_calls fun _ r x _ hx hok => h r x hx hok

/-- What `request` sets, both answers clear. -/
theorem tidy_attempt {ε : Type} {request : α} {get : ρ → Option (Except ε γ)} {receive : γ → α}
    {fail : ε → α} (hreceive : ∀ x, ¬ sets (receive x) ∧ (sets request → clears (receive x)))
    (hfail : ∀ err, ¬ sets (fail err) ∧ (sets request → clears (fail err))) :
    (attempt request query get receive fail).Tidy ok sets clears := by
  refine ⟨fun hset => clears_call fun r x _ _ => ?_, tidy_call fun r x _ _ => ?_⟩
  · cases x with
    | ok x => exact .inl ((hreceive x).2 hset)
    | error err => exact .inl ((hfail err).2 hset)
  · cases x with
    | ok x => exact ⟨fun h => absurd h (hreceive x).1, trivial⟩
    | error err => exact ⟨fun h => absurd h (hfail err).1, trivial⟩

end Call

end Thunk

namespace Thunks

variable {σ ι κ α ρ : Type}

/-- `thunks` are those that can be started from outside. -/
def step (reduce : σ → α → σ) (thunks : ι → Thunk κ α ρ) (s : Thunks σ κ α ρ) :
    ThunksLabel ι α ρ → Option (Thunks σ κ α ρ)
  | .start i => some { s with running := s.running ++ [thunks i] }
  | .dispatch a => some { s with store := reduce s.store a }
  | .go i =>
      match s.running[i]? with
      | some (.dispatch a rest) => some ⟨reduce s.store a, s.running.set i rest⟩
      | some (.start thunk rest) => some { s with running := s.running.set i rest ++ [thunk] }
      | _ => none
  | .answer i j r =>
      match s.running[i]? with
      | some (.wait calls accepts next) =>
          if j < calls.length ∧ accepts r = true then
            some { s with running := s.running.set i (next j r) }
          else none
      | _ => none

/-- Every thunk has returned. -/
def Done (s : Thunks σ κ α ρ) : Prop := ∀ t ∈ s.running, t = .ret

section Runs

variable {reduce : σ → α → σ} {thunks : ι → Thunk κ α ρ} {ok : ρ → Prop}
  {sets clears : α → Prop} {P : σ → Prop} {s s' : Thunks σ κ α ρ} {l : ThunksLabel ι α ρ}

/-- What every store reached by actions has. -/
theorem store_invariant (Inv : σ → Prop) (hreduce : ∀ st a, Inv st → Inv (reduce st a))
    (hi : Inv s.store) (h : step reduce thunks s l = some s') : Inv s'.store := by
  cases l with
  | start i =>
      obtain rfl := Option.some.inj h
      exact hi
  | dispatch a =>
      obtain rfl := Option.some.inj h
      exact hreduce _ _ hi
  | go i =>
      simp only [step] at h
      split at h
      · obtain rfl := Option.some.inj h
        exact hreduce _ _ hi
      · obtain rfl := Option.some.inj h
        exact hi
      · cases h
  | answer i j r =>
      simp only [step] at h
      split at h
      · split at h
        · obtain rfl := Option.some.inj h
          exact hi
        · cases h
      · cases h

/-- The answer of the label, if it is one, is in `ok`, and an action from outside sets nothing. -/
def Meets (ok : ρ → Prop) (sets : α → Prop) : ThunksLabel ι α ρ → Prop
  | .answer _ _ r => ok r
  | .dispatch a => ¬ sets a
  | _ => True

/-- All thunks are tidy, and as long as `P` holds one of them clears it. -/
structure Tended (ok : ρ → Prop) (sets clears : α → Prop) (P : σ → Prop)
    (s : Thunks σ κ α ρ) : Prop where
  tidy : ∀ t ∈ s.running, t.Tidy ok sets clears
  clears : P s.store → ∃ t ∈ s.running, t.Clears ok clears

/-- A thunk is replaced by what is left of it. -/
theorem tended_set {i : Nat} {t rest : Thunk κ α ρ} {store : σ} (ht : Tended ok sets clears P s)
    (hi : s.running[i]? = some t) (htidy : rest.Tidy ok sets clears)
    (hclears : P store → rest.Clears ok clears ∨ P s.store ∧
      (t.Clears ok clears → rest.Clears ok clears)) :
    Tended ok sets clears P ⟨store, s.running.set i rest⟩ := by
  obtain ⟨hlt, hget⟩ := List.getElem?_eq_some_iff.mp hi
  have hrest : rest ∈ s.running.set i rest := List.mem_set hlt rest
  refine ⟨fun t' ht' => ?_, fun hP => ?_⟩
  · rcases List.mem_or_eq_of_mem_set ht' with ht' | rfl
    · exact ht.tidy t' ht'
    · exact htidy
  · rcases hclears hP with hclear | ⟨hPs, himp⟩
    · exact ⟨rest, hrest, hclear⟩
    · obtain ⟨t', hmem, hclear⟩ := ht.clears hPs
      obtain ⟨j, hj⟩ := List.mem_iff_getElem?.mp hmem
      by_cases hij : i = j
      · subst hij
        rw [hi] at hj
        cases hj
        exact ⟨rest, hrest, himp hclear⟩
      · refine ⟨t', List.mem_of_getElem? (i := j) ?_, hclear⟩
        rw [List.getElem?_set_ne hij]
        exact hj

/-- A thunk that was started changes nothing for the others. -/
theorem tended_append {t : Thunk κ α ρ} (ht : Tended ok sets clears P s)
    (htidy : t.Tidy ok sets clears) :
    Tended ok sets clears P { s with running := s.running ++ [t] } := by
  refine ⟨fun t' ht' => ?_, fun hP => ?_⟩
  · rcases List.mem_append.mp ht' with ht' | ht'
    · exact ht.tidy t' ht'
    · rw [List.mem_singleton.mp ht']
      exact htidy
  · obtain ⟨t', hmem, hclear⟩ := ht.clears hP
    exact ⟨t', List.mem_append_left _ hmem, hclear⟩

theorem tended_step (hreduce : ∀ st a, P (reduce st a) → sets a ∨ P st ∧ ¬ clears a)
    (hthunks : ∀ i, (thunks i).Tidy ok sets clears) (ht : Tended ok sets clears P s)
    (hmeets : Meets ok sets l) (h : step reduce thunks s l = some s') :
    Tended ok sets clears P s' := by
  cases l with
  | start i =>
      obtain rfl := Option.some.inj h
      exact tended_append ht (hthunks i)
  | dispatch a =>
      obtain rfl := Option.some.inj h
      refine ⟨ht.tidy, fun hP => ?_⟩
      rcases hreduce _ _ hP with hset | ⟨hPs, _⟩
      · exact absurd hset hmeets
      · exact ht.clears hPs
  | go i =>
      simp only [step] at h
      split at h
      · rename_i a rest hi
        obtain rfl := Option.some.inj h
        obtain ⟨hset, hrest⟩ := ht.tidy _ (List.mem_of_getElem? hi)
        refine tended_set ht hi hrest fun hP => ?_
        rcases hreduce _ _ hP with ha | ⟨hPs, ha⟩
        · exact .inl (hset ha)
        · exact .inr ⟨hPs, fun hclear => hclear.resolve_left ha⟩
      · rename_i thunk rest hi
        obtain rfl := Option.some.inj h
        obtain ⟨hthunk, hrest⟩ := ht.tidy _ (List.mem_of_getElem? hi)
        have hset : Tended ok sets clears P ⟨s.store, s.running.set i rest⟩ :=
          tended_set ht hi hrest fun hP => .inr ⟨hP, id⟩
        exact tended_append hset hthunk
      · cases h
  | answer i j r =>
      simp only [step] at h
      split at h
      · rename_i calls accepts next hi
        split at h
        · rename_i hr
          obtain rfl := Option.some.inj h
          have hrest := ht.tidy _ (List.mem_of_getElem? hi) j r hr.1 hr.2 hmeets
          exact tended_set ht hi hrest fun hP =>
            .inr ⟨hP, fun hclear => hclear j r hr.1 hr.2 hmeets⟩
        · cases h
      · cases h

/-- **What was set is cleared.** In every run with such answers: as long as `P` holds, there is a
    running thunk that is going to end it. -/
theorem clears_of_runs (P : σ → Prop)
    (hreduce : ∀ st a, P (reduce st a) → sets a ∨ P st ∧ ¬ clears a)
    (hthunks : ∀ i, (thunks i).Tidy ok sets clears) {store : σ} (hstore : ¬ P store)
    {ls : List (ThunksLabel ι α ρ)} (hmeets : ∀ l ∈ ls, Meets ok sets l)
    (hr : runs (step reduce thunks) ⟨store, []⟩ ls = some s) (hP : P s.store) :
    ∃ t ∈ s.running, t.Clears ok clears := by
  have hstart : Tended ok sets clears P ⟨store, ([] : List (Thunk κ α ρ))⟩ :=
    ⟨fun t ht => absurd ht List.not_mem_nil, fun hP => absurd hP hstore⟩
  have hstep : ∀ s l s', Tended ok sets clears P s → Meets ok sets l →
      step reduce thunks s l = some s' → Tended ok sets clears P s' :=
    fun _ _ _ ht hm hs => tended_step hreduce hthunks ht hm hs
  exact (runs_invariant_of_meet hstep (stepsMeet_of_forall hmeets) hr hstart).clears hP

/-- When all thunks have returned, `P` does not hold. -/
theorem not_of_done (hdone : s.Done) (h : ∃ t ∈ s.running, t.Clears ok clears) : False := by
  obtain ⟨t, ht, hclear⟩ := h
  rw [hdone t ht] at hclear
  exact hclear

end Runs

end Thunks

end Kubeapps.Lib
