/-
  Calls that can fail half way: a call has a result and leaves a state, and one that fails keeps what
  it has done so far.

  `Call σ ε α` is `ExceptT` over `StateM`, so that calls are written with `do`; `exec` is what a
  call returns and leaves. `exec_bind` and `exec_catch` take a sequence apart, `exec_bind_ok` one
  that succeeds. `Keeps view` says that a call does not change what `view` sees of the state,
  whether it succeeds or not.
-/
import Mathlib.Tactic.Cases

namespace Kubeapps.Lib

abbrev Call (σ ε : Type) := ExceptT ε (StateM σ)

namespace Call

variable {σ ε α β γ : Type}

def exec (x : Call σ ε α) (st : σ) : Except ε α × σ := StateT.run (ExceptT.run x) st

def of (f : σ → Except ε α × σ) : Call σ ε α := ExceptT.mk f

@[simp] theorem exec_of (f : σ → Except ε α × σ) (st : σ) : (of f).exec st = f st := rfl

@[simp] theorem exec_pure (a : α) (st : σ) : (pure a : Call σ ε α).exec st = (.ok a, st) := rfl

@[simp] theorem exec_throw (e : ε) (st : σ) : (throw e : Call σ ε α).exec st = (.error e, st) := rfl

theorem exec_bind (x : Call σ ε α) (f : α → Call σ ε β) (st : σ) :
    (x >>= f).exec st =
      match x.exec st with
      | (.ok a, st') => (f a).exec st'
      | (.error e, st') => (.error e, st') := by
  unfold exec ExceptT.run StateT.run
  simp only [bind, ExceptT.bind, ExceptT.mk, StateT.bind]
  cases x st with
  | mk res st' => cases res <;> rfl

theorem exec_catch (x : Call σ ε α) (f : ε → Call σ ε α) (st : σ) :
    (tryCatch x f).exec st =
      match x.exec st with
      | (.ok a, st') => (.ok a, st')
      | (.error e, st') => (f e).exec st' := by
  unfold exec ExceptT.run StateT.run
  simp only [tryCatch, tryCatchThe, MonadExceptOf.tryCatch, ExceptT.tryCatch, ExceptT.mk, bind,
    StateT.bind]
  cases x st with
  | mk res st' => cases res <;> rfl

theorem exec_bind_pure (x : Call σ ε α) (f : α → β) (st : σ) :
    ((x >>= fun a => pure (f a)).exec st).2 = (x.exec st).2 := by
  rw [exec_bind]
  split
  · rename_i a st' hx
    rw [hx]
    rfl
  · rename_i e st' hx
    rw [hx]

/-- A sequence that succeeds has succeeded at every stage. -/
theorem exec_bind_ok {x : Call σ ε α} {f : α → Call σ ε β} {st st' : σ} {b : β}
    (h : (x >>= f).exec st = (.ok b, st')) :
    ∃ a st₁, x.exec st = (.ok a, st₁) ∧ (f a).exec st₁ = (.ok b, st') := by
  rw [exec_bind] at h
  split at h
  · rename_i a st₁ hx
    exact ⟨a, st₁, hx, h⟩
  · simp at h

theorem exec_ite_throw_ok {c : Prop} [Decidable c] {e : ε} {x : Call σ ε α} {st st' : σ} {a : α}
    (h : (if c then throw e else x : Call σ ε α).exec st = (.ok a, st')) :
    ¬ c ∧ x.exec st = (.ok a, st') := by
  split at h
  · simp at h
  · rename_i hc
    exact ⟨hc, h⟩

/-! ## Success -/

/-- The call returns a value. -/
def Succeeds (x : Call σ ε α) (st : σ) : Prop := ∃ a st', x.exec st = (.ok a, st')

theorem succeeds_pure (a : α) (st : σ) : (pure a : Call σ ε α).Succeeds st := ⟨a, st, rfl⟩

theorem exec_of_not_succeeds {x : Call σ ε α} {st : σ} (h : ¬ x.Succeeds st) :
    ∃ e, (x.exec st).1 = .error e := by
  cases hx : (x.exec st).1 with
  | error e => exact ⟨e, rfl⟩
  | ok a => exact absurd ⟨a, (x.exec st).2, Prod.ext hx rfl⟩ h

/-- A sequence succeeds exactly if the first call does and then the second one. -/
theorem succeeds_bind {x : Call σ ε α} {f : α → Call σ ε β} {st : σ} :
    (x >>= f).Succeeds st ↔ ∃ a st', x.exec st = (.ok a, st') ∧ (f a).Succeeds st' := by
  constructor
  · intro ⟨b, st', h⟩
    obtain ⟨a, st₁, hx, hf⟩ := exec_bind_ok h
    exact ⟨a, st₁, hx, b, st', hf⟩
  · intro ⟨a, st₁, hx, b, st', hf⟩
    refine ⟨b, st', ?_⟩
    rw [exec_bind, hx]
    exact hf

/-! ## Frames -/

/-- The call does not change what `view` sees. -/
def Keeps (view : σ → γ) (x : Call σ ε α) : Prop := ∀ st, view (x.exec st).2 = view st

variable {view : σ → γ}

theorem keeps_pure (a : α) : Keeps view (pure a : Call σ ε α) := fun _ => rfl

theorem keeps_throw (e : ε) : Keeps view (throw e : Call σ ε α) := fun _ => rfl

/-- The second call only matters from where the first one ends. -/
theorem keeps_bind {x : Call σ ε α} {f : α → Call σ ε β} (hx : Keeps view x)
    (hf : ∀ st a st', x.exec st = (.ok a, st') → view ((f a).exec st').2 = view st') :
    Keeps view (x >>= f) := by
  intro st
  have hst := hx st
  rw [exec_bind]
  split
  · rename_i a st' hxa
    rw [hf st a st' hxa, ← hst, hxa]
  · rename_i e st' hxe
    rw [← hst, hxe]

theorem keeps_catch {x : Call σ ε α} {f : ε → Call σ ε α} (hx : Keeps view x)
    (hf : ∀ e, Keeps view (f e)) : Keeps view (tryCatch x f) := by
  intro st
  have hst := hx st
  rw [exec_catch]
  split
  · rename_i a st' hxa
    rw [← hst, hxa]
  · rename_i e st' hxe
    rw [hf e st', ← hst, hxe]

theorem keeps_ite {c : Prop} [Decidable c] {x y : Call σ ε α} (hx : Keeps view x)
    (hy : Keeps view y) : Keeps view (if c then x else y) := by
  split
  · exact hx
  · exact hy

end Call

end Kubeapps.Lib
