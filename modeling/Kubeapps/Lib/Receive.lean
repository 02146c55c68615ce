/-
  Loops that receive from a channel.

  `receives zero sent n` are the first `n` receives of a channel on which `sent` is sent before it
  is closed: a receive from a closed channel gives the zero value at once. `loop body` is a loop
  around a receive whose body goes on with a new state or returns.

  * `loop_returns_of_zero`: a body that returns on the zero value ends the loop with the channel.
  * `loop_of_inl`: a body that never returns reads on for ever.
-/
import Mathlib.Data.List.Basic

namespace Kubeapps.Lib

universe u v w

variable {α : Type u} {σ : Type v} {ρ : Type w}

def receives (zero : α) (sent : List α) (n : Nat) : List α :=
  sent.take n ++ List.replicate (n - sent.length) zero

/-- A loop around a receive: it still reads, or has returned. -/
def loop (body : σ → α → σ ⊕ ρ) : σ → List α → σ ⊕ ρ
  | s, [] => .inl s
  | s, a :: as =>
      match body s a with
      | .inl s' => loop body s' as
      | .inr r => .inr r

section Receives

variable (zero : α) (sent : List α)

theorem receives_add (n : Nat) :
    receives zero sent (sent.length + n) = sent ++ List.replicate n zero := by
  unfold receives
  rw [List.take_of_length_le (by omega), Nat.add_sub_cancel_left]

end Receives

section Loop

variable {body : σ → α → σ ⊕ ρ} {s : σ} {a : α} {as bs : List α}

theorem loop_cons_inl {s' : σ} (h : body s a = .inl s') :
    loop body s (a :: as) = loop body s' as := by
  rw [loop, h]

theorem loop_cons_inr {r : ρ} (h : body s a = .inr r) : loop body s (a :: as) = .inr r := by
  rw [loop, h]

/-- A loop that has returned receives nothing more. -/
theorem loop_append_inr {r : ρ} (h : loop body s as = .inr r) :
    loop body s (as ++ bs) = .inr r := by
  induction as generalizing s with
  | nil => cases h
  | cons a as ih =>
      rw [List.cons_append]
      cases hbody : body s a with
      | inl s' =>
          rw [loop_cons_inl hbody] at h ⊢
          exact ih h
      | inr r' =>
          rw [loop_cons_inr hbody] at h ⊢
          exact h

theorem loop_append_inl {s' : σ} (h : loop body s as = .inl s') :
    loop body s (as ++ bs) = loop body s' bs := by
  induction as generalizing s with
  | nil =>
      cases h
      rfl
  | cons a as ih =>
      rw [List.cons_append]
      cases hbody : body s a with
      | inl s'' =>
          rw [loop_cons_inl hbody] at h ⊢
          exact ih h
      | inr r =>
          rw [loop_cons_inr hbody] at h
          cases h

/-- The loop ends with the channel, one receive after it is closed at the latest. -/
theorem loop_returns_of_zero {zero : α} (hzero : ∀ s, ∃ r, body s zero = .inr r) (s : σ)
    (sent : List α) : ∃ r, loop body s (receives zero sent (sent.length + 1)) = .inr r := by
  rw [receives_add]
  cases hsent : loop body s sent with
  | inl s' =>
      obtain ⟨r, hr⟩ := hzero s'
      refine ⟨r, ?_⟩
      rw [loop_append_inl hsent]
      exact loop_cons_inr hr
  | inr r => exact ⟨r, loop_append_inr hsent⟩

/-- A body that never returns. -/
theorem loop_of_inl {next : σ → α → σ} (h : ∀ s a, body s a = .inl (next s a)) (s : σ)
    (as : List α) : loop body s as = .inl (as.foldl next s) := by
  induction as generalizing s with
  | nil => rfl
  | cons a as ih =>
      rw [loop_cons_inl (h s a), ih]
      rfl

end Loop

end Kubeapps.Lib
