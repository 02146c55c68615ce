/-
  A table of computed values that is asked by a key.

  An entry keeps the tag of the argument its value was computed from. `ask` answers from the
  entry of the key if that has the tag of the argument, and computes and keeps the value if not.
  A computation that fails is not kept.

  `ask_value`: as long as no two arguments of one key have one tag, an answer is the value of the
  argument, whatever was asked before.
-/
import Kubeapps.Lib.Go

namespace Kubeapps.Lib.Memo

universe u

/-- An entry. -/
structure Kept (τ γ : Type u) where
  tag : τ
  value : γ
  deriving DecidableEq

abbrev Table (κ τ γ : Type u) := κ → Option (Kept τ γ)

variable {κ τ β γ ε : Type}

/-- The value in the entry of the key, if it was computed from an argument of this tag. -/
def find [DecidableEq τ] (tag : β → τ) (t : Table κ τ γ) (k : κ) (b : β) : Option γ :=
  match t k with
  | none => none
  | some e => if e.tag = tag b then some e.value else none

def ask [DecidableEq κ] [DecidableEq τ] (tag : β → τ) (compute : β → Except ε γ)
    (t : Table κ τ γ) (k : κ) (b : β) : Except ε γ × Table κ τ γ :=
  match find tag t k b with
  | some v => (.ok v, t)
  | none =>
      match compute b with
      | .error e => (.error e, t)
      | .ok v => (.ok v, Function.update t k (some ⟨tag b, v⟩))

/-- Every entry is the value of an argument that was asked with its key. -/
def From (tag : β → τ) (compute : β → Except ε γ) (past : κ → β → Prop) (t : Table κ τ γ) : Prop :=
  ∀ k e, t k = some e → ∃ b, past k b ∧ e.tag = tag b ∧ compute b = .ok e.value

section Ask

variable {tag : β → τ} {compute : β → Except ε γ} {past : κ → β → Prop} {t : Table κ τ γ}
  {k : κ} {b : β}

theorem from_mono {past' : κ → β → Prop} (hpast : ∀ k b, past k b → past' k b)
    (hfrom : From tag compute past t) : From tag compute past' t := by
  intro k e he
  obtain ⟨b, hb, hrest⟩ := hfrom k e he
  exact ⟨b, hpast k b hb, hrest⟩

variable [DecidableEq τ]

theorem find_eq_some {v : γ} :
    find tag t k b = some v ↔ ∃ e, t k = some e ∧ e.tag = tag b ∧ e.value = v := by
  unfold find
  cases ht : t k with
  | none => simp
  | some e => simp

variable [DecidableEq κ]

theorem ask_found {v : γ} (h : find tag t k b = some v) : ask tag compute t k b = (.ok v, t) := by
  unfold ask
  rw [h]

theorem ask_value (hfrom : From tag compute past t)
    (hfree : ∀ b', past k b' → tag b' = tag b → b' = b) :
    (ask tag compute t k b).1 = compute b := by
  cases hfind : find tag t k b with
  | some v =>
      obtain ⟨e, he, htag, rfl⟩ := find_eq_some.1 hfind
      obtain ⟨b', hpast, htag', hvalue⟩ := hfrom k e he
      have hb : b' = b := hfree b' hpast (htag'.symm.trans htag)
      rw [ask_found hfind, ← hb, hvalue]
  | none =>
      unfold ask
      rw [hfind]
      cases compute b <;> rfl

/-- A computation that fails leaves the table as it was. -/
theorem ask_error {e : ε} (h : (ask tag compute t k b).1 = .error e) :
    (ask tag compute t k b).2 = t := by
  unfold ask at h ⊢
  cases hfind : find tag t k b with
  | some v => rfl
  | none =>
      rw [hfind] at h
      cases hb : compute b with
      | error e' => rfl
      | ok v =>
          rw [hb] at h
          cases h

/-- Only the entry of the key changes, and it changes to the value of the argument. -/
theorem ask_table (tag : β → τ) (compute : β → Except ε γ) (t : Table κ τ γ) (k : κ) (b : β) :
    (ask tag compute t k b).2 = t ∨
      ∃ v, compute b = .ok v ∧ (ask tag compute t k b).2 = Function.update t k (some ⟨tag b, v⟩) := by
  unfold ask
  cases find tag t k b with
  | some v => exact Or.inl rfl
  | none =>
      cases compute b with
      | error e => exact Or.inl rfl
      | ok v => exact Or.inr ⟨v, rfl, rfl⟩

theorem from_ask (hfrom : From tag compute past t) (hpast : past k b) :
    From tag compute past (ask tag compute t k b).2 := by
  rcases ask_table tag compute t k b with hsame | ⟨v, hv, hnew⟩
  · rw [hsame]
    exact hfrom
  · intro k' e he
    rw [hnew] at he
    refine forall_update hfrom (fun e' he' => ?_) k' e he
    obtain rfl := Option.some.inj he'
    exact ⟨b, hpast, rfl, hv⟩

end Ask

end Kubeapps.Lib.Memo
