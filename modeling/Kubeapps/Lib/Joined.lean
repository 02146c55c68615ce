/-
  Two words joined by a third one between two separators: `a-word-b`.

  The parts may have separators of their own, so the joined word does not determine them.
  `joined_eq_iff` says when two joined words are equal although their parts are not: the
  longer first part is the shorter one followed by the word in the middle, which it either shares
  its last separator with (`a-word` and `b`, against `a` and `word-b`) or is followed by some
  rest that the other second part begins with (`a-word-m` and `b`, against `a` and `m-word-b`).
-/
import Mathlib.Data.List.Basic
import Mathlib.Tactic.Cases

namespace Kubeapps.Lib

section Joined

variable {α : Type} {c : α} {w a b a' b' z : List α}

/-- Two words joined by `c`: the longer first one goes on with `c` and what the other second one
    begins with. -/
theorem append_cons_eq_iff : a ++ c :: b = a' ++ c :: b' ↔
    (a = a' ∧ b = b') ∨ (∃ w, a' = a ++ c :: w ∧ b = w ++ c :: b') ∨
      ∃ w, a = a' ++ c :: w ∧ b' = w ++ c :: b := by
  have hcut : ∀ {a b a' b' z : List α}, a' = a ++ z → c :: b = z ++ c :: b' →
      (a = a' ∧ b = b') ∨ ∃ w, a' = a ++ c :: w ∧ b = w ++ c :: b' := by
    intro a b a' b' z ha hb
    cases z with
    | nil => exact .inl ⟨by rw [ha, List.append_nil], (List.cons.inj hb).2⟩
    | cons x w =>
        obtain ⟨hx, hw⟩ := List.cons.inj hb
        exact .inr ⟨w, by rw [ha, hx], hw⟩
  constructor
  · intro h
    rcases List.append_eq_append_iff.mp h with ⟨z, ha, hb⟩ | ⟨z, ha, hb⟩
    · exact (hcut ha hb).imp id .inl
    · rcases hcut ha hb with ⟨rfl, rfl⟩ | hw
      · exact .inl ⟨rfl, rfl⟩
      · exact .inr (.inr hw)
  · rintro (⟨rfl, rfl⟩ | ⟨w, rfl, rfl⟩ | ⟨w, rfl, rfl⟩) <;> simp

/-- They are the same words if `c` is in neither of the first ones. -/
theorem append_cons_inj (ha : c ∉ a) (ha' : c ∉ a') (h : a ++ c :: b = a' ++ c :: b') :
    a = a' ∧ b = b' := by
  rcases append_cons_eq_iff.1 h with hsame | ⟨w, hw, _⟩ | ⟨w, hw, _⟩
  · exact hsame
  · exact absurd (by rw [hw]; simp) ha'
  · exact absurd (by rw [hw]; simp) ha

/-- `a`, `w` and `b` with `c` between them. -/
def joined (c : α) (w a b : List α) : List α := a ++ c :: (w ++ c :: b)

/-- `a'` and `b'` are the parts of `joined c w a b` when it is cut at a later `w`. -/
def Shifted (c : α) (w a b a' b' : List α) : Prop :=
  (a' = a ++ c :: w ∧ b = w ++ c :: b') ∨
    ∃ m, a' = a ++ c :: (w ++ c :: m) ∧ b = m ++ c :: (w ++ c :: b')

instance [DecidableEq α] (c : α) (w a b a' b' : List α) : Decidable (Shifted c w a b a' b') :=
  let m := a'.drop (a.length + w.length + 2)
  decidable_of_iff ((a' = a ++ c :: w ∧ b = w ++ c :: b') ∨
      (a' = a ++ c :: (w ++ c :: m) ∧ b = m ++ c :: (w ++ c :: b'))) (by
    refine or_congr_right ⟨fun h => ⟨m, h⟩, fun ⟨x, hx, hb⟩ => ?_⟩
    have hm : m = x := by
      have hlen : a.length + w.length + 2 = (a ++ c :: (w ++ [c])).length := by
        simp only [List.length_append, List.length_cons, List.length_nil]
        omega
      have hcut : a' = (a ++ c :: (w ++ [c])) ++ x := by
        rw [hx]
        simp
      show a'.drop (a.length + w.length + 2) = x
      rw [hlen, hcut, List.drop_left]
    rw [hm]
    exact ⟨hx, hb⟩)

theorem joined_of_shifted (h : Shifted c w a b a' b') : joined c w a b = joined c w a' b' := by
  unfold joined
  rcases h with ⟨ha, hb⟩ | ⟨m, ha, hb⟩
  · rw [ha, hb]
    simp
  · rw [ha, hb]
    simp

/-- The separators do not occur in `w`, so a second `w` begins at the last separator of the first
    one or after it. -/
theorem cut_later (hc : c ∉ w) (h : c :: (w ++ c :: b) = z ++ c :: (w ++ c :: b')) :
    (z = [] ∧ b = b') ∨ (z = c :: w ∧ b = w ++ c :: b') ∨
      ∃ m, z = c :: (w ++ c :: m) ∧ b = m ++ c :: (w ++ c :: b') := by
  cases z with
  | nil =>
      have hcons := (List.cons.inj h).2
      have hb := List.append_cancel_left hcons
      exact .inl ⟨rfl, (List.cons.inj hb).2⟩
  | cons x z =>
      obtain ⟨hx, htail⟩ := List.cons.inj h
      rw [← hx]
      rcases List.append_eq_append_iff.mp htail with ⟨u, hz, hu⟩ | ⟨u, hw, hu⟩
      · cases u with
        | nil =>
            have hb := (List.cons.inj hu).2
            exact .inr (.inl ⟨by rw [hz, List.append_nil], hb⟩)
        | cons y m =>
            obtain ⟨hy, hb⟩ := List.cons.inj hu
            exact .inr (.inr ⟨m, by rw [hz, ← hy], hb⟩)
      · cases u with
        | nil =>
            have hb := (List.cons.inj hu).2
            exact .inr (.inl ⟨by rw [hw, List.append_nil], hb.symm⟩)
        | cons y u =>
            have hy := (List.cons.inj hu).1
            exact absurd (by rw [hw, ← hy]; simp) hc

theorem joined_eq_iff (hc : c ∉ w) : joined c w a b = joined c w a' b' ↔
    (a = a' ∧ b = b') ∨ Shifted c w a b a' b' ∨ Shifted c w a' b' a b := by
  constructor
  · intro h
    unfold joined at h
    rcases List.append_eq_append_iff.mp h with ⟨z, ha, hz⟩ | ⟨z, ha, hz⟩
    · rcases cut_later hc hz with ⟨hnil, hb⟩ | ⟨hz', hb⟩ | ⟨m, hz', hb⟩
      · exact .inl ⟨by rw [ha, hnil, List.append_nil], hb⟩
      · exact .inr (.inl (.inl ⟨by rw [ha, hz'], hb⟩))
      · exact .inr (.inl (.inr ⟨m, by rw [ha, hz'], hb⟩))
    · rcases cut_later hc hz with ⟨hnil, hb⟩ | ⟨hz', hb⟩ | ⟨m, hz', hb⟩
      · exact .inl ⟨by rw [ha, hnil, List.append_nil], hb.symm⟩
      · exact .inr (.inr (.inl ⟨by rw [ha, hz'], hb⟩))
      · exact .inr (.inr (.inr ⟨m, by rw [ha, hz'], hb⟩))
  · rintro (⟨rfl, rfl⟩ | h | h)
    · rfl
    · exact joined_of_shifted h
    · exact (joined_of_shifted h).symm

end Joined

end Kubeapps.Lib
