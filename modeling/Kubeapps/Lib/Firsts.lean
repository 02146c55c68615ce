/-
  The first `n` distinct values of a list, in the order of their first appearance.

  `mem_firsts_concat` says what one more element does to them and `mem_firsts_append` that later
  elements leave those alone that were there. In a list sorted downwards they are the greatest `n`
  (`mem_firsts_iff_greater`).
-/
import Mathlib.Data.List.Nodup
import Mathlib.Data.List.Induction
import Mathlib.Order.Lattice

namespace Kubeapps.Lib

section Firsts

variable {α : Type} [DecidableEq α] {n : Nat} {x y : α} {xs ys : List α}

/-- The first `n` distinct values. -/
def firsts (n : Nat) (xs : List α) : List α := xs.eraseDups.take n

theorem eraseDups_concat (xs : List α) (x : α) :
    (xs ++ [x]).eraseDups = if x ∈ xs then xs.eraseDups else xs.eraseDups ++ [x] := by
  rw [List.eraseDups_append]
  split
  · rename_i hx
    have hnil : [x].removeAll xs = [] := by simp [List.removeAll, hx]
    rw [hnil, List.eraseDups_nil, List.append_nil]
  · rename_i hx
    have hone : [x].removeAll xs = [x] := by simp [List.removeAll, hx]
    rw [hone]
    rfl

theorem nodup_eraseDups (xs : List α) : xs.eraseDups.Nodup := by
  induction xs using List.reverseRecOn with
  | nil => exact List.nodup_nil
  | append_singleton xs x ih =>
      rw [eraseDups_concat]
      split
      · exact ih
      · rename_i hx
        rw [List.nodup_append]
        refine ⟨ih, List.nodup_singleton x, fun a ha b hb hab => ?_⟩
        rw [List.mem_singleton.mp hb] at hab
        exact hx (hab ▸ List.mem_eraseDups.mp ha)

theorem nodup_firsts (n : Nat) (xs : List α) : (firsts n xs).Nodup :=
  (nodup_eraseDups xs).sublist (List.take_sublist n _)

theorem mem_of_mem_firsts (h : x ∈ firsts n xs) : x ∈ xs :=
  List.mem_eraseDups.mp (List.mem_of_mem_take h)

/-- If there is room left, every value is among them. -/
theorem mem_firsts_of_room (hroom : (firsts n xs).length < n) (hx : x ∈ xs) : x ∈ firsts n xs := by
  unfold firsts at hroom ⊢
  rw [List.length_take] at hroom
  rw [List.take_of_length_le (by omega)]
  exact List.mem_eraseDups.mpr hx

theorem mem_firsts_concat_self :
    x ∈ firsts n (xs ++ [x]) ↔ x ∈ firsts n xs ∨ x ∉ xs ∧ (firsts n xs).length < n := by
  unfold firsts
  rw [eraseDups_concat]
  by_cases hx : x ∈ xs
  · simp [hx]
  · have hnot : x ∉ xs.eraseDups := fun h => hx (List.mem_eraseDups.mp h)
    rw [if_neg hx, List.take_append, List.mem_append, List.length_take]
    have hnot' : x ∉ xs.eraseDups.take n := fun h => hnot (List.mem_of_mem_take h)
    by_cases hlen : xs.eraseDups.length < n
    · have htake : [x].take (n - xs.eraseDups.length) = [x] :=
        List.take_of_length_le (by simp only [List.length_singleton]; omega)
      simp only [htake, List.mem_singleton, or_true, hx, not_false_eq_true, true_and, true_iff]
      exact .inr (by omega)
    · have htake : n - xs.eraseDups.length = 0 := by omega
      simp only [hnot', htake, List.take_zero, List.not_mem_nil, or_false, false_or, false_iff]
      omega

theorem mem_firsts_append (hx : x ∈ xs) : x ∈ firsts n (xs ++ ys) ↔ x ∈ firsts n xs := by
  unfold firsts
  rw [List.eraseDups_append, List.take_append, List.mem_append]
  constructor
  · rintro (h | h)
    · exact h
    · have hmem := List.mem_eraseDups.mp (List.mem_of_mem_take h)
      simp [List.removeAll, hx] at hmem
  · exact .inl

/-- A value that is among them after one more was among them before, or is new. -/
theorem mem_firsts_or_new (h : y ∈ firsts n (xs ++ [x])) : y ∈ firsts n xs ∨ y ∉ xs := by
  by_cases hy : y ∈ xs
  · exact .inl ((mem_firsts_append hy).mp h)
  · exact .inr hy

/-- One more element can only bring itself. -/
theorem mem_firsts_concat : y ∈ firsts n (xs ++ [x]) ↔
    y ∈ firsts n xs ∨ y = x ∧ x ∈ firsts n (xs ++ [x]) := by
  by_cases hyx : y = x
  · subst hyx
    constructor
    · exact fun h => .inr ⟨rfl, h⟩
    · rintro (h | h)
      · exact (mem_firsts_append (mem_of_mem_firsts h)).mpr h
      · exact h.2
  · by_cases hy : y ∈ xs
    · rw [mem_firsts_append hy]
      simp [hyx]
    · have hno : y ∉ firsts n (xs ++ [x]) := fun h => by
        have hmem := mem_of_mem_firsts h
        simp [hy, hyx] at hmem
      have hno' : y ∉ firsts n xs := fun h => hy (mem_of_mem_firsts h)
      simp [hno, hno', hyx]

end Firsts

section Sorted

variable {α : Type} [LinearOrder α] {n : Nat} {x : α} {xs : List α}

/-- In a list sorted downwards, what comes before the first `x` is what is greater. -/
theorem exists_split_of_sorted (h : xs.Pairwise fun a b => b ≤ a) (hx : x ∈ xs) :
    ∃ zs, xs = xs.filter (x < ·) ++ x :: zs := by
  induction xs with
  | nil => cases hx
  | cons a xs ih =>
      rw [List.pairwise_cons] at h
      by_cases hax : a = x
      · subst hax
        have hnil : (a :: xs).filter (a < ·) = [] := by
          rw [List.filter_eq_nil_iff]
          intro b hb
          rcases List.mem_cons.mp hb with rfl | hb
          · simp
          · simpa using h.1 b hb
        exact ⟨xs, by rw [hnil, List.nil_append]⟩
      · have hxs : x ∈ xs := (List.mem_cons.mp hx).resolve_left fun h => hax h.symm
        obtain ⟨zs, hzs⟩ := ih h.2 hxs
        have hlt : x < a := lt_of_le_of_ne (h.1 x hxs) fun h => hax h.symm
        refine ⟨zs, ?_⟩
        rw [List.filter_cons_of_pos (by simpa using hlt), List.cons_append, ← hzs]

/-- In a list sorted downwards, the first distinct values are the greatest ones. -/
theorem mem_firsts_iff_greater (h : xs.Pairwise fun a b => b ≤ a) (hx : x ∈ xs) :
    x ∈ firsts n xs ↔ ((xs.filter (x < ·)).eraseDups).length < n := by
  obtain ⟨zs, hzs⟩ := exists_split_of_sorted h hx
  have hnot : x ∉ xs.filter (x < ·) := fun hm =>
    lt_irrefl x (of_decide_eq_true (List.mem_filter.mp hm).2)
  have hnot' : x ∉ firsts n (xs.filter (x < ·)) := fun hm => hnot (mem_of_mem_firsts hm)
  have hlist : xs = (xs.filter (x < ·) ++ [x]) ++ zs := by
    rw [List.append_assoc]
    exact hzs
  have hhere : x ∈ xs.filter (x < ·) ++ [x] := by simp
  calc x ∈ firsts n xs
      ↔ x ∈ firsts n (xs.filter (x < ·) ++ [x]) := by
        conv_lhs => rw [hlist]
        exact mem_firsts_append hhere
    _ ↔ (firsts n (xs.filter (x < ·))).length < n := by
        rw [mem_firsts_concat_self]
        simp [hnot, hnot']
    _ ↔ ((xs.filter (x < ·)).eraseDups).length < n := by
        unfold firsts
        rw [List.length_take]
        omega

end Sorted

end Kubeapps.Lib
