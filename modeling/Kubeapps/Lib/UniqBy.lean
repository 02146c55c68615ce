/-
  The first element of each key of a list, in the order of the list.

  What is kept is a sublist with one element for each key (`nodup_map_uniqBy`,
  `exists_mem_uniqBy`), and a list may be cleaned part by part (`uniqBy_uniqBy_append`). By a
  coarser key less is kept, unless the finer one tells no more of the list apart
  (`uniqBy_congr`, `eq_of_length_uniqBy`).
-/
import Mathlib.Data.List.Nodup

namespace Kubeapps.Lib

section UniqBy

variable {α β κ ι : Type} [DecidableEq κ] [DecidableEq ι] {key : α → κ} {xs ys : List α}

/-- The first element of each key. -/
def uniqBy (key : α → κ) : List α → List α
  | [] => []
  | x :: xs => x :: (uniqBy key xs).filter fun y => key y ≠ key x

@[simp] theorem uniqBy_nil : uniqBy key [] = [] := rfl

theorem uniqBy_cons (x : α) (xs : List α) :
    uniqBy key (x :: xs) = x :: (uniqBy key xs).filter fun y => key y ≠ key x := rfl

theorem uniqBy_sublist (key : α → κ) (xs : List α) : (uniqBy key xs).Sublist xs := by
  induction xs with
  | nil => exact List.Sublist.refl _
  | cons x xs ih => exact (List.filter_sublist.trans ih).cons_cons x

theorem nodup_map_uniqBy (key : α → κ) (xs : List α) : ((uniqBy key xs).map key).Nodup := by
  induction xs with
  | nil => exact List.nodup_nil
  | cons x xs ih =>
      rw [uniqBy_cons, List.map_cons, List.nodup_cons]
      refine ⟨fun h => ?_, ih.sublist (List.filter_sublist.map key)⟩
      obtain ⟨y, hy, hkey⟩ := List.mem_map.mp h
      exact of_decide_eq_true (List.mem_filter.mp hy).2 hkey

/-- Every key is kept. -/
theorem exists_mem_uniqBy (key : α → κ) {x : α} (h : x ∈ xs) : ∃ y ∈ uniqBy key xs, key y = key x := by
  induction xs with
  | nil => exact (nomatch h)
  | cons first xs ih =>
      by_cases hkey : key first = key x
      · exact ⟨first, List.mem_cons_self, hkey⟩
      · have hne : x ≠ first := fun heq => hkey (congrArg key heq).symm
        obtain ⟨y, hy, hyx⟩ := ih ((List.mem_cons.mp h).resolve_left hne)
        refine ⟨y, List.mem_cons_of_mem first (List.mem_filter.mpr ⟨hy, ?_⟩), hyx⟩
        rw [hyx]
        exact decide_eq_true fun heq => hkey heq.symm

/-- A condition on the keys may be checked before or after. -/
theorem filter_uniqBy (key : α → κ) (q : κ → Bool) (xs : List α) :
    (uniqBy key xs).filter (fun x => q (key x)) = uniqBy key (xs.filter fun x => q (key x)) := by
  induction xs with
  | nil => rfl
  | cons x xs ih =>
      by_cases hq : q (key x) = true
      · rw [uniqBy_cons, List.filter_cons_of_pos (p := fun x => q (key x)) hq,
          List.filter_cons_of_pos (p := fun x => q (key x)) hq, uniqBy_cons, ← ih,
          List.filter_comm]
      · rw [uniqBy_cons, List.filter_cons_of_neg (p := fun x => q (key x)) hq,
          List.filter_cons_of_neg (p := fun x => q (key x)) hq, ← ih, List.filter_filter]
        refine List.filter_congr fun y _ => ?_
        by_cases hy : key y = key x
        · simp [hy, hq]
        · simp [hy]

/-- What is kept by a finer key is enough. -/
theorem uniqBy_uniqBy (g : ι → κ) (fine : α → ι) (xs : List α) :
    uniqBy (g ∘ fine) (uniqBy fine xs) = uniqBy (g ∘ fine) xs := by
  induction xs with
  | nil => rfl
  | cons x xs ih =>
      have hfilter : ((uniqBy fine xs).filter fun y => fine y ≠ fine x).filter
          (fun y => (g ∘ fine) y ≠ (g ∘ fine) x) =
            (uniqBy fine xs).filter fun y => (g ∘ fine) y ≠ (g ∘ fine) x := by
        rw [List.filter_filter]
        refine List.filter_congr fun y _ => ?_
        by_cases hy : fine y = fine x
        · simp [hy]
        · simp [hy]
      rw [uniqBy_cons, uniqBy_cons, uniqBy_cons, ← ih]
      congr 1
      have hout := filter_uniqBy (g ∘ fine) (fun k => k ≠ (g ∘ fine) x)
        ((uniqBy fine xs).filter fun y => fine y ≠ fine x)
      have hin := filter_uniqBy (g ∘ fine) (fun k => k ≠ (g ∘ fine) x) (uniqBy fine xs)
      rw [hout, hin, hfilter]

theorem uniqBy_append (xs ys : List α) :
    uniqBy key (xs ++ ys) =
      uniqBy key xs ++ (uniqBy key ys).filter fun y => key y ∉ xs.map key := by
  induction xs with
  | nil => simp
  | cons x xs ih =>
      rw [List.cons_append, uniqBy_cons, ih, uniqBy_cons, List.cons_append, List.filter_append,
        List.filter_filter]
      congr 2
      refine List.filter_congr fun y _ => ?_
      simp [not_or]

/-- A list may be cleaned part by part. -/
theorem uniqBy_uniqBy_append (xs ys : List α) :
    uniqBy key (uniqBy key xs ++ ys) = uniqBy key (xs ++ ys) := by
  have hidem : uniqBy key (uniqBy key xs) = uniqBy key xs := uniqBy_uniqBy id key xs
  rw [uniqBy_append, uniqBy_append, hidem]
  congr 1
  refine List.filter_congr fun y _ => ?_
  have hkeys : key y ∈ (uniqBy key xs).map key ↔ key y ∈ xs.map key := by
    constructor
    · exact fun h => ((uniqBy_sublist key xs).map key).subset h
    · intro h
      obtain ⟨x, hx, hkey⟩ := List.mem_map.mp h
      obtain ⟨z, hz, hzx⟩ := exists_mem_uniqBy key hx
      exact List.mem_map.mpr ⟨z, hz, hzx.trans hkey⟩
  simp only [hkeys]

theorem map_uniqBy (key : β → κ) (f : α → β) (xs : List α) :
    (uniqBy (key ∘ f) xs).map f = uniqBy key (xs.map f) := by
  induction xs with
  | nil => rfl
  | cons x xs ih =>
      rw [uniqBy_cons, List.map_cons, List.map_cons, uniqBy_cons, ← ih, List.filter_map]
      rfl

/-- Keys that tell the same elements apart. -/
theorem uniqBy_congr {key' : α → ι} (h : ∀ x ∈ xs, ∀ y ∈ xs, key x = key y ↔ key' x = key' y) :
    uniqBy key xs = uniqBy key' xs := by
  induction xs with
  | nil => rfl
  | cons x xs ih =>
      rw [uniqBy_cons, uniqBy_cons, ih fun y hy z hz =>
        h y (List.mem_cons_of_mem x hy) z (List.mem_cons_of_mem x hz)]
      congr 1
      refine List.filter_congr fun y hy => ?_
      have hy' : y ∈ xs := (uniqBy_sublist key' xs).subset hy
      exact decide_eq_decide.mpr
        (not_congr (h y (List.mem_cons_of_mem x hy') x List.mem_cons_self))

/-- By a coarser key as much is kept only if the finer one tells no more of the list apart. -/
theorem eq_of_length_uniqBy {g : ι → κ} {fine : α → ι}
    (hlen : (uniqBy (g ∘ fine) xs).length = (uniqBy fine xs).length) {x y : α} (hx : x ∈ xs)
    (hy : y ∈ xs) (hkey : g (fine x) = g (fine y)) : fine x = fine y := by
  have hsub : (uniqBy (g ∘ fine) xs).Sublist (uniqBy fine xs) := by
    rw [← uniqBy_uniqBy]
    exact uniqBy_sublist _ _
  have hnodup := nodup_map_uniqBy (g ∘ fine) xs
  rw [hsub.eq_of_length hlen] at hnodup
  obtain ⟨x', hx', hxx'⟩ := exists_mem_uniqBy fine hx
  obtain ⟨y', hy', hyy'⟩ := exists_mem_uniqBy fine hy
  have hsame : x' = y' := by
    refine List.inj_on_of_nodup_map hnodup hx' hy' ?_
    show g (fine x') = g (fine y')
    rw [hxx', hyy', hkey]
  rw [← hxx', ← hyy', hsame]

end UniqBy

end Kubeapps.Lib
