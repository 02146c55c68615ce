/-
  A map filled from a list: the elements are put under their keys one after another, and one
  whose key is there already is merged into what is there.

  `lookup_mergeByKey` is the value of a key, the fold of the elements that have it, in their
  order; `mem_mergeByKey` is the same of the entries, and `nodup_keys_mergeByKey` says that there
  is one for each key.
-/
import Mathlib.Data.List.Nodup
import Mathlib.Data.List.Induction

namespace Kubeapps.Lib

section Merge

variable {κ α : Type} [DecidableEq κ]

/-- Put `x` under `k` into a map whose entries are in the order of their first insertion. -/
def mergeAt (merge : α → α → α) (k : κ) (x : α) : List (κ × α) → List (κ × α)
  | [] => [(k, x)]
  | (k', y) :: rest =>
      if k' = k then (k', merge y x) :: rest else (k', y) :: mergeAt merge k x rest

/-- The entries of the map after all of `xs`. -/
def mergeByKey (key : α → κ) (merge : α → α → α) (xs : List α) : List (κ × α) :=
  xs.foldl (fun m x => mergeAt merge (key x) x m) []

/-- What elements of one key become. -/
def mergeAll (merge : α → α → α) : List α → Option α
  | [] => none
  | x :: xs => some (xs.foldl merge x)

variable (merge : α → α → α) (key : α → κ) {k k' : κ} {x y : α} {xs : List α}

theorem mergeAll_concat (xs : List α) (x : α) :
    mergeAll merge (xs ++ [x]) = some ((mergeAll merge xs).elim x (merge · x)) := by
  cases xs with
  | nil => rfl
  | cons y ys =>
      show some ((ys ++ [x]).foldl merge y) = some (merge (ys.foldl merge y) x)
      rw [List.foldl_append]
      rfl

theorem mergeByKey_concat (xs : List α) (x : α) :
    mergeByKey key merge (xs ++ [x]) = mergeAt merge (key x) x (mergeByKey key merge xs) := by
  unfold mergeByKey
  rw [List.foldl_append]
  rfl

theorem lookup_entry (m : List (κ × α)) :
    ((k', y) :: m).lookup k = if k = k' then some y else m.lookup k := by
  rw [List.lookup_cons]
  by_cases hk : k = k'
  · rw [if_pos hk, beq_iff_eq.mpr hk]
  · rw [if_neg hk, beq_eq_false_iff_ne.mpr hk]

theorem lookup_mergeAt (m : List (κ × α)) :
    (mergeAt merge k x m).lookup k' =
      if k' = k then some ((m.lookup k).elim x (merge · x)) else m.lookup k' := by
  induction m with
  | nil => exact lookup_entry []
  | cons e m ih =>
      obtain ⟨k'', y⟩ := e
      unfold mergeAt
      by_cases hk : k'' = k
      · subst hk
        rw [if_pos rfl, lookup_entry, lookup_entry, lookup_entry, if_pos rfl]
        split <;> rfl
      · have hne : ¬ k = k'' := fun h => hk h.symm
        rw [if_neg hk, lookup_entry, lookup_entry, lookup_entry, if_neg hne, ih]
        by_cases hk' : k' = k
        · rw [if_pos hk', if_pos hk', if_neg (hk'.trans_ne hne)]
        · rw [if_neg hk', if_neg hk']

theorem keys_mergeAt (m : List (κ × α)) :
    (mergeAt merge k x m).map Prod.fst =
      if k ∈ m.map Prod.fst then m.map Prod.fst else m.map Prod.fst ++ [k] := by
  induction m with
  | nil => rfl
  | cons e m ih =>
      obtain ⟨k', y⟩ := e
      unfold mergeAt
      by_cases hk : k' = k
      · simp [hk]
      · have hk' : ¬ k = k' := fun h => hk h.symm
        rw [if_neg hk, List.map_cons, ih]
        by_cases hmem : k ∈ m.map Prod.fst <;> simp [hmem, hk']

theorem nodup_keys_mergeByKey (xs : List α) :
    ((mergeByKey key merge xs).map Prod.fst).Nodup := by
  induction xs using List.reverseRecOn with
  | nil => exact List.nodup_nil
  | append_singleton xs x ih =>
      rw [mergeByKey_concat, keys_mergeAt]
      split
      · exact ih
      · rename_i hnew
        exact List.nodup_append.mpr ⟨ih, List.nodup_singleton _, fun a ha b hb => by
          rw [List.mem_singleton.mp hb]
          exact fun h => hnew (h ▸ ha)⟩

theorem lookup_mergeByKey (xs : List α) (k : κ) :
    (mergeByKey key merge xs).lookup k = mergeAll merge (xs.filter fun x => key x = k) := by
  induction xs using List.reverseRecOn with
  | nil => rfl
  | append_singleton xs x ih =>
      rw [mergeByKey_concat, lookup_mergeAt, List.filter_append]
      by_cases hk : k = key x
      · subst hk
        have hone : [x].filter (fun y => key y = key x) = [x] := by simp
        rw [if_pos rfl, hone, mergeAll_concat, ih]
      · have hnone : [x].filter (fun y => key y = k) = [] := by
          simpa using fun h : key x = k => hk h.symm
        rw [if_neg hk, hnone, List.append_nil, ih]

/-- With one entry for a key, the entries are what `lookup` finds. -/
theorem mem_iff_lookup {m : List (κ × α)} (h : (m.map Prod.fst).Nodup) :
    (k, y) ∈ m ↔ m.lookup k = some y := by
  induction m with
  | nil => simp
  | cons e m ih =>
      obtain ⟨k', y'⟩ := e
      rw [List.map_cons, List.nodup_cons] at h
      have ih := ih h.2
      by_cases hk : k = k'
      · subst hk
        have hnot : (k, y) ∉ m := fun hm => h.1 (List.mem_map.mpr ⟨_, hm, rfl⟩)
        simp [hnot, eq_comm]
      · simp [lookup_entry, hk, ih]

theorem mem_mergeByKey :
    (k, y) ∈ mergeByKey key merge xs ↔
      mergeAll merge (xs.filter fun x => key x = k) = some y := by
  rw [mem_iff_lookup (nodup_keys_mergeByKey merge key xs), lookup_mergeByKey]

end Merge

end Kubeapps.Lib
