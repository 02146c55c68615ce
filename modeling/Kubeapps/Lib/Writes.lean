/-
  Values written into a map under several keys at once, by one writer after another.

  The last writer of a key wins (`lookup_fill`). The order of the writers makes no difference
  exactly when the writers of a key all write one value (`fill_perm_iff`).
-/
import Mathlib.Data.Finmap

namespace Kubeapps.Lib

section Writes

variable {κ ν α : Type} [DecidableEq κ] {k : κ} {v : ν} {m : Finmap fun _ : κ => ν}

/-- Write `v` under each of the keys. -/
def writeAll (ks : List κ) (v : ν) (m : Finmap fun _ : κ => ν) : Finmap fun _ : κ => ν :=
  ks.foldl (fun m k => m.insert k v) m

theorem lookup_writeAll (ks : List κ) :
    (writeAll ks v m).lookup k = if k ∈ ks then some v else m.lookup k := by
  unfold writeAll
  induction ks generalizing m with
  | nil => rfl
  | cons k' ks ih =>
      rw [List.foldl_cons, ih]
      by_cases hk : k = k'
      · subst hk
        simp [Finmap.lookup_insert]
      · simp [hk, Finmap.lookup_insert_of_ne]

theorem writeAll_congr {ks ks' : List κ} (h : ∀ k, k ∈ ks ↔ k ∈ ks') :
    writeAll ks v m = writeAll ks' v m := by
  apply Finmap.ext_lookup
  intro k
  rw [lookup_writeAll, lookup_writeAll]
  simp only [h]

variable (keys : α → List κ) (val : α → ν)

/-- Every writer of `xs` writes its value under its keys. -/
def fill (xs : List α) (m : Finmap fun _ : κ => ν) : Finmap fun _ : κ => ν :=
  xs.foldl (fun m x => writeAll (keys x) (val x) m) m

theorem lookup_fill_concat (xs : List α) (x : α) :
    (fill keys val (xs ++ [x]) m).lookup k =
      if k ∈ keys x then some (val x) else (fill keys val xs m).lookup k := by
  unfold fill
  rw [List.foldl_append, List.foldl_cons, List.foldl_nil, lookup_writeAll]

/-- The value of the last writer of a key. -/
theorem lookup_fill (xs : List α) :
    (fill keys val xs m).lookup k =
      ((xs.reverse.find? fun x => k ∈ keys x).map val).or (m.lookup k) := by
  induction xs using List.reverseRecOn with
  | nil => rfl
  | append_singleton xs x ih =>
      rw [lookup_fill_concat, List.reverse_append, List.reverse_singleton, List.singleton_append,
        List.find?_cons]
      by_cases hk : k ∈ keys x
      · simp [hk]
      · simp [hk, ih]

/-- The writers of a key write one value. -/
def Agree (xs : List α) : Prop :=
  ∀ x ∈ xs, ∀ y ∈ xs, ∀ k ∈ keys x, k ∈ keys y → val x = val y

variable {keys val} {xs ys : List α}

theorem lookup_fill_of_agree (h : Agree keys val xs) {x : α} (hx : x ∈ xs) (hk : k ∈ keys x) :
    (fill keys val xs m).lookup k = some (val x) := by
  rw [lookup_fill]
  cases hfind : xs.reverse.find? fun y => k ∈ keys y with
  | none =>
      rw [List.find?_eq_none] at hfind
      exact absurd (decide_eq_true hk) (hfind x (List.mem_reverse.mpr hx))
  | some y =>
      have hy := List.mem_reverse.mp (List.mem_of_find?_eq_some hfind)
      have hky : k ∈ keys y := by simpa using List.find?_some hfind
      rw [h x hx y hy k hk hky]
      rfl

theorem lookup_fill_of_none (h : ∀ x ∈ xs, k ∉ keys x) :
    (fill keys val xs m).lookup k = m.lookup k := by
  have hfind : xs.reverse.find? (fun x => k ∈ keys x) = none := by
    rw [List.find?_eq_none]
    exact fun x hx hk => h x (List.mem_reverse.mp hx) (of_decide_eq_true hk)
  rw [lookup_fill, hfind]
  rfl

theorem fill_of_perm (h : Agree keys val xs) (hperm : ys.Perm xs) :
    fill keys val ys m = fill keys val xs m := by
  have hys : Agree keys val ys := fun x hx y hy =>
    h x (hperm.mem_iff.mp hx) y (hperm.mem_iff.mp hy)
  apply Finmap.ext_lookup
  intro k
  by_cases hk : ∃ x ∈ xs, k ∈ keys x
  · obtain ⟨x, hx, hkx⟩ := hk
    rw [lookup_fill_of_agree h hx hkx, lookup_fill_of_agree hys (hperm.mem_iff.mpr hx) hkx]
  · have hnone : ∀ x ∈ xs, k ∉ keys x := fun x hx hkx => hk ⟨x, hx, hkx⟩
    rw [lookup_fill_of_none hnone,
      lookup_fill_of_none fun x hx => hnone x (hperm.mem_iff.mp hx)]

/-- Any writer can be the last one. -/
theorem exists_perm_concat {x : α} (hx : x ∈ xs) : ∃ zs, (zs ++ [x]).Perm xs := by
  obtain ⟨as, bs, rfl⟩ := List.append_of_mem hx
  refine ⟨as ++ bs, ?_⟩
  rw [List.append_assoc]
  exact List.Perm.append_left as (List.perm_append_singleton x bs)

/-- The order makes no difference exactly when the writers of each key agree. -/
theorem fill_perm_iff :
    (∀ ys zs, ys.Perm xs → zs.Perm xs → fill keys val ys m = fill keys val zs m) ↔
      Agree keys val xs := by
  constructor
  · intro h x hx y hy k hkx hky
    obtain ⟨as, has⟩ := exists_perm_concat hx
    obtain ⟨bs, hbs⟩ := exists_perm_concat hy
    have hlookup := congrArg (fun m => m.lookup k) (h _ _ has hbs)
    simp only [lookup_fill_concat, if_pos hkx, if_pos hky] at hlookup
    exact Option.some.inj hlookup
  · intro h ys zs hys hzs
    rw [fill_of_perm h hys, fill_of_perm h hzs]

end Writes

end Kubeapps.Lib
