/-
  What `path.Clean` leaves of a rooted path.

  A path is its elements (`splitOn_joinSlash`). A kept element is not empty and no dot element, and
  a rooted path is clean if all its elements are kept (`pathClean_eq_self_iff`).
-/
import Kubeapps.Lib.NetUrl
import Kubeapps.Lib.Trim

namespace Kubeapps.Lib.Net

/-- An element that `path.Clean` leaves where it is. -/
def Kept (e : Bytes) : Prop := e ≠ [] ∧ e ≠ [ascii '.'] ∧ e ≠ [ascii '.', ascii '.']

instance : DecidablePred Kept := fun e => by unfold Kept; infer_instance

theorem joinSlash_splitOn (p : Bytes) : joinSlash (p.splitOn (ascii '/')) = p :=
  List.intercalate_splitOn _

theorem splitOn_joinSlash {es : List Bytes} (hslash : ∀ e ∈ es, ascii '/' ∉ e) (hne : es ≠ []) :
    (joinSlash es).splitOn (ascii '/') = es := List.splitOn_intercalate _ hslash hne

theorem splitOn_slash_cons (p : Bytes) :
    (ascii '/' :: p).splitOn (ascii '/') = [] :: p.splitOn (ascii '/') :=
  List.splitOn_append_cons_self [] p

theorem slash_not_mem_splitOn {p e : Bytes} (h : e ∈ p.splitOn (ascii '/')) : ascii '/' ∉ e :=
  not_mem_of_mem_splitOn h

/-- What one element does to the elements before it. -/
def cleanElem (rooted : Bool) (kept : List Bytes) (e : Bytes) : List Bytes :=
  if e = [] ∨ e = [ascii '.'] then kept
  else if e = [ascii '.', ascii '.'] then
    match kept with
    | [] => if rooted then [] else [e]
    | k :: ks => if k = [ascii '.', ascii '.'] then e :: k :: ks else ks
  else e :: kept

theorem cleanElems_eq_foldl (rooted : Bool) (kept es : List Bytes) :
    cleanElems rooted kept es = es.foldl (cleanElem rooted) kept := by
  induction es generalizing kept with
  | nil => rfl
  | cons e es ih =>
      rw [List.foldl_cons, ← ih]
      unfold cleanElem
      conv_lhs => unfold cleanElems
      split
      · rfl
      · split
        · cases kept with
          | nil => rfl
          | cons k ks =>
              dsimp only
              split <;> rfl
        · rfl

theorem cleanElems_append {rooted : Bool} (kept es fs : List Bytes) :
    cleanElems rooted kept (es ++ fs) = cleanElems rooted (cleanElems rooted kept es) fs := by
  rw [cleanElems_eq_foldl, cleanElems_eq_foldl, cleanElems_eq_foldl, List.foldl_append]

theorem cleanElems_of_kept {rooted : Bool} {es : List Bytes} (h : ∀ e ∈ es, Kept e)
    (kept : List Bytes) : cleanElems rooted kept es = es.reverse ++ kept := by
  induction es generalizing kept with
  | nil => rfl
  | cons e es ih =>
      obtain ⟨hnil, hdot, hdots⟩ := h e List.mem_cons_self
      unfold cleanElems
      rw [if_neg (not_or.mpr ⟨hnil, hdot⟩), if_neg hdots,
        ih fun e' he' => h e' (List.mem_cons_of_mem _ he')]
      simp

/-- Of a rooted path only kept elements are left. -/
theorem kept_of_cleanElems {es kept : List Bytes} (hkept : ∀ e ∈ kept, Kept e) :
    ∀ e ∈ cleanElems true kept es, Kept e := by
  induction es generalizing kept with
  | nil => exact hkept
  | cons e es ih =>
      unfold cleanElems
      by_cases hskip : e = [] ∨ e = [ascii '.']
      · rw [if_pos hskip]
        exact ih hkept
      · rw [if_neg hskip]
        by_cases hdots : e = [ascii '.', ascii '.']
        · rw [if_pos hdots]
          match kept, hkept with
          | [], _ => exact ih (fun e' he' => absurd he' List.not_mem_nil)
          | k :: ks, hkept =>
              have hk : k ≠ [ascii '.', ascii '.'] := (hkept k List.mem_cons_self).2.2
              show ∀ e ∈ if k = [ascii '.', ascii '.'] then _ else _, Kept e
              rw [if_neg hk]
              exact ih fun e' he' => hkept e' (List.mem_cons_of_mem _ he')
        · rw [if_neg hdots]
          apply ih
          intro e' he'
          rcases List.mem_cons.mp he' with rfl | he'
          · exact ⟨fun h => hskip (Or.inl h), fun h => hskip (Or.inr h), hdots⟩
          · exact hkept e' he'

theorem mem_of_mem_cleanElems {es kept : List Bytes} {e : Bytes}
    (h : e ∈ cleanElems true kept es) : e ∈ kept ∨ e ∈ es := by
  induction es generalizing kept with
  | nil => exact Or.inl h
  | cons e' es ih =>
      have htail : ∀ {kept' : List Bytes}, e ∈ cleanElems true kept' es →
          (∀ x ∈ kept', x ∈ kept ∨ x = e') → e ∈ kept ∨ e ∈ e' :: es := by
        intro kept' hmem hsub
        rcases ih hmem with hmem | hmem
        · rcases hsub e hmem with hmem | heq
          · exact Or.inl hmem
          · rw [heq]
            exact Or.inr List.mem_cons_self
        · exact Or.inr (List.mem_cons_of_mem _ hmem)
      unfold cleanElems at h
      split at h
      · exact htail h fun x hx => Or.inl hx
      · split at h
        · cases kept with
          | nil => exact htail h fun x hx => absurd hx List.not_mem_nil
          | cons k ks =>
              dsimp only at h
              split at h
              · refine htail h fun x hx => ?_
                rcases List.mem_cons.mp hx with hx | hx
                · exact Or.inr hx
                · exact Or.inl hx
              · exact htail h fun x hx => Or.inl (List.mem_cons_of_mem _ hx)
        · refine htail h fun x hx => ?_
          rcases List.mem_cons.mp hx with hx | hx
          · exact Or.inr hx
          · exact Or.inl hx

/-- `path.Clean` of a rooted path. -/
theorem pathClean_rooted (rest : Bytes) :
    pathClean (ascii '/' :: rest) =
      ascii '/' :: joinSlash (cleanElems true [] (rest.splitOn (ascii '/'))).reverse := by
  unfold pathClean
  rw [splitOn_slash_cons]
  rfl

/-- What is left of a rooted path has only kept elements. -/
theorem splitOn_pathClean {rest : Bytes}
    (hne : cleanElems true [] (rest.splitOn (ascii '/')) ≠ []) :
    ∃ rest', pathClean (ascii '/' :: rest) = ascii '/' :: rest' ∧
      ∀ e ∈ rest'.splitOn (ascii '/'), Kept e := by
  refine ⟨_, pathClean_rooted rest, ?_⟩
  have hslash : ∀ e ∈ (cleanElems true [] (rest.splitOn (ascii '/'))).reverse, ascii '/' ∉ e := by
    intro e he
    rcases mem_of_mem_cleanElems (List.mem_reverse.mp he) with he | he
    · exact absurd he List.not_mem_nil
    · exact slash_not_mem_splitOn he
  rw [splitOn_joinSlash hslash (by simpa using hne)]
  intro e he
  exact kept_of_cleanElems (fun e he => absurd he List.not_mem_nil) e (List.mem_reverse.mp he)

theorem pathClean_of_kept {rest : Bytes} (h : ∀ e ∈ rest.splitOn (ascii '/'), Kept e) :
    pathClean (ascii '/' :: rest) = ascii '/' :: rest := by
  rw [pathClean_rooted, cleanElems_of_kept h, List.append_nil, List.reverse_reverse,
    joinSlash_splitOn]

end Kubeapps.Lib.Net
