/-
  JSON pointers: a path of keys written as one text.

  The keys stand after slashes; in a key `~` is written `~0` and `/` is written `~1`. To read a
  pointer is to cut it at its slashes and to unescape the parts: `unescapeKey_escapeKey` and
  `split_escaped` are the two halves of the round trip.
-/
import Kubeapps.Lib.Text
import Kubeapps.Lib.Trim
import Mathlib.Algebra.GroupWithZero.Nat
import Mathlib.Tactic.Cases

namespace Kubeapps.Lib

/-- Put `c` for every `~` that is followed by `mark`. -/
def replaceTilde (mark c : Char) : List Char → List Char
  | [] => []
  | [x] => [x]
  | x :: y :: rest =>
      if x = '~' ∧ y = mark then c :: replaceTilde mark c rest
      else x :: replaceTilde mark c (y :: rest)

/-- A character with `~` escaped. -/
def escapeTilde (c : Char) : List Char := if c = '~' then ['~', '0'] else [c]

/-- A character of a key as it stands in a pointer. -/
def escapeKeyChar (c : Char) : List Char := if c = '/' then ['~', '1'] else escapeTilde c

/-- The key as it stands in a pointer. -/
def escapeKey (key : String) : String := String.ofList (key.toList.flatMap escapeKeyChar)

/-- The key that is written so: first the slashes, then the tildes. -/
def unescapeKey (s : String) : String :=
  String.ofList (replaceTilde '0' '~' (replaceTilde '1' '/' s.toList))

/-- The parts between the slashes. -/
def splitAtSlashes (s : String) : List String := (splitSlash s).map String.ofList

/-- The pointer to the value at the keys, of which there is at least one. -/
def pointer (keys : List String) : String := "/" ++ "/".intercalate (keys.map escapeKey)

example : pointer ["a/b", "~1"] = "/a~1b/~01" := by decide

/-! ## Reading a key -/

section Escape

variable {mark c x y : Char} {rest : List Char}

theorem replaceTilde_hit :
    replaceTilde mark c ('~' :: mark :: rest) = c :: replaceTilde mark c rest :=
  if_pos ⟨rfl, rfl⟩

theorem replaceTilde_miss (h : y ≠ mark) :
    replaceTilde mark c ('~' :: y :: rest) = '~' :: replaceTilde mark c (y :: rest) :=
  if_neg fun hy => h hy.2

theorem replaceTilde_cons (h : x ≠ '~') :
    replaceTilde mark c (x :: rest) = x :: replaceTilde mark c rest := by
  cases rest with
  | nil => rfl
  | cons y rest => exact if_neg fun hx => h hx.1

/-- The slashes are read; the tildes are still escaped. -/
theorem replaceTilde_escaped (cs : List Char) :
    replaceTilde '1' '/' (cs.flatMap escapeKeyChar) = cs.flatMap escapeTilde := by
  induction cs with
  | nil => rfl
  | cons c cs ih =>
      rw [List.flatMap_cons, List.flatMap_cons, ← ih]
      unfold escapeKeyChar escapeTilde
      by_cases hs : c = '/'
      · subst hs
        exact replaceTilde_hit
      · rw [if_neg hs]
        by_cases ht : c = '~'
        · rw [if_pos ht]
          exact (replaceTilde_miss (by decide)).trans
            (congrArg ('~' :: ·) (replaceTilde_cons (by decide)))
        · rw [if_neg ht]
          exact replaceTilde_cons ht

theorem replaceTilde_tildes (cs : List Char) :
    replaceTilde '0' '~' (cs.flatMap escapeTilde) = cs := by
  induction cs with
  | nil => rfl
  | cons c cs ih =>
      rw [List.flatMap_cons]
      unfold escapeTilde
      by_cases ht : c = '~'
      · rw [if_pos ht, ht]
        exact replaceTilde_hit.trans (congrArg ('~' :: ·) ih)
      · rw [if_neg ht]
        exact (replaceTilde_cons ht).trans (congrArg (c :: ·) ih)

/-- A key is read as it was written. -/
@[simp] theorem unescapeKey_escapeKey (key : String) : unescapeKey (escapeKey key) = key := by
  unfold unescapeKey escapeKey
  rw [String.toList_ofList, replaceTilde_escaped, replaceTilde_tildes, String.ofList_toList]

theorem slash_not_mem_escapeKey (key : String) : '/' ∉ (escapeKey key).toList := by
  unfold escapeKey
  rw [String.toList_ofList, List.mem_flatMap]
  rintro ⟨c, _, hc⟩
  unfold escapeKeyChar escapeTilde at hc
  split at hc
  · revert hc
    decide
  · rename_i hs
    split at hc
    · revert hc
      decide
    · exact hs (List.mem_singleton.mp hc).symm

end Escape

/-! ## Reading a path -/

/-- Texts without slashes are the parts of what they are joined to. -/
theorem split_joined {ws : List String} (hslash : ∀ w ∈ ws, '/' ∉ w.toList) (hne : ws ≠ []) :
    splitAtSlashes ("/".intercalate ws) = ws := by
  have hjoin : ("/".intercalate ws).toList = ['/'].intercalate (ws.map String.toList) :=
    String.toList_intercalate
  unfold splitAtSlashes splitSlash
  rw [hjoin, List.splitOn_intercalate]
  · rw [List.map_map]
    exact (List.map_congr_left fun w _ => String.ofList_toList).trans (List.map_id ws)
  · intro l hl
    obtain ⟨w, hw, rfl⟩ := List.mem_map.mp hl
    exact hslash w hw
  · exact fun h => hne (List.map_eq_nil_iff.mp h)

/-- The parts of a pointer, after its first slash, are its escaped keys. -/
theorem split_escaped {keys : List String} (hne : keys ≠ []) :
    splitAtSlashes ("/".intercalate (keys.map escapeKey)) = keys.map escapeKey := by
  apply split_joined
  · intro w hw
    obtain ⟨key, _, rfl⟩ := List.mem_map.mp hw
    exact slash_not_mem_escapeKey key
  · exact fun h => hne (List.map_eq_nil_iff.mp h)

theorem unescape_escaped (keys : List String) :
    (keys.map escapeKey).map unescapeKey = keys := by
  rw [List.map_map]
  exact (List.map_congr_left fun key _ => unescapeKey_escapeKey key).trans (List.map_id keys)

/-! ## Texts that are read as they are -/

/-- A text is its parts with slashes between them. -/
theorem intercalate_split (s : String) : "/".intercalate (splitAtSlashes s) = s := by
  have hjoin : ['/'].intercalate (splitSlash s) = s.toList := List.intercalate_splitOn '/'
  rw [← String.toList_inj, String.toList_intercalate, ← hjoin]
  unfold splitAtSlashes
  rw [List.map_map]
  exact congrArg _ ((List.map_congr_left fun w _ => String.toList_ofList).trans (List.map_id _))

/-- Parts have no slashes. -/
theorem slash_not_mem_of_mem_split {s w : String} (h : w ∈ splitAtSlashes s) :
    '/' ∉ w.toList := by
  obtain ⟨cs, hcs, rfl⟩ := List.mem_map.mp h
  rw [String.toList_ofList]
  exact fun hmem => not_mem_of_mem_splitOn hcs hmem

theorem replaceTilde_of_no_tilde {mark c : Char} {cs : List Char} (h : '~' ∉ cs) :
    replaceTilde mark c cs = cs := by
  induction cs with
  | nil => rfl
  | cons x cs ih =>
      rw [List.mem_cons, not_or] at h
      rw [replaceTilde_cons (Ne.symm h.1), ih h.2]

theorem unescapeKey_of_no_tilde {s : String} (h : '~' ∉ s.toList) : unescapeKey s = s := by
  unfold unescapeKey
  rw [replaceTilde_of_no_tilde h, replaceTilde_of_no_tilde h, String.ofList_toList]

section Weight

variable {f : Char → Nat} {mark c : Char}

/-- What the characters of a text weigh together. -/
def weigh (f : Char → Nat) (s : String) : Nat := (s.toList.map f).sum

theorem weigh_append (s s' : String) : weigh f (s ++ s') = weigh f s + weigh f s' := by
  simp [weigh]

theorem weigh_slash : weigh f "/" = f '/' := by
  simp [weigh]

/-- Joined texts weigh what they weigh and the slashes between them. -/
theorem weigh_intercalate {ws : List String} (hne : ws ≠ []) :
    weigh f ("/".intercalate ws) + f '/' = (ws.map (weigh f)).sum + ws.length * f '/' := by
  induction ws with
  | nil => exact absurd rfl hne
  | cons w ws ih =>
      cases ws with
      | nil => simp
      | cons w' ws =>
          have hrest := ih (List.cons_ne_nil w' ws)
          rw [String.intercalate_cons_cons, weigh_append, weigh_append, weigh_slash, List.map_cons,
            List.sum_cons, List.length_cons, Nat.succ_mul]
          omega

/-- What is put for two characters weighs no more. -/
theorem weigh_replaceTilde (h : f c ≤ f '~' + f mark) (cs : List Char) :
    ((replaceTilde mark c cs).map f).sum ≤ (cs.map f).sum := by
  fun_induction replaceTilde mark c cs with
  | case1 => exact Nat.le_refl _
  | case2 x => exact Nat.le_refl _
  | case3 x y rest hxy ih =>
      obtain ⟨rfl, rfl⟩ := hxy
      simp only [List.map_cons, List.sum_cons]
      omega
  | case4 x y rest hxy ih =>
      simp only [List.map_cons, List.sum_cons] at ih ⊢
      omega

theorem weigh_unescapeKey (h : f '/' ≤ f '~' + f '1') (s : String) :
    weigh f (unescapeKey s) ≤ weigh f s := by
  unfold weigh unescapeKey
  rw [String.toList_ofList]
  exact (weigh_replaceTilde (Nat.le_add_right _ _) _).trans (weigh_replaceTilde h _)

theorem weigh_eq_zero_iff {s : String} : weigh f s = 0 ↔ ∀ c ∈ s.toList, f c = 0 := by
  unfold weigh
  rw [List.sum_eq_zero_iff_forall_eq_nat]
  exact List.forall_mem_map

end Weight

end Kubeapps.Lib
