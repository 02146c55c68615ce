/-
  Words between separators, without the blanks around them.

  `trimBy p` drops the elements at both ends of a word that satisfy `p`; a trimmed word is left
  as it is (`trimBy_trimBy`). `trimmedWords_join`: trimmed words without the separator that are
  joined by a separator and a blank are found again.
-/
import Mathlib.Data.List.DropRight
import Mathlib.Data.List.TakeWhile

namespace Kubeapps.Lib

section Trim

variable {α : Type} {p : α → Bool} {l : List α}

/-- The word without the blanks at its ends. -/
def trimBy (p : α → Bool) (l : List α) : List α := (l.dropWhile p).rdropWhile p

theorem mem_of_mem_trimBy {x : α} (h : x ∈ trimBy p l) : x ∈ l :=
  (List.dropWhile_sublist p).mem ((List.rdropWhile_prefix p _).mem h)

theorem trimBy_eq_nil_iff : trimBy p l = [] ↔ ∀ x ∈ l, p x = true := by
  unfold trimBy
  rw [List.rdropWhile_eq_nil_iff]
  constructor
  · intro h
    have hnil : l.dropWhile p = [] := by
      cases hdrop : l.dropWhile p with
      | nil => rfl
      | cons x xs =>
          have hx := List.head?_dropWhile_not p l
          rw [hdrop] at hx h
          exact absurd (h x List.mem_cons_self) (by simpa using hx)
    exact List.dropWhile_eq_nil_iff.mp hnil
  · intro h x hx
    exact h x ((List.dropWhile_sublist p).mem hx)

theorem trimBy_trimBy (p : α → Bool) (l : List α) : trimBy p (trimBy p l) = trimBy p l := by
  have hdrop : (trimBy p l).dropWhile p = trimBy p l := by
    obtain ⟨rest, hrest⟩ := List.rdropWhile_prefix p (l.dropWhile p)
    have hx := List.head?_dropWhile_not p l
    rw [← hrest] at hx
    show ((l.dropWhile p).rdropWhile p).dropWhile p = (l.dropWhile p).rdropWhile p
    cases htrim : (l.dropWhile p).rdropWhile p with
    | nil => rfl
    | cons x xs =>
        rw [htrim] at hx
        exact List.dropWhile_cons_of_neg (by simpa using hx)
  show ((trimBy p l).dropWhile p).rdropWhile p = trimBy p l
  rw [hdrop]
  exact List.rdropWhile_idempotent p _

/-- A blank before the word. -/
theorem trimBy_cons {b : α} (hb : p b = true) (l : List α) : trimBy p (b :: l) = trimBy p l := by
  unfold trimBy
  rw [List.dropWhile_cons_of_pos hb]

/-- The blank after a separator belongs to the next word. -/
theorem intercalate_blank (b c : α) (w : List α) (ws : List (List α)) :
    [c, b].intercalate (w :: ws) = [c].intercalate (w :: ws.map (b :: ·)) := by
  induction ws generalizing w with
  | nil => rfl
  | cons w' ws ih =>
      rw [List.intercalate_cons_cons, ih w', List.map_cons, List.intercalate_cons_cons]
      cases ws with
      | nil => simp
      | cons w'' ws => simp [List.intercalate_cons_cons]

variable [DecidableEq α]

theorem not_mem_of_mem_splitOn {c : α} {word : List α} (h : word ∈ l.splitOn c) : c ∉ word := by
  induction l generalizing word with
  | nil =>
      rw [List.splitOn_nil, List.mem_singleton] at h
      rw [h]
      exact List.not_mem_nil
  | cons x l ih =>
      rw [List.splitOn_cons_eq_if_modifyHead] at h
      by_cases hx : x = c
      · rw [if_pos (beq_iff_eq.mpr hx)] at h
        rcases List.mem_cons.mp h with rfl | h
        · exact List.not_mem_nil
        · exact ih h
      · rw [if_neg (by simpa using hx)] at h
        cases hsplit : l.splitOn c with
        | nil => exact absurd hsplit (List.splitOn_ne_nil _ l)
        | cons w ws =>
            rw [hsplit, List.modifyHead_cons] at h
            rcases List.mem_cons.mp h with rfl | h
            · intro hmem
              rcases List.mem_cons.mp hmem with heq | hmem
              · exact hx heq.symm
              · exact ih (by rw [hsplit]; exact List.mem_cons_self) hmem
            · exact ih (by rw [hsplit]; exact List.mem_cons_of_mem _ h)

/-- The words between separators. -/
def trimmedWords (p : α → Bool) (c : α) (l : List α) : List (List α) :=
  (l.splitOn c).map (trimBy p)

theorem trimmedWords_ne_nil (p : α → Bool) (c : α) (l : List α) : trimmedWords p c l ≠ [] := by
  unfold trimmedWords
  rw [Ne, List.map_eq_nil_iff]
  exact List.splitOn_ne_nil c l

theorem trimBy_of_mem_trimmedWords {c : α} {word : List α} (h : word ∈ trimmedWords p c l) :
    trimBy p word = word := by
  obtain ⟨word', _, rfl⟩ := List.mem_map.mp h
  exact trimBy_trimBy p word'

theorem not_mem_of_mem_trimmedWords {c : α} {word : List α} (h : word ∈ trimmedWords p c l) :
    c ∉ word := by
  obtain ⟨word', hword, rfl⟩ := List.mem_map.mp h
  exact fun hc => not_mem_of_mem_splitOn hword (mem_of_mem_trimBy hc)

theorem trimmedWords_join {b c : α} (hb : p b = true) (hbc : b ≠ c) {words : List (List α)}
    (hne : words ≠ []) (htrim : ∀ word ∈ words, trimBy p word = word)
    (hc : ∀ word ∈ words, c ∉ word) :
    trimmedWords p c ([c, b].intercalate words) = words := by
  obtain ⟨w, ws, rfl⟩ := List.exists_cons_of_ne_nil hne
  have hcut : ∀ word ∈ w :: ws.map (b :: ·), c ∉ word := by
    intro word hword hmem
    rcases List.mem_cons.mp hword with rfl | hword
    · exact hc word List.mem_cons_self hmem
    · obtain ⟨word', hword', rfl⟩ := List.mem_map.mp hword
      rcases List.mem_cons.mp hmem with heq | hmem
      · exact hbc heq.symm
      · exact hc word' (List.mem_cons_of_mem _ hword') hmem
  have hws : (ws.map (b :: ·)).map (trimBy p) = ws := by
    rw [List.map_map]
    have hid : ∀ word ∈ ws, (trimBy p ∘ (b :: ·)) word = id word := by
      intro word hword
      show trimBy p (b :: word) = word
      rw [trimBy_cons hb, htrim word (List.mem_cons_of_mem _ hword)]
    exact (List.map_congr_left hid).trans (List.map_id ws)
  unfold trimmedWords
  rw [intercalate_blank, List.splitOn_intercalate c hcut (List.cons_ne_nil _ _), List.map_cons,
    hws, htrim w List.mem_cons_self]

end Trim

end Kubeapps.Lib
