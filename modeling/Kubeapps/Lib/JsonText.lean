/-
  How PostgreSQL prints a list of strings as jsonb, and which words are in the text.

  A string is between quotes, with the escapes of `escape_json`; the elements of a list have a comma
  and a blank between them. A word without a quote and a backslash that is no part of `, ` and of
  `[]` is in the text if and only if it is in a string of the list (`infix_printed_iff`), as long as
  the only escapes are those of quotes and backslashes.
-/
import Mathlib.Data.List.Infix
import Kubeapps.Lib.Json

namespace Kubeapps.Lib

/-! ## Words -/

section Words

variable {α : Type} {x : α} {word a b : List α}

theorem prefix_append_cons_iff (hx : x ∉ word) : word <+: a ++ x :: b ↔ word <+: a := by
  induction a generalizing word with
  | nil =>
      rw [List.nil_append, List.prefix_nil, List.prefix_cons_iff]
      refine or_iff_left ?_
      intro ⟨rest, hword, _⟩
      rw [hword] at hx
      exact hx List.mem_cons_self
  | cons y a ih =>
      cases word with
      | nil => simp
      | cons z word =>
          rw [List.cons_append, List.cons_prefix_cons, List.cons_prefix_cons,
            ih fun hmem => hx (List.mem_cons_of_mem z hmem)]

/-- A word that does not have `x` is on one side of it. -/
theorem infix_append_cons_iff (hx : x ∉ word) :
    word <:+: a ++ x :: b ↔ word <:+: a ∨ word <:+: b := by
  induction a with
  | nil =>
      rw [List.nil_append, List.infix_cons_iff, List.infix_nil]
      have hstart := prefix_append_cons_iff (a := []) (b := b) hx
      rw [List.nil_append, List.prefix_nil] at hstart
      rw [hstart]
  | cons y a ih =>
      rw [List.cons_append, List.infix_cons_iff, List.infix_cons_iff, ih, ← List.cons_append,
        prefix_append_cons_iff hx, or_assoc]

theorem infix_cons_of_not_mem (hx : x ∉ word) : word <:+: x :: b ↔ word <:+: b := by
  have hsides := infix_append_cons_iff (a := []) (b := b) hx
  rw [List.nil_append, List.infix_nil] at hsides
  rw [hsides]
  refine or_iff_right_of_imp ?_
  intro hword
  rw [hword]
  exact List.nil_infix

/-- Items of one element that has something in front of it or not: a word with neither is in the
    elements if it is in the items. -/
theorem prefix_shielded {β : Type} {f : β → List α} {g : β → α} (hx : x ∉ word) {items : List β}
    (hf : ∀ c ∈ items, f c = [g c] ∨ (f c = [x, g c] ∧ g c ∉ word)) :
    word <+: items.flatMap f ↔ word <+: items.map g := by
  induction items generalizing word with
  | nil => rfl
  | cons c items ih =>
      have hrest : ∀ c ∈ items, f c = [g c] ∨ (f c = [x, g c] ∧ g c ∉ word) :=
        fun c hc => hf c (List.mem_cons_of_mem _ hc)
      rw [List.flatMap_cons, List.map_cons]
      rcases hf c List.mem_cons_self with hc | ⟨hc, hnot⟩
      · rw [hc, List.singleton_append]
        cases word with
        | nil => simp
        | cons z word =>
            have hx' : x ∉ word := fun h => hx (List.mem_cons_of_mem _ h)
            rw [List.cons_prefix_cons, List.cons_prefix_cons, ih hx' fun c hc =>
              (hrest c hc).imp id fun h => ⟨h.1, fun hmem => h.2 (List.mem_cons_of_mem _ hmem)⟩]
      · rw [hc]
        have hleft := prefix_append_cons_iff (a := []) (b := g c :: items.flatMap f) hx
        have hright := prefix_append_cons_iff (a := []) (b := items.map g) hnot
        exact hleft.trans hright.symm

theorem infix_shielded {β : Type} {f : β → List α} {g : β → α} (hx : x ∉ word) {items : List β}
    (hf : ∀ c ∈ items, f c = [g c] ∨ (f c = [x, g c] ∧ g c ∉ word)) :
    word <:+: items.flatMap f ↔ word <:+: items.map g := by
  induction items with
  | nil => rfl
  | cons c items ih =>
      have hrest := ih fun c hc => hf c (List.mem_cons_of_mem _ hc)
      have hstart := prefix_shielded hx hf
      rw [List.flatMap_cons, List.map_cons] at hstart
      rw [List.flatMap_cons, List.map_cons]
      rcases hf c List.mem_cons_self with hc | ⟨hc, hnot⟩
      · rw [hc, List.singleton_append] at hstart ⊢
        rw [List.infix_cons_iff, List.infix_cons_iff, hstart, hrest]
      · rw [hc, infix_cons_of_not_mem hnot, ← hrest]
        show word <:+: x :: g c :: items.flatMap f ↔ _
        rw [infix_cons_of_not_mem hx, infix_cons_of_not_mem hnot]

end Words

/-! ## Printing -/

namespace Json

/-- A character of a string. -/
def escapeChar (c : Char) : List Char :=
  if c = '"' then ['\\', '"']
  else if c = '\\' then ['\\', '\\']
  else if c = '\x08' then ['\\', 'b']
  else if c = '\x0c' then ['\\', 'f']
  else if c = '\n' then ['\\', 'n']
  else if c = '\r' then ['\\', 'r']
  else if c = '\t' then ['\\', 't']
  else if c < ' ' then
    ['\\', 'u', '0', '0', Nat.digitChar (c.toNat / 16), Nat.digitChar (c.toNat % 16)]
  else [c]

/-- The characters of a string, with its escapes. -/
def escaped (s : String) : List Char := s.toList.flatMap escapeChar

def printString (s : String) : String := "\"" ++ String.ofList (escaped s) ++ "\""

def printStrings (ss : List String) : String := "[" ++ ", ".intercalate (ss.map printString) ++ "]"

/-- The characters that have a meaning in a pattern or in the text of a list, and the zero byte. -/
def marks : List Char := [Char.ofNat 0, '%', '_', '\\', '"', ',', ' ', '[', ']']

/-- Folding does not change a mark and does not make one. -/
def KeepsMarks (fold : Char → Char) : Prop := ∀ mark ∈ marks, ∀ c, fold c = mark ↔ c = mark

/-- There is no control character. -/
def NoControls (s : String) : Prop := ∀ c ∈ s.toList, ¬ c < ' '

section Printed

variable {fold : Char → Char} {word : List Char} {s : String} {ss : List String}

theorem escapeChar_of_not_control {c : Char} (hc : ¬ c < ' ') :
    escapeChar c = [c] ∨ (escapeChar c = ['\\', c] ∧ (c = '"' ∨ c = '\\')) := by
  have hne : ∀ control : Char, control < ' ' → c ≠ control := by
    intro control hcontrol heq
    rw [heq] at hc
    exact hc hcontrol
  unfold escapeChar
  rw [if_neg (hne '\x08' (by decide)), if_neg (hne '\x0c' (by decide)),
    if_neg (hne '\n' (by decide)), if_neg (hne '\r' (by decide)), if_neg (hne '\t' (by decide)),
    if_neg hc]
  by_cases hquote : c = '"'
  · rw [if_pos hquote, hquote]
    exact .inr ⟨rfl, .inl rfl⟩
  · rw [if_neg hquote]
    by_cases hback : c = '\\'
    · rw [if_pos hback, hback]
      exact .inr ⟨rfl, .inr rfl⟩
    · rw [if_neg hback]
      exact .inl rfl

/-- A word without a quote and a backslash is in a string if and only if it is in its escapes. -/
theorem infix_escaped_iff (hfold : KeepsMarks fold) (hquote : '"' ∉ word) (hback : '\\' ∉ word)
    (hs : NoControls s) :
    word <:+: (escaped s).map fold ↔ word <:+: s.toList.map fold := by
  unfold escaped
  rw [List.map_flatMap]
  apply infix_shielded hback
  intro c hc
  have hkeep : ∀ mark ∈ marks, fold mark = mark := fun mark hmark => (hfold mark hmark mark).mpr rfl
  rcases escapeChar_of_not_control (hs c hc) with heq | ⟨heq, hmark⟩
  · exact .inl (by rw [heq, List.map_singleton])
  · refine .inr ⟨?_, ?_⟩
    · rw [heq, List.map_cons, List.map_singleton, hkeep '\\' (by decide)]
    · rcases hmark with rfl | rfl
      · rwa [hkeep '"' (by decide)]
      · rwa [hkeep '\\' (by decide)]

theorem toList_printString (s : String) :
    (printString s).toList = '"' :: (escaped s ++ ['"']) := by
  unfold printString
  simp

/-- A string between other texts: its quotes end every word. -/
theorem infix_printString_iff (hfold : KeepsMarks fold) (hquote : '"' ∉ word) (hback : '\\' ∉ word)
    (hs : NoControls s) {pre : List Char} (hpre : ¬ word <:+: pre.map fold) (rest : List Char) :
    word <:+: (pre ++ ((printString s).toList ++ rest)).map fold ↔
      word <:+: s.toList.map fold ∨ word <:+: rest.map fold := by
  have hkeep : fold '"' = '"' := (hfold '"' (by decide) '"').mpr rfl
  rw [toList_printString]
  simp only [List.map_append, List.map_cons, List.cons_append, List.append_assoc, List.nil_append,
    hkeep]
  rw [infix_append_cons_iff hquote, infix_append_cons_iff hquote, or_iff_right hpre,
    infix_escaped_iff hfold hquote hback hs]

/-- The words of a list are those of its strings. -/
theorem infix_printed_iff (hfold : KeepsMarks fold) (hquote : '"' ∉ word) (hback : '\\' ∉ word)
    (hcomma : ¬ word <:+: [',', ' ']) (hempty : ¬ word <:+: ['[', ']'])
    (hss : ∀ s ∈ ss, NoControls s) :
    word <:+: (printStrings ss).toList.map fold ↔ ∃ s ∈ ss, word <:+: s.toList.map fold := by
  have hmarks : ∀ text : List Char, (∀ c ∈ text, c ∈ marks) → text.map fold = text := by
    intro text htext
    have hid := List.map_congr_left fun c hc => (hfold c (htext c hc) c).mpr rfl
    rwa [List.map_id'] at hid
  have hshut : ¬ word <:+: [']'] := fun h => hempty (h.trans (List.suffix_cons '[' [']']).isInfix)
  have hopen : ¬ word <:+: ['['] :=
    fun h => hempty (h.trans (List.prefix_append ['['] [']']).isInfix)
  have hfrom : ∀ (ss : List String) (s : String) (pre : List Char), (∀ t ∈ s :: ss, NoControls t) →
      ¬ word <:+: pre.map fold →
      (word <:+: (pre ++ ([',', ' '].intercalate ((s :: ss).map fun s => (printString s).toList) ++
        [']'])).map fold ↔ ∃ t ∈ s :: ss, word <:+: t.toList.map fold) := by
    intro ss
    induction ss with
    | nil =>
        intro s pre hs hpre
        rw [List.map_singleton, List.intercalate_singleton, infix_printString_iff hfold hquote hback
          (hs s List.mem_cons_self) hpre, hmarks [']'] (by simp [marks]), or_iff_left hshut]
        simp
    | cons s' ss ih =>
        intro s pre hs hpre
        have hrest := ih s' [',', ' '] (fun t ht => hs t (List.mem_cons_of_mem _ ht))
          (by rwa [hmarks [',', ' '] (by simp [marks])])
        rw [List.map_cons] at hrest
        rw [List.map_cons, List.map_cons, List.intercalate_cons_cons, List.append_assoc,
          List.append_assoc, infix_printString_iff hfold hquote hback (hs s List.mem_cons_self) hpre,
          hrest]
        simp only [List.mem_cons, exists_eq_or_imp]
  unfold printStrings
  rw [String.toList_append, String.toList_append, String.toList_intercalate, List.map_map]
  cases ss with
  | nil =>
      have hnone : (([] : List String).map (String.toList ∘ printString)) = [] := rfl
      rw [hnone]
      have htext : "[".toList ++ ", ".toList.intercalate [] ++ "]".toList = ['[', ']'] := rfl
      rw [htext, hmarks ['[', ']'] (by simp [marks])]
      simp [hempty]
  | cons s ss =>
      rw [List.append_assoc]
      exact hfrom ss s ['['] hss (by rwa [hmarks ['['] (by simp [marks])])

end Printed

end Json

end Kubeapps.Lib
