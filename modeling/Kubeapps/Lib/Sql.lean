/-
  A `NOT IN` list of string literals, as SQL text.

  `parseNotIn head tail` reads a statement of the shape `head 'a', 'b', … tail` and returns the
  strings the literals denote. Literals are standard conforming: everything up to the closing
  quote stands for itself, and a doubled quote for one quote. The list must not be empty.

  `parseNotIn_quoted`: the text made by putting each string between quotes denotes these
  strings, if there is one and none of them has a quote in it. `parseNotIn_empty`: without
  any, the text is not a statement.
-/
import Mathlib.Data.List.Basic
import Mathlib.Tactic.Cases

namespace Kubeapps.Lib

/-- The rest of a literal after its opening quote: its characters and what follows the closing
    quote. `none` if it is not closed. -/
def litBody : List Char → Option (List Char × List Char)
  | [] => none
  | '\'' :: '\'' :: rest => (litBody rest).map fun (b, r) => ('\'' :: b, r)
  | '\'' :: rest => some ([], rest)
  | c :: rest => (litBody rest).map fun (b, r) => (c :: b, r)

/-- A non-empty list of literals separated by `, `, and what follows it. The first argument
    bounds the number of literals. -/
def litList : Nat → List Char → Option (List String × List Char)
  | 0, _ => none
  | n + 1, '\'' :: cs =>
      match litBody cs with
      | none => none
      | some (b, ',' :: ' ' :: rest) =>
          (litList n rest).map fun (ls, r) => (String.ofList b :: ls, r)
      | some (b, rest) => some ([String.ofList b], rest)
  | _ + 1, _ => none

/-- The strings of the list between `head` and `tail`; `none` when the text is not such a
    statement. -/
def parseNotIn (head tail : String) (text : String) : Option (List String) :=
  if head.toList <+: text.toList then
    let cs := text.toList.drop head.toList.length
    match litList cs.length cs with
    | some (ls, rest) => if rest = tail.toList then some ls else none
    | none => none
  else none

/-- A string between quotes, as `fmt.Sprintf("'%s'", s)` puts it. -/
def quoted (s : String) : String := "'" ++ s ++ "'"

theorem toList_quoted (s : String) : (quoted s).toList = '\'' :: (s.toList ++ ['\'']) := by
  simp [quoted]

/-- Without a quote in it a literal is read back as it is, up to a character that is not a
    quote. -/
theorem litBody_noQuote {l rest : List Char} (h : '\'' ∉ l) (hr : rest.head? ≠ some '\'') :
    litBody (l ++ '\'' :: rest) = some (l, rest) := by
  induction l with
  | nil =>
      cases rest with
      | nil => rfl
      | cons c rest =>
          have hc : c ≠ '\'' := by
            rintro rfl
            exact hr rfl
          rw [List.nil_append, litBody]
          rintro rest' heq
          cases heq
          exact hc rfl
  | cons c l ih =>
      have hc : c ≠ '\'' := by
        rintro rfl
        exact h List.mem_cons_self
      have hl : '\'' ∉ l := fun hm => h (List.mem_cons_of_mem _ hm)
      rw [List.cons_append, litBody, ih hl]
      · rfl
      · exact fun _ heq _ => hc heq
      · exact fun heq => hc heq

/-- The quoted strings, joined: the characters between `head` and `tail`. -/
def quotedList (ss : List String) : List Char :=
  [',', ' '].intercalate (ss.map fun s => (quoted s).toList)

theorem quotedList_cons_cons (s t : String) (ts : List String) :
    quotedList (s :: t :: ts) =
      '\'' :: (s.toList ++ '\'' :: ',' :: ' ' :: quotedList (t :: ts)) := by
  simp [quotedList, toList_quoted]

theorem litList_quotedList {n : Nat} {ss : List String} {rest : List Char} (hn : ss.length ≤ n)
    (hne : ss ≠ []) (hq : ∀ s ∈ ss, '\'' ∉ s.toList) (hr : rest.head? ≠ some '\'')
    (hr' : rest.head? ≠ some ',') :
    litList n (quotedList ss ++ rest) = some (ss, rest) := by
  induction ss generalizing n with
  | nil => exact absurd rfl hne
  | cons s ts ih =>
      have hs := hq s List.mem_cons_self
      cases n with
      | zero => simp at hn
      | succ n =>
          cases ts with
          | nil =>
              have hl : quotedList [s] ++ rest = '\'' :: (s.toList ++ '\'' :: rest) := by
                simp [quotedList, toList_quoted]
              rw [hl, litList, litBody_noQuote hs hr]
              dsimp only
              split
              · rename_i heq
                cases heq
              · rename_i heq
                cases heq
                exact absurd rfl hr'
              · rename_i heq
                cases heq
                rw [String.ofList_toList]
          | cons t ts =>
              have ht := ih (n := n) (by simpa using hn) (List.cons_ne_nil t ts)
                (fun x hx => hq x (List.mem_cons_of_mem _ hx))
              have hl : quotedList (s :: t :: ts) ++ rest =
                  '\'' :: (s.toList ++ '\'' :: (',' :: ' ' :: (quotedList (t :: ts) ++ rest))) := by
                rw [quotedList_cons_cons]
                simp
              rw [hl, litList, litBody_noQuote hs (by simp)]
              simp [ht]

theorem length_le_quotedList (ss : List String) : ss.length ≤ (quotedList ss).length := by
  induction ss with
  | nil => simp
  | cons s ts ih =>
      cases ts with
      | nil => simp [quotedList, toList_quoted]
      | cons t ts =>
          rw [quotedList_cons_cons]
          simp only [List.length_cons, List.length_append] at ih ⊢
          omega

theorem toList_notIn (head tail : String) (ss : List String) :
    (head ++ ", ".intercalate (ss.map quoted) ++ tail).toList =
      head.toList ++ (quotedList ss ++ tail.toList) := by
  simp [quotedList, String.toList_intercalate, Function.comp_def]

theorem parseNotIn_eq (head tail : String) (ss : List String) :
    parseNotIn head tail (head ++ ", ".intercalate (ss.map quoted) ++ tail) =
      match litList (quotedList ss ++ tail.toList).length (quotedList ss ++ tail.toList) with
      | some (ls, rest) => if rest = tail.toList then some ls else none
      | none => none := by
  unfold parseNotIn
  rw [toList_notIn, if_pos (List.prefix_append _ _)]
  simp only [List.drop_left]

/-- A list of strings without quotes, each between quotes, denotes itself. -/
theorem parseNotIn_quoted {head tail : String} {ss : List String} (hne : ss ≠ [])
    (hq : ∀ s ∈ ss, '\'' ∉ s.toList) (ht : tail.toList.head? = some ')') :
    parseNotIn head tail (head ++ ", ".intercalate (ss.map quoted) ++ tail) = some ss := by
  have hlen : ss.length ≤ (quotedList ss ++ tail.toList).length := by
    have := length_le_quotedList ss
    rw [List.length_append]
    omega
  rw [parseNotIn_eq, litList_quotedList hlen hne hq (by simp [ht]) (by simp [ht])]
  simp

/-- `NOT IN ()` is not SQL. -/
theorem parseNotIn_empty {head tail : String} (ht : tail.toList.head? = some ')') :
    parseNotIn head tail (head ++ ", ".intercalate (([] : List String).map quoted) ++ tail) =
      none := by
  rw [parseNotIn_eq]
  cases htail : tail.toList with
  | nil => simp [htail] at ht
  | cons c cs =>
      have hc : c = ')' := by simpa [htail] using ht
      subst hc
      simp [quotedList, litList]

end Kubeapps.Lib
