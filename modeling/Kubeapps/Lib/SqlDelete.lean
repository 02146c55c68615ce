/-
  `DELETE FROM t WHERE c NOT IN ('a', 'b', …) AND x = $1 AND …`, read from its tokens.

  `lex_notIn`, `readDelete_idTokens`: strings that are put between quotes are read back as the
  literals of the statement if none of them has a quote in it, and if there is one; without any
  the text is no statement.
-/
import Kubeapps.Lib.Sql
import Kubeapps.Lib.SqlTokens

namespace Kubeapps.Lib.Sql

/-- Delete the rows of `table` whose `column` is none of `ids` and that have the parameters in
    these columns. -/
structure DeleteNotIn where
  table : String
  column : String
  ids : List String
  equals : List (String × Nat)
  deriving DecidableEq, Repr

/-- The literals of a list that is not empty, and what follows it. -/
def readIds : List Token → Option (List String × List Token)
  | .str s :: .rparen :: rest => some ([s], rest)
  | .str s :: .comma :: rest => (readIds rest).map fun (ss, r) => (s :: ss, r)
  | _ => none

def readEquals : List Token → Option (List (String × Nat))
  | [] => some []
  | .word "AND" :: .word column :: .op "=" :: .param n :: rest =>
      (readEquals rest).map ((column, n) :: ·)
  | _ => none

/-- The statement that the tokens are. -/
def readDelete : List Token → Option DeleteNotIn
  | .word "DELETE" :: .word "FROM" :: .word table :: .word "WHERE" :: .word column ::
      .word "NOT" :: .word "IN" :: .lparen :: rest => do
      let (ids, rest) ← readIds rest
      let equals ← readEquals rest
      return ⟨table, column, ids, equals⟩
  | _ => none

/-! ## A list of literals -/

/-- The tokens of a list, with its closing parenthesis. -/
def idTokens : List String → List Token
  | [] => [.rparen]
  | [s] => [.str s, .rparen]
  | s :: ss => .str s :: .comma :: idTokens ss

theorem readIds_idTokens {ss : List String} (hne : ss ≠ []) (rest : List Token) :
    readIds (idTokens ss ++ rest) = some (ss, rest) := by
  induction ss with
  | nil => exact absurd rfl hne
  | cons s ts ih =>
      cases ts with
      | nil => rfl
      | cons t ts =>
          have htail := ih (List.cons_ne_nil t ts)
          show (readIds (idTokens (t :: ts) ++ rest)).map _ = _
          rw [htail]
          rfl

theorem lexFrom_str {l : List Char} (h : '\'' ∉ l) (before : List Char) :
    lexFrom (.str before) (l ++ ['\'']) = some ([], .closed (before ++ l)) := by
  induction l generalizing before with
  | nil =>
      rw [List.append_nil]
      rfl
  | cons c l ih =>
      have hc : c ≠ '\'' := fun heq => h (heq ▸ List.mem_cons_self)
      have hstep : lexStep (.str before) c = some ([], .str (before ++ [c])) := if_neg hc
      rw [List.cons_append]
      refine lexFrom_cons.2 ⟨[], _, [], hstep, ?_, rfl⟩
      rw [ih fun hm => h (List.mem_cons_of_mem c hm), List.append_assoc]
      rfl

theorem lexFrom_quoted {s : String} (h : '\'' ∉ s.toList) :
    lexFrom .none (quoted s).toList = some ([], .closed s.toList) := by
  rw [toList_quoted]
  exact lexFrom_cons.2 ⟨[], .str [], [], rfl, lexFrom_str h [], rfl⟩

/-- The list is lexed up to its closing parenthesis. -/
theorem lexFrom_quotedList {ss : List String} (hq : ∀ s ∈ ss, '\'' ∉ s.toList) :
    lexFrom .none (quotedList ss ++ [')']) = some (idTokens ss, .none) := by
  induction ss with
  | nil => rfl
  | cons s ts ih =>
      have hs := lexFrom_quoted (hq s List.mem_cons_self)
      cases ts with
      | nil =>
          have hclose : lexFrom (.closed s.toList) [')'] =
              some ([.str (String.ofList s.toList), .rparen], .none) := rfl
          have hone : quotedList [s] = (quoted s).toList := by simp [quotedList]
          rw [hone, lexFrom_append hs hclose, String.ofList_toList]
          rfl
      | cons t ts =>
          have htail := ih fun x hx => hq x (List.mem_cons_of_mem s hx)
          have hcomma : lexFrom (.closed s.toList) [',', ' '] =
              some ([.str (String.ofList s.toList), .comma], .none) := rfl
          have hlist : quotedList (s :: t :: ts) ++ [')'] =
              (quoted s).toList ++ ([',', ' '] ++ (quotedList (t :: ts) ++ [')'])) := by
            rw [quotedList_cons_cons, toList_quoted]
            simp
          rw [hlist, lexFrom_append hs (lexFrom_append hcomma htail), String.ofList_toList]
          rfl

/-! ## The statement -/

section Statement

variable {head tail table column : String} {equals : List (String × Nat)} {ss : List String}
  {headTokens tailTokens : List Token}

/-- What the text before the list and the text after it are to the lexer. -/
theorem lex_notIn (hhead : lexFrom .none head.toList = some (headTokens, .none))
    (htail : Lexes tail.toList tailTokens) (hq : ∀ s ∈ ss, '\'' ∉ s.toList) :
    lex (head ++ ", ".intercalate (ss.map quoted) ++ (")" ++ tail)).toList =
      some (headTokens ++ (idTokens ss ++ tailTokens)) := by
  have hlist : (head ++ ", ".intercalate (ss.map quoted) ++ (")" ++ tail)).toList =
      head.toList ++ ((quotedList ss ++ [')']) ++ tail.toList) := by
    rw [toList_notIn]
    simp
  rw [hlist]
  apply lex_of_lexes
  exact Lexes.of_clean hhead (Lexes.of_clean (lexFrom_quotedList hq) htail)

/-- The tokens before the list. -/
def deleteHead (table column : String) : List Token :=
  [.word "DELETE", .word "FROM", .word table, .word "WHERE", .word column, .word "NOT", .word "IN",
    .lparen]

theorem readDelete_idTokens (hne : ss ≠ []) (hequals : readEquals tailTokens = some equals) :
    readDelete (deleteHead table column ++ (idTokens ss ++ tailTokens)) =
      some ⟨table, column, ss, equals⟩ := by
  show ((readIds (idTokens ss ++ tailTokens)).bind fun p =>
    (readEquals p.2).bind fun equals => some (⟨table, column, p.1, equals⟩ : DeleteNotIn)) = _
  rw [readIds_idTokens hne, Option.bind_some, hequals]
  rfl

theorem readDelete_nil :
    readDelete (deleteHead table column ++ (idTokens [] ++ tailTokens)) = none := rfl

end Statement

end Kubeapps.Lib.Sql
