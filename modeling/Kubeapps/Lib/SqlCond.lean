/-
  Conditions of SQL on rows with JSON columns: what a text means.

  `readCond` reads the tokens of a condition with a stack of open parentheses: AND binds closer
  than OR, a comparison closer than AND, ILIKE closer than `=`, and `->`, `->>` and `@>` closer
  still, from the left; `::` is next to its operand. Texts are put together by the rules for the
  pieces: `IsOperand.atom`, `IsOperand.paren`, `readsCond_orAll` and `readsCond_andAll`.

  `Cond.eval` has the three truth values of SQL, and an error where an operand has the wrong type
  or is no JSON. What PostgreSQL takes for JSON, how it prints it, `@>` and `ILIKE` are a
  `Dialect`.
-/
import Kubeapps.Lib.Json
import Kubeapps.Lib.SqlTokens

namespace Kubeapps.Lib.Sql

/-! ## Syntax -/

inductive Expr where
  | col (name : String)
  | param (n : Nat)
  | lit (s : String)
  | op (name : String) (l r : Expr)
  | cast (e : Expr) (type : String)
  deriving DecidableEq, Repr

inductive Cond where
  | atom (e : Expr)
  | and (l r : Cond)
  | or (l r : Cond)
  deriving DecidableEq, Repr

/-- An operand of a comparison while it is read: what is left of its last operator, and what is
    right of it. After `::` a type has to come. -/
structure Operand where
  left : Option (Expr × String)
  right : Option Expr
  casting : Bool

def Operand.join (left : Option (Expr × String)) (r : Expr) : Expr :=
  left.elim r fun (l, o) => .op o l r

/-- A word, a parameter or a literal. -/
def Operand.primary (s : Operand) (e : Expr) : Option Operand :=
  if s.right.isNone then some { s with right := some e } else none

def operandStep (s : Operand) : Token → Option Operand
  | .op o =>
      match s.right with
      | none => none
      | some r =>
          if s.casting then none
          else if o = "::" then some { s with casting := true }
          else if o = "->" ∨ o = "->>" ∨ o = "@>" then
            some ⟨some (Operand.join s.left r, o), none, false⟩
          else none
  | .word w =>
      if s.casting then
        s.right.map fun r => { s with right := some (.cast r w), casting := false }
      else s.primary (.col w)
  | .param n => s.primary (.param n)
  | .str l => s.primary (.lit l)
  | _ => none

def readOperand (ts : List Token) : Option Expr := do
  let s ← ts.foldlM operandStep ⟨none, none, false⟩
  if s.casting then none else s.right.map (Operand.join s.left)

/-- The name of a comparison. -/
def comparison : Token → Option String
  | .op "=" => some "="
  | .word "ILIKE" => some "ILIKE"
  | _ => none

/-- An expression with at most one comparison. -/
def readExpr (ts : List Token) : Option Expr :=
  match ts.span fun t => (comparison t).isNone with
  | (l, []) => readOperand l
  | (l, c :: r) => do return .op (← comparison c) (← readOperand l) (← readOperand r)

/-- What has been read since the last AND, OR or parenthesis. -/
inductive Current where
  | none
  | atom (ts : List Token)
  | cond (c : Cond)

/-- The conditions between two parentheses. -/
structure Frame where
  ors : Option Cond
  ands : Option Cond
  cur : Current

def Current.close : Current → Option Cond
  | .none => Option.none
  | .atom ts => (readExpr ts).map Cond.atom
  | .cond c => some c

/-- The conjunction with what has been read before. -/
def conj (before : Option Cond) (c : Cond) : Cond := before.elim c fun b => .and b c

def disj (before : Option Cond) (c : Cond) : Cond := before.elim c fun b => .or b c

def Frame.close (f : Frame) : Option Cond := f.cur.close.map fun c => disj f.ors (conj f.ands c)

def Frame.empty : Frame := ⟨none, none, .none⟩

def readStep : Frame × List Frame → Token → Option (Frame × List Frame)
  | (f, stack), .lparen =>
      match f.cur with
      | .none => some (.empty, f :: stack)
      | _ => none
  | (f, stack), .rparen =>
      match stack with
      | [] => none
      | g :: stack => f.close.map fun c => ({ g with cur := .cond c }, stack)
  | (f, stack), .word "AND" =>
      f.cur.close.map fun c => ({ f with ands := some (conj f.ands c), cur := .none }, stack)
  | (f, stack), .word "OR" => f.close.map fun c => (⟨some c, none, .none⟩, stack)
  | (f, stack), t =>
      match f.cur with
      | .none => some ({ f with cur := .atom [t] }, stack)
      | .atom ts => some ({ f with cur := .atom (ts ++ [t]) }, stack)
      | .cond _ => none

/-- The condition that the tokens are. -/
def readCond (ts : List Token) : Option Cond :=
  match ts.foldlM readStep (.empty, []) with
  | some (f, []) => f.close
  | _ => none

/-! ## Rules for pieces -/

section Pieces

variable {ts us : List Token} {c d : Cond} {e : Expr}

/-- The tokens are one operand of AND and OR. -/
def IsOperand (ts : List Token) (c : Cond) : Prop :=
  ∀ (f : Frame) (stack : List Frame), f.cur = .none →
    ∃ cur, ts.foldlM readStep (f, stack) = some ({ f with cur := cur }, stack) ∧
      cur.close = some c

/-- The tokens are what is between two parentheses. -/
def ReadsCond (ts : List Token) (c : Cond) : Prop :=
  ∀ stack, ∃ f, ts.foldlM readStep (.empty, stack) = some (f, stack) ∧ f.close = some c

theorem readCond_of_reads (h : ReadsCond ts c) : readCond ts = some c := by
  obtain ⟨f, hread, hclose⟩ := h []
  unfold readCond
  rw [hread]
  exact hclose

/-- A token of an expression. -/
def Token.plain : Token → Bool
  | .lparen => false
  | .rparen => false
  | .word s => s ≠ "AND" && s ≠ "OR"
  | _ => true

theorem readStep_plain {t : Token} (ht : t.plain = true) (f : Frame) (stack : List Frame) :
    readStep (f, stack) t =
      match f.cur with
      | .none => some ({ f with cur := .atom [t] }, stack)
      | .atom ts => some ({ f with cur := .atom (ts ++ [t]) }, stack)
      | .cond _ => none := by
  unfold readStep
  split
  · exact absurd ht (by decide)
  · exact absurd ht (by decide)
  · exact absurd ht (by decide)
  · exact absurd ht (by decide)
  · rename_i f' stack' heq _ _ _ _
    obtain ⟨rfl, rfl⟩ := Prod.mk.inj heq
    rfl

/-- An expression is an operand. -/
theorem IsOperand.atom (hplain : ∀ t ∈ ts, t.plain = true) (h : readExpr ts = some e) :
    IsOperand ts (.atom e) := by
  have hmore : ∀ (us ts : List Token) (f : Frame) (stack : List Frame),
      (∀ t ∈ ts, t.plain = true) → f.cur = .atom us →
        ts.foldlM readStep (f, stack) = some ({ f with cur := .atom (us ++ ts) }, stack) := by
    intro us ts
    induction ts generalizing us with
    | nil =>
        intro f stack _ hcur
        rw [List.append_nil, ← hcur]
        rfl
    | cons t ts ih =>
        intro f stack hts hcur
        rw [List.foldlM_cons, readStep_plain (hts t List.mem_cons_self), hcur]
        show ts.foldlM readStep ({ f with cur := .atom (us ++ [t]) }, stack) = _
        rw [ih (us ++ [t]) _ stack (fun u hu => hts u (List.mem_cons_of_mem _ hu)) rfl,
          List.append_assoc]
        rfl
  intro f stack hcur
  refine ⟨.atom ts, ?_, by rw [Current.close, h]; rfl⟩
  cases ts with
  | nil =>
      have hnil : readExpr [] = none := by decide
      rw [hnil] at h
      exact absurd h (by simp)
  | cons t ts =>
      rw [List.foldlM_cons, readStep_plain (hplain t List.mem_cons_self), hcur]
      show ts.foldlM readStep ({ f with cur := .atom [t] }, stack) = _
      rw [hmore [t] ts _ stack (fun u hu => hplain u (List.mem_cons_of_mem _ hu)) rfl]
      rfl

/-- So is a condition in parentheses. -/
theorem IsOperand.paren (h : ReadsCond ts c) : IsOperand (.lparen :: (ts ++ [.rparen])) c := by
  intro f stack hcur
  obtain ⟨g, hread, hclose⟩ := h (f :: stack)
  refine ⟨.cond c, ?_, rfl⟩
  have hopen : readStep (f, stack) .lparen = some (.empty, f :: stack) := by
    unfold readStep
    simp only [hcur]
  have hshut : readStep (g, f :: stack) .rparen = some ({ f with cur := .cond c }, stack) := by
    unfold readStep
    simp only [hclose]
    rfl
  rw [List.foldlM_cons, hopen]
  show (ts ++ [Token.rparen]).foldlM readStep (.empty, f :: stack) = _
  rw [List.foldlM_append, hread]
  show [Token.rparen].foldlM readStep (g, f :: stack) = _
  rw [List.foldlM_cons, hshut]
  rfl

/-- A disjunction from the left. -/
def orAll (c : Cond) (cs : List Cond) : Cond := cs.foldl .or c

def andAll (c : Cond) (cs : List Cond) : Cond := cs.foldl .and c

/-- A list of operands with the same word between them. -/
theorem readsCond_one (h : IsOperand ts c) : ReadsCond ts c := by
  intro stack
  obtain ⟨cur, hread, hclose⟩ := h .empty stack rfl
  refine ⟨_, hread, ?_⟩
  unfold Frame.close
  rw [hclose]
  rfl

/-- One more operand after OR. -/
theorem readsCond_or (h : ReadsCond ts c) (h' : IsOperand us d) :
    ReadsCond (ts ++ .word "OR" :: us) (.or c d) := by
  intro stack
  obtain ⟨f, hread, hclose⟩ := h stack
  obtain ⟨cur, hread', hclose'⟩ := h' ⟨some c, none, .none⟩ stack rfl
  have hword : readStep (f, stack) (.word "OR") = some (⟨some c, none, .none⟩, stack) := by
    show f.close.map _ = _
    rw [hclose]
    rfl
  refine ⟨⟨some c, none, cur⟩, ?_, ?_⟩
  · rw [List.foldlM_append, hread]
    show (Token.word "OR" :: us).foldlM readStep (f, stack) = _
    rw [List.foldlM_cons, hword]
    exact hread'
  · unfold Frame.close
    rw [hclose']
    rfl

theorem readsCond_orAll (pieces : List (List Token × Cond)) (h : ReadsCond ts c)
    (hpieces : ∀ piece ∈ pieces, IsOperand piece.1 piece.2) :
    ReadsCond (ts ++ pieces.flatMap fun piece => .word "OR" :: piece.1)
      (orAll c (pieces.map Prod.snd)) := by
  induction pieces generalizing ts c with
  | nil =>
      rw [List.flatMap_nil, List.append_nil]
      exact h
  | cons piece pieces ih =>
      have hstep := readsCond_or h (hpieces piece List.mem_cons_self)
      have hrest := ih hstep fun p hp => hpieces p (List.mem_cons_of_mem _ hp)
      rw [List.append_assoc] at hrest
      exact hrest

/-- Nothing but operands and AND so far. -/
def ReadsAnds (ts : List Token) (c : Cond) : Prop :=
  ∀ stack, ∃ f, ts.foldlM readStep (.empty, stack) = some (f, stack) ∧ f.ors = none ∧
    f.close = some c

theorem readsAnds_one (h : IsOperand ts c) : ReadsAnds ts c := by
  intro stack
  obtain ⟨cur, hread, hclose⟩ := h .empty stack rfl
  refine ⟨_, hread, rfl, ?_⟩
  unfold Frame.close
  rw [hclose]
  rfl

theorem readsAnds_and (h : ReadsAnds ts c) (h' : IsOperand us d) :
    ReadsAnds (ts ++ .word "AND" :: us) (.and c d) := by
  intro stack
  obtain ⟨f, hread, hors, hclose⟩ := h stack
  obtain ⟨cur, hread', hclose'⟩ := h' ⟨none, some c, .none⟩ stack rfl
  have hword : readStep (f, stack) (.word "AND") = some (⟨none, some c, .none⟩, stack) := by
    obtain ⟨b, hb, hc⟩ := Option.map_eq_some_iff.mp hclose
    rw [hors] at hc
    show f.cur.close.map (fun c =>
      ({ f with ands := some (conj f.ands c), cur := .none }, stack)) = _
    rw [hb, ← hors, ← hc]
    rfl
  refine ⟨⟨none, some c, cur⟩, ?_, rfl, ?_⟩
  · rw [List.foldlM_append, hread]
    show (Token.word "AND" :: us).foldlM readStep (f, stack) = _
    rw [List.foldlM_cons, hword]
    exact hread'
  · unfold Frame.close
    rw [hclose']
    rfl

theorem readsCond_andAll (pieces : List (List Token × Cond)) (h : IsOperand ts c)
    (hpieces : ∀ piece ∈ pieces, IsOperand piece.1 piece.2) :
    ReadsCond (ts ++ pieces.flatMap fun piece => .word "AND" :: piece.1)
      (andAll c (pieces.map Prod.snd)) := by
  have hall : ∀ {ts c}, ReadsAnds ts c →
      ReadsAnds (ts ++ pieces.flatMap fun piece => .word "AND" :: piece.1)
        (andAll c (pieces.map Prod.snd)) := by
    induction pieces with
    | nil =>
        intro ts c h
        rw [List.flatMap_nil, List.append_nil]
        exact h
    | cons piece pieces ih =>
        intro ts c h
        have hstep := readsAnds_and h (hpieces piece List.mem_cons_self)
        have hrest := ih (fun p hp => hpieces p (List.mem_cons_of_mem _ hp)) hstep
        rw [List.append_assoc] at hrest
        exact hrest
  intro stack
  obtain ⟨f, hread, _, hclose⟩ := hall (readsAnds_one h) stack
  exact ⟨f, hread, hclose⟩

end Pieces

/-! ## Clauses -/

/-- A text that is one operand of AND and OR. -/
structure Clause where
  text : String
  tokens : List Token
  cond : Cond
  lexes : Lexes text.toList tokens
  operand : IsOperand tokens cond

/-- The tokens of some clauses with a word between them. -/
def joinTokens (w : Token) (c : Clause) (cs : List Clause) : List Token :=
  c.tokens ++ cs.flatMap fun c => w :: c.tokens

/-- The word begins with a blank and is between two. -/
theorem lexes_join (sep : String) (w : Token) (sep' : List Char) (hsep : sep.toList = ' ' :: sep')
    (hlex : lexFrom .none sep.toList = some ([w], .none)) (c : Clause) (cs : List Clause) :
    Lexes (sep.intercalate ((c :: cs).map Clause.text)).toList (joinTokens w c cs) := by
  rw [String.toList_intercalate, List.map_map]
  induction cs generalizing c with
  | nil =>
      rw [List.map_singleton, List.intercalate_singleton]
      have hone : joinTokens w c [] = c.tokens := List.append_nil c.tokens
      rw [hone]
      exact c.lexes
  | cons c' cs ih =>
      have hrest := Lexes.of_clean hlex (ih c')
      have htokens : joinTokens w c (c' :: cs) = c.tokens ++ ([w] ++ joinTokens w c' cs) := rfl
      rw [hsep] at hrest
      rw [List.map_cons, List.map_cons, List.intercalate_cons_cons, List.append_assoc, htokens,
        hsep]
      exact c.lexes.append rfl hrest

theorem lexes_paren {cs : List Char} {ts : List Token} (h : Lexes cs ts) :
    Lexes ('(' :: (cs ++ [')'])) (.lparen :: (ts ++ [.rparen])) := by
  have hshut : Lexes [')'] [.rparen] := ⟨[.rparen], .none, [], rfl, rfl, rfl⟩
  have hopen : lexFrom .none ['('] = some ([.lparen], .none) := rfl
  exact Lexes.of_clean hopen (h.append rfl hshut)

theorem lexes_anyOf (c : Clause) (cs : List Clause) :
    Lexes ("(" ++ " OR ".intercalate ((c :: cs).map Clause.text) ++ ")").toList
      (.lparen :: (joinTokens (.word "OR") c cs ++ [.rparen])) := by
  have hjoin := lexes_paren (lexes_join " OR " (.word "OR") ['O', 'R', ' '] rfl rfl c cs)
  rw [String.toList_append, String.toList_append]
  exact hjoin

theorem isOperand_anyOf (c : Clause) (cs : List Clause) :
    IsOperand (.lparen :: (joinTokens (.word "OR") c cs ++ [.rparen]))
      (orAll c.cond (cs.map Clause.cond)) := by
  have hreads := readsCond_orAll (cs.map fun c => (c.tokens, c.cond)) (readsCond_one c.operand)
    (fun piece hpiece => by
      obtain ⟨c', _, rfl⟩ := List.mem_map.mp hpiece
      exact c'.operand)
  rw [List.flatMap_map, List.map_map] at hreads
  exact IsOperand.paren hreads

/-- The disjunction of some clauses, in parentheses. -/
def Clause.anyOf (c : Clause) (cs : List Clause) : Clause where
  text := "(" ++ " OR ".intercalate ((c :: cs).map Clause.text) ++ ")"
  tokens := .lparen :: (joinTokens (.word "OR") c cs ++ [.rparen])
  cond := orAll c.cond (cs.map Clause.cond)
  lexes := lexes_anyOf c cs
  operand := isOperand_anyOf c cs

/-- The conjunction of some clauses. -/
theorem read_allOf (c : Clause) (cs : List Clause) :
    Lexes (" AND ".intercalate ((c :: cs).map Clause.text)).toList
        (joinTokens (.word "AND") c cs) ∧
      readCond (joinTokens (.word "AND") c cs) = some (andAll c.cond (cs.map Clause.cond)) := by
  have hreads := readsCond_andAll (cs.map fun c => (c.tokens, c.cond)) c.operand
    (fun piece hpiece => by
      obtain ⟨c', _, rfl⟩ := List.mem_map.mp hpiece
      exact c'.operand)
  rw [List.flatMap_map, List.map_map] at hreads
  exact ⟨lexes_join " AND " (.word "AND") ['A', 'N', 'D', ' '] rfl rfl c cs,
    readCond_of_reads hreads⟩

/-! ## Values -/

inductive Datum where
  | null
  | text (s : String)
  | json (j : Json)
  | bool (b : Bool)

/-- What PostgreSQL does with JSON and with patterns. -/
structure Dialect where
  parseJson : String → Option Json
  printJson : Json → String
  contains : Json → Json → Bool
  ilike : String → String → Bool

/-- The field of a jsonb object; of several with one key the last one is kept. -/
def field (j : Json) (key : String) : Option Json :=
  match j with
  | .obj fields => (fields.reverse.find? fun entry => entry.1 = key).map Prod.snd
  | _ => none

/-- A field as JSON. -/
def arrow (j : Json) (key : String) : Datum := (field j key).elim .null .json

/-- A field as text. -/
def arrowText (d : Dialect) (j : Json) (key : String) : Datum :=
  match field j key with
  | none => .null
  | some .null => .null
  | some (.str s) => .text s
  | some j => .text (d.printJson j)

theorem arrowText_null {d : Dialect} {j : Json} {key : String} (h : field j key = some .null) :
    arrowText d j key = .null := by
  unfold arrowText
  rw [h]

theorem arrowText_arr {d : Dialect} {j : Json} {key : String} {elems : List Json}
    (h : field j key = some (.arr elems)) :
    arrowText d j key = .text (d.printJson (.arr elems)) := by
  unfold arrowText
  rw [h]

def noOperator : String := "operator does not exist"

/-- An operator. All of them make NULL of NULL. -/
def applyOp (d : Dialect) : String → Datum → Datum → Except String Datum
  | _, .null, _ => .ok .null
  | _, _, .null => .ok .null
  | "->", .json j, .text key => .ok (arrow j key)
  | "->>", .json j, .text key => .ok (arrowText d j key)
  | "@>", .json j, .json j' => .ok (.bool (d.contains j j'))
  | "=", .text s, .text s' => .ok (.bool (s = s'))
  | "ILIKE", .text s, .text pattern => .ok (.bool (d.ilike s pattern))
  | _, _, _ => .error noOperator

/-- `::type`. -/
def castTo (d : Dialect) : String → Datum → Except String Datum
  | _, .null => .ok .null
  | "jsonb", .text s =>
      match d.parseJson s with
      | some j => .ok (.json j)
      | none => .error "invalid input syntax for type json"
  | _, _ => .error "cannot cast type"

theorem castTo_jsonb (d : Dialect) (s : String) : castTo d "jsonb" (.text s) =
    (d.parseJson s).elim (.error "invalid input syntax for type json") fun j => .ok (.json j) := by
  cases hparse : d.parseJson s with
  | none => simp [castTo, hparse]
  | some j => simp [castTo, hparse]

/-- The value of an expression on a row, given by its columns. `$1` is the first parameter. -/
def Expr.eval (d : Dialect) (row : String → Option Datum) (params : List String) :
    Expr → Except String Datum
  | .col name => (row name).elim (.error "column does not exist") .ok
  | .param n =>
      if n = 0 then .error "there is no parameter $0"
      else (params[n - 1]?).elim (.error "there is no such parameter") fun s => .ok (.text s)
  | .lit s => .ok (.text s)
  | .op o l r => do applyOp d o (← l.eval d row params) (← r.eval d row params)
  | .cast e type => do castTo d type (← e.eval d row params)

def and3 : Option Bool → Option Bool → Option Bool
  | some false, _ => some false
  | _, some false => some false
  | some true, some true => some true
  | _, _ => none

def or3 : Option Bool → Option Bool → Option Bool
  | some true, _ => some true
  | _, some true => some true
  | some false, some false => some false
  | _, _ => none

theorem and3_eq_true_iff {v w : Option Bool} :
    and3 v w = some true ↔ v = some true ∧ w = some true := by
  unfold and3
  split <;> simp_all

theorem or3_eq_true_iff {v w : Option Bool} :
    or3 v w = some true ↔ v = some true ∨ w = some true := by
  unfold or3
  split <;> simp_all

/-- The truth value of a condition: NULL is `none`. -/
def Cond.eval (d : Dialect) (row : String → Option Datum) (params : List String) :
    Cond → Except String (Option Bool)
  | .atom e => do
      match ← e.eval d row params with
      | .bool b => return some b
      | .null => return none
      | _ => throw "argument of WHERE must be type boolean"
  | .and l r => do return and3 (← l.eval d row params) (← r.eval d row params)
  | .or l r => do return or3 (← l.eval d row params) (← r.eval d row params)

section Eval

variable {d : Dialect} {row : String → Option Datum} {params : List String} {c : Cond}
  {cs : List Cond}

/-- The row is one that the condition selects. -/
def Cond.Holds (d : Dialect) (row : String → Option Datum) (params : List String) (c : Cond) :
    Prop := c.eval d row params = .ok (some true)

theorem holds_and {l r : Cond} :
    (Cond.and l r).Holds d row params ↔ l.Holds d row params ∧ r.Holds d row params := by
  show ((l.eval d row params).bind fun v => (r.eval d row params).bind fun w =>
    .ok (and3 v w)) = .ok (some true) ↔ _
  unfold Cond.Holds
  cases hl : l.eval d row params with
  | error err => simp [Except.bind]
  | ok v =>
      cases hr : r.eval d row params with
      | error err => simp [Except.bind]
      | ok w =>
          simp [Except.bind, and3_eq_true_iff]

theorem holds_andAll : (andAll c cs).Holds d row params ↔
    c.Holds d row params ∧ ∀ c' ∈ cs, c'.Holds d row params := by
  induction cs generalizing c with
  | nil => simp [andAll]
  | cons c' cs ih =>
      show (andAll (.and c c') cs).Holds d row params ↔ _
      rw [ih, holds_and, List.forall_mem_cons, and_assoc]

/-- The condition has a truth value, whatever it is. -/
def Cond.Evaluates (d : Dialect) (row : String → Option Datum) (params : List String) (c : Cond) :
    Prop := ∃ v, c.eval d row params = .ok v

theorem holds_or {l r : Cond} (hl : l.Evaluates d row params) (hr : r.Evaluates d row params) :
    (Cond.or l r).Evaluates d row params ∧
      ((Cond.or l r).Holds d row params ↔ l.Holds d row params ∨ r.Holds d row params) := by
  obtain ⟨v, hv⟩ := hl
  obtain ⟨w, hw⟩ := hr
  have heval : (Cond.or l r).eval d row params = .ok (or3 v w) := by
    show ((l.eval d row params).bind fun v => (r.eval d row params).bind fun w =>
      .ok (or3 v w)) = _
    rw [hv, hw]
    rfl
  refine ⟨⟨_, heval⟩, ?_⟩
  unfold Cond.Holds
  rw [heval, hv, hw]
  simp only [Except.ok.injEq, or3_eq_true_iff]

theorem holds_orAll (hc : c.Evaluates d row params) (hcs : ∀ c' ∈ cs, c'.Evaluates d row params) :
    (orAll c cs).Evaluates d row params ∧
      ((orAll c cs).Holds d row params ↔
        c.Holds d row params ∨ ∃ c' ∈ cs, c'.Holds d row params) := by
  induction cs generalizing c with
  | nil => exact ⟨hc, by simp [orAll]⟩
  | cons c' cs ih =>
      obtain ⟨hvalue, hone⟩ := holds_or hc (hcs c' List.mem_cons_self)
      obtain ⟨hall, hiff⟩ := ih hvalue fun c hc => hcs c (List.mem_cons_of_mem _ hc)
      refine ⟨hall, ?_⟩
      show (orAll (.or c c') cs).Holds d row params ↔ _
      rw [hiff, hone, or_assoc]
      simp

/-- The parameter with this number. -/
def IsParam (params : List String) (n : Nat) (s : String) : Prop :=
  n ≠ 0 ∧ params[n - 1]? = some s

theorem eval_param {n : Nat} {s : String} (h : IsParam params n s) :
    (Expr.param n).eval d row params = .ok (.text s) := by
  show (if n = 0 then _ else _) = _
  rw [if_neg h.1, h.2]
  rfl

/-- A comparison of a text, or NULL, with a parameter. -/
theorem holds_eq {lhs : Expr} {v : Datum} {n : Nat} {s : String}
    (hlhs : lhs.eval d row params = .ok v) (htext : v = .null ∨ ∃ t, v = .text t)
    (hn : IsParam params n s) :
    (Cond.atom (.op "=" lhs (.param n))).Evaluates d row params ∧
      ((Cond.atom (.op "=" lhs (.param n))).Holds d row params ↔ v = .text s) := by
  have heval : (Expr.op "=" lhs (.param n)).eval d row params = applyOp d "=" v (.text s) := by
    show ((lhs.eval d row params).bind fun v => ((Expr.param n).eval d row params).bind _) = _
    rw [hlhs, eval_param hn]
    rfl
  unfold Cond.Evaluates Cond.Holds Cond.eval
  rw [heval]
  rcases htext with rfl | ⟨t, rfl⟩
  · exact ⟨⟨none, rfl⟩, by simp [applyOp, bind, Except.bind, pure, Except.pure]⟩
  · exact ⟨⟨some (t = s), rfl⟩, by simp [applyOp, bind, Except.bind, pure, Except.pure]⟩

theorem holds_ilike {lhs : Expr} {v : Datum} {n : Nat} {s : String}
    (hlhs : lhs.eval d row params = .ok v) (htext : v = .null ∨ ∃ t, v = .text t)
    (hn : IsParam params n s) :
    (Cond.atom (.op "ILIKE" lhs (.param n))).Evaluates d row params ∧
      ((Cond.atom (.op "ILIKE" lhs (.param n))).Holds d row params ↔
        ∃ t, v = .text t ∧ d.ilike t s = true) := by
  have heval : (Expr.op "ILIKE" lhs (.param n)).eval d row params =
      applyOp d "ILIKE" v (.text s) := by
    show ((lhs.eval d row params).bind fun v => ((Expr.param n).eval d row params).bind _) = _
    rw [hlhs, eval_param hn]
    rfl
  unfold Cond.Evaluates Cond.Holds Cond.eval
  rw [heval]
  rcases htext with rfl | ⟨t, rfl⟩
  · exact ⟨⟨none, rfl⟩, by simp [applyOp, bind, Except.bind, pure, Except.pure]⟩
  · exact ⟨⟨some (d.ilike t s), rfl⟩, by simp [applyOp, bind, Except.bind, pure, Except.pure]⟩

theorem arrowText_text (d : Dialect) (j : Json) (key : String) :
    arrowText d j key = .null ∨ ∃ t, arrowText d j key = .text t := by
  unfold arrowText
  split
  · exact .inl rfl
  · exact .inl rfl
  · exact .inr ⟨_, rfl⟩
  · exact .inr ⟨_, rfl⟩

theorem holds_anyOf {c : Clause} {cs : List Clause}
    (h : ∀ c' ∈ c :: cs, c'.cond.Evaluates d row params) :
    (Clause.anyOf c cs).cond.Evaluates d row params ∧
      ((Clause.anyOf c cs).cond.Holds d row params ↔
        ∃ c' ∈ c :: cs, c'.cond.Holds d row params) := by
  have hcs : ∀ c' ∈ cs.map Clause.cond, c'.Evaluates d row params := by
    intro c' hc'
    obtain ⟨clause, hclause, rfl⟩ := List.mem_map.mp hc'
    exact h clause (List.mem_cons_of_mem _ hclause)
  obtain ⟨hvalue, hiff⟩ := holds_orAll (h c List.mem_cons_self) hcs
  refine ⟨hvalue, hiff.trans ?_⟩
  simp

end Eval

/-! ## The parameters of a text -/

section Placeholders

variable {k : Nat}

theorem mem_placeholders {ts : List Token} : k ∈ placeholders ts ↔ Token.param k ∈ ts := by
  unfold placeholders
  rw [List.mem_filterMap]
  constructor
  · intro ⟨t, ht, hk⟩
    cases t with
    | param n => exact Option.some.inj hk ▸ ht
    | _ => exact absurd hk (by simp)
  · intro h
    exact ⟨_, h, rfl⟩

theorem mem_joinTokens {w : Token} (hw : w ≠ .param k) {c : Clause} {cs : List Clause} :
    .param k ∈ joinTokens w c cs ↔ ∃ c' ∈ c :: cs, .param k ∈ c'.tokens := by
  unfold joinTokens
  simp [hw.symm]

theorem mem_anyOf {c : Clause} {cs : List Clause} :
    .param k ∈ (Clause.anyOf c cs).tokens ↔ ∃ c' ∈ c :: cs, .param k ∈ c'.tokens := by
  rw [← mem_joinTokens (w := .word "OR") (by simp)]
  show .param k ∈ Token.lparen :: (joinTokens (.word "OR") c cs ++ [.rparen]) ↔ _
  simp

end Placeholders

end Kubeapps.Lib.Sql
