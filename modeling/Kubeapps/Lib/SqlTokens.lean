/-
  The tokens of SQL: words, `$n`, operators, literals, parentheses and commas.

  `lexFrom` reads one character after the other and keeps the token it is in, so a text is read
  piece by piece (`lexFrom_append`). `Lexes cs ts` says that a piece on its own has these tokens;
  a blank or a parenthesis after it does not change that (`Lexes.append`), and a blank at the end
  of it ends its last token (`Lexes.of_clean`).
-/
import Mathlib.Data.List.Basic
import Mathlib.Tactic.Cases

namespace Kubeapps.Lib.Sql

inductive Token where
  | word (s : String)
  | param (n : Nat)
  | op (s : String)
  | str (s : String)
  | lparen
  | rparen
  | comma
  deriving DecidableEq, Repr

/-- The token that the characters so far may belong to. `closed` is a literal after a quote, which
    may be the first half of a doubled one. -/
inductive Pending where
  | none
  | word (s : List Char)
  | param (n : Nat)
  | op (s : List Char)
  | str (s : List Char)
  | closed (s : List Char)
  deriving DecidableEq, Repr

def wordStart (c : Char) : Bool := c.isAlpha || c == '_'

def wordChar (c : Char) : Bool := c.isAlphanum || c == '_'

def opChar (c : Char) : Bool :=
  c ∈ ['+', '-', '*', '/', '<', '>', '=', '~', '!', '@', '#', '%', '^', '&', '|', '?', ':']

/-- The tokens at the end of the text. A literal has to be closed. -/
def Pending.finish : Pending → Option (List Token)
  | .none => some []
  | .word s => some [.word (String.ofList s)]
  | .param n => some [.param n]
  | .op s => some [.op (String.ofList s)]
  | .str _ => Option.none
  | .closed s => some [.str (String.ofList s)]

/-- A character that begins a token or is one. -/
def lexStart (c : Char) : Option (List Token × Pending) :=
  if c = ' ' then some ([], .none)
  else if c = '(' then some ([.lparen], .none)
  else if c = ')' then some ([.rparen], .none)
  else if c = ',' then some ([.comma], .none)
  else if c = '$' then some ([], .param 0)
  else if c = '\'' then some ([], .str [])
  else if wordStart c then some ([], .word [c])
  else if opChar c then some ([], .op [c])
  else none

/-- A character that does not belong to the token. -/
def lexNext (p : Pending) (c : Char) : Option (List Token × Pending) := do
  let ts ← p.finish
  let (us, q) ← lexStart c
  return (ts ++ us, q)

/-- The tokens that a character ends, and the one it belongs to. -/
def lexStep : Pending → Char → Option (List Token × Pending)
  | .none, c => lexStart c
  | .word s, c => if wordChar c then some ([], .word (s ++ [c])) else lexNext (.word s) c
  | .param n, c =>
      if c.isDigit then some ([], .param (10 * n + (c.toNat - '0'.toNat)))
      else lexNext (.param n) c
  | .op s, c => if opChar c then some ([], .op (s ++ [c])) else lexNext (.op s) c
  | .str s, c => if c = '\'' then some ([], .closed s) else some ([], .str (s ++ [c]))
  | .closed s, c => if c = '\'' then some ([], .str (s ++ [c])) else lexNext (.closed s) c

def lexFrom : Pending → List Char → Option (List Token × Pending)
  | p, [] => some ([], p)
  | p, c :: cs => do
      let (ts, p') ← lexStep p c
      let (us, q) ← lexFrom p' cs
      return (ts ++ us, q)

/-- The tokens of a text. -/
def lex (cs : List Char) : Option (List Token) := do
  let (ts, p) ← lexFrom .none cs
  let us ← p.finish
  return ts ++ us

example : lex "(a->>'it''s' = $12)".toList =
    some [.lparen, .word "a", .op "->>", .str "it's", .op "=", .param 12, .rparen] := by decide

/-! ## Pieces of a text -/

section Pieces

variable {p q r : Pending} {c : Char} {cs ds : List Char} {ts us : List Token}

theorem lexFrom_cons : lexFrom p (c :: cs) = some (ts, q) ↔
    ∃ us p' vs, lexStep p c = some (us, p') ∧ lexFrom p' cs = some (vs, q) ∧ ts = us ++ vs := by
  show ((lexStep p c).bind fun (us, p') => (lexFrom p' cs).bind fun (vs, q) =>
    some (us ++ vs, q)) = some (ts, q) ↔ _
  constructor
  · intro h
    obtain ⟨⟨us, p'⟩, hstep, h⟩ := Option.bind_eq_some_iff.mp h
    obtain ⟨⟨vs, q'⟩, hrest, h⟩ := Option.bind_eq_some_iff.mp h
    obtain ⟨hts, hq⟩ := Prod.mk.inj (Option.some.inj h)
    exact ⟨us, p', vs, hstep, hq ▸ hrest, hts.symm⟩
  · intro ⟨us, p', vs, hstep, hrest, hts⟩
    rw [hstep, hts]
    show ((lexFrom p' cs).bind fun (vs, q) => some (us ++ vs, q)) = _
    rw [hrest]
    rfl

theorem lexFrom_append (h : lexFrom p cs = some (ts, q)) (h' : lexFrom q ds = some (us, r)) :
    lexFrom p (cs ++ ds) = some (ts ++ us, r) := by
  induction cs generalizing p ts with
  | nil =>
      obtain ⟨hts, hq⟩ := Prod.mk.inj (Option.some.inj h)
      rw [← hts, hq]
      exact h'
  | cons c cs ih =>
      obtain ⟨us₁, p', vs, hstep, hrest, rfl⟩ := lexFrom_cons.1 h
      rw [List.cons_append]
      exact lexFrom_cons.2 ⟨us₁, p', vs ++ us, hstep, ih hrest, List.append_assoc us₁ vs us⟩

/-- The piece has these tokens. -/
def Lexes (cs : List Char) (ts : List Token) : Prop :=
  ∃ us p vs, lexFrom .none cs = some (us, p) ∧ p.finish = some vs ∧ ts = us ++ vs

theorem lex_of_lexes (h : Lexes cs ts) : lex cs = some ts := by
  obtain ⟨us, p, vs, hlex, hfinish, rfl⟩ := h
  unfold lex
  rw [hlex]
  show (p.finish.bind fun vs => some (us ++ vs)) = some (us ++ vs)
  rw [hfinish]
  rfl

/-- A piece that ends between tokens. -/
theorem Lexes.of_clean (h : lexFrom .none cs = some (ts, .none)) (h' : Lexes ds us) :
    Lexes (cs ++ ds) (ts ++ us) := by
  obtain ⟨us', p, vs, hlex, hfinish, rfl⟩ := h'
  exact ⟨ts ++ us', p, vs, lexFrom_append h hlex, hfinish, (List.append_assoc ts us' vs).symm⟩

/-- A blank or a parenthesis. -/
def delimiter (c : Char) : Bool := c == ' ' || c == '(' || c == ')'

/-- It ends every token that may end. -/
theorem lexStep_delimiter (hc : delimiter c = true) (h : p.finish = some ts) :
    lexStep p c = (lexStart c).map fun (us, q) => (ts ++ us, q) := by
  have hnot : wordChar c = false ∧ c.isDigit = false ∧ opChar c = false ∧ c ≠ '\'' := by
    unfold delimiter at hc
    rw [Bool.or_eq_true, Bool.or_eq_true, beq_iff_eq, beq_iff_eq, beq_iff_eq] at hc
    rcases hc with (rfl | rfl) | rfl
    · decide
    · decide
    · decide
  have hnext : lexNext p c = (lexStart c).map fun (us, q) => (ts ++ us, q) := by
    show (p.finish.bind fun ts => (lexStart c).bind fun (us, q) => some (ts ++ us, q)) = _
    rw [h, Option.bind_some]
    cases lexStart c with
    | none => rfl
    | some next => rfl
  rw [← hnext]
  cases p with
  | none =>
      show lexStart c = ((lexStart c).bind fun (us, q) => some ([] ++ us, q))
      cases lexStart c with
      | none => rfl
      | some next => rfl
  | word s => exact if_neg (by rw [hnot.1]; exact Bool.false_ne_true)
  | param n => exact if_neg (by rw [hnot.2.1]; exact Bool.false_ne_true)
  | op s => exact if_neg (by rw [hnot.2.2.1]; exact Bool.false_ne_true)
  | str s => exact absurd h (by simp [Pending.finish])
  | closed s => exact if_neg hnot.2.2.2

theorem Lexes.append (h : Lexes cs ts) (hc : delimiter c = true) (h' : Lexes (c :: ds) us) :
    Lexes (cs ++ c :: ds) (ts ++ us) := by
  obtain ⟨us₁, p, vs₁, hlex, hfinish, rfl⟩ := h
  obtain ⟨us₂, q, vs₂, hlex', hfinish', rfl⟩ := h'
  obtain ⟨us₃, p', us₄, hstep, hrest, rfl⟩ := lexFrom_cons.1 hlex'
  have hdelim : lexStep p c = some (vs₁ ++ us₃, p') := by
    have hstart : lexStart c = some (us₃, p') := hstep
    rw [lexStep_delimiter hc hfinish, hstart]
    rfl
  have htail : lexFrom p (c :: ds) = some (vs₁ ++ us₃ ++ us₄, q) :=
    lexFrom_cons.2 ⟨_, _, _, hdelim, hrest, rfl⟩
  refine ⟨_, q, vs₂, lexFrom_append hlex htail, hfinish', ?_⟩
  simp only [List.append_assoc]

end Pieces

/-! ## Parameters -/

/-- `$n` in decimal. -/
theorem lexFrom_param (n : Nat) :
    lexFrom .none ("$" ++ toString n).toList = some ([], .param n) := by
  have hdigits : ∀ (cs : List Char) (m : Nat), (∀ c ∈ cs, c.isDigit = true) →
      lexFrom (.param m) cs = some ([], .param (Nat.ofDigitChars 10 cs m)) := by
    intro cs
    induction cs with
    | nil => exact fun m _ => rfl
    | cons c cs ih =>
        intro m hcs
        have hstep : lexStep (.param m) c =
            some ([], .param (10 * m + (c.toNat - '0'.toNat))) :=
          if_pos (hcs c List.mem_cons_self)
        refine lexFrom_cons.2 ⟨[], _, [], hstep, ?_, rfl⟩
        rw [ih _ fun d hd => hcs d (List.mem_cons_of_mem _ hd), Nat.ofDigitChars_cons]
  have hlist : ("$" ++ toString n).toList = '$' :: Nat.toDigits 10 n := by
    rw [String.toList_append, Nat.toString_eq_repr, Nat.toList_repr]
    rfl
  rw [hlist]
  refine lexFrom_cons.2 ⟨[], .param 0, [], rfl, ?_, rfl⟩
  rw [hdigits _ 0 fun c hc => Nat.isDigit_of_mem_toDigits (by decide) (by decide) hc,
    Nat.ofDigitChars_ten_toDigits]

/-- The numbers of the parameters. -/
def placeholders (ts : List Token) : List Nat :=
  ts.filterMap fun t =>
    match t with
    | .param n => some n
    | _ => none

end Kubeapps.Lib.Sql
