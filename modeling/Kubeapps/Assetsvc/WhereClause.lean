/-
  What GenerateWhereClause asks for (cmd/assetsvc/pkg/utils/postgresql_utils.go:
  GenerateWhereClause), with its text read as SQL.

  The clause is put together from parts: each part that the query has adds parameters and one
  clause, which refers to them by their numbers (`generateWhereClause_eq`). A part is the text, the
  condition it is read as and what that condition means (`Part.clause`, `holds_part`).
-/
import Mathlib.Data.List.Range
import Kubeapps.Assetsvc.Charts
import Kubeapps.Lib.SqlCond

namespace Kubeapps.Assetsvc

open Kubeapps.Lib Kubeapps.Lib.Sql

/-! ## Rows -/

/-- The columns of a row of `charts` that a clause can use. -/
structure JsonRow where
  repoName : String
  repoNamespace : String
  info : Json

def JsonRow.columns (row : JsonRow) : String → Option Datum
  | "repo_name" => some (.text row.repoName)
  | "repo_namespace" => some (.text row.repoNamespace)
  | "info" => some (.json row.info)
  | _ => none

/-! ## The texts -/

/-- A comparison of something with a parameter. -/
def compared (head : String) (ts : List Token) (cmp : String) (lhs : Expr)
    (hlex : lexFrom .none head.toList = some (ts, .none)) (hplain : ∀ t ∈ ts, t.plain = true)
    (hread : ∀ n, readExpr (ts ++ [.param n]) = some (.op cmp lhs (.param n))) (n : Nat) :
    Clause where
  text := head ++ param n
  tokens := ts ++ [.param n]
  cond := .atom (.op cmp lhs (.param n))
  lexes := by
    rw [String.toList_append]
    exact Lexes.of_clean hlex ⟨[], .param n, [.param n], lexFrom_param n, rfl, rfl⟩
  operand := by
    refine IsOperand.atom (fun t ht => ?_) (hread n)
    rcases List.mem_append.mp ht with ht | ht
    · exact hplain t ht
    · rw [List.mem_singleton.mp ht]
      rfl

/-- A column or `info -> … ->> 'key'`. -/
def infoText (key : String) : Expr := .op "->>" (.col "info") (.lit key)

def namespaceIs (n : Nat) : Clause :=
  compared "repo_namespace = " [.word "repo_namespace", .op "="] "=" (.col "repo_namespace") rfl
    (by decide) (fun _ => rfl) n

def repoNameIs (n : Nat) : Clause :=
  compared "repo_name = " [.word "repo_name", .op "="] "=" (.col "repo_name") rfl (by decide)
    (fun _ => rfl) n

def nameIs (n : Nat) : Clause :=
  compared "info->>'name' = " [.word "info", .op "->>", .str "name", .op "="] "="
    (infoText "name") rfl (by decide) (fun _ => rfl) n

def categoryIs (n : Nat) : Clause :=
  compared "info->>'category' = " [.word "info", .op "->>", .str "category", .op "="] "="
    (infoText "category") rfl (by decide) (fun _ => rfl) n

/-- `info -> 'chartVersions' @> $n::jsonb`. -/
def versionsExpr (n : Nat) : Expr :=
  .op "@>" (.op "->" (.col "info") (.lit "chartVersions")) (.cast (.param n) "jsonb")

def versionsTokens (n : Nat) : List Token :=
  [.word "info", .op "->", .str "chartVersions", .op "@>", .param n, .op "::", .word "jsonb"]

theorem lexes_versions (n : Nat) :
    Lexes ("info->'chartVersions' @> " ++ param n ++ "::jsonb").toList (versionsTokens n) := by
  have htail : lexFrom (.param n) "::jsonb".toList =
      some ([.param n, .op "::"], .word ['j', 's', 'o', 'n', 'b']) := rfl
  have hhead : lexFrom .none "info->'chartVersions' @> ".toList =
      some ([.word "info", .op "->", .str "chartVersions", .op "@>"], .none) := rfl
  rw [String.toList_append, String.toList_append]
  exact ⟨_, _, [.word "jsonb"], lexFrom_append (lexFrom_append hhead (lexFrom_param n)) htail, rfl,
    rfl⟩

theorem isOperand_versions (n : Nat) : IsOperand (versionsTokens n) (.atom (versionsExpr n)) := by
  apply IsOperand.atom
  · intro t ht
    simp only [versionsTokens, List.mem_cons, List.not_mem_nil, or_false] at ht
    rcases ht with rfl | rfl | rfl | rfl | rfl | rfl | rfl <;> rfl
  · rfl

def versionsContain (n : Nat) : Clause where
  text := "info->'chartVersions' @> " ++ param n ++ "::jsonb"
  tokens := versionsTokens n
  cond := .atom (versionsExpr n)
  lexes := lexes_versions n
  operand := isOperand_versions n

/-- A column that a search looks at: its tokens and what they mean. -/
structure SearchColumn where
  text : String
  tokens : List Token
  expr : Expr
  lex : lexFrom .none (text ++ " ILIKE ").toList = some (tokens ++ [.word "ILIKE"], .none)
  plain : ∀ t ∈ tokens ++ [.word "ILIKE"], t.plain = true
  closed : ∀ k, .param k ∉ tokens
  read : ∀ n, readExpr (tokens ++ [.word "ILIKE"] ++ [.param n]) =
    some (.op "ILIKE" expr (.param n))

def SearchColumn.like (column : SearchColumn) (n : Nat) : Clause :=
  compared (column.text ++ " ILIKE ") (column.tokens ++ [.word "ILIKE"]) "ILIKE" column.expr
    column.lex column.plain column.read n

/-- `info ->> 'key'`. -/
def topColumn (key : String)
    (hlex : lexFrom .none ("info ->> '" ++ key ++ "'" ++ " ILIKE ").toList =
      some ([.word "info", .op "->>", .str key, .word "ILIKE"], .none)) : SearchColumn where
  text := "info ->> '" ++ key ++ "'"
  tokens := [.word "info", .op "->>", .str key]
  expr := infoText key
  lex := hlex
  plain t ht := by
    simp only [List.cons_append, List.nil_append, List.mem_cons, List.not_mem_nil, or_false] at ht
    rcases ht with rfl | rfl | rfl | rfl <;> rfl
  closed k := by simp
  read n := rfl

/-- `info -> 'key' ->> 'name'`. -/
def nameColumn (key : String)
    (hlex : lexFrom .none ("info -> '" ++ key ++ "' ->> 'name'" ++ " ILIKE ").toList =
      some ([.word "info", .op "->", .str key, .op "->>", .str "name", .word "ILIKE"], .none)) :
    SearchColumn where
  text := "info -> '" ++ key ++ "' ->> 'name'"
  tokens := [.word "info", .op "->", .str key, .op "->>", .str "name"]
  expr := .op "->>" (.op "->" (.col "info") (.lit key)) (.lit "name")
  lex := hlex
  plain t ht := by
    simp only [List.cons_append, List.nil_append, List.mem_cons, List.not_mem_nil, or_false] at ht
    rcases ht with rfl | rfl | rfl | rfl | rfl | rfl <;> rfl
  closed k := by simp
  read n := rfl

def firstColumn : SearchColumn := topColumn "name" rfl

def otherColumns : List SearchColumn :=
  [topColumn "description" rfl, nameColumn "repo" rfl, topColumn "keywords" rfl,
    topColumn "sources" rfl, nameColumn "maintainers" rfl]

theorem text_columns : (firstColumn :: otherColumns).map SearchColumn.text = searchColumns := by
  decide

/-! ## Parts of a clause -/

/-- What a query may ask for. A list of values has at least one. -/
inductive Part where
  | namespaces (ns kubeappsNamespace : String)
  | chartName (name : String)
  | versions (version appVersion : String)
  | repos (repo : String) (repos : List String)
  | categories (category : String) (categories : List String)
  | search (query : String)

def Part.params : Part → List String
  | .namespaces ns kubeappsNamespace => [ns, kubeappsNamespace]
  | .chartName name => [name]
  | .versions version appVersion => [versionsLiteral version appVersion]
  | .repos repo rest => repo :: rest
  | .categories category rest => category :: rest
  | .search query => ["%" ++ query ++ "%"]

/-- Its clause after `k` parameters. -/
def Part.clause (k : Nat) : Part → Clause
  | .namespaces _ _ => .anyOf (namespaceIs (k + 1)) [namespaceIs (k + 2)]
  | .chartName _ => .anyOf (nameIs (k + 1)) []
  | .versions _ _ => .anyOf (versionsContain (k + 1)) []
  | .repos _ rest => .anyOf (.anyOf (repoNameIs (k + 1)) [])
      ((List.range' (k + 2) rest.length).map fun n => .anyOf (repoNameIs n) [])
  | .categories _ rest => .anyOf (categoryIs (k + 1))
      ((List.range' (k + 2) rest.length).map categoryIs)
  | .search _ => .anyOf (.anyOf (firstColumn.like (k + 1)) [])
      (otherColumns.map fun column => .anyOf (column.like (k + 1)) [])

/-- The values that are asked for. -/
def given (values : List String) : List String := values.filter (· ≠ "")

/-- The part for some values, if there are any. -/
def valuesPart (part : String → List String → Part) (values : List String) : List Part :=
  match given values with
  | [] => []
  | value :: rest => [part value rest]

/-- The parts of a query. -/
def parts (kubeappsNamespace : String) (cq : ChartQuery) : List Part :=
  (if cq.ns ≠ "_all" then [.namespaces cq.ns kubeappsNamespace] else []) ++
  (if cq.chartName ≠ "" then [.chartName cq.chartName] else []) ++
  (if cq.version ≠ "" ∧ cq.appVersion ≠ "" then [.versions cq.version cq.appVersion] else []) ++
  valuesPart .repos cq.repos ++ valuesPart .categories cq.categories ++
  (if cq.searchQuery ≠ "" then [.search cq.searchQuery] else [])

/-- Their clauses, after `k` parameters. -/
def clauses (k : Nat) : List Part → List Clause
  | [] => []
  | p :: ps => p.clause k :: clauses (k + p.params.length) ps

/-- The text of the clauses after so many. -/
def whereText (texts : List String) : String :=
  if texts ≠ [] then "WHERE " ++ " AND ".intercalate texts else ""

/-! ## The query is the clauses of its parts -/

section Parts

/-- The parameters and the clauses so far, with one more part. -/
def addPart (acc : List String × List String) (p : Part) : List String × List String :=
  (acc.1 ++ p.params, acc.2 ++ [(p.clause acc.1.length).text])

theorem addPart_all (ps : List Part) (acc : List String × List String) :
    ps.foldl addPart acc =
      (acc.1 ++ ps.flatMap Part.params, acc.2 ++ (clauses acc.1.length ps).map Clause.text) := by
  induction ps generalizing acc with
  | nil => simp [clauses]
  | cons p ps ih =>
      rw [List.foldl_cons, ih]
      unfold addPart
      simp only [clauses, List.flatMap_cons, List.map_cons, List.length_append, List.append_assoc,
        List.singleton_append]

theorem valueClauses_eq (clause : String → String) (params values : List String) :
    valueClauses clause params values =
      (params ++ given values, (List.range' (params.length + 1) (given values).length).map fun n =>
        clause (param n)) := by
  let step (acc : List String × List String) (value : String) : List String × List String :=
    if value ≠ "" then (acc.1 ++ [value], acc.2 ++ [clause (param (acc.1.length + 1))]) else acc
  have hstep : valueClauses clause params values = values.foldl step (params, []) := by
    unfold valueClauses
    congr 1
  have hfrom : ∀ (values params cls : List String), values.foldl step (params, cls) =
      (params ++ given values, cls ++ (List.range' (params.length + 1) (given values).length).map
        fun n => clause (param n)) := by
    intro values
    induction values with
    | nil => simp [given]
    | cons value values ih =>
        intro params cls
        rw [List.foldl_cons]
        by_cases hvalue : value = ""
        · have hgiven : given (value :: values) = given values := by simp [given, hvalue]
          have hskip : step (params, cls) value = (params, cls) := if_neg (not_not.mpr hvalue)
          rw [hskip, ih, hgiven]
        · have hgiven : given (value :: values) = value :: given values := by
            simp [given, hvalue]
          have hadd : step (params, cls) value =
              (params ++ [value], cls ++ [clause (param (params.length + 1))]) := if_pos hvalue
          rw [hadd, ih, hgiven, List.length_cons, List.range'_succ, List.length_append,
            List.length_singleton]
          simp only [List.append_assoc, List.singleton_append, List.map_cons]
  rw [hstep, hfrom, List.nil_append]

/-- The values of a list are a part, or nothing. -/
theorem addValueClauses_eq (clause : String → String) (part : String → List String → Part)
    (hparams : ∀ value rest, (part value rest).params = value :: rest)
    (htext : ∀ k value rest, ((part value rest).clause k).text =
      "(" ++ " OR ".intercalate ((List.range' (k + 1) (rest.length + 1)).map fun n =>
        clause (param n)) ++ ")")
    (values : List String) (acc : List String × List String) :
    addValueClauses clause values acc = (valuesPart part values).foldl addPart acc := by
  unfold addValueClauses valuesPart
  rw [valueClauses_eq]
  cases hgiven : given values with
  | nil => simp
  | cons value rest =>
      have hne : (List.range' (acc.1.length + 1) (value :: rest).length).map
          (fun n => clause (param n)) ≠ [] := by simp
      show (if _ then _ else _) = addPart acc (part value rest)
      rw [if_pos hne]
      unfold addPart
      rw [hparams, htext]
      rfl

theorem namespaces_text (k : Nat) (ns kubeappsNamespace : String) :
    ((Part.namespaces ns kubeappsNamespace).clause k).text =
      "(repo_namespace = " ++ param (k + 1) ++ " OR repo_namespace = " ++ param (k + 2) ++ ")" := by
  have hopen : "(repo_namespace = " = "(" ++ "repo_namespace = " := rfl
  have hor : " OR repo_namespace = " = " OR " ++ "repo_namespace = " := rfl
  rw [hopen, hor]
  show "(" ++ (("repo_namespace = " ++ param (k + 1)) ++ " OR " ++
    ("repo_namespace = " ++ param (k + 2))) ++ ")" = _
  simp only [String.append_assoc]

theorem chartName_text (k : Nat) (name : String) :
    ((Part.chartName name).clause k).text = "(info->>'name' = " ++ param (k + 1) ++ ")" := by
  have hopen : "(info->>'name' = " = "(" ++ "info->>'name' = " := rfl
  rw [hopen]
  show "(" ++ ("info->>'name' = " ++ param (k + 1)) ++ ")" = _
  simp only [String.append_assoc]

theorem versions_text (k : Nat) (version appVersion : String) :
    ((Part.versions version appVersion).clause k).text =
      "(info->'chartVersions' @> " ++ param (k + 1) ++ "::jsonb)" := by
  have hopen : "(info->'chartVersions' @> " = "(" ++ "info->'chartVersions' @> " := rfl
  have hshut : "::jsonb)" = "::jsonb" ++ ")" := rfl
  rw [hopen, hshut]
  show "(" ++ ("info->'chartVersions' @> " ++ param (k + 1) ++ "::jsonb") ++ ")" = _
  simp only [String.append_assoc]

theorem repos_text (k : Nat) (repo : String) (rest : List String) :
    ((Part.repos repo rest).clause k).text =
      "(" ++ " OR ".intercalate ((List.range' (k + 1) (rest.length + 1)).map fun n =>
        "(repo_name = " ++ param n ++ ")") ++ ")" := by
  have hone : ∀ n, (Clause.anyOf (repoNameIs n) []).text = "(repo_name = " ++ param n ++ ")" := by
    intro n
    have hopen : "(repo_name = " = "(" ++ "repo_name = " := rfl
    rw [hopen]
    show "(" ++ ("repo_name = " ++ param n) ++ ")" = _
    simp only [String.append_assoc]
  show "(" ++ " OR ".intercalate ((Clause.anyOf (repoNameIs (k + 1)) []).text ::
    ((List.range' (k + 2) rest.length).map fun n => Clause.anyOf (repoNameIs n) []).map
      Clause.text) ++ ")" = _
  have htexts : (Clause.text ∘ fun n => Clause.anyOf (repoNameIs n) []) =
      fun n => "(repo_name = " ++ param n ++ ")" := funext hone
  rw [List.range'_succ, List.map_cons, List.map_map, hone, htexts]

theorem categories_text (k : Nat) (category : String) (rest : List String) :
    ((Part.categories category rest).clause k).text =
      "(" ++ " OR ".intercalate ((List.range' (k + 1) (rest.length + 1)).map fun n =>
        "info->>'category' = " ++ param n) ++ ")" := by
  show "(" ++ " OR ".intercalate ((categoryIs (k + 1)).text ::
    ((List.range' (k + 2) rest.length).map categoryIs).map Clause.text) ++ ")" = _
  rw [List.range'_succ, List.map_cons, List.map_map]
  rfl

theorem search_text (k : Nat) (query : String) :
    ((Part.search query).clause k).text =
      "(" ++ " OR ".intercalate (searchColumns.map fun column =>
        "(" ++ column ++ " ILIKE " ++ param (k + 1) ++ ")") ++ ")" := by
  have hone : ∀ column : SearchColumn, (Clause.anyOf (column.like (k + 1)) []).text =
      "(" ++ column.text ++ " ILIKE " ++ param (k + 1) ++ ")" := by
    intro column
    show "(" ++ ((column.text ++ " ILIKE ") ++ param (k + 1)) ++ ")" = _
    simp only [String.append_assoc]
  rw [← text_columns, List.map_map]
  show "(" ++ " OR ".intercalate (((firstColumn :: otherColumns).map fun column =>
    Clause.anyOf (column.like (k + 1)) []).map Clause.text) ++ ")" = _
  have htexts : (Clause.text ∘ fun column => Clause.anyOf (column.like (k + 1)) []) =
      (fun column => "(" ++ column ++ " ILIKE " ++ param (k + 1) ++ ")") ∘ SearchColumn.text :=
    funext hone
  rw [List.map_map, htexts]

theorem addRepos_eq (values : List String) (acc : List String × List String) :
    addValueClauses (fun p => "(repo_name = " ++ p ++ ")") values acc =
      (valuesPart Part.repos values).foldl addPart acc :=
  addValueClauses_eq (fun p => "(repo_name = " ++ p ++ ")") Part.repos (fun _ _ => rfl) repos_text
    values acc

theorem addCategories_eq (values : List String) (acc : List String × List String) :
    addValueClauses (fun p => "info->>'category' = " ++ p) values acc =
      (valuesPart Part.categories values).foldl addPart acc :=
  addValueClauses_eq (fun p => "info->>'category' = " ++ p) Part.categories (fun _ _ => rfl)
    categories_text values acc

theorem whereText_pair (acc : List String × List String) :
    (if acc.2 ≠ [] then ("WHERE " ++ " AND ".intercalate acc.2, acc.1) else ("", acc.1)) =
      (whereText acc.2, acc.1) := by
  unfold whereText
  by_cases hacc : acc.2 ≠ []
  · rw [if_pos hacc, if_pos hacc]
  · rw [if_neg hacc, if_neg hacc]

/-- A part that is there on a condition. -/
theorem addPart_if {p : Prop} [Decidable p] {part : Part} {acc added : List String × List String}
    (h : added = addPart acc part) :
    (if p then added else acc) = (if p then [part] else []).foldl addPart acc := by
  by_cases hp : p
  · rw [if_pos hp, if_pos hp, h]
    rfl
  · rw [if_neg hp, if_neg hp]
    rfl

theorem generateWhereClause_eq (kubeappsNamespace : String) (cq : ChartQuery) :
    generateWhereClause kubeappsNamespace cq =
      (whereText ((clauses 0 (parts kubeappsNamespace cq)).map Clause.text),
        (parts kubeappsNamespace cq).flatMap Part.params) := by
  let Acc := List String × List String
  let withNamespaces (acc : Acc) : Acc :=
    if cq.ns ≠ "_all" then
      let params := acc.1 ++ [cq.ns, kubeappsNamespace]
      (params, acc.2 ++ ["(repo_namespace = " ++ param (params.length - 1) ++
        " OR repo_namespace = " ++ param params.length ++ ")"])
    else acc
  let withChartName (acc : Acc) : Acc :=
    if cq.chartName ≠ "" then
      let params := acc.1 ++ [cq.chartName]
      (params, acc.2 ++ ["(info->>'name' = " ++ param params.length ++ ")"])
    else acc
  let withVersions (acc : Acc) : Acc :=
    if cq.version ≠ "" ∧ cq.appVersion ≠ "" then
      let params := acc.1 ++ [versionsLiteral cq.version cq.appVersion]
      (params, acc.2 ++ ["(info->'chartVersions' @> " ++ param params.length ++ "::jsonb)"])
    else acc
  let withSearch (acc : Acc) : Acc :=
    if cq.searchQuery ≠ "" then
      let params := acc.1 ++ ["%" ++ cq.searchQuery ++ "%"]
      let like (column : String) := "(" ++ column ++ " ILIKE " ++ param params.length ++ ")"
      (params, acc.2 ++ ["(" ++ " OR ".intercalate (searchColumns.map like) ++ ")"])
    else acc
  have hsteps : generateWhereClause kubeappsNamespace cq =
      (fun acc : Acc =>
        if acc.2 ≠ [] then ("WHERE " ++ " AND ".intercalate acc.2, acc.1) else ("", acc.1))
      (withSearch (addValueClauses (fun p => "info->>'category' = " ++ p) cq.categories
        (addValueClauses (fun p => "(repo_name = " ++ p ++ ")") cq.repos
          (withVersions (withChartName (withNamespaces ([], []))))))) := rfl
  have hnamespaces : ∀ acc, withNamespaces acc =
      (if cq.ns ≠ "_all" then [Part.namespaces cq.ns kubeappsNamespace] else []).foldl addPart
        acc := by
    intro acc
    apply addPart_if
    unfold addPart
    rw [namespaces_text]
    simp [Part.params]
  have hchartName : ∀ acc, withChartName acc =
      (if cq.chartName ≠ "" then [Part.chartName cq.chartName] else []).foldl addPart acc := by
    intro acc
    apply addPart_if
    unfold addPart
    rw [chartName_text]
    simp [Part.params]
  have hversions : ∀ acc, withVersions acc =
      (if cq.version ≠ "" ∧ cq.appVersion ≠ "" then [Part.versions cq.version cq.appVersion]
        else []).foldl addPart acc := by
    intro acc
    apply addPart_if
    unfold addPart
    rw [versions_text]
    simp [Part.params]
  have hsearch : ∀ acc, withSearch acc =
      (if cq.searchQuery ≠ "" then [Part.search cq.searchQuery] else []).foldl addPart acc := by
    intro acc
    apply addPart_if
    unfold addPart
    rw [search_text]
    simp [Part.params]
  have hfold := addPart_all (parts kubeappsNamespace cq) ([], [])
  rw [List.nil_append, List.nil_append] at hfold
  have hparts : withSearch (addValueClauses (fun p => "info->>'category' = " ++ p) cq.categories
      (addValueClauses (fun p => "(repo_name = " ++ p ++ ")") cq.repos
        (withVersions (withChartName (withNamespaces ([], [])))))) =
      (parts kubeappsNamespace cq).foldl addPart ([], []) := by
    rw [hsearch, addCategories_eq, addRepos_eq, hversions, hchartName, hnamespaces]
    unfold parts
    simp only [List.foldl_append]
  rw [hsteps, hparts, hfold]
  exact whereText_pair _

end Parts

/-! ## What the clauses mean -/

/-- The texts that a search looks at. -/
def searchTexts (d : Dialect) (info : Json) : List Datum :=
  let nameOf (key : String) : Datum := (field info key).elim .null fun j => arrowText d j "name"
  [arrowText d info "name", arrowText d info "description", nameOf "repo",
    arrowText d info "keywords", arrowText d info "sources", nameOf "maintainers"]

/-- The versions of the chart contain one with these. -/
def HasVersions (d : Dialect) (version appVersion : String) (info : Json) : Prop :=
  ∃ want versions, d.parseJson (versionsLiteral version appVersion) = some want ∧
    field info "chartVersions" = some versions ∧ d.contains versions want = true

def Found (d : Dialect) (query : String) (info : Json) : Prop :=
  ∃ text, .text text ∈ searchTexts d info ∧ d.ilike text ("%" ++ query ++ "%") = true

/-- What a part asks of a row. -/
def Part.Means (d : Dialect) (row : JsonRow) : Part → Prop
  | .namespaces ns kubeappsNamespace =>
      row.repoNamespace = ns ∨ row.repoNamespace = kubeappsNamespace
  | .chartName name => arrowText d row.info "name" = .text name
  | .versions version appVersion => HasVersions d version appVersion row.info
  | .repos repo rest => row.repoName ∈ repo :: rest
  | .categories category rest =>
      ∃ c ∈ category :: rest, arrowText d row.info "category" = .text c
  | .search query => Found d query row.info

section Means

variable {d : Dialect} {row : JsonRow} {pre post values rest : List String} {value : String}

/-- The parameters of a part are where its clause looks for them. -/
theorem isParam_append {i : Nat} {v : String} (h : values[i]? = some v) :
    IsParam (pre ++ values ++ post) (pre.length + 1 + i) v := by
  refine ⟨by omega, ?_⟩
  obtain ⟨hi, hv⟩ := List.getElem?_eq_some_iff.mp h
  have hidx : pre.length + 1 + i - 1 = pre.length + i := by omega
  rw [hidx, List.append_assoc, List.getElem?_append_right (by omega), Nat.add_sub_cancel_left,
    List.getElem?_append_left hi, h]

/-- Some clause of a list holds if and only if it does for one of the values. -/
theorem exists_values_iff {item : Nat → Clause} {holds : Clause → Prop} {q : String → Prop}
    (hitem : ∀ i v, values[i]? = some v → (holds (item (pre.length + 1 + i)) ↔ q v)) :
    (∃ c ∈ (List.range' (pre.length + 1) values.length).map item, holds c) ↔ ∃ v ∈ values, q v := by
  constructor
  · intro ⟨c, hc, hholds⟩
    obtain ⟨n, hn, rfl⟩ := List.mem_map.mp hc
    obtain ⟨i, hi, rfl⟩ := List.mem_range'.mp hn
    rw [Nat.one_mul] at hholds
    have hv := List.getElem?_eq_getElem hi
    exact ⟨values[i], List.getElem_mem hi, (hitem i _ hv).mp hholds⟩
  · intro ⟨v, hv, hq⟩
    obtain ⟨i, hi, rfl⟩ := List.mem_iff_getElem.mp hv
    refine ⟨item (pre.length + 1 + i), List.mem_map_of_mem ?_,
      (hitem i _ (List.getElem?_eq_getElem hi)).mpr hq⟩
    exact List.mem_range'.mpr ⟨i, hi, by rw [Nat.one_mul]⟩

theorem eval_column (d : Dialect) (row : JsonRow) (params : List String) (name : String)
    (v : Datum) (h : row.columns name = some v) :
    (Expr.col name).eval d row.columns params = .ok v := by
  show (row.columns name).elim _ _ = _
  rw [h]
  rfl

theorem eval_infoText (d : Dialect) (row : JsonRow) (params : List String) (key : String) :
    (infoText key).eval d row.columns params = .ok (arrowText d row.info key) := rfl

/-- The value of each search column. -/
theorem eval_nameColumn (d : Dialect) (row : JsonRow) (params : List String) (key : String) :
    (Expr.op "->>" (.op "->" (.col "info") (.lit key)) (.lit "name")).eval d row.columns params =
      .ok ((field row.info key).elim .null fun j => arrowText d j "name") := by
  show (applyOp d "->>" (arrow row.info key) (.text "name")) = _
  unfold arrow
  cases field row.info key with
  | none => rfl
  | some j => rfl

theorem holds_namespaceIs {n : Nat} {v : String} {params : List String}
    (hn : IsParam params n v) :
    (namespaceIs n).cond.Evaluates d row.columns params ∧
      ((namespaceIs n).cond.Holds d row.columns params ↔ row.repoNamespace = v) := by
  have h := holds_eq (eval_column d row params "repo_namespace" (.text row.repoNamespace) rfl)
    (.inr ⟨row.repoNamespace, rfl⟩) hn
  exact ⟨h.1, h.2.trans (by simp)⟩

theorem holds_repoNameIs {n : Nat} {v : String} {params : List String}
    (hn : IsParam params n v) :
    (Clause.anyOf (repoNameIs n) []).cond.Evaluates d row.columns params ∧
      ((Clause.anyOf (repoNameIs n) []).cond.Holds d row.columns params ↔ row.repoName = v) := by
  have h := holds_eq (eval_column d row params "repo_name" (.text row.repoName) rfl)
    (.inr ⟨row.repoName, rfl⟩) hn
  exact ⟨h.1, h.2.trans (by simp)⟩

theorem holds_infoIs (key : String) {n : Nat} {v : String} {params : List String}
    (hn : IsParam params n v) :
    (Cond.atom (.op "=" (infoText key) (.param n))).Evaluates d row.columns params ∧
      ((Cond.atom (.op "=" (infoText key) (.param n))).Holds d row.columns params ↔
        arrowText d row.info key = .text v) :=
  holds_eq (eval_infoText d row params key) (arrowText_text d row.info key) hn

theorem holds_versionsContain {n : Nat} {version appVersion : String} {params : List String}
    (hn : IsParam params n (versionsLiteral version appVersion)) :
    (versionsContain n).cond.Holds d row.columns params ↔
      HasVersions d version appVersion row.info := by
  have heval : (versionsExpr n).eval d row.columns params =
      (castTo d "jsonb" (.text (versionsLiteral version appVersion))).bind
        (applyOp d "@>" (arrow row.info "chartVersions")) := by
    show (((Expr.param n).eval d row.columns params).bind fun v => castTo d "jsonb" v).bind
      (applyOp d "@>" (arrow row.info "chartVersions")) = _
    rw [eval_param hn]
    rfl
  show Cond.Holds d row.columns params (.atom (versionsExpr n)) ↔ _
  unfold Cond.Holds Cond.eval HasVersions
  rw [heval, castTo_jsonb]
  cases hparse : d.parseJson (versionsLiteral version appVersion) with
  | none => simp [Except.bind, bind]
  | some want =>
      unfold arrow
      cases hfield : field row.info "chartVersions" with
      | none => simp [Except.bind, bind, applyOp, pure, Except.pure]
      | some versions => simp [Except.bind, bind, applyOp, pure, Except.pure]

/-- The search columns have the texts as values. -/
theorem eval_columns (d : Dialect) (row : JsonRow) (params : List String) :
    (firstColumn :: otherColumns).map (fun column => column.expr.eval d row.columns params) =
      (searchTexts d row.info).map .ok := by
  unfold searchTexts otherColumns firstColumn topColumn nameColumn
  simp only [List.map_cons, List.map_nil, eval_infoText, eval_nameColumn]

theorem searchTexts_text {v : Datum} (h : v ∈ searchTexts d row.info) :
    v = .null ∨ ∃ t, v = .text t := by
  have hname : ∀ key, ((field row.info key).elim Datum.null fun j => arrowText d j "name") =
      .null ∨ ∃ t, ((field row.info key).elim Datum.null fun j => arrowText d j "name") =
        .text t := by
    intro key
    cases field row.info key with
    | none => exact .inl rfl
    | some j => exact arrowText_text d j "name"
  simp only [searchTexts, List.mem_cons, List.not_mem_nil, or_false] at h
  rcases h with rfl | rfl | rfl | rfl | rfl | rfl
  · exact arrowText_text d row.info "name"
  · exact arrowText_text d row.info "description"
  · exact hname "repo"
  · exact arrowText_text d row.info "keywords"
  · exact arrowText_text d row.info "sources"
  · exact hname "maintainers"

/-- The clause for a list of values. -/
theorem holds_values (d : Dialect) (row : JsonRow) (pre post : List String)
    (item : Nat → Clause) (q : String → Prop) (value : String) (rest : List String)
    (hitem : ∀ n v, IsParam (pre ++ (value :: rest) ++ post) n v →
      (item n).cond.Evaluates d row.columns (pre ++ (value :: rest) ++ post) ∧
        ((item n).cond.Holds d row.columns (pre ++ (value :: rest) ++ post) ↔ q v)) :
    (Clause.anyOf (item (pre.length + 1))
        ((List.range' (pre.length + 2) rest.length).map item)).cond.Holds d row.columns
          (pre ++ (value :: rest) ++ post) ↔ ∃ v ∈ value :: rest, q v := by
  have hitems : item (pre.length + 1) :: (List.range' (pre.length + 2) rest.length).map item =
      (List.range' (pre.length + 1) (value :: rest).length).map item := by
    rw [List.length_cons, List.range'_succ, List.map_cons]
  have hparam : ∀ i v, (value :: rest)[i]? = some v →
      IsParam (pre ++ (value :: rest) ++ post) (pre.length + 1 + i) v :=
    fun i v hv => isParam_append hv
  have heval : ∀ c ∈ item (pre.length + 1) ::
      (List.range' (pre.length + 2) rest.length).map item,
        c.cond.Evaluates d row.columns (pre ++ (value :: rest) ++ post) := by
    rw [hitems]
    intro c hc
    obtain ⟨n, hn, rfl⟩ := List.mem_map.mp hc
    obtain ⟨i, hi, rfl⟩ := List.mem_range'.mp hn
    rw [Nat.one_mul]
    exact (hitem _ _ (hparam i _ (List.getElem?_eq_getElem hi))).1
  rw [(holds_anyOf heval).2, hitems]
  exact exists_values_iff fun i v hv => (hitem _ v (hparam i v hv)).2

theorem holds_search (query : String) :
    ((Part.search query).clause pre.length).cond.Holds d row.columns
      (pre ++ ["%" ++ query ++ "%"] ++ post) ↔ Found d query row.info := by
  have hn : IsParam (pre ++ ["%" ++ query ++ "%"] ++ post) (pre.length + 1)
      ("%" ++ query ++ "%") := isParam_append (i := 0) rfl
  have hcolumn : ∀ column ∈ firstColumn :: otherColumns, ∃ v ∈ searchTexts d row.info,
      column.expr.eval d row.columns (pre ++ ["%" ++ query ++ "%"] ++ post) = .ok v := by
    intro column hmem
    have hvalue := List.mem_map_of_mem (f := fun column : SearchColumn =>
      column.expr.eval d row.columns (pre ++ ["%" ++ query ++ "%"] ++ post)) hmem
    rw [eval_columns] at hvalue
    obtain ⟨v, hv, heq⟩ := List.mem_map.mp hvalue
    exact ⟨v, hv, heq.symm⟩
  have heval : ∀ c ∈ (firstColumn :: otherColumns).map fun column =>
      Clause.anyOf (column.like (pre.length + 1)) [],
        c.cond.Evaluates d row.columns (pre ++ ["%" ++ query ++ "%"] ++ post) := by
    intro c hc
    obtain ⟨column, hmem, rfl⟩ := List.mem_map.mp hc
    obtain ⟨v, hv, heq⟩ := hcolumn column hmem
    exact (holds_ilike heq (searchTexts_text hv) hn).1
  refine (holds_anyOf heval).2.trans ?_
  rw [← List.map_cons (f := fun column : SearchColumn =>
    Clause.anyOf (column.like (pre.length + 1)) [])]
  unfold Found
  constructor
  · intro ⟨c, hc, hholds⟩
    obtain ⟨column, hmem, rfl⟩ := List.mem_map.mp hc
    obtain ⟨v, hv, heq⟩ := hcolumn column hmem
    obtain ⟨t, rfl, hlike⟩ := (holds_ilike heq (searchTexts_text hv) hn).2.mp hholds
    exact ⟨t, hv, hlike⟩
  · intro ⟨t, ht, hlike⟩
    have hvalue := List.mem_map_of_mem (f := Except.ok (ε := String)) ht
    rw [← eval_columns d row (pre ++ ["%" ++ query ++ "%"] ++ post)] at hvalue
    obtain ⟨column, hmem, heq⟩ := List.mem_map.mp hvalue
    refine ⟨_, List.mem_map_of_mem hmem, ?_⟩
    exact (holds_ilike heq (.inr ⟨t, rfl⟩) hn).2.mpr ⟨t, rfl, hlike⟩

/-- A clause of a part holds for the rows that the part asks for. -/
theorem holds_part (p : Part) :
    (p.clause pre.length).cond.Holds d row.columns (pre ++ p.params ++ post) ↔
      p.Means d row := by
  cases p with
  | namespaces ns kubeappsNamespace =>
      have h := holds_values d row pre post namespaceIs (row.repoNamespace = ·) ns
        [kubeappsNamespace] fun n v => holds_namespaceIs
      exact h.trans (by simp [Part.Means])
  | chartName name =>
      have h := holds_values d row pre post nameIs (arrowText d row.info "name" = .text ·) name []
        fun n v => holds_infoIs "name"
      exact h.trans (by simp [Part.Means])
  | versions version appVersion =>
      have hn : IsParam (pre ++ [versionsLiteral version appVersion] ++ post) (pre.length + 1)
          (versionsLiteral version appVersion) := isParam_append (i := 0) rfl
      exact holds_versionsContain hn
  | repos repo rest =>
      have h := holds_values d row pre post (fun n => .anyOf (repoNameIs n) []) (row.repoName = ·)
        repo rest fun n v => holds_repoNameIs
      exact h.trans (by simp [Part.Means])
  | categories category rest =>
      exact holds_values d row pre post categoryIs (arrowText d row.info "category" = .text ·)
        category rest fun n v => holds_infoIs "category"
  | search query => exact holds_search query

end Means

/-! ## The whole clause -/

/-- The condition of a clause; there is none without `WHERE`. -/
def readWhere (text : String) : Option (Option Cond) :=
  match lex text.toList with
  | some [] => some none
  | some (.word "WHERE" :: ts) => (readCond ts).map some
  | _ => none

/-- The numbers of the parameters in a text. -/
def textPlaceholders (text : String) : List Nat := placeholders ((lex text.toList).getD [])

/-- The rows that are selected. -/
def Selected (d : Dialect) (row : JsonRow) (params : List String) : Option Cond → Prop
  | none => True
  | some c => c.Holds d row.columns params

/-- What a query asks of a row. -/
def Selects (d : Dialect) (kubeappsNamespace : String) (cq : ChartQuery) (row : JsonRow) : Prop :=
  (cq.ns = "_all" ∨ row.repoNamespace = cq.ns ∨ row.repoNamespace = kubeappsNamespace) ∧
  (cq.chartName = "" ∨ arrowText d row.info "name" = .text cq.chartName) ∧
  (cq.version = "" ∨ cq.appVersion = "" ∨ HasVersions d cq.version cq.appVersion row.info) ∧
  ((∀ repo ∈ cq.repos, repo = "") ∨ ∃ repo ∈ cq.repos, repo ≠ "" ∧ row.repoName = repo) ∧
  ((∀ category ∈ cq.categories, category = "") ∨
    ∃ category ∈ cq.categories, category ≠ "" ∧ arrowText d row.info "category" = .text category) ∧
  (cq.searchQuery = "" ∨ Found d cq.searchQuery row.info)

/-- Whether all namespaces are asked for, and which fields and entries of a query are empty. -/
structure Emptiness where
  all : Bool
  chartName : Bool
  version : Bool
  appVersion : Bool
  searchQuery : Bool
  repos : List Bool
  categories : List Bool
  deriving DecidableEq, Repr

def ChartQuery.emptiness (cq : ChartQuery) : Emptiness where
  all := cq.ns = "_all"
  chartName := cq.chartName = ""
  version := cq.version = ""
  appVersion := cq.appVersion = ""
  searchQuery := cq.searchQuery = ""
  repos := cq.repos.map (· = "")
  categories := cq.categories.map (· = "")

section Whole

variable {d : Dialect} {row : JsonRow}

theorem lex_whereText (c : Clause) (cs : List Clause) :
    lex (whereText ((c :: cs).map Clause.text)).toList =
      some (.word "WHERE" :: joinTokens (.word "AND") c cs) := by
  have hwhere : lexFrom .none "WHERE ".toList = some ([.word "WHERE"], .none) := rfl
  apply lex_of_lexes
  unfold whereText
  rw [if_pos (by simp), String.toList_append]
  exact Lexes.of_clean hwhere (read_allOf c cs).1

theorem readWhere_whereText (c : Clause) (cs : List Clause) :
    readWhere (whereText ((c :: cs).map Clause.text)) =
      some (some (andAll c.cond (cs.map Clause.cond))) := by
  unfold readWhere
  rw [lex_whereText]
  show (readCond (joinTokens (.word "AND") c cs)).map some = _
  rw [(read_allOf c cs).2]
  rfl

/-- All clauses hold if and only if all parts ask for the row. -/
theorem holds_clauses (d : Dialect) (row : JsonRow) (ps : List Part) (pre : List String) :
    (∀ c ∈ clauses pre.length ps,
      c.cond.Holds d row.columns (pre ++ ps.flatMap Part.params)) ↔ ∀ p ∈ ps, p.Means d row := by
  induction ps generalizing pre with
  | nil => simp [clauses]
  | cons p ps ih =>
      have hlen : pre.length + p.params.length = (pre ++ p.params).length := by
        rw [List.length_append]
      unfold clauses
      rw [List.forall_mem_cons, List.forall_mem_cons, List.flatMap_cons, hlen,
        ← List.append_assoc, holds_part, ih]

theorem given_eq_nil_iff {values : List String} : given values = [] ↔ ∀ v ∈ values, v = "" := by
  unfold given
  simp [List.filter_eq_nil_iff]

theorem mem_given {values : List String} {v : String} :
    v ∈ given values ↔ v ∈ values ∧ v ≠ "" := by
  unfold given
  simp [List.mem_filter]

/-- The part for a list of values asks for one of those that are not empty. -/
theorem means_valuesPart (d : Dialect) (row : JsonRow) (part : String → List String → Part)
    (q : String → Prop)
    (hmeans : ∀ value rest, (part value rest).Means d row ↔ ∃ v ∈ value :: rest, q v)
    (values : List String) :
    (∀ p ∈ valuesPart part values, p.Means d row) ↔
      (∀ v ∈ values, v = "") ∨ ∃ v ∈ values, v ≠ "" ∧ q v := by
  unfold valuesPart
  cases hgiven : given values with
  | nil =>
      have hnone := given_eq_nil_iff.1 hgiven
      exact ⟨fun _ => .inl hnone, fun _ => by simp⟩
  | cons value rest =>
      have hne : ¬ ∀ v ∈ values, v = "" := by
        rw [← given_eq_nil_iff, hgiven]
        exact List.cons_ne_nil value rest
      rw [List.forall_mem_singleton, hmeans, ← hgiven]
      simp only [mem_given, hne, false_or, and_assoc]

theorem means_parts (kubeappsNamespace : String) (cq : ChartQuery) :
    (∀ p ∈ parts kubeappsNamespace cq, p.Means d row) ↔ Selects d kubeappsNamespace cq row := by
  have hif : ∀ (c : Prop) [Decidable c] (p : Part),
      (∀ p' ∈ (if c then [p] else []), p'.Means d row) ↔ (¬ c ∨ p.Means d row) := by
    intro c _ p
    by_cases hc : c
    · rw [if_pos hc, List.forall_mem_singleton]
      exact ⟨.inr, fun h => h.resolve_left fun hnot => hnot hc⟩
    · rw [if_neg hc]
      exact ⟨fun _ => .inl hc, fun _ p' hp' => absurd hp' List.not_mem_nil⟩
  have hnamespaces := hif (cq.ns ≠ "_all") (.namespaces cq.ns kubeappsNamespace)
  have hchartName := hif (cq.chartName ≠ "") (.chartName cq.chartName)
  have hversions := hif (cq.version ≠ "" ∧ cq.appVersion ≠ "")
    (.versions cq.version cq.appVersion)
  have hsearch := hif (cq.searchQuery ≠ "") (.search cq.searchQuery)
  have hrepos := means_valuesPart d row Part.repos (row.repoName = ·)
    (fun value rest => by simp [Part.Means]) cq.repos
  have hcategories := means_valuesPart d row Part.categories
    (arrowText d row.info "category" = .text ·) (fun value rest => Iff.rfl) cq.categories
  rw [not_not] at hnamespaces hchartName hsearch
  rw [not_and_or, not_not, not_not] at hversions
  unfold parts Selects
  rw [List.forall_mem_append, List.forall_mem_append, List.forall_mem_append,
    List.forall_mem_append, List.forall_mem_append, hnamespaces, hchartName, hversions, hrepos,
    hcategories, hsearch, or_assoc]
  simp only [and_assoc]
  rfl

/-! ### Placeholders -/

theorem mem_compared_tokens {ts : List Token} (hts : ∀ k, .param k ∉ ts) {k n : Nat} :
    .param k ∈ ts ++ [.param n] ↔ k = n := by
  simp [hts k]

/-- The clauses for a list of values have one parameter each. -/
theorem mem_values_tokens (item : Nat → Clause)
    (hitem : ∀ n k, .param k ∈ (item n).tokens ↔ k = n) (k count m : Nat) :
    .param m ∈ (Clause.anyOf (item (k + 1)) ((List.range' (k + 2) count).map item)).tokens ↔
      k < m ∧ m ≤ k + (count + 1) := by
  have hitems : item (k + 1) :: (List.range' (k + 2) count).map item =
      (List.range' (k + 1) (count + 1)).map item := by
    rw [List.range'_succ, List.map_cons]
  rw [mem_anyOf, hitems]
  constructor
  · intro ⟨c, hc, hm⟩
    obtain ⟨n, hn, rfl⟩ := List.mem_map.mp hc
    rw [hitem] at hm
    rw [List.mem_range'_1] at hn
    omega
  · intro hm
    refine ⟨item m, List.mem_map_of_mem ?_, (hitem m m).mpr rfl⟩
    rw [List.mem_range'_1]
    omega

/-- A part uses its own parameters. -/
theorem mem_part_tokens (p : Part) (k m : Nat) :
    .param m ∈ (p.clause k).tokens ↔ k < m ∧ m ≤ k + p.params.length := by
  have hone : ∀ {c : Clause}, .param m ∈ (Clause.anyOf c []).tokens ↔ .param m ∈ c.tokens := by
    intro c
    rw [mem_anyOf]
    simp
  cases p with
  | namespaces ns kubeappsNamespace =>
      exact mem_values_tokens namespaceIs (fun n k => mem_compared_tokens (by simp)) k 1 m
  | chartName name =>
      exact mem_values_tokens nameIs (fun n k => mem_compared_tokens (by simp)) k 0 m
  | versions version appVersion =>
      rw [Part.clause, hone]
      show .param m ∈ versionsTokens (k + 1) ↔ k < m ∧ m ≤ k + 1
      unfold versionsTokens
      simp only [List.mem_cons, List.not_mem_nil, or_false, reduceCtorEq, false_or,
        Token.param.injEq]
      omega
  | repos repo rest =>
      have hitem : ∀ n k, .param k ∈ (Clause.anyOf (repoNameIs n) []).tokens ↔ k = n := by
        intro n k
        rw [mem_anyOf]
        simp only [List.mem_singleton, exists_eq_left]
        exact mem_compared_tokens (by simp)
      exact mem_values_tokens (fun n => .anyOf (repoNameIs n) []) hitem k rest.length m
  | categories category rest =>
      exact mem_values_tokens categoryIs (fun n k => mem_compared_tokens (by simp)) k
        rest.length m
  | search query =>
      have hcolumn : ∀ column : SearchColumn,
          .param m ∈ (Clause.anyOf (column.like (k + 1)) []).tokens ↔ m = k + 1 := by
        intro column
        rw [mem_anyOf]
        simp only [List.mem_singleton, exists_eq_left]
        exact mem_compared_tokens (by simp [column.closed])
      refine mem_anyOf.trans ?_
      rw [← List.map_cons (f := fun column : SearchColumn =>
        Clause.anyOf (column.like (k + 1)) [])]
      show _ ↔ k < m ∧ m ≤ k + 1
      constructor
      · intro ⟨c, hc, hm⟩
        obtain ⟨column, _, rfl⟩ := List.mem_map.mp hc
        rw [hcolumn] at hm
        omega
      · intro hm
        refine ⟨_, List.mem_map_of_mem (List.mem_cons_self (a := firstColumn)), ?_⟩
        rw [hcolumn]
        omega

theorem mem_clauses_tokens (ps : List Part) (k m : Nat) :
    (∃ c ∈ clauses k ps, .param m ∈ c.tokens) ↔
      k < m ∧ m ≤ k + (ps.flatMap Part.params).length := by
  induction ps generalizing k with
  | nil =>
      simp only [clauses, List.not_mem_nil, false_and, exists_false, List.flatMap_nil,
        List.length_nil, false_iff]
      omega
  | cons p ps ih =>
      unfold clauses
      rw [List.exists_mem_cons_iff, ih, mem_part_tokens, List.flatMap_cons, List.length_append]
      omega

/-! ### The shape of a query -/

/-- The part without its values. -/
def Part.erase : Part → Part
  | .namespaces _ _ => .namespaces "" ""
  | .chartName _ => .chartName ""
  | .versions _ _ => .versions "" ""
  | .repos _ rest => .repos "" (rest.map fun _ => "")
  | .categories _ rest => .categories "" (rest.map fun _ => "")
  | .search _ => .search ""

theorem clauses_erase (k : Nat) (ps : List Part) :
    clauses k (ps.map Part.erase) = clauses k ps := by
  have hclause : ∀ (k : Nat) (p : Part), p.erase.clause k = p.clause k := by
    intro k p
    cases p <;> simp [Part.erase, Part.clause]
  have hlen : ∀ p : Part, p.erase.params.length = p.params.length := by
    intro p
    cases p <;> simp [Part.erase, Part.params]
  induction ps generalizing k with
  | nil => rfl
  | cons p ps ih =>
      rw [List.map_cons, clauses, clauses, hclause, hlen, ih]

theorem length_given (values : List String) :
    (given values).length = (values.map fun v => decide (v = "")).countP (· = false) := by
  unfold given
  rw [List.countP_map, List.countP_eq_length_filter]
  congr 1
  apply List.filter_congr
  intro v _
  simp

/-- Without their values the parts for two lists are the same if the lists have as many. -/
theorem erase_valuesPart {part : String → List String → Part}
    (herase : ∀ value rest, (part value rest).erase = part "" (rest.map fun _ => ""))
    {values values' : List String} (h : (given values).length = (given values').length) :
    (valuesPart part values).map Part.erase = (valuesPart part values').map Part.erase := by
  unfold valuesPart
  cases hgiven : given values with
  | nil =>
      rw [hgiven] at h
      rw [List.eq_nil_of_length_eq_zero h.symm]
  | cons value rest =>
      cases hgiven' : given values' with
      | nil =>
          rw [hgiven, hgiven'] at h
          exact absurd h (by simp)
      | cons value' rest' =>
          rw [hgiven, hgiven'] at h
          have hlen : rest.length = rest'.length := by simpa using h
          rw [List.map_singleton, List.map_singleton, herase, herase, List.map_const',
            List.map_const', hlen]

/-- The parts without their values are determined by what is empty in the query. -/
theorem erase_parts {cq cq' : ChartQuery} (h : cq'.emptiness = cq.emptiness)
    (kubeappsNamespace kubeappsNamespace' : String) :
    (parts kubeappsNamespace' cq').map Part.erase =
      (parts kubeappsNamespace cq).map Part.erase := by
  have hif : ∀ (c c' : Prop) [Decidable c] [Decidable c'] (p p' : Part), (c' ↔ c) →
      p'.erase = p.erase →
        (if c' then [p'] else []).map Part.erase = (if c then [p] else []).map Part.erase := by
    intro c c' _ _ p p' hc hp
    by_cases hc' : c'
    · rw [if_pos hc', if_pos (hc.mp hc'), List.map_singleton, List.map_singleton, hp]
    · rw [if_neg hc', if_neg fun h => hc' (hc.mpr h)]
  obtain ⟨hall, hchartName, hversion, happVersion, hsearch, hrepos, hcategories⟩ :=
    Emptiness.mk.inj h
  rw [decide_eq_decide] at hall hchartName hversion happVersion hsearch
  have hreposLen : (given cq'.repos).length = (given cq.repos).length := by
    rw [length_given, length_given, hrepos]
  have hcategoriesLen : (given cq'.categories).length = (given cq.categories).length := by
    rw [length_given, length_given, hcategories]
  have hnamespaces := hif (cq.ns ≠ "_all") (cq'.ns ≠ "_all")
    (.namespaces cq.ns kubeappsNamespace) (.namespaces cq'.ns kubeappsNamespace') (not_congr hall)
    rfl
  have hname := hif (cq.chartName ≠ "") (cq'.chartName ≠ "") (.chartName cq.chartName)
    (.chartName cq'.chartName) (not_congr hchartName) rfl
  have hversions := hif (cq.version ≠ "" ∧ cq.appVersion ≠ "")
    (cq'.version ≠ "" ∧ cq'.appVersion ≠ "") (.versions cq.version cq.appVersion)
    (.versions cq'.version cq'.appVersion) (and_congr (not_congr hversion) (not_congr happVersion))
    rfl
  have hquery := hif (cq.searchQuery ≠ "") (cq'.searchQuery ≠ "") (.search cq.searchQuery)
    (.search cq'.searchQuery) (not_congr hsearch) rfl
  unfold parts
  simp only [List.map_append]
  rw [hnamespaces, hname, hversions, hquery, erase_valuesPart (fun _ _ => rfl) hreposLen,
    erase_valuesPart (fun _ _ => rfl) hcategoriesLen]

/-- The text of a clause depends on what is empty only. -/
theorem text_of_emptiness {cq cq' : ChartQuery} (h : cq'.emptiness = cq.emptiness)
    (kubeappsNamespace kubeappsNamespace' : String) :
    (generateWhereClause kubeappsNamespace' cq').1 =
      (generateWhereClause kubeappsNamespace cq).1 := by
  rw [generateWhereClause_eq, generateWhereClause_eq, ← clauses_erase,
    erase_parts h kubeappsNamespace kubeappsNamespace', clauses_erase]

/-- Its placeholders are the numbers of its parameters. -/
theorem mem_textPlaceholders (kubeappsNamespace : String) (cq : ChartQuery) (k : Nat) :
    k ∈ textPlaceholders (generateWhereClause kubeappsNamespace cq).1 ↔
      1 ≤ k ∧ k ≤ (generateWhereClause kubeappsNamespace cq).2.length := by
  have hmem := mem_clauses_tokens (parts kubeappsNamespace cq) 0 k
  rw [Nat.zero_add] at hmem
  rw [generateWhereClause_eq]
  unfold textPlaceholders
  show k ∈ placeholders ((lex (whereText ((clauses 0
    (parts kubeappsNamespace cq)).map Clause.text)).toList).getD []) ↔
      0 < k ∧ k ≤ ((parts kubeappsNamespace cq).flatMap Part.params).length
  rw [← hmem]
  cases clauses 0 (parts kubeappsNamespace cq) with
  | nil =>
      have hempty : lex (whereText []).toList = some [] := rfl
      rw [List.map_nil, hempty]
      simp [placeholders]
  | cons c cs =>
      rw [lex_whereText, Option.getD_some, mem_placeholders,
        ← mem_joinTokens (w := .word "AND") (by simp)]
      simp

/-- As SQL it is what the query asks for. -/
theorem exists_readWhere (kubeappsNamespace : String) (cq : ChartQuery) :
    ∃ cond, readWhere (generateWhereClause kubeappsNamespace cq).1 = some cond ∧
      ∀ d row, Selected d row (generateWhereClause kubeappsNamespace cq).2 cond ↔
        Selects d kubeappsNamespace cq row := by
  have hmeans : ∀ d row, (∀ c ∈ clauses 0 (parts kubeappsNamespace cq), c.cond.Holds d
      row.columns ((parts kubeappsNamespace cq).flatMap Part.params)) ↔
        Selects d kubeappsNamespace cq row := by
    intro d row
    have hall := holds_clauses d row (parts kubeappsNamespace cq) []
    rw [List.nil_append, means_parts] at hall
    exact hall
  rw [generateWhereClause_eq]
  dsimp only
  cases hclauses : clauses 0 (parts kubeappsNamespace cq) with
  | nil =>
      rw [hclauses] at hmeans
      refine ⟨none, rfl, fun d row => ?_⟩
      have hselects := (hmeans d row).mp (by simp)
      exact ⟨fun _ => hselects, fun _ => trivial⟩
  | cons c cs =>
      rw [hclauses] at hmeans
      refine ⟨_, readWhere_whereText c cs, fun d row => ?_⟩
      rw [← hmeans d row, List.forall_mem_cons]
      show (andAll c.cond (cs.map Clause.cond)).Holds _ _ _ ↔ _
      rw [holds_andAll, List.forall_mem_map]

/-- For every query the text depends on what is empty only, its placeholders are those of the
    parameters, and it selects the rows that the query asks for: none outside the namespaces. -/
theorem generateWhereClause_means (kubeappsNamespace : String) (cq : ChartQuery) :
    (∀ kubeappsNamespace' cq', cq'.emptiness = cq.emptiness →
      (generateWhereClause kubeappsNamespace' cq').1 =
        (generateWhereClause kubeappsNamespace cq).1) ∧
    (∀ k, k ∈ textPlaceholders (generateWhereClause kubeappsNamespace cq).1 ↔
      1 ≤ k ∧ k ≤ (generateWhereClause kubeappsNamespace cq).2.length) ∧
    ∃ cond, readWhere (generateWhereClause kubeappsNamespace cq).1 = some cond ∧
      ∀ d row,
        (Selected d row (generateWhereClause kubeappsNamespace cq).2 cond ↔
          Selects d kubeappsNamespace cq row) ∧
        (cq.ns ≠ "_all" → Selected d row (generateWhereClause kubeappsNamespace cq).2 cond →
          row.repoNamespace = cq.ns ∨ row.repoNamespace = kubeappsNamespace) := by
  obtain ⟨cond, hread, hselected⟩ := exists_readWhere kubeappsNamespace cq
  refine ⟨fun kubeappsNamespace' cq' h => text_of_emptiness h kubeappsNamespace
    kubeappsNamespace', mem_textPlaceholders kubeappsNamespace cq, cond, hread, fun d row =>
      ⟨hselected d row, fun hne h => ?_⟩⟩
  exact ((hselected d row).mp h).1.resolve_left hne

end Whole

end Kubeapps.Assetsvc
