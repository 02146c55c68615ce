/-
  The filter of a repository in the dashboard's form (src/dashboard/src/shared/jq.ts:
  toFilterRule, toParams; AppRepoForm.tsx), and what the sync job makes of it.

  The names of the filter become variables of a jq query, one for each name, which the API server
  may give back in another order. The form reads the names from the values of the variables, so
  it shows them in that order.

  `filterKept_iff`: the sync job keeps the charts that the form asked for, and the form that is
  saved again asks for the same ones, unless the names are blank: toFilterRule makes a rule of
  them, which is shown as no names, and with no names the form saves no filter.
-/
import Kubeapps.Dashboard.AppRepository
import Kubeapps.Lib.Joined
import Kubeapps.Lib.Trim
import Kubeapps.Syncer.JqQuery

namespace Kubeapps.Dashboard

open Kubeapps.Lib Kubeapps.Models Kubeapps.Syncer

/-! ## jq.ts -/

/-- The white space and the line terminators that `trim` removes. -/
def jsSpace (c : Char) : Bool :=
  c ∈ [' ', '\t', '\n', '\r', Char.ofNat 0x0b, Char.ofNat 0x0c, Char.ofNat 0xa0,
    Char.ofNat 0x1680, Char.ofNat 0x2028, Char.ofNat 0x2029, Char.ofNat 0x202f, Char.ofNat 0x205f,
    Char.ofNat 0x3000, Char.ofNat 0xfeff] ||
  (0x2000 ≤ c.toNat && c.toNat ≤ 0x200a)

/-- `names.split(",").map(n => n.trim())`. -/
def namesArray (names : String) : List String :=
  (trimmedWords jsSpace ',' names.toList).map String.ofList

/-- `$var` and the index. -/
def varName (i : Nat) : String := "$var" ++ toString i

/-- The variables of a list of names: each one is that of its index. -/
def nameVars (names : List String) : List (String × String) :=
  names.zipIdx.map fun (n, i) => (varName i, n)

/-- The query and the variables, before `exclude` is looked at. -/
def ruleParts (names : String) (regex : Bool) : String × List (String × String) :=
  if regex then (".name | test($var)", [("$var", names)])
  else
    (" or ".intercalate ((namesArray names).zipIdx.map fun (_, i) => ".name == " ++ varName i),
      nameVars (namesArray names))

theorem varName_injective {i j : Nat} (h : varName i = varName j) : i = j := by
  have hlist := congrArg String.toList h
  unfold varName at hlist
  rw [String.toList_append, String.toList_append, List.append_cancel_left_eq,
    Nat.toString_eq_repr, Nat.toString_eq_repr, Nat.toList_repr, Nat.toList_repr] at hlist
  have hdigits := congrArg (Nat.ofDigitChars 10 · 0) hlist
  simpa only [Nat.ofDigitChars_ten_toDigits] using hdigits

theorem keys_nameVars (names : List String) :
    (nameVars names).map Prod.fst = (List.range names.length).map varName := by
  unfold nameVars
  rw [List.map_map]
  have hidx : names.zipIdx.map Prod.snd = List.range names.length := by
    rw [List.zipIdx_map_snd, List.range_eq_range']
  rw [← hidx, List.map_map]
  rfl

theorem nodup_ruleParts (names : String) (regex : Bool) :
    ((ruleParts names regex).2.map Prod.fst).Nodup := by
  unfold ruleParts
  cases regex with
  | true => exact List.nodup_singleton _
  | false =>
      show ((nameVars (namesArray names)).map Prod.fst).Nodup
      rw [keys_nameVars]
      exact (List.nodup_range).map fun i j h => varName_injective h

theorem distinct_ruleParts (names : String) (regex : Bool) (entries : List (String × String))
    (h : some (ruleParts names regex).2 = some entries) : (entries.map Prod.fst).Nodup := by
  rw [← Option.some.inj h]
  exact nodup_ruleParts names regex

def toFilterRule (names : String) (regex exclude : Bool) : AppRepositoryFilter where
  jq := if exclude then (ruleParts names regex).1 ++ " | not" else (ruleParts names regex).1
  vars := some (ruleParts names regex).2
  distinct := distinct_ruleParts names regex

/-- The filter as the form shows it. -/
structure FilterParams where
  names : String
  regex : Bool
  exclude : Bool
  deriving DecidableEq, Repr

/-- `s.includes(sub)` is `contains`. -/
def toParams (rule : AppRepositoryFilter) : FilterParams where
  names := ", ".intercalate ((rule.vars.getD []).map Prod.snd)
  regex := contains rule.jq "| test"
  exclude := contains rule.jq "| not"

/-! ## AppRepoForm.tsx -/

/-- The filter part of the form for a repository with this rule. -/
def loadFilter (filterRule : Option AppRepositoryFilter) : FilterParams :=
  match filterRule with
  | some rule => if rule.jq ≠ "" then toParams rule else ⟨"", false, false⟩
  | none => ⟨"", false, false⟩

def typeHelm : String := "helm"

/-- The filter that `install` passes to `onSubmit`. -/
def submittedFilter (type : String) (filter : FilterParams) : Option AppRepositoryFilter :=
  if type = typeHelm ∧ filter.names ≠ "" then
    some (toFilterRule filter.names filter.regex filter.exclude)
  else none

/-! ## What the filter is for -/

/-- The rule as it may come back from the API server. -/
def Reordered (rule rule' : AppRepositoryFilter) : Prop :=
  rule'.jq = rule.jq ∧
    ∃ vars vars', rule.vars = some vars ∧ rule'.vars = some vars' ∧ vars.Perm vars'

/-- The name is one of the names or matches the regular expression, or else not if these are to be
    excluded. -/
def selected (regexp : String → Option (String → Bool)) (names : String) (regex exclude : Bool)
    (name : String) : Bool :=
  (if regex then (regexp names).any fun isMatch => isMatch name
    else (namesArray names).contains name) ^^ exclude

/-- The sync job keeps these charts, in their order and for every order of the map. -/
def Keeps (jq : Gojq) (rule : AppRepositoryFilter) (keep : Models.Chart → Bool) : Prop :=
  ∀ (rt : Runtime) (charts : List Models.Chart),
    filterCharts rt jq charts (some rule.rule) = .ok (charts.filter keep)

/-- The rule that is made of what the form shows. -/
def resaved (rule : AppRepositoryFilter) : AppRepositoryFilter :=
  toFilterRule (toParams rule).names (toParams rule).regex (toParams rule).exclude

/-- A filter keeps the charts that it is for, and so does the one that the form saves again. -/
def FilterKept (jq : Gojq) (regexp : String → Option (String → Bool)) (names : String)
    (regex exclude : Bool) : Prop :=
  ∀ rule, Reordered (toFilterRule names regex exclude) rule →
    Keeps jq rule (fun chart => selected regexp names regex exclude chart.name) ∧
    submittedFilter typeHelm (loadFilter (some rule)) = some (resaved rule) ∧
    Keeps jq (resaved rule) fun chart => selected regexp names regex exclude chart.name

/-! ## The query of a rule -/

/-- The query for so many names. -/
def ruleQuery (count : Nat) (regex exclude : Bool) : JqQuery :=
  let q := if regex then .test "$var" else .oneOf ((List.range count).map varName)
  if exclude then .not q else q

section Rule

variable {jq : Gojq} {regexp : String → Option (String → Bool)} {names : String}
  {regex exclude : Bool} {rule : AppRepositoryFilter}

theorem map_zipIdx_snd {β : Type} (f : Nat → β) (l : List String) :
    l.zipIdx.map (fun x => f x.2) = (List.range l.length).map f := by
  rw [List.range_eq_range', ← List.zipIdx_map_snd 0 l, List.map_map]
  rfl

theorem jq_toFilterRule (names : String) (regex exclude : Bool) :
    (toFilterRule names regex exclude).jq =
      (ruleQuery (namesArray names).length regex exclude).text := by
  have hparts : (ruleParts names regex).1 =
      (ruleQuery (namesArray names).length regex false).text := by
    unfold ruleParts ruleQuery
    cases regex with
    | true => rfl
    | false =>
        show " or ".intercalate _ = " or ".intercalate _
        rw [map_zipIdx_snd (fun i => ".name == " ++ varName i), List.map_map]
        rfl
  cases exclude with
  | true =>
      show (ruleParts names regex).1 ++ " | not" = _
      rw [hparts]
      rfl
  | false => exact hparts

theorem vars_ruleQuery (count : Nat) (regex exclude : Bool) :
    (ruleQuery count regex exclude).vars =
      if regex then ["$var"] else (List.range count).map varName := by
  cases regex <;> cases exclude <;> rfl

theorem namesArray_ne_nil (names : String) : namesArray names ≠ [] := by
  unfold namesArray
  rw [Ne, List.map_eq_nil_iff]
  exact trimmedWords_ne_nil jsSpace ',' names.toList

theorem vars_ruleQuery_ne_nil (names : String) (regex exclude : Bool) :
    (ruleQuery (namesArray names).length regex exclude).vars ≠ [] := by
  rw [vars_ruleQuery]
  cases regex with
  | true => exact List.cons_ne_nil _ _
  | false =>
      have hpos := List.length_pos_iff.mpr (namesArray_ne_nil names)
      intro hnil
      have hlen := congrArg List.length hnil
      simp only [Bool.false_eq_true, if_false, List.length_map, List.length_range,
        List.length_nil] at hlen
      omega

theorem keys_ruleParts (names : String) (regex exclude : Bool) :
    (ruleParts names regex).2.map Prod.fst =
      (ruleQuery (namesArray names).length regex exclude).vars := by
  rw [vars_ruleQuery]
  cases regex with
  | true => rfl
  | false => exact keys_nameVars (namesArray names)

theorem lookup_nameVars (l : List String) (i : Nat) : (nameVars l).lookup (varName i) = l[i]? := by
  have hnodup : ((nameVars l).map Prod.fst).Nodup := by
    rw [keys_nameVars]
    exact (List.nodup_range).map fun i j h => varName_injective h
  apply Option.ext
  intro name
  rw [← mem_iff_lookup hnodup]
  unfold nameVars
  rw [List.mem_map]
  constructor
  · intro ⟨(name', j), hmem, heq⟩
    obtain ⟨hj, hname⟩ := Prod.mk.inj heq
    rw [← varName_injective hj, ← hname]
    exact List.mem_zipIdx_iff_getElem?.mp hmem
  · intro h
    exact ⟨(name, i), List.mem_zipIdx_iff_getElem?.mpr h, rfl⟩

/-- Some variable has the name if and only if it is one of the names. -/
theorem any_nameVars (l : List String) (name : String) :
    ((List.range l.length).map varName).any (fun var => (nameVars l).lookup var = some name) =
      l.contains name := by
  rw [Bool.eq_iff_iff, List.any_eq_true, List.contains_iff_mem]
  constructor
  · intro ⟨var, hvar, hlookup⟩
    obtain ⟨i, _, rfl⟩ := List.mem_map.mp hvar
    rw [decide_eq_true_iff, lookup_nameVars] at hlookup
    exact List.mem_of_getElem? hlookup
  · intro hmem
    obtain ⟨i, hi, hname⟩ := List.mem_iff_getElem.mp hmem
    refine ⟨varName i, List.mem_map.mpr ⟨i, List.mem_range.mpr hi, rfl⟩, ?_⟩
    rw [decide_eq_true_iff, lookup_nameVars, List.getElem?_eq_getElem hi, hname]

/-- The query of a rule selects the charts that the rule is for. -/
theorem eval_ruleQuery (hregex : regex = true → (regexp names).isSome)
    (name : String) :
    (ruleQuery (namesArray names).length regex exclude).eval regexp
        (fun var => (ruleParts names regex).2.lookup var) name =
      some (selected regexp names regex exclude name) := by
  have hplain : (ruleQuery (namesArray names).length regex false).eval regexp
      (fun var => (ruleParts names regex).2.lookup var) name =
        some (selected regexp names regex false name) := by
    cases regex with
    | true =>
        obtain ⟨isMatch, hmatch⟩ := Option.isSome_iff_exists.mp (hregex rfl)
        have hlookup : [("$var", names)].lookup "$var" = some names := rfl
        show (([("$var", names)].lookup "$var").bind regexp).map (fun isMatch => isMatch name) =
          some (((regexp names).any fun isMatch => isMatch name) ^^ false)
        rw [hlookup, Option.bind_some, hmatch, Option.any_some, Bool.xor_false]
        rfl
    | false =>
        show some (((List.range (namesArray names).length).map varName).any fun var =>
            (nameVars (namesArray names)).lookup var = some name) =
          some ((namesArray names).contains name ^^ false)
        rw [any_nameVars, Bool.xor_false]
  cases exclude with
  | false => exact hplain
  | true =>
      show ((ruleQuery (namesArray names).length regex false).eval regexp _ name).map _ = _
      rw [hplain]
      unfold selected
      simp

/-- A rule in any order keeps the charts that it is for. -/
theorem keeps_of_reordered
    (hjq : jq.Runs regexp (ruleQuery (namesArray names).length regex exclude))
    (hregex : regex = true → (regexp names).isSome)
    (hrule : Reordered (toFilterRule names regex exclude) rule) :
    Keeps jq rule fun chart => selected regexp names regex exclude chart.name := by
  obtain ⟨hjqText, vars, vars', hvars, hvars', hperm⟩ := hrule
  rw [← Option.some.inj hvars] at hperm
  have hnodup := nodup_ruleParts names regex
  have hstored : rule.rule = ⟨(ruleQuery (namesArray names).length regex exclude).text, vars'⟩ := by
    unfold AppRepositoryFilter.rule
    rw [hjqText, jq_toFilterRule, hvars', Option.getD_some]
  have hkeys := keys_ruleParts names regex exclude
  intro rt charts
  rw [hstored]
  apply filterCharts_of_runs hjq rfl
  · exact vars_ruleQuery_ne_nil names regex exclude
  · rw [← hkeys]
    exact (hperm.map Prod.fst).symm
  · exact (hperm.map Prod.fst).nodup_iff.mp hnodup
  · intro chart
    rw [← eval_ruleQuery hregex chart.name]
    congr 1
    funext var
    exact (lookup_perm hperm hnodup var).symm

/-! ## Reading a rule back -/

theorem bar_not_mem_varName (i : Nat) : '|' ∉ (varName i).toList := by
  unfold varName
  rw [String.toList_append, Nat.toString_eq_repr, Nat.toList_repr, List.mem_append]
  intro hmem
  rcases hmem with hmem | hmem
  · exact absurd hmem (by decide)
  · exact absurd (Nat.isDigit_of_mem_toDigits (by decide) (by decide) hmem) (by decide)

/-- The query for names has no bar. -/
theorem bar_not_mem_text (count : Nat) :
    '|' ∉ (ruleQuery count false false).text.toList := by
  show '|' ∉ (" or ".intercalate (((List.range count).map varName).map fun var =>
    ".name == " ++ var)).toList
  rw [String.toList_intercalate]
  intro hmem
  rcases mem_of_mem_intercalate hmem with hmem | ⟨l, hl, hmem⟩
  · exact absurd hmem (by decide)
  · obtain ⟨word, hword, rfl⟩ := List.mem_map.mp hl
    obtain ⟨var, hvar, rfl⟩ := List.mem_map.mp hword
    obtain ⟨i, _, rfl⟩ := List.mem_map.mp hvar
    rw [String.toList_append, List.mem_append] at hmem
    rcases hmem with hmem | hmem
    · exact absurd hmem (by decide)
    · exact bar_not_mem_varName i hmem

/-- The only bar of the negated query is that before `not`. -/
theorem infix_bar_iff {l : List Char} (sub : List Char) (hl : '|' ∉ l) :
    '|' :: sub <:+: l ++ '|' :: " not".toList ↔ sub <+: " not".toList := by
  constructor
  · intro ⟨s, t, h⟩
    have h' : s ++ '|' :: (sub ++ t) = l ++ '|' :: " not".toList := by simpa using h
    rcases append_cons_eq_iff.1 h' with ⟨_, hsub⟩ | ⟨w, hw, _⟩ | ⟨w, _, hw⟩
    · exact ⟨t, hsub⟩
    · exact absurd (by rw [hw]; simp) hl
    · have hmem : '|' ∈ " not".toList := by
        rw [hw]
        simp
      exact absurd hmem (by decide)
  · intro ⟨t, h⟩
    exact ⟨l, t, by rw [← h]; simp⟩

theorem contains_iff {s sub : String} : contains s sub = true ↔ sub.toList <:+: s.toList :=
  decide_eq_true_iff

/-- The flags of a query for names. -/
theorem contains_text (count : Nat) (exclude : Bool) :
    contains (ruleQuery count false exclude).text "| test" = false ∧
      contains (ruleQuery count false exclude).text "| not" = exclude := by
  have htest : "| test".toList = '|' :: " test".toList := by decide
  have hnot : "| not".toList = '|' :: " not".toList := by decide
  have hbar := bar_not_mem_text count
  cases exclude with
  | false =>
      have hnone : ∀ sub : String, '|' ∈ sub.toList →
          contains (ruleQuery count false false).text sub = false := by
        intro sub hsub
        rw [Bool.eq_false_iff, Ne, contains_iff]
        exact fun h => hbar (h.subset hsub)
      exact ⟨hnone "| test" (by decide), hnone "| not" (by decide)⟩
  | true =>
      have htext : (ruleQuery count false true).text.toList =
          ((ruleQuery count false false).text.toList ++ [' ']) ++ '|' :: " not".toList := by
        show ((ruleQuery count false false).text ++ " | not").toList = _
        rw [String.toList_append, List.append_assoc]
        rfl
      have hbar' : '|' ∉ (ruleQuery count false false).text.toList ++ [' '] := by
        rw [List.mem_append]
        exact not_or.mpr ⟨hbar, by decide⟩
      constructor
      · rw [Bool.eq_false_iff, Ne, contains_iff, htext, htest, infix_bar_iff _ hbar']
        decide
      · rw [contains_iff, htext, hnot, infix_bar_iff _ hbar']

theorem toParams_flags (hrule : rule.jq = (toFilterRule names regex exclude).jq) :
    (toParams rule).regex = regex ∧ (toParams rule).exclude = exclude := by
  rw [jq_toFilterRule] at hrule
  unfold toParams
  rw [hrule]
  cases regex with
  | true =>
      have hflags : ∀ exclude, contains (ruleQuery 0 true exclude).text "| test" = true ∧
          contains (ruleQuery 0 true exclude).text "| not" = exclude := by decide
      exact hflags exclude
  | false => exact contains_text (namesArray names).length exclude

theorem values_nameVars (l : List String) : (nameVars l).map Prod.snd = l := by
  unfold nameVars
  rw [List.map_map]
  exact List.zipIdx_map_fst 0 l

/-- Trimmed names without a comma are read back as they are. -/
theorem namesArray_join {values : List String} (hne : values ≠ [])
    (hvalues : ∀ value ∈ values, trimBy jsSpace value.toList = value.toList ∧
      ',' ∉ value.toList) : namesArray (", ".intercalate values) = values := by
  have hjoin : (", ".intercalate values).toList =
      [',', ' '].intercalate (values.map String.toList) := by
    rw [String.toList_intercalate]
    rfl
  have hwords : trimmedWords jsSpace ',' ([',', ' '].intercalate (values.map String.toList)) =
      values.map String.toList := by
    apply trimmedWords_join (by decide) (by decide)
    · rw [Ne, List.map_eq_nil_iff]
      exact hne
    · intro word hword
      obtain ⟨value, hvalue, rfl⟩ := List.mem_map.mp hword
      exact (hvalues value hvalue).1
    · intro word hword
      obtain ⟨value, hvalue, rfl⟩ := List.mem_map.mp hword
      exact (hvalues value hvalue).2
  unfold namesArray
  rw [hjoin, hwords, List.map_map]
  have hid : ∀ value ∈ values, (String.ofList ∘ String.toList) value = id value :=
    fun value _ => String.ofList_toList
  exact (List.map_congr_left hid).trans (List.map_id values)

theorem of_mem_namesArray {names value : String} (h : value ∈ namesArray names) :
    trimBy jsSpace value.toList = value.toList ∧ ',' ∉ value.toList := by
  unfold namesArray at h
  obtain ⟨word, hword, rfl⟩ := List.mem_map.mp h
  rw [String.toList_ofList]
  exact ⟨trimBy_of_mem_trimmedWords hword, not_mem_of_mem_trimmedWords hword⟩

/-- A regular expression is read back as it is. -/
theorem toParams_regex (hrule : Reordered (toFilterRule names true exclude) rule) :
    (toParams rule).names = names := by
  obtain ⟨_, vars, vars', hvars, hvars', hperm⟩ := hrule
  rw [← Option.some.inj hvars] at hperm
  have hone : vars' = [("$var", names)] := List.perm_singleton.mp hperm.symm
  unfold toParams
  rw [hvars', hone]
  rfl

/-- Names are read back in some order. -/
theorem toParams_names (hrule : Reordered (toFilterRule names false exclude) rule) :
    ∃ values, values.Perm (namesArray names) ∧ namesArray (toParams rule).names = values ∧
      (toParams rule).names = ", ".intercalate values := by
  obtain ⟨_, vars, vars', hvars, hvars', hperm⟩ := hrule
  rw [← Option.some.inj hvars] at hperm
  have hvalues : (vars'.map Prod.snd).Perm (namesArray names) := by
    have hmap := (hperm.map Prod.snd).symm
    rwa [show ((ruleParts names false).2).map Prod.snd = namesArray names from
      values_nameVars (namesArray names)] at hmap
  have hnames : (toParams rule).names = ", ".intercalate (vars'.map Prod.snd) := by
    unfold toParams
    rw [hvars', Option.getD_some]
  refine ⟨vars'.map Prod.snd, hvalues, ?_, hnames⟩
  rw [hnames]
  apply namesArray_join
  · intro hnil
    rw [hnil] at hvalues
    exact namesArray_ne_nil names (List.nil_perm.mp hvalues)
  · intro value hvalue
    exact of_mem_namesArray (hvalues.mem_iff.mp hvalue)

theorem namesArray_eq_blank_iff (names : String) :
    namesArray names = [""] ↔ ∀ c ∈ names.toList, jsSpace c = true := by
  unfold namesArray trimmedWords
  constructor
  · intro h
    rw [List.map_map] at h
    obtain ⟨word, hsplit, hword⟩ := List.map_eq_singleton_iff.mp h
    have hnames : names.toList = word := by
      have hjoin : [','].intercalate (names.toList.splitOn ',') = names.toList :=
        List.intercalate_splitOn ','
      rw [hsplit] at hjoin
      rw [← hjoin]
      simp
    have htrim : trimBy jsSpace word = [] := by
      have hlist := congrArg String.toList hword
      simpa using hlist
    rw [hnames]
    exact trimBy_eq_nil_iff.1 htrim
  · intro h
    have hcomma : ',' ∉ names.toList := fun hmem => absurd (h ',' hmem) (by decide)
    rw [List.splitOn_eq_singleton hcomma, List.map_singleton, trimBy_eq_nil_iff.2 h]
    rfl

/-- The form shows no names if and only if there were only blank ones. -/
theorem names_eq_empty_iff (hrule : Reordered (toFilterRule names false exclude) rule) :
    (toParams rule).names = "" ↔ ∀ c ∈ names.toList, jsSpace c = true := by
  obtain ⟨values, hperm, hvalues, hjoin⟩ := toParams_names hrule
  rw [← namesArray_eq_blank_iff]
  constructor
  · intro hempty
    rw [hempty] at hvalues
    have hblank : namesArray "" = [""] := (namesArray_eq_blank_iff "").mpr (by simp)
    rw [← hvalues, hblank] at hperm
    exact (List.singleton_perm.mp hperm).symm
  · intro hblank
    rw [hblank] at hperm
    rw [hjoin, List.perm_singleton.mp hperm]
    rfl

end Rule

/-! ## Saving the form again -/

section Form

variable {jq : Gojq} {regexp : String → Option (String → Bool)} {names : String}
  {regex exclude : Bool} {rule : AppRepositoryFilter}

theorem reordered_refl (names : String) (regex exclude : Bool) :
    Reordered (toFilterRule names regex exclude) (toFilterRule names regex exclude) :=
  ⟨rfl, _, _, rfl, rfl, List.Perm.refl _⟩

/-- The filter that is saved again keeps the same charts. -/
theorem keeps_resaved
    (hjq : jq.Runs regexp (ruleQuery (namesArray names).length regex exclude))
    (hregex : regex = true → (regexp names).isSome)
    (hrule : Reordered (toFilterRule names regex exclude) rule) :
    Keeps jq (resaved rule) fun chart => selected regexp names regex exclude chart.name := by
  obtain ⟨hflag, hflag'⟩ := toParams_flags hrule.1
  unfold resaved
  rw [hflag, hflag']
  cases regex with
  | true =>
      rw [toParams_regex hrule]
      exact keeps_of_reordered hjq hregex (reordered_refl names true exclude)
  | false =>
      obtain ⟨values, hperm, hvalues, _⟩ := toParams_names hrule
      have hsame : ∀ name, selected regexp (toParams rule).names false exclude name =
          selected regexp names false exclude name := by
        intro name
        have hcontains : (namesArray (toParams rule).names).contains name =
            (namesArray names).contains name := by
          rw [hvalues]
          exact hperm.contains_eq
        unfold selected
        simp only [Bool.false_eq_true, if_false, hcontains]
      have hlen : (namesArray (toParams rule).names).length = (namesArray names).length := by
        rw [hvalues]
        exact hperm.length_eq
      rw [← hlen] at hjq
      have hkeeps := keeps_of_reordered hjq (fun h => Bool.noConfusion h)
        (reordered_refl (toParams rule).names false exclude)
      simpa only [hsame] using hkeeps

/-- With names to show, the form saves the rule that is made of them. -/
theorem submittedFilter_iff (hrule : Reordered (toFilterRule names regex exclude) rule) :
    submittedFilter typeHelm (loadFilter (some rule)) = some (resaved rule) ↔
      (toParams rule).names ≠ "" := by
  have hjq : rule.jq ≠ "" := by
    rw [hrule.1, jq_toFilterRule]
    exact JqQuery.text_ne_empty (vars_ruleQuery_ne_nil names regex exclude)
  have hload : loadFilter (some rule) = toParams rule := if_pos hjq
  unfold submittedFilter
  rw [hload]
  constructor
  · intro h hempty
    rw [if_neg (fun hboth => hboth.2 hempty)] at h
    exact absurd h (by simp)
  · intro hne
    exact if_pos ⟨rfl, hne⟩

/-- The charts that the filter is for are kept, also after the form is saved again, if and only if
    the filter is a regular expression or its names are not blank. -/
theorem filterKept_iff (hnames : names ≠ "") (hregex : regex = true → (regexp names).isSome)
    (hjq : jq.Runs regexp (ruleQuery (namesArray names).length regex exclude)) :
    FilterKept jq regexp names regex exclude ↔
      regex = true ∨ ∃ c ∈ names.toList, jsSpace c = false := by
  have hblank : (∃ c ∈ names.toList, jsSpace c = false) ↔
      ¬ ∀ c ∈ names.toList, jsSpace c = true := by simp
  constructor
  · intro h
    have hrule := reordered_refl names regex exclude
    have hsubmitted := (submittedFilter_iff hrule).mp (h _ hrule).2.1
    cases regex with
    | true => exact .inl rfl
    | false =>
        rw [Ne, names_eq_empty_iff hrule, ← hblank] at hsubmitted
        exact .inr hsubmitted
  · intro h rule hrule
    refine ⟨keeps_of_reordered hjq hregex hrule, (submittedFilter_iff hrule).mpr ?_,
      keeps_resaved hjq hregex hrule⟩
    cases regex with
    | true =>
        rw [toParams_regex hrule]
        exact hnames
    | false =>
        rw [Ne, names_eq_empty_iff hrule, ← hblank]
        exact h.resolve_left Bool.false_ne_true

end Form

/-- Two names, to be excluded. -/
theorem filterKept_twoNames :
    FilterKept (Gojq.only (fun _ => none) (ruleQuery 2 false true)) (fun _ => none)
      "nginx, redis" false true :=
  (filterKept_iff (by decide) (fun h => Bool.noConfusion h) (Gojq.runs_only _ _)).mpr
    (.inr ⟨'n', by decide, by decide⟩)

/-- A blank is stored as a name that no chart has; saved again, there is no filter. -/
theorem not_filterKept_blank :
    (Gojq.only (fun _ => none) (ruleQuery 1 false false)).Runs (fun _ => none)
        (ruleQuery (namesArray " ").length false false) ∧
      ¬ FilterKept (Gojq.only (fun _ => none) (ruleQuery 1 false false)) (fun _ => none) " " false
        false := by
  refine ⟨Gojq.runs_only _ _, fun h => ?_⟩
  have hnone : submittedFilter typeHelm (loadFilter (some (toFilterRule " " false false))) =
      none := by decide
  have hsome := (h _ (reordered_refl " " false false)).2.1
  exact absurd (hnone.symm.trans hsome) (by simp)

end Kubeapps.Dashboard
