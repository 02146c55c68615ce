/-
  What a search of the catalog finds (cmd/assetsvc/pkg/utils/postgresql_utils.go:
  GenerateWhereClause, the clause for `SearchQuery`), on the JSON that the sync job stores
  (cmd/asset-syncer/postgresql_utils.go: importCharts).

  The clause takes `info -> 'maintainers'` for an object, but it is a list, so no maintainer is ever
  found (`searchTexts_chartJson`). `%`, `_` and `\` of a search string have their meaning in a
  pattern, and lists are searched in their JSON text.
-/
import Kubeapps.Assetsvc.GetChart
import Kubeapps.Assetsvc.WhereClause
import Kubeapps.Lib.JsonText

namespace Kubeapps.Assetsvc

open Kubeapps.Lib Kubeapps.Lib.Sql Kubeapps.Models

/-! ## Patterns -/

/-- The characters that do not stand for themselves in a pattern. -/
def patternChars : List Char := ['%', '_', '\\']

theorem like_cons {c : Char} (hc : c ∉ patternChars) (pattern text : List Char) :
    like (c :: pattern) text = true ↔ ∃ rest, text = c :: rest ∧ like pattern rest = true := by
  have hpercent : c ≠ '%' := fun heq => hc (by simp [patternChars, heq])
  have hunderscore : c ≠ '_' := fun heq => hc (by simp [patternChars, heq])
  have hback : c ≠ '\\' := fun heq => hc (by simp [patternChars, heq])
  cases text with
  | nil =>
      have hnone : like (c :: pattern) [] = false := by
        rw [like.eq_def]
        simp [hback]
      rw [hnone]
      simp
  | cons d text =>
      have hstep : like (c :: pattern) (d :: text) = (c == d && like pattern text) := by
        rw [like.eq_def]
        simp [hback]
      rw [hstep, Bool.and_eq_true, beq_iff_eq]
      constructor
      · intro ⟨heq, hlike⟩
        exact ⟨text, by rw [heq], hlike⟩
      · intro ⟨rest, heq, hlike⟩
        obtain ⟨hd, hrest⟩ := List.cons.inj heq
        exact ⟨hd.symm, by rwa [hrest]⟩

theorem like_append {word : List Char} (hword : ∀ c ∈ word, c ∉ patternChars)
    (pattern text : List Char) :
    like (word ++ pattern) text = true ↔
      ∃ rest, text = word ++ rest ∧ like pattern rest = true := by
  induction word generalizing text with
  | nil => simp
  | cons c word ih =>
      rw [List.cons_append, like_cons (hword c List.mem_cons_self)]
      constructor
      · intro ⟨rest, htext, hlike⟩
        obtain ⟨rest', hrest, hlike'⟩ :=
          (ih (fun c hc => hword c (List.mem_cons_of_mem _ hc)) rest).mp hlike
        exact ⟨rest', by rw [htext, hrest, List.cons_append], hlike'⟩
      · intro ⟨rest, htext, hlike⟩
        exact ⟨word ++ rest, by rw [htext, List.cons_append],
          (ih (fun c hc => hword c (List.mem_cons_of_mem _ hc)) _).mpr ⟨rest, rfl, hlike⟩⟩

/-- Everything is like `%`. -/
theorem like_any (text : List Char) : like ['%'] text = true := by
  rw [like, List.any_eq_true]
  exact ⟨[], (List.mem_tails _ _).mpr (List.nil_suffix), rfl⟩

/-- A word between two `%` is searched for. -/
theorem like_contains {word : List Char} (hword : ∀ c ∈ word, c ∉ patternChars)
    (text : List Char) : like ('%' :: (word ++ ['%'])) text = true ↔ word <:+: text := by
  rw [like, List.any_eq_true]
  constructor
  · intro ⟨tail, htail, hlike⟩
    obtain ⟨rest, heq, _⟩ := (like_append hword ['%'] tail).mp hlike
    obtain ⟨front, hfront⟩ := (List.mem_tails _ _).mp htail
    exact ⟨front, rest, by rw [← hfront, heq, List.append_assoc]⟩
  · intro ⟨front, rest, htext⟩
    refine ⟨word ++ rest, ?_, (like_append hword ['%'] _).mpr ⟨rest, rfl, like_any rest⟩⟩
    rw [List.mem_tails, ← htext, List.append_assoc]
    exact List.suffix_append front _

/-! ## What is stored -/

/-- A field of a maintainer is left out when it is empty. -/
def omitEmpty (key value : String) : String × Option Json :=
  (key, if value = "" then none else some (.str value))

def maintainerJson (m : Maintainer) : Json :=
  Json.object [omitEmpty "name" m.name, omitEmpty "email" m.email, omitEmpty "url" m.url]

def chartVersionJson (isNil : String → Bool) (v : ChartVersion) : Json :=
  .obj [("version", .str v.version), ("app_version", .str v.appVersion),
    ("created", .str v.created), ("digest", .str v.digest),
    ("urls", if isNil "urls" ∧ v.urls = [] then .null else Json.strings v.urls),
    ("readme", .str v.readme), ("values", .str v.values), ("schema", .str v.schema)]

/-- `json.Marshal` of a chart. An empty slice is null if it is nil. -/
def chartJson (isNil : String → Bool) (c : Chart) : Json :=
  .obj [("ID", .str c.id), ("name", .str c.name),
    ("repo", .obj [("namespace", .str c.repo.ns), ("name", .str c.repo.name),
      ("url", .str c.repo.url), ("type", .str c.repo.type)]),
    ("description", .str c.description), ("home", .str c.home),
    ("keywords", if isNil "keywords" ∧ c.keywords = [] then .null else Json.strings c.keywords),
    ("maintainers", if isNil "maintainers" ∧ c.maintainers = [] then .null
      else .arr (c.maintainers.map maintainerJson)),
    ("sources", if isNil "sources" ∧ c.sources = [] then .null else Json.strings c.sources),
    ("icon", .str c.icon),
    ("raw_icon", if isNil "raw_icon" ∧ c.rawIcon = "" then .null else .str c.rawIcon),
    ("icon_content_type", .str c.iconContentType), ("category", .str c.category),
    ("chartVersions", if isNil "chartVersions" ∧ c.chartVersions = [] then .null
      else .arr (c.chartVersions.map (chartVersionJson isNil)))]

/-- A chart that the sync job can store: its id and name are made as it makes them, and jsonb takes
    no zero byte. -/
structure Storable (c : Chart) : Prop where
  id_eq : c.id = c.repo.name ++ "/" ++ c.name
  name_eq : ∃ name, c.name = pathEscape name
  repo_valid : ValidName c.repo.name
  noZero : ∀ s ∈ chartStrings c, Char.ofNat 0 ∉ s.toList

/-- The row of a chart. -/
def chartRow (isNil : String → Bool) (c : Chart) : JsonRow where
  repoName := c.repo.name
  repoNamespace := c.repo.ns
  info := chartJson isNil c

/-! ## The search -/

/-- A search in all namespaces. -/
def searchQueryOf (query : String) : ChartQuery where
  ns := "_all"
  chartName := ""
  version := ""
  appVersion := ""
  searchQuery := query
  repos := []
  categories := []

/-- The clause for a search string matches a row. A parameter with a zero byte is an error. -/
def SearchMatches (d : Dialect) (kubeappsNamespace query : String) (row : JsonRow) : Prop :=
  let clause := generateWhereClause kubeappsNamespace (searchQueryOf query)
  (∀ p ∈ clause.2, Char.ofNat 0 ∉ p.toList) ∧
    ∃ cond, readWhere clause.1 = some cond ∧ Selected d row clause.2 cond

/-- What PostgreSQL does with patterns and with lists of strings: characters are compared as they
    fold. -/
structure IsPostgres (fold : Char → Char) (d : Dialect) : Prop where
  ilike_eq : ∀ text pattern,
    d.ilike text pattern = like (pattern.toList.map fold) (text.toList.map fold)
  print_eq : ∀ ss, d.printJson (Json.strings ss) = Json.printStrings ss
  keepsMarks : Json.KeepsMarks fold

/-- Whether the string occurs in a text, ignoring case. -/
def Occurs (fold : Char → Char) (query text : String) : Prop :=
  query.toList.map fold <:+: text.toList.map fold

instance (fold : Char → Char) (query text : String) : Decidable (Occurs fold query text) :=
  inferInstanceAs (Decidable (_ <:+: _))

/-- The texts that a search is for, but for the names of maintainers. -/
def plainTexts (c : Chart) : List String :=
  [c.name, c.description, c.repo.name] ++ c.keywords ++ c.sources

/-- Whether the string occurs in a text that a search is for. -/
def OccursIn (fold : Char → Char) (query : String) (c : Chart) : Prop :=
  (∃ text ∈ plainTexts c, Occurs fold query text) ∨
    ∃ m ∈ c.maintainers, Occurs fold query m.name

/-- The string stands for itself, in a pattern and in the text of a list. -/
structure Literal (query : String) : Prop where
  noPattern : ∀ c ∈ query.toList, c ∉ patternChars
  noQuote : '"' ∉ query.toList
  noComma : ¬ query.toList <:+: [',', ' ']
  noBrackets : ¬ query.toList <:+: ['[', ']']

/-- The string occurs in the name of a maintainer and nowhere else. -/
def OnlyMaintainer (fold : Char → Char) (query : String) (c : Chart) : Prop :=
  (∃ m ∈ c.maintainers, Occurs fold query m.name) ∧
    ¬ ∃ text ∈ plainTexts c, Occurs fold query text

section Search

variable {fold : Char → Char} {d : Dialect} {isNil : String → Bool} {c : Chart}
  {kubeappsNamespace query : String}

/-- A clause with a search string alone is what `Found` says. -/
theorem searchMatches_iff_found (hquery : query ≠ "") (row : JsonRow) :
    SearchMatches d kubeappsNamespace query row ↔
      Char.ofNat 0 ∉ query.toList ∧ Found d query row.info := by
  have hparams : (generateWhereClause kubeappsNamespace (searchQueryOf query)).2 =
      ["%" ++ query ++ "%"] := by
    rw [generateWhereClause_eq]
    simp [parts, searchQueryOf, hquery, valuesPart, given, Part.params]
  have hzero : (∀ p ∈ ["%" ++ query ++ "%"], Char.ofNat 0 ∉ p.toList) ↔
      Char.ofNat 0 ∉ query.toList := by
    rw [List.forall_mem_singleton, String.toList_append, String.toList_append]
    simp
  have hselects : Selects d kubeappsNamespace (searchQueryOf query) row ↔
      Found d query row.info := by
    simp [Selects, searchQueryOf, hquery]
  obtain ⟨cond, hread, hselected⟩ := exists_readWhere kubeappsNamespace (searchQueryOf query)
  have hcond : (∃ cond, readWhere (generateWhereClause kubeappsNamespace
      (searchQueryOf query)).1 = some cond ∧ Selected d row (generateWhereClause kubeappsNamespace
        (searchQueryOf query)).2 cond) ↔ Found d query row.info := by
    rw [hread, ← hselects, ← hselected d row]
    simp
  unfold SearchMatches
  dsimp only
  rw [hcond, hparams, hzero]

/-- A list as the clause sees it. -/
def listDatum (d : Dialect) (isNil : Bool) (ss : List String) : Datum :=
  if isNil ∧ ss = [] then .null else .text (d.printJson (Json.strings ss))

/-- No name of a maintainer is among the texts that the clause looks at. -/
theorem searchTexts_chartJson (d : Dialect) (isNil : String → Bool) (c : Chart) :
    searchTexts d (chartJson isNil c) = [.text c.name, .text c.description, .text c.repo.name,
      listDatum d (isNil "keywords") c.keywords, listDatum d (isNil "sources") c.sources,
      .null] := by
  have hlist : ∀ (key : String) (b : Bool) (ss : List String), field (chartJson isNil c) key =
      some (if b ∧ ss = [] then .null else Json.strings ss) →
        arrowText d (chartJson isNil c) key = listDatum d b ss := by
    intro key b ss hfield
    unfold listDatum
    by_cases hnil : b ∧ ss = []
    · rw [if_pos hnil] at hfield ⊢
      exact arrowText_null hfield
    · rw [if_neg hnil] at hfield ⊢
      exact arrowText_arr hfield
  have hkeywords := hlist "keywords" (isNil "keywords") c.keywords rfl
  have hsources := hlist "sources" (isNil "sources") c.sources rfl
  have hmaintainers : ((field (chartJson isNil c) "maintainers").elim Datum.null fun j =>
      arrowText d j "name") = .null := by
    show arrowText d (if isNil "maintainers" ∧ c.maintainers = [] then Json.null
      else .arr (c.maintainers.map maintainerJson)) "name" = .null
    by_cases hnil : isNil "maintainers" ∧ c.maintainers = []
    · rw [if_pos hnil]
      rfl
    · rw [if_neg hnil]
      rfl
  unfold searchTexts
  dsimp only
  rw [hkeywords, hsources, hmaintainers]
  rfl

/-- A word that folds to marks has them already. -/
theorem infix_of_fold (hfold : Json.KeepsMarks fold) {word text : List Char}
    (htext : ∀ c ∈ text, c ∈ Json.marks) (h : word.map fold <:+: text) : word <:+: text := by
  have hsame : ∀ c ∈ word, fold c = c := by
    intro c hc
    have hmark := htext (fold c) (h.subset (List.mem_map_of_mem hc))
    exact ((hfold (fold c) hmark c).mp rfl).symm
  rw [List.map_congr_left hsame, List.map_id'] at h
  exact h

theorem fold_ne {mark : Char} (hfold : Json.KeepsMarks fold) (hmark : mark ∈ Json.marks)
    {word : List Char} (h : mark ∉ word) : mark ∉ word.map fold := by
  intro hmem
  obtain ⟨c, hc, heq⟩ := List.mem_map.mp hmem
  rw [(hfold mark hmark c).mp heq] at hc
  exact h hc

/-- `ILIKE` with a literal search string. -/
theorem ilike_iff (hd : IsPostgres fold d) (hquery : Literal query) (text : String) :
    d.ilike text ("%" ++ query ++ "%") = true ↔ Occurs fold query text := by
  have hpercent : fold '%' = '%' := (hd.keepsMarks '%' (by decide) '%').mpr rfl
  have hpattern : ("%" ++ query ++ "%").toList.map fold =
      '%' :: (query.toList.map fold ++ ['%']) := by
    rw [String.toList_append, String.toList_append, List.map_append, List.map_append]
    show [fold '%'] ++ query.toList.map fold ++ [fold '%'] = _
    rw [hpercent, List.append_assoc]
    rfl
  have hword : ∀ c ∈ query.toList.map fold, c ∉ patternChars := by
    intro c hc hmem
    have hmark : c ∈ Json.marks := by
      simp only [patternChars, List.mem_cons, List.not_mem_nil, or_false] at hmem
      rcases hmem with rfl | rfl | rfl <;> decide
    exact fold_ne hd.keepsMarks hmark (fun hq => hquery.noPattern c hq hmem) hc
  rw [hd.ilike_eq, hpattern, like_contains hword]
  rfl

/-- `ILIKE` on a list, in its JSON text. -/
theorem ilike_list_iff (hd : IsPostgres fold d) (hquery : Literal query) (isNil : Bool)
    {ss : List String} (hss : ∀ s ∈ ss, Json.NoControls s) :
    (∃ text, .text text = listDatum d isNil ss ∧ d.ilike text ("%" ++ query ++ "%") = true) ↔
      ∃ s ∈ ss, Occurs fold query s := by
  have hprinted : d.ilike (d.printJson (Json.strings ss)) ("%" ++ query ++ "%") = true ↔
      ∃ s ∈ ss, Occurs fold query s := by
    rw [ilike_iff hd hquery, hd.print_eq]
    refine Json.infix_printed_iff hd.keepsMarks ?_ ?_ ?_ ?_ hss
    · exact fold_ne hd.keepsMarks (by decide) hquery.noQuote
    · exact fold_ne hd.keepsMarks (by decide) fun h => hquery.noPattern _ h (by decide)
    · exact fun h => hquery.noComma (infix_of_fold hd.keepsMarks (by simp [Json.marks]) h)
    · exact fun h => hquery.noBrackets (infix_of_fold hd.keepsMarks (by simp [Json.marks]) h)
  unfold listDatum
  by_cases hnil : isNil ∧ ss = []
  · rw [if_pos hnil, hnil.2]
    simp
  · rw [if_neg hnil, ← hprinted]
    simp

/-- A literal search string is found where it occurs, but for the names of maintainers. -/
theorem found_iff (hd : IsPostgres fold d) (hquery : Literal query)
    (hlists : ∀ s ∈ c.keywords ++ c.sources, Json.NoControls s) :
    Found d query (chartJson isNil c) ↔ ∃ text ∈ plainTexts c, Occurs fold query text := by
  have hkeywords := ilike_list_iff hd hquery (isNil "keywords")
    fun s hs => hlists s (List.mem_append_left c.sources hs)
  have hsources := ilike_list_iff hd hquery (isNil "sources")
    fun s hs => hlists s (List.mem_append_right c.keywords hs)
  simp only [ilike_iff hd hquery] at hkeywords hsources
  unfold Found plainTexts
  rw [searchTexts_chartJson]
  simp only [List.mem_cons, List.not_mem_nil, or_false, List.cons_append, List.nil_append,
    Datum.text.injEq, reduceCtorEq, or_and_right, exists_or, exists_eq_left, List.mem_append,
    hkeywords, hsources, ilike_iff hd hquery]

/-- No text of a stored chart has a zero byte. -/
theorem not_occursIn_of_zero (hfold : Json.KeepsMarks fold) (hc : Storable c)
    (hzero : Char.ofNat 0 ∈ query.toList) : ¬ OccursIn fold query c := by
  have hnone : ∀ text ∈ chartStrings c, ¬ Occurs fold query text := by
    intro text htext hoccurs
    have hmem := hoccurs.subset (List.mem_map_of_mem hzero)
    rw [(hfold (Char.ofNat 0) (by decide) (Char.ofNat 0)).mpr rfl] at hmem
    exact fold_ne hfold (by decide) (hc.noZero text htext) hmem
  intro hoccurs
  rcases hoccurs with ⟨text, htext, hoccurs⟩ | ⟨m, hm, hoccurs⟩
  · refine hnone text ?_ hoccurs
    simp only [plainTexts, chartStrings, List.mem_append, List.mem_cons, List.not_mem_nil,
      or_false] at htext ⊢
    tauto
  · refine hnone m.name ?_ hoccurs
    simp only [chartStrings, List.mem_append, List.mem_flatMap]
    exact .inl (.inr ⟨m, hm, List.mem_cons_self⟩)

/-- A literal search string is missed if only names of maintainers have it. -/
theorem searchMatches_iff_occursIn (hd : IsPostgres fold d) (hquery : Literal query)
    (hc : Storable c) (hlists : ∀ s ∈ c.keywords ++ c.sources, Json.NoControls s) :
    (SearchMatches d kubeappsNamespace query (chartRow isNil c) ↔ OccursIn fold query c) ↔
      ¬ OnlyMaintainer fold query c := by
  have hne : query ≠ "" := by
    intro heq
    refine hquery.noComma ?_
    rw [heq]
    exact List.nil_infix
  rw [searchMatches_iff_found hne]
  show (_ ∧ Found d query (chartJson isNil c) ↔ _) ↔ _
  rw [found_iff hd hquery hlists]
  have hzero : (∃ text ∈ plainTexts c, Occurs fold query text) → Char.ofNat 0 ∉ query.toList :=
    fun hplain hmem => not_occursIn_of_zero hd.keepsMarks hc hmem (.inl hplain)
  rw [and_iff_right_of_imp hzero]
  unfold OccursIn OnlyMaintainer
  constructor
  · intro h ⟨hmaintainer, hplain⟩
    exact hplain (h.mpr (.inr hmaintainer))
  · intro h
    refine ⟨.inl, fun hoccurs => hoccurs.elim id fun hmaintainer => ?_⟩
    by_contra hplain
    exact h ⟨hmaintainer, hplain⟩

/-! ### For every string -/

/-- A chart of the repository `name` with nothing but a name and maintainers. -/
def bareChart (name : String) (maintainers : List Maintainer) : Chart where
  id := name ++ "/" ++ name
  name := name
  repo := ⟨"kubeapps", name, "https://charts.example.com", "helm"⟩
  description := ""
  home := ""
  keywords := []
  maintainers := maintainers
  sources := []
  icon := ""
  rawIcon := ""
  iconContentType := ""
  category := ""
  chartVersions := []

theorem storable_bareChart {name : String} (hname : pathEscape name = name)
    (hvalid : ValidName name) {maintainers : List Maintainer}
    (hzero : ∀ m ∈ maintainers, ∀ s ∈ [m.name, m.email, m.url], Char.ofNat 0 ∉ s.toList) :
    Storable (bareChart name maintainers) where
  id_eq := rfl
  name_eq := ⟨name, hname.symm⟩
  repo_valid := hvalid
  noZero s hs := by
    have hletters : Char.ofNat 0 ∉ name.toList := fun hmem => by
      rcases mem_validName hvalid hmem with h | h
      · exact absurd h (by decide)
      · exact absurd h (by decide)
    simp only [chartStrings, bareChart, List.append_nil, List.flatMap_nil, List.mem_append,
      List.mem_flatMap, List.mem_cons, List.not_mem_nil, or_false] at hs
    rcases hs with (rfl | rfl | rfl | rfl | rfl | rfl | rfl | rfl | rfl | rfl | rfl | rfl) |
      ⟨m, hm, hs⟩
    · simp [hletters]
    · exact hletters
    · decide
    · exact hletters
    · decide
    · decide
    · decide
    · decide
    · decide
    · decide
    · decide
    · decide
    · exact hzero m hm s (by simpa using hs)

theorem pathEscape_a : pathEscape "a" = "a" := by
  apply bytes_injective
  rw [bytes_pathEscape]
  decide

theorem pathEscape_b : pathEscape "b" = "b" := by
  apply bytes_injective
  rw [bytes_pathEscape]
  decide

/-- The clause does not see maintainers. -/
theorem searchMatches_bareChart (hne : query ≠ "") (name : String) (maintainers : List Maintainer) :
    SearchMatches d kubeappsNamespace query (chartRow isNil (bareChart name maintainers)) ↔
      SearchMatches d kubeappsNamespace query (chartRow isNil (bareChart name [])) := by
  rw [searchMatches_iff_found hne, searchMatches_iff_found hne]
  unfold Found chartRow
  dsimp only
  rw [searchTexts_chartJson, searchTexts_chartJson]
  rfl

/-- For a string without a zero byte some stored chart is found although it does not have the
    string, or the other way round: one of two names does not have it, and the clause does not tell
    a chart with a maintainer of this name from one without. -/
theorem exists_differs (hab : fold 'a' ≠ fold 'b') (hne : query ≠ "")
    (hzero : Char.ofNat 0 ∉ query.toList) (d : Dialect) (kubeappsNamespace : String)
    (isNil : String → Bool) :
    ∃ c, Storable c ∧ ¬ (SearchMatches d kubeappsNamespace query (chartRow isNil c) ↔
      OccursIn fold query c) := by
  by_contra hall
  have hsame : ∀ c, Storable c → (SearchMatches d kubeappsNamespace query (chartRow isNil c) ↔
      OccursIn fold query c) := by
    intro c hc
    by_contra hnot
    exact hall ⟨c, hc, hnot⟩
  obtain ⟨x, hx⟩ : ∃ x, x ∈ query.toList := by
    apply List.exists_mem_of_ne_nil
    exact fun h => hne (String.toList_eq_nil_iff.mp h)
  -- A maintainer of this name is not seen, so the name of the chart has the string.
  have hname : ∀ name, pathEscape name = name → ValidName name → fold x ∈ name.toList.map fold := by
    intro name hescape hvalid
    have hplain : OccursIn fold query (bareChart name []) := by
      rw [← hsame _ (storable_bareChart hescape hvalid (by simp)),
        ← searchMatches_bareChart hne name [⟨query, "", ""⟩], hsame _ (storable_bareChart hescape
          hvalid (by simpa using hzero))]
      exact .inr ⟨_, List.mem_cons_self, List.infix_refl _⟩
    rcases hplain with ⟨text, htext, hoccurs⟩ | ⟨m, hm, _⟩
    · have hmem := hoccurs.subset (List.mem_map_of_mem hx)
      simp only [plainTexts, bareChart, List.append_nil, List.mem_cons, List.not_mem_nil,
        or_false] at htext
      rcases htext with rfl | rfl | rfl
      · exact hmem
      · exact absurd hmem List.not_mem_nil
      · exact hmem
    · exact absurd hm List.not_mem_nil
  have ha := hname "a" pathEscape_a (by decide)
  have hb := hname "b" pathEscape_b (by decide)
  have ha' : fold x = fold 'a' := List.mem_singleton.mp ha
  have hb' : fold x = fold 'b' := List.mem_singleton.mp hb
  exact hab (ha'.symm.trans hb')

/-- A search finds the stored charts with the string in a name, a description, a keyword or a
    source, as long as the string is literal: it misses those with the string in names of
    maintainers only. So no string is searched for right in all stored charts, but one that
    PostgreSQL refuses and no chart has. -/
theorem searchMatches_iff (kubeappsNamespace query : String) (hd : IsPostgres fold d)
    (hab : fold 'a' ≠ fold 'b') (hne : query ≠ "") :
    (∀ c isNil, Storable c → Literal query → (∀ s ∈ c.keywords ++ c.sources, Json.NoControls s) →
      ((SearchMatches d kubeappsNamespace query (chartRow isNil c) ↔ OccursIn fold query c) ↔
        ¬ OnlyMaintainer fold query c)) ∧
    ((∀ c isNil, Storable c → (SearchMatches d kubeappsNamespace query (chartRow isNil c) ↔
      OccursIn fold query c)) ↔ Char.ofNat 0 ∈ query.toList) := by
  refine ⟨fun c isNil hc hquery hlists => searchMatches_iff_occursIn hd hquery hc hlists, ?_⟩
  constructor
  · intro hall
    by_contra hzero
    obtain ⟨c, hc, hdiffers⟩ := exists_differs hab hne hzero d kubeappsNamespace fun _ => true
    exact hdiffers (hall c _ hc)
  · intro hzero c isNil hc
    rw [searchMatches_iff_found hne]
    exact ⟨fun h => absurd hzero h.1,
      fun h => absurd h (not_occursIn_of_zero hd.keepsMarks hc hzero)⟩

end Search

/-- Enough of PostgreSQL for searches: of JSON it prints lists of strings. -/
def searchDialect (fold : Char → Char) : Dialect where
  parseJson _ := none
  printJson
    | .arr elems => Json.printStrings (elems.filterMap fun
        | .str s => some s
        | _ => none)
    | _ => ""
  contains _ _ := false
  ilike text pattern := like (pattern.toList.map fold) (text.toList.map fold)

theorem isPostgres_searchDialect {fold : Char → Char} (hfold : Json.KeepsMarks fold) :
    IsPostgres fold (searchDialect fold) where
  ilike_eq _ _ := rfl
  print_eq ss := by
    show Json.printStrings ((ss.map Json.str).filterMap _) = _
    rw [List.filterMap_map]
    congr 1
    exact List.filterMap_some
  keepsMarks := hfold

theorem keepsMarks_toLower : Json.KeepsMarks Char.toLower := by
  intro mark hmark c
  have hall : Json.marks.all (fun m => m.toNat < 97 ∧ ¬ (65 ≤ m.toNat ∧ m.toNat ≤ 90)) = true := by
    decide
  have hmark' := of_decide_eq_true (List.all_eq_true.mp hall mark hmark)
  unfold Char.toLower
  split
  · rename_i h
    have hge : 65 ≤ c.toNat := UInt32.le_iff_toNat_le.mp h.1
    have hle : c.toNat ≤ 90 := UInt32.le_iff_toNat_le.mp h.2
    constructor
    · intro heq
      have hval : (c.val + ('a'.val - 'A'.val)).toNat = mark.toNat := congrArg Char.toNat heq
      have hshift : ('a'.val - 'A'.val).toNat = 32 := by decide
      have hc : c.val.toNat = c.toNat := rfl
      rw [UInt32.toNat_add, hshift] at hval
      omega
    · intro heq
      rw [heq] at hge hle
      exact absurd ⟨hge, hle⟩ hmark'.2
  · rfl

/-- A chart with a maintainer `alice`. No other text has this name. -/
def aliceChart : Chart := bareChart "a" [⟨"alice", "", ""⟩]

theorem storable_aliceChart : Storable aliceChart :=
  storable_bareChart pathEscape_a (by decide) (by decide)

theorem literal_alice : Literal "alice" where
  noPattern c hc := by
    have hall : "alice".toList.all (fun c => c ∉ patternChars) = true := by decide
    exact of_decide_eq_true (List.all_eq_true.mp hall c hc)
  noQuote := by decide
  noComma := by decide
  noBrackets := by decide

theorem onlyMaintainer_alice : OnlyMaintainer Char.toLower "alice" aliceChart :=
  ⟨⟨_, List.mem_cons_self, List.infix_refl _⟩, by decide⟩

/-- A search for `alice` is not right in this chart, and in no set of all stored charts. -/
theorem searchMatches_iff_alice :
    ((SearchMatches (searchDialect Char.toLower) "kubeapps" "alice"
        (chartRow (fun _ => true) aliceChart) ↔ OccursIn Char.toLower "alice" aliceChart) ↔
      ¬ OnlyMaintainer Char.toLower "alice" aliceChart) ∧
    ((∀ c isNil, Storable c → (SearchMatches (searchDialect Char.toLower) "kubeapps" "alice"
      (chartRow isNil c) ↔ OccursIn Char.toLower "alice" c)) ↔
        Char.ofNat 0 ∈ "alice".toList) := by
  have h := searchMatches_iff "kubeapps" "alice" (isPostgres_searchDialect keepsMarks_toLower)
    (by decide) (by decide)
  exact ⟨h.1 aliceChart _ storable_aliceChart literal_alice
    (fun s hs => absurd hs List.not_mem_nil), h.2⟩

/-- The chart has a maintainer `alice` and a search for `alice` does not find it. -/
theorem not_searchMatches_alice :
    Storable aliceChart ∧ OccursIn Char.toLower "alice" aliceChart ∧
      ¬ SearchMatches (searchDialect Char.toLower) "kubeapps" "alice"
        (chartRow (fun _ => true) aliceChart) := by
  have hoccurs : OccursIn Char.toLower "alice" aliceChart := .inr onlyMaintainer_alice.1
  refine ⟨storable_aliceChart, hoccurs, fun hmatches => ?_⟩
  have hfound : Found (searchDialect Char.toLower) "alice" (chartJson (fun _ => true) aliceChart) :=
    ((searchMatches_iff_found (by decide) _).mp hmatches).2
  have hplain := (found_iff (isPostgres_searchDialect keepsMarks_toLower) literal_alice
    (fun s hs => absurd hs List.not_mem_nil)).mp hfound
  exact onlyMaintainer_alice.2 hplain

end Kubeapps.Assetsvc
