/-
  The filters of the catalog in its URL (src/dashboard/src/components/Catalog/Catalog.tsx:
  filtersToQuery and the effect on `propsFilter`; containers/CatalogContainer/CatalogContainer.tsx).

  The values of a filter are joined by commas, so a comma of a value is written as two underscores,
  and every two underscores are read as a comma. `filtersKept_iff` says which values come back.
-/
import Kubeapps.Lib.Query

namespace Kubeapps.Dashboard

open Kubeapps.Lib

/-! ## Writing -/

/-- `filterNames`. -/
inductive FilterName where
  | search
  | type
  | repo
  | category
  | operatorProvider
  deriving DecidableEq, Repr

def FilterName.text : FilterName → String
  | .search => "Search"
  | .type => "Type"
  | .repo => "Repository"
  | .category => "Category"
  | .operatorProvider => "Provider"

/-- The filters, in the order of `Object.keys`. -/
structure CatalogFilters where
  entries : List (FilterName × List String)
  nodup : (entries.map Prod.fst).Nodup

def CatalogFilters.get (filters : CatalogFilters) (name : FilterName) : List String :=
  (filters.entries.lookup name).getD []

/-- `f.replace(/,/g, "__")`. -/
def markCommas (f : List Char) : List Char := f.flatMap fun c => if c = ',' then ['_', '_'] else [c]

/-- `a.replace(/__/g, ",")`. -/
def unmarkCommas : List Char → List Char
  | c :: d :: cs =>
      if c = '_' ∧ d = '_' then ',' :: unmarkCommas cs else c :: unmarkCommas (d :: cs)
  | cs => cs

/-- The value of a filter in the query. -/
def filterQuery (values : List String) : String :=
  ",".intercalate (values.map fun f => encodeURIComponent (String.ofList (markCommas f.toList)))

/-- `filtersToQuery`. -/
def filtersToQuery (filters : CatalogFilters) : String :=
  let activeFilters := filters.entries.filter fun e => e.2 ≠ []
  if activeFilters = [] then ""
  else "?" ++ formQuery (activeFilters.map fun e => (e.1.text, filterQuery e.2))

/-! ## Reading -/

/-- `qs.parse(location.search, { ignoreQueryPrefix: true })`, of a query that has no name twice. -/
def propsFilter (search : String) : List (String × String) :=
  match search.toList with
  | '?' :: query => parseQuery (String.ofList query)
  | query => parseQuery (String.ofList query)

/-- The values of a filter. -/
def filterValues (filterValue : String) : List String :=
  (filterValue.toList.splitOn ',').map fun a => String.ofList (unmarkCommas a)

/-- The filters of the catalog at a URL: `initialFilterState()` with those of the query. -/
def catalogFilters (search : String) (name : FilterName) : List String :=
  (((propsFilter search).lookup name.text).map filterValues).getD []

/-- Every active filter comes back. -/
def FiltersKept (filters : CatalogFilters) : Prop :=
  ∀ name, filters.get name ≠ [] → catalogFilters (filtersToQuery filters) name = filters.get name

/-! ## Marked commas -/

section Marks

theorem unmark_cons_of_ne {c : Char} (hc : c ≠ '_') (cs : List Char) :
    unmarkCommas (c :: cs) = c :: unmarkCommas cs := by
  cases cs with
  | nil => rfl
  | cons d cs => rw [unmarkCommas, if_neg fun h => hc h.1]

theorem unmark_marked (cs : List Char) :
    unmarkCommas ('_' :: '_' :: cs) = ',' :: unmarkCommas cs := by
  rw [unmarkCommas, if_pos ⟨rfl, rfl⟩]

theorem mark_comma (cs : List Char) : markCommas (',' :: cs) = '_' :: '_' :: markCommas cs := rfl

theorem mark_cons_of_ne {c : Char} (hc : c ≠ ',') (cs : List Char) :
    markCommas (c :: cs) = c :: markCommas cs := by
  unfold markCommas
  rw [List.flatMap_cons, if_neg hc]
  rfl

theorem comma_not_mem_mark (cs : List Char) : ',' ∉ markCommas cs := by
  intro h
  unfold markCommas at h
  obtain ⟨c, _, hc⟩ := List.mem_flatMap.mp h
  by_cases hcomma : c = ','
  · simp [hcomma] at hc
  · simp only [if_neg hcomma, List.mem_singleton] at hc
    exact hcomma hc.symm

/-- An underscore that is not followed by one or by a comma is read as itself. -/
theorem unmark_mark_underscore {cs : List Char} (h : cs.head? ≠ some '_') (h' : cs.head? ≠ some ',') :
    unmarkCommas (markCommas ('_' :: cs)) = '_' :: unmarkCommas (markCommas cs) := by
  rw [mark_cons_of_ne (by decide)]
  cases cs with
  | nil => rfl
  | cons c cs =>
      have hunder : c ≠ '_' := fun heq => h (by rw [heq]; rfl)
      have hcomma : c ≠ ',' := fun heq => h' (by rw [heq]; rfl)
      rw [mark_cons_of_ne hcomma, unmarkCommas, if_neg fun hboth => hunder hboth.2]

theorem singleton_prefix_iff {c : Char} {cs : List Char} : [c] <+: cs ↔ cs.head? = some c := by
  cases cs with
  | nil => simp
  | cons d cs =>
      rw [List.cons_prefix_cons, List.head?_cons, Option.some_inj]
      exact ⟨fun h => h.1.symm, fun h => ⟨h.symm, List.nil_prefix⟩⟩

/-- A value comes back exactly if it has no underscore before an underscore or a comma. -/
theorem unmark_mark_iff (cs : List Char) : unmarkCommas (markCommas cs) = cs ↔
    ¬ ['_', '_'] <:+: cs ∧ ¬ ['_', ','] <:+: cs := by
  induction cs with
  | nil => simp [markCommas, unmarkCommas]
  | cons c cs ih =>
      rw [List.infix_cons_iff, List.infix_cons_iff, List.cons_prefix_cons, List.cons_prefix_cons,
        singleton_prefix_iff, singleton_prefix_iff]
      by_cases hunder : c = '_'
      · subst hunder
        by_cases hnext : cs.head? = some '_' ∨ cs.head? = some ','
        · -- Two underscores are written, which are read as a comma.
          have hmarked : ∃ rest, markCommas ('_' :: cs) = '_' :: '_' :: rest := by
            obtain ⟨d, rest, rfl⟩ : ∃ d rest, cs = d :: rest := by
              cases cs with
              | nil => simp at hnext
              | cons d rest => exact ⟨d, rest, rfl⟩
            rcases hnext with hd | hd
            · rw [Option.some.inj hd, mark_cons_of_ne (by decide), mark_cons_of_ne (by decide)]
              exact ⟨_, rfl⟩
            · rw [Option.some.inj hd, mark_cons_of_ne (by decide), mark_comma]
              exact ⟨_, rfl⟩
          obtain ⟨rest, hrest⟩ := hmarked
          rw [hrest, unmark_marked]
          constructor
          · exact fun h => absurd (List.cons.inj h).1 (by decide)
          · intro ⟨h, h'⟩
            rcases hnext with hd | hd
            · exact absurd (.inl ⟨rfl, hd⟩) h
            · exact absurd (.inl ⟨rfl, hd⟩) h'
        · obtain ⟨h, h'⟩ := not_or.mp hnext
          rw [unmark_mark_underscore h h', List.cons_inj_right, ih]
          simp [h, h']
      · have hread : unmarkCommas (markCommas (c :: cs)) = c :: unmarkCommas (markCommas cs) := by
          by_cases hcomma : c = ','
          · rw [hcomma, mark_comma, unmark_marked]
          · rw [mark_cons_of_ne hcomma, unmark_cons_of_ne hunder]
        rw [hread, List.cons_inj_right, ih]
        simp [Ne.symm hunder]

end Marks

/-! ## The query -/

theorem text_decoded (name : FilterName) : '&' ∉ name.text.toList ∧ '=' ∉ name.text.toList ∧
    decodeQuery name.text = name.text ∧ name.text ≠ "" := by
  cases name <;> refine ⟨by decide, by decide, ?_, by decide⟩ <;> decide +kernel

theorem text_injective {name name' : FilterName} (h : name.text = name'.text) : name = name' := by
  cases name <;> cases name' <;> first | rfl | exact absurd h (by decide)

theorem filterQuery_eq (values : List String) : filterQuery values = ",".intercalate
    ((values.map fun f => String.ofList (markCommas f.toList)).map encodeURIComponent) := by
  rw [List.map_map]
  rfl

/-- The values of a filter are read with their commas marked. -/
theorem filterValues_filterQuery {values : List String} (hne : values ≠ []) :
    filterValues (decodeQuery (filterQuery values)) =
      values.map fun f => String.ofList (unmarkCommas (markCommas f.toList)) := by
  have hsplit : ([','].intercalate (values.map fun f => markCommas f.toList)).splitOn ',' =
      values.map fun f => markCommas f.toList := by
    refine List.splitOn_intercalate _ (fun l hl => ?_) (by simpa using hne)
    obtain ⟨f, _, rfl⟩ := List.mem_map.mp hl
    exact comma_not_mem_mark f.toList
  have hlist : (values.map fun f => String.ofList (markCommas f.toList)).map String.toList =
      values.map fun f => markCommas f.toList := by
    rw [List.map_map]
    exact List.map_congr_left fun f _ => String.toList_ofList
  have hsep : ",".toList = [','] := by decide
  unfold filterValues
  rw [filterQuery_eq, decodeQuery_intercalate, String.toList_intercalate, hlist, hsep, hsplit, List.map_map]
  rfl

theorem lookup_map_text (V : List String → String) (entries : List (FilterName × List String))
    (name : FilterName) :
    (entries.map fun e => (e.1.text, V e.2)).lookup name.text = (entries.lookup name).map V := by
  induction entries with
  | nil => rfl
  | cons e entries ih =>
      rw [List.map_cons, List.lookup_cons, List.lookup_cons, ih]
      by_cases hname : name = e.1
      · simp [hname]
      · have htext : name.text ≠ e.1.text := fun h => hname (text_injective h)
        rw [beq_eq_false_iff_ne.mpr hname, beq_eq_false_iff_ne.mpr htext]

theorem lookup_filter_active {entries : List (FilterName × List String)} {name : FilterName}
    {values : List String} (hlook : entries.lookup name = some values) (hne : values ≠ []) :
    (entries.filter fun e => e.2 ≠ []).lookup name = some values := by
  induction entries with
  | nil => simp at hlook
  | cons e entries ih =>
      rw [List.lookup_cons] at hlook
      by_cases hname : name = e.1
      · rw [hname, beq_self_eq_true] at hlook
        have hvalues : e.2 = values := Option.some.inj hlook
        rw [List.filter_cons_of_pos (by simpa [hvalues] using hne), List.lookup_cons, hname,
          beq_self_eq_true, ← hvalues]
      · rw [beq_eq_false_iff_ne.mpr hname] at hlook
        by_cases hactive : e.2 ≠ []
        · rw [List.filter_cons_of_pos (by simpa using hactive), List.lookup_cons,
            beq_eq_false_iff_ne.mpr hname]
          exact ih hlook
        · rw [List.filter_cons_of_neg (by simpa using hactive)]
          exact ih hlook

theorem propsFilter_query (query : String) : propsFilter ("?" ++ query) = parseQuery query := by
  have hlist : ("?" ++ query).toList = '?' :: query.toList := by
    rw [String.toList_append]
    rfl
  unfold propsFilter
  rw [hlist]
  exact congrArg parseQuery String.ofList_toList

theorem ampersand_not_mem_filterQuery (values : List String) : '&' ∉ (filterQuery values).toList := by
  intro h
  rw [filterQuery_eq] at h
  rcases mem_intercalate_encodeURIComponent h with h | h | h
  · exact absurd h (by decide)
  · exact absurd h (by decide)
  · exact absurd h (by decide)

/-- What is read of an active filter. -/
theorem catalogFilters_filtersToQuery {filters : CatalogFilters} {name : FilterName}
    (hactive : filters.get name ≠ []) :
    catalogFilters (filtersToQuery filters) name =
      (filters.get name).map fun f => String.ofList (unmarkCommas (markCommas f.toList)) := by
  obtain ⟨values, hlook⟩ : ∃ values, filters.entries.lookup name = some values := by
    cases hlook : filters.entries.lookup name with
    | none => simp [CatalogFilters.get, hlook] at hactive
    | some values => exact ⟨values, rfl⟩
  have hget : filters.get name = values := by rw [CatalogFilters.get, hlook, Option.getD_some]
  rw [hget] at hactive ⊢
  have hlook' := lookup_filter_active hlook hactive
  have hsome : filters.entries.filter (fun e => e.2 ≠ []) ≠ [] := by
    intro hnil
    rw [hnil] at hlook'
    simp at hlook'
  have hparse : propsFilter (filtersToQuery filters) =
      (filters.entries.filter fun e => e.2 ≠ []).map fun e =>
        (e.1.text, decodeQuery (filterQuery e.2)) := by
    unfold filtersToQuery
    dsimp only
    rw [if_neg hsome, propsFilter_query, parseQuery_formQuery (by simpa using hsome), List.map_map]
    · refine List.map_congr_left fun e _ => ?_
      show (decodeQuery e.1.text, _) = _
      rw [(text_decoded e.1).2.2.1]
    · intro p hp
      obtain ⟨e, _, rfl⟩ := List.mem_map.mp hp
      obtain ⟨hamp, heq, hdec, hne⟩ := text_decoded e.1
      refine ⟨hamp, heq, ?_⟩
      show decodeQuery e.1.text ≠ ""
      rw [hdec]
      exact hne
    · intro p hp
      obtain ⟨e, _, rfl⟩ := List.mem_map.mp hp
      exact ampersand_not_mem_filterQuery e.2
  unfold catalogFilters
  rw [hparse, lookup_map_text (fun values => decodeQuery (filterQuery values)), hlook',
    Option.map_some, Option.map_some, Option.getD_some, filterValues_filterQuery hactive]

/-- All values of a filter come back. -/
theorem map_unmark_mark_iff (values : List String) :
    values.map (fun f => String.ofList (unmarkCommas (markCommas f.toList))) = values ↔
      ∀ f ∈ values, ¬ "__".toList <:+: f.toList ∧ ¬ "_,".toList <:+: f.toList := by
  have hmarks : "__".toList = ['_', '_'] ∧ "_,".toList = ['_', ','] := by decide
  have hone : ∀ f : String, String.ofList (unmarkCommas (markCommas f.toList)) = f ↔
      ¬ "__".toList <:+: f.toList ∧ ¬ "_,".toList <:+: f.toList := by
    intro f
    rw [hmarks.1, hmarks.2, ← unmark_mark_iff, ← String.toList_inj, String.toList_ofList]
  have hid : values.map id = values := List.map_id values
  calc values.map (fun f => String.ofList (unmarkCommas (markCommas f.toList))) = values
      ↔ values.map (fun f => String.ofList (unmarkCommas (markCommas f.toList))) =
          values.map id := by rw [hid]
    _ ↔ ∀ f ∈ values, String.ofList (unmarkCommas (markCommas f.toList)) = f :=
        List.map_inj_left
    _ ↔ ∀ f ∈ values, ¬ "__".toList <:+: f.toList ∧ ¬ "_,".toList <:+: f.toList :=
        forall₂_congr fun f _ => hone f

/-- **The filters come back** from the URL exactly if no value has an underscore before an
    underscore or a comma. -/
theorem filtersKept_iff (filters : CatalogFilters) :
    FiltersKept filters ↔ ∀ name, ∀ f ∈ filters.get name,
      ¬ "__".toList <:+: f.toList ∧ ¬ "_,".toList <:+: f.toList := by
  constructor
  · intro h name f hf
    have hactive : filters.get name ≠ [] := List.ne_nil_of_mem hf
    have hkept := h name hactive
    rw [catalogFilters_filtersToQuery hactive] at hkept
    exact (map_unmark_mark_iff _).mp hkept f hf
  · intro h name hactive
    rw [catalogFilters_filtersToQuery hactive]
    exact (map_unmark_mark_iff _).mpr (h name)

/-- A provider with two underscores in its name comes back with a comma. -/
theorem not_filtersKept_underscores :
    ¬ FiltersKept ⟨[(.operatorProvider, ["a__b"])], by decide⟩ := by
  intro h
  have hkept := h .operatorProvider (by decide)
  rw [catalogFilters_filtersToQuery (by decide)] at hkept
  exact absurd hkept (by decide)

end Kubeapps.Dashboard
