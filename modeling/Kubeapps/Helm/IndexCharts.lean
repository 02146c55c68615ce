/-
  `ChartsFromIndex` in its two modes (pkg/helm/index.go; asset-syncer calls it shallow first and
  then deep).

  `SortsEntries` is what Helm documents of `SortEntries`: it sorts an entry, newest version first,
  and reads the version of every element it puts behind another one. `older` is the order of
  versions.

  `chartsRight_iff`: the charts are those of the index, in the order of their ids and whatever
  order the map of entries is visited in, and the shallow ones are the same with one version,
  exactly if every element of every entry is a version with metadata. Nothing checks the elements:
  a null one, or one without any field of the metadata, is a panic.
-/
import Kubeapps.Helm.Index
import Kubeapps.Lib.Percent
import Mathlib.Data.String.Basic

namespace Kubeapps.Helm

open Kubeapps.Lib Kubeapps.Models

variable {β : Type}

/-! ## The charts of an index -/

/-- The elements of an entry that are versions with metadata. -/
def versionsOf (entry : Entry) : List (EntryVersion × Metadata) :=
  entry.filterMap fun e => (deref e).toOption

/-- Every element is a version with metadata. -/
def Described (entry : Entry) : Prop := ∀ e ∈ entry, ∃ p, deref e = .ok p

/-- The chart of an entry that begins with `newest`. -/
def describedChart (r : Repo) (newest : Metadata) (versions : List (EntryVersion × Metadata)) :
    Chart where
  id := r.name ++ "/" ++ pathEscape newest.name
  name := pathEscape newest.name
  repo := r
  description := newest.description
  home := newest.home
  keywords := newest.keywords
  maintainers := newest.maintainers
  sources := newest.sources
  icon := newest.icon
  rawIcon := ""
  iconContentType := ""
  category := (lookup "category" newest.annotations).getD ""
  chartVersions := versions.map fun p => chartVersion p.1 p.2

/-- The chart of a sorted entry, if its newest version is not deprecated. -/
def entryChart (r : Repo) (entry : Entry) : Option Chart :=
  match versionsOf entry with
  | [] => none
  | p :: ps => if p.2.deprecated then none else some (describedChart r p.2 (p :: ps))

/-- A chart with its first version only. -/
def firstOnly (c : Chart) : Chart := { c with chartVersions := c.chartVersions.take 1 }

/-- What is documented of `SortEntries`. -/
structure SortsEntries (lib : IndexLib β) (older : String → String → Prop) : Prop where
  sorts : ∀ entry, Described entry → ∃ sorted, lib.sortEntry entry = .ok sorted
  perm : ∀ entry sorted, lib.sortEntry entry = .ok sorted → sorted.Perm entry
  newestFirst : ∀ entry sorted, lib.sortEntry entry = .ok sorted →
    (versionsOf sorted).Pairwise fun a b => ¬ older a.2.version b.2.version
  reads : ∀ entry sorted, lib.sortEntry entry = .ok sorted → Described sorted.tail
  panics : ∀ entry, OnlyPanics (lib.sortEntry entry)

/-- An entry after sorting. -/
def sortedEntry (lib : IndexLib β) (entry : Entry) : Entry :=
  match lib.sortEntry entry with
  | .ok sorted => sorted
  | .error _ => []

/-- The name of the first version after sorting. -/
def firstName (lib : IndexLib β) (entry : Entry) : Option String :=
  (versionsOf (sortedEntry lib entry)).head?.map fun p => p.2.name

/-- The charts of the entries: one for each whose newest version is not deprecated, in the order
    of the ids, with their versions from the newest to the oldest. -/
structure RightCharts (lib : IndexLib β) (older : String → String → Prop)
    (entries : List (String × Entry)) (r : Repo) (charts : List Chart) : Prop where
  perm : charts.Perm (entries.filterMap fun e => entryChart r (sortedEntry lib e.2))
  ordered : charts.Pairwise fun a b => a.id < b.id
  newestFirst : ∀ c ∈ charts,
    c.chartVersions.Pairwise fun a b => ¬ older a.version b.version

/-- Both calls return the charts of the index, whatever the order of the map and of the sort in
    either of them. -/
def ChartsRight (lib : IndexLib β) (older : String → String → Prop) (contents : β)
    (entries : List (String × Entry)) (r : Repo) : Prop :=
  ∃ charts, RightCharts lib older entries r charts ∧ ∀ rt,
    chartsFromIndex rt lib contents r false = .ok charts ∧
      chartsFromIndex rt lib contents r true = .ok (charts.map firstOnly)

/-! ## A described entry -/

theorem described_perm {entry sorted : Entry} (hperm : sorted.Perm entry) :
    Described sorted ↔ Described entry := by
  unfold Described
  exact ⟨fun h e he => h e (hperm.mem_iff.mpr he), fun h e he => h e (hperm.mem_iff.mp he)⟩

theorem described_cons {e : Option EntryVersion} {entry : Entry} :
    Described (e :: entry) ↔ (∃ p, deref e = .ok p) ∧ Described entry :=
  List.forall_mem_cons

/-- The versions that `newChart` makes of a list of elements. -/
theorem mapM_chartVersion {entry : Entry} (h : Described entry) :
    (entry.mapM fun e => deref e >>= fun p => (.ok (chartVersion p.1 p.2) : Go ChartVersion)) =
      .ok ((versionsOf entry).map fun p => chartVersion p.1 p.2) := by
  unfold versionsOf
  induction entry with
  | nil => rfl
  | cons e entry ih =>
      rw [described_cons] at h
      obtain ⟨⟨p, hp⟩, hrest⟩ := h
      rw [List.mapM_cons, ih hrest, List.filterMap_cons, hp]
      rfl

theorem versionsOf_cons {e : Option EntryVersion} {p : EntryVersion × Metadata}
    (hp : deref e = .ok p) (entry : Entry) : versionsOf (e :: entry) = p :: versionsOf entry := by
  unfold versionsOf
  rw [List.filterMap_cons, hp]
  rfl

theorem newChart_described {e : Option EntryVersion} {entry : Entry}
    {p : EntryVersion × Metadata} (hp : deref e = .ok p) (h : Described entry) (r : Repo)
    (shallow : Bool) :
    newChart (e :: entry) r shallow =
      .ok (describedChart r p.2 (if shallow then [p] else p :: versionsOf entry)) := by
  have hnil : Described [] := fun e he => absurd he List.not_mem_nil
  unfold newChart
  show (deref e >>= _) = _
  rw [hp]
  show ((if shallow then (e :: entry).take 1 else e :: entry).mapM (fun e => deref e >>= fun p =>
    (.ok (chartVersion p.1 p.2) : Go ChartVersion)) >>= _) = _
  cases shallow with
  | true =>
      rw [if_pos rfl, if_pos rfl, List.take_succ_cons, List.take_zero,
        mapM_chartVersion (described_cons.2 ⟨⟨p, hp⟩, hnil⟩), versionsOf_cons hp []]
      rfl
  | false =>
      rw [if_neg Bool.false_ne_true, if_neg Bool.false_ne_true,
        mapM_chartVersion (described_cons.2 ⟨⟨p, hp⟩, h⟩), versionsOf_cons hp entry]
      rfl

theorem entryChart_cons {e : Option EntryVersion} {p : EntryVersion × Metadata}
    (hp : deref e = .ok p) (r : Repo) (entry : Entry) :
    entryChart r (e :: entry) =
      if p.2.deprecated then none else some (describedChart r p.2 (p :: versionsOf entry)) := by
  unfold entryChart
  rw [versionsOf_cons hp]

/-! ## The loop over the entries -/

/-- What a chart is in either mode. -/
def inMode (shallow : Bool) (c : Chart) : Chart := if shallow then firstOnly c else c

theorem collectCharts_described {entries : List (String × Entry)} (r : Repo) (shallow : Bool)
    (h : ∀ e ∈ entries, e.2 ≠ [] ∧ Described e.2) :
    collectCharts r shallow entries =
      .ok ((entries.filterMap fun e => entryChart r e.2).map (inMode shallow)) := by
  induction entries with
  | nil => rfl
  | cons e entries ih =>
      obtain ⟨key, entry⟩ := e
      rw [List.forall_mem_cons] at h
      obtain ⟨⟨hne, hdescribed⟩, hrest⟩ := h
      obtain ⟨first, tail, rfl⟩ := List.exists_cons_of_ne_nil hne
      obtain ⟨⟨p, hp⟩, htail⟩ := described_cons.1 hdescribed
      unfold collectCharts
      show (deref first >>= _) = _
      rw [hp]
      show (if p.2.deprecated = true then _ else _) = _
      rw [List.filterMap_cons, entryChart_cons hp]
      by_cases hdeprecated : p.2.deprecated = true
      · rw [if_pos hdeprecated, if_pos hdeprecated]
        exact ih hrest
      · rw [if_neg hdeprecated, if_neg hdeprecated, newChart_described hp htail, ih hrest]
        cases shallow <;> rfl

/-- The loop looks at the first element of every entry. -/
theorem collectCharts_first {r : Repo} {shallow : Bool} {entries : List (String × Entry)}
    {cs : List Chart} (h : collectCharts r shallow entries = .ok cs) :
    ∀ e ∈ entries, ∃ first tail p, e.2 = first :: tail ∧ deref first = .ok p := by
  induction entries generalizing cs with
  | nil => exact fun e he => absurd he List.not_mem_nil
  | cons e entries ih =>
      obtain ⟨key, entry⟩ := e
      unfold collectCharts at h
      obtain ⟨first, hfirst, h⟩ := bind_eq_ok h
      obtain ⟨p, hp, h⟩ := bind_eq_ok h
      rw [List.forall_mem_cons]
      constructor
      · cases entry with
        | nil => cases hfirst
        | cons x tail =>
            cases hfirst
            exact ⟨first, tail, p, rfl, hp⟩
      · dsimp only at h
        split at h
        · exact ih h
        · obtain ⟨c, _, h⟩ := bind_eq_ok h
          obtain ⟨cs', hcs', _⟩ := bind_eq_ok h
          exact ih hcs'

/-! ## Errors

  Past the decoder there are no errors, only panics. -/

theorem onlyPanics_deref (e : Option EntryVersion) : OnlyPanics (deref e) := by
  unfold deref
  cases e with
  | none => exact onlyPanics_panics _
  | some v =>
      dsimp only
      cases v.metadata with
      | none => exact onlyPanics_panics _
      | some m => exact onlyPanics_ok _

theorem onlyPanics_newChart (entry : Entry) (r : Repo) (shallow : Bool) :
    OnlyPanics (newChart entry r shallow) := by
  unfold newChart
  refine onlyPanics_bind (onlyPanics_index0 entry) fun e =>
    onlyPanics_bind (onlyPanics_deref e) fun p => onlyPanics_bind ?_ fun versions => ?_
  · apply onlyPanics_mapM
    intro e'
    exact onlyPanics_bind (onlyPanics_deref e') fun p' => onlyPanics_ok _
  · exact onlyPanics_ok _

theorem onlyPanics_collectCharts (r : Repo) (shallow : Bool) (entries : List (String × Entry)) :
    OnlyPanics (collectCharts r shallow entries) := by
  induction entries with
  | nil => exact onlyPanics_ok []
  | cons e entries ih =>
      obtain ⟨key, entry⟩ := e
      unfold collectCharts
      refine onlyPanics_bind (onlyPanics_index0 entry) fun first =>
        onlyPanics_bind (onlyPanics_deref first) fun p => ?_
      dsimp only
      split
      · exact ih
      · exact onlyPanics_bind (onlyPanics_newChart entry r shallow) fun c =>
          onlyPanics_bind ih fun cs => onlyPanics_ok _

/-! ## Parsing and sorting -/

section Sorted

variable {lib : IndexLib β} {contents : β} {index : IndexFile}

theorem sortedEntry_ok {entry sorted : Entry} (h : lib.sortEntry entry = .ok sorted) :
    sortedEntry lib entry = sorted := by
  unfold sortedEntry
  rw [h]

theorem parseRepoIndex_sorted (hparse : lib.unmarshal contents = .ok index)
    (h : ∀ e ∈ index.entries, ∃ sorted, lib.sortEntry e.2 = .ok sorted) :
    parseRepoIndex lib contents =
      .ok (index.entries.map fun e => (e.1, sortedEntry lib e.2)) := by
  unfold parseRepoIndex
  rw [hparse]
  apply mapM_of_ok
  intro e he
  obtain ⟨sorted, hsorted⟩ := h e he
  rw [sortedEntry_ok hsorted]
  show (lib.sortEntry e.2 >>= _) = _
  rw [hsorted]
  rfl

theorem sorted_of_parseRepoIndex (hparse : lib.unmarshal contents = .ok index)
    {entries : List (String × Entry)} (h : parseRepoIndex lib contents = .ok entries) :
    ∀ e ∈ index.entries, ∃ sorted, (e.1, sorted) ∈ entries ∧ lib.sortEntry e.2 = .ok sorted := by
  unfold parseRepoIndex at h
  rw [hparse] at h
  intro e he
  obtain ⟨e', he', heq⟩ := mapM_eq_ok h e he
  obtain ⟨sorted, hsorted, hret⟩ := bind_eq_ok heq
  obtain rfl := Except.ok.inj hret
  exact ⟨sorted, he', hsorted⟩

theorem onlyPanics_chartsFromIndex {older : String → String → Prop} {r : Repo}
    (hlib : SortsEntries lib older) (hparse : lib.unmarshal contents = .ok index) (rt : Runtime)
    (shallow : Bool) : OnlyPanics (chartsFromIndex rt lib contents r shallow) := by
  unfold chartsFromIndex parseRepoIndex
  rw [hparse]
  refine onlyPanics_bind ?_ fun entries =>
    onlyPanics_bind (onlyPanics_collectCharts r shallow _) fun charts => onlyPanics_ok _
  apply onlyPanics_mapM
  intro e
  exact onlyPanics_bind (hlib.panics e.2) fun sorted => onlyPanics_ok _

end Sorted

/-! ## Ids -/

theorem pathEscape_injective {s t : String} (h : pathEscape s = pathEscape t) : s = t := by
  have hbytes : escape .pathSegment (bytes s) = escape .pathSegment (bytes t) := by
    rw [← bytes_pathEscape, ← bytes_pathEscape, h]
  have hread := congrArg (unescape .pathSegment) hbytes
  rw [unescape_escape (by decide) (by decide), unescape_escape (by decide) (by decide)]
    at hread
  exact bytes_injective (Option.some.inj hread)

theorem entryChart_eq_some {r : Repo} {entry : Entry} {c : Chart}
    (h : entryChart r entry = some c) :
    ∃ p ps, versionsOf entry = p :: ps ∧ c = describedChart r p.2 (p :: ps) := by
  unfold entryChart at h
  split at h
  · cases h
  · rename_i p ps hversions
    split at h
    · cases h
    · exact ⟨p, ps, hversions, (Option.some.inj h).symm⟩

theorem describedChart_id_inj {r : Repo} {m m' : Metadata} {vs vs' : List (EntryVersion × Metadata)}
    (h : (describedChart r m vs).id = (describedChart r m' vs').id) : m.name = m'.name := by
  have hid : r.name ++ "/" ++ pathEscape m.name = r.name ++ "/" ++ pathEscape m'.name := h
  have hlists := congrArg String.toList hid
  simp only [String.toList_append, List.append_cancel_left_eq, String.toList_inj] at hlists
  exact pathEscape_injective hlists

/-- Sorting by the ids orders charts with distinct ids strictly. -/
theorem sort_ids (rt : Runtime) {charts : List Chart}
    (hdistinct : charts.Pairwise fun a b => a.id ≠ b.id) :
    (rt.sort (fun a b => decide (a.id < b.id)) charts).Pairwise fun a b => a.id < b.id := by
  have hperm := rt.sort_perm (fun a b : Chart => decide (a.id < b.id)) charts
  have hordered := rt.sort_ordered (fun a b : Chart => decide (a.id < b.id)) charts
    (fun a b hab => decide_eq_false (lt_asymm (of_decide_eq_true hab)))
    (fun a b c hab hbc => decide_eq_false (not_lt.mpr
      (le_trans (not_lt.mp (of_decide_eq_false hbc)) (not_lt.mp (of_decide_eq_false hab)))))
  have hne := (hperm.pairwise_iff fun hab => Ne.symm hab).mpr hdistinct
  refine (hordered.and hne).imp fun hboth => ?_
  exact lt_of_le_of_ne (not_lt.mp (of_decide_eq_false hboth.1)) hboth.2

/-- Charts in the order of their ids are determined by which they are. -/
theorem eq_of_ordered {charts charts' : List Chart} (hperm : charts.Perm charts')
    (h : charts.Pairwise fun a b => a.id < b.id) (h' : charts'.Pairwise fun a b => a.id < b.id) :
    charts = charts' :=
  hperm.eq_of_pairwise (fun _ _ _ _ hab hba => absurd hba (lt_asymm hab)) h h'

/-! ## Both modes -/

section Modes

variable {lib : IndexLib β} {older : String → String → Prop} {contents : β} {index : IndexFile}
  {r : Repo}

/-- No two entries have first versions of one name. -/
def DistinctNames (lib : IndexLib β) (entries : List (String × Entry)) : Prop :=
  entries.Pairwise fun a b => ∀ name, firstName lib a.2 = some name → firstName lib b.2 ≠ some name

theorem ids_distinct {entries : List (String × Entry)} (h : DistinctNames lib entries) :
    (entries.filterMap fun e => entryChart r (sortedEntry lib e.2)).Pairwise
      fun a b => a.id ≠ b.id := by
  rw [List.pairwise_filterMap]
  refine h.imp fun hnames c hc c' hc' heq => ?_
  obtain ⟨p, ps, hversions, rfl⟩ := entryChart_eq_some hc
  obtain ⟨p', ps', hversions', rfl⟩ := entryChart_eq_some hc'
  refine hnames p.2.name ?_ ?_
  · unfold firstName
    rw [hversions]
    rfl
  · unfold firstName
    rw [hversions', describedChart_id_inj heq]
    rfl

/-- What either call returns if every element is described. -/
theorem chartsFromIndex_described (hlib : SortsEntries lib older)
    (hparse : lib.unmarshal contents = .ok index) (hne : ∀ e ∈ index.entries, e.2 ≠ [])
    (hdescribed : ∀ e ∈ index.entries, Described e.2) (rt : Runtime) (shallow : Bool) :
    ∃ charts, charts.Perm ((index.entries.filterMap fun e =>
        entryChart r (sortedEntry lib e.2)).map (inMode shallow)) ∧
      chartsFromIndex rt lib contents r shallow =
        .ok (rt.sort (fun a b => decide (a.id < b.id)) charts) := by
  have hsorts : ∀ e ∈ index.entries, ∃ sorted, lib.sortEntry e.2 = .ok sorted :=
    fun e he => hlib.sorts e.2 (hdescribed e he)
  have hready : ∀ e ∈ rt.range (index.entries.map fun e => (e.1, sortedEntry lib e.2)),
      e.2 ≠ [] ∧ Described e.2 := by
    intro e he
    obtain ⟨e', he', rfl⟩ := List.mem_map.mp ((rt.range_perm _).mem_iff.mp he)
    obtain ⟨sorted, hsorted⟩ := hsorts e' he'
    have hperm := hlib.perm e'.2 sorted hsorted
    dsimp only
    rw [sortedEntry_ok hsorted, described_perm hperm]
    refine ⟨fun hnil => hne e' he' ?_, hdescribed e' he'⟩
    rw [hnil] at hperm
    exact List.nil_perm.mp hperm
  refine ⟨((rt.range (index.entries.map fun e => (e.1, sortedEntry lib e.2))).filterMap fun e =>
    entryChart r e.2).map (inMode shallow), ?_, ?_⟩
  · have hperm := (rt.range_perm (index.entries.map fun e => (e.1, sortedEntry lib e.2))).filterMap
      fun e => entryChart r e.2
    rw [List.filterMap_map] at hperm
    exact hperm.map (inMode shallow)
  · unfold chartsFromIndex
    rw [parseRepoIndex_sorted hparse hsorts]
    show (collectCharts r shallow _ >>= _) = _
    rw [collectCharts_described r shallow hready]
    rfl

theorem inMode_id (shallow : Bool) (c : Chart) : (inMode shallow c).id = c.id := by
  unfold inMode
  split <;> rfl

theorem map_inMode_false (charts : List Chart) : charts.map (inMode false) = charts :=
  List.map_id charts

theorem newestFirst_of_mem (hlib : SortsEntries lib older)
    (hdescribed : ∀ e ∈ index.entries, Described e.2) {c : Chart}
    (hc : c ∈ index.entries.filterMap fun e => entryChart r (sortedEntry lib e.2)) :
    c.chartVersions.Pairwise fun a b => ¬ older a.version b.version := by
  obtain ⟨e, he, hchart⟩ := List.mem_filterMap.mp hc
  obtain ⟨sorted, hsorted⟩ := hlib.sorts e.2 (hdescribed e he)
  rw [sortedEntry_ok hsorted] at hchart
  obtain ⟨p, ps, hversions, rfl⟩ := entryChart_eq_some hchart
  have hordered := hlib.newestFirst e.2 sorted hsorted
  rw [hversions] at hordered
  exact List.pairwise_map.mpr hordered

theorem chartsRight_of_described (hlib : SortsEntries lib older)
    (hparse : lib.unmarshal contents = .ok index) (hne : ∀ e ∈ index.entries, e.2 ≠ [])
    (hnames : DistinctNames lib index.entries)
    (hdescribed : ∀ e ∈ index.entries, Described e.2) :
    ChartsRight lib older contents index.entries r := by
  -- one order of the map and of the sort gives the charts, all others give the same
  have hsorted : ∀ rt shallow, ∃ charts, chartsFromIndex rt lib contents r shallow = .ok charts ∧
      charts.Perm ((index.entries.filterMap fun e =>
        entryChart r (sortedEntry lib e.2)).map (inMode shallow)) ∧
      charts.Pairwise fun a b => a.id < b.id := by
    intro rt shallow
    obtain ⟨charts, hperm, hcharts⟩ :=
      chartsFromIndex_described hlib hparse hne hdescribed rt shallow
    refine ⟨_, hcharts, (rt.sort_perm _ charts).trans hperm, sort_ids rt ?_⟩
    refine (hperm.pairwise_iff fun hab => Ne.symm hab).mpr ?_
    rw [List.pairwise_map]
    refine (ids_distinct hnames).imp fun {a b} hab => ?_
    rw [inMode_id, inMode_id]
    exact hab
  obtain ⟨charts, _, hperm, hordered⟩ := hsorted Runtime.stable false
  rw [map_inMode_false] at hperm
  refine ⟨charts, ⟨hperm, hordered, fun c hc => ?_⟩, fun rt => ⟨?_, ?_⟩⟩
  · exact newestFirst_of_mem hlib hdescribed (hperm.mem_iff.mp hc)
  · obtain ⟨deep, hdeep, hdeepPerm, hdeepOrdered⟩ := hsorted rt false
    rw [map_inMode_false] at hdeepPerm
    rw [hdeep, eq_of_ordered (hdeepPerm.trans hperm.symm) hdeepOrdered hordered]
  · obtain ⟨first, hfirst, hfirstPerm, hfirstOrdered⟩ := hsorted rt true
    have hcut : (charts.map firstOnly).Pairwise fun a b => a.id < b.id :=
      List.pairwise_map.mpr hordered
    rw [hfirst, eq_of_ordered (hfirstPerm.trans (hperm.map firstOnly).symm) hfirstOrdered hcut]

/-- A call that returns has seen a version with metadata in every place. -/
theorem described_of_ok (hlib : SortsEntries lib older) (hparse : lib.unmarshal contents = .ok index)
    {rt : Runtime} {shallow : Bool} {charts : List Chart}
    (h : chartsFromIndex rt lib contents r shallow = .ok charts) :
    ∀ e ∈ index.entries, e.2 ≠ [] ∧ Described e.2 := by
  intro e he
  unfold chartsFromIndex at h
  obtain ⟨entries, hentries, hrest⟩ := bind_eq_ok h
  obtain ⟨cs, hcs, _⟩ := bind_eq_ok hrest
  obtain ⟨sorted, hmem, hsorted⟩ := sorted_of_parseRepoIndex hparse hentries e he
  obtain ⟨first, tail, p, hcons, hp⟩ :=
    collectCharts_first hcs _ ((rt.range_perm entries).mem_iff.mpr hmem)
  obtain rfl : sorted = first :: tail := hcons
  have hperm := hlib.perm e.2 _ hsorted
  constructor
  · intro hnil
    rw [hnil] at hperm
    exact List.cons_ne_nil first tail (List.perm_nil.mp hperm)
  · rw [← described_perm hperm, described_cons]
    exact ⟨⟨p, hp⟩, hlib.reads e.2 _ hsorted⟩

/-- A call panics exactly on an empty entry and on an element without metadata. -/
theorem panics_chartsFromIndex (hlib : SortsEntries lib older)
    (hparse : lib.unmarshal contents = .ok index) (rt : Runtime) (shallow : Bool) :
    Panics (chartsFromIndex rt lib contents r shallow) ↔
      ¬ ∀ e ∈ index.entries, e.2 ≠ [] ∧ Described e.2 := by
  constructor
  · intro hpanics hgood
    obtain ⟨charts, _, hok⟩ := chartsFromIndex_described (r := r) hlib hparse
      (fun e he => (hgood e he).1) (fun e he => (hgood e he).2) rt shallow
    rw [hok] at hpanics
    exact not_panics_ok _ hpanics
  · intro hbad
    cases hcharts : chartsFromIndex rt lib contents r shallow with
    | ok charts => exact absurd (described_of_ok hlib hparse hcharts) hbad
    | error f =>
        obtain ⟨msg, rfl⟩ := onlyPanics_chartsFromIndex hlib hparse rt shallow f hcharts
        exact ⟨msg, rfl⟩

end Modes

/-- Both calls return the charts of the index exactly if every element of every entry is a
    version with metadata. -/
theorem chartsRight_iff (lib : IndexLib β) (older : String → String → Prop)
    (hlib : SortsEntries lib older) (contents : β) (index : IndexFile)
    (hparse : lib.unmarshal contents = .ok index) (hne : ∀ e ∈ index.entries, e.2 ≠ [])
    (hnames : DistinctNames lib index.entries) (r : Repo) :
    ChartsRight lib older contents index.entries r ↔ ∀ e ∈ index.entries, Described e.2 :=
  ⟨fun ⟨_, _, hboth⟩ e he => (described_of_ok hlib hparse (hboth Runtime.stable).1 e he).2,
    chartsRight_of_described hlib hparse hne hnames⟩

/-! ## An index of nginx -/

/-- The version of an element that has one. -/
def versionText (e : Option EntryVersion) : String :=
  match deref e with
  | .ok p => p.2.version
  | .error _ => ""

/-- Contents that are decoded already, and versions in the order of their texts. -/
def textOrder : IndexLib IndexFile where
  unmarshal index := .ok index
  sortEntry entry :=
    if entry.length ≤ 1 then .ok entry
    else if entry.all fun e => (deref e).isOk then
      .ok (entry.insertionSort fun a b => versionText b ≤ versionText a)
    else panics "invalid memory address or nil pointer dereference"

theorem isOk_deref {e : Option EntryVersion} : (deref e).isOk = true ↔ ∃ p, deref e = .ok p := by
  cases deref e with
  | error err => simp [Except.isOk, Except.toBool]
  | ok p => simp [Except.isOk, Except.toBool]

theorem all_isOk_deref {entry : Entry} :
    (entry.all fun e => (deref e).isOk) = true ↔ Described entry := by
  rw [List.all_eq_true]
  exact forall₂_congr fun e _ => isOk_deref

/-- The two ways in which the entry is returned. -/
theorem textOrder_ok {entry sorted : Entry} (h : textOrder.sortEntry entry = .ok sorted) :
    (entry.length ≤ 1 ∧ sorted = entry) ∨ (Described entry ∧
      sorted = entry.insertionSort fun a b => versionText b ≤ versionText a) := by
  unfold textOrder at h
  dsimp only at h
  split at h
  · rename_i hlength
    exact Or.inl ⟨hlength, (Except.ok.inj h).symm⟩
  · split at h
    · rename_i hall
      exact Or.inr ⟨all_isOk_deref.1 hall, (Except.ok.inj h).symm⟩
    · cases h

theorem sortsEntries_textOrder : SortsEntries textOrder (· < ·) where
  sorts entry h := by
    unfold textOrder
    dsimp only
    split
    · exact ⟨_, rfl⟩
    · rw [if_pos (all_isOk_deref.2 h)]
      exact ⟨_, rfl⟩
  perm entry sorted h := by
    rcases textOrder_ok h with ⟨_, rfl⟩ | ⟨_, rfl⟩
    · exact List.Perm.refl _
    · exact List.perm_insertionSort _ entry
  newestFirst entry sorted h := by
    have hordered : sorted.Pairwise fun a b => versionText b ≤ versionText a := by
      rcases textOrder_ok h with ⟨hlength, rfl⟩ | ⟨_, rfl⟩
      · rcases sorted with _ | ⟨e, _ | ⟨e', rest⟩⟩
        · exact List.Pairwise.nil
        · exact List.pairwise_singleton _ e
        · simp at hlength
      · have : Std.Total fun a b : Option EntryVersion => versionText b ≤ versionText a :=
          ⟨fun a b => le_total (versionText b) (versionText a)⟩
        have : IsTrans _ fun a b : Option EntryVersion => versionText b ≤ versionText a :=
          ⟨fun a b c hab hbc => le_trans hbc hab⟩
        exact List.pairwise_insertionSort _ entry
    unfold versionsOf
    rw [List.pairwise_filterMap]
    refine hordered.imp fun {a b} hab p hp q hq => ?_
    have hversion : ∀ (e : Option EntryVersion) (x : EntryVersion × Metadata),
        (deref e).toOption = some x → versionText e = x.2.version := by
      intro e x hx
      unfold versionText
      cases he : deref e with
      | error err =>
          rw [he] at hx
          cases hx
      | ok y =>
          rw [he] at hx
          cases hx
          rfl
    rw [hversion a p hp, hversion b q hq] at hab
    exact not_lt.mpr hab
  reads entry sorted h := by
    rcases textOrder_ok h with ⟨hlength, rfl⟩ | ⟨hdescribed, rfl⟩
    · intro e he
      have htail : sorted.tail.length = 0 := by
        rw [List.length_tail]
        omega
      rw [List.eq_nil_of_length_eq_zero htail] at he
      cases he
    · have hperm := List.perm_insertionSort
        (fun a b : Option EntryVersion => versionText b ≤ versionText a) entry
      exact fun e he => (described_perm hperm).2 hdescribed e (List.mem_of_mem_tail he)
  panics entry := by
    unfold textOrder
    dsimp only
    split
    · exact onlyPanics_ok _
    · split
      · exact onlyPanics_ok _
      · exact onlyPanics_panics _

def nginxVersion (version : String) : EntryVersion where
  metadata := some ⟨"nginx", version, "", "", [], [], [], "", "", false, []⟩
  urls := ["nginx-" ++ version ++ ".tgz"]
  created := ""
  digest := ""

def repoOfNginx : Repo := ⟨"kubeapps", "bitnami", "https://charts.example.com", "helm"⟩

theorem chartsRight_nginx :
    ChartsRight textOrder (· < ·)
      ⟨[("nginx", [some (nginxVersion "1.0.0"), some (nginxVersion "2.0.0")])]⟩
      [("nginx", [some (nginxVersion "1.0.0"), some (nginxVersion "2.0.0")])] repoOfNginx := by
  refine (chartsRight_iff textOrder (· < ·) sortsEntries_textOrder
    ⟨[("nginx", [some (nginxVersion "1.0.0"), some (nginxVersion "2.0.0")])]⟩ _ rfl ?_ ?_
    repoOfNginx).2 ?_
  · simp
  · exact List.pairwise_singleton _ _
  · intro e he
    rw [List.mem_singleton.mp he]
    unfold Described
    simp [deref, nginxVersion]

/-- A null version is a panic. -/
theorem not_chartsRight_null :
    (∀ e ∈ [("nginx", ([none] : Entry))], e.2 ≠ []) ∧
      DistinctNames textOrder [("nginx", ([none] : Entry))] ∧
      ¬ ChartsRight textOrder (· < ·) ⟨[("nginx", [none])]⟩ [("nginx", [none])] repoOfNginx := by
  refine ⟨by simp, List.pairwise_singleton _ _, fun ⟨_, _, hboth⟩ => ?_⟩
  have hall := described_of_ok sortsEntries_textOrder rfl (hboth Runtime.stable).1
  obtain ⟨p, hp⟩ := (hall ("nginx", [none]) List.mem_cons_self).2 none List.mem_cons_self
  cases hp

end Kubeapps.Helm
