/-
  Writing a value where it is read again (src/dashboard/src/shared/schema.ts: setValue, getValue).

  `SetsTo` asks less than `SetsRight`: the value is read at the path and at the keys, whatever
  becomes of the rest. Sequences may then be on the way, and what is beside the path may be
  overwritten. `setsItems_iff` says for which texts and paths this is so, for every value: each key
  is taken by the collection that it comes to, and what is given to lodash is read by it as the keys
  that are left. `items_of_setsTo`: the value is read at no other keys, except for other texts of the
  same indexes.
-/
import Kubeapps.Dashboard.SetValue

namespace Kubeapps.Dashboard

open Kubeapps.Lib

variable {τ Doc : Type} {L : Packages τ Doc} {R : ItemRules} {keys : List String}
  {path s : String} {values : τ} {doc : Doc} {t v w new : Yaml}

/-- `setValue` writes the value where the path leads to, and that is where the keys lead to. -/
def SetsTo (L : Packages τ Doc) (values : τ) (path : String) (keys : List String) (v : Yaml) :
    Prop :=
  ∃ text, setValue L values path v = some text ∧ getValue L text path none = some v ∧
    getValue L text (pointer keys) none = some v

/-- lodash puts a value where the keys lead to. -/
def ItemRules.Reads (R : ItemRules) (path : String) (keys : List String) : Prop :=
  R.assigns (R.keysOf path) = true ∧ Yaml.Finds R.isIndex R.slot R.index keys (R.keysOf path)

/-- When the written value is read. -/
structure SetsItems (L : Packages τ Doc) (R : ItemRules) (values : τ) (path : String) : Prop where
  empty : L.contents (L.parseDocument values) = none →
    R.Reads (withoutSlash path) (parsePath L path)
  found : ∀ {t parent}, L.contents (L.parseDocument values) = some t →
    L.getIn (L.parseDocument values) (splitPath path).dropLast = some parent →
    Yaml.Writable R.index R.fills R.pads (parsePath L path) t
  missing : ∀ {t}, L.contents (L.parseDocument values) = some t →
    L.getIn (L.parseDocument values) (splitPath path).dropLast = none →
    let n := keptLength L (L.parseDocument values) path
    Yaml.Writable R.index R.fills R.pads ((parsePath L path).take n) t ∧
      R.Reads (remainingPath L (L.parseDocument values) path) ((parsePath L path).drop n)

/-! ## The tree after a write -/

/-- The text that `setValue` gives is that of the tree. -/
def Leaves (L : Packages τ Doc) (values : τ) (path : String) (v new : Yaml) : Prop :=
  ∃ text, setValue L values path v = some text ∧ L.contents (L.parseDocument text) = some new

theorem Documented.setsTo_iff_leaves {R : PathRules} (h : Documented L R) (hne : keys ≠ [])
    (hv : v ≠ .scalar .null) :
    SetsTo L values path keys v ↔ ∃ new, Leaves L values path v new ∧
      Yaml.getIn R.index (parsePath L path) new = some v ∧
      Yaml.getIn R.index keys new = some v := by
  constructor
  · rintro ⟨text, hset, hpath, hkeys⟩
    rw [h.getValue_none] at hpath
    obtain ⟨new, hnew, hread⟩ := Option.bind_eq_some_iff.mp (nonNull_eq_some.1 hpath).1
    rw [h.getValue_pointer text hne, hnew, Option.bind_some] at hkeys
    exact ⟨new, ⟨text, hset, hnew⟩, hread, (nonNull_eq_some.1 hkeys).1⟩
  · rintro ⟨new, ⟨text, hset, hnew⟩, hread, hkeys⟩
    refine ⟨text, hset, ?_, ?_⟩
    · rw [h.getValue_none, hnew]
      exact nonNull_eq_some.2 ⟨hread, hv⟩
    · rw [h.getValue_pointer text hne, hnew]
      exact nonNull_eq_some.2 ⟨hkeys, hv⟩

/-- What is read after `setIn`. -/
theorem DocumentedItems.contents_setIn_iff (h : DocumentedItems L R) (hdoc : L.contents doc = some t)
    (hne : keys ≠ []) :
    (∃ doc', L.setIn doc keys (some w) = some doc' ∧
      L.contents (L.parseDocument (L.toString doc')) = some new) ↔
      Yaml.writeIn R.index R.fills R.pads w keys t = some new := by
  have hboth := h.setIn w hdoc hne
  constructor
  · rintro ⟨doc', hset, hnew⟩
    rw [hset, Option.map_some] at hboth
    obtain ⟨new', hwrite, hdoc'⟩ := Option.map_eq_some_iff.mp hboth.symm
    rw [h.contents_parse hdoc'.symm (Yaml.isCollection_writeIn hne hwrite)] at hnew
    exact hwrite.trans hnew
  · intro hwrite
    rw [hwrite, Option.map_some] at hboth
    obtain ⟨doc', hset, hdoc'⟩ := Option.map_eq_some_iff.mp hboth
    exact ⟨doc', hset, h.contents_parse hdoc' (Yaml.isCollection_writeIn hne hwrite)⟩

theorem Documented.leaves_empty_iff {R : PathRules} (h : Documented L R)
    (hdoc : L.contents (L.parseDocument values) = none) :
    Leaves L values path v new ↔ L.set (withoutSlash path) (some v) = new := by
  obtain ⟨doc', hset, hnew⟩ := h.contents_setIn_root (L.parseDocument values) (withoutSlash path) v
  have hvalue : setValue L values path v = some (L.toString doc') := by
    refine setValue_eq_some.2 ⟨doc', ?_, rfl⟩
    rw [parsePathAndValue_empty hdoc]
    exact hset
  constructor
  · rintro ⟨text, htext, hread⟩
    obtain rfl := Option.some.inj (htext.symm.trans hvalue)
    exact Option.some.inj (hnew.symm.trans hread)
  · rintro rfl
    exact ⟨_, hvalue, hnew⟩

theorem leaves_iff {r : PathAndValue}
    (hr : parsePathAndValue L (L.parseDocument values) path (some v) = r) :
    Leaves L values path v new ↔
      ∃ doc', L.setIn (L.parseDocument values) r.splittedPath r.value = some doc' ∧
        L.contents (L.parseDocument (L.toString doc')) = some new := by
  subst hr
  constructor
  · rintro ⟨text, htext, hread⟩
    obtain ⟨doc', hset, rfl⟩ := setValue_eq_some.1 htext
    exact ⟨doc', hset, hread⟩
  · rintro ⟨doc', hset, hread⟩
    exact ⟨_, setValue_eq_some.2 ⟨doc', hset, rfl⟩, hread⟩

theorem DocumentedItems.leaves_found_iff (h : DocumentedItems L R) {parent : Yaml}
    (hdoc : L.contents (L.parseDocument values) = some t)
    (hparent : L.getIn (L.parseDocument values) (splitPath path).dropLast = some parent) :
    Leaves L values path v new ↔
      Yaml.writeIn R.index R.fills R.pads v (parsePath L path) t = some new := by
  rw [leaves_iff (parsePathAndValue_found hdoc hparent)]
  exact h.contents_setIn_iff hdoc (parsePath_ne_nil path)

theorem DocumentedItems.leaves_missing_iff (h : DocumentedItems L R)
    (hdoc : L.contents (L.parseDocument values) = some t)
    (hparent : L.getIn (L.parseDocument values) (splitPath path).dropLast = none) :
    Leaves L values path v new ↔
      Yaml.writeIn R.index R.fills R.pads
        (L.set (remainingPath L (L.parseDocument values) path) (some v))
        ((parsePath L path).take (keptLength L (L.parseDocument values) path)) t = some new := by
  rw [leaves_iff (parsePathAndValue_missing hdoc hparent)]
  exact h.contents_setIn_iff hdoc (take_keptLength_ne_nil (L.parseDocument values) path)

/-! ## What lodash is given -/

theorem DocumentedItems.getIn_set (h : DocumentedItems L R) (hreads : R.Reads s keys) (v : Yaml) :
    Yaml.getIn R.index keys (L.set s (some v)) = some v := by
  rw [h.set v hreads.1]
  exact Yaml.getIn_buildObject hreads.2 v

/-- A text that is read wherever it is put is put where the keys lead to. -/
theorem DocumentedItems.reads_of_getIn (h : DocumentedItems L R)
    (hread : ∀ text, Yaml.getIn R.index keys (L.set s (some (.scalar (.str text)))) =
      some (.scalar (.str text))) : R.Reads s keys := by
  cases hassigns : R.assigns (R.keysOf s) with
  | true =>
      have hone := hread ""
      rw [h.set _ hassigns] at hone
      exact ⟨hassigns, Yaml.finds_of_reads hone⟩
  | false =>
      obtain ⟨m, hm⟩ := h.set_unsafe hassigns
      have heq := (hread "a").symm.trans ((congrArg _ ((hm _).trans (hm _).symm)).trans (hread "b"))
      exact absurd heq (by simp)

/-! ## When the written value is read -/

/-- What is read of a text is read at no more keys than the text. -/
theorem eq_nil_of_getIn_str {index : String → Option Nat} {q : List String} {o : Yaml}
    (h : Yaml.getIn index q (.scalar (.str s)) = some o) : q = [] := by
  by_contra hne
  rw [Yaml.getIn_scalar hne] at h
  exact nomatch h

theorem DocumentedItems.setsTo_of_setsItems (h : DocumentedItems L R)
    (hitems : SetsItems L R values path) (hv : v ≠ .scalar .null) :
    SetsTo L values path (parsePath L path) v := by
  rw [h.setsTo_iff_leaves (parsePath_ne_nil path) hv]
  simp only [and_self]
  cases hdoc : L.contents (L.parseDocument values) with
  | none =>
      exact ⟨_, (h.leaves_empty_iff hdoc).2 rfl, h.getIn_set (hitems.empty hdoc) v⟩
  | some t =>
      cases hparent : L.getIn (L.parseDocument values) (splitPath path).dropLast with
      | some parent =>
          obtain ⟨new, hwrite, hread⟩ := (Yaml.writable_iff v).1 (hitems.found hdoc hparent)
          exact ⟨new, (h.leaves_found_iff hdoc hparent).2 hwrite, hread⟩
      | none =>
          obtain ⟨hway, hreads⟩ := hitems.missing hdoc hparent
          obtain ⟨new, hwrite, hread⟩ := (Yaml.writable_iff _).1 hway
          refine ⟨new, (h.leaves_missing_iff hdoc hparent).2 hwrite, ?_⟩
          rw [← List.take_append_drop (keptLength L (L.parseDocument values) path)
            (parsePath L path), Yaml.getIn_append, hread]
          exact h.getIn_set hreads v

/-- Every text is written where the path leads to and where the keys lead to. -/
def TextsRead (L : Packages τ Doc) (index : String → Option Nat) (values : τ) (path : String)
    (keys : List String) : Prop :=
  ∀ s, ∃ new, Leaves L values path (.scalar (.str s)) new ∧
    Yaml.getIn index (parsePath L path) new = some (.scalar (.str s)) ∧
    Yaml.getIn index keys new = some (.scalar (.str s))

theorem DocumentedItems.reads_of_texts (h : DocumentedItems L R)
    (hdoc : L.contents (L.parseDocument values) = none)
    (htexts : TextsRead L R.index values path keys) :
    R.Reads (withoutSlash path) (parsePath L path) ∧
      List.Forall₂ (Yaml.Alike R.index) keys (parsePath L path) := by
  have hpath : R.Reads (withoutSlash path) (parsePath L path) := by
    refine h.reads_of_getIn fun s => ?_
    obtain ⟨new, hleaves, hread, _⟩ := htexts s
    rwa [(h.leaves_empty_iff hdoc).1 hleaves]
  have hkeys : R.Reads (withoutSlash path) keys := by
    refine h.reads_of_getIn fun s => ?_
    obtain ⟨new, hleaves, _, hread⟩ := htexts s
    rwa [(h.leaves_empty_iff hdoc).1 hleaves]
  exact ⟨hpath, Yaml.alike_of_finds hkeys.2 hpath.2⟩

theorem DocumentedItems.writable_of_texts (h : DocumentedItems L R) {parent : Yaml}
    (hdoc : L.contents (L.parseDocument values) = some t)
    (hparent : L.getIn (L.parseDocument values) (splitPath path).dropLast = some parent)
    (htexts : TextsRead L R.index values path keys) :
    Yaml.Writable R.index R.fills R.pads (parsePath L path) t ∧
      List.Forall₂ (Yaml.Alike R.index) keys (parsePath L path) := by
  have hway : Yaml.Writable R.index R.fills R.pads (parsePath L path) t := by
    obtain ⟨new, hleaves, hread, _⟩ := htexts ""
    exact (Yaml.writable_iff _).2 ⟨new, (h.leaves_found_iff hdoc hparent).1 hleaves, hread⟩
  have hkeys : ∀ s, ∃ new, Yaml.writeIn R.index R.fills R.pads (.scalar (.str s))
      (parsePath L path) t = some new ∧ Yaml.getIn R.index keys new = some (.scalar (.str s)) := by
    intro s
    obtain ⟨new, hleaves, _, hread⟩ := htexts s
    exact ⟨new, (h.leaves_found_iff hdoc hparent).1 hleaves, hread⟩
  obtain ⟨q₁, q₂, rfl, halike, hbelow⟩ := Yaml.exists_alike_of_reads hway hkeys
  rw [eq_nil_of_getIn_str (hbelow ""), List.append_nil]
  exact ⟨hway, halike⟩

theorem DocumentedItems.cut_of_texts (h : DocumentedItems L R)
    (hdoc : L.contents (L.parseDocument values) = some t)
    (hparent : L.getIn (L.parseDocument values) (splitPath path).dropLast = none)
    (htexts : TextsRead L R.index values path keys) :
    let n := keptLength L (L.parseDocument values) path
    (Yaml.Writable R.index R.fills R.pads ((parsePath L path).take n) t ∧
      R.Reads (remainingPath L (L.parseDocument values) path) ((parsePath L path).drop n)) ∧
      List.Forall₂ (Yaml.Alike R.index) keys (parsePath L path) := by
  intro n
  have hparts := List.take_append_drop n (parsePath L path)
  have hbelow : ∀ s, Yaml.Writable R.index R.fills R.pads ((parsePath L path).take n) t ∧
      Yaml.getIn R.index ((parsePath L path).drop n)
        (L.set (remainingPath L (L.parseDocument values) path) (some (.scalar (.str s)))) =
          some (.scalar (.str s)) := by
    intro s
    obtain ⟨new, hleaves, hread, _⟩ := htexts s
    rw [← hparts] at hread
    exact Yaml.writable_of_getIn_append ((h.leaves_missing_iff hdoc hparent).1 hleaves) hread
  have hreads := h.reads_of_getIn fun s => (hbelow s).2
  have hkeys : ∀ s, ∃ new, Yaml.writeIn R.index R.fills R.pads
      (L.set (remainingPath L (L.parseDocument values) path) (some (.scalar (.str s))))
      ((parsePath L path).take n) t = some new ∧
        Yaml.getIn R.index keys new = some (.scalar (.str s)) := by
    intro s
    obtain ⟨new, hleaves, _, hread⟩ := htexts s
    exact ⟨new, (h.leaves_missing_iff hdoc hparent).1 hleaves, hread⟩
  obtain ⟨q₁, q₂, rfl, halike, hrest⟩ := Yaml.exists_alike_of_reads (hbelow "").1 hkeys
  refine ⟨⟨(hbelow "").1, hreads⟩, ?_⟩
  rw [← hparts]
  exact List.rel_append halike (Yaml.alike_of_finds (h.reads_of_getIn hrest).2 hreads.2)

/-- What follows when every value is written where the path leads to and where the keys lead to. -/
theorem DocumentedItems.items_of_setsTo (h : DocumentedItems L R) (hne : keys ≠ [])
    (hsets : ∀ v, v ≠ .scalar .null → SetsTo L values path keys v) :
    SetsItems L R values path ∧ List.Forall₂ (Yaml.Alike R.index) keys (parsePath L path) := by
  have htexts : TextsRead L R.index values path keys := fun s =>
    (h.setsTo_iff_leaves hne (str_ne_null s)).1 (hsets _ (str_ne_null s))
  refine ⟨⟨fun hdoc => (h.reads_of_texts hdoc htexts).1,
    fun hdoc hparent => (h.writable_of_texts hdoc hparent htexts).1,
    fun hdoc hparent => (h.cut_of_texts hdoc hparent htexts).1⟩, ?_⟩
  cases hdoc : L.contents (L.parseDocument values) with
  | none => exact (h.reads_of_texts hdoc htexts).2
  | some t =>
      cases hparent : L.getIn (L.parseDocument values) (splitPath path).dropLast with
      | some parent => exact (h.writable_of_texts hdoc hparent htexts).2
      | none => exact (h.cut_of_texts hdoc hparent htexts).2

/-- **Written where it is read**: every value but null, exactly under the condition. -/
theorem DocumentedItems.setsItems_iff (h : DocumentedItems L R) :
    (∀ v, v ≠ .scalar .null → SetsTo L values path (parsePath L path) v) ↔
      SetsItems L R values path := by
  constructor
  · exact fun hsets => (h.items_of_setsTo (parsePath_ne_nil path) hsets).1
  · exact fun hitems v hv => h.setsTo_of_setsItems hitems hv

end Kubeapps.Dashboard
