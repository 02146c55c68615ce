/-
  Taking a value away by its path (src/dashboard/src/shared/schema.ts: deleteValue).

  `deleteValue` has its path from `parsePathAndValue`, which cuts it where the parent of the value is
  missing, for `setValue` to write a larger value there. `deletesRight_iff`: what is taken away is
  then the value at the shorter path, so nothing may be there. A parent is missing also when it is
  only looked up by a key as it is escaped, and what is below null or a scalar cannot be reached
  at all: the YAML package throws.
-/
import Kubeapps.Dashboard.Schema

namespace Kubeapps.Dashboard

open Kubeapps.Lib

variable {τ Doc : Type} {L : Packages τ Doc} {R : PathRules} {index : String → Option Nat}
  {keys : List String} {path : String} {values : τ} {doc : Doc} {t : Yaml} {m : Yaml.Entries}

/-- `deleteValue` takes away what the keys lead to in the document. An empty text stands for the
    empty map. -/
def DeletesRight (L : Packages τ Doc) (R : PathRules) (values : τ) (path : String)
    (keys : List String) (t : Yaml) : Prop :=
  ∃ text, deleteValue L values path = some text ∧
    (L.contents (L.parseDocument text)).getD (.map []) = Yaml.removeIn R.index keys t

/-- When the right value is taken away. -/
structure DeletesCleanly (L : Packages τ Doc) (R : PathRules) (values : τ) (path : String)
    (t : Yaml) : Prop where
  found : ∀ {parent}, L.getIn (L.parseDocument values) (splitPath path).dropLast = some parent →
    Yaml.Reaches R.index R.strict (parsePath L path) t
  missing : L.getIn (L.parseDocument values) (splitPath path).dropLast = none →
    let kept := (parsePath L path).take (keptLength L (L.parseDocument values) path)
    Yaml.Reaches R.index R.strict kept t ∧ Yaml.getIn R.index kept t = none

/-- A map from which something is taken away is one. -/
theorem exists_map_removeIn (index : String → Option Nat) (keys : List String) (m : Yaml.Entries) :
    ∃ m', Yaml.removeIn index keys (.map m) = .map m' := by
  cases keys with
  | nil => exact ⟨m, rfl⟩
  | cons key keys =>
      cases keys with
      | nil => exact ⟨_, rfl⟩
      | cons key' keys =>
          cases hc : Yaml.child index key (.map m) with
          | none => exact ⟨m, by simp only [Yaml.removeIn, hc]⟩
          | some c =>
              rw [Yaml.removeIn_cons (List.cons_ne_nil key' keys) hc]
              exact ⟨_, rfl⟩

/-- What the text means after a deletion that has not thrown. -/
theorem Documented.deleteValue_iff (h : Documented L R)
    (hdoc : L.contents (L.parseDocument values) = some (.map m)) {kept : List String}
    (hkept : (parsePathAndValue L (L.parseDocument values) path none).splittedPath = kept)
    (hne : kept ≠ []) :
    (∃ text, deleteValue L values path = some text ∧
      (L.contents (L.parseDocument text)).getD (.map []) = t) ↔
      Yaml.Reaches R.index R.strict kept (.map m) ∧ Yaml.removeIn R.index kept (.map m) = t := by
  by_cases hreach : Yaml.Reaches R.index R.strict kept (.map m)
  · obtain ⟨doc', hdelete, hdoc'⟩ := h.deleteIn hdoc hne hreach
    obtain ⟨m', hm'⟩ := exists_map_removeIn R.index kept m
    rw [hm'] at hdoc'
    obtain ⟨text, htext, hcontents⟩ : ∃ text, deleteValue L values path = some text ∧
        (L.contents (L.parseDocument text)).getD (.map []) = .map m' := by
      unfold deleteValue
      simp only [hkept, hdelete, Option.bind_eq_bind, Option.bind_some, hdoc']
      cases m' with
      | nil => exact ⟨L.newline, rfl, by rw [h.contents_newline]; rfl⟩
      | cons e m' =>
          exact ⟨L.toString doc', rfl, by rw [h.contents_parse hdoc' rfl]; rfl⟩
    rw [htext, hm', and_iff_right hreach, ← hcontents]
    constructor
    · rintro ⟨_, ⟨⟩, ht⟩
      exact ht
    · exact fun ht => ⟨text, rfl, ht⟩
  · have hthrows : deleteValue L values path = none := by
      unfold deleteValue
      simp only [hkept, h.deleteIn_throws hdoc hreach]
      rfl
    rw [hthrows]
    constructor
    · rintro ⟨text, htext, _⟩
      exact absurd htext.symm (Option.some_ne_none text)
    · exact fun ht => absurd ht.1 hreach

/-- **Deleting by a path.** For every text of a map and every path of escaped keys and indexes:
    `deleteValue` takes away just what the keys lead to, exactly if the path is clean for the
    text. -/
theorem deletesRight_iff (h : Documented L R) (hpath : PathTo keys path)
    (hdoc : L.contents (L.parseDocument values) = some (.map m)) :
    DeletesRight L R values path keys (.map m) ↔ DeletesCleanly L R values path (.map m) := by
  have hkeys := h.parsePath_eq hpath
  unfold DeletesRight
  cases hparent : L.getIn (L.parseDocument values) (splitPath path).dropLast with
  | some parent =>
      have hkept : (parsePathAndValue L (L.parseDocument values) path none).splittedPath = keys := by
        rw [parsePathAndValue_found hdoc hparent, hkeys]
      rw [h.deleteValue_iff hdoc hkept hpath.keys_ne_nil]
      constructor
      · rintro ⟨hreach, _⟩
        exact ⟨fun _ => hkeys ▸ hreach, fun hnone => nomatch hparent.symm.trans hnone⟩
      · intro hclean
        have hreach := hclean.found hparent
        rw [hkeys] at hreach
        exact ⟨hreach, rfl⟩
  | none =>
      have hlt := h.keptLength_lt hdoc hparent
      have hkept : (parsePathAndValue L (L.parseDocument values) path none).splittedPath =
          (parsePath L path).take (keptLength L (L.parseDocument values) path) := by
        rw [parsePathAndValue_missing hdoc hparent]
      have hrest : (parsePath L path).drop (keptLength L (L.parseDocument values) path) ≠ [] := by
        rw [Ne, List.drop_eq_nil_iff]
        omega
      have hne : (parsePath L path).take (keptLength L (L.parseDocument values) path) ≠ [] :=
        take_keptLength_ne_nil _ path
      have hsame : Yaml.removeIn R.index ((parsePath L path).take
            (keptLength L (L.parseDocument values) path)) (.map m) =
          Yaml.removeIn R.index keys (.map m) ↔ Yaml.getIn R.index ((parsePath L path).take
            (keptLength L (L.parseDocument values) path)) (.map m) = none := by
        rw [← Yaml.removeIn_eq_append_iff hne hrest, List.take_append_drop, hkeys]
      rw [h.deleteValue_iff hdoc hkept hne, hsame]
      constructor
      · intro hclean
        exact ⟨fun hsome => (nomatch hparent.symm.trans hsome), fun _ => hclean⟩
      · exact fun hclean => hclean.missing hparent

/-- `foo: [bar, foobar]`. -/
def fooItems : Yaml.Entries :=
  [(.str "foo", .seq [.scalar (.str "bar"), .scalar (.str "foobar")])]

/-- An item of a sequence goes. -/
theorem deletesRight_fooItem :
    DeletesRight plainPackages plainRules (some (.map fooItems)) "foo/0" ["foo", "0"]
      (.map fooItems) := by
  have hpath : PathTo ["foo", "0"] "foo/0" :=
    .relative (rfl : ["foo", "0"] = "foo" :: ["0"]) (by decide)
  refine (deletesRight_iff plainPackages_documented hpath rfl).2 ⟨fun _ => ?_, fun hnone => ?_⟩
  · decide
  · exact absurd hnone (by decide)

/-- `foo: bar` and `this:`. -/
def fooThis : Yaml.Entries := [(.str "foo", .scalar (.str "bar")), (.str "this", .scalar .null)]

/-- For a value far below a key that is null the key goes. -/
theorem deleteValue_fooThis :
    deleteValue plainPackages (some (.map fooThis)) "this/new/value" =
        some (some (.map [(.str "foo", .scalar (.str "bar"))])) ∧
      Yaml.getIn plainRules.index ["this", "new", "value"] (.map fooThis) = none ∧
      ¬ DeletesRight plainPackages plainRules (some (.map fooThis)) "this/new/value"
        ["this", "new", "value"] (.map fooThis) := by
  have hdelete : deleteValue plainPackages (some (.map fooThis)) "this/new/value" =
      some (some (.map [(.str "foo", .scalar (.str "bar"))])) := rfl
  refine ⟨hdelete, rfl, ?_⟩
  rintro ⟨text, htext, hcontents⟩
  rw [hdelete] at htext
  obtain rfl := Option.some.inj htext
  have hlen := congrArg Yaml.width hcontents
  exact absurd hlen (by decide)

end Kubeapps.Dashboard
