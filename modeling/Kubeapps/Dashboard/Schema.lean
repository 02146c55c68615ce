/-
  Values by their paths in the YAML text of a form (src/dashboard/src/shared/schema.ts).

  A path is a JSON pointer, mostly without its first slash. `getValue` reads the value there,
  `setValue` writes one and `deleteValue` takes it away, each on a text that it parses and, if it has
  changed something, prints again. Writing below what is not there yet is not left to the YAML
  package: `parsePathAndValue` cuts the path at the first key that is missing and builds the rest of
  the value with lodash. For that it looks the keys up as they are escaped.

  Packages. The YAML package, lodash and `unescapePathComponent` are parameters (`Packages`);
  `Documented` says what the functions rely on, and `DocumentedItems` what the packages do with the
  items of sequences and arrays besides. The document is a tree with string keys (`Lib/YamlPath`,
  `Lib/YamlWrite`). Left open are what the YAML package does with collections that are missing on the
  way of a path (`fills`, `strict`) and with an item beyond the end of a sequence (`pads`), which
  texts are indexes of sequences for it, and how lodash reads the keys of a path. A text is of any
  type; those that are no YAML are not modelled, nor are `validate` and `parseValues`, which have no
  path.
-/
import Kubeapps.Lib.JsonPointer
import Kubeapps.Lib.YamlWrite

namespace Kubeapps.Dashboard

open Kubeapps.Lib

/-! ## Packages -/

/-- What `schema.ts` imports. A call without a value has thrown. -/
structure Packages (τ Doc : Type) where
  parseDocument : τ → Doc
  toString : Doc → τ
  /-- The text `"\n"`. -/
  newline : τ
  /-- `doc.contents`, which an empty document does not have. -/
  contents : Doc → Option Yaml
  /-- `undefined` is no value. -/
  getIn : Doc → List String → Option Yaml
  setIn : Doc → List String → Option Yaml → Option Doc
  deleteIn : Doc → List String → Option Doc
  /-- `set({}, path, value)`. -/
  set : String → Option Yaml → Yaml
  unescapePathComponent : String → String

/-- What the packages decide. -/
structure PathRules where
  /-- The index of a sequence that a text stands for. -/
  index : String → Option Nat
  /-- `setIn` makes the collections that are missing. -/
  fills : Bool
  /-- `deleteIn` throws at a collection that is missing. -/
  strict : Bool
  /-- The keys that lodash reads in a path. -/
  keysOf : String → List String
  /-- The key is an index for lodash, which makes an array for it. -/
  isIndex : String → Bool
  /-- The keys do not lead to what every object inherits, where lodash does not put a value. -/
  assigns : List String → Bool

section Documented

variable {τ Doc : Type}

/-- What the packages document. -/
structure Documented (L : Packages τ Doc) (R : PathRules) : Prop where
  contents_parse : ∀ {doc t}, L.contents doc = some t → t.isCollection = true →
    L.contents (L.parseDocument (L.toString doc)) = some t
  contents_newline : L.contents (L.parseDocument L.newline) = none
  getIn : ∀ doc keys, L.getIn doc keys = (L.contents doc).bind (Yaml.getIn R.index keys)
  setIn_root : ∀ doc v, ∃ doc', L.setIn doc [] (some v) = some doc' ∧ L.contents doc' = some v
  setIn_maps : ∀ {doc t keys} v, L.contents doc = some t → keys ≠ [] → Yaml.Mapped R.fills keys t →
    ∃ doc', L.setIn doc keys (some v) = some doc' ∧ L.contents doc' = some (Yaml.putIn v keys t)
  setIn_scalar : ∀ {doc t p s} key q v, L.contents doc = some t →
    Yaml.getIn R.index p t = some (.scalar s) → L.setIn doc (p ++ key :: q) v = none
  setIn_missing : ∀ {doc t p} key q v, R.fills = false → L.contents doc = some t →
    Yaml.getIn R.index p t = none → L.setIn doc (p ++ key :: q) v = none
  /-- What is written below a sequence leaves it a sequence. -/
  setIn_seq : ∀ {doc doc' t p xs key q v}, L.contents doc = some t →
    Yaml.getIn R.index p t = some (.seq xs) → L.setIn doc (p ++ key :: q) v = some doc' →
    ∃ t' xs', L.contents doc' = some t' ∧ Yaml.getIn R.index p t' = some (.seq xs')
  deleteIn : ∀ {doc t keys}, L.contents doc = some t → keys ≠ [] →
    Yaml.Reaches R.index R.strict keys t → ∃ doc', L.deleteIn doc keys = some doc' ∧
      L.contents doc' = some (Yaml.removeIn R.index keys t)
  deleteIn_throws : ∀ {doc t keys}, L.contents doc = some t →
    ¬ Yaml.Reaches R.index R.strict keys t → L.deleteIn doc keys = none
  /-- An index has other texts, such as one with a zero before it. -/
  index_alias : ∀ {key i}, R.index key = some i → ∃ key', key' ≠ key ∧ R.index key' = some i
  keysOf_ne_nil : ∀ s, R.keysOf s ≠ []
  set_maps : ∀ {s} v, R.assigns (R.keysOf s) = true →
    (∀ key ∈ (R.keysOf s).tail, R.isIndex key = false) →
    L.set s (some v) = Yaml.nest (R.keysOf s) v
  /-- The first index after other keys is for an array. -/
  set_array : ∀ {s keys key rest} v, R.assigns (R.keysOf s) = true →
    R.keysOf s = keys ++ key :: rest → keys ≠ [] → (∀ k ∈ keys.tail, R.isIndex k = false) →
    R.isIndex key = true → ∃ xs, L.set s (some v) = Yaml.nest keys (.seq xs)
  set_unsafe : ∀ {s}, R.assigns (R.keysOf s) = false →
    ∃ m, ∀ v, L.set s (some v) = .map m
  unescape : L.unescapePathComponent = unescapeKey

/-- What the packages decide about items. -/
structure ItemRules extends PathRules where
  /-- An item beyond the end of a sequence has nulls before it. -/
  pads : Bool
  /-- The element of an array that lodash puts the value of an index to; there is none for an index
      that is too large for an array. -/
  slot : String → Option Nat

/-- What the packages document, with all of `setIn` and of `set`. -/
structure DocumentedItems (L : Packages τ Doc) (R : ItemRules) : Prop
    extends Documented L R.toPathRules where
  /-- Both sides are none where `setIn` throws. -/
  setIn : ∀ {doc t keys} v, L.contents doc = some t → keys ≠ [] →
    (L.setIn doc keys (some v)).map L.contents =
      (Yaml.writeIn R.index R.fills R.pads v keys t).map some
  set : ∀ {s} v, R.assigns (R.keysOf s) = true →
    L.set s (some v) = Yaml.buildObject R.isIndex R.slot (R.keysOf s) v
  /-- The texts of numbers have neither. -/
  index_text : ∀ {key i}, R.index key = some i → '/' ∉ key.toList ∧ '~' ∉ key.toList

end Documented

/-! ## The functions -/

section Functions

variable {τ Doc : Type} (L : Packages τ Doc)

/-- A value that is neither `undefined` nor `null`. -/
def nonNull : Option Yaml → Option Yaml
  | some (.scalar .null) => none
  | elem => elem

/-- `path.replace(/^\//, "")`. -/
def withoutSlash (path : String) : String :=
  match path.toList with
  | '/' :: rest => String.ofList rest
  | _ => path

def splitPath (path : String) : List String := splitAtSlashes (withoutSlash path)

def unescapePath (path : List String) : List String := path.map L.unescapePathComponent

def parsePath (path : String) : List String := unescapePath L (splitPath path)

/-- A pass of the loop of `getDefinedPath`; the state is `currentPath` and `foundUndefined`. -/
def definedStep (doc : Doc) (state : List String × Bool) (p : String) : List String × Bool :=
  if state.2 then state
  else
    let pathToEvaluate := state.1 ++ [p]
    match nonNull (L.getIn doc pathToEvaluate) with
    | none => (state.1, true)
    | some _ => (pathToEvaluate, false)

def getDefinedPath (allElementsButTheLast : List String) (doc : Doc) : List String :=
  (allElementsButTheLast.foldl (definedStep L doc) ([], false)).1

structure PathAndValue where
  splittedPath : List String
  value : Option Yaml

def parsePathAndValue (doc : Doc) (path : String) (value : Option Yaml) : PathAndValue :=
  match L.contents doc with
  | none => ⟨[], some (L.set (withoutSlash path) value)⟩
  | some _ =>
      let splittedPath := splitPath path
      let allElementsButTheLast := splittedPath.dropLast
      match L.getIn doc allElementsButTheLast with
      | some _ => ⟨unescapePath L splittedPath, value⟩
      | none =>
          let definedPath := getDefinedPath L allElementsButTheLast doc
          let remainingPath := splittedPath.drop (definedPath.length + 1)
          ⟨unescapePath L (splittedPath.take (definedPath.length + 1)),
            some (L.set (".".intercalate remainingPath) value)⟩

def setValue (values : τ) (path : String) (newValue : Yaml) : Option τ := do
  let doc := L.parseDocument values
  let r := parsePathAndValue L doc path (some newValue)
  let doc ← L.setIn doc r.splittedPath r.value
  return L.toString doc

/-- `!isEmpty(contents.items)`. -/
def hasItems : Yaml → Bool
  | .map m => !m.isEmpty
  | .seq xs => !xs.isEmpty
  | .scalar _ => false

def deleteValue (values : τ) (path : String) : Option τ := do
  let doc := L.parseDocument values
  let doc ← L.deleteIn doc (parsePathAndValue L doc path none).splittedPath
  match L.contents doc with
  | some contents => if hasItems contents then return L.toString doc else return L.newline
  | none => return L.newline

def getValue (values : τ) (path : String) (defaultValue : Option Yaml) : Option Yaml :=
  match nonNull (L.getIn (L.parseDocument values) (parsePath L path)) with
  | some value => some value
  | none => defaultValue

end Functions

/-! ## Paths -/

/-- The text is the path to the value at the keys, with its first slash or without. -/
inductive PathTo (keys : List String) : String → Prop where
  | absolute (hne : keys ≠ []) : PathTo keys (pointer keys)
  | relative {key : String} {rest : List String} (hkeys : keys = key :: rest) (hkey : key ≠ "") :
      PathTo keys ("/".intercalate (keys.map escapeKey))

theorem withoutSlash_slash (s : String) : withoutSlash ("/" ++ s) = s := by
  have hlist : ("/" ++ s).toList = '/' :: s.toList := by simp
  simp only [withoutSlash, hlist, String.ofList_toList]

theorem withoutSlash_of_ne {s : String} (h : s.toList.head? ≠ some '/') : withoutSlash s = s := by
  unfold withoutSlash
  split
  · rename_i rest hlist
    exact absurd (by rw [hlist]; rfl) h
  · rfl

/-- An escaped key that is not empty does not begin with a slash. -/
theorem head_intercalate_escapeKey {key : String} (hkey : key ≠ "") (rest : List String) :
    ("/".intercalate ((key :: rest).map escapeKey)).toList.head? ≠ some '/' := by
  have hne : (escapeKey key).toList ≠ [] := by
    intro h
    have hempty : escapeKey key = "" := String.toList_eq_nil_iff.mp h
    have hback := unescapeKey_escapeKey key
    rw [hempty] at hback
    exact hkey hback.symm
  obtain ⟨c, cs, hcs⟩ := List.exists_cons_of_ne_nil hne
  have hslash : c ≠ '/' := by
    rintro rfl
    exact slash_not_mem_escapeKey key (by rw [hcs]; exact List.mem_cons_self)
  cases rest with
  | nil => simpa [hcs] using hslash
  | cons key' rest => simpa [hcs] using hslash

namespace PathTo

variable {keys : List String} {path : String}

theorem keys_ne_nil (h : PathTo keys path) : keys ≠ [] := by
  cases h with
  | absolute hne => exact hne
  | relative hkeys _ => simp [hkeys]

theorem withoutSlash_eq (h : PathTo keys path) :
    withoutSlash path = "/".intercalate (keys.map escapeKey) := by
  cases h with
  | absolute hne => exact withoutSlash_slash _
  | relative hkeys hkey =>
      rw [hkeys]
      exact withoutSlash_of_ne (head_intercalate_escapeKey hkey _)

theorem splitPath_eq (h : PathTo keys path) : splitPath path = keys.map escapeKey := by
  unfold splitPath
  rw [h.withoutSlash_eq, split_escaped h.keys_ne_nil]

end PathTo

theorem splitPath_ne_nil (path : String) : splitPath path ≠ [] := by
  unfold splitPath splitAtSlashes splitSlash
  exact fun h => List.splitOn_ne_nil '/' _ (List.map_eq_nil_iff.mp h)

theorem nonNull_eq_some {o : Option Yaml} {v : Yaml} :
    nonNull o = some v ↔ o = some v ∧ v ≠ .scalar .null := by
  unfold nonNull
  split
  · constructor
    · exact fun h => nomatch h
    · exact fun h => absurd (Option.some.inj h.1).symm h.2
  · rename_i hnull
    constructor
    · rintro rfl
      exact ⟨rfl, fun h => hnull (congrArg some h)⟩
    · exact And.left

section Lookup

variable {τ Doc : Type} {L : Packages τ Doc} {R : PathRules} {keys : List String} {path : String}

theorem Documented.parsePath_eq (h : Documented L R) (hpath : PathTo keys path) :
    parsePath L path = keys := by
  unfold parsePath unescapePath
  rw [h.unescape, hpath.splitPath_eq, unescape_escaped]

theorem parsePath_ne_nil (path : String) : parsePath L path ≠ [] :=
  fun h => splitPath_ne_nil path (List.map_eq_nil_iff.mp h)

/-- `getValue` reads the document at the keys of the path. -/
theorem Documented.getValue_none (h : Documented L R) (values : τ) (path : String) :
    getValue L values path none =
      nonNull ((L.contents (L.parseDocument values)).bind
        (Yaml.getIn R.index (parsePath L path))) := by
  unfold getValue
  rw [h.getIn]
  split
  · rename_i value hvalue
    exact hvalue.symm
  · rename_i hnone
    exact hnone.symm

theorem Documented.getValue_pointer (h : Documented L R) (values : τ) (hne : keys ≠ []) :
    getValue L values (pointer keys) none =
      nonNull ((L.contents (L.parseDocument values)).bind (Yaml.getIn R.index keys)) := by
  rw [h.getValue_none, h.parsePath_eq (.absolute hne)]

/-- Once a key was missing the loop does not go on. -/
theorem foldl_definedStep_true (doc : Doc) (cur elems : List String) :
    elems.foldl (definedStep L doc) (cur, true) = (cur, true) := by
  induction elems with
  | nil => rfl
  | cons p elems ih => exact ih

/-- The loop ends with all of the keys, which then lead to a value, or with less. -/
theorem foldl_definedStep (doc : Doc) (cur elems : List String) :
    let r := elems.foldl (definedStep L doc) (cur, false)
    (r.1 = cur ++ elems ∧ (elems ≠ [] → L.getIn doc r.1 ≠ none)) ∨
      r.1.length < cur.length + elems.length := by
  induction elems generalizing cur with
  | nil => exact .inl ⟨(List.append_nil cur).symm, fun h => absurd rfl h⟩
  | cons p elems ih =>
      rw [List.foldl_cons]
      cases hp : nonNull (L.getIn doc (cur ++ [p])) with
      | none =>
          have hstep : definedStep L doc (cur, false) p = (cur, true) := by
            simp only [definedStep, hp, Bool.false_eq_true, if_false]
          rw [hstep, foldl_definedStep_true]
          refine .inr ?_
          simp
      | some v =>
          have hstep : definedStep L doc (cur, false) p = (cur ++ [p], false) := by
            simp only [definedStep, hp, Bool.false_eq_true, if_false]
          rw [hstep]
          rcases ih (cur ++ [p]) with ⟨heq, hdef⟩ | hlt
          · refine .inl ⟨by rw [heq, List.append_assoc]; rfl, fun _ => ?_⟩
            cases elems with
            | nil =>
                rw [heq, List.append_nil, (nonNull_eq_some.1 hp).1]
                exact Option.some_ne_none v
            | cons p' elems => exact hdef (List.cons_ne_nil p' elems)
          · refine .inr ?_
            simp only [List.length_append, List.length_cons, List.length_nil] at hlt ⊢
            omega

/-- Where the parent is missing the defined path ends before it. -/
theorem length_getDefinedPath_lt {doc : Doc} {elems : List String} (hne : elems ≠ [])
    (hparent : L.getIn doc elems = none) :
    (getDefinedPath L elems doc).length < elems.length := by
  rcases foldl_definedStep (L := L) doc [] elems with ⟨heq, hdef⟩ | hlt
  · rw [heq] at hdef
    exact absurd hparent (hdef hne)
  · simpa [getDefinedPath] using hlt

/-! ## What is passed on -/

variable {doc : Doc} {t : Yaml} {values : τ} {value : Option Yaml} {text : τ} {v : Yaml}

theorem parsePathAndValue_empty (hdoc : L.contents doc = none) :
    parsePathAndValue L doc path value = ⟨[], some (L.set (withoutSlash path) value)⟩ := by
  simp only [parsePathAndValue, hdoc]

theorem parsePathAndValue_found {parent : Yaml} (hdoc : L.contents doc = some t)
    (hparent : L.getIn doc (splitPath path).dropLast = some parent) :
    parsePathAndValue L doc path value = ⟨parsePath L path, value⟩ := by
  simp only [parsePathAndValue, hdoc, hparent, parsePath]

/-- The number of keys that are left of a path whose parent is missing. -/
def keptLength (L : Packages τ Doc) (doc : Doc) (path : String) : Nat :=
  (getDefinedPath L (splitPath path).dropLast doc).length + 1

/-- The rest of such a path, as lodash gets it. -/
def remainingPath (L : Packages τ Doc) (doc : Doc) (path : String) : String :=
  ".".intercalate ((splitPath path).drop (keptLength L doc path))

theorem parsePathAndValue_missing (hdoc : L.contents doc = some t)
    (hparent : L.getIn doc (splitPath path).dropLast = none) :
    parsePathAndValue L doc path value =
      ⟨(parsePath L path).take (keptLength L doc path),
        some (L.set (remainingPath L doc path) value)⟩ := by
  simp only [parsePathAndValue, hdoc, hparent, parsePath, unescapePath, List.map_take, keptLength,
    remainingPath]

/-- Something is cut off. -/
theorem Documented.keptLength_lt (h : Documented L R) (hdoc : L.contents doc = some t)
    (hparent : L.getIn doc (splitPath path).dropLast = none) :
    keptLength L doc path < (parsePath L path).length := by
  have hne : (splitPath path).dropLast ≠ [] := by
    intro hnil
    rw [hnil, h.getIn, hdoc] at hparent
    exact nomatch hparent
  have hlt := length_getDefinedPath_lt hne hparent
  rw [List.length_dropLast] at hlt
  unfold keptLength parsePath unescapePath
  rw [List.length_map]
  omega

/-- The keys that are left of a path are some. -/
theorem take_keptLength_ne_nil (doc : Doc) (path : String) :
    (parsePath L path).take (keptLength L doc path) ≠ [] := by
  intro h
  rcases List.take_eq_nil_iff.mp h with hlen | hnil
  · exact Nat.succ_ne_zero _ hlen
  · exact parsePath_ne_nil path hnil

theorem setValue_eq_some : setValue L values path v = some text ↔
    ∃ doc', L.setIn (L.parseDocument values)
        (parsePathAndValue L (L.parseDocument values) path (some v)).splittedPath
        (parsePathAndValue L (L.parseDocument values) path (some v)).value = some doc' ∧
      L.toString doc' = text := by
  unfold setValue
  simp only [Option.bind_eq_bind, Option.bind_eq_some_iff, Option.pure_def, Option.some.injEq]

end Lookup

/-! ## Packages without texts -/

/-- The number that decimal digits stand for. -/
def digitsIndex (s : String) : Option Nat :=
  if s ≠ "" ∧ s.toList.all Char.isDigit then
    some (s.toList.foldl (fun n c => 10 * n + (c.toNat - 48)) 0)
  else none

def inheritedKeys : List String :=
  ["hasOwnProperty", "isPrototypeOf", "propertyIsEnumerable", "toLocaleString", "toString",
    "valueOf"]

/-- The rules of packages that know decimal indexes and paths with dots. -/
def plainRules : PathRules where
  index := digitsIndex
  fills := false
  strict := true
  keysOf s := (s.toList.splitOn '.').map String.ofList
  isIndex key := (digitsIndex key).isSome
  assigns keys :=
    keys.all (fun key => key ∉ ["__proto__", "constructor", "prototype"]) &&
      keys.dropLast.all fun key => key ∉ inheritedKeys

def plainItems : ItemRules := { plainRules with pads := false, slot := digitsIndex }

/-- Packages for which a text is the document itself. -/
def plainPackages : Packages (Option Yaml) (Option Yaml) where
  parseDocument := id
  toString := id
  newline := none
  contents := id
  getIn doc keys := doc.bind (Yaml.getIn digitsIndex keys)
  setIn doc keys v :=
    if keys = [] then some v
    else
      doc.bind fun t => v.bind fun v =>
        (Yaml.writeIn digitsIndex plainItems.fills plainItems.pads v keys t).map some
  deleteIn doc keys :=
    doc.bind fun t =>
      if Yaml.Reaches digitsIndex true keys t then some (some (Yaml.removeIn digitsIndex keys t))
      else none
  set s v :=
    if plainRules.assigns (plainRules.keysOf s) then
      Yaml.buildObject plainRules.isIndex digitsIndex (plainRules.keysOf s) (v.getD (.scalar .null))
    else .map []
  unescapePathComponent := unescapeKey

theorem digitsIndex_zero {key : String} {i : Nat} (h : digitsIndex key = some i) :
    digitsIndex ("0" ++ key) = some i := by
  unfold digitsIndex at h ⊢
  split at h
  · rename_i hdigits
    have hlist : ("0" ++ key).toList = '0' :: key.toList := by simp
    have hne : "0" ++ key ≠ "" := by
      intro hempty
      rw [hempty] at hlist
      exact nomatch hlist
    rw [hlist, List.all_cons, List.foldl_cons, if_pos ⟨hne, by simpa using hdigits.2⟩]
    exact h
  · exact nomatch h

theorem digitsIndex_text {key : String} {i : Nat} (h : digitsIndex key = some i) :
    '/' ∉ key.toList ∧ '~' ∉ key.toList := by
  unfold digitsIndex at h
  split at h
  · rename_i hdigits
    have hall := List.all_eq_true.mp hdigits.2
    constructor
    · exact fun hmem => absurd (hall '/' hmem) (by decide)
    · exact fun hmem => absurd (hall '~' hmem) (by decide)
  · exact nomatch h

theorem plainPackages_setIn {t : Yaml} {keys : List String} (hne : keys ≠ []) (v : Yaml) :
    plainPackages.setIn (some t) keys (some v) =
      (Yaml.writeIn plainRules.index plainRules.fills plainItems.pads v keys t).map some := by
  simp only [plainPackages, if_neg hne, Option.bind_some]
  rfl

theorem plainPackages_set {s : String} (h : plainRules.assigns (plainRules.keysOf s) = true)
    (v : Yaml) : plainPackages.set s (some v) =
      Yaml.buildObject plainRules.isIndex digitsIndex (plainRules.keysOf s) v := by
  simp only [plainPackages, h, if_true, Option.getD_some]

theorem plainRules_keysOf_ne_nil (s : String) : plainRules.keysOf s ≠ [] :=
  fun h => List.splitOn_ne_nil '.' _ (List.map_eq_nil_iff.mp h)

theorem plainPackages_documented : Documented plainPackages plainRules where
  contents_parse := fun h _ => h
  contents_newline := rfl
  getIn := fun _ _ => rfl
  setIn_root := fun _ v => ⟨some v, rfl, rfl⟩
  setIn_maps := by
    rintro doc t keys v rfl hne hmap
    refine ⟨some (Yaml.putIn v keys t), ?_, rfl⟩
    rw [plainPackages_setIn hne, Yaml.writeIn_of_mapped hmap]
    rfl
  setIn_scalar := by
    rintro doc t p s key q (_ | v) rfl hscalar
    · simp [plainPackages]
    · rw [plainPackages_setIn (List.append_ne_nil_of_right_ne_nil p (List.cons_ne_nil key q)),
        Yaml.writeIn_scalar hscalar]
      rfl
  setIn_missing := by
    rintro doc t p key q (_ | v) hfills rfl hnone
    · simp [plainPackages]
    · rw [plainPackages_setIn (List.append_ne_nil_of_right_ne_nil p (List.cons_ne_nil key q)),
        Yaml.writeIn_missing hfills hnone]
      rfl
  setIn_seq := by
    rintro doc doc' t p xs key q (_ | v) rfl hseq hset
    · simp [plainPackages] at hset
    · rw [plainPackages_setIn (List.append_ne_nil_of_right_ne_nil p (List.cons_ne_nil key q))] at hset
      obtain ⟨t', hwrite, rfl⟩ := Option.map_eq_some_iff.mp hset
      obtain ⟨xs', hxs'⟩ := Yaml.writeIn_seq hseq hwrite
      exact ⟨t', xs', rfl, hxs'⟩
  deleteIn := by
    rintro doc t keys rfl _ hreach
    exact ⟨_, if_pos hreach, rfl⟩
  deleteIn_throws := by
    rintro doc t keys rfl hreach
    exact if_neg hreach
  index_alias := by
    intro key i h
    refine ⟨"0" ++ key, ?_, digitsIndex_zero h⟩
    intro heq
    have hlen := congrArg String.length heq
    rw [String.length_append] at hlen
    exact absurd hlen (by simp)
  keysOf_ne_nil := plainRules_keysOf_ne_nil
  set_maps := by
    intro s v hassigns hindex
    rw [plainPackages_set hassigns]
    obtain ⟨key, keys, hkeys⟩ := List.exists_cons_of_ne_nil (plainRules_keysOf_ne_nil s)
    rw [hkeys, List.tail_cons] at hindex
    rw [hkeys, Yaml.buildObject, Yaml.build_of_no_index hindex, Yaml.nest_cons]
  set_array := by
    intro s keys key rest v hassigns hkeys hne hindex hkey
    obtain ⟨k, keys, rfl⟩ := List.exists_cons_of_ne_nil hne
    rw [List.tail_cons] at hindex
    obtain ⟨xs, hxs⟩ : ∃ xs, Yaml.build plainRules.isIndex digitsIndex (keys ++ key :: rest) v =
        Yaml.nest keys (.seq xs) := Yaml.build_of_index hindex hkey rest v
    refine ⟨xs, ?_⟩
    rw [plainPackages_set hassigns, hkeys, List.cons_append, Yaml.buildObject, hxs, Yaml.nest_cons]
  set_unsafe := by
    intro s hassigns
    refine ⟨[], fun v => ?_⟩
    simp [plainPackages, hassigns]
  unescape := rfl

theorem plainPackages_documentedItems : DocumentedItems plainPackages plainItems where
  toDocumented := plainPackages_documented
  setIn := by
    rintro doc t keys v hdoc hne
    obtain rfl : doc = some t := hdoc
    rw [plainPackages_setIn hne, Option.map_map]
    rfl
  set := fun v hassigns => plainPackages_set hassigns v
  index_text := digitsIndex_text

end Kubeapps.Dashboard
