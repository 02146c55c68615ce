/-
  The parameters of a basic form (src/dashboard/src/shared/schema.ts: retrieveBasicFormParams).

  The properties of a schema that are marked with `form` become parameters, also those of the
  objects among the properties, marked or not. A parameter has its value from the default values by
  a path, to which the names of the properties are joined as they are. `flatten_retrieve`: the
  parameters and their children are the marked properties in their order. `formRight_iff`: each has
  its own value, and is read where it is written, exactly if the joined names are read as the names
  again and the path is one of `SetsItems` in the default values.
-/
import Kubeapps.Dashboard.SetItems

namespace Kubeapps.Dashboard

open Kubeapps.Lib

/-! ## Schemas -/

/-- `type` of a property: a name, or several. -/
inductive SchemaType where
  | name (name : String)
  | names (names : List String)
  deriving DecidableEq, Repr

/-- What is read of a property besides its own properties; `form` may be anything that is true. -/
structure SchemaFields where
  type : Option SchemaType
  form : Bool
  default : Option Yaml
  enum : Option (List Yaml)

/-- A schema, with its properties as `Object.keys` lists them; without `properties` it has none. -/
inductive JSONSchema where
  | mk (fields : SchemaFields) (properties : List (String × JSONSchema))

def JSONSchema.fields : JSONSchema → SchemaFields
  | .mk fields _ => fields

/-- `type === "object"`. -/
def JSONSchema.isObject (property : JSONSchema) : Bool :=
  property.fields.type = some (.name "object")

/-- `IBasicFormParam`: the property, of which the form has the `type` too, and what is put to it. -/
inductive BasicFormParam where
  | mk (property : JSONSchema) (path : String) (value : Option Yaml) (enum : Option (List String))
      (children : Option (List BasicFormParam))

namespace BasicFormParam

def property : BasicFormParam → JSONSchema
  | .mk property _ _ _ _ => property

def path : BasicFormParam → String
  | .mk _ path _ _ _ => path

def value : BasicFormParam → Option Yaml
  | .mk _ _ value _ _ => value

end BasicFormParam

section Retrieve

variable {τ Doc : Type} (L : Packages τ Doc) (itemText : Yaml → String) (defaultValues : τ)

mutual

/-- `itemText` is `item?.toString() ?? ""`. -/
def retrieveBasicFormParams : JSONSchema → String → List BasicFormParam
  | .mk _ properties, parentPath => retrieveProperties properties parentPath

/-- The loop over the properties. -/
def retrieveProperties : List (String × JSONSchema) → String → List BasicFormParam
  | [], _ => []
  | (propertyKey, property) :: rest, parentPath =>
      let itemPath := parentPath ++ propertyKey
      let children := retrieveBasicFormParams property (itemPath ++ "/")
      let params :=
        if property.fields.form then
          [.mk property itemPath (getValue L defaultValues itemPath property.fields.default)
            (property.fields.enum.map fun items => items.map itemText)
            (if property.isObject then some children else none)]
        else if property.isObject then children
        else []
      params ++ retrieveProperties rest parentPath

end

end Retrieve

mutual

/-- A parameter and the parameters below it. -/
def flattenParam : BasicFormParam → List BasicFormParam
  | .mk property path value enum none => [.mk property path value enum none]
  | .mk property path value enum (some children) =>
      .mk property path value enum (some children) :: flattenParams children

def flattenParams : List BasicFormParam → List BasicFormParam
  | [] => []
  | p :: ps => flattenParam p ++ flattenParams ps

end

mutual

/-- The marked properties below the keys, each with the names that lead to it. -/
def formProperties : JSONSchema → List String → List (List String × JSONSchema)
  | .mk _ properties, keys => formPropertiesOf properties keys

def formPropertiesOf : List (String × JSONSchema) → List String → List (List String × JSONSchema)
  | [], _ => []
  | (key, property) :: rest, keys =>
      (if property.fields.form then [(keys ++ [key], property)] else []) ++
        (if property.isObject then formProperties property (keys ++ [key]) else []) ++
          formPropertiesOf rest keys

end

/-- The names as they are, with slashes between them. -/
def rawPath (keys : List String) : String := "/".intercalate keys

/-- The names with a slash after each. -/
def rawParent : List String → String
  | [] => ""
  | key :: keys => key ++ "/" ++ rawParent keys

theorem rawPath_append (keys : List String) (key : String) :
    rawPath (keys ++ [key]) = rawParent keys ++ key := by
  unfold rawPath
  induction keys with
  | nil => simp [rawParent]
  | cons k keys ih =>
      obtain ⟨k', rest, hrest⟩ := List.exists_cons_of_ne_nil
        (List.append_ne_nil_of_right_ne_nil keys (List.cons_ne_nil key []))
      rw [List.cons_append, hrest, String.intercalate_cons_cons, ← hrest, ih, rawParent,
        String.append_assoc, String.append_assoc, String.append_assoc]

theorem rawParent_append (keys : List String) (key : String) :
    rawParent (keys ++ [key]) = rawParent keys ++ key ++ "/" := by
  induction keys with
  | nil => simp [rawParent]
  | cons k keys ih =>
      simp only [List.cons_append, rawParent, ih, String.append_assoc]

/-! ## Every marked property is a parameter -/

section Flatten

variable {τ Doc : Type} (L : Packages τ Doc) (itemText : Yaml → String) (defaultValues : τ)

/-- The parameter of the property that the names lead to. -/
def Shows (p : BasicFormParam) (e : List String × JSONSchema) : Prop :=
  e.1 ≠ [] ∧ p.property = e.2 ∧ p.path = rawPath e.1 ∧
    p.value = getValue L defaultValues (rawPath e.1) e.2.fields.default

theorem flattenParams_append (ps qs : List BasicFormParam) :
    flattenParams (ps ++ qs) = flattenParams ps ++ flattenParams qs := by
  induction ps with
  | nil => rfl
  | cons p ps ih => rw [List.cons_append, flattenParams, flattenParams, ih, List.append_assoc]

mutual

/-- **Flattened**, the parameters are the marked properties in their order. -/
theorem flatten_retrieve : ∀ (schema : JSONSchema) (keys : List String),
    List.Forall₂ (Shows L defaultValues)
      (flattenParams (retrieveBasicFormParams L itemText defaultValues schema (rawParent keys)))
      (formProperties schema keys)
  | .mk _ properties, keys => flatten_retrieveProperties properties keys

theorem flatten_retrieveProperties : ∀ (properties : List (String × JSONSchema))
    (keys : List String),
    List.Forall₂ (Shows L defaultValues)
      (flattenParams (retrieveProperties L itemText defaultValues properties (rawParent keys)))
      (formPropertiesOf properties keys)
  | [], _ => .nil
  | (key, property) :: rest, keys => by
      have hbelow := flatten_retrieve property (keys ++ [key])
      rw [rawParent_append] at hbelow
      have hrest := flatten_retrieveProperties rest keys
      rw [retrieveProperties, formPropertiesOf, flattenParams_append]
      refine List.rel_append ?_ hrest
      have hpath := rawPath_append keys key
      cases hform : property.fields.form <;> cases hobject : property.isObject
      · simp [flattenParams]
      · simpa [flattenParams] using hbelow
      · simp [flattenParams, flattenParam, Shows, BasicFormParam.property, BasicFormParam.path,
          BasicFormParam.value, hpath]
      · simpa [flattenParams, flattenParam, Shows, BasicFormParam.property, BasicFormParam.path,
          BasicFormParam.value, hpath] using hbelow

end

end Flatten

/-! ## Names that are read as they are -/

/-- The names have nothing that a path is cut or unescaped at. -/
structure PlainNames (keys : List String) : Prop where
  no_slash : ∀ key ∈ keys, '/' ∉ key.toList
  no_escape : ∀ key ∈ keys, unescapeKey key = key
  /-- A path that begins with a slash would lose it. -/
  first : keys.head? = some "" → keys = [""]

theorem withoutSlash_cases (path : String) :
    withoutSlash path = path ∨ path = "/" ++ withoutSlash path := by
  unfold withoutSlash
  split
  · rename_i rest hlist
    right
    rw [← String.toList_inj, hlist]
    simp
  · exact .inl rfl

/-- The slashes, and with them the tildes, of a text. -/
def slashes (c : Char) : Nat := if c = '/' then 1 else 0

def marks (c : Char) : Nat := if c = '/' ∨ c = '~' then 1 else 0

section Names

variable {τ Doc : Type} {L : Packages τ Doc} {R : PathRules} {keys : List String}

theorem withoutSlash_rawPath (h : PlainNames keys) :
    withoutSlash (rawPath keys) = rawPath keys := by
  cases keys with
  | nil => rfl
  | cons key keys =>
      by_cases hkey : key = ""
      · rw [h.first (congrArg some hkey)]
        rfl
      · apply withoutSlash_of_ne
        obtain ⟨c, cs, hcs⟩ := List.exists_cons_of_ne_nil fun hnil =>
          hkey (String.toList_eq_nil_iff.mp hnil)
        have hc : c ≠ '/' := by
          rintro rfl
          exact h.no_slash key List.mem_cons_self (by rw [hcs]; exact List.mem_cons_self)
        cases keys with
        | nil => simpa [rawPath, hcs] using hc
        | cons key' keys => simpa [rawPath, hcs] using hc

/-- Plain names that are joined are read as the names. -/
theorem Documented.parsePath_rawPath (h : Documented L R) (hne : keys ≠ [])
    (hplain : PlainNames keys) : parsePath L (rawPath keys) = keys := by
  unfold parsePath unescapePath splitPath
  rw [h.unescape, withoutSlash_rawPath hplain, rawPath, split_joined hplain.no_slash hne]
  exact (List.map_congr_left hplain.no_escape).trans (List.map_id keys)

end Names

section Alike

variable {τ Doc : Type} {L : Packages τ Doc} {R : ItemRules} {keys parts : List String}

/-- A name has as many marks as the part that it may be read of, or less. -/
theorem DocumentedItems.marks_le_of_alike (h : DocumentedItems L R) {key part : String}
    (halike : Yaml.Alike R.index key (unescapeKey part)) : weigh marks key ≤ weigh marks part := by
  rcases halike with rfl | ⟨i, hi, _⟩
  · exact weigh_unescapeKey (by decide) part
  · have hzero : weigh marks key = 0 := by
      rw [weigh_eq_zero_iff]
      intro c hc
      have htext := h.index_text hi
      refine if_neg ?_
      rintro (rfl | rfl)
      · exact htext.1 hc
      · exact htext.2 hc
    omega

/-- A name that stands for an index as what is read of it does is read as it is. -/
theorem DocumentedItems.unescapeKey_of_alike (h : DocumentedItems L R) {key : String}
    (halike : Yaml.Alike R.index key (unescapeKey key)) : unescapeKey key = key := by
  rcases halike with heq | ⟨i, hi, _⟩
  · exact heq.symm
  · exact unescapeKey_of_no_tilde (h.index_text hi).2

theorem DocumentedItems.sum_marks_le (h : DocumentedItems L R)
    (halike : List.Forall₂ (fun key part => Yaml.Alike R.index key (unescapeKey part)) keys parts) :
    (keys.map (weigh marks)).sum ≤ (parts.map (weigh marks)).sum := by
  induction halike with
  | nil => exact Nat.le_refl _
  | cons hkey _ ih =>
      have hmarks := h.marks_le_of_alike hkey
      simp only [List.map_cons, List.sum_cons]
      omega

/-- Joined names that are as many as their parts have no slashes. -/
theorem no_slash_of_length (hne : keys ≠ [])
    (hlen : keys.length = (splitAtSlashes (rawPath keys)).length) :
    ∀ key ∈ keys, '/' ∉ key.toList := by
  have hparts : splitAtSlashes (rawPath keys) ≠ [] := by
    intro hnil
    rw [hnil] at hlen
    exact hne (List.length_eq_zero_iff.mp hlen)
  have hone : slashes '/' = 1 := by decide
  have hkeys := weigh_intercalate (f := slashes) hne
  have hpieces := weigh_intercalate (f := slashes) hparts
  have hzero : ((splitAtSlashes (rawPath keys)).map (weigh slashes)).sum = 0 := by
    rw [List.sum_eq_zero_iff_forall_eq_nat, List.forall_mem_map]
    intro part hpart
    rw [weigh_eq_zero_iff]
    intro c hc
    refine if_neg ?_
    rintro rfl
    exact slash_not_mem_of_mem_split hpart hc
  rw [hone] at hkeys hpieces
  rw [intercalate_split, hzero, ← hlen] at hpieces
  have hnone : (keys.map (weigh slashes)).sum = 0 := by
    unfold rawPath at hpieces
    omega
  rw [List.sum_eq_zero_iff_forall_eq_nat, List.forall_mem_map] at hnone
  intro key hkey hslash
  exact absurd (weigh_eq_zero_iff.1 (hnone key hkey) '/' hslash) (by decide)

/-- Joined names that are read as the names, but for texts of indexes, are plain. -/
theorem DocumentedItems.plainNames_of_alike (h : DocumentedItems L R) (hne : keys ≠ [])
    (halike : List.Forall₂ (Yaml.Alike R.index) keys (parsePath L (rawPath keys))) :
    PlainNames keys := by
  unfold parsePath unescapePath splitPath at halike
  rw [h.unescape, List.forall₂_map_right_iff] at halike
  have hparts : splitAtSlashes (withoutSlash (rawPath keys)) ≠ [] := by
    intro hnil
    rw [hnil] at halike
    exact hne (List.forall₂_nil_right_iff.mp halike)
  rcases withoutSlash_cases (rawPath keys) with hkeep | hcut
  · rw [hkeep] at halike
    have hslash := no_slash_of_length hne halike.length_eq
    rw [rawPath, split_joined hslash hne, List.forall₂_same] at halike
    refine ⟨hslash, fun key hkey => h.unescapeKey_of_alike (halike key hkey), fun hhead => ?_⟩
    obtain ⟨key, rest, rfl⟩ := List.exists_cons_of_ne_nil hne
    obtain rfl := Option.some.inj hhead
    cases rest with
    | nil => rfl
    | cons key' rest =>
        rw [rawPath, String.intercalate_cons_cons, String.empty_append, withoutSlash_slash] at hkeep
        have hlen := congrArg String.length hkeep
        rw [String.length_append] at hlen
        have hone : "/".length = 1 := by decide
        omega
  · -- a slash is lost that the names need
    have hone : marks '/' = 1 := by decide
    have hkeys := weigh_intercalate (f := marks) hne
    have hpieces := weigh_intercalate (f := marks) hparts
    have hle := h.sum_marks_le halike
    have hlen := halike.length_eq
    have hweigh := congrArg (weigh marks) hcut
    rw [weigh_append, weigh_slash, hone] at hweigh
    rw [hone] at hkeys hpieces
    rw [intercalate_split] at hpieces
    unfold rawPath at hweigh hpieces hle hlen
    omega

end Alike

/-! ## When the form is right -/

/-- The parameter has the property's own value, or else its default, and what is written by its
    path is read by it and by the names. -/
structure ParamRight {τ Doc : Type} (L : Packages τ Doc) (defaultValues : τ) (p : BasicFormParam)
    (e : List String × JSONSchema) : Prop where
  property : p.property = e.2
  value : p.value = getValue L defaultValues (pointer e.1) e.2.fields.default
  sets : ∀ v, v ≠ .scalar .null → SetsTo L defaultValues p.path e.1 v

/-- The parameters and their children are the marked properties, in their order, each right. -/
def FormRight {τ Doc : Type} (L : Packages τ Doc) (itemText : Yaml → String) (defaultValues : τ)
    (schema : JSONSchema) : Prop :=
  List.Forall₂ (ParamRight L defaultValues)
    (flattenParams (retrieveBasicFormParams L itemText defaultValues schema ""))
    (formProperties schema [])

/-- What can be said of the second one of each pair. -/
theorem forall₂_iff {α β : Type} {S P : α → β → Prop} {C : β → Prop} {xs : List α} {ys : List β}
    (h : List.Forall₂ S xs ys) (hiff : ∀ x y, S x y → (P x y ↔ C y)) :
    List.Forall₂ P xs ys ↔ ∀ y ∈ ys, C y := by
  induction h with
  | nil => simp
  | cons hxy _ ih => rw [List.forall₂_cons, List.forall_mem_cons, ih, hiff _ _ hxy]

section Form

variable {τ Doc : Type} {L : Packages τ Doc} {R : ItemRules} {itemText : Yaml → String}
  {defaultValues : τ}

theorem DocumentedItems.paramRight_iff (h : DocumentedItems L R) {p : BasicFormParam}
    {e : List String × JSONSchema} (hshows : Shows L defaultValues p e) :
    ParamRight L defaultValues p e ↔
      PlainNames e.1 ∧ SetsItems L R defaultValues (rawPath e.1) := by
  obtain ⟨hne, hproperty, hpath, hvalue⟩ := hshows
  constructor
  · intro hright
    have hsets := hright.sets
    rw [hpath] at hsets
    obtain ⟨hitems, halike⟩ := h.items_of_setsTo hne hsets
    exact ⟨h.plainNames_of_alike hne halike, hitems⟩
  · rintro ⟨hplain, hitems⟩
    have hread := h.parsePath_rawPath hne hplain
    refine ⟨hproperty, ?_, fun v hv => ?_⟩
    · rw [hvalue]
      unfold getValue
      rw [hread, h.parsePath_eq (.absolute hne)]
    · have hsets := h.setsTo_of_setsItems hitems hv
      rwa [hread, ← hpath] at hsets

/-- **The basic form.** For every schema and every default values: flattened, the parameters are
    the marked properties in their order, each with its own value and read where it is written,
    exactly if the names that lead to each are plain and a value can be written by its path. -/
theorem formRight_iff (h : DocumentedItems L R) (schema : JSONSchema) :
    FormRight L itemText defaultValues schema ↔ ∀ e ∈ formProperties schema [],
      PlainNames e.1 ∧ SetsItems L R defaultValues (rawPath e.1) :=
  forall₂_iff (flatten_retrieve L itemText defaultValues schema [])
    fun _ _ hshows => h.paramRight_iff hshows

end Form

/-- A property of type `type` without properties of its own. -/
def leafProperty (type : String) : JSONSchema := .mk ⟨some (.name type), true, none, none⟩ []

/-- An object with one property, which is marked. -/
def objectOf (key : String) : JSONSchema :=
  .mk ⟨some (.name "object"), false, none, none⟩ [(key, leafProperty "string")]

/-- `user`, `db/name` and `hosts/0`, marked. -/
def userSchema : JSONSchema :=
  .mk ⟨none, false, none, none⟩
    [("user", leafProperty "string"), ("db", objectOf "name"), ("hosts", objectOf "0")]

/-- `user: andres` and `hosts: [a]`. -/
def userValues : Yaml :=
  .map [(.str "user", .scalar (.str "andres")), (.str "hosts", .seq [.scalar (.str "a")])]

/-- Also below a name that is missing, and for the item of a sequence. -/
theorem formRight_user :
    FormRight plainPackages (fun _ => "") (some userValues) userSchema := by
  refine (formRight_iff plainPackages_documentedItems userSchema).2 ?_
  have huser : PlainNames ["user"] ∧
      SetsItems plainPackages plainItems (some userValues) (rawPath ["user"]) := by
    refine ⟨⟨by decide, by decide, by decide⟩, ⟨nofun, ?_, fun _ hnone => ?_⟩⟩
    · rintro t parent ⟨⟩ _
      decide
    · exact absurd hnone (by decide)
  have hname : PlainNames ["db", "name"] ∧
      SetsItems plainPackages plainItems (some userValues) (rawPath ["db", "name"]) := by
    have hnone : plainPackages.getIn (some userValues)
        (splitPath (rawPath ["db", "name"])).dropLast = none := by decide
    refine ⟨⟨by decide, by decide, by decide⟩,
      ⟨nofun, fun _ hparent => (nomatch hnone.symm.trans hparent), ?_⟩⟩
    rintro t ⟨⟩ _
    have hkeys : plainRules.keysOf "name" = ["name"] := by decide
    have hreads : plainItems.Reads "name" ["name"] := by
      refine ⟨by decide, ?_⟩
      show Yaml.Finds plainRules.isIndex digitsIndex digitsIndex ["name"] (plainRules.keysOf "name")
      rw [hkeys]
      exact ⟨rfl, .nil⟩
    exact ⟨by decide, hreads⟩
  have hhost : PlainNames ["hosts", "0"] ∧
      SetsItems plainPackages plainItems (some userValues) (rawPath ["hosts", "0"]) := by
    refine ⟨⟨by decide, by decide, by decide⟩, ⟨nofun, ?_, fun _ hnone => ?_⟩⟩
    · rintro t parent ⟨⟩ _
      decide
    · exact absurd hnone (by decide)
  show ∀ e ∈ [(["user"], leafProperty "string"), (["db", "name"], leafProperty "string"),
    (["hosts", "0"], leafProperty "string")], _
  exact List.forall_mem_cons.mpr
    ⟨huser, List.forall_mem_cons.mpr ⟨hname, List.forall_mem_singleton.mpr hhost⟩⟩

/-- `a/b`, marked. -/
def slashSchema : JSONSchema := .mk ⟨none, false, none, none⟩ [("a/b", leafProperty "string")]

/-- `a/b: x`. -/
def slashValues : Yaml := .map [(.str "a/b", .scalar (.str "x"))]

/-- The value of a property with a slash in its name is not found. -/
theorem retrieve_slash :
    (retrieveBasicFormParams plainPackages (fun _ => "") (some slashValues) slashSchema "").map
        BasicFormParam.value = [none] ∧
      getValue plainPackages (some slashValues) (pointer ["a/b"]) none =
        some (.scalar (.str "x")) ∧
      ¬ FormRight plainPackages (fun _ => "") (some slashValues) slashSchema := by
  refine ⟨rfl, rfl, fun hright => ?_⟩
  cases hright with
  | cons hparam _ => exact nomatch hparam.value

end Kubeapps.Dashboard
