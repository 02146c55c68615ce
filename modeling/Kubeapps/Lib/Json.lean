/-
  JSON values. The fields of an object are in the order in which they are written, and a number is
  its text.

  `object` is what `JSON.stringify` makes of an object literal: a field that is undefined is left
  out. `unmarshalString` and the others are what `encoding/json` stores in a variable that has a
  value already; null stores nothing, except that it empties a slice.
-/
import Mathlib.Algebra.Group.Nat.Defs
import Kubeapps.Lib.Go

namespace Kubeapps.Lib

inductive Json where
  | null
  | bool (b : Bool)
  | num (text : String)
  | str (s : String)
  | arr (elems : List Json)
  | obj (fields : List (String × Json))

namespace Json

/-- An object literal. -/
def object (fields : List (String × Option Json)) : Json :=
  .obj (fields.filterMap fun (key, value) => value.map fun v => (key, v))

def strings (ss : List String) : Json := .arr (ss.map .str)

/-- An object whose values are strings. -/
def stringMap (fields : List (String × String)) : Json :=
  .obj (fields.map fun (key, value) => (key, .str value))

/-! ## `encoding/json` -/

/-- The characters that `foldFunc` takes for one: a letter in both cases, the Kelvin sign and the
    long s. -/
def foldChar (c : Char) : Char :=
  if c = Char.ofNat 0x212a then 'k'
  else if c = Char.ofNat 0x17f then 's'
  else c.toLower

/-- Whether a key of an object names the field with this tag. -/
def names (key tag : String) : Bool :=
  key.toList.map foldChar = tag.toList.map foldChar

/-- A field of a struct: its tag, and how a value is stored in it. -/
structure Field (σ : Type) where
  tag : String
  set : σ → Json → Except String σ

/-- Store the values of an object in the fields that their keys name, in order. A key that names
    no field is ignored. -/
def unmarshalStruct {σ : Type} (struct : List (Field σ)) (old : σ) (fields : List (String × Json)) :
    Except String σ :=
  fields.foldlM (fun st (key, v) =>
    match struct.find? fun field => names key field.tag with
    | some field => field.set st v
    | none => .ok st) old

/-- `UnmarshalTypeError`. -/
def typeError (v : Json) (field type : String) : String :=
  let value :=
    match v with
    | .null => "null"
    | .bool _ => "bool"
    | .num text => if type = "uint" then "number " ++ text else "number"
    | .str _ => "string"
    | .arr _ => "array"
    | .obj _ => "object"
  "json: cannot unmarshal " ++ value ++ " into Go struct field " ++ field ++ " of type " ++ type

def unmarshalString (field : String) (old : String) : Json → Except String String
  | .null => .ok old
  | .str s => .ok s
  | v => .error (typeError v field "string")

def unmarshalBool (field : String) (old : Bool) : Json → Except String Bool
  | .null => .ok old
  | .bool b => .ok b
  | v => .error (typeError v field "bool")

def unmarshalUint (field : String) (old : Nat) : Json → Except String Nat
  | .null => .ok old
  | .num text =>
      let n := Nat.ofDigitChars 10 text.toList 0
      if text.toList.all Char.isDigit = true ∧ n < 2 ^ 64 then .ok n
      else .error (typeError (.num text) field "uint")
  | v => .error (typeError v field "uint")

def unmarshalStrings (field : String) : Json → Except String (List String)
  | .null => .ok []
  | .arr elems => elems.mapM (unmarshalString field "")
  | v => .error (typeError v field "[]string")

/-- The entries of a map of strings with one more; a key that is there gets the new value. -/
def putEntry (entries : List (String × String)) (key value : String) : List (String × String) :=
  if entries.any (·.1 == key) then
    entries.map fun entry => if entry.1 = key then (key, value) else entry
  else entries ++ [(key, value)]

def unmarshalStringMap (field : String) (old : List (String × String)) :
    Json → Except String (List (String × String))
  | .null => .ok []
  | .obj fields => fields.foldlM (fun entries (key, v) => do
      return putEntry entries key (← unmarshalString field "" v)) old
  | v => .error (typeError v field "map[string]string")

/-- The fields of an object literal, undefined ones among them. -/
def setOptional {σ : Type} (struct : List (Field σ)) (st : σ) :
    String × Option Json → Except String σ
  | (_, none) => .ok st
  | (key, some v) => unmarshalStruct struct st [(key, v)]

/-- No two fields are named by the same key. -/
def DistinctTags {σ : Type} (struct : List (Field σ)) : Prop :=
  (struct.map Field.tag).Pairwise fun tag tag' => names tag' tag = false

theorem names_self (tag : String) : names tag tag = true := decide_eq_true rfl

theorem find?_tag {σ : Type} {struct : List (Field σ)} (hdistinct : DistinctTags struct) {i : Nat}
    (hi : i < struct.length) :
    (struct.find? fun field => names struct[i].tag field.tag) = some struct[i] := by
  rw [List.find?_eq_some_iff_getElem]
  refine ⟨names_self _, i, hi, rfl, ?_⟩
  intro j hj
  unfold DistinctTags at hdistinct
  rw [List.pairwise_map, List.pairwise_iff_getElem] at hdistinct
  rw [hdistinct j i _ hi hj]
  rfl

/-- The tag of a field sets the field. -/
theorem setOptional_tag {σ : Type} {struct : List (Field σ)} (hdistinct : DistinctTags struct)
    {i : Nat} (hi : i < struct.length) (st : σ) (v : Json) :
    setOptional struct st (struct[i].tag, some v) = struct[i].set st v := by
  show (match struct.find? fun field => names struct[i].tag field.tag with
    | some field => field.set st v
    | none => Except.ok st) >>= Except.ok = _
  rw [find?_tag hdistinct hi]
  exact bind_pure _

/-- A key that names no field sets nothing. -/
theorem setOptional_unknown {σ : Type} {struct : List (Field σ)} {key : String}
    (h : ∀ tag ∈ struct.map Field.tag, names key tag = false) (st : σ) (value : Option Json) :
    setOptional struct st (key, value) = .ok st := by
  cases value with
  | none => rfl
  | some v =>
      have hnone : (struct.find? fun field => names key field.tag) = none := by
        rw [List.find?_eq_none]
        intro field hfield hnames
        rw [h field.tag (List.mem_map_of_mem hfield)] at hnames
        exact Bool.noConfusion hnames
      show (match struct.find? fun field => names key field.tag with
        | some field => field.set st v
        | none => Except.ok st) >>= Except.ok = _
      rw [hnone]
      rfl

theorem unmarshalStruct_cons {σ : Type} (struct : List (Field σ)) (old : σ)
    (entry : String × Json) (fields : List (String × Json)) :
    unmarshalStruct struct old (entry :: fields) =
      unmarshalStruct struct old [entry] >>= fun st => unmarshalStruct struct st fields := by
  unfold unmarshalStruct
  rw [List.foldlM_cons, List.foldlM_cons, bind_assoc]
  rfl

/-- An object literal is stored field by field. -/
theorem unmarshalStruct_object {σ : Type} (struct : List (Field σ)) (old : σ)
    (fields : List (String × Option Json)) :
    unmarshalStruct struct old (fields.filterMap fun (key, value) => value.map fun v => (key, v)) =
      fields.foldlM (setOptional struct) old := by
  induction fields generalizing old with
  | nil => rfl
  | cons entry fields ih =>
      obtain ⟨key, value⟩ := entry
      rw [List.foldlM_cons]
      cases value with
      | none => exact ih old
      | some v =>
          show unmarshalStruct struct old ((key, v) :: _) = _
          rw [unmarshalStruct_cons]
          congr 1
          funext st
          exact ih st

theorem unmarshalStrings_strings (field : String) (ss : List String) :
    unmarshalStrings field (strings ss) = .ok ss := by
  show (ss.map Json.str).mapM (unmarshalString field "") = .ok ss
  induction ss with
  | nil => rfl
  | cons s ss ih =>
      rw [List.map_cons, List.mapM_cons, ih]
      rfl

theorem putEntry_of_not_mem {entries : List (String × String)} {key : String}
    (h : key ∉ entries.map Prod.fst) (value : String) :
    putEntry entries key value = entries ++ [(key, value)] := by
  unfold putEntry
  apply if_neg
  rw [List.any_eq_true]
  intro ⟨entry, hentry, hkey⟩
  exact h (List.mem_map.mpr ⟨entry, hentry, eq_of_beq hkey⟩)

/-- Entries with keys of their own are stored as they are. -/
theorem unmarshalStringMap_stringMap (field : String) (old : List (String × String))
    {entries : List (String × String)}
    (h : ((old ++ entries).map Prod.fst).Nodup) :
    unmarshalStringMap field old (stringMap entries) = .ok (old ++ entries) := by
  show (entries.map fun entry => (entry.1, Json.str entry.2)).foldlM _ old = _
  induction entries generalizing old with
  | nil =>
      rw [List.append_nil]
      rfl
  | cons entry entries ih =>
      have hnot : entry.1 ∉ old.map Prod.fst := by
        intro hmem
        rw [List.map_append, List.nodup_append] at h
        exact h.2.2 entry.1 hmem entry.1 List.mem_cons_self rfl
      rw [List.map_cons, List.foldlM_cons]
      show ((entries.map fun entry => (entry.1, Json.str entry.2)).foldlM _
        (putEntry old entry.1 entry.2)) = _
      rw [putEntry_of_not_mem hnot]
      have hrest := ih (old ++ [entry]) (by rwa [List.append_assoc])
      rw [List.append_assoc] at hrest
      exact hrest

end Json

end Kubeapps.Lib
