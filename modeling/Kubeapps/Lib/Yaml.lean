/-
  YAML documents as trees, and updates of the maps in them.

  A map has no order; it is the list of its entries in the order of their keys, read by string
  keys. `get` finds the first entry of a key, `set` replaces it or adds one where the order puts it,
  `erase` takes the key away. `getMap` follows a path of keys through nested maps, `updateMap`
  updates the map at its end, and `updateMapM` does it with an update that may fail. The laws are
  those of a lens: what is read after a write, that the rest stays, and that two updates of one
  place are one.
-/
import Kubeapps.Lib.Go

namespace Kubeapps.Lib

inductive Scalar where
  | null
  | bool (b : Bool)
  | int (n : Int)
  | float (text : String)
  | str (s : String)
  deriving DecidableEq, Repr

inductive Yaml where
  | scalar (s : Scalar)
  | seq (xs : List Yaml)
  | map (entries : List (Scalar × Yaml))

namespace Yaml

abbrev Entries := List (Scalar × Yaml)

/-- The value of a key. -/
def get (key : String) : Entries → Option Yaml
  | [] => none
  | (k, v) :: rest => if k = .str key then some v else get key rest

/-- The key comes before a key of a map that is listed in the order of its keys. -/
def before (key : String) : Scalar → Bool
  | .str k => key < k
  | _ => false

/-- Replace the value of a key, or add the key at its place. -/
def set (key : String) (new : Yaml) : Entries → Entries
  | [] => [(.str key, new)]
  | (k, v) :: rest =>
      if k = .str key then (k, new) :: rest
      else if before key k && (get key rest).isNone then (.str key, new) :: (k, v) :: rest
      else (k, v) :: set key new rest

/-- Take a key away. -/
def erase (key : String) (m : Entries) : Entries := m.filter fun e => e.1 ≠ .str key

/-- The map at the end of a path of keys. -/
def getMap : List String → Entries → Option Entries
  | [], m => some m
  | key :: keys, m =>
      match get key m with
      | some (.map m') => getMap keys m'
      | _ => none

/-- Update the map at the end of a path, if there is one. -/
def updateMap (f : Entries → Entries) : List String → Entries → Entries
  | [], m => f m
  | key :: keys, m =>
      match get key m with
      | some (.map m') => set key (.map (updateMap f keys m')) m
      | _ => m

/-- `updateMap` with an update that may fail. -/
def updateMapM {ε : Type} (f : Entries → Except ε Entries) :
    List String → Entries → Except ε Entries
  | [], m => f m
  | key :: keys, m =>
      match get key m with
      | some (.map m') => do return set key (.map (← updateMapM f keys m')) m
      | _ => return m

section Keys

variable {key key' : String} {k : Scalar} {v w : Yaml} {m rest : Entries}

theorem get_cons_self (rest : Entries) : get key ((.str key, v) :: rest) = some v := if_pos rfl

theorem get_cons_of_ne (h : k ≠ .str key) (v : Yaml) (rest : Entries) :
    get key ((k, v) :: rest) = get key rest := if_neg h

/-- A recursion on the tree may go on with the value of a key. -/
theorem sizeOf_get (h : get key m = some v) : sizeOf v < sizeOf m := by
  induction m with
  | nil => exact nomatch h
  | cons e rest ih =>
      obtain ⟨k, v'⟩ := e
      by_cases hk : k = .str key
      · subst hk
        rw [get_cons_self] at h
        rw [Option.some.inj h]
        simp only [List.cons.sizeOf_spec, Prod.mk.sizeOf_spec]
        omega
      · rw [get_cons_of_ne hk] at h
        have := ih h
        simp only [List.cons.sizeOf_spec]
        omega

theorem set_cons_self (new : Yaml) (rest : Entries) :
    set key new ((.str key, v) :: rest) = (.str key, new) :: rest := if_pos rfl

theorem set_cons_before (h : k ≠ .str key) (hplace : (before key k && (get key rest).isNone) = true)
    (new : Yaml) : set key new ((k, v) :: rest) = (.str key, new) :: (k, v) :: rest :=
  (if_neg h).trans (if_pos hplace)

theorem set_cons_after (h : k ≠ .str key) (hplace : (before key k && (get key rest).isNone) ≠ true)
    (new : Yaml) : set key new ((k, v) :: rest) = (k, v) :: set key new rest :=
  (if_neg h).trans (if_neg hplace)

/-- A key that the rest has is not added before it. -/
theorem set_cons_of_get (h : k ≠ .str key) (hrest : get key rest = some w) (new : Yaml) :
    set key new ((k, v) :: rest) = (k, v) :: set key new rest := by
  apply set_cons_after h
  rw [hrest]
  simp

/-- The induction that follows `set`: the key is found, is added, or is in the rest. -/
theorem set_induction {P : Entries → Prop} (key : String) (hnil : P [])
    (hself : ∀ v rest, P ((.str key, v) :: rest))
    (hbefore : ∀ k v rest, k ≠ .str key → (before key k && (get key rest).isNone) = true →
      P ((k, v) :: rest))
    (hafter : ∀ k v rest, k ≠ .str key → (before key k && (get key rest).isNone) ≠ true →
      P rest → P ((k, v) :: rest)) (m : Entries) : P m := by
  induction m with
  | nil => exact hnil
  | cons e rest ih =>
      obtain ⟨k, v⟩ := e
      by_cases hk : k = .str key
      · rw [hk]
        exact hself v rest
      · by_cases hplace : (before key k && (get key rest).isNone) = true
        · exact hbefore k v rest hk hplace
        · exact hafter k v rest hk hplace ih

@[simp] theorem get_set_self (key : String) (v : Yaml) (m : Entries) :
    get key (set key v m) = some v := by
  apply set_induction (P := fun m => get key (set key v m) = some v) key
  · exact get_cons_self []
  · intro v' rest
    rw [set_cons_self, get_cons_self]
  · intro k v' rest hk hplace
    rw [set_cons_before hk hplace, get_cons_self]
  · intro k v' rest hk hplace ih
    rw [set_cons_after hk hplace, get_cons_of_ne hk, ih]

theorem get_set_of_ne (h : key' ≠ key) (v : Yaml) (m : Entries) :
    get key' (set key v m) = get key' m := by
  have hne : Scalar.str key ≠ .str key' := fun heq => h (Scalar.str.inj heq).symm
  apply set_induction (P := fun m => get key' (set key v m) = get key' m) key
  · exact get_cons_of_ne hne v []
  · intro v' rest
    rw [set_cons_self, get_cons_of_ne hne, get_cons_of_ne hne]
  · intro k v' rest hk hplace
    rw [set_cons_before hk hplace, get_cons_of_ne hne]
  · intro k v' rest hk hplace ih
    rw [set_cons_after hk hplace]
    unfold get
    rw [ih]

theorem set_set (key : String) (v w : Yaml) (m : Entries) :
    set key w (set key v m) = set key w m := by
  apply set_induction (P := fun m => set key w (set key v m) = set key w m) key
  · exact set_cons_self w []
  · intro v' rest
    rw [set_cons_self, set_cons_self, set_cons_self]
  · intro k v' rest hk hplace
    rw [set_cons_before hk hplace, set_cons_self, set_cons_before hk hplace]
  · intro k v' rest hk hplace ih
    rw [set_cons_after hk hplace, set_cons_of_get hk (get_set_self key v rest), ih,
      set_cons_after hk hplace]

theorem erase_cons_self (v : Yaml) (rest : Entries) :
    erase key ((.str key, v) :: rest) = erase key rest := List.filter_cons_of_neg (by simp)

theorem erase_cons_of_ne (h : k ≠ .str key) (v : Yaml) (rest : Entries) :
    erase key ((k, v) :: rest) = (k, v) :: erase key rest :=
  List.filter_cons_of_pos (by simpa using h)

theorem erase_set (key : String) (v : Yaml) (m : Entries) :
    erase key (set key v m) = erase key m := by
  apply set_induction (P := fun m => erase key (set key v m) = erase key m) key
  · exact erase_cons_self v []
  · intro v' rest
    rw [set_cons_self, erase_cons_self, erase_cons_self]
  · intro k v' rest hk hplace
    rw [set_cons_before hk hplace, erase_cons_self]
  · intro k v' rest hk hplace ih
    rw [set_cons_after hk hplace, erase_cons_of_ne hk, erase_cons_of_ne hk, ih]

end Keys

/-! ## Paths -/

section Paths

variable {keys : List String} {m p : Entries} {f g : Entries → Entries}

theorem updateMap_cons {key : String} {m' : Entries} (h : get key m = some (.map m')) :
    updateMap f (key :: keys) m = set key (.map (updateMap f keys m')) m := by
  simp only [updateMap, h]

theorem getMap_cons {key : String} {m' : Entries} (h : get key m = some (.map m')) :
    getMap (key :: keys) m = getMap keys m' := by
  simp only [getMap, h]

/-- A path that is there begins with a key that has a map. -/
theorem getMap_cons_eq_some {key : String} (h : getMap (key :: keys) m = some p) :
    ∃ m', get key m = some (.map m') ∧ getMap keys m' = some p := by
  unfold getMap at h
  split at h
  · rename_i m' hm'
    exact ⟨m', hm', h⟩
  · exact nomatch h

/-- What is at the end of the path after the update. -/
theorem getMap_updateMap (h : getMap keys m = some p) (f : Entries → Entries) :
    getMap keys (updateMap f keys m) = some (f p) := by
  induction keys generalizing m with
  | nil => rw [← Option.some.inj h]; rfl
  | cons key keys ih =>
      obtain ⟨m', hm', hp⟩ := getMap_cons_eq_some h
      rw [updateMap_cons hm', getMap_cons (get_set_self key _ m)]
      exact ih hp

theorem updateMap_updateMap (h : getMap keys m = some p) (f g : Entries → Entries) :
    updateMap g keys (updateMap f keys m) = updateMap (g ∘ f) keys m := by
  induction keys generalizing m with
  | nil => rfl
  | cons key keys ih =>
      obtain ⟨m', hm', hp⟩ := getMap_cons_eq_some h
      rw [updateMap_cons hm', updateMap_cons (get_set_self key _ m), set_set, ih hp,
        updateMap_cons hm']

/-- The other keys stay. -/
theorem get_updateMap_of_ne {key key' : String} (hne : key' ≠ key) (f : Entries → Entries)
    (keys : List String) (m : Entries) :
    get key' (updateMap f (key :: keys) m) = get key' m := by
  unfold updateMap
  split
  · exact get_set_of_ne hne _ m
  · rfl

/-- The update that may fail, where it does not. -/
theorem updateMapM_ok {ε : Type} {f : Entries → Except ε Entries} (h : getMap keys m = some p)
    (hf : f p = .ok (g p)) : updateMapM f keys m = .ok (updateMap g keys m) := by
  induction keys generalizing m with
  | nil =>
      rw [← Option.some.inj h] at hf
      exact hf
  | cons key keys ih =>
      obtain ⟨m', hm', hp⟩ := getMap_cons_eq_some h
      unfold updateMapM
      rw [hm', updateMap_cons hm']
      dsimp only
      rw [ih hp]
      rfl

theorem updateMapM_error {ε : Type} {f : Entries → Except ε Entries} {e : ε}
    (h : getMap keys m = some p) (hf : f p = .error e) : updateMapM f keys m = .error e := by
  induction keys generalizing m with
  | nil =>
      rw [← Option.some.inj h] at hf
      exact hf
  | cons key keys ih =>
      obtain ⟨m', hm', hp⟩ := getMap_cons_eq_some h
      unfold updateMapM
      rw [hm']
      dsimp only
      rw [ih hp]
      rfl

end Paths

end Yaml

end Kubeapps.Lib
