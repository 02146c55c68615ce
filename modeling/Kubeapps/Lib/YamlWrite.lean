/-
  Writing by a path of string keys, through the maps and the sequences of a YAML document.

  `setChild` puts a node where a key leads to: to a map any key, to a sequence the text of an index.
  `writeIn` does it at the end of a path, and fails at a scalar and at what is missing on the way
  (unless `fills`, then missing maps are made). An item beyond the end of a sequence has nulls put
  before it (`pads`), or else it is the next one after the last. `writable_iff`: a value is read
  where it was written exactly if each key is taken by the collection it comes to. On a path through
  maps this is `putIn` (`writeIn_of_mapped`).

  `buildObject` is an object made for a path alone, with an array for each key that is an index.

  `exists_alike_of_reads` and `leads_of_reads` say where else a written value is read: only by keys
  that stand for the same indexes.
-/
import Kubeapps.Lib.YamlPath
import Mathlib.Data.List.Forall2

namespace Kubeapps.Lib

namespace Yaml

/-! ## One key -/

section Child

variable (index : String → Option Nat) (pads : Bool)

/-- The items with one at the index. -/
def setItem (i : Nat) (c : Yaml) (xs : List Yaml) : List Yaml :=
  if i < xs.length then xs.set i c
  else xs ++ (if pads then List.replicate (i - xs.length) (.scalar .null) else []) ++ [c]

/-- Put a node where the key leads to. -/
def setChild (key : String) (c : Yaml) : Yaml → Option Yaml
  | .map m => some (.map (put key c m))
  | .seq xs => (index key).map fun i => .seq (setItem pads i c xs)
  | .scalar _ => none

/-- What is put there is there. -/
def Takes (key : String) : Yaml → Prop
  | .map _ => True
  | .seq xs =>
      match index key with
      | some i => i ≤ xs.length ∨ pads = true
      | none => False
  | .scalar _ => False

instance decTakes (key : String) : (t : Yaml) → Decidable (Takes index pads key t)
  | .map _ => isTrue trivial
  | .seq xs =>
      match h : index key with
      | some i => decidable_of_iff (i ≤ xs.length ∨ pads = true) (by simp only [Takes, h])
      | none => isFalse (by simp only [Takes, h, not_false_eq_true])
  | .scalar _ => isFalse fun h => h

/-- Two keys that are one, or stand for one index. -/
def Alike (key' key : String) : Prop :=
  key' = key ∨ ∃ i, index key' = some i ∧ index key = some i

variable {index pads} {i j : Nat} {key key' : String} {t t' c : Yaml} {xs : List Yaml}

theorem getElem?_setItem_self (h : i ≤ xs.length ∨ pads = true) (c : Yaml) :
    (setItem pads i c xs)[i]? = some c := by
  unfold setItem
  by_cases hi : i < xs.length
  · rw [if_pos hi]
    exact List.getElem?_set_self hi
  · rw [if_neg hi]
    rcases h with h | h
    · have hlen : i = xs.length := by omega
      cases pads <;> simp [hlen]
    · rw [if_pos h, List.append_assoc, List.getElem?_append_right (by omega),
        List.getElem?_append_right (by simp)]
      simp

/-- The other items stay, but for nulls. -/
theorem getElem?_setItem_of_ne (h : i ≤ xs.length ∨ pads = true) (hne : j ≠ i) (c : Yaml) :
    (setItem pads i c xs)[j]? = xs[j]? ∨ (setItem pads i c xs)[j]? = some (.scalar .null) := by
  unfold setItem
  by_cases hi : i < xs.length
  · rw [if_pos hi]
    exact .inl (List.getElem?_set_ne (Ne.symm hne))
  · rw [if_neg hi, List.append_assoc]
    by_cases hj : j < xs.length
    · exact .inl (List.getElem?_append_left hj)
    · have hnone : xs[j]? = none := List.getElem?_eq_none (by omega)
      rw [hnone, List.getElem?_append_right (by omega)]
      cases pads with
      | false =>
          have hlen : i ≤ xs.length := h.resolve_right Bool.false_ne_true
          refine .inl (List.getElem?_eq_none ?_)
          simp
          omega
      | true =>
          rw [if_pos rfl]
          by_cases hpad : j < i
          · rw [List.getElem?_append_left (by simp; omega)]
            exact .inr (List.getElem?_replicate_of_lt (by omega))
          · refine .inl (List.getElem?_eq_none ?_)
            simp
            omega

/-- An item that is not padded is not where it was put. -/
theorem getElem?_setItem_of_not (h : ¬ (i ≤ xs.length ∨ pads = true)) (c : Yaml) :
    (setItem pads i c xs)[i]? = none := by
  obtain ⟨hi, hpads⟩ := not_or.mp h
  unfold setItem
  rw [if_neg (by omega), if_neg hpads]
  refine List.getElem?_eq_none ?_
  simp
  omega

theorem child_setChild (h : Takes index pads key t) (c : Yaml) :
    ∃ t', setChild index pads key c t = some t' ∧ child index key t' = some c := by
  cases t with
  | scalar s => exact h.elim
  | map m => exact ⟨_, rfl, get_put_self key c m⟩
  | seq xs =>
      cases hi : index key with
      | none => simp only [Takes, hi] at h
      | some i =>
          simp only [Takes, hi] at h
          refine ⟨.seq (setItem pads i c xs), by simp only [setChild, hi, Option.map_some], ?_⟩
          simp only [child, hi, Option.bind_some]
          exact getElem?_setItem_self h c

theorem child_setChild_of_not_takes (h : ¬ Takes index pads key t)
    (hset : setChild index pads key c t = some t') : child index key t' = none := by
  cases t with
  | scalar s => cases hset
  | map m => exact absurd trivial h
  | seq xs =>
      cases hi : index key with
      | none =>
          simp only [setChild, hi, Option.map_none] at hset
          cases hset
      | some i =>
          simp only [Takes, hi] at h
          simp only [setChild, hi, Option.map_some, Option.some.injEq] at hset
          subst hset
          simp only [child, hi, Option.bind_some]
          exact getElem?_setItem_of_not h c

/-- Another key leads to the node that was put, and stands for the same index, or leads to what it
    led to before. -/
theorem child_setChild_cases (h : Takes index pads key t) (key' : String) :
    (Alike index key' key ∧ ∀ {c t'}, setChild index pads key c t = some t' →
      child index key' t' = some c) ∨
    ∀ {c t'}, setChild index pads key c t = some t' →
      child index key' t' = child index key' t ∨ child index key' t' = some (.scalar .null) := by
  cases t with
  | scalar s => exact h.elim
  | map m =>
      by_cases hkey : key' = key
      · subst hkey
        refine .inl ⟨.inl rfl, ?_⟩
        rintro c t' ⟨⟩
        exact get_put_self key' c m
      · refine .inr ?_
        rintro c t' ⟨⟩
        exact .inl (get_put_of_ne hkey c m)
  | seq xs =>
      cases hi : index key with
      | none => simp only [Takes, hi] at h
      | some i =>
          simp only [Takes, hi] at h
          simp only [setChild, hi, Option.map_some, Option.some.injEq]
          cases hj : index key' with
          | none =>
              refine .inr ?_
              rintro c t' rfl
              simp only [child, hj, Option.bind_none, true_or]
          | some j =>
              by_cases hij : j = i
              · subst hij
                refine .inl ⟨.inr ⟨j, hj, hi⟩, ?_⟩
                rintro c t' rfl
                simp only [child, hj, Option.bind_some]
                exact getElem?_setItem_self h c
              · refine .inr ?_
                rintro c t' rfl
                simp only [child, hj, Option.bind_some]
                exact getElem?_setItem_of_ne h hij c

/-- What is there is replaced. -/
theorem takes_of_child (h : child index key t = some c) : Takes index pads key t := by
  cases t with
  | scalar s => cases h
  | map m => trivial
  | seq xs =>
      obtain ⟨i, hi, hx⟩ := Option.bind_eq_some_iff.mp h
      simp only [Takes, hi]
      exact .inl (Nat.le_of_lt (List.getElem?_eq_some_iff.mp hx).1)

theorem isCollection_setChild (h : setChild index pads key c t = some t') :
    t'.isCollection = true := by
  cases t with
  | scalar s => cases h
  | map m =>
      obtain rfl := Option.some.inj h
      rfl
  | seq xs =>
      obtain ⟨i, _, rfl⟩ := Option.map_eq_some_iff.mp h
      rfl

end Child

/-! ## Paths -/

section Path

variable (index : String → Option Nat) (fills pads : Bool)

/-- Write at the end of a path; what is missing on the way is a map that is made, or nothing. -/
def writeIn (v : Yaml) : List String → Yaml → Option Yaml
  | [], _ => some v
  | key :: keys, t =>
      if (child index key t).isSome ∨ keys = [] ∨ fills = true then
        (writeIn v keys ((child index key t).getD (.map []))).bind fun c =>
          setChild index pads key c t
      else none

/-- Each key of the path is taken, and only the last one may be missing unless maps are made. -/
def Writable : List String → Yaml → Prop
  | [], _ => True
  | key :: keys, t =>
      Takes index pads key t ∧ ((child index key t).isSome ∨ keys = [] ∨ fills = true) ∧
        Writable keys ((child index key t).getD (.map []))

instance decWritable : (keys : List String) → (t : Yaml) →
    Decidable (Writable index fills pads keys t)
  | [], _ => isTrue trivial
  | key :: keys, t =>
      @instDecidableAnd _ _ (decTakes index pads key t)
        (@instDecidableAnd _ _ inferInstance (decWritable keys _))

variable {index fills pads} {key : String} {keys keys' p q : List String} {t t' c v : Yaml}
  {m : Entries} {xs : List Yaml}

theorem writeIn_cons_eq_some : writeIn index fills pads v (key :: keys) t = some t' ↔
    ((child index key t).isSome ∨ keys = [] ∨ fills = true) ∧
      ∃ c, writeIn index fills pads v keys ((child index key t).getD (.map [])) = some c ∧
        setChild index pads key c t = some t' := by
  rw [writeIn]
  split
  · rename_i hway
    rw [Option.bind_eq_some_iff]
    exact (and_iff_right hway).symm
  · rename_i hway
    constructor
    · intro h
      cases h
    · exact fun h => absurd h.1 hway

/-- What is read under the end of the path is under the written value. -/
theorem writable_of_getIn_append (hwrite : writeIn index fills pads v keys t = some t')
    (hread : getIn index (keys ++ q) t' = some c) :
    Writable index fills pads keys t ∧ getIn index q v = some c := by
  induction keys generalizing t t' with
  | nil =>
      obtain rfl := Option.some.inj hwrite
      exact ⟨trivial, hread⟩
  | cons key keys ih =>
      obtain ⟨hway, c', hc', ht'⟩ := writeIn_cons_eq_some.1 hwrite
      rw [List.cons_append, getIn_cons] at hread
      by_cases htakes : Takes index pads key t
      · obtain ⟨t'', ht'', hchild⟩ := child_setChild htakes c'
        obtain rfl := Option.some.inj (ht'.symm.trans ht'')
        rw [hchild] at hread
        obtain ⟨hrest, hv⟩ := ih hc' hread
        exact ⟨⟨htakes, hway, hrest⟩, hv⟩
      · rw [child_setChild_of_not_takes htakes ht'] at hread
        cases hread

/-- **What was written is read**, if there is something to read, exactly on a writable path. -/
theorem writable_iff (v : Yaml) : Writable index fills pads keys t ↔
    ∃ t', writeIn index fills pads v keys t = some t' ∧ getIn index keys t' = some v := by
  constructor
  · intro h
    induction keys generalizing t with
    | nil => exact ⟨v, rfl, rfl⟩
    | cons key keys ih =>
        obtain ⟨htakes, hway, hrest⟩ := h
        obtain ⟨c, hc, hread⟩ := ih hrest
        obtain ⟨t', ht', hchild⟩ := child_setChild htakes c
        refine ⟨t', writeIn_cons_eq_some.2 ⟨hway, c, hc, ht'⟩, ?_⟩
        rw [getIn_cons, hchild]
        exact hread
  · rintro ⟨t', hwrite, hread⟩
    rw [← List.append_nil keys] at hread
    exact (writable_of_getIn_append hwrite hread).1

theorem isCollection_writeIn (hne : keys ≠ [])
    (h : writeIn index fills pads v keys t = some t') : t'.isCollection = true := by
  obtain ⟨key, keys, rfl⟩ := List.exists_cons_of_ne_nil hne
  obtain ⟨_, c, _, hset⟩ := writeIn_cons_eq_some.1 h
  exact isCollection_setChild hset

/-! ## Through maps only, and where nothing is written -/

theorem writeIn_of_mapped (h : Mapped fills keys t) (v : Yaml) :
    writeIn index fills pads v keys t = some (putIn v keys t) := by
  induction keys generalizing t with
  | nil => rfl
  | cons key keys ih =>
      obtain ⟨m, rfl⟩ := exists_map h
      refine writeIn_cons_eq_some.2 ⟨?_, _, ih (mapped_tail h), rfl⟩
      show (get key m).isSome ∨ _
      cases hget : get key m with
      | some c => exact .inl rfl
      | none =>
          simp only [Mapped, hget] at h
          exact .inr h

/-- Below a scalar nothing is written. -/
theorem writeIn_scalar {s : Scalar} (h : getIn index p t = some (.scalar s)) (key : String)
    (q : List String) (v : Yaml) : writeIn index fills pads v (p ++ key :: q) t = none := by
  rw [Option.eq_none_iff_forall_ne_some]
  intro t' hwrite
  induction p generalizing t t' with
  | nil =>
      obtain rfl := Option.some.inj h
      obtain ⟨_, c, _, hset⟩ := writeIn_cons_eq_some.1 hwrite
      cases hset
  | cons k p ih =>
      obtain ⟨c, hc, hp⟩ := Option.bind_eq_some_iff.mp h
      obtain ⟨_, c', hc', _⟩ := writeIn_cons_eq_some.1 hwrite
      rw [hc] at hc'
      exact ih hp c' hc'

/-- Below what is missing nothing is written when nothing is made. -/
theorem writeIn_missing (hfills : fills = false) (h : getIn index p t = none) (key : String)
    (q : List String) (v : Yaml) : writeIn index fills pads v (p ++ key :: q) t = none := by
  rw [Option.eq_none_iff_forall_ne_some]
  intro t' hwrite
  induction p generalizing t t' with
  | nil => cases h
  | cons k p ih =>
      obtain ⟨hway, c', hc', _⟩ := writeIn_cons_eq_some.1 hwrite
      rw [getIn_cons] at h
      cases hc : child index k t with
      | some c =>
          rw [hc] at h hc'
          exact ih h c' hc'
      | none =>
          rw [hc, hfills] at hway
          simp at hway

/-- What is written below a sequence leaves it a sequence. -/
theorem writeIn_seq (h : getIn index p t = some (.seq xs)) {key : String}
    (hwrite : writeIn index fills pads v (p ++ key :: q) t = some t') :
    ∃ xs', getIn index p t' = some (.seq xs') := by
  induction p generalizing t t' with
  | nil =>
      obtain rfl := Option.some.inj h
      obtain ⟨_, c, _, hset⟩ := writeIn_cons_eq_some.1 hwrite
      obtain ⟨i, _, rfl⟩ := Option.map_eq_some_iff.mp hset
      exact ⟨_, rfl⟩
  | cons k p ih =>
      obtain ⟨c, hc, hp⟩ := Option.bind_eq_some_iff.mp h
      obtain ⟨_, c', hc', hset⟩ := writeIn_cons_eq_some.1 hwrite
      rw [hc] at hc'
      obtain ⟨xs', hxs'⟩ := ih hp hc'
      obtain ⟨t'', ht'', hchild⟩ := child_setChild (takes_of_child hc) c'
      obtain rfl := Option.some.inj (hset.symm.trans ht'')
      refine ⟨xs', ?_⟩
      rw [getIn_cons, hchild]
      exact hxs'

/-! ## Where else it is read -/

/-- A text that is not there. -/
theorem exists_fresh (o : Option Yaml) : ∃ s, o ≠ some (.scalar (.str s)) := by
  by_contra h
  push Not at h
  have heq := (h "a").symm.trans (h "b")
  exact absurd heq (by simp)

/-- A path that reads every text wherever it is written goes along the keys to the written value. -/
theorem exists_alike_of_reads {W : String → Yaml} (hway : Writable index fills pads keys t)
    (h : ∀ s, ∃ t', writeIn index fills pads (W s) keys t = some t' ∧
      getIn index q t' = some (.scalar (.str s))) :
    ∃ q₁ q₂, q = q₁ ++ q₂ ∧ List.Forall₂ (Alike index) q₁ keys ∧
      ∀ s, getIn index q₂ (W s) = some (.scalar (.str s)) := by
  induction keys generalizing t q with
  | nil =>
      refine ⟨[], q, rfl, .nil, fun s => ?_⟩
      obtain ⟨t', ht', hread⟩ := h s
      obtain rfl := Option.some.inj ht'
      exact hread
  | cons key keys ih =>
      obtain ⟨htakes, _, hrest⟩ := hway
      cases q with
      | nil =>
          -- the whole tree is a collection
          obtain ⟨t', ht', hread⟩ := h ""
          have hcollection := isCollection_writeIn (List.cons_ne_nil key keys) ht'
          obtain rfl := Option.some.inj hread
          cases hcollection
      | cons key' q =>
          rcases child_setChild_cases htakes key' with ⟨halike, hsame⟩ | hother
          · obtain ⟨q₁, q₂, rfl, hq₁, hq₂⟩ := ih (q := q) hrest fun s => by
              obtain ⟨t', ht', hread⟩ := h s
              obtain ⟨_, c, hc, hset⟩ := writeIn_cons_eq_some.1 ht'
              rw [getIn_cons, hsame hset] at hread
              exact ⟨c, hc, hread⟩
            exact ⟨key' :: q₁, q₂, rfl, .cons halike hq₁, hq₂⟩
          · -- the text of such a key was there before
            obtain ⟨s, hs⟩ := exists_fresh (getIn index (key' :: q) t)
            obtain ⟨t', ht', hread⟩ := h s
            obtain ⟨_, c, _, hset⟩ := writeIn_cons_eq_some.1 ht'
            rw [getIn_cons] at hread hs
            rcases hother hset with hchild | hchild
            · exact absurd (hchild ▸ hread) hs
            · rw [hchild] at hread
              cases q with
              | nil => cases hread
              | cons k q => cases hread

end Path

/-! ## Objects for a path alone -/

section Build

variable (isIndex : String → Bool) (slot : String → Option Nat)

/-- The array or the object that a key is put to first; `slot` is the element that an index is. -/
def holder (key : String) (c : Yaml) : Yaml :=
  if isIndex key = true then
    match slot key with
    | some i => .seq (setItem true i c [])
    | none => .seq []
  else .map [(.str key, c)]

def build : List String → Yaml → Yaml
  | [], v => v
  | key :: keys, v => holder isIndex slot key (build keys v)

/-- The object with the value at the keys. -/
def buildObject : List String → Yaml → Yaml
  | [], _ => .map []
  | key :: keys, v => .map [(.str key, build isIndex slot keys v)]

/-- A key reads what is put to the holder of another. -/
def LeadsTo (index : String → Option Nat) (key' key : String) : Prop :=
  if isIndex key = true then ∃ i, index key' = some i ∧ slot key = some i else key' = key

/-- A path reads the value of the object that is made for the keys. -/
def Finds (index : String → Option Nat) : List String → List String → Prop
  | key' :: keys', key :: keys =>
      key' = key ∧ List.Forall₂ (LeadsTo isIndex slot index) keys' keys
  | _, _ => False

variable {isIndex slot} {index : String → Option Nat} {key key' : String}
  {keys keys' keys'' : List String} {v : Yaml}

theorem child_holder (key' key : String) (c : Yaml) :
    (LeadsTo isIndex slot index key' key ∧
      child index key' (holder isIndex slot key c) = some c) ∨
    (¬ LeadsTo isIndex slot index key' key ∧
      (child index key' (holder isIndex slot key c) = none ∨
        child index key' (holder isIndex slot key c) = some (.scalar .null))) := by
  unfold LeadsTo holder
  by_cases hindex : isIndex key = true
  · rw [if_pos hindex, if_pos hindex]
    cases hslot : slot key with
    | none =>
        refine .inr ⟨?_, .inl ?_⟩
        · rintro ⟨_, _, hi⟩
          cases hi
        · cases hj : index key' <;> simp [child, hj]
    | some i =>
        cases hj : index key' with
        | none =>
            refine .inr ⟨?_, .inl ?_⟩
            · rintro ⟨_, hj', _⟩
              cases hj'
            · simp only [child, hj, Option.bind_none]
        | some j =>
            simp only [child, hj, Option.bind_some]
            by_cases hij : j = i
            · subst hij
              exact .inl ⟨⟨j, rfl, rfl⟩, getElem?_setItem_self (.inr rfl) c⟩
            · refine .inr ⟨?_, ?_⟩
              · rintro ⟨k, hk, hk'⟩
                exact hij (Option.some.inj (hk.trans hk'.symm))
              · have hother : (setItem true i c [])[j]? = ([] : List Yaml)[j]? ∨
                    (setItem true i c [])[j]? = some (.scalar .null) :=
                  getElem?_setItem_of_ne (.inr rfl) hij c
                simpa using hother
  · rw [if_neg hindex, if_neg hindex]
    by_cases hkey : key' = key
    · subst hkey
      exact .inl ⟨rfl, get_cons_self []⟩
    · refine .inr ⟨hkey, .inl ?_⟩
      exact get_cons_of_ne (fun heq => hkey (Scalar.str.inj heq).symm) c []

theorem getIn_build (h : List.Forall₂ (LeadsTo isIndex slot index) keys' keys) (v : Yaml) :
    getIn index keys' (build isIndex slot keys v) = some v := by
  induction h with
  | nil => rfl
  | cons hkey _ ih =>
      rcases child_holder _ _ (build isIndex slot _ v) with ⟨_, hchild⟩ | ⟨hnot, _⟩
      · rw [getIn_cons, build, hchild]
        exact ih
      · exact absurd hkey hnot

/-- Nothing else that is put to an object is a text. -/
theorem leads_of_reads {s : String}
    (h : getIn index keys' (build isIndex slot keys (.scalar (.str s))) = some (.scalar (.str s))) :
    List.Forall₂ (LeadsTo isIndex slot index) keys' keys := by
  induction keys generalizing keys' with
  | nil =>
      cases keys' with
      | nil => exact .nil
      | cons key' keys' => cases h
  | cons key keys ih =>
      cases keys' with
      | nil =>
          rw [build, holder] at h
          split at h
          · split at h <;> cases h
          · cases h
      | cons key' keys' =>
          rw [getIn_cons, build] at h
          rcases child_holder key' key (build isIndex slot keys (.scalar (.str s))) with
            ⟨hkey, hchild⟩ | ⟨_, hchild | hchild⟩
          · rw [hchild] at h
            exact .cons hkey (ih h)
          · rw [hchild] at h
            cases h
          · rw [hchild] at h
            cases keys' with
            | nil => cases h
            | cons k keys' => cases h

theorem getIn_buildObject (h : Finds isIndex slot index keys' keys) (v : Yaml) :
    getIn index keys' (buildObject isIndex slot keys v) = some v := by
  cases keys' with
  | nil => exact h.elim
  | cons key' keys' =>
      cases keys with
      | nil => exact h.elim
      | cons key keys =>
          obtain ⟨rfl, htail⟩ := h
          rw [buildObject, getIn_map, get_cons_self]
          exact getIn_build htail v

theorem finds_of_reads {s : String}
    (h : getIn index keys' (buildObject isIndex slot keys (.scalar (.str s))) =
      some (.scalar (.str s))) : Finds isIndex slot index keys' keys := by
  cases keys with
  | nil =>
      cases keys' with
      | nil => cases h
      | cons key' keys' => cases h
  | cons key keys =>
      cases keys' with
      | nil => cases h
      | cons key' keys' =>
          rw [buildObject, getIn_map] at h
          by_cases hkey : key' = key
          · subst hkey
            rw [get_cons_self] at h
            exact ⟨rfl, leads_of_reads h⟩
          · rw [get_cons_of_ne fun heq => hkey (Scalar.str.inj heq).symm] at h
            cases h

/-- Two paths that read one value stand for one. -/
theorem alike_of_leads (h' : List.Forall₂ (LeadsTo isIndex slot index) keys' keys)
    (h'' : List.Forall₂ (LeadsTo isIndex slot index) keys'' keys) :
    List.Forall₂ (Alike index) keys' keys'' := by
  induction h' generalizing keys'' with
  | nil =>
      cases h''
      exact .nil
  | cons hkey' _ ih =>
      cases h'' with
      | cons hkey'' htail =>
          refine .cons ?_ (ih htail)
          unfold LeadsTo at hkey' hkey''
          split at hkey'
          · rename_i hindex
            rw [if_pos hindex] at hkey''
            obtain ⟨i, hi, hslot⟩ := hkey'
            obtain ⟨j, hj, hslot'⟩ := hkey''
            obtain rfl := Option.some.inj (hslot.symm.trans hslot')
            exact .inr ⟨i, hi, hj⟩
          · rename_i hindex
            rw [if_neg hindex] at hkey''
            exact .inl (hkey'.trans hkey''.symm)

theorem alike_of_finds (h' : Finds isIndex slot index keys' keys)
    (h'' : Finds isIndex slot index keys'' keys) :
    List.Forall₂ (Alike index) keys' keys'' := by
  cases keys with
  | nil => cases keys' <;> exact h'.elim
  | cons key keys =>
      cases keys' with
      | nil => exact h'.elim
      | cons key' keys' =>
          cases keys'' with
          | nil => exact h''.elim
          | cons key'' keys'' =>
              exact .cons (.inl (h'.1.trans h''.1.symm)) (alike_of_leads h'.2 h''.2)

/-! ## Without arrays, and with one -/

theorem nest_cons (key : String) (keys : List String) (v : Yaml) :
    nest (key :: keys) v = .map [(.str key, nest keys v)] := rfl

theorem build_of_no_index (h : ∀ key ∈ keys, isIndex key = false) (v : Yaml) :
    build isIndex slot keys v = nest keys v := by
  induction keys with
  | nil => rfl
  | cons key keys ih =>
      obtain ⟨hkey, hkeys⟩ := List.forall_mem_cons.mp h
      rw [build, holder, if_neg (by rw [hkey]; exact Bool.false_ne_true), ih hkeys, nest_cons]

theorem build_of_index (h : ∀ key ∈ keys, isIndex key = false) (hkey : isIndex key = true)
    (rest : List String) (v : Yaml) :
    ∃ xs, build isIndex slot (keys ++ key :: rest) v = nest keys (.seq xs) := by
  induction keys with
  | nil =>
      rw [List.nil_append, build, holder, if_pos hkey]
      split
      · exact ⟨_, rfl⟩
      · exact ⟨_, rfl⟩
  | cons k keys ih =>
      obtain ⟨hk, hkeys⟩ := List.forall_mem_cons.mp h
      obtain ⟨xs, hxs⟩ := ih hkeys
      refine ⟨xs, ?_⟩
      rw [List.cons_append, build, holder, if_neg (by rw [hk]; exact Bool.false_ne_true), hxs,
        nest_cons]

end Build

end Yaml

end Kubeapps.Lib
