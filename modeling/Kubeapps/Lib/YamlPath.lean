/-
  Paths of string keys through a YAML document.

  A key leads from a map to the value of the key, and from a sequence to the item whose index it
  is the text of; `index` reads these texts. `getIn` follows a path. `putIn` writes at the end of a
  path through maps and makes the maps that are missing; `Mapped` says that the path is one. It is
  a lens: what is read after the write is what was written (`getIn_putIn`), and what is on no path
  with it stays (`getIn_putIn_of_unrelated`). `removeIn` takes away what is at the end of a path,
  through maps and sequences; a shorter path takes away the same only if neither takes away
  anything (`removeIn_eq_append_iff`).
-/
import Kubeapps.Lib.Yaml

namespace Kubeapps.Lib

/-- Neither path goes on from the other. -/
def Unrelated (p q : List String) : Prop := ¬ p <+: q ∧ ¬ q <+: p

namespace Unrelated

variable {p q r : List String} {key : String}

theorem symm (h : Unrelated p q) : Unrelated q p := ⟨h.2, h.1⟩

theorem ne_nil (h : Unrelated p q) : p ≠ [] := by
  rintro rfl
  exact h.1 List.nil_prefix

theorem append_iff : Unrelated (r ++ p) (r ++ q) ↔ Unrelated p q := by
  unfold Unrelated
  rw [List.prefix_append_right_inj, List.prefix_append_right_inj]

theorem cons_iff : Unrelated (key :: p) (key :: q) ↔ Unrelated p q := append_iff (r := [key])

/-- Two paths part at a key, or one of them goes on from the other. -/
theorem of_ne {k k' : String} (h : k ≠ k') (r p q : List String) :
    Unrelated (r ++ k :: p) (r ++ k' :: q) := by
  rw [append_iff]
  constructor
  · exact fun hp => h (List.cons_prefix_cons.mp hp).1
  · exact fun hq => h (List.cons_prefix_cons.mp hq).1.symm

end Unrelated

namespace Yaml

/-- The document is a map or a sequence. -/
def isCollection : Yaml → Bool
  | .scalar _ => false
  | .seq _ => true
  | .map _ => true

/-! ## Reading -/

section Read

variable (index : String → Option Nat)

/-- What a key leads to. -/
def child (key : String) : Yaml → Option Yaml
  | .map m => get key m
  | .seq xs => (index key).bind fun i => xs[i]?
  | .scalar _ => none

/-- What a path leads to. -/
def getIn : List String → Yaml → Option Yaml
  | [], t => some t
  | key :: keys, t => (child index key t).bind (getIn keys)

variable {index} {key key' : String} {keys p q : List String} {t c v : Yaml} {m : Entries}
  {xs : List Yaml}

theorem getIn_cons (key : String) (keys : List String) (t : Yaml) :
    getIn index (key :: keys) t = (child index key t).bind (getIn index keys) := rfl

theorem getIn_append (p q : List String) (t : Yaml) :
    getIn index (p ++ q) t = (getIn index p t).bind (getIn index q) := by
  induction p generalizing t with
  | nil => rfl
  | cons key p ih =>
      rw [List.cons_append, getIn_cons, getIn_cons, Option.bind_assoc]
      exact congrArg _ (funext ih)

/-- Nothing is under a scalar. -/
theorem getIn_scalar {s : Scalar} (hne : keys ≠ []) : getIn index keys (.scalar s) = none := by
  cases keys with
  | nil => exact absurd rfl hne
  | cons key keys => rfl

/-- Nothing is under what is missing. -/
theorem getIn_none_below (hp : p <+: q) (h : getIn index p t = none) : getIn index q t = none := by
  obtain ⟨r, rfl⟩ := hp
  rw [getIn_append, h, Option.bind_none]

/-- A sequence does not tell two texts of one index apart. -/
theorem getIn_alias (hseq : getIn index p t = some (.seq xs)) (hkey : index key = index key')
    (q : List String) : getIn index (p ++ key :: q) t = getIn index (p ++ key' :: q) t := by
  rw [getIn_append, getIn_append, hseq, Option.bind_some, Option.bind_some]
  show ((index key).bind _).bind _ = ((index key').bind _).bind _
  rw [hkey]

end Read

/-! ## Writing -/

/-- Replace the value of a key, or add the key at the end. -/
def put (key : String) (v : Yaml) : Entries → Entries
  | [] => [(.str key, v)]
  | (k, w) :: rest => if k = .str key then (k, v) :: rest else (k, w) :: put key v rest

/-- Write at the end of a path through maps, those that are missing made on the way. -/
def putIn (v : Yaml) : List String → Yaml → Yaml
  | [], _ => v
  | key :: keys, .map m => .map (put key (putIn v keys ((get key m).getD (.map []))) m)
  | _ :: _, t => t

/-- The value under the keys, each in a map of its own. -/
def nest (keys : List String) (v : Yaml) : Yaml := putIn v keys (.map [])

/-- All that the path leads through are maps; after a key that is not there it may go on when
    missing maps are made. -/
def Mapped (fills : Bool) : List String → Yaml → Prop
  | [], _ => True
  | key :: keys, .map m =>
      match get key m with
      | some t => Mapped fills keys t
      | none => keys = [] ∨ fills = true
  | _ :: _, _ => False

instance decMapped (fills : Bool) :
    (keys : List String) → (t : Yaml) → Decidable (Mapped fills keys t)
  | [], _ => isTrue trivial
  | key :: keys, .map m =>
      match h : get key m with
      | some t => @decidable_of_iff _ _ (by simp only [Mapped, h]) (decMapped fills keys t)
      | none => decidable_of_iff (keys = [] ∨ fills = true) (by simp only [Mapped, h])
  | _ :: _, .scalar _ => isFalse fun h => h
  | _ :: _, .seq _ => isFalse fun h => h

section Write

variable {index : String → Option Nat} {fills : Bool} {key key' : String}
  {keys p q : List String} {t c v w : Yaml} {m rest : Entries} {xs : List Yaml}

theorem get_eq_none_iff : get key m = none ↔ ∀ e ∈ m, e.1 ≠ .str key := by
  induction m with
  | nil => simp [get]
  | cons e rest ih =>
      rw [List.forall_mem_cons, ← ih]
      by_cases hk : e.1 = .str key <;> simp [get, hk]

theorem put_cons_self (v : Yaml) (rest : Entries) :
    put key v ((.str key, w) :: rest) = (.str key, v) :: rest := if_pos rfl

theorem put_cons_of_ne {k : Scalar} (h : k ≠ .str key) (v : Yaml) (rest : Entries) :
    put key v ((k, w) :: rest) = (k, w) :: put key v rest := if_neg h

@[simp] theorem get_put_self (key : String) (v : Yaml) (m : Entries) :
    get key (put key v m) = some v := by
  induction m with
  | nil => exact get_cons_self []
  | cons e rest ih =>
      obtain ⟨k, w⟩ := e
      by_cases hk : k = .str key
      · rw [hk, put_cons_self, get_cons_self]
      · rw [put_cons_of_ne hk, get_cons_of_ne hk, ih]

theorem get_put_of_ne (h : key' ≠ key) (v : Yaml) (m : Entries) :
    get key' (put key v m) = get key' m := by
  have hne : Scalar.str key ≠ .str key' := fun heq => h (Scalar.str.inj heq).symm
  induction m with
  | nil => exact get_cons_of_ne hne v []
  | cons e rest ih =>
      obtain ⟨k, w⟩ := e
      by_cases hk : k = .str key
      · rw [hk, put_cons_self, get_cons_of_ne hne, get_cons_of_ne hne]
      · rw [put_cons_of_ne hk]
        unfold get
        rw [ih]

/-- A key that keeps its value. -/
theorem put_self (h : get key m = some v) : put key v m = m := by
  induction m with
  | nil => exact nomatch h
  | cons e rest ih =>
      obtain ⟨k, w⟩ := e
      by_cases hk : k = .str key
      · rw [hk, get_cons_self] at h
        rw [hk, put_cons_self, Option.some.inj h]
      · rw [put_cons_of_ne hk, ih ((get_cons_of_ne hk w rest).symm.trans h)]

theorem mapped_some (hget : get key m = some c) :
    Mapped fills (key :: keys) (.map m) ↔ Mapped fills keys c := by
  simp only [Mapped, hget]

theorem mapped_empty (keys : List String) : Mapped true keys (.map []) := by
  cases keys with
  | nil => trivial
  | cons key keys => exact .inr rfl

/-- The rest of a path through maps is one, from the value of the key or from an empty map. -/
theorem mapped_tail (h : Mapped fills (key :: keys) (.map m)) :
    Mapped fills keys ((get key m).getD (.map [])) := by
  cases hget : get key m with
  | some c => exact (mapped_some hget).1 h
  | none =>
      simp only [Mapped, hget] at h
      rcases h with rfl | rfl
      · trivial
      · exact mapped_empty keys

/-- A path that is not empty leads through a map. -/
theorem exists_map (h : Mapped fills (key :: keys) t) : ∃ m, t = .map m := by
  cases t with
  | map m => exact ⟨m, rfl⟩
  | scalar s => exact h.elim
  | seq xs => exact h.elim

theorem getIn_map (key : String) (keys : List String) (m : Entries) :
    getIn index (key :: keys) (.map m) = (get key m).bind (getIn index keys) := rfl

theorem putIn_map (v : Yaml) (key : String) (keys : List String) (m : Entries) :
    putIn v (key :: keys) (.map m) =
      .map (put key (putIn v keys ((get key m).getD (.map []))) m) := rfl

/-- What was written is read. -/
theorem getIn_putIn (h : Mapped fills keys t) (v : Yaml) :
    getIn index keys (putIn v keys t) = some v := by
  induction keys generalizing t with
  | nil => rfl
  | cons key keys ih =>
      obtain ⟨m, rfl⟩ := exists_map h
      rw [putIn_map, getIn_map, get_put_self, Option.bind_some]
      exact ih (mapped_tail h)

/-- What is neither above nor below the written value stays. -/
theorem getIn_putIn_of_unrelated (h : Mapped fills keys t) (hq : Unrelated q keys) (v : Yaml) :
    getIn index q (putIn v keys t) = getIn index q t := by
  induction keys generalizing t q with
  | nil => exact absurd rfl hq.symm.ne_nil
  | cons key keys ih =>
      obtain ⟨m, rfl⟩ := exists_map h
      cases q with
      | nil => exact absurd rfl hq.ne_nil
      | cons key' q =>
          rw [putIn_map, getIn_map, getIn_map]
          by_cases hkey : key' = key
          · subst hkey
            have hq' := Unrelated.cons_iff.1 hq
            rw [get_put_self, Option.bind_some, ih (mapped_tail h) hq']
            cases get key' m with
            | some c => rfl
            | none =>
                cases q with
                | nil => exact absurd rfl hq'.ne_nil
                | cons k q => rfl
          · rw [get_put_of_ne hkey]

/-- What is nested is all there is. -/
theorem getIn_nest (index : String → Option Nat) (keys : List String) (v : Yaml) :
    getIn index keys (nest keys v) = some v :=
  getIn_putIn (mapped_empty keys) v

theorem getIn_nest_of_unrelated (hq : Unrelated q keys) (v : Yaml) :
    getIn index q (nest keys v) = none := by
  rw [nest, getIn_putIn_of_unrelated (mapped_empty keys) hq]
  cases q with
  | nil => exact absurd rfl hq.ne_nil
  | cons key q => rfl

/-- What is in the way of a path that does not lead through maps: a scalar, a sequence, or nothing
    where nothing is made. -/
theorem exists_of_not_mapped (index : String → Option Nat) (h : ¬ Mapped fills keys t) :
    ∃ p key q, keys = p ++ key :: q ∧
      ((∃ s, getIn index p t = some (.scalar s)) ∨ (∃ xs, getIn index p t = some (.seq xs)) ∨
        (fills = false ∧ getIn index p t = none)) := by
  induction keys generalizing t with
  | nil => exact absurd trivial h
  | cons key keys ih =>
      cases t with
      | scalar s => exact ⟨[], key, keys, rfl, .inl ⟨s, rfl⟩⟩
      | seq xs => exact ⟨[], key, keys, rfl, .inr (.inl ⟨xs, rfl⟩)⟩
      | map m =>
          cases hget : get key m with
          | some c =>
              rw [mapped_some hget] at h
              obtain ⟨p, key', q, rfl, hp⟩ := ih h
              refine ⟨key :: p, key', q, rfl, ?_⟩
              rw [getIn_map, hget]
              exact hp
          | none =>
              simp only [Mapped, hget] at h
              obtain ⟨hne, hfills⟩ := not_or.mp h
              obtain ⟨key', keys, rfl⟩ := List.exists_cons_of_ne_nil hne
              refine ⟨[key], key', keys, rfl, .inr (.inr ⟨Bool.eq_false_of_not_eq_true hfills, ?_⟩)⟩
              rw [getIn_map, hget]
              rfl

end Write

/-! ## Taking away -/

section Remove

variable (index : String → Option Nat)

/-- Put another node where the key leads to. -/
def replaceChild (key : String) (c : Yaml) : Yaml → Yaml
  | .map m => .map (put key c m)
  | .seq xs =>
      match index key with
      | some i => .seq (xs.set i c)
      | none => .seq xs
  | .scalar s => .scalar s

/-- Take the node away that the key leads to: an entry of a map, or an item, and the later items
    move up. -/
def dropChild (key : String) : Yaml → Yaml
  | .map m => .map (m.eraseP fun e => e.1 = .str key)
  | .seq xs =>
      match index key with
      | some i => .seq (xs.eraseIdx i)
      | none => .seq xs
  | .scalar s => .scalar s

/-- Take away what the path leads to. -/
def removeIn : List String → Yaml → Yaml
  | [], t => t
  | [key], t => dropChild index key t
  | key :: key' :: keys, t =>
      match child index key t with
      | some c => replaceChild index key (removeIn (key' :: keys) c) t
      | none => t

/-- The path leads through maps and sequences, or, where it is not strict, through none any more
    after a key that is not there. -/
def Reaches (strict : Bool) : List String → Yaml → Prop
  | [], _ => True
  | key :: keys, t =>
      t.isCollection = true ∧
        match child index key t with
        | some c => Reaches strict keys c
        | none => keys = [] ∨ strict = false

instance decReaches (strict : Bool) :
    (keys : List String) → (t : Yaml) → Decidable (Reaches index strict keys t)
  | [], _ => isTrue trivial
  | key :: keys, t =>
      match h : child index key t with
      | some c =>
          @decidable_of_iff _ _ (by simp only [Reaches, h])
            (@instDecidableAnd (t.isCollection = true) _ _ (decReaches strict keys c))
      | none =>
          decidable_of_iff (t.isCollection = true ∧ (keys = [] ∨ strict = false))
            (by simp only [Reaches, h])

variable {index} {key : String} {keys p q : List String} {t c v : Yaml} {m : Entries}
  {xs : List Yaml}

theorem child_replaceChild (h : child index key t = some c) (v : Yaml) :
    child index key (replaceChild index key v t) = some v := by
  cases t with
  | scalar s => exact nomatch h
  | map m => exact get_put_self key v m
  | seq xs =>
      obtain ⟨i, hi, hx⟩ := Option.bind_eq_some_iff.mp h
      simp only [replaceChild, child, hi, Option.bind_some]
      exact List.getElem?_set_self (List.getElem?_eq_some_iff.mp hx).1

theorem replaceChild_self (h : child index key t = some c) : replaceChild index key c t = t := by
  cases t with
  | scalar s => rfl
  | map m => exact congrArg Yaml.map (put_self h)
  | seq xs =>
      obtain ⟨i, hi, hx⟩ := Option.bind_eq_some_iff.mp h
      obtain ⟨hlt, rfl⟩ := List.getElem?_eq_some_iff.mp hx
      simp only [replaceChild, hi, List.set_getElem_self]

/-- What is not there is not taken away. -/
theorem dropChild_of_none (h : child index key t = none) : dropChild index key t = t := by
  cases t with
  | scalar s => rfl
  | map m =>
      have hm : m.eraseP (fun e => e.1 = .str key) = m := by
        apply List.eraseP_of_forall_not
        intro e he
        simpa using get_eq_none_iff.1 h e he
      exact congrArg Yaml.map hm
  | seq xs =>
      cases hi : index key with
      | none => simp only [dropChild, hi]
      | some i =>
          simp only [child, hi, Option.bind_some] at h
          simp only [dropChild, hi]
          rw [List.eraseIdx_of_length_le (List.getElem?_eq_none_iff.mp h)]

/-- The number of nodes right below. -/
def width : Yaml → Nat
  | .scalar _ => 0
  | .seq xs => xs.length
  | .map m => m.length

theorem length_put (h : get key m = some c) (v : Yaml) : (put key v m).length = m.length := by
  induction m with
  | nil => exact nomatch h
  | cons e rest ih =>
      obtain ⟨k, w⟩ := e
      by_cases hk : k = .str key
      · rw [hk, put_cons_self, List.length_cons, List.length_cons]
      · rw [put_cons_of_ne hk, List.length_cons, List.length_cons,
          ih ((get_cons_of_ne hk w rest).symm.trans h)]

theorem width_replaceChild (h : child index key t = some c) (v : Yaml) :
    width (replaceChild index key v t) = width t := by
  cases t with
  | scalar s => rfl
  | map m => exact length_put h v
  | seq xs =>
      obtain ⟨i, hi, _⟩ := Option.bind_eq_some_iff.mp h
      simp only [replaceChild, hi, width]
      exact List.length_set

theorem width_dropChild (h : child index key t = some c) :
    width (dropChild index key t) + 1 = width t := by
  cases t with
  | scalar s => exact nomatch h
  | map m =>
      have hsome : ¬ ∀ e ∈ m, e.1 ≠ .str key := by
        rw [← get_eq_none_iff, show get key m = some c from h]
        exact Option.some_ne_none c
      push Not at hsome
      obtain ⟨e, he, hk⟩ := hsome
      have hpos := List.length_pos_of_mem he
      simp only [dropChild, width]
      rw [List.length_eraseP_of_mem he (by simpa using hk)]
      omega
  | seq xs =>
      obtain ⟨i, hi, hx⟩ := Option.bind_eq_some_iff.mp h
      have hlt := (List.getElem?_eq_some_iff.mp hx).1
      simp only [dropChild, hi, width]
      rw [List.length_eraseIdx_of_lt hlt]
      omega

theorem removeIn_cons (hne : keys ≠ []) (h : child index key t = some c) :
    removeIn index (key :: keys) t = replaceChild index key (removeIn index keys c) t := by
  obtain ⟨key', keys, rfl⟩ := List.exists_cons_of_ne_nil hne
  simp only [removeIn, h]

/-- Nothing changes when nothing is there. -/
theorem removeIn_of_none (h : getIn index keys t = none) : removeIn index keys t = t := by
  induction keys generalizing t with
  | nil => exact nomatch h
  | cons key keys ih =>
      cases keys with
      | nil =>
          refine dropChild_of_none ?_
          rw [getIn_cons] at h
          exact (Option.bind_fun_some _).symm.trans h
      | cons key' keys =>
          cases hc : child index key t with
          | none => simp only [removeIn, hc]
          | some c =>
              rw [getIn_cons, hc, Option.bind_some] at h
              rw [removeIn_cons (List.cons_ne_nil key' keys) hc, ih h]
              exact replaceChild_self hc

/-- To take a node away is not to take away something below it. -/
theorem removeIn_ne_append (hp : p ≠ []) (hq : q ≠ []) (h : getIn index p t = some c) :
    removeIn index p t ≠ removeIn index (p ++ q) t := by
  induction p generalizing t with
  | nil => exact absurd rfl hp
  | cons key p ih =>
      obtain ⟨c', hc', hc⟩ := Option.bind_eq_some_iff.mp h
      rw [List.cons_append, removeIn_cons (List.append_ne_nil_of_right_ne_nil p hq) hc']
      intro heq
      cases p with
      | nil =>
          have hdrop := width_dropChild hc'
          have hkeep := width_replaceChild hc' (removeIn index ([] ++ q) c')
          rw [← heq] at hkeep
          exact absurd hkeep (by rw [← hdrop]; exact Nat.ne_of_lt (Nat.lt_succ_self _))
      | cons key' p =>
          rw [removeIn_cons (List.cons_ne_nil key' p) hc'] at heq
          have hchild := child_replaceChild hc' (removeIn index (key' :: p) c')
          rw [heq, child_replaceChild hc'] at hchild
          exact ih (List.cons_ne_nil key' p) hc (Option.some.inj hchild).symm

/-- A shorter path takes away the same only if neither takes away anything. -/
theorem removeIn_eq_append_iff (hp : p ≠ []) (hq : q ≠ []) :
    removeIn index p t = removeIn index (p ++ q) t ↔ getIn index p t = none := by
  constructor
  · intro heq
    by_contra hsome
    obtain ⟨c, hc⟩ := Option.ne_none_iff_exists'.mp hsome
    exact removeIn_ne_append hp hq hc heq
  · intro h
    rw [removeIn_of_none h, removeIn_of_none (getIn_none_below (List.prefix_append p q) h)]

end Remove

end Yaml

end Kubeapps.Lib
