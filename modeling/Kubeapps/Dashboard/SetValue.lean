/-
  Writing a value by its path (src/dashboard/src/shared/schema.ts: setValue).

  `SetsRight`: the write succeeds, the value is read at the path, and what is neither above nor
  below it is read as before. `setValue_right_iff` says for which texts and paths this is so, for
  every value:

  * an empty document is given to lodash with the whole path, so lodash has to read just the keys in
    it, and no array may come of them;
  * where the parent is found, everything above the value has to be a map: a parent that is null is
    found as well, and the YAML package throws;
  * where it is missing, lodash has to read just the keys that were cut off, joined by dots, and
    what is overwritten may have nothing beside the path. It has, if the key that was missing was so
    only because it was looked up as it is escaped.
-/
import Kubeapps.Dashboard.Schema

namespace Kubeapps.Dashboard

open Kubeapps.Lib

variable {τ Doc : Type} {L : Packages τ Doc} {R : PathRules} {index : String → Option Nat}
  {keys p q : List String} {path s : String} {values text : τ} {doc doc' : Doc} {t v new : Yaml}
  {old : Option Yaml}

/-- `setValue` writes the value at the keys, where the path leads to, and nothing else. -/
def SetsRight (L : Packages τ Doc) (values : τ) (path : String) (keys : List String) (v : Yaml) :
    Prop :=
  ∃ text, setValue L values path v = some text ∧ getValue L text path none = some v ∧
    getValue L text (pointer keys) none = some v ∧
    ∀ q, Unrelated q keys → getValue L text (pointer q) none = getValue L values (pointer q) none

/-- lodash reads just the keys in the path and makes objects for them. -/
structure PathRules.Plain (R : PathRules) (path : String) (keys : List String) : Prop where
  keys_eq : R.keysOf path = keys
  assigns : R.assigns keys = true
  no_array : ∀ key ∈ keys.tail, R.isIndex key = false

/-- When the write is right. -/
structure SetsCleanly (L : Packages τ Doc) (R : PathRules) (values : τ) (path : String) : Prop where
  empty : L.contents (L.parseDocument values) = none →
    R.Plain (withoutSlash path) (parsePath L path)
  found : ∀ {t parent}, L.contents (L.parseDocument values) = some t →
    L.getIn (L.parseDocument values) (splitPath path).dropLast = some parent →
    Yaml.Mapped R.fills (parsePath L path) t
  missing : ∀ {t}, L.contents (L.parseDocument values) = some t →
    L.getIn (L.parseDocument values) (splitPath path).dropLast = none →
    let n := keptLength L (L.parseDocument values) path
    Yaml.Mapped R.fills ((parsePath L path).take n) t ∧
      R.Plain (remainingPath L (L.parseDocument values) path) ((parsePath L path).drop n) ∧
      ∀ q, Unrelated q ((parsePath L path).drop n) →
        getValue L values (pointer ((parsePath L path).take n ++ q)) none = none

/-! ## Trees after a write -/

/-- The new tree has the value at the keys, and elsewhere what the old one has. -/
structure Wrote (index : String → Option Nat) (old : Option Yaml) (keys : List String)
    (v new : Yaml) : Prop where
  written : Yaml.getIn index keys new = some v
  frame : ∀ q, Unrelated q keys →
    nonNull (Yaml.getIn index q new) = nonNull (old.bind (Yaml.getIn index q))

theorem nonNull_str (s : String) :
    nonNull (some (.scalar (.str s))) = some (.scalar (.str s)) := rfl

/-- The text is no null. -/
theorem str_ne_null (s : String) : Yaml.scalar (.str s) ≠ .scalar .null := by simp

/-- Every value is found at one place only. -/
theorem eq_keys_of_wrote
    (hw : ∀ v, v ≠ .scalar .null → ∃ new, Wrote index old keys v new ∧
      Yaml.getIn index p new = some v) : p = keys := by
  obtain ⟨s, hs⟩ := Yaml.exists_fresh (nonNull (old.bind (Yaml.getIn index p)))
  obtain ⟨new, hnew, hp⟩ := hw (.scalar (.str s)) (str_ne_null s)
  by_cases hpk : p <+: keys
  · obtain ⟨r, rfl⟩ := hpk
    by_contra hne
    have hr : r ≠ [] := fun h => hne (by rw [h, List.append_nil])
    have hwritten := hnew.written
    rw [Yaml.getIn_append, hp, Option.bind_some, Yaml.getIn_scalar hr] at hwritten
    exact nomatch hwritten
  · by_cases hkp : keys <+: p
    · obtain ⟨r, rfl⟩ := hkp
      have hr : r ≠ [] := fun h => hpk (by rw [h, List.append_nil])
      rw [Yaml.getIn_append, hnew.written, Option.bind_some, Yaml.getIn_scalar hr] at hp
      exact nomatch hp
    · have hframe := hnew.frame p ⟨hpk, hkp⟩
      rw [hp, nonNull_str] at hframe
      exact absurd hframe.symm hs

/-- No sequence is above the value: its items have other texts for their indexes. -/
theorem not_seq_of_wrote {key : String}
    (halias : ∀ {key i}, index key = some i → ∃ key', key' ≠ key ∧ index key' = some i)
    (hw : ∀ v, v ≠ .scalar .null → ∃ new xs, Wrote index old (p ++ key :: q) v new ∧
      Yaml.getIn index p new = some (.seq xs)) : False := by
  cases hkey : index key with
  | none =>
      obtain ⟨new, xs, hnew, hseq⟩ := hw (.scalar (.str "")) (str_ne_null "")
      have hwritten := hnew.written
      rw [Yaml.getIn_append, hseq, Option.bind_some, Yaml.getIn_cons] at hwritten
      simp [Yaml.child, hkey] at hwritten
  | some i =>
      obtain ⟨key', hne, hkey'⟩ := halias hkey
      obtain ⟨s, hs⟩ := Yaml.exists_fresh (nonNull (old.bind (Yaml.getIn index (p ++ key' :: q))))
      obtain ⟨new, xs, hnew, hseq⟩ := hw (.scalar (.str s)) (str_ne_null s)
      have hframe := hnew.frame (p ++ key' :: q) (Unrelated.of_ne hne p q q)
      rw [Yaml.getIn_alias hseq (hkey'.trans hkey.symm), hnew.written, nonNull_str] at hframe
      exact hs hframe.symm

/-! ## What lodash builds -/

theorem exists_first_index {isIndex : String → Bool} (hne : keys ≠ [])
    (h : ¬ ∀ key ∈ keys.tail, isIndex key = false) :
    ∃ front key rest, keys = front ++ key :: rest ∧ front ≠ [] ∧
      (∀ k ∈ front.tail, isIndex k = false) ∧ isIndex key = true := by
  obtain ⟨key₀, tail, rfl⟩ := List.exists_cons_of_ne_nil hne
  cases hfind : tail.find? isIndex with
  | none =>
      refine absurd (fun key hkey => ?_) h
      simpa using List.find?_eq_none.mp hfind key hkey
  | some key =>
      obtain ⟨hkey, as, bs, htail, has⟩ := List.find?_eq_some_iff_append.mp hfind
      refine ⟨key₀ :: as, key, bs, by rw [htail]; rfl, List.cons_ne_nil key₀ as, ?_, hkey⟩
      intro k hk
      simpa using has k hk

/-- lodash builds maps, or an array on the way, or leaves the value out. -/
theorem Documented.set_cases (h : Documented L R) (s : String) :
    (R.assigns (R.keysOf s) = true ∧ (∀ key ∈ (R.keysOf s).tail, R.isIndex key = false) ∧
      ∀ v, L.set s (some v) = Yaml.nest (R.keysOf s) v) ∨
    (∃ front, front ≠ [] ∧ ∀ v, ∃ xs, L.set s (some v) = Yaml.nest front (.seq xs)) ∨
    ∃ m, ∀ v, L.set s (some v) = .map m := by
  cases hassigns : R.assigns (R.keysOf s) with
  | false => exact .inr (.inr (h.set_unsafe hassigns))
  | true =>
      by_cases hindex : ∀ key ∈ (R.keysOf s).tail, R.isIndex key = false
      · exact .inl ⟨rfl, hindex, fun v => h.set_maps v hassigns hindex⟩
      · obtain ⟨front, key, rest, hkeys, hne, hfront, hkey⟩ :=
          exists_first_index (h.keysOf_ne_nil s) hindex
        exact .inr (.inl ⟨front, hne, fun v => h.set_array v hassigns hkeys hne hfront hkey⟩)

theorem isCollection_nest (hne : keys ≠ []) (v : Yaml) :
    (Yaml.nest keys v).isCollection = true := by
  obtain ⟨key, keys, rfl⟩ := List.exists_cons_of_ne_nil hne
  rfl

theorem Documented.isCollection_set (h : Documented L R) (s : String) (v : Yaml) :
    (L.set s (some v)).isCollection = true := by
  rcases h.set_cases s with ⟨_, _, hset⟩ | ⟨front, hne, hset⟩ | ⟨m, hset⟩
  · rw [hset]
    exact isCollection_nest (h.keysOf_ne_nil s) v
  · obtain ⟨xs, hxs⟩ := hset v
    rw [hxs]
    exact isCollection_nest hne _
  · rw [hset]
    rfl

theorem PathRules.Plain.set_eq (hplain : R.Plain s keys) (h : Documented L R) (v : Yaml) :
    L.set s (some v) = Yaml.nest keys v := by
  have hkeys := hplain.keys_eq
  subst hkeys
  exact h.set_maps v hplain.assigns hplain.no_array

/-- A value that lodash has put below the keys `p` is where it should be only if lodash read just
    the other keys. -/
theorem Documented.plain_of_wrote (h : Documented L R)
    (hw : ∀ v, v ≠ .scalar .null → ∃ new, Wrote R.index old (p ++ keys) v new ∧
      Yaml.getIn R.index p new = some (L.set s (some v))) : R.Plain s keys := by
  rcases h.set_cases s with ⟨hassigns, hindex, hset⟩ | ⟨front, hfront, hset⟩ | ⟨m, hset⟩
  · have hkeys : p ++ R.keysOf s = p ++ keys := by
      apply eq_keys_of_wrote
      intro v hv
      obtain ⟨new, hnew, hp⟩ := hw v hv
      refine ⟨new, hnew, ?_⟩
      rw [Yaml.getIn_append, hp, Option.bind_some, hset]
      exact Yaml.getIn_nest R.index (R.keysOf s) v
    obtain rfl := List.append_cancel_left hkeys
    exact ⟨rfl, hassigns, hindex⟩
  · exfalso
    -- what is read at the keys is in the maps around the array
    have hread : ∀ v, v ≠ .scalar .null → ∃ xs,
        Yaml.getIn R.index keys (Yaml.nest front (.seq xs)) = some v := by
      intro v hv
      obtain ⟨new, hnew, hp⟩ := hw v hv
      obtain ⟨xs, hxs⟩ := hset v
      refine ⟨xs, ?_⟩
      have hwritten := hnew.written
      rwa [Yaml.getIn_append, hp, Option.bind_some, hxs] at hwritten
    obtain ⟨xs₀, hxs₀⟩ := hread (.scalar (.str "")) (str_ne_null "")
    by_cases hfk : front <+: keys
    · obtain ⟨r, rfl⟩ := hfk
      cases r with
      | nil =>
          rw [List.append_nil, Yaml.getIn_nest] at hxs₀
          exact nomatch hxs₀
      | cons key r =>
          have hseq : ∀ v, v ≠ .scalar .null → ∃ new xs,
              Wrote R.index old ((p ++ front) ++ key :: r) v new ∧
                Yaml.getIn R.index (p ++ front) new = some (.seq xs) := ?_
          · exact not_seq_of_wrote h.index_alias hseq
          intro v hv
          obtain ⟨new, hnew, hp⟩ := hw v hv
          obtain ⟨xs, hxs⟩ := hset v
          refine ⟨new, xs, by rwa [List.append_assoc], ?_⟩
          rw [Yaml.getIn_append, hp, Option.bind_some, hxs]
          exact Yaml.getIn_nest R.index front (.seq xs)
    · by_cases hkf : keys <+: front
      · obtain ⟨r, rfl⟩ := hkf
        have hbelow := Yaml.getIn_nest R.index (keys ++ r) (.seq xs₀)
        rw [Yaml.getIn_append, hxs₀, Option.bind_some] at hbelow
        cases r with
        | nil => exact hfk (by rw [List.append_nil])
        | cons key r => exact nomatch hbelow
      · rw [Yaml.getIn_nest_of_unrelated ⟨hkf, hfk⟩] at hxs₀
        exact nomatch hxs₀
  · exfalso
    have hread : ∀ v, v ≠ .scalar .null → Yaml.getIn R.index keys (.map m) = some v := by
      intro v hv
      obtain ⟨new, hnew, hp⟩ := hw v hv
      have hwritten := hnew.written
      rwa [Yaml.getIn_append, hp, Option.bind_some, hset] at hwritten
    have heq := (hread _ (str_ne_null "a")).symm.trans (hread _ (str_ne_null "b"))
    exact absurd heq (by simp)

/-! ## The written text -/

theorem Documented.setsRight_iff_wrote (h : Documented L R) (hne : keys ≠ [])
    (hv : v ≠ .scalar .null) :
    SetsRight L values path keys v ↔ ∃ text new, setValue L values path v = some text ∧
      L.contents (L.parseDocument text) = some new ∧
      Yaml.getIn R.index (parsePath L path) new = some v ∧
      Wrote R.index (L.contents (L.parseDocument values)) keys v new := by
  constructor
  · rintro ⟨text, hset, hpath, hkeys, hframe⟩
    rw [h.getValue_none] at hpath
    obtain ⟨new, hnew, hread⟩ := Option.bind_eq_some_iff.mp (nonNull_eq_some.1 hpath).1
    rw [h.getValue_pointer text hne, hnew, Option.bind_some] at hkeys
    refine ⟨text, new, hset, hnew, hread, (nonNull_eq_some.1 hkeys).1, fun q hq => ?_⟩
    have hq' := hframe q hq
    rwa [h.getValue_pointer text hq.ne_nil, h.getValue_pointer values hq.ne_nil, hnew,
      Option.bind_some] at hq'
  · rintro ⟨text, new, hset, hnew, hread, hwrote⟩
    refine ⟨text, hset, ?_, ?_, fun q hq => ?_⟩
    · rw [h.getValue_none, hnew]
      exact nonNull_eq_some.2 ⟨hread, hv⟩
    · rw [h.getValue_pointer text hne, hnew]
      exact nonNull_eq_some.2 ⟨hwrote.written, hv⟩
    · rw [h.getValue_pointer text hq.ne_nil, h.getValue_pointer values hq.ne_nil, hnew]
      exact hwrote.frame q hq

/-- A tree in which a path leads to a sequence is no scalar. -/
theorem isCollection_of_getIn_seq {xs : List Yaml} (h : Yaml.getIn index p t = some (.seq xs)) :
    t.isCollection = true := by
  cases t with
  | map m => rfl
  | seq ys => rfl
  | scalar s =>
      cases p with
      | nil => exact nomatch h
      | cons key p => exact nomatch h

theorem isCollection_putIn {fills : Bool} (h : Yaml.Mapped fills keys t) (hne : keys ≠ [])
    (v : Yaml) : (Yaml.putIn v keys t).isCollection = true := by
  obtain ⟨key, keys, rfl⟩ := List.exists_cons_of_ne_nil hne
  obtain ⟨m, rfl⟩ := Yaml.exists_map h
  rfl

/-- Where every value is written below the keys, they lead through maps. -/
theorem Documented.mapped_of_wrote (h : Documented L R) {w : Yaml → Option Yaml}
    (hdoc : L.contents doc = some t)
    (hw : ∀ v, v ≠ .scalar .null → ∃ doc' new, L.setIn doc keys (w v) = some doc' ∧
      L.contents (L.parseDocument (L.toString doc')) = some new ∧
      Wrote R.index old (keys ++ q) v new) : Yaml.Mapped R.fills keys t := by
  by_contra hmap
  obtain ⟨p, key, r, rfl, hblocked⟩ := Yaml.exists_of_not_mapped R.index hmap
  obtain ⟨doc₀, _, hset₀, _, _⟩ := hw _ (str_ne_null "")
  rcases hblocked with ⟨s, hs⟩ | ⟨xs, hxs⟩ | ⟨hfills, hnone⟩
  · rw [h.setIn_scalar key r _ hdoc hs] at hset₀
    exact nomatch hset₀
  · have hseq : ∀ v, v ≠ .scalar .null → ∃ new xs, Wrote R.index old (p ++ key :: (r ++ q)) v new ∧
        Yaml.getIn R.index p new = some (.seq xs) := by
      intro v hv
      obtain ⟨doc', new, hset, hnew, hwrote⟩ := hw v hv
      obtain ⟨t', xs', ht', hseq⟩ := h.setIn_seq hdoc hxs hset
      rw [h.contents_parse ht' (isCollection_of_getIn_seq hseq)] at hnew
      obtain rfl := Option.some.inj hnew
      exact ⟨t', xs', by simpa using hwrote, hseq⟩
    exact not_seq_of_wrote h.index_alias hseq
  · rw [h.setIn_missing key r _ hfills hdoc hnone] at hset₀
    exact nomatch hset₀

/-- The document that is read after a write through maps. -/
theorem Documented.contents_setIn (h : Documented L R) (hdoc : L.contents doc = some t)
    (hne : keys ≠ []) (hmap : Yaml.Mapped R.fills keys t) (v : Yaml) :
    ∃ doc', L.setIn doc keys (some v) = some doc' ∧
      L.contents (L.parseDocument (L.toString doc')) = some (Yaml.putIn v keys t) := by
  obtain ⟨doc', hset, hdoc'⟩ := h.setIn_maps v hdoc hne hmap
  exact ⟨doc', hset, h.contents_parse hdoc' (isCollection_putIn hmap hne v)⟩

/-- The document that is read after a write to an empty one. -/
theorem Documented.contents_setIn_root (h : Documented L R) (doc : Doc) (s : String) (v : Yaml) :
    ∃ doc', L.setIn doc [] (some (L.set s (some v))) = some doc' ∧
      L.contents (L.parseDocument (L.toString doc')) = some (L.set s (some v)) := by
  obtain ⟨doc', hset, hdoc'⟩ := h.setIn_root doc (L.set s (some v))
  exact ⟨doc', hset, h.contents_parse hdoc' (h.isCollection_set s v)⟩

/-- What holds when every value is written below the keys `p` with the rest of them built by
    lodash: nothing was beside the path, below those keys. -/
theorem Documented.cut_of_wrote {front rest : List String} (h : Documented L R)
    (hdoc : L.contents doc = some t) (hne : front ≠ [])
    (hw : ∀ v, v ≠ .scalar .null → ∃ doc' new,
      L.setIn doc front (some (L.set s (some v))) = some doc' ∧
      L.contents (L.parseDocument (L.toString doc')) = some new ∧
      Wrote R.index old (front ++ rest) v new) :
    Yaml.Mapped R.fills front t ∧ R.Plain s rest ∧
      ∀ q, Unrelated q rest → nonNull (old.bind (Yaml.getIn R.index (front ++ q))) = none := by
  have hmap : Yaml.Mapped R.fills front t :=
    h.mapped_of_wrote (w := fun v => some (L.set s (some v))) hdoc hw
  -- what is read where the path was cut
  have hfront : ∀ v, v ≠ .scalar .null → ∃ new, Wrote R.index old (front ++ rest) v new ∧
      Yaml.getIn R.index front new = some (L.set s (some v)) := by
    intro v hv
    obtain ⟨doc', new, hset, hnew, hwrote⟩ := hw v hv
    obtain ⟨doc'', hset', hnew'⟩ := h.contents_setIn hdoc hne hmap (L.set s (some v))
    rw [hset'] at hset
    rw [← Option.some.inj hset, hnew'] at hnew
    refine ⟨new, hwrote, ?_⟩
    rw [← Option.some.inj hnew]
    exact Yaml.getIn_putIn hmap _
  have hplain : R.Plain s rest := h.plain_of_wrote hfront
  refine ⟨hmap, hplain, fun q hq => ?_⟩
  obtain ⟨new, hwrote, hread⟩ := hfront _ (str_ne_null "")
  have hframe := hwrote.frame (front ++ q) (Unrelated.append_iff.2 hq)
  rw [Yaml.getIn_append, hread, Option.bind_some, hplain.set_eq h,
    Yaml.getIn_nest_of_unrelated hq] at hframe
  exact hframe.symm

/-! ## When the write is right -/

/-- The write is right for every value only if the path leads to the keys and is clean. -/
theorem Documented.setsCleanly_of_setsRight (h : Documented L R) (hne : keys ≠ [])
    (hright : ∀ v, v ≠ .scalar .null → SetsRight L values path keys v) :
    parsePath L path = keys ∧ SetsCleanly L R values path := by
  let doc := L.parseDocument values
  have hw : ∀ v, v ≠ .scalar .null → ∃ doc' new,
      L.setIn doc (parsePathAndValue L doc path (some v)).splittedPath
        (parsePathAndValue L doc path (some v)).value = some doc' ∧
      L.contents (L.parseDocument (L.toString doc')) = some new ∧
      Yaml.getIn R.index (parsePath L path) new = some v ∧
      Wrote R.index (L.contents doc) keys v new := by
    intro v hv
    obtain ⟨text, new, hset, hnew, hread, hwrote⟩ := (h.setsRight_iff_wrote hne hv).1 (hright v hv)
    obtain ⟨doc', hset', rfl⟩ := setValue_eq_some.1 hset
    exact ⟨doc', new, hset', hnew, hread, hwrote⟩
  have hkeys : parsePath L path = keys := by
    apply eq_keys_of_wrote
    intro v hv
    obtain ⟨_, new, _, _, hread, hwrote⟩ := hw v hv
    exact ⟨new, hwrote, hread⟩
  subst hkeys
  refine ⟨rfl, ⟨fun hdoc => ?_, fun {t parent} hdoc hparent => ?_, fun {t} hdoc hparent => ?_⟩⟩
  · apply h.plain_of_wrote (p := [])
    intro v hv
    obtain ⟨doc', new, hset, hnew, _, hwrote⟩ := hw v hv
    refine ⟨new, hwrote, ?_⟩
    obtain ⟨doc'', hset', hnew'⟩ := h.contents_setIn_root doc (withoutSlash path) v
    rw [parsePathAndValue_empty hdoc, hset'] at hset
    rw [← Option.some.inj hset, hnew'] at hnew
    exact hnew.symm
  · apply h.mapped_of_wrote (w := some) (q := []) hdoc
    intro v hv
    obtain ⟨doc', new, hset, hnew, _, hwrote⟩ := hw v hv
    rw [parsePathAndValue_found hdoc hparent] at hset
    exact ⟨doc', new, hset, hnew, by rwa [List.append_nil]⟩
  · have hcut : ∀ v, v ≠ .scalar .null → ∃ doc' new,
        L.setIn doc ((parsePath L path).take (keptLength L doc path))
          (some (L.set (remainingPath L doc path) (some v))) = some doc' ∧
        L.contents (L.parseDocument (L.toString doc')) = some new ∧
        Wrote R.index (L.contents doc) ((parsePath L path).take (keptLength L doc path) ++
          (parsePath L path).drop (keptLength L doc path)) v new := by
      intro v hv
      obtain ⟨doc', new, hset, hnew, _, hwrote⟩ := hw v hv
      rw [parsePathAndValue_missing hdoc hparent] at hset
      exact ⟨doc', new, hset, hnew, by rwa [List.take_append_drop]⟩
    obtain ⟨hmap, hplain, hbeside⟩ := h.cut_of_wrote hdoc (take_keptLength_ne_nil doc path) hcut
    refine ⟨hmap, hplain, fun q hq => ?_⟩
    rw [h.getValue_pointer values (List.append_ne_nil_of_right_ne_nil _ hq.ne_nil)]
    exact hbeside q hq

/-- A value that is written below `front` with the rest of its keys built for it. -/
theorem wrote_cut {front rest : List String} {fills : Bool} (hmap : Yaml.Mapped fills front t)
    (hbeside : ∀ q, Unrelated q rest → nonNull (Yaml.getIn index (front ++ q) t) = none)
    (v : Yaml) :
    Wrote index (some t) (front ++ rest) v (Yaml.putIn (Yaml.nest rest v) front t) where
  written := by
    rw [Yaml.getIn_append, Yaml.getIn_putIn hmap, Option.bind_some, Yaml.getIn_nest]
  frame := by
    intro q hq
    rw [Option.bind_some]
    by_cases hfront : front <+: q
    · obtain ⟨r, rfl⟩ := hfront
      have hr : Unrelated r rest := Unrelated.append_iff.1 hq
      rw [hbeside r hr, Yaml.getIn_append, Yaml.getIn_putIn hmap, Option.bind_some,
        Yaml.getIn_nest_of_unrelated hr]
      rfl
    · have hq' : Unrelated q front :=
        ⟨fun hp => hq.1 (hp.trans (List.prefix_append front rest)), hfront⟩
      rw [Yaml.getIn_putIn_of_unrelated hmap hq']

/-- A clean path writes every value where it leads to. -/
theorem Documented.setsRight_of_setsCleanly (h : Documented L R)
    (hclean : SetsCleanly L R values path) (hv : v ≠ .scalar .null) :
    SetsRight L values path (parsePath L path) v := by
  rw [h.setsRight_iff_wrote (parsePath_ne_nil path) hv]
  cases hdoc : L.contents (L.parseDocument values) with
  | none =>
      have hplain := hclean.empty hdoc
      obtain ⟨doc', hset, hnew⟩ := h.contents_setIn_root (L.parseDocument values)
        (withoutSlash path) v
      rw [hplain.set_eq h] at hset hnew
      have hread := Yaml.getIn_nest R.index (parsePath L path) v
      refine ⟨_, _, setValue_eq_some.2 ⟨doc', ?_, rfl⟩, hnew, hread, hread, fun q hq => ?_⟩
      · rw [parsePathAndValue_empty hdoc, hplain.set_eq h]
        exact hset
      · rw [Yaml.getIn_nest_of_unrelated hq]
        rfl
  | some t =>
      cases hparent : L.getIn (L.parseDocument values) (splitPath path).dropLast with
      | some parent =>
          have hmap := hclean.found hdoc hparent
          obtain ⟨doc', hset, hnew⟩ := h.contents_setIn hdoc (parsePath_ne_nil path) hmap v
          have hwrote : Wrote R.index (some t) (parsePath L path) v
              (Yaml.putIn v (parsePath L path) t) := by
            have hbeside : ∀ q, Unrelated q [] →
                nonNull (Yaml.getIn R.index (parsePath L path ++ q) t) = none :=
              fun q hq => absurd rfl hq.symm.ne_nil
            have hcut := wrote_cut hmap hbeside v
            rwa [List.append_nil] at hcut
          refine ⟨_, _, setValue_eq_some.2 ⟨doc', ?_, rfl⟩, hnew, hwrote.written, hwrote⟩
          rw [parsePathAndValue_found hdoc hparent]
          exact hset
      | none =>
          obtain ⟨hmap, hplain, hbeside⟩ := hclean.missing hdoc hparent
          obtain ⟨doc', hset, hnew⟩ := h.contents_setIn hdoc
            (take_keptLength_ne_nil (L.parseDocument values) path) hmap
            (L.set (remainingPath L (L.parseDocument values) path) (some v))
          rw [hplain.set_eq h] at hset hnew
          have hwrote := wrote_cut hmap (fun q hq => by
            have hq' := hbeside q hq
            rwa [h.getValue_pointer values (List.append_ne_nil_of_right_ne_nil _ hq.ne_nil), hdoc,
              Option.bind_some] at hq') v
          rw [List.take_append_drop] at hwrote
          refine ⟨_, _, setValue_eq_some.2 ⟨doc', ?_, rfl⟩, hnew, hwrote.written, hwrote⟩
          rw [parsePathAndValue_missing hdoc hparent, hplain.set_eq h]
          exact hset

/-- Every value is written right exactly if the path leads to the keys and is clean. -/
theorem Documented.setsRight_iff (h : Documented L R) (hne : keys ≠ []) :
    (∀ v, v ≠ .scalar .null → SetsRight L values path keys v) ↔
      parsePath L path = keys ∧ SetsCleanly L R values path := by
  constructor
  · exact h.setsCleanly_of_setsRight hne
  · rintro ⟨rfl, hclean⟩ v hv
    exact h.setsRight_of_setsCleanly hclean hv

/-- **Writing by a path.** For every text, every path of escaped keys: `setValue` writes each value
    but null at the keys and changes nothing that is neither above nor below, exactly if the path is
    clean for the text. -/
theorem setValue_right_iff (h : Documented L R) (hpath : PathTo keys path) :
    (∀ v, v ≠ .scalar .null → SetsRight L values path keys v) ↔ SetsCleanly L R values path := by
  rw [h.setsRight_iff hpath.keys_ne_nil]
  exact and_iff_right (h.parsePath_eq hpath)

/-- `foo: bar`. -/
def fooBar : Yaml := .map [(.str "foo", .scalar (.str "bar"))]

/-- `this:`. -/
def thisNull : Yaml := .map [(.str "this", .scalar .null)]

theorem pathTo_thisNew : PathTo ["this", "new"] "this/new" :=
  .relative (rfl : ["this", "new"] = "this" :: ["new"]) (by decide)

theorem setsCleanly_thisNew :
    SetsCleanly plainPackages plainRules (some fooBar) "this/new" := by
  have hnone : plainPackages.getIn (some fooBar) (splitPath "this/new").dropLast = none := by
    decide
  refine ⟨nofun, fun _ hparent => (nomatch hnone.symm.trans hparent), ?_⟩
  rintro t ⟨⟩ _
  refine ⟨by decide, ⟨by decide, by decide, by decide⟩, ?_⟩
  intro q hq
  rw [plainPackages_documented.getValue_pointer (some fooBar)
    (List.append_ne_nil_of_right_ne_nil _ hq.ne_nil)]
  rfl

theorem setValue_right_thisNew :
    SetsRight plainPackages (some fooBar) "this/new" ["this", "new"] (.scalar (.int 1)) :=
  (setValue_right_iff plainPackages_documented pathTo_thisNew).2 setsCleanly_thisNew _ (by simp)

/-- Below a key that is null the write throws. -/
theorem setValue_thisNull : PathTo ["this", "new"] "this/new" ∧
    setValue plainPackages (some thisNull) "this/new" (.scalar (.int 1)) = none ∧
    ¬ ∀ v, v ≠ .scalar .null →
      SetsRight plainPackages (some thisNull) "this/new" ["this", "new"] v := by
  have hnone : setValue plainPackages (some thisNull) "this/new" (.scalar (.int 1)) = none := by
    decide
  refine ⟨pathTo_thisNew, hnone, fun hright => ?_⟩
  obtain ⟨text, htext, _⟩ := hright (.scalar (.int 1)) (by simp)
  exact nomatch hnone.symm.trans htext

end Kubeapps.Dashboard
