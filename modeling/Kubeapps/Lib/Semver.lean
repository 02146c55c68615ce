/-
  Semantic versions, as far as the programs rely on them.

  `Semver` is a version library: parsing (which is lenient: it accepts a leading `v` and missing
  components), printing (always the full form) and comparison. What is assumed of it is that the
  comparison is a strict weak order and that a printed version parses and prints as itself.

  A string is `Canonical` when it is the printed form of the version it denotes. Printing what
  was parsed keeps a list of strings, up to order, exactly when all of them are
  (`canonical_of_perm`, `map_string_of_canonical`).

  `Semver.oneDigit` is a library for versions such as `v1.0` whose numbers have one digit.
-/
import Kubeapps.Lib.Go

namespace Kubeapps.Lib

/-- A version library. -/
structure Semver where
  Version : Type
  newVersion : String → Except String Version
  string : Version → String
  lessThan : Version → Version → Bool
  lessThan_asymm : ∀ a b, lessThan a b = true → lessThan b a = false
  lessThan_trans : ∀ a b c, lessThan a b = false → lessThan b c = false → lessThan a c = false
  newVersion_string : ∀ t v, newVersion t = .ok v →
    ∃ v', newVersion (string v) = .ok v' ∧ string v' = string v

namespace Semver

variable (lib : Semver)

/-- The versions of a list of strings, or `none` if one does not parse. -/
def parseAll : List String → Option (List lib.Version)
  | [] => some []
  | t :: ts =>
      match lib.newVersion t, parseAll ts with
      | .ok v, some vs => some (v :: vs)
      | _, _ => none

/-- The string is the printed form of a version. -/
def Canonical (t : String) : Prop := ∃ v, lib.newVersion t = .ok v ∧ lib.string v = t

/-- The string is a version. -/
def Valid (t : String) : Prop := ∃ v, lib.newVersion t = .ok v

instance (t : String) : Decidable (lib.Valid t) :=
  match h : lib.newVersion t with
  | .ok v => .isTrue ⟨v, h⟩
  | .error e => .isFalse fun ⟨v, hv⟩ => by cases h.symm.trans hv

/-- The first string is a version below the second. -/
def Less (t u : String) : Prop :=
  ∃ v w, lib.newVersion t = .ok v ∧ lib.newVersion u = .ok w ∧ lib.lessThan v w = true

/-- The first string is a version, and not below the second. -/
def AtLeast (t u : String) : Prop :=
  ∃ v w, lib.newVersion t = .ok v ∧ lib.newVersion u = .ok w ∧ lib.lessThan v w = false

/-- The strings are versions, the newest first. -/
def Descending (ts : List String) : Prop :=
  ∃ vs, lib.parseAll ts = some vs ∧ vs.Pairwise fun a b => lib.lessThan a b = false

variable {lib}

theorem parseAll_cons_eq_some {t : String} {ts : List String} {ws : List lib.Version} :
    lib.parseAll (t :: ts) = some ws ↔
      ∃ v vs, lib.newVersion t = .ok v ∧ lib.parseAll ts = some vs ∧ ws = v :: vs := by
  cases ht : lib.newVersion t with
  | error e => simp [parseAll, ht]
  | ok v =>
      cases hts : lib.parseAll ts with
      | none => simp [parseAll, ht, hts]
      | some vs => simp [parseAll, ht, hts, eq_comm]

/-- A list parses when every string of it does. -/
theorem parseAll_isSome {ts : List String} :
    (∃ vs, lib.parseAll ts = some vs) ↔ ∀ t ∈ ts, lib.Valid t := by
  induction ts with
  | nil => simp [parseAll]
  | cons t ts ih =>
      simp only [parseAll_cons_eq_some, List.forall_mem_cons, ← ih]
      constructor
      · rintro ⟨_, v, vs, hv, hvs, _⟩
        exact ⟨⟨v, hv⟩, vs, hvs⟩
      · rintro ⟨⟨v, hv⟩, vs, hvs⟩
        exact ⟨_, v, vs, hv, hvs, rfl⟩

theorem mem_parseAll {ts : List String} {vs : List lib.Version} (h : lib.parseAll ts = some vs)
    {v : lib.Version} (hv : v ∈ vs) : ∃ t ∈ ts, lib.newVersion t = .ok v := by
  induction ts generalizing vs with
  | nil =>
      cases h
      cases hv
  | cons t ts ih =>
      obtain ⟨w, ws, hw, hws, rfl⟩ := parseAll_cons_eq_some.1 h
      rcases List.mem_cons.mp hv with rfl | hv
      · exact ⟨t, List.mem_cons_self, hw⟩
      · obtain ⟨t', ht', hp⟩ := ih hws hv
        exact ⟨t', List.mem_cons_of_mem t ht', hp⟩

/-- Canonical strings are printed as they were. -/
theorem map_string_of_canonical {ts : List String} {vs : List lib.Version}
    (h : lib.parseAll ts = some vs) (hc : ∀ t ∈ ts, lib.Canonical t) :
    vs.map lib.string = ts := by
  induction ts generalizing vs with
  | nil =>
      cases h
      rfl
  | cons t ts ih =>
      obtain ⟨w, ws, hw, hws, rfl⟩ := parseAll_cons_eq_some.1 h
      obtain ⟨w', hw', hs⟩ := hc t List.mem_cons_self
      cases hw.symm.trans hw'
      rw [List.map_cons, hs, ih hws fun x hx => hc x (List.mem_cons_of_mem t hx)]

/-- A printed version is canonical. -/
theorem canonical_string {t : String} {v : lib.Version} (h : lib.newVersion t = .ok v) :
    lib.Canonical (lib.string v) := by
  obtain ⟨v', hv', hs⟩ := lib.newVersion_string t v h
  exact ⟨v', hv', hs⟩

/-- Strings that printing reproduces, up to order, are canonical. -/
theorem canonical_of_perm {ts : List String} {vs : List lib.Version}
    (h : lib.parseAll ts = some vs) (hp : (vs.map lib.string).Perm ts) :
    ∀ t ∈ ts, lib.Canonical t := by
  intro t ht
  obtain ⟨v, hv, rfl⟩ := List.mem_map.mp (hp.mem_iff.mpr ht)
  obtain ⟨t', _, hp'⟩ := mem_parseAll h hv
  exact canonical_string hp'

/-- Parsed canonical strings, put into an order, are the strings in that order. -/
theorem parseAll_map_string {vs : List lib.Version}
    (h : ∀ v ∈ vs, lib.newVersion (lib.string v) = .ok v) :
    lib.parseAll (vs.map lib.string) = some vs := by
  induction vs with
  | nil => rfl
  | cons v vs ih =>
      refine parseAll_cons_eq_some.2 ⟨v, vs, h v List.mem_cons_self, ?_, rfl⟩
      exact ih fun w hw => h w (List.mem_cons_of_mem v hw)

theorem less_iff {t u : String} {v w : lib.Version} (hv : lib.newVersion t = .ok v)
    (hw : lib.newVersion u = .ok w) : lib.Less t u ↔ lib.lessThan v w = true := by
  constructor
  · rintro ⟨v', w', hv', hw', hlt⟩
    cases hv.symm.trans hv'
    cases hw.symm.trans hw'
    exact hlt
  · exact fun hlt => ⟨v, w, hv, hw, hlt⟩

theorem atLeast_iff {t u : String} {v w : lib.Version} (hv : lib.newVersion t = .ok v)
    (hw : lib.newVersion u = .ok w) : lib.AtLeast t u ↔ lib.lessThan v w = false := by
  constructor
  · rintro ⟨v', w', hv', hw', hlt⟩
    cases hv.symm.trans hv'
    cases hw.symm.trans hw'
    exact hlt
  · exact fun hlt => ⟨v, w, hv, hw, hlt⟩

theorem less_asymm {t u : String} (h : lib.Less t u) : ¬ lib.Less u t := by
  obtain ⟨v, w, hv, hw, hlt⟩ := h
  rw [less_iff hw hv, lib.lessThan_asymm v w hlt]
  exact Bool.false_ne_true

theorem not_less_trans {t u x : String} (hu : lib.Valid u) (htu : ¬ lib.Less t u)
    (hux : ¬ lib.Less u x) : ¬ lib.Less t x := by
  obtain ⟨w, hw⟩ := hu
  rintro ⟨v, y, hv, hy, hlt⟩
  rw [less_iff hv hw, Bool.not_eq_true] at htu
  rw [less_iff hw hy, Bool.not_eq_true] at hux
  rw [lib.lessThan_trans v w y htu hux] at hlt
  exact Bool.false_ne_true hlt

/-! ## Versions of one-digit numbers -/

/-- The value of a decimal digit. -/
def digit (c : Char) : Option Nat :=
  if '0'.toNat ≤ c.toNat ∧ c.toNat ≤ '9'.toNat then some (c.toNat - '0'.toNat) else none

def digitChar (n : Nat) : Char := Char.ofNat ('0'.toNat + n)

def digitVersion (a b c : Char) : Except String (Fin 10 × Fin 10 × Fin 10) :=
  match digit a, digit b, digit c with
  | some x, some y, some z => .ok (Fin.ofNat 10 x, Fin.ofNat 10 y, Fin.ofNat 10 z)
  | _, _, _ => .error "Invalid Semantic Version"

/-- Up to three numbers. -/
def digitNumbers : List Char → Except String (Fin 10 × Fin 10 × Fin 10)
  | [a, p, b, q, c] =>
      if p = '.' ∧ q = '.' then digitVersion a b c else .error "Invalid Semantic Version"
  | [a, p, b] => if p = '.' then digitVersion a b '0' else .error "Invalid Semantic Version"
  | [a] => digitVersion a '0' '0'
  | _ => .error "Invalid Semantic Version"

/-- Up to three numbers, after an optional `v`. -/
def digitParse (cs : List Char) : Except String (Fin 10 × Fin 10 × Fin 10) :=
  digitNumbers (if cs.head? = some 'v' then cs.tail else cs)

def digitString (v : Fin 10 × Fin 10 × Fin 10) : List Char :=
  [digitChar v.1, '.', digitChar v.2.1, '.', digitChar v.2.2]

theorem digit_digitChar : ∀ n : Fin 10, digit (digitChar n) = some n.val := by decide

theorem digitChar_ne_v : ∀ n : Fin 10, digitChar n ≠ 'v' := by decide

theorem ofNat_val (n : Fin 10) : Fin.ofNat 10 n.val = n := by
  apply Fin.ext
  exact Nat.mod_eq_of_lt n.isLt

theorem digitParse_digitString (v : Fin 10 × Fin 10 × Fin 10) :
    digitParse (digitString v) = .ok v := by
  obtain ⟨a, b, c⟩ := v
  have hhead : ¬ (digitString (a, b, c)).head? = some 'v' := by
    intro h
    exact digitChar_ne_v a (Option.some.inj h)
  unfold digitParse
  rw [if_neg hhead]
  show digitNumbers [digitChar a, '.', digitChar b, '.', digitChar c] = _
  rw [digitNumbers, if_pos ⟨rfl, rfl⟩, digitVersion, digit_digitChar, digit_digitChar,
    digit_digitChar]
  dsimp only
  rw [ofNat_val, ofNat_val, ofNat_val]

/-- A version library for numbers of one digit, without pre-release or build parts. -/
def oneDigit : Semver where
  Version := Fin 10 × Fin 10 × Fin 10
  newVersion t := digitParse t.toList
  string v := String.ofList (digitString v)
  lessThan a b := decide
    (a.1 < b.1 ∨ a.1 = b.1 ∧ (a.2.1 < b.2.1 ∨ a.2.1 = b.2.1 ∧ a.2.2 < b.2.2))
  lessThan_asymm a b h := by
    simp only [decide_eq_true_eq, decide_eq_false_iff_not] at h ⊢
    omega
  lessThan_trans a b c hab hbc := by
    simp only [decide_eq_false_iff_not] at hab hbc ⊢
    omega
  newVersion_string t v h := ⟨v, by simp [digitParse_digitString], rfl⟩

end Semver

end Kubeapps.Lib
