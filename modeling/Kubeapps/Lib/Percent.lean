/-
  Percent coding as `net/url` does it, on bytes.

  A string of Go is its bytes. `bytes` and `ofBytes?` go between them and strings of characters;
  not all bytes are UTF-8. `escape` writes a byte as it is or as `%XX`, depending on the part of the
  URL (`Mode`); `unescape` reads that, with the checks of the part.

  `unescape_escape`: outside of hosts what is escaped is read back. `unescape_query_segment`: a
  segment that is read as a query component has blanks for its plus signs.
-/
import Kubeapps.Lib.Text

namespace Kubeapps.Lib

abbrev Bytes := List UInt8

/-! ## Strings and bytes -/

/-- The bytes of a string. -/
def bytes (s : String) : Bytes := s.toByteArray.data.toList

/-- The string with these bytes, if they are UTF-8. -/
def ofBytes? (bs : Bytes) : Option String := String.fromUTF8? ⟨bs.toArray⟩

/-- The byte of an ASCII character. -/
def ascii (c : Char) : UInt8 := UInt8.ofNat c.toNat

@[simp] theorem ofBytes?_bytes (s : String) : ofBytes? (bytes s) = some s := by
  unfold ofBytes? bytes String.fromUTF8?
  rw [Array.toArray_toList]
  exact dif_pos s.isValidUTF8

theorem bytes_injective {s t : String} (h : bytes s = bytes t) : s = t := by
  have hsome := congrArg ofBytes? h
  rw [ofBytes?_bytes, ofBytes?_bytes] at hsome
  exact Option.some.inj hsome

@[simp] theorem bytes_append (s t : String) : bytes (s ++ t) = bytes s ++ bytes t := by
  unfold bytes
  rw [String.toByteArray_append]
  simp

theorem bytes_ofList (cs : List Char) :
    bytes (String.ofList cs) = cs.flatMap String.utf8EncodeChar := by
  unfold bytes
  rw [String.toByteArray_ofList, List.utf8Encode, List.toList_data_toByteArray]

theorem bytes_eq (s : String) : bytes s = s.toList.flatMap String.utf8EncodeChar := by
  rw [← bytes_ofList, String.ofList_toList]

theorem utf8EncodeChar_ascii {c : Char} (h : c.toNat < 0x80) :
    String.utf8EncodeChar c = [ascii c] := by
  unfold String.utf8EncodeChar
  dsimp only
  rw [if_pos (by show c.val.toNat ≤ 127; have hc : c.val.toNat < 0x80 := h; omega)]
  rfl

/-- A character that is not ASCII has no ASCII byte. -/
theorem le_of_mem_utf8EncodeChar {c : Char} (h : 0x80 ≤ c.toNat) {b : UInt8}
    (hb : b ∈ String.utf8EncodeChar c) : 0x80 ≤ b.toNat := by
  have hofNat : ∀ n : Nat, 0x80 ≤ n → n < 0x100 → 0x80 ≤ (UInt8.ofNat n).toNat := by
    intro n hlow hhigh
    rw [UInt8.toNat_ofNat', Nat.mod_eq_of_lt hhigh]
    exact hlow
  unfold String.utf8EncodeChar at hb
  dsimp only at hb
  rw [if_neg (by show ¬ c.val.toNat ≤ 127; have hc : 0x80 ≤ c.val.toNat := h; omega)] at hb
  split at hb
  · simp only [List.mem_cons, List.not_mem_nil, or_false] at hb
    rcases hb with rfl | rfl <;> exact hofNat _ (by omega) (by omega)
  · split at hb
    · simp only [List.mem_cons, List.not_mem_nil, or_false] at hb
      rcases hb with rfl | rfl | rfl <;> exact hofNat _ (by omega) (by omega)
    · simp only [List.mem_cons, List.not_mem_nil, or_false] at hb
      rcases hb with rfl | rfl | rfl | rfl <;> exact hofNat _ (by omega) (by omega)

/-- An ASCII byte of a string is one of its characters. -/
theorem ascii_mem_bytes {s : String} {c : Char} (hc : c.toNat < 0x80) :
    ascii c ∈ bytes s ↔ c ∈ s.toList := by
  have htoNat : (ascii c).toNat = c.toNat := by
    unfold ascii
    rw [UInt8.toNat_ofNat', Nat.mod_eq_of_lt (by omega)]
  rw [bytes_eq, List.mem_flatMap]
  constructor
  · rintro ⟨d, hd, hmem⟩
    by_cases hascii : d.toNat < 0x80
    · rw [utf8EncodeChar_ascii hascii, List.mem_singleton] at hmem
      have hd' : (ascii d).toNat = d.toNat := by
        unfold ascii
        rw [UInt8.toNat_ofNat', Nat.mod_eq_of_lt (by omega)]
      have heq : c = d := by
        apply Char.ext
        apply UInt32.toNat_inj.mp
        show c.toNat = d.toNat
        rw [← htoNat, hmem, hd']
      rw [heq]
      exact hd
    · have hle := le_of_mem_utf8EncodeChar (by omega) hmem
      omega
  · intro hmem
    exact ⟨c, hmem, by rw [utf8EncodeChar_ascii hc]; exact List.mem_singleton.mpr rfl⟩

/-! ## Percent coding -/

/-- `encoding`: the part of a URL. -/
inductive Mode where
  | path
  | pathSegment
  | host
  | zone
  | userPassword
  | queryComponent
  | fragment
  deriving DecidableEq, Repr

def isAlnum (c : UInt8) : Bool :=
  (ascii 'a' ≤ c && c ≤ ascii 'z') || (ascii 'A' ≤ c && c ≤ ascii 'Z') ||
    (ascii '0' ≤ c && c ≤ ascii '9')

/-- `shouldEscape`. -/
def shouldEscape (c : UInt8) (mode : Mode) : Bool :=
  if isAlnum c then false
  else if (mode = .host ∨ mode = .zone) ∧
      c ∈ ['!', '$', '&', '\'', '(', ')', '*', '+', ',', ';', '=', ':', '[', ']', '<', '>', '"'].map
        ascii then false
  else if c ∈ ['-', '_', '.', '~'].map ascii then false
  else if c ∈ ['$', '&', '+', ',', '/', ':', ';', '=', '?', '@'].map ascii then
    match mode with
    | .path => c = ascii '?'
    | .pathSegment => c ∈ ['/', ';', ',', '?'].map ascii
    | .userPassword => c ∈ ['@', '/', '?', ':'].map ascii
    | .queryComponent => true
    | .fragment => false
    | .host => true
    | .zone => true
  else if mode = .fragment ∧ c ∈ ['!', '(', ')', '*'].map ascii then false
  else true

/-- A digit of `%XX`. -/
def upperHex (n : Nat) : UInt8 := UInt8.ofNat (if n < 10 then 48 + n else 55 + n)

def escapeOne (mode : Mode) (c : UInt8) : Bytes :=
  if shouldEscape c mode then
    if c = ascii ' ' ∧ mode = .queryComponent then [ascii '+']
    else [ascii '%', upperHex (c.toNat / 16), upperHex (c.toNat % 16)]
  else [c]

/-- `escape`. -/
def escape (mode : Mode) (bs : Bytes) : Bytes := bs.flatMap (escapeOne mode)

/-- `unhex`, and whether it is one: `ishex`. -/
def unhex? (c : UInt8) : Option Nat :=
  if ascii '0' ≤ c ∧ c ≤ ascii '9' then some (c.toNat - 48)
  else if ascii 'a' ≤ c ∧ c ≤ ascii 'f' then some (c.toNat - 87)
  else if ascii 'A' ≤ c ∧ c ≤ ascii 'F' then some (c.toNat - 55)
  else none

/-- The byte of `%hl`, if the part of the URL may have it. In a host that is one that is not ASCII,
    or a percent sign; in a zone also a blank and what a host may have as it is. -/
def unescapeHex (mode : Mode) (h l : UInt8) : Option UInt8 :=
  match unhex? h, unhex? l with
  | some hi, some lo =>
      let v := UInt8.ofNat (hi * 16 + lo)
      let percent : Prop := h = ascii '2' ∧ l = ascii '5'
      if mode = .host ∧ hi < 8 ∧ ¬ percent then none
      else if mode = .zone ∧ ¬ percent ∧ v ≠ ascii ' ' ∧ shouldEscape v .host then none
      else some v
  | _, _ => none

/-- `unescape`. -/
def unescape (mode : Mode) : Bytes → Option Bytes
  | [] => some []
  | c :: rest =>
      if c = ascii '%' then
        match rest with
        | h :: l :: rest' =>
            match unescapeHex mode h l with
            | some v => (unescape mode rest').map (v :: ·)
            | none => none
        | _ => none
      else if c = ascii '+' ∧ mode = .queryComponent then
        (unescape mode rest).map (ascii ' ' :: ·)
      else if (mode = .host ∨ mode = .zone) ∧ c < 0x80 ∧ shouldEscape c mode then none
      else (unescape mode rest).map (c :: ·)

/-! ## What is read back -/

/-- A byte that is no percent sign is looked at on its own. -/
theorem unescape_cons_of_ne {mode : Mode} {c : UInt8} (hc : c ≠ ascii '%') (rest : Bytes) :
    unescape mode (c :: rest) =
      if c = ascii '+' ∧ mode = .queryComponent then
        (unescape mode rest).map (ascii ' ' :: ·)
      else if (mode = .host ∨ mode = .zone) ∧ c < 0x80 ∧ shouldEscape c mode then none
      else (unescape mode rest).map (c :: ·) := by
  rw [unescape.eq_def]
  exact if_neg hc

theorem unhex?_upperHex : ∀ n < 16, unhex? (upperHex n) = some n := by decide

theorem unescapeHex_upperHex {mode : Mode} (hhost : mode ≠ .host) (hzone : mode ≠ .zone)
    (b : UInt8) : unescapeHex mode (upperHex (b.toNat / 16)) (upperHex (b.toNat % 16)) = some b := by
  have hlt := b.toNat_lt
  have hdiv := Nat.div_add_mod' b.toNat 16
  unfold unescapeHex
  rw [unhex?_upperHex _ (by omega), unhex?_upperHex _ (by omega)]
  dsimp only
  rw [if_neg (fun h => hhost h.1), if_neg (fun h => hzone h.1), hdiv, UInt8.ofNat_toNat]

/-- A byte in the form `%XX` is read as the byte. -/
theorem unescape_hex {mode : Mode} (hhost : mode ≠ .host) (hzone : mode ≠ .zone) (b : UInt8)
    (rest : Bytes) :
    unescape mode (ascii '%' :: upperHex (b.toNat / 16) :: upperHex (b.toNat % 16) :: rest) =
      (unescape mode rest).map (b :: ·) := by
  rw [unescape, if_pos rfl, unescapeHex_upperHex hhost hzone]

/-- A byte that has no meaning in the coding is read as it is. -/
theorem unescape_cons {mode : Mode} (hhost : mode ≠ .host) (hzone : mode ≠ .zone) {b : UInt8}
    (hpercent : b ≠ ascii '%') (hplus : b = ascii '+' → mode ≠ .queryComponent) (rest : Bytes) :
    unescape mode (b :: rest) = (unescape mode rest).map (b :: ·) := by
  rw [unescape_cons_of_ne hpercent, if_neg (fun h => hplus h.1 h.2),
    if_neg (fun h => h.1.elim hhost hzone)]

theorem shouldEscape_percent (mode : Mode) : shouldEscape (ascii '%') mode = true := by
  cases mode <;> decide

theorem ne_percent_of_not_shouldEscape {mode : Mode} {b : UInt8} (h : ¬ shouldEscape b mode) :
    b ≠ ascii '%' := by
  intro heq
  rw [heq] at h
  exact h (shouldEscape_percent mode)

theorem unescape_escapeOne {mode : Mode} (hhost : mode ≠ .host) (hzone : mode ≠ .zone) (b : UInt8)
    (rest : Bytes) :
    unescape mode (escapeOne mode b ++ rest) = (unescape mode rest).map (b :: ·) := by
  unfold escapeOne
  by_cases hesc : shouldEscape b mode
  · rw [if_pos hesc]
    by_cases hblank : b = ascii ' ' ∧ mode = .queryComponent
    · obtain ⟨hb, hmode⟩ := hblank
      rw [if_pos ⟨hb, hmode⟩, hb, hmode, List.singleton_append,
        unescape_cons_of_ne (by decide), if_pos ⟨rfl, rfl⟩]
    · rw [if_neg hblank]
      exact unescape_hex hhost hzone b rest
  · rw [if_neg hesc]
    apply unescape_cons hhost hzone (ne_percent_of_not_shouldEscape hesc)
    intro hb hmode
    rw [hb, hmode] at hesc
    exact hesc (by decide)

/-- What is escaped is read back. -/
theorem unescape_escape {mode : Mode} (hhost : mode ≠ .host) (hzone : mode ≠ .zone) (bs : Bytes) :
    unescape mode (escape mode bs) = some bs := by
  induction bs with
  | nil => rfl
  | cons b bs ih =>
      show unescape mode (escapeOne mode b ++ escape mode bs) = _
      rw [unescape_escapeOne hhost hzone, ih]
      rfl

/-! ### A segment that is read as a query component -/

def plusToSpace (b : UInt8) : UInt8 := if b = ascii '+' then ascii ' ' else b

theorem unescape_escapeOne_segment (b : UInt8) (rest : Bytes) :
    unescape .queryComponent (escapeOne .pathSegment b ++ rest) =
      (unescape .queryComponent rest).map (plusToSpace b :: ·) := by
  unfold escapeOne
  by_cases hesc : shouldEscape b .pathSegment
  · have hplus : b ≠ ascii '+' := by
      intro hb
      rw [hb] at hesc
      exact absurd hesc (by decide)
    rw [if_pos hesc, if_neg (by simp), plusToSpace, if_neg hplus]
    exact unescape_hex (by decide) (by decide) b rest
  · rw [if_neg hesc, List.singleton_append]
    by_cases hplus : b = ascii '+'
    · rw [hplus, unescape_cons_of_ne (by decide), if_pos ⟨rfl, rfl⟩]
      rfl
    · rw [plusToSpace, if_neg hplus]
      exact unescape_cons (by decide) (by decide) (ne_percent_of_not_shouldEscape hesc)
        (fun h => absurd h hplus) rest

/-- Reading a segment as a query component gives it with blanks for its plus signs. -/
theorem unescape_query_segment (bs : Bytes) :
    unescape .queryComponent (escape .pathSegment bs) = some (bs.map plusToSpace) := by
  induction bs with
  | nil => rfl
  | cons b bs ih =>
      show unescape .queryComponent (escapeOne .pathSegment b ++ escape .pathSegment bs) = _
      rw [unescape_escapeOne_segment, ih]
      rfl

/-- Without a percent sign an element of a path is read as it is. -/
theorem unescape_segment_of_not_mem {bs : Bytes} (h : ascii '%' ∉ bs) :
    unescape .pathSegment bs = some bs := by
  induction bs with
  | nil => rfl
  | cons b bs ih =>
      rw [List.mem_cons, not_or] at h
      rw [unescape_cons_of_ne (Ne.symm h.1), if_neg (by simp), if_neg (by simp), ih h.2]
      rfl

/-- What comes before is read on its own if it has no percent and no plus sign. -/
theorem unescape_query_append {bs : Bytes} (h : ∀ b ∈ bs, b ≠ ascii '%' ∧ b ≠ ascii '+')
    (rest : Bytes) :
    unescape .queryComponent (bs ++ rest) = (unescape .queryComponent rest).map (bs ++ ·) := by
  induction bs with
  | nil =>
      show _ = Option.map id _
      rw [Option.map_id_apply, List.nil_append]
  | cons b bs ih =>
      obtain ⟨hpercent, hplus⟩ := h b List.mem_cons_self
      rw [List.cons_append, unescape_cons (by decide) (by decide) hpercent
        (fun hb => absurd hb hplus), ih fun b' hb' => h b' (List.mem_cons_of_mem _ hb'),
        Option.map_map]
      rfl

/-! ### What escaping changes -/

theorem length_escapeOne (mode : Mode) (b : UInt8) : 1 ≤ (escapeOne mode b).length := by
  unfold escapeOne
  by_cases hesc : shouldEscape b mode
  · rw [if_pos hesc]
    by_cases hblank : b = ascii ' ' ∧ mode = .queryComponent
    · rw [if_pos hblank]
      exact Nat.le_refl 1
    · rw [if_neg hblank]
      exact Nat.le_add_left 1 2
  · rw [if_neg hesc]
    exact Nat.le_refl 1

theorem length_le_length_escape (mode : Mode) (bs : Bytes) :
    bs.length ≤ (escape mode bs).length := by
  induction bs with
  | nil => exact Nat.le_refl 0
  | cons b bs ih =>
      show bs.length + 1 ≤ (escapeOne mode b ++ escape mode bs).length
      have hone := length_escapeOne mode b
      rw [List.length_append]
      omega

/-- An escaped segment that is no longer than the segment has nothing to escape. -/
theorem not_shouldEscape_of_length {bs : Bytes}
    (h : (escape .pathSegment bs).length = bs.length) : ∀ b ∈ bs, ¬ shouldEscape b .pathSegment := by
  induction bs with
  | nil => exact fun b hb => absurd hb List.not_mem_nil
  | cons b bs ih =>
      have hlen : (escapeOne .pathSegment b).length + (escape .pathSegment bs).length =
          bs.length + 1 := by
        rw [← List.length_append]
        exact h
      have hone := length_escapeOne .pathSegment b
      have hle := length_le_length_escape .pathSegment bs
      have hb : ¬ shouldEscape b .pathSegment := by
        intro hesc
        have hthree : (escapeOne .pathSegment b).length = 3 := by
          unfold escapeOne
          rw [if_pos hesc, if_neg (by simp)]
          rfl
        omega
      intro b' hb'
      rcases List.mem_cons.mp hb' with rfl | hmem
      · exact hb
      · exact ih (by omega) b' hmem

theorem escape_of_not_shouldEscape {mode : Mode} {bs : Bytes}
    (h : ∀ b ∈ bs, ¬ shouldEscape b mode) : escape mode bs = bs := by
  induction bs with
  | nil => rfl
  | cons b bs ih =>
      show escapeOne mode b ++ escape mode bs = _
      rw [ih fun b' hb' => h b' (List.mem_cons_of_mem _ hb'), escapeOne,
        if_neg (h b List.mem_cons_self)]
      rfl

/-! ### Unescaping piece by piece -/

/-- `unescape` as a relation: the coded bytes and what they say. -/
inductive Reads (mode : Mode) : Bytes → Bytes → Prop where
  | nil : Reads mode [] []
  | hex {h l v : UInt8} {p x : Bytes} (hv : unescapeHex mode h l = some v) (hp : Reads mode p x) :
      Reads mode (ascii '%' :: h :: l :: p) (v :: x)
  | plus {p x : Bytes} (hmode : mode = .queryComponent) (hp : Reads mode p x) :
      Reads mode (ascii '+' :: p) (ascii ' ' :: x)
  | byte {c : UInt8} {p x : Bytes} (hc : c ≠ ascii '%')
      (hplus : ¬ (c = ascii '+' ∧ mode = .queryComponent))
      (hhost : ¬ ((mode = .host ∨ mode = .zone) ∧ c < 0x80 ∧ shouldEscape c mode = true))
      (hp : Reads mode p x) : Reads mode (c :: p) (c :: x)

theorem reads_of_unescape {mode : Mode} {p x : Bytes} (h : unescape mode p = some x) :
    Reads mode p x := by
  fun_induction unescape mode p generalizing x with
  | case1 =>
      rw [← Option.some.inj h]
      exact Reads.nil
  | case2 c l rest' v hv ih =>
      obtain ⟨x', hx', heq⟩ := Option.map_eq_some_iff.mp h
      rw [← heq]
      exact Reads.hex hv (ih hx')
  | case3 => exact absurd h (by simp)
  | case4 => exact absurd h (by simp)
  | case5 c rest hc hplus ih =>
      obtain ⟨x', hx', heq⟩ := Option.map_eq_some_iff.mp h
      rw [← heq, hplus.1]
      exact Reads.plus hplus.2 (ih hx')
  | case6 => exact absurd h (by simp)
  | case7 c rest hc hplus hhost ih =>
      obtain ⟨x', hx', heq⟩ := Option.map_eq_some_iff.mp h
      rw [← heq]
      exact Reads.byte hc hplus hhost (ih hx')

theorem unescape_of_reads {mode : Mode} {p x : Bytes} (h : Reads mode p x) :
    unescape mode p = some x := by
  induction h with
  | nil => rfl
  | hex hv _ ih =>
      rw [unescape, if_pos rfl, hv]
      dsimp only
      rw [ih]
      rfl
  | plus hmode _ ih =>
      rw [unescape_cons_of_ne (by decide), if_pos ⟨rfl, hmode⟩, ih]
      rfl
  | byte hc hplus hhost _ ih =>
      rw [unescape_cons_of_ne hc, if_neg hplus, if_neg hhost, ih]
      rfl

theorem unescape_eq_some_iff {mode : Mode} {p x : Bytes} :
    unescape mode p = some x ↔ Reads mode p x := ⟨reads_of_unescape, unescape_of_reads⟩

theorem Reads.append {mode : Mode} {p x q y : Bytes} (hp : Reads mode p x) (hq : Reads mode q y) :
    Reads mode (p ++ q) (x ++ y) := by
  induction hp with
  | nil => exact hq
  | hex hv _ ih => exact Reads.hex hv ih
  | plus hmode _ ih => exact Reads.plus hmode ih
  | byte hc hplus hhost _ ih => exact Reads.byte hc hplus hhost ih

theorem unescapeHex_isSome {mode : Mode} {h l v : UInt8} (hv : unescapeHex mode h l = some v) :
    unhex? h ≠ none ∧ unhex? l ≠ none := by
  unfold unescapeHex at hv
  cases hh : unhex? h with
  | none =>
      rw [hh] at hv
      exact absurd hv (by simp)
  | some n =>
      cases hl : unhex? l with
      | none =>
          rw [hh, hl] at hv
          exact absurd hv (by simp)
      | some m => exact ⟨Option.some_ne_none n, Option.some_ne_none m⟩

/-- Before a byte that is no hexadecimal digit the coded bytes can be cut. -/
theorem Reads.split {mode : Mode} {a b z : Bytes} {c : UInt8} (h : Reads mode (a ++ c :: b) z)
    (hc : unhex? c = none) : ∃ x y, Reads mode a x ∧ Reads mode (c :: b) y ∧ z = x ++ y := by
  generalize hp : a ++ c :: b = p at h
  induction h generalizing a with
  | nil => exact absurd hp (by simp)
  | @hex h l v p x hv hx ih =>
      have hne := unescapeHex_isSome hv
      match a, hp with
      | [], hp =>
          rw [List.nil_append] at hp
          rw [hp]
          exact ⟨[], v :: x, Reads.nil, Reads.hex hv hx, rfl⟩
      | [_], hp =>
          simp only [List.cons_append, List.nil_append, List.cons.injEq] at hp
          exact absurd (hp.2.1 ▸ hc) hne.1
      | [_, _], hp =>
          simp only [List.cons_append, List.nil_append, List.cons.injEq] at hp
          exact absurd (hp.2.2.1 ▸ hc) hne.2
      | _ :: _ :: _ :: a, hp =>
          simp only [List.cons_append, List.cons.injEq] at hp
          obtain ⟨hpercent, hh, hl, hp⟩ := hp
          obtain ⟨x', y, hx', hy, heq⟩ := ih hp
          rw [hpercent, hh, hl, heq]
          exact ⟨v :: x', y, Reads.hex hv hx', hy, rfl⟩
  | @plus p x hmode hx ih =>
      match a, hp with
      | [], hp =>
          rw [List.nil_append] at hp
          rw [hp]
          exact ⟨[], ascii ' ' :: x, Reads.nil, Reads.plus hmode hx, rfl⟩
      | _ :: a, hp =>
          simp only [List.cons_append, List.cons.injEq] at hp
          obtain ⟨x', y, hx', hy, heq⟩ := ih hp.2
          rw [hp.1, heq]
          exact ⟨ascii ' ' :: x', y, Reads.plus hmode hx', hy, rfl⟩
  | @byte d p x hd hplus hhost hx ih =>
      match a, hp with
      | [], hp =>
          rw [List.nil_append] at hp
          rw [hp]
          exact ⟨[], d :: x, Reads.nil, Reads.byte hd hplus hhost hx, rfl⟩
      | _ :: a, hp =>
          simp only [List.cons_append, List.cons.injEq] at hp
          obtain ⟨x', y, hx', hy, heq⟩ := ih hp.2
          rw [hp.1, heq]
          exact ⟨d :: x', y, Reads.byte hd hplus hhost hx', hy, rfl⟩

/-- What is escaped is read back, as a relation. -/
theorem reads_escape {mode : Mode} (hhost : mode ≠ .host) (hzone : mode ≠ .zone) (bs : Bytes) :
    Reads mode (escape mode bs) bs := reads_of_unescape (unescape_escape hhost hzone bs)

theorem escape_append (mode : Mode) (x y : Bytes) :
    escape mode (x ++ y) = escape mode x ++ escape mode y := List.flatMap_append

theorem escape_injective {mode : Mode} (hhost : mode ≠ .host) (hzone : mode ≠ .zone) {x y : Bytes}
    (h : escape mode x = escape mode y) : x = y := by
  have hx := unescape_escape hhost hzone x
  rw [h, unescape_escape hhost hzone y] at hx
  exact (Option.some.inj hx).symm

/-! ### Names of path segments -/

theorem loop_toList (bs : ByteArray) (i : Nat) (r : List UInt8) :
    ByteArray.toList.loop bs i r = r.reverse ++ bs.data.toList.drop i := by
  fun_induction ByteArray.toList.loop bs i r with
  | case1 i r hi ih =>
      have hget : bs.get! i = bs.data.toList.get ⟨i, hi⟩ := by
        show bs.data[i]! = _
        exact getElem!_pos bs.data i hi
      rw [ih, hget, List.get_eq_getElem, List.reverse_cons, List.append_assoc,
        List.singleton_append, List.getElem_cons_drop]
  | case2 i r hi =>
      have hlen : bs.data.toList.length ≤ i := Nat.not_lt.mp hi
      rw [List.drop_eq_nil_of_le hlen, List.append_nil]

theorem toUTF8_toList (s : String) : s.toUTF8.toList = bytes s := loop_toList s.toUTF8 0 []

theorem flatMap_escapeByte : ∀ n < 256,
    (escapeByte (UInt8.ofNat n)).flatMap String.utf8EncodeChar =
      escapeOne .pathSegment (UInt8.ofNat n) := by
  decide +kernel

theorem bytes_pathEscape (s : String) : bytes (pathEscape s) = escape .pathSegment (bytes s) := by
  unfold pathEscape escape
  rw [bytes_ofList, toUTF8_toList, List.flatMap_assoc]
  congr 1
  funext b
  have hb := flatMap_escapeByte b.toNat b.toNat_lt
  rwa [UInt8.ofNat_toNat] at hb

/-- The characters of a name, with blanks for plus signs. -/
def plusToSpaces (s : String) : String :=
  String.ofList (s.toList.map fun c => if c = '+' then ' ' else c)

theorem utf8EncodeChar_plusToSpace (c : Char) :
    String.utf8EncodeChar (if c = '+' then ' ' else c) =
      (String.utf8EncodeChar c).map plusToSpace := by
  by_cases hplus : c = '+'
  · rw [if_pos hplus, hplus]
    decide
  · rw [if_neg hplus]
    have hne : ∀ b ∈ String.utf8EncodeChar c, plusToSpace b = b := by
      intro b hb
      apply if_neg
      intro heq
      rw [heq] at hb
      have hmem : ascii '+' ∈ bytes (String.ofList [c]) := by
        rw [bytes_ofList, List.flatMap_singleton]
        exact hb
      rw [ascii_mem_bytes (by decide), String.toList_ofList, List.mem_singleton] at hmem
      exact hplus hmem.symm
    rw [List.map_congr_left hne, List.map_id']

theorem bytes_plusToSpaces (s : String) :
    bytes (plusToSpaces s) = (bytes s).map plusToSpace := by
  unfold plusToSpaces
  rw [bytes_ofList, bytes_eq s, List.flatMap_map, List.map_flatMap]
  congr 1
  funext c
  exact utf8EncodeChar_plusToSpace c

theorem shouldEscape_ascii : ∀ n < 128,
    shouldEscape (ascii (Char.ofNat n)) .pathSegment = !pathSegmentChar (Char.ofNat n) := by
  decide

theorem shouldEscape_high : ∀ n < 256, 0x80 ≤ n →
    shouldEscape (UInt8.ofNat n) .pathSegment = true := by
  decide +kernel

theorem pathSegmentChar_ascii {c : Char} (h : pathSegmentChar c = true) : c.toNat < 0x80 := by
  delta pathSegmentChar Char.isAlphanum Char.isAlpha Char.isUpper Char.isLower Char.isDigit at h
  simp only [Bool.or_eq_true, Bool.and_eq_true, decide_eq_true_eq, List.mem_cons,
    List.not_mem_nil, or_false, UInt32.le_iff_toNat_le] at h
  have hval : c.toNat = c.val.toNat := rfl
  rcases h with ((h | h) | h) | h
  · have := h.2
    simp at this
    omega
  · have := h.2
    simp at this
    omega
  · have := h.2
    simp at this
    omega
  · rcases h with h | h | h | h | h | h | h | h | h | h <;> rw [h] <;> decide

/-- No byte of a name is escaped if and only if all its characters may stand in a segment. -/
theorem not_shouldEscape_iff {s : String} :
    (∀ b ∈ bytes s, ¬ shouldEscape b .pathSegment) ↔
      ∀ c ∈ s.toList, pathSegmentChar c = true := by
  have hof : ∀ c : Char, Char.ofNat c.toNat = c := Char.ofNat_toNat
  constructor
  · intro hbytes c hc
    by_cases hascii : c.toNat < 0x80
    · have hb := hbytes _ ((ascii_mem_bytes hascii).mpr hc)
      have hchar := shouldEscape_ascii c.toNat hascii
      rw [hof] at hchar
      rw [hchar, Bool.not_eq_true, Bool.not_eq_false'] at hb
      exact hb
    · obtain ⟨b, hb⟩ := List.exists_mem_of_ne_nil _ (String.utf8EncodeChar_ne_nil (c := c))
      have hhigh := shouldEscape_high b.toNat b.toNat_lt (le_of_mem_utf8EncodeChar (by omega) hb)
      rw [UInt8.ofNat_toNat] at hhigh
      refine absurd hhigh (hbytes b ?_)
      rw [bytes_eq]
      exact List.mem_flatMap.mpr ⟨c, hc, hb⟩
  · intro hchars b hb
    rw [bytes_eq] at hb
    obtain ⟨c, hc, hmem⟩ := List.mem_flatMap.mp hb
    have hseg := hchars c hc
    have hascii := pathSegmentChar_ascii hseg
    rw [utf8EncodeChar_ascii hascii, List.mem_singleton] at hmem
    have hchar := shouldEscape_ascii c.toNat hascii
    rw [hof, hseg] at hchar
    rw [hmem, hchar]
    decide

/-- A name is read back as it is stored if it has no character that is escaped, and no plus. -/
theorem pathEscape_eq_plusToSpaces_iff {s : String} :
    pathEscape s = plusToSpaces s ↔ ∀ c ∈ s.toList, pathSegmentChar c = true ∧ c ≠ '+' := by
  constructor
  · intro heq
    have hbytes := congrArg bytes heq
    rw [bytes_pathEscape, bytes_plusToSpaces] at hbytes
    have hno := not_shouldEscape_of_length (by rw [hbytes, List.length_map])
    rw [escape_of_not_shouldEscape hno] at hbytes
    intro c hc
    refine ⟨not_shouldEscape_iff.1 hno c hc, ?_⟩
    intro hplus
    rw [hplus] at hc
    have hmem : ascii '+' ∈ bytes s := (ascii_mem_bytes (by decide)).mpr hc
    rw [hbytes, List.mem_map] at hmem
    obtain ⟨b, _, hb⟩ := hmem
    unfold plusToSpace at hb
    by_cases hb' : b = ascii '+'
    · rw [if_pos hb'] at hb
      exact absurd hb (by decide)
    · rw [if_neg hb'] at hb
      exact hb' hb
  · intro hchars
    have hno := not_shouldEscape_iff.2 fun c hc => (hchars c hc).1
    have hself : plusToSpaces s = s := by
      unfold plusToSpaces
      have hid : ∀ c ∈ s.toList, (if c = '+' then ' ' else c) = c :=
        fun c hc => if_neg (hchars c hc).2
      rw [List.map_congr_left hid, List.map_id', String.ofList_toList]
    apply bytes_injective
    rw [bytes_pathEscape, escape_of_not_shouldEscape hno, hself]

end Kubeapps.Lib
