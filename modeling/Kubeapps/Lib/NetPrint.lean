/-
  What `net/url` prints, and that it is parsed as what it was.

  Every printed part is made of plain bytes (`plainByte`), so the parts of a printed text are found
  again. The path is read as it was (`unescape_escapedPath`). A host may be printed in a way that
  is not parsed (a zone with a byte that is not ASCII); if it is parsed, it is the same
  (`parseAuthority_authority`).
-/
import Kubeapps.Lib.NetParse

namespace Kubeapps.Lib.Net

/-! ## Plain bytes -/

/-- A byte that is no blank and no control character, and begins no query or fragment. -/
def plainByte (c : UInt8) : Bool :=
  0x20 < c && c < 0x7f && c != ascii '?' && c != ascii '#'

theorem forall_byte {P : UInt8 → Prop} (h : ∀ n < 256, P (UInt8.ofNat n)) (b : UInt8) : P b := by
  have hb := h b.toNat b.toNat_lt
  rwa [UInt8.ofNat_toNat] at hb

/-- What is plain, byte by byte: hexadecimal digits, what is left alone in the parts that are
    printed, and the letters of a scheme. -/
theorem byte_facts (b : UInt8) :
    (plainByte b = true → isCTL b = false) ∧ (unhex? b ≠ none → plainByte b = true) ∧
      (shouldEscape b .path = false → plainByte b = true) ∧
      (shouldEscape b .host = false → plainByte b = true) ∧
      (shouldEscape b .userPassword = false → plainByte b = true) ∧
      ((decide (b ∈ ['!', '$', '&', '\'', '(', ')', '*', '+', ',', ';', '=', ':', '@', '[', ']',
        '%'].map ascii) || !shouldEscape b .path) = true → plainByte b = true) ∧
      (schemeByte b = true → plainByte b = true ∧ b ≠ ascii ':' ∧ schemeByte (toLower b) = true ∧
        toLower (toLower b) = toLower b) ∧
      (isAlpha b = true → isAlpha (toLower b) = true) := by
  revert b
  apply forall_byte
  decide +kernel

theorem plainByte_not_isCTL {b : UInt8} (h : plainByte b = true) : isCTL b = false :=
  (byte_facts b).1 h

/-- A byte of an escaped text is a percent sign, a digit, or one that is left alone. -/
theorem mem_escape {mode : Mode} (hmode : mode ≠ .queryComponent) {bs : Bytes} {b : UInt8}
    (h : b ∈ escape mode bs) :
    b = ascii '%' ∨ unhex? b ≠ none ∨ (shouldEscape b mode = false ∧ b ∈ bs) := by
  obtain ⟨c, hc, hb⟩ := List.mem_flatMap.mp h
  have hlt := c.toNat_lt
  unfold escapeOne at hb
  by_cases hesc : shouldEscape c mode = true
  · rw [if_pos hesc, if_neg (fun hand => hmode hand.2)] at hb
    simp only [List.mem_cons, List.not_mem_nil, or_false] at hb
    rcases hb with hb | hb | hb
    · exact Or.inl hb
    · right
      left
      rw [hb, unhex?_upperHex _ (by omega)]
      exact Option.some_ne_none _
    · right
      left
      rw [hb, unhex?_upperHex _ (by omega)]
      exact Option.some_ne_none _
  · rw [if_neg hesc, List.mem_singleton] at hb
    rw [Bool.not_eq_true] at hesc
    rw [hb]
    exact Or.inr (Or.inr ⟨hesc, hc⟩)

theorem not_mem_escape {mode : Mode} (hmode : mode ≠ .queryComponent) {c : UInt8}
    (hc : c ≠ ascii '%' ∧ unhex? c = none ∧ shouldEscape c mode = true) (bs : Bytes) :
    c ∉ escape mode bs := by
  intro hmem
  rcases mem_escape hmode hmem with h | h | h
  · exact hc.1 h
  · exact h hc.2.1
  · rw [hc.2.2] at h
    exact Bool.noConfusion h.1

theorem plainByte_of_unhex {b : UInt8} (h : unhex? b ≠ none) : plainByte b = true :=
  (byte_facts b).2.1 h

/-- The parts that are printed. -/
def PrintMode (mode : Mode) : Prop := mode = .path ∨ mode = .host ∨ mode = .userPassword

theorem plainByte_of_not_shouldEscape {mode : Mode} (hmode : PrintMode mode) {b : UInt8}
    (h : shouldEscape b mode = false) : plainByte b = true := by
  obtain ⟨-, -, hpath, hhost, huser, -⟩ := byte_facts b
  rcases hmode with rfl | rfl | rfl
  · exact hpath h
  · exact hhost h
  · exact huser h

theorem escape_plain {mode : Mode} (hmode : PrintMode mode) {bs : Bytes} {b : UInt8}
    (h : b ∈ escape mode bs) : plainByte b = true := by
  have hquery : mode ≠ .queryComponent := by
    intro heq
    rw [heq] at hmode
    rcases hmode with h | h | h <;> exact Mode.noConfusion h
  rcases mem_escape hquery h with h | h | h
  · rw [h]
    decide
  · exact plainByte_of_unhex h
  · exact plainByte_of_not_shouldEscape hmode h.1

theorem validEncoded_plain {raw : Bytes} (hvalid : validEncoded .path raw = true) {b : UInt8}
    (h : b ∈ raw) : plainByte b = true := by
  exact (byte_facts b).2.2.2.2.2.1 (List.all_eq_true.mp hvalid b h)

theorem escaped_plain {decoded raw : Bytes} {b : UInt8} (h : b ∈ escaped .path decoded raw) :
    plainByte b = true := by
  unfold escaped at h
  by_cases hraw : raw ≠ [] ∧ validEncoded .path raw = true ∧ unescape .path raw = some decoded
  · rw [if_pos hraw] at h
    exact validEncoded_plain hraw.2.1 h
  · rw [if_neg hraw] at h
    exact escape_plain (Or.inl rfl) h

/-! ## The path -/

theorem unescape_escaped {mode : Mode} (hhost : mode ≠ .host) (hzone : mode ≠ .zone)
    (decoded raw : Bytes) : unescape mode (escaped mode decoded raw) = some decoded := by
  unfold escaped
  by_cases hraw : raw ≠ [] ∧ validEncoded mode raw = true ∧ unescape mode raw = some decoded
  · rw [if_pos hraw]
    exact hraw.2.2
  · rw [if_neg hraw]
    exact unescape_escape hhost hzone decoded

theorem escapedPath_plain {u : Url} {b : UInt8} (h : b ∈ u.escapedPath) : plainByte b = true := by
  unfold Url.escapedPath at h
  by_cases hstar : u.path = [ascii '*']
  · rw [if_pos hstar] at h
    by_cases hraw : u.rawPath ≠ [] ∧ validEncoded .path u.rawPath = true ∧
        unescape .path u.rawPath = some u.path
    · rw [if_pos hraw] at h
      exact validEncoded_plain hraw.2.1 h
    · rw [if_neg hraw, List.mem_singleton] at h
      rw [h]
      decide
  · rw [if_neg hstar] at h
    exact escaped_plain h

theorem escapedPath_eq {u : Url} (h : u.path ≠ [ascii '*']) :
    u.escapedPath = escaped .path u.path u.rawPath := if_neg h

theorem unescape_escapedPath (u : Url) : unescape .path u.escapedPath = some u.path := by
  unfold Url.escapedPath
  by_cases hstar : u.path = [ascii '*']
  · rw [if_pos hstar]
    by_cases hraw : u.rawPath ≠ [] ∧ validEncoded .path u.rawPath = true ∧
        unescape .path u.rawPath = some u.path
    · rw [if_pos hraw]
      exact hraw.2.2
    · rw [if_neg hraw, hstar]
      decide
  · rw [if_neg hstar]
    exact unescape_escaped (by decide) (by decide) _ _

/-- A path that is parsed is written as it was, as far as that is valid. -/
theorem setEncoded_escapedPath (u : Url) :
    setEncoded .path u.escapedPath = some (u.path,
      if escape .path u.path = u.escapedPath then [] else u.escapedPath) := by
  unfold setEncoded
  rw [unescape_escapedPath]
  rfl

/-- Writing a path once more changes nothing. -/
theorem escaped_escaped {decoded raw : Bytes} :
    escaped .path decoded (if escape .path decoded = escaped .path decoded raw then []
      else escaped .path decoded raw) = escaped .path decoded raw := by
  by_cases heq : escape .path decoded = escaped .path decoded raw
  · rw [if_pos heq]
    unfold escaped at heq ⊢
    rw [if_neg (fun hand : ([] : Bytes) ≠ [] ∧ _ => hand.1 rfl)]
    exact heq
  · rw [if_neg heq]
    by_cases hraw : raw ≠ [] ∧ validEncoded .path raw = true ∧ unescape .path raw = some decoded
    · have hself : escaped .path decoded raw = raw := if_pos hraw
      rw [hself, hself]
    · exact absurd (if_neg hraw).symm heq

/-! ## The authority -/

/-- What a host says does not depend on its checks. -/
theorem reads_path {mode : Mode} (hmode : mode ≠ .queryComponent) {p x : Bytes}
    (h : Reads mode p x) : Reads .path p x := by
  induction h with
  | nil => exact Reads.nil
  | @hex h l v p x hv _ ih =>
      refine Reads.hex ?_ ih
      unfold unescapeHex at hv ⊢
      cases hh : unhex? h with
      | none =>
          rw [hh] at hv
          exact absurd hv (by simp)
      | some hi =>
          cases hl : unhex? l with
          | none =>
              rw [hh, hl] at hv
              exact absurd hv (by simp)
          | some lo =>
              rw [hh, hl] at hv
              dsimp only at hv ⊢
              rw [if_neg (fun hand => Mode.noConfusion hand.1),
                if_neg (fun hand => Mode.noConfusion hand.1)]
              split at hv
              · exact absurd hv (by simp)
              · split at hv
                · exact absurd hv (by simp)
                · exact hv
  | plus heq _ _ => exact absurd heq hmode
  | byte hc _ _ _ ih =>
      exact Reads.byte hc (fun hand => Mode.noConfusion hand.2)
        (fun hand => hand.1.elim Mode.noConfusion Mode.noConfusion) ih

/-- What is escaped for any part says what it was. -/
theorem reads_escape_path {mode : Mode} (hmode : mode ≠ .queryComponent) (bs : Bytes) :
    Reads .path (escape mode bs) bs := by
  induction bs with
  | nil => exact Reads.nil
  | cons b bs ih =>
      have hone : Reads .path (escapeOne mode b) [b] := by
        unfold escapeOne
        by_cases hesc : shouldEscape b mode = true
        · rw [if_pos hesc, if_neg (fun hand => hmode hand.2)]
          exact Reads.hex (unescapeHex_upperHex (by decide) (by decide) b) Reads.nil
        · rw [if_neg hesc]
          exact Reads.byte (ne_percent_of_not_shouldEscape hesc)
            (fun hand => Mode.noConfusion hand.2)
            (fun hand => hand.1.elim Mode.noConfusion Mode.noConfusion) Reads.nil
      exact hone.append ih

theorem reads_unique {mode : Mode} {p x y : Bytes} (hx : Reads mode p x) (hy : Reads mode p y) :
    x = y := by
  have heq := unescape_of_reads hx
  rw [unescape_of_reads hy] at heq
  exact (Option.some.inj heq).symm

theorem cutZone_append {bs x y : Bytes} (h : cutZone bs = some (x, y)) : bs = x ++ y := by
  induction bs generalizing x with
  | nil => exact absurd h (by simp [cutZone])
  | cons b bs ih =>
      unfold cutZone at h
      by_cases hzone : [ascii '%', ascii '2', ascii '5'].isPrefixOf (b :: bs) = true
      · rw [if_pos hzone] at h
        obtain ⟨rfl, rfl⟩ := Prod.mk.inj (Option.some.inj h)
        rfl
      · rw [if_neg hzone] at h
        obtain ⟨⟨x', y'⟩, hcut, heq⟩ := Option.map_eq_some_iff.mp h
        obtain ⟨rfl, rfl⟩ := Prod.mk.inj heq
        rw [ih hcut]
        rfl

/-- A host that is parsed is read. -/
theorem reads_parseHost {h y : Bytes} (hparse : parseHost h = some y) : Reads .path h y := by
  have hwhole : ∀ {y}, unescape .host h = some y → Reads .path h y :=
    fun hread => reads_path (by decide) (reads_of_unescape hread)
  unfold parseHost at hparse
  by_cases hbracket : h.head? = some (ascii '[')
  · rw [if_pos hbracket] at hparse
    cases hcut : cutLast (ascii ']') h with
    | none =>
        rw [hcut] at hparse
        exact absurd hparse (by simp)
    | some parts =>
        obtain ⟨literal, colonPort⟩ := parts
        rw [hcut] at hparse
        dsimp only at hparse
        by_cases hport : validOptionalPort colonPort = true
        · rw [if_pos hport] at hparse
          cases hzone : cutZone literal with
          | none =>
              rw [hzone] at hparse
              exact hwhole hparse
          | some zoneParts =>
              obtain ⟨front, zone⟩ := zoneParts
              rw [hzone] at hparse
              obtain ⟨host1, h1, hparse⟩ := Option.bind_eq_some_iff.mp hparse
              obtain ⟨host2, h2, hparse⟩ := Option.bind_eq_some_iff.mp hparse
              obtain ⟨host3, h3, hparse⟩ := Option.bind_eq_some_iff.mp hparse
              have hread1 := reads_path (by decide) (reads_of_unescape h1)
              have hread2 := reads_path (by decide) (reads_of_unescape h2)
              have hread3 := reads_path (by decide) (reads_of_unescape h3)
              rw [(cutLast_eq_some_iff.1 hcut).1, cutZone_append hzone, ← Option.some.inj hparse]
              exact (hread1.append hread2).append hread3
        · rw [if_neg hport] at hparse
          exact absurd hparse (by simp)
  · rw [if_neg hbracket] at hparse
    cases hcut : cutLast (ascii ':') h with
    | none =>
        rw [hcut] at hparse
        exact hwhole hparse
    | some parts =>
        rw [hcut] at hparse
        dsimp only at hparse
        by_cases hport : parts.2.all isDigit = true
        · rw [if_pos hport] at hparse
          exact hwhole hparse
        · rw [if_neg hport] at hparse
          exact absurd hparse (by simp)

theorem unescape_userPassword {x y : Bytes}
    (h : unescape .userPassword (escape .userPassword x) = some y) : y = x := by
  rw [unescape_escape (by decide) (by decide)] at h
  exact (Option.some.inj h).symm

theorem parseUserinfo_string {user user' : Userinfo} (h : parseUserinfo user.string = some user') :
    user' = user := by
  have hcolon : ascii ':' ∉ escape .userPassword user.username :=
    not_mem_escape (by decide) (by decide) _
  obtain ⟨username, password⟩ := user
  unfold parseUserinfo Userinfo.string at h
  cases password with
  | none =>
      dsimp only at h hcolon
      rw [cut_eq_none_iff.2 hcolon] at h
      split at h
      · obtain ⟨x, hx, heq⟩ := Option.map_eq_some_iff.mp h
        rw [← heq, unescape_userPassword hx]
      · exact absurd h (by simp)
  | some password =>
      dsimp only at h hcolon
      rw [cut_append hcolon] at h
      split at h
      · obtain ⟨x, hx, h⟩ := Option.bind_eq_some_iff.mp h
        obtain ⟨y, hy, h⟩ := Option.bind_eq_some_iff.mp h
        rw [← Option.some.inj h, unescape_userPassword hx, unescape_userPassword hy]
      · exact absurd h (by simp)

/-- An authority that is printed is parsed as what it was, if at all. -/
theorem parseAuthority_authority {u : Url} {a : Option Userinfo × Bytes}
    (h : parseAuthority u.authority = some a) : a = (u.user, u.host) := by
  have hhost : ∀ {host}, parseHost (escape .host u.host) = some host → host = u.host :=
    fun hparse => reads_unique (reads_parseHost hparse) (reads_escape_path (by decide) u.host)
  have hat : ascii '@' ∉ escape .host u.host := not_mem_escape (by decide) (by decide) _
  unfold parseAuthority Url.authority at h
  cases huser : u.user with
  | none =>
      rw [huser] at h
      dsimp only at h
      rw [List.nil_append, cutLast_eq_none_iff.2 hat] at h
      obtain ⟨host, hparse, heq⟩ := Option.map_eq_some_iff.mp h
      rw [← heq, hhost hparse]
  | some user =>
      rw [huser] at h
      dsimp only at h
      rw [List.append_assoc, List.singleton_append, cutLast_append hat] at h
      obtain ⟨host, hparse, h⟩ := Option.bind_eq_some_iff.mp h
      obtain ⟨user', hparse', h⟩ := Option.bind_eq_some_iff.mp h
      rw [← Option.some.inj h, hhost hparse, parseUserinfo_string hparse']

theorem authority_plain {u : Url} {b : UInt8} (h : b ∈ u.authority) :
    plainByte b = true ∧ b ≠ ascii '/' := by
  have hpart : ∀ {mode : Mode} {x : Bytes}, PrintMode mode → shouldEscape (ascii '/') mode = true →
      mode ≠ .queryComponent → b ∈ escape mode x → plainByte b = true ∧ b ≠ ascii '/' := by
    intro mode x hmode hslash hquery hmem
    refine ⟨escape_plain hmode hmem, ?_⟩
    intro heq
    rw [heq] at hmem
    exact not_mem_escape hquery ⟨by decide, by decide, hslash⟩ x hmem
  have huser : ∀ {x : Bytes}, b ∈ escape .userPassword x → plainByte b = true ∧ b ≠ ascii '/' :=
    hpart (Or.inr (Or.inr rfl)) (by decide) (by decide)
  have hone : ∀ c : UInt8, plainByte c = true ∧ c ≠ ascii '/' → b = c →
      plainByte b = true ∧ b ≠ ascii '/' := fun c hc heq => heq ▸ hc
  unfold Url.authority at h
  rcases List.mem_append.mp h with h | h
  · cases hu : u.user with
    | none =>
        rw [hu] at h
        exact absurd h List.not_mem_nil
    | some user =>
        rw [hu] at h
        rcases List.mem_append.mp h with h | h
        · unfold Userinfo.string at h
          cases hpassword : user.password with
          | none =>
              rw [hpassword] at h
              exact huser h
          | some password =>
              rw [hpassword] at h
              rcases List.mem_append.mp h with h | h
              · exact huser h
              · rcases List.mem_cons.mp h with h | h
                · exact hone (ascii ':') (by decide) h
                · exact huser h
        · exact hone (ascii '@') (by decide) (List.mem_singleton.mp h)
  · exact hpart (Or.inr (Or.inl rfl)) (by decide) (by decide) h

/-! ## Schemes -/

theorem schemeByte_plain {b : UInt8} (h : schemeByte b = true) :
    plainByte b = true ∧ b ≠ ascii ':' ∧ schemeByte (toLower b) = true ∧
      toLower (toLower b) = toLower b :=
  (byte_facts b).2.2.2.2.2.2.1 h

theorem isAlpha_lower {b : UInt8} (h : isAlpha b = true) : isAlpha (toLower b) = true :=
  (byte_facts b).2.2.2.2.2.2.2 h

theorem SchemeOk.lower {scheme : Bytes} (h : SchemeOk scheme) : SchemeOk (scheme.map toLower) := by
  obtain ⟨⟨b, hb, halpha⟩, hbytes⟩ := h
  refine ⟨⟨toLower b, ?_, isAlpha_lower halpha⟩, ?_⟩
  · rw [List.head?_map, hb]
    rfl
  · intro c hc
    obtain ⟨d, hd, rfl⟩ := List.mem_map.mp hc
    exact (schemeByte_plain (hbytes d hd)).2.2.1

theorem lower_lower {scheme : Bytes} (h : SchemeOk scheme) :
    (scheme.map toLower).map toLower = scheme.map toLower := by
  rw [List.map_map]
  apply List.map_congr_left
  intro b hb
  exact (schemeByte_plain (h.2 b hb)).2.2.2

/-! ## Texts -/

/-- The path after an authority. -/
def Url.printedPath (u : Url) : Bytes :=
  if u.escapedPath ≠ [] ∧ u.escapedPath.head? ≠ some (ascii '/') ∧ u.host ≠ [] then
    ascii '/' :: u.escapedPath
  else u.escapedPath

theorem printedPath_plain {u : Url} {b : UInt8} (h : b ∈ u.printedPath) : plainByte b = true := by
  unfold Url.printedPath at h
  split at h
  · rcases List.mem_cons.mp h with h | h
    · rw [h]
      decide
    · exact escapedPath_plain h
  · exact escapedPath_plain h

/-- With a scheme the authority is marked, if there is something after it. -/
theorem hierarchy_scheme {u : Url} (hopaquePart : u.opaquePart = []) (hscheme : u.scheme ≠ [])
    (hfront : u.host ≠ [] ∨ u.path ≠ [] ∨ u.user ≠ none) :
    u.hierarchy =
      u.scheme ++ ascii ':' :: ([ascii '/', ascii '/'] ++ u.authority ++ u.printedPath) := by
  unfold Url.hierarchy Url.printedPath
  rw [if_neg (not_not.mpr hopaquePart)]
  dsimp only
  rw [if_pos hscheme, if_pos (Or.inl hscheme), if_pos hfront]
  have hne : ∀ x : Bytes, ¬ (u.scheme ++ [ascii ':'] ++ x = [] ∧
      colonFirst u.escapedPath = true) := by
    intro x hand
    exact absurd hand.1 (by simp)
  by_cases hslash : u.escapedPath ≠ [] ∧ u.escapedPath.head? ≠ some (ascii '/') ∧ u.host ≠ []
  · rw [if_pos hslash, if_pos hslash, List.append_assoc _ _ [ascii '/'], if_neg (hne _)]
    simp
  · rw [if_neg hslash, if_neg hslash, List.append_assoc _ _ [], if_neg (hne _)]
    simp

theorem hierarchy_opaque {u : Url} (hopaquePart : u.opaquePart ≠ []) (hscheme : u.scheme ≠ []) :
    u.hierarchy = u.scheme ++ ascii ':' :: u.opaquePart := by
  unfold Url.hierarchy
  rw [if_pos hopaquePart, if_pos hscheme, List.append_assoc]
  rfl

/-- Without scheme and authority there is only the path. -/
theorem hierarchy_path {u : Url} (hopaquePart : u.opaquePart = []) (hscheme : u.scheme = [])
    (huser : u.user = none) (hhost : u.host = [])
    (hslash : u.escapedPath.head? = some (ascii '/')) : u.hierarchy = u.escapedPath := by
  unfold Url.hierarchy
  rw [if_neg (not_not.mpr hopaquePart)]
  dsimp only
  have hno : ¬ (u.scheme ≠ [] ∨ u.host ≠ [] ∨ u.user ≠ none) := by
    rw [hscheme, hhost, huser]
    simp
  have hcolon : colonFirst u.escapedPath = false := by
    obtain ⟨rest, hrest⟩ := List.head?_eq_some_iff.mp hslash
    unfold colonFirst
    rw [hrest, List.takeWhile_cons_of_neg (by simp)]
    rfl
  rw [if_neg (not_not.mpr hscheme), if_neg hno, if_neg (fun hand => hand.2.1 hslash),
    hcolon, if_neg (fun hand => Bool.noConfusion hand.2)]
  rfl

/-- What is known of a URL that was parsed and has no opaque part and no fragment. -/
structure Parsed (u : Url) : Prop where
  opaquePart : u.opaquePart = []
  fragment : u.fragment = []
  rawFragment : u.rawFragment = []
  rooted : Rooted u.path
  rootedRaw : Rooted u.rawPath
  force : u.forceQuery = true → u.rawQuery = []
  scheme : (SchemeOk u.scheme ∧ u.scheme.map toLower = u.scheme) ∨
    (u.scheme = [] ∧ u.user = none ∧ u.host = [] ∧ u.path ≠ [])

theorem Parsed.withPath {u : Url} (h : Parsed u) {path rawPath : Bytes} (hpath : Rooted path)
    (hne : path ≠ []) (hraw : Rooted rawPath) :
    Parsed { u with path := path, rawPath := rawPath } :=
  ⟨h.opaquePart, h.fragment, h.rawFragment, hpath, hraw, h.force,
    h.scheme.imp id fun ⟨hscheme, huser, hhost, _⟩ => ⟨hscheme, huser, hhost, hne⟩⟩

theorem escape_rooted {p : Bytes} (h : Rooted p) : Rooted (escape .path p) := by
  rcases h with hnil | hhead
  · rw [hnil]
    exact Or.inl rfl
  · obtain ⟨rest, rfl⟩ := List.head?_eq_some_iff.mp hhead
    exact Or.inr rfl

theorem rooted_ne_star {p : Bytes} (h : Rooted p) : p ≠ [ascii '*'] := by
  intro hstar
  rw [hstar] at h
  exact absurd h (by unfold Rooted; decide)

theorem rooted_escapedPath {u : Url} (h : Rooted u.path) (hraw : Rooted u.rawPath) :
    Rooted u.escapedPath := by
  rw [escapedPath_eq (rooted_ne_star h)]
  unfold escaped
  split
  · exact hraw
  · exact escape_rooted h

theorem escapedPath_eq_nil_iff {u : Url} : u.escapedPath = [] ↔ u.path = [] := by
  have hread := unescape_escapedPath u
  constructor
  · intro hnil
    rw [hnil] at hread
    exact (Option.some.inj hread).symm
  · intro hnil
    have hne : u.path ≠ [ascii '*'] := by
      rw [hnil]
      simp
    rw [hnil] at hread
    have hreads := reads_of_unescape hread
    generalize u.escapedPath = p at hreads
    cases hreads
    rfl

theorem printedPath_rooted {u : Url} (h : Rooted u.path) (hraw : Rooted u.rawPath) :
    u.printedPath = u.escapedPath := by
  unfold Url.printedPath
  apply if_neg
  intro hand
  rcases rooted_escapedPath h hraw with hnil | hhead
  · exact hand.1 hnil
  · exact hand.2.1 hhead

theorem string_eq {u : Url} (h : u.fragment = []) : u.string = u.hierarchy ++ u.query := by
  unfold Url.string
  rw [h, if_neg (fun hne => hne rfl), List.append_nil]

theorem any_isCTL_of_plain {bs : Bytes} (h : ∀ b ∈ bs, plainByte b = true) :
    bs.any isCTL = false := by
  rw [List.any_eq_false]
  intro b hb
  rw [plainByte_not_isCTL (h b hb)]
  simp

theorem question_not_mem_of_plain {bs : Bytes} (h : ∀ b ∈ bs, plainByte b = true) :
    ascii '?' ∉ bs := fun hmem => absurd (h _ hmem) (by decide)

/-- A URL that was parsed is made of these parts. -/
theorem Parsed.eq_ofScheme {u : Url} (h : Parsed u) (rawPath : Bytes) :
    { Url.ofScheme u.scheme u.forceQuery u.rawQuery with
      user := u.user, host := u.host, path := u.path, rawPath := rawPath } =
      { u with rawPath := rawPath } := by
  unfold Url.ofScheme
  simp only [Url.mk.injEq, true_and]
  exact ⟨h.opaquePart.symm, h.fragment.symm, h.rawFragment.symm⟩

/-- What a text is parsed as that was printed. -/
def Url.reparsed (u : Url) : Url :=
  { u with rawPath := if escape .path u.path = u.escapedPath then [] else u.escapedPath }

theorem Parsed.reparsed_eq {u : Url} (h : Parsed u) :
    u.reparsed = { Url.ofScheme u.scheme u.forceQuery u.rawQuery with
      user := u.user, host := u.host, path := u.path
      rawPath := if escape .path u.path = u.escapedPath then [] else u.escapedPath } :=
  (h.eq_ofScheme _).symm

/-- Scheme and authority as they are printed. -/
def Url.front (u : Url) : Bytes :=
  if u.scheme = [] then []
  else u.scheme ++ ascii ':' :: ([ascii '/', ascii '/'] ++ u.authority)

theorem front_scheme {u : Url} (h : u.scheme ≠ []) :
    u.front = u.scheme ++ ascii ':' :: ([ascii '/', ascii '/'] ++ u.authority) := if_neg h

theorem Parsed.hierarchy_eq {u : Url} (h : Parsed u)
    (hfront : u.host ≠ [] ∨ u.path ≠ [] ∨ u.user ≠ none) :
    u.hierarchy = u.front ++ u.escapedPath := by
  unfold Url.front
  rcases h.scheme with ⟨hscheme, _⟩ | ⟨hscheme, huser, hhost, hne⟩
  · rw [if_neg hscheme.ne_nil, hierarchy_scheme h.opaquePart hscheme.ne_nil hfront,
      printedPath_rooted h.rooted h.rootedRaw, List.append_assoc u.scheme]
    rfl
  · have hhead : u.escapedPath.head? = some (ascii '/') :=
      (rooted_escapedPath h.rooted h.rootedRaw).resolve_left
        fun hnil => hne (escapedPath_eq_nil_iff.1 hnil)
    rw [if_pos hscheme, hierarchy_path h.opaquePart hscheme huser hhost hhead]
    rfl

theorem hierarchy_plain {u : Url} (hscheme : ∀ b ∈ u.scheme, plainByte b = true)
    (hopaquePart : u.opaquePart = []) {b : UInt8} (h : b ∈ u.hierarchy) : plainByte b = true := by
  unfold Url.hierarchy at h
  rw [if_neg (not_not.mpr hopaquePart)] at h
  have hone : ∀ {c : UInt8}, plainByte c = true → ∀ b ∈ [c], plainByte b = true := by
    intro c hc b hb
    rw [List.mem_singleton.mp hb]
    exact hc
  have hif : ∀ {P : Prop} [Decidable P] {x : Bytes}, (∀ b ∈ x, plainByte b = true) →
      b ∈ (if P then x else []) → plainByte b = true := by
    intro P _ x hx hmem
    split at hmem
    · exact hx b hmem
    · exact absurd hmem List.not_mem_nil
  rcases List.mem_append.mp h with h | h
  · rcases List.mem_append.mp h with h | h
    · rcases List.mem_append.mp h with h | h
      · rcases List.mem_append.mp h with h | h
        · refine hif (fun b hb => ?_) h
          rcases List.mem_append.mp hb with hb | hb
          · exact hscheme b hb
          · exact hone (by decide) b hb
        · refine hif (fun b hb => ?_) h
          rcases List.mem_append.mp hb with hb | hb
          · split at hb
            · rcases List.mem_cons.mp hb with hb | hb
              · rw [hb]
                decide
              · exact hone (by decide) b hb
            · exact absurd hb List.not_mem_nil
          · exact (authority_plain hb).1
      · exact hif (hone (by decide)) h
    · refine hif (fun b hb => ?_) h
      rcases List.mem_cons.mp hb with hb | hb
      · rw [hb]
        decide
      · exact hone (by decide) b hb
  · exact escapedPath_plain h

theorem Parsed.scheme_plain {u : Url} (h : Parsed u) : ∀ b ∈ u.scheme, plainByte b = true := by
  intro b hb
  rcases h.scheme with hscheme | hscheme
  · exact (schemeByte_plain (hscheme.1.2 b hb)).1
  · rw [hscheme.1] at hb
    exact absurd hb List.not_mem_nil

theorem Parsed.string_isCTL {u : Url} (h : Parsed u) :
    u.string.any isCTL = u.rawQuery.any isCTL := by
  have hhierarchy : u.hierarchy.any isCTL = false :=
    any_isCTL_of_plain fun b hb => hierarchy_plain h.scheme_plain h.opaquePart hb
  rw [string_eq h.fragment, List.any_append, hhierarchy, Bool.false_or]
  unfold Url.query
  split
  · rw [List.any_cons]
    rfl
  · rename_i hno
    rw [not_not.mp fun hne => hno (Or.inr hne)]

theorem parse_isCTL {viaRequest : Bool} {raw : Bytes} (h : raw.any isCTL = true) :
    parse viaRequest raw = none := by
  unfold parse
  rw [if_pos h]

/-- With a scheme, the text of a URL is parsed if its authority is. -/
theorem Parsed.parse_scheme_string {u : Url} (h : Parsed u) (hscheme : u.scheme ≠ [])
    (hfront : u.host ≠ [] ∨ u.path ≠ [] ∨ u.user ≠ none)
    (hquery : u.rawQuery.any isCTL = false) (viaRequest : Bool) :
    parse viaRequest u.string = (parseAuthority u.authority).map fun _ => u.reparsed := by
  obtain ⟨hok, hlower⟩ := h.scheme.resolve_right fun hnone => hscheme hnone.1
  have hpath := rooted_escapedPath h.rooted h.rootedRaw
  have hparts : ∀ b ∈ u.authority ++ u.escapedPath, plainByte b = true := by
    intro b hb
    rcases List.mem_append.mp hb with hb | hb
    · exact (authority_plain hb).1
    · exact escapedPath_plain hb
  have htext : u.string = u.scheme ++ ascii ':' ::
      ([ascii '/', ascii '/'] ++ u.authority ++ u.escapedPath ++
        queryText u.forceQuery u.rawQuery) := by
    rw [string_eq h.fragment, hierarchy_scheme h.opaquePart hscheme hfront,
      printedPath_rooted h.rooted h.rootedRaw, List.append_assoc, List.cons_append]
    rfl
  have hctl : u.string.any isCTL = false := by
    rw [h.string_isCTL]
    exact hquery
  rw [h.reparsed_eq]
  rw [htext] at hctl ⊢
  rw [parse_authority_text hctl hok (fun hmem => (authority_plain hmem).2 rfl)
    (question_not_mem_of_plain hparts) hpath h.force]
  cases ha : parseAuthority u.authority with
  | none => rfl
  | some a =>
      rw [parseAuthority_authority ha, hlower]
      show (setEncoded .path _ >>= _) = _
      rw [setEncoded_escapedPath]
      rfl

theorem Parsed.parse_path_string {u : Url} (h : Parsed u) (hscheme : u.scheme = [])
    (hquery : u.rawQuery.any isCTL = false) : parse true u.string = some u.reparsed := by
  obtain ⟨_, huser, hhost, hne⟩ := h.scheme.resolve_left fun hsome => hsome.1.ne_nil hscheme
  have hpathPlain : ∀ b ∈ u.escapedPath, plainByte b = true := fun b hb => escapedPath_plain hb
  have hhead : u.escapedPath.head? = some (ascii '/') :=
    (rooted_escapedPath h.rooted h.rootedRaw).resolve_left
      fun hnil => hne (escapedPath_eq_nil_iff.1 hnil)
  have htext : u.string = u.escapedPath ++ queryText u.forceQuery u.rawQuery := by
    rw [string_eq h.fragment, hierarchy_path h.opaquePart hscheme huser hhost hhead]
    rfl
  have hctl : u.string.any isCTL = false := by
    rw [h.string_isCTL]
    exact hquery
  rw [h.reparsed_eq]
  rw [htext] at hctl ⊢
  rw [parse_true_iff.2 ⟨hctl, Accepted.rooted hhead (question_not_mem_of_plain hpathPlain)
    h.force (setEncoded_escapedPath u)⟩, hscheme, huser, hhost]
  rfl

/-- The text of a URL that was parsed is parsed again, and only `rawPath` may change. -/
theorem Parsed.parse_string {u : Url} (h : Parsed u) (hquery : u.rawQuery.any isCTL = false)
    (hfront : u.host ≠ [] ∨ u.path ≠ [] ∨ u.user ≠ none)
    (hauthority : (parseAuthority u.authority).isSome = true) :
    parse true u.string = some u.reparsed := by
  by_cases hscheme : u.scheme = []
  · exact h.parse_path_string hscheme hquery
  · obtain ⟨a, ha⟩ := Option.isSome_iff_exists.mp hauthority
    rw [h.parse_scheme_string hscheme hfront hquery, ha]
    rfl

/-- A URL whose query has a number sign is parsed with a fragment. -/
def Url.cutHash (u : Url) : Url :=
  match cut (ascii '#') u.rawQuery with
  | none => u
  | some (query, _) => { u with forceQuery := decide (query = []), rawQuery := query }

theorem Parsed.cutHash {u : Url} (h : Parsed u) : Parsed u.cutHash := by
  unfold Url.cutHash
  split
  · exact h
  · exact ⟨h.opaquePart, h.fragment, h.rawFragment, h.rooted, h.rootedRaw, of_decide_eq_true,
      h.scheme⟩

theorem cutHash_site (u : Url) : u.cutHash.scheme = u.scheme ∧ u.cutHash.user = u.user ∧
    u.cutHash.host = u.host ∧ u.cutHash.path = u.path ∧ u.cutHash.rawPath = u.rawPath := by
  unfold Url.cutHash
  split <;> exact ⟨rfl, rfl, rfl, rfl, rfl⟩

theorem hash_not_mem_hierarchy {u : Url} (h : Parsed u) : ascii '#' ∉ u.hierarchy :=
  fun hmem => absurd (hierarchy_plain h.scheme_plain h.opaquePart hmem) (by decide)

/-- The part of a printed URL before the first number sign. -/
theorem Parsed.cut_string {u : Url} (h : Parsed u) :
    (cut (ascii '#') u.string = none ∧ u.cutHash = u) ∨
      ∃ y, cut (ascii '#') u.string = some (u.cutHash.string, y) := by
  rw [string_eq h.fragment, string_eq h.cutHash.fragment]
  cases hcut : cut (ascii '#') u.rawQuery with
  | none =>
      left
      have hself : u.cutHash = u := by
        unfold Url.cutHash
        rw [hcut]
      refine ⟨?_, hself⟩
      rw [cut_eq_none_iff] at hcut ⊢
      intro hmem
      rcases List.mem_append.mp hmem with hmem | hmem
      · exact hash_not_mem_hierarchy h hmem
      · unfold Url.query at hmem
        split at hmem
        · rcases List.mem_cons.mp hmem with heq | hmem
          · exact absurd heq (by decide)
          · exact hcut hmem
        · exact absurd hmem List.not_mem_nil
  | some parts =>
      obtain ⟨x, y⟩ := parts
      obtain ⟨hquery, hx⟩ := cut_eq_some_iff.1 hcut
      have hself : u.cutHash = { u with forceQuery := decide (x = []), rawQuery := x } := by
        unfold Url.cutHash
        rw [hcut]
      have htext : u.query = (ascii '?' :: x) ++ ascii '#' :: y := by
        unfold Url.query
        rw [hquery, if_pos (Or.inr (by simp))]
        rfl
      have htext' : u.cutHash.query = ascii '?' :: x := by
        rw [hself]
        unfold Url.query
        apply if_pos
        by_cases hnil : x = []
        · exact Or.inl (decide_eq_true hnil)
        · exact Or.inr hnil
      have hhierarchy : u.cutHash.hierarchy = u.hierarchy := by
        rw [hself]
        rfl
      refine Or.inr ⟨y, ?_⟩
      rw [htext, htext', hhierarchy, ← List.append_assoc]
      apply cut_append
      intro hmem
      rcases List.mem_append.mp hmem with hmem | hmem
      · exact hash_not_mem_hierarchy h hmem
      · rcases List.mem_cons.mp hmem with heq | hmem
        · exact absurd heq (by decide)
        · exact hx hmem

/-- What the text of a URL with a scheme is parsed as, if it is parsed. -/
theorem Parsed.parseURL_string {u v : Url} (h : Parsed u) (hscheme : u.scheme ≠ [])
    (hfront : u.host ≠ [] ∨ u.path ≠ [] ∨ u.user ≠ none) (hv : parseURL u.string = some v) :
    (parseAuthority u.authority).isSome = true ∧
      ∃ fragment rawFragment,
        v = { u.cutHash.reparsed with fragment := fragment, rawFragment := rawFragment } := by
  obtain ⟨hsiteScheme, hsiteUser, hsiteHost, hsitePath, _⟩ := cutHash_site u
  have hauthority : u.cutHash.authority = u.authority := by
    unfold Url.authority
    rw [hsiteUser, hsiteHost]
  have hparse : ∀ {w}, parse false u.cutHash.string = some w →
      (parseAuthority u.authority).isSome = true ∧ w = u.cutHash.reparsed := by
    intro w hw
    have hctl : u.cutHash.rawQuery.any isCTL = false := by
      rw [← h.cutHash.string_isCTL, ← Bool.not_eq_true]
      intro htrue
      rw [parse_isCTL htrue] at hw
      exact absurd hw (by simp)
    rw [h.cutHash.parse_scheme_string (by rwa [hsiteScheme])
      (by rwa [hsiteHost, hsitePath, hsiteUser]) hctl, hauthority] at hw
    obtain ⟨a, ha, heq⟩ := Option.map_eq_some_iff.mp hw
    rw [ha]
    exact ⟨rfl, heq.symm⟩
  have hfragment : u.cutHash.fragment = [] ∧ u.cutHash.rawFragment = [] :=
    ⟨h.cutHash.fragment, h.cutHash.rawFragment⟩
  have hself : u.cutHash.reparsed = { u.cutHash.reparsed with fragment := [], rawFragment := [] } := by
    unfold Url.reparsed
    rw [hfragment.1, hfragment.2]
  unfold parseURL at hv
  rcases h.cut_string with ⟨hcut, heq⟩ | ⟨y, hcut⟩
  · rw [hcut] at hv
    rw [heq] at hparse hself ⊢
    obtain ⟨hsome, hw⟩ := hparse hv
    exact ⟨hsome, [], [], by rw [hw]; exact hself⟩
  · rw [hcut] at hv
    cases y with
    | nil =>
        obtain ⟨hsome, hw⟩ := hparse hv
        exact ⟨hsome, [], [], by rw [hw]; exact hself⟩
    | cons b y =>
        obtain ⟨w, hparsed, hv⟩ := Option.bind_eq_some_iff.mp hv
        obtain ⟨⟨fragment, rawFragment⟩, _, hv⟩ := Option.bind_eq_some_iff.mp hv
        obtain ⟨hsome, hw⟩ := hparse hparsed
        exact ⟨hsome, fragment, rawFragment, by rw [← hw]; exact (Option.some.inj hv).symm⟩

/-! ## Longer texts -/

theorem setEncoded_eq_some_iff {mode : Mode} {p path rawPath : Bytes} :
    setEncoded mode p = some (path, rawPath) ↔
      unescape mode p = some path ∧ rawPath = if escape mode path = p then [] else p := by
  unfold setEncoded
  rw [Option.map_eq_some_iff]
  constructor
  · intro ⟨decoded, hdecoded, heq⟩
    obtain ⟨rfl, rfl⟩ := Prod.mk.inj heq
    exact ⟨hdecoded, rfl⟩
  · intro ⟨hdecoded, heq⟩
    exact ⟨path, hdecoded, by rw [heq]⟩

theorem setEncoded_append {p q path rawPath x : Bytes}
    (hp : setEncoded .path p = some (path, rawPath)) (hq : unescape .path q = some x) :
    setEncoded .path (p ++ q) = some (path ++ x,
      if escape .path (path ++ x) = p ++ q then [] else p ++ q) := by
  have hreads := (reads_of_unescape (setEncoded_eq_some_iff.1 hp).1).append (reads_of_unescape hq)
  exact setEncoded_eq_some_iff.2 ⟨unescape_of_reads hreads, rfl⟩

theorem rooted_of_setEncoded {p path rawPath : Bytes} (hp : Rooted p)
    (h : setEncoded .path p = some (path, rawPath)) : Rooted path ∧ Rooted rawPath := by
  obtain ⟨hread, hraw⟩ := setEncoded_eq_some_iff.1 h
  have hrawRooted : Rooted rawPath := by
    rw [hraw]
    split
    · exact Or.inl rfl
    · exact hp
  refine ⟨?_, hrawRooted⟩
  rcases hp with hnil | hhead
  · rw [hnil] at hread
    exact Or.inl (Option.some.inj hread).symm
  · obtain ⟨rest, rfl⟩ := List.head?_eq_some_iff.mp hhead
    rw [unescape_cons_of_ne (by decide), if_neg (by decide), if_neg (by decide)] at hread
    obtain ⟨x, _, heq⟩ := Option.map_eq_some_iff.mp hread
    rw [← heq]
    exact Or.inr rfl

theorem path_ne_nil {p path rawPath : Bytes} (hp : p.head? = some (ascii '/'))
    (h : setEncoded .path p = some (path, rawPath)) : path ≠ [] := by
  intro hnil
  obtain ⟨rest, rfl⟩ := List.head?_eq_some_iff.mp hp
  have hreads := reads_of_unescape (setEncoded_eq_some_iff.1 h).1
  rw [hnil] at hreads
  cases hreads

theorem parsed_of_accepted {t : Bytes} {u : Url} (h : Accepted t u) (hopaquePart : u.opaquePart = [])
    (hstar : u.path ≠ [ascii '*']) : Parsed u := by
  cases h with
  | star => exact absurd rfl hstar
  | rootless hscheme hrest hquestion hforce =>
      exact ⟨hopaquePart, rfl, rfl, Or.inl rfl, Or.inl rfl, hforce,
        Or.inl ⟨hscheme.lower, lower_lower hscheme⟩⟩
  | authority hscheme hslash hquestion hp hforce hauthority hpath =>
      obtain ⟨hrooted, hraw⟩ := rooted_of_setEncoded hp hpath
      exact ⟨rfl, rfl, rfl, hrooted, hraw, hforce, Or.inl ⟨hscheme.lower, lower_lower hscheme⟩⟩
  | path hscheme hslash htwo hquestion hforce hpath =>
      obtain ⟨hrooted, hraw⟩ := rooted_of_setEncoded (Or.inr hslash) hpath
      exact ⟨rfl, rfl, rfl, hrooted, hraw, hforce, Or.inl ⟨hscheme.lower, lower_lower hscheme⟩⟩
  | @rooted p query path rawPath force hslash hquestion hforce hpath =>
      obtain ⟨hrooted, hraw⟩ := rooted_of_setEncoded (Or.inr hslash) hpath
      exact ⟨rfl, rfl, rfl, hrooted, hraw, hforce,
        Or.inr ⟨rfl, rfl, rfl, path_ne_nil hslash hpath⟩⟩

theorem no_force : false = true → ([] : Bytes) = [] := fun _ => rfl

theorem queryText_none : queryText false [] = [] := rfl

/-- A path can be given more elements where it is written. -/
def Extends (t : Bytes) (u : Url) (p : Bytes) : Prop :=
  setEncoded .path p = some (u.path, u.rawPath) ∧
    ∀ q x, q.head? = some (ascii '/') → ascii '?' ∉ q → unescape .path q = some x →
      Accepted (t ++ q) { u with
        path := u.path ++ x
        rawPath := if escape .path (u.path ++ x) = p ++ q then [] else p ++ q }

theorem rooted_append {p q : Bytes} (hp : Rooted p) (hq : q.head? = some (ascii '/')) :
    (p ++ q).head? = some (ascii '/') := by
  rcases hp with hnil | hhead
  · rw [hnil]
    exact hq
  · obtain ⟨rest, rfl⟩ := List.head?_eq_some_iff.mp hhead
    rfl

theorem extends_authority {scheme authority p host path rawPath : Bytes} {user : Option Userinfo}
    (hscheme : SchemeOk scheme) (hslash : ascii '/' ∉ authority)
    (hquestion : ascii '?' ∉ authority ++ p) (hp : Rooted p)
    (hauthority : parseAuthority authority = some (user, host))
    (hpath : setEncoded .path p = some (path, rawPath)) :
    Extends (scheme ++ ascii ':' :: ([ascii '/', ascii '/'] ++ authority ++ p))
      { Url.ofScheme (scheme.map toLower) false [] with
        user := user, host := host, path := path, rawPath := rawPath } p := by
  refine ⟨hpath, fun q x hq hno hread => ?_⟩
  have hquestion' : ascii '?' ∉ authority ++ (p ++ q) := by
    rw [← List.append_assoc]
    exact fun hmem => (List.mem_append.mp hmem).elim hquestion hno
  have hacc := Accepted.authority hscheme hslash hquestion'
    (Or.inr (rooted_append hp hq)) no_force hauthority
    (setEncoded_append hpath hread)
  rw [queryText_none, List.append_nil] at hacc
  simpa only [List.append_assoc, List.cons_append] using hacc

theorem extends_path {scheme p path rawPath : Bytes} (hscheme : SchemeOk scheme)
    (hslash : p.head? = some (ascii '/')) (htwo : ¬ [ascii '/', ascii '/'].isPrefixOf p = true)
    (hone : p ≠ [ascii '/']) (hquestion : ascii '?' ∉ p)
    (hpath : setEncoded .path p = some (path, rawPath)) :
    Extends (scheme ++ ascii ':' :: p)
      { Url.ofScheme (scheme.map toLower) false [] with path := path, rawPath := rawPath } p := by
  refine ⟨hpath, fun q x hq hno hread => ?_⟩
  have htwo' : ¬ [ascii '/', ascii '/'].isPrefixOf (p ++ q) = true := by
    obtain ⟨rest, rfl⟩ := List.head?_eq_some_iff.mp hslash
    cases rest with
    | nil => exact absurd rfl hone
    | cons c rest =>
        simp only [List.isPrefixOf, List.cons_append] at htwo ⊢
        exact htwo
  have hacc := Accepted.path hscheme
    (rooted_append (Or.inr hslash) hq) htwo'
    (fun hmem => (List.mem_append.mp hmem).elim hquestion hno) no_force
    (setEncoded_append hpath hread)
  rw [queryText_none, List.append_nil] at hacc
  simpa only [List.append_assoc, List.cons_append] using hacc

theorem extends_rooted {p path rawPath : Bytes} (hslash : p.head? = some (ascii '/'))
    (hquestion : ascii '?' ∉ p) (hpath : setEncoded .path p = some (path, rawPath)) :
    Extends p { Url.ofScheme [] false [] with path := path, rawPath := rawPath } p := by
  refine ⟨hpath, fun q x hq hno hread => ?_⟩
  have hacc := Accepted.rooted (rooted_append (Or.inr hslash) hq)
    (fun hmem => (List.mem_append.mp hmem).elim hquestion hno) no_force
    (setEncoded_append hpath hread)
  rw [queryText_none, List.append_nil] at hacc
  simpa only [List.append_assoc, List.cons_append] using hacc

theorem accepted_plain {t : Bytes} {u : Url} (h : Accepted t u) :
    (∀ b ∈ u.scheme, plainByte b = true) ∧ ascii '?' ∉ u.opaquePart ∧ u.fragment = [] := by
  have hlower : ∀ {scheme : Bytes}, SchemeOk scheme → ∀ b ∈ scheme.map toLower,
      plainByte b = true := fun hok b hb => (schemeByte_plain (hok.lower.2 b hb)).1
  cases h with
  | star => exact ⟨fun b hb => absurd hb List.not_mem_nil, List.not_mem_nil, rfl⟩
  | rootless hscheme _ hquestion => exact ⟨hlower hscheme, hquestion, rfl⟩
  | authority hscheme => exact ⟨hlower hscheme, List.not_mem_nil, rfl⟩
  | path hscheme => exact ⟨hlower hscheme, List.not_mem_nil, rfl⟩
  | rooted => exact ⟨fun b hb => absurd hb List.not_mem_nil, List.not_mem_nil, rfl⟩

theorem question_not_mem_hierarchy {u : Url} (hscheme : ∀ b ∈ u.scheme, plainByte b = true)
    (hopaquePart : ascii '?' ∉ u.opaquePart) : ascii '?' ∉ u.hierarchy := by
  intro hmem
  by_cases hnil : u.opaquePart = []
  · exact absurd (hierarchy_plain hscheme hnil hmem) (by decide)
  · unfold Url.hierarchy at hmem
    rw [if_pos hnil] at hmem
    rcases List.mem_append.mp hmem with hmem | hmem
    · split at hmem
      · rcases List.mem_append.mp hmem with hmem | hmem
        · exact absurd (hscheme _ hmem) (by decide)
        · exact absurd hmem (by decide)
      · exact absurd hmem List.not_mem_nil
    · exact hopaquePart hmem

/-- Where there is a query, more text is more query. -/
theorem accepted_query {t q : Bytes} {u : Url} (h : Accepted t u)
    (hquery : u.forceQuery = true ∨ u.rawQuery ≠ []) (hq : q ≠ []) :
    Accepted (t ++ q) { u with forceQuery := false, rawQuery := u.rawQuery ++ q } := by
  have htext : ∀ (force : Bool) (query : Bytes), force = true ∨ query ≠ [] →
      queryText force query ++ q = queryText false (query ++ q) := by
    intro force query hor
    unfold queryText
    rw [if_pos hor, if_pos (Or.inr (by simp [hq]))]
    rfl
  cases h with
  | star => exact absurd hquery (by simp [Url.ofScheme])
  | @rootless scheme rest query force hscheme hrest hquestion hforce =>
      rw [List.append_assoc, List.cons_append, List.append_assoc, htext force query hquery]
      exact Accepted.rootless hscheme hrest hquestion (fun h => absurd h (by simp))
  | @authority scheme authority p query host path rawPath force user hscheme hslash hquestion hp
      hforce hauthority hpath =>
      rw [List.append_assoc, List.cons_append, List.append_assoc, htext force query hquery]
      exact Accepted.authority hscheme hslash hquestion hp (fun h => absurd h (by simp)) hauthority
        hpath
  | @path scheme p query path rawPath force hscheme hslash htwo hquestion hforce hpath =>
      rw [List.append_assoc, List.cons_append, List.append_assoc, htext force query hquery]
      exact Accepted.path hscheme hslash htwo hquestion (fun h => absurd h (by simp)) hpath
  | @rooted p query path rawPath force hslash hquestion hforce hpath =>
      rw [List.append_assoc, htext force query hquery]
      exact Accepted.rooted hslash hquestion (fun h => absurd h (by simp)) hpath

/-! ## Blanks -/

theorem trimMarks_eq_self {marks : List Bytes} {bs : Bytes}
    (h : ∀ mark ∈ marks, mark.isPrefixOf bs = false) (n : Nat) : trimMarks marks n bs = bs := by
  cases n with
  | zero => rfl
  | succ n =>
      have hnone : (marks.find? fun mark => mark.isPrefixOf bs) = none :=
        List.find?_eq_none.mpr fun mark hmark => by simp [h mark hmark]
      unfold trimMarks
      rw [hnone]

theorem spaces_not_plain :
    (∀ mark ∈ spaces, (mark.head?.map plainByte) = some false) ∧
      ∀ mark ∈ spaces.map List.reverse, (mark.head?.map plainByte) = some false := by
  decide

theorem not_isPrefixOf_of_plain {mark bs : Bytes} (hmark : mark.head?.map plainByte = some false)
    (hbs : ∀ b, bs.head? = some b → plainByte b = true) : mark.isPrefixOf bs = false := by
  rw [← Bool.not_eq_true, List.isPrefixOf_iff_prefix]
  rintro ⟨rest, rfl⟩
  obtain ⟨b, hb, hplain⟩ := Option.map_eq_some_iff.mp hmark
  obtain ⟨tail, rfl⟩ := List.head?_eq_some_iff.mp hb
  rw [hbs b rfl] at hplain
  exact Bool.noConfusion hplain

/-- A text that begins and ends with plain bytes has no blanks around it. -/
theorem trimSpace_of_plain {bs : Bytes} (hhead : ∀ b, bs.head? = some b → plainByte b = true)
    (hlast : ∀ b, bs.getLast? = some b → plainByte b = true) : trimSpace bs = bs := by
  have hfront : trimMarks spaces bs.length bs = bs :=
    trimMarks_eq_self (fun mark hmark =>
      not_isPrefixOf_of_plain (spaces_not_plain.1 mark hmark) hhead) _
  have hback : trimMarks (spaces.map List.reverse) bs.length bs.reverse = bs.reverse :=
    trimMarks_eq_self (fun mark hmark =>
      not_isPrefixOf_of_plain (spaces_not_plain.2 mark hmark) (by
        intro b hb
        rw [List.head?_reverse] at hb
        exact hlast b hb)) _
  unfold trimSpace
  dsimp only
  rw [hfront, hback, List.reverse_reverse]

theorem trimSlash_cases (bs : Bytes) :
    bs = trimSlash bs ∨ bs = trimSlash bs ++ [ascii '/'] := by
  unfold trimSlash
  split
  · rename_i hlast
    right
    exact (List.dropLast_append_getLast? _ hlast).symm
  · exact Or.inl rfl

end Kubeapps.Lib.Net
