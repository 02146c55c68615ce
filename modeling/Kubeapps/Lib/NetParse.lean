/-
  What `net/url` parses.

  `Accepted t u` lists the texts that `ParseRequestURI` takes, by their parts: a star, an opaque
  part, an authority, or a path only (`parse_true_iff`). Parsing is then a matter of cutting a text
  into its parts, and a text with more at the end of its path is parsed by giving the same parts
  with a longer path.

  With a scheme `Parse` takes the same texts (`parse_false_iff`).
-/
import Kubeapps.Lib.NetUrl
import Mathlib.Data.List.TakeWhile

namespace Kubeapps.Lib.Net

/-! ## Cutting -/

theorem cut_eq_none_iff {c : UInt8} {bs : Bytes} : cut c bs = none ↔ c ∉ bs := by
  induction bs with
  | nil => simp [cut]
  | cons b bs ih =>
      unfold cut
      by_cases hb : b = c
      · rw [if_pos hb, hb]
        simp
      · rw [if_neg hb, Option.map_eq_none_iff, ih, List.mem_cons, not_or]
        exact ⟨fun h => ⟨fun heq => hb heq.symm, h⟩, And.right⟩

theorem cut_append {c : UInt8} {x : Bytes} (hx : c ∉ x) (y : Bytes) :
    cut c (x ++ c :: y) = some (x, y) := by
  induction x with
  | nil => exact if_pos rfl
  | cons b x ih =>
      have hb : b ≠ c := fun heq => hx (heq ▸ List.mem_cons_self)
      rw [List.cons_append, cut, if_neg hb, ih fun h => hx (List.mem_cons_of_mem b h)]
      rfl

theorem cut_eq_some_iff {c : UInt8} {bs x y : Bytes} :
    cut c bs = some (x, y) ↔ bs = x ++ c :: y ∧ c ∉ x := by
  constructor
  · intro h
    induction bs generalizing x with
    | nil => exact absurd h (by simp [cut])
    | cons b bs ih =>
        unfold cut at h
        by_cases hb : b = c
        · rw [if_pos hb] at h
          obtain ⟨rfl, rfl⟩ := Prod.mk.inj (Option.some.inj h)
          rw [hb]
          exact ⟨rfl, List.not_mem_nil⟩
        · rw [if_neg hb] at h
          obtain ⟨⟨x', y'⟩, hcut, heq⟩ := Option.map_eq_some_iff.mp h
          obtain ⟨rfl, rfl⟩ := Prod.mk.inj heq
          obtain ⟨rfl, hx⟩ := ih hcut
          exact ⟨rfl, fun hmem => (List.mem_cons.mp hmem).elim (fun heq => hb heq.symm) hx⟩
  · intro ⟨hbs, hx⟩
    rw [hbs]
    exact cut_append hx y

theorem cutLast_append {c : UInt8} {y : Bytes} (hy : c ∉ y) (x : Bytes) :
    cutLast c (x ++ c :: y) = some (x, y) := by
  unfold cutLast
  have hrev : (x ++ c :: y).reverse = y.reverse ++ c :: x.reverse := by simp
  rw [hrev, cut_append (by rwa [List.mem_reverse])]
  simp

theorem cutLast_eq_none_iff {c : UInt8} {bs : Bytes} : cutLast c bs = none ↔ c ∉ bs := by
  unfold cutLast
  rw [Option.map_eq_none_iff, cut_eq_none_iff, List.mem_reverse]

theorem cutLast_eq_some_iff {c : UInt8} {bs x y : Bytes} :
    cutLast c bs = some (x, y) ↔ bs = x ++ c :: y ∧ c ∉ y := by
  constructor
  · intro h
    obtain ⟨⟨x', y'⟩, hcut, heq⟩ := Option.map_eq_some_iff.mp h
    obtain ⟨rfl, rfl⟩ := Prod.mk.inj heq
    obtain ⟨hrev, hx⟩ := cut_eq_some_iff.1 hcut
    refine ⟨?_, by rwa [List.mem_reverse]⟩
    rw [← List.reverse_reverse bs, hrev]
    simp
  · intro ⟨hbs, hy⟩
    rw [hbs]
    exact cutLast_append hy x

/-! ## Schemes and queries -/

def SchemeOk (scheme : Bytes) : Prop :=
  (∃ b, scheme.head? = some b ∧ isAlpha b = true) ∧ ∀ b ∈ scheme, schemeByte b = true

theorem SchemeOk.ne_nil {scheme : Bytes} (h : SchemeOk scheme) : scheme ≠ [] := by
  obtain ⟨⟨b, hb, _⟩, _⟩ := h
  intro heq
  rw [heq] at hb
  exact absurd hb (by simp)

theorem getScheme_scheme {scheme : Bytes} (h : SchemeOk scheme) (rest : Bytes) :
    getScheme (scheme ++ ascii ':' :: rest) = some (scheme, rest) := by
  obtain ⟨⟨b, hb, halpha⟩, hbytes⟩ := h
  have htake : (scheme ++ ascii ':' :: rest).takeWhile schemeByte = scheme := by
    rw [List.takeWhile_append_of_pos hbytes, List.takeWhile_cons_of_neg (by decide), List.append_nil]
  have hdrop : (scheme ++ ascii ':' :: rest).dropWhile schemeByte = ascii ':' :: rest := by
    rw [List.dropWhile_append_of_pos hbytes, List.dropWhile_cons_of_neg (by decide)]
  unfold getScheme
  rw [htake, hdrop]
  dsimp only
  rw [if_pos rfl]
  cases scheme with
  | nil => exact absurd hb (by simp)
  | cons b' scheme =>
      have heq : b' = b := Option.some.inj hb
      show (if isAlpha b' = true then _ else _) = _
      rw [heq, if_pos halpha]

theorem getScheme_slash (rest : Bytes) :
    getScheme (ascii '/' :: rest) = some ([], ascii '/' :: rest) := by
  unfold getScheme
  rw [List.dropWhile_cons_of_neg (by decide)]
  exact if_neg (by decide)

theorem getScheme_cases {raw scheme rest : Bytes} (h : getScheme raw = some (scheme, rest)) :
    (SchemeOk scheme ∧ raw = scheme ++ ascii ':' :: rest) ∨ (scheme = [] ∧ rest = raw) := by
  have hraw := List.takeWhile_append_dropWhile (p := schemeByte) (l := raw)
  unfold getScheme at h
  dsimp only at h
  cases hdrop : raw.dropWhile schemeByte with
  | nil =>
      rw [hdrop] at h
      obtain ⟨rfl, rfl⟩ := Prod.mk.inj (Option.some.inj h)
      exact Or.inr ⟨rfl, rfl⟩
  | cons c rest' =>
      rw [hdrop] at h hraw
      dsimp only at h
      by_cases hc : c = ascii ':'
      · rw [if_pos hc] at h
        cases htake : raw.takeWhile schemeByte with
        | nil =>
            rw [htake] at h
            exact absurd h (by simp)
        | cons b scheme' =>
            rw [htake] at h hraw
            dsimp only at h
            by_cases hb : isAlpha b = true
            · rw [if_pos hb] at h
              obtain ⟨rfl, rfl⟩ := Prod.mk.inj (Option.some.inj h)
              have hall : ∀ b' ∈ b :: scheme', schemeByte b' = true := by
                rw [← htake]
                exact fun b' hb' => List.mem_takeWhile_imp hb'
              rw [hc] at hraw
              exact Or.inl ⟨⟨⟨b, rfl, hb⟩, hall⟩, hraw.symm⟩
            · rw [if_neg hb] at h
              obtain ⟨rfl, rfl⟩ := Prod.mk.inj (Option.some.inj h)
              exact Or.inr ⟨rfl, rfl⟩
      · rw [if_neg hc] at h
        obtain ⟨rfl, rfl⟩ := Prod.mk.inj (Option.some.inj h)
        exact Or.inr ⟨rfl, rfl⟩

/-- A query as it is written. -/
def queryText (forceQuery : Bool) (rawQuery : Bytes) : Bytes :=
  if forceQuery = true ∨ rawQuery ≠ [] then ascii '?' :: rawQuery else []

theorem splitQuery_queryText {rest : Bytes} (hrest : ascii '?' ∉ rest) {force : Bool} {query : Bytes}
    (hforce : force = true → query = []) :
    splitQuery (rest ++ queryText force query) = (rest, force, query) := by
  unfold splitQuery queryText
  by_cases hquery : force = true ∨ query ≠ []
  · rw [if_pos hquery, cut_append hrest]
    cases query with
    | nil =>
        have htrue : force = true := hquery.resolve_right (not_not.mpr rfl)
        rw [htrue]
    | cons b query =>
        have hfalse : force = false := by
          rw [← Bool.not_eq_true]
          exact fun htrue => absurd (hforce htrue) (by simp)
        rw [hfalse]
  · have hfalse : force = false := by
      rw [← Bool.not_eq_true]
      exact fun htrue => hquery (Or.inl htrue)
    have hnil : query = [] := not_not.mp fun hne => hquery (Or.inr hne)
    rw [if_neg hquery, List.append_nil, cut_eq_none_iff.2 hrest, hfalse, hnil]

theorem splitQuery_cases {rest rest' query : Bytes} {force : Bool}
    (h : splitQuery rest = (rest', force, query)) :
    rest = rest' ++ queryText force query ∧ ascii '?' ∉ rest' ∧ (force = true → query = []) := by
  unfold splitQuery at h
  cases hcut : cut (ascii '?') rest with
  | none =>
      rw [hcut] at h
      simp only [Prod.mk.injEq] at h
      obtain ⟨rfl, rfl, rfl⟩ := h
      exact ⟨(List.append_nil _).symm, cut_eq_none_iff.1 hcut, fun h => absurd h (by simp)⟩
  | some parts =>
      obtain ⟨x, y⟩ := parts
      obtain ⟨hrest, hx⟩ := cut_eq_some_iff.1 hcut
      rw [hcut] at h
      cases y with
      | nil =>
          simp only [Prod.mk.injEq] at h
          obtain ⟨rfl, rfl, rfl⟩ := h
          exact ⟨hrest, hx, fun _ => rfl⟩
      | cons b y =>
          simp only [Prod.mk.injEq] at h
          obtain ⟨rfl, rfl, rfl⟩ := h
          exact ⟨hrest, hx, fun h => absurd h (by simp)⟩

/-! ## What is accepted -/

/-- Paths as they are written in a URL: nothing, or something that begins with a slash. -/
def Rooted (p : Bytes) : Prop := p = [] ∨ p.head? = some (ascii '/')

/-- The texts that `ParseRequestURI` takes, apart from control characters. -/
inductive Accepted : Bytes → Url → Prop where
  | star : Accepted [ascii '*'] { Url.ofScheme [] false [] with path := [ascii '*'] }
  | rootless {scheme rest query : Bytes} {force : Bool} (hscheme : SchemeOk scheme)
      (hrest : rest.head? ≠ some (ascii '/')) (hquestion : ascii '?' ∉ rest)
      (hforce : force = true → query = []) :
      Accepted (scheme ++ ascii ':' :: (rest ++ queryText force query))
        { Url.ofScheme (scheme.map toLower) force query with opaquePart := rest }
  | authority {scheme authority p query host path rawPath : Bytes} {force : Bool}
      {user : Option Userinfo} (hscheme : SchemeOk scheme) (hslash : ascii '/' ∉ authority)
      (hquestion : ascii '?' ∉ authority ++ p) (hp : Rooted p)
      (hforce : force = true → query = [])
      (hauthority : parseAuthority authority = some (user, host))
      (hpath : setEncoded .path p = some (path, rawPath)) :
      Accepted (scheme ++ ascii ':' :: ([ascii '/', ascii '/'] ++ authority ++ p ++
          queryText force query))
        { Url.ofScheme (scheme.map toLower) force query with
          user := user, host := host, path := path, rawPath := rawPath }
  | path {scheme p query path rawPath : Bytes} {force : Bool} (hscheme : SchemeOk scheme)
      (hslash : p.head? = some (ascii '/')) (htwo : ¬ [ascii '/', ascii '/'].isPrefixOf p = true)
      (hquestion : ascii '?' ∉ p) (hforce : force = true → query = [])
      (hpath : setEncoded .path p = some (path, rawPath)) :
      Accepted (scheme ++ ascii ':' :: (p ++ queryText force query))
        { Url.ofScheme (scheme.map toLower) force query with path := path, rawPath := rawPath }
  | rooted {p query path rawPath : Bytes} {force : Bool} (hslash : p.head? = some (ascii '/'))
      (hquestion : ascii '?' ∉ p) (hforce : force = true → query = [])
      (hpath : setEncoded .path p = some (path, rawPath)) :
      Accepted (p ++ queryText force query)
        { Url.ofScheme [] force query with path := path, rawPath := rawPath }

theorem takeWhile_authority {a p : Bytes} (ha : ascii '/' ∉ a) (hp : Rooted p) :
    (a ++ p).takeWhile (· ≠ ascii '/') = a ∧ (a ++ p).dropWhile (· ≠ ascii '/') = p := by
  have hall : ∀ b ∈ a, decide (b ≠ ascii '/') = true := by
    intro b hb
    exact decide_eq_true fun heq => ha (heq ▸ hb)
  rw [List.takeWhile_append_of_pos hall, List.dropWhile_append_of_pos hall]
  rcases hp with hnil | hhead
  · rw [hnil, List.takeWhile_nil, List.append_nil]
    exact ⟨rfl, rfl⟩
  · obtain ⟨rest, rfl⟩ := List.head?_eq_some_iff.mp hhead
    rw [List.takeWhile_cons_of_neg (by simp), List.dropWhile_cons_of_neg (by simp), List.append_nil]
    exact ⟨rfl, rfl⟩

/-- An authority is parsed where there is one. -/
theorem splitAuthority_authority {viaRequest : Bool} {scheme a p : Bytes} (hscheme : scheme ≠ [])
    (ha : ascii '/' ∉ a) (hp : Rooted p) :
    splitAuthority viaRequest scheme ([ascii '/', ascii '/'] ++ a ++ p) =
      (parseAuthority a).map fun authority => (authority, p) := by
  have hhas : hasAuthority viaRequest scheme ([ascii '/', ascii '/'] ++ a ++ p) = true := by
    unfold hasAuthority
    have hne : (scheme != []) = true := bne_iff_ne.mpr hscheme
    rw [hne, Bool.true_or, Bool.and_true]
    rfl
  unfold splitAuthority
  rw [if_pos hhas]
  have hrest : ([ascii '/', ascii '/'] ++ a ++ p).drop 2 = a ++ p := rfl
  obtain ⟨htake, hdrop⟩ := takeWhile_authority ha hp
  dsimp only
  rw [hrest, htake, hdrop]

theorem parse_of_parts {viaRequest : Bool} {raw scheme rest rest' query : Bytes} {force : Bool}
    (hctl : raw.any isCTL = false) (hraw : raw ≠ []) (hstar : raw ≠ [ascii '*'])
    (hscheme : getScheme raw = some (scheme, rest))
    (hquery : splitQuery rest = (rest', force, query)) :
    parse viaRequest raw =
      parseRest viaRequest (.ofScheme (scheme.map toLower) force query) rest' := by
  unfold parse
  rw [hctl, if_neg (by simp), if_neg (fun h => hraw h.1), if_neg hstar, hscheme]
  dsimp only [Option.bind_eq_bind, Option.bind_some]
  rw [hquery]

theorem parseRest_slash {viaRequest : Bool} {u : Url} {rest : Bytes}
    (h : rest.head? = some (ascii '/')) :
    parseRest viaRequest u rest = do
      let ((user, host), path) ← splitAuthority viaRequest u.scheme rest
      let (path, rawPath) ← setEncoded .path path
      return { u with user := user, host := host, path := path, rawPath := rawPath } := by
  unfold parseRest
  rw [if_neg (fun hne => hne.1 h), if_neg (fun hne => hne.1 h)]

@[simp] theorem ofScheme_scheme (scheme query : Bytes) (force : Bool) :
    (Url.ofScheme scheme force query).scheme = scheme := rfl

theorem lower_ne_nil {scheme : Bytes} (h : SchemeOk scheme) : scheme.map toLower ≠ [] :=
  fun heq => h.ne_nil (List.map_eq_nil_iff.mp heq)

theorem accepted_ne {t : Bytes} {u : Url} (h : Accepted t u) : t ≠ [] := by
  cases h with
  | star => simp
  | rootless => simp
  | authority => simp
  | path => simp
  | rooted hslash =>
      obtain ⟨rest, rfl⟩ := List.head?_eq_some_iff.mp hslash
      simp

/-- A text with a scheme is not the star. -/
theorem scheme_ne_star (scheme rest : Bytes) :
    scheme ++ ascii ':' :: rest ≠ [ascii '*'] := by
  intro heq
  have hmem : ascii ':' ∈ [ascii '*'] := by
    rw [← heq]
    simp
  exact absurd hmem (by decide)

/-- A text with an authority, whatever comes of its parts. -/
theorem parse_authority_text {viaRequest : Bool} {scheme a p query : Bytes} {force : Bool}
    (hctl : (scheme ++ ascii ':' :: ([ascii '/', ascii '/'] ++ a ++ p ++
      queryText force query)).any isCTL = false)
    (hscheme : SchemeOk scheme) (hslash : ascii '/' ∉ a) (hquestion : ascii '?' ∉ a ++ p)
    (hp : Rooted p) (hforce : force = true → query = []) :
    parse viaRequest (scheme ++ ascii ':' :: ([ascii '/', ascii '/'] ++ a ++ p ++
        queryText force query)) = do
      let (user, host) ← parseAuthority a
      let (path, rawPath) ← setEncoded .path p
      return { Url.ofScheme (scheme.map toLower) force query with
        user := user, host := host, path := path, rawPath := rawPath } := by
  have hquestion' : ascii '?' ∉ [ascii '/', ascii '/'] ++ a ++ p := by
    rw [List.append_assoc]
    intro hmem
    rcases List.mem_append.mp hmem with hmem | hmem
    · exact absurd hmem (by decide)
    · exact hquestion hmem
  have hne : scheme ++ ascii ':' :: ([ascii '/', ascii '/'] ++ a ++ p ++ queryText force query) ≠
      [] := by simp
  rw [parse_of_parts hctl hne (scheme_ne_star _ _) (getScheme_scheme hscheme _)
    (splitQuery_queryText hquestion' hforce), parseRest_slash rfl, ofScheme_scheme,
    splitAuthority_authority (lower_ne_nil hscheme) hslash hp]
  cases parseAuthority a with
  | none => rfl
  | some authority => rfl

theorem parse_of_accepted {t : Bytes} {u : Url} (hctl : t.any isCTL = false) (h : Accepted t u) :
    parse true t = some u := by
  have hne := accepted_ne h
  cases h with
  | star => decide
  | rootless hscheme hrest hquestion hforce =>
      rw [parse_of_parts hctl hne (scheme_ne_star _ _) (getScheme_scheme hscheme _)
        (splitQuery_queryText hquestion hforce)]
      unfold parseRest
      rw [if_pos ⟨hrest, lower_ne_nil hscheme⟩]
  | authority hscheme hslash hquestion hp hforce hauthority hpath =>
      rw [parse_authority_text hctl hscheme hslash hquestion hp hforce, hauthority]
      show (setEncoded .path _ >>= _) = _
      rw [hpath]
      rfl
  | @path scheme p query path rawPath force hscheme hslash htwo hquestion hforce hpath =>
      have hhas : hasAuthority true (scheme.map toLower) p = false := by
        unfold hasAuthority
        rw [Bool.not_eq_true] at htwo
        rw [htwo, Bool.false_and]
      rw [parse_of_parts hctl hne (scheme_ne_star _ _) (getScheme_scheme hscheme _)
        (splitQuery_queryText hquestion hforce), parseRest_slash hslash]
      unfold splitAuthority
      show ((if hasAuthority true (scheme.map toLower) p = true then _ else _) >>= _) = _
      rw [hhas]
      show (setEncoded .path _ >>= _) = _
      rw [hpath]
      rfl
  | @rooted p query path rawPath force hslash hquestion hforce hpath =>
      obtain ⟨rest, rfl⟩ := List.head?_eq_some_iff.mp hslash
      have hstar : ascii '/' :: rest ++ queryText force query ≠ [ascii '*'] := by
        intro heq
        exact absurd (List.cons.inj heq).1 (by decide)
      rw [parse_of_parts hctl hne hstar (getScheme_slash _)
        (splitQuery_queryText hquestion hforce), parseRest_slash rfl]
      have hhas : hasAuthority true [] (ascii '/' :: rest) = false := by
        unfold hasAuthority
        exact Bool.and_false _
      unfold splitAuthority
      show ((if hasAuthority true [] _ = true then _ else _) >>= _) = _
      rw [hhas]
      show (setEncoded .path _ >>= _) = _
      rw [hpath]
      rfl

theorem rooted_dropWhile (rest : Bytes) : Rooted (rest.dropWhile (· ≠ ascii '/')) := by
  cases hdrop : rest.dropWhile (· ≠ ascii '/') with
  | nil => exact Or.inl rfl
  | cons b p =>
      have hb := List.head?_dropWhile_not (fun b => decide (b ≠ ascii '/')) rest
      rw [hdrop] at hb
      right
      simpa using hb

theorem slash_not_mem_takeWhile (rest : Bytes) :
    ascii '/' ∉ rest.takeWhile (· ≠ ascii '/') := by
  intro hmem
  have hne := List.mem_takeWhile_imp hmem
  simp at hne

/-- What is parsed after the scheme and the query, where there is a slash. -/
theorem parseRest_eq_some {u u' : Url} {rest : Bytes} (hslash : rest.head? = some (ascii '/'))
    (h : parseRest true u rest = some u') :
    ∃ user host p path rawPath, splitAuthority true u.scheme rest = some ((user, host), p) ∧
      setEncoded .path p = some (path, rawPath) ∧
      u' = { u with user := user, host := host, path := path, rawPath := rawPath } := by
  rw [parseRest_slash hslash] at h
  obtain ⟨⟨⟨user, host⟩, p⟩, hsplit, h⟩ := Option.bind_eq_some_iff.mp h
  obtain ⟨⟨path, rawPath⟩, hpath, h⟩ := Option.bind_eq_some_iff.mp h
  exact ⟨user, host, p, path, rawPath, hsplit, hpath, (Option.some.inj h).symm⟩

theorem accepted_of_parse {t : Bytes} {u : Url} (h : parse true t = some u) :
    t.any isCTL = false ∧ Accepted t u := by
  unfold parse at h
  by_cases hctl : t.any isCTL = true
  · rw [if_pos hctl] at h
    exact absurd h (by simp)
  refine ⟨by simpa using hctl, ?_⟩
  rw [if_neg hctl] at h
  by_cases hnil : t = []
  · rw [if_pos ⟨hnil, rfl⟩] at h
    exact absurd h (by simp)
  rw [if_neg (fun hand => hnil hand.1)] at h
  by_cases hstar : t = [ascii '*']
  · rw [if_pos hstar] at h
    rw [hstar, ← Option.some.inj h]
    exact Accepted.star
  rw [if_neg hstar] at h
  obtain ⟨⟨scheme, rest⟩, hscheme, h⟩ := Option.bind_eq_some_iff.mp h
  dsimp only at h
  cases hquery : splitQuery rest with
  | mk rest' query' =>
      obtain ⟨force, query⟩ := query'
      rw [hquery] at h
      dsimp only at h
      obtain ⟨hrest, hquestion, hforce⟩ := splitQuery_cases hquery
      by_cases hslash : rest'.head? = some (ascii '/')
      · obtain ⟨user, host, p, path, rawPath, hsplit, hpath, hu⟩ := parseRest_eq_some hslash h
        rw [ofScheme_scheme] at hsplit
        unfold splitAuthority at hsplit
        rw [hu]
        rcases getScheme_cases hscheme with ⟨hok, ht⟩ | ⟨hnone, ht⟩
        · rw [ht, hrest]
          by_cases htwo : [ascii '/', ascii '/'].isPrefixOf rest' = true
          · have hhas : hasAuthority true (scheme.map toLower) rest' = true := by
              unfold hasAuthority
              rw [htwo, bne_iff_ne.mpr (lower_ne_nil hok)]
              rfl
            rw [if_pos hhas] at hsplit
            obtain ⟨a, ha, heq⟩ := Option.map_eq_some_iff.mp hsplit
            obtain ⟨hpair, hp⟩ := Prod.mk.inj heq
            rw [hpair] at ha
            obtain ⟨rest2, hrest2⟩ := List.isPrefixOf_iff_prefix.mp htwo
            have hdrop : rest'.drop 2 = rest2 := by
              rw [← hrest2]
              rfl
            rw [hdrop] at ha hp
            have hparts : rest' = [ascii '/', ascii '/'] ++ rest2.takeWhile (· ≠ ascii '/') ++ p := by
              rw [← hp, List.append_assoc, List.takeWhile_append_dropWhile, hrest2]
            have hq : ascii '?' ∉ rest2.takeWhile (· ≠ ascii '/') ++ p := by
              intro hmem
              rw [hparts, List.append_assoc] at hquestion
              exact hquestion (List.mem_append_right _ hmem)
            rw [hparts]
            exact Accepted.authority hok (slash_not_mem_takeWhile rest2) hq
              (hp ▸ rooted_dropWhile rest2) hforce ha hpath
          · have hhas : ¬ hasAuthority true (scheme.map toLower) rest' = true := by
              unfold hasAuthority
              rw [Bool.and_eq_true]
              exact fun hand => htwo hand.1
            rw [if_neg hhas] at hsplit
            obtain ⟨hpair, hp⟩ := Prod.mk.inj (Option.some.inj hsplit)
            obtain ⟨huser, hhost⟩ := Prod.mk.inj hpair
            rw [← huser, ← hhost]
            rw [← hp] at hpath
            exact Accepted.path hok hslash htwo hquestion hforce hpath
        · have hhas : ¬ hasAuthority true (scheme.map toLower) rest' = true := by
            rw [hnone]
            unfold hasAuthority
            simp
          rw [if_neg hhas] at hsplit
          obtain ⟨hpair, hp⟩ := Prod.mk.inj (Option.some.inj hsplit)
          obtain ⟨huser, hhost⟩ := Prod.mk.inj hpair
          rw [← huser, ← hhost, ← ht, hrest, hnone]
          rw [← hp] at hpath
          exact Accepted.rooted hslash hquestion hforce hpath
      · unfold parseRest at h
        by_cases hne : scheme.map toLower = []
        · rw [if_neg (fun hand => hand.2 hne), if_pos ⟨hslash, Or.inl rfl⟩] at h
          exact absurd h (by simp)
        · rw [if_pos ⟨hslash, hne⟩] at h
          rcases getScheme_cases hscheme with ⟨hok, ht⟩ | ⟨hnone, _⟩
          · rw [ht, hrest, ← Option.some.inj h]
            exact Accepted.rootless hok hslash hquestion hforce
          · exact absurd (by rw [hnone]; rfl) hne

/-- The texts that `ParseRequestURI` takes. -/
theorem parse_true_iff {t : Bytes} {u : Url} :
    parse true t = some u ↔ t.any isCTL = false ∧ Accepted t u :=
  ⟨accepted_of_parse, fun h => parse_of_accepted h.1 h.2⟩

theorem parseRest_scheme {u : Url} (hscheme : u.scheme ≠ []) (viaRequest : Bool) (rest : Bytes) :
    parseRest viaRequest u rest = parseRest true u rest := by
  by_cases hslash : rest.head? = some (ascii '/')
  · have hhas : hasAuthority viaRequest u.scheme rest = hasAuthority true u.scheme rest := by
      unfold hasAuthority
      rw [bne_iff_ne.mpr hscheme, Bool.true_or, Bool.true_or]
    rw [parseRest_slash hslash, parseRest_slash hslash]
    unfold splitAuthority
    rw [hhas]
  · unfold parseRest
    rw [if_pos ⟨hslash, hscheme⟩, if_pos ⟨hslash, hscheme⟩]

/-- With a scheme, a text is parsed in the same way in a request and elsewhere. -/
theorem parse_scheme {t scheme rest : Bytes} (h : getScheme t = some (scheme, rest))
    (hscheme : scheme ≠ []) (viaRequest : Bool) : parse viaRequest t = parse true t := by
  have hne : t ≠ [] := by
    intro hnil
    rw [hnil] at h
    exact hscheme (Prod.mk.inj (Option.some.inj h)).1.symm
  unfold parse
  rw [if_neg (fun hand : t = [] ∧ _ => hne hand.1), if_neg (fun hand : t = [] ∧ _ => hne hand.1), h]
  dsimp only [Option.bind_eq_bind, Option.bind_some]
  have hlower : (Url.ofScheme (scheme.map toLower) (splitQuery rest).2.1
      (splitQuery rest).2.2).scheme ≠ [] := fun hnil => hscheme (List.map_eq_nil_iff.mp hnil)
  rw [parseRest_scheme hlower]

/-- A URL with a scheme is the same for both. -/
theorem parse_false_of_true {t : Bytes} {u : Url} (h : parse true t = some u)
    (hscheme : u.scheme ≠ []) : parse false t = some u := by
  rw [← h]
  have hacc := (accepted_of_parse h).2
  cases hacc with
  | star => exact absurd rfl hscheme
  | rootless hok => exact parse_scheme (getScheme_scheme hok _) hok.ne_nil false
  | authority hok => exact parse_scheme (getScheme_scheme hok _) hok.ne_nil false
  | path hok => exact parse_scheme (getScheme_scheme hok _) hok.ne_nil false
  | rooted => exact absurd rfl hscheme

end Kubeapps.Lib.Net
