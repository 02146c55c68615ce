/-
  The URL of a repository's index, as it is requested by the validation of the repository
  (pkg/kube/kube_handler.go: getRequests), by asset-syncer (cmd/asset-syncer/utils.go:
  getHelmRepo, fetchRepoIndex) and by kubeops (pkg/chart/chart.go: Client.GetChart, getReq).

  Strings are their bytes. A URL that is requested is the text that `http.NewRequest` is given.

  `sameIndexURL_iff`: the three are one URL exactly for the repository URLs of `PlainRepo`.
-/
import Kubeapps.Lib.NetPath
import Kubeapps.Lib.NetPrint

namespace Kubeapps.RepoUrls

open Kubeapps.Lib hiding pathJoin trimSpace
open Kubeapps.Lib.Net

def indexYaml : Bytes := bytes "index.yaml"

/-- `http.NewRequest("GET", url, nil)`: the text of the URL, if it parses. -/
def newRequest (url : Bytes) : Option Bytes := (parseURL url).map fun _ => url

/-- `parsedURL.Path = path.Join(parsedURL.Path, "index.yaml")`. -/
def joinIndex (u : Url) : Url := { u with path := pathJoin u.path indexYaml }

/-- `getRequests`, for every type but `oci`. -/
def validationURL (repoURL : Bytes) : Option Bytes := do
  let repoURL := trimSlash (trimSpace repoURL)
  let parsedURL ← parseRequestURI repoURL
  newRequest (joinIndex parsedURL).string

/-- `parseRepoURL`. -/
def parseRepoURL (repoURL : Bytes) : Option Url := parseRequestURI (trimSpace repoURL)

/-- `fetchRepoIndex`. -/
def fetchRepoIndex (url : Bytes) : Option Bytes := do
  let indexURL ← parseRepoURL url
  newRequest (joinIndex indexURL).string

/-- `getHelmRepo`: the URL is parsed and printed before it is used. -/
def syncURL (repoURL : Bytes) : Option Bytes := do
  let url ← parseRepoURL repoURL
  fetchRepoIndex url.string

/-- `getReq`. -/
def getReq (rawURL : Bytes) : Option Bytes := do
  let parsedURL ← parseRequestURI rawURL
  newRequest parsedURL.string

/-- The index URL of `Client.GetChart`. -/
def indexURL (repoURL : Bytes) : Bytes := trimSlash (trimSpace repoURL) ++ ascii '/' :: indexYaml

/-- The URL of the first request of `Client.GetChart`. -/
def kubeopsURL (repoURL : Bytes) : Option Bytes := getReq (indexURL repoURL)

/-! ## Paths of repositories -/

/-- A path without empty elements and dot elements. -/
def CleanPath (p : Bytes) : Prop := p = [] ∨ ∀ e ∈ (p.drop 1).splitOn (ascii '/'), Kept e

theorem not_cleanPath_slash : ¬ CleanPath [ascii '/'] := by
  unfold CleanPath
  decide

/-- What `index.yaml` is to net/url and path. -/
theorem indexYaml_facts :
    indexYaml = ascii 'i' :: bytes "ndex.yaml" ∧ Kept indexYaml ∧ ascii '/' ∉ indexYaml ∧
      indexYaml ≠ [ascii '*'] ∧ indexYaml.head? ≠ some (ascii '/') ∧
      escape .path indexYaml = indexYaml ∧ escape .host indexYaml = indexYaml ∧
      parseAuthority indexYaml = some (none, indexYaml) ∧ pathJoin [] indexYaml = indexYaml ∧
      pathJoin [ascii '/'] indexYaml = ascii '/' :: indexYaml := by
  decide

theorem indexYaml_eq : indexYaml = ascii 'i' :: bytes "ndex.yaml" := indexYaml_facts.1

theorem indexYaml_kept : Kept indexYaml := indexYaml_facts.2.1

theorem slash_not_mem_indexYaml : ascii '/' ∉ indexYaml := indexYaml_facts.2.2.1

/-- What it is after a slash. -/
theorem slash_indexYaml_facts :
    unescape .path (ascii '/' :: indexYaml) = some (ascii '/' :: indexYaml) ∧
      escape .path (ascii '/' :: indexYaml) = ascii '/' :: indexYaml ∧
      validEncoded .path (ascii '/' :: indexYaml) = true ∧
      (ascii '/' :: indexYaml).any isCTL = false ∧ ascii '?' ∉ ascii '/' :: indexYaml ∧
      setEncoded .path (ascii '/' :: indexYaml) = some (ascii '/' :: indexYaml, []) ∧
      getReq ([ascii '*'] ++ ascii '/' :: indexYaml) = none := by
  decide

theorem unescape_slash_indexYaml :
    unescape .path (ascii '/' :: indexYaml) = some (ascii '/' :: indexYaml) :=
  slash_indexYaml_facts.1

theorem escape_slash_indexYaml : escape .path (ascii '/' :: indexYaml) = ascii '/' :: indexYaml :=
  slash_indexYaml_facts.2.1

theorem question_not_mem_index : ascii '?' ∉ ascii '/' :: indexYaml :=
  slash_indexYaml_facts.2.2.2.2.1

theorem splitOn_append_index (rest : Bytes) :
    (rest ++ ascii '/' :: indexYaml).splitOn (ascii '/') =
      rest.splitOn (ascii '/') ++ [indexYaml] := by
  rw [List.splitOn_append_cons_self, List.splitOn_eq_singleton slash_not_mem_indexYaml]

theorem pathJoin_nil : pathJoin [] indexYaml = indexYaml := indexYaml_facts.2.2.2.2.2.2.2.2.1

theorem pathJoin_rooted (rest : Bytes) :
    pathJoin (ascii '/' :: rest) indexYaml =
      pathClean (ascii '/' :: (rest ++ ascii '/' :: indexYaml)) := by
  unfold pathJoin
  rw [List.dropWhile_cons_of_neg (by simp)]
  rfl

/-- The index goes after a path exactly if the path is clean. -/
theorem pathJoin_eq_iff (rest : Bytes) :
    pathJoin (ascii '/' :: rest) indexYaml = ascii '/' :: rest ++ ascii '/' :: indexYaml ↔
      CleanPath (ascii '/' :: rest) := by
  rw [pathJoin_rooted, List.cons_append]
  constructor
  · intro heq
    have hsome : cleanElems true [] ((rest ++ ascii '/' :: indexYaml).splitOn (ascii '/')) ≠ [] := by
      intro hnil
      rw [pathClean_rooted, hnil] at heq
      exact absurd (List.cons.inj heq).2 (by simp [joinSlash])
    obtain ⟨rest', hrest', hkept⟩ := splitOn_pathClean hsome
    rw [hrest'] at heq
    rw [(List.cons.inj heq).2, splitOn_append_index] at hkept
    exact Or.inr fun e he => hkept e (List.mem_append_left _ he)
  · intro hclean
    apply pathClean_of_kept
    rw [splitOn_append_index]
    intro e he
    rcases List.mem_append.mp he with he | he
    · exact hclean.resolve_left (by simp) e he
    · rw [List.mem_singleton.mp he]
      exact indexYaml_kept

/-- A slash at the end of the path makes no difference to the joined path. -/
theorem pathJoin_slash {p : Bytes} (hp : p.head? = some (ascii '/')) (hclean : CleanPath p) :
    pathJoin (p ++ [ascii '/']) indexYaml = pathJoin p indexYaml := by
  obtain ⟨rest, rfl⟩ := List.head?_eq_some_iff.mp hp
  have hkept : ∀ e ∈ rest.splitOn (ascii '/'), Kept e := hclean.resolve_left (by simp)
  have hone : ∀ e ∈ [indexYaml], Kept e := by
    intro e he
    rw [List.mem_singleton.mp he]
    exact indexYaml_kept
  have hsplit : (rest ++ [ascii '/'] ++ ascii '/' :: indexYaml).splitOn (ascii '/') =
      rest.splitOn (ascii '/') ++ ([[]] ++ [indexYaml]) := by
    rw [splitOn_append_index, List.splitOn_append_cons_self, List.append_assoc]
    rfl
  rw [List.cons_append, pathJoin_rooted, pathJoin_rooted, pathClean_rooted, pathClean_rooted,
    hsplit, splitOn_append_index, cleanElems_append, cleanElems_append, cleanElems_append]
  rfl

/-! ## What is printed -/

/-- The repository URLs with one index URL: they have a path or a host, no query, and a clean path
    that is written as `net/url` writes it. -/
structure PlainRepo (u : Url) : Prop where
  opaquePart : u.opaquePart = []
  force : u.forceQuery = false
  rawQuery : u.rawQuery = []
  star : u.path ≠ [ascii '*']
  front : u.path ≠ [] ∨ u.host ≠ []
  clean : CleanPath u.path
  written : u.rawPath = [] ∨ validEncoded .path u.rawPath = false

theorem query_eq_nil {u : Url} (hforce : u.forceQuery = false) (hquery : u.rawQuery = []) :
    u.query = [] := by
  unfold Url.query
  rw [hforce, hquery]
  rfl

theorem rawPath_reads {p path rawPath : Bytes} (h : setEncoded .path p = some (path, rawPath)) :
    rawPath = [] ∨ unescape .path rawPath = some path := by
  obtain ⟨hread, hraw⟩ := setEncoded_eq_some_iff.1 h
  rw [hraw]
  split
  · exact Or.inl rfl
  · exact Or.inr hread

/-- The written form of another path is not used. -/
theorem escaped_stale {path rawPath path' : Bytes}
    (hraw : rawPath = [] ∨ unescape .path rawPath = some path) (hne : path' ≠ path) :
    escaped .path path' rawPath = escape .path path' := by
  unfold escaped
  apply if_neg
  intro hand
  rcases hraw with hnil | hread
  · exact hand.1 hnil
  · rw [hread] at hand
    exact hne (Option.some.inj hand.2.2).symm

theorem escape_append_index (p : Bytes) :
    escape .path (p ++ ascii '/' :: indexYaml) = escape .path p ++ ascii '/' :: indexYaml := by
  rw [escape_append, escape_slash_indexYaml]

theorem append_index_ne (p : Bytes) : p ++ ascii '/' :: indexYaml ≠ p := by
  intro heq
  have hlen := congrArg List.length heq
  rw [List.length_append, List.length_cons] at hlen
  omega

/-- A path with the index after it is written as `net/url` writes it exactly if the path is. -/
theorem escaped_append_iff {p path rawPath : Bytes}
    (hp : setEncoded .path p = some (path, rawPath)) :
    escaped .path (path ++ ascii '/' :: indexYaml)
        (if escape .path (path ++ ascii '/' :: indexYaml) = p ++ ascii '/' :: indexYaml then []
          else p ++ ascii '/' :: indexYaml) =
      escape .path (path ++ ascii '/' :: indexYaml) ↔
    rawPath = [] ∨ validEncoded .path rawPath = false := by
  obtain ⟨hread, hraw⟩ := setEncoded_eq_some_iff.1 hp
  have hreadIndex : unescape .path (p ++ ascii '/' :: indexYaml) =
      some (path ++ ascii '/' :: indexYaml) :=
    unescape_of_reads ((reads_of_unescape hread).append
      (reads_of_unescape unescape_slash_indexYaml))
  have hvalid : validEncoded .path (p ++ ascii '/' :: indexYaml) = validEncoded .path p := by
    have hindex : validEncoded .path (ascii '/' :: indexYaml) = true :=
      slash_indexYaml_facts.2.2.1
    unfold validEncoded at hindex ⊢
    rw [List.all_append, hindex, Bool.and_true]
  have hsame : escape .path (path ++ ascii '/' :: indexYaml) = p ++ ascii '/' :: indexYaml ↔
      escape .path path = p := by
    rw [escape_append_index]
    exact List.append_left_inj _
  by_cases heq : escape .path path = p
  · rw [if_pos (hsame.mpr heq), hraw, if_pos heq]
    unfold escaped
    rw [if_neg (fun hand : ([] : Bytes) ≠ [] ∧ _ => hand.1 rfl)]
    exact ⟨fun _ => Or.inl rfl, fun _ => rfl⟩
  · have hne : p ≠ [] := by
      intro hnil
      rw [hnil] at hread heq
      rw [← Option.some.inj hread] at heq
      exact heq rfl
    rw [if_neg (fun h => heq (hsame.mp h)), hraw, if_neg heq]
    unfold escaped
    rw [hvalid]
    by_cases hv : validEncoded .path p = true
    · rw [if_pos ⟨by simp, hv, hreadIndex⟩]
      constructor
      · intro h
        exact absurd (hsame.mp h.symm) heq
      · intro h
        rcases h with h | h
        · exact absurd h hne
        · rw [hv] at h
          exact Bool.noConfusion h
    · rw [if_neg (fun hand => hv hand.2.1)]
      exact ⟨fun _ => Or.inr (by simpa using hv), fun _ => rfl⟩

section Print

variable {u : Url} (h : Parsed u) (hforce : u.forceQuery = false) (hquery : u.rawQuery = [])

include h hforce hquery

theorem string_front (hne : u.path ≠ []) : u.string = u.front ++ u.escapedPath := by
  rw [string_eq h.fragment, query_eq_nil hforce hquery, List.append_nil,
    h.hierarchy_eq (Or.inr (Or.inl hne))]

theorem string_joinIndex_rooted (hne : u.path ≠ []) :
    (joinIndex u).string = u.front ++ (joinIndex u).escapedPath := by
  obtain ⟨rest, hrest⟩ := List.head?_eq_some_iff.mp (h.rooted.resolve_left hne)
  have hjoin : Rooted (pathJoin u.path indexYaml) ∧ pathJoin u.path indexYaml ≠ [] := by
    rw [hrest, pathJoin_rooted, pathClean_rooted]
    exact ⟨Or.inr rfl, by simp⟩
  have hparsed : Parsed (joinIndex u) := h.withPath hjoin.1 hjoin.2 h.rootedRaw
  exact string_front hparsed hforce hquery hjoin.2

theorem string_joinIndex_nil (hnil : u.path = [])
    (hraw : u.rawPath = [] ∨ unescape .path u.rawPath = some u.path) :
    (joinIndex u).string = u.front ++
      if u.host = [] then indexYaml else ascii '/' :: indexYaml := by
  have hscheme : SchemeOk u.scheme := by
    rcases h.scheme with hscheme | hscheme
    · exact hscheme.1
    · exact absurd hnil hscheme.2.2.2
  obtain ⟨-, -, -, hstar, hhead, hescape, -⟩ := indexYaml_facts
  have hpath : (joinIndex u).path = indexYaml := by
    unfold joinIndex
    rw [hnil, pathJoin_nil]
  have hescaped : (joinIndex u).escapedPath = indexYaml := by
    have hstale : escaped .path indexYaml u.rawPath = escape .path indexYaml :=
      escaped_stale hraw (by rw [hnil, indexYaml_eq]; simp)
    rw [escapedPath_eq (by rw [hpath]; exact hstar), hpath]
    exact hstale.trans hescape
  have hprinted : (joinIndex u).printedPath =
      if u.host = [] then indexYaml else ascii '/' :: indexYaml := by
    unfold Url.printedPath
    rw [hescaped]
    by_cases hhost : u.host = []
    · rw [if_pos hhost]
      exact if_neg fun hand => hand.2.2 hhost
    · rw [if_neg hhost]
      exact if_pos ⟨by rw [indexYaml_eq]; simp, hhead, hhost⟩
  have hfront : (joinIndex u).host ≠ [] ∨ (joinIndex u).path ≠ [] ∨ (joinIndex u).user ≠ none := by
    rw [hpath, indexYaml_eq]
    exact Or.inr (Or.inl (by simp))
  have hquery' : (joinIndex u).query = [] := query_eq_nil hforce hquery
  have hopaquePart : (joinIndex u).opaquePart = [] := h.opaquePart
  have hfragment : (joinIndex u).fragment = [] := h.fragment
  rw [string_eq hfragment, hquery', List.append_nil,
    hierarchy_scheme hopaquePart hscheme.ne_nil hfront, hprinted]
  unfold Url.front
  rw [if_neg hscheme.ne_nil, List.append_assoc u.scheme]
  rfl

/-- The index of a plain repository comes after its path. -/
theorem string_joinIndex (hclean : CleanPath u.path) (hne : u.path ≠ [] ∨ u.host ≠ [])
    (hraw : u.rawPath = [] ∨ unescape .path u.rawPath = some u.path) :
    (joinIndex u).string = u.front ++ escape .path (u.path ++ ascii '/' :: indexYaml) := by
  by_cases hnil : u.path = []
  · rw [string_joinIndex_nil h hforce hquery hnil hraw,
      if_neg (hne.resolve_left (not_not.mpr hnil)), hnil, List.nil_append, escape_slash_indexYaml]
  · obtain ⟨rest, hrest⟩ := List.head?_eq_some_iff.mp (h.rooted.resolve_left hnil)
    have hjoin : (joinIndex u).path = u.path ++ ascii '/' :: indexYaml := by
      unfold joinIndex
      rw [hrest] at hclean ⊢
      exact (pathJoin_eq_iff rest).mpr hclean
    have hstar : (joinIndex u).path ≠ [ascii '*'] := by
      rw [hjoin, hrest]
      simp
    rw [string_joinIndex_rooted h hforce hquery hnil, escapedPath_eq hstar, hjoin]
    exact congrArg _ (escaped_stale hraw (append_index_ne u.path))

end Print

/-! ## The three URLs -/

theorem newRequest_eq_some_iff {url V : Bytes} :
    newRequest url = some V ↔ V = url ∧ (parseURL url).isSome = true := by
  unfold newRequest
  rw [Option.map_eq_some_iff, Option.isSome_iff_exists]
  constructor
  · rintro ⟨v, hv, rfl⟩
    exact ⟨rfl, v, hv⟩
  · rintro ⟨rfl, v, hv⟩
    exact ⟨v, hv, rfl⟩

section Same

variable {repoURL V t p : Bytes} {u : Url}

/-- The authority of a URL with an index that is parsed. -/
theorem authority_isSome (h : Parsed u) (hforce : u.forceQuery = false) (hquery : u.rawQuery = [])
    (hparse : (parseURL (u.front ++
      escape .path (u.path ++ ascii '/' :: indexYaml))).isSome = true) :
    (parseAuthority u.authority).isSome = true := by
  have hne : u.path ++ ascii '/' :: indexYaml ≠ [] := by simp
  have hrooted : Rooted (u.path ++ ascii '/' :: indexYaml) := Or.inr (rooted_append h.rooted rfl)
  have hparsed := h.withPath hrooted hne (Or.inl rfl)
  have hescaped : ({ u with path := u.path ++ ascii '/' :: indexYaml, rawPath := [] } :
      Url).escapedPath = escape .path (u.path ++ ascii '/' :: indexYaml) := by
    rw [escapedPath_eq (rooted_ne_star hrooted)]
    exact if_neg fun hand => hand.1 rfl
  by_cases hscheme : u.scheme = []
  · obtain ⟨_, huser, hhost, _⟩ := h.scheme.resolve_left fun hsome => hsome.1.ne_nil hscheme
    unfold Url.authority
    rw [huser, hhost]
    decide
  · obtain ⟨v, hv⟩ := Option.isSome_iff_exists.mp hparse
    have hstring := string_front hparsed hforce hquery hne
    rw [hescaped] at hstring
    exact (hparsed.parseURL_string hscheme (Or.inr (Or.inl hne)) (hstring ▸ hv)).1

/-- What is fetched after a URL was printed. -/
theorem fetchRepoIndex_string (h : Parsed u) (hforce : u.forceQuery = false)
    (hquery : u.rawQuery = []) (hfront : u.host ≠ [] ∨ u.path ≠ [] ∨ u.user ≠ none)
    (hauthority : (parseAuthority u.authority).isSome = true) :
    fetchRepoIndex u.string = newRequest (joinIndex u.reparsed).string := by
  have hplain : ∀ b ∈ u.string, plainByte b = true := by
    rw [string_eq h.fragment, query_eq_nil hforce hquery, List.append_nil]
    exact fun b hb => hierarchy_plain h.scheme_plain h.opaquePart hb
  have htrim : trimSpace u.string = u.string :=
    trimSpace_of_plain (fun b hb => hplain b (List.mem_of_mem_head? hb))
      (fun b hb => hplain b (List.mem_of_mem_getLast? hb))
  have hctl : u.rawQuery.any isCTL = false := by
    rw [hquery]
    rfl
  unfold fetchRepoIndex parseRepoURL parseRequestURI
  rw [htrim, h.parse_string hctl hfront hauthority]
  rfl

theorem reparsed_reads (u : Url) :
    u.reparsed.rawPath = [] ∨ unescape .path u.reparsed.rawPath = some u.reparsed.path :=
  rawPath_reads (setEncoded_escapedPath u)

theorem reparsed_parsed (h : Parsed u) : Parsed u.reparsed := by
  obtain ⟨hrooted, hraw⟩ := rooted_of_setEncoded (rooted_escapedPath h.rooted h.rootedRaw)
    (setEncoded_escapedPath u)
  exact ⟨h.opaquePart, h.fragment, h.rawFragment, hrooted, hraw, h.force, h.scheme⟩

/-- The index is the same with a slash at the end of the path. -/
theorem pathJoin_slash_eq {path : Bytes} (hpath : Rooted path) (hclean : CleanPath path) :
    pathJoin (path ++ [ascii '/']) indexYaml = path ++ ascii '/' :: indexYaml := by
  rcases hpath with hnil | hhead
  · rw [hnil]
    exact indexYaml_facts.2.2.2.2.2.2.2.2.2
  · rw [pathJoin_slash hhead hclean]
    obtain ⟨rest, rfl⟩ := List.head?_eq_some_iff.mp hhead
    exact (pathJoin_eq_iff rest).mpr hclean

theorem string_joinIndex_slash (h : Parsed u) (hforce : u.forceQuery = false)
    (hquery : u.rawQuery = []) {path : Bytes} (hpath : u.path = path ++ [ascii '/'])
    (hrooted : Rooted path) (hclean : CleanPath path)
    (hraw : u.rawPath = [] ∨ unescape .path u.rawPath = some u.path) :
    (joinIndex u).string = u.front ++ escape .path (path ++ ascii '/' :: indexYaml) := by
  have hjoin : (joinIndex u).path = path ++ ascii '/' :: indexYaml := by
    unfold joinIndex
    rw [hpath]
    exact pathJoin_slash_eq hrooted hclean
  have hne : path ++ ascii '/' :: indexYaml ≠ u.path := by
    rw [hpath]
    intro heq
    have htail := List.append_cancel_left heq
    rw [indexYaml_eq] at htail
    exact absurd (List.cons.inj htail).2 (by simp)
  have hstar : (joinIndex u).path ≠ [ascii '*'] := by
    rw [hjoin]
    exact rooted_ne_star (Or.inr (rooted_append hrooted rfl))
  rw [string_joinIndex_rooted h hforce hquery (by rw [hpath]; simp), escapedPath_eq hstar, hjoin]
  exact congrArg _ (escaped_stale hraw hne)

theorem syncURL_of_plain (ht : trimSlash (trimSpace repoURL) = t) (hctl : t.any isCTL = false)
    (hacc : Accepted t u) (hext : Extends t u p) (hplain : PlainRepo u)
    (hV : newRequest (u.front ++ escape .path (u.path ++ ascii '/' :: indexYaml)) = some V) :
    syncURL repoURL = some V := by
  have hparsed := parsed_of_accepted hacc hplain.opaquePart hplain.star
  have hauthority := authority_isSome hparsed hplain.force hplain.rawQuery
    (newRequest_eq_some_iff.1 hV).2
  have hfront : u.host ≠ [] ∨ u.path ≠ [] ∨ u.user ≠ none :=
    hplain.front.elim (fun h => Or.inr (Or.inl h)) Or.inl
  unfold syncURL parseRepoURL parseRequestURI
  rcases trimSlash_cases (trimSpace repoURL) with hsame | hslash
  · rw [hsame, ht, parse_of_accepted hctl hacc]
    show fetchRepoIndex u.string = _
    rw [fetchRepoIndex_string hparsed hplain.force hplain.rawQuery hfront hauthority,
      string_joinIndex (reparsed_parsed hparsed) hplain.force hplain.rawQuery hplain.clean
        hplain.front (reparsed_reads u)]
    exact hV
  · have hacc' := hext.2 [ascii '/'] [ascii '/'] rfl (by decide) (by decide)
    have hctl' : (t ++ [ascii '/']).any isCTL = false := by
      rw [List.any_append, hctl]
      decide
    have hne : u.path ++ [ascii '/'] ≠ [] := by simp
    have hparsed' := parsed_of_accepted hacc' hplain.opaquePart
      (rooted_ne_star (Or.inr (rooted_append hparsed.rooted rfl)))
    rw [hslash, ht, parse_of_accepted hctl' hacc']
    show fetchRepoIndex (Url.string _) = _
    rw [fetchRepoIndex_string hparsed' hplain.force hplain.rawQuery (Or.inr (Or.inl hne))
      hauthority, string_joinIndex_slash (reparsed_parsed hparsed') hplain.force hplain.rawQuery rfl
      hparsed.rooted hplain.clean (reparsed_reads _)]
    exact hV

theorem any_isCTL_index (hctl : t.any isCTL = false) :
    (t ++ ascii '/' :: indexYaml).any isCTL = false := by
  have hindex : (ascii '/' :: indexYaml).any isCTL = false := slash_indexYaml_facts.2.2.2.1
  rw [List.any_append, hctl, hindex]
  rfl

/-- What kubeops requests of a URL whose path can be longer. -/
theorem getReq_extends (hctl : t.any isCTL = false) (hparsed : Parsed u)
    (hforce : u.forceQuery = false) (hquery : u.rawQuery = []) (hext : Extends t u p) :
    getReq (t ++ ascii '/' :: indexYaml) =
      newRequest (u.front ++ escaped .path (u.path ++ ascii '/' :: indexYaml)
        (if escape .path (u.path ++ ascii '/' :: indexYaml) = p ++ ascii '/' :: indexYaml then []
          else p ++ ascii '/' :: indexYaml)) := by
  have hacc := hext.2 (ascii '/' :: indexYaml) (ascii '/' :: indexYaml) rfl question_not_mem_index
    unescape_slash_indexYaml
  have hne : u.path ++ ascii '/' :: indexYaml ≠ [] := by simp
  have hrooted : Rooted (u.path ++ ascii '/' :: indexYaml) :=
    Or.inr (rooted_append hparsed.rooted rfl)
  have hparsed' := parsed_of_accepted hacc hparsed.opaquePart (rooted_ne_star hrooted)
  unfold getReq parseRequestURI
  rw [parse_of_accepted (any_isCTL_index hctl) hacc]
  show newRequest (Url.string _) = _
  rw [string_front hparsed' hforce hquery hne, escapedPath_eq (rooted_ne_star hrooted)]
  rfl

/-- The path of a plain repository can be longer. -/
theorem extends_of_plain (hacc : Accepted t u) (hplain : PlainRepo u) : ∃ p, Extends t u p := by
  obtain ⟨hopaquePart, hforce, hquery, hstar, hfront, hclean, _⟩ := hplain
  cases hacc with
  | star => exact absurd rfl hstar
  | rootless => exact absurd hfront (by simp [Url.ofScheme])
  | @authority scheme authority p query host path rawPath force user hscheme hslash hquestion hp _
      hauthority hpath =>
      obtain rfl : force = false := hforce
      obtain rfl : query = [] := hquery
      rw [queryText_none, List.append_nil]
      exact ⟨p, extends_authority hscheme hslash hquestion hp hauthority hpath⟩
  | @path scheme p query path rawPath force hscheme hslash htwo hquestion _ hpath =>
      obtain rfl : force = false := hforce
      obtain rfl : query = [] := hquery
      have hone : p ≠ [ascii '/'] := by
        intro heq
        rw [heq] at hpath
        have hdecode : setEncoded .path [ascii '/'] = some ([ascii '/'], []) := by decide
        rw [hdecode] at hpath
        obtain ⟨rfl, rfl⟩ := Prod.mk.inj (Option.some.inj hpath)
        exact not_cleanPath_slash hclean
      rw [queryText_none, List.append_nil]
      exact ⟨p, extends_path hscheme hslash htwo hone hquestion hpath⟩
  | @rooted p query path rawPath force hslash hquestion _ hpath =>
      obtain rfl : force = false := hforce
      obtain rfl : query = [] := hquery
      rw [queryText_none, List.append_nil]
      exact ⟨p, extends_rooted hslash hquestion hpath⟩

theorem same_of_plain (ht : trimSlash (trimSpace repoURL) = t) (hctl : t.any isCTL = false)
    (hacc : Accepted t u) (hplain : PlainRepo u) (hV : newRequest (joinIndex u).string = some V) :
    syncURL repoURL = some V ∧ kubeopsURL repoURL = some V := by
  obtain ⟨p, hext⟩ := extends_of_plain hacc hplain
  have hparsed := parsed_of_accepted hacc hplain.opaquePart hplain.star
  rw [string_joinIndex hparsed hplain.force hplain.rawQuery hplain.clean hplain.front
    (rawPath_reads hext.1)] at hV
  refine ⟨syncURL_of_plain ht hctl hacc hext hplain hV, ?_⟩
  unfold kubeopsURL indexURL
  rw [ht, getReq_extends hctl hparsed hplain.force hplain.rawQuery hext,
    (escaped_append_iff hext.1).mpr hplain.written]
  exact hV

/-- Where the path can be longer, kubeops requests the validated URL only for a plain repository. -/
theorem plain_of_extends (hctl : t.any isCTL = false) (hparsed : Parsed u)
    (hforce : u.forceQuery = false) (hquery : u.rawQuery = []) (hext : Extends t u p)
    (hfront : u.path ≠ [] ∨ u.host ≠ [])
    (heq : getReq (t ++ ascii '/' :: indexYaml) = newRequest (joinIndex u).string)
    (hV : newRequest (joinIndex u).string = some V) : PlainRepo u := by
  obtain ⟨hread, hraw⟩ := setEncoded_eq_some_iff.1 hext.1
  have hreads := rawPath_reads hext.1
  have hstar := rooted_ne_star hparsed.rooted
  rw [hV, getReq_extends hctl hparsed hforce hquery hext, newRequest_eq_some_iff] at heq
  have hsame := heq.1.symm.trans (newRequest_eq_some_iff.1 hV).1
  by_cases hnil : u.path = []
  · have hraw' : u.rawPath = [] := by
      rw [hnil] at hread
      have hreads' := reads_of_unescape hread
      cases hreads'
      rw [hraw]
      exact ite_self []
    exact ⟨hparsed.opaquePart, hforce, hquery, hstar, hfront, Or.inl hnil, Or.inl hraw'⟩
  · rw [string_joinIndex_rooted hparsed hforce hquery hnil] at hsame
    have hpaths := List.append_cancel_left hsame
    have hjoin : (joinIndex u).path = u.path ++ ascii '/' :: indexYaml := by
      have hdecode := unescape_escapedPath (joinIndex u)
      rw [← hpaths, unescape_escaped (by decide) (by decide)] at hdecode
      exact (Option.some.inj hdecode).symm
    have hstale : (joinIndex u).escapedPath = escape .path (u.path ++ ascii '/' :: indexYaml) := by
      have hstar' : (joinIndex u).path ≠ [ascii '*'] := by
        rw [hjoin]
        exact rooted_ne_star (Or.inr (rooted_append hparsed.rooted rfl))
      rw [escapedPath_eq hstar', hjoin]
      exact escaped_stale hreads (append_index_ne u.path)
    have hclean : CleanPath u.path := by
      obtain ⟨rest, hrest⟩ := List.head?_eq_some_iff.mp (hparsed.rooted.resolve_left hnil)
      unfold joinIndex at hjoin
      rw [hrest] at hjoin ⊢
      exact (pathJoin_eq_iff rest).mp hjoin
    exact ⟨hparsed.opaquePart, hforce, hquery, hstar, hfront, hclean,
      (escaped_append_iff hext.1).mp (hpaths.trans hstale)⟩

/-- A printed URL with a query is not the one with a longer query. -/
theorem string_query_ne (v w : Url) {q : Bytes} (hv : ascii '?' ∉ v.hierarchy)
    (hw : ascii '?' ∉ w.hierarchy) (hq : q ≠ []) (hvquery : v.query = ascii '?' :: v.rawQuery)
    (hwquery : w.query = ascii '?' :: w.rawQuery) (hlonger : w.rawQuery = v.rawQuery ++ q)
    (hvfragment : v.fragment = []) (hwfragment : w.fragment = []) : v.string ≠ w.string := by
  rw [string_eq hvfragment, string_eq hwfragment, hvquery, hwquery]
  intro heq
  have hcut := cut_append hv v.rawQuery
  rw [heq, cut_append hw, hlonger] at hcut
  exact hq (List.append_right_eq_self.mp (Prod.mk.inj (Option.some.inj hcut)).2)

theorem query_eq_cons {v : Url} (h : v.forceQuery = true ∨ v.rawQuery ≠ []) :
    v.query = ascii '?' :: v.rawQuery := if_pos h

/-- With a query kubeops requests something else. -/
theorem getReq_query_ne (hctl : t.any isCTL = false) (hacc : Accepted t u)
    (hquery : u.forceQuery = true ∨ u.rawQuery ≠ []) :
    getReq (t ++ ascii '/' :: indexYaml) ≠ some (joinIndex u).string := by
  have hacc' := accepted_query hacc hquery (List.cons_ne_nil (ascii '/') indexYaml)
  obtain ⟨hscheme, hopaquePart, hfragment⟩ := accepted_plain hacc
  have hno : ∀ {v : Url}, v.scheme = u.scheme → v.opaquePart = u.opaquePart →
      ascii '?' ∉ v.hierarchy := by
    intro v hvscheme hvopaquePart
    exact question_not_mem_hierarchy (by rwa [hvscheme]) (by rwa [hvopaquePart])
  have hlonger : ({ u with forceQuery := false, rawQuery := u.rawQuery ++ ascii '/' :: indexYaml } :
      Url).query = ascii '?' :: (u.rawQuery ++ ascii '/' :: indexYaml) :=
    query_eq_cons (Or.inr (by simp))
  unfold getReq parseRequestURI
  rw [parse_of_accepted (any_isCTL_index hctl) hacc']
  show newRequest (Url.string _) ≠ _
  intro heq
  exact string_query_ne (joinIndex u)
    { u with forceQuery := false, rawQuery := u.rawQuery ++ ascii '/' :: indexYaml }
    (hno rfl rfl) (hno rfl rfl) (List.cons_ne_nil (ascii '/') indexYaml) (query_eq_cons hquery)
    hlonger rfl hfragment hfragment (newRequest_eq_some_iff.1 heq).1

/-- Without path and host, kubeops requests another URL. -/
theorem getReq_empty_ne (hctl : t.any isCTL = false) (hparsed : Parsed u)
    (hforce : u.forceQuery = false) (hquery : u.rawQuery = []) (hnil : u.path = [])
    (hhost : u.host = []) (hreads : u.rawPath = [] ∨ unescape .path u.rawPath = some u.path)
    (hacc : ∃ rawPath, Accepted (t ++ ascii '/' :: indexYaml)
      { u with path := ascii '/' :: indexYaml, rawPath := rawPath }) :
    getReq (t ++ ascii '/' :: indexYaml) ≠ some (joinIndex u).string := by
  obtain ⟨rawPath, hacc⟩ := hacc
  have hparsed' := parsed_of_accepted hacc hparsed.opaquePart (rooted_ne_star (Or.inr rfl))
  have hpath := rooted_escapedPath hparsed'.rooted hparsed'.rootedRaw
  unfold getReq parseRequestURI
  rw [parse_of_accepted (any_isCTL_index hctl) hacc]
  show newRequest (Url.string _) ≠ _
  rw [string_front hparsed' hforce hquery (by simp),
    string_joinIndex_nil hparsed hforce hquery hnil hreads, if_pos hhost]
  intro heq
  have hindex := List.append_cancel_left (newRequest_eq_some_iff.1 heq).1
  rw [← hindex] at hpath
  have hrooted : ¬ Rooted indexYaml := by
    unfold Rooted
    rw [not_or]
    exact ⟨by rw [indexYaml_eq]; simp, indexYaml_facts.2.2.2.2.1⟩
  exact absurd hpath hrooted

/-- For a slash and nothing else, kubeops takes the index for the host. -/
theorem getReq_slash_ne {scheme path rawPath : Bytes} (hscheme : SchemeOk scheme)
    (hpath : setEncoded .path [ascii '/'] = some (path, rawPath))
    (hctl : (scheme ++ ascii ':' :: [ascii '/']).any isCTL = false)
    (hparsed : Parsed { Url.ofScheme (scheme.map toLower) false [] with
      path := path, rawPath := rawPath }) :
    getReq (scheme ++ ascii ':' :: [ascii '/'] ++ ascii '/' :: indexYaml) ≠
      some (joinIndex { Url.ofScheme (scheme.map toLower) false [] with
        path := path, rawPath := rawPath }).string := by
  have hdecode : setEncoded .path [ascii '/'] = some ([ascii '/'], []) := by decide
  rw [hdecode] at hpath
  obtain ⟨rfl, rfl⟩ := Prod.mk.inj (Option.some.inj hpath)
  obtain ⟨-, -, -, -, -, -, hauthority, hparse, -, hjoin⟩ := indexYaml_facts
  have hacc := Accepted.authority (p := []) hscheme slash_not_mem_indexYaml
    (fun hmem => question_not_mem_index (List.mem_cons_of_mem _ hmem)) (Or.inl rfl) no_force hparse
    (show setEncoded .path [] = some ([], []) by decide)
  have htext : scheme ++ ascii ':' :: [ascii '/'] ++ ascii '/' :: indexYaml = scheme ++ ascii ':' ::
      ([ascii '/', ascii '/'] ++ indexYaml ++ [] ++ queryText false []) := by
    rw [queryText_none, List.append_nil, List.append_nil, List.append_assoc]
    rfl
  have hctl' := any_isCTL_index hctl
  have hparsed' := parsed_of_accepted hacc rfl (by simp)
  have hhost : ({ Url.ofScheme (scheme.map toLower) false [] with
      user := none, host := indexYaml, path := [], rawPath := [] } : Url).host ≠ [] := by
    rw [indexYaml_eq]
    simp
  have hlower := lower_ne_nil hscheme
  unfold getReq parseRequestURI
  rw [htext] at hctl' ⊢
  rw [parse_of_accepted hctl' hacc]
  show newRequest (Url.string _) ≠ _
  rw [string_joinIndex_rooted hparsed rfl rfl (by simp), string_eq rfl,
    query_eq_nil rfl rfl, List.append_nil, hparsed'.hierarchy_eq (Or.inl hhost)]
  intro heq
  have hsame := (newRequest_eq_some_iff.1 heq).1
  have hescaped : ∀ v : Url, v.path = ascii '/' :: indexYaml → v.rawPath = [] →
      v.escapedPath = ascii '/' :: indexYaml := by
    intro v hv hvraw
    unfold Url.escapedPath
    rw [hv, hvraw]
    exact escape_slash_indexYaml
  have hjoined : (joinIndex { Url.ofScheme (scheme.map toLower) false [] with
      path := [ascii '/'], rawPath := [] }).escapedPath = ascii '/' :: indexYaml :=
    hescaped _ hjoin rfl
  rw [front_scheme hlower, front_scheme hlower, hjoined] at hsame
  change scheme.map toLower ++ ascii ':' :: ([ascii '/', ascii '/'] ++ []) ++ ascii '/' :: indexYaml =
    scheme.map toLower ++ ascii ':' :: ([ascii '/', ascii '/'] ++ ([] ++ escape .host indexYaml)) ++
      [] at hsame
  have hlength := congrArg List.length hsame
  rw [hauthority] at hlength
  simp only [List.length_append, List.length_cons, List.length_nil] at hlength
  omega

/-- If kubeops requests the validated URL, the repository is plain. -/
theorem plain_of_kubeops (hctl : t.any isCTL = false) (hacc : Accepted t u)
    (hV : newRequest (joinIndex u).string = some V)
    (hK : getReq (t ++ ascii '/' :: indexYaml) = some V) : PlainRepo u := by
  have heq := hK.trans hV.symm
  have hstring : getReq (t ++ ascii '/' :: indexYaml) = some (joinIndex u).string := by
    rw [hK, (newRequest_eq_some_iff.1 hV).1]
  by_cases hq : u.forceQuery = true ∨ u.rawQuery ≠ []
  · exact absurd hstring (getReq_query_ne hctl hacc hq)
  obtain ⟨hforce, hquery⟩ := not_or.mp hq
  rw [Bool.not_eq_true] at hforce
  rw [not_not] at hquery
  cases hacc with
  | star => exact absurd hK (by rw [slash_indexYaml_facts.2.2.2.2.2.2]; simp)
  | @rootless scheme rest query force hscheme hrest hquestion hnoforce =>
      obtain rfl : force = false := hforce
      obtain rfl : query = [] := hquery
      have htext : scheme ++ ascii ':' :: (rest ++ queryText false []) ++ ascii '/' :: indexYaml =
          scheme ++ ascii ':' :: (rest ++ ascii '/' :: indexYaml ++ queryText false []) := by
        rw [queryText_none, List.append_nil, List.append_nil, List.append_assoc, List.cons_append]
      have hctl' := any_isCTL_index hctl
      have hquestion' : ascii '?' ∉ rest ++ ascii '/' :: indexYaml := fun hmem =>
        (List.mem_append.mp hmem).elim hquestion question_not_mem_index
      by_cases hrest' : rest = []
      · have hparsed := parsed_of_accepted (Accepted.rootless hscheme hrest hquestion hnoforce)
          hrest' (by simp [Url.ofScheme])
        have hacc' := Accepted.path (p := ascii '/' :: indexYaml) hscheme rfl (by decide)
          question_not_mem_index hnoforce slash_indexYaml_facts.2.2.2.2.2.1
        refine absurd hstring (getReq_empty_ne hctl hparsed rfl rfl rfl rfl
          (Or.inl rfl) ?_)
        rw [htext, hrest']
        exact ⟨[], hacc'⟩
      · have hhead : (rest ++ ascii '/' :: indexYaml).head? ≠ some (ascii '/') := by
          rw [List.head?_append_of_ne_nil _ hrest']
          exact hrest
        have hacc' := Accepted.rootless hscheme hhead hquestion' hnoforce
        unfold getReq parseRequestURI at hstring
        rw [htext] at hctl' hstring
        rw [parse_of_accepted hctl' hacc'] at hstring
        have hsame := (newRequest_eq_some_iff.1 hstring).1
        have hlower := lower_ne_nil hscheme
        have hV' : (joinIndex { Url.ofScheme (scheme.map toLower) false [] with
            opaquePart := rest }).hierarchy = scheme.map toLower ++ ascii ':' :: rest :=
          hierarchy_opaque hrest' hlower
        have hK' : ({ Url.ofScheme (scheme.map toLower) false [] with
            opaquePart := rest ++ ascii '/' :: indexYaml } : Url).hierarchy =
            scheme.map toLower ++ ascii ':' :: (rest ++ ascii '/' :: indexYaml) :=
          hierarchy_opaque (by simp) hlower
        have hlength := congrArg List.length hsame
        unfold Url.string at hlength
        rw [hV', hK'] at hlength
        simp [Url.query, Url.ofScheme, joinIndex] at hlength
  | @authority scheme authority p query host path rawPath force user hscheme hslash hquestion hp
      hnoforce hauthority hpath =>
      obtain rfl : force = false := hforce
      obtain rfl : query = [] := hquery
      have hparsed := parsed_of_accepted
        (Accepted.authority hscheme hslash hquestion hp hnoforce hauthority hpath) rfl
        (rooted_ne_star (rooted_of_setEncoded hp hpath).1)
      have hext := extends_authority hscheme hslash hquestion hp hauthority hpath
      rw [queryText_none, List.append_nil] at hctl heq hstring
      by_cases hfront : path ≠ [] ∨ host ≠ []
      · exact plain_of_extends hctl hparsed rfl rfl hext hfront heq hV
      · obtain ⟨hnil, hhost⟩ := not_or.mp hfront
        rw [not_not] at hnil hhost
        have hacc' := hext.2 (ascii '/' :: indexYaml) (ascii '/' :: indexYaml) rfl
          question_not_mem_index unescape_slash_indexYaml
        refine absurd hstring (getReq_empty_ne hctl hparsed rfl rfl hnil hhost
          (rawPath_reads hpath) ?_)
        subst hnil
        exact ⟨_, hacc'⟩
  | @path scheme p query path rawPath force hscheme hslash htwo hquestion hnoforce hpath =>
      obtain rfl : force = false := hforce
      obtain rfl : query = [] := hquery
      have hrooted := (rooted_of_setEncoded (Or.inr hslash) hpath).1
      have hparsed := parsed_of_accepted
        (Accepted.path hscheme hslash htwo hquestion hnoforce hpath) rfl (rooted_ne_star hrooted)
      have hne := path_ne_nil hslash hpath
      rw [queryText_none, List.append_nil] at hctl heq hstring
      by_cases hone : p = [ascii '/']
      · subst hone
        exact absurd hstring (getReq_slash_ne hscheme hpath hctl hparsed)
      · exact plain_of_extends hctl hparsed rfl rfl
          (extends_path hscheme hslash htwo hone hquestion hpath) (Or.inl hne) heq hV
  | @rooted p query path rawPath force hslash hquestion hnoforce hpath =>
      obtain rfl : force = false := hforce
      obtain rfl : query = [] := hquery
      have hrooted := (rooted_of_setEncoded (Or.inr hslash) hpath).1
      have hparsed := parsed_of_accepted (Accepted.rooted hslash hquestion hnoforce hpath) rfl
        (rooted_ne_star hrooted)
      rw [queryText_none, List.append_nil] at hctl heq hstring
      exact plain_of_extends hctl hparsed rfl rfl (extends_rooted hslash hquestion hpath)
        (Or.inl (path_ne_nil hslash hpath)) heq hV

end Same

/-- For a repository URL that validates, asset-syncer and kubeops request the validated URL exactly
    if the repository is plain. -/
theorem sameIndexURL_iff {repoURL V : Bytes} (h : validationURL repoURL = some V) :
    (syncURL repoURL = some V ∧ kubeopsURL repoURL = some V) ↔
      ∃ u, parseRequestURI (trimSlash (trimSpace repoURL)) = some u ∧ PlainRepo u := by
  obtain ⟨u, hparse, hV⟩ := Option.bind_eq_some_iff.mp h
  obtain ⟨hctl, hacc⟩ := parse_true_iff.1 hparse
  constructor
  · intro ⟨_, hK⟩
    exact ⟨u, hparse, plain_of_kubeops hctl hacc hV hK⟩
  · intro ⟨u', hparse', hplain⟩
    rw [hparse] at hparse'
    rw [← Option.some.inj hparse'] at hplain
    exact same_of_plain rfl hctl hacc hplain hV

def stableRepo : Bytes := bytes " https://charts.example.com/stable/ "

def channelRepo : Bytes := bytes "https://charts.example.com/stable?channel=edge"

theorem sameIndexURL_stable :
    validationURL stableRepo = some (bytes "https://charts.example.com/stable/index.yaml") ∧
      ((syncURL stableRepo = some (bytes "https://charts.example.com/stable/index.yaml") ∧
          kubeopsURL stableRepo = some (bytes "https://charts.example.com/stable/index.yaml")) ↔
        ∃ u, parseRequestURI (trimSlash (trimSpace stableRepo)) = some u ∧ PlainRepo u) := by
  have h : validationURL stableRepo =
      some (bytes "https://charts.example.com/stable/index.yaml") := by decide
  exact ⟨h, sameIndexURL_iff h⟩

/-- A query of the repository stays behind the index in two of the URLs, and takes it in the
    third. -/
theorem channelRepo_differs :
    validationURL channelRepo =
        some (bytes "https://charts.example.com/stable/index.yaml?channel=edge") ∧
      syncURL channelRepo =
        some (bytes "https://charts.example.com/stable/index.yaml?channel=edge") ∧
      kubeopsURL channelRepo =
        some (bytes "https://charts.example.com/stable?channel=edge/index.yaml") ∧
      ¬ ∀ repoURL V, validationURL repoURL = some V →
        syncURL repoURL = some V ∧ kubeopsURL repoURL = some V := by
  have hV : validationURL channelRepo =
      some (bytes "https://charts.example.com/stable/index.yaml?channel=edge") := by decide
  have hK : kubeopsURL channelRepo =
      some (bytes "https://charts.example.com/stable?channel=edge/index.yaml") := by decide
  refine ⟨hV, by decide, hK, fun hall => ?_⟩
  have hsame := (hall _ _ hV).2
  rw [hK] at hsame
  exact absurd hsame (by decide)

end Kubeapps.RepoUrls
