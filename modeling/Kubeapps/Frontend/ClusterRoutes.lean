/-
  The routes of the frontend to the API servers of the clusters
  (chart/kubeapps/templates/frontend/configmap.yaml: the locations `/api/clusters`).

  Of the URI there is the path that nginx compares, without escapes, and the arguments. The names of
  the clusters are taken as texts in the expressions (`RegexText`). A direct request arrives at the
  URL of `proxy_pass`; one for a cluster with pinniped goes through the proxy (`proxy`).

  A location takes every URI that has its cluster's name after `/api/clusters/`, and whatever comes
  after the name. So a request of the dashboard arrives at its API server exactly if no name of an
  earlier cluster is the beginning of the name of its cluster, and if the URL of a cluster with
  pinniped has no path, which would be there twice (`browser_reaches_iff`).
-/
import Kubeapps.PinnipedProxy.Clients
import Kubeapps.Dashboard.Kube
import Kubeapps.Lib.JsonText
import Mathlib.Data.List.TakeWhile

namespace Kubeapps.Frontend

open Kubeapps.Lib Kubeapps.Kube.Clusters Kubeapps.PinnipedProxy

/-! ## Expressions -/

def lower (cs : List Char) : List Char := cs.map Char.toLower

/-- What comes after the first occurrence of a text. -/
def afterFirst (text : List Char) : List Char → Option (List Char)
  | [] => if text = [] then some [] else none
  | c :: cs =>
      if text <+: c :: cs then some ((c :: cs).drop text.length) else afterFirst text cs

/-- A text that is an expression for itself: letters, digits, dashes and underscores. -/
def RegexText (s : String) : Prop := ∀ c ∈ s.toList, (c.isAlphanum || c = '-' || c = '_') = true

instance (s : String) : Decidable (RegexText s) :=
  List.decidableBAll (fun c => (c.isAlphanum || c = '-' || c = '_') = true) s.toList

/-! ## The template -/

/-- The values that the template reads. `urlParse` is the base URL, joined from the scheme and the
    host, and the path of a URL; the chart does not render if one of them does not parse. -/
structure Chart where
  clusters : List ClusterValue
  pinnipedProxyEnabled : Bool
  urlParse : String → String × String

/-- `proxy_pass`: to the base URL, or to the proxy with these headers. -/
inductive Upstream where
  | direct (apiServiceBaseURL : String)
  | pinniped (setHeaders : List (String × String))
  deriving DecidableEq, Repr

/-- A location for a cluster. -/
structure Location where
  name : String
  apiServiceURLPath : String
  upstream : Upstream
  deriving DecidableEq, Repr

/-- `default "https://kubernetes.default" .apiServiceURL`. -/
def apiURL (v : ClusterValue) : String :=
  if v.apiServiceURL.getD "" = "" then "https://kubernetes.default" else v.apiServiceURL.getD ""

/-- The location of a cluster, as the template makes it. -/
def Chart.location (chart : Chart) (v : ClusterValue) : Location where
  name := v.name
  apiServiceURLPath := (chart.urlParse (apiURL v)).2
  upstream :=
    if chart.pinnipedProxyEnabled && v.pinnipedEnable then
      .pinniped (
        (if v.apiServiceURL.getD "" ≠ "" then
          [("PINNIPED_PROXY_API_SERVER_URL", v.apiServiceURL.getD "")] else []) ++
        if v.certificateAuthorityData.getD "" ≠ "" then
          [("PINNIPED_PROXY_API_SERVER_CERT", v.certificateAuthorityData.getD "")] else [])
    else .direct (chart.urlParse (apiURL v)).1

/-! ## nginx -/

/-- The expression of a location. -/
def Location.pattern (l : Location) : List Char := "/api/clusters/".toList ++ l.name.toList

/-- `location ~*`: the expression occurs in the URI, in lower or upper case. -/
def Location.Takes (l : Location) (uri : String) : Prop := lower l.pattern <:+: lower uri.toList

instance (l : Location) (uri : String) : Decidable (l.Takes uri) :=
  inferInstanceAs (Decidable (lower l.pattern <:+: lower uri.toList))

/-- The two `rewrite`s of a location; `.` is no line feed. -/
def Location.rewrite (l : Location) (uri : String) : String :=
  match afterFirst (l.pattern ++ ['/']) uri.toList with
  | some rest => l.apiServiceURLPath ++ "/" ++ String.ofList (rest.takeWhile (· ≠ '\n'))
  | none =>
      match afterFirst l.pattern uri.toList with
      | some _ => l.apiServiceURLPath ++ "/"
      | none => uri

/-- The first location that takes a URI. -/
def route (locations : List Location) (uri : String) : Option Location :=
  locations.find? fun l => l.Takes uri

/-- A request of a browser. -/
structure BrowserRequest where
  method : String
  uri : String
  args : Option String
  headers : Headers
  body : Bytes
  deriving DecidableEq, Repr

/-- The arguments after the path. -/
def BrowserRequest.query (req : BrowserRequest) : String :=
  match req.args with
  | some args => "?" ++ args
  | none => ""

/-- The headers with those of `proxy_set_header`. Headers of a browser with underscores are
    dropped. -/
def setHeaders (set : List (String × String)) (headers : Headers) : Headers :=
  headers.filter (fun h => !h.1.toList.contains '_') ++ set.map fun h => (h.1, bytes h.2)

/-- The URL of a request that the proxy sends on. -/
def Sent.forwardURL : Sent → Option String
  | .exchange _ => none
  | .forward f => some f.request.uri

/-- The URLs at which a request arrives through a location. -/
def Location.arrivals (env : Env) (defaultCaData : Bytes) (l : Location) (req : BrowserRequest) :
    List String :=
  match l.upstream with
  | .direct apiServiceBaseURL => [apiServiceBaseURL ++ (l.rewrite req.uri ++ req.query)]
  | .pinniped set =>
      (proxy env ⟨req.method, some (l.rewrite req.uri ++ req.query), setHeaders set req.headers,
        req.body⟩ defaultCaData).1.filterMap Sent.forwardURL

/-- The request is taken by the location of the cluster, and arrives at this URL. -/
def Reaches (env : Env) (defaultCaData : Bytes) (chart : Chart) (v : ClusterValue)
    (req : BrowserRequest) (url : String) : Prop :=
  ∃ l, route (chart.clusters.map chart.location) req.uri = some l ∧ l.name = v.name ∧
    url ∈ l.arrivals env defaultCaData req

/-! ## Which location takes a request -/

section Locations

variable {n m : List Char} {cs text rest : List Char}

theorem afterFirst_prefix : afterFirst text (text ++ rest) = some rest := by
  cases h : text ++ rest with
  | nil =>
      obtain ⟨rfl, rfl⟩ := List.append_eq_nil_iff.mp h
      rfl
  | cons c cs =>
      unfold afterFirst
      rw [if_pos ⟨rest, h⟩, ← h, List.drop_left]

theorem lower_append (cs ds : List Char) : lower (cs ++ ds) = lower cs ++ lower ds :=
  List.map_append

/-- Only letters become letters in lower case. -/
theorem eq_of_toLower {c x : Char} (hx : x.toNat < 97) (h : c.toLower = x) : c = x := by
  unfold Char.toLower at h
  split at h
  · rename_i hupper
    obtain ⟨hlow, hhigh⟩ := hupper
    have hlow : 65 ≤ c.val.toNat := hlow
    have hhigh : c.val.toNat ≤ 90 := hhigh
    have hnat : (c.val + ('a'.val - 'A'.val)).toNat = x.toNat := congrArg Char.toNat h
    have hdiff : ('a'.val - 'A'.val).toNat = 32 := by decide
    rw [UInt32.toNat_add, hdiff, Nat.mod_eq_of_lt (by omega)] at hnat
    omega
  · exact h

theorem mem_of_mem_lower {x : Char} (hx : x.toNat < 97) (h : x ∈ lower cs) : x ∈ cs := by
  obtain ⟨c, hc, hlower⟩ := List.mem_map.mp h
  rwa [← eq_of_toLower hx hlower]

/-- A name in a URI: the part after `/api/clusters/` begins with it. -/
theorem takes_iff (hm : '/' ∉ m)
    (hrest : ¬ "/api/clusters/".toList <:+: lower ('/' :: n ++ '/' :: rest)) :
    lower ("/api/clusters/".toList ++ m) <:+: lower ("/api/clusters/".toList ++ n ++ '/' :: rest) ↔
      lower m <+: lower n := by
  have hfixed : lower "/api/clusters/".toList = "/api/clusters/".toList := by decide
  have hslash : '/' ∉ lower m := fun h => hm (mem_of_mem_lower (by decide) h)
  rw [List.append_assoc, lower_append, lower_append, hfixed]
  have hend : lower (n ++ '/' :: rest) = lower n ++ '/' :: lower rest := by
    rw [lower_append]
    rfl
  constructor
  · intro hinfix
    have hchars : "/api/clusters/".toList = ['/', 'a', 'p', 'i', '/', 'c', 'l', 'u', 's', 't', 'e',
      'r', 's', '/'] := by decide
    have hstart : "/api/clusters/".toList ++ lower m <+:
        "/api/clusters/".toList ++ lower (n ++ '/' :: rest) ∨
        "/api/clusters/".toList ++ lower m <:+: '/' :: lower (n ++ '/' :: rest) := by
      rw [hchars] at hinfix ⊢
      simpa [List.infix_cons_iff] using hinfix
    rcases hstart with hprefix | hlater
    · rw [List.prefix_append_right_inj, hend, prefix_append_cons_iff hslash] at hprefix
      exact hprefix
    · refine absurd ?_ hrest
      exact (List.prefix_append _ _).isInfix.trans hlater
  · intro hprefix
    refine (List.IsPrefix.isInfix ?_)
    rw [List.prefix_append_right_inj, hend, prefix_append_cons_iff hslash]
    exact hprefix

theorem slash_not_mem {s : String} (h : RegexText s) : '/' ∉ s.toList := by
  intro hmem
  exact absurd (h '/' hmem) (by decide)

/-- The URI of a request to a cluster. -/
theorem uri_toList {name tail : String} :
    ("/api/clusters/" ++ name ++ "/" ++ tail).toList =
      "/api/clusters/".toList ++ name.toList ++ '/' :: tail.toList := by
  rw [String.toList_append, String.toList_append, String.toList_append, List.append_assoc]
  rfl

/-- What the location of a cluster makes of the URI of a request to the cluster. -/
theorem rewrite_own {l : Location} {tail : String} (hline : '\n' ∉ tail.toList) :
    l.rewrite ("/api/clusters/" ++ l.name ++ "/" ++ tail) = l.apiServiceURLPath ++ "/" ++ tail := by
  unfold Location.rewrite
  have hfirst : afterFirst (l.pattern ++ ['/'])
      ("/api/clusters/" ++ l.name ++ "/" ++ tail).toList = some tail.toList := by
    rw [uri_toList]
    have hsplit : "/api/clusters/".toList ++ l.name.toList ++ '/' :: tail.toList =
        (l.pattern ++ ['/']) ++ tail.toList := by
      unfold Location.pattern
      rw [List.append_assoc _ ['/']]
      rfl
    rw [hsplit]
    exact afterFirst_prefix
  rw [hfirst]
  dsimp only
  have hall : tail.toList.takeWhile (· ≠ '\n') = tail.toList := by
    rw [List.takeWhile_eq_self_iff]
    intro c hc
    have hne : c ≠ '\n' := fun heq => hline (heq ▸ hc)
    simpa using hne
  rw [hall, String.ofList_toList]

variable {chart : Chart} {pre post : List ClusterValue} {v : ClusterValue} {uri : String}

/-- A cluster's own location takes a request that it can take, if no earlier one does. -/
theorem route_own_iff {P : Location → Prop} (hclusters : chart.clusters = pre ++ v :: post)
    (hnodup : (chart.clusters.map ClusterValue.name).Nodup)
    (hown : (chart.location v).Takes uri) :
    (∃ l, route (chart.clusters.map chart.location) uri = some l ∧ l.name = v.name ∧ P l) ↔
      (∀ m ∈ pre, ¬ (chart.location m).Takes uri) ∧ P (chart.location v) := by
  unfold route
  rw [hclusters] at hnodup ⊢
  rw [List.map_append, List.map_cons, List.find?_append,
    List.find?_cons_of_pos (by simpa using hown)]
  cases hpre : (pre.map chart.location).find? fun l => l.Takes uri with
  | none =>
      have hnone : ∀ m ∈ pre, ¬ (chart.location m).Takes uri := by
        simpa using hpre
      rw [Option.none_or]
      constructor
      · rintro ⟨l, hl, -, hP⟩
        obtain rfl := Option.some.inj hl
        exact ⟨hnone, hP⟩
      · exact fun h => ⟨_, rfl, rfl, h.2⟩
  | some l =>
      obtain ⟨m, hm, rfl⟩ := List.mem_map.mp (List.mem_of_find?_eq_some hpre)
      have htakes : (chart.location m).Takes uri := by simpa using List.find?_some hpre
      rw [Option.some_or]
      constructor
      · rintro ⟨l, hl, hname, -⟩
        obtain rfl := Option.some.inj hl
        rw [List.map_append, List.map_cons, List.nodup_append] at hnodup
        exact absurd hname (hnodup.2.2 _ (List.mem_map_of_mem hm) _ List.mem_cons_self)
      · exact fun h => absurd htakes (h.1 m hm)

end Locations

/-! ## Where a request arrives -/

section Arrivals

variable {env : Env} {defaultCaData : Bytes} {chart : Chart} {v : ClusterValue}
  {req : BrowserRequest} {headers : Headers} {name : String}

theorem get_filter_underscore (hname : '_' ∈ name.toList) :
    Headers.get (headers.filter fun h => !h.1.toList.contains '_') name = none := by
  unfold Headers.get
  rw [Option.map_eq_none_iff, List.find?_eq_none]
  intro h hh hsame
  have hfree : '_' ∉ h.1.toList := by simpa using (List.mem_filter.mp hh).2
  have hlower : lower name.toList = lower h.1.toList := by simpa [sameName, lower] using hsame
  have hmem : '_' ∈ lower h.1.toList := by
    rw [← hlower]
    exact List.mem_map.mpr ⟨'_', hname, by decide⟩
  exact hfree (mem_of_mem_lower (by decide) hmem)

/-- The proxy gets the URL of the cluster, and none for the default server. -/
theorem getApiServerUrl_setHeaders (hvisible : VisibleText (apiURL v)) {url : String}
    (hurl : getApiServerUrl env
      (setHeaders (pinnipedHeaders v.entry.toClusterConfig) headers) = .ok url) :
    url = apiURL v := by
  have hunder : '_' ∈ headerK8sApiServerUrl.toList := by decide
  unfold getApiServerUrl setHeaders at hurl
  rw [get_append, get_filter_underscore hunder, Option.none_or, get_pinnipedHeaders_url] at hurl
  have hfield : v.entry.toClusterConfig.apiServiceURL = v.apiServiceURL.getD "" := rfl
  rw [hfield] at hurl
  unfold apiURL at hvisible ⊢
  by_cases hempty : v.apiServiceURL.getD "" = ""
  · rw [if_pos hempty] at hurl ⊢
    exact (Except.ok.inj hurl).symm
  · rw [if_neg hempty] at hurl hvisible ⊢
    dsimp only at hurl
    rw [toStr_visible hvisible] at hurl
    dsimp only [validateUrl] at hurl
    split at hurl
    · split at hurl
      · exact (Except.ok.inj hurl).symm
      · cases hurl
    · cases hurl

/-- A request arrives at the URL of the cluster with the rewritten path; through the proxy the path of
    the URL is there again. -/
theorem mem_arrivals (hvisible : VisibleText (apiURL v)) {url : String}
    (hmem : url ∈ (chart.location v).arrivals env defaultCaData req) :
    url = (if chart.pinnipedProxyEnabled && v.pinnipedEnable then apiURL v
      else (chart.urlParse (apiURL v)).1) ++ ((chart.location v).rewrite req.uri ++ req.query) := by
  unfold Location.arrivals at hmem
  by_cases hpinniped : (chart.pinnipedProxyEnabled && v.pinnipedEnable) = true
  · have hupstream : (chart.location v).upstream =
        .pinniped (pinnipedHeaders v.entry.toClusterConfig) := if_pos hpinniped
    rw [hupstream] at hmem
    rw [if_pos hpinniped]
    obtain ⟨sent, hsent, hurl⟩ := List.mem_filterMap.mp hmem
    obtain ⟨exchanges, -, ⟨hlist, -⟩ | ⟨f, hforward, hlist, -⟩⟩ := proxy_sends env
      ⟨req.method, some ((chart.location v).rewrite req.uri ++ req.query),
        setHeaders (pinnipedHeaders v.entry.toClusterConfig) req.headers, req.body⟩ defaultCaData
    · rw [hlist] at hsent
      obtain ⟨e, -, rfl⟩ := List.mem_map.mp hsent
      cases hurl
    · rw [hlist] at hsent
      rcases List.mem_append.mp hsent with hsent | hsent
      · obtain ⟨e, -, rfl⟩ := List.mem_map.mp hsent
        cases hurl
      · rw [List.mem_singleton.mp hsent] at hurl
        obtain ⟨server, hdestined, huri⟩ := hforward.destined
        rw [← getApiServerUrl_setHeaders hvisible hdestined.server, ← Option.some.inj hurl]
        exact huri
  · have hupstream : (chart.location v).upstream = .direct (chart.urlParse (apiURL v)).1 :=
      if_neg hpinniped
    rw [hupstream] at hmem
    rw [if_neg hpinniped]
    exact List.mem_singleton.mp hmem

end Arrivals

/-- A request that the dashboard makes to a cluster reaches the API server of the cluster exactly if
    no name of an earlier cluster is the beginning of its name, in lower or upper case, and if the URL
    of the API server has no path when it is behind the proxy. -/
theorem browser_reaches_iff (chart : Chart) (pre post : List ClusterValue) (v : ClusterValue)
    (hclusters : chart.clusters = pre ++ v :: post)
    (hnodup : (chart.clusters.map ClusterValue.name).Nodup)
    (hnames : ∀ m ∈ chart.clusters, RegexText m.name)
    (hparse : (chart.urlParse (apiURL v)).1 ++ (chart.urlParse (apiURL v)).2 = apiURL v)
    (hvisible : VisibleText (apiURL v)) (req : BrowserRequest) (path : String)
    (huri : req.uri = "/api/clusters/" ++ v.name ++ "/" ++ path)
    (hpath : ¬ "/api/clusters/".toList <:+: lower ('/' :: v.name.toList ++ '/' :: path.toList))
    (hline : '\n' ∉ path.toList) (env : Env) (defaultCaData : Bytes)
    (hgoes : (chart.location v).arrivals env defaultCaData req ≠ []) :
    Reaches env defaultCaData chart v req (apiURL v ++ "/" ++ path ++ req.query) ↔
      (∀ m ∈ pre, ¬ lower m.name.toList <+: lower v.name.toList) ∧
        ((chart.pinnipedProxyEnabled && v.pinnipedEnable) = true →
          (chart.urlParse (apiURL v)).2 = "") := by
  have htakes : ∀ m ∈ chart.clusters, (chart.location m).Takes req.uri ↔
      lower m.name.toList <+: lower v.name.toList := by
    intro m hm
    unfold Location.Takes
    rw [huri, uri_toList]
    exact takes_iff (slash_not_mem (hnames m hm)) hpath
  have hv : v ∈ chart.clusters := by
    rw [hclusters]
    exact List.mem_append_right _ List.mem_cons_self
  unfold Reaches
  rw [route_own_iff hclusters hnodup ((htakes v hv).mpr (List.prefix_refl _))]
  have hpre : (∀ m ∈ pre, ¬ (chart.location m).Takes req.uri) ↔
      ∀ m ∈ pre, ¬ lower m.name.toList <+: lower v.name.toList :=
    forall₂_congr fun m hm => not_congr (htakes m (by
      rw [hclusters]
      exact List.mem_append_left _ hm))
  rw [hpre]
  refine and_congr_right fun _ => ?_
  have hrewrite : (chart.location v).rewrite req.uri = (chart.urlParse (apiURL v)).2 ++ "/" ++ path := by
    rw [huri]
    exact rewrite_own hline
  obtain ⟨url, hurl⟩ := List.exists_mem_of_ne_nil _ hgoes
  have hat : ∀ url ∈ (chart.location v).arrivals env defaultCaData req, url =
      (if chart.pinnipedProxyEnabled && v.pinnipedEnable then apiURL v
        else (chart.urlParse (apiURL v)).1) ++ ((chart.location v).rewrite req.uri ++ req.query) :=
    fun url hmem => mem_arrivals hvisible hmem
  rw [hrewrite] at hat
  by_cases hpinniped : (chart.pinnipedProxyEnabled && v.pinnipedEnable) = true
  · simp only [if_pos hpinniped] at hat
    constructor
    · intro hmem _
      have hlength := congrArg (fun s : String => s.toList.length) (hat _ hmem)
      simp only [String.toList_append, List.length_append] at hlength
      exact String.toList_injective (List.length_eq_zero_iff.mp (by omega))
    · intro hempty
      have heq := hat url hurl
      rw [hempty hpinniped, String.empty_append, ← String.append_assoc, ← String.append_assoc] at heq
      rwa [← heq]
  · simp only [if_neg hpinniped] at hat
    refine iff_of_true ?_ (fun h => absurd h hpinniped)
    have heq := hat url hurl
    rw [← String.append_assoc, ← String.append_assoc, ← String.append_assoc, hparse] at heq
    rwa [← heq]

/-- Two clusters whose names begin with `prod`, and one with pinniped behind a path. -/
def prodClusters : List ClusterValue :=
  [⟨"prod", some "https://prod:6443", none, none, false, false, true⟩,
    ⟨"prod-eu", some "https://prod-eu:6443", none, none, false, false, false⟩,
    ⟨"lab", some "https://rancher/k8s", some "Q0E=", none, false, true, false⟩]

def prodChart : Chart where
  clusters := prodClusters
  pinnipedProxyEnabled := true
  urlParse := fun u => if u = "https://rancher/k8s" then ("https://rancher", "/k8s") else (u, "")

/-- The request of the dashboard for the pods of a namespace. -/
def podsOf (cluster : String) : BrowserRequest where
  method := "GET"
  uri := "/" ++ Dashboard.ResourceRef.getResourceURL ⟨cluster, "v1", "pods", true, "default", none⟩
  args := none
  headers := [("Authorization", bytes "Bearer token")]
  body := []

theorem browser_reaches_prod :
    ¬ Reaches acceptingEnv [] prodChart prodClusters[1] (podsOf "prod-eu")
      "https://prod-eu:6443/api/v1/namespaces/default/pods" ∧
    ¬ Reaches acceptingEnv [] prodChart prodClusters[2] (podsOf "lab")
      "https://rancher/k8s/api/v1/namespaces/default/pods" := by
  constructor
  · intro hreaches
    have hiff := browser_reaches_iff prodChart [prodClusters[0]] [prodClusters[2]] prodClusters[1] rfl
      (by decide +kernel) (by decide +kernel) (by decide +kernel) (by decide +kernel)
      (podsOf "prod-eu") "api/v1/namespaces/default/pods" (by decide +kernel) (by decide +kernel)
      (by decide +kernel) acceptingEnv [] (by decide +kernel)
    exact (hiff.mp hreaches).1 _ (List.mem_singleton_self _) (by decide)
  · intro hreaches
    have hiff := browser_reaches_iff prodChart [prodClusters[0], prodClusters[1]] [] prodClusters[2] rfl
      (by decide +kernel) (by decide +kernel) (by decide +kernel) (by decide +kernel)
      (podsOf "lab") "api/v1/namespaces/default/pods" (by decide +kernel) (by decide +kernel)
      (by decide +kernel) acceptingEnv [] (by decide +kernel)
    exact absurd ((hiff.mp hreaches).2 rfl) (by decide)

end Kubeapps.Frontend
