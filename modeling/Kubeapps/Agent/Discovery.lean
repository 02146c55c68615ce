/-
  The discovery of the helm agent (pkg/agent/httpConfigForCluster.go, and NewConfigFlagsFromCluster of
  pkg/agent/agent.go).

  A helm action asks the API server of its cluster which resources it has, and keeps the documents on
  disk for ten minutes. The directory is made from the host of the client's config
  (`computeDiscoverCacheDir`), and there is one tree of directories for all users and all clusters.
  On a cluster with Pinniped the host is that of the proxy, whichever server is behind it.

  The disk cache of client-go is the parameter `cache` (a `TtlCache`), and what the servers have the
  parameter `offer`. A client that was invalidated asks without looking into the cache. The cache of
  the HTTP responses is left out.

  `discovery_own_iff`: where the API servers are written `https://host:port`, every user is given
  documents of the own cluster, in every run, exactly if all clusters with Pinniped have one API
  server. `discovery_direct_own`: the clients that do not use the proxy get their own in any case.
-/
import Kubeapps.Lib.TtlCache
import Kubeapps.Lib.Text
import Kubeapps.Lib.Joined
import Kubeapps.PinnipedProxy.Clients

namespace Kubeapps.Agent.Discovery

open Kubeapps.Lib Kubeapps.Kube.Clusters Kubeapps.PinnipedProxy

/-! ## The client of a config -/

/-- What `NewConfigFlagsFromCluster` sets of `genericclioptions.ConfigFlags`, and the directory of the
    caches, which it leaves out. -/
structure ConfigFlags where
  insecure : Bool
  timeout : String
  ns : String
  apiServer : String
  caFile : String
  bearerToken : String
  impersonateGroup : List String
  cacheDir : Option String
  deriving DecidableEq, Repr

/-- `configForCluster`. -/
structure ConfigForCluster where
  config : RestConfig
  discoveryBurst : Nat
  flags : ConfigFlags
  deriving DecidableEq, Repr

/-- `NewConfigFlagsFromCluster`. -/
def newConfigFlagsFromCluster (ns : String) (clusterConfig : RestConfig) : ConfigForCluster where
  config := clusterConfig
  discoveryBurst := 100
  flags := {
    insecure := clusterConfig.tlsClientConfig.insecure
    timeout := "0"
    ns := ns
    apiServer := clusterConfig.host
    caFile := clusterConfig.tlsClientConfig.caFile
    bearerToken := clusterConfig.bearerToken
    impersonateGroup := []
    cacheDir := none }

/-- `ToRESTConfig`. -/
def ConfigForCluster.toRESTConfig (f : ConfigForCluster) : RestConfig := f.config

/-- `strings.Replace s old new 1`, for an `old` that is not empty. -/
def replaceOnce (old new : List Char) : List Char → List Char
  | [] => []
  | c :: cs =>
      if old <+: c :: cs then new ++ (c :: cs).drop old.length else c :: replaceOnce old new cs

/-- A character that `overlyCautiousIllegalFileCharacters` does not match. -/
def isLegalFileChar (c : Char) : Bool := c.isAlphanum || c ∈ ['(', '_', '/', '.', ')']

/-- The host without its scheme, and with `_` for what might not be supported in a name. -/
def safeHost (host : String) : String :=
  let schemelessHost :=
    replaceOnce "http://".toList [] (replaceOnce "https://".toList [] host.toList)
  String.ofList (schemelessHost.map fun c => if isLegalFileChar c then c else '_')

/-- `computeDiscoverCacheDir`. -/
def computeDiscoverCacheDir (parentDir host : String) : String :=
  pathJoin [parentDir, safeHost host]

/-- Ten minutes, in nanoseconds. -/
def discoveryTTL : Nat := 10 * 60 * 1000000000

/-- What `diskcached.NewCachedDiscoveryClientForConfig` gets. -/
structure CachedDiscoveryClient where
  config : RestConfig
  burst : Nat
  discoveryCacheDir : String
  httpCacheDir : String
  ttl : Nat
  deriving DecidableEq, Repr

/-- `ToDiscoveryClient`. `home` is the home directory. -/
def ConfigForCluster.toDiscoveryClient (home : String) (f : ConfigForCluster) :
    CachedDiscoveryClient :=
  let config := f.toRESTConfig
  let cacheDir := f.flags.cacheDir.getD (pathJoin [home, ".kube", "cache"])
  { config := config
    burst := f.discoveryBurst
    discoveryCacheDir := computeDiscoverCacheDir (pathJoin [cacheDir, "discovery"]) config.host
    httpCacheDir := pathJoin [cacheDir, "http"]
    ttl := discoveryTTL }

/-! ## Directories of hosts -/

def isHostChar (c : Char) : Bool := c.isAlphanum || c == '.' || c == '-'

/-- A host, which is a name or an IPv4 address, and a port. -/
@[ext]
structure HostPort where
  host : String
  port : String
  host_chars : host.toList.all isHostChar = true
  port_digits : port.toList.all Char.isDigit = true

def HostPort.url (scheme : String) (a : HostPort) : String :=
  scheme ++ "://" ++ a.host ++ ":" ++ a.port

theorem replaceOnce_of_not_mem {old new s : List Char} {x : Char} (hx : x ∈ old) (hs : x ∉ s) :
    replaceOnce old new s = s := by
  induction s with
  | nil => rfl
  | cons c cs ih =>
      have hprefix : ¬ old <+: c :: cs := fun h => hs (h.subset hx)
      rw [replaceOnce, if_neg hprefix, ih fun h => hs (List.mem_cons_of_mem c h)]

/-- What is left of a URL without its scheme. -/
theorem schemeless {scheme : String} (hscheme : scheme = "http" ∨ scheme = "https")
    {rest : List Char} (hrest : '/' ∉ rest) :
    replaceOnce "http://".toList []
      (replaceOnce "https://".toList [] ((scheme ++ "://").toList ++ rest)) = rest := by
  have hmem : ∀ s ∈ ["http://", "https://"], '/' ∈ s.toList := by decide
  rcases hscheme with rfl | rfl
  · have hhttps : replaceOnce "https://".toList [] ("http://".toList ++ rest) =
        "http://".toList ++ rest := by
      have hnone : replaceOnce "https://".toList [] rest = rest :=
        replaceOnce_of_not_mem (hmem "https://" (by simp)) hrest
      simpa [replaceOnce] using hnone
    rw [show ("http" ++ "://").toList = "http://".toList from rfl, hhttps]
    simp [replaceOnce]
  · rw [show ("https" ++ "://").toList = "https://".toList from rfl]
    have hhttps : replaceOnce "https://".toList [] ("https://".toList ++ rest) = rest := by
      simp [replaceOnce]
    rw [hhttps, replaceOnce_of_not_mem (hmem "http://" (by simp)) hrest]

def safeChar (c : Char) : Char := if isLegalFileChar c then c else '_'

/-- A character of a host is not changed if it is not `-`. -/
theorem safeChar_host {c : Char} (hc : isHostChar c = true) :
    safeChar c = (if c = '-' then '_' else c) ∧ c ≠ '_' ∧ c ≠ '/' := by
  unfold isHostChar at hc
  simp only [Bool.or_eq_true, beq_iff_eq] at hc
  rcases hc with (hc | rfl) | rfl
  · have hne : ∀ d, d.isAlphanum = false → c ≠ d := by
      rintro d hd rfl
      rw [hc] at hd
      exact absurd hd (by decide)
    rw [if_neg (hne '-' rfl), safeChar, isLegalFileChar, hc]
    exact ⟨rfl, hne '_' rfl, hne '/' rfl⟩
  · decide
  · decide

theorem safeChar_digit {c : Char} (hc : c.isDigit = true) : safeChar c = c ∧ c ≠ '_' ∧ c ≠ '/' := by
  have hhost : isHostChar c = true := by
    rw [isHostChar, Char.isAlphanum, hc, Bool.or_true]
    rfl
  obtain ⟨hsafe, hne⟩ := safeChar_host hhost
  refine ⟨?_, hne⟩
  rw [hsafe, if_neg]
  rintro rfl
  exact absurd hc (by decide)

theorem HostPort.safe_host (a : HostPort) {c : Char} (hc : c ∈ a.host.toList) :
    safeChar c = (if c = '-' then '_' else c) ∧ c ≠ '_' ∧ c ≠ '/' :=
  safeChar_host (List.all_eq_true.mp a.host_chars c hc)

theorem HostPort.safe_port (a : HostPort) {c : Char} (hc : c ∈ a.port.toList) :
    safeChar c = c ∧ c ≠ '_' ∧ c ≠ '/' :=
  safeChar_digit (List.all_eq_true.mp a.port_digits c hc)

theorem safeHost_url {scheme : String} (hscheme : scheme = "http" ∨ scheme = "https")
    (a : HostPort) :
    (safeHost (a.url scheme)).toList = a.host.toList.map safeChar ++ '_' :: a.port.toList := by
  have hurl : (a.url scheme).toList =
      (scheme ++ "://").toList ++ (a.host.toList ++ ':' :: a.port.toList) := by
    simp [HostPort.url]
  have hslash : '/' ∉ a.host.toList ++ ':' :: a.port.toList := by
    intro h
    rcases List.mem_append.mp h with h | h
    · exact (a.safe_host h).2.2 rfl
    · rcases List.mem_cons.mp h with h | h
      · exact absurd h (by decide)
      · exact (a.safe_port h).2.2 rfl
  have hport : a.port.toList.map safeChar = a.port.toList :=
    (List.map_congr_left fun c hc => (a.safe_port hc).1).trans (List.map_id' _)
  unfold safeHost
  dsimp only
  rw [String.toList_ofList, hurl, schemeless hscheme hslash]
  change (a.host.toList ++ ':' :: a.port.toList).map safeChar = _
  rw [List.map_append, List.map_cons, hport]
  rfl

/-- The `_` of the safe host that stands for `:` is the last one. -/
theorem safeHost_injective {scheme scheme' : String} (hscheme : scheme = "http" ∨ scheme = "https")
    (hscheme' : scheme' = "http" ∨ scheme' = "https") {a a' : HostPort}
    (h : safeHost (a.url scheme) = safeHost (a'.url scheme')) : a = a' := by
  have hlist := congrArg String.toList h
  rw [safeHost_url hscheme, safeHost_url hscheme'] at hlist
  have hreverse := congrArg List.reverse hlist
  simp only [List.reverse_append, List.reverse_cons, List.append_assoc, List.singleton_append]
    at hreverse
  have hport : ∀ b : HostPort, '_' ∉ b.port.toList.reverse := fun b hb =>
    (b.safe_port (List.mem_reverse.mp hb)).2.1 rfl
  obtain ⟨hports, hhosts⟩ := append_cons_inj (hport a) (hport a') hreverse
  have hunsafe : ∀ b : HostPort,
      (b.host.toList.map safeChar).map (fun c => if c = '_' then '-' else c) = b.host.toList := by
    intro b
    rw [List.map_map]
    refine (List.map_congr_left fun c hc => ?_).trans (List.map_id' _)
    obtain ⟨hsafe, hne, -⟩ := b.safe_host hc
    rw [Function.comp_apply, hsafe]
    by_cases hdash : c = '-'
    · rw [if_pos hdash, if_pos rfl, hdash]
    · rw [if_neg hdash, if_neg hne]
  apply HostPort.ext
  · rw [← String.toList_inj, ← hunsafe a, ← hunsafe a', List.reverse_inj.mp hhosts]
  · rw [← String.toList_inj, List.reverse_inj.mp hports]

/-! ### Directories of API servers -/

theorem keptElem_safeHost {scheme : String} (hscheme : scheme = "http" ∨ scheme = "https")
    (a : HostPort) : KeptElem (safeHost (a.url scheme)) := by
  have hmem : '_' ∈ (safeHost (a.url scheme)).toList := by
    rw [safeHost_url hscheme]
    exact List.mem_append_right _ List.mem_cons_self
  refine ⟨fun h => ?_, List.ne_nil_of_mem hmem, fun h => ?_, fun h => ?_⟩
  · rw [safeHost_url hscheme] at h
    rcases List.mem_append.mp h with h | h
    · obtain ⟨c, hc, hslash⟩ := List.mem_map.mp h
      obtain ⟨hsafe, -, hne⟩ := a.safe_host hc
      rw [hsafe] at hslash
      split at hslash
      · exact absurd hslash (by decide)
      · exact hne hslash
    · rcases List.mem_cons.mp h with h | h
      · exact absurd h (by decide)
      · exact (a.safe_port h).2.2 rfl
  · rw [h] at hmem
    exact absurd hmem (by decide)
  · rw [h] at hmem
    exact absurd hmem (by decide)

/-- Two addresses with one directory are the same. -/
theorem computeDiscoverCacheDir_injective {parentDir scheme scheme' : String}
    (hparent : parentDir ≠ "") (hscheme : scheme = "http" ∨ scheme = "https")
    (hscheme' : scheme' = "http" ∨ scheme' = "https") {a a' : HostPort}
    (h : computeDiscoverCacheDir parentDir (a.url scheme) =
      computeDiscoverCacheDir parentDir (a'.url scheme')) : a = a' := by
  have hbase := congrArg pathBase h
  unfold computeDiscoverCacheDir at hbase
  rw [pathBase_pathJoin hparent (keptElem_safeHost hscheme a),
    pathBase_pathJoin hparent (keptElem_safeHost hscheme' a')] at hbase
  exact safeHost_injective hscheme hscheme' hbase

/-! ## Clients of the clusters -/

/-- A client for a cluster, with the config that `NewClusterConfig` has made for it. -/
structure ClusterClient (inClusterConfig : RestConfig) (clustersConfig : ClustersConfig) where
  token : String
  cluster : String
  config : RestConfig
  made : newClusterConfig inClusterConfig token cluster clustersConfig = .ok config

/-- The API server that a wrapper names, if it is the one for the proxy. -/
def wrapperServer? : Wrapper → Option String
  | .existing _ => none
  | .pinnipedProxy headers =>
      some ((headers.lookup "PINNIPED_PROXY_API_SERVER_URL").getD defaultK8sApiServerUrl)

/-- The API server that answers to a config: behind the proxy the one that the wrapper names, and
    otherwise the host. -/
def apiServer (config : RestConfig) : String :=
  (config.wrapTransport.findSome? wrapperServer?).getD config.host

theorem wrapperServer_pinnipedHeaders (c : ClusterConfig) :
    wrapperServer? (.pinnipedProxy (pinnipedHeaders c)) = some (target c) := by
  unfold wrapperServer? pinnipedHeaders target
  by_cases hurl : c.apiServiceURL = ""
  · by_cases hca : c.certificateAuthorityData = "" <;> simp [hurl, hca]
  · simp [hurl]

/-- The API servers of an installation are written `https://host:port`. The proxy is reached without
    TLS and is not one of them. -/
structure Addresses (inClusterConfig : RestConfig) (clustersConfig : ClustersConfig)
    (proxy : HostPort) : Prop where
  proxyURL : clustersConfig.pinnipedProxyURL = proxy.url "http"
  inside : ∃ a : HostPort, inClusterConfig.host = a.url "https" ∧ a ≠ proxy
  additional : ∀ cluster c, cluster ≠ clustersConfig.kubeappsClusterName →
    clustersConfig.clusters cluster = some c →
    ∃ a : HostPort, c.apiServiceURL = a.url "https" ∧ a ≠ proxy
  wrappers : inClusterConfig.wrapTransport = []

/-- A cluster with Pinniped. -/
structure PinnipedCluster (clustersConfig : ClustersConfig) (cluster : String) (c : ClusterConfig) :
    Prop where
  nonempty : cluster ≠ ""
  configured : clustersConfig.clusters cluster = some c
  enabled : c.pinnipedEnable = true

namespace ClusterClient

variable {inClusterConfig : RestConfig} {clustersConfig : ClustersConfig} {proxy : HostPort}

def discoveryDir (home : String) (r : ClusterClient inClusterConfig clustersConfig) : String :=
  ((newConfigFlagsFromCluster "" r.config).toDiscoveryClient home).discoveryCacheDir

/-- The client of a user with a token on a cluster with Pinniped. -/
def Proxied (r : ClusterClient inClusterConfig clustersConfig) (c : ClusterConfig) : Prop :=
  r.token ≠ "" ∧ PinnipedCluster clustersConfig r.cluster c

/-- A client goes through the proxy to the server of its cluster, or straight to its host. -/
theorem proxied_or_direct (h : Addresses inClusterConfig clustersConfig proxy)
    (r : ClusterClient inClusterConfig clustersConfig) :
    (∃ c, r.Proxied c ∧ r.config.host = proxy.url "http" ∧ apiServer r.config = target c) ∨
    ((∀ c, ¬ r.Proxied c) ∧ apiServer r.config = r.config.host ∧
      ∃ a : HostPort, r.config.host = a.url "https" ∧ a ≠ proxy) := by
  have hmade := r.made
  have hdirect : apiServer inClusterConfig = inClusterConfig.host := by
    rw [apiServer, h.wrappers]
    rfl
  unfold newClusterConfig at hmade
  dsimp only at hmade
  by_cases hempty : r.cluster = ""
  · rw [if_pos hempty] at hmade
    rw [← Except.ok.inj hmade]
    exact Or.inr ⟨fun c hc => hc.2.nonempty hempty, hdirect, h.inside⟩
  · rw [if_neg hempty] at hmade
    cases hc : clustersConfig.clusters r.cluster with
    | none =>
        rw [hc] at hmade
        cases hmade
    | some c =>
        rw [hc] at hmade
        dsimp only at hmade
        by_cases hpinniped : r.token ≠ "" ∧ c.pinnipedEnable = true
        · rw [if_pos hpinniped] at hmade
          rw [← Except.ok.inj hmade]
          refine Or.inl ⟨c, ⟨hpinniped.1, hempty, hc, hpinniped.2⟩, h.proxyURL, ?_⟩
          rw [apiServer, h.wrappers]
          dsimp only [List.nil_append, List.findSome?_cons]
          rw [wrapperServer_pinnipedHeaders]
          rfl
        · rw [if_neg hpinniped] at hmade
          have hnot : ∀ c', ¬ r.Proxied c' := by
            intro c' hc'
            have heq : c = c' := Option.some.inj (hc.symm.trans hc'.2.configured)
            exact hpinniped ⟨hc'.1, heq ▸ hc'.2.enabled⟩
          by_cases hown : r.cluster = clustersConfig.kubeappsClusterName
          · rw [if_pos hown] at hmade
            rw [← Except.ok.inj hmade]
            exact Or.inr ⟨hnot, hdirect, h.inside⟩
          · rw [if_neg hown] at hmade
            rw [← Except.ok.inj hmade]
            refine Or.inr ⟨hnot, ?_, h.additional r.cluster c hown hc⟩
            rw [apiServer, h.wrappers]
            rfl

/-- Behind the proxy is the server of the cluster. -/
theorem Proxied.apiServer (h : Addresses inClusterConfig clustersConfig proxy)
    {r : ClusterClient inClusterConfig clustersConfig} {c : ClusterConfig} (hr : r.Proxied c) :
    apiServer r.config = target c := by
  rcases r.proxied_or_direct h with ⟨c', hr', -, hserver⟩ | ⟨hnot, -⟩
  · have heq : c' = c := Option.some.inj (hr'.2.configured.symm.trans hr.2.configured)
    rw [hserver, heq]
  · exact absurd hr (hnot c)

theorem discoveryDir_congr (home : String) {r r' : ClusterClient inClusterConfig clustersConfig}
    (h : r.config.host = r'.config.host) : r.discoveryDir home = r'.discoveryDir home := by
  simp only [discoveryDir, newConfigFlagsFromCluster, ConfigForCluster.toDiscoveryClient,
    ConfigForCluster.toRESTConfig, h]

/-- There are clients of users on every cluster with Pinniped, and their host is the proxy. -/
theorem exists_proxied (inClusterConfig : RestConfig) {cluster : String} {c : ClusterConfig}
    (hc : PinnipedCluster clustersConfig cluster c) :
    ∃ r : ClusterClient inClusterConfig clustersConfig, r.Proxied c ∧
      r.config.host = clustersConfig.pinnipedProxyURL := by
  have htoken : "token" ≠ "" := by decide
  have hmade : newClusterConfig inClusterConfig "token" cluster clustersConfig = .ok _ :=
    newClusterConfig_pinniped hc.nonempty htoken hc.configured hc.enabled
  exact ⟨⟨"token", cluster, _, hmade⟩, ⟨htoken, hc⟩, rfl⟩

/-- Clients with one directory have one host. -/
theorem host_eq_of_discoveryDir (h : Addresses inClusterConfig clustersConfig proxy) {home : String}
    {r r' : ClusterClient inClusterConfig clustersConfig}
    (hdir : r.discoveryDir home = r'.discoveryDir home) : r.config.host = r'.config.host := by
  have hparent : pathJoin [pathJoin [home, ".kube", "cache"], "discovery"] ≠ "" :=
    pathJoin_ne_empty (List.mem_cons_of_mem _ List.mem_cons_self) (by decide)
  have hsame : ∀ {scheme scheme' : String} {a a' : HostPort},
      scheme = "http" ∨ scheme = "https" → scheme' = "http" ∨ scheme' = "https" →
      r.config.host = a.url scheme → r'.config.host = a'.url scheme' → a = a' := by
    intro scheme scheme' a a' hscheme hscheme' ha ha'
    apply computeDiscoverCacheDir_injective hparent hscheme hscheme'
    rw [← ha, ← ha']
    exact hdir
  rcases r.proxied_or_direct h with ⟨c, -, hhost, -⟩ | ⟨-, -, a, hhost, hne⟩
  · rcases r'.proxied_or_direct h with ⟨c', -, hhost', -⟩ | ⟨-, -, a', hhost', hne'⟩
    · rw [hhost, hhost']
    · exact absurd (hsame (Or.inl rfl) (Or.inr rfl) hhost hhost').symm hne'
  · rcases r'.proxied_or_direct h with ⟨c', -, hhost', -⟩ | ⟨-, -, a', hhost', hne'⟩
    · exact absurd (hsame (Or.inr rfl) (Or.inl rfl) hhost hhost') hne
    · rw [hhost, hhost', hsame (Or.inr rfl) (Or.inr rfl) hhost hhost']

/-- Clients with one directory are both behind the proxy, or have one API server. -/
theorem discoveryDir_cases (h : Addresses inClusterConfig clustersConfig proxy) {home : String}
    {r r' : ClusterClient inClusterConfig clustersConfig}
    (hdir : r.discoveryDir home = r'.discoveryDir home) :
    (∃ c c', r.Proxied c ∧ r'.Proxied c' ∧ apiServer r.config = target c ∧
      apiServer r'.config = target c') ∨
    ((∀ c, ¬ r'.Proxied c) ∧ apiServer r.config = apiServer r'.config) := by
  have hhost := host_eq_of_discoveryDir h hdir
  have hschemes : ∀ a : HostPort, a.url "https" ≠ proxy.url "http" := by
    intro a heq
    have hlist := congrArg (fun s => s.toList.take 5) heq
    simp [HostPort.url] at hlist
  rcases r.proxied_or_direct h with ⟨c, hr, hproxy, hserver⟩ | ⟨-, hserver, a, ha, -⟩
  · rcases r'.proxied_or_direct h with ⟨c', hr', -, hserver'⟩ | ⟨-, -, a', ha', -⟩
    · exact Or.inl ⟨c, c', hr, hr', hserver, hserver'⟩
    · exact absurd (ha'.symm.trans (hhost.symm.trans hproxy)) (hschemes a')
  · rcases r'.proxied_or_direct h with ⟨c', -, hproxy', -⟩ | ⟨hnot, hserver', -⟩
    · exact absurd (ha.symm.trans (hhost.trans hproxy')) (hschemes a)
    · exact Or.inr ⟨hnot, by rw [hserver, hserver', hhost]⟩

end ClusterClient

/-! ## Whose documents a client is given -/

/-- The clients of an installation, which share the home directory `home`, and the answers that they
    are given. `serverAt` says which API server answers under a URL. -/
def discoveryStep {ς δ : Type} (inClusterConfig : RestConfig) (clustersConfig : ClustersConfig)
    (home : String) (serverAt : String → ς) (cache : TtlCache String String Bytes δ discoveryTTL)
    (offer : Nat → ς → String → Option Bytes) :
    CacheRun (ClusterClient inClusterConfig clustersConfig) String Bytes δ →
    CacheLabel (ClusterClient inClusterConfig clustersConfig) String →
    Option (CacheRun (ClusterClient inClusterConfig clustersConfig) String Bytes δ) :=
  cache.step (ClusterClient.discoveryDir home) (fun r => serverAt (apiServer r.config)) offer

section Runs

variable {inClusterConfig : RestConfig} {clustersConfig : ClustersConfig} {proxy : HostPort}
  {ς δ : Type}

/-- The document is one that the API server of the client had, at most ten minutes before. -/
def OwnDocument (serverAt : String → ς) (offer : Nat → ς → String → Option Bytes)
    (x : Reading (ClusterClient inClusterConfig clustersConfig) String Bytes) : Prop :=
  ∃ t ≤ x.time, x.time ≤ t + discoveryTTL ∧
    offer t (serverAt (apiServer x.client.config)) x.file = some x.content

/-- In every run all documents are the clients' own exactly if the clusters with Pinniped have one
    API server. -/
theorem discovery_own_iff (h : Addresses inClusterConfig clustersConfig proxy) (home : String)
    (serverAt : String → ς) (cache : TtlCache String String Bytes δ discoveryTTL) :
    (∀ offer ls s,
      runs (discoveryStep inClusterConfig clustersConfig home serverAt cache offer) cache.start ls =
        some s →
      ∀ x ∈ s.answers, OwnDocument serverAt offer x) ↔
    ∀ cluster cluster' c c', PinnipedCluster clustersConfig cluster c →
      PinnipedCluster clustersConfig cluster' c' → serverAt (target c) = serverAt (target c') := by
  have : Nontrivial Bytes := ⟨[], [0], by decide⟩
  refine (cache.answers_own_iff (ClusterClient.discoveryDir home) _).trans
    ⟨fun hplace cluster cluster' c c' hc hc' => ?_, fun hone r r' hdir => ?_⟩
  · obtain ⟨r, hr, hhost⟩ := ClusterClient.exists_proxied inClusterConfig hc
    obtain ⟨r', hr', hhost'⟩ := ClusterClient.exists_proxied inClusterConfig hc'
    have hserver := hplace r r' (ClusterClient.discoveryDir_congr home (hhost.trans hhost'.symm))
    rwa [hr.apiServer h, hr'.apiServer h] at hserver
  · rcases ClusterClient.discoveryDir_cases h hdir with ⟨c, c', hr, hr', hs, hs'⟩ | ⟨-, hs⟩
    · rw [hs, hs']
      exact hone r.cluster r'.cluster c c' hr.2 hr'.2
    · rw [hs]

/-- A client that does not go through the proxy gets the documents of its own API server. -/
theorem discovery_direct_own (h : Addresses inClusterConfig clustersConfig proxy) (home : String)
    (serverAt : String → ς) (cache : TtlCache String String Bytes δ discoveryTTL)
    (offer : Nat → ς → String → Option Bytes)
    (ls : List (CacheLabel (ClusterClient inClusterConfig clustersConfig) String))
    (s : CacheRun (ClusterClient inClusterConfig clustersConfig) String Bytes δ)
    (hruns : runs (discoveryStep inClusterConfig clustersConfig home serverAt cache offer)
      cache.start ls = some s)
    (x : Reading (ClusterClient inClusterConfig clustersConfig) String Bytes) (hx : x ∈ s.answers)
    (hdirect : ∀ c, ¬ x.client.Proxied c) : OwnDocument serverAt offer x := by
  refine TtlCache.own_of_recent (TtlCache.answers_recent hruns hx) fun r hdir => ?_
  rcases ClusterClient.discoveryDir_cases h hdir with ⟨-, c, -, hr, -⟩ | ⟨-, hs⟩
  · exact absurd hr (hdirect c)
  · rw [hs]

end Runs

/-! ### Two clusters behind the proxy -/

/-- `prod` and `lab` have Pinniped, `edge` has not. -/
def fleetConfig : ClustersConfig where
  kubeappsClusterName := "default"
  pinnipedProxyURL := "http://pinniped-proxy.kubeapps:3333"
  clusters := fun name =>
    if name = "default" then some ⟨"", "", "", "", "", false, false⟩
    else if name = "prod" then some ⟨"https://prod.example.com:6443", "", "", "", "", false, true⟩
    else if name = "lab" then some ⟨"https://lab.example.com:6443", "", "", "", "", false, true⟩
    else if name = "edge" then some ⟨"https://edge.example.com:6443", "", "", "", "", false, false⟩
    else none

def fleetPod : RestConfig := ⟨"https://10.96.0.1:443", "pod-token", "", .zero, []⟩

theorem fleet_addresses :
    Addresses fleetPod fleetConfig ⟨"pinniped-proxy.kubeapps", "3333", by decide, by decide⟩ where
  proxyURL := rfl
  inside := ⟨⟨"10.96.0.1", "443", by decide, by decide⟩, rfl, by simp⟩
  additional := by
    intro cluster c hadditional hc
    change cluster ≠ "default" at hadditional
    unfold fleetConfig at hc
    dsimp only at hc
    rw [if_neg hadditional] at hc
    split at hc
    · rw [← Option.some.inj hc]
      exact ⟨⟨"prod.example.com", "6443", by decide, by decide⟩, rfl, by simp⟩
    · split at hc
      · rw [← Option.some.inj hc]
        exact ⟨⟨"lab.example.com", "6443", by decide, by decide⟩, rfl, by simp⟩
      · split at hc
        · rw [← Option.some.inj hc]
          exact ⟨⟨"edge.example.com", "6443", by decide, by decide⟩, rfl, by simp⟩
        · cases hc
  wrappers := rfl

/-- A user of `lab` is given what `prod` has, or the other way round. -/
theorem discovery_own_prod_lab :
    ¬ ∀ offer ls s,
      runs (discoveryStep fleetPod fleetConfig "/" id (TtlCache.table discoveryTTL) offer)
        (TtlCache.table discoveryTTL).start ls = some s →
      ∀ x ∈ s.answers, OwnDocument id offer x := by
  intro hall
  have hone := (discovery_own_iff fleet_addresses "/" id (TtlCache.table discoveryTTL)).mp hall "prod"
    "lab" _ _ ⟨by decide, rfl, rfl⟩ ⟨by decide, rfl, rfl⟩
  exact absurd hone (by decide)

def prodClient : ClusterClient fleetPod fleetConfig where
  token := "token"
  cluster := "prod"
  config := ⟨"http://pinniped-proxy.kubeapps:3333", "token", "", .zero,
    [.pinnipedProxy [("PINNIPED_PROXY_API_SERVER_URL", "https://prod.example.com:6443")]]⟩
  made := rfl

def edgeClient : ClusterClient fleetPod fleetConfig where
  token := "token"
  cluster := "edge"
  config := ⟨"https://edge.example.com:6443", "token", "", .zero, []⟩
  made := rfl

/-- A user of `edge` right after one of `prod`. -/
theorem discovery_direct_own_edge :
    let offer : Nat → String → String → Option Bytes := fun _ server _ => some (bytes server)
    ∃ s, runs (discoveryStep fleetPod fleetConfig "/" id (TtlCache.table discoveryTTL) offer)
        (TtlCache.table discoveryTTL).start
        [.ask prodClient "servergroups.json", .ask edgeClient "servergroups.json"] = some s ∧
      ∃ x ∈ s.answers, x.client.cluster = "edge" ∧ OwnDocument id offer x := by
  intro offer
  have hdirs : prodClient.discoveryDir "/" ≠ edgeClient.discoveryDir "/" := by decide +kernel
  have hruns : ∃ s, runs (discoveryStep fleetPod fleetConfig "/" id (TtlCache.table discoveryTTL)
      offer) (TtlCache.table discoveryTTL).start
      [.ask prodClient "servergroups.json", .ask edgeClient "servergroups.json"] = some s ∧
      ∃ x ∈ s.answers, x.client = edgeClient := by
    simp [runs_cons, discoveryStep, TtlCache.step, TtlCache.start, TtlCache.table, TtlCache.fetch,
      offer, hdirs]
  obtain ⟨s, hruns, x, hx, hclient⟩ := hruns
  have hdirect : ∀ c, ¬ x.client.Proxied c := by
    intro c hc
    have hconfigured := hc.2.configured
    rw [hclient] at hconfigured
    have hc' : c = ⟨"https://edge.example.com:6443", "", "", "", "", false, false⟩ :=
      (Option.some.inj hconfigured).symm
    have henabled := hc.2.enabled
    rw [hc'] at henabled
    cases henabled
  refine ⟨s, hruns, x, hx, by rw [hclient]; rfl, ?_⟩
  exact discovery_direct_own fleet_addresses "/" id (TtlCache.table discoveryTTL) offer _ s hruns x hx
    hdirect

end Kubeapps.Agent.Discovery
