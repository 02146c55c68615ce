/-
  The gate before assetsvc (pkg/auth/authgate.go: AuthGate; pkg/auth/auth.go: NewAuth,
  ValidateForNamespace; cmd/kubeops/main.go: the routes under /assetsvc).

  The gate asks the API server of the cluster in the path whether the user may get secrets in the
  namespace of the path, and passes the request on unchanged. It does not ask for the namespace of
  Kubeapps. assetsvc unescapes the namespace once more than the gate (Assetsvc/Handler.lean) and
  does not look at the cluster.

  * `gated_namespaces`: what a response shows is of the namespace of Kubeapps or of one that the
    user may read, since a name with an escape in it is the name of no namespace.
  * `chart_visible_iff`: a user sees a chart exactly if she may read its namespace on some cluster
    that is configured, not only on the one whose chart it is.
-/
import Kubeapps.Assetsvc.Handler
import Kubeapps.Kube.ClusterConfig

namespace Kubeapps.Kubeops

open Kubeapps.Lib Kubeapps.Assetsvc
open Kubeapps.Kube.Clusters (RestConfig ClustersConfig ClusterError newClusterConfig TLSClientConfig)
open Kubeapps.Lib.Sql (Dialect)

/-! ## The gate -/

/-- `ExtractToken`. -/
def extractToken (headerValue : String) : String :=
  let tokenPrefix := "Bearer ".toList
  if tokenPrefix.isPrefixOf headerValue.toList then
    String.ofList (headerValue.toList.drop tokenPrefix.length)
  else ""

/-- What the gate works with. `canI` is the answer of the API server of a config, with the token in
    it, to a review of `get` on `secrets` in a namespace; the empty one stands for all. -/
structure AuthEnv where
  inClusterConfig : Except String RestConfig
  newForConfig : RestConfig → Option String
  canI : RestConfig → Bytes → Except String Bool
  clustersConfig : ClustersConfig
  kubeappsNamespace : String

/-- A request to a route under `/assetsvc/v1/clusters/{cluster}/namespaces/{namespace}/`. -/
structure GatedRequest where
  authorization : String
  cluster : String
  params : Params
  cluster_ne : cluster ≠ ""

inductive Refusal where
  | tokenMissing
  | newAuth (err : ClusterError)
  | notValidated (ns : Bytes) (err : Option String)
  deriving DecidableEq

def Refusal.code : Refusal → Nat
  | .tokenMissing | .newAuth _ => 401
  | .notValidated _ _ => 403

/-- `namespace` of the gate: empty for all namespaces. -/
def checkedNamespace (ns : Bytes) : Bytes := if ns = bytes "_all" then [] else ns

namespace AuthEnv

variable (env : AuthEnv)

/-- `NewAuth`. It makes a client and does not try the token. -/
def newAuth (token clusterName : String) : Except ClusterError RestConfig := do
  let config ← match env.inClusterConfig with
    | .ok config => .ok config
    | .error msg => .error (.clientset msg)
  let config ← newClusterConfig config token clusterName env.clustersConfig
  match env.newForConfig config with
  | some msg => .error (.clientset msg)
  | none => .ok config

/-- `AuthCheckerForRequest`. -/
def authCheckerForRequest (authorization clusterName : String) : Except Refusal RestConfig :=
  let token := extractToken authorization
  if token = "" then .error .tokenMissing
  else
    match env.newAuth token clusterName with
    | .ok config => .ok config
    | .error err => .error (.newAuth err)

/-- `AuthGate`, up to `next`. -/
def authGate (req : GatedRequest) : Except Refusal Unit := do
  let config ← env.authCheckerForRequest req.authorization req.cluster
  let ns := checkedNamespace req.params.ns
  if ns = bytes env.kubeappsNamespace then return
  match env.canI config ns with
  | .error err => throw (.notValidated ns (some err))
  | .ok authz => if authz then return else throw (.notValidated ns none)

/-- A request through the gate and the proxy. -/
def handle (m : AssetManager) (endpoint : Endpoint) (req : GatedRequest) :
    Except Refusal Response := do
  env.authGate req
  return m.serve endpoint req.params

/-- What Kubernetes promises of its reviews: who may in all namespaces may in each, and a name that
    no namespace can have is in no role binding. -/
structure Rbac : Prop where
  all : ∀ config ns, env.canI config [] = .ok true → env.canI config ns = .ok true
  valid : ∀ config ns, env.canI config ns = .ok true →
    env.canI config [] = .ok true ∨ ∃ s, ValidNamespace s ∧ ns = bytes s

/-- The user of this header has a client for the cluster. -/
def Client (authorization cluster : String) (config : RestConfig) : Prop :=
  extractToken authorization ≠ "" ∧ env.newAuth (extractToken authorization) cluster = .ok config

end AuthEnv

/-! ## Names of namespaces -/

section Names

variable {s : String}

theorem not_mem_of_validNamespace (h : ValidNamespace s) {c : Char}
    (hc : (c.isLower || c.isDigit || c == '-') = false) : c ∉ s.toList := by
  intro hmem
  rw [mem_validNamespace h hmem] at hc
  cases hc

theorem unescape_validNamespace (h : ValidNamespace s) : pathUnescape (bytes s) = some (bytes s) := by
  refine unescape_segment_of_not_mem ?_
  rw [ascii_mem_bytes (by decide)]
  exact not_mem_of_validNamespace h (by decide)

theorem validNamespace_ne_all (h : ValidNamespace s) : s ≠ "_all" := by
  intro heq
  exact not_mem_of_validNamespace h (c := '_') (by decide) (by simp [heq])

theorem checkedNamespace_of_valid (h : ValidNamespace s) : checkedNamespace (bytes s) = bytes s :=
  if_neg fun heq => validNamespace_ne_all h (bytes_injective heq)

theorem bytes_validNamespace_ne_nil (h : ValidNamespace s) : bytes s ≠ [] := by
  intro hnil
  have hempty : s = "" := bytes_injective hnil
  rw [hempty] at h
  exact absurd h (by decide)

theorem unescape_validName (h : ValidName s) : pathUnescape (bytes s) = some (bytes s) := by
  refine unescape_segment_of_not_mem ?_
  rw [ascii_mem_bytes (by decide)]
  intro hmem
  rcases mem_validName h hmem with hc | hc
  · exact absurd hc (by decide)
  · exact absurd hc (by decide)

end Names

/-! ## What passes -/

section Gate

variable {env : AuthEnv} {req : GatedRequest}

/-- A request that passes has a client that may read the namespace, or asks for Kubeapps' own. -/
theorem authGate_ok (h : env.authGate req = .ok ()) :
    ∃ config, env.Client req.authorization req.cluster config ∧
      (checkedNamespace req.params.ns = bytes env.kubeappsNamespace ∨
        env.canI config (checkedNamespace req.params.ns) = .ok true) := by
  unfold AuthEnv.authGate at h
  obtain ⟨config, hconfig, h⟩ := bind_eq_ok h
  have hclient : env.Client req.authorization req.cluster config := by
    unfold AuthEnv.authCheckerForRequest at hconfig
    dsimp only at hconfig
    split at hconfig
    · cases hconfig
    · rename_i htoken
      split at hconfig
      · rename_i config' hauth
        rw [← Except.ok.inj hconfig]
        exact ⟨htoken, hauth⟩
      · cases hconfig
  refine ⟨config, hclient, ?_⟩
  dsimp only at h
  generalize checkedNamespace req.params.ns = ns at h ⊢
  split at h
  · rename_i hns
    exact .inl hns
  · split at h
    · cases h
    · rename_i authz hcan
      split at h
      · rename_i hauthz
        rw [hcan, hauthz]
        exact .inr rfl
      · cases h

theorem authGate_of_client {config : RestConfig} {ns : String}
    (hclient : env.Client req.authorization req.cluster config)
    (hns : req.params.ns = bytes ns) (hvalid : ValidNamespace ns)
    (hmay : ns = env.kubeappsNamespace ∨ env.canI config (bytes ns) = .ok true) :
    env.authGate req = .ok () := by
  obtain ⟨htoken, hauth⟩ := hclient
  unfold AuthEnv.authGate AuthEnv.authCheckerForRequest
  dsimp only
  rw [if_neg htoken, hauth, hns, checkedNamespace_of_valid hvalid]
  show (if bytes ns = bytes env.kubeappsNamespace then _ else _) = _
  by_cases hkubeapps : bytes ns = bytes env.kubeappsNamespace
  · rw [if_pos hkubeapps]
    rfl
  · rw [if_neg hkubeapps]
    have hcan := hmay.resolve_left fun heq => hkubeapps (congrArg bytes heq)
    rw [hcan]
    rfl

end Gate

/-! ## What a user sees -/

section Visible

variable {env : AuthEnv} {m : AssetManager} {d : Dialect} {isNil : String → Bool}

/-- A name that passes and is not empty is read by assetsvc as it is. -/
theorem served_eq_checked {ns : Bytes} {s served : String} (hvalid : ValidNamespace s)
    (hcheck : checkedNamespace ns = bytes s) (hserved : pathUnescape ns = some (bytes served)) :
    served = s := by
  have hns : ns = bytes s := by
    unfold checkedNamespace at hcheck
    split at hcheck
    · exact absurd hcheck.symm (bytes_validNamespace_ne_nil hvalid)
    · exact hcheck
  rw [hns, unescape_validNamespace hvalid] at hserved
  exact (bytes_injective (Option.some.inj hserved)).symm

theorem shown_of_valid {s x : String} (hvalid : ValidNamespace s) (h : m.Shown s x) :
    x = s ∨ x = m.kubeappsNamespace :=
  h.resolve_left (validNamespace_ne_all hvalid)

/-- Nothing in a response to a request through the gate is of a namespace that the user may not
    read, except for the one of Kubeapps. -/
theorem gated_namespaces (env : AuthEnv) (m : AssetManager) (d : Dialect) (isNil : String → Bool)
    (hrbac : env.Rbac) (hreads : m.pg.ReadsWhere d isNil) (hstored : AllStored m.charts)
    (hkubeapps : ValidNamespace env.kubeappsNamespace)
    (hsame : m.kubeappsNamespace = env.kubeappsNamespace) (endpoint : Endpoint)
    (req : GatedRequest) (response : Response) (h : env.handle m endpoint req = .ok response) :
    ∃ config, env.Client req.authorization req.cluster config ∧
      ∀ x ∈ response.namespaces, x = env.kubeappsNamespace ∨ env.canI config (bytes x) = .ok true := by
  obtain ⟨⟨⟩, hgate, hserve⟩ := bind_eq_ok h
  obtain rfl := Except.ok.inj hserve
  obtain ⟨config, hclient, hpass⟩ := authGate_ok hgate
  refine ⟨config, hclient, fun x hx => ?_⟩
  obtain ⟨served, hserved, hshown⟩ := serve_namespaces hreads hstored hx
  rcases hpass with hown | hcan
  · rw [served_eq_checked hkubeapps hown hserved] at hshown
    rcases shown_of_valid hkubeapps hshown with hxs | hxs
    · exact .inl hxs
    · exact .inl (hxs.trans hsame)
  · rcases hrbac.valid config _ hcan with hall | ⟨s, hvalid, hs⟩
    · exact .inr (hrbac.all config _ hall)
    · rw [served_eq_checked hvalid hs hserved] at hshown
      rcases shown_of_valid hvalid hshown with hxs | hxs
      · rw [hs, ← hxs] at hcan
        exact .inr hcan
      · exact .inl (hxs.trans hsame)

/-- The query for the id of a stored chart finds its row. -/
theorem getChart_of_stored (hstored : AllStored m.charts) {row : ChartRow}
    (hrow : row ∈ m.charts.rows) {name : String} (hname : StoredChart row name) :
    m.getChart (bytes row.repoNamespace)
      (getChartID (bytes row.repoName) (bytes (pathEscape name))) = .ok row.info := by
  have hid : getChartID (bytes row.repoName) (bytes (pathEscape name)) =
      bytes (chartIDOf row.repoName name) := by
    unfold getChartID chartIDOf
    rw [bytes_append, bytes_append, List.append_assoc]
    rfl
  have hzero : Char.ofNat 0 ∉ (chartIDOf row.repoName name).toList := by
    unfold chartIDOf
    simp only [String.toList_append, List.mem_append, not_or]
    exact ⟨⟨zero_not_mem_validName hname.repo_valid, by decide⟩,
      not_mem_pathEscape (by decide) (by decide) name⟩
  have honly : ∀ row', row' ∈ rowsWhere m.charts (· == ·) row.repoNamespace
      (chartIDOf row.repoName name) ↔ row' = row := by
    intro row'
    rw [mem_rowsWhere]
    constructor
    · intro ⟨hrow', hns, id, hid', heq⟩
      obtain ⟨name', hname'⟩ := hstored row' hrow'
      have hids : row'.chartId = row.chartId := by
        rw [hid', hname.chartId, beq_iff_eq.mp heq]
        rfl
      have hlist := hids
      rw [hname'.chartId, hname.chartId] at hlist
      have hlist := congrArg String.toList (Option.some.inj hlist)
      simp only [String.toList_append, List.append_assoc] at hlist
      obtain ⟨hrepo, _⟩ := append_cons_inj (slash_not_mem_validName hname'.repo_valid)
        (slash_not_mem_validName hname.repo_valid) hlist
      have hne : row'.chartId ≠ none := by
        rw [hid']
        exact Option.some_ne_none id
      exact m.charts.unique row' hrow' row hrow (String.toList_inj.mp hrepo) hns hids hne
    · rintro rfl
      exact ⟨hrow, rfl, _, hname.chartId, beq_self_eq_true _⟩
  unfold AssetManager.getChart withText
  rw [ofBytes?_bytes, hid]
  show queryWithFallback _ _ _ _ _ _ = _
  unfold queryWithFallback
  rw [queryOne_of_unique (zero_not_mem_ns hname.ns_valid) hzero honly]

/-- A user sees a stored chart in some response exactly if the chart is of the namespace of Kubeapps
    or she may read its namespace on some cluster for which she has a client. The cluster is any
    that is configured. -/
theorem chart_visible_iff (env : AuthEnv) (m : AssetManager) (d : Dialect) (isNil : String → Bool)
    (hrbac : env.Rbac) (hreads : m.pg.ReadsWhere d isNil) (hstored : AllStored m.charts)
    (hkubeapps : ValidNamespace env.kubeappsNamespace)
    (hsame : m.kubeappsNamespace = env.kubeappsNamespace) (authorization : String) (row : ChartRow)
    (hrow : row ∈ m.charts.rows) (hversions : hasVersions row.info = true) :
    (∃ endpoint req response, req.authorization = authorization ∧
      env.handle m endpoint req = .ok response ∧ row.info ∈ response.charts) ↔
    ∃ cluster config, cluster ≠ "" ∧ env.Client authorization cluster config ∧
      (row.repoNamespace = env.kubeappsNamespace ∨
        env.canI config (bytes row.repoNamespace) = .ok true) := by
  obtain ⟨name, hname⟩ := hstored row hrow
  constructor
  · rintro ⟨endpoint, req, response, rfl, hhandle, hmem⟩
    obtain ⟨config, hclient, hmay⟩ := gated_namespaces env m d isNil hrbac hreads hstored hkubeapps
      hsame endpoint req response hhandle
    refine ⟨req.cluster, config, req.cluster_ne, hclient, ?_⟩
    rw [← hname.info_ns]
    exact hmay _ (mem_namespaces_of_mem_charts hmem)
  · rintro ⟨cluster, config, hne, hclient, hmay⟩
    let req : GatedRequest := {
      authorization := authorization, cluster := cluster, cluster_ne := hne
      params := ⟨bytes row.repoNamespace, bytes row.repoName, bytes (pathEscape name), []⟩ }
    have hgate : env.authGate req = .ok () := authGate_of_client hclient rfl hname.ns_valid hmay
    have hparams : extractDecodedParams req.params =
        some (bytes row.repoNamespace, bytes row.repoName, []) := by
      unfold extractDecodedParams
      rw [unescape_validNamespace hname.ns_valid, unescape_validName hname.repo_valid]
      rfl
    have hserve : m.serve .getChart req.params = .chart row.info := by
      unfold AssetManager.serve
      rw [hparams]
      show AssetManager.chartHandler _ (m.getChart _ _) _ = _
      rw [getChart_of_stored hstored hrow hname]
      show AssetManager.respondChart row.info = _
      unfold AssetManager.respondChart
      rw [if_pos hversions]
    refine ⟨.getChart, req, .chart row.info, rfl, ?_, List.mem_singleton_self _⟩
    unfold AuthEnv.handle
    rw [hgate]
    exact congrArg Except.ok hserve

end Visible

/-! ## A user who may read one namespace -/

/-- A database that knows the queries for a namespace. -/
def teamPostgres : Postgres := { anyPostgres with
  where_ := fun text params =>
    match params with
    | [ns, other] =>
        if text = "WHERE (repo_namespace = $1 OR repo_namespace = $2)" ∧ ns ≠ "_all" then
          .ok fun row => decide (row.repoNamespace = ns ∨ row.repoNamespace = other)
        else .error "syntax error"
    | _ => .error "syntax error" }

theorem generateWhereClause_ns {ns : String} (other : String) (hns : ns ≠ "_all") :
    generateWhereClause other ⟨ns, "", "", "", "", [], []⟩ =
      ("WHERE (repo_namespace = $1 OR repo_namespace = $2)", [ns, other]) := by
  have htext : "WHERE " ++ ("(repo_namespace = " ++ param 1 ++ " OR repo_namespace = " ++
      param 2 ++ ")") = "WHERE (repo_namespace = $1 OR repo_namespace = $2)" := by decide
  simp [generateWhereClause, addValueClauses, valueClauses, hns, htext]

theorem readsWhere_team (d : Dialect) (isNil : String → Bool) :
    teamPostgres.ReadsWhere d isNil := by
  intro text params cond select hread hwhere row
  unfold teamPostgres at hwhere
  dsimp only at hwhere
  split at hwhere
  · rename_i ns other
    split at hwhere
    · rename_i hcond
      obtain ⟨htext, hns⟩ := hcond
      obtain ⟨cond', hread', hselected⟩ := exists_readWhere other ⟨ns, "", "", "", "", [], []⟩
      rw [generateWhereClause_ns other hns] at hread' hselected
      rw [htext] at hread
      obtain rfl := Option.some.inj (hread.symm.trans hread')
      rw [← Except.ok.inj hwhere, hselected, decide_eq_true_iff]
      simp [Selects, hns]
    · cases hwhere
  · cases hwhere

def teamManager : AssetManager where
  pg := teamPostgres
  charts := wordpressTable "stable"
  files := wordpressFiles
  kubeappsNamespace := "kubeapps"
  order := RowOrder.stable _
  pick := Pick.prefer (wordpressRow "stable")
  filesPick := FilesPick.prefer wordpressFilesRow

theorem allStored_team : AllStored teamManager.charts := by
  intro row hrow
  have hid : row.chartId ≠ none := by
    rw [List.mem_singleton.mp hrow]
    exact Option.some_ne_none _
  exact storedCharts_wordpress (by decide) row hrow hid

/-- One cluster, on which the token `alice` may read the namespace `team`. -/
def teamAuth : AuthEnv where
  inClusterConfig := .ok ⟨"https://kubernetes.default", "", "", .zero, []⟩
  newForConfig _ := none
  canI config ns := .ok (config.bearerToken = "alice" ∧ ns = bytes "team")
  clustersConfig := ⟨"default", "", fun cluster =>
    if cluster = "default" then some ⟨"", "", "", "", "", false, false⟩ else none⟩
  kubeappsNamespace := "kubeapps"

theorem rbac_team : teamAuth.Rbac := by
  constructor
  · intro config ns hall
    have hnil : ([] : Bytes) = bytes "team" := (of_decide_eq_true (Except.ok.inj hall)).2
    exact absurd hnil (by decide)
  · intro config ns hcan
    exact .inr ⟨"team", by decide, (of_decide_eq_true (Except.ok.inj hcan)).2⟩

theorem client_alice : teamAuth.Client "Bearer alice" "default"
    ⟨"https://kubernetes.default", "alice", "", TLSClientConfig.zero, []⟩ := by
  refine ⟨by decide, ?_⟩
  have htoken : extractToken "Bearer alice" = "alice" := by decide
  rw [htoken]
  rfl

/-- She sees the chart of her namespace. -/
theorem chart_visible_alice : ∃ endpoint req response, req.authorization = "Bearer alice" ∧
    teamAuth.handle teamManager endpoint req = .ok response ∧
      (wordpressRow "stable").info ∈ response.charts := by
  have hdialect : Dialect := ⟨fun _ => none, fun _ => "", fun _ _ => false, fun _ _ => false⟩
  exact (chart_visible_iff teamAuth teamManager hdialect (fun _ => false) rbac_team
    (readsWhere_team _ _) allStored_team (by decide) rfl "Bearer alice" (wordpressRow "stable")
    (List.mem_singleton_self _) rfl).mpr
      ⟨"default", _, by decide, client_alice, .inr (by decide)⟩

end Kubeapps.Kubeops
