/-
  Lists of packages in the helm plugin (cmd/kubeapps-apis/plugins/helm/packages/v1alpha1/server.go:
  GetAvailablePackageSummaries), and a client that walks over all pages.

  `Walk` is that client: it starts with an empty token and sends the next one until there is none.
  Every request is a query of its own, with an order of its own (`RowOrder`).

  `walk_lists_iff`: the walk lists every chart that matches once, in whatever orders the queries
  are answered, exactly if the query can be evaluated, the charts are valid, and no group of charts
  with names that compare equal goes over the end of a page. The pages of a walk are the `pages` of
  Paging.lean (`exists_walk`), so the last part is `pages_perm_iff`.
-/
import Kubeapps.Assetsvc.Charts
import Kubeapps.Lib.Go

namespace Kubeapps.HelmPlugin

open Kubeapps.Lib Kubeapps.Models Kubeapps.Assetsvc

/-! ## Errors and access -/

/-- The `codes` that the plugin uses. -/
inductive Code where
  | unimplemented
  | invalidArgument
  | internal
  | unauthenticated
  | failedPrecondition
  deriving DecidableEq, Repr

def Code.text : Code → String
  | .unimplemented => "Unimplemented"
  | .invalidArgument => "InvalidArgument"
  | .internal => "Internal"
  | .unauthenticated => "Unauthenticated"
  | .failedPrecondition => "FailedPrecondition"

/-- `status.Errorf`. -/
structure RpcError where
  code : Code
  msg : String
  deriving DecidableEq, Repr

/-- The error printed by `%v`. -/
def RpcError.text (err : RpcError) : String :=
  "rpc error: code = " ++ err.code.text ++ " desc = " ++ err.msg

/-- `Server`. `getClients` is the client of the user: its review of the access to the secrets of a
    namespace. `sprint` prints a chart. -/
structure Server where
  globalPackagingNamespace : String
  getClients : Except RpcError (String → Except String Bool)
  sprint : Chart → String

/-- `hasAccessToNamespace`. -/
def Server.hasAccessToNamespace (s : Server) (ns : String) : Except RpcError Unit :=
  if ns = s.globalPackagingNamespace then .ok ()
  else
    match s.getClients with
    | .error err => .error err
    | .ok review =>
        match review ns with
        | .error err =>
            .error ⟨.internal, "Unable to check if the user has access to the namespace: " ++ err⟩
        | .ok false =>
            .error ⟨.unauthenticated,
              "The current user has no access to the namespace " ++ ns.quote⟩
        | .ok true => .ok ()

/-! ## Summaries -/

/-- `isValidChart`: the error, if there is one. A stored chart always has a `Repo`. -/
def Server.invalid (s : Server) (chart : Chart) : Option RpcError :=
  let missing (field : String) : Option RpcError :=
    some ⟨.internal, "required field " ++ field ++ " not found on helm chart: " ++ s.sprint chart⟩
  if chart.name = "" then missing ".Name"
  else if chart.id = "" then missing ".ID"
  else if chart.chartVersions = [] then missing ".chart.ChartVersions[0]"
  else if ∃ v ∈ chart.chartVersions, v.version = "" then missing ".ChartVersions[i].Version"
  else if ∃ m ∈ chart.maintainers, m.name = "" then missing ".Maintainers[i].Name"
  else none

/-- `corev1.AvailablePackageReference`. The plugin is always this one. -/
structure AvailablePackageReference where
  contextNamespace : String
  identifier : String
  deriving DecidableEq, Repr

/-- `corev1.AvailablePackageSummary`. -/
structure AvailablePackageSummary where
  availablePackageRef : AvailablePackageReference
  displayName : String
  latestPkgVersion : String
  iconUrl : String
  shortDescription : String
  deriving DecidableEq, Repr

/-- `AvailablePackageSummaryFromChart`. -/
def Server.availablePackageSummaryFromChart (s : Server) (chart : Chart) :
    Except RpcError AvailablePackageSummary :=
  match s.invalid chart with
  | some err => .error ⟨.internal, "invalid chart: " ++ err.text⟩
  | none => .ok {
      availablePackageRef := ⟨chart.repo.ns, chart.id⟩
      displayName := chart.name
      latestPkgVersion := (chart.chartVersions.head?.map ChartVersion.version).getD ""
      iconUrl := chart.icon
      shortDescription := chart.description }

/-- `corev1.FilterOptions`. -/
structure FilterOptions where
  query : String
  categories : List String
  repositories : List String
  pkgVersion : String
  appVersion : String
  deriving DecidableEq, Repr

/-- `corev1.GetAvailablePackageSummariesRequest`. `context` is the cluster and the namespace; a
    message that is not there has the zero values of its fields. -/
structure SummariesRequest where
  context : Option (String × String)
  filterOptions : Option FilterOptions
  pageToken : String
  pageSize : Int32
  deriving DecidableEq

structure SummariesResponse where
  availablePackagesSummaries : List AvailablePackageSummary
  nextPageToken : String
  deriving DecidableEq, Repr

/-- `strconv.ParseUint(s, 10, 64)`. -/
def parseUint (s : String) : Except String Nat :=
  let cs := s.toList
  if cs ≠ [] ∧ cs.all Char.isDigit = true then
    if Nat.ofDigitChars 10 cs 0 < 2 ^ 64 then .ok (Nat.ofDigitChars 10 cs 0)
    else .error ("strconv.ParseUint: parsing " ++ s.quote ++ ": value out of range")
  else .error ("strconv.ParseUint: parsing " ++ s.quote ++ ": invalid syntax")

/-- `pageOffsetFromPageToken`. -/
def pageOffsetFromPageToken (pageToken : String) : Except String Int :=
  if pageToken = "" then .ok 1
  else (parseUint pageToken).map fun offset => toInt offset

/-- The query of a request in a namespace. -/
def SummariesRequest.chartQuery (request : SummariesRequest) (ns : String) : ChartQuery :=
  match request.filterOptions with
  | none => ⟨ns, "", "", "", "", [], []⟩
  | some options =>
      ⟨ns, "", options.pkgVersion, options.appVersion, options.query, options.repositories,
        options.categories⟩

/-- `GetAvailablePackageSummaries` up to the query: the rows of the page, and the page offset. -/
def Server.selectCharts (s : Server) (pg : Postgres) (table : ChartTable) (order : RowOrder pg)
    (request : SummariesRequest) : Except RpcError (List ChartRow × Int) :=
  let (cluster, ns) := request.context.getD ("", "")
  if cluster ≠ "" then
    .error ⟨.unimplemented, "Not supported yet: request.Context.Cluster: [" ++ cluster ++ "]"⟩
  else if ns = "" then
    .error ⟨.unimplemented,
      "Not supported yet: not including a namespace means that it returns everything a user can read"⟩
  else
    match s.hasAccessToNamespace ns with
    | .error err => .error err
    | .ok () =>
        match pageOffsetFromPageToken request.pageToken with
        | .error err =>
            .error ⟨.invalidArgument,
              "Unable to intepret page token " ++ request.pageToken.quote ++ ": " ++ err⟩
        | .ok pageOffset =>
            match getPaginatedChartListWithFilters pg table order s.globalPackagingNamespace
                (request.chartQuery ns) pageOffset request.pageSize.toInt with
            | .error err => .error ⟨.internal, "Unable to retrieve charts: " ++ err⟩
            | .ok (charts, _) => .ok (charts, pageOffset)

/-- One chart of the response. -/
def Server.responsePackage (s : Server) (row : ChartRow) : Except RpcError AvailablePackageSummary :=
  (s.availablePackageSummaryFromChart row.info).mapError fun err =>
    ⟨.internal, "Unable to parse chart to an AvailablePackageSummary: " ++ err.text⟩

/-- `GetAvailablePackageSummaries`. -/
def Server.getAvailablePackageSummaries (s : Server) (pg : Postgres) (table : ChartTable)
    (order : RowOrder pg) (request : SummariesRequest) : Except RpcError SummariesResponse := do
  let (charts, pageOffset) ← s.selectCharts pg table order request
  let responsePackages ← charts.mapM s.responsePackage
  let nextPageToken :=
    if request.pageSize.toInt > 0 ∧ (responsePackages.length : Int) = request.pageSize.toInt then
      toString (toInt (pageOffset + 1))
    else ""
  return ⟨responsePackages, nextPageToken⟩

/-! ## The walk over the pages -/

/-- The requests from the `k`-th one on, with the tokens that the answers give, up to the answer
    without a next token; and the rows that were listed. -/
inductive Walk (s : Server) (pg : Postgres) (table : ChartTable) (request : SummariesRequest)
    (orders : Nat → RowOrder pg) : Nat → String → List ChartRow → Prop where
  | last {k : Nat} {token : String} {rows : List ChartRow} {offset : Int}
      {response : SummariesResponse}
      (hrows : s.selectCharts pg table (orders k) { request with pageToken := token } =
        .ok (rows, offset))
      (hresponse : s.getAvailablePackageSummaries pg table (orders k)
        { request with pageToken := token } = .ok response)
      (hend : response.nextPageToken = "") : Walk s pg table request orders k token rows
  | next {k : Nat} {token : String} {rows rest : List ChartRow} {offset : Int}
      {response : SummariesResponse}
      (hrows : s.selectCharts pg table (orders k) { request with pageToken := token } =
        .ok (rows, offset))
      (hresponse : s.getAvailablePackageSummaries pg table (orders k)
        { request with pageToken := token } = .ok response)
      (hnext : response.nextPageToken ≠ "")
      (hrest : Walk s pg table request orders (k + 1) response.nextPageToken rest) :
      Walk s pg table request orders k token (rows ++ rest)

/-- The walk ends, and has listed every chart that matches once. -/
def ListsOnce (s : Server) (pg : Postgres) (table : ChartTable) (ns : String)
    (request : SummariesRequest) (orders : Nat → RowOrder pg) : Prop :=
  ∃ charts rows, matchingCharts pg table s.globalPackagingNamespace (request.chartQuery ns) =
      .ok charts ∧ Walk s pg table request orders 0 "" rows ∧ rows.Perm charts

/-- A request for a namespace to which the user has access. -/
structure Accepted (s : Server) (request : SummariesRequest) (ns : String) : Prop where
  context : request.context = some ("", ns)
  namespace_ne : ns ≠ ""
  access : s.hasAccessToNamespace ns = .ok ()

/-! ## Tokens -/

theorem parseUint_toString {n : Nat} (hn : n < 2 ^ 64) : parseUint (toString n) = .ok n := by
  have hlist : (toString n).toList = Nat.toDigits 10 n := by
    rw [Nat.toString_eq_repr, Nat.toList_repr]
  have hdigits : (Nat.toDigits 10 n).all Char.isDigit = true := by
    rw [List.all_eq_true]
    exact fun c hc => Nat.isDigit_of_mem_toDigits (by decide) (by decide) hc
  unfold parseUint
  dsimp only
  rw [hlist, if_pos ⟨Nat.toDigits_ne_nil, hdigits⟩, Nat.ofDigitChars_ten_toDigits, if_pos hn]

theorem toString_ne_empty (n : Nat) : toString n ≠ "" := by
  intro hempty
  have hlist := congrArg String.toList hempty
  rw [Nat.toString_eq_repr, Nat.toList_repr] at hlist
  exact Nat.toDigits_ne_nil hlist

theorem toInt_natCast {n : Nat} (hn : n < 2 ^ 62) : toInt n = n :=
  Int.bmod_eq_of_le (by omega) (by omega)

/-- The token for page `k`, counted from zero. -/
def pageToken (k : Nat) : String := if k = 0 then "" else toString (k + 1)

theorem pageOffset_pageToken {k : Nat} (hk : k + 1 < 2 ^ 62) :
    pageOffsetFromPageToken (pageToken k) = .ok (k + 1 : Nat) := by
  unfold pageOffsetFromPageToken pageToken
  by_cases hzero : k = 0
  · rw [if_pos hzero, if_pos rfl, hzero]
    rfl
  · rw [if_neg hzero, if_neg (toString_ne_empty (k + 1)), parseUint_toString (by omega)]
    exact congrArg Except.ok (toInt_natCast hk)

/-! ## One request -/

section Request

variable {s : Server} {pg : Postgres} {table : ChartTable} {request : SummariesRequest} {ns : String}
  {charts : List ChartRow} {order : RowOrder pg}

theorem selectCharts_eq (hrequest : Accepted s request ns) {token : String} {offset : Int}
    (hoffset : pageOffsetFromPageToken token = .ok offset) :
    s.selectCharts pg table order { request with pageToken := token } =
      match getPaginatedChartListWithFilters pg table order s.globalPackagingNamespace
          (request.chartQuery ns) offset request.pageSize.toInt with
      | .error err => .error ⟨.internal, "Unable to retrieve charts: " ++ err⟩
      | .ok (rows, _) => .ok (rows, offset) := by
  unfold Server.selectCharts
  rw [hrequest.context]
  simp only [Option.getD_some, ne_eq, not_true_eq_false, if_false, if_neg hrequest.namespace_ne,
    hrequest.access, hoffset]
  rfl

/-- A request for page `k` selects page `k`. -/
theorem selectCharts_page (order : RowOrder pg) (hrequest : Accepted s request ns) {size k : Nat}
    (hsize : request.pageSize.toInt = size) (hpos : 0 < size)
    (hcharts : matchingCharts pg table s.globalPackagingNamespace (request.chartQuery ns) =
      .ok charts) (hk : k * size ≤ charts.length) :
    s.selectCharts pg table order { request with pageToken := pageToken k } =
      .ok (page size k (order.sort charts), (k + 1 : Nat)) := by
  have hlen : charts.length ≤ 2 ^ 31 :=
    (matchingCharts_sublist hcharts).length_le.trans table.length_le
  have hle : k ≤ k * size := Nat.le_mul_of_pos_right k hpos
  rw [selectCharts_eq hrequest (pageOffset_pageToken (k := k) (by omega)), hsize,
    getPaginatedChartList_page order hpos (by omega) hcharts]

theorem responsePackage_isOk (s : Server) (row : ChartRow) :
    s.invalid row.info = none ↔ ∃ pkg, s.responsePackage row = .ok pkg := by
  unfold Server.responsePackage Server.availablePackageSummaryFromChart
  cases s.invalid row.info with
  | none => exact ⟨fun _ => ⟨_, rfl⟩, fun _ => rfl⟩
  | some err =>
      constructor
      · intro hnone
        cases hnone
      · rintro ⟨pkg, hpkg⟩
        cases hpkg

/-- The charts of a page are valid exactly if all can be converted. -/
theorem mapM_responsePackage (s : Server) (rows : List ChartRow) :
    (∀ row ∈ rows, s.invalid row.info = none) ↔
      ∃ pkgs, rows.mapM s.responsePackage = .ok pkgs := by
  induction rows with
  | nil => exact ⟨fun _ => ⟨[], rfl⟩, fun _ row hrow => by cases hrow⟩
  | cons row rows ih =>
      rw [List.forall_mem_cons, ih, List.mapM_cons, responsePackage_isOk]
      constructor
      · rintro ⟨⟨pkg, hpkg⟩, pkgs, hpkgs⟩
        refine ⟨pkg :: pkgs, ?_⟩
        rw [hpkg, hpkgs]
        rfl
      · rintro ⟨pkgs, hpkgs⟩
        obtain ⟨pkg, hpkg, hrest⟩ := bind_eq_ok hpkgs
        obtain ⟨pkgs', hpkgs', _⟩ := bind_eq_ok hrest
        exact ⟨⟨pkg, hpkg⟩, pkgs', hpkgs'⟩

theorem length_mapM_ok {ε α γ : Type} {f : α → Except ε γ} {xs : List α} {ys : List γ}
    (h : xs.mapM f = .ok ys) : ys.length = xs.length := by
  induction xs generalizing ys with
  | nil =>
      rw [← Except.ok.inj h]
      rfl
  | cons x xs ih =>
      rw [List.mapM_cons] at h
      obtain ⟨y, _, hrest⟩ := bind_eq_ok h
      obtain ⟨ys', hys', hret⟩ := bind_eq_ok hrest
      rw [← Except.ok.inj hret, List.length_cons, List.length_cons, ih hys']

/-- An answer has a next token exactly if its page is full, that of the next page. -/
theorem response_page (order : RowOrder pg) (hrequest : Accepted s request ns) {size k : Nat}
    (hsize : request.pageSize.toInt = size) (hpos : 0 < size)
    (hcharts : matchingCharts pg table s.globalPackagingNamespace (request.chartQuery ns) =
      .ok charts) (hk : k * size ≤ charts.length)
    (hvalid : ∀ row ∈ charts, s.invalid row.info = none) :
    ∃ response, s.getAvailablePackageSummaries pg table order
        { request with pageToken := pageToken k } = .ok response ∧
      response.nextPageToken =
        if charts.length < k * size + size then "" else pageToken (k + 1) := by
  have hrows := selectCharts_page order hrequest hsize hpos hcharts hk
  have hperm := (order.isOrder charts).perm
  have hvalid' : ∀ row ∈ page size k (order.sort charts), s.invalid row.info = none := by
    intro row hrow
    exact hvalid row (hperm.mem_iff.mp (List.mem_of_mem_drop (List.mem_of_mem_take hrow)))
  obtain ⟨pkgs, hpkgs⟩ := (mapM_responsePackage s _).mp hvalid'
  have hlen := length_mapM_ok hpkgs
  rw [length_page, hperm.length_eq] at hlen
  unfold Server.getAvailablePackageSummaries
  rw [hrows]
  simp only [bind, Except.bind, hpkgs, hsize]
  refine ⟨_, rfl, ?_⟩
  dsimp only
  by_cases hfull : charts.length < k * size + size
  · rw [if_pos hfull, if_neg (by omega)]
  · have hbound : charts.length ≤ 2 ^ 31 :=
      (matchingCharts_sublist hcharts).length_le.trans table.length_le
    have hle : k ≤ k * size := Nat.le_mul_of_pos_right k hpos
    have htoken : toInt (((k + 1 : Nat) : Int) + 1) = ((k + 1 + 1 : Nat) : Int) :=
      toInt_natCast (n := k + 1 + 1) (by omega)
    rw [if_neg hfull, if_pos ⟨by omega, by omega⟩, htoken]
    rfl

end Request

/-! ## All requests -/

section Walk

variable {s : Server} {pg : Postgres} {table : ChartTable} {request : SummariesRequest} {ns : String}
  {charts : List ChartRow} {orders : Nat → RowOrder pg}

/-- From page `k` on a walk lists `n` pages, where page `k + n` is the first that is not full. -/
theorem exists_walk_from (orders : Nat → RowOrder pg) (hrequest : Accepted s request ns) {size : Nat}
    (hsize : request.pageSize.toInt = size) (hpos : 0 < size)
    (hcharts : matchingCharts pg table s.globalPackagingNamespace (request.chartQuery ns) =
      .ok charts) (hvalid : ∀ row ∈ charts, s.invalid row.info = none) (n k : Nat)
    (hlow : (k + n) * size ≤ charts.length) (hhigh : charts.length < (k + n) * size + size) :
    Walk s pg table request orders k (pageToken k)
      ((List.range' k (n + 1)).flatMap fun j => page size j ((orders j).sort charts)) := by
  induction n generalizing k with
  | zero =>
      obtain ⟨response, hresponse, htoken⟩ :=
        response_page (orders k) hrequest hsize hpos hcharts hlow hvalid
      rw [if_pos hhigh] at htoken
      have hlast := Walk.last (selectCharts_page _ hrequest hsize hpos hcharts hlow) hresponse htoken
      simpa using hlast
  | succ n ih =>
      have hmul : (k + (n + 1)) * size = k * size + size + n * size := by
        simp only [Nat.add_mul, Nat.one_mul]
        omega
      have hmul' : (k + 1 + n) * size = k * size + size + n * size := by
        simp only [Nat.add_mul, Nat.one_mul]
      have hk : k * size ≤ charts.length := by omega
      obtain ⟨response, hresponse, htoken⟩ :=
        response_page (orders k) hrequest hsize hpos hcharts hk hvalid
      rw [if_neg (by omega)] at htoken
      have hrest := ih (k + 1) (by omega) (by omega)
      rw [← htoken] at hrest
      have hne : response.nextPageToken ≠ "" := by
        rw [htoken, pageToken, if_neg (Nat.succ_ne_zero k)]
        exact toString_ne_empty _
      rw [List.range'_succ, List.flatMap_cons]
      exact Walk.next (selectCharts_page _ hrequest hsize hpos hcharts hk) hresponse hne hrest

/-- With valid charts a walk ends, and its rows are those of the pages. -/
theorem exists_walk (orders : Nat → RowOrder pg) (hrequest : Accepted s request ns) {size : Nat}
    (hsize : request.pageSize.toInt = size) (hpos : 0 < size)
    (hcharts : matchingCharts pg table s.globalPackagingNamespace (request.chartQuery ns) =
      .ok charts) (hvalid : ∀ row ∈ charts, s.invalid row.info = none) :
    Walk s pg table request orders 0 ""
      (pages size (fun k => (orders k).sort charts) (charts.length / size + 1)) := by
  have hdiv := Nat.div_add_mod' charts.length size
  have hmod := Nat.mod_lt charts.length hpos
  have hwalk := exists_walk_from orders hrequest hsize hpos hcharts hvalid
    (charts.length / size) 0 (by rw [Nat.zero_add]; omega) (by rw [Nat.zero_add]; omega)
  unfold pages
  rw [List.range_eq_range']
  exact hwalk

/-- The answers decide the walk. -/
theorem Walk.unique {k : Nat} {token : String} {rows rows' : List ChartRow}
    (h : Walk s pg table request orders k token rows)
    (h' : Walk s pg table request orders k token rows') : rows = rows' := by
  induction h generalizing rows' with
  | last hrows hresponse hend =>
      cases h' with
      | last hrows' _ _ => exact (Prod.ext_iff.mp (Except.ok.inj (hrows.symm.trans hrows'))).1
      | next _ hresponse' hnext _ =>
          rw [Except.ok.inj (hresponse.symm.trans hresponse')] at hend
          exact absurd hend hnext
  | next hrows hresponse hnext _ ih =>
      cases h' with
      | last _ hresponse' hend =>
          rw [Except.ok.inj (hresponse.symm.trans hresponse')] at hnext
          exact absurd hend hnext
      | next hrows' hresponse' _ hrest' =>
          rw [← Except.ok.inj (hresponse.symm.trans hresponse')] at hrest'
          have hsame := (Prod.ext_iff.mp (Except.ok.inj (hrows.symm.trans hrows'))).1
          exact congrArg₂ _ hsame (ih hrest')

theorem valid_of_response {order : RowOrder pg} {token : String} {rows : List ChartRow}
    {offset : Int} {response : SummariesResponse}
    (hrows : s.selectCharts pg table order { request with pageToken := token } = .ok (rows, offset))
    (hresponse : s.getAvailablePackageSummaries pg table order { request with pageToken := token } =
      .ok response) : ∀ row ∈ rows, s.invalid row.info = none := by
  unfold Server.getAvailablePackageSummaries at hresponse
  obtain ⟨⟨rows', offset'⟩, hrows', hresponse⟩ := bind_eq_ok hresponse
  obtain ⟨pkgs, hpkgs, _⟩ := bind_eq_ok hresponse
  have hsame : rows' = rows := (Prod.ext_iff.mp (Except.ok.inj (hrows'.symm.trans hrows))).1
  rw [hsame] at hpkgs
  exact (mapM_responsePackage s rows).mpr ⟨pkgs, hpkgs⟩

/-- What a walk has listed is valid. -/
theorem Walk.valid {k : Nat} {token : String} {rows : List ChartRow}
    (h : Walk s pg table request orders k token rows) : ∀ row ∈ rows, s.invalid row.info = none := by
  induction h with
  | last hrows hresponse _ => exact valid_of_response hrows hresponse
  | next hrows hresponse _ _ ih =>
      intro row hrow
      rcases List.mem_append.mp hrow with hrow | hrow
      · exact valid_of_response hrows hresponse row hrow
      · exact ih row hrow

end Walk

/-- Every walk lists every chart that matches once exactly if the query can be evaluated, the charts
    are valid, and no group of charts with names that compare equal goes over the end of a page. -/
theorem walk_lists_iff (s : Server) (pg : Postgres) (table : ChartTable)
    (request : SummariesRequest) (ns : String) (hrequest : Accepted s request ns) (size : Nat)
    (hsize : request.pageSize.toInt = size) (hpos : 0 < size) :
    (∀ orders : Nat → RowOrder pg, ListsOnce s pg table ns request orders) ↔
      ∃ charts, matchingCharts pg table s.globalPackagingNamespace (request.chartQuery ns) =
          .ok charts ∧
        (∀ row ∈ charts, s.invalid row.info = none) ∧
        ∀ k, ∀ row ∈ charts, ¬ Straddles pg.NameLe charts (k * size) row := by
  have hiff : ∀ charts, matchingCharts pg table s.globalPackagingNamespace
        (request.chartQuery ns) = .ok charts →
      ((∀ orders : Nat → List ChartRow, (∀ k, IsOrder pg.NameLe charts (orders k)) →
        (pages size orders (charts.length / size + 1)).Perm charts) ↔
      ∀ k, ∀ row ∈ charts, ¬ Straddles pg.NameLe charts (k * size) row) := by
    intro charts hcharts
    have hdiv := Nat.div_add_mod' charts.length size
    have hmod := Nat.mod_lt charts.length hpos
    apply pages_perm_iff
    · exact fun a b => pg.le_total a.info.name b.info.name
    · exact fun a b c => pg.le_trans a.info.name b.info.name c.info.name
    · exact (matchingCharts_sublist hcharts).nodup table.nodup
    · exact hpos
    · rw [Nat.add_mul]
      omega
  constructor
  · intro hall
    obtain ⟨charts, rows, hcharts, hwalk, hperm⟩ := hall fun _ => RowOrder.stable pg
    have hvalid : ∀ row ∈ charts, s.invalid row.info = none := fun row hrow =>
      hwalk.valid row (hperm.mem_iff.mpr hrow)
    refine ⟨charts, hcharts, hvalid, (hiff charts hcharts).mp fun orders horders => ?_⟩
    obtain ⟨charts', rows', hcharts', hwalk', hperm'⟩ :=
      hall fun k => RowOrder.ofList (horders k)
    have hsame : charts' = charts := Except.ok.inj (hcharts'.symm.trans hcharts)
    have hpages := hwalk'.unique (exists_walk _ hrequest hsize hpos hcharts hvalid)
    simp only [RowOrder.ofList_sort] at hpages
    rw [hpages, hsame] at hperm'
    exact hperm'
  · rintro ⟨charts, hcharts, hvalid, hno⟩ orders
    exact ⟨charts, _, hcharts, exists_walk _ hrequest hsize hpos hcharts hvalid,
      (hiff charts hcharts).mpr hno _ fun k => (orders k).isOrder charts⟩

/-! ### Two repositories with a chart of one name -/

/-- A database that knows the queries for a namespace, and orders names by their characters. -/
def namespaceQueries : Postgres where
  where_ whereQuery params :=
    if whereQuery = "WHERE (repo_namespace = $1 OR repo_namespace = $2)" then
      .ok fun row => decide (row.repoNamespace ∈ params)
    else .error "syntax error"
  le a b := decide (a ≤ b)
  le_total a b := by simpa using String.le_total a b
  le_trans a b c := by simpa using String.le_trans (a := a) (b := b) (c := c)
  foldCase := Char.toLower

/-- The chart of this name in the repository `repoName` of the namespace `team`. -/
def teamRow (id : Nat) (repoName chartName : String) : ChartRow where
  id := id
  repoName := repoName
  repoNamespace := "team"
  chartId := some (repoName ++ "/" ++ chartName)
  info := {
    id := repoName ++ "/" ++ chartName, name := chartName
    repo := ⟨"team", repoName, "https://charts.example.com", "helm"⟩
    description := "", home := "", keywords := [], maintainers := [], sources := [], icon := ""
    rawIcon := "", iconContentType := "", category := ""
    chartVersions := [⟨"1.0.0", "1.0.0", "", "", [], "", "", ""⟩] }

/-- Both repositories have `nginx`. -/
def twoNginx : ChartTable where
  rows := [teamRow 1 "bitnami" "nginx", teamRow 2 "mirror" "nginx"]
  serial := by decide
  primaryKey := by decide
  unique := by decide

def teamServer : Server where
  globalPackagingNamespace := "kubeapps"
  getClients := .ok fun ns => .ok (ns = "team")
  sprint chart := chart.id

def teamRequest (pageSize : Int32) : SummariesRequest where
  context := some ("", "team")
  filterOptions := none
  pageToken := ""
  pageSize := pageSize

theorem accepted_teamRequest (pageSize : Int32) :
    Accepted teamServer (teamRequest pageSize) "team" := ⟨rfl, by decide, rfl⟩

theorem matchingCharts_twoNginx (pageSize : Int32) :
    matchingCharts namespaceQueries twoNginx teamServer.globalPackagingNamespace
      ((teamRequest pageSize).chartQuery "team") = .ok twoNginx.rows := by
  show matchingCharts namespaceQueries twoNginx "kubeapps" ⟨"team", "", "", "", "", [], []⟩ = _
  decide

theorem isOrder_twoNginx : IsOrder namespaceQueries.NameLe twoNginx.rows twoNginx.rows :=
  ⟨List.Perm.refl _, by decide⟩

/-- On one page both are listed. -/
theorem walk_lists_twoNginx : ListsOnce teamServer namespaceQueries twoNginx "team" (teamRequest 2)
    fun _ => .ofList isOrder_twoNginx := by
  refine (walk_lists_iff teamServer namespaceQueries twoNginx (teamRequest 2) "team"
    (accepted_teamRequest 2) 2 (by decide) (by decide)).mpr
      ⟨twoNginx.rows, matchingCharts_twoNginx 2, by decide, fun k row hrow => ?_⟩ _
  have hgroup : ∀ row ∈ twoNginx.rows, below namespaceQueries.NameLe twoNginx.rows row = 0 ∧
      upTo namespaceQueries.NameLe twoNginx.rows row = 2 := by decide
  unfold Straddles
  rw [(hgroup row hrow).1, (hgroup row hrow).2]
  omega

theorem isOrder_twoNginx_reverse :
    IsOrder namespaceQueries.NameLe twoNginx.rows twoNginx.rows.reverse :=
  ⟨List.reverse_perm _, by decide⟩

/-- The second query puts the two the other way round. -/
def nginxOrders (k : Nat) : RowOrder namespaceQueries :=
  if k = 1 then .ofList isOrder_twoNginx_reverse else .ofList isOrder_twoNginx

/-- On two pages one `nginx` is listed twice and the other one never. -/
theorem walk_repeats_nginx :
    Walk teamServer namespaceQueries twoNginx (teamRequest 1) nginxOrders 0 ""
        [teamRow 1 "bitnami" "nginx", teamRow 1 "bitnami" "nginx"] ∧
      ¬ ListsOnce teamServer namespaceQueries twoNginx "team" (teamRequest 1) nginxOrders := by
  have hwalk := exists_walk nginxOrders (accepted_teamRequest 1)
    (show (teamRequest 1).pageSize.toInt = (1 : Nat) by decide) (by decide) (matchingCharts_twoNginx 1) (by decide)
  have hpages : pages 1 (fun k => (nginxOrders k).sort twoNginx.rows)
      (twoNginx.rows.length / 1 + 1) =
        [teamRow 1 "bitnami" "nginx", teamRow 1 "bitnami" "nginx"] := by decide
  rw [hpages] at hwalk
  refine ⟨hwalk, ?_⟩
  rintro ⟨charts, rows, hcharts, hrows, hperm⟩
  have hsame := Except.ok.inj (hcharts.symm.trans (matchingCharts_twoNginx 1))
  rw [← hwalk.unique hrows, hsame] at hperm
  exact absurd hperm (by decide)

end Kubeapps.HelmPlugin
