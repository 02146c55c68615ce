/-
  One package in the helm plugin (cmd/kubeapps-apis/plugins/helm/packages/v1alpha1/server.go:
  GetAvailablePackageDetail, GetAvailablePackageVersions).

  A chart is stored under the id `repo/PathEscape(name)` (pkg/helm/index.go: newChart), and
  getUnescapedChartID reads the id with `QueryUnescape`: what is looked for is the name itself,
  with blanks for its plus signs (`getUnescapedChartID_stored`). That is the stored id only if the
  name has nothing to escape and no plus; else the fallback of GetChart has to find the chart.

  `summary_resolves_iff`: the reference in the summary of a chart leads both calls back to the
  chart, whatever rows the database picks, exactly if the name is plain or the fallback finds this
  chart and no other (`FoundByFallback`).
-/
import Kubeapps.Assetsvc.GetChart
import Kubeapps.Helm.Index
import Kubeapps.HelmPlugin.Summaries

namespace Kubeapps.HelmPlugin

open Kubeapps.Lib Kubeapps.Models Kubeapps.Assetsvc

/-! ## The calls -/

/-- `corev1.AvailablePackageReference` of a request: the cluster and the namespace, and the id. -/
structure PackageRef where
  context : Option (String × String)
  identifier : String
  deriving DecidableEq, Repr

/-- `corev1.GetAvailablePackageDetailRequest`. -/
structure DetailRequest where
  availablePackageRef : Option PackageRef
  pkgVersion : String
  deriving DecidableEq, Repr

/-- `corev1.GetAvailablePackageVersionsRequest`, what is read of it. -/
structure VersionsRequest where
  availablePackageRef : Option PackageRef
  deriving DecidableEq, Repr

/-- `getUnescapedChartID`. -/
def getUnescapedChartID (chartID : String) : Except RpcError Bytes :=
  match unescape .queryComponent (bytes chartID) with
  | none => .error ⟨.internal, "Unable to decode chart ID chart: " ++ chartID⟩
  | some unescapedChartID =>
      if (unescapedChartID.splitOn (ascii '/')).length ≠ 2 then
        .error ⟨.invalidArgument, "Incorrect request.AvailablePackageRef.Identifier, " ++
          "currently just 'foo/bar' patters are supported: " ++ chartID⟩
      else .ok unescapedChartID

/-- `corev1.AvailablePackageDetail`, the fields that are set. -/
structure AvailablePackageDetail where
  availablePackageRef : AvailablePackageReference
  name : String
  displayName : String
  iconUrl : String
  shortDescription : String
  maintainers : List (String × String)
  pkgVersion : String
  appVersion : String
  readme : String
  defaultValues : String
  valuesSchema : String
  deriving DecidableEq, Repr

/-- `AvailablePackageDetailFromChart`. -/
def Server.availablePackageDetailFromChart (s : Server) (chart : Chart) :
    Except RpcError AvailablePackageDetail :=
  match s.invalid chart with
  | some err => .error ⟨.internal, "invalid chart: " ++ err.text⟩
  | none =>
      let first (field : ChartVersion → String) : String :=
        (chart.chartVersions.head?.map field).getD ""
      .ok {
        availablePackageRef := ⟨chart.repo.ns, chart.id⟩
        name := chart.name
        displayName := chart.name
        iconUrl := chart.icon
        shortDescription := chart.description
        maintainers := chart.maintainers.map fun m => (m.name, m.email)
        pkgVersion := first ChartVersion.version
        appVersion := first ChartVersion.appVersion
        readme := first ChartVersion.readme
        defaultValues := first ChartVersion.values
        valuesSchema := first ChartVersion.schema }

/-- `GetAvailablePackageDetail`. -/
def Server.getAvailablePackageDetail (s : Server) (pg : Postgres) (table : ChartTable)
    (pick : Pick) (request : DetailRequest) : Except RpcError AvailablePackageDetail :=
  match request.availablePackageRef with
  | some ⟨some (_, ns), identifier⟩ => do
      s.hasAccessToNamespace ns
      let unescapedChartID ← getUnescapedChartID identifier
      let chart ← (if request.pkgVersion = "" then getChart pg table pick ns unescapedChartID
        else getChartVersion pg table pick ns unescapedChartID request.pkgVersion).mapError
          fun err => ⟨.internal, "Unable to retrieve chart: " ++ err⟩
      (s.availablePackageDetailFromChart chart).mapError fun err =>
        ⟨.internal, "Unable to parse chart to an availablePackageDetail: " ++ err.text⟩
  | _ => .error ⟨.invalidArgument, "No request AvailablePackageRef.Context provided"⟩

/-- The numbers of a `semver.Version`. -/
structure VersionNumbers where
  major : Int
  minor : Int
  patch : Int
  deriving DecidableEq, Repr

def majorVersionsInSummary : Nat := 3
def minorVersionsInSummary : Nat := 3
def patchVersionsInSummary : Nat := 3

structure PackageAppVersion where
  pkgVersion : String
  appVersion : String
  deriving DecidableEq, Repr

/-- Whether there is room for one more version. `version_map` is the list of those included. -/
def hasRoom (versionMap : List VersionNumbers) (v : VersionNumbers) : Bool :=
  let ofMajor := versionMap.filter fun w => w.major = v.major
  let ofMinor := ofMajor.filter fun w => w.minor = v.minor
  if ofMajor = [] then (versionMap.map VersionNumbers.major).dedup.length < majorVersionsInSummary
  else if ofMinor = [] then
    (ofMajor.map VersionNumbers.minor).dedup.length < minorVersionsInSummary
  else ofMinor.length < patchVersionsInSummary

/-- The loop of `packageAppVersionsSummary`. -/
def summaryLoop (newVersion : String → Option VersionNumbers) :
    List VersionNumbers → List ChartVersion → List PackageAppVersion
  | _, [] => []
  | versionMap, v :: versions =>
      match newVersion v.version with
      | none => summaryLoop newVersion versionMap versions
      | some version =>
          if hasRoom versionMap version then
            ⟨v.version, v.appVersion⟩ :: summaryLoop newVersion (version :: versionMap) versions
          else summaryLoop newVersion versionMap versions

/-- `packageAppVersionsSummary`, with `semver.NewVersion`. -/
def packageAppVersionsSummary (newVersion : String → Option VersionNumbers)
    (versions : List ChartVersion) : List PackageAppVersion :=
  summaryLoop newVersion [] versions

/-- `GetAvailablePackageVersions`. A message that is not there has the zero values of its fields. -/
def Server.getAvailablePackageVersions (s : Server) (pg : Postgres) (table : ChartTable)
    (pick : Pick) (newVersion : String → Option VersionNumbers) (request : VersionsRequest) :
    Except RpcError (List PackageAppVersion) := do
  let ref := request.availablePackageRef.getD ⟨none, ""⟩
  let (_, ns) := ref.context.getD ("", "")
  if ns = "" ∨ ref.identifier = "" then
    throw ⟨.invalidArgument, "Required context or identifier not provided"⟩
  s.hasAccessToNamespace ns
  let unescapedChartID ← getUnescapedChartID ref.identifier
  let chart ← (getChart pg table pick ns unescapedChartID).mapError fun err =>
    ⟨.internal, "Unable to retrieve chart: " ++ err⟩
  return packageAppVersionsSummary newVersion chart.chartVersions

/-! ## Stored charts -/

/-- A row as asset-syncer stores a chart of this name. -/
structure StoredAs (row : ChartRow) (name : String) : Prop where
  ns_valid : ValidNamespace row.repoNamespace
  repo_valid : ValidName row.repoName
  chartId : row.chartId = some row.info.id
  info_id : row.info.id = row.repoName ++ "/" ++ pathEscape name
  info_name : row.info.name = pathEscape name
  info_ns : row.info.repo.ns = row.repoNamespace

/-- The upsert of a chart that `newChart` has made writes such a row. -/
theorem storedAs_newChart {entry : Helm.Entry} {r : Repo} {shallow : Bool} {c : Chart}
    (h : Helm.newChart entry r shallow = .ok c) (hns : ValidNamespace r.ns)
    (hname : ValidName r.name) (id : Nat) :
    ∃ name, StoredAs ⟨id, r.name, r.ns, some c.id, c⟩ name := by
  obtain ⟨⟨m, hm⟩, hid, hrepo, _⟩ := Helm.newChart_id h
  rw [hm] at hid
  exact ⟨m.name, hns, hname, rfl, hid, hm, congrArg Repo.ns hrepo⟩

/-- All rows with an id are. -/
def Stored (table : ChartTable) : Prop :=
  ∀ row ∈ table.rows, row.chartId ≠ none → ∃ name, StoredAs row name

/-- The requests for a package reference. -/
def AvailablePackageReference.request (ref : AvailablePackageReference) (cluster : String) :
    PackageRef := ⟨some (cluster, ref.contextNamespace), ref.identifier⟩

/-- The chart as a request for a version shows it; no version is all of them. -/
def requestedChart (chart : Chart) (version : String) : Except String Chart :=
  if version = "" then .ok chart else keepVersion chart version

/-- The reference leads back to the chart, whatever rows the queries pick. -/
def Resolves (s : Server) (pg : Postgres) (table : ChartTable)
    (newVersion : String → Option VersionNumbers) (chart : Chart)
    (ref : AvailablePackageReference) : Prop :=
  ∀ (pick : Pick) (cluster : String),
    (∀ version chart', requestedChart chart version = .ok chart' →
      ∃ detail, s.availablePackageDetailFromChart chart' = .ok detail ∧
        s.getAvailablePackageDetail pg table pick ⟨some (ref.request cluster), version⟩ =
          .ok detail) ∧
    s.getAvailablePackageVersions pg table pick newVersion ⟨some (ref.request cluster)⟩ =
      .ok (packageAppVersionsSummary newVersion chart.chartVersions)

/-- The name has no character that is escaped, and no plus sign. -/
def PlainName (name : String) : Prop :=
  ∀ c ∈ name.toList, pathSegmentChar c = true ∧ c ≠ '+'

instance (name : String) : Decidable (PlainName name) :=
  List.decidableBAll (fun c => pathSegmentChar c = true ∧ c ≠ '+') name.toList

/-- The id as it is read. -/
def lookupID (row : ChartRow) (name : String) : String :=
  row.repoName ++ "/" ++ plusToSpaces name

/-- Its pattern. -/
def alikeID (row : ChartRow) (name : String) : String :=
  row.repoName ++ "%" ++ plusToSpaces name

/-- The id with the name as it is read is that of no chart, and its pattern matches this one
    only. -/
structure FoundByFallback (pg : Postgres) (table : ChartTable) (row : ChartRow) (name : String) :
    Prop where
  slash : '/' ∉ name.toList
  zero : Char.ofNat 0 ∉ name.toList
  not_exact : ∀ row', row' ∉ rowsWhere table (· == ·) row.repoNamespace (lookupID row name)
  alike : ∀ row', row' ∈ rowsWhere table pg.ilike row.repoNamespace (alikeID row name) ↔ row' = row

/-! ## The id that is looked for -/

theorem not_mem_validName {s : String} (h : ValidName s) {c : Char}
    (hc : (c.isLower || c.isDigit || c == '-') = false) (hdot : c ≠ '.') : c ∉ s.toList := by
  intro hmem
  rcases mem_validName h hmem with htrue | heq
  · rw [hc] at htrue
    exact Bool.noConfusion htrue
  · exact hdot heq

theorem not_mem_validNamespace {s : String} (h : ValidNamespace s) {c : Char}
    (hc : (c.isLower || c.isDigit || c == '-') = false) : c ∉ s.toList := by
  intro hmem
  have htrue := mem_validNamespace h hmem
  rw [hc] at htrue
  exact Bool.noConfusion htrue

theorem mem_plusToSpaces {s : String} {c : Char} (hplus : c ≠ '+') (hblank : c ≠ ' ') :
    c ∈ (plusToSpaces s).toList ↔ c ∈ s.toList := by
  unfold plusToSpaces
  rw [String.toList_ofList, List.mem_map]
  constructor
  · intro ⟨d, hd, heq⟩
    by_cases hd' : d = '+'
    · rw [if_pos hd'] at heq
      exact absurd heq.symm hblank
    · rw [if_neg hd'] at heq
      rw [← heq]
      exact hd
  · intro hc
    exact ⟨c, hc, if_neg hplus⟩

section Stored

variable {row : ChartRow} {name : String}

theorem bytes_lookupID (row : ChartRow) (name : String) :
    bytes (lookupID row name) =
      bytes row.repoName ++ ascii '/' :: bytes (plusToSpaces name) := by
  have hslash : bytes "/" = [ascii '/'] := by decide
  unfold lookupID
  rw [bytes_append, bytes_append, hslash, List.append_assoc, List.singleton_append]

theorem bytes_alikeID (row : ChartRow) (name : String) :
    bytes (alikeID row name) =
      bytes row.repoName ++ ascii '%' :: bytes (plusToSpaces name) := by
  have hpercent : bytes "%" = [ascii '%'] := by decide
  unfold alikeID
  rw [bytes_append, bytes_append, hpercent, List.append_assoc, List.singleton_append]

theorem splitOn_lookupID (hrow : StoredAs row name) :
    (bytes (lookupID row name)).splitOn (ascii '/') =
      bytes row.repoName :: (bytes (plusToSpaces name)).splitOn (ascii '/') := by
  have hrepo : ascii '/' ∉ bytes row.repoName := by
    rw [ascii_mem_bytes (by decide)]
    exact not_mem_validName hrow.repo_valid (by decide) (by decide)
  rw [bytes_lookupID, List.splitOn_append_cons_self_of_not_mem hrepo]

theorem ascii_slash_mem (name : String) :
    ascii '/' ∈ bytes (plusToSpaces name) ↔ '/' ∈ name.toList := by
  rw [ascii_mem_bytes (by decide), mem_plusToSpaces (by decide) (by decide)]

theorem unescape_stored (hrow : StoredAs row name) :
    unescape .queryComponent (bytes row.info.id) = some (bytes (lookupID row name)) := by
  have hplain : ∀ b ∈ bytes (row.repoName ++ "/"), b ≠ ascii '%' ∧ b ≠ ascii '+' := by
    have hnot : ∀ c : Char, c.toNat < 0x80 → (c.isLower || c.isDigit || c == '-') = false →
        c ≠ '.' → c ≠ '/' → ascii c ∉ bytes (row.repoName ++ "/") := by
      intro c hascii hc hdot hslash
      rw [ascii_mem_bytes hascii, String.toList_append, List.mem_append]
      intro hmem
      rcases hmem with hmem | hmem
      · exact not_mem_validName hrow.repo_valid hc hdot hmem
      · exact hslash (List.mem_singleton.mp hmem)
    intro b hb
    constructor
    · intro heq
      rw [heq] at hb
      exact hnot '%' (by decide) (by decide) (by decide) (by decide) hb
    · intro heq
      rw [heq] at hb
      exact hnot '+' (by decide) (by decide) (by decide) (by decide) hb
  rw [hrow.info_id, bytes_append, bytes_pathEscape, unescape_query_append hplain,
    unescape_query_segment, ← bytes_plusToSpaces, Option.map_some, ← bytes_append]
  rfl

/-- A name with a slash is refused; else the name is looked for as it is read. -/
theorem getUnescapedChartID_stored (hrow : StoredAs row name) :
    (('/' ∈ name.toList) → ∃ err, getUnescapedChartID row.info.id = .error err) ∧
      (('/' ∉ name.toList) → getUnescapedChartID row.info.id = .ok (bytes (lookupID row name))) := by
  unfold getUnescapedChartID
  rw [unescape_stored hrow]
  dsimp only
  rw [splitOn_lookupID hrow, List.length_cons]
  constructor
  · intro hslash
    obtain ⟨xs, ys, hsplit⟩ := List.append_of_mem ((ascii_slash_mem name).mpr hslash)
    have hxs := List.length_pos_iff.mpr (List.splitOn_ne_nil (ascii '/') xs)
    have hys := List.length_pos_iff.mpr (List.splitOn_ne_nil (ascii '/') ys)
    rw [hsplit, List.splitOn_append_cons_self, List.length_append, if_pos (by omega)]
    exact ⟨_, rfl⟩
  · intro hslash
    rw [List.splitOn_eq_singleton (mt (ascii_slash_mem name).mp hslash)]
    rfl

variable {pg : Postgres} {table : ChartTable} {pick : Pick}

/-- The two queries for a name without a slash. -/
theorem query_stored (hrow : StoredAs row name) (hslash : '/' ∉ name.toList) (ns : String) :
    queryWithFallback pg table pick ns (bytes (lookupID row name)) true =
      match queryOne table pick (· == ·) ns (bytes (lookupID row name)) with
      | .ok chart => .ok chart
      | .error _ => queryOne table pick pg.ilike ns (bytes (alikeID row name)) := by
  unfold queryWithFallback
  rw [splitOn_lookupID hrow, List.splitOn_eq_singleton (mt (ascii_slash_mem name).mp hslash),
    bytes_alikeID]
  rfl

end Stored

/-! ## From the calls to the query -/

theorem invalid_eq_none_iff {s : Server} {chart : Chart} :
    s.invalid chart = none ↔ chart.name ≠ "" ∧ chart.id ≠ "" ∧ chart.chartVersions ≠ [] ∧
      (∀ v ∈ chart.chartVersions, v.version ≠ "") ∧ ∀ m ∈ chart.maintainers, m.name ≠ "" := by
  unfold Server.invalid
  dsimp only
  split_ifs <;> simp_all

/-- A valid chart is valid with one of its versions. -/
theorem invalid_requestedChart {s : Server} {chart chart' : Chart} {version : String}
    (hvalid : s.invalid chart = none) (h : requestedChart chart version = .ok chart') :
    s.invalid chart' = none := by
  unfold requestedChart keepVersion at h
  by_cases hversion : version = ""
  · rw [if_pos hversion] at h
    rw [← Except.ok.inj h]
    exact hvalid
  · rw [if_neg hversion] at h
    cases hfind : chart.chartVersions.find? fun c => c.version = version with
    | none =>
        rw [hfind] at h
        exact absurd h (by simp)
    | some c =>
        rw [hfind] at h
        rw [← Except.ok.inj h]
        obtain ⟨hname, hid, _, hversions, hmaintainers⟩ := invalid_eq_none_iff.1 hvalid
        refine invalid_eq_none_iff.2 ⟨hname, hid, List.cons_ne_nil c [], ?_, hmaintainers⟩
        intro v hv
        rw [List.mem_singleton.mp hv]
        exact hversions c (List.mem_of_find?_eq_some hfind)

theorem detail_isOk {s : Server} {chart : Chart} (hvalid : s.invalid chart = none) :
    ∃ detail, s.availablePackageDetailFromChart chart = .ok detail := by
  unfold Server.availablePackageDetailFromChart
  rw [hvalid]
  exact ⟨_, rfl⟩

theorem detail_identifier {s : Server} {chart : Chart} {detail : AvailablePackageDetail}
    (h : s.availablePackageDetailFromChart chart = .ok detail) :
    detail.availablePackageRef.identifier = chart.id := by
  unfold Server.availablePackageDetailFromChart at h
  cases hvalid : s.invalid chart with
  | some err =>
      rw [hvalid] at h
      exact absurd h (by simp)
  | none =>
      rw [hvalid] at h
      rw [← Except.ok.inj h]

section Calls

variable {s : Server} {pg : Postgres} {table : ChartTable} {row : ChartRow} {name : String}
  {newVersion : String → Option VersionNumbers} {pkg : AvailablePackageSummary}

/-- The reference of a summary is the namespace and the id of the chart. -/
theorem summary_ref (hrow : StoredAs row name)
    (hpkg : s.availablePackageSummaryFromChart row.info = .ok pkg) :
    s.invalid row.info = none ∧ pkg.availablePackageRef = ⟨row.repoNamespace, row.info.id⟩ := by
  unfold Server.availablePackageSummaryFromChart at hpkg
  cases hvalid : s.invalid row.info with
  | some err =>
      rw [hvalid] at hpkg
      exact absurd hpkg (by simp)
  | none =>
      rw [hvalid] at hpkg
      rw [← Except.ok.inj hpkg, hrow.info_ns]
      exact ⟨rfl, rfl⟩

/-- What the call for the details does with a stored chart's reference. -/
theorem getAvailablePackageDetail_eq (haccess : s.hasAccessToNamespace row.repoNamespace = .ok ())
    (pick : Pick) (cluster version : String) :
    s.getAvailablePackageDetail pg table pick
        ⟨some (AvailablePackageReference.request ⟨row.repoNamespace, row.info.id⟩ cluster), version⟩ =
      (getUnescapedChartID row.info.id).bind fun id =>
        ((queryWithFallback pg table pick row.repoNamespace id true).bind
          fun chart => requestedChart chart version).mapError
            (fun err => ⟨.internal, "Unable to retrieve chart: " ++ err⟩) |>.bind fun chart =>
              (s.availablePackageDetailFromChart chart).mapError fun err =>
                ⟨.internal, "Unable to parse chart to an availablePackageDetail: " ++ err.text⟩ := by
  unfold Server.getAvailablePackageDetail AvailablePackageReference.request requestedChart
  dsimp only
  rw [haccess]
  show (getUnescapedChartID row.info.id).bind _ = _
  congr 1
  funext id
  by_cases hversion : version = ""
  · simp only [if_pos hversion]
    cases hquery : queryWithFallback pg table pick row.repoNamespace id true with
    | error err => simp only [getChart, getChartWithFallback, enableFallbackQueryMode, hquery]; rfl
    | ok chart => simp only [getChart, getChartWithFallback, enableFallbackQueryMode, hquery]; rfl
  · simp only [if_neg hversion]
    rfl

theorem getAvailablePackageVersions_eq (hrow : StoredAs row name)
    (haccess : s.hasAccessToNamespace row.repoNamespace = .ok ())
    (pick : Pick) (cluster : String) :
    s.getAvailablePackageVersions pg table pick newVersion
        ⟨some (AvailablePackageReference.request ⟨row.repoNamespace, row.info.id⟩ cluster)⟩ =
      (getUnescapedChartID row.info.id).bind fun id =>
        ((queryWithFallback pg table pick row.repoNamespace id true).mapError
          fun err => ⟨.internal, "Unable to retrieve chart: " ++ err⟩).bind fun chart =>
            .ok (packageAppVersionsSummary newVersion chart.chartVersions) := by
  have hns : row.repoNamespace ≠ "" := by
    intro hempty
    have hvalid := hrow.ns_valid.1
    rw [hempty] at hvalid
    exact absurd hvalid (by decide)
  have hid : row.info.id ≠ "" := by
    intro hempty
    have hlen := congrArg String.length (hrow.info_id.symm.trans hempty)
    rw [String.length_append, String.length_append] at hlen
    have hone : "/".length = 1 := rfl
    have hzero : "".length = 0 := rfl
    omega
  unfold Server.getAvailablePackageVersions AvailablePackageReference.request
  simp only [Option.getD_some]
  rw [if_neg (not_or.mpr ⟨hns, hid⟩), haccess]
  rfl

/-- The reference resolves if the query always finds the chart. -/
theorem resolves_of_query (hrow : StoredAs row name) (hslash : '/' ∉ name.toList)
    (hvalid : s.invalid row.info = none)
    (haccess : s.hasAccessToNamespace row.repoNamespace = .ok ())
    (hquery : ∀ pick, queryWithFallback pg table pick row.repoNamespace
      (bytes (lookupID row name)) true = .ok row.info) :
    Resolves s pg table newVersion row.info ⟨row.repoNamespace, row.info.id⟩ := by
  have hid := (getUnescapedChartID_stored hrow).2 hslash
  intro pick cluster
  constructor
  · intro version chart' hchart
    obtain ⟨detail, hdetail⟩ := detail_isOk (invalid_requestedChart hvalid hchart)
    refine ⟨detail, hdetail, ?_⟩
    rw [getAvailablePackageDetail_eq haccess, hid]
    simp only [Except.bind, hquery, hchart, Except.mapError, hdetail]
  · rw [getAvailablePackageVersions_eq hrow haccess, hid]
    simp only [Except.bind, hquery, Except.mapError]

/-- If it resolves, the name has no slash and every answer of the query has the chart's id. -/
theorem query_of_resolves (hrow : StoredAs row name)
    (haccess : s.hasAccessToNamespace row.repoNamespace = .ok ())
    (h : Resolves s pg table newVersion row.info ⟨row.repoNamespace, row.info.id⟩) :
    '/' ∉ name.toList ∧ ∀ pick, ∃ chart, queryWithFallback pg table pick row.repoNamespace
      (bytes (lookupID row name)) true = .ok chart ∧ chart.id = row.info.id := by
  have hall : ∀ pick, ∃ detail : AvailablePackageDetail,
      detail.availablePackageRef.identifier = row.info.id ∧
      s.getAvailablePackageDetail pg table pick
        ⟨some (AvailablePackageReference.request ⟨row.repoNamespace, row.info.id⟩ ""), ""⟩ =
          .ok detail := by
    intro pick
    obtain ⟨detail, hdetail, hget⟩ := (h pick "").1 "" row.info (if_pos rfl)
    exact ⟨detail, detail_identifier hdetail, hget⟩
  have hslash : '/' ∉ name.toList := by
    intro hslash
    obtain ⟨err, herr⟩ := (getUnescapedChartID_stored hrow).1 hslash
    obtain ⟨detail, _, hget⟩ := hall (Pick.prefer row)
    rw [getAvailablePackageDetail_eq haccess, herr] at hget
    exact absurd hget (by simp [Except.bind])
  refine ⟨hslash, fun pick => ?_⟩
  obtain ⟨detail, hident, hget⟩ := hall pick
  rw [getAvailablePackageDetail_eq haccess, (getUnescapedChartID_stored hrow).2 hslash] at hget
  cases hquery : queryWithFallback pg table pick row.repoNamespace (bytes (lookupID row name))
      true with
  | error err =>
      simp only [Except.bind, hquery, Except.mapError] at hget
      exact absurd hget (by simp)
  | ok chart =>
      simp only [Except.bind, hquery, Except.mapError, requestedChart, if_pos] at hget
      refine ⟨chart, rfl, ?_⟩
      cases hdetail : s.availablePackageDetailFromChart chart with
      | error err =>
          rw [hdetail] at hget
          exact absurd hget (by simp)
      | ok detail' =>
          rw [hdetail] at hget
          rw [← detail_identifier hdetail, Except.ok.inj hget, hident]

end Calls

/-! ## The rows that are found -/

section Rows

variable {pg : Postgres} {table : ChartTable} {row row' : ChartRow} {name name' : String}

/-- In a namespace the id of a chart is that of one row. -/
theorem row_eq_of_id (hmem : row ∈ table.rows) (hmem' : row' ∈ table.rows)
    (hrow : StoredAs row name) (hrow' : StoredAs row' name')
    (hns : row'.repoNamespace = row.repoNamespace) (hid : row'.info.id = row.info.id) :
    row' = row := by
  have hsplit : ∀ {row : ChartRow} {name : String}, StoredAs row name →
      row.info.id.toList.splitOn '/' =
        row.repoName.toList :: (pathEscape name).toList.splitOn '/' := by
    intro row name hrow
    have hslash := not_mem_validName hrow.repo_valid (c := '/') (by decide) (by decide)
    have hlist : row.info.id.toList = row.repoName.toList ++ '/' :: (pathEscape name).toList := by
      rw [hrow.info_id, String.toList_append, String.toList_append, List.append_assoc]
      rfl
    rw [hlist, List.splitOn_append_cons_self_of_not_mem hslash]
  have heq := hsplit hrow'
  rw [hid, hsplit hrow] at heq
  have hrepo : row'.repoName = row.repoName :=
    String.ext (List.cons.inj heq).1.symm
  have hchart : row'.chartId = row.chartId := by rw [hrow.chartId, hrow'.chartId, hid]
  exact table.unique row' hmem' row hmem hrepo hns hchart (by rw [hrow'.chartId]; simp)

/-- A stored row that a query finds has this id. -/
theorem storedAs_of_mem_rowsWhere (hstored : Stored table) {op : String → String → Bool}
    {ns chartID : String} (h : row' ∈ rowsWhere table op ns chartID) :
    row' ∈ table.rows ∧ row'.repoNamespace = ns ∧ op row'.info.id chartID = true ∧
      ∃ name', StoredAs row' name' := by
  obtain ⟨hmem, hns, id, hid, hop⟩ := mem_rowsWhere.1 h
  obtain ⟨name', hrow'⟩ := hstored row' hmem (by rw [hid]; exact Option.some_ne_none id)
  have hinfo : row'.info.id = id := Option.some.inj (hrow'.chartId.symm.trans hid)
  exact ⟨hmem, hns, by rw [hinfo]; exact hop, name', hrow'⟩

theorem mem_rowsWhere_id (hstored : Stored table) (hmem : row ∈ table.rows)
    (hrow : StoredAs row name) :
    row' ∈ rowsWhere table (· == ·) row.repoNamespace row.info.id ↔ row' = row := by
  constructor
  · intro h
    obtain ⟨hmem', hns, hid, name', hrow'⟩ := storedAs_of_mem_rowsWhere hstored h
    exact row_eq_of_id hmem hmem' hrow hrow' hns (eq_of_beq hid)
  · intro heq
    rw [heq]
    exact mem_rowsWhere.2 ⟨hmem, rfl, row.info.id, hrow.chartId, beq_self_eq_true _⟩

theorem plainName_iff (hrow : StoredAs row name) :
    PlainName name ↔ lookupID row name = row.info.id := by
  unfold PlainName lookupID
  rw [← pathEscape_eq_plusToSpaces_iff, hrow.info_id]
  constructor
  · intro heq
    rw [heq]
  · intro heq
    have hlist := congrArg String.toList heq
    rw [String.toList_append, String.toList_append (t := pathEscape name)] at hlist
    exact String.ext (List.append_cancel_left hlist).symm

theorem zero_not_mem_ns (hrow : StoredAs row name) : Char.ofNat 0 ∉ row.repoNamespace.toList :=
  not_mem_validNamespace hrow.ns_valid (by decide)

theorem zero_mem_read (hrow : StoredAs row name) {sep : String}
    (hsep : Char.ofNat 0 ∉ sep.toList) :
    Char.ofNat 0 ∈ (row.repoName ++ sep ++ plusToSpaces name).toList ↔
      Char.ofNat 0 ∈ name.toList := by
  have hrepo := not_mem_validName hrow.repo_valid (c := Char.ofNat 0) (by decide) (by decide)
  rw [String.toList_append, String.toList_append, List.mem_append, List.mem_append,
    mem_plusToSpaces (by decide) (by decide)]
  constructor
  · intro h
    exact h.resolve_left fun h => h.elim hrepo hsep
  · intro h
    exact Or.inr h

theorem zero_mem_lookupID (hrow : StoredAs row name) :
    Char.ofNat 0 ∈ (lookupID row name).toList ↔ Char.ofNat 0 ∈ name.toList :=
  zero_mem_read hrow (by decide)

theorem zero_mem_alikeID (hrow : StoredAs row name) :
    Char.ofNat 0 ∈ (alikeID row name).toList ↔ Char.ofNat 0 ∈ name.toList :=
  zero_mem_read hrow (by decide)

theorem plainName_slash (h : PlainName name) : '/' ∉ name.toList := fun hmem =>
  absurd (h '/' hmem).1 (by decide)

theorem plainName_zero (h : PlainName name) : Char.ofNat 0 ∉ name.toList := fun hmem =>
  absurd (h _ hmem).1 (by decide)

/-- A plain name is found by its id, and another one by the fallback. -/
theorem query_of_found (hstored : Stored table) (hmem : row ∈ table.rows)
    (hrow : StoredAs row name) (h : PlainName name ∨ FoundByFallback pg table row name)
    (pick : Pick) :
    queryWithFallback pg table pick row.repoNamespace (bytes (lookupID row name)) true =
      .ok row.info := by
  have hns := zero_not_mem_ns hrow
  rcases h with hplain | hfound
  · rw [query_stored hrow (plainName_slash hplain)]
    have hid := mt (zero_mem_lookupID hrow).mp (plainName_zero hplain)
    have hrows : ∀ row', row' ∈ rowsWhere table (· == ·) row.repoNamespace (lookupID row name) ↔
        row' = row := by
      intro row'
      rw [(plainName_iff hrow).mp hplain]
      exact mem_rowsWhere_id hstored hmem hrow
    rw [queryOne_of_unique hns hid hrows]
  · rw [query_stored hrow hfound.slash]
    have hid := mt (zero_mem_lookupID hrow).mp hfound.zero
    have halike := mt (zero_mem_alikeID hrow).mp hfound.zero
    rw [queryOne_of_none hns hid hfound.not_exact]
    exact queryOne_of_unique hns halike hfound.alike

/-- A query that is sure to find the chart finds it by one of the two. -/
theorem found_of_query (hstored : Stored table) (hmem : row ∈ table.rows)
    (hrow : StoredAs row name) (hslash : '/' ∉ name.toList)
    (h : ∀ pick, ∃ chart, queryWithFallback pg table pick row.repoNamespace
      (bytes (lookupID row name)) true = .ok chart ∧ chart.id = row.info.id) :
    PlainName name ∨ FoundByFallback pg table row name := by
  have hns := zero_not_mem_ns hrow
  simp only [query_stored hrow hslash] at h
  have hzero : Char.ofNat 0 ∉ name.toList := by
    intro hzero
    obtain ⟨chart, hquery, _⟩ := h (Pick.prefer row)
    obtain ⟨err, herr⟩ := queryOne_zero table (Pick.prefer row) (· == ·)
      row.repoNamespace ((zero_mem_lookupID hrow).mpr hzero)
    obtain ⟨err', herr'⟩ := queryOne_zero table (Pick.prefer row) pg.ilike
      row.repoNamespace ((zero_mem_alikeID hrow).mpr hzero)
    rw [herr] at hquery
    dsimp only at hquery
    rw [herr'] at hquery
    exact absurd hquery (by simp)
  have hid := mt (zero_mem_lookupID hrow).mp hzero
  have halike := mt (zero_mem_alikeID hrow).mp hzero
  by_cases hexact : ∃ row', row' ∈ rowsWhere table (· == ·) row.repoNamespace (lookupID row name)
  · left
    obtain ⟨row', hrow'⟩ := hexact
    obtain ⟨chart, hquery, hchart⟩ := h (Pick.prefer row')
    obtain ⟨_, _, heq, _⟩ := storedAs_of_mem_rowsWhere hstored hrow'
    rw [queryOne_prefer hns hid hrow'] at hquery
    rw [plainName_iff hrow, ← hchart, ← Except.ok.inj hquery]
    exact (eq_of_beq heq).symm
  · right
    have hnone : ∀ row', row' ∉ rowsWhere table (· == ·) row.repoNamespace (lookupID row name) :=
      fun row' hrow' => hexact ⟨row', hrow'⟩
    simp only [queryOne_of_none hns hid hnone] at h
    have honly : ∀ row', row' ∈ rowsWhere table pg.ilike row.repoNamespace (alikeID row name) →
        row' = row := by
      intro row' hrow'
      obtain ⟨chart, hquery, hchart⟩ := h (Pick.prefer row')
      rw [queryOne_prefer hns halike hrow'] at hquery
      obtain ⟨hmem', hns', _, name', hstored'⟩ := storedAs_of_mem_rowsWhere hstored hrow'
      rw [← Except.ok.inj hquery] at hchart
      exact row_eq_of_id hmem hmem' hrow hstored' hns' hchart
    have hself : row ∈ rowsWhere table pg.ilike row.repoNamespace (alikeID row name) := by
      by_contra hself
      have hno : ∀ row', row' ∉ rowsWhere table pg.ilike row.repoNamespace (alikeID row name) := by
        intro row' hrow'
        rw [honly row' hrow'] at hrow'
        exact hself hrow'
      obtain ⟨chart, hquery, _⟩ := h (Pick.prefer row)
      rw [queryOne_of_none hns halike hno] at hquery
      exact absurd hquery (by simp)
    refine ⟨hslash, hzero, hnone, fun row' => ⟨honly row', ?_⟩⟩
    intro heq
    rw [heq]
    exact hself

end Rows

/-! ## The reference of a summary -/

/-- The reference in the summary of a stored chart leads both calls back to the chart exactly if
    its name is plain or the fallback finds it. -/
theorem summary_resolves_iff (s : Server) (pg : Postgres) (table : ChartTable)
    (newVersion : String → Option VersionNumbers) (hstored : Stored table) (row : ChartRow)
    (name : String) (hmem : row ∈ table.rows) (hrow : StoredAs row name)
    (pkg : AvailablePackageSummary) (hpkg : s.availablePackageSummaryFromChart row.info = .ok pkg)
    (haccess : s.hasAccessToNamespace row.repoNamespace = .ok ()) :
    Resolves s pg table newVersion row.info pkg.availablePackageRef ↔
      PlainName name ∨ FoundByFallback pg table row name := by
  obtain ⟨hvalid, href⟩ := summary_ref hrow hpkg
  rw [href]
  constructor
  · intro h
    obtain ⟨hslash, hquery⟩ := query_of_resolves hrow haccess h
    exact found_of_query hstored hmem hrow hslash hquery
  · intro h
    have hslash : '/' ∉ name.toList := h.elim plainName_slash FoundByFallback.slash
    exact resolves_of_query hrow hslash hvalid haccess (query_of_found hstored hmem hrow h)

theorem storedAs_nginx (id : Nat) (repoName : String) (h : ValidName repoName) :
    StoredAs (teamRow id repoName "nginx") "nginx" := by
  have hname : pathEscape "nginx" = "nginx" := by decide +kernel
  have hns : ValidNamespace "team" := by decide
  refine ⟨hns, h, rfl, ?_, hname.symm, rfl⟩
  rw [hname]
  rfl

theorem stored_twoNginx : Stored twoNginx := by
  intro row hrow _
  refine ⟨"nginx", ?_⟩
  rcases List.mem_cons.mp hrow with rfl | hrow
  · exact storedAs_nginx 1 "bitnami" (by decide)
  · rw [List.mem_singleton.mp hrow]
    exact storedAs_nginx 2 "mirror" (by decide)

/-- The reference of `bitnami/nginx` leads back to it. -/
theorem summary_resolves_nginx :
    Resolves teamServer namespaceQueries twoNginx (fun _ => some ⟨1, 0, 0⟩)
      (teamRow 1 "bitnami" "nginx").info ⟨"team", "bitnami/nginx"⟩ :=
  (summary_resolves_iff teamServer namespaceQueries twoNginx _ stored_twoNginx
    (teamRow 1 "bitnami" "nginx") "nginx" List.mem_cons_self
    (storedAs_nginx 1 "bitnami" (by decide))
    ⟨⟨"team", "bitnami/nginx"⟩, "nginx", "1.0.0", "", ""⟩ rfl rfl).mpr
      (Or.inl (by decide))

/-- A repository with one chart, which has a plus sign in its name. -/
def onePlus : ChartTable where
  rows := [teamRow 1 "bitnami" "a+b"]
  serial := by decide
  primaryKey := by decide
  unique := by decide

theorem storedAs_plus : StoredAs (teamRow 1 "bitnami" "a+b") "a+b" := by
  have hname : pathEscape "a+b" = "a+b" := by decide +kernel
  refine ⟨by decide, by decide, rfl, ?_, hname.symm, rfl⟩
  rw [hname]
  rfl

/-- `bitnami/a+b` is in the list of packages, and neither call finds it. -/
theorem summary_of_plus_unresolved :
    Stored onePlus ∧ StoredAs (teamRow 1 "bitnami" "a+b") "a+b" ∧
      teamServer.availablePackageSummaryFromChart (teamRow 1 "bitnami" "a+b").info =
        .ok ⟨⟨"team", "bitnami/a+b"⟩, "a+b", "1.0.0", "", ""⟩ ∧
      teamServer.hasAccessToNamespace "team" = .ok () ∧
      (∀ newVersion, ¬ Resolves teamServer namespaceQueries onePlus newVersion
        (teamRow 1 "bitnami" "a+b").info ⟨"team", "bitnami/a+b"⟩) ∧
      teamServer.getAvailablePackageDetail namespaceQueries onePlus
        (Pick.prefer (teamRow 1 "bitnami" "a+b")) ⟨some ⟨some ("", "team"), "bitnami/a+b"⟩, ""⟩ =
        .error ⟨.internal, "Unable to retrieve chart: sql: no rows in result set"⟩ := by
  have hstored : Stored onePlus := by
    intro row hrow _
    rw [List.mem_singleton.mp hrow]
    exact ⟨"a+b", storedAs_plus⟩
  have herror : teamServer.getAvailablePackageDetail namespaceQueries onePlus
      (Pick.prefer (teamRow 1 "bitnami" "a+b")) ⟨some ⟨some ("", "team"), "bitnami/a+b"⟩, ""⟩ =
        .error ⟨.internal, "Unable to retrieve chart: sql: no rows in result set"⟩ := by
    decide
  refine ⟨hstored, storedAs_plus, rfl, rfl, ?_, herror⟩
  intro newVersion h
  obtain ⟨detail, _, hget⟩ := (h (Pick.prefer (teamRow 1 "bitnami" "a+b")) "").1 "" _ (if_pos rfl)
  exact absurd (hget.symm.trans herror) (by simp)

end Kubeapps.HelmPlugin
