/-
  Chart repositories of type "oci" (cmd/asset-syncer/utils.go: OCIRegistry).

  The registry is what it answers: `tagList` and `isHelmChart` are the `ociAPI` interface,
  `pullOCIChart` the `helm.ChartPuller`. A call may fail. A pulled artifact is what `gzip` and
  `tar` make of it: the entries of the archive up to its end or up to an error.

  `r.tags` is a partial function of the repository name; the zero value stands for a missing
  key. `FilterIndex` and `Charts` each run a pool of `numWorkers` workers (`Lib.Pool`) and
  then work on what the consumer received. `FilterIndexEnds` and `ChartsEnds` are the outcomes
  of their schedules. A panic in any goroutine ends the process.

  `strings.ToLower` is written for ASCII: the two other characters whose lower case is an ASCII
  letter, U+0130 and U+212A, give an `i` and a `k`, which no important file has in its name.
-/
import Mathlib.Logic.Function.Basic
import Kubeapps.Lib.Pool
import Kubeapps.Lib.Semver
import Kubeapps.Syncer.HelmRepo

namespace Kubeapps.Syncer

open Kubeapps.Lib Kubeapps.Models

/-! ## Artifacts -/

/-- The type flags `extractFilesFromBuffer` tells apart. -/
inductive Typeflag where
  | dir
  | reg
  | other
  deriving DecidableEq, Repr

/-- A header of the archive and what reading its file gives. -/
structure TarEntry where
  name : String
  typeflag : Typeflag
  data : Except String String
  deriving DecidableEq

/-- The headers `tarReader.Next` returns, and the error that ends them if it is not `io.EOF`. -/
structure TarStream where
  entries : List TarEntry
  err : Option String
  deriving DecidableEq

/-- `artifactFiles`. -/
structure ArtifactFiles where
  metadata : String
  readme : String
  values : String
  schema : String
  deriving DecidableEq, Repr

/-- `strings.ToLower` on ASCII. -/
def toLower (s : String) : String := String.ofList (s.toList.map Char.toLower)

/-- Store the data of an important file. -/
def ArtifactFiles.set (files : ArtifactFiles) (filename data : String) : ArtifactFiles :=
  if filename = "chart.yaml" then { files with metadata := data }
  else if filename = "readme.md" then { files with readme := data }
  else if filename = "values.yaml" then { files with values := data }
  else if filename = "values.schema.json" then { files with schema := data }
  else files

/-- `importantFiles`. -/
def importantFiles : List String := ["chart.yaml", "readme.md", "values.yaml", "values.schema.json"]

/-- The loop of `extractFilesFromBuffer` over the archive. -/
def extractLoop (err : Option String) : List TarEntry → ArtifactFiles → Except String ArtifactFiles
  | [], files =>
      match err with
      | none => .ok files
      | some e => .error e
  | entry :: rest, files =>
      -- only files within the root directory
      if (splitSlash entry.name).length > 2 then extractLoop err rest files
      else
        match entry.typeflag with
        | .dir => extractLoop err rest files
        | .other => extractLoop err rest files
        | .reg =>
            let filename := toLower (pathBase entry.name)
            if filename ∈ importantFiles then
              match entry.data with
              | .error e => .error e
              | .ok data => extractLoop err rest (files.set filename data)
            else extractLoop err rest files

/-- `extractFilesFromBuffer`. The argument is what `gzip.NewReader` makes of the buffer. -/
def extractFilesFromBuffer (buf : Except String TarStream) : Except String ArtifactFiles :=
  match buf with
  | .error e => .error e
  | .ok stream => extractLoop stream.err stream.entries ⟨"", "", "", ""⟩

/-- `h3chart.Metadata`, the fields that are read. The maintainers are pointers. -/
structure ChartYaml where
  version : String
  appVersion : String
  description : String
  home : String
  keywords : List String
  maintainers : List (Option Maintainer)
  sources : List String
  icon : String
  annotations : List (String × String)
  deriving DecidableEq, Repr

/-! ## The registry -/

/-- `TagList`. -/
structure TagList where
  name : String
  tags : List String
  deriving DecidableEq, Repr

/-- The map `r.tags`. -/
abbrev Tags := String → Option TagList

/-- `tags[appName]`, the zero value for a missing key. -/
def Tags.get (tags : Tags) (appName : String) : TagList := (tags appName).getD ⟨"", []⟩

/-- `OCIRegistry`, without its tags and clients. -/
structure OCIRegistry where
  repositories : List String
  internal : RepoInternal
  filter : Option FilterRuleSpec

/-- The registry and the libraries a sync of it calls. `tagsSha256` is the checksum of the
    printed map. -/
structure OciEnv where
  rt : Runtime
  net : NetUrl
  semver : Semver
  jq : Gojq
  yamlUnmarshal : String → Except String ChartYaml
  tagsSha256 : Tags → Except String String
  tagList : String → Except String TagList
  isHelmChart : String → String → Except String Bool
  pullOCIChart : String → Except String (Except String TarStream × String)

def numWorkers : Nat := 10

/-- The loop of `Checksum`. -/
def collectTags (env : OciEnv) : List String → Tags → Except String Tags
  | [], tags => .ok tags
  | appName :: rest, tags =>
      match env.tagList appName with
      | .error e => .error e
      | .ok tl => collectTags env rest (Function.update tags appName (some tl))

/-- `Checksum`: the tags it leaves in `r.tags`, and the sum. -/
def OCIRegistry.checksum (env : OciEnv) (r : OCIRegistry) : Except String (Tags × String) := do
  let tags ← collectTags env r.repositories fun _ => none
  let sum ← env.tagsSha256 tags
  return (tags, sum)

/-! ## `FilterIndex` -/

/-- `checkTagJob`. -/
structure CheckTagJob where
  appName : String
  tag : String
  deriving DecidableEq, Repr

/-- The jobs the producer of `FilterIndex` sends. -/
def checkJobs (r : OCIRegistry) (tags : Tags) : List CheckTagJob :=
  r.repositories.flatMap fun appName => (tags.get appName).tags.map fun tag => ⟨appName, tag⟩

/-- What `tagCheckerWorker` answers. -/
def checkAnswers (env : OciEnv) (j : CheckTagJob) (res : Option (Except String Bool)) : Bool :=
  res = some (env.isHelmChart j.appName j.tag)

/-- The receiving loop: the tags of Helm charts by repository, in the order they arrive. -/
def gatherTags (unfilteredTags : Tags) : List (CheckTagJob × Except String Bool) → Tags → Tags
  | [], tags => tags
  | (j, .ok true) :: rest, tags =>
      gatherTags unfilteredTags rest (Function.update tags j.appName
        (some ⟨(unfilteredTags.get j.appName).name, (tags.get j.appName).tags ++ [j.tag]⟩))
  | (_, .ok false) :: rest, tags => gatherTags unfilteredTags rest tags
  | (_, .error _) :: rest, tags => gatherTags unfilteredTags rest tags

/-- One list of tags parsed, sorted and printed. A tag that does not parse leaves a nil version,
    which panics in a comparison of the sort or, alone, when it is printed. -/
def orderTags (env : OciEnv) (tags : List String) : Go (List String) :=
  match env.semver.parseAll tags with
  | none => panics "invalid memory address or nil pointer dereference"
  | some vs =>
      .ok ((env.rt.sort (fun a b => env.semver.lessThan b a) vs).map env.semver.string)

/-- The last loop of `FilterIndex`. -/
def orderAll (env : OciEnv) : List String → Tags → Go Tags
  | [], tags => .ok tags
  | appName :: rest, tags =>
      match orderTags env (tags.get appName).tags with
      | .error f => .error f
      | .ok ordered =>
          orderAll env rest
            (Function.update tags appName (some ⟨(tags.get appName).name, ordered⟩))

abbrev CheckPool := Pool CheckTagJob (Except String Bool)

/-- The pool of `FilterIndex` on the tags of `Checksum`. -/
def checkPool (r : OCIRegistry) (tags : Tags) : CheckPool :=
  Pool.init numWorkers ((checkJobs r tags).map some)

/-- `FilterIndex` on `tags` has a schedule with this outcome. -/
def FilterIndexEnds (env : OciEnv) (r : OCIRegistry) (tags : Tags) (out : Go Tags) : Prop :=
  ∃ as s, runs (Pool.step numWorkers (checkAnswers env)) (checkPool r tags) as = some s ∧
    match s.phase with
    | .running => False
    | .crashed => out = panics "goroutine panicked"
    | .returned => out = orderAll env r.repositories (gatherTags tags s.received fun _ => none)

/-! ## `Charts` -/

/-- `pullChartJob`. -/
structure PullChartJob where
  appName : String
  tag : String
  deriving DecidableEq, Repr

/-- Read the maintainers through their pointers. -/
def derefMaintainers : List (Option Maintainer) → Go (List Maintainer)
  | [] => .ok []
  | none :: _ => panics "invalid memory address or nil pointer dereference"
  | some m :: ms => do return m :: (← derefMaintainers ms)

/-- The id of the chart of a repository. -/
def OCIRegistry.chartID (r : OCIRegistry) (appName : String) : String :=
  pathJoin [r.internal.name, pathEscape appName]

/-- `pullAndExtract`. -/
def pullAndExtract (env : OciEnv) (repoURL : env.net.Url) (appName tag : String)
    (r : OCIRegistry) : Go Chart := do
  let ref := pathJoin [env.net.host repoURL, env.net.path repoURL, appName ++ ":" ++ tag]
  let (buf, digest) ← liftErr (env.pullOCIChart ref)
  let files ← liftErr (extractFilesFromBuffer buf)
  let m ← liftErr (env.yamlUnmarshal files.metadata)
  let chartVersion : ChartVersion := {
    version := m.version
    appVersion := m.appVersion
    created := ""
    digest := digest
    urls := m.sources
    readme := files.readme
    values := files.values
    schema := files.schema }
  let maintainers ← derefMaintainers m.maintainers
  let encodedAppName := pathEscape appName
  return {
    id := r.chartID appName
    name := encodedAppName
    repo := r.internal.repo
    description := m.description
    home := m.home
    keywords := m.keywords
    maintainers := maintainers
    sources := m.sources
    icon := m.icon
    rawIcon := ""
    iconContentType := ""
    category := (lookup "category" m.annotations).getD ""
    chartVersions := [chartVersion] }

/-- The items the producer of `Charts` evaluates: `Tags[0]` of an empty list panics. -/
def pullItems (r : OCIRegistry) (tags : Tags) (fetchLatestOnly : Bool) :
    List (Option PullChartJob) :=
  r.repositories.flatMap fun appName =>
    if fetchLatestOnly then [(tags.get appName).tags.head?.map fun tag => ⟨appName, tag⟩]
    else (tags.get appName).tags.map fun tag => some ⟨appName, tag⟩

/-- A `pullChartResult`, or `none` where the worker panicked. -/
def pullResult : Go Chart → Option (Except String Chart)
  | .ok c => some (.ok c)
  | .error (.error e) => some (.error e)
  | .error (.panic _) => none

/-- What `chartImportWorker` answers. -/
def pullAnswers (env : OciEnv) (repoURL : env.net.Url) (r : OCIRegistry) (j : PullChartJob)
    (res : Option (Except String Chart)) : Bool :=
  res = pullResult (pullAndExtract env repoURL j.appName j.tag r)

/-- Put one pulled chart into the map `result`, whose entries are in the order of their first
    insertion. A chart that is there gets one more version. -/
def addChart (c : Chart) : List Chart → List Chart
  | [] => [c]
  | c' :: rest =>
      if c'.id = c.id then { c' with chartVersions := c'.chartVersions ++ c.chartVersions } :: rest
      else c' :: addChart c rest

/-- The receiving loop. -/
def gatherCharts : List (PullChartJob × Except String Chart) → List Chart → List Chart
  | [], charts => charts
  | (_, .ok c) :: rest, charts => gatherCharts rest (addChart c charts)
  | (_, .error _) :: rest, charts => gatherCharts rest charts

abbrev PullPool := Pool PullChartJob (Except String Chart)

def pullPool (r : OCIRegistry) (tags : Tags) (fetchLatestOnly : Bool) : PullPool :=
  Pool.init numWorkers (pullItems r tags fetchLatestOnly)

/-- The values of the map, in some order. -/
def pulledCharts (env : OciEnv) (received : List (PullChartJob × Except String Chart)) :
    List Chart :=
  env.rt.range (gatherCharts received [])

/-- `Charts` after the pool. -/
def OCIRegistry.chartsOf (env : OciEnv) (r : OCIRegistry)
    (received : List (PullChartJob × Except String Chart)) : Go (List Chart) :=
  liftErr (filterCharts env.rt env.jq (pulledCharts env received) r.filter)

/-- `Charts` on `tags` has a schedule with this outcome. -/
def ChartsEnds (env : OciEnv) (r : OCIRegistry) (tags : Tags) (fetchLatestOnly : Bool)
    (out : Go (List Chart)) : Prop :=
  match parseRepoURL env.net r.internal.url with
  | .error e => out = errors e
  | .ok repoURL =>
      ∃ as s, runs (Pool.step numWorkers (pullAnswers env repoURL r))
          (pullPool r tags fetchLatestOnly) as = some s ∧
        match s.phase with
        | .running => False
        | .crashed => out = panics "goroutine panicked"
        | .returned => out = r.chartsOf env s.received

/-! ## Jobs by repository -/

/-- Of lists of jobs that are appended, one for each of several distinct names, the jobs of one
    name are its list. -/
theorem filter_flatMap_of_nodup {κ : Type} (key : κ → String) (f : String → List κ)
    (hkey : ∀ a, ∀ x ∈ f a, key x = a) {names : List String} (hnodup : names.Nodup)
    {name : String} (hname : name ∈ names) :
    ((names.flatMap f).filter fun x => key x = name) = f name := by
  have hself : ((f name).filter fun x => key x = name) = f name :=
    List.filter_eq_self.mpr fun x hx => decide_eq_true (hkey name x hx)
  have hother : ∀ a, a ≠ name → ((f a).filter fun x => key x = name) = [] := by
    intro a ha
    refine List.filter_eq_nil_iff.mpr fun x hx => ?_
    rw [hkey a x hx]
    simpa using ha
  have hnone : ∀ as : List String, name ∉ as →
      ((as.flatMap f).filter fun x => key x = name) = [] := by
    intro as has
    refine List.filter_eq_nil_iff.mpr fun x hx => ?_
    obtain ⟨a, ha, hxa⟩ := List.mem_flatMap.mp hx
    rw [hkey a x hxa]
    simp only [decide_eq_true_eq]
    rintro rfl
    exact has ha
  induction names with
  | nil => cases hname
  | cons a rest ih =>
      rw [List.nodup_cons] at hnodup
      rw [List.flatMap_cons, List.filter_append]
      rcases List.mem_cons.mp hname with rfl | hrest
      · rw [hself, hnone rest hnodup.1, List.append_nil]
      · have hne : a ≠ name := by
          rintro rfl
          exact hnodup.1 hrest
        rw [hother a hne, ih hnodup.2 hrest, List.nil_append]

/-! ## A registry with one repository -/

/-- A registry that has one repository, `nginx`, with these tags. Every tag is a Helm chart and
    the version of a chart is its tag. -/
def nginxEnv (tags : List String) : OciEnv where
  rt := Runtime.stable
  net := NetUrl.plain
  semver := Semver.oneDigit
  jq := Gojq.nameEq
  yamlUnmarshal data := .ok ⟨data, "", "Chart of " ++ data, "", [], [], [], "", []⟩
  tagsSha256 _ := .ok "4f53cda18c2baa0c"
  tagList appName :=
    if appName = "nginx" then .ok ⟨appName, tags⟩ else .error "request failed: 404 Not Found"
  isHelmChart appName tag :=
    if appName = "nginx" ∧ tag ∈ tags then .ok true else .error "request failed: 404 Not Found"
  pullOCIChart ref :=
    let tag := String.ofList (ref.toList.reverse.takeWhile (· ≠ ':')).reverse
    .ok (.ok ⟨[⟨"nginx/Chart.yaml", .reg, .ok tag⟩], none⟩, "sha256:" ++ tag)

def nginxRegistry : OCIRegistry where
  repositories := ["nginx"]
  internal := ⟨"default", "charts", "https://registry.example.com/charts", "oci", ""⟩
  filter := none

end Kubeapps.Syncer
