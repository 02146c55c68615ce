/-
  `fetchFiles` (cmd/asset-syncer/utils.go): the icons and files of a list of charts, fetched by
  ten workers.

  The main goroutine sends the charts on one channel and closes it, then the chart versions on
  a second one, the first version of every chart before the others. A worker empties the first
  channel before it turns to the second. `FetchFiles.step` moves one goroutine by one action: a
  channel operation, an HTTP request, its answer, or a statement on the tables, which are shared
  with whatever else runs. What comes of a server's answer is in the label: for an icon the encoded
  PNG that the image libraries make of it, an error, or their panic (`image.NewNRGBA` panics on an
  SVG whose view box is too large); for a tarball the files found in it or an error. Errors are
  only logged. A panic ends the process.

  `requests` records every HTTP request. `authorization_only_to_repo_host`: without
  `passCredentials` the repository's header goes to its own scheme and host only.
-/
import Kubeapps.Lib.Pool
import Kubeapps.Syncer.Database
import Kubeapps.Syncer.Oci

namespace Kubeapps.Syncer

open Kubeapps.Lib Kubeapps.Models

/-! ## Requests -/

/-- What the fetching code reads of its surroundings. -/
structure FetchEnv where
  net : NetUrl
  passCredentials : Bool

/-- A GET request: its URL and its `Authorization` header. -/
structure Request where
  url : String
  authorization : Option String
  deriving DecidableEq, Repr

/-- `isURLDomainEqual`. -/
def isURLDomainEqual (net : NetUrl) (url1Str url2Str : String) : Bool :=
  match net.parseRequestURI url1Str, net.parseRequestURI url2Str with
  | .ok url1, .ok url2 => net.scheme url1 = net.scheme url2 && net.host url1 = net.host url2
  | _, _ => false

/-- The guard of both code paths that set the header. -/
def sendsCredentials (env : FetchEnv) (r : RepoInternal) (url : String) : Bool :=
  env.passCredentials ||
    (decide (r.authorizationHeader.length > 0) && isURLDomainEqual env.net url r.url)

/-- `chartTarballURL`. A URL that is not absolute is joined to the repository's. -/
def chartTarballURL (net : NetUrl) (r : RepoInternal) (cv : ChartVersion) : Go String := do
  let source ← index0 cv.urls
  match parseRepoURL net source with
  | .ok _ => return source
  | .error _ =>
      match net.parse r.url with
      | .error _ => panics "invalid memory address or nil pointer dereference"
      | .ok u => return net.string (net.withPath u (pathJoin [net.path u, source]))

/-- `http.NewRequest` of a URL. -/
def newRequest (net : NetUrl) (url : String) (authorization : Option String) :
    Except String Request :=
  match net.parse url with
  | .error e => .error e
  | .ok _ => .ok ⟨url, authorization⟩

/-- The request of `fetchAndImportIcon`. -/
def iconRequest (env : FetchEnv) (r : RepoInternal) (c : Chart) : Except String Request :=
  newRequest env.net c.icon
    (if sendsCredentials env r c.icon then some r.authorizationHeader else none)

/-- The request of `HelmRepo.FetchFiles`, made by `FetchChartDetailFromTarball`, which sets no
    empty header. -/
def tarballRequest (env : FetchEnv) (r : RepoInternal) (cv : ChartVersion) : Go Request := do
  let url ← chartTarballURL env.net r cv
  let authz := if sendsCredentials env r url then r.authorizationHeader else ""
  liftErr (newRequest env.net url (if authz.length > 0 then some authz else none))

/-! ## Workers and channels -/

inductive RepoKind where
  | helm
  | oci
  deriving DecidableEq, Repr

/-- What `fetchFiles` uses of its `Repo`. -/
structure RepoRef where
  kind : RepoKind
  internal : RepoInternal
  deriving DecidableEq, Repr

/-- `importChartFilesJob`; its repository is not read. -/
structure FilesJob where
  name : String
  chartVersion : ChartVersion
  deriving DecidableEq, Repr

/-- An action of the main goroutine. A job is `none` where `ChartVersions[0]` panics. -/
inductive MainAct where
  | sendIcon (c : Chart)
  | closeIcons
  | sendFiles (j : Option FilesJob)
  | closeFiles
  deriving DecidableEq

/-- `importWorker`: the action a worker does next. -/
inductive ImportWorker where
  | onIcons
  | iconRequest (c : Chart)
  | iconResponse (c : Chart)
  | updateIcon (c : Chart) (data : String)
  | onFiles
  | filesExist (j : FilesJob)
  | fetchFiles (j : FilesJob)
  | filesResponse (j : FilesJob)
  | insertFiles (j : FilesJob) (files : FileMap)
  | exited
  deriving DecidableEq

structure FetchFiles where
  main : List MainAct
  icons : List Chart
  iconsClosed : Bool
  files : List FilesJob
  filesClosed : Bool
  workers : List ImportWorker
  requests : List Request
  phase : PoolPhase
  deriving DecidableEq

/-- The job of the first version of a chart. -/
def firstJob (c : Chart) : Option FilesJob := c.chartVersions.head?.map fun cv => ⟨c.name, cv⟩

/-- The jobs of its other versions. -/
def otherJobs (c : Chart) : List FilesJob := c.chartVersions.tail.map fun cv => ⟨c.name, cv⟩

/-- The body of `fetchFiles` after the workers are started. -/
def mainActs (charts : List Chart) : List MainAct :=
  charts.map .sendIcon ++ [.closeIcons] ++ charts.map (fun c => .sendFiles (firstJob c)) ++
    (charts.flatMap otherJobs).map (fun j => .sendFiles (some j)) ++ [.closeFiles]

def FetchFiles.init (charts : List Chart) : FetchFiles where
  main := mainActs charts
  icons := []
  iconsClosed := false
  files := []
  filesClosed := false
  workers := List.replicate numWorkers .onIcons
  requests := []
  phase := .running

/-- One action. `main` is the main goroutine's, `wait` its return from `wg.Wait`; the others are
    a worker's. `receive` is a turn of the worker's current `range` loop. -/
inductive FetchLabel where
  | main
  | wait
  | receive (w : Nat)
  | act (w : Nat)
  | iconAnswer (w : Nat) (res : Go String)
  | filesAnswer (w : Nat) (res : Except String FileMap)
  deriving DecidableEq

/-- `chartID` of `fetchAndImportFiles`. -/
def filesChartID (r : RepoInternal) (name : String) : String := r.name ++ "/" ++ name

/-- `chartFilesID`. -/
def chartFilesID (r : RepoInternal) (j : FilesJob) : String :=
  filesChartID r j.name ++ "-" ++ j.chartVersion.version

/-- The row `fetchAndImportFiles` inserts. -/
def chartFiles (r : RepoInternal) (j : FilesJob) (files : FileMap) : ChartFiles where
  id := chartFilesID r j
  readme := files.readme.getD ""
  values := files.values.getD ""
  schema := files.schema.getD ""
  repo := ⟨r.ns, r.name, r.url, ""⟩
  digest := j.chartVersion.digest

namespace FetchFiles

def setWorker (st : FetchFiles) (w : Nat) (x : ImportWorker) : FetchFiles :=
  { st with workers := st.workers.set w x }

/-- The next action of the main goroutine. -/
def stepMain (st : FetchFiles) : Option FetchFiles :=
  match st.main with
  | [] => none
  | .sendIcon c :: rest =>
      if st.icons.length < numWorkers then some { st with main := rest, icons := st.icons ++ [c] }
      else none
  | .closeIcons :: rest => some { st with main := rest, iconsClosed := true }
  | .sendFiles (some j) :: rest =>
      if st.files.length < numWorkers then some { st with main := rest, files := st.files ++ [j] }
      else none
  | .sendFiles none :: _ => some { st with phase := .crashed }
  | .closeFiles :: rest => some { st with main := rest, filesClosed := true }

/-- A worker receives from its channel, or leaves it when it is closed and empty. -/
def stepReceive (st : FetchFiles) (w : Nat) : Option FetchFiles :=
  match st.workers[w]? with
  | some .onIcons =>
      match st.icons with
      | c :: rest => some { st with icons := rest, workers := st.workers.set w (.iconRequest c) }
      | [] => if st.iconsClosed then some (st.setWorker w .onFiles) else none
  | some .onFiles =>
      match st.files with
      | j :: rest => some { st with files := rest, workers := st.workers.set w (.filesExist j) }
      | [] => if st.filesClosed then some (st.setWorker w .exited) else none
  | _ => none

/-- The answer to an icon request, decoded and resized. An error is logged. -/
def stepIconAnswer (st : FetchFiles) (w : Nat) (res : Go String) : Option FetchFiles :=
  match st.workers[w]?, res with
  | some (.iconResponse c), .ok data => some (st.setWorker w (.updateIcon c data))
  | some (.iconResponse _), .error (.error _) => some (st.setWorker w .onIcons)
  | some (.iconResponse _), .error (.panic _) => some { st with phase := .crashed }
  | _, _ => none

/-- The answer to a tarball request. An error is logged. -/
def stepFilesAnswer (st : FetchFiles) (w : Nat) (res : Except String FileMap) :
    Option FetchFiles :=
  match st.workers[w]?, res with
  | some (.filesResponse j), .ok files => some (st.setWorker w (.insertFiles j files))
  | some (.filesResponse _), .error _ => some (st.setWorker w .onFiles)
  | _, _ => none

/-- `FetchFiles` of the repository: a request for a Helm repository; an OCI registry has the
    files in the version. -/
def stepFetch (env : FetchEnv) (repo : RepoRef) (st : FetchFiles) (w : Nat) (j : FilesJob) :
    FetchFiles :=
  match repo.kind with
  | .helm =>
      match tarballRequest env repo.internal j.chartVersion with
      | .ok req =>
          { st with requests := st.requests ++ [req],
                    workers := st.workers.set w (.filesResponse j) }
      | .error (.error _) => st.setWorker w .onFiles
      | .error (.panic _) => { st with phase := .crashed }
  | .oci =>
      st.setWorker w (.insertFiles j
        ⟨some j.chartVersion.readme, some j.chartVersion.values, some j.chartVersion.schema⟩)

/-- The other actions of a worker, on the tables `db`. -/
def stepAct (env : FetchEnv) (repo : RepoRef) (db : Database) (st : FetchFiles) (w : Nat) :
    Option (Database × FetchFiles) :=
  match st.workers[w]? with
  | some (.iconRequest c) =>
      if c.icon = "" then some (db, st.setWorker w .onIcons)
      else
        match iconRequest env repo.internal c with
        | .error _ => some (db, st.setWorker w .onIcons)
        | .ok req =>
            some (db, { st with requests := st.requests ++ [req],
                                workers := st.workers.set w (.iconResponse c) })
  | some (.updateIcon c data) =>
      match db.updateIcon (repoKey repo.internal) c.id data "image/png" with
      | .ok db' => some (db', st.setWorker w .onIcons)
      | .error _ => some (db, st.setWorker w .onIcons)
  | some (.filesExist j) =>
      if db.filesExist (repoKey repo.internal) (chartFilesID repo.internal j)
          j.chartVersion.digest then
        some (db, st.setWorker w .onFiles)
      else some (db, st.setWorker w (.fetchFiles j))
  | some (.fetchFiles j) => some (db, stepFetch env repo st w j)
  | some (.insertFiles j files) =>
      match db.insertFiles (repoKey repo.internal) (filesChartID repo.internal j.name)
          (chartFiles repo.internal j files) with
      | .ok db' => some (db', st.setWorker w .onFiles)
      | .error _ => some (db, st.setWorker w .onFiles)
  | _ => none

/-- One action of `fetchFiles`, on the tables `db`. -/
def step (env : FetchEnv) (repo : RepoRef) (s : Database × FetchFiles) (l : FetchLabel) :
    Option (Database × FetchFiles) :=
  let (db, st) := s
  if st.phase = .running then
    match l with
    | .main => st.stepMain.map (db, ·)
    | .wait =>
        if st.main = [] ∧ ∀ x ∈ st.workers, x = .exited then
          some (db, { st with phase := .returned })
        else none
    | .receive w => (st.stepReceive w).map (db, ·)
    | .act w => stepAct env repo db st w
    | .iconAnswer w res => (st.stepIconAnswer w res).map (db, ·)
    | .filesAnswer w res => (st.stepFilesAnswer w res).map (db, ·)
  else none

/-! ## What an action can do -/

section Moves

variable (env : FetchEnv) (repo : RepoRef) (db : Database) (st : FetchFiles)

/-- Everything an action can do to the tables and to the state. -/
inductive Moves : FetchLabel → Database → FetchFiles → Prop
  | sendIcon (c : Chart) (rest : List MainAct) (hm : st.main = .sendIcon c :: rest)
      (hcap : st.icons.length < numWorkers) :
      Moves .main db { st with main := rest, icons := st.icons ++ [c] }
  | closeIcons (rest : List MainAct) (hm : st.main = .closeIcons :: rest) :
      Moves .main db { st with main := rest, iconsClosed := true }
  | sendFiles (j : FilesJob) (rest : List MainAct) (hm : st.main = .sendFiles (some j) :: rest)
      (hcap : st.files.length < numWorkers) :
      Moves .main db { st with main := rest, files := st.files ++ [j] }
  | mainCrash (rest : List MainAct) (hm : st.main = .sendFiles none :: rest) :
      Moves .main db { st with phase := .crashed }
  | closeFiles (rest : List MainAct) (hm : st.main = .closeFiles :: rest) :
      Moves .main db { st with main := rest, filesClosed := true }
  | wait (hm : st.main = []) (hall : ∀ x ∈ st.workers, x = .exited) :
      Moves .wait db { st with phase := .returned }
  | takeIcon (w : Nat) (c : Chart) (rest : List Chart) (hw : st.workers[w]? = some .onIcons)
      (hc : st.icons = c :: rest) :
      Moves (.receive w) db
        { st with icons := rest, workers := st.workers.set w (.iconRequest c) }
  | leaveIcons (w : Nat) (hw : st.workers[w]? = some .onIcons) (hc : st.icons = [])
      (hclosed : st.iconsClosed = true) :
      Moves (.receive w) db (st.setWorker w .onFiles)
  | takeFiles (w : Nat) (j : FilesJob) (rest : List FilesJob)
      (hw : st.workers[w]? = some .onFiles) (hj : st.files = j :: rest) :
      Moves (.receive w) db
        { st with files := rest, workers := st.workers.set w (.filesExist j) }
  | leaveFiles (w : Nat) (hw : st.workers[w]? = some .onFiles) (hj : st.files = [])
      (hclosed : st.filesClosed = true) :
      Moves (.receive w) db (st.setWorker w .exited)
  | iconSkip (w : Nat) (c : Chart) (hw : st.workers[w]? = some (.iconRequest c)) :
      Moves (.act w) db (st.setWorker w .onIcons)
  | iconSend (w : Nat) (c : Chart) (req : Request) (hw : st.workers[w]? = some (.iconRequest c))
      (hreq : Syncer.iconRequest env repo.internal c = .ok req) :
      Moves (.act w) db { st with
        requests := st.requests ++ [req], workers := st.workers.set w (.iconResponse c) }
  | iconOk (w : Nat) (c : Chart) (data : String) (hw : st.workers[w]? = some (.iconResponse c)) :
      Moves (.iconAnswer w (.ok data)) db (st.setWorker w (.updateIcon c data))
  | iconErr (w : Nat) (c : Chart) (e : String) (hw : st.workers[w]? = some (.iconResponse c)) :
      Moves (.iconAnswer w (.error (.error e))) db (st.setWorker w .onIcons)
  | iconCrash (w : Nat) (c : Chart) (msg : String)
      (hw : st.workers[w]? = some (.iconResponse c)) :
      Moves (.iconAnswer w (.error (.panic msg))) db { st with phase := .crashed }
  | updateIcon (w : Nat) (c : Chart) (data : String) (db' : Database)
      (hw : st.workers[w]? = some (.updateIcon c data))
      (hdb : db.updateIcon (repoKey repo.internal) c.id data "image/png" = .ok db') :
      Moves (.act w) db' (st.setWorker w .onIcons)
  | updateIconErr (w : Nat) (c : Chart) (data : String)
      (hw : st.workers[w]? = some (.updateIcon c data)) :
      Moves (.act w) db (st.setWorker w .onIcons)
  | filesKnown (w : Nat) (j : FilesJob) (hw : st.workers[w]? = some (.filesExist j))
      (hex : db.filesExist (repoKey repo.internal) (chartFilesID repo.internal j)
        j.chartVersion.digest = true) :
      Moves (.act w) db (st.setWorker w .onFiles)
  | filesUnknown (w : Nat) (j : FilesJob) (hw : st.workers[w]? = some (.filesExist j)) :
      Moves (.act w) db (st.setWorker w (.fetchFiles j))
  | tarballSend (w : Nat) (j : FilesJob) (req : Request)
      (hw : st.workers[w]? = some (.fetchFiles j)) (hkind : repo.kind = .helm)
      (hreq : tarballRequest env repo.internal j.chartVersion = .ok req) :
      Moves (.act w) db { st with
        requests := st.requests ++ [req], workers := st.workers.set w (.filesResponse j) }
  | tarballErr (w : Nat) (j : FilesJob) (e : String)
      (hw : st.workers[w]? = some (.fetchFiles j)) (hkind : repo.kind = .helm)
      (hreq : tarballRequest env repo.internal j.chartVersion = .error (.error e)) :
      Moves (.act w) db (st.setWorker w .onFiles)
  | tarballCrash (w : Nat) (j : FilesJob) (msg : String)
      (hw : st.workers[w]? = some (.fetchFiles j)) (hkind : repo.kind = .helm)
      (hreq : tarballRequest env repo.internal j.chartVersion = .error (.panic msg)) :
      Moves (.act w) db { st with phase := .crashed }
  | ociFiles (w : Nat) (j : FilesJob) (files : FileMap)
      (hw : st.workers[w]? = some (.fetchFiles j)) (hkind : repo.kind = .oci) :
      Moves (.act w) db (st.setWorker w (.insertFiles j files))
  | filesOk (w : Nat) (j : FilesJob) (files : FileMap)
      (hw : st.workers[w]? = some (.filesResponse j)) :
      Moves (.filesAnswer w (.ok files)) db (st.setWorker w (.insertFiles j files))
  | filesErr (w : Nat) (j : FilesJob) (e : String)
      (hw : st.workers[w]? = some (.filesResponse j)) :
      Moves (.filesAnswer w (.error e)) db (st.setWorker w .onFiles)
  | insertFiles (w : Nat) (j : FilesJob) (files : FileMap) (db' : Database)
      (hw : st.workers[w]? = some (.insertFiles j files))
      (hdb : db.insertFiles (repoKey repo.internal) (filesChartID repo.internal j.name)
        (chartFiles repo.internal j files) = .ok db') :
      Moves (.act w) db' (st.setWorker w .onFiles)
  | insertErr (w : Nat) (j : FilesJob) (files : FileMap) (e : String)
      (hw : st.workers[w]? = some (.insertFiles j files))
      (hdb : db.insertFiles (repoKey repo.internal) (filesChartID repo.internal j.name)
        (chartFiles repo.internal j files) = .error e) :
      Moves (.act w) db (st.setWorker w .onFiles)

end Moves

section Inversion

variable {env : FetchEnv} {repo : RepoRef} {db db' : Database} {st st' : FetchFiles}

theorem moves_of_stepMain (h : st.stepMain = some st') : Moves env repo db st .main db st' := by
  unfold stepMain at h
  split at h
  · cases h
  · rename_i c rest hm
    split at h
    · rename_i hcap
      cases h
      exact .sendIcon c rest hm hcap
    · cases h
  · rename_i rest hm
    cases h
    exact .closeIcons rest hm
  · rename_i j rest hm
    split at h
    · rename_i hcap
      cases h
      exact .sendFiles j rest hm hcap
    · cases h
  · rename_i rest hm
    cases h
    exact .mainCrash rest hm
  · rename_i rest hm
    cases h
    exact .closeFiles rest hm

theorem moves_of_stepReceive {w : Nat} (h : st.stepReceive w = some st') :
    Moves env repo db st (.receive w) db st' := by
  unfold stepReceive at h
  split at h
  · rename_i hw
    split at h
    · rename_i c rest hc
      cases h
      exact .takeIcon w c rest hw hc
    · rename_i hc
      split at h
      · rename_i hclosed
        cases h
        exact .leaveIcons w hw hc hclosed
      · cases h
  · rename_i hw
    split at h
    · rename_i j rest hj
      cases h
      exact .takeFiles w j rest hw hj
    · rename_i hj
      split at h
      · rename_i hclosed
        cases h
        exact .leaveFiles w hw hj hclosed
      · cases h
  · cases h

theorem moves_of_stepAct {w : Nat} (h : stepAct env repo db st w = some (db', st')) :
    Moves env repo db st (.act w) db' st' := by
  unfold stepAct at h
  split at h
  · rename_i c hw
    split at h
    · cases h
      exact .iconSkip w c hw
    · split at h
      · cases h
        exact .iconSkip w c hw
      · rename_i req hreq
        cases h
        exact .iconSend w c req hw hreq
  · rename_i c data hw
    split at h
    · rename_i db'' hdb
      cases h
      exact .updateIcon w c data db' hw hdb
    · cases h
      exact .updateIconErr w c data hw
  · rename_i j hw
    split at h
    · rename_i hex
      cases h
      exact .filesKnown w j hw hex
    · cases h
      exact .filesUnknown w j hw
  · rename_i j hw
    cases h
    unfold stepFetch
    split
    · rename_i hkind
      split
      · rename_i req hreq
        exact .tarballSend w j req hw hkind hreq
      · rename_i e hreq
        exact .tarballErr w j e hw hkind hreq
      · rename_i msg hreq
        exact .tarballCrash w j msg hw hkind hreq
    · rename_i hkind
      exact .ociFiles w j _ hw hkind
  · rename_i j files hw
    split at h
    · rename_i db'' hdb
      cases h
      exact .insertFiles w j files db' hw hdb
    · rename_i e hdb
      cases h
      exact .insertErr w j files e hw hdb
  · cases h

theorem moves_of_step {l : FetchLabel} (h : step env repo (db, st) l = some (db', st')) :
    st.phase = .running ∧ Moves env repo db st l db' st' := by
  unfold step at h
  dsimp only at h
  split at h
  · rename_i hrun
    refine ⟨hrun, ?_⟩
    cases l with
    | main =>
        obtain ⟨st'', hst, heq⟩ := Option.map_eq_some_iff.mp h
        cases heq
        exact moves_of_stepMain hst
    | wait =>
        dsimp only at h
        split at h
        · rename_i hc
          cases h
          exact .wait hc.1 hc.2
        · cases h
    | receive w =>
        obtain ⟨st'', hst, heq⟩ := Option.map_eq_some_iff.mp h
        cases heq
        exact moves_of_stepReceive hst
    | act w => exact moves_of_stepAct h
    | iconAnswer w res =>
        obtain ⟨st'', hst, heq⟩ := Option.map_eq_some_iff.mp h
        cases heq
        unfold stepIconAnswer at hst
        split at hst
        · rename_i c data hw
          cases hst
          exact .iconOk w c data hw
        · rename_i c e hw
          cases hst
          exact .iconErr w c e hw
        · rename_i c msg hw
          cases hst
          exact .iconCrash w c msg hw
        · cases hst
    | filesAnswer w res =>
        obtain ⟨st'', hst, heq⟩ := Option.map_eq_some_iff.mp h
        cases heq
        unfold stepFilesAnswer at hst
        split at hst
        · rename_i j files hw
          cases hst
          exact .filesOk w j files hw
        · rename_i j e hw
          cases hst
          exact .filesErr w j e hw
        · cases hst
  · cases h

/-! ## Effects on the tables -/

/-- An action leaves the repositories alone and a chart's row the same up to its icon. -/
theorem tables_moves {l : FetchLabel} (h : Moves env repo db st l db' st') :
    db'.repos = db.repos ∧ db'.nullCharts = db.nullCharts ∧
      ∀ k id, (db'.charts k id).map Chart.noIcon = (db.charts k id).map Chart.noIcon := by
  cases h with
  | updateIcon w c data db'' hw hdb =>
      obtain ⟨row, hrow, htab⟩ := Database.updateIcon_ok hdb
      refine ⟨by rw [htab], by rw [htab], fun k id => ?_⟩
      have hcharts := congrArg Tables.charts htab
      dsimp only at hcharts
      rw [hcharts]
      by_cases hk : k = repoKey repo.internal
      · rw [hk, Function.update_self]
        by_cases hid : id = c.id
        · rw [hid, Function.update_self, hrow]
          rfl
        · rw [Function.update_of_ne hid]
      · rw [Function.update_of_ne hk]
  | insertFiles w j files db'' hw hdb =>
      obtain ⟨row, _, _, htab⟩ := Database.insertFiles_ok hdb
      exact ⟨by rw [htab], by rw [htab], fun k id => by rw [htab]⟩
  | _ => exact ⟨rfl, rfl, fun _ _ => rfl⟩

/-! ## Credentials -/

/-- An action sends at most one request: that of an icon, or that of a tarball. -/
theorem requests_moves {l : FetchLabel} (h : Moves env repo db st l db' st') :
    st'.requests = st.requests ∨ ∃ req, st'.requests = st.requests ++ [req] ∧
      ((∃ c, Syncer.iconRequest env repo.internal c = .ok req) ∨
        ∃ cv, tarballRequest env repo.internal cv = .ok req) := by
  cases h with
  | iconSend w c req hw hreq => exact .inr ⟨req, rfl, .inl ⟨c, hreq⟩⟩
  | tarballSend w j req hw hkind hreq => exact .inr ⟨req, rfl, .inr ⟨j.chartVersion, hreq⟩⟩
  | _ => exact .inl rfl

end Inversion

end FetchFiles

/-- The URL parses to the scheme and host of the repository's. -/
def SameHost (net : NetUrl) (url repoURL : String) : Prop :=
  ∃ u v, net.parseRequestURI url = .ok u ∧ net.parseRequestURI repoURL = .ok v ∧
    net.scheme u = net.scheme v ∧ net.host u = net.host v

theorem sameHost_of_isURLDomainEqual {net : NetUrl} {url1 url2 : String}
    (h : isURLDomainEqual net url1 url2 = true) : SameHost net url1 url2 := by
  unfold isURLDomainEqual at h
  split at h
  · rename_i u v hu hv
    simp only [Bool.and_eq_true, decide_eq_true_eq] at h
    exact ⟨u, v, hu, hv, h.1, h.2⟩
  · cases h

theorem sameHost_of_sendsCredentials {env : FetchEnv} (hpass : env.passCredentials = false)
    {r : RepoInternal} {url : String} (h : sendsCredentials env r url = true) :
    SameHost env.net url r.url := by
  simp only [sendsCredentials, hpass, Bool.false_or, Bool.and_eq_true] at h
  exact sameHost_of_isURLDomainEqual h.2

theorem newRequest_eq_ok {net : NetUrl} {url : String} {auth : Option String} {req : Request}
    (h : newRequest net url auth = .ok req) : req = ⟨url, auth⟩ := by
  unfold newRequest at h
  split at h
  · cases h
  · cases h
    rfl

theorem iconRequest_sameHost {env : FetchEnv} (hpass : env.passCredentials = false)
    {r : RepoInternal} {c : Chart} {req : Request} (h : iconRequest env r c = .ok req)
    (hauth : req.authorization ≠ none) : SameHost env.net req.url r.url := by
  cases newRequest_eq_ok h
  refine sameHost_of_sendsCredentials hpass ?_
  by_contra hno
  simp [hno] at hauth

theorem tarballRequest_sameHost {env : FetchEnv} (hpass : env.passCredentials = false)
    {r : RepoInternal} {cv : ChartVersion} {req : Request} (h : tarballRequest env r cv = .ok req)
    (hauth : req.authorization ≠ none) : SameHost env.net req.url r.url := by
  unfold tarballRequest at h
  obtain ⟨url, _, h⟩ := bind_eq_ok h
  cases newRequest_eq_ok (liftErr_eq_ok h)
  refine sameHost_of_sendsCredentials hpass ?_
  by_contra hno
  simp [hno] at hauth

/-- Every request so far with an `Authorization` header went to the repository's host. -/
def HeaderStays (env : FetchEnv) (repo : RepoRef) (s : Database × FetchFiles) : Prop :=
  ∀ req ∈ s.2.requests, req.authorization ≠ none → SameHost env.net req.url repo.internal.url

theorem headerStays_step {env : FetchEnv} {repo : RepoRef} (hpass : env.passCredentials = false)
    {s s' : Database × FetchFiles} {l : FetchLabel} (hi : HeaderStays env repo s)
    (hs : FetchFiles.step env repo s l = some s') : HeaderStays env repo s' := by
  intro req hreq hauth
  obtain ⟨db, st⟩ := s
  obtain ⟨db', st'⟩ := s'
  obtain ⟨_, hm⟩ := FetchFiles.moves_of_step hs
  rcases FetchFiles.requests_moves hm with hsame | ⟨new, hnew, hkind⟩
  · exact hi req (hsame ▸ hreq) hauth
  · rw [hnew] at hreq
    rcases List.mem_append.mp hreq with hold | hlast
    · exact hi req hold hauth
    · cases List.mem_singleton.mp hlast
      rcases hkind with ⟨c, hc⟩ | ⟨cv, hcv⟩
      · exact iconRequest_sameHost hpass hc hauth
      · exact tarballRequest_sameHost hpass hcv hauth

/-- **Credentials stay with the repository.** Without `passCredentials`, in every run of
    `fetchFiles` on any charts and any tables, each request that carries an `Authorization`
    header goes to the scheme and host of the repository. -/
theorem authorization_only_to_repo_host (env : FetchEnv) (repo : RepoRef) (db db' : Database)
    (charts : List Chart) (as : List FetchLabel) (st : FetchFiles)
    (hpass : env.passCredentials = false)
    (h : runs (FetchFiles.step env repo) (db, FetchFiles.init charts) as = some (db', st)) :
    ∀ req ∈ st.requests, req.authorization ≠ none →
      SameHost env.net req.url repo.internal.url := by
  have hinit : HeaderStays env repo (db, FetchFiles.init charts) := by
    intro req hreq
    cases hreq
  exact runs_invariant (fun _ _ _ hi hs => headerStays_step hpass hi hs) h hinit

/-- A chart with an icon on the host of its repository and a tarball elsewhere. -/
def iconChart : Chart where
  id := "bitnami/nginx"
  name := "nginx"
  repo := bitnami.repo
  description := ""
  home := ""
  keywords := []
  maintainers := []
  sources := []
  icon := "https://charts.example.com/nginx.png"
  rawIcon := ""
  iconContentType := ""
  category := ""
  chartVersions := [⟨"1.0.0", "", "", "", ["https://cdn.example.org/nginx-1.0.0.tgz"], "", "", ""⟩]

def plainFetch : FetchEnv := ⟨NetUrl.plain, false⟩

def tokenRepo : RepoRef := ⟨.helm, { bitnami with authorizationHeader := "Bearer token" }⟩

/-- The icon is requested and answered with an error, then the tarball is requested. -/
def iconSchedule : List FetchLabel :=
  [.main, .main, .main, .main, .receive 0, .act 0, .iconAnswer 0 (.error (.error "404")), .receive 0,
    .receive 0, .act 0, .act 0]

theorem authorization_only_to_repo_host_icon :
    ∃ db' st, runs (FetchFiles.step plainFetch tokenRepo)
        (Database.empty, FetchFiles.init [iconChart]) iconSchedule = some (db', st) ∧
      st.requests = [⟨"https://charts.example.com/nginx.png", some "Bearer token"⟩,
        ⟨"https://cdn.example.org/nginx-1.0.0.tgz", none⟩] ∧
      ∀ req ∈ st.requests, req.authorization ≠ none →
        SameHost NetUrl.plain req.url "https://charts.example.com" := by
  have hreqs : (runs (FetchFiles.step plainFetch tokenRepo)
      (Database.empty, FetchFiles.init [iconChart]) iconSchedule).map (fun s => s.2.requests) =
      some [⟨"https://charts.example.com/nginx.png", some "Bearer token"⟩,
        ⟨"https://cdn.example.org/nginx-1.0.0.tgz", none⟩] := by
    decide +kernel
  obtain ⟨⟨db', st⟩, hrun, hst⟩ := Option.map_eq_some_iff.mp hreqs
  exact ⟨db', st, hrun, hst,
    authorization_only_to_repo_host plainFetch tokenRepo _ db' [iconChart] _ st rfl hrun⟩

end Kubeapps.Syncer
