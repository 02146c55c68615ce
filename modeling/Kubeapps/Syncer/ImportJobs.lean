/-
  The jobs of `fetchFiles` (cmd/asset-syncer/utils.go: fetchFiles, importWorker): what is sent on
  the two channels, in which order, and which worker starts what.

  `TaskMove` says what an action does to the channels and the workers, whatever an import answers.
  What has been started is what was sent without what is still on a channel (`JobsInv`), and every
  action makes `work` smaller, so a run ends; until then some party can move (`exists_move`).
  `fetchFiles_imports` puts this together for whole runs.
-/
import Kubeapps.Syncer.StoredFiles

namespace Kubeapps.Syncer

open Kubeapps.Lib Kubeapps.Models

/-! ## What is observed -/

/-- A job on one of the two channels. -/
inductive ImportJob where
  | icon (c : Chart)
  | files (j : FilesJob)
  deriving DecidableEq

/-- A job is sent, or a worker calls `fetchAndImportIcon` or `fetchAndImportFiles` with it. -/
inductive ImportEvent where
  | enqueue (job : ImportJob)
  | start (w : Nat) (job : ImportJob)
  deriving DecidableEq

/-- The import that the worker is at the beginning of. -/
def ImportWorker.begins : ImportWorker → Option ImportJob
  | .iconRequest c => some (.icon c)
  | .filesExist j => some (.files j)
  | _ => none

/-- The worker whose action it is. -/
def FetchLabel.worker : FetchLabel → Option Nat
  | .receive w => some w
  | .act w => some w
  | .iconAnswer w _ => some w
  | .filesAnswer w _ => some w
  | .main => none
  | .wait => none

/-- What is seen of an action from `s` to `s'`: a worker that is at the beginning of an import
    afterwards, or a new job at the end of a channel. -/
def importEvent (s : Database × FetchFiles) (l : FetchLabel) (s' : Database × FetchFiles) :
    Option ImportEvent :=
  match l.worker with
  | some w => (s'.2.workers[w]?.bind ImportWorker.begins).map (.start w)
  | none =>
      match s'.2.icons[s.2.icons.length]?, s'.2.files[s.2.files.length]? with
      | some c, _ => some (.enqueue (.icon c))
      | none, some j => some (.enqueue (.files j))
      | none, none => none

def ImportEvent.enqueued : ImportEvent → Option ImportJob
  | .enqueue job => some job
  | .start _ _ => none

def ImportEvent.started : ImportEvent → Option ImportJob
  | .enqueue _ => none
  | .start _ job => some job

def ImportJob.chart : ImportJob → Option Chart
  | .icon c => some c
  | .files _ => none

def ImportJob.filesJob : ImportJob → Option FilesJob
  | .icon _ => none
  | .files j => some j

/-- The jobs of the chart versions: the first version of every chart before all others. -/
def filesOrder (charts : List Chart) : List FilesJob :=
  charts.filterMap firstJob ++ charts.flatMap otherJobs

/-- The jobs in the order in which they are sent. -/
def jobOrder (charts : List Chart) : List ImportJob :=
  charts.map .icon ++ (filesOrder charts).map .files

/-! ## Moves -/

/-- The stage of a worker: each action of a worker makes it smaller, but for a new job. -/
def ImportWorker.rank : ImportWorker → Nat
  | .onIcons => 2
  | .iconRequest _ => 5
  | .iconResponse _ => 4
  | .updateIcon _ _ => 3
  | .onFiles => 1
  | .filesExist _ => 5
  | .fetchFiles _ => 4
  | .filesResponse _ => 3
  | .insertFiles _ _ => 2
  | .exited => 0

/-- The worker waits for a job, or has left. -/
def ImportWorker.idle : ImportWorker → Bool
  | .onIcons => true
  | .onFiles => true
  | .exited => true
  | _ => false

/-- The worker is in its first loop. -/
def ImportWorker.inIcons : ImportWorker → Bool
  | .onIcons => true
  | .iconRequest _ => true
  | .iconResponse _ => true
  | .updateIcon _ _ => true
  | _ => false

section Task

variable {env : FetchEnv} {repo : RepoRef} {db db' : Database} {st st' : FetchFiles}
  {l : FetchLabel}

/-- What an action does to the jobs: the main goroutine goes on, a worker takes a job or leaves a
    loop, or it works on its job. `ev` is what is observed. -/
inductive TaskMove (st st' : FetchFiles) : Option ImportEvent → Prop
  | sendIcon (c : Chart) (rest : List MainAct) (hmain : st.main = .sendIcon c :: rest)
      (h : st' = { st with main := rest, icons := st.icons ++ [c] }) :
      TaskMove st st' (some (.enqueue (.icon c)))
  | closeIcons (rest : List MainAct) (hmain : st.main = .closeIcons :: rest)
      (h : st' = { st with main := rest, iconsClosed := true }) : TaskMove st st' none
  | sendFiles (j : FilesJob) (rest : List MainAct) (hmain : st.main = .sendFiles (some j) :: rest)
      (h : st' = { st with main := rest, files := st.files ++ [j] }) :
      TaskMove st st' (some (.enqueue (.files j)))
  | mainCrash (rest : List MainAct) (hmain : st.main = .sendFiles none :: rest)
      (h : st' = { st with phase := .crashed }) : TaskMove st st' none
  | closeFiles (rest : List MainAct) (hmain : st.main = .closeFiles :: rest)
      (h : st' = { st with main := rest, filesClosed := true }) : TaskMove st st' none
  | wait (hmain : st.main = []) (hall : ∀ x ∈ st.workers, x = .exited)
      (h : st' = { st with phase := .returned }) : TaskMove st st' none
  | takeIcon (w : Nat) (c : Chart) (rest : List Chart) (hw : st.workers[w]? = some .onIcons)
      (hc : st.icons = c :: rest)
      (h : st' = { st with icons := rest, workers := st.workers.set w (.iconRequest c) }) :
      TaskMove st st' (some (.start w (.icon c)))
  | leaveIcons (w : Nat) (hw : st.workers[w]? = some .onIcons) (hc : st.icons = [])
      (hclosed : st.iconsClosed = true) (h : st' = st.setWorker w .onFiles) :
      TaskMove st st' none
  | takeFiles (w : Nat) (j : FilesJob) (rest : List FilesJob)
      (hw : st.workers[w]? = some .onFiles) (hj : st.files = j :: rest)
      (h : st' = { st with files := rest, workers := st.workers.set w (.filesExist j) }) :
      TaskMove st st' (some (.start w (.files j)))
  | leaveFiles (w : Nat) (hw : st.workers[w]? = some .onFiles) (hj : st.files = [])
      (hclosed : st.filesClosed = true) (h : st' = st.setWorker w .exited) :
      TaskMove st st' none
  | work (w : Nat) (x y : ImportWorker) (hw : st.workers[w]? = some x) (hbusy : x.idle = false)
      (hrank : y.rank < x.rank) (hloop : y.inIcons = x.inIcons) (hstay : y ≠ .exited)
      (hjob : y.job = none ∨ y.job = x.job) (requests : List Request)
      (h : st' = { st with requests := requests, workers := st.workers.set w y }) :
      TaskMove st st' none
  | workerCrash (h : st' = { st with phase := .crashed }) : TaskMove st st' none

theorem importEvent_of_set {w : Nat} {x y : ImportWorker} (hl : l.worker = some w)
    (hw : st.workers[w]? = some x) (hworkers : st'.workers = st.workers.set w y) :
    importEvent (db, st) l (db', st') = y.begins.map (.start w) := by
  have hlt : w < st.workers.length := (List.getElem?_eq_some_iff.mp hw).1
  have hself : (st.workers.set w y)[w]? = some y := List.getElem?_set_self hlt
  simp only [importEvent, hl, hworkers, hself, Option.bind_some]

theorem importEvent_of_busy {w : Nat} {x : ImportWorker} (hl : l.worker = some w)
    (hw : st.workers[w]? = some x) (hworkers : st'.workers = st.workers)
    (hbegins : x.begins = none) : importEvent (db, st) l (db', st') = none := by
  simp only [importEvent, hl, hworkers, hw, Option.bind_some, hbegins, Option.map_none]

theorem importEvent_of_channels (hl : l.worker = none) (hicons : st'.icons = st.icons)
    (hfiles : st'.files = st.files) : importEvent (db, st) l (db', st') = none := by
  simp [importEvent, hl, hicons, hfiles]

theorem taskMove_of_moves (hm : FetchFiles.Moves env repo db st l db' st') :
    TaskMove st st' (importEvent (db, st) l (db', st')) := by
  have hseen : ∀ {ev : Option ImportEvent}, importEvent (db, st) l (db', st') = ev →
      TaskMove st st' ev → TaskMove st st' (importEvent (db, st) l (db', st')) :=
    fun hev hmove => hev ▸ hmove
  have hwork : ∀ {w : Nat} {x : ImportWorker} (y : ImportWorker) (requests : List Request),
      l.worker = some w → st.workers[w]? = some x → x.idle = false →
        (y.rank < x.rank ∧ y.inIcons = x.inIcons ∧ y ≠ .exited ∧
          (y.job = none ∨ y.job = x.job) ∧ y.begins = none) →
        st' = { st with requests := requests, workers := st.workers.set w y } →
          TaskMove st st' (importEvent (db, st) l (db', st')) := by
    intro w x y requests hl hw hbusy ⟨hrank, hloop, hstay, hjob, hbegins⟩ heq
    have hev : importEvent (db, st) l (db', st') = none := by
      rw [importEvent_of_set (y := y) hl hw (by rw [heq]), hbegins, Option.map_none]
    exact hseen hev (.work w x y hw hbusy hrank hloop hstay hjob requests heq)
  cases hm with
  | sendIcon c rest hmain hcap =>
      exact hseen (by simp [importEvent, FetchLabel.worker]) (.sendIcon c rest hmain rfl)
  | closeIcons rest hmain =>
      exact hseen (importEvent_of_channels rfl rfl rfl) (.closeIcons rest hmain rfl)
  | sendFiles j rest hmain hcap =>
      exact hseen (by simp [importEvent, FetchLabel.worker]) (.sendFiles j rest hmain rfl)
  | mainCrash rest hmain =>
      exact hseen (importEvent_of_channels rfl rfl rfl) (.mainCrash rest hmain rfl)
  | closeFiles rest hmain =>
      exact hseen (importEvent_of_channels rfl rfl rfl) (.closeFiles rest hmain rfl)
  | wait hmain hall =>
      exact hseen (importEvent_of_channels rfl rfl rfl) (.wait hmain hall rfl)
  | takeIcon w c rest hw hc =>
      exact hseen (importEvent_of_set (y := .iconRequest c) rfl hw rfl)
        (.takeIcon w c rest hw hc rfl)
  | leaveIcons w hw hc hclosed =>
      exact hseen (importEvent_of_set (y := .onFiles) rfl hw rfl) (.leaveIcons w hw hc hclosed rfl)
  | takeFiles w j rest hw hj =>
      exact hseen (importEvent_of_set (y := .filesExist j) rfl hw rfl)
        (.takeFiles w j rest hw hj rfl)
  | leaveFiles w hw hj hclosed =>
      exact hseen (importEvent_of_set (y := .exited) rfl hw rfl) (.leaveFiles w hw hj hclosed rfl)
  | iconSkip w c hw =>
      exact hwork .onIcons st.requests rfl hw rfl
        (by simp [ImportWorker.rank, ImportWorker.inIcons, ImportWorker.job, ImportWorker.begins])
        rfl
  | iconSend w c req hw hreq =>
      exact hwork (.iconResponse c) _ rfl hw rfl
        (by simp [ImportWorker.rank, ImportWorker.inIcons, ImportWorker.job, ImportWorker.begins])
        rfl
  | iconOk w c data hw =>
      exact hwork (.updateIcon c data) st.requests rfl hw rfl
        (by simp [ImportWorker.rank, ImportWorker.inIcons, ImportWorker.job, ImportWorker.begins])
        rfl
  | iconErr w c e hw =>
      exact hwork .onIcons st.requests rfl hw rfl
        (by simp [ImportWorker.rank, ImportWorker.inIcons, ImportWorker.job, ImportWorker.begins])
        rfl
  | iconCrash w c msg hw =>
      exact hseen (importEvent_of_busy rfl hw rfl rfl) (.workerCrash rfl)
  | updateIcon w c data db'' hw hdb =>
      exact hwork .onIcons st.requests rfl hw rfl
        (by simp [ImportWorker.rank, ImportWorker.inIcons, ImportWorker.job, ImportWorker.begins])
        rfl
  | updateIconErr w c data hw =>
      exact hwork .onIcons st.requests rfl hw rfl
        (by simp [ImportWorker.rank, ImportWorker.inIcons, ImportWorker.job, ImportWorker.begins])
        rfl
  | filesKnown w j hw hex =>
      exact hwork .onFiles st.requests rfl hw rfl
        (by simp [ImportWorker.rank, ImportWorker.inIcons, ImportWorker.job, ImportWorker.begins])
        rfl
  | filesUnknown w j hw =>
      exact hwork (.fetchFiles j) st.requests rfl hw rfl
        (by simp [ImportWorker.rank, ImportWorker.inIcons, ImportWorker.job, ImportWorker.begins])
        rfl
  | tarballSend w j req hw hkind hreq =>
      exact hwork (.filesResponse j) _ rfl hw rfl
        (by simp [ImportWorker.rank, ImportWorker.inIcons, ImportWorker.job, ImportWorker.begins])
        rfl
  | tarballErr w j e hw hkind hreq =>
      exact hwork .onFiles st.requests rfl hw rfl
        (by simp [ImportWorker.rank, ImportWorker.inIcons, ImportWorker.job, ImportWorker.begins])
        rfl
  | tarballCrash w j msg hw hkind hreq =>
      exact hseen (importEvent_of_busy rfl hw rfl rfl) (.workerCrash rfl)
  | ociFiles w j files hw hkind =>
      exact hwork (.insertFiles j files) st.requests rfl hw rfl
        (by simp [ImportWorker.rank, ImportWorker.inIcons, ImportWorker.job, ImportWorker.begins])
        rfl
  | filesOk w j files hw =>
      exact hwork (.insertFiles j files) st.requests rfl hw rfl
        (by simp [ImportWorker.rank, ImportWorker.inIcons, ImportWorker.job, ImportWorker.begins])
        rfl
  | filesErr w j e hw =>
      exact hwork .onFiles st.requests rfl hw rfl
        (by simp [ImportWorker.rank, ImportWorker.inIcons, ImportWorker.job, ImportWorker.begins])
        rfl
  | insertFiles w j files db'' hw hdb =>
      exact hwork .onFiles st.requests rfl hw rfl
        (by simp [ImportWorker.rank, ImportWorker.inIcons, ImportWorker.job, ImportWorker.begins])
        rfl
  | insertErr w j files e hw hdb =>
      exact hwork .onFiles st.requests rfl hw rfl
        (by simp [ImportWorker.rank, ImportWorker.inIcons, ImportWorker.job, ImportWorker.begins])
        rfl

end Task

/-! ## What holds of every reachable state -/

/-- The job that the main goroutine sends by an action. -/
def MainAct.job : MainAct → Option ImportJob
  | .sendIcon c => some (.icon c)
  | .sendFiles (some j) => some (.files j)
  | _ => none

/-- The body of `fetchFiles` after `close(iconJobs)`. -/
def filesActs (charts : List Chart) : List MainAct :=
  (filesOrder charts).map (fun j => .sendFiles (some j)) ++ [.closeFiles]

/-- Where the main goroutine is. -/
inductive Sending (charts : List Chart) (st : FetchFiles) : Prop
  | icons (cs : List Chart) (hmain : st.main = cs.map .sendIcon ++ .closeIcons :: filesActs charts)
      (hicons : st.iconsClosed = false) (hfiles : st.filesClosed = false)
  | files (js : List FilesJob)
      (hmain : st.main = js.map (fun j => .sendFiles (some j)) ++ [.closeFiles])
      (hicons : st.iconsClosed = true) (hfiles : st.filesClosed = false)
  | done (hmain : st.main = []) (hicons : st.iconsClosed = true) (hfiles : st.filesClosed = true)

/-- The state `st` after `log` was seen. -/
structure JobsInv (charts : List Chart) (log : List ImportEvent) (st : FetchFiles) : Prop where
  sending : Sending charts st
  enqueued : log.filterMap ImportEvent.enqueued ++ st.main.filterMap MainAct.job = jobOrder charts
  icons : (log.filterMap ImportEvent.started).filterMap ImportJob.chart ++ st.icons =
    (log.filterMap ImportEvent.enqueued).filterMap ImportJob.chart
  files : (log.filterMap ImportEvent.started).filterMap ImportJob.filesJob ++ st.files =
    (log.filterMap ImportEvent.enqueued).filterMap ImportJob.filesJob
  loops : ∀ x ∈ st.workers, x.inIcons = false → st.icons = [] ∧ st.iconsClosed = true
  exited : .exited ∈ st.workers → st.files = [] ∧ st.filesClosed = true
  workers : st.workers.length = numWorkers
  hands : ∀ x ∈ st.workers, ∀ j, x.job = some j → j ∈ filesOrder charts
  returned : st.phase = .returned → st.main = [] ∧ ∀ x ∈ st.workers, x = .exited

section Order

variable {charts : List Chart}

theorem filterMap_job_sendFiles (js : List FilesJob) :
    (js.map fun j => MainAct.sendFiles (some j)).filterMap MainAct.job = js.map .files := by
  rw [List.filterMap_map]
  show js.filterMap (some ∘ ImportJob.files) = _
  rw [List.filterMap_eq_map]

theorem filterMap_job_sendIcon (cs : List Chart) :
    (cs.map MainAct.sendIcon).filterMap MainAct.job = cs.map .icon := by
  rw [List.filterMap_map]
  show cs.filterMap (some ∘ ImportJob.icon) = _
  rw [List.filterMap_eq_map]

/-- With a version in each chart there is a first job of each. -/
theorem mainActs_eq (hne : ∀ c ∈ charts, c.chartVersions ≠ []) :
    mainActs charts = charts.map .sendIcon ++ .closeIcons :: filesActs charts := by
  have hfirst : ∀ cs : List Chart, (∀ c ∈ cs, c.chartVersions ≠ []) →
      cs.map (fun c => MainAct.sendFiles (firstJob c)) =
        (cs.filterMap firstJob).map fun j => MainAct.sendFiles (some j) := by
    intro cs
    induction cs with
    | nil => exact fun _ => rfl
    | cons c cs ih =>
        intro hcs
        obtain ⟨cv, cvs, hcvs⟩ := List.exists_cons_of_ne_nil (hcs c List.mem_cons_self)
        have hjob : firstJob c = some ⟨c.name, cv⟩ := by simp [firstJob, hcvs]
        rw [List.map_cons, List.filterMap_cons_some hjob, List.map_cons, hjob,
          ih fun c hc => hcs c (List.mem_cons_of_mem _ hc)]
  unfold mainActs filesActs filesOrder
  rw [hfirst charts hne, List.map_append]
  simp only [List.append_assoc, List.cons_append, List.nil_append]

theorem filterMap_job_mainActs (hne : ∀ c ∈ charts, c.chartVersions ≠ []) :
    (mainActs charts).filterMap MainAct.job = jobOrder charts := by
  have hclose : MainAct.job .closeIcons = none := rfl
  have hlast : [MainAct.closeFiles].filterMap MainAct.job = [] := rfl
  rw [mainActs_eq hne, List.filterMap_append, List.filterMap_cons_none hclose]
  unfold filesActs jobOrder
  rw [List.filterMap_append, filterMap_job_sendIcon, filterMap_job_sendFiles, hlast,
    List.append_nil]

/-- The icons of all jobs are the charts. -/
theorem jobOrder_charts : (jobOrder charts).filterMap ImportJob.chart = charts := by
  unfold jobOrder
  rw [List.filterMap_append, List.filterMap_map, List.filterMap_map]
  have hicons : charts.filterMap (ImportJob.chart ∘ .icon) = charts := List.filterMap_some
  have hfiles : (filesOrder charts).filterMap (ImportJob.chart ∘ .files) = [] := by
    simp [Function.comp_def, ImportJob.chart]
  rw [hicons, hfiles, List.append_nil]

theorem jobOrder_files : (jobOrder charts).filterMap ImportJob.filesJob = filesOrder charts := by
  unfold jobOrder
  rw [List.filterMap_append, List.filterMap_map, List.filterMap_map]
  have hicons : charts.filterMap (ImportJob.filesJob ∘ .icon) = [] := by
    simp [Function.comp_def, ImportJob.filesJob]
  have hfiles : (filesOrder charts).filterMap (ImportJob.filesJob ∘ .files) = filesOrder charts :=
    List.filterMap_some
  rw [hicons, hfiles, List.nil_append]

/-- The jobs are one for each version of a chart. -/
theorem filesOrder_perm (hne : ∀ c ∈ charts, c.chartVersions ≠ []) :
    (filesOrder charts).Perm (jobsOf charts) := by
  induction charts with
  | nil => exact List.Perm.refl _
  | cons c cs ih =>
      obtain ⟨cv, cvs, hcvs⟩ := List.exists_cons_of_ne_nil (hne c List.mem_cons_self)
      have hjob : firstJob c = some ⟨c.name, cv⟩ := by simp [firstJob, hcvs]
      have hjobs : c.chartVersions.map (fun cv => FilesJob.mk c.name cv) =
          ⟨c.name, cv⟩ :: otherJobs c := by simp [otherJobs, hcvs]
      have hrest := ih fun c hc => hne c (List.mem_cons_of_mem _ hc)
      unfold filesOrder jobsOf at hrest ⊢
      rw [List.filterMap_cons_some hjob, List.flatMap_cons, List.flatMap_cons, hjobs,
        List.cons_append, List.cons_append]
      refine List.Perm.cons _ ?_
      refine (List.perm_append_comm_assoc _ _ _).trans ?_
      exact hrest.append_left (otherJobs c)

end Order

section Invariant

variable {env : FetchEnv} {repo : RepoRef} {charts : List Chart} {log : List ImportEvent}
  {st st' : FetchFiles} {ev : Option ImportEvent}

theorem jobsInv_init (hne : ∀ c ∈ charts, c.chartVersions ≠ []) :
    JobsInv charts [] (FetchFiles.init charts) where
  sending := .icons charts (mainActs_eq hne) rfl rfl
  enqueued := filterMap_job_mainActs hne
  icons := rfl
  files := rfl
  loops x hx h := by
    rw [List.eq_of_mem_replicate hx] at h
    exact Bool.noConfusion h
  exited h := by simp [FetchFiles.init] at h
  workers := List.length_replicate
  hands x hx j hj := by
    rw [List.eq_of_mem_replicate hx] at hj
    cases hj
  returned h := by cases h

/-- The next action of the main goroutine. -/
inductive NextAct (charts : List Chart) (st : FetchFiles) (rest : List MainAct) : MainAct → Prop
  | sendIcon (c : Chart) (cs : List Chart)
      (hrest : rest = cs.map .sendIcon ++ .closeIcons :: filesActs charts)
      (hicons : st.iconsClosed = false) (hfiles : st.filesClosed = false) :
      NextAct charts st rest (.sendIcon c)
  | closeIcons (hrest : rest = filesActs charts) (hicons : st.iconsClosed = false)
      (hfiles : st.filesClosed = false) : NextAct charts st rest .closeIcons
  | sendFiles (j : FilesJob) (js : List FilesJob)
      (hrest : rest = js.map (fun j => .sendFiles (some j)) ++ [.closeFiles])
      (hicons : st.iconsClosed = true) (hfiles : st.filesClosed = false) :
      NextAct charts st rest (.sendFiles (some j))
  | closeFiles (hrest : rest = []) (hicons : st.iconsClosed = true)
      (hfiles : st.filesClosed = false) : NextAct charts st rest .closeFiles

theorem nextAct_of_sending {a : MainAct} {rest : List MainAct} (h : Sending charts st)
    (hmain : st.main = a :: rest) : NextAct charts st rest a := by
  cases h with
  | icons cs h1 h2 h3 =>
      rw [hmain] at h1
      cases cs with
      | nil =>
          obtain ⟨rfl, hrest⟩ := List.cons.inj h1
          exact .closeIcons hrest h2 h3
      | cons c cs =>
          obtain ⟨rfl, hrest⟩ := List.cons.inj h1
          exact .sendIcon c cs hrest h2 h3
  | files js h1 h2 h3 =>
      rw [hmain] at h1
      cases js with
      | nil =>
          obtain ⟨rfl, hrest⟩ := List.cons.inj h1
          exact .closeFiles hrest h2 h3
      | cons j js =>
          obtain ⟨rfl, hrest⟩ := List.cons.inj h1
          exact .sendFiles j js hrest h2 h3
  | done h1 h2 h3 => simp [hmain] at h1

/-- The main goroutine goes on in the order of its body. -/
theorem sending_step (h : Sending charts st) (hm : TaskMove st st' ev) :
    Sending charts st' := by
  have hstay : st'.main = st.main → st'.iconsClosed = st.iconsClosed →
      st'.filesClosed = st.filesClosed → Sending charts st' := by
    intro hmain hicons hfiles
    cases h with
    | icons cs h1 h2 h3 => exact .icons cs (hmain.trans h1) (hicons.trans h2) (hfiles.trans h3)
    | files js h1 h2 h3 => exact .files js (hmain.trans h1) (hicons.trans h2) (hfiles.trans h3)
    | done h1 h2 h3 => exact .done (hmain.trans h1) (hicons.trans h2) (hfiles.trans h3)
  cases hm with
  | sendIcon c rest hmain heq =>
      subst heq
      cases nextAct_of_sending h hmain with
      | sendIcon c cs hrest hicons hfiles => exact .icons cs hrest hicons hfiles
  | closeIcons rest hmain heq =>
      subst heq
      cases nextAct_of_sending h hmain with
      | closeIcons hrest hicons hfiles => exact .files (filesOrder charts) hrest rfl hfiles
  | sendFiles j rest hmain heq =>
      subst heq
      cases nextAct_of_sending h hmain with
      | sendFiles j js hrest hicons hfiles => exact .files js hrest hicons hfiles
  | closeFiles rest hmain heq =>
      subst heq
      cases nextAct_of_sending h hmain with
      | closeFiles hrest hicons hfiles => exact .done hrest hicons rfl
  | mainCrash rest hmain heq => exact hstay (by rw [heq]) (by rw [heq]) (by rw [heq])
  | wait hmain hall heq => exact hstay (by rw [heq]) (by rw [heq]) (by rw [heq])
  | takeIcon w c rest hw hc heq => exact hstay (by rw [heq]) (by rw [heq]) (by rw [heq])
  | leaveIcons w hw hc hclosed heq =>
      subst heq
      exact hstay rfl rfl rfl
  | takeFiles w j rest hw hj heq => exact hstay (by rw [heq]) (by rw [heq]) (by rw [heq])
  | leaveFiles w hw hj hclosed heq =>
      subst heq
      exact hstay rfl rfl rfl
  | work w x y hw hbusy hrank hloop hexit hjob requests heq =>
      exact hstay (by rw [heq]) (by rw [heq]) (by rw [heq])
  | workerCrash heq =>
      exact hstay (by rw [heq]) (by rw [heq]) (by rw [heq])

/-- What is sent comes off the body of the main goroutine. -/
theorem sent_taskMove (hm : TaskMove st st' ev) :
    ev.toList.filterMap ImportEvent.enqueued ++ st'.main.filterMap MainAct.job =
      st.main.filterMap MainAct.job := by
  cases hm with
  | sendIcon c rest hmain heq =>
      rw [heq, hmain]
      rfl
  | closeIcons rest hmain heq =>
      rw [heq, hmain]
      rfl
  | sendFiles j rest hmain heq =>
      rw [heq, hmain]
      rfl
  | closeFiles rest hmain heq =>
      rw [heq, hmain]
      rfl
  | leaveIcons w hw hc hclosed heq =>
      rw [heq]
      rfl
  | leaveFiles w hw hj hclosed heq =>
      rw [heq]
      rfl
  | takeIcon w c rest hw hc heq =>
      rw [heq]
      rfl
  | takeFiles w j rest hw hj heq =>
      rw [heq]
      rfl
  | mainCrash rest hmain heq =>
      rw [heq]
      rfl
  | wait hmain hall heq =>
      rw [heq]
      rfl
  | work w x y hw hbusy hrank hloop hexit hjob requests heq =>
      rw [heq]
      rfl
  | workerCrash heq =>
      rw [heq]
      rfl

/-- A job is started when it is taken off its channel. -/
theorem channels_taskMove (hm : TaskMove st st' ev) :
    ((ev.toList.filterMap ImportEvent.started).filterMap ImportJob.chart ++ st'.icons =
      st.icons ++ (ev.toList.filterMap ImportEvent.enqueued).filterMap ImportJob.chart) ∧
    ((ev.toList.filterMap ImportEvent.started).filterMap ImportJob.filesJob ++ st'.files =
      st.files ++ (ev.toList.filterMap ImportEvent.enqueued).filterMap ImportJob.filesJob) := by
  have hsame : st'.icons = st.icons → st'.files = st.files → ev = none →
      ((ev.toList.filterMap ImportEvent.started).filterMap ImportJob.chart ++ st'.icons =
        st.icons ++ (ev.toList.filterMap ImportEvent.enqueued).filterMap ImportJob.chart) ∧
      ((ev.toList.filterMap ImportEvent.started).filterMap ImportJob.filesJob ++ st'.files =
        st.files ++ (ev.toList.filterMap ImportEvent.enqueued).filterMap ImportJob.filesJob) := by
    intro hicons hfiles hev
    rw [hicons, hfiles, hev]
    exact ⟨(List.append_nil _).symm, (List.append_nil _).symm⟩
  cases hm with
  | sendIcon c rest hmain heq =>
      rw [heq]
      exact ⟨rfl, (List.append_nil _).symm⟩
  | sendFiles j rest hmain heq =>
      rw [heq]
      exact ⟨(List.append_nil _).symm, rfl⟩
  | takeIcon w c rest hw hc heq =>
      rw [heq, hc]
      exact ⟨(List.append_nil _).symm, (List.append_nil _).symm⟩
  | takeFiles w j rest hw hj heq =>
      rw [heq, hj]
      exact ⟨(List.append_nil _).symm, (List.append_nil _).symm⟩
  | closeIcons rest hmain heq => exact hsame (by rw [heq]) (by rw [heq]) rfl
  | closeFiles rest hmain heq => exact hsame (by rw [heq]) (by rw [heq]) rfl
  | mainCrash rest hmain heq => exact hsame (by rw [heq]) (by rw [heq]) rfl
  | wait hmain hall heq => exact hsame (by rw [heq]) (by rw [heq]) rfl
  | leaveIcons w hw hc hclosed heq =>
      subst heq
      exact hsame rfl rfl rfl
  | leaveFiles w hw hj hclosed heq =>
      subst heq
      exact hsame rfl rfl rfl
  | work w x y hw hbusy hrank hloop hexit hjob requests heq =>
      exact hsame (by rw [heq]) (by rw [heq]) rfl
  | workerCrash heq => exact hsame (by rw [heq]) (by rw [heq]) rfl

/-- The worker that moves, if one does. -/
structure WorkerMove (st st' : FetchFiles) (w : Nat) (x y : ImportWorker) : Prop where
  was : st.workers[w]? = some x
  becomes : st'.workers = st.workers.set w y
  loop : y.inIcons = false → x.inIcons = false ∨ st.icons = [] ∧ st.iconsClosed = true
  exit : y = .exited → st.files = [] ∧ st.filesClosed = true
  job : ∀ j, y.job = some j → x.job = some j ∨ j ∈ st.files

theorem workerMove_of_taskMove (hm : TaskMove st st' ev) :
    st'.workers = st.workers ∨ ∃ w x y, WorkerMove st st' w x y := by
  cases hm with
  | sendIcon c rest hmain heq => exact .inl (by rw [heq])
  | closeIcons rest hmain heq => exact .inl (by rw [heq])
  | sendFiles j rest hmain heq => exact .inl (by rw [heq])
  | closeFiles rest hmain heq => exact .inl (by rw [heq])
  | mainCrash rest hmain heq => exact .inl (by rw [heq])
  | wait hmain hall heq => exact .inl (by rw [heq])
  | workerCrash heq => exact .inl (by rw [heq])
  | takeIcon w c rest hw hc heq =>
      refine .inr ⟨w, .onIcons, .iconRequest c, hw, by rw [heq], ?_, ?_, ?_⟩
      · exact fun h => Bool.noConfusion h
      · exact fun h => ImportWorker.noConfusion h
      · exact fun j h => absurd h (by simp [ImportWorker.job])
  | leaveIcons w hw hc hclosed heq =>
      refine .inr ⟨w, .onIcons, .onFiles, hw, by rw [heq]; rfl, ?_, ?_, ?_⟩
      · exact fun _ => .inr ⟨hc, hclosed⟩
      · exact fun h => ImportWorker.noConfusion h
      · exact fun j h => absurd h (by simp [ImportWorker.job])
  | takeFiles w j rest hw hj heq =>
      refine .inr ⟨w, .onFiles, .filesExist j, hw, by rw [heq], ?_, ?_, ?_⟩
      · exact fun _ => .inl rfl
      · exact fun h => ImportWorker.noConfusion h
      · intro j' h
        have hsame : j = j' := Option.some.inj h
        rw [hj, ← hsame]
        exact .inr List.mem_cons_self
  | leaveFiles w hw hj hclosed heq =>
      refine .inr ⟨w, .onFiles, .exited, hw, by rw [heq]; rfl, ?_, ?_, ?_⟩
      · exact fun _ => .inl rfl
      · exact fun _ => ⟨hj, hclosed⟩
      · exact fun j h => absurd h (by simp [ImportWorker.job])
  | work w x y hw hbusy hrank hloop hexit hjob requests heq =>
      refine .inr ⟨w, x, y, hw, by rw [heq], ?_, ?_, ?_⟩
      · exact fun h => .inl (hloop.symm.trans h)
      · exact fun h => absurd h hexit
      · intro j hj
        rcases hjob with hnone | hsame
        · rw [hnone] at hj
          exact absurd hj (by simp)
        · exact .inl (hsame ▸ hj)

/-- Once the first channel is closed and empty it stays so. -/
theorem icons_done (hs : Sending charts st) (hm : TaskMove st st' ev)
    (h : st.icons = [] ∧ st.iconsClosed = true) : st'.icons = [] ∧ st'.iconsClosed = true := by
  obtain ⟨hnil, hclosed⟩ := h
  cases hm with
  | sendIcon c rest hmain heq =>
      cases nextAct_of_sending hs hmain with
      | sendIcon c cs hrest hicons hfiles => simp [hicons] at hclosed
  | takeIcon w c rest hw hc heq => simp [hnil] at hc
  | closeIcons rest hmain heq => exact ⟨by rw [heq]; exact hnil, by rw [heq]⟩
  | sendFiles j rest hmain heq => exact ⟨by rw [heq]; exact hnil, by rw [heq]; exact hclosed⟩
  | closeFiles rest hmain heq => exact ⟨by rw [heq]; exact hnil, by rw [heq]; exact hclosed⟩
  | mainCrash rest hmain heq => exact ⟨by rw [heq]; exact hnil, by rw [heq]; exact hclosed⟩
  | wait hmain hall heq => exact ⟨by rw [heq]; exact hnil, by rw [heq]; exact hclosed⟩
  | leaveIcons w hw hc hclosed' heq => exact ⟨by rw [heq]; exact hnil, by rw [heq]; exact hclosed⟩
  | takeFiles w j rest hw hj heq => exact ⟨by rw [heq]; exact hnil, by rw [heq]; exact hclosed⟩
  | leaveFiles w hw hj hclosed' heq => exact ⟨by rw [heq]; exact hnil, by rw [heq]; exact hclosed⟩
  | work w x y hw hbusy hrank hloop hexit hjob requests heq =>
      exact ⟨by rw [heq]; exact hnil, by rw [heq]; exact hclosed⟩
  | workerCrash heq =>
      exact ⟨by rw [heq]; exact hnil, by rw [heq]; exact hclosed⟩

/-- The same for the second channel. -/
theorem files_done (hs : Sending charts st) (hm : TaskMove st st' ev)
    (h : st.files = [] ∧ st.filesClosed = true) : st'.files = [] ∧ st'.filesClosed = true := by
  obtain ⟨hnil, hclosed⟩ := h
  have hmain : st.main = [] := by
    cases hs with
    | icons cs h1 h2 h3 => simp [h3] at hclosed
    | files js h1 h2 h3 => simp [h3] at hclosed
    | done h1 h2 h3 => exact h1
  cases hm with
  | sendFiles j rest hmain' heq => simp [hmain] at hmain'
  | takeFiles w j rest hw hj heq => simp [hnil] at hj
  | sendIcon c rest hmain' heq => simp [hmain] at hmain'
  | closeIcons rest hmain' heq => simp [hmain] at hmain'
  | closeFiles rest hmain' heq => simp [hmain] at hmain'
  | mainCrash rest hmain' heq => simp [hmain] at hmain'
  | wait hmain' hall heq => exact ⟨by rw [heq]; exact hnil, by rw [heq]; exact hclosed⟩
  | takeIcon w c rest hw hc heq => exact ⟨by rw [heq]; exact hnil, by rw [heq]; exact hclosed⟩
  | leaveIcons w hw hc hclosed' heq => exact ⟨by rw [heq]; exact hnil, by rw [heq]; exact hclosed⟩
  | leaveFiles w hw hj hclosed' heq => exact ⟨by rw [heq]; exact hnil, by rw [heq]; exact hclosed⟩
  | work w x y hw hbusy hrank hloop hexit hjob requests heq =>
      exact ⟨by rw [heq]; exact hnil, by rw [heq]; exact hclosed⟩
  | workerCrash heq =>
      exact ⟨by rw [heq]; exact hnil, by rw [heq]; exact hclosed⟩

/-- An action ends the run only when everyone is done, or by a panic. -/
theorem phase_taskMove (hrun : st.phase = .running) (hm : TaskMove st st' ev) :
    st'.phase = .running ∨
      (st'.phase = .returned ∧ st'.main = [] ∧ ∀ x ∈ st'.workers, x = .exited) ∨
      st'.phase = .crashed := by
  cases hm with
  | wait hmain hall heq => exact .inr (.inl (by rw [heq]; exact ⟨rfl, hmain, hall⟩))
  | workerCrash heq => exact .inr (.inr (by rw [heq]))
  | mainCrash rest hmain heq => exact .inr (.inr (by rw [heq]))
  | leaveIcons w hw hc hclosed heq =>
      subst heq
      exact .inl hrun
  | leaveFiles w hw hj hclosed heq =>
      subst heq
      exact .inl hrun
  | sendIcon c rest hmain heq => exact .inl (by rw [heq]; exact hrun)
  | closeIcons rest hmain heq => exact .inl (by rw [heq]; exact hrun)
  | sendFiles j rest hmain heq => exact .inl (by rw [heq]; exact hrun)
  | closeFiles rest hmain heq => exact .inl (by rw [heq]; exact hrun)
  | takeIcon w c rest hw hc heq => exact .inl (by rw [heq]; exact hrun)
  | takeFiles w j rest hw hj heq => exact .inl (by rw [heq]; exact hrun)
  | work w x y hw hbusy hrank hloop hexit hjob requests heq => exact .inl (by rw [heq]; exact hrun)

/-- A property of the workers is kept if the one that moves has it. -/
theorem forall_workers {P : ImportWorker → Prop} (hm : TaskMove st st' ev)
    (hold : ∀ x ∈ st.workers, P x)
    (hnew : ∀ w x y, WorkerMove st st' w x y → x ∈ st.workers → P y) : ∀ x ∈ st'.workers, P x := by
  intro z hz
  rcases workerMove_of_taskMove hm with hsame | ⟨w, x, y, hmove⟩
  · rw [hsame] at hz
    exact hold z hz
  · rw [hmove.becomes] at hz
    rcases Pool.mem_set_cases hz with rfl | hz
    · exact hnew w x z hmove (List.mem_of_getElem? hmove.was)
    · exact hold z hz

theorem jobsInv_step (hi : JobsInv charts log st) (hrun : st.phase = .running)
    (hm : TaskMove st st' ev) : JobsInv charts (log ++ ev.toList) st' := by
  have hs := hi.sending
  -- A job on the channel is one of the jobs to be sent.
  have horder : ∀ j ∈ st.files, j ∈ filesOrder charts := by
    intro j hj
    rw [← jobOrder_files, ← hi.enqueued, List.filterMap_append, ← hi.files]
    simp [hj]
  have hhands := forall_workers hm hi.hands fun w x y hmove hx j hj =>
    (hmove.job j hj).elim (hi.hands x hx j) (horder j)
  have hloops : ∀ x ∈ st'.workers, x.inIcons = false → st.icons = [] ∧ st.iconsClosed = true :=
    forall_workers hm hi.loops fun w x y hmove hx hy => (hmove.loop hy).elim (hi.loops x hx) id
  have hexit : ∀ x ∈ st'.workers, x = .exited → st.files = [] ∧ st.filesClosed = true := by
    refine forall_workers hm (fun x hx h => hi.exited (h ▸ hx)) fun w x y hmove hx h => ?_
    exact hmove.exit h
  refine ⟨sending_step hs hm, ?_, ?_, ?_, ?_, ?_, ?_, hhands, ?_⟩
  · rw [List.filterMap_append, List.append_assoc, sent_taskMove hm, hi.enqueued]
  · rw [List.filterMap_append, List.filterMap_append, List.filterMap_append, List.append_assoc,
      List.filterMap_append, (channels_taskMove hm).1, ← List.append_assoc, hi.icons]
  · rw [List.filterMap_append, List.filterMap_append, List.filterMap_append, List.append_assoc,
      List.filterMap_append, (channels_taskMove hm).2, ← List.append_assoc, hi.files]
  · exact fun x hx h => icons_done hs hm (hloops x hx h)
  · exact fun h => files_done hs hm (hexit _ h rfl)
  · rcases workerMove_of_taskMove hm with hsame | ⟨w, x, y, hmove⟩
    · rw [hsame]
      exact hi.workers
    · rw [hmove.becomes, List.length_set]
      exact hi.workers
  · intro hret
    rcases phase_taskMove hrun hm with h | ⟨_, hdone⟩ | h
    · simp [h] at hret
    · exact hdone
    · simp [h] at hret

/-! ## Progress -/

/-- The return of `fetchFiles` is one action more. -/
def returnLeft : PoolPhase → Nat
  | .running => 1
  | _ => 0

/-- What is left to do, in actions. -/
def work (st : FetchFiles) : Nat :=
  (st.main.map fun a => if a.job = none then 1 else 6).sum + 4 * st.icons.length +
    5 * st.files.length + (st.workers.map ImportWorker.rank).sum + returnLeft st.phase

theorem work_taskMove (hrun : st.phase = .running) (hm : TaskMove st st' ev) :
    work st' < work st := by
  have hset : ∀ {w : Nat} {x y : ImportWorker}, st.workers[w]? = some x →
      ((st.workers.set w y).map ImportWorker.rank).sum + x.rank =
        (st.workers.map ImportWorker.rank).sum + y.rank :=
    fun hw => Pool.sum_map_set ImportWorker.rank _ hw
  unfold work
  cases hm with
  | sendIcon c rest hmain heq =>
      rw [heq, hmain]
      simp [MainAct.job]
      omega
  | closeIcons rest hmain heq =>
      rw [heq, hmain]
      simp [MainAct.job]
  | sendFiles j rest hmain heq =>
      rw [heq, hmain]
      simp [MainAct.job]
      omega
  | closeFiles rest hmain heq =>
      rw [heq, hmain]
      simp [MainAct.job]
  | mainCrash rest hmain heq =>
      rw [heq, hrun]
      simp [returnLeft]
  | wait hmain hall heq =>
      rw [heq, hrun]
      simp [returnLeft]
  | workerCrash heq =>
      rw [heq, hrun]
      simp [returnLeft]
  | takeIcon w c rest hw hc heq =>
      have hsum := hset (y := .iconRequest c) hw
      rw [heq, hc]
      simp only [ImportWorker.rank, List.length_cons] at hsum ⊢
      omega
  | leaveIcons w hw hc hclosed heq =>
      have hsum := hset (y := .onFiles) hw
      rw [heq]
      simp only [ImportWorker.rank, FetchFiles.setWorker] at hsum ⊢
      omega
  | takeFiles w j rest hw hj heq =>
      have hsum := hset (y := .filesExist j) hw
      rw [heq, hj]
      simp only [ImportWorker.rank, List.length_cons] at hsum ⊢
      omega
  | leaveFiles w hw hj hclosed heq =>
      have hsum := hset (y := .exited) hw
      rw [heq]
      simp only [ImportWorker.rank, FetchFiles.setWorker] at hsum ⊢
      omega
  | work w x y hw hbusy hrank hloop hexit hjob requests heq =>
      have hsum := hset (y := y) hw
      rw [heq]
      dsimp only
      omega

/-- What the imports answer: an icon or a tarball, by the worker that waits for it. -/
structure Answers where
  icon : Nat → Go String
  files : Nat → Except String FileMap

/-- The label has the given answer. -/
def Answers.Agree (answers : Answers) : FetchLabel → Prop
  | .iconAnswer w res => res = answers.icon w
  | .filesAnswer w res => res = answers.files w
  | _ => True

theorem step_main (hrun : st.phase = .running) (db : Database) :
    FetchFiles.step env repo (db, st) .main = st.stepMain.map (db, ·) := if_pos hrun

theorem step_receive (hrun : st.phase = .running) (db : Database) (w : Nat) :
    FetchFiles.step env repo (db, st) (.receive w) = (st.stepReceive w).map (db, ·) := if_pos hrun

theorem step_act (hrun : st.phase = .running) (db : Database) (w : Nat) :
    FetchFiles.step env repo (db, st) (.act w) = FetchFiles.stepAct env repo db st w := if_pos hrun

theorem step_iconAnswer (hrun : st.phase = .running) (db : Database) (w : Nat) (res : Go String) :
    FetchFiles.step env repo (db, st) (.iconAnswer w res) =
      (st.stepIconAnswer w res).map (db, ·) := if_pos hrun

theorem step_filesAnswer (hrun : st.phase = .running) (db : Database) (w : Nat)
    (res : Except String FileMap) :
    FetchFiles.step env repo (db, st) (.filesAnswer w res) =
      (st.stepFilesAnswer w res).map (db, ·) := if_pos hrun

theorem step_wait (hrun : st.phase = .running) (db : Database) (hmain : st.main = [])
    (hall : ∀ x ∈ st.workers, x = .exited) :
    FetchFiles.step env repo (db, st) .wait = some (db, { st with phase := .returned }) :=
  (if_pos hrun).trans (if_pos ⟨hmain, hall⟩)

/-- A worker that does not wait for an answer can act. -/
theorem exists_act (db : Database) {w : Nat} {x : ImportWorker} (hw : st.workers[w]? = some x)
    (hbusy : x.idle = false) (hicon : ∀ c, x ≠ .iconResponse c)
    (hfiles : ∀ j, x ≠ .filesResponse j) :
    ∃ s', FetchFiles.stepAct env repo db st w = some s' := by
  unfold FetchFiles.stepAct
  rw [hw]
  cases x with
  | onIcons => simp [ImportWorker.idle] at hbusy
  | onFiles => simp [ImportWorker.idle] at hbusy
  | exited => simp [ImportWorker.idle] at hbusy
  | iconResponse c => exact absurd rfl (hicon c)
  | filesResponse j => exact absurd rfl (hfiles j)
  | fetchFiles j => exact ⟨_, rfl⟩
  | iconRequest c =>
      dsimp only
      split
      · exact ⟨_, rfl⟩
      · split
        · exact ⟨_, rfl⟩
        · exact ⟨_, rfl⟩
  | updateIcon c data =>
      dsimp only
      split
      · exact ⟨_, rfl⟩
      · exact ⟨_, rfl⟩
  | filesExist j =>
      dsimp only
      split
      · exact ⟨_, rfl⟩
      · exact ⟨_, rfl⟩
  | insertFiles j files =>
      dsimp only
      split
      · exact ⟨_, rfl⟩
      · exact ⟨_, rfl⟩

/-- A worker with a job can go on, whatever the import answers. -/
theorem exists_move_busy (hrun : st.phase = .running) (answers : Answers) (db : Database) {w : Nat}
    {x : ImportWorker} (hw : st.workers[w]? = some x) (hbusy : x.idle = false) :
    ∃ l s', answers.Agree l ∧ FetchFiles.step env repo (db, st) l = some s' := by
  by_cases hicon : ∃ c, x = .iconResponse c
  · obtain ⟨c, rfl⟩ := hicon
    have hstep : ∃ st', st.stepIconAnswer w (answers.icon w) = some st' := by
      unfold FetchFiles.stepIconAnswer
      rw [hw]
      cases answers.icon w with
      | ok data => exact ⟨_, rfl⟩
      | error f =>
          cases f with
          | error e => exact ⟨_, rfl⟩
          | panic msg => exact ⟨_, rfl⟩
    obtain ⟨st', hst'⟩ := hstep
    refine ⟨.iconAnswer w (answers.icon w), (db, st'), rfl, ?_⟩
    rw [step_iconAnswer hrun, hst', Option.map_some]
  by_cases hfiles : ∃ j, x = .filesResponse j
  · obtain ⟨j, rfl⟩ := hfiles
    have hstep : ∃ st', st.stepFilesAnswer w (answers.files w) = some st' := by
      unfold FetchFiles.stepFilesAnswer
      rw [hw]
      cases answers.files w with
      | ok files => exact ⟨_, rfl⟩
      | error e => exact ⟨_, rfl⟩
    obtain ⟨st', hst'⟩ := hstep
    refine ⟨.filesAnswer w (answers.files w), (db, st'), rfl, ?_⟩
    rw [step_filesAnswer hrun, hst', Option.map_some]
  · have hact : ∃ s', FetchFiles.stepAct env repo db st w = some s' :=
      exists_act db hw hbusy (fun c hc => hicon ⟨c, hc⟩) (fun j hj => hfiles ⟨j, hj⟩)
    obtain ⟨s', hs'⟩ := hact
    exact ⟨.act w, s', trivial, (step_act hrun db w).trans hs'⟩

/-- A worker that waits for a job can go on, unless its channel is empty and still open. -/
theorem exists_receive {w : Nat} {x : ImportWorker} (hw : st.workers[w]? = some x)
    (hready : (x = .onIcons ∧ (st.icons ≠ [] ∨ st.iconsClosed = true)) ∨
      (x = .onFiles ∧ (st.files ≠ [] ∨ st.filesClosed = true))) :
    ∃ st', st.stepReceive w = some st' := by
  unfold FetchFiles.stepReceive
  rw [hw]
  rcases hready with ⟨rfl, h⟩ | ⟨rfl, h⟩
  · dsimp only
    cases hc : st.icons with
    | cons c rest => exact ⟨_, rfl⟩
    | nil => exact ⟨_, if_pos (h.resolve_left fun hne => hne hc)⟩
  · dsimp only
    cases hj : st.files with
    | cons j rest => exact ⟨_, rfl⟩
    | nil => exact ⟨_, if_pos (h.resolve_left fun hne => hne hj)⟩

/-- The main goroutine can go on while it has something to do, unless the channel is full. -/
theorem exists_main (hs : Sending charts st) (hne : st.main ≠ [])
    (hicons : st.iconsClosed = false → st.icons = [])
    (hfiles : st.iconsClosed = true → st.files = []) : ∃ st', st.stepMain = some st' := by
  obtain ⟨a, rest, hmain⟩ := List.exists_cons_of_ne_nil hne
  have hcap : ([] : List Chart).length < numWorkers := by decide
  have hcap' : ([] : List FilesJob).length < numWorkers := by decide
  unfold FetchFiles.stepMain
  rw [hmain]
  cases nextAct_of_sending hs hmain with
  | sendIcon c cs hrest hopen hf =>
      rw [hicons hopen]
      exact ⟨_, if_pos hcap⟩
  | closeIcons hrest hopen hf => exact ⟨_, rfl⟩
  | sendFiles j js hrest hclosed hf =>
      rw [hfiles hclosed]
      exact ⟨_, if_pos hcap'⟩
  | closeFiles hrest hclosed hf => exact ⟨_, rfl⟩

/-- Someone can move, whatever the imports answer: a worker with a job, one whose channel has a job
    or is closed, the main goroutine, or it returns. -/
theorem exists_move (hi : JobsInv charts log st) (hrun : st.phase = .running)
    (answers : Answers) (db : Database) :
    ∃ l s', answers.Agree l ∧ FetchFiles.step env repo (db, st) l = some s' := by
  have hreceive : ∀ {w st'}, st.stepReceive w = some st' →
      ∃ l s', answers.Agree l ∧ FetchFiles.step env repo (db, st) l = some s' := by
    intro w st' hst'
    refine ⟨.receive w, (db, st'), trivial, ?_⟩
    rw [step_receive hrun, hst', Option.map_some]
  have hgo : (∃ st', st.stepMain = some st') →
      ∃ l s', answers.Agree l ∧ FetchFiles.step env repo (db, st) l = some s' := by
    intro ⟨st', hst'⟩
    refine ⟨.main, (db, st'), trivial, ?_⟩
    rw [step_main hrun, hst', Option.map_some]
  have hmain : st.filesClosed = false → st.main ≠ [] := by
    intro hopen hnil
    cases hi.sending with
    | icons cs h1 h2 h3 => simp [hnil] at h1
    | files js h1 h2 h3 => simp [hnil] at h1
    | done h1 h2 h3 => simp [h3] at hopen
  have hlater : st.iconsClosed = false → st.filesClosed = false := by
    intro hopen
    cases hi.sending with
    | icons cs h1 h2 h3 => exact h3
    | files js h1 h2 h3 => exact h3
    | done h1 h2 h3 => simp [h2] at hopen
  by_cases hbusy : ∃ x ∈ st.workers, x.idle = false
  · obtain ⟨x, hx, hidle⟩ := hbusy
    obtain ⟨w, hw⟩ := List.mem_iff_getElem?.mp hx
    exact exists_move_busy hrun answers db hw hidle
  by_cases honIcons : .onIcons ∈ st.workers
  · obtain ⟨w, hw⟩ := List.mem_iff_getElem?.mp honIcons
    by_cases hready : st.icons ≠ [] ∨ st.iconsClosed = true
    · obtain ⟨st', hst'⟩ := exists_receive hw (.inl ⟨rfl, hready⟩)
      exact hreceive hst'
    · obtain ⟨hempty, hopen⟩ := not_or.mp hready
      have hopen' : st.iconsClosed = false := Bool.eq_false_iff.mpr hopen
      refine hgo (exists_main hi.sending (hmain (hlater hopen')) (fun _ => ?_) fun hc => ?_)
      · exact not_not.mp hempty
      · exact absurd hc hopen
  by_cases honFiles : .onFiles ∈ st.workers
  · obtain ⟨w, hw⟩ := List.mem_iff_getElem?.mp honFiles
    have hicons := hi.loops _ honFiles rfl
    by_cases hready : st.files ≠ [] ∨ st.filesClosed = true
    · obtain ⟨st', hst'⟩ := exists_receive hw (.inr ⟨rfl, hready⟩)
      exact hreceive hst'
    · obtain ⟨hempty, hopen⟩ := not_or.mp hready
      refine hgo (exists_main hi.sending (hmain (Bool.eq_false_iff.mpr hopen)) (fun _ => hicons.1)
        fun _ => ?_)
      exact not_not.mp hempty
  -- No worker has a job and none waits for one.
  have hall : ∀ x ∈ st.workers, x = .exited := by
    intro x hx
    cases x with
    | exited => rfl
    | onIcons => exact absurd hx honIcons
    | onFiles => exact absurd hx honFiles
    | iconRequest c => exact absurd ⟨_, hx, rfl⟩ hbusy
    | iconResponse c => exact absurd ⟨_, hx, rfl⟩ hbusy
    | updateIcon c data => exact absurd ⟨_, hx, rfl⟩ hbusy
    | filesExist j => exact absurd ⟨_, hx, rfl⟩ hbusy
    | fetchFiles j => exact absurd ⟨_, hx, rfl⟩ hbusy
    | filesResponse j => exact absurd ⟨_, hx, rfl⟩ hbusy
    | insertFiles j files => exact absurd ⟨_, hx, rfl⟩ hbusy
  have hpos : 0 < st.workers.length := by
    rw [hi.workers]
    decide
  obtain ⟨x, hx⟩ := List.exists_mem_of_length_pos hpos
  have hclosed := (hi.exited (hall x hx ▸ hx)).2
  have hnil : st.main = [] := by
    cases hi.sending with
    | icons cs h1 h2 h3 => simp [h3] at hclosed
    | files js h1 h2 h3 => simp [h3] at hclosed
    | done h1 h2 h3 => exact h1
  exact ⟨.wait, _, trivial, step_wait hrun db hnil hall⟩

/-! ## Runs -/

/-- A worker that takes a job off the second channel has seen the first one empty and closed. -/
theorem icons_of_start (hi : JobsInv charts log st) {w : Nat} {j : FilesJob}
    (hm : TaskMove st st' (some (.start w (.files j)))) : st.icons = [] := by
  cases hm with
  | takeFiles w j rest hw hj heq => exact (hi.loops _ (List.mem_of_getElem? hw) rfl).1

/-- A panic is that of a URL or that of an icon. -/
theorem crash_of_moves {db db' : Database} {l : FetchLabel} (hi : JobsInv charts log st)
    (hrun : st.phase = .running) (hm : FetchFiles.Moves env repo db st l db' st')
    (hcrash : st'.phase = .crashed) :
    (∃ w j msg, l = .act w ∧ st.workers[w]? = some (.fetchFiles j) ∧ repo.kind = .helm ∧
      tarballRequest env repo.internal j.chartVersion = .error (.panic msg)) ∨
      ∃ w msg, l = .iconAnswer w (.error (.panic msg)) := by
  cases hm with
  | mainCrash rest hmain => cases nextAct_of_sending hi.sending hmain
  | tarballCrash w j msg hw hkind hreq => exact .inl ⟨w, j, msg, rfl, hw, hkind, hreq⟩
  | iconCrash w c msg hw => exact .inr ⟨w, msg, rfl⟩
  | wait hmain hall => cases hcrash
  | _ => cases hrun.symm.trans hcrash

/-- Nothing is left on a channel when `fetchFiles` returns. -/
theorem started_of_returned (hi : JobsInv charts log st) (hret : st.phase = .returned) :
    (log.filterMap ImportEvent.started).filterMap ImportJob.chart = charts ∧
      (log.filterMap ImportEvent.started).filterMap ImportJob.filesJob = filesOrder charts := by
  obtain ⟨hmain, hall⟩ := hi.returned hret
  have hpos : 0 < st.workers.length := by
    rw [hi.workers]
    decide
  obtain ⟨x, hx⟩ := List.exists_mem_of_length_pos hpos
  have hicons : st.icons = [] := (hi.loops x hx (by rw [hall x hx]; rfl)).1
  have hfiles : st.files = [] := (hi.exited (hall x hx ▸ hx)).1
  have hsent : log.filterMap ImportEvent.enqueued = jobOrder charts := by
    rw [← hi.enqueued, hmain, List.filterMap_nil, List.append_nil]
  have hstarted := hi.icons
  have hstarted' := hi.files
  rw [hicons, List.append_nil, hsent, jobOrder_charts] at hstarted
  rw [hfiles, List.append_nil, hsent, jobOrder_files] at hstarted'
  exact ⟨hstarted, hstarted'⟩

theorem work_step {s s' : Database × FetchFiles} {l : FetchLabel}
    (h : FetchFiles.step env repo s l = some s') : work s'.2 < work s.2 := by
  obtain ⟨hrun, hm⟩ := FetchFiles.moves_of_step h
  exact work_taskMove hrun (taskMove_of_moves hm)

theorem sum_map_const {α : Type} {f : α → Nat} {n : Nat} {xs : List α} (h : ∀ x ∈ xs, f x = n) :
    (xs.map f).sum = n * xs.length := by
  rw [List.map_congr_left h, List.map_const', List.sum_replicate_nat, Nat.mul_comm]

theorem work_init (hne : ∀ c ∈ charts, c.chartVersions ≠ []) :
    work (FetchFiles.init charts) = 6 * (charts.length + (jobsOf charts).length) + 23 := by
  have hlen := (filesOrder_perm hne).length_eq
  have hicons : ((charts.map MainAct.sendIcon).map fun a => if a.job = none then 1 else 6).sum =
      6 * charts.length := by
    rw [sum_map_const (n := 6), List.length_map]
    intro a ha
    obtain ⟨c, hc, rfl⟩ := List.mem_map.mp ha
    rfl
  have hfiles : (((filesOrder charts).map fun j => MainAct.sendFiles (some j)).map fun a =>
      if a.job = none then 1 else 6).sum = 6 * (filesOrder charts).length := by
    rw [sum_map_const (n := 6), List.length_map]
    intro a ha
    obtain ⟨j, hj, rfl⟩ := List.mem_map.mp ha
    rfl
  have hworkers : ((List.replicate numWorkers ImportWorker.onIcons).map ImportWorker.rank).sum =
      20 := rfl
  unfold work FetchFiles.init
  dsimp only
  rw [mainActs_eq hne, hworkers]
  unfold filesActs
  rw [List.map_append, List.map_cons, List.map_append, List.sum_append, List.sum_cons,
    List.sum_append, hicons, hfiles, hlen]
  simp only [MainAct.job, returnLeft, List.map_cons, List.map_nil, List.sum_cons, List.sum_nil,
    List.length_nil, if_pos]
  omega

end Invariant

/-- What is sent and started in a run of `fetchFiles`. -/
def importLog (env : FetchEnv) (repo : RepoRef) (db : Database) (charts : List Chart)
    (as : List FetchLabel) : List ImportEvent :=
  observed (FetchFiles.step env repo) importEvent (db, FetchFiles.init charts) as

/-- **The imports of `fetchFiles`.** On charts with versions, whatever the ten workers and the
    servers do: the jobs are sent in the order of `jobOrder`, no worker starts on a version while a
    chart waits for its icon, when `fetchFiles` returns no worker is at work and each chart and
    each version was started once, no run goes on for ever, and some party can always move, until
    the return or until a panic: that of a version without a URL, or that of an icon. -/
theorem fetchFiles_imports (env : FetchEnv) (repo : RepoRef) (db : Database) (charts : List Chart)
    (hne : ∀ c ∈ charts, c.chartVersions ≠ []) (as : List FetchLabel) (s : Database × FetchFiles)
    (h : runs (FetchFiles.step env repo) (db, FetchFiles.init charts) as = some s) :
    (importLog env repo db charts as).filterMap ImportEvent.enqueued <+: jobOrder charts ∧
      (∀ l s' w j, FetchFiles.step env repo s l = some s' →
        importEvent s l s' = some (.start w (.files j)) → s.2.icons = []) ∧
      (s.2.phase = .returned →
        (∀ x ∈ s.2.workers, x = .exited) ∧
          ((importLog env repo db charts as).filterMap ImportEvent.started).filterMap
            ImportJob.chart = charts ∧
          (((importLog env repo db charts as).filterMap ImportEvent.started).filterMap
            ImportJob.filesJob).Perm (jobsOf charts)) ∧
      as.length ≤ 6 * (charts.length + (jobsOf charts).length) + 23 ∧
      (s.2.phase = .running → ∀ answers : Answers, ∃ l s', answers.Agree l ∧
        FetchFiles.step env repo s l = some s') ∧
      (s.2.phase = .crashed →
        (repo.kind = .helm ∧ ∃ j ∈ jobsOf charts, ∃ msg,
          tarballRequest env repo.internal j.chartVersion = .error (.panic msg)) ∨
        ∃ w msg, FetchLabel.iconAnswer w (.error (.panic msg)) ∈ as) := by
  have hperm := filesOrder_perm hne
  have hstep : ∀ log s l s', JobsInv charts log s.2 → FetchFiles.step env repo s l = some s' →
      JobsInv charts (log ++ (importEvent s l s').toList) s'.2 := by
    intro log s l s' hi hs
    obtain ⟨hrun, hm⟩ := FetchFiles.moves_of_step hs
    exact jobsInv_step hi hrun (taskMove_of_moves hm)
  have hruns : ∀ {as s}, runs (FetchFiles.step env repo) (db, FetchFiles.init charts) as = some s →
      JobsInv charts (importLog env repo db charts as) s.2 :=
    fun h => runs_observed hstep h (jobsInv_init hne)
  have hi := hruns h
  refine ⟨?_, fun l s' w j hs hev => ?_, fun hret => ?_, ?_, fun hrun answers => ?_,
    fun hcrash => ?_⟩
  · exact ⟨_, hi.enqueued⟩
  · have hmove := taskMove_of_moves (FetchFiles.moves_of_step hs).2
    exact icons_of_start hi (hev ▸ hmove)
  · obtain ⟨hicons, hfiles⟩ := started_of_returned hi hret
    refine ⟨(hi.returned hret).2, hicons, ?_⟩
    rw [hfiles]
    exact hperm
  · have hbound := runs_measure (μ := fun s => work s.2) (fun _ _ _ hs => work_step hs) h
    rw [work_init hne] at hbound
    omega
  · exact exists_move hi hrun answers s.1
  · -- the last step is the one that panicked
    rcases List.eq_nil_or_concat as with rfl | ⟨pre, l, rfl⟩
    · cases h
      cases hcrash
    · rw [List.concat_eq_append] at h ⊢
      obtain ⟨t, hpre, hlast⟩ := runs_append_eq_some.1 h
      obtain ⟨t', hs, hnil⟩ := runs_cons_eq_some.1 hlast
      cases hnil
      obtain ⟨hrun, hm⟩ := FetchFiles.moves_of_step hs
      have ht := hruns hpre
      rcases crash_of_moves ht hrun hm hcrash with ⟨w, j, msg, _, hw, hkind, hreq⟩ | ⟨w, msg, rfl⟩
      · have hj := ht.hands _ (List.mem_of_getElem? hw) j rfl
        exact .inl ⟨hkind, j, hperm.mem_iff.mp hj, msg, hreq⟩
      · exact .inr ⟨w, msg, by simp⟩

/-- The icon is not there and neither is the tarball, and the workers leave. -/
def missingSchedule : List FetchLabel :=
  iconSchedule ++ [.filesAnswer 0 (.error "404")] ++ (List.range numWorkers).tail.map .receive ++
    (List.range numWorkers).map .receive ++ [.wait]

theorem fetchFiles_imports_icon :
    ∃ s, runs (FetchFiles.step plainFetch tokenRepo)
        (Database.empty, FetchFiles.init [iconChart]) missingSchedule = some s ∧
      s.2.phase = .returned ∧
      (((importLog plainFetch tokenRepo Database.empty [iconChart] missingSchedule).filterMap
        ImportEvent.started).filterMap ImportJob.filesJob).Perm (jobsOf [iconChart]) := by
  have hphase : (runs (FetchFiles.step plainFetch tokenRepo)
      (Database.empty, FetchFiles.init [iconChart]) missingSchedule).map (fun s => s.2.phase) =
      some .returned := by
    decide +kernel
  obtain ⟨s, hrun, hret⟩ := Option.map_eq_some_iff.mp hphase
  refine ⟨s, hrun, hret, ?_⟩
  exact ((fetchFiles_imports plainFetch tokenRepo Database.empty [iconChart] (by simp [iconChart])
    missingSchedule s hrun).2.2.1 hret).2.2

end Kubeapps.Syncer
