/-
  The files of the versions in the table, over histories of runs of any repositories.

  `FilesPresent` is what the catalog reads: each version of each row has its row of `files`. A run
  stores the checksum whatever `fetchFiles` did, and a run that finds its checksum stored fetches
  nothing, so a version whose download failed stays without files (`files_missing_after_error`), and
  so does one whose README, values or schema PostgreSQL refuses. `files_of_stored_checksum`: without
  such failures the files are there.

  The argument has two parts. During `fetchFiles` every job is still to be done, on its way, or has
  its row (`FetchInv`). Between runs, no run removes the row of another repository: the id of a
  row begins with the name of its repository (`OwnFiles`), and names have no slash.
-/
import Kubeapps.Syncer.History

namespace Kubeapps.Syncer

open Kubeapps.Lib Kubeapps.Models

/-! ## Rows of `files` -/

theorem filesExist_iff {db : Database} {k : RepoKey} {id digest : String} :
    db.filesExist k id digest = true ↔ ∃ row, db.files k.ns id = some row ∧
      row.repoName = k.name ∧ row.info.digest = digest := by
  unfold Database.filesExist
  cases db.files k.ns id with
  | none => simp
  | some row => simp

/-- Each version of each row of the repository has its files. -/
def FilesPresent (db : Database) (k : RepoKey) : Prop :=
  ∀ id c, db.charts k id = some c → ∀ cv ∈ c.chartVersions,
    ∃ row, db.files k.ns (k.name ++ "/" ++ c.name ++ "-" ++ cv.version) = some row ∧
      row.repoName = k.name ∧ row.info.digest = cv.digest

/-- The id of a row of `files` begins with its repository, whose name has no slash. -/
def OwnFiles (db : Database) : Prop :=
  ∀ ns id row, db.files ns id = some row →
    '/' ∉ row.repoName.toList ∧ ∃ s, id = row.repoName ++ "/" ++ s

theorem name_eq_of_slash {a b s t : String} (ha : '/' ∉ a.toList) (hb : '/' ∉ b.toList)
    (h : a ++ "/" ++ s = b ++ "/" ++ t) : a = b := by
  have hlist := congrArg String.toList h
  simp only [String.toList_append] at hlist
  have htake : ∀ {x : String} (y : String), '/' ∉ x.toList →
      ((x.toList ++ "/".toList) ++ y.toList).takeWhile (· ≠ '/') = x.toList := by
    intro x y hx
    have hall : ∀ c ∈ x.toList, decide (c ≠ '/') = true := by
      intro c hc
      simp only [decide_eq_true_eq]
      rintro rfl
      exact hx hc
    rw [List.append_assoc, List.takeWhile_append_of_pos hall]
    simp
  have heq := congrArg (List.takeWhile (· ≠ '/')) hlist
  rw [htake s ha, htake t hb] at heq
  exact String.toList_inj.mp heq

section InsertFiles

variable {db db' : Database} {k : RepoKey} {chartId s : String} {files : ChartFiles}

/-- With rows that are where they belong, `insertFiles` leaves a row of its own repository. -/
theorem insertFiles_own (hown : OwnFiles db) (hk : '/' ∉ k.name.toList)
    (hid : files.id = k.name ++ "/" ++ s) (h : db.insertFiles k chartId files = .ok db') :
    ∃ row, row.info = files ∧ row.repoName = k.name ∧
      db'.toTables = { db.toTables with
        files := Function.update db.files k.ns
          (Function.update (db.files k.ns) files.id (some row)) } := by
  obtain ⟨row, hinfo, hname, htab⟩ := Database.insertFiles_ok h
  refine ⟨row, hinfo, ?_, htab⟩
  rcases hname with ⟨old, hold, hname⟩ | ⟨_, hname⟩
  · obtain ⟨hslash, t, ht⟩ := hown k.ns files.id old hold
    rw [hname]
    exact name_eq_of_slash hslash hk (ht.symm.trans hid)
  · exact hname

theorem ownFiles_insertFiles (hown : OwnFiles db) (hk : '/' ∉ k.name.toList)
    (hid : files.id = k.name ++ "/" ++ s) (h : db.insertFiles k chartId files = .ok db') :
    OwnFiles db' := by
  obtain ⟨row, _, hname, htab⟩ := insertFiles_own hown hk hid h
  intro ns id row' hrow'
  rw [htab] at hrow'
  dsimp only at hrow'
  by_cases hns : ns = k.ns
  · subst hns
    rw [Function.update_self] at hrow'
    by_cases hid' : id = files.id
    · rw [hid', Function.update_self] at hrow'
      have heq := Option.some.inj hrow'
      rw [← heq, hname, hid', hid]
      exact ⟨hk, s, rfl⟩
    · rw [Function.update_of_ne hid'] at hrow'
      exact hown _ id row' hrow'
  · rw [Function.update_of_ne hns] at hrow'
    exact hown ns id row' hrow'

/-- The row is there afterwards. -/
theorem filesExist_insertFiles (hown : OwnFiles db) (hk : '/' ∉ k.name.toList)
    (hid : files.id = k.name ++ "/" ++ s) (h : db.insertFiles k chartId files = .ok db') :
    db'.filesExist k files.id files.digest = true := by
  obtain ⟨row, hinfo, hname, htab⟩ := insertFiles_own hown hk hid h
  rw [filesExist_iff, htab]
  refine ⟨row, ?_, hname, by rw [hinfo]⟩
  simp

/-- Every other row stays, and so does one of the same id and digest. -/
theorem filesExist_insertFiles_of (hown : OwnFiles db) (hk : '/' ∉ k.name.toList)
    (hid : files.id = k.name ++ "/" ++ s) (h : db.insertFiles k chartId files = .ok db')
    {k' : RepoKey} {id digest : String} (hex : db.filesExist k' id digest = true)
    (hsame : k' = k → id = files.id → digest = files.digest) :
    db'.filesExist k' id digest = true := by
  by_cases hrow : k'.ns = k.ns ∧ id = files.id
  · obtain ⟨hns, rfl⟩ := hrow
    obtain ⟨old, hold, hname, _⟩ := filesExist_iff.1 hex
    obtain ⟨hslash, t, ht⟩ := hown _ _ old hold
    have hname' : k'.name = k.name := by
      rw [← hname]
      exact name_eq_of_slash hslash hk (ht.symm.trans hid)
    have hk' : k' = k := by
      cases k'
      cases k
      simp_all
    rw [hk', hsame hk' rfl]
    exact filesExist_insertFiles hown hk hid h
  · obtain ⟨row, _, _, htab⟩ := insertFiles_own hown hk hid h
    have hsame' : db'.files k'.ns id = db.files k'.ns id := by
      rw [htab]
      dsimp only
      by_cases hns : k'.ns = k.ns
      · rw [hns, Function.update_self]
        exact Function.update_of_ne (fun hid' => hrow ⟨hns, hid'⟩) _ _
      · rw [Function.update_of_ne hns]
    rw [filesExist_iff] at hex ⊢
    rw [hsame']
    exact hex

end InsertFiles

/-! ## The jobs of `fetchFiles` -/

/-- A job for each version. -/
def jobsOf (cs : List Chart) : List FilesJob :=
  cs.flatMap fun c => c.chartVersions.map fun cv => ⟨c.name, cv⟩

/-- The job a worker has in hand. -/
def ImportWorker.job : ImportWorker → Option FilesJob
  | .filesExist j => some j
  | .fetchFiles j => some j
  | .filesResponse j => some j
  | .insertFiles j _ => some j
  | _ => none

/-- The job is not sent yet, on the channel, or in the hand of a worker. -/
def Unfinished (st : FetchFiles) (j : FilesJob) : Prop :=
  MainAct.sendFiles (some j) ∈ st.main ∨ j ∈ st.files ∨ ∃ x ∈ st.workers, x.job = some j

theorem mem_jobsOf {cs : List Chart} {j : FilesJob} :
    j ∈ jobsOf cs ↔ ∃ c ∈ cs, c.name = j.name ∧ j.chartVersion ∈ c.chartVersions := by
  obtain ⟨name, cv⟩ := j
  simp only [jobsOf, List.mem_flatMap, List.mem_map, FilesJob.mk.injEq]
  constructor
  · rintro ⟨c, hc, cv', hcv', hname, rfl⟩
    exact ⟨c, hc, hname, hcv'⟩
  · rintro ⟨c, hc, hname, hcv⟩
    exact ⟨c, hc, cv, hcv, hname, rfl⟩

theorem sendFiles_mem_mainActs {cs : List Chart} {j : FilesJob} :
    MainAct.sendFiles (some j) ∈ mainActs cs ↔
      (∃ c ∈ cs, firstJob c = some j) ∨ ∃ c ∈ cs, j ∈ otherJobs c := by
  simp [mainActs]

theorem mem_jobs_chart {c : Chart} {j : FilesJob} :
    firstJob c = some j ∨ j ∈ otherJobs c ↔
      c.name = j.name ∧ j.chartVersion ∈ c.chartVersions := by
  obtain ⟨name, cv⟩ := j
  cases hcvs : c.chartVersions with
  | nil => simp [firstJob, otherJobs, hcvs]
  | cons v vs =>
      simp only [firstJob, otherJobs, hcvs, List.head?_cons, Option.map_some, Option.some.injEq,
        List.tail_cons, List.mem_map, FilesJob.mk.injEq, List.mem_cons]
      constructor
      · rintro (⟨hname, rfl⟩ | ⟨cv', hcv', hname, rfl⟩)
        · exact ⟨hname, .inl rfl⟩
        · exact ⟨hname, .inr hcv'⟩
      · rintro ⟨hname, rfl | hcv⟩
        · exact .inl ⟨hname, rfl⟩
        · exact .inr ⟨cv, hcv, hname, rfl⟩

/-- At the start the jobs are all to be done. -/
theorem unfinished_init {cs : List Chart} {j : FilesJob} :
    Unfinished (FetchFiles.init cs) j ↔ j ∈ jobsOf cs := by
  have hworkers : ¬ ∃ x ∈ (FetchFiles.init cs).workers, x.job = some j := by
    rintro ⟨x, hx, hj⟩
    have honIcons : x = .onIcons := List.eq_of_mem_replicate hx
    simp [honIcons, ImportWorker.job] at hj
  have hmain : Unfinished (FetchFiles.init cs) j ↔ MainAct.sendFiles (some j) ∈ mainActs cs := by
    constructor
    · rintro (h | h | h)
      · exact h
      · simp [FetchFiles.init] at h
      · exact absurd h hworkers
    · exact .inl
  rw [hmain, sendFiles_mem_mainActs, mem_jobsOf]
  constructor
  · rintro (⟨c, hc, h⟩ | ⟨c, hc, h⟩)
    · exact ⟨c, hc, mem_jobs_chart.1 (.inl h)⟩
    · exact ⟨c, hc, mem_jobs_chart.1 (.inr h)⟩
  · rintro ⟨c, hc, h⟩
    rcases mem_jobs_chart.2 h with h | h
    · exact .inl ⟨c, hc, h⟩
    · exact .inr ⟨c, hc, h⟩

/-- The job has its row. -/
def HasFiles (db : Database) (r : RepoInternal) (j : FilesJob) : Prop :=
  db.filesExist (repoKey r) (chartFilesID r j) j.chartVersion.digest = true

section Fetch

variable {env : FetchEnv} {repo : RepoRef} {db db' : Database} {st st' : FetchFiles}
  {l : FetchLabel}

/-- What an action does to the jobs, when no fetch fails: they stay, one is sent, one is taken, or
    a worker gives one up that has its row. -/
inductive JobMove (r : RepoInternal) (db' : Database) (st st' : FetchFiles) : Prop
  | same (hmain : st'.main = st.main) (hfiles : st'.files = st.files)
      (hworkers : st'.workers = st.workers) (hclosed : st'.filesClosed = st.filesClosed)
  | main (a : MainAct) (hmain : st.main = a :: st'.main) (hsend : ∀ j, a ≠ .sendFiles (some j))
      (hfiles : st'.files = st.files) (hworkers : st'.workers = st.workers)
      (hclosed : st'.filesClosed = st.filesClosed ∨ a = .closeFiles)
  | send (j : FilesJob) (hmain : st.main = .sendFiles (some j) :: st'.main)
      (hfiles : st'.files = st.files ++ [j]) (hworkers : st'.workers = st.workers)
      (hclosed : st'.filesClosed = st.filesClosed)
  | take (w : Nat) (j : FilesJob) (hmain : st'.main = st.main)
      (hw : st.workers[w]? = some .onFiles) (hfiles : st.files = j :: st'.files)
      (hworkers : st'.workers = st.workers.set w (.filesExist j))
      (hclosed : st'.filesClosed = st.filesClosed)
  | work (w : Nat) (x y : ImportWorker) (hmain : st'.main = st.main)
      (hfiles : st'.files = st.files) (hw : st.workers[w]? = some y)
      (hworkers : st'.workers = st.workers.set w x)
      (hjob : x.job = y.job ∨ x.job = none ∧ ∀ j, y.job = some j → HasFiles db' r j)
      (hexit : x = .exited → st.filesClosed = true ∧ st.files = [])
      (hclosed : st'.filesClosed = st.filesClosed)

theorem chartFiles_id (r : RepoInternal) (j : FilesJob) (files : FileMap) :
    (chartFiles r j files).id = (repoKey r).name ++ "/" ++
      (j.name ++ "-" ++ j.chartVersion.version) := by
  simp [chartFiles, chartFilesID, filesChartID, repoKey, String.append_assoc]

theorem jobMove_of_moves (hown : OwnFiles db) (hk : '/' ∉ repo.internal.name.toList)
    (hrow : ∀ j, Unfinished st j →
      db.charts (repoKey repo.internal) (filesChartID repo.internal j.name) ≠ none)
    (hok : filesFetched env repo st l = true)
    (hm : FetchFiles.Moves env repo db st l db' st') : JobMove repo.internal db' st st' := by
  cases hm with
  | sendIcon c rest hmain hcap => exact .main _ hmain (by simp) rfl rfl (.inl rfl)
  | closeIcons rest hmain => exact .main _ hmain (by simp) rfl rfl (.inl rfl)
  | sendFiles j rest hmain hcap => exact .send j hmain rfl rfl rfl
  | mainCrash rest hmain => exact .same rfl rfl rfl rfl
  | closeFiles rest hmain => exact .main _ hmain (by simp) rfl rfl (.inr rfl)
  | wait hmain hall => exact .same rfl rfl rfl rfl
  | takeIcon w c rest hw hc => exact .work w _ _ rfl rfl hw rfl (.inl rfl) (by simp) rfl
  | leaveIcons w hw hc hclosed => exact .work w _ _ rfl rfl hw rfl (.inl rfl) (by simp) rfl
  | takeFiles w j rest hw hj => exact .take w j rfl hw hj rfl rfl
  | leaveFiles w hw hj hclosed =>
      exact .work w _ _ rfl rfl hw rfl (.inl rfl) (fun _ => ⟨hclosed, hj⟩) rfl
  | iconSkip w c hw => exact .work w _ _ rfl rfl hw rfl (.inl rfl) (by simp) rfl
  | iconSend w c req hw hreq => exact .work w _ _ rfl rfl hw rfl (.inl rfl) (by simp) rfl
  | iconOk w c data hw => exact .work w _ _ rfl rfl hw rfl (.inl rfl) (by simp) rfl
  | iconErr w c e hw => exact .work w _ _ rfl rfl hw rfl (.inl rfl) (by simp) rfl
  | iconCrash w c msg hw => exact .same rfl rfl rfl rfl
  | updateIcon w c data db'' hw hdb => exact .work w _ _ rfl rfl hw rfl (.inl rfl) (by simp) rfl
  | updateIconErr w c data hw => exact .work w _ _ rfl rfl hw rfl (.inl rfl) (by simp) rfl
  | filesKnown w j hw hex =>
      refine .work w _ _ rfl rfl hw rfl (.inr ⟨rfl, fun j' hj' => ?_⟩) (by simp) rfl
      have heq := Option.some.inj hj'
      rw [← heq]
      exact hex
  | filesUnknown w j hw => exact .work w _ _ rfl rfl hw rfl (.inl rfl) (by simp) rfl
  | tarballSend w j req hw hkind hreq => exact .work w _ _ rfl rfl hw rfl (.inl rfl) (by simp) rfl
  | tarballErr w j e hw hkind hreq =>
      obtain ⟨req, hreq'⟩ := tarballRequest_of_filesFetched hok hw hkind
      rw [hreq] at hreq'
      simp at hreq'
  | tarballCrash w j msg hw hkind hreq => exact .same rfl rfl rfl rfl
  | ociFiles w j files hw hkind => exact .work w _ _ rfl rfl hw rfl (.inl rfl) (by simp) rfl
  | filesOk w j files hw => exact .work w _ _ rfl rfl hw rfl (.inl rfl) (by simp) rfl
  | filesErr w j e hw => simp [filesFetched, Except.toOption] at hok
  | insertFiles w j files db'' hw hdb =>
      refine .work w _ _ rfl rfl hw rfl (.inr ⟨rfl, fun j' hj' => ?_⟩) (by simp) rfl
      have heq := Option.some.inj hj'
      rw [← heq]
      exact filesExist_insertFiles hown hk (chartFiles_id _ j files) hdb
  | insertErr w j files e hw hdb =>
      have hnone := Database.insertFiles_error (takes_of_filesFetched hok hw) hdb
      exact absurd hnone (hrow j (.inr (.inr ⟨_, List.mem_of_getElem? hw, rfl⟩)))

/-- No job comes up that was not there. -/
theorem unfinished_of_jobMove {r : RepoInternal} (hm : JobMove r db' st st') {j : FilesJob}
    (h : Unfinished st' j) : Unfinished st j := by
  unfold Unfinished at h ⊢
  cases hm with
  | same hmain hfiles hworkers hclosed =>
      rw [hmain, hfiles, hworkers] at h
      exact h
  | main a hmain hsend hfiles hworkers hclosed =>
      rw [hfiles, hworkers] at h
      rw [hmain]
      exact h.imp_left (List.mem_cons_of_mem a)
  | send j' hmain hfiles hworkers hclosed =>
      rw [hfiles, hworkers] at h
      rw [hmain]
      rcases h with h | h | h
      · exact .inl (List.mem_cons_of_mem _ h)
      · rcases List.mem_append.mp h with h | h
        · exact .inr (.inl h)
        · exact .inl (by simp [List.mem_singleton.mp h])
      · exact .inr (.inr h)
  | take w j' hmain hw hfiles hworkers hclosed =>
      rw [hmain, hworkers] at h
      rw [hfiles]
      rcases h with h | h | ⟨z, hz, hj⟩
      · exact .inl h
      · exact .inr (.inl (List.mem_cons_of_mem _ h))
      · rcases Pool.mem_set_cases hz with rfl | hz
        · have heq : j' = j := Option.some.inj hj
          exact .inr (.inl (by simp [heq]))
        · exact .inr (.inr ⟨z, hz, hj⟩)
  | work w x y hmain hfiles hw hworkers hjob hexit hclosed =>
      rw [hmain, hfiles, hworkers] at h
      rcases h with h | h | ⟨z, hz, hj⟩
      · exact .inl h
      · exact .inr (.inl h)
      · rcases Pool.mem_set_cases hz with rfl | hz
        · rcases hjob with hjob | ⟨hnone, _⟩
          · exact .inr (.inr ⟨y, List.mem_of_getElem? hw, hjob ▸ hj⟩)
          · simp [hnone] at hj
        · exact .inr (.inr ⟨z, hz, hj⟩)

/-- A worker's job is still its own after another one has moved. -/
theorem held_set {ws : List ImportWorker} {w : Nat} {x y z : ImportWorker} {j : FilesJob}
    (hw : ws[w]? = some y) (hz : z ∈ ws) (hj : z.job = some j) :
    y.job = some j ∨ ∃ z ∈ ws.set w x, z.job = some j := by
  obtain ⟨i, hi⟩ := List.mem_iff_getElem?.mp hz
  by_cases hiw : i = w
  · rw [hiw, hw] at hi
    have hzy := Option.some.inj hi
    rw [hzy]
    exact .inl hj
  · refine .inr ⟨z, List.mem_of_getElem? (i := i) ?_, hj⟩
    rw [List.getElem?_set_ne (fun h => hiw h.symm)]
    exact hi

theorem mem_set_self {ws : List ImportWorker} {w : Nat} {y : ImportWorker} (x : ImportWorker)
    (hw : ws[w]? = some y) : x ∈ ws.set w x := by
  have hlt : w < ws.length := (List.getElem?_eq_some_iff.mp hw).1
  exact List.mem_of_getElem? (i := w) (List.getElem?_set_self hlt)

/-- A job is done only by putting its row. -/
theorem unfinished_jobMove {r : RepoInternal} (hm : JobMove r db' st st') {j : FilesJob}
    (h : Unfinished st j) : Unfinished st' j ∨ HasFiles db' r j := by
  unfold Unfinished at h ⊢
  cases hm with
  | same hmain hfiles hworkers hclosed =>
      rw [hmain, hfiles, hworkers]
      exact .inl h
  | main a hmain hsend hfiles hworkers hclosed =>
      rw [hfiles, hworkers]
      rw [hmain] at h
      refine .inl (h.imp_left fun h => ?_)
      rcases List.mem_cons.mp h with h | h
      · exact absurd h.symm (hsend j)
      · exact h
  | send j' hmain hfiles hworkers hclosed =>
      rw [hfiles, hworkers]
      rw [hmain] at h
      refine .inl ?_
      rcases h with h | h | h
      · rcases List.mem_cons.mp h with h | h
        · have heq : j = j' := by simpa using h
          exact .inr (.inl (by simp [heq]))
        · exact .inl h
      · exact .inr (.inl (List.mem_append_left _ h))
      · exact .inr (.inr h)
  | take w j' hmain hw hfiles hworkers hclosed =>
      rw [hmain, hworkers]
      rw [hfiles] at h
      refine .inl ?_
      rcases h with h | h | ⟨z, hz, hj⟩
      · exact .inl h
      · rcases List.mem_cons.mp h with h | h
        · rw [h]
          exact .inr (.inr ⟨_, mem_set_self (.filesExist j') hw, rfl⟩)
        · exact .inr (.inl h)
      · rcases held_set hw hz hj with h | h
        · simp [ImportWorker.job] at h
        · exact .inr (.inr h)
  | work w x y hmain hfiles hw hworkers hjob hexit hclosed =>
      rw [hmain, hfiles, hworkers]
      rcases h with h | h | ⟨z, hz, hj⟩
      · exact .inl (.inl h)
      · exact .inl (.inr (.inl h))
      · rcases held_set hw hz hj with hy | h
        · rcases hjob with hjob | ⟨_, hhas⟩
          · exact .inl (.inr (.inr ⟨x, mem_set_self x hw, hjob.trans hy⟩))
          · exact .inr (hhas j hy)
        · exact .inl (.inr (.inr h))

theorem ownFiles_moves (hk : '/' ∉ repo.internal.name.toList) (hown : OwnFiles db)
    (hm : FetchFiles.Moves env repo db st l db' st') : OwnFiles db' := by
  cases hm with
  | insertFiles w j files db'' hw hdb =>
      exact ownFiles_insertFiles hown hk (chartFiles_id _ j files) hdb
  | updateIcon w c data db'' hw hdb =>
      obtain ⟨_, _, htab⟩ := Database.updateIcon_ok hdb
      have hfiles : db'.files = db.files := by rw [htab]
      intro ns id row hrow
      rw [hfiles] at hrow
      exact hown ns id row hrow
  | _ => exact hown

/-- A row of `files` stays, unless a job with its id brings another digest. -/
theorem filesExist_moves (hk : '/' ∉ repo.internal.name.toList) (hown : OwnFiles db)
    (hm : FetchFiles.Moves env repo db st l db' st') {k : RepoKey} {id digest : String}
    (hex : db.filesExist k id digest = true)
    (hsame : k = repoKey repo.internal → ∀ j, Unfinished st j → id = chartFilesID repo.internal j →
      digest = j.chartVersion.digest) : db'.filesExist k id digest = true := by
  cases hm with
  | insertFiles w j files db'' hw hdb =>
      refine filesExist_insertFiles_of hown hk (chartFiles_id _ j files) hdb hex ?_
      intro hk' hid
      exact hsame hk' j (.inr (.inr ⟨_, List.mem_of_getElem? hw, rfl⟩)) hid
  | updateIcon w c data db'' hw hdb =>
      obtain ⟨_, _, htab⟩ := Database.updateIcon_ok hdb
      have hfiles : db'.files = db.files := by rw [htab]
      rw [filesExist_iff] at hex ⊢
      rw [hfiles]
      exact hex
  | _ => exact hex

/-- `fetchFiles` on the charts `cs`, with no fetch that fails. -/
structure FetchInv (r : RepoInternal) (cs : List Chart) (db : Database) (st : FetchFiles) : Prop
    where
  acts : st.main <:+ mainActs cs
  closed : st.filesClosed = true → st.main = []
  exited : .exited ∈ st.workers → st.filesClosed = true ∧ st.files = []
  workers : 0 < st.workers.length
  jobs : ∀ j, Unfinished st j → j ∈ jobsOf cs
  done : ∀ j ∈ jobsOf cs, Unfinished st j ∨ HasFiles db r j
  returned : st.phase = .returned → st.main = [] ∧ ∀ x ∈ st.workers, x = .exited

theorem fetchInv_init (r : RepoInternal) (cs : List Chart) (db : Database) :
    FetchInv r cs db (FetchFiles.init cs) where
  acts := List.suffix_refl _
  closed h := by simp [FetchFiles.init] at h
  exited h := by simp [FetchFiles.init] at h
  workers := by simp [FetchFiles.init, numWorkers]
  jobs j h := unfinished_init.1 h
  done j h := .inl (unfinished_init.2 h)
  returned h := by simp [FetchFiles.init] at h

/-- `close(chartFilesJobs)` is the last action of the main goroutine. -/
theorem closeFiles_last {cs : List Chart} {rest : List MainAct}
    (h : (.closeFiles :: rest) <:+ mainActs cs) : rest = [] := by
  obtain ⟨pre, hpre⟩ := h
  unfold mainActs at hpre
  rcases List.eq_nil_or_concat rest with hnil | ⟨rest', a, hrest'⟩
  · exact hnil
  · rw [hrest', List.concat_eq_append, ← List.cons_append, ← List.append_assoc] at hpre
    have hfront := (List.append_inj' hpre rfl).1
    have hmem : MainAct.closeFiles ∈ pre ++ .closeFiles :: rest' := by simp
    rw [hfront] at hmem
    simp at hmem

theorem closed_jobMove {r : RepoInternal} {cs : List Chart} (hi : FetchInv r cs db st)
    (hm : JobMove r db' st st') : st'.filesClosed = true → st'.main = [] := by
  intro hclosed'
  cases hm with
  | same hmain hfiles hworkers hclosed =>
      rw [hmain]
      exact hi.closed (hclosed ▸ hclosed')
  | main a hmain hsend hfiles hworkers hclosed =>
      rcases hclosed with hclosed | rfl
      · have hnil := hi.closed (hclosed ▸ hclosed')
        simp [hmain] at hnil
      · exact closeFiles_last (hmain ▸ hi.acts)
  | send j hmain hfiles hworkers hclosed =>
      have hnil := hi.closed (hclosed ▸ hclosed')
      simp [hmain] at hnil
  | take w j hmain hw hfiles hworkers hclosed =>
      rw [hmain]
      exact hi.closed (hclosed ▸ hclosed')
  | work w x y hmain hfiles hw hworkers hjob hexit hclosed =>
      rw [hmain]
      exact hi.closed (hclosed ▸ hclosed')

theorem exited_jobMove {r : RepoInternal} {cs : List Chart} (hi : FetchInv r cs db st)
    (hm : JobMove r db' st st') :
    .exited ∈ st'.workers → st'.filesClosed = true ∧ st'.files = [] := by
  intro hexited
  cases hm with
  | same hmain hfiles hworkers hclosed =>
      rw [hclosed, hfiles]
      exact hi.exited (hworkers ▸ hexited)
  | main a hmain hsend hfiles hworkers hclosed =>
      have hclosed' := (hi.exited (hworkers ▸ hexited)).1
      have hnil := hi.closed hclosed'
      simp [hmain] at hnil
  | send j hmain hfiles hworkers hclosed =>
      have hclosed' := (hi.exited (hworkers ▸ hexited)).1
      have hnil := hi.closed hclosed'
      simp [hmain] at hnil
  | take w j hmain hw hfiles hworkers hclosed =>
      rw [hworkers] at hexited
      rcases Pool.mem_set_cases hexited with h | h
      · simp at h
      · have hnil := (hi.exited h).2
        simp [hfiles] at hnil
  | work w x y hmain hfiles hw hworkers hjob hexit hclosed =>
      rw [hclosed, hfiles]
      rw [hworkers] at hexited
      rcases Pool.mem_set_cases hexited with h | h
      · exact hexit h.symm
      · exact hi.exited h

theorem acts_jobMove {r : RepoInternal} {cs : List Chart} (hi : FetchInv r cs db st)
    (hm : JobMove r db' st st') : st'.main <:+ mainActs cs ∧ 0 < st'.workers.length := by
  obtain ⟨hacts, hlen⟩ : st.main <:+ mainActs cs ∧ 0 < st.workers.length := ⟨hi.acts, hi.workers⟩
  cases hm with
  | same hmain hfiles hworkers hclosed =>
      rw [hmain, hworkers]
      exact ⟨hacts, hlen⟩
  | main a hmain hsend hfiles hworkers hclosed =>
      rw [hworkers]
      exact ⟨(List.suffix_cons a _).trans (hmain ▸ hacts), hlen⟩
  | send j hmain hfiles hworkers hclosed =>
      rw [hworkers]
      exact ⟨(List.suffix_cons _ _).trans (hmain ▸ hacts), hlen⟩
  | take w j hmain hw hfiles hworkers hclosed =>
      rw [hmain, hworkers, List.length_set]
      exact ⟨hacts, hlen⟩
  | work w x y hmain hfiles hw hworkers hjob hexit hclosed =>
      rw [hmain, hworkers, List.length_set]
      exact ⟨hacts, hlen⟩

theorem returned_moves (hrun : st.phase = .running)
    (hm : FetchFiles.Moves env repo db st l db' st') (hret : st'.phase = .returned) :
    st'.main = [] ∧ ∀ x ∈ st'.workers, x = .exited := by
  cases hm with
  | wait hmain hall => exact ⟨hmain, hall⟩
  | mainCrash rest hmain => simp at hret
  | tarballCrash w j msg hw hkind hreq => simp at hret
  | iconCrash w c msg hw => simp at hret
  | _ => simp [FetchFiles.setWorker, hrun] at hret

/-- Jobs with one id have one digest. -/
def SameDigest (r : RepoInternal) (cs : List Chart) : Prop :=
  ∀ j ∈ jobsOf cs, ∀ j' ∈ jobsOf cs, chartFilesID r j = chartFilesID r j' →
    j.chartVersion.digest = j'.chartVersion.digest

instance (r : RepoInternal) (cs : List Chart) : Decidable (SameDigest r cs) :=
  inferInstanceAs (Decidable (∀ j ∈ jobsOf cs, ∀ j' ∈ jobsOf cs,
    chartFilesID r j = chartFilesID r j' → j.chartVersion.digest = j'.chartVersion.digest))

theorem fetchInv_step {cs : List Chart} (hk : '/' ∉ repo.internal.name.toList)
    (hown : OwnFiles db) (hsame : SameDigest repo.internal cs)
    (hrow : ∀ j ∈ jobsOf cs,
      db.charts (repoKey repo.internal) (filesChartID repo.internal j.name) ≠ none)
    (hok : filesFetched env repo st l = true) (hi : FetchInv repo.internal cs db st)
    (h : FetchFiles.step env repo (db, st) l = some (db', st')) :
    FetchInv repo.internal cs db' st' := by
  obtain ⟨hrun, hm⟩ := FetchFiles.moves_of_step h
  have hjm := jobMove_of_moves hown hk (fun j hj => hrow j (hi.jobs j hj)) hok hm
  obtain ⟨hacts, hlen⟩ := acts_jobMove hi hjm
  refine ⟨hacts, closed_jobMove hi hjm, exited_jobMove hi hjm, hlen, ?_, ?_,
    returned_moves hrun hm⟩
  · intro j hj
    exact hi.jobs j (unfinished_of_jobMove hjm hj)
  · intro j hj
    rcases hi.done j hj with hun | hhas
    · exact unfinished_jobMove hjm hun
    · refine .inr (filesExist_moves hk hown hm hhas fun _ j' hj' hid => ?_)
      exact hsame j hj j' (hi.jobs j' hj') hid

/-- When it returns, every job has its row. -/
theorem hasFiles_of_returned {r : RepoInternal} {cs : List Chart} (hi : FetchInv r cs db st)
    (hret : st.phase = .returned) : ∀ j ∈ jobsOf cs, HasFiles db r j := by
  obtain ⟨hmain, hall⟩ := hi.returned hret
  obtain ⟨x, hx⟩ := List.exists_mem_of_length_pos hi.workers
  have hexited : .exited ∈ st.workers := hall x hx ▸ hx
  have hfiles := (hi.exited hexited).2
  intro j hj
  rcases hi.done j hj with hun | hhas
  · rcases hun with h | h | ⟨z, hz, hzj⟩
    · simp [hmain] at h
    · simp [hfiles] at h
    · rw [hall z hz] at hzj
      simp [ImportWorker.job] at hzj
  · exact hhas

end Fetch

/-! ## One run -/

theorem filesPresent_iff {db : Database} {k : RepoKey} :
    FilesPresent db k ↔ ∀ id c, db.charts k id = some c → ∀ cv ∈ c.chartVersions,
      db.filesExist k (k.name ++ "/" ++ c.name ++ "-" ++ cv.version) cv.digest = true := by
  simp only [FilesPresent, filesExist_iff]

/-- The icon is not in the name or the versions. -/
theorem eq_of_noIcon {c d : Chart} (h : c.noIcon = d.noIcon) :
    c.name = d.name ∧ c.chartVersions = d.chartVersions := by
  constructor
  · rw [← c.noIcon_name, h, d.noIcon_name]
  · rw [← c.noIcon_chartVersions, h, d.noIcon_chartVersions]

/-- The files stay when the rows stay up to their icons and no row of `files` goes. -/
theorem filesPresent_of {db db' : Database} {k : RepoKey}
    (hrow : ∀ id, db'.row k id = db.row k id)
    (hex : ∀ id digest, db.filesExist k id digest = true → db'.filesExist k id digest = true)
    (h : FilesPresent db k) : FilesPresent db' k := by
  rw [filesPresent_iff] at h ⊢
  intro id c hc cv hcv
  have hrow' := hrow id
  unfold Database.row at hrow'
  rw [hc] at hrow'
  obtain ⟨c', hc', hicon⟩ := Option.map_eq_some_iff.mp hrow'.symm
  obtain ⟨hname, hversions⟩ := eq_of_noIcon hicon
  rw [← hname]
  exact hex _ _ (h id c' hc' cv (hversions ▸ hcv))

/-- What is stored for `k` has its files. -/
def FilesKept (k : RepoKey) (db : Database) : Prop :=
  db.lastChecksum k ≠ "" → FilesPresent db k

theorem filesKept_of {db db' : Database} {k : RepoKey}
    (hlast : db'.lastChecksum k = db.lastChecksum k) (hrow : ∀ id, db'.row k id = db.row k id)
    (hex : ∀ id digest, db.filesExist k id digest = true → db'.filesExist k id digest = true)
    (h : FilesKept k db) : FilesKept k db' := by
  intro hne
  rw [hlast] at hne
  exact filesPresent_of hrow hex (h hne)

theorem filesKept_ensureRepoExists {db : Database} {k k' : RepoKey} (h : FilesKept k db) :
    FilesKept k (db.ensureRepoExists k') := by
  refine filesKept_of (by simp) (fun id => by simp [Database.row]) (fun id digest hex => ?_) h
  unfold Database.filesExist at hex ⊢
  simpa using hex

section RunFiles

variable {env : FetchEnv} {inp : SyncInput} {db db' : Database} {ph ph' : RunPhase} {l : RunLabel}

theorem ownFiles_runMoves (hk : '/' ∉ inp.repo.internal.name.toList) (hown : OwnFiles db)
    (hm : RunMoves env inp db ph l db' ph') : OwnFiles db' := by
  cases hm with
  | store now => exact hown
  | stmt now cs st sts rest db'' hst =>
      intro ns id row hrow
      exact hown ns id row ((frame_of_exec hst).files_of ns id row hrow)
  | fetch l st st' rest db'' hst =>
      exact ownFiles_moves hk hown (FetchFiles.moves_of_step hst).2
  | _ => exact hown

/-- A run leaves the files of other repositories alone. -/
theorem filesKept_runMoves (hk : '/' ∉ inp.repo.internal.name.toList) (hown : OwnFiles db)
    (hm : RunMoves env inp db ph l db' ph') {k : RepoKey} (hne : k ≠ inp.key)
    (h : FilesKept k db) : FilesKept k db' := by
  cases hm with
  | store now =>
      exact filesKept_of (db.updateLastCheck_lastChecksum_of_ne hne _ _) (fun _ => rfl)
        (fun _ _ hex => hex) h
  | stmt now cs st sts rest db'' hst =>
      have hframe := frame_of_exec hst
      refine filesKept_of (hframe.checksum k) (fun id => ?_) (fun id digest hex => ?_) h
      · unfold Database.row
        rw [hframe.charts k hne]
      · rw [filesExist_iff] at hex ⊢
        obtain ⟨row, hrow, hname, hdigest⟩ := hex
        refine ⟨row, hframe.files k.ns id row (fun hsame => ?_) hrow, hname, hdigest⟩
        obtain ⟨hns, hname'⟩ := hsame
        have hkey : k = inp.key := by
          cases k
          simp_all
        exact hne hkey
  | fetch l st st' rest db'' hst =>
      obtain ⟨_, hsum, hrow⟩ := frame_fetch hst
      refine filesKept_of (hsum k) (hrow k) (fun id digest hex => ?_) h
      exact filesExist_moves hk hown (FetchFiles.moves_of_step hst).2 hex
        fun hkey => absurd hkey hne
  | _ => exact h

/-- The charts of all versions: distinct ids of the form `repo/name`, and one digest for each id
    of `files`. -/
def SyncInput.ChartsOk (inp : SyncInput) : Prop :=
  ∀ cs, inp.charts false = .ok cs → DistinctIds cs ∧
    (∀ c ∈ cs, c.id = filesChartID inp.repo.internal c.name) ∧ SameDigest inp.repo.internal cs

instance (inp : SyncInput) : Decidable inp.ChartsOk :=
  match h : inp.charts false with
  | .ok cs => decidable_of_iff (DistinctIds cs ∧
      (∀ c ∈ cs, c.id = filesChartID inp.repo.internal c.name) ∧ SameDigest inp.repo.internal cs)
      (by simp [SyncInput.ChartsOk, h])
  | .error f => .isTrue (by simp [SyncInput.ChartsOk, h])

/-- The files during and after the pass over all versions. -/
def FilesPhase (inp : SyncInput) (db : Database) : RunPhase → Prop
  | .fetching st [] => ∃ cs, inp.charts false = .ok cs ∧ FetchInv inp.repo.internal cs db st
  | .charts [] => FilesPresent db inp.key
  | .finished .completed => FilesPresent db inp.key
  | _ => True

/-- The row of every job's chart is there. -/
theorem row_of_job {cs : List Chart} (hids : ∀ c ∈ cs, c.id = filesChartID inp.repo.internal c.name)
    (hrows : RowsAre db inp.key cs) {j : FilesJob} (hj : j ∈ jobsOf cs) :
    db.charts (repoKey inp.repo.internal) (filesChartID inp.repo.internal j.name) ≠ none := by
  obtain ⟨c, hc, hname, _⟩ := mem_jobsOf.1 hj
  have hrow := hrows.rows c hc
  rw [hids c hc, hname] at hrow
  intro hnone
  simp [Database.row, SyncInput.key, hnone] at hrow

theorem filesPresent_of_jobs {cs : List Chart} (hrows : RowsAre db inp.key cs)
    (hjobs : ∀ j ∈ jobsOf cs, HasFiles db inp.repo.internal j) : FilesPresent db inp.key := by
  rw [filesPresent_iff]
  intro id c hc cv hcv
  have hrow : db.row inp.key id = some c.noIcon := by simp [Database.row, hc]
  have hid : id ∈ cs.map Chart.id := by
    by_contra hid
    rw [hrows.no_other id hid] at hrow
    simp at hrow
  obtain ⟨c', hc', rfl⟩ := List.mem_map.mp hid
  rw [hrows.rows c' hc'] at hrow
  have hicon := Option.some.inj hrow
  obtain ⟨hname, hversions⟩ := eq_of_noIcon hicon
  exact hjobs ⟨c.name, cv⟩ (mem_jobsOf.2 ⟨c', hc', hname, hversions ▸ hcv⟩)

theorem filesPhase_step {Before : Database → Prop} (hk : '/' ∉ inp.repo.internal.name.toList)
    (hown : OwnFiles db) (hcharts : inp.ChartsOk) (hok : deepFetched env inp ph l = true)
    (hshape : Shape inp ph) (hinv : RunInv inp Before db ph)
    (hm : RunMoves env inp db ph l db' ph') (h : FilesPhase inp db ph) :
    FilesPhase inp db' ph' := by
  cases hm with
  | plan now hlast =>
      unfold passesFor
      split <;> exact trivial
  | store now => exact filesPresent_of (fun _ => rfl) (fun _ _ hex => hex) h
  | startFetch now cs rest =>
      cases rest with
      | nil =>
          obtain ⟨⟨b, hb, hcs⟩, _⟩ := hshape
          rw [eq_false_of_last_pass hb] at hcs
          exact ⟨cs, hcs, fetchInv_init _ cs db⟩
      | cons b rest => exact trivial
  | fetch l st st' rest db'' hst =>
      cases rest with
      | nil =>
          obtain ⟨cs, hcs, hi⟩ := h
          obtain ⟨⟨cs', hcs', hrows⟩, _⟩ := hinv
          have heq := Except.ok.inj (hcs'.symm.trans hcs)
          subst heq
          obtain ⟨_, hids, hsame⟩ := hcharts cs' hcs
          exact ⟨cs', hcs, fetchInv_step hk hown hsame
            (fun j hj => row_of_job hids hrows hj) hok hi hst⟩
      | cons b rest => exact trivial
  | fetched now st rest hret =>
      cases rest with
      | nil =>
          obtain ⟨cs, hcs, hi⟩ := h
          obtain ⟨⟨cs', hcs', hrows⟩, _⟩ := hinv
          have heq := Except.ok.inj (hcs'.symm.trans hcs)
          subst heq
          exact filesPresent_of_jobs hrows (hasFiles_of_returned hi hret)
      | cons b rest => exact trivial
  | chartsErr now b rest f out hcs hout =>
      cases out with
      | completed => exact absurd rfl hout.2
      | _ => exact trivial
  | _ => exact trivial

/-- While a run is at work its checksum is not the stored one. -/
def Stale (inp : SyncInput) (db : Database) : RunPhase → Prop
  | .lastChecksum => True
  | .finished _ => True
  | _ => db.lastChecksum inp.key ≠ inp.checksum

theorem stale_step (hm : RunMoves env inp db ph l db' ph') (h : Stale inp db ph) :
    Stale inp db' ph' := by
  cases hm with
  | plan now hlast => exact hlast
  | chartsOk now b rest cs hcs => exact h
  | stmt now cs st sts rest db'' hst =>
      unfold Stale
      rw [(frame_of_exec hst).checksum]
      exact h
  | startFetch now cs rest => exact h
  | fetch l st st' rest db'' hst =>
      unfold Stale
      rw [(frame_fetch hst).2.1]
      exact h
  | fetched now st rest hret => exact h
  | _ => exact trivial

end RunFiles

/-! ## Histories -/

/-- When a history keeps the files. A run may begin if its charts have distinct ids of the form
    `repo/name` and no two versions share an id of `files` but not the digest. In the pass over
    all versions no fetch of files fails or brings U+0000, and while a checksum is stored no fetch
    panics and no chart has U+0000. -/
def FilesCond (w : World SyncJob) : WorldLabel SyncJob → Prop
  | .begin i => i.input.ChartsOk
  | .run l => ∀ run ∈ w.current, deepFetched run.1.env run.1.input run.2 l = true ∧
      deepWritten run.1.env run.1.input w.db run.2 l = true

instance (w : World SyncJob) (l : WorldLabel SyncJob) : Decidable (FilesCond w l) :=
  match l with
  | .begin i => inferInstanceAs (Decidable i.input.ChartsOk)
  | .run l => inferInstanceAs (Decidable (∀ run ∈ w.current,
      deepFetched run.1.env run.1.input run.2 l = true ∧
        deepWritten run.1.env run.1.input w.db run.2 l = true))

/-- The invariant of a history. -/
structure FilesInv (w : World SyncJob) : Prop where
  own : OwnFiles w.db
  no_null : ∀ k, w.db.nullCharts k = []
  kept : ∀ k, (∀ i ph, w.current = some (i, ph) → i.input.key = k → ∃ out, ph = .finished out) →
    FilesKept k w.db
  run : ∀ i ph, w.current = some (i, ph) → Shape i.input ph ∧
    RunInv i.input (FilesKept i.input.key) w.db ph ∧ FilesPhase i.input w.db ph ∧
    Stale i.input w.db ph
  begun : w.idle = false → ∀ i ph, w.current = some (i, ph) → i.input.ChartsOk

/-- A run that is over has left what is stored with its files. -/
theorem filesKept_of_finished {inp : SyncInput} {db : Database} {out : Outcome}
    (hinv : RunInv inp (FilesKept inp.key) db (.finished out))
    (hfiles : FilesPhase inp db (.finished out)) : FilesKept inp.key db := by
  cases out with
  | skipped => exact hinv.1
  | completed => exact fun _ => hfiles
  | fatal msg => exact hinv
  | panicked => exact hinv

theorem filesInv_step {w w' : World SyncJob} {l : WorldLabel SyncJob} (hi : FilesInv w)
    (hok : FilesCond w l) (h : World.step SyncJob.env SyncJob.input w l = some w') :
    FilesInv w' := by
  rcases world_step_cases h with ⟨i, rfl, hidle, rfl⟩ | ⟨i, ph, rl, db', ph', rfl, hcur, hm, rfl⟩
  · have hkept : ∀ k, FilesKept k w.db := fun k => hi.kept k fun i' ph hcur _ =>
      (idle_of_current hcur).mp hidle
    refine ⟨hi.own, hi.no_null, fun k _ => hkept k, fun i' ph hcur => ?_, fun _ i' ph hcur => ?_⟩
    · obtain ⟨rfl, rfl⟩ := Prod.mk.inj (Option.some.inj hcur)
      exact ⟨trivial, hkept _, trivial, trivial⟩
    · obtain ⟨rfl, rfl⟩ := Prod.mk.inj (Option.some.inj hcur)
      exact hok
  · have hactive : w.idle = false := by
      rw [← Bool.not_eq_true, idle_of_current hcur]
      rintro ⟨out, hout⟩
      exact not_finished_of_runMoves hm out hout
    have hcharts := hi.begun hactive i ph hcur
    have hin := inputOk_of_fromRepo i.valid i.fromRepo
    have hslash := slash_not_mem_validName i.valid
    obtain ⟨hshape, hinv, hfiles, hstale⟩ := hi.run i ph hcur
    obtain ⟨hfetched, hwritten⟩ : deepFetched i.env i.input ph rl = true ∧
        deepWritten i.env i.input w.db ph rl = true := hok (i, ph) hcur
    have hinv' : RunInv i.input (FilesKept i.input.key) db' ph' := by
      refine runInv_step (fun d hd hne => absurd hd hne) (fun d hd => ?_) hin
        (fun cs hcs => (hcharts cs hcs).1) (hi.no_null _) hwritten hm hshape hinv
      exact filesKept_ensureRepoExists hd
    have hfiles' : FilesPhase i.input db' ph' :=
      filesPhase_step hslash hi.own hcharts hfetched hshape hinv hm hfiles
    refine ⟨ownFiles_runMoves hslash hi.own hm, ?_, ?_, ?_, ?_⟩
    · intro k
      show db'.nullCharts k = []
      rw [nullCharts_runMoves hm]
      exact hi.no_null k
    · intro k hk
      by_cases hkey : i.input.key = k
      · obtain ⟨out, rfl⟩ := hk i ph' rfl hkey
        rw [← hkey]
        exact filesKept_of_finished hinv' hfiles'
      · have hbefore : FilesKept k w.db := by
          refine hi.kept k fun i' ph'' hcur' hkey' => ?_
          obtain ⟨rfl, rfl⟩ := Prod.mk.inj (Option.some.inj (hcur.symm.trans hcur'))
          exact absurd hkey' hkey
        exact filesKept_runMoves hslash hi.own hm (fun heq => hkey heq.symm) hbefore
    · intro i' ph'' hcur'
      obtain ⟨rfl, rfl⟩ := Prod.mk.inj (Option.some.inj hcur')
      exact ⟨shape_step hm hshape, hinv', hfiles', stale_step hm hstale⟩
    · intro _ i' ph'' hcur'
      obtain ⟨rfl, rfl⟩ := Prod.mk.inj (Option.some.inj hcur')
      exact hcharts

theorem filesInv_start : FilesInv (World.start Database.empty) := by
  refine ⟨?_, fun _ => rfl, fun k _ hne => absurd rfl hne, ?_, ?_⟩
  · intro ns id row hrow
    simp [World.start, Database.empty] at hrow
  · intro i ph hcur
    simp [World.start] at hcur
  · intro hidle
    simp [World.start, World.idle] at hidle

/-- **A stored checksum has its files.** In every history of runs of any repositories from empty
    tables in which no fetch of files fails in a pass over all versions and no statement or panic
    cuts one short, and in every state of it: if the checksum of a repository's current index is
    stored, then each version of each row of the repository has its row of `files`. The current
    index is that of the run in progress, if there is one of this repository. -/
theorem files_of_stored_checksum (as : List (WorldLabel SyncJob)) (w : World SyncJob)
    (hmeet : StepsMeet (World.step SyncJob.env SyncJob.input) FilesCond
      (World.start Database.empty) as)
    (hrun : runs (World.step SyncJob.env SyncJob.input) (World.start Database.empty) as = some w)
    (i : SyncJob)
    (hcurrent : ∀ i' ph, w.current = some (i', ph) → i'.input.key = i.input.key →
      i' = i ∨ ∃ out, ph = .finished out)
    (hne : i.input.checksum ≠ "") (hstored : w.db.lastChecksum i.input.key = i.input.checksum) :
    FilesPresent w.db i.input.key := by
  have hi : FilesInv w := runs_invariant_of_meet
    (fun _ _ _ hi hok h => filesInv_step hi hok h) hmeet hrun filesInv_start
  have hlast : w.db.lastChecksum i.input.key ≠ "" := hstored ▸ hne
  by_cases hbusy : ∃ ph, w.current = some (i, ph) ∧ ∀ out, ph ≠ .finished out
  · -- the run in progress has the current index, so it has not compared the checksums yet
    obtain ⟨ph, hcur, hnot⟩ := hbusy
    obtain ⟨_, hinv, _, hstale⟩ := hi.run i ph hcur
    cases ph with
    | lastChecksum => exact hinv hlast
    | finished out => exact absurd rfl (hnot out)
    | charts passes => exact absurd hstored hstale
    | syncing cs sts rest => exact absurd hstored hstale
    | fetching st rest => exact absurd hstored hstale
  · refine hi.kept _ (fun i' ph hcur hkey => ?_) hlast
    rcases hcurrent i' ph hcur hkey with rfl | hfin
    · by_contra hnot
      exact hbusy ⟨ph, hcur, fun out hout => hnot ⟨out, hout⟩⟩
    · exact hfin

/-! ## A repository with one chart -/

def nginxJob : SyncJob where
  env := plainFetch
  input := helmInput nginxIndexEnv (nginxRepo none)
  valid := validName_bitnami
  fromRepo := .helm nginxIndexEnv (nginxRepo none)

/-- One run, with these two answers in its passes. -/
def nginxHistory (first second : List FetchLabel) : List (WorldLabel SyncJob) :=
  .begin nginxJob :: (runOne first second).map .run

/-- What the table has after the run. -/
def nginxResult (w : World SyncJob) : Option RunPhase × String × Option Chart × Bool :=
  (w.current.map Prod.snd, w.db.lastChecksum nginxJob.input.key,
    w.db.row nginxJob.input.key "bitnami/nginx",
    (w.db.files "default" "bitnami/nginx-1.0.0").isSome)

theorem files_of_stored_checksum_nginx :
    ∃ w, runs (World.step SyncJob.env SyncJob.input) (World.start Database.empty)
        (nginxHistory downloaded []) = some w ∧
      w.db.row nginxJob.input.key "bitnami/nginx" = some (namedChart bitnami "nginx") ∧
      FilesPresent w.db nginxJob.input.key := by
  have heval : (runs (World.step SyncJob.env SyncJob.input) (World.start Database.empty)
      (nginxHistory downloaded [])).map nginxResult = some (some (.finished .completed),
        nginxJob.input.checksum, some (namedChart bitnami "nginx"), true) := by
    decide +kernel
  obtain ⟨w, hrun, hw⟩ := Option.map_eq_some_iff.mp heval
  simp only [nginxResult, Prod.mk.injEq] at hw
  obtain ⟨hphase, hlast, hrow, _⟩ := hw
  have hcheck : ∀ w l, decide (FilesCond w l) = true → FilesCond w l :=
    fun _ _ => of_decide_eq_true
  refine ⟨w, hrun, hrow, files_of_stored_checksum _ w
    (stepsMeet_of_meets hcheck (by decide +kernel)) hrun nginxJob ?_ (by decide) hlast⟩
  intro i ph hcur _
  rw [hcur] at hphase
  exact .inr ⟨.completed, Option.some.inj hphase⟩

/-- The download fails in both passes. The checksum is stored all the same, and the version has no
    files. -/
theorem files_missing_after_error :
    ∃ w, runs (World.step SyncJob.env SyncJob.input) (World.start Database.empty)
        (nginxHistory notDownloaded notDownloaded) = some w ∧
      w.current.map Prod.snd = some (.finished .completed) ∧
      w.db.lastChecksum nginxJob.input.key = nginxJob.input.checksum ∧
      nginxJob.input.checksum ≠ "" ∧ ¬ FilesPresent w.db nginxJob.input.key := by
  have heval : (runs (World.step SyncJob.env SyncJob.input) (World.start Database.empty)
      (nginxHistory notDownloaded notDownloaded)).map nginxResult = some
        (some (.finished .completed), nginxJob.input.checksum,
          some (namedChart bitnami "nginx"), false) := by
    decide +kernel
  obtain ⟨w, hrun, hw⟩ := Option.map_eq_some_iff.mp heval
  simp only [nginxResult, Prod.mk.injEq] at hw
  obtain ⟨hphase, hlast, hrow, hfiles⟩ := hw
  refine ⟨w, hrun, hphase, hlast, by decide, fun hpresent => ?_⟩
  obtain ⟨c, hc, hicon⟩ := Option.map_eq_some_iff.mp hrow
  obtain ⟨hname, hversions⟩ := eq_of_noIcon (d := namedChart bitnami "nginx") hicon
  obtain ⟨row, hrow', _⟩ := hpresent _ c hc
    ⟨"1.0.0", "", "", "sha256:nginx", ["nginx-1.0.0.tgz"], "", "", ""⟩
    (by rw [hversions]; decide +kernel)
  rw [hname] at hrow'
  rw [show nginxJob.input.key.name ++ "/" ++ (namedChart bitnami "nginx").name ++ "-" ++ "1.0.0" =
    "bitnami/nginx-1.0.0" from by decide +kernel,
    show nginxJob.input.key.ns = "default" from rfl] at hrow'
  rw [hrow'] at hfiles
  simp at hfiles

end Kubeapps.Syncer
