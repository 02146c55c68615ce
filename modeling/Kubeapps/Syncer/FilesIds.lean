/-
  The ids of the rows of `files`: `repo/name-version` for a version of a chart.

  A name and a version can both have a dash, so `a` in version `1.0.0-2.0.0` and `a-1.0.0` in version
  `2.0.0` have one id and share a row. `filesID_eq_iff`: this is the only way in which two versions
  of a namespace have one id.
-/
import Kubeapps.Syncer.StoredFiles
import Kubeapps.Lib.Joined
import Kubeapps.Lib.Percent

namespace Kubeapps.Syncer

open Kubeapps.Lib Kubeapps.Models

/-! ## Versions of charts -/

/-- A version of a chart of a repository in the namespace `ns`, as the sync job imports it. -/
structure ImportedVersion (ns : String) where
  repo : RepoInternal
  job : FilesJob
  repo_ns : repo.ns = ns
  repo_name : ValidName repo.name
  escaped : ∃ rawName, job.name = pathEscape rawName

namespace ImportedVersion

variable {ns : String}

/-- The repository, the chart and the version. -/
def triple (x : ImportedVersion ns) : String × String × String :=
  (x.repo.name, x.job.name, x.job.chartVersion.version)

/-- The id of its row. -/
def filesID (x : ImportedVersion ns) : String := chartFilesID x.repo x.job

/-- The rest of a sequential `fetchAndImportFiles`, where `files` is what `FetchFiles` returns. -/
def fetchAndImportFiles (db : Database) (x : ImportedVersion ns) (files : FileMap) : Database :=
  if db.filesExist (repoKey x.repo) x.filesID x.job.chartVersion.digest then db
  else
    match db.insertFiles (repoKey x.repo) (filesChartID x.repo x.job.name)
        (chartFiles x.repo x.job files) with
    | .ok db' => db'
    | .error _ => db

/-- The imports of `xs`, one after another. -/
def importAll (fetched : ImportedVersion ns → FileMap) (xs : List (ImportedVersion ns))
    (db : Database) : Database :=
  xs.foldl (fun db x => fetchAndImportFiles db x (fetched x)) db

/-- The row that the readme, the values and the schema of a version are read from. -/
def served (db : Database) (x : ImportedVersion ns) : Option ChartFiles :=
  (db.files ns x.filesID).map FilesRow.info

end ImportedVersion

open ImportedVersion

/-! ## What the ids are for -/

/-- Versions of `vs` have rows of their own: ids of different versions differ, an import leaves the
    rows of other versions as they are, and what is served of a version was imported for it. -/
structure OwnRows {ns : String} (vs : List (ImportedVersion ns)) : Prop where
  injective : ∀ x ∈ vs, ∀ y ∈ vs, x.filesID = y.filesID → x.triple = y.triple
  keeps : ∀ x ∈ vs, ∀ y ∈ vs, x.triple ≠ y.triple → ∀ db files,
    served (fetchAndImportFiles db x files) y = served db y
  own : ∀ fetched db, (∀ id, db.files ns id = none) → ∀ xs, (∀ x ∈ xs, x ∈ vs) → ∀ y ∈ vs,
    ∀ info, served (importAll fetched xs db) y = some info →
      ∃ x ∈ xs, x.triple = y.triple ∧ info = chartFiles x.repo x.job (fetched x)

/-- The name of `y` is that of `x` and a dash and more, which the version of `x` begins with. -/
def CutLater {ns : String} (x y : ImportedVersion ns) : Prop :=
  x.repo.name = y.repo.name ∧ ∃ w, y.job.name = x.job.name ++ "-" ++ w ∧
    x.job.chartVersion.version = w ++ "-" ++ y.job.chartVersion.version

/-! ## Equal ids -/

section Ids

variable {ns : String} {vs xs : List (ImportedVersion ns)} {x y : ImportedVersion ns}
  {db db' : Database} {files : FileMap}

theorem filesID_eq (x : ImportedVersion ns) : x.filesID =
    x.repo.name ++ "/" ++ (x.job.name ++ "-" ++ x.job.chartVersion.version) := by
  unfold ImportedVersion.filesID chartFilesID filesChartID
  simp only [String.append_assoc]

theorem slash_not_mem_repo (x : ImportedVersion ns) : '/' ∉ x.repo.name.toList :=
  slash_not_mem_validName x.repo_name

theorem dashed_eq_iff {a b a' b' : String} : a ++ "-" ++ b = a' ++ "-" ++ b' ↔
    (a = a' ∧ b = b') ∨ (∃ w, a' = a ++ "-" ++ w ∧ b = w ++ "-" ++ b') ∨
      ∃ w, a = a' ++ "-" ++ w ∧ b' = w ++ "-" ++ b := by
  have hlist : ∀ s t : String, (s ++ "-" ++ t).toList = s.toList ++ '-' :: t.toList := by
    intro s t
    simp [String.toList_append]
  have hsome : ∀ {s t : String} {w : List Char}, s.toList = t.toList ++ '-' :: w ↔
      s = t ++ "-" ++ String.ofList w := by
    intro s t w
    rw [← String.toList_inj, hlist, String.toList_ofList]
  have hsome' : ∀ {s t : String} {w : List Char}, s.toList = w ++ '-' :: t.toList ↔
      s = String.ofList w ++ "-" ++ t := by
    intro s t w
    rw [← String.toList_inj, hlist, String.toList_ofList]
  rw [← String.toList_inj, hlist, hlist, append_cons_eq_iff]
  refine or_congr ?_ (or_congr ?_ ?_)
  · rw [String.toList_inj, String.toList_inj]
  · simp only [hsome, hsome']
    exact ⟨fun ⟨w, h⟩ => ⟨_, h⟩, fun ⟨w, h⟩ => ⟨w.toList, by rwa [String.ofList_toList]⟩⟩
  · simp only [hsome, hsome']
    exact ⟨fun ⟨w, h⟩ => ⟨_, h⟩, fun ⟨w, h⟩ => ⟨w.toList, by rwa [String.ofList_toList]⟩⟩

/-- Two versions have one id if they are the same one or a dash can be cut at in two places. -/
theorem filesID_eq_iff :
    x.filesID = y.filesID ↔ x.triple = y.triple ∨ CutLater x y ∨ CutLater y x := by
  have htriple : x.triple = y.triple ↔ x.repo.name = y.repo.name ∧ x.job.name = y.job.name ∧
      x.job.chartVersion.version = y.job.chartVersion.version := by
    unfold ImportedVersion.triple
    rw [Prod.mk.injEq, Prod.mk.injEq]
  rw [filesID_eq, filesID_eq, htriple]
  unfold CutLater
  constructor
  · intro h
    have hrepo := name_eq_of_slash (slash_not_mem_repo x) (slash_not_mem_repo y) h
    rw [hrepo] at h
    have hrest := (String.append_right_inj _).mp h
    rcases dashed_eq_iff.1 hrest with hsame | ⟨w, hw⟩ | ⟨w, hw⟩
    · exact .inl ⟨hrepo, hsame⟩
    · exact .inr (.inl ⟨hrepo, w, hw⟩)
    · exact .inr (.inr ⟨hrepo.symm, w, hw⟩)
  · intro h
    have hrest : x.repo.name = y.repo.name ∧
        x.job.name ++ "-" ++ x.job.chartVersion.version =
          y.job.name ++ "-" ++ y.job.chartVersion.version := by
      rcases h with ⟨hrepo, hsame⟩ | ⟨hrepo, w, hw⟩ | ⟨hrepo, w, hw⟩
      · exact ⟨hrepo, dashed_eq_iff.2 (.inl hsame)⟩
      · exact ⟨hrepo, dashed_eq_iff.2 (.inr (.inl ⟨w, hw⟩))⟩
      · exact ⟨hrepo.symm, dashed_eq_iff.2 (.inr (.inr ⟨w, hw⟩))⟩
    rw [hrest.1, hrest.2]

/-- Cut later, the name is longer. -/
theorem triple_ne_of_cutLater (h : CutLater x y) : x.triple ≠ y.triple := by
  obtain ⟨_, w, hname, _⟩ := h
  intro htriple
  have hsame : x.job.name = y.job.name := (Prod.mk.inj (Prod.mk.inj htriple).2).1
  rw [hsame] at hname
  have hlen := congrArg String.length hname
  rw [String.length_append, String.length_append] at hlen
  have hdash : "-".length = 1 := rfl
  omega

/-- An import changes no row but its own. -/
theorem served_fetchAndImportFiles (x y : ImportedVersion ns) (db : Database) (files : FileMap) :
    served (fetchAndImportFiles db x files) y = served db y ∨
      (x.filesID = y.filesID ∧
        served (fetchAndImportFiles db x files) y = some (chartFiles x.repo x.job files)) := by
  unfold fetchAndImportFiles
  split
  · exact .inl rfl
  · split
    · rename_i db' hdb
      obtain ⟨row, hinfo, _, htab⟩ := Database.insertFiles_ok hdb
      have hns : (repoKey x.repo).ns = ns := x.repo_ns
      have hfiles : db'.files = Function.update db.files ns
          (Function.update (db.files ns) x.filesID (some row)) := by
        have h := congrArg Tables.files htab
        rw [hns] at h
        exact h
      unfold served
      rw [hfiles, Function.update_self]
      by_cases hid : y.filesID = x.filesID
      · rw [hid, Function.update_self]
        exact .inr ⟨rfl, by rw [Option.map_some, hinfo]⟩
      · rw [Function.update_of_ne hid]
        exact .inl rfl
    · exact .inl rfl

/-- What is served after some imports was there before or is one of them. -/
theorem served_importAll {fetched : ImportedVersion ns → FileMap} {info : ChartFiles}
    (h : served (importAll fetched xs db) y = some info) :
    served db y = some info ∨ ∃ x ∈ xs, x.filesID = y.filesID ∧
      info = chartFiles x.repo x.job (fetched x) := by
  induction xs generalizing db with
  | nil => exact .inl h
  | cons x xs ih =>
      rcases ih h with h | ⟨x', hx', hid, hinfo⟩
      · rcases served_fetchAndImportFiles x y db (fetched x) with hkeep | ⟨hid, hnew⟩
        · exact .inl (hkeep ▸ h)
        · rw [hnew] at h
          exact .inr ⟨x, List.mem_cons_self, hid, (Option.some.inj h).symm⟩
      · exact .inr ⟨x', List.mem_cons_of_mem _ hx', hid, hinfo⟩

/-- The versions have rows of their own exactly when none is another one with the name cut
    later. -/
theorem ownRows_iff (ns : String) (vs : List (ImportedVersion ns)) :
    OwnRows vs ↔ ∀ x ∈ vs, ∀ y ∈ vs, ¬ CutLater x y := by
  constructor
  · intro h x hx y hy hcut
    exact triple_ne_of_cutLater hcut (h.injective x hx y hy (filesID_eq_iff.2 (.inr (.inl hcut))))
  · intro h
    have hinj : ∀ x ∈ vs, ∀ y ∈ vs, x.filesID = y.filesID → x.triple = y.triple := by
      intro x hx y hy hid
      rcases filesID_eq_iff.1 hid with hsame | hcut | hcut
      · exact hsame
      · exact absurd hcut (h x hx y hy)
      · exact absurd hcut (h y hy x hx)
    refine ⟨hinj, ?_, ?_⟩
    · intro x hx y hy hne db files
      rcases served_fetchAndImportFiles x y db files with hkeep | ⟨hid, _⟩
      · exact hkeep
      · exact absurd (hinj x hx y hy hid) hne
    · intro fetched db hnone xs hsub y hy info hinfo
      rcases served_importAll hinfo with hold | ⟨x, hx, hid, hinfo⟩
      · unfold served at hold
        rw [hnone] at hold
        cases hold
      · exact ⟨x, hx, hinj x (hsub x hx) y hy hid, hinfo⟩

end Ids

theorem pathEscape_a : "a" = pathEscape "a" := by
  apply bytes_injective
  rw [bytes_pathEscape]
  decide

theorem pathEscape_dashed : "a-1.0.0" = pathEscape "a-1.0.0" := by
  apply bytes_injective
  rw [bytes_pathEscape]
  decide

/-- Version `1.0.0-2.0.0` of the chart `a`. -/
def versionOfA : ImportedVersion "default" where
  repo := bitnami
  job := ⟨"a", ⟨"1.0.0-2.0.0", "", "", "sha256:1", [], "", "", ""⟩⟩
  repo_ns := rfl
  repo_name := validName_bitnami
  escaped := ⟨"a", pathEscape_a⟩

/-- Version `2.0.0` of the chart `a-1.0.0`. -/
def versionOfDashed : ImportedVersion "default" where
  repo := bitnami
  job := ⟨"a-1.0.0", ⟨"2.0.0", "", "", "sha256:2", [], "", "", ""⟩⟩
  repo_ns := rfl
  repo_name := validName_bitnami
  escaped := ⟨"a-1.0.0", pathEscape_dashed⟩

/-- The rows of the two charts. -/
def twoCharts : Database :=
  let add (db : Database) (id : String) : Database :=
    (db.upsertChart ⟨"default", "bitnami"⟩ { iconChart with id := id }).toOption.getD db
  add (add (Database.empty.putRepo ⟨"default", "bitnami"⟩ ⟨none, none⟩) "bitnami/a")
    "bitnami/a-1.0.0"

/-- The readme of a version names its chart. -/
def namedReadme (x : ImportedVersion "default") : FileMap := ⟨some ("# " ++ x.job.name), none, none⟩

/-- After both are imported, the readme of `a` is that of `a-1.0.0`. -/
theorem not_ownRows_versionOfA :
    versionOfA.filesID = versionOfDashed.filesID ∧ versionOfA.triple ≠ versionOfDashed.triple ∧
      (served (importAll namedReadme [versionOfA, versionOfDashed] twoCharts) versionOfA).map
        ChartFiles.readme = some "# a-1.0.0" ∧
      ¬ OwnRows [versionOfA, versionOfDashed] := by
  have hid : versionOfA.filesID = versionOfDashed.filesID := by decide
  have hne : versionOfA.triple ≠ versionOfDashed.triple := by decide
  refine ⟨hid, hne, by decide, fun h => hne (h.injective _ ?_ _ ?_ hid)⟩
  · exact List.mem_cons_self
  · exact List.mem_cons_of_mem _ List.mem_cons_self

end Kubeapps.Syncer
