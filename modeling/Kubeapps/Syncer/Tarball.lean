/-
  The files of a chart archive, taken from it in two ways: for a Helm repository
  (pkg/tarutil/tarutil.go: FetchChartDetailFromTarball, ExtractFilesFromTarball) and for an OCI
  registry (cmd/asset-syncer/utils.go: extractFilesFromBuffer).

  The first one looks for three paths below the directory of the chart, whatever is there; the
  second one takes the regular files of the top directory by their names. Both keep the last one.
  `sameFiles_iff` says for which archives they agree.
-/
import Kubeapps.Lib.Percent
import Kubeapps.Syncer.Oci

namespace Kubeapps.Syncer

open Kubeapps.Lib Kubeapps.Models

/-! ## The archive of a Helm repository -/

/-- `unicode.SimpleFold` up to case, for comparisons with ASCII names: the only other characters that
    fold to ASCII letters are U+017F and U+212A. -/
def foldRune (c : Char) : Char :=
  if c = Char.ofNat 0x17f then 's' else if c = Char.ofNat 0x212a then 'k' else c.toLower

/-- `strings.EqualFold`, where one of the two is ASCII. -/
def equalFold (s t : String) : Bool := s.toList.map foldRune = t.toList.map foldRune

/-- `url.PathUnescape`. The text of the error is without the escape that is wrong. -/
def pathUnescape (s : String) : Except String String :=
  match (unescape .pathSegment (bytes s)).bind ofBytes? with
  | some t => .ok t
  | none => .error "invalid URL escape"

/-- The keys of the map of files. -/
inductive FileKey where
  | readme
  | values
  | schema
  deriving DecidableEq, Repr

def FileKey.fileName : FileKey → String
  | .readme => "README.md"
  | .values => "values.yaml"
  | .schema => "values.schema.json"

def fileKeys : List FileKey := [.values, .readme, .schema]

end Kubeapps.Syncer

namespace Kubeapps.Models

def FileMap.set (files : FileMap) (key : Syncer.FileKey) (data : String) : FileMap :=
  match key with
  | .readme => { files with readme := some data }
  | .values => { files with values := some data }
  | .schema => { files with schema := some data }

def FileMap.get (files : FileMap) : Syncer.FileKey → Option String
  | .readme => files.readme
  | .values => files.values
  | .schema => files.schema

end Kubeapps.Models

namespace Kubeapps.Syncer

open Kubeapps.Lib Kubeapps.Models

/-- The loop of `ExtractFilesFromTarball`. No two names of `filenames` are equal up to case, so the
    order of the map does not matter. An error of reading is what `tarf.Next` returns next. -/
def extractFilesLoop (filenames : FileKey → String) (err : Option String) :
    List TarEntry → FileMap → Except String FileMap
  | [], ret =>
      match err with
      | none => .ok ret
      | some e => .error e
  | entry :: rest, ret =>
      match fileKeys.find? fun key => equalFold entry.name (filenames key) with
      | none => extractFilesLoop filenames err rest ret
      | some key =>
          match entry.data with
          | .error e => .error e
          | .ok data => extractFilesLoop filenames err rest (ret.set key data)

/-- `ExtractFilesFromTarball`. -/
def extractFilesFromTarball (filenames : FileKey → String) (tarf : TarStream) :
    Except String FileMap :=
  extractFilesLoop filenames tarf.err tarf.entries ⟨none, none, none⟩

/-- `FetchChartDetailFromTarball` from `gzip.NewReader` of the response on. -/
def fetchChartDetailFromTarball (name : String) (body : Except String TarStream) :
    Except String FileMap := do
  let tarf ← body
  let decodedName ← pathUnescape name
  let fixedName := pathBase decodedName
  let files ← extractFilesFromTarball (fun key => fixedName ++ "/" ++ key.fileName) tarf
  return ⟨some (files.readme.getD ""), some (files.values.getD ""), some (files.schema.getD "")⟩

/-- `FetchFiles` of an OCI registry for a version that `pullAndExtract` has made of this archive. -/
def ociFetchFiles (buf : Except String TarStream) : Except String FileMap := do
  let files ← extractFilesFromBuffer buf
  return ⟨some files.readme, some files.values, some files.schema⟩

/-! ## Archives of charts -/

/-- The entry is below the directory `top`, or that directory. -/
def Below (top : String) (entry : TarEntry) : Prop :=
  (entry.name = top ∧ entry.typeflag = .dir) ∨
    ∃ rest, entry.name = top ++ "/" ++ rest ∧ (rest = "" → entry.typeflag = .dir)

/-- A regular file, or a directory, of which nothing can be read. -/
def FileOrDirectory (entry : TarEntry) : Prop :=
  (entry.typeflag = .reg ∧ ∃ data, entry.data = .ok data) ∨
    entry.typeflag = .dir ∧ entry.data = .ok ""

/-- An archive of regular files and directories below one directory, whose name is, up to case, the
    last segment of the name of the chart. -/
structure ChartArchive (chartName : String) where
  entries : List TarEntry
  top : String
  top_segment : '/' ∉ top.toList
  top_name : equalFold top (pathBase chartName) = true
  below : ∀ entry ∈ entries, Below top entry
  kinds : ∀ entry ∈ entries, FileOrDirectory entry
  ascii : ∀ entry ∈ entries, ∀ c ∈ entry.name.toList, c.toNat < 0x80

def ChartArchive.stream {chartName : String} (a : ChartArchive chartName) : TarStream :=
  ⟨a.entries, none⟩

/-- The entry has the path of this file, up to case. -/
def atFile (top : String) (key : FileKey) (entry : TarEntry) : Bool :=
  toLower entry.name = toLower (top ++ "/" ++ key.fileName)

/-- The entries of this path. -/
def ChartArchive.entriesAt {chartName : String} (a : ChartArchive chartName) (key : FileKey) :
    List TarEntry :=
  a.entries.filter (atFile a.top key)

/-- If the last entry of the path is a directory, there is no regular file before it or the last of
    them is empty. -/
def ChartArchive.NothingHidden {chartName : String} (a : ChartArchive chartName) (key : FileKey) :
    Prop :=
  ∀ d, (a.entriesAt key).getLast? = some d → d.typeflag = .dir →
    ∀ r, ((a.entriesAt key).filter fun e => e.typeflag = .reg).getLast? = some r → r.data = .ok ""

/-! ## The last entry -/

section Last

variable {p : TarEntry → Bool} {entries entries' : List TarEntry} {entry : TarEntry}

/-- What is read of an entry. -/
def TarEntry.text (entry : TarEntry) : String :=
  match entry.data with
  | .ok data => data
  | .error _ => ""

/-- What is read of the last entry that `p` picks. -/
def lastText (p : TarEntry → Bool) (old : Option String) (entries : List TarEntry) :
    Option String :=
  ((entries.filter p).getLast?.map TarEntry.text).or old

theorem lastText_cons (p : TarEntry → Bool) (old : Option String) (entry : TarEntry)
    (entries : List TarEntry) :
    lastText p old (entry :: entries) =
      lastText p (if p entry then some entry.text else old) entries := by
  unfold lastText
  by_cases hp : p entry = true
  · rw [List.filter_cons_of_pos hp, List.getLast?_cons, if_pos hp]
    cases (entries.filter p).getLast? with
    | none => rfl
    | some last => rfl
  · rw [List.filter_cons_of_neg hp, if_neg hp]

theorem lastText_congr {q : TarEntry → Bool} (h : ∀ e ∈ entries, p e = q e) (old : Option String) :
    lastText p old entries = lastText q old entries := by
  unfold lastText
  rw [List.filter_congr h]

/-- With one entry at most the order does not matter. -/
theorem lastText_perm (hperm : entries'.Perm entries) (hone : (entries.filter p).length ≤ 1)
    (old : Option String) : lastText p old entries' = lastText p old entries := by
  have hfilter : (entries'.filter p).Perm (entries.filter p) := hperm.filter p
  have hsame : entries'.filter p = entries.filter p := by
    cases hlist : entries.filter p with
    | nil =>
        rw [hlist] at hfilter
        exact hfilter.eq_nil
    | cons x xs =>
        rw [hlist] at hfilter hone
        have hxs : xs = [] := List.eq_nil_of_length_eq_zero (by simpa using hone)
        rw [hxs] at hfilter ⊢
        exact List.perm_singleton.mp hfilter
  unfold lastText
  rw [hsame]

end Last

/-! ## The two loops -/

section Loops

variable {entries : List TarEntry}

@[simp] theorem get_set (files : FileMap) (key key' : FileKey) (data : String) :
    (files.set key data).get key' = if key' = key then some data else files.get key' := by
  cases key <;> cases key' <;> rfl

theorem text_of_ok {entry : TarEntry} {data : String} (h : entry.data = .ok data) :
    entry.text = data := by
  unfold TarEntry.text
  rw [h]

/-- With names of which no two are equal up to case, each file is that of the last entry. -/
theorem extractFilesLoop_ok (filenames : FileKey → String) (hdata : ∀ e ∈ entries, ∃ data, e.data = .ok data)
    (hnames : ∀ name k k', equalFold name (filenames k) = true →
      equalFold name (filenames k') = true → k = k') (ret : FileMap) :
    ∃ ret', extractFilesLoop filenames none entries ret = .ok ret' ∧ ∀ key, ret'.get key =
      lastText (fun e => equalFold e.name (filenames key)) (ret.get key) entries := by
  induction entries generalizing ret with
  | nil => exact ⟨ret, rfl, fun _ => rfl⟩
  | cons e entries ih =>
      have hrest : ∀ x ∈ entries, ∃ data, x.data = .ok data := fun x hx =>
        hdata x (List.mem_cons_of_mem e hx)
      obtain ⟨data, hok⟩ := hdata e List.mem_cons_self
      cases hfind : fileKeys.find? fun key => equalFold e.name (filenames key) with
      | none =>
          obtain ⟨ret', hret', hget⟩ := ih hrest ret
          refine ⟨ret', ?_, fun key => ?_⟩
          · rw [extractFilesLoop, hfind]
            exact hret'
          · have hkey : key ∈ fileKeys := by cases key <;> decide
            have hno := List.find?_eq_none.mp hfind key hkey
            rw [lastText_cons, if_neg hno, hget]
      | some found =>
          obtain ⟨ret', hret', hget⟩ := ih hrest (ret.set found data)
          have hfound : equalFold e.name (filenames found) = true := by
            have hsome := List.find?_some hfind
            exact hsome
          refine ⟨ret', ?_, fun key => ?_⟩
          · rw [extractFilesLoop, hfind]
            dsimp only
            rw [hok]
            exact hret'
          · rw [lastText_cons, hget, get_set, text_of_ok hok]
            by_cases hkey : key = found
            · rw [if_pos hkey, hkey, if_pos hfound]
            · rw [if_neg hkey, if_neg fun h => hkey (hnames _ _ _ h hfound)]

def ArtifactFiles.get (files : ArtifactFiles) : FileKey → String
  | .readme => files.readme
  | .values => files.values
  | .schema => files.schema

/-- A regular file of the top directory with this name, up to case. -/
def rootFile (key : FileKey) (entry : TarEntry) : Bool :=
  decide ((splitSlash entry.name).length ≤ 2) && (decide (entry.typeflag = .reg) &&
    decide (toLower (pathBase entry.name) = toLower key.fileName))

theorem get_set_artifact (files : ArtifactFiles) {filename : String} (key : FileKey)
    (data : String) (h : filename ∈ importantFiles) : (files.set filename data).get key =
      if filename = toLower key.fileName then data else files.get key := by
  have hreadme : toLower FileKey.readme.fileName = "readme.md" := by decide
  have hvalues : toLower FileKey.values.fileName = "values.yaml" := by decide
  have hschema : toLower FileKey.schema.fileName = "values.schema.json" := by decide
  simp only [importantFiles, List.mem_cons, List.not_mem_nil, or_false] at h
  cases key with
  | readme =>
      rw [hreadme]
      rcases h with rfl | rfl | rfl | rfl <;> rfl
  | values =>
      rw [hvalues]
      rcases h with rfl | rfl | rfl | rfl <;> rfl
  | schema =>
      rw [hschema]
      rcases h with rfl | rfl | rfl | rfl <;> rfl

theorem important_of_lower {key : FileKey} : toLower key.fileName ∈ importantFiles := by
  cases key <;> decide

theorem extractLoop_ok (hdata : ∀ e ∈ entries, ∃ data, e.data = .ok data) (files : ArtifactFiles) :
    ∃ files', extractLoop none entries files = .ok files' ∧ ∀ key, some (files'.get key) =
      lastText (rootFile key) (some (files.get key)) entries := by
  induction entries generalizing files with
  | nil => exact ⟨files, rfl, fun _ => rfl⟩
  | cons e entries ih =>
      have hrest : ∀ x ∈ entries, ∃ data, x.data = .ok data := fun x hx =>
        hdata x (List.mem_cons_of_mem e hx)
      obtain ⟨data, hok⟩ := hdata e List.mem_cons_self
      -- An entry that is not picked leaves the files as they are.
      have hskip : extractLoop none (e :: entries) files = extractLoop none entries files →
          (∀ key, rootFile key e = false) → ∃ files',
            extractLoop none (e :: entries) files = .ok files' ∧ ∀ key, some (files'.get key) =
              lastText (rootFile key) (some (files.get key)) (e :: entries) := by
        intro hloop hno
        obtain ⟨files', hfiles', hget⟩ := ih hrest files
        refine ⟨files', hloop.trans hfiles', fun key => ?_⟩
        rw [lastText_cons, hno key, hget]
        rfl
      by_cases hdeep : (splitSlash e.name).length > 2
      · refine hskip ?_ fun key => ?_
        · rw [extractLoop, if_pos hdeep]
        · unfold rootFile
          rw [decide_eq_false (by omega), Bool.false_and]
      · by_cases hreg : e.typeflag = .reg
        · by_cases himportant : toLower (pathBase e.name) ∈ importantFiles
          · obtain ⟨files', hfiles', hget⟩ :=
              ih hrest (files.set (toLower (pathBase e.name)) data)
            refine ⟨files', ?_, fun key => ?_⟩
            · rw [extractLoop, if_neg hdeep, hreg]
              dsimp only
              rw [if_pos himportant, hok]
              exact hfiles'
            · have hroot : rootFile key e =
                  decide (toLower (pathBase e.name) = toLower key.fileName) := by
                unfold rootFile
                rw [decide_eq_true (by omega), decide_eq_true hreg, Bool.true_and, Bool.true_and]
              rw [lastText_cons, hget, get_set_artifact files key data himportant, hroot,
                text_of_ok hok]
              by_cases hkey : toLower (pathBase e.name) = toLower key.fileName
              · rw [if_pos hkey, if_pos (decide_eq_true hkey)]
              · rw [if_neg hkey, if_neg fun h => hkey (of_decide_eq_true h)]
          · refine hskip ?_ fun key => ?_
            · rw [extractLoop, if_neg hdeep, hreg]
              dsimp only
              rw [if_neg himportant]
            · have hkey : toLower (pathBase e.name) ≠ toLower key.fileName := fun h =>
                himportant (h ▸ important_of_lower)
              unfold rootFile
              rw [decide_eq_false hkey, Bool.and_false, Bool.and_false]
        · refine hskip ?_ fun key => ?_
          · rw [extractLoop, if_neg hdeep]
            cases htype : e.typeflag with
            | reg => exact absurd htype hreg
            | dir => rfl
            | other => rfl
          · unfold rootFile
            rw [decide_eq_false hreg, Bool.false_and, Bool.and_false]

end Loops

/-! ## Paths below the directory of the chart -/

section Paths

variable {chartName : String} {a : ChartArchive chartName} {entry : TarEntry} {key : FileKey}

theorem slash_not_mem_lower (key : FileKey) : '/' ∉ key.fileName.toList.map Char.toLower := by
  cases key <;> decide

theorem foldRune_ascii : ∀ n < 128, foldRune (Char.ofNat n) = (Char.ofNat n).toLower := by
  decide

theorem map_foldRune_ascii {cs : List Char} (h : ∀ c ∈ cs, c.toNat < 0x80) :
    cs.map foldRune = cs.map Char.toLower := by
  refine List.map_congr_left fun c hc => ?_
  have hc' := foldRune_ascii c.toNat (h c hc)
  rwa [Char.ofNat_toNat] at hc'

theorem toLower_inj_iff {s t : String} :
    toLower s = toLower t ↔ s.toList.map Char.toLower = t.toList.map Char.toLower := by
  unfold toLower
  rw [← String.toList_inj, String.toList_ofList, String.toList_ofList]

theorem fileName_ascii (key : FileKey) : ∀ c ∈ key.fileName.toList, c.toNat < 0x80 := by
  have hall : key.fileName.toList.all (fun c => decide (c.toNat < 0x80)) = true := by
    cases key <;> decide
  exact fun c hc => of_decide_eq_true (List.all_eq_true.mp hall c hc)

theorem toLower_append_inj {top s t : String} :
    toLower (top ++ "/" ++ s) = toLower (top ++ "/" ++ t) ↔ toLower s = toLower t := by
  simp only [toLower_inj_iff, String.toList_append, List.map_append]
  exact List.append_right_inj _

/-- The directory is in the names, so it is ASCII too. -/
theorem top_ascii (hentry : entry ∈ a.entries) : ∀ c ∈ a.top.toList, c.toNat < 0x80 := by
  intro c hc
  refine a.ascii entry hentry c ?_
  rcases a.below entry hentry with ⟨hname, _⟩ | ⟨rest, hname, _⟩
  · rw [hname]
    exact hc
  · rw [hname, String.toList_append, String.toList_append]
    exact List.mem_append_left _ (List.mem_append_left _ hc)

/-- The Helm path looks for the path of the file. -/
theorem equalFold_eq_atFile (hentry : entry ∈ a.entries) :
    equalFold entry.name (pathBase chartName ++ "/" ++ key.fileName) = atFile a.top key entry := by
  have htop := of_decide_eq_true a.top_name
  have hfold : (pathBase chartName ++ "/" ++ key.fileName).toList.map foldRune =
      (a.top ++ "/" ++ key.fileName).toList.map Char.toLower := by
    rw [← map_foldRune_ascii]
    · simp only [String.toList_append, List.map_append, htop]
    · intro c hc
      rw [String.toList_append, String.toList_append, List.mem_append, List.mem_append] at hc
      rcases hc with (hc | hc) | hc
      · exact top_ascii hentry c hc
      · have hslash : c = '/' := by simpa using hc
        rw [hslash]
        decide
      · exact fileName_ascii key c hc
  unfold equalFold atFile
  rw [hfold, map_foldRune_ascii (a.ascii entry hentry)]
  exact decide_eq_decide.mpr toLower_inj_iff.symm

theorem splitSlash_below {top rest : String} (htop : '/' ∉ top.toList) :
    splitSlash (top ++ "/" ++ rest) = top.toList :: splitSlash rest := by
  have hlist : (top ++ "/" ++ rest).toList = top.toList ++ '/' :: rest.toList := by simp
  unfold splitSlash
  rw [hlist, List.splitOn_append_cons_self_of_not_mem htop]

theorem pathBase_below {top rest : String} (htop : '/' ∉ top.toList) (hrest : '/' ∉ rest.toList)
    (hne : rest ≠ "") : pathBase (top ++ "/" ++ rest) = rest := by
  have hnil : (top ++ "/" ++ rest).toList ≠ [] := by simp
  have hrest' : rest.toList ≠ [] := fun h => hne (String.toList_eq_nil_iff.mp h)
  have hsplit : splitSlash (top ++ "/" ++ rest) = [top.toList, rest.toList] := by
    rw [splitSlash_below htop, splitSlash, List.splitOn_eq_singleton hrest]
  unfold pathBase
  rw [if_neg hnil, hsplit, List.reverse_cons, List.reverse_singleton, List.singleton_append,
    List.dropWhile_cons_of_neg (by simpa using hrest')]
  exact String.ofList_toList

/-- The OCI path looks for a regular file there. -/
theorem rootFile_eq_atFile (hentry : entry ∈ a.entries) :
    rootFile key entry = (decide (entry.typeflag = .reg) && atFile a.top key entry) := by
  unfold rootFile
  by_cases hreg : entry.typeflag = .reg
  · rcases a.below entry hentry with ⟨_, hdir⟩ | ⟨rest, hname, hempty⟩
    · rw [hdir] at hreg
      exact absurd hreg (by decide)
    · have hne : rest ≠ "" := fun h => by
        rw [hempty h] at hreg
        exact absurd hreg (by decide)
      rw [decide_eq_true hreg, Bool.true_and, Bool.true_and]
      unfold atFile
      rw [hname]
      by_cases hslash : '/' ∈ rest.toList
      · -- The entry is deeper, and no file of the chart has a slash in its name.
        have hdeep : ¬ (splitSlash (a.top ++ "/" ++ rest)).length ≤ 2 := by
          obtain ⟨l, r, hlr⟩ := List.append_of_mem hslash
          rw [splitSlash_below a.top_segment, splitSlash, hlr, List.splitOn_append_cons_self,
            List.length_cons, List.length_append]
          have hl := List.length_pos_iff.mpr (List.splitOn_ne_nil '/' l)
          have hr := List.length_pos_iff.mpr (List.splitOn_ne_nil '/' r)
          omega
        have hother : ¬ toLower (a.top ++ "/" ++ rest) =
            toLower (a.top ++ "/" ++ key.fileName) := by
          rw [toLower_append_inj, toLower_inj_iff]
          intro heq
          refine slash_not_mem_lower key ?_
          rw [← heq]
          exact List.mem_map.mpr ⟨'/', hslash, by decide⟩
        rw [decide_eq_false hdeep, decide_eq_false hother, Bool.false_and]
      · have hlen : (splitSlash (a.top ++ "/" ++ rest)).length ≤ 2 := by
          rw [splitSlash_below a.top_segment, splitSlash, List.splitOn_eq_singleton hslash]
          exact Nat.le_refl 2
        rw [decide_eq_true hlen, Bool.true_and, pathBase_below a.top_segment hslash hne]
        exact decide_eq_decide.mpr toLower_append_inj.symm
  · rw [decide_eq_false hreg, Bool.false_and, Bool.and_false, Bool.false_and]

end Paths

/-! ## What is extracted -/

section Extracted

variable {chartName : String}

theorem pathUnescape_pathEscape (s : String) : pathUnescape (pathEscape s) = .ok s := by
  unfold pathUnescape
  rw [bytes_pathEscape, unescape_escape (by decide) (by decide), Option.bind_some, ofBytes?_bytes]

theorem data_ok (a : ChartArchive chartName) : ∀ e ∈ a.entries, ∃ data, e.data = .ok data := by
  intro e he
  rcases a.kinds e he with ⟨_, hdata⟩ | ⟨_, hdata⟩
  · exact hdata
  · exact ⟨"", hdata⟩

/-- No name is that of two files. -/
theorem fileKey_unique {dir name : String} {k k' : FileKey}
    (h : equalFold name (dir ++ "/" ++ k.fileName) = true)
    (h' : equalFold name (dir ++ "/" ++ k'.fileName) = true) : k = k' := by
  have heq := (of_decide_eq_true h).symm.trans (of_decide_eq_true h')
  have hlen := congrArg List.length heq
  simp only [List.length_map, String.toList_append, List.length_append] at hlen
  have hfiles : k.fileName.toList.length = k'.fileName.toList.length := by omega
  cases k <;> cases k' <;> first | rfl | exact absurd hfiles (by decide)

/-- What the Helm path has of a file: the last entry of its path, a directory being empty. -/
theorem helm_files (a : ChartArchive chartName) :
    fetchChartDetailFromTarball (pathEscape chartName) (.ok a.stream) =
      .ok ⟨some ((lastText (atFile a.top .readme) none a.entries).getD ""),
        some ((lastText (atFile a.top .values) none a.entries).getD ""),
        some ((lastText (atFile a.top .schema) none a.entries).getD "")⟩ := by
  obtain ⟨ret, hret, hget⟩ := extractFilesLoop_ok
    (fun key => pathBase chartName ++ "/" ++ key.fileName) (data_ok a)
    (fun _ _ _ h h' => fileKey_unique h h') ⟨none, none, none⟩
  have hlast : ∀ key, ret.get key = lastText (atFile a.top key) none a.entries := by
    intro key
    rw [hget, lastText_congr fun e he => equalFold_eq_atFile he]
    cases key <;> rfl
  have hextract : extractFilesFromTarball
      (fun key => pathBase chartName ++ "/" ++ key.fileName) a.stream = .ok ret := hret
  unfold fetchChartDetailFromTarball
  rw [pathUnescape_pathEscape]
  show (extractFilesFromTarball _ a.stream >>= fun files => _) = _
  rw [hextract, ← hlast, ← hlast, ← hlast]
  rfl

/-- What the OCI path has of it: the last regular file there. -/
theorem oci_files (a : ChartArchive chartName) :
    ociFetchFiles (.ok a.stream) = .ok
      ⟨lastText (fun e => decide (e.typeflag = .reg) && atFile a.top .readme e) (some "") a.entries,
        lastText (fun e => decide (e.typeflag = .reg) && atFile a.top .values e) (some "") a.entries,
        lastText (fun e => decide (e.typeflag = .reg) && atFile a.top .schema e) (some "")
          a.entries⟩ := by
  obtain ⟨files, hfiles, hget⟩ := extractLoop_ok (data_ok a) ⟨"", "", "", ""⟩
  have hlast : ∀ key, some (files.get key) =
      lastText (fun e => decide (e.typeflag = .reg) && atFile a.top key e) (some "") a.entries := by
    intro key
    rw [hget, lastText_congr fun e he => rootFile_eq_atFile he]
    cases key <;> rfl
  have hextract : extractFilesFromBuffer (.ok a.stream) = .ok files := hfiles
  unfold ociFetchFiles
  rw [hextract, ← hlast, ← hlast, ← hlast]
  rfl

/-- One file is the same exactly if no directory hides it. -/
theorem sameFile_iff (a : ChartArchive chartName) (key : FileKey) :
    lastText (fun e => decide (e.typeflag = .reg) && atFile a.top key e) (some "") a.entries =
      some ((lastText (atFile a.top key) none a.entries).getD "") ↔ a.NothingHidden key := by
  have hmem : ∀ e ∈ a.entriesAt key, e ∈ a.entries := fun e he => (List.mem_filter.mp he).1
  have hregular : lastText (fun e => decide (e.typeflag = .reg) && atFile a.top key e) (some "")
      a.entries = (((a.entriesAt key).filter fun e => e.typeflag = .reg).getLast?.map
        TarEntry.text).or (some "") := by
    unfold lastText ChartArchive.entriesAt
    rw [List.filter_filter]
  have hall : (lastText (atFile a.top key) none a.entries).getD "" =
      (((a.entriesAt key).getLast?.map TarEntry.text).getD "") := by
    unfold lastText
    rw [Option.or_none]
    rfl
  rw [hregular, hall]
  unfold ChartArchive.NothingHidden
  cases hlast : (a.entriesAt key).getLast? with
  | none =>
      rw [List.getLast?_eq_none_iff.mp hlast]
      simp
  | some d =>
      obtain ⟨before, hbefore⟩ := List.getLast?_eq_some_iff.mp hlast
      have hd : d ∈ a.entries := hmem d (by rw [hbefore]; simp)
      rcases a.kinds d hd with ⟨hreg, _⟩ | ⟨hdir, hdata⟩
      · -- The last entry is a regular file, which both take.
        have hsame : ((a.entriesAt key).filter fun e => e.typeflag = .reg).getLast? = some d := by
          rw [hbefore, List.filter_append, List.filter_singleton, decide_eq_true hreg, cond_true,
            List.getLast?_concat]
        rw [hsame]
        constructor
        · intro _ d' hd' hdir'
          rw [← Option.some.inj hd', hreg] at hdir'
          exact absurd hdir' (by decide)
        · exact fun _ => rfl
      · -- It is a directory, and the Helm path has nothing.
        rw [Option.map_some, Option.getD_some, text_of_ok hdata]
        cases hr : ((a.entriesAt key).filter fun e => e.typeflag = .reg).getLast? with
        | none => simp
        | some r =>
            have hrmem : r ∈ a.entries :=
              hmem r (List.mem_filter.mp (List.mem_of_getLast? hr)).1
            obtain ⟨data, hrdata⟩ := data_ok a r hrmem
            rw [Option.map_some, Option.some_or, text_of_ok hrdata]
            constructor
            · intro h _ _ _ r' hr'
              rw [← Option.some.inj hr', hrdata, Option.some.inj h]
            · intro h
              have hempty := h d rfl hdir r rfl
              rw [hrdata] at hempty
              exact congrArg some (Except.ok.inj hempty)

/-- No two entries have the same path, up to case. -/
def DistinctPaths (entries : List TarEntry) : Prop :=
  (entries.map fun e => toLower e.name).Nodup

theorem length_filter_le_one {entries : List TarEntry} (h : DistinctPaths entries)
    {p : TarEntry → Bool} (path : String) (hp : ∀ e, p e = true → toLower e.name = path) :
    (entries.filter p).length ≤ 1 := by
  have hnodup : ((entries.filter p).map fun e => toLower e.name).Nodup :=
    h.sublist (List.filter_sublist.map _)
  cases hlist : entries.filter p with
  | nil => simp
  | cons x xs =>
      cases xs with
      | nil => simp
      | cons y ys =>
          have hx : p x = true := (List.mem_filter.mp (by rw [hlist]; simp : x ∈ entries.filter p)).2
          have hy : p y = true := (List.mem_filter.mp (by rw [hlist]; simp : y ∈ entries.filter p)).2
          rw [hlist] at hnodup
          simp [hp x hx, hp y hy] at hnodup

/-- The same archive in another order. -/
def ChartArchive.reorder (a : ChartArchive chartName) {entries : List TarEntry}
    (hperm : entries.Perm a.entries) : ChartArchive chartName where
  entries := entries
  top := a.top
  top_segment := a.top_segment
  top_name := a.top_name
  below e he := a.below e (hperm.mem_iff.mp he)
  kinds e he := a.kinds e (hperm.mem_iff.mp he)
  ascii e he := a.ascii e (hperm.mem_iff.mp he)

theorem files_reorder (a : ChartArchive chartName) (hdistinct : DistinctPaths a.entries)
    {entries : List TarEntry} (hperm : entries.Perm a.entries) :
    ociFetchFiles (.ok ⟨entries, none⟩) = ociFetchFiles (.ok a.stream) ∧
      fetchChartDetailFromTarball (pathEscape chartName) (.ok ⟨entries, none⟩) =
        fetchChartDetailFromTarball (pathEscape chartName) (.ok a.stream) := by
  have hat : ∀ key, lastText (atFile a.top key) none entries =
      lastText (atFile a.top key) none a.entries := fun key =>
    lastText_perm hperm (length_filter_le_one hdistinct _ fun e he => of_decide_eq_true he) none
  have hreg : ∀ key,
      lastText (fun e => decide (e.typeflag = .reg) && atFile a.top key e) (some "") entries =
        lastText (fun e => decide (e.typeflag = .reg) && atFile a.top key e) (some "")
          a.entries := by
    intro key
    refine lastText_perm hperm (length_filter_le_one hdistinct
      (toLower (a.top ++ "/" ++ key.fileName)) fun e he => ?_) (some "")
    rw [Bool.and_eq_true] at he
    exact of_decide_eq_true he.2
  have hoci := oci_files (a.reorder hperm)
  have hhelm := helm_files (a.reorder hperm)
  constructor
  · rw [oci_files a, ← hreg, ← hreg, ← hreg]
    exact hoci
  · rw [helm_files a, ← hat, ← hat, ← hat]
    exact hhelm

end Extracted

/-- **Both paths extract the same files** of an archive exactly if of no file the last entry is a
    directory and the last regular file before it not empty. Where no two entries have the same
    path up to case, neither result depends on their order. -/
theorem sameFiles_iff (chartName : String) (a : ChartArchive chartName) :
    (ociFetchFiles (.ok a.stream) =
        fetchChartDetailFromTarball (pathEscape chartName) (.ok a.stream) ↔
      ∀ key, a.NothingHidden key) ∧
    (DistinctPaths a.entries → ∀ entries, entries.Perm a.entries →
      ociFetchFiles (.ok ⟨entries, none⟩) = ociFetchFiles (.ok a.stream) ∧
        fetchChartDetailFromTarball (pathEscape chartName) (.ok ⟨entries, none⟩) =
          fetchChartDetailFromTarball (pathEscape chartName) (.ok a.stream)) := by
  refine ⟨?_, fun hdistinct entries hperm => files_reorder a hdistinct hperm⟩
  rw [oci_files a, helm_files a, Except.ok.injEq, FileMap.mk.injEq, sameFile_iff, sameFile_iff,
    sameFile_iff]
  constructor
  · intro ⟨hreadme, hvalues, hschema⟩ key
    cases key with
    | readme => exact hreadme
    | values => exact hvalues
    | schema => exact hschema
  · exact fun h => ⟨h .readme, h .values, h .schema⟩

/-- A README and, after it, a directory of its name without a slash at the end. -/
def readmeDirectory : ChartArchive "nginx" where
  entries := [⟨"nginx/README.md", .reg, .ok "# nginx"⟩, ⟨"nginx/README.md", .dir, .ok ""⟩]
  top := "nginx"
  top_segment := by decide
  top_name := by decide
  below := by
    intro e he
    refine .inr ⟨"README.md", ?_, fun h => absurd h (by decide)⟩
    rcases List.mem_cons.mp he with rfl | he
    · decide
    · rw [List.mem_singleton.mp he]
      decide
  kinds := by
    intro e he
    rcases List.mem_cons.mp he with rfl | he
    · exact .inl ⟨rfl, _, rfl⟩
    · rw [List.mem_singleton.mp he]
      exact .inr ⟨rfl, rfl⟩
  ascii := by
    have hall : "nginx/README.md".toList.all (fun c => decide (c.toNat < 0x80)) = true := by decide
    intro e he c hc
    have hname : e.name = "nginx/README.md" := by
      rcases List.mem_cons.mp he with rfl | he
      · rfl
      · rw [List.mem_singleton.mp he]
    rw [hname] at hc
    exact of_decide_eq_true (List.all_eq_true.mp hall c hc)

/-- The Helm path takes the directory for an empty README. -/
theorem not_sameFiles_readmeDirectory : ociFetchFiles (.ok readmeDirectory.stream) ≠
    fetchChartDetailFromTarball (pathEscape "nginx") (.ok readmeDirectory.stream) := by
  rw [oci_files, helm_files]
  decide

end Kubeapps.Syncer
