/-
  The configuration of the clusters: what the chart makes of its value `clusters`
  (chart/kubeapps/templates/_helpers.tpl: kubeapps.kubeappsCluster; shared/config.yaml), and how the
  services read it (pkg/kube/kube_handler.go: ParseClusterConfig).

  The entries of the file are what `json.Unmarshal` makes of it; the fields without a tag can be in
  the file under their own names. Decoded data is a string with one character for each byte.

  The loop keeps the last entry of each name and the last candidate for the cluster of Kubeapps, and
  refuses a candidate after one that has a name (`parseEntries_ok_iff`). The file of an entry holds
  the data of the last entry that is written to the same path, which is not always its own
  (`caFiles_agree_iff`). The chart has another idea of a candidate than the loop
  (`kubeappsCluster_agrees_iff`).
-/
import Kubeapps.Kube.ClusterConfig
import Kubeapps.Lib.Base64
import Mathlib.Data.List.Find
import Mathlib.Data.List.Pairwise
import Mathlib.Logic.Function.Basic

namespace Kubeapps.Kube.Clusters

open Kubeapps.Lib

/-! ## Entries -/

/-- An entry of the file: the fields of `ClusterConfig` that only `ParseClusterConfig` reads. -/
structure ClusterEntry extends ClusterConfig where
  name : String
  isKubeappsCluster : Bool
  deriving DecidableEq, Repr

/-- `isKubeappsClusterCandidate`. -/
def ClusterEntry.candidate (c : ClusterEntry) : Bool :=
  c.isKubeappsCluster || c.apiServiceURL = ""

/-- `base64.StdEncoding.DecodeString`. -/
def decodeString (s : String) : Option Bytes :=
  let cs := s.toList.filter fun c => c ≠ '\r' && c ≠ '\n'
  if cs.length % 4 ≠ 0 then none else ((dropPadding cs).mapM base64Value).map octets

theorem decodeString_encodeBase64 (bs : Bytes) : decodeString (encodeBase64 bs) = some bs := by
  have hpad : '=' ∉ (sextets bs).map base64Char := by
    intro h
    obtain ⟨n, hn, heq⟩ := List.mem_map.mp h
    exact (base64Char_digit n (lt_of_mem_sextets hn)).2.2.1 heq
  have hfilter : (encodeBase64 bs).toList.filter (fun c => c ≠ '\r' && c ≠ '\n') =
      (encodeBase64 bs).toList := by
    rw [List.filter_eq_self]
    intro c hc
    have hblank := (mem_encodeBase64 hc).2
    have hcr : c ≠ '\r' := fun heq => by
      rw [heq] at hblank
      revert hblank
      decide
    have hlf : c ≠ '\n' := fun heq => by
      rw [heq] at hblank
      revert hblank
      decide
    simp [hcr, hlf]
  have hle : padding bs ≤ 2 := by
    unfold padding
    omega
  unfold decodeString
  rw [hfilter]
  unfold encodeBase64
  rw [String.toList_ofList]
  dsimp only
  rw [List.length_append, List.length_map, List.length_replicate,
    if_neg (not_not.mpr (length_sextets bs).1), dropPadding_replicate hpad hle,
    mapM_base64Value fun n hn => lt_of_mem_sextets hn, Option.map_some, octets_sextets]

/-! ## `ParseClusterConfig` -/

/-- The files and `json.Unmarshal`. The directory for the CA files is new and empty, so whether a
    file can be written depends on its path and on the data. -/
structure ConfigOS where
  tempDir : String → Except String String
  readFile : String → Except String Bytes
  unmarshal : Bytes → Except String (List ClusterEntry)
  writeError : String → Bytes → Option String

inductive ParseError where
  /-- The error of `TempDir`, `ReadFile` or `Unmarshal`. -/
  | failed (msg : String)
  /-- `only one cluster can be configured using either 'isKubeappsCluster: true' or without an
      apiServiceURL to refer to the cluster on which Kubeapps is installed, two defined: %q, %q`. -/
  | twoKubeappsClusters (first second : String)
  /-- `base64.CorruptInputError`. -/
  | corruptInput (data : String)
  | writeFile (msg : String)
  deriving DecidableEq, Repr

/-- The function that the caller has to defer. -/
inductive Cleanup where
  | nil
  | noop
  | removeAll (dir : String)
  deriving DecidableEq, Repr

/-- What the loop makes: `configs`, and the files that it has written. -/
structure Parse where
  configs : ClustersConfig
  files : String → Option Bytes

def Parse.start (pinnipedProxyURL : String) : Parse :=
  ⟨⟨"", pinnipedProxyURL, fun _ => none⟩, fun _ => none⟩

/-- The first part of the loop: select the cluster in which Kubeapps is installed. -/
def selectKubeappsCluster (configs : ClustersConfig) (c : ClusterEntry) :
    Except ParseError ClustersConfig :=
  if c.candidate then
    if configs.kubeappsClusterName = "" then .ok { configs with kubeappsClusterName := c.name }
    else .error (.twoKubeappsClusters configs.kubeappsClusterName c.name)
  else .ok configs

/-- The second part: decode the CA data, write them to a file, and put the entry into the map. -/
def putCluster (os : ConfigOS) (caFilesDir : String) (p : Parse) (c : ClusterEntry) :
    Except ParseError Parse :=
  let put (config : ClusterConfig) : ClustersConfig :=
    { p.configs with clusters := Function.update p.configs.clusters c.name (some config) }
  if c.certificateAuthorityData ≠ "" then
    match decodeString c.certificateAuthorityData with
    | none => .error (.corruptInput c.certificateAuthorityData)
    | some decodedCAData =>
        let caFile := pathJoin [caFilesDir, c.name]
        match os.writeError caFile decodedCAData with
        | some msg => .error (.writeFile msg)
        | none =>
            let config := { c.toClusterConfig with
              certificateAuthorityDataDecoded := binaryString decodedCAData
              caFile }
            .ok ⟨put config, Function.update p.files caFile (some decodedCAData)⟩
  else .ok ⟨put c.toClusterConfig, p.files⟩

/-- One entry of the loop. -/
def parseEntry (os : ConfigOS) (caFilesDir : String) (p : Parse) (c : ClusterEntry) :
    Except ParseError Parse := do
  let configs ← selectKubeappsCluster p.configs c
  putCluster os caFilesDir { p with configs } c

/-- The function that is returned with an error of the loop. -/
def ParseError.cleanup (caFilesDir : String) : ParseError → Cleanup
  | .twoKubeappsClusters _ _ => .nil
  | .failed _ => .removeAll caFilesDir
  | .corruptInput _ => .removeAll caFilesDir
  | .writeFile _ => .removeAll caFilesDir

/-- `ParseClusterConfig`. -/
def parseClusterConfig (os : ConfigOS) (configPath caFilesPrefix pinnipedProxyURL : String) :
    Except ParseError Parse × Cleanup :=
  match os.tempDir caFilesPrefix with
  | .error msg => (.error (.failed msg), .noop)
  | .ok caFilesDir =>
      match os.readFile configPath with
      | .error msg => (.error (.failed msg), .removeAll caFilesDir)
      | .ok content =>
          match os.unmarshal content with
          | .error msg => (.error (.failed msg), .removeAll caFilesDir)
          | .ok clusterConfigs =>
              match clusterConfigs.foldlM (parseEntry os caFilesDir)
                  (Parse.start pinnipedProxyURL) with
              | .error e => (.error e, e.cleanup caFilesDir)
              | .ok p => (.ok p, .removeAll caFilesDir)

/-! ## The cluster of Kubeapps -/

section Candidates

variable {α : Type} (candidate : α → Bool) (name : α → String)

/-- The loops of the chart and of `ParseClusterConfig` select a name in this way. -/
def select (selected : String) (x : α) : Option String :=
  if candidate x then if selected = "" then some (name x) else none else some selected

/-- The name of the last candidate. -/
def lastName (xs : List α) : String := ((xs.reverse.find? candidate).map name).getD ""

/-- No candidate comes after one that has a name. -/
def OneNamed (xs : List α) : Prop :=
  xs.Pairwise fun x y => candidate x = true → candidate y = true → name x = ""

variable {candidate name} {xs : List α} {x : α}

theorem lastName_concat :
    lastName candidate name (xs ++ [x]) =
      if candidate x then name x else lastName candidate name xs := by
  unfold lastName
  rw [List.reverse_append, List.reverse_singleton, List.singleton_append, List.find?_cons]
  cases candidate x <;> rfl

theorem lastName_congr {candidate' : α → Bool} (h : ∀ x ∈ xs, candidate x = candidate' x) :
    lastName candidate name xs = lastName candidate' name xs := by
  unfold lastName
  rw [List.find?_congr fun x hx => h x (List.mem_reverse.mp hx)]

/-- With one named candidate at most, the last candidate has no name only if none has. -/
theorem lastName_eq_empty_iff (h : OneNamed candidate name xs) :
    lastName candidate name xs = "" ↔ ∀ x ∈ xs, candidate x = true → name x = "" := by
  induction xs using List.reverseRecOn with
  | nil => simp [lastName]
  | append_singleton xs x ih =>
      obtain ⟨hxs, -, hlast⟩ := List.pairwise_append.mp h
      have hlast := fun y hy => hlast y hy x (List.mem_singleton_self x)
      rw [lastName_concat]
      simp only [List.mem_append, List.mem_singleton]
      by_cases hx : candidate x = true
      · rw [if_pos hx]
        constructor
        · rintro hname y (hy | rfl) hcand
          · exact hlast y hy hcand hx
          · exact hname
        · exact fun hall => hall x (.inr rfl) hx
      · rw [if_neg hx, ih hxs]
        constructor
        · rintro hall y (hy | rfl) hcand
          · exact hall y hy hcand
          · exact absurd hcand hx
        · exact fun hall y hy => hall y (.inl hy)

theorem oneNamed_concat :
    OneNamed candidate name (xs ++ [x]) ↔ OneNamed candidate name xs ∧
      (candidate x = true → lastName candidate name xs = "") := by
  unfold OneNamed
  rw [List.pairwise_append]
  constructor
  · rintro ⟨hxs, -, hlast⟩
    refine ⟨hxs, fun hx => (lastName_eq_empty_iff hxs).mpr fun y hy hcand => ?_⟩
    exact hlast y hy x (List.mem_singleton_self x) hcand hx
  · rintro ⟨hxs, hlast⟩
    refine ⟨hxs, List.pairwise_singleton _ _, fun y hy z hz hcand hz' => ?_⟩
    rw [List.mem_singleton] at hz
    subst hz
    exact (lastName_eq_empty_iff hxs).mp (hlast hz') y hy hcand

/-- A named candidate is the one that is selected. -/
theorem lastName_of_candidate (h : OneNamed candidate name xs) (hx : x ∈ xs)
    (hcand : candidate x = true) (hname : name x ≠ "") : lastName candidate name xs = name x := by
  induction xs using List.reverseRecOn with
  | nil => cases hx
  | append_singleton xs y ih =>
      obtain ⟨hxs, hlast⟩ := oneNamed_concat.mp h
      rw [lastName_concat]
      rcases List.mem_append.mp hx with hx | hx
      · have hxs := ih hxs hx
        rw [if_neg, hxs]
        intro hy
        rw [hlast hy] at hxs
        exact hname hxs.symm
      · rw [← List.mem_singleton.mp hx, if_pos hcand]

/-- Of elements that all have names one is a candidate. -/
theorem eq_of_oneNamed (h : OneNamed candidate name xs) (hnames : ∀ x ∈ xs, name x ≠ "") {y : α}
    (hx : x ∈ xs) (hy : y ∈ xs) (hxcand : candidate x = true) (hycand : candidate y = true) :
    x = y := by
  have hsym : xs.Pairwise fun x y => candidate x = true → candidate y = true →
      name x = "" ∨ name y = "" := h.imp fun h hx hy => .inl (h hx hy)
  have : Std.Symm fun x y : α => candidate x = true → candidate y = true →
      name x = "" ∨ name y = "" := ⟨fun _ _ h hy hx => (h hx hy).symm⟩
  by_contra hne
  rcases hsym.forall hx hy hne hxcand hycand with hempty | hempty
  · exact hnames x hx hempty
  · exact hnames y hy hempty

/-- Where two notions of a candidate select one name, a candidate of one of them alone has the name of
    one of the other alone. -/
theorem exists_other_candidate {candidate' : α → Bool} (h : OneNamed candidate name xs)
    (h' : OneNamed candidate' name xs) (hnames : ∀ x ∈ xs, name x ≠ "")
    (heq : lastName candidate' name xs = lastName candidate name xs) (hx : x ∈ xs)
    (hcand : candidate x = true) (hcand' : candidate' x = false) :
    ∃ y ∈ xs, name x = name y ∧ candidate' y = true ∧ candidate y = false := by
  have hlast := lastName_of_candidate h hx hcand (hnames x hx)
  have hsome : lastName candidate' name xs ≠ "" := by
    rw [heq, hlast]
    exact hnames x hx
  rw [Ne, lastName_eq_empty_iff h'] at hsome
  push Not at hsome
  obtain ⟨y, hy, hycand, hyname⟩ := hsome
  refine ⟨y, hy, ?_, hycand, ?_⟩
  · rw [← hlast, ← heq, lastName_of_candidate h' hy hycand hyname]
  · refine Bool.eq_false_of_not_eq_true fun hycand' => ?_
    rw [eq_of_oneNamed h hnames hy hx hycand' hcand, hcand'] at hycand
    exact nomatch hycand

/-- Another notion of a candidate selects the same name exactly if there are the same candidates, or
    each has one that the other has not, and the two have one name. -/
theorem lastName_agrees_iff {candidate' : α → Bool} (h : OneNamed candidate name xs)
    (hnames : ∀ x ∈ xs, name x ≠ "") :
    (OneNamed candidate' name xs ∧ lastName candidate' name xs = lastName candidate name xs) ↔
      (∀ x ∈ xs, candidate' x = candidate x) ∨
        (OneNamed candidate' name xs ∧ ∃ x ∈ xs, ∃ y ∈ xs, name x = name y ∧
          (candidate x = true ∧ candidate' x = false) ∧
          (candidate' y = true ∧ candidate y = false)) := by
  constructor
  · rintro ⟨h', heq⟩
    refine or_iff_not_imp_left.mpr fun hdiff => ⟨h', ?_⟩
    push Not at hdiff
    obtain ⟨x, hx, hne⟩ := hdiff
    cases hcand : candidate x with
    | true =>
        have hcand' : candidate' x = false := by simpa [hcand] using hne
        obtain ⟨y, hy, hname, hother⟩ := exists_other_candidate h h' hnames heq hx hcand hcand'
        exact ⟨x, hx, y, hy, hname, ⟨hcand, hcand'⟩, hother⟩
    | false =>
        have hcand' : candidate' x = true := by simpa [hcand] using hne
        obtain ⟨y, hy, hname, hother⟩ :=
          exists_other_candidate h' h hnames heq.symm hx hcand' hcand
        exact ⟨y, hy, x, hx, hname.symm, hother, hcand', hcand⟩
  · rintro (hsame | ⟨h', x, hx, y, hy, hname, ⟨hxcand, _⟩, hycand, _⟩)
    · refine ⟨h.imp_of_mem fun hx hy h hxcand hycand => ?_, lastName_congr hsame⟩
      exact h (hsame _ hx ▸ hxcand) (hsame _ hy ▸ hycand)
    · refine ⟨h', ?_⟩
      rw [lastName_of_candidate h' hy hycand (hnames y hy),
        lastName_of_candidate h hx hxcand (hnames x hx), hname]

/-- The loop ends with the name of the last candidate, if no candidate comes after a named one. -/
theorem foldlM_select {n : String} :
    xs.foldlM (select candidate name) "" = some n ↔
      OneNamed candidate name xs ∧ n = lastName candidate name xs := by
  induction xs using List.reverseRecOn generalizing n with
  | nil =>
      have hnil : OneNamed candidate name [] := List.Pairwise.nil
      simp [hnil, lastName, pure, eq_comm]
  | append_singleton xs x ih =>
      rw [List.foldlM_append, Option.bind_eq_bind, Option.bind_eq_some_iff, oneNamed_concat,
        lastName_concat]
      simp only [List.foldlM_cons, List.foldlM_nil, bind_pure, ih, select]
      constructor
      · rintro ⟨_, ⟨hxs, rfl⟩, hx⟩
        split at hx
        · rename_i hcand
          split at hx
          · rename_i hempty
            exact ⟨⟨hxs, fun _ => hempty⟩, by rw [if_pos hcand, Option.some.inj hx]⟩
          · cases hx
        · rename_i hcand
          exact ⟨⟨hxs, fun h => absurd h hcand⟩, by rw [if_neg hcand, Option.some.inj hx]⟩
      · rintro ⟨⟨hxs, hempty⟩, rfl⟩
        refine ⟨_, ⟨hxs, rfl⟩, ?_⟩
        by_cases hcand : candidate x = true
        · rw [if_pos hcand, if_pos hcand, if_pos (hempty hcand)]
        · rw [if_neg hcand, if_neg hcand]

end Candidates

/-! ## The loop -/

section Loop

variable {os : ConfigOS} {dir url path n : String} {p p' : Parse} {c d : ClusterEntry}
  {entries : List ClusterEntry}

/-- The path of the CA file of an entry. -/
def caPath (dir : String) (c : ClusterEntry) : String := pathJoin [dir, c.name]

/-- The data of an entry that has some. -/
def ClusterEntry.caData (c : ClusterEntry) : Option Bytes :=
  if c.certificateAuthorityData = "" then none else decodeString c.certificateAuthorityData

/-- What the map has for an entry. -/
def ClusterEntry.config (dir : String) (c : ClusterEntry) : ClusterConfig :=
  match c.caData with
  | none => c.toClusterConfig
  | some data => { c.toClusterConfig with
      certificateAuthorityDataDecoded := binaryString data
      caFile := caPath dir c }

/-- The data of an entry decodes and can be written, if there is any. -/
def Storable (os : ConfigOS) (dir : String) (c : ClusterEntry) : Prop :=
  c.certificateAuthorityData ≠ "" →
    ∃ data, c.caData = some data ∧ os.writeError (caPath dir c) data = none

/-- The last entry of a name. -/
def lastNamed (n : String) (entries : List ClusterEntry) : Option ClusterEntry :=
  entries.reverse.find? fun c => c.name = n

/-- The last entry that is written to a path. -/
def lastWriter (dir path : String) (entries : List ClusterEntry) : Option ClusterEntry :=
  entries.reverse.find? fun c => c.caData.isSome && caPath dir c = path

/-- What the loop makes of the entries. -/
def parsed (dir url : String) (entries : List ClusterEntry) : Parse where
  configs := {
    kubeappsClusterName := lastName ClusterEntry.candidate ClusterEntry.name entries
    pinnipedProxyURL := url
    clusters := fun n => (lastNamed n entries).map (ClusterEntry.config dir) }
  files := fun path => (lastWriter dir path entries).bind ClusterEntry.caData

/-- The entries for which the loop does not return an error. -/
structure Accepted (os : ConfigOS) (dir : String) (entries : List ClusterEntry) : Prop where
  oneNamed : OneNamed ClusterEntry.candidate ClusterEntry.name entries
  storable : ∀ c ∈ entries, Storable os dir c

theorem lastNamed_concat : lastNamed n (entries ++ [c]) =
    if c.name = n then some c else lastNamed n entries := by
  unfold lastNamed
  rw [List.reverse_append, List.reverse_singleton, List.singleton_append, List.find?_cons]
  by_cases hn : c.name = n <;> simp [hn]

theorem lastWriter_concat : lastWriter dir path (entries ++ [c]) =
    if c.caData.isSome = true ∧ caPath dir c = path then some c
    else lastWriter dir path entries := by
  unfold lastWriter
  rw [List.reverse_append, List.reverse_singleton, List.singleton_append, List.find?_cons]
  by_cases hc : c.caData.isSome = true ∧ caPath dir c = path
  · rw [if_pos hc, hc.1, decide_eq_true hc.2]
    rfl
  · have hand : (c.caData.isSome && decide (caPath dir c = path)) = false := by
      simpa using hc
    rw [if_neg hc, hand]

/-- What the state is after an entry. -/
theorem parsed_concat : parsed dir url (entries ++ [c]) = {
    configs := { (parsed dir url entries).configs with
      kubeappsClusterName := if c.candidate then c.name
        else lastName ClusterEntry.candidate ClusterEntry.name entries
      clusters := Function.update (parsed dir url entries).configs.clusters c.name
        (some (c.config dir)) }
    files := match c.caData with
      | none => (parsed dir url entries).files
      | some data => Function.update (parsed dir url entries).files (caPath dir c) (some data) } := by
  unfold parsed
  rw [lastName_concat]
  congr 1
  · congr 1
    funext n
    rw [lastNamed_concat]
    by_cases hn : c.name = n
    · subst hn
      rw [if_pos rfl, Function.update_self, Option.map_some]
    · rw [if_neg hn, Function.update_of_ne (Ne.symm hn)]
  · funext path
    rw [lastWriter_concat]
    cases hdata : c.caData with
    | none => simp
    | some data =>
        by_cases hpath : caPath dir c = path
        · subst hpath
          simp [hdata]
        · simp [hpath, Function.update_of_ne (Ne.symm hpath)]

theorem selectKubeappsCluster_ok_iff {configs configs' : ClustersConfig} :
    selectKubeappsCluster configs c = .ok configs' ↔
      (c.candidate = true → configs.kubeappsClusterName = "") ∧
        configs' = { configs with kubeappsClusterName :=
          if c.candidate then c.name else configs.kubeappsClusterName } := by
  unfold selectKubeappsCluster
  by_cases hcand : c.candidate = true
  · by_cases hname : configs.kubeappsClusterName = ""
    · simp only [hcand, hname, if_true, true_implies, true_and, Except.ok.injEq]
      exact eq_comm
    · simp [hcand, hname]
  · simp only [hcand, Bool.false_eq_true, if_false, false_implies, true_and, Except.ok.injEq]
    exact eq_comm

theorem putCluster_ok_iff : putCluster os dir p c = .ok p' ↔
    Storable os dir c ∧ p' = {
      configs := { p.configs with
        clusters := Function.update p.configs.clusters c.name (some (c.config dir)) }
      files := match c.caData with
        | none => p.files
        | some data => Function.update p.files (caPath dir c) (some data) } := by
  unfold putCluster Storable ClusterEntry.config
  by_cases hca : c.certificateAuthorityData = ""
  · have hdata : c.caData = none := if_pos hca
    simp only [hca, hdata, ne_eq, not_true_eq_false, if_false, false_implies, true_and,
      Except.ok.injEq]
    exact eq_comm
  · have hdata : c.caData = decodeString c.certificateAuthorityData := if_neg hca
    cases hdec : decodeString c.certificateAuthorityData with
    | none => simp [hca, hdata, hdec]
    | some data =>
        cases hwrite : os.writeError (pathJoin [dir, c.name]) data with
        | some msg => simp [hca, hdata, hdec, hwrite, caPath]
        | none =>
            simp only [hca, hdata, hdec, hwrite, caPath, ne_eq, not_false_eq_true, if_true,
              forall_const, Option.some.injEq, exists_eq_left', true_and, Except.ok.injEq]
            exact eq_comm

/-- One entry is accepted after the others exactly if no named candidate is before it and its data
    can be stored. -/
theorem parseEntry_ok_iff : parseEntry os dir (parsed dir url entries) c = .ok p ↔
    ((c.candidate = true → lastName ClusterEntry.candidate ClusterEntry.name entries = "") ∧
      Storable os dir c) ∧ p = parsed dir url (entries ++ [c]) := by
  rw [parsed_concat]
  constructor
  · intro h
    obtain ⟨configs, hselect, hput⟩ := bind_eq_ok h
    obtain ⟨hcand, rfl⟩ := selectKubeappsCluster_ok_iff.mp hselect
    obtain ⟨hstorable, rfl⟩ := putCluster_ok_iff.mp hput
    exact ⟨⟨hcand, hstorable⟩, rfl⟩
  · rintro ⟨⟨hcand, hstorable⟩, rfl⟩
    unfold parseEntry
    rw [selectKubeappsCluster_ok_iff.mpr ⟨hcand, rfl⟩]
    exact putCluster_ok_iff.mpr ⟨hstorable, rfl⟩

/-- The loop: which entries it accepts, and what it makes of them. -/
theorem foldlM_parseEntry : entries.foldlM (parseEntry os dir) (Parse.start url) = .ok p ↔
    Accepted os dir entries ∧ p = parsed dir url entries := by
  induction entries using List.reverseRecOn generalizing p with
  | nil =>
      have hnil : parsed dir url [] = Parse.start url := rfl
      have haccepted : Accepted os dir [] := ⟨List.Pairwise.nil, by simp⟩
      rw [hnil, List.foldlM_nil]
      simp [haccepted, pure, Except.pure, eq_comm]
  | append_singleton entries c ih =>
      rw [List.foldlM_append]
      constructor
      · intro h
        obtain ⟨p₁, hentries, h⟩ := bind_eq_ok h
        obtain ⟨haccepted, rfl⟩ := ih.mp hentries
        rw [List.foldlM_cons] at h
        obtain ⟨p₂, hentry, h⟩ := bind_eq_ok h
        obtain ⟨⟨hcand, hstorable⟩, rfl⟩ := parseEntry_ok_iff.mp hentry
        refine ⟨⟨oneNamed_concat.mpr ⟨haccepted.oneNamed, hcand⟩, fun d hd => ?_⟩,
          (Except.ok.inj h).symm⟩
        rcases List.mem_append.mp hd with hd | hd
        · exact haccepted.storable d hd
        · rw [List.mem_singleton.mp hd]
          exact hstorable
      · rintro ⟨haccepted, rfl⟩
        obtain ⟨honeNamed, hcand⟩ := oneNamed_concat.mp haccepted.oneNamed
        have hentries : Accepted os dir entries :=
          ⟨honeNamed, fun d hd => haccepted.storable d (List.mem_append_left _ hd)⟩
        have hstorable := haccepted.storable c (by simp)
        rw [ih.mpr ⟨hentries, rfl⟩]
        show [c].foldlM (parseEntry os dir) (parsed dir url entries) = _
        rw [List.foldlM_cons, parseEntry_ok_iff.mpr ⟨⟨hcand, hstorable⟩, rfl⟩]
        rfl

/-- Which files are accepted, and what is made of them. -/
theorem parseClusterConfig_ok_iff (os : ConfigOS) (configPath caFilesPrefix url : String)
    (p : Parse) (cleanup : Cleanup) :
    parseClusterConfig os configPath caFilesPrefix url = (.ok p, cleanup) ↔
      ∃ dir content entries, os.tempDir caFilesPrefix = .ok dir ∧
        os.readFile configPath = .ok content ∧ os.unmarshal content = .ok entries ∧
        Accepted os dir entries ∧ p = parsed dir url entries ∧ cleanup = .removeAll dir := by
  unfold parseClusterConfig
  cases htemp : os.tempDir caFilesPrefix with
  | error msg => simp
  | ok dir =>
      cases hread : os.readFile configPath with
      | error msg => simp
      | ok content =>
          cases hentries : os.unmarshal content with
          | error msg => simp [hentries]
          | ok entries =>
              constructor
              · intro h
                refine ⟨dir, content, entries, rfl, rfl, hentries, ?_⟩
                cases hloop : entries.foldlM (parseEntry os dir) (Parse.start url) with
                | error e => simp [hentries, hloop] at h
                | ok p' =>
                    simp only [hentries, hloop, Prod.mk.injEq, Except.ok.injEq] at h
                    obtain ⟨rfl, rfl⟩ := h
                    obtain ⟨haccepted, hp⟩ := foldlM_parseEntry.mp hloop
                    exact ⟨haccepted, hp, rfl⟩
              · rintro ⟨dir', content', entries', hdir, hcontent, hentries', haccepted, hp, rfl⟩
                obtain rfl := Except.ok.inj hdir
                obtain rfl := Except.ok.inj hcontent
                obtain rfl : entries = entries' := Except.ok.inj (hentries.symm.trans hentries')
                simp only [hentries, foldlM_parseEntry.mpr ⟨haccepted, hp⟩]

end Loop

/-! ## The CA files -/

/-- The file of each cluster with CA data has these data. -/
def CAFilesAgree (p : Parse) : Prop :=
  ∀ n c, p.configs.clusters n = some c → c.certificateAuthorityData ≠ "" →
    ∃ data, p.files c.caFile = some data ∧ c.certificateAuthorityDataDecoded = binaryString data

/-- The last entry that is written to the path of a cluster has the data of the cluster. -/
def PathsAgree (dir : String) (entries : List ClusterEntry) : Prop :=
  ∀ n c d, lastNamed n entries = some c → lastWriter dir (caPath dir c) entries = some d →
    c.certificateAuthorityData ≠ "" → d.caData = c.caData

/-- A name that is an element of a path. -/
def PathElement (n : String) : Prop :=
  n ≠ "" ∧ n ≠ "." ∧ n ≠ ".." ∧ '/' ∉ n.toList

theorem binaryString_injective {as bs : Bytes} (h : binaryString as = binaryString bs) : as = bs := by
  refine List.map_injective_iff.mpr (fun a b hab => ?_) (String.ofList_injective h)
  have hab := congrArg Char.toNat hab
  rw [toNat_ofNat_byte, toNat_ofNat_byte] at hab
  exact UInt8.toNat_inj.mp hab

section CAFiles

variable {os : ConfigOS} {dir url n : String} {c d : ClusterEntry} {entries : List ClusterEntry}

theorem mem_of_lastNamed (h : lastNamed n entries = some c) : c ∈ entries ∧ c.name = n := by
  refine ⟨List.mem_reverse.mp (List.mem_of_find?_eq_some h), ?_⟩
  simpa using List.find?_some h

theorem exists_lastWriter (hc : c ∈ entries) (hdata : c.caData.isSome = true) :
    ∃ d, lastWriter dir (caPath dir c) entries = some d := by
  rw [← Option.isSome_iff_exists, lastWriter, List.find?_isSome]
  exact ⟨c, List.mem_reverse.mpr hc, by simp [hdata]⟩

/-- The CA files have the data of their clusters exactly if no entry with other data is written over
    them. -/
theorem caFilesAgree_parsed (haccepted : Accepted os dir entries) :
    CAFilesAgree (parsed dir url entries) ↔ PathsAgree dir entries := by
  unfold CAFilesAgree PathsAgree
  simp only [parsed, Option.map_eq_some_iff]
  constructor
  · intro hagree n c d hc hd hca
    obtain ⟨data, hdata, -⟩ := haccepted.storable c (mem_of_lastNamed hc).1 hca
    have hconfig : c.config dir = { c.toClusterConfig with
        certificateAuthorityDataDecoded := binaryString data
        caFile := caPath dir c } := by
      unfold ClusterEntry.config
      rw [hdata]
    obtain ⟨data', hfile, hdecoded⟩ := hagree n _ ⟨c, hc, rfl⟩ (by rw [hconfig]; exact hca)
    rw [hconfig] at hfile hdecoded
    rw [hd] at hfile
    have hd' : d.caData = some data' := hfile
    rw [hd', hdata, binaryString_injective hdecoded]
  · rintro hagree n _ ⟨c, hc, rfl⟩ hca
    have hca' : c.certificateAuthorityData ≠ "" := by
      unfold ClusterEntry.config at hca
      split at hca <;> exact hca
    have hmem := (mem_of_lastNamed hc).1
    obtain ⟨data, hdata, -⟩ := haccepted.storable c hmem hca'
    have hwriter : ∃ d, lastWriter dir (caPath dir c) entries = some d :=
      exists_lastWriter hmem (by rw [hdata]; rfl)
    obtain ⟨d, hd⟩ := hwriter
    refine ⟨data, ?_, ?_⟩
    · have hfile : (c.config dir).caFile = caPath dir c := by
        unfold ClusterEntry.config
        rw [hdata]
      rw [hfile, hd, Option.bind_some, hagree n c d hc hd hca', hdata]
    · unfold ClusterEntry.config
      rw [hdata]

/-! ### Names that are elements of a path -/

theorem PathElement.kept (hn : PathElement n) : KeptElem n := by
  obtain ⟨hempty, hdot, hup, hslash⟩ := hn
  exact ⟨hslash, fun h => hempty (String.toList_injective h),
    fun h => hdot (String.toList_injective h), fun h => hup (String.toList_injective h)⟩

/-- Entries with different names have different files, if the names are elements of a path. -/
theorem name_eq_of_caPath (hdir : dir ≠ "") (hc : PathElement c.name) (hd : PathElement d.name)
    (h : caPath dir c = caPath dir d) : c.name = d.name := by
  have hbase := congrArg pathBase h
  unfold caPath at hbase
  rwa [pathBase_pathJoin hdir hc.kept, pathBase_pathJoin hdir hd.kept] at hbase

/-- With such names every cluster is the last writer of its file. -/
theorem pathsAgree_of_elements (hdir : dir ≠ "") (hnames : ∀ c ∈ entries, PathElement c.name)
    (haccepted : Accepted os dir entries) : PathsAgree dir entries := by
  intro n c d hc hd hca
  obtain ⟨hmem, hname⟩ := mem_of_lastNamed hc
  obtain ⟨data, hdata, -⟩ := haccepted.storable c hmem hca
  obtain ⟨-, before, after, hlist, hbefore⟩ := List.find?_eq_some_iff_append.mp hc
  have hwriter : lastWriter dir (caPath dir c) entries = some c := by
    refine List.find?_eq_some_iff_append.mpr ⟨by simp [hdata], before, after, hlist, ?_⟩
    intro e he
    have hne : e.name ≠ n := by simpa using hbefore e he
    have hemem : e ∈ entries := List.mem_reverse.mp (hlist ▸ List.mem_append_left _ he)
    have hpath : caPath dir e ≠ caPath dir c := fun heq =>
      hne ((name_eq_of_caPath hdir (hnames e hemem) (hnames c hmem) heq).trans hname)
    simp [hpath]
  rw [Option.some.inj (hd.symm.trans hwriter)]

/-! ### Clusters other than that of Kubeapps -/

/-- A cluster without a URL is that of Kubeapps. -/
theorem url_ne_empty (haccepted : Accepted os dir entries) {config : ClusterConfig}
    (hn : n ≠ "") (hadditional : n ≠ (parsed dir url entries).configs.kubeappsClusterName)
    (hconfig : (parsed dir url entries).configs.clusters n = some config) :
    config.apiServiceURL ≠ "" := by
  obtain ⟨c, hc, rfl⟩ := Option.map_eq_some_iff.mp hconfig
  obtain ⟨hmem, rfl⟩ := mem_of_lastNamed hc
  have hsame : (c.config dir).apiServiceURL = c.apiServiceURL := by
    unfold ClusterEntry.config
    split <;> rfl
  rw [hsame]
  intro hempty
  have hcand : c.candidate = true := by simp [ClusterEntry.candidate, hempty]
  exact hadditional (lastName_of_candidate haccepted.oneNamed hmem hcand hn).symm

/-- The decoded data of a cluster. -/
theorem decoded_of_parsed (haccepted : Accepted os dir entries) {config : ClusterConfig}
    (hconfig : (parsed dir url entries).configs.clusters n = some config)
    (hca : config.certificateAuthorityData ≠ "") :
    ∃ data, decodeString config.certificateAuthorityData = some data ∧
      config.certificateAuthorityDataDecoded = binaryString data := by
  obtain ⟨c, hc, rfl⟩ := Option.map_eq_some_iff.mp hconfig
  have hsame : (c.config dir).certificateAuthorityData = c.certificateAuthorityData := by
    unfold ClusterEntry.config
    split <;> rfl
  rw [hsame] at hca ⊢
  obtain ⟨data, hdata, -⟩ := haccepted.storable c (mem_of_lastNamed hc).1 hca
  refine ⟨data, ?_, ?_⟩
  · unfold ClusterEntry.caData at hdata
    rwa [if_neg hca] at hdata
  · unfold ClusterEntry.config
    rw [hdata]

end CAFiles

/-- The CA files of an accepted configuration are right exactly if no entry with other data is
    written over the file of a cluster; so if the names are elements of a path. -/
theorem caFiles_agree_iff (os : ConfigOS) (configPath caFilesPrefix url : String)
    (dir : String) (content : Bytes) (entries : List ClusterEntry) (p : Parse) (cleanup : Cleanup)
    (htemp : os.tempDir caFilesPrefix = .ok dir) (hread : os.readFile configPath = .ok content)
    (hentries : os.unmarshal content = .ok entries)
    (hparse : parseClusterConfig os configPath caFilesPrefix url = (.ok p, cleanup)) :
    (CAFilesAgree p ↔ PathsAgree dir entries) ∧
      (dir ≠ "" → (∀ c ∈ entries, PathElement c.name) → CAFilesAgree p) := by
  obtain ⟨dir', content', entries', htemp', hread', hentries', haccepted, rfl, -⟩ :=
    (parseClusterConfig_ok_iff os configPath caFilesPrefix url p cleanup).mp hparse
  obtain rfl := Except.ok.inj (htemp.symm.trans htemp')
  obtain rfl := Except.ok.inj (hread.symm.trans hread')
  obtain rfl := Except.ok.inj (hentries.symm.trans hentries')
  have hiff : CAFilesAgree (parsed dir url entries) ↔ PathsAgree dir entries :=
    caFilesAgree_parsed haccepted
  exact ⟨hiff, fun hdir hnames => hiff.mpr (pathsAgree_of_elements hdir hnames haccepted)⟩

/-- A cluster `a`, and one whose name is another path of the same file. -/
def dottedEntries : List ClusterEntry :=
  [⟨⟨"https://a", "QQ==", "", "", "", false, false⟩, "a", false⟩,
    ⟨⟨"https://b", "Qg==", "", "", "", false, false⟩, "./a", false⟩]

/-- A file with these entries, and a disk that takes every file. -/
def configOS (entries : List ClusterEntry) : ConfigOS where
  tempDir := fun caFilesPrefix => .ok (caFilesPrefix ++ "/1")
  readFile := fun _ => .ok []
  unmarshal := fun _ => .ok entries
  writeError := fun _ _ => none

theorem accepted_configOS {dir : String} {entries : List ClusterEntry}
    (honeNamed : OneNamed ClusterEntry.candidate ClusterEntry.name entries)
    (hdata : ∀ c ∈ entries, c.certificateAuthorityData ≠ "" → c.caData.isSome = true) :
    Accepted (configOS entries) dir entries := by
  refine ⟨honeNamed, fun c hc hca => ?_⟩
  obtain ⟨data, hdata⟩ := Option.isSome_iff_exists.mp (hdata c hc hca)
  exact ⟨data, hdata, rfl⟩

theorem caFiles_agree_dotted :
    ¬ CAFilesAgree (parsed "/etc/cafiles/1" "" dottedEntries) := by
  have haccepted : Accepted (configOS dottedEntries) "/etc/cafiles/1" dottedEntries :=
    accepted_configOS (by unfold OneNamed; decide) (by decide +kernel)
  have hiff := (caFiles_agree_iff (configOS dottedEntries) "" "/etc/cafiles" "" _ _ _ _ _ rfl rfl rfl
    ((parseClusterConfig_ok_iff _ _ _ _ _ _).mpr
      ⟨"/etc/cafiles/1", [], dottedEntries, rfl, rfl, rfl, haccepted, rfl, rfl⟩)).1
  intro hagree
  have hsame := hiff.mp hagree "a" _ _ (by decide : _ = some dottedEntries[0])
    (by decide +kernel : _ = some dottedEntries[1]) (by decide)
  exact absurd hsame (by decide +kernel)

/-! ## The chart -/

/-- An entry of the value `clusters` of the chart; a field that is not there is `none`. -/
structure ClusterValue where
  name : String
  apiServiceURL : Option String
  certificateAuthorityData : Option String
  serviceToken : Option String
  insecure : Bool
  pinnipedEnable : Bool
  isKubeappsCluster : Bool
  deriving DecidableEq, Repr

/-- What is read back of an entry that `toPrettyJson` has written to `clusters.conf`. -/
def ClusterValue.entry (v : ClusterValue) : ClusterEntry where
  apiServiceURL := v.apiServiceURL.getD ""
  certificateAuthorityData := v.certificateAuthorityData.getD ""
  certificateAuthorityDataDecoded := ""
  caFile := ""
  serviceToken := v.serviceToken.getD ""
  insecure := v.insecure
  pinnipedEnable := v.pinnipedEnable
  name := v.name
  isKubeappsCluster := v.isKubeappsCluster

/-- The condition of the chart: `.apiServiceURL | toString` is `<nil>` if it is not there, and if it
    is that text. -/
def ClusterValue.chartCandidate (v : ClusterValue) : Bool :=
  v.isKubeappsCluster || v.apiServiceURL.getD "<nil>" = "<nil>"

/-- `kubeapps.kubeappsCluster`, the `kubeappsCluster` of the dashboard. -/
def kubeappsCluster (clusters : List ClusterValue) : Except String String :=
  if clusters = [] then .error "At least one cluster must be defined."
  else
    match clusters.foldlM (select ClusterValue.chartCandidate ClusterValue.name) "" with
    | some kubeappsCluster => .ok kubeappsCluster
    | none => .error ("Only one cluster can be configured using either 'isKubeappsCluster: true' or " ++
        "without an apiServiceURL to refer to the cluster on which Kubeapps is installed. Please " ++
        "check the provided 'clusters' configuration.")

section Chart

variable {os : ConfigOS} {dir url n : String} {v : ClusterValue} {clusters : List ClusterValue}

theorem kubeappsCluster_ok_iff : kubeappsCluster clusters = .ok n ↔
    clusters ≠ [] ∧ OneNamed ClusterValue.chartCandidate ClusterValue.name clusters ∧
      n = lastName ClusterValue.chartCandidate ClusterValue.name clusters := by
  rw [← foldlM_select]
  unfold kubeappsCluster
  by_cases hnil : clusters = []
  · simp [hnil]
  · rw [if_neg hnil]
    cases clusters.foldlM (select ClusterValue.chartCandidate ClusterValue.name) "" <;> simp [hnil]

/-- The URL of a cluster that has no mark `isKubeappsCluster`. -/
def ClusterValue.Unmarked (v : ClusterValue) (apiServiceURL : String) : Prop :=
  v.apiServiceURL = some apiServiceURL ∧ v.isKubeappsCluster = false

theorem only_chart_iff : (v.chartCandidate = true ∧ v.entry.candidate = false) ↔
    v.Unmarked "<nil>" := by
  unfold ClusterEntry.candidate ClusterValue.chartCandidate ClusterValue.entry
    ClusterValue.Unmarked
  cases hurl : v.apiServiceURL with
  | none => simp
  | some u =>
      cases hmark : v.isKubeappsCluster <;> simp
      rintro rfl
      decide

theorem only_entry_iff : (v.entry.candidate = true ∧ v.chartCandidate = false) ↔
    v.Unmarked "" := by
  unfold ClusterEntry.candidate ClusterValue.chartCandidate ClusterValue.entry
    ClusterValue.Unmarked
  cases hurl : v.apiServiceURL with
  | none => simp
  | some u =>
      cases hmark : v.isKubeappsCluster <;> simp
      rintro rfl
      decide

/-- The chart and the loop agree on a cluster unless its URL is one of two texts. -/
theorem candidate_eq_iff : v.entry.candidate = v.chartCandidate ↔
    ¬ v.Unmarked "" ∧ ¬ v.Unmarked "<nil>" := by
  rw [← only_chart_iff, ← only_entry_iff]
  cases v.entry.candidate <;> cases v.chartCandidate <;> simp

/-- The entries in the file select as the values do. -/
theorem lastName_entries {candidate : ClusterEntry → Bool} :
    lastName candidate ClusterEntry.name (clusters.map ClusterValue.entry) =
      lastName (fun v => candidate v.entry) ClusterValue.name clusters := by
  unfold lastName
  rw [← List.map_reverse, List.find?_map, Option.map_map]
  rfl

theorem oneNamed_entries {candidate : ClusterEntry → Bool} :
    OneNamed candidate ClusterEntry.name (clusters.map ClusterValue.entry) ↔
      OneNamed (fun v => candidate v.entry) ClusterValue.name clusters :=
  List.pairwise_map

end Chart

/-- If the chart renders and the CA data can be stored, the services start with the cluster of the
    dashboard exactly if the URL is empty, or the text `<nil>`, for no cluster but one with
    `isKubeappsCluster`; or if both are there, each in a cluster of one name. -/
theorem kubeappsCluster_agrees_iff (os : ConfigOS) (configPath caFilesPrefix url : String)
    (dir : String) (content : Bytes) (clusters : List ClusterValue) (n : String)
    (hnames : ∀ v ∈ clusters, v.name ≠ "") (hchart : kubeappsCluster clusters = .ok n)
    (htemp : os.tempDir caFilesPrefix = .ok dir) (hread : os.readFile configPath = .ok content)
    (hentries : os.unmarshal content = .ok (clusters.map ClusterValue.entry))
    (hstorable : ∀ v ∈ clusters, Storable os dir v.entry) :
    (∃ p cleanup, parseClusterConfig os configPath caFilesPrefix url = (.ok p, cleanup) ∧
        p.configs.kubeappsClusterName = n) ↔
      (∀ v ∈ clusters, ¬ v.Unmarked "" ∧ ¬ v.Unmarked "<nil>") ∨
        (OneNamed (fun v => v.entry.candidate) ClusterValue.name clusters ∧
          ∃ v ∈ clusters, ∃ w ∈ clusters, v.name = w.name ∧ v.Unmarked "<nil>" ∧ w.Unmarked "") := by
  obtain ⟨-, honeChart, rfl⟩ := kubeappsCluster_ok_iff.mp hchart
  have hagrees : (∃ p cleanup, parseClusterConfig os configPath caFilesPrefix url = (.ok p, cleanup) ∧
      p.configs.kubeappsClusterName = lastName ClusterValue.chartCandidate ClusterValue.name clusters) ↔
      OneNamed (fun v => v.entry.candidate) ClusterValue.name clusters ∧
        lastName (fun v => v.entry.candidate) ClusterValue.name clusters =
          lastName ClusterValue.chartCandidate ClusterValue.name clusters := by
    rw [← lastName_entries, ← oneNamed_entries]
    constructor
    · rintro ⟨p, cleanup, hparse, hname⟩
      obtain ⟨dir', content', entries, -, hread', hentries', haccepted, rfl, -⟩ :=
        (parseClusterConfig_ok_iff os configPath caFilesPrefix url p cleanup).mp hparse
      obtain rfl := Except.ok.inj (hread.symm.trans hread')
      obtain rfl := Except.ok.inj (hentries.symm.trans hentries')
      exact ⟨haccepted.oneNamed, hname⟩
    · rintro ⟨honeNamed, hname⟩
      have haccepted : Accepted os dir (clusters.map ClusterValue.entry) := by
        refine ⟨honeNamed, fun c hc => ?_⟩
        obtain ⟨v, hv, rfl⟩ := List.mem_map.mp hc
        exact hstorable v hv
      exact ⟨_, _, (parseClusterConfig_ok_iff os configPath caFilesPrefix url _ _).mpr
        ⟨dir, content, _, htemp, hread, hentries, haccepted, rfl, rfl⟩, hname⟩
  rw [hagrees, lastName_agrees_iff honeChart hnames]
  simp only [candidate_eq_iff, only_chart_iff, only_entry_iff]

/-- The cluster of Kubeapps with an empty URL, and another one. -/
def emptyURLClusters : List ClusterValue :=
  [⟨"default", some "", none, none, false, false, false⟩,
    ⟨"second", some "https://second:6443", none, none, false, false, false⟩]

/-- The chart renders without a cluster for Kubeapps; the services start with one. -/
theorem kubeappsCluster_agrees_emptyURL : kubeappsCluster emptyURLClusters = .ok "" ∧
    ¬ ∃ p cleanup, parseClusterConfig (configOS (emptyURLClusters.map ClusterValue.entry)) "" "" "" =
      (.ok p, cleanup) ∧ p.configs.kubeappsClusterName = "" := by
  have hchart : kubeappsCluster emptyURLClusters = .ok "" := rfl
  refine ⟨hchart, fun hstarts => ?_⟩
  have hsame := (kubeappsCluster_agrees_iff (configOS (emptyURLClusters.map ClusterValue.entry)) "" ""
    "" _ _ emptyURLClusters "" (by decide) hchart rfl rfl rfl (by
      intro v hv hca
      exact absurd (by revert v; decide) hca)).mp hstarts
  rcases hsame with hnone | ⟨_, v, hv, _, _, _, hnil, _⟩
  · exact (hnone _ (List.mem_cons_self ..)).1 ⟨rfl, rfl⟩
  · have hno : ∀ v ∈ emptyURLClusters, v.apiServiceURL ≠ some "<nil>" := by decide
    exact hno v hv hnil.1

end Kubeapps.Kube.Clusters
