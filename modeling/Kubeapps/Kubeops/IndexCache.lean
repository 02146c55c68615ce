/-
  The cache of repository indexes in kubeops (pkg/chart/chart.go: readResponseBody, checksum,
  getIndexFromCache, storeIndexInCache, parseIndex, fetchRepoIndex).

  The cache is one map of the process, from the URL to the checksum of the body and the parsed
  index. SHA-256, decoding the YAML and `SortEntries` are fields of `Env`, for indexes of any type
  `ι`; sorting may panic, which ends the request and not the process. An index that was handed
  out is not changed by who has it, so the pointer is its value.

  `fetches_right`: after any calls, by anyone and for any URLs, a call returns what it would have
  returned without a cache.
-/
import Kubeapps.Lib.Memo
import Kubeapps.RepoUrls.IndexUrl
import Mathlib.Data.Set.Function

namespace Kubeapps.Kubeops

open Kubeapps.Lib Kubeapps.Lib.Net Kubeapps.RepoUrls

/-- `http.Response`; reading the body may fail. -/
structure HttpResponse where
  statusCode : Int
  body : Except String Bytes

/-- What a fetch of an index calls. -/
structure IndexEnv (ι : Type) where
  sha256 : Bytes → Bytes
  unmarshal : Bytes → Except String ι
  sortEntries : ι → Go ι
  /-- The text of the error of `getReq`. -/
  getReqErr : Bytes → String

/-- A call of `fetchRepoIndex`: the client, which answers the requests, and the URL. -/
structure Fetch where
  netClient : Bytes → Except String HttpResponse
  repoURL : Bytes

/-- `repoIndexes`; the tag of an entry is its checksum, the value its index. -/
abbrev RepoIndexes (ι : Type) := Memo.Table Bytes Bytes ι

variable {ι : Type}

/-- `readResponseBody`. -/
def readResponseBody (res : HttpResponse) : Go Bytes :=
  if res.statusCode ≠ 200 then errors "chart download request failed" else liftErr res.body

/-- `checksum`. -/
def checksum (env : IndexEnv ι) (data : Bytes) : Bytes := env.sha256 data

/-- `getIndexFromCache`. -/
def getIndexFromCache (env : IndexEnv ι) (repoIndexes : RepoIndexes ι) (repoURL data : Bytes) :
    Option ι × Bytes :=
  let sha := checksum env data
  match repoIndexes repoURL with
  | none => (none, sha)
  | some cached => if cached.tag ≠ sha then (none, sha) else (some cached.value, sha)

/-- `storeIndexInCache`. -/
def storeIndexInCache (repoIndexes : RepoIndexes ι) (repoURL : Bytes) (index : ι) (sha : Bytes) :
    RepoIndexes ι :=
  Function.update repoIndexes repoURL (some ⟨sha, index⟩)

/-- `parseIndex`. -/
def parseIndex (env : IndexEnv ι) (data : Bytes) : Go ι := do
  let index ← liftErr (env.unmarshal data)
  env.sortEntries index

/-- The first part of `fetchRepoIndex`: the body of the answer. -/
def download (env : IndexEnv ι) (f : Fetch) : Go Bytes :=
  match getReq f.repoURL with
  | none => errors (env.getReqErr f.repoURL)
  | some req => do
      let res ← liftErr (f.netClient req)
      readResponseBody res

/-- `fetchRepoIndex`, with the cache after it. -/
def fetchRepoIndex (env : IndexEnv ι) (repoIndexes : RepoIndexes ι) (f : Fetch) :
    Go ι × RepoIndexes ι :=
  match download env f with
  | .error e => (.error e, repoIndexes)
  | .ok data =>
      match getIndexFromCache env repoIndexes f.repoURL data with
      | (some index, _) => (.ok index, repoIndexes)
      | (none, sha) =>
          match parseIndex env data with
          | .error e => (.error e, repoIndexes)
          | .ok index => (.ok index, storeIndexInCache repoIndexes f.repoURL index sha)

/-- The cache after some calls; `init` makes an empty one. -/
def repoIndexesAfter (env : IndexEnv ι) (fetches : List Fetch) : RepoIndexes ι :=
  fetches.foldl (fun repoIndexes f => (fetchRepoIndex env repoIndexes f).2) fun _ => none

theorem download_ok {env : IndexEnv ι} {f : Fetch} {req : Bytes} {res : HttpResponse}
    (hreq : getReq f.repoURL = some req) (hres : f.netClient req = .ok res) :
    download env f = readResponseBody res := by
  unfold download
  rw [hreq]
  dsimp only
  rw [hres]
  rfl

/-- A call without a cache. -/
def uncached (env : IndexEnv ι) (f : Fetch) : Go ι := download env f >>= parseIndex env

/-! ## The cache as a table of parsed bodies -/

section Table

variable {env : IndexEnv ι} {repoIndexes : RepoIndexes ι} {f : Fetch}

theorem getIndexFromCache_eq (repoURL data : Bytes) :
    getIndexFromCache env repoIndexes repoURL data =
      (Memo.find (checksum env) repoIndexes repoURL data, checksum env data) := by
  unfold getIndexFromCache Memo.find
  cases repoIndexes repoURL with
  | none => rfl
  | some cached =>
      dsimp only
      by_cases htag : cached.tag = checksum env data
      · rw [if_neg (not_not.mpr htag), if_pos htag]
      · rw [if_pos htag, if_neg htag]

theorem fetchRepoIndex_ok {data : Bytes} (hdata : download env f = .ok data) :
    fetchRepoIndex env repoIndexes f =
      Memo.ask (checksum env) (parseIndex env) repoIndexes f.repoURL data := by
  unfold fetchRepoIndex Memo.ask
  rw [hdata]
  dsimp only
  rw [getIndexFromCache_eq]
  cases Memo.find (checksum env) repoIndexes f.repoURL data with
  | some index => rfl
  | none =>
      dsimp only
      cases parseIndex env data <;> rfl

theorem fetchRepoIndex_error {e : Fail} (hdata : download env f = .error e) :
    fetchRepoIndex env repoIndexes f = (.error e, repoIndexes) := by
  unfold fetchRepoIndex
  rw [hdata]

/-- A call with this URL in `past` downloaded `data`. -/
def Downloaded (env : IndexEnv ι) (past : List Fetch) (repoURL data : Bytes) : Prop :=
  ∃ f ∈ past, f.repoURL = repoURL ∧ download env f = .ok data

/-- Every entry is from a call with its own URL: the checksum of what that call downloaded, and
    what parsing this returns. -/
def OwnEntries (env : IndexEnv ι) (past : List Fetch) (repoIndexes : RepoIndexes ι) : Prop :=
  Memo.From (checksum env) (parseIndex env) (Downloaded env past) repoIndexes

theorem ownEntries_fetch {past : List Fetch} (hown : OwnEntries env past repoIndexes) :
    OwnEntries env (past ++ [f]) (fetchRepoIndex env repoIndexes f).2 := by
  have hmono : OwnEntries env (past ++ [f]) repoIndexes := by
    refine Memo.from_mono (fun repoURL data hpast => ?_) hown
    obtain ⟨g, hg, hrest⟩ := hpast
    exact ⟨g, List.mem_append_left [f] hg, hrest⟩
  cases hdata : download env f with
  | error e =>
      rw [fetchRepoIndex_error hdata]
      exact hmono
  | ok data =>
      rw [fetchRepoIndex_ok hdata]
      apply Memo.from_ask hmono
      exact ⟨f, by simp, rfl, hdata⟩

theorem repoIndexesAfter_concat (past : List Fetch) :
    repoIndexesAfter env (past ++ [f]) =
      (fetchRepoIndex env (repoIndexesAfter env past) f).2 := by
  unfold repoIndexesAfter
  rw [List.foldl_append]
  rfl

/-- The invariant of the cache, from the start and after every call. -/
theorem ownEntries_after (past : List Fetch) : OwnEntries env past (repoIndexesAfter env past) := by
  induction past using List.reverseRecOn with
  | nil =>
      intro repoURL cached hcached
      cases hcached
  | append_singleton past f ih =>
      rw [repoIndexesAfter_concat]
      exact ownEntries_fetch ih

end Table

/-! ## A call among others -/

/-- What is downloaded in some calls. -/
def bodies (env : IndexEnv ι) (fetches : List Fetch) : Set Bytes :=
  fun data => ∃ f ∈ fetches, download env f = .ok data

/-- The call `f` after the calls `past`, with the cache that these leave. -/
structure RightFetch (env : IndexEnv ι) (past : List Fetch) (f : Fetch) : Prop where
  /-- It returns what it would have returned without a cache. -/
  result : (fetchRepoIndex env (repoIndexesAfter env past) f).1 = uncached env f
  /-- An index that is found in the cache is returned as it is. -/
  found : ∀ data index, download env f = .ok data →
    (getIndexFromCache env (repoIndexesAfter env past) f.repoURL data).1 = some index →
      fetchRepoIndex env (repoIndexesAfter env past) f = (.ok index, repoIndexesAfter env past)
  /-- What is cached for a URL was downloaded from that URL. -/
  own : OwnEntries env past (repoIndexesAfter env past)
  /-- A call that fails leaves the cache as it was. -/
  failed : ∀ e, (fetchRepoIndex env (repoIndexesAfter env past) f).1 = .error e →
    (fetchRepoIndex env (repoIndexesAfter env past) f).2 = repoIndexesAfter env past
  /-- A call changes nothing of the other URLs. -/
  others : ∀ repoURL, repoURL ≠ f.repoURL →
    (fetchRepoIndex env (repoIndexesAfter env past) f).2 repoURL =
      repoIndexesAfter env past repoURL

section Calls

variable {env : IndexEnv ι} {past : List Fetch} {f : Fetch}

theorem fetch_result (hfree : Set.InjOn (checksum env) (bodies env (past ++ [f]))) :
    (fetchRepoIndex env (repoIndexesAfter env past) f).1 = uncached env f := by
  unfold uncached
  cases hdata : download env f with
  | error e =>
      rw [fetchRepoIndex_error hdata]
      rfl
  | ok data =>
      rw [fetchRepoIndex_ok hdata]
      apply Memo.ask_value (ownEntries_after past)
      rintro data' ⟨g, hg, _, hdata'⟩ hsha
      have hmem' : data' ∈ bodies env (past ++ [f]) := ⟨g, List.mem_append_left [f] hg, hdata'⟩
      have hmem : data ∈ bodies env (past ++ [f]) := ⟨f, by simp, hdata⟩
      exact hfree hmem' hmem hsha

theorem fetch_failed {e : Fail}
    (h : (fetchRepoIndex env (repoIndexesAfter env past) f).1 = .error e) :
    (fetchRepoIndex env (repoIndexesAfter env past) f).2 = repoIndexesAfter env past := by
  cases hdata : download env f with
  | error e' => rw [fetchRepoIndex_error hdata]
  | ok data =>
      rw [fetchRepoIndex_ok hdata] at h ⊢
      exact Memo.ask_error h

theorem fetch_others {repoURL : Bytes} (hne : repoURL ≠ f.repoURL) :
    (fetchRepoIndex env (repoIndexesAfter env past) f).2 repoURL =
      repoIndexesAfter env past repoURL := by
  cases hdata : download env f with
  | error e => rw [fetchRepoIndex_error hdata]
  | ok data =>
      rw [fetchRepoIndex_ok hdata]
      rcases Memo.ask_table (checksum env) (parseIndex env) (repoIndexesAfter env past) f.repoURL
        data with hsame | ⟨index, _, hnew⟩
      · rw [hsame]
      · rw [hnew, Function.update_of_ne hne]

end Calls

/-- Every call in a sequence of calls, as long as SHA-256 has no collision in what is
    downloaded. -/
theorem fetches_right (env : IndexEnv ι) (fetches : List Fetch)
    (hfree : Set.InjOn (checksum env) (bodies env fetches)) (past : List Fetch) (f : Fetch)
    (hcall : past ++ [f] <+: fetches) : RightFetch env past f where
  result := by
    apply fetch_result
    refine hfree.mono fun data hdata => ?_
    obtain ⟨g, hg, hdata⟩ := hdata
    exact ⟨g, hcall.subset hg, hdata⟩
  found data index hdata hfound := by
    rw [getIndexFromCache_eq] at hfound
    rw [fetchRepoIndex_ok hdata, Memo.ask_found hfound]
  own := ownEntries_after past
  failed e herr := fetch_failed herr
  others repoURL hne := fetch_others hne

/-! ## An index that breaks and comes back -/

def emptyIndex : Bytes := bytes "entries: {}"

def brokenIndex : Bytes := bytes "]"

/-- SHA-256 and the decoder on these two bodies; the index is its list of keys. -/
def twoBodies : IndexEnv (List String) where
  sha256 data :=
    if data = emptyIndex then
      [233, 47, 223, 142, 196, 112, 247, 149, 10, 147, 219, 33, 219, 234, 3, 177, 125, 249, 175,
        169, 231, 131, 246, 61, 88, 174, 45, 187, 4, 123, 166, 138]
    else
      [207, 174, 13, 66, 72, 247, 20, 47, 123, 23, 248, 38, 205, 122, 81, 146, 128, 227, 18, 87,
        118, 144, 233, 87, 131, 13, 35, 220, 243, 90, 63, 255]
  unmarshal data :=
    if data = emptyIndex then .ok [] else .error "yaml: did not find expected node content"
  sortEntries index := .ok index
  getReqErr _ := "invalid URI for request"

/-- The repository answers with `body`. -/
def served (body : Bytes) : Fetch where
  netClient _ := .ok ⟨200, .ok body⟩
  repoURL := bytes "https://charts.example.com/index.yaml"

theorem download_served (body : Bytes) : download twoBodies (served body) = .ok body := by
  have hreq : getReq (bytes "https://charts.example.com/index.yaml") =
      some (bytes "https://charts.example.com/index.yaml") := by decide +kernel
  have hbody : readResponseBody ⟨200, .ok body⟩ = .ok body := rfl
  rw [download_ok hreq rfl, hbody]

theorem fetches_right_broken :
    RightFetch twoBodies [served emptyIndex, served brokenIndex] (served emptyIndex) := by
  refine fetches_right twoBodies [served emptyIndex, served brokenIndex, served emptyIndex] ?_
    [served emptyIndex, served brokenIndex] (served emptyIndex) List.prefix_rfl
  have htwo : ∀ data ∈ bodies twoBodies
      [served emptyIndex, served brokenIndex, served emptyIndex],
      data = emptyIndex ∨ data = brokenIndex := by
    rintro data ⟨f, hf, hdata⟩
    simp only [List.mem_cons, List.not_mem_nil, or_false] at hf
    rcases hf with rfl | rfl | rfl
    all_goals
      rw [download_served] at hdata
      simp [Except.ok.inj hdata]
  intro data hdata data' hdata' hsha
  rcases htwo data hdata with rfl | rfl <;> rcases htwo data' hdata' with rfl | rfl
  · rfl
  · exact absurd hsha (by decide)
  · exact absurd hsha (by decide)
  · rfl

end Kubeapps.Kubeops
