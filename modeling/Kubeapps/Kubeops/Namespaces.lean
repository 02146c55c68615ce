/-
  The list of namespaces of a user (pkg/http-handler/http-handler.go: GetNamespaces,
  getHeaderNamespaces; pkg/kube/kube_handler.go: GetNamespaces, filterActiveNamespaces).

  The names come from a header, or from the list that the user's clientset gets, or, if the user may
  not list, from the one that the service clientset gets, reviewed one by one
  (Kube/AllowedNamespaces.lean). A schedule of the reviews is part of the input; where nothing is
  reviewed it is not looked at. With an error, client-go returns an empty list.

  * `listsVisible_iff`: when the answer is the active namespaces that the user may see.
  * `namespaces_additional`: on an additional cluster the reviews are of no use. The service
    clientset there is the user's own, so who may not list gets nothing.
-/
import Kubeapps.Kube.AllowedNamespaces
import Kubeapps.Kubeops.AuthGate
import Kubeapps.Kubeops.Chart

namespace Kubeapps.Kubeops

open Kubeapps.Lib Kubeapps.Kube
open Kubeapps.Kube.Clusters (RestConfig ClustersConfig KubeHandler AdditionalCluster)

/-! ## The API servers -/

/-- An error of the API: the status, if it is a `StatusError`, and what `IsForbidden` says. -/
structure K8sError where
  code : Option Nat
  forbidden : Bool
  message : String
  deriving DecidableEq, Repr

/-- What a clientset of this config gets: the namespaces, the review of one, and its rate. -/
structure NamespacesApi where
  list : RestConfig → Except K8sError (List Namespace)
  review : RestConfig → CheckNSJob → Except String Bool
  qps : RestConfig → Rat

abbrev NsSchedule := List (PoolLabel (Except String Bool))

/-! ## The names -/

/-- `filterActiveNamespaces`. -/
def filterActiveNamespaces (namespaces : List Namespace) : List Namespace :=
  namespaces.filter fun ns => ns.phase = "Active"

/-- `filterAllowedNamespaces`, once the schedule gets to its end. -/
def filterAllowedNamespaces (api : NamespacesApi) (config : RestConfig)
    (namespaces : List Namespace) (as : NsSchedule) : Option (List Namespace) :=
  match runs (nsStep (api.qps config) namespaces (api.review config))
      (nsPool (api.qps config) namespaces) as with
  | some s => if s.phase = .returned then some (receiveAllowed s.received) else none
  | none => none

/-- `GetNamespaces` of a `userHandler`. -/
def getNamespaces (api : NamespacesApi) (u : Clusters.UserHandler) (prechecked : List Namespace)
    (as : NsSchedule) : Option (Except K8sError (List Namespace)) :=
  if prechecked ≠ [] then some (.ok (filterActiveNamespaces prechecked))
  else
    match api.list u.clientset.config with
    | .ok namespaces => some (.ok (filterActiveNamespaces namespaces))
    | .error err =>
        if err.forbidden then
          match api.list u.svcClientset.config with
          | .ok namespaces =>
              (filterAllowedNamespaces api u.clientset.config namespaces as).map fun allowed =>
                .ok (filterActiveNamespaces allowed)
          | .error svcErr =>
              if svcErr.forbidden then some (.ok [])
              else
                -- the error is lost: the list that came with it is reviewed
                (filterAllowedNamespaces api u.clientset.config [] as).map fun allowed =>
                  .ok (filterActiveNamespaces allowed)
        else some (.error err)

/-! ## What it is for -/

/-- The namespaces that are reviewed. -/
def reviewedNamespaces (api : NamespacesApi) (u : Clusters.UserHandler) : List Namespace :=
  match api.list u.svcClientset.config with
  | .ok namespaces => namespaces
  | .error _ => []

/-- Those that the reviews allow. -/
def allowedNamespaces (api : NamespacesApi) (u : Clusters.UserHandler) : List Namespace :=
  reviewedAllowed (reviewedNamespaces api u) (api.review u.clientset.config)

/-- What a user may see. -/
def visibleNamespaces (api : NamespacesApi) (u : Clusters.UserHandler)
    (prechecked : List Namespace) : Except K8sError (List Namespace) :=
  if prechecked ≠ [] then .ok (filterActiveNamespaces prechecked)
  else
    match api.list u.clientset.config with
    | .ok namespaces => .ok (filterActiveNamespaces namespaces)
    | .error err =>
        if err.forbidden then .ok (filterActiveNamespaces (allowedNamespaces api u))
        else .error err

/-- The same error, or the same namespaces in some order. -/
def SameAnswer : Except K8sError (List Namespace) → Except K8sError (List Namespace) → Prop
  | .ok l, .ok l' => l.Perm l'
  | .error err, .error err' => err = err'
  | _, _ => False

theorem SameAnswer.refl (res : Except K8sError (List Namespace)) : SameAnswer res res := by
  cases res with
  | ok l => exact List.Perm.refl l
  | error err => rfl

/-- Every schedule of the reviews is bounded and can be carried on until there is an answer, and
    every answer is what the user may see. -/
structure ListsVisible (api : NamespacesApi) (u : Clusters.UserHandler)
    (prechecked : List Namespace) : Prop where
  ends : ∃ bound, ∀ as s,
    runs (nsStep (api.qps u.clientset.config) (reviewedNamespaces api u)
        (api.review u.clientset.config))
      (nsPool (api.qps u.clientset.config) (reviewedNamespaces api u)) as = some s →
    as.length ≤ bound ∧ ∃ bs res, getNamespaces api u prechecked (as ++ bs) = some res
  answers : ∀ as res, getNamespaces api u prechecked as = some res →
    SameAnswer res (visibleNamespaces api u prechecked)

/-- The names are not reviewed. -/
def Unreviewed (api : NamespacesApi) (u : Clusters.UserHandler) (prechecked : List Namespace) :
    Prop :=
  prechecked ≠ [] ∨ ∀ err, api.list u.clientset.config = .error err → err.forbidden = false

section Lists

variable {api : NamespacesApi} {u : Clusters.UserHandler} {prechecked : List Namespace}
  {as : NsSchedule}

/-- Without a review the answer is there at once. -/
theorem getNamespaces_of_unreviewed (h : Unreviewed api u prechecked) (as : NsSchedule) :
    getNamespaces api u prechecked as = some (visibleNamespaces api u prechecked) := by
  unfold getNamespaces visibleNamespaces
  by_cases hpre : prechecked ≠ []
  · rw [if_pos hpre, if_pos hpre]
  · rw [if_neg hpre, if_neg hpre]
    cases hlist : api.list u.clientset.config with
    | ok namespaces => rfl
    | error err =>
        have hno := h.resolve_left hpre err hlist
        simp [hno]

/-- With one it is made of what the pool of reviews returns. -/
theorem getNamespaces_of_reviewed (h : ¬ Unreviewed api u prechecked) :
    (∃ err, api.list u.svcClientset.config = .error err ∧ err.forbidden = true ∧
      ∀ as, getNamespaces api u prechecked as = some (.ok [])) ∨
    ∀ as, getNamespaces api u prechecked as =
      (filterAllowedNamespaces api u.clientset.config (reviewedNamespaces api u) as).map
        fun allowed => .ok (filterActiveNamespaces allowed) := by
  unfold Unreviewed at h
  push Not at h
  obtain ⟨rfl, err, hlist, hforbidden⟩ := h
  have hforbidden' : err.forbidden = true := by simpa using hforbidden
  unfold getNamespaces reviewedNamespaces
  simp only [hlist, hforbidden', if_true, ne_eq, not_true_eq_false, if_false]
  cases hsvc : api.list u.svcClientset.config with
  | ok namespaces => exact .inr fun _ => rfl
  | error svcErr =>
      cases hf : svcErr.forbidden with
      | true => exact .inl ⟨svcErr, rfl, hf, fun _ => by simp [hf]⟩
      | false => exact .inr fun _ => by simp [hf]

theorem visibleNamespaces_of_reviewed (h : ¬ Unreviewed api u prechecked) :
    visibleNamespaces api u prechecked =
      .ok (filterActiveNamespaces (allowedNamespaces api u)) := by
  unfold Unreviewed at h
  push Not at h
  obtain ⟨rfl, err, hlist, hforbidden⟩ := h
  have hforbidden' : err.forbidden = true := by simpa using hforbidden
  unfold visibleNamespaces
  simp [hlist, hforbidden']

/-! ### The pool -/

section Pool

variable {config : RestConfig} {namespaces allowed : List Namespace} {s : NsPool}

theorem filterAllowed_of_run
    (h : runs (nsStep (api.qps config) namespaces (api.review config))
      (nsPool (api.qps config) namespaces) as = some s) (hret : s.phase = .returned) :
    filterAllowedNamespaces api config namespaces as = some (receiveAllowed s.received) := by
  unfold filterAllowedNamespaces
  rw [h]
  exact if_pos hret

theorem filterAllowed_eq_some (h : filterAllowedNamespaces api config namespaces as = some allowed) :
    ∃ s, runs (nsStep (api.qps config) namespaces (api.review config))
        (nsPool (api.qps config) namespaces) as = some s ∧ s.phase = .returned ∧
      receiveAllowed s.received = allowed := by
  unfold filterAllowedNamespaces at h
  split at h
  · rename_i s hs
    split at h
    · rename_i hret
      exact ⟨s, hs, hret, Option.some.inj h⟩
    · cases h
  · cases h

/-- With a worker the allowed namespaces come out, in some order. -/
theorem filterAllowed_perm (hqps : 1 ≤ api.qps config)
    (h : filterAllowedNamespaces api config namespaces as = some allowed) :
    allowed.Perm (reviewedAllowed namespaces (api.review config)) := by
  obtain ⟨s, hrun, hret, rfl⟩ := filterAllowed_eq_some h
  cases hn : nsWorkers (api.qps config) namespaces with
  | zero =>
      rw [receiveAllowed_of_no_workers hn hrun]
      rcases nsWorkers_eq_zero_iff.mp hn with rfl | hlt
      · exact List.Perm.refl []
      · exact absurd hlt (Rat.not_lt.mpr hqps)
  | succ n => exact perm_of_workers (hn ▸ Nat.succ_pos n) hrun hret

/-- Without one nothing comes out. -/
theorem filterAllowed_nil (hqps : api.qps config < 1)
    (h : filterAllowedNamespaces api config namespaces as = some allowed) : allowed = [] := by
  obtain ⟨s, hrun, hret, rfl⟩ := filterAllowed_eq_some h
  exact receiveAllowed_of_no_workers (nsWorkers_eq_zero_iff.mpr (.inr hqps)) hrun

end Pool

/-- Some schedule of the reviews gets to the end, from wherever they are. -/
theorem getNamespaces_ends (api : NamespacesApi) (u : Clusters.UserHandler)
    (prechecked : List Namespace) : ∃ bound, ∀ as s,
    runs (nsStep (api.qps u.clientset.config) (reviewedNamespaces api u)
        (api.review u.clientset.config))
      (nsPool (api.qps u.clientset.config) (reviewedNamespaces api u)) as = some s →
    as.length ≤ bound ∧ ∃ bs res, getNamespaces api u prechecked (as ++ bs) = some res := by
  have hends : ∃ bound, ∀ as s,
      runs (nsStep (api.qps u.clientset.config) (reviewedNamespaces api u)
          (api.review u.clientset.config))
        (nsPool (api.qps u.clientset.config) (reviewedNamespaces api u)) as = some s →
      as.length ≤ bound ∧ ∃ bs t,
        runs (nsStep (api.qps u.clientset.config) (reviewedNamespaces api u)
          (api.review u.clientset.config)) s bs = some t ∧ t.phase = .returned := terminates
  obtain ⟨bound, hbound⟩ := hends
  refine ⟨bound, fun as s h => ?_⟩
  obtain ⟨hlen, bs, t, hrun, hret⟩ := hbound as s h
  refine ⟨hlen, bs, ?_⟩
  by_cases hun : Unreviewed api u prechecked
  · exact ⟨_, getNamespaces_of_unreviewed hun _⟩
  · rcases getNamespaces_of_reviewed hun with ⟨_, _, _, hnil⟩ | hpool
    · exact ⟨_, hnil _⟩
    · have hall := runs_append_eq_some.2 ⟨s, h, hrun⟩
      rw [hpool, filterAllowed_of_run hall hret]
      exact ⟨_, rfl⟩

/-- If the rate of requests makes a worker, or there is nothing to see, every answer is right. -/
theorem sameAnswer_of_reviews {res : Except K8sError (List Namespace)}
    (hcond : 1 ≤ api.qps u.clientset.config ∨ filterActiveNamespaces (allowedNamespaces api u) = [])
    (h : getNamespaces api u prechecked as = some res) :
    SameAnswer res (visibleNamespaces api u prechecked) := by
  by_cases hun : Unreviewed api u prechecked
  · rw [getNamespaces_of_unreviewed hun] at h
    rw [← Option.some.inj h]
    exact SameAnswer.refl _
  · rw [visibleNamespaces_of_reviewed hun]
    rcases getNamespaces_of_reviewed hun with ⟨err, hsvc, _, hnil⟩ | hpool
    · rw [hnil] at h
      rw [← Option.some.inj h]
      have hnone : allowedNamespaces api u = [] := by
        unfold allowedNamespaces reviewedNamespaces
        rw [hsvc]
        rfl
      rw [hnone]
      exact List.Perm.refl []
    · rw [hpool] at h
      obtain ⟨allowed, hallowed, rfl⟩ := Option.map_eq_some_iff.mp h
      by_cases hqps : 1 ≤ api.qps u.clientset.config
      · exact (filterAllowed_perm hqps hallowed).filter _
      · rw [filterAllowed_nil (Rat.not_le.mp hqps) hallowed, hcond.resolve_left hqps]
        exact List.Perm.refl []

/-- The user gets the active namespaces that she may see, in every schedule, exactly if nothing has
    to be reviewed, the rate of requests makes a worker, or there is nothing to see. -/
theorem listsVisible_iff (api : NamespacesApi) (u : Clusters.UserHandler)
    (prechecked : List Namespace) (_ : 0 < api.qps u.clientset.config) :
    ListsVisible api u prechecked ↔
      Unreviewed api u prechecked ∨ 1 ≤ api.qps u.clientset.config ∨
        filterActiveNamespaces (allowedNamespaces api u) = [] := by
  constructor
  · intro hlists
    by_cases hun : Unreviewed api u prechecked
    · exact .inl hun
    · refine .inr ?_
      by_cases hqps : 1 ≤ api.qps u.clientset.config
      · exact .inl hqps
      · -- the answer of any schedule is empty, and it is right
        obtain ⟨bound, hbound⟩ := hlists.ends
        obtain ⟨_, bs, res, hres⟩ := hbound [] _ rfl
        have hsame := hlists.answers _ _ hres
        rw [visibleNamespaces_of_reviewed hun] at hsame
        rcases getNamespaces_of_reviewed hun with ⟨_, _, _, hnil⟩ | hpool
        · rw [hnil] at hres
          rw [← Option.some.inj hres] at hsame
          exact .inr hsame.nil_eq.symm
        · rw [hpool] at hres
          obtain ⟨allowed, hallowed, rfl⟩ := Option.map_eq_some_iff.mp hres
          rw [filterAllowed_nil (Rat.not_le.mp hqps) hallowed] at hsame
          exact .inr (List.Perm.nil_eq hsame).symm
  · rintro (hun | hcond)
    · refine ⟨getNamespaces_ends api u prechecked, fun as res h => ?_⟩
      rw [getNamespaces_of_unreviewed hun] at h
      rw [← Option.some.inj h]
      exact SameAnswer.refl _
    · exact ⟨getNamespaces_ends api u prechecked, fun as res h =>
        sameAnswer_of_reviews hcond h⟩

/-- A user who may not list all namespaces, where one of two is terminating and one is refused. -/
def reviewedApi : NamespacesApi where
  list config :=
    if config.bearerToken = "pod-token" then
      .ok [⟨"team", "Active"⟩, ⟨"old", "Terminating"⟩, ⟨"other", "Active"⟩]
    else .error ⟨some 403, true, "namespaces is forbidden"⟩
  review _ j := .ok (j.1.name ≠ "other")
  qps _ := 10

def reviewedUser : Clusters.UserHandler :=
  ⟨"kubeapps", ⟨⟨"https://kubernetes.default", "pod-token", "", .zero, []⟩⟩,
    ⟨⟨"https://kubernetes.default", "alice", "", .zero, []⟩⟩⟩

/-- She gets `team`. -/
theorem listsVisible_reviewed : ListsVisible reviewedApi reviewedUser [] ∧
    visibleNamespaces reviewedApi reviewedUser [] = .ok [⟨"team", "Active"⟩] :=
  ⟨(listsVisible_iff reviewedApi reviewedUser [] (by decide)).mpr (.inr (.inl (by decide))),
    by decide⟩

end Lists

/-! ## The request -/

/-- What is written to the client, piece by piece. -/
inductive ResponseBody where
  | error (err : K8sError)
  | namespaces (l : Option (List Namespace))
  deriving DecidableEq, Repr

/-- A `http.ResponseWriter`: the first status counts. -/
structure ResponseWriter where
  status : Option Nat
  body : List ResponseBody
  deriving DecidableEq, Repr

namespace ResponseWriter

def empty : ResponseWriter := ⟨none, []⟩

def writeHeader (w : ResponseWriter) (code : Nat) : ResponseWriter :=
  { w with status := some (w.status.getD code) }

def write (w : ResponseWriter) (piece : ResponseBody) : ResponseWriter :=
  { w.writeHeader 200 with body := w.body ++ [piece] }

/-- `returnK8sError`. -/
def returnK8sError (w : ResponseWriter) (err : K8sError) : ResponseWriter :=
  (w.writeHeader (err.code.getD 500)).write (.error err)

end ResponseWriter

/-- `KubeOptions`. -/
structure KubeOptions where
  namespaceHeaderName : String
  namespaceHeaderPattern : String

/-- `regexp`: `FindStringSubmatch` of a pattern that compiles, an empty list for `nil`. -/
abbrev Regexp := String → Except String (String → List String)

/-- `getHeaderNamespaces`. `header` is `req.Header.Get`. -/
def getHeaderNamespaces (regexp : Regexp) (header : String → String) (opts : KubeOptions) :
    Except K8sError (List Namespace) :=
  if opts.namespaceHeaderName = "" ∨ opts.namespaceHeaderPattern = "" then .ok []
  else
    match regexp opts.namespaceHeaderPattern with
    | .error msg => .error ⟨none, false, msg⟩
    | .ok find =>
        let names := ((header opts.namespaceHeaderName).toList.splitOn ',').map String.ofList
        .ok (names.filterMap fun n =>
          match find (trimSpace n) with
          | _ :: name :: _ => some ⟨name, "Active"⟩
          | _ => none)

/-- A request to `/backend/v1/clusters/{cluster}/namespaces`. -/
structure NamespacesRequest where
  header : String → String
  cluster : String

/-- A failed `AsUser` is no `StatusError`. -/
def clusterK8sError (err : Clusters.ClusterError) : K8sError := ⟨none, false, clusterErrorText err⟩

/-- `GetNamespaces` of the HTTP handler. It goes on after either of its last two errors. -/
def getNamespacesHandler (h : KubeHandler) (api : NamespacesApi) (regexp : Regexp)
    (opts : KubeOptions) (req : NamespacesRequest) (as : NsSchedule) : Option ResponseWriter :=
  match h.asUser (extractToken (req.header "Authorization")) req.cluster with
  | .error err => some (ResponseWriter.empty.returnK8sError (clusterK8sError err))
  | .ok u =>
      let (w, headerNamespaces) :=
        match getHeaderNamespaces regexp req.header opts with
        | .ok namespaces => (ResponseWriter.empty, namespaces)
        | .error err => (ResponseWriter.empty.returnK8sError err, [])
      (getNamespaces api u headerNamespaces as).map fun
        | .ok namespaces => w.write (.namespaces (some namespaces))
        | .error err => (w.returnK8sError err).write (.namespaces none)

/-- An error of the API is not reported as a success. -/
def ErrorCodes (api : NamespacesApi) : Prop :=
  ∀ config err, api.list config = .error err → err.code ≠ some 200

section Response

variable {h : KubeHandler} {api : NamespacesApi} {regexp : Regexp} {opts : KubeOptions}
  {req : NamespacesRequest} {as : NsSchedule} {w : ResponseWriter} {u : Clusters.UserHandler}

theorem getHeaderNamespaces_error {header : String → String} {err : K8sError}
    (herr : getHeaderNamespaces regexp header opts = .error err) : err.code = none := by
  unfold getHeaderNamespaces at herr
  split at herr
  · cases herr
  · split at herr
    · rw [← Except.error.inj herr]
    · cases herr

theorem getNamespaces_error {prechecked : List Namespace} {err : K8sError}
    (h : getNamespaces api u prechecked as = some (.error err)) :
    api.list u.clientset.config = .error err := by
  by_cases hun : Unreviewed api u prechecked
  · rw [getNamespaces_of_unreviewed hun] at h
    have herr := Option.some.inj h
    unfold visibleNamespaces at herr
    split at herr
    · cases herr
    · split at herr
      · cases herr
      · rename_i err' hlist
        split at herr
        · cases herr
        · rw [hlist, Except.error.inj herr]
  · rcases getNamespaces_of_reviewed hun with ⟨_, _, _, hnil⟩ | hpool
    · rw [hnil] at h
      cases Option.some.inj h
    · rw [hpool] at h
      obtain ⟨_, _, heq⟩ := Option.map_eq_some_iff.mp h
      cases heq

/-- The status is 200 exactly if there is a client, the header can be read and there is no error of
    the lists; then the body is the list. After an error it is two documents or more, unless there
    is no client. -/
structure Responds (h : KubeHandler) (api : NamespacesApi) (regexp : Regexp) (opts : KubeOptions)
    (req : NamespacesRequest) (w : ResponseWriter) : Prop where
  success : w.status = some 200 ↔ ∃ u names l,
    h.asUser (extractToken (req.header "Authorization")) req.cluster = .ok u ∧
      getHeaderNamespaces regexp req.header opts = .ok names ∧
      visibleNamespaces api u names = .ok l
  listed : ∀ u names l, h.asUser (extractToken (req.header "Authorization")) req.cluster = .ok u →
    getHeaderNamespaces regexp req.header opts = .ok names →
    visibleNamespaces api u names = .ok l →
      ∃ l', l'.Perm l ∧ w.body = [.namespaces (some l')]
  failed : w.status ≠ some 200 →
    (∃ err, h.asUser (extractToken (req.header "Authorization")) req.cluster = .error err) ∨
      2 ≤ w.body.length

theorem response_of_no_client {err : Clusters.ClusterError}
    (hu : h.asUser (extractToken (req.header "Authorization")) req.cluster = .error err)
    (hw : getNamespacesHandler h api regexp opts req as = some w) : w.status = some 500 := by
  unfold getNamespacesHandler at hw
  rw [hu] at hw
  rw [← Option.some.inj hw]
  rfl

/-- The status is written, and the list comes after it. -/
theorem response_of_bad_header {err : K8sError}
    (hu : h.asUser (extractToken (req.header "Authorization")) req.cluster = .ok u)
    (hnames : getHeaderNamespaces regexp req.header opts = .error err)
    (hw : getNamespacesHandler h api regexp opts req as = some w) :
    w.status = some 500 ∧ 2 ≤ w.body.length := by
  have hcode := getHeaderNamespaces_error hnames
  unfold getNamespacesHandler at hw
  rw [hu, hnames] at hw
  obtain ⟨res, _, hret⟩ := Option.map_eq_some_iff.mp hw
  rw [← hret]
  cases res <;> simp [ResponseWriter.returnK8sError, ResponseWriter.write,
    ResponseWriter.writeHeader, ResponseWriter.empty, hcode]

theorem response_of_answer {names : List Namespace} (hcodes : ErrorCodes api)
    (hu : h.asUser (extractToken (req.header "Authorization")) req.cluster = .ok u)
    (hnames : getHeaderNamespaces regexp req.header opts = .ok names)
    (hw : getNamespacesHandler h api regexp opts req as = some w) :
    ∃ res, getNamespaces api u names as = some res ∧
      match res with
      | .ok l => w.status = some 200 ∧ w.body = [.namespaces (some l)]
      | .error _ => w.status ≠ some 200 ∧ 2 ≤ w.body.length := by
  unfold getNamespacesHandler at hw
  rw [hu, hnames] at hw
  obtain ⟨res, hres, hret⟩ := Option.map_eq_some_iff.mp hw
  refine ⟨res, hres, ?_⟩
  rw [← hret]
  cases res with
  | ok l => exact ⟨rfl, rfl⟩
  | error err =>
      have hcode := hcodes _ _ (getNamespaces_error hres)
      refine ⟨?_, by simp [ResponseWriter.returnK8sError, ResponseWriter.write,
        ResponseWriter.writeHeader, ResponseWriter.empty]⟩
      cases hc : err.code with
      | none => simp [ResponseWriter.returnK8sError, ResponseWriter.write,
          ResponseWriter.writeHeader, ResponseWriter.empty, hc]
      | some code =>
          rw [hc] at hcode
          simpa [ResponseWriter.returnK8sError, ResponseWriter.write,
            ResponseWriter.writeHeader, ResponseWriter.empty, hc] using hcode

/-- Every response, for a rate of requests that makes a worker. -/
theorem namespaces_response (h : KubeHandler) (api : NamespacesApi) (regexp : Regexp)
    (opts : KubeOptions) (req : NamespacesRequest) (hcodes : ErrorCodes api)
    (hqps : ∀ config, 1 ≤ api.qps config) (as : NsSchedule) (w : ResponseWriter)
    (hw : getNamespacesHandler h api regexp opts req as = some w) :
    Responds h api regexp opts req w := by
  cases hu : h.asUser (extractToken (req.header "Authorization")) req.cluster with
  | error err =>
      have hstatus := response_of_no_client hu hw
      refine ⟨⟨fun h200 => ?_, fun ⟨u, _, _, hu', _⟩ => ?_⟩, fun u _ _ hu' => ?_,
        fun _ => .inl ⟨err, hu⟩⟩
      · rw [hstatus] at h200
        simp at h200
      · simp [hu] at hu'
      · simp [hu] at hu'
  | ok u =>
      cases hnames : getHeaderNamespaces regexp req.header opts with
      | error err =>
          obtain ⟨hstatus, hlen⟩ := response_of_bad_header hu hnames hw
          refine ⟨⟨fun h200 => ?_, fun ⟨_, _, _, _, hnames', _⟩ => ?_⟩, fun _ _ _ _ hnames' => ?_,
            fun _ => .inr hlen⟩
          · rw [hstatus] at h200
            simp at h200
          · simp [hnames] at hnames'
          · simp [hnames] at hnames'
      | ok names =>
          have honly : ∀ u' names', h.asUser (extractToken (req.header "Authorization")) req.cluster =
              .ok u' → getHeaderNamespaces regexp req.header opts = .ok names' →
                u' = u ∧ names' = names := fun u' names' hu' hnames' =>
            ⟨Except.ok.inj (hu'.symm.trans hu), Except.ok.inj (hnames'.symm.trans hnames)⟩
          obtain ⟨res, hres, hfacts⟩ := response_of_answer hcodes hu hnames hw
          have hsame := sameAnswer_of_reviews (.inl (hqps _)) hres
          cases res with
          | ok l =>
              obtain ⟨hstatus, hbody⟩ := hfacts
              cases hvisible : visibleNamespaces api u names with
              | error err =>
                  rw [hvisible] at hsame
                  exact False.elim hsame
              | ok l' =>
                  rw [hvisible] at hsame
                  refine ⟨⟨fun _ => ⟨u, names, l', hu, hnames, hvisible⟩, fun _ => hstatus⟩,
                    fun u' names' l'' hu' hnames' hl => ?_, fun hne => absurd hstatus hne⟩
                  obtain ⟨rfl, rfl⟩ := honly u' names' hu' hnames'
                  obtain rfl := Except.ok.inj (hvisible.symm.trans hl)
                  exact ⟨l, hsame, hbody⟩
          | error err =>
              obtain ⟨hstatus, hlen⟩ := hfacts
              have hno : ∀ l, visibleNamespaces api u names ≠ .ok l := by
                intro l hl
                rw [hl] at hsame
                exact hsame
              refine ⟨⟨fun h200 => absurd h200 hstatus, fun ⟨u', names', l, hu', hnames', hl⟩ => ?_⟩,
                fun u' names' l hu' hnames' hl => ?_, fun _ => .inr hlen⟩
              · obtain ⟨rfl, rfl⟩ := honly u' names' hu' hnames'
                exact absurd hl (hno l)
              · obtain ⟨rfl, rfl⟩ := honly u' names' hu' hnames'
                exact absurd hl (hno l)

end Response

/-- The installation of `reviewedApi`, with one cluster. -/
def reviewedHandler : KubeHandler where
  config := ⟨"https://kubernetes.default", "", "", .zero, []⟩
  kubeappsNamespace := "kubeapps"
  kubeappsSvcClientset := reviewedUser.svcClientset
  clustersConfig := ⟨"default", "", fun cluster =>
    if cluster = "default" then some ⟨"", "", "", "", "", false, false⟩ else none⟩
  clientsetError := fun _ => none

/-- No header names the namespaces. -/
def aliceRequest (cluster : String) : NamespacesRequest where
  header name := if name = "Authorization" then "Bearer alice" else ""
  cluster := cluster

def noHeader : KubeOptions := ⟨"", ""⟩

theorem errorCodes_reviewed : ErrorCodes reviewedApi := by
  intro config err herr
  unfold reviewedApi at herr
  dsimp only at herr
  split at herr
  · cases herr
  · rw [← Except.error.inj herr]
    decide

/-- Three workers review one namespace each. -/
def threeReviews : NsSchedule :=
  [.send, .send, .send, .closeJobs, .take 0, .take 1, .take 2, .finish 2 (some (.ok false)),
    .finish 0 (some (.ok true)), .finish 1 (some (.ok true)), .put 2, .put 1, .put 0, .exit 0,
    .exit 1, .exit 2, .closeResults, .receive, .receive, .receive, .ret]

/-- The response is the list that she may see. -/
theorem namespaces_response_reviewed :
    Responds reviewedHandler reviewedApi (fun _ => .ok fun _ => []) noHeader
      (aliceRequest "default") ⟨some 200, [.namespaces (some [⟨"team", "Active"⟩])]⟩ :=
  namespaces_response reviewedHandler reviewedApi (fun _ => .ok fun _ => []) noHeader
    (aliceRequest "default") errorCodes_reviewed (fun _ => (by decide : (1 : Rat) ≤ 10))
    threeReviews _ (by decide +kernel)

/-! ### Additional clusters -/

section Additional

variable {h : KubeHandler} {api : NamespacesApi} {u : Clusters.UserHandler} {token cluster : String}
  {c : Clusters.ClusterConfig} {prechecked : List Namespace}

/-- The answer on an additional cluster: the user's own list, or nothing. -/
def ownNamespaces (api : NamespacesApi) (config : RestConfig) (prechecked : List Namespace) :
    Except K8sError (List Namespace) :=
  if prechecked ≠ [] then .ok (filterActiveNamespaces prechecked)
  else
    match api.list config with
    | .ok namespaces => .ok (filterActiveNamespaces namespaces)
    | .error err => if err.forbidden then .ok [] else .error err

/-- The second list is refused as the first one was. -/
theorem getNamespaces_of_same_config (hsame : u.svcClientset.config = u.clientset.config)
    (as : NsSchedule) :
    getNamespaces api u prechecked as =
      some (ownNamespaces api u.clientset.config prechecked) := by
  unfold getNamespaces ownNamespaces
  by_cases hpre : prechecked ≠ []
  · rw [if_pos hpre, if_pos hpre]
  · rw [if_neg hpre, if_neg hpre, hsame]
    cases hlist : api.list u.clientset.config with
    | ok namespaces => rfl
    | error err => cases hforbidden : err.forbidden <;> simp [hforbidden]

/-- On an additional cluster every schedule, also one without a review, gives the same response: the
    user's own list, and nothing to a user who may not list, with status 200. The clientset has the
    user's token; the service token of the cluster is not used. -/
theorem namespaces_additional (h : KubeHandler) (api : NamespacesApi) (regexp : Regexp)
    (opts : KubeOptions) (req : NamespacesRequest) (c : Clusters.ClusterConfig)
    (hadd : AdditionalCluster h req.cluster c) (u : Clusters.UserHandler)
    (hu : h.asUser (extractToken (req.header "Authorization")) req.cluster = .ok u)
    (names : List Namespace) (hnames : getHeaderNamespaces regexp req.header opts = .ok names)
    (as : NsSchedule) :
    u.clientset.config.bearerToken = extractToken (req.header "Authorization") ∧
      getNamespacesHandler h api regexp opts req as = some (
        match ownNamespaces api u.clientset.config names with
        | .ok l => ResponseWriter.empty.write (.namespaces (some l))
        | .error err => (ResponseWriter.empty.returnK8sError err).write (.namespaces none)) := by
  obtain ⟨hconfig, hsame⟩ := Clusters.asUser_ok hadd hu
  refine ⟨(Clusters.newClusterConfig_bearerToken hconfig).1, ?_⟩
  unfold getNamespacesHandler
  rw [hu, hnames]
  dsimp only
  rw [getNamespaces_of_same_config hsame]
  cases ownNamespaces api u.clientset.config names <;> rfl

end Additional

/-- The reviews would allow `team`, and there is a service token. -/
theorem namespaces_additional_forbidden :
    getNamespacesHandler (Clusters.twoClusters "service-token") reviewedApi
        (fun _ => .ok fun _ => []) noHeader (aliceRequest "cluster-1") [] =
      some ⟨some 200, [.namespaces (some [])]⟩ := by
  have hadd : AdditionalCluster (Clusters.twoClusters "service-token")
      (aliceRequest "cluster-1").cluster
      ⟨"https://cluster-1.example.com:7890", "", "", "", "service-token", false, false⟩ :=
    ⟨by decide, by decide, rfl⟩
  exact (namespaces_additional (Clusters.twoClusters "service-token") reviewedApi
    (fun _ => .ok fun _ => []) noHeader (aliceRequest "cluster-1") _ hadd
    (Clusters.cluster1Handler "alice") (by decide) [] rfl []).2

end Kubeapps.Kubeops
