/-
  `filterAllowedNamespaces` (pkg/kube/kube_handler.go): the namespaces in which the user may read
  secrets, checked by a number of workers.

  The workers are a pool (Lib/Pool.lean) between two channels whose capacity is the number of
  workers, the lesser one of the number of namespaces and `MaxWorkers`. A job is a namespace with
  its position in the list, since the same namespace can be reviewed twice with two answers.

  With at least one worker nothing is lost. With none, which a rate below one request per second
  gives, the consumer returns at once and the producer waits forever.
-/
import Mathlib.Data.Rat.Defs
import Kubeapps.Lib.Pool

namespace Kubeapps.Kube

open Kubeapps.Lib

/-- What is read of a `corev1.Namespace`. -/
structure Namespace where
  name : String
  phase : String
  deriving DecidableEq, Repr

/-- `checkNSJob`, with the position of the namespace in the list. -/
abbrev CheckNSJob := Namespace × Nat

/-- `MaxWorkers`: `int` of the rate of requests. -/
def maxWorkers (qps : Rat) : Nat := qps.floor.toNat

/-- The jobs the producer sends. -/
def checkNSJobs (namespaces : List Namespace) : List CheckNSJob := namespaces.zipIdx

/-- What `nsCheckerWorker` puts into a result: the status of the review, or its error. -/
def nsAnswers (review : CheckNSJob → Except String Bool) (j : CheckNSJob)
    (res : Option (Except String Bool)) : Bool :=
  res = some (review j)

abbrev NsPool := Pool CheckNSJob (Except String Bool)

/-- The number of workers, which is the capacity of both channels. -/
def nsWorkers (qps : Rat) (namespaces : List Namespace) : Nat :=
  min namespaces.length (maxWorkers qps)

def nsPool (qps : Rat) (namespaces : List Namespace) : NsPool :=
  Pool.init (nsWorkers qps namespaces) ((checkNSJobs namespaces).map some)

def nsStep (qps : Rat) (namespaces : List Namespace) (review : CheckNSJob → Except String Bool) :
    NsPool → PoolLabel (Except String Bool) → Option NsPool :=
  Pool.step (nsWorkers qps namespaces) (nsAnswers review)

/-- The receiving loop. -/
def receiveAllowed (received : List (CheckNSJob × Except String Bool)) : List Namespace :=
  received.filterMap fun res =>
    match res.2 with
    | .ok true => some res.1.1
    | _ => none

/-! ## What it is for -/

/-- The namespaces of the list whose review says that they are allowed. -/
def reviewedAllowed (namespaces : List Namespace) (review : CheckNSJob → Except String Bool) :
    List Namespace :=
  ((checkNSJobs namespaces).filter fun j => review j = .ok true).map Prod.fst

/-- Every schedule is bounded and can be carried on until the function returns, and what it returns
    are the allowed namespaces, in some order. -/
def FiltersAllowed (qps : Rat) (namespaces : List Namespace)
    (review : CheckNSJob → Except String Bool) : Prop :=
  (∃ bound, ∀ as s, runs (nsStep qps namespaces review) (nsPool qps namespaces) as = some s →
    as.length ≤ bound ∧
      ∃ bs t, runs (nsStep qps namespaces review) s bs = some t ∧ t.phase = .returned) ∧
  ∀ as s, runs (nsStep qps namespaces review) (nsPool qps namespaces) as = some s →
    s.phase = .returned →
      (receiveAllowed s.received).Perm (reviewedAllowed namespaces review)

section Filter

variable {qps : Rat} {namespaces : List Namespace} {review : CheckNSJob → Except String Bool}
  {as : List (PoolLabel (Except String Bool))} {s : NsPool}

theorem nsAnswers_total (j : CheckNSJob) : ∃ r, nsAnswers review j r = true :=
  ⟨some (review j), decide_eq_true rfl⟩

theorem nsAnswers_none (j : CheckNSJob) : nsAnswers review j none = false :=
  decide_eq_false nofun

theorem none_not_mem_jobs : none ∉ (checkNSJobs namespaces).map some := by simp

/-- A run gets to its end, with or without workers. -/
theorem alwaysEnds_nsPool : Pool.AlwaysEnds (nsWorkers qps namespaces) (nsWorkers qps namespaces)
    (nsAnswers review) ((checkNSJobs namespaces).map some) := by
  cases hn : nsWorkers qps namespaces with
  | zero => exact Pool.alwaysEnds_of_no_workers 0 _ _
  | succ n => exact Pool.alwaysEnds (Nat.succ_pos n) nsAnswers_total _ _

/-- The end is that the function returns. -/
theorem terminates : ∃ bound, ∀ as s,
    runs (nsStep qps namespaces review) (nsPool qps namespaces) as = some s →
    as.length ≤ bound ∧
      ∃ bs t, runs (nsStep qps namespaces review) s bs = some t ∧ t.phase = .returned := by
  have hends : Pool.AlwaysEnds (nsWorkers qps namespaces) (nsWorkers qps namespaces)
    (nsAnswers review) ((checkNSJobs namespaces).map some) := alwaysEnds_nsPool
  obtain ⟨bound, hbound⟩ := hends
  refine ⟨bound, fun as s h => ?_⟩
  obtain ⟨hlen, bs, t, hrun, hend⟩ := hbound as s h
  have hall := runs_append_eq_some.2 ⟨s, h, hrun⟩
  exact ⟨hlen, bs, t, hrun, Pool.returned_of_end none_not_mem_jobs
    (fun j _ => nsAnswers_none j) hall hend⟩

theorem receiveAllowed_eq {received : List (CheckNSJob × Except String Bool)}
    (h : ∀ x ∈ received, x.2 = review x.1) :
    receiveAllowed received =
      ((received.map Prod.fst).filter fun j => review j = .ok true).map Prod.fst := by
  induction received with
  | nil => rfl
  | cons x received ih =>
      rw [List.forall_mem_cons] at h
      unfold receiveAllowed at ih ⊢
      rw [List.filterMap_cons, ih h.2, List.map_cons, List.filter_cons, h.1]
      cases hreview : review x.1 with
      | error err => simp
      | ok allowed => cases allowed <;> simp

/-- With a worker, every namespace is reviewed once. -/
theorem perm_of_workers (hn : 0 < nsWorkers qps namespaces)
    (h : runs (nsStep qps namespaces review) (nsPool qps namespaces) as = some s)
    (hr : s.phase = .returned) :
    (receiveAllowed s.received).Perm (reviewedAllowed namespaces review) := by
  obtain ⟨hperm, hans⟩ := Pool.perm_of_returned hn h hr
  have hans' : ∀ x ∈ s.received, x.2 = review x.1 := fun x hx =>
    Option.some.inj (of_decide_eq_true (hans x hx))
  have hjobs : (s.received.map Prod.fst).Perm (checkNSJobs namespaces) :=
    (List.map_perm_map_iff fun _ _ h => Option.some.inj h).mp hperm
  rw [receiveAllowed_eq hans']
  exact (hjobs.filter _).map _

/-- Without one, nothing is received. -/
theorem receiveAllowed_of_no_workers (hn : nsWorkers qps namespaces = 0)
    (h : runs (nsStep qps namespaces review) (nsPool qps namespaces) as = some s) :
    receiveAllowed s.received = [] := by
  unfold nsPool at h
  rw [hn] at h
  rw [(Pool.silent_runs h).2.2]
  rfl

theorem reviewedAllowed_eq_nil_iff :
    reviewedAllowed namespaces review = [] ↔ ∀ j ∈ namespaces.zipIdx, review j ≠ .ok true := by
  unfold reviewedAllowed checkNSJobs
  rw [List.map_eq_nil_iff, List.filter_eq_nil_iff]
  simp

theorem nsWorkers_eq_zero_iff :
    nsWorkers qps namespaces = 0 ↔ namespaces = [] ∨ qps < 1 := by
  have hfloor : maxWorkers qps = 0 ↔ qps < 1 := by
    unfold maxWorkers
    have hlt : qps.floor < (1 : Int) ↔ qps < ((1 : Int) : Rat) := Rat.floor_lt_iff
    rw [Int.toNat_eq_zero, ← Int.lt_add_one_iff]
    exact hlt
  unfold nsWorkers
  rw [← hfloor, ← List.length_eq_zero_iff]
  omega

/-- For a positive rate the allowed namespaces are returned exactly if the rate makes a worker, or
    there is nothing to return. (A negative rate has no pool.) -/
theorem filterAllowedNamespaces_iff (qps : Rat) (_ : 0 < qps) (namespaces : List Namespace)
    (review : CheckNSJob → Except String Bool) :
    FiltersAllowed qps namespaces review ↔
      1 ≤ qps ∨ ∀ j ∈ namespaces.zipIdx, review j ≠ .ok true := by
  rw [← reviewedAllowed_eq_nil_iff]
  cases hn : nsWorkers qps namespaces with
  | zero =>
      constructor
      · rintro ⟨⟨bound, hbound⟩, hperm⟩
        obtain ⟨_, bs, t, hrun, hret⟩ := hbound [] _ rfl
        have hnil := hperm bs t hrun hret
        rw [receiveAllowed_of_no_workers hn hrun] at hnil
        exact .inr hnil.nil_eq.symm
      · intro hcond
        have hnil : reviewedAllowed namespaces review = [] := by
          rcases hcond with hone | hnil
          · rcases nsWorkers_eq_zero_iff.mp hn with rfl | hlt
            · rfl
            · exact absurd hlt (Rat.not_lt.mpr hone)
          · exact hnil
        refine ⟨terminates, fun as s h _ => ?_⟩
        rw [receiveAllowed_of_no_workers hn h, hnil]
  | succ n =>
      have hpos : 0 < nsWorkers qps namespaces := hn ▸ Nat.succ_pos n
      have hone : 1 ≤ qps := by
        rw [← Rat.not_lt]
        intro hlt
        rw [nsWorkers_eq_zero_iff.mpr (.inr hlt)] at hpos
        exact absurd hpos (Nat.lt_irrefl 0)
      exact ⟨fun _ => .inl hone, fun _ => ⟨terminates, fun as s h hr => perm_of_workers hpos h hr⟩⟩

end Filter

def team : Namespace := ⟨"team", "Active"⟩

/-- A request every two seconds. -/
def halfRate : Rat := mkRat 1 2

/-- There is no worker, and the one allowed namespace is lost. -/
theorem halfRate_loses :
    nsWorkers halfRate [team] = 0 ∧ (reviewedAllowed [team] fun _ => .ok true) = [team] ∧
      (∃ s, runs (nsStep halfRate [team] fun _ => .ok true) (nsPool halfRate [team])
        [.closeResults, .ret] = some s ∧ s.phase = .returned ∧ receiveAllowed s.received = []) ∧
      ¬ FiltersAllowed halfRate [team] fun _ => .ok true := by
  have hrun : ∃ s, runs (nsStep halfRate [team] fun _ => .ok true) (nsPool halfRate [team])
      [.closeResults, .ret] = some s ∧ s.phase = .returned ∧ receiveAllowed s.received = [] :=
    ⟨{ nsPool halfRate [team] with resultsClosed := true, phase := .returned }, by decide, rfl, rfl⟩
  refine ⟨by decide, by decide, hrun, fun h => ?_⟩
  obtain ⟨s, hs, hret, hnil⟩ := hrun
  have hperm := h.2 _ s hs hret
  rw [hnil] at hperm
  exact absurd hperm.nil_eq (by decide)

/-- Three namespaces, and the user may read the secrets of two. -/
def threeNamespaces : List Namespace := [team, ⟨"other", "Active"⟩, ⟨"dev", "Active"⟩]

theorem filterAllowedNamespaces_team :
    FiltersAllowed 10 threeNamespaces (fun j => .ok (j.1.name ≠ "other")) ∧
      reviewedAllowed threeNamespaces (fun j => .ok (j.1.name ≠ "other")) =
        [team, ⟨"dev", "Active"⟩] :=
  ⟨(filterAllowedNamespaces_iff 10 (by decide) threeNamespaces _).mpr (.inl (by decide)), by decide⟩

end Kubeapps.Kube
