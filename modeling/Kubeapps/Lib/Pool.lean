/-
  A pool of workers between two bounded channels.

  A producer sends jobs on one channel and closes it; each worker takes a job, works on it and
  sends its result on a second channel, until the first is closed and empty; when every worker
  has left, the second channel is closed; a consumer receives until it is closed and empty, and
  returns. A producer item that is `none` stands for an expression that panics before it gives
  a job, an answer that is `none` for work that panics: the process ends there.

  `step` moves one party at a time. Which party moves and what the work on a job answers are in
  the label; `ok job answer` restricts the answers.

  * `perm_of_returned`: when the consumer has returned it has received, in some order, exactly
    one result of every job, and nothing panicked.
  * `alwaysEnds`, `exists_return`, `exists_crash`: the pool never deadlocks. Every schedule is
    bounded and can be carried on until the consumer returns or the process ends.
-/
import Mathlib.Algebra.BigOperators.Group.Multiset.Basic
import Mathlib.Data.Multiset.AddSub
import Mathlib.Tactic.Abel
import Kubeapps.Lib.Steps

namespace Kubeapps.Lib

/-! ## The machine -/

/-- A worker: waiting for a job, working on one, waiting to send a result, or gone. -/
inductive Worker (κ ρ : Type) where
  | idle
  | busy (j : κ)
  | holds (j : κ) (r : ρ)
  | exited
  deriving DecidableEq

/-- Whether the process still runs. -/
inductive PoolPhase where
  | running
  | returned
  | crashed
  deriving DecidableEq, Repr

/-- The producer's items to come, the two channels, the workers, and what the consumer has. -/
structure Pool (κ ρ : Type) where
  pending : List (Option κ)
  jobs : List κ
  jobsClosed : Bool
  workers : List (Worker κ ρ)
  results : List (κ × ρ)
  resultsClosed : Bool
  received : List (κ × ρ)
  phase : PoolPhase
  deriving DecidableEq

/-- One move. `finish w r` is the end of the work of `w`, with its answer. -/
inductive PoolLabel (ρ : Type) where
  | send
  | closeJobs
  | take (w : Nat)
  | finish (w : Nat) (r : Option ρ)
  | put (w : Nat)
  | exit (w : Nat)
  | closeResults
  | receive
  | ret
  deriving DecidableEq

namespace Pool

variable {κ ρ : Type}

/-- `n` workers, and a producer about to send `items`. -/
def init (n : Nat) (items : List (Option κ)) : Pool κ ρ where
  pending := items
  jobs := []
  jobsClosed := false
  workers := List.replicate n .idle
  results := []
  resultsClosed := false
  received := []
  phase := .running

def isExited : Worker κ ρ → Bool
  | .exited => true
  | _ => false

/-- One move of the pool with channels of capacity `cap`. -/
def step (cap : Nat) (ok : κ → Option ρ → Bool) (s : Pool κ ρ) (l : PoolLabel ρ) :
    Option (Pool κ ρ) :=
  if s.phase = .running then
    match l with
    | .send =>
        match s.pending with
        | some j :: rest =>
            if s.jobs.length < cap then some { s with pending := rest, jobs := s.jobs ++ [j] }
            else none
        -- the item is evaluated before the send can block
        | none :: _ => some { s with phase := .crashed }
        | [] => none
    | .closeJobs =>
        if s.pending = [] ∧ s.jobsClosed = false then some { s with jobsClosed := true }
        else none
    | .take w =>
        match s.workers[w]?, s.jobs with
        | some .idle, j :: rest =>
            some { s with jobs := rest, workers := s.workers.set w (.busy j) }
        | _, _ => none
    | .finish w r =>
        match s.workers[w]? with
        | some (.busy j) =>
            if ok j r then
              match r with
              | some r => some { s with workers := s.workers.set w (.holds j r) }
              | none => some { s with phase := .crashed }
            else none
        | _ => none
    | .put w =>
        match s.workers[w]? with
        | some (.holds j r) =>
            if s.results.length < cap then
              some { s with results := s.results ++ [(j, r)], workers := s.workers.set w .idle }
            else none
        | _ => none
    | .exit w =>
        match s.workers[w]? with
        | some .idle =>
            if s.jobs = [] ∧ s.jobsClosed = true then
              some { s with workers := s.workers.set w .exited }
            else none
        | _ => none
    | .closeResults =>
        if s.workers.all isExited ∧ s.resultsClosed = false then
          some { s with resultsClosed := true }
        else none
    | .receive =>
        match s.results with
        | x :: rest => some { s with results := rest, received := s.received ++ [x] }
        | [] => none
    | .ret =>
        if s.results = [] ∧ s.resultsClosed = true then some { s with phase := .returned }
        else none
  else none

/-- Everything a step can do. -/
inductive Moves (cap : Nat) (ok : κ → Option ρ → Bool) (s : Pool κ ρ) : Pool κ ρ → Prop
  | send (j : κ) (rest : List (Option κ)) (hp : s.pending = some j :: rest)
      (hcap : s.jobs.length < cap) :
      Moves cap ok s { s with pending := rest, jobs := s.jobs ++ [j] }
  | crash (rest : List (Option κ)) (hp : s.pending = none :: rest) :
      Moves cap ok s { s with phase := .crashed }
  | closeJobs (hp : s.pending = []) (hc : s.jobsClosed = false) :
      Moves cap ok s { s with jobsClosed := true }
  | take (w : Nat) (j : κ) (rest : List κ) (hw : s.workers[w]? = some .idle)
      (hj : s.jobs = j :: rest) :
      Moves cap ok s { s with jobs := rest, workers := s.workers.set w (.busy j) }
  | finish (w : Nat) (j : κ) (r : ρ) (hw : s.workers[w]? = some (.busy j))
      (hok : ok j (some r) = true) :
      Moves cap ok s { s with workers := s.workers.set w (.holds j r) }
  | workerCrash (w : Nat) (j : κ) (hw : s.workers[w]? = some (.busy j))
      (hok : ok j none = true) :
      Moves cap ok s { s with phase := .crashed }
  | put (w : Nat) (j : κ) (r : ρ) (hw : s.workers[w]? = some (.holds j r))
      (hcap : s.results.length < cap) :
      Moves cap ok s
        { s with results := s.results ++ [(j, r)], workers := s.workers.set w .idle }
  | exit (w : Nat) (hw : s.workers[w]? = some .idle) (hj : s.jobs = [])
      (hc : s.jobsClosed = true) :
      Moves cap ok s { s with workers := s.workers.set w .exited }
  | closeResults (hw : s.workers.all isExited = true) (hc : s.resultsClosed = false) :
      Moves cap ok s { s with resultsClosed := true }
  | receive (x : κ × ρ) (rest : List (κ × ρ)) (hr : s.results = x :: rest) :
      Moves cap ok s { s with results := rest, received := s.received ++ [x] }
  | ret (hr : s.results = []) (hc : s.resultsClosed = true) :
      Moves cap ok s { s with phase := .returned }

theorem moves_of_step {cap : Nat} {ok : κ → Option ρ → Bool} {s s' : Pool κ ρ} {l : PoolLabel ρ}
    (h : step cap ok s l = some s') : s.phase = .running ∧ Moves cap ok s s' := by
  unfold step at h
  split at h
  · rename_i hrun
    refine ⟨hrun, ?_⟩
    cases l with
    | send =>
        dsimp only at h
        split at h
        · rename_i j rest hp
          split at h
          · rename_i hcap
            cases h
            exact .send j rest hp hcap
          · cases h
        · rename_i rest hp
          cases h
          exact .crash rest hp
        · cases h
    | closeJobs =>
        dsimp only at h
        split at h
        · rename_i hc
          cases h
          exact .closeJobs hc.1 hc.2
        · cases h
    | take w =>
        dsimp only at h
        split at h
        · rename_i j rest hw hj
          cases h
          exact .take w j rest hw hj
        · cases h
    | finish w r =>
        dsimp only at h
        split at h
        · rename_i j hw
          split at h
          · rename_i hok
            cases r with
            | some r =>
                cases h
                exact .finish w j r hw hok
            | none =>
                cases h
                exact .workerCrash w j hw hok
          · cases h
        · cases h
    | put w =>
        dsimp only at h
        split at h
        · rename_i j r hw
          split at h
          · rename_i hcap
            cases h
            exact .put w j r hw hcap
          · cases h
        · cases h
    | exit w =>
        dsimp only at h
        split at h
        · rename_i hw
          split at h
          · rename_i hc
            cases h
            exact .exit w hw hc.1 hc.2
          · cases h
        · cases h
    | closeResults =>
        dsimp only at h
        split at h
        · rename_i hc
          cases h
          exact .closeResults hc.1 hc.2
        · cases h
    | receive =>
        dsimp only at h
        split at h
        · rename_i x rest hr
          cases h
          exact .receive x rest hr
        · cases h
    | ret =>
        dsimp only at h
        split at h
        · rename_i hc
          cases h
          exact .ret hc.1 hc.2
        · cases h
  · cases h

/-- With more answers allowed no step is lost. -/
theorem step_mono {cap : Nat} {ok ok' : κ → Option ρ → Bool}
    (hok : ∀ j r, ok j r = true → ok' j r = true) {s s' : Pool κ ρ} {l : PoolLabel ρ}
    (h : step cap ok s l = some s') : step cap ok' s l = some s' := by
  cases l with
  | finish w r =>
      unfold step at h ⊢
      split at h
      · rename_i hrun
        rw [if_pos hrun]
        dsimp only at h ⊢
        split at h
        · rename_i j hw
          split at h
          · rename_i hj
            rw [if_pos (hok j r hj)]
            exact h
          · cases h
        · cases h
      · cases h
  | _ => exact h

/-! ## Nothing is lost -/

/-- Replacing an element of a list changes a sum over it by the two values. -/
theorem sum_map_set {α M : Type} [AddCommMonoid M] (f : α → M) (new : α) {l : List α} {i : Nat}
    {old : α} (h : l[i]? = some old) :
    ((l.set i new).map f).sum + f old = (l.map f).sum + f new := by
  induction l generalizing i with
  | nil => cases h
  | cons a l ih =>
      cases i with
      | zero =>
          cases h
          simp only [List.set_cons_zero, List.map_cons, List.sum_cons]
          rw [add_comm (f new), add_comm (f old), add_assoc, add_assoc, add_comm (f new)]
      | succ i =>
          simp only [List.getElem?_cons_succ] at h
          simp only [List.set_cons_succ, List.map_cons, List.sum_cons, add_assoc]
          rw [ih h]

/-- The job in a worker's hands. -/
def hand : Worker κ ρ → Multiset κ
  | .idle => 0
  | .busy j => {j}
  | .holds j _ => {j}
  | .exited => 0

/-- The jobs already sent, wherever they are. -/
def sent (s : Pool κ ρ) : Multiset κ :=
  (s.jobs : Multiset κ) + (s.workers.map hand).sum + (s.results.map Prod.fst : List κ) +
    (s.received.map Prod.fst : List κ)

/-- What holds of every reachable state. -/
structure Inv (ok : κ → Option ρ → Bool) (items : List (Option κ)) (s : Pool κ ρ) : Prop where
  conserved : s.sent.map some + (s.pending : Multiset (Option κ)) = items
  okHeld : ∀ j r, Worker.holds j r ∈ s.workers → ok j (some r) = true
  okResults : ∀ x ∈ s.results, ok x.1 (some x.2) = true
  okReceived : ∀ x ∈ s.received, ok x.1 (some x.2) = true
  closed : s.jobsClosed = true → s.pending = []
  exited : Worker.exited ∈ s.workers → s.jobsClosed = true ∧ s.jobs = []
  closedResults : s.resultsClosed = true → s.workers.all isExited = true
  returned : s.phase = .returned → s.resultsClosed = true ∧ s.results = []
  crashed : s.phase = .crashed → none ∈ items ∨ ∃ j, some j ∈ items ∧ ok j none = true

theorem sum_map_hand_replicate (n : Nat) :
    ((List.replicate n (Worker.idle : Worker κ ρ)).map hand).sum = 0 := by
  rw [List.map_replicate]
  simp [hand]

theorem inv_init (ok : κ → Option ρ → Bool) (n : Nat) (items : List (Option κ)) :
    Inv ok items (init n items : Pool κ ρ) := by
  refine ⟨?_, ?_, ?_, ?_, ?_, ?_, ?_, ?_, ?_⟩
  · simp only [sent, init, sum_map_hand_replicate]
    simp
  · intro j r h
    simp [init] at h
  · intro x hx
    cases hx
  · intro x hx
    cases hx
  · intro h
    cases h
  · intro h
    simp [init] at h
  · intro h
    cases h
  · intro h
    cases h
  · intro h
    cases h

theorem mem_set_cases {α : Type} {l : List α} {i : Nat} {a x : α} (h : x ∈ l.set i a) :
    x = a ∨ x ∈ l := by
  rcases List.mem_or_eq_of_mem_set h with h | h
  · exact .inr h
  · exact .inl h

section Step

variable {cap : Nat} {ok : κ → Option ρ → Bool} {items : List (Option κ)} {s s' : Pool κ ρ}

/-- A step moves at most one item from `pending` to `sent`. -/
theorem sent_moves (h : Moves cap ok s s') :
    s'.sent.map some + (s'.pending : Multiset (Option κ)) =
      s.sent.map some + (s.pending : Multiset (Option κ)) := by
  cases h with
  | send j rest hp hcap =>
      simp only [sent, hp, ← Multiset.coe_add, ← Multiset.cons_coe, ← Multiset.singleton_add,
        Multiset.coe_nil, Multiset.map_add, Multiset.map_singleton, Multiset.map_zero]
      abel
  | crash rest hp => rfl
  | closeJobs hp hc => rfl
  | take w j rest hw hj =>
      have hsum := sum_map_set hand (Worker.busy j) hw
      simp only [hand, add_zero] at hsum
      simp only [sent, hj, hsum, ← Multiset.cons_coe, ← Multiset.singleton_add]
      congr 2
      abel
  | finish w j r hw hok =>
      have hsum := sum_map_set hand (Worker.holds j r) hw
      simp only [hand, add_left_inj] at hsum
      simp only [sent, hsum]
  | workerCrash w j hw hok => rfl
  | put w j r hw hcap =>
      have hsum := sum_map_set hand Worker.idle hw
      simp only [hand, add_zero] at hsum
      simp only [sent, ← hsum, List.map_append, List.map_cons, List.map_nil, ← Multiset.coe_add,
        Multiset.coe_singleton]
      congr 2
      abel
  | exit w hw hj hc =>
      have hsum := sum_map_set hand Worker.exited hw
      simp only [hand, add_zero] at hsum
      simp only [sent, hsum]
  | closeResults hw hc => rfl
  | receive x rest hr =>
      simp only [sent, hr, List.map_append, List.map_cons, List.map_nil, ← Multiset.coe_add,
        ← Multiset.cons_coe, ← Multiset.singleton_add, Multiset.coe_nil, add_zero]
      congr 2
      abel
  | ret hr hc => rfl

theorem isExited_of_all (h : s.workers.all isExited = true) {w : Nat} {x : Worker κ ρ}
    (hw : s.workers[w]? = some x) : x = .exited := by
  have := List.all_eq_true.mp h x (List.mem_of_getElem? hw)
  cases x <;> simp_all [isExited]

/-- While a worker is not gone the results channel is open. -/
theorem Inv.not_closed (hi : Inv ok items s) {w : Nat} {x : Worker κ ρ}
    (hw : s.workers[w]? = some x) (hx : x ≠ .exited) : s.resultsClosed = false := by
  cases hc : s.resultsClosed with
  | false => rfl
  | true => exact absurd (isExited_of_all (hi.closedResults hc) hw) hx

theorem Inv.mem_of_pending (hi : Inv ok items s) {x : Option κ} (hx : x ∈ s.pending) :
    x ∈ items := by
  have hmem : x ∈ (items : Multiset (Option κ)) := by
    rw [← hi.conserved]
    exact Multiset.mem_add.mpr (.inr hx)
  exact hmem

/-- A job in a worker's hands is one of the items. -/
theorem Inv.mem_of_hand (hi : Inv ok items s) {w : Nat} {x : Worker κ ρ} {j : κ}
    (hw : s.workers[w]? = some x) (hj : j ∈ hand x) : some j ∈ items := by
  have hsum : j ∈ (s.workers.map hand).sum := by
    have hset := sum_map_set hand Worker.idle hw
    simp only [hand, add_zero] at hset
    rw [← hset]
    exact Multiset.mem_add.mpr (.inr hj)
  have hsent : j ∈ s.sent := by
    simp only [sent, Multiset.mem_add]
    exact .inl (.inl (.inr hsum))
  have hmem : some j ∈ (items : Multiset (Option κ)) := by
    rw [← hi.conserved]
    exact Multiset.mem_add.mpr (.inl (Multiset.mem_map_of_mem some hsent))
  exact hmem

/-- So is the job of a result the consumer has. -/
theorem Inv.mem_of_received (hi : Inv ok items s) {x : κ × ρ} (hx : x ∈ s.received) :
    some x.1 ∈ items := by
  have hsent : x.1 ∈ s.sent := by
    simp only [sent, Multiset.mem_add]
    exact .inr (List.mem_map_of_mem hx)
  have hmem : some x.1 ∈ (items : Multiset (Option κ)) := by
    rw [← hi.conserved]
    exact Multiset.mem_add.mpr (.inl (Multiset.mem_map_of_mem some hsent))
  exact hmem

theorem inv_moves (hi : Inv ok items s) (hrun : s.phase = .running) (h : Moves cap ok s s') :
    Inv ok items s' := by
  have hcons := (sent_moves h).trans hi.conserved
  cases h with
  | send j rest hp hcap =>
      have hopen : s.jobsClosed = false := by
        cases hc : s.jobsClosed with
        | false => rfl
        | true =>
            have := hi.closed hc
            rw [hp] at this
            cases this
      refine { hi with conserved := hcons, closed := ?_, exited := ?_, crashed := ?_ }
      · intro h
        exact absurd (hopen.symm.trans h) (by decide)
      · intro h
        exact absurd (hopen.symm.trans (hi.exited h).1) (by decide)
      · intro h
        exact absurd (hrun.symm.trans h) (by decide)
  | crash rest hp =>
      refine { hi with conserved := hcons, returned := ?_, crashed := ?_ }
      · intro h
        cases h
      · intro _
        exact .inl (hi.mem_of_pending (hp ▸ List.mem_cons_self))
  | closeJobs hp hc =>
      exact { hi with
        conserved := hcons
        closed := fun _ => hp
        exited := fun h => ⟨rfl, (hi.exited h).2⟩ }
  | take w j rest hw hj =>
      refine { hi with
        conserved := hcons, okHeld := ?_, exited := ?_, closedResults := ?_ }
      · intro j' r' h
        rcases mem_set_cases h with h | h
        · cases h
        · exact hi.okHeld j' r' h
      · intro h
        rcases mem_set_cases h with h | h
        · cases h
        · have := (hi.exited h).2
          rw [hj] at this
          cases this
      · intro h
        have := hi.not_closed hw (by simp)
        exact absurd (this.symm.trans h) (by decide)
  | finish w j r hw hok =>
      refine { hi with
        conserved := hcons, okHeld := ?_, exited := ?_, closedResults := ?_ }
      · intro j' r' h
        rcases mem_set_cases h with h | h
        · cases h
          exact hok
        · exact hi.okHeld j' r' h
      · intro h
        rcases mem_set_cases h with h | h
        · cases h
        · exact hi.exited h
      · intro h
        have := hi.not_closed hw (by simp)
        exact absurd (this.symm.trans h) (by decide)
  | workerCrash w j hw hok =>
      refine { hi with conserved := hcons, returned := ?_, crashed := ?_ }
      · intro h
        cases h
      · intro _
        exact .inr ⟨j, hi.mem_of_hand hw (Multiset.mem_singleton_self j), hok⟩
  | put w j r hw hcap =>
      refine { hi with
        conserved := hcons, okHeld := ?_, okResults := ?_, exited := ?_, closedResults := ?_,
        returned := ?_ }
      · intro j' r' h
        rcases mem_set_cases h with h | h
        · cases h
        · exact hi.okHeld j' r' h
      · intro x hx
        rcases List.mem_append.mp hx with hx | hx
        · exact hi.okResults x hx
        · cases List.mem_singleton.mp hx
          exact hi.okHeld j r (List.mem_of_getElem? hw)
      · intro h
        rcases mem_set_cases h with h | h
        · cases h
        · exact hi.exited h
      · intro h
        have := hi.not_closed hw (by simp)
        exact absurd (this.symm.trans h) (by decide)
      · intro h
        exact absurd (hrun.symm.trans h) (by decide)
  | exit w hw hj hc =>
      refine { hi with
        conserved := hcons, okHeld := ?_, exited := ?_, closedResults := ?_ }
      · intro j' r' h
        rcases mem_set_cases h with h | h
        · cases h
        · exact hi.okHeld j' r' h
      · intro _
        exact ⟨hc, hj⟩
      · intro h
        have := hi.not_closed hw (by simp)
        exact absurd (this.symm.trans h) (by decide)
  | closeResults hw hc =>
      refine { hi with conserved := hcons, closedResults := fun _ => hw, returned := ?_ }
      intro h
      exact absurd (hrun.symm.trans h) (by decide)
  | receive x rest hr =>
      refine { hi with
        conserved := hcons, okResults := ?_, okReceived := ?_, returned := ?_ }
      · intro y hy
        exact hi.okResults y (hr ▸ List.mem_cons_of_mem x hy)
      · intro y hy
        rcases List.mem_append.mp hy with hy | hy
        · exact hi.okReceived y hy
        · cases List.mem_singleton.mp hy
          exact hi.okResults x (hr ▸ List.mem_cons_self)
      · intro h
        exact absurd (hrun.symm.trans h) (by decide)
  | ret hr hc =>
      refine { hi with conserved := hcons, returned := fun _ => ⟨hc, hr⟩, crashed := ?_ }
      intro h
      cases h

theorem inv_step {l : PoolLabel ρ} (hi : Inv ok items s) (h : step cap ok s l = some s') :
    Inv ok items s' := by
  obtain ⟨hrun, hm⟩ := moves_of_step h
  exact inv_moves hi hrun hm

end Step

/-! ## What the consumer has when it returns -/

section Returned

variable {cap n : Nat} {ok : κ → Option ρ → Bool} {items : List (Option κ)} {s : Pool κ ρ}
  {as : List (PoolLabel ρ)}

theorem inv_runs (h : runs (step cap ok) (init n items) as = some s) : Inv ok items s :=
  runs_invariant (fun _ _ _ hi hs => inv_step hi hs) h (inv_init ok n items)

theorem sum_hand_of_exited {ws : List (Worker κ ρ)} (h : ws.all isExited = true) :
    (ws.map hand).sum = 0 := by
  induction ws with
  | nil => rfl
  | cons x ws ih =>
      simp only [List.all_cons, Bool.and_eq_true] at h
      have hx : hand x = 0 := by
        cases x with
        | exited => rfl
        | idle => cases h.1
        | busy j => cases h.1
        | holds j r => cases h.1
      simp [hx, ih h.2]

/-- The items of a pool whose consumer has returned: the jobs of the results, in some order. -/
theorem items_of_returned (hn : 0 < n) (hlen : s.workers.length = n) (hi : Inv ok items s)
    (hr : s.phase = .returned) :
    ((s.received.map Prod.fst).map some : List (Option κ)).Perm items := by
  obtain ⟨hclosed, hres⟩ := hi.returned hr
  have hall := hi.closedResults hclosed
  have hmem : Worker.exited ∈ s.workers := by
    obtain ⟨x, hx⟩ := List.exists_mem_of_length_pos (by omega : 0 < s.workers.length)
    obtain ⟨w, hw, rfl⟩ := List.mem_iff_getElem.mp hx
    have := isExited_of_all hall (List.getElem?_eq_getElem hw)
    rwa [this] at hx
  obtain ⟨hjc, hjobs⟩ := hi.exited hmem
  have hcons := hi.conserved
  rw [hi.closed hjc] at hcons
  simp only [sent, hjobs, hres, sum_hand_of_exited hall, List.map_nil, Multiset.coe_nil,
    add_zero, zero_add, Multiset.map_coe] at hcons
  exact Multiset.coe_eq_coe.mp hcons

theorem length_workers_step {l : PoolLabel ρ} {s' : Pool κ ρ} (h : step cap ok s l = some s') :
    s'.workers.length = s.workers.length := by
  obtain ⟨_, hm⟩ := moves_of_step h
  cases hm <;> simp

theorem length_workers_runs (h : runs (step cap ok) (init n items) as = some s) :
    s.workers.length = n := by
  have hstep : ∀ (t : Pool κ ρ) l t', t.workers.length = n → step cap ok t l = some t' →
      t'.workers.length = n := fun t l t' ht hs => (length_workers_step hs).trans ht
  exact runs_invariant hstep h (by simp [init])

/-- **Nothing lost, nothing twice.** When the consumer has returned, the producer panicked at
    no item and the consumer has received one result of each job. -/
theorem perm_of_returned (hn : 0 < n) (h : runs (step cap ok) (init n items) as = some s)
    (hr : s.phase = .returned) :
    ((s.received.map Prod.fst).map some : List (Option κ)).Perm items ∧
      ∀ x ∈ s.received, ok x.1 (some x.2) = true :=
  ⟨items_of_returned hn (length_workers_runs h) (inv_runs h) hr, (inv_runs h).okReceived⟩

end Returned

/-! ## It always gets to an end -/

section Progress

variable {cap n : Nat} {ok : κ → Option ρ → Bool} {items : List (Option κ)} {s s' : Pool κ ρ}

/-- The moves a worker and the job in its hands still have to make. -/
def workerMoves : Worker κ ρ → Nat
  | .idle => 1
  | .busy _ => 4
  | .holds _ _ => 3
  | .exited => 0

/-- An upper bound on the moves to come. -/
def measure (s : Pool κ ρ) : Nat :=
  5 * s.pending.length + 4 * s.jobs.length + (s.workers.map workerMoves).sum +
    s.results.length + (if s.jobsClosed then 0 else 1) + (if s.resultsClosed then 0 else 1) +
    (if s.phase = .running then 1 else 0)

theorem measure_step {l : PoolLabel ρ} (h : step cap ok s l = some s') :
    measure s' < measure s := by
  obtain ⟨hrun, hm⟩ := moves_of_step h
  cases hm with
  | send j rest hp hcap =>
      simp only [measure, hp, List.length_cons, List.length_append, List.length_nil]
      omega
  | crash rest hp => simp [measure, hrun]
  | closeJobs hp hc => simp [measure, hc]
  | take w j rest hw hj =>
      have hsum := sum_map_set workerMoves (.busy j) hw
      simp only [workerMoves] at hsum
      simp only [measure, hj, List.length_cons]
      omega
  | finish w j r hw hok =>
      have hsum := sum_map_set workerMoves (.holds j r) hw
      simp only [workerMoves] at hsum
      simp only [measure]
      omega
  | workerCrash w j hw hok => simp [measure, hrun]
  | put w j r hw hcap =>
      have hsum := sum_map_set workerMoves .idle hw
      simp only [workerMoves] at hsum
      simp only [measure, List.length_append, List.length_cons, List.length_nil]
      omega
  | exit w hw hj hc =>
      have hsum := sum_map_set workerMoves .exited hw
      simp only [workerMoves] at hsum
      simp only [measure]
      omega
  | closeResults hw hc => simp [measure, hc]
  | receive x rest hr =>
      simp only [measure, hr, List.length_cons]
      omega
  | ret hr hc => simp [measure, hrun]

/-- A pool that still runs has a move. -/
theorem progress (hcap : 0 < cap) (hok : ∀ j, ∃ r, ok j r = true) (hrun : s.phase = .running) :
    ∃ l, (step cap ok s l).isSome = true := by
  -- from the consumer back to the producer: the first party that can move
  cases hres : s.results with
  | cons x rest => exact ⟨.receive, by simp [step, hrun, hres]⟩
  | nil =>
  by_cases hidle : ∃ w : Nat, s.workers[w]? = some Worker.idle
  · obtain ⟨w, hw⟩ := hidle
    cases hjobs : s.jobs with
    | cons j rest => exact ⟨.take w, by simp [step, hrun, hw, hjobs]⟩
    | nil =>
        cases hp : s.pending with
        | cons item rest =>
            cases item with
            | none => exact ⟨.send, by simp [step, hrun, hp]⟩
            | some j => exact ⟨.send, by simp [step, hrun, hp, hjobs, hcap]⟩
        | nil =>
            cases hc : s.jobsClosed with
            | false => exact ⟨.closeJobs, by simp [step, hrun, hp, hc]⟩
            | true => exact ⟨.exit w, by simp [step, hrun, hw, hjobs, hc]⟩
  · by_cases hbusy : ∃ (w : Nat) (j : κ), s.workers[w]? = some (.busy j)
    · obtain ⟨w, j, hw⟩ := hbusy
      obtain ⟨r, hr⟩ := hok j
      cases r with
      | none => exact ⟨.finish w none, by simp [step, hrun, hw, hr]⟩
      | some r => exact ⟨.finish w (some r), by simp [step, hrun, hw, hr]⟩
    · by_cases hholds : ∃ (w : Nat) (j : κ) (r : ρ), s.workers[w]? = some (.holds j r)
      · obtain ⟨w, j, r, hw⟩ := hholds
        exact ⟨.put w, by simp [step, hrun, hw, hres, hcap]⟩
      · have hall : s.workers.all isExited = true := by
          rw [List.all_eq_true]
          intro x hx
          obtain ⟨w, hw⟩ := List.mem_iff_getElem?.mp hx
          cases x with
          | idle => exact absurd ⟨w, hw⟩ hidle
          | busy j => exact absurd ⟨w, j, hw⟩ hbusy
          | holds j r => exact absurd ⟨w, j, r, hw⟩ hholds
          | exited => rfl
        cases hc : s.resultsClosed with
        | false => exact ⟨.closeResults, by simp [step, hrun, hall, hc]⟩
        | true => exact ⟨.ret, by simp [step, hrun, hres, hc]⟩

variable {as : List (PoolLabel ρ)}

/-- From every state the pool gets to an end. -/
theorem exists_end (hcap : 0 < cap) (hok : ∀ j, ∃ r, ok j r = true) (s : Pool κ ρ) :
    ∃ bs t, runs (step cap ok) s bs = some t ∧ t.phase ≠ .running := by
  have hprog : ∀ t : Pool κ ρ, True → ¬ t.phase ≠ .running → ∃ l t', step cap ok t l = some t' := by
    intro t _ hf
    obtain ⟨l, hl⟩ := progress hcap hok (not_not.mp hf)
    exact ⟨l, Option.isSome_iff_exists.mp hl⟩
  obtain ⟨bs, t, hr, _, ht⟩ := exists_run_of_progress (fun _ _ _ _ _ => trivial)
    (fun _ _ _ hs => measure_step hs) hprog s trivial
  exact ⟨bs, t, hr, ht⟩

/-- Schedules are bounded, and each can be carried on to an end. -/
def AlwaysEnds (cap n : Nat) (ok : κ → Option ρ → Bool) (items : List (Option κ)) : Prop :=
  ∃ bound, ∀ as s, runs (step cap ok) (init n items) as = some s →
    as.length ≤ bound ∧ ∃ bs t, runs (step cap ok) s bs = some t ∧ t.phase ≠ .running

/-- **No deadlock**, whatever the items and the answers are. -/
theorem alwaysEnds (hcap : 0 < cap) (hok : ∀ j, ∃ r, ok j r = true) (n : Nat)
    (items : List (Option κ)) : AlwaysEnds cap n ok items := by
  refine ⟨measure (init n items : Pool κ ρ), fun as s h => ⟨?_, exists_end hcap hok s⟩⟩
  have := runs_measure (fun _ _ _ hs => measure_step hs) h
  omega

/-- A pool that returned had no panicking item. -/
theorem none_not_mem_of_returned (hn : 0 < n)
    (h : runs (step cap ok) (init n items) as = some s) (hr : s.phase = .returned) :
    none ∉ items := by
  intro hmem
  have := (perm_of_returned hn h hr).1.mem_iff.mpr hmem
  simp at this

/-- Where nothing panics, the end is that the consumer returns. -/
theorem returned_of_end (hitems : none ∉ items) (hwork : ∀ j, some j ∈ items → ok j none = false)
    (h : runs (step cap ok) (init n items) as = some s) (hend : s.phase ≠ .running) :
    s.phase = .returned := by
  cases hp : s.phase with
  | running => exact absurd hp hend
  | returned => rfl
  | crashed =>
      rcases (inv_runs h).crashed hp with hmem | ⟨j, hj, hnone⟩
      · exact absurd hmem hitems
      · exact absurd ((hwork j hj).symm.trans hnone) (by decide)

/-- Where nothing panics every schedule can be carried on until the consumer returns. -/
theorem exists_return (hcap : 0 < cap) (hok : ∀ j, ∃ r, ok j r = true) (hitems : none ∉ items)
    (hwork : ∀ j, some j ∈ items → ok j none = false)
    (h : runs (step cap ok) (init n items) as = some s) :
    ∃ bs t, runs (step cap ok) (init n items) (as ++ bs) = some t ∧ t.phase = .returned := by
  obtain ⟨bs, t, hr, ht⟩ := exists_end hcap hok s
  have hrun := runs_append_eq_some.2 ⟨s, h, hr⟩
  exact ⟨bs, t, hrun, returned_of_end hitems hwork hrun ht⟩

/-- With an item that panics, or a job whose work can only panic, no schedule returns and every
    one can be carried on until the process ends. -/
theorem exists_crash (hcap : 0 < cap) (hn : 0 < n) (hok : ∀ j, ∃ r, ok j r = true)
    (hitems : none ∈ items ∨ ∃ j, some j ∈ items ∧ ∀ r, ok j (some r) = false)
    (h : runs (step cap ok) (init n items) as = some s) :
    ∃ bs t, runs (step cap ok) (init n items) (as ++ bs) = some t ∧ t.phase = .crashed := by
  obtain ⟨bs, t, hr, ht⟩ := exists_end hcap hok s
  have hrun := runs_append_eq_some.2 ⟨s, h, hr⟩
  refine ⟨bs, t, hrun, ?_⟩
  cases hp : t.phase with
  | running => exact absurd hp ht
  | returned =>
      rcases hitems with hmem | ⟨j, hj, hbad⟩
      · exact absurd hmem (none_not_mem_of_returned hn hrun hp)
      · obtain ⟨hperm, hall⟩ := perm_of_returned hn hrun hp
        have hj' := hperm.mem_iff.mpr hj
        simp only [List.mem_map, Option.some.injEq, exists_eq_right] at hj'
        obtain ⟨x, hx, rfl⟩ := hj'
        exact absurd ((hbad x.2).symm.trans (hall x hx)) (by decide)
  | crashed => rfl

end Progress

/-! ## A pool without workers -/

section NoWorkers

variable {cap : Nat} {ok : κ → Option ρ → Bool} {items : List (Option κ)} {s s' : Pool κ ρ}
  {as : List (PoolLabel ρ)}

/-- Nothing is in the second channel, and nothing comes. -/
def Silent (s : Pool κ ρ) : Prop := s.workers = [] ∧ s.results = [] ∧ s.received = []

theorem silent_step {l : PoolLabel ρ} (hs : Silent s) (h : step cap ok s l = some s') :
    Silent s' := by
  obtain ⟨hw, hres, hrec⟩ := hs
  have hnone : ∀ w : Nat, s.workers[w]? = none := fun w => by rw [hw]; rfl
  obtain ⟨_, hm⟩ := moves_of_step h
  cases hm with
  | take w j rest hwork _ => exact absurd hwork (by simp [hnone])
  | finish w j r hwork _ => exact absurd hwork (by simp [hnone])
  | workerCrash w j hwork _ => exact absurd hwork (by simp [hnone])
  | put w j r hwork _ => exact absurd hwork (by simp [hnone])
  | exit w hwork _ _ => exact absurd hwork (by simp [hnone])
  | receive x rest hr => exact absurd (hres.symm.trans hr) (by simp)
  | send j rest hp hcap => exact ⟨hw, hres, hrec⟩
  | crash rest hp => exact ⟨hw, hres, hrec⟩
  | closeJobs hp hc => exact ⟨hw, hres, hrec⟩
  | closeResults hall hc => exact ⟨hw, hres, hrec⟩
  | ret hr hc => exact ⟨hw, hres, hrec⟩

/-- Whatever the items are, the consumer receives nothing. -/
theorem silent_runs (h : runs (step cap ok) (init 0 items) as = some s) : Silent s :=
  runs_invariant (fun _ _ _ => silent_step) h ⟨rfl, rfl, rfl⟩

theorem progress_of_silent (hs : Silent s) (hrun : s.phase = .running) :
    ∃ l s', step cap ok s l = some s' := by
  cases hc : s.resultsClosed with
  | false => exact ⟨.closeResults, _, by simp [step, hrun, hs.1, hc]; rfl⟩
  | true => exact ⟨.ret, _, by simp [step, hrun, hs.2.1, hc]; rfl⟩

/-- The consumer does not wait for the producer, which may never get to its end. -/
theorem alwaysEnds_of_no_workers (cap : Nat) (ok : κ → Option ρ → Bool) (items : List (Option κ)) :
    AlwaysEnds cap 0 ok items := by
  refine ⟨measure (init 0 items : Pool κ ρ), fun as s h => ⟨?_, ?_⟩⟩
  · have hbound := runs_measure (fun _ _ _ hs => measure_step hs) h
    omega
  · have hend : ∃ bs t, runs (step cap ok) s bs = some t ∧ Silent t ∧ t.phase ≠ .running :=
      exists_run_of_progress (fun _ _ _ => silent_step) (fun _ _ _ hs => measure_step hs)
        (fun _ hs hf => progress_of_silent hs (not_not.mp hf)) s (silent_runs h)
    obtain ⟨bs, t, hr, _, ht⟩ := hend
    exact ⟨bs, t, hr, ht⟩

end NoWorkers

end Pool

end Kubeapps.Lib
