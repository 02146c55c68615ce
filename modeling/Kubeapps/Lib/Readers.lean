/-
  A pool of workers that read a store while others write it.

  In `Pool.step` what the work on a job answers does not depend on the moment. Here the answer is
  what the store has for the job when the work ends, and the steps of the store are interleaved
  with those of the pool. `live` says that the process still runs.

  * `received_reads`: each result was read in some state of the run.
  * `perm_of_readers`: one result of every job, as without the store.
  * `readers_end`: the pool's part of a schedule is bounded, and the pool alone can carry it on until
    the consumer returns.
-/
import Kubeapps.Lib.Pool

namespace Kubeapps.Lib

structure Readers (σ κ ρ : Type) where
  store : σ
  pool : Pool κ ρ

inductive ReadersLabel (α ρ : Type) where
  | store (a : α)
  | pool (l : PoolLabel ρ)

namespace Readers

variable {σ α κ ρ : Type} [DecidableEq ρ]

/-- The work on a job answers what is read of the store. -/
def answers (read : σ → κ → ρ) (store : σ) (j : κ) (r : Option ρ) : Bool := r = some (read store j)

/-- One step of the store or of the pool. -/
def step (storeStep : σ → α → Option σ) (live : σ → Bool) (read : σ → κ → ρ) (cap : Nat)
    (s : Readers σ κ ρ) : ReadersLabel α ρ → Option (Readers σ κ ρ)
  | .store a => (storeStep s.store a).map fun store => { s with store := store }
  | .pool l =>
      if live s.store then
        (Pool.step cap (answers read s.store) s.pool l).map fun pool => { s with pool := pool }
      else none

/-- A store, and `n` workers that are to read `items` of it. -/
def init (store : σ) (n : Nat) (items : List κ) : Readers σ κ ρ :=
  ⟨store, Pool.init n (items.map some)⟩

/-- The pool's part of a schedule. -/
def poolLabels (as : List (ReadersLabel α ρ)) : List (PoolLabel ρ) :=
  as.filterMap fun
    | .pool l => some l
    | .store _ => none

/-- Any answer but a panic. -/
def anyAnswer (_ : κ) (r : Option ρ) : Bool := r.isSome

theorem anyAnswer_of_answers {read : σ → κ → ρ} {store : σ} (j : κ) (r : Option ρ)
    (h : answers read store j r = true) : anyAnswer j r = true := by
  rw [of_decide_eq_true h]
  rfl

section Runs

variable {storeStep : σ → α → Option σ} {live : σ → Bool} {read : σ → κ → ρ} {cap n : Nat}
  {items : List κ} {store : σ} {s s' t : Readers σ κ ρ} {as : List (ReadersLabel α ρ)}

theorem step_store_cases {a : α} (h : step storeStep live read cap s (.store a) = some s') :
    ∃ store, storeStep s.store a = some store ∧ s' = { s with store := store } := by
  obtain ⟨store, hstore, rfl⟩ := Option.map_eq_some_iff.mp h
  exact ⟨store, hstore, rfl⟩

theorem step_pool_cases {l : PoolLabel ρ} (h : step storeStep live read cap s (.pool l) = some s') :
    live s.store = true ∧ ∃ pool, Pool.step cap (answers read s.store) s.pool l = some pool ∧
      s' = { s with pool := pool } := by
  dsimp only [step] at h
  split at h
  · rename_i hlive
    obtain ⟨pool, hpool, rfl⟩ := Option.map_eq_some_iff.mp h
    exact ⟨hlive, pool, hpool, rfl⟩
  · cases h

/-- The pool is one whose work may answer anything. -/
theorem pool_runs (h : runs (step storeStep live read cap) s as = some t) :
    runs (Pool.step cap anyAnswer) s.pool (poolLabels as) = some t.pool := by
  induction as generalizing s with
  | nil =>
      cases h
      rfl
  | cons a as ih =>
      obtain ⟨_, ha, h'⟩ := runs_cons_eq_some.1 h
      cases a with
      | store a =>
          obtain ⟨_, _, rfl⟩ := step_store_cases ha
          have hrest := ih h'
          exact hrest
      | pool l =>
          obtain ⟨_, pool, hpool, rfl⟩ := step_pool_cases ha
          have hrest := ih h'
          exact runs_cons_eq_some.2 ⟨pool, Pool.step_mono anyAnswer_of_answers hpool, hrest⟩

/-- The store moves on its own. -/
theorem store_runs (h : runs (step storeStep live read cap) s as = some t) :
    ∃ bs, runs storeStep s.store bs = some t.store := by
  induction as generalizing s with
  | nil =>
      cases h
      exact ⟨[], rfl⟩
  | cons a as ih =>
      obtain ⟨s', ha, h'⟩ := runs_cons_eq_some.1 h
      cases a with
      | store a =>
          obtain ⟨store', hstore, rfl⟩ := step_store_cases ha
          obtain ⟨bs, hbs⟩ := ih h'
          exact ⟨a :: bs, runs_cons_eq_some.2 ⟨store', hstore, hbs⟩⟩
      | pool l =>
          obtain ⟨_, pool, _, rfl⟩ := step_pool_cases ha
          have hrest := ih h'
          exact hrest

/-- What holds of every answer that the store can give along the run holds of the results. -/
theorem inv_of_reads {ok : κ → Option ρ → Bool} {items : List (Option κ)}
    (hok : ∀ pre u, pre <+: as → runs (step storeStep live read cap) s pre = some u →
      ∀ j, ok j (some (read u.store j)) = true)
    (h : runs (step storeStep live read cap) s as = some t) (hi : Pool.Inv ok items s.pool) :
    Pool.Inv ok items t.pool := by
  induction as generalizing s with
  | nil =>
      cases h
      exact hi
  | cons a as ih =>
      obtain ⟨s', ha, h'⟩ := runs_cons_eq_some.1 h
      have hok' : ∀ pre u, pre <+: as → runs (step storeStep live read cap) s' pre = some u →
          ∀ j, ok j (some (read u.store j)) = true := fun pre u hpre hu =>
        hok (a :: pre) u ((List.prefix_cons_inj a).mpr hpre) (runs_cons_eq_some.2 ⟨s', ha, hu⟩)
      refine ih hok' h' ?_
      cases a with
      | store a =>
          obtain ⟨_, _, rfl⟩ := step_store_cases ha
          exact hi
      | pool l =>
          obtain ⟨_, pool, hpool, rfl⟩ := step_pool_cases ha
          refine Pool.inv_step hi (Pool.step_mono (fun j r hr => ?_) hpool)
          rw [of_decide_eq_true hr]
          exact hok [] s List.nil_prefix rfl j

/-- **Every result was read.** In some state of the run the store had it for the job. -/
theorem received_reads (h : runs (step storeStep live read cap) (init store n items) as = some t) :
    ∀ x ∈ t.pool.received, ∃ pre u, pre <+: as ∧
      runs (step storeStep live read cap) (init store n items) pre = some u ∧
        x.2 = read u.store x.1 := by
  classical
  let Read (j : κ) (r : ρ) : Prop := ∃ pre u, pre <+: as ∧
    runs (step storeStep live read cap) (init store n items) pre = some u ∧ r = read u.store j
  have hinv : Pool.Inv (fun j r => decide (∃ v, r = some v ∧ Read j v)) (items.map some) t.pool :=
    inv_of_reads (fun pre u hpre hu j => decide_eq_true ⟨_, rfl, pre, u, hpre, hu, rfl⟩) h
      (Pool.inv_init _ n _)
  intro x hx
  obtain ⟨v, hv, hread⟩ := of_decide_eq_true (hinv.okReceived x hx)
  rw [Option.some.inj hv]
  exact hread

/-- One result of every job. -/
theorem perm_of_readers (hn : 0 < n)
    (h : runs (step storeStep live read cap) (init store n items) as = some t)
    (hret : t.pool.phase = .returned) : (t.pool.received.map Prod.fst).Perm items := by
  have hperm := (Pool.perm_of_returned hn (pool_runs h) hret).1
  exact (List.map_perm_map_iff fun _ _ h => Option.some.inj h).mp hperm

/-- A result belongs to one of the jobs. -/
theorem mem_of_received (h : runs (step storeStep live read cap) (init store n items) as = some t)
    {x : κ × ρ} (hx : x ∈ t.pool.received) : x.1 ∈ items := by
  have hmem := (Pool.inv_runs (pool_runs h)).mem_of_received hx
  obtain ⟨j, hj, heq⟩ := List.mem_map.mp hmem
  rwa [← Option.some.inj heq]

/-- Without workers there are no results. -/
theorem received_of_no_workers
    (h : runs (step storeStep live read cap) (init store 0 items) as = some t) :
    t.pool.received = [] := (Pool.silent_runs (pool_runs h)).2.2

/-- While the store stands still the pool runs as it does alone. -/
theorem runs_pool {bs : List (PoolLabel ρ)} {p pool : Pool κ ρ} (hlive : live store = true)
    (h : runs (Pool.step cap (answers read store)) p bs = some pool) :
    runs (step storeStep live read cap) ⟨store, p⟩ (bs.map ReadersLabel.pool) =
      some ⟨store, pool⟩ := by
  induction bs generalizing p with
  | nil =>
      cases h
      rfl
  | cons l bs ih =>
      obtain ⟨p', hp, h'⟩ := runs_cons_eq_some.1 h
      refine runs_cons_eq_some.2 ⟨⟨store, p'⟩, ?_, ih h'⟩
      dsimp only [step]
      rw [if_pos hlive, hp]
      rfl

/-- With as many workers as the channels have room for, none of either if there are no jobs, the
    pool gets to an end while the store stands still. -/
theorem pool_end (read : σ → κ → ρ) (store : σ) (hcap : n = cap) {p : Pool κ ρ} {bs : List (PoolLabel ρ)}
    (h : runs (Pool.step cap anyAnswer) (Pool.init n (items.map some)) bs = some p) :
    ∃ cs u, runs (Pool.step cap (answers read store)) p cs = some u ∧ u.phase ≠ .running := by
  subst hcap
  rcases Nat.eq_zero_or_pos n with rfl | hpos
  · have hend : ∃ cs u, runs (Pool.step 0 (answers read store)) p cs = some u ∧ Pool.Silent u ∧
        u.phase ≠ .running :=
      exists_run_of_progress (fun _ _ _ => Pool.silent_step)
        (fun _ _ _ hs => Pool.measure_step hs)
        (fun _ hs hf => Pool.progress_of_silent hs (not_not.mp hf)) p (Pool.silent_runs h)
    obtain ⟨cs, u, hr, _, hu⟩ := hend
    exact ⟨cs, u, hr, hu⟩
  · exact Pool.exists_end hpos (fun j => ⟨some (read store j), decide_eq_true rfl⟩) p

/-- **No reader hangs.** A schedule is bounded in its pool part, and from every state in which the
    process still runs the pool alone gets to where the consumer returns. -/
theorem readers_end (hcap : n = cap)
    (h : runs (step storeStep live read cap) (init store n items) as = some t) :
    (poolLabels as).length ≤
        Pool.measure (Pool.init n (items.map some) : Pool κ ρ) ∧
      (live t.store = true → ∃ (bs : List (PoolLabel ρ)) (pool : Pool κ ρ),
        runs (step storeStep live read cap) t (bs.map ReadersLabel.pool) =
            some { t with pool := pool } ∧ pool.phase = .returned) := by
  have hpool := pool_runs h
  refine ⟨?_, fun hlive => ?_⟩
  · have hmeasure := runs_measure (fun _ _ _ hs => Pool.measure_step hs) hpool
    exact Nat.le_of_add_right_le hmeasure
  · obtain ⟨bs, pool, hbs, hend⟩ := pool_end read t.store hcap hpool
    refine ⟨bs, pool, runs_pool hlive hbs, ?_⟩
    have hany : runs (Pool.step cap anyAnswer) t.pool bs = some pool :=
      runs_mono (fun _ _ _ hs => Pool.step_mono anyAnswer_of_answers hs) hbs
    refine Pool.returned_of_end (by simp) (fun _ _ => rfl)
      (runs_append_eq_some.2 ⟨t.pool, hpool, hany⟩) hend

end Runs

end Readers

end Kubeapps.Lib
