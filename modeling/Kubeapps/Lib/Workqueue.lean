/-
  The rate limited work queue of client-go (`k8s.io/client-go/util/workqueue`), after its
  documentation.

  An item that is to be processed is `dirty`. It waits in `queue` unless it is in `processing`: an
  item is never given to two workers, and one that is added while a worker has it goes back to
  the queue only at its `done`. `done` does not put back an item that was not added in the
  meantime. `addRateLimited` adds an item after a delay, which is not modelled: the item is in
  `waiting`, and `fire` is the end of its delay. `forget` only makes the next delay of an item a
  short one.

  `Pending`: the item is to be processed, now or after a delay.
-/
import Mathlib.Data.Finset.Insert
import Mathlib.Data.Finset.Erase
import Mathlib.Data.List.Nodup

namespace Kubeapps.Lib

structure Workqueue (κ : Type) [DecidableEq κ] where
  queue : List κ
  dirty : Finset κ
  processing : Finset κ
  waiting : Finset κ
  failures : κ → Nat
  nodup : queue.Nodup
  mem_queue : ∀ k, k ∈ queue ↔ k ∈ dirty ∧ k ∉ processing

namespace Workqueue

variable {κ : Type} [DecidableEq κ]

def empty : Workqueue κ where
  queue := []
  dirty := ∅
  processing := ∅
  waiting := ∅
  failures _ := 0
  nodup := List.nodup_nil
  mem_queue k := by simp

def add (q : Workqueue κ) (k : κ) : Workqueue κ :=
  if hdirty : k ∈ q.dirty then q
  else {
    queue := if k ∈ q.processing then q.queue else q.queue ++ [k]
    dirty := insert k q.dirty
    processing := q.processing
    waiting := q.waiting
    failures := q.failures
    nodup := by
      split
      · exact q.nodup
      · have hnot : k ∉ q.queue := fun hmem => hdirty ((q.mem_queue k).mp hmem).1
        rw [List.nodup_append]
        refine ⟨q.nodup, List.nodup_singleton k, fun x hx y hy => ?_⟩
        rw [List.mem_singleton.mp hy]
        exact fun heq => hnot (heq ▸ hx)
    mem_queue := by
      intro x
      by_cases hx : x = k
      · subst hx
        by_cases hproc : x ∈ q.processing
        · have hnot : x ∉ q.queue := fun hmem => hdirty ((q.mem_queue x).mp hmem).1
          simp [hproc, hnot]
        · simp [hproc]
      · by_cases hproc : k ∈ q.processing
        · simp [hproc, hx, q.mem_queue x]
        · simp [hproc, hx, q.mem_queue x] }

def addRateLimited (q : Workqueue κ) (k : κ) : Workqueue κ :=
  { q with
    waiting := insert k q.waiting
    failures := fun x => if x = k then q.failures k + 1 else q.failures x }

/-- The delay of an item is over. -/
def fire (q : Workqueue κ) (k : κ) : Option (Workqueue κ) :=
  if k ∈ q.waiting then some { q.add k with waiting := q.waiting.erase k } else none

/-- The next item, if there is one. -/
def get (q : Workqueue κ) : Option (κ × Workqueue κ) :=
  match h : q.queue with
  | [] => none
  | k :: rest => some (k, {
      queue := rest
      dirty := q.dirty.erase k
      processing := insert k q.processing
      waiting := q.waiting
      failures := q.failures
      nodup := by
        have hnodup := q.nodup
        rw [h] at hnodup
        exact (List.nodup_cons.mp hnodup).2
      mem_queue := by
        intro x
        have hnodup := q.nodup
        rw [h] at hnodup
        have hmem := q.mem_queue x
        rw [h, List.mem_cons] at hmem
        by_cases hx : x = k
        · subst hx
          simp [(List.nodup_cons.mp hnodup).1]
        · simpa [hx] using hmem })

def done (q : Workqueue κ) (k : κ) : Workqueue κ where
  queue := if k ∈ q.processing ∧ k ∈ q.dirty then q.queue ++ [k] else q.queue
  dirty := q.dirty
  processing := q.processing.erase k
  waiting := q.waiting
  failures := q.failures
  nodup := by
    split
    · rename_i hback
      have hnot : k ∉ q.queue := fun hmem => ((q.mem_queue k).mp hmem).2 hback.1
      rw [List.nodup_append]
      refine ⟨q.nodup, List.nodup_singleton k, fun x hx y hy => ?_⟩
      rw [List.mem_singleton.mp hy]
      exact fun heq => hnot (heq ▸ hx)
    · exact q.nodup
  mem_queue x := by
    have hmem := q.mem_queue x
    by_cases hx : x = k
    · subst hx
      by_cases hproc : x ∈ q.processing
      · by_cases hdirty : x ∈ q.dirty
        · simp [hproc, hdirty]
        · simp [hproc, hdirty, hmem]
      · simp [hproc, hmem]
    · by_cases hback : k ∈ q.processing ∧ k ∈ q.dirty
      · simp [hback, hx, hmem]
      · simp [hback, hx, hmem]

def forget (q : Workqueue κ) (k : κ) : Workqueue κ :=
  { q with failures := fun x => if x = k then 0 else q.failures x }

/-! ## What the operations change -/

variable (q : Workqueue κ) (k : κ)

@[simp] theorem dirty_add : (q.add k).dirty = insert k q.dirty := by
  unfold add
  split
  · rename_i hdirty
    rw [Finset.insert_eq_of_mem hdirty]
  · rfl

@[simp] theorem processing_add : (q.add k).processing = q.processing := by
  unfold add
  split <;> rfl

@[simp] theorem dirty_addRateLimited : (q.addRateLimited k).dirty = q.dirty := rfl

@[simp] theorem processing_addRateLimited : (q.addRateLimited k).processing = q.processing := rfl

@[simp] theorem waiting_addRateLimited : (q.addRateLimited k).waiting = insert k q.waiting := rfl

@[simp] theorem dirty_done : (q.done k).dirty = q.dirty := rfl

@[simp] theorem processing_done : (q.done k).processing = q.processing.erase k := rfl

@[simp] theorem waiting_done : (q.done k).waiting = q.waiting := rfl

variable {q k}

theorem fire_eq_some {q' : Workqueue κ} (h : q.fire k = some q') :
    k ∈ q.waiting ∧ q'.dirty = insert k q.dirty ∧ q'.processing = q.processing ∧
      q'.waiting = q.waiting.erase k := by
  unfold fire at h
  split at h
  · rename_i hwait
    have hq := Option.some.inj h
    subst hq
    exact ⟨hwait, dirty_add q k, processing_add q k, rfl⟩
  · simp at h

theorem get_eq_some {q' : Workqueue κ} (h : q.get = some (k, q')) :
    k ∈ q.dirty ∧ k ∉ q.processing ∧ q'.dirty = q.dirty.erase k ∧
      q'.processing = insert k q.processing ∧ q'.waiting = q.waiting := by
  unfold get at h
  split at h
  · simp at h
  · rename_i x rest hqueue
    obtain ⟨hk, hq⟩ := Prod.mk.inj (Option.some.inj h)
    subst hk hq
    have hmem := (q.mem_queue x).mp (by rw [hqueue]; exact List.mem_cons_self)
    exact ⟨hmem.1, hmem.2, rfl, rfl, rfl⟩

theorem exists_fire (h : k ∈ q.waiting) :
    ∃ q', q.fire k = some q' ∧ q'.queue = (q.add k).queue := by
  unfold fire
  rw [if_pos h]
  exact ⟨_, rfl, rfl⟩

theorem exists_get {rest : List κ} (h : q.queue = k :: rest) : ∃ q', q.get = some (k, q') := by
  unfold get
  split
  · rename_i hnil
    rw [h] at hnil
    simp at hnil
  · rename_i x rest' hcons
    have hx : x = k := (List.cons.inj (hcons.symm.trans h)).1
    subst hx
    exact ⟨_, rfl⟩

/-- The first item of all is given to the first worker. -/
theorem get_of_empty (k : κ) :
    ∃ q q', (empty.addRateLimited k).fire k = some q ∧ q.get = some (k, q') := by
  have hwait : k ∈ (empty.addRateLimited k).waiting := by simp
  obtain ⟨q, hfire, hqueue⟩ := exists_fire hwait
  have hone : q.queue = [k] := by
    rw [hqueue]
    simp [add, addRateLimited, empty]
  obtain ⟨q', hget⟩ := exists_get hone
  exact ⟨q, q', hfire, hget⟩

/-! ## Pending items -/

/-- The item is to be processed, now or after a delay. -/
def Pending (q : Workqueue κ) (k : κ) : Prop := k ∈ q.dirty ∨ k ∈ q.waiting

instance (q : Workqueue κ) (k : κ) : Decidable (q.Pending k) :=
  inferInstanceAs (Decidable (_ ∨ _))

theorem pending_addRateLimited {x : κ} :
    (q.addRateLimited k).Pending x ↔ x = k ∨ q.Pending x := by
  unfold Pending
  simp only [dirty_addRateLimited, waiting_addRateLimited, Finset.mem_insert]
  tauto

theorem pending_fire {q' : Workqueue κ} (h : q.fire k = some q') {x : κ} :
    q'.Pending x ↔ q.Pending x := by
  obtain ⟨hwait, hdirty, _, hwaiting⟩ := fire_eq_some h
  unfold Pending
  rw [hdirty, hwaiting, Finset.mem_insert, Finset.mem_erase]
  by_cases hx : x = k
  · subst hx
    simp [hwait]
  · simp [hx]

theorem pending_get {q' : Workqueue κ} (h : q.get = some (k, q')) {x : κ} (hx : x ≠ k) :
    q'.Pending x ↔ q.Pending x := by
  obtain ⟨_, _, hdirty, _, hwaiting⟩ := get_eq_some h
  unfold Pending
  rw [hdirty, hwaiting, Finset.mem_erase]
  simp [hx]

end Workqueue

end Kubeapps.Lib
