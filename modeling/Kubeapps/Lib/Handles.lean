/-
  Tables of handles.

  A program keeps, under a key, the handle of each object that it has started: a connection, a
  timer, a file. `Linked key handles objects` says that the table and the objects that are running
  fit: the handle under a key is that of the object of the key. So no object runs without a handle,
  no handle is stale, and there is at most one object for a key.

  Starting an object for a key without a handle keeps this, and so does stopping what a key has.
-/
import Mathlib.Logic.Function.Basic

namespace Kubeapps.Lib

universe u v w

variable {κ : Type u} {ι : Type v} {β : Type w} {key : β → κ} {handles : κ → Option ι}
  {objects : ι → Option β}

/-- The handle under a key is that of the object of the key. -/
def Linked (key : β → κ) (handles : κ → Option ι) (objects : ι → Option β) : Prop :=
  ∀ k i, handles k = some i ↔ ∃ b, objects i = some b ∧ key b = k

theorem linked_empty : Linked key (fun _ => none : κ → Option ι) fun _ => none := by
  intro k i
  constructor
  · exact fun h => nomatch h
  · exact fun ⟨_, h, _⟩ => nomatch h

theorem linked_handle (h : Linked key handles objects) {i : ι} {b : β} (hi : objects i = some b) :
    handles (key b) = some i := (h (key b) i).mpr ⟨b, hi, rfl⟩

theorem linked_object (h : Linked key handles objects) {k : κ} {i : ι} (hk : handles k = some i) :
    ∃ b, objects i = some b ∧ key b = k := (h k i).mp hk

/-- An object is running exactly if some key has its handle. -/
theorem linked_isSome (h : Linked key handles objects) (i : ι) :
    (objects i).isSome = true ↔ ∃ k, handles k = some i := by
  rw [Option.isSome_iff_exists]
  constructor
  · intro ⟨b, hb⟩
    exact ⟨key b, linked_handle h hb⟩
  · intro ⟨k, hk⟩
    obtain ⟨b, hb, _⟩ := linked_object h hk
    exact ⟨b, hb⟩

/-- No object of a key without a handle is running. -/
theorem linked_ne (h : Linked key handles objects) {k : κ} (hk : handles k = none) {i : ι} {b : β}
    (hi : objects i = some b) : key b ≠ k := by
  intro heq
  have hb := linked_handle h hi
  rw [heq, hk] at hb
  exact nomatch hb

variable [DecidableEq κ] [DecidableEq ι]

/-- Starting an object, with a handle that is not in use, for a key that has none. -/
theorem linked_start (h : Linked key handles objects) {b : β} {i : ι} (hfresh : objects i = none)
    (hnone : handles (key b) = none) :
    Linked key (Function.update handles (key b) (some i))
      (Function.update objects i (some b)) := by
  intro k j
  by_cases hk : k = key b
  · rw [hk, Function.update_self]
    constructor
    · intro hi
      rw [← Option.some.inj hi, Function.update_self]
      exact ⟨b, rfl, rfl⟩
    · intro ⟨c, hc, hkey⟩
      by_cases hj : j = i
      · rw [hj]
      · rw [Function.update_of_ne hj] at hc
        exact absurd hkey (linked_ne h hnone hc)
  · rw [Function.update_of_ne hk, h k j]
    by_cases hj : j = i
    · rw [hj, Function.update_self, hfresh]
      constructor
      · exact fun ⟨_, hc, _⟩ => nomatch hc
      · intro ⟨c, hc, hkey⟩
        rw [← Option.some.inj hc] at hkey
        exact absurd hkey.symm hk
    · rw [Function.update_of_ne hj]

/-- Stopping the object of a key. -/
theorem linked_stop (h : Linked key handles objects) {k : κ} {i : ι} (hk : handles k = some i) :
    Linked key (Function.update handles k none) (Function.update objects i none) := by
  obtain ⟨b, hb, hkey⟩ := linked_object h hk
  intro k' j
  by_cases hj : j = i
  · rw [hj, Function.update_self]
    constructor
    · intro hi
      by_cases hk' : k' = k
      · rw [hk', Function.update_self] at hi
        exact nomatch hi
      · rw [Function.update_of_ne hk'] at hi
        obtain ⟨c, hc, hkey'⟩ := linked_object h hi
        rw [hb] at hc
        rw [← Option.some.inj hc, hkey] at hkey'
        exact absurd hkey'.symm hk'
    · exact fun ⟨_, hc, _⟩ => nomatch hc
  · rw [Function.update_of_ne hj, ← h k' j]
    by_cases hk' : k' = k
    · rw [hk', Function.update_self, hk]
      constructor
      · exact fun hi => nomatch hi
      · exact fun hi => absurd (Option.some.inj hi).symm hj
    · rw [Function.update_of_ne hk']

end Kubeapps.Lib
