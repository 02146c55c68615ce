/-
  What the models need of Go.

  `Go α` is the outcome of a call: a value, an error, or a panic. A panic is not an error: no
  caller in these programs recovers one, so it ends the process.

  `Value` is an `interface{}` tree as JSON decoding builds it. A map is its list of entries.

  `Runtime` is what the language leaves open: the order in which `range` visits a map, and
  where `sort.Sort` and `sort.Slice` put elements that compare equal (neither is stable). A
  theorem for every `Runtime` is one for every such choice. `Runtime.stable` is one of them.
-/
import Mathlib.Data.List.Sort
import Mathlib.Logic.Function.Basic

namespace Kubeapps.Lib

/-- How a Go call can fail to return a value. -/
inductive Fail where
  | error (msg : String)
  | panic (msg : String)
  deriving DecidableEq, Repr

abbrev Go (α : Type) := Except Fail α

/-- An index or a nil dereference that Go turns into a panic. -/
def panics {α : Type} (msg : String) : Go α := .error (.panic msg)

def errors {α : Type} (msg : String) : Go α := .error (.error msg)

/-- The outcome is a panic. -/
def Panics {α : Type} (x : Go α) : Prop := ∃ msg, x = .error (.panic msg)

instance {α : Type} (x : Go α) : Decidable (Panics x) :=
  match x with
  | .ok _ => .isFalse fun ⟨_, h⟩ => nomatch h
  | .error (.error _) => .isFalse fun ⟨_, h⟩ => nomatch h
  | .error (.panic msg) => .isTrue ⟨msg, rfl⟩

theorem not_panics_ok {α : Type} (a : α) : ¬ Panics (.ok a : Go α) := by
  rintro ⟨msg, h⟩
  cases h

theorem not_panics_errors {α : Type} (msg : String) : ¬ Panics (errors msg : Go α) := by
  rintro ⟨msg', h⟩
  cases h

/-- A call that can only return a value or an error. -/
def liftErr {α : Type} : Except String α → Go α
  | .ok a => .ok a
  | .error e => .error (.error e)

theorem not_panics_liftErr {α : Type} (x : Except String α) : ¬ Panics (liftErr x) := by
  rintro ⟨msg, h⟩
  cases x <;> cases h

/-- A sequence that returns a value returned one at every stage. -/
theorem bind_eq_ok {ε α γ : Type} {x : Except ε α} {f : α → Except ε γ} {b : γ}
    (h : (x >>= f) = .ok b) : ∃ a, x = .ok a ∧ f a = .ok b := by
  cases x with
  | error e => cases h
  | ok a => exact ⟨a, rfl, h⟩

/-- A sequence that fails failed at one of its stages. -/
theorem bind_eq_error {ε α γ : Type} {x : Except ε α} {f : α → Except ε γ} {e : ε}
    (h : (x >>= f) = .error e) : x = .error e ∨ ∃ a, x = .ok a ∧ f a = .error e := by
  cases x with
  | error e' => exact .inl (by rw [Except.error.inj h])
  | ok a => exact .inr ⟨a, rfl, h⟩

/-- A loop whose calls all return a value. -/
theorem mapM_of_ok {ε α γ : Type} {f : α → Except ε γ} {g : α → γ} {xs : List α}
    (h : ∀ x ∈ xs, f x = .ok (g x)) : xs.mapM f = .ok (xs.map g) := by
  induction xs with
  | nil => rfl
  | cons x xs ih =>
      rw [List.forall_mem_cons] at h
      rw [List.mapM_cons, h.1, ih h.2]
      rfl

/-- A loop that returns values got one from every call. -/
theorem mapM_eq_ok {ε α γ : Type} {f : α → Except ε γ} {xs : List α} {ys : List γ}
    (h : xs.mapM f = .ok ys) : ∀ x ∈ xs, ∃ y ∈ ys, f x = .ok y := by
  induction xs generalizing ys with
  | nil => exact fun x hx => absurd hx List.not_mem_nil
  | cons x xs ih =>
      rw [List.mapM_cons] at h
      obtain ⟨y, hy, hrest⟩ := bind_eq_ok h
      obtain ⟨ys', hys', hret⟩ := bind_eq_ok hrest
      obtain rfl := Except.ok.inj hret
      rw [List.forall_mem_cons]
      refine ⟨⟨y, List.mem_cons_self, hy⟩, fun x' hx' => ?_⟩
      obtain ⟨y', hmem, hy'⟩ := ih hys' x' hx'
      exact ⟨y', List.mem_cons_of_mem y hmem, hy'⟩

/-- A value that a loop returned came from one of its calls. -/
theorem exists_of_mem_mapM {ε α γ : Type} {f : α → Except ε γ} {xs : List α} {ys : List γ}
    (h : xs.mapM f = .ok ys) {y : γ} (hy : y ∈ ys) : ∃ x ∈ xs, f x = .ok y := by
  induction xs generalizing ys with
  | nil =>
      cases h
      cases hy
  | cons x xs ih =>
      rw [List.mapM_cons] at h
      obtain ⟨y', hy', hrest⟩ := bind_eq_ok h
      obtain ⟨ys', hys', hret⟩ := bind_eq_ok hrest
      obtain rfl := Except.ok.inj hret
      rcases List.mem_cons.mp hy with rfl | hy
      · exact ⟨x, List.mem_cons_self, hy'⟩
      · obtain ⟨x', hmem, hx'⟩ := ih hys' hy
        exact ⟨x', List.mem_cons_of_mem x hmem, hx'⟩

/-- `xs[0]`. -/
def index0 {α : Type} : List α → Go α
  | [] => panics "index out of range [0] with length 0"
  | x :: _ => .ok x

/-- The call returns a value or panics. -/
def OnlyPanics {α : Type} (x : Go α) : Prop := ∀ f, x = .error f → ∃ msg, f = .panic msg

theorem onlyPanics_ok {α : Type} (a : α) : OnlyPanics (.ok a : Go α) := by
  intro f h
  cases h

theorem onlyPanics_panics {α : Type} (msg : String) : OnlyPanics (panics msg : Go α) := by
  intro f h
  exact ⟨msg, (Except.error.inj h).symm⟩

theorem onlyPanics_index0 {α : Type} (xs : List α) : OnlyPanics (index0 xs) := by
  cases xs with
  | nil => exact onlyPanics_panics _
  | cons x xs => exact onlyPanics_ok x

theorem onlyPanics_bind {α γ : Type} {x : Go α} {f : α → Go γ} (hx : OnlyPanics x)
    (hf : ∀ a, OnlyPanics (f a)) : OnlyPanics (x >>= f) := by
  intro e h
  rcases bind_eq_error h with hx' | ⟨a, _, ha⟩
  · exact hx e hx'
  · exact hf a e ha

theorem onlyPanics_mapM {α γ : Type} {f : α → Go γ} (hf : ∀ a, OnlyPanics (f a)) (xs : List α) :
    OnlyPanics (xs.mapM f) := by
  induction xs with
  | nil => exact onlyPanics_ok []
  | cons x xs ih =>
      rw [List.mapM_cons]
      exact onlyPanics_bind (hf x) fun y => onlyPanics_bind ih fun ys => onlyPanics_ok _

/-- A value of `interface{}` as `encoding/json` builds it. -/
inductive Value where
  | nil
  | bool (b : Bool)
  | int64 (n : Int)
  | float64 (text : String)
  | string (s : String)
  | slice (xs : List Value)
  | map (entries : List (String × Value))

/-- `m[key]` on the entries of a map. -/
def lookup {α : Type} (key : String) : List (String × α) → Option α
  | [] => none
  | (k, v) :: rest => if k = key then some v else lookup key rest

/-- A map as a function to `Option`: what holds of every entry, after one is put or removed. -/
theorem forall_update {κ α : Type} [DecidableEq κ] {m : κ → Option α} {P : κ → α → Prop}
    (h : ∀ k a, m k = some a → P k a) {k : κ} {new : Option α} (hnew : ∀ a, new = some a → P k a)
    (k' : κ) (a : α) (ha : Function.update m k new k' = some a) : P k' a := by
  by_cases hk : k' = k
  · subst hk
    rw [Function.update_self] at ha
    exact hnew a ha
  · rw [Function.update_of_ne hk] at ha
    exact h k' a ha

/-- What Go does not fix. `less` is what the program passes to `sort`; the result is ordered
    when `less` is a strict weak order. -/
structure Runtime where
  range : {α : Type} → List α → List α
  range_perm : ∀ {α : Type} (l : List α), (range l).Perm l
  sort : {α : Type} → (α → α → Bool) → List α → List α
  sort_perm : ∀ {α : Type} (less : α → α → Bool) (l : List α), (sort less l).Perm l
  sort_ordered : ∀ {α : Type} (less : α → α → Bool) (l : List α),
    (∀ a b, less a b = true → less b a = false) →
    (∀ a b c, less a b = false → less b c = false → less a c = false) →
    (sort less l).Pairwise fun a b => less b a = false

/-- Maps in the order they were built, and a stable sort. -/
def Runtime.stable : Runtime where
  range l := l
  range_perm l := List.Perm.refl l
  sort less l := l.insertionSort fun a b => less b a = false
  sort_perm less l := List.perm_insertionSort _ l
  sort_ordered less l hasymm htrans := by
    have hle : ∀ a b, less b a = false ∨ less a b = false := by
      intro a b
      cases hba : less b a with
      | false => exact .inl rfl
      | true => exact .inr (hasymm b a hba)
    have : Std.Total fun a b => less b a = false := ⟨hle⟩
    have : IsTrans _ fun a b => less b a = false :=
      ⟨fun a b c hab hbc => htrans c b a hbc hab⟩
    exact List.pairwise_insertionSort _ l

end Kubeapps.Lib
