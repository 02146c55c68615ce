/-
  Schedules of a guarded step function.

  A system is a function `step : σ → α → Option σ`: `step s a` is `none` when the label
  `a` is not enabled in `s`. Whatever the environment decides (which party moves next, what
  a remote call answers) is part of the label, so a schedule is a list of labels and a run
  is a computation. `runs step s as` replays a schedule; a statement about every run is a
  statement about every list of labels.

  * `runs_invariant`: what every step preserves, every run preserves.
  * `runs_invariant_of_meet`: the same when only the steps that meet a condition on the
    state before the step are known to preserve it.
  * `runs_observed`: what every step preserves of the state and of what was seen on the way.
  * `stepsMeet_of_runs`, `always_iff_stepsMeet`: the converse, when a step that misses the
    condition breaks something that no later step repairs, or breaks it at once.
  * `runs_measure`, `exists_run_of_progress`: if every step lowers a measure, a schedule is
    bounded by it, and if every state that is not final has a step, some schedule of the
    system reaches a final state and every schedule can be extended to one that does.
-/
import Mathlib.Data.List.Basic
import Mathlib.Tactic.Cases

namespace Kubeapps.Lib

universe u v

variable {σ : Type u} {α : Type v}

/-- Replay the schedule `as` from `s`. `none` as soon as a label is not enabled. -/
def runs (step : σ → α → Option σ) : σ → List α → Option σ
  | s, [] => some s
  | s, a :: as => (step s a).bind fun s' => runs step s' as

@[simp] theorem runs_nil (step : σ → α → Option σ) (s : σ) : runs step s [] = some s := rfl

theorem runs_cons (step : σ → α → Option σ) (s : σ) (a : α) (as : List α) :
    runs step s (a :: as) = (step s a).bind fun s' => runs step s' as := rfl

theorem runs_cons_eq_some {step : σ → α → Option σ} {s t : σ} {a : α} {as : List α} :
    runs step s (a :: as) = some t ↔ ∃ s', step s a = some s' ∧ runs step s' as = some t := by
  rw [runs_cons, Option.bind_eq_some_iff]

theorem runs_append (step : σ → α → Option σ) (s : σ) (as bs : List α) :
    runs step s (as ++ bs) = (runs step s as).bind fun s' => runs step s' bs := by
  induction as generalizing s with
  | nil => rfl
  | cons a as ih =>
      rw [List.cons_append, runs_cons, runs_cons, Option.bind_assoc]
      congr 1
      funext s'
      exact ih s'

theorem runs_append_eq_some {step : σ → α → Option σ} {s t : σ} {as bs : List α} :
    runs step s (as ++ bs) = some t ↔
      ∃ s', runs step s as = some s' ∧ runs step s' bs = some t := by
  rw [runs_append, Option.bind_eq_some_iff]

/-- A step function that allows more runs every schedule of the one that allows less. -/
theorem runs_mono {step step' : σ → α → Option σ}
    (h : ∀ s a s', step s a = some s' → step' s a = some s') {s t : σ} {as : List α}
    (hr : runs step s as = some t) : runs step' s as = some t := by
  induction as generalizing s with
  | nil => exact hr
  | cons a as ih =>
      obtain ⟨s', ha, hr'⟩ := runs_cons_eq_some.1 hr
      exact runs_cons_eq_some.2 ⟨s', h s a s' ha, ih hr'⟩

/-- Every step of the schedule `as` from `s` meets `ok`, a condition on the label and on
    the state before the step. -/
def StepsMeet (step : σ → α → Option σ) (ok : σ → α → Prop) : σ → List α → Prop
  | _, [] => True
  | s, a :: as => ok s a ∧ ∀ s', step s a = some s' → StepsMeet step ok s' as

theorem stepsMeet_cons {step : σ → α → Option σ} {ok : σ → α → Prop} {s s' : σ} {a : α}
    {as : List α} (h : StepsMeet step ok s (a :: as)) (hs : step s a = some s') :
    ok s a ∧ StepsMeet step ok s' as :=
  ⟨h.1, h.2 s' hs⟩

/-- A condition on the labels alone. -/
theorem stepsMeet_of_forall {step : σ → α → Option σ} {ok : α → Prop} {s : σ} {as : List α}
    (h : ∀ a ∈ as, ok a) : StepsMeet step (fun _ a => ok a) s as := by
  induction as generalizing s with
  | nil => trivial
  | cons a as ih =>
      refine ⟨h a List.mem_cons_self, fun s' _ => ih fun b hb => ?_⟩
      exact h b (List.mem_cons_of_mem a hb)

theorem stepsMeet_mono {step : σ → α → Option σ} {ok ok' : σ → α → Prop}
    (himp : ∀ s a, ok s a → ok' s a) {s : σ} {as : List α} (h : StepsMeet step ok s as) :
    StepsMeet step ok' s as := by
  induction as generalizing s with
  | nil => trivial
  | cons a as ih => exact ⟨himp s a h.1, fun s' hs => ih (h.2 s' hs)⟩

theorem stepsMeet_and {step : σ → α → Option σ} {ok ok' : σ → α → Prop} {s : σ} {as : List α}
    (h : StepsMeet step ok s as) (h' : StepsMeet step ok' s as) :
    StepsMeet step (fun s a => ok s a ∧ ok' s a) s as := by
  induction as generalizing s with
  | nil => trivial
  | cons a as ih => exact ⟨⟨h.1, h'.1⟩, fun s' hs => ih (h.2 s' hs) (h'.2 s' hs)⟩

/-- What every step preserves holds before every step. -/
theorem stepsMeet_of_invariant {step : σ → α → Option σ} {Inv : σ → Prop}
    (hstep : ∀ s a s', Inv s → step s a = some s' → Inv s') {s : σ} (hs : Inv s) (as : List α) :
    StepsMeet step (fun s _ => Inv s) s as := by
  induction as generalizing s with
  | nil => trivial
  | cons a as ih => exact ⟨hs, fun s' ha => ih (hstep s a s' hs ha)⟩

/-- The condition checked along a schedule, for one that is decided by `check`. -/
def meets (step : σ → α → Option σ) (check : σ → α → Bool) : σ → List α → Bool
  | _, [] => true
  | s, a :: as =>
      check s a &&
        match step s a with
        | none => true
        | some s' => meets step check s' as

theorem stepsMeet_of_meets {step : σ → α → Option σ} {check : σ → α → Bool}
    {ok : σ → α → Prop} (hcheck : ∀ s a, check s a = true → ok s a) {s : σ} {as : List α}
    (h : meets step check s as = true) : StepsMeet step ok s as := by
  induction as generalizing s with
  | nil => trivial
  | cons a as ih =>
      simp only [meets, Bool.and_eq_true] at h
      refine ⟨hcheck s a h.1, fun s' hs => ih ?_⟩
      simpa [hs] using h.2

/-- Where every label is enabled, every schedule can be run. -/
theorem exists_runs {step : σ → α → Option σ} {P : σ → Prop}
    (h : ∀ s a, P s → ∃ s', step s a = some s' ∧ P s') {s : σ} (hs : P s) (as : List α) :
    ∃ t, runs step s as = some t := by
  induction as generalizing s with
  | nil => exact ⟨s, rfl⟩
  | cons a as ih =>
      obtain ⟨s', ha, hs'⟩ := h s a hs
      obtain ⟨t, hr⟩ := ih hs'
      exact ⟨t, runs_cons_eq_some.2 ⟨s', ha, hr⟩⟩

/-- What every step that meets `ok` preserves, every run whose steps meet `ok` preserves. -/
theorem runs_invariant_of_meet {step : σ → α → Option σ} {ok : σ → α → Prop} {Inv : σ → Prop}
    (hstep : ∀ s a s', Inv s → ok s a → step s a = some s' → Inv s')
    {s t : σ} {as : List α} (hm : StepsMeet step ok s as) (hr : runs step s as = some t)
    (hs : Inv s) : Inv t := by
  induction as generalizing s with
  | nil =>
      cases hr
      exact hs
  | cons a as ih =>
      obtain ⟨s', ha, hr'⟩ := runs_cons_eq_some.1 hr
      obtain ⟨hok, hm'⟩ := stepsMeet_cons hm ha
      exact ih hm' hr' (hstep s a s' hs hok ha)

/-- What every step preserves, every run preserves. -/
theorem runs_invariant {step : σ → α → Option σ} {Inv : σ → Prop}
    (hstep : ∀ s a s', Inv s → step s a = some s' → Inv s')
    {s t : σ} {as : List α} (hr : runs step s as = some t) (hs : Inv s) : Inv t := by
  induction as generalizing s with
  | nil =>
      cases hr
      exact hs
  | cons a as ih =>
      obtain ⟨s', ha, hr'⟩ := runs_cons_eq_some.1 hr
      exact ih hr' (hstep s a s' hs ha)

/-- If a step from `Inv` that misses `ok` makes `Bad` true and no step repairs it, a run that does
    not end in `Bad` meets `ok`. -/
theorem stepsMeet_of_runs {step : σ → α → Option σ} {ok : σ → α → Prop} {Inv Bad : σ → Prop}
    (hinv : ∀ s a s', Inv s → step s a = some s' → Inv s')
    (hmiss : ∀ s a s', Inv s → ¬ ok s a → step s a = some s' → Bad s')
    (hkeep : ∀ s a s', Bad s → step s a = some s' → Bad s')
    {s t : σ} {as : List α} (hr : runs step s as = some t) (hs : Inv s) (ht : ¬ Bad t) :
    StepsMeet step ok s as := by
  induction as generalizing s with
  | nil => trivial
  | cons a as ih =>
      obtain ⟨s', ha, hr'⟩ := runs_cons_eq_some.1 hr
      have hok : ok s a := by
        by_contra hno
        exact ht (runs_invariant hkeep hr' (hmiss s a s' hs hno ha))
      refine ⟨hok, fun s'' hs'' => ?_⟩
      have heq : s' = s'' := Option.some.inj (ha.symm.trans hs'')
      rw [← heq]
      exact ih hr' (hinv s a s' hs ha)

/-- `P` holds in every state of the run of `as` from `s`. -/
def Always (step : σ → α → Option σ) (P : σ → Prop) (s : σ) (as : List α) : Prop :=
  ∀ pre t, pre <+: as → runs step s pre = some t → P t

/-- If a step that meets `ok` keeps `Inv`, which gives `P`, and one that misses `ok` ends outside
    `P`, then `P` holds all along a run exactly if every step of it meets `ok`. -/
theorem always_iff_stepsMeet {step : σ → α → Option σ} {ok : σ → α → Prop} {Inv P : σ → Prop}
    (hP : ∀ s, Inv s → P s) (hkeep : ∀ s a s', Inv s → ok s a → step s a = some s' → Inv s')
    (hmiss : ∀ s a s', Inv s → ¬ ok s a → step s a = some s' → ¬ P s')
    {s t : σ} {as : List α} (hr : runs step s as = some t) (hs : Inv s) :
    Always step P s as ↔ StepsMeet step ok s as := by
  induction as generalizing s with
  | nil =>
      refine ⟨fun _ => trivial, fun _ pre u hpre hu => ?_⟩
      rw [List.prefix_nil.mp hpre, runs_nil] at hu
      exact hP u (Option.some.inj hu ▸ hs)
  | cons a as ih =>
      obtain ⟨s', ha, hr'⟩ := runs_cons_eq_some.1 hr
      constructor
      · intro hall
        have hok : ok s a := by
          by_contra hno
          refine hmiss s a s' hs hno ha (hall [a] s' ?_ ?_)
          · exact List.prefix_append [a] as
          · rw [runs_cons_eq_some]
            exact ⟨s', ha, rfl⟩
        refine ⟨hok, fun s'' hs'' => ?_⟩
        have heq : s' = s'' := Option.some.inj (ha.symm.trans hs'')
        rw [← heq]
        refine (ih hr' (hkeep s a s' hs hok ha)).mp fun pre u hpre hu => ?_
        exact hall (a :: pre) u ((List.prefix_cons_inj a).mpr hpre)
          (runs_cons_eq_some.2 ⟨s', ha, hu⟩)
      · intro hmeet pre u hpre hu
        obtain ⟨hok, hmeet'⟩ := stepsMeet_cons hmeet ha
        cases pre with
        | nil => exact hP u (Option.some.inj hu ▸ hs)
        | cons b pre =>
            obtain ⟨hb, hpre'⟩ := List.cons_prefix_cons.mp hpre
            rw [hb] at hu
            obtain ⟨s'', hs'', hu'⟩ := runs_cons_eq_some.1 hu
            have heq : s' = s'' := Option.some.inj (ha.symm.trans hs'')
            rw [← heq] at hu'
            exact (ih hr' (hkeep s a s' hs hok ha)).mpr hmeet' pre u hpre' hu'

/-- What `obs` shows of the steps of a schedule, in their order. It sees the states on both sides
    of a step. -/
def observed {ε : Type} (step : σ → α → Option σ) (obs : σ → α → σ → Option ε) :
    σ → List α → List ε
  | _, [] => []
  | s, a :: as =>
      match step s a with
      | none => []
      | some s' => (obs s a s').toList ++ observed step obs s' as

/-- What holds of the steps seen so far and of the state holds of a whole run. -/
theorem runs_observed {ε : Type} {step : σ → α → Option σ} {obs : σ → α → σ → Option ε}
    {Inv : List ε → σ → Prop}
    (hstep : ∀ log s a s', Inv log s → step s a = some s' → Inv (log ++ (obs s a s').toList) s')
    {s t : σ} {as : List α} (hr : runs step s as = some t) {log : List ε} (hs : Inv log s) :
    Inv (log ++ observed step obs s as) t := by
  induction as generalizing s log with
  | nil =>
      cases hr
      rw [observed, List.append_nil]
      exact hs
  | cons a as ih =>
      obtain ⟨s', ha, hr'⟩ := runs_cons_eq_some.1 hr
      have hlog : observed step obs s (a :: as) =
          (obs s a s').toList ++ observed step obs s' as := by
        rw [observed, ha]
      rw [hlog, ← List.append_assoc]
      exact ih hr' (hstep log s a s' hs ha)

/-- If every step lowers `μ`, a schedule has at most `μ s` labels. -/
theorem runs_measure {step : σ → α → Option σ} {μ : σ → Nat}
    (hμ : ∀ s a s', step s a = some s' → μ s' < μ s)
    {s t : σ} {as : List α} (hr : runs step s as = some t) : as.length + μ t ≤ μ s := by
  induction as generalizing s with
  | nil =>
      cases hr
      simp
  | cons a as ih =>
      obtain ⟨s', ha, hr'⟩ := runs_cons_eq_some.1 hr
      have h1 := hμ s a s' ha
      have h2 := ih hr'
      simp only [List.length_cons]
      omega

/-- If every step keeps `Inv` and lowers `μ`, and every state of `Inv` that is not final
    has an enabled label, then from every state of `Inv` some schedule reaches a final
    state. -/
theorem exists_run_of_progress {step : σ → α → Option σ} {Inv Final : σ → Prop} {μ : σ → Nat}
    (hinv : ∀ s a s', Inv s → step s a = some s' → Inv s')
    (hμ : ∀ s a s', step s a = some s' → μ s' < μ s)
    (hprog : ∀ s, Inv s → ¬ Final s → ∃ a s', step s a = some s') (s : σ) (hs : Inv s) :
    ∃ as t, runs step s as = some t ∧ Inv t ∧ Final t := by
  induction hn : μ s using Nat.strongRecOn generalizing s with
  | ind n ih =>
      by_cases hf : Final s
      · exact ⟨[], s, rfl, hs, hf⟩
      · obtain ⟨a, s', ha⟩ := hprog s hs hf
        have hlt := hμ s a s' ha
        obtain ⟨as, t, hr, ht, hft⟩ := ih (μ s') (by omega) s' (hinv s a s' hs ha) rfl
        exact ⟨a :: as, t, runs_cons_eq_some.2 ⟨s', ha, hr⟩, ht, hft⟩

end Kubeapps.Lib
