/-
  `packageAppVersionsSummary` against a selection that does not depend on what was taken before:
  an entry is in the summary if its major is among the first majors of the list, its minor among
  the first minors of that major, and few entries of the same minor come before it.

  The loop keeps the versions it has taken. `Counts` says what these tell of all the versions seen:
  the same first majors, the same first minors of each, and as many patches as there is room for.
  In a list with the newest versions first, the first ones are the newest (`chosen_iff_newest`).
-/
import Kubeapps.HelmPlugin.Details
import Kubeapps.Lib.Firsts
import Kubeapps.Lib.Semver
import Mathlib.Data.List.Dedup

namespace Kubeapps.HelmPlugin

open Kubeapps.Lib Kubeapps.Models Kubeapps.Assetsvc

/-! ## The selection -/

/-- The minors of one major. -/
def minorsOf (m : Int) (ws : List VersionNumbers) : List Int :=
  (ws.filter fun w => w.major = m).map VersionNumbers.minor

/-- The number of entries of one minor. -/
def patchCount (m k : Int) (ws : List VersionNumbers) : Nat :=
  ws.countP fun w => w.major = m ∧ w.minor = k

/-- Entry `i` of the versions `ws`, which is `w`, is one of the first patches of the first minors of
    the first majors. -/
def Chosen (ws : List VersionNumbers) (i : Nat) (w : VersionNumbers) : Prop :=
  w.major ∈ firsts majorVersionsInSummary (ws.map VersionNumbers.major) ∧
    w.minor ∈ firsts minorVersionsInSummary (minorsOf w.major ws) ∧
    patchCount w.major w.minor (ws.take i) < patchVersionsInSummary

instance (ws : List VersionNumbers) (i : Nat) (w : VersionNumbers) : Decidable (Chosen ws i w) :=
  inferInstanceAs (Decidable (_ ∧ _ ∧ _))

/-- Entry `i` is one of the newest patches of the newest minors of the newest majors. Of equal
    numbers (a release and its pre-releases) the earlier entry is the newer one. -/
def Newest (ws : List VersionNumbers) (i : Nat) (w : VersionNumbers) : Prop :=
  ((ws.map VersionNumbers.major).filter (w.major < ·)).eraseDups.length < majorVersionsInSummary ∧
    ((minorsOf w.major ws).filter (w.minor < ·)).eraseDups.length < minorVersionsInSummary ∧
    (ws.zipIdx.countP fun x => (x.1.major = w.major ∧ x.1.minor = w.minor) ∧
      (w.patch < x.1.patch ∨ x.1.patch = w.patch ∧ x.2 < i)) < patchVersionsInSummary

instance (ws : List VersionNumbers) (i : Nat) (w : VersionNumbers) : Decidable (Newest ws i w) :=
  inferInstanceAs (Decidable (_ ∧ _ ∧ _))

/-- The entries whose version parses, with its numbers. -/
def parsed (newVersion : String → Option VersionNumbers) (versions : List ChartVersion) :
    List (VersionNumbers × ChartVersion) :=
  versions.filterMap fun v => (newVersion v.version).map (·, v)

/-- The entries of `es` that satisfy `p`, by the numbers of all, in their order. -/
def selection (p : List VersionNumbers → Nat → VersionNumbers → Bool)
    (es : List (VersionNumbers × ChartVersion)) : List PackageAppVersion :=
  (es.zipIdx.filter fun e => p (es.map Prod.fst) e.2 e.1.1).map fun e =>
    ⟨e.1.2.version, e.1.2.appVersion⟩

/-- The newest versions come first. -/
def NewestFirst (ws : List VersionNumbers) : Prop :=
  ws.Pairwise fun a b => b.major < a.major ∨ b.major = a.major ∧
    (b.minor < a.minor ∨ b.minor = a.minor ∧ b.patch ≤ a.patch)

instance (ws : List VersionNumbers) : Decidable (NewestFirst ws) :=
  inferInstanceAs (Decidable (ws.Pairwise _))

/-! ## What has been taken -/

section Counts

variable {done taken ws rest : List VersionNumbers} {v w : VersionNumbers} {m k : Int} {i : Nat}

/-- The versions `taken` of those seen, `done`. -/
structure Counts (done taken : List VersionNumbers) : Prop where
  sub : ∀ w ∈ taken, w ∈ done
  majors : ∀ m, m ∈ taken.map VersionNumbers.major ↔
    m ∈ firsts majorVersionsInSummary (done.map VersionNumbers.major)
  minors : ∀ m ∈ firsts majorVersionsInSummary (done.map VersionNumbers.major), ∀ k,
    k ∈ minorsOf m taken ↔ k ∈ firsts minorVersionsInSummary (minorsOf m done)
  patches : ∀ m ∈ firsts majorVersionsInSummary (done.map VersionNumbers.major),
    ∀ k ∈ firsts minorVersionsInSummary (minorsOf m done),
      patchCount m k taken = min patchVersionsInSummary (patchCount m k done)

/-- The choice for the version that comes after `done`. -/
abbrev ChosenNext (done : List VersionNumbers) (v : VersionNumbers) : Prop :=
  Chosen (done ++ [v]) done.length v

theorem majors_concat : (done ++ [v]).map VersionNumbers.major =
    done.map VersionNumbers.major ++ [v.major] := List.map_append

theorem minorsOf_concat : minorsOf m (done ++ [v]) =
    if v.major = m then minorsOf m done ++ [v.minor] else minorsOf m done := by
  unfold minorsOf
  by_cases hm : v.major = m <;> simp [List.filter_append, hm]

theorem minorsOf_cons : minorsOf m (v :: taken) =
    if v.major = m then v.minor :: minorsOf m taken else minorsOf m taken := by
  unfold minorsOf
  by_cases hm : v.major = m <;> simp [hm]

theorem patchCount_concat : patchCount m k (done ++ [v]) =
    patchCount m k done + if v.major = m ∧ v.minor = k then 1 else 0 := by
  unfold patchCount
  rw [List.countP_append, List.countP_singleton]
  simp

theorem patchCount_cons : patchCount m k (v :: taken) =
    patchCount m k taken + if v.major = m ∧ v.minor = k then 1 else 0 := by
  unfold patchCount
  rw [List.countP_cons]
  simp

theorem minorsOf_eq_nil (h : m ∉ done.map VersionNumbers.major) : minorsOf m done = [] := by
  unfold minorsOf
  rw [List.map_eq_nil_iff, List.filter_eq_nil_iff]
  intro w hw hm
  exact h (List.mem_map.mpr ⟨w, hw, of_decide_eq_true hm⟩)

theorem patchCount_eq_zero (h : k ∉ minorsOf m done) : patchCount m k done = 0 := by
  unfold patchCount
  rw [List.countP_eq_zero]
  intro w hw hmk
  have hmk := of_decide_eq_true hmk
  exact h (List.mem_map.mpr ⟨w, List.mem_filter.mpr ⟨hw, decide_eq_true hmk.1⟩, hmk.2⟩)

theorem chosenNext_iff : ChosenNext done v ↔
    v.major ∈ firsts majorVersionsInSummary (done.map VersionNumbers.major ++ [v.major]) ∧
      v.minor ∈ firsts minorVersionsInSummary (minorsOf v.major done ++ [v.minor]) ∧
      patchCount v.major v.minor done < patchVersionsInSummary := by
  unfold ChosenNext Chosen
  rw [majors_concat, minorsOf_concat, if_pos rfl, List.take_left]

/-- Later versions change nothing. -/
theorem chosen_iff_chosenNext :
    Chosen (done ++ v :: rest) done.length v ↔ ChosenNext done v := by
  have hlist : done ++ v :: rest = (done ++ [v]) ++ rest := by simp
  unfold ChosenNext Chosen
  rw [List.take_left, List.take_left, hlist, List.map_append]
  have hmajor : v.major ∈ (done ++ [v]).map VersionNumbers.major := by simp
  have hminor : v.minor ∈ minorsOf v.major (done ++ [v]) := by
    rw [minorsOf_concat, if_pos rfl]
    simp
  have hminors : minorsOf v.major (done ++ [v] ++ rest) =
      minorsOf v.major (done ++ [v]) ++ minorsOf v.major rest := by
    unfold minorsOf
    rw [List.filter_append, List.map_append]
  rw [hminors, mem_firsts_append hmajor, mem_firsts_append hminor]

theorem counts_nil : Counts [] [] := by
  refine ⟨fun w hw => hw, fun m => Iff.rfl, fun m hm => absurd (mem_of_mem_firsts hm) ?_,
    fun m hm => absurd (mem_of_mem_firsts hm) ?_⟩ <;> exact List.not_mem_nil

theorem Counts.length_dedup_majors (h : Counts done taken) :
    (taken.map VersionNumbers.major).dedup.length =
      (firsts majorVersionsInSummary (done.map VersionNumbers.major)).length := by
  apply List.Perm.length_eq
  rw [List.perm_ext_iff_of_nodup (List.nodup_dedup _) (nodup_firsts _ _)]
  intro m
  rw [List.mem_dedup, h.majors]

theorem Counts.length_dedup_minors (h : Counts done taken)
    (hm : m ∈ firsts majorVersionsInSummary (done.map VersionNumbers.major)) :
    (minorsOf m taken).dedup.length =
      (firsts minorVersionsInSummary (minorsOf m done)).length := by
  apply List.Perm.length_eq
  rw [List.perm_ext_iff_of_nodup (List.nodup_dedup _) (nodup_firsts _ _)]
  intro k
  rw [List.mem_dedup, h.minors m hm]

theorem mem_minorsOf (h : w ∈ done) (hm : w.major = m) : w.minor ∈ minorsOf m done :=
  List.mem_map.mpr ⟨w, List.mem_filter.mpr ⟨h, decide_eq_true hm⟩, rfl⟩

theorem Counts.mem_minorsOf_done (h : Counts done taken) (hk : k ∈ minorsOf m taken) :
    k ∈ minorsOf m done := by
  obtain ⟨w, hw, rfl⟩ := List.mem_map.mp hk
  rw [List.mem_filter] at hw
  exact mem_minorsOf (h.sub w hw.1) (of_decide_eq_true hw.2)

/-- Nothing is known of a major that was not seen, and nothing was taken of it. -/
theorem Counts.minors_of_new (h : Counts done taken)
    (hm : m ∈ firsts majorVersionsInSummary (done.map VersionNumbers.major) ∨
      m ∉ done.map VersionNumbers.major) (k : Int) :
    k ∈ minorsOf m taken ↔ k ∈ firsts minorVersionsInSummary (minorsOf m done) := by
  rcases hm with hm | hm
  · exact h.minors m hm k
  · constructor
    · intro hk
      have hdone := h.mem_minorsOf_done hk
      rw [minorsOf_eq_nil hm] at hdone
      cases hdone
    · intro hk
      rw [minorsOf_eq_nil hm] at hk
      cases hk

theorem Counts.patches_of_new (h : Counts done taken)
    (hm : m ∈ firsts majorVersionsInSummary (done.map VersionNumbers.major) ∨
      m ∉ done.map VersionNumbers.major)
    (hk : k ∈ firsts minorVersionsInSummary (minorsOf m done) ∨ k ∉ minorsOf m done) :
    patchCount m k taken = min patchVersionsInSummary (patchCount m k done) := by
  by_cases hnew : k ∈ minorsOf m done
  · have hm' : m ∈ firsts majorVersionsInSummary (done.map VersionNumbers.major) := by
      refine hm.resolve_right fun hm => ?_
      rw [minorsOf_eq_nil hm] at hnew
      cases hnew
    exact h.patches m hm' k (hk.resolve_right (not_not.mpr hnew))
  · rw [patchCount_eq_zero hnew, patchCount_eq_zero fun hk => hnew (h.mem_minorsOf_done hk)]
    rfl

/-- A new major is chosen as soon as there is room for it, a new minor too. -/
theorem chosenNext_of_new_major
    (hv : v.major ∈ firsts majorVersionsInSummary (done.map VersionNumbers.major ++ [v.major]))
    (hnew : v.major ∉ done.map VersionNumbers.major) : ChosenNext done v := by
  rw [chosenNext_iff, minorsOf_eq_nil hnew]
  refine ⟨hv, mem_firsts_concat_self.2 (.inr ⟨List.not_mem_nil, by decide⟩), ?_⟩
  rw [patchCount_eq_zero (by rw [minorsOf_eq_nil hnew]; exact List.not_mem_nil)]
  decide

theorem chosenNext_of_new_minor
    (hv : v.major ∈ firsts majorVersionsInSummary (done.map VersionNumbers.major ++ [v.major]))
    (hk : v.minor ∈ firsts minorVersionsInSummary (minorsOf v.major done ++ [v.minor]))
    (hnew : v.minor ∉ minorsOf v.major done) : ChosenNext done v := by
  rw [chosenNext_iff, patchCount_eq_zero hnew]
  exact ⟨hv, hk, by decide⟩

/-- Taking a version. -/
theorem Counts.add (h : Counts done taken) (hv : ChosenNext done v) :
    Counts (done ++ [v]) (v :: taken) := by
  have hc := chosenNext_iff.1 hv
  refine ⟨?_, ?_, ?_, ?_⟩
  · intro w hw
    rcases List.mem_cons.mp hw with rfl | hw
    · simp
    · exact List.mem_append_left _ (h.sub w hw)
  · intro m
    rw [majors_concat, mem_firsts_concat, List.map_cons, List.mem_cons, h.majors, or_comm]
    simp [hc.1]
  · intro m hm k
    rw [majors_concat] at hm
    have hih := h.minors_of_new (mem_firsts_or_new hm) k
    rw [minorsOf_cons, minorsOf_concat]
    by_cases hvm : v.major = m
    · subst hvm
      rw [if_pos rfl, if_pos rfl, mem_firsts_concat, List.mem_cons, hih, or_comm]
      simp [hc.2.1]
    · rw [if_neg hvm, if_neg hvm, hih]
  · intro m hm k hk
    rw [majors_concat] at hm
    have hk' : k ∈ firsts minorVersionsInSummary (minorsOf m done) ∨ k ∉ minorsOf m done := by
      rw [minorsOf_concat] at hk
      split at hk
      · exact mem_firsts_or_new hk
      · exact .inl hk
    rw [patchCount_cons, patchCount_concat, h.patches_of_new (mem_firsts_or_new hm) hk']
    split
    · rename_i hsame
      have hroom := hc.2.2
      rw [hsame.1, hsame.2] at hroom
      omega
    · rfl

/-- Leaving out a version there is no room for. -/
theorem Counts.skip (h : Counts done taken) (hv : ¬ ChosenNext done v) :
    Counts (done ++ [v]) taken := by
  have hmajor : ∀ m ∈ firsts majorVersionsInSummary (done.map VersionNumbers.major ++ [v.major]),
      m ∈ firsts majorVersionsInSummary (done.map VersionNumbers.major) := by
    intro m hm
    rcases mem_firsts_concat.1 hm with hm | ⟨rfl, hm⟩
    · exact hm
    · exact (mem_firsts_or_new hm).resolve_right fun hnew => hv (chosenNext_of_new_major hm hnew)
  have hminor : ∀ m ∈ firsts majorVersionsInSummary (done.map VersionNumbers.major ++ [v.major]),
      ∀ k, k ∈ firsts minorVersionsInSummary (minorsOf m (done ++ [v])) ↔
        k ∈ firsts minorVersionsInSummary (minorsOf m done) := by
    intro m hm k
    rw [minorsOf_concat]
    split
    · rename_i hvm
      subst hvm
      rw [mem_firsts_concat]
      refine or_iff_left_of_imp ?_
      rintro ⟨rfl, hk⟩
      exact (mem_firsts_or_new hk).resolve_right fun hnew => hv (chosenNext_of_new_minor hm hk hnew)
    · rfl
  refine ⟨fun w hw => List.mem_append_left _ (h.sub w hw), ?_, ?_, ?_⟩
  · intro m
    rw [h.majors, majors_concat]
    exact ⟨fun hm => mem_firsts_concat.2 (.inl hm), hmajor m⟩
  · intro m hm k
    rw [majors_concat] at hm
    rw [h.minors m (hmajor m hm), hminor m hm]
  · intro m hm k hk
    rw [majors_concat] at hm
    rw [hminor m hm] at hk
    rw [h.patches m (hmajor m hm) k hk, patchCount_concat]
    split
    · rename_i hsame
      obtain ⟨rfl, rfl⟩ := hsame
      have hfull : ¬ patchCount v.major v.minor done < patchVersionsInSummary := fun hroom =>
        hv (chosenNext_iff.2 ⟨hm, mem_firsts_concat.2 (.inl hk), hroom⟩)
      omega
    · rfl

theorem hasRoom_eq : hasRoom taken v = true ↔
    if v.major ∈ taken.map VersionNumbers.major then
      if v.minor ∈ minorsOf v.major taken then
        patchCount v.major v.minor taken < patchVersionsInSummary
      else (minorsOf v.major taken).dedup.length < minorVersionsInSummary
    else (taken.map VersionNumbers.major).dedup.length < majorVersionsInSummary := by
  have hmajor : (taken.filter fun w => w.major = v.major) = [] ↔
      v.major ∉ taken.map VersionNumbers.major := by
    simp [List.filter_eq_nil_iff]
  have hminor : ((taken.filter fun w => w.major = v.major).filter fun w => w.minor = v.minor) = [] ↔
      v.minor ∉ minorsOf v.major taken := by
    rw [minorsOf, List.mem_map, List.filter_eq_nil_iff]
    constructor
    · rintro hno ⟨w, hw, hminor⟩
      exact hno w hw (decide_eq_true hminor)
    · exact fun hno w hw hminor => hno ⟨w, hw, of_decide_eq_true hminor⟩
  have hcount : ((taken.filter fun w => w.major = v.major).filter fun w =>
      w.minor = v.minor).length = patchCount v.major v.minor taken := by
    unfold patchCount
    rw [List.filter_filter, List.countP_eq_length_filter]
    congr 2
    funext w
    rw [Bool.decide_and, Bool.and_comm]
  unfold hasRoom
  dsimp only
  by_cases hM : v.major ∈ taken.map VersionNumbers.major
  · rw [if_neg (hmajor.not.mpr (not_not.mpr hM)), if_pos hM]
    by_cases hK : v.minor ∈ minorsOf v.major taken
    · rw [if_neg (hminor.not.mpr (not_not.mpr hK)), if_pos hK, hcount, decide_eq_true_iff]
    · rw [if_pos (hminor.mpr hK), if_neg hK, decide_eq_true_iff]
      rfl
  · rw [if_pos (hmajor.mpr hM), if_neg hM, decide_eq_true_iff]

/-- There is room for a version exactly when it is to be chosen. -/
theorem Counts.hasRoom_iff (h : Counts done taken) : hasRoom taken v = true ↔ ChosenNext done v := by
  rw [hasRoom_eq, h.length_dedup_majors, chosenNext_iff]
  by_cases htaken : v.major ∈ taken.map VersionNumbers.major
  · have hM := (h.majors _).mp htaken
    have hM' : v.major ∈
        firsts majorVersionsInSummary (done.map VersionNumbers.major ++ [v.major]) :=
      mem_firsts_concat.2 (.inl hM)
    rw [if_pos htaken, h.length_dedup_minors hM]
    by_cases htaken' : v.minor ∈ minorsOf v.major taken
    · have hK := (h.minors _ hM _).mp htaken'
      have hK' := mem_firsts_concat_self.2 (.inl hK)
      rw [if_pos htaken', h.patches _ hM _ hK]
      simp only [hM', hK', true_and]
      omega
    · have hK := (h.minors _ hM _).not.mp htaken'
      rw [if_neg htaken']
      constructor
      · intro hroom
        have hnew : v.minor ∉ minorsOf v.major done := fun hk => hK (mem_firsts_of_room hroom hk)
        exact chosenNext_iff.1 (chosenNext_of_new_minor hM'
          (mem_firsts_concat_self.2 (.inr ⟨hnew, hroom⟩)) hnew)
      · exact fun hc => ((mem_firsts_concat_self.1 hc.2.1).resolve_left hK).2
  · have hM := (h.majors _).not.mp htaken
    rw [if_neg htaken]
    constructor
    · intro hroom
      have hnew : v.major ∉ done.map VersionNumbers.major := fun hm =>
        hM (mem_firsts_of_room hroom hm)
      exact chosenNext_iff.1 (chosenNext_of_new_major
        (mem_firsts_concat_self.2 (.inr ⟨hnew, hroom⟩)) hnew)
    · exact fun hc => ((mem_firsts_concat_self.1 hc.1).resolve_left hM).2

end Counts

/-! ## The loop selects what is chosen -/

section Summary

variable {newVersion : String → Option VersionNumbers} {ws : List VersionNumbers}
  {w : VersionNumbers} {i : Nat}

/-- The loop from the versions `done` on, of which it has taken `taken`. -/
theorem summaryLoop_eq {done taken : List VersionNumbers} (h : Counts done taken)
    (versions : List ChartVersion) : summaryLoop newVersion taken versions =
      (((parsed newVersion versions).zipIdx done.length).filter fun e =>
        Chosen (done ++ (parsed newVersion versions).map Prod.fst) e.2 e.1.1).map fun e =>
          ⟨e.1.2.version, e.1.2.appVersion⟩ := by
  induction versions generalizing done taken with
  | nil => rfl
  | cons v versions ih =>
      unfold summaryLoop
      cases hv : newVersion v.version with
      | none =>
          have hparsed : parsed newVersion (v :: versions) = parsed newVersion versions := by
            simp [parsed, hv]
          rw [hparsed]
          exact ih h
      | some version =>
          have hparsed : parsed newVersion (v :: versions) =
              (version, v) :: parsed newVersion versions := by
            simp [parsed, hv]
          have hall : done ++ (parsed newVersion (v :: versions)).map Prod.fst =
              (done ++ [version]) ++ (parsed newVersion versions).map Prod.fst := by
            rw [hparsed]
            simp
          have hlen : done.length + 1 = (done ++ [version]).length := by simp
          have hiff : Chosen (done ++ (parsed newVersion (v :: versions)).map Prod.fst) done.length
              version ↔ ChosenNext done version := by
            rw [hparsed]
            exact chosen_iff_chosenNext
          rw [hall] at hiff ⊢
          rw [hparsed, List.zipIdx_cons, hlen]
          dsimp only
          by_cases hroom : hasRoom taken version = true
          · have hc := h.hasRoom_iff.1 hroom
            rw [if_pos hroom, ih (h.add hc), List.filter_cons, if_pos (decide_eq_true (hiff.mpr hc)),
              List.map_cons]
          · have hc := h.hasRoom_iff.not.mp hroom
            have hno : ¬ decide (Chosen (done ++ [version] ++
                (parsed newVersion versions).map Prod.fst) done.length version) = true :=
              fun hyes => hc (hiff.mp (of_decide_eq_true hyes))
            rw [if_neg hroom, ih (h.skip hc), List.filter_cons, if_neg hno]

theorem countP_zipIdx_take (q : VersionNumbers → Bool) (ws : List VersionNumbers) (n i : Nat) :
    ((ws.zipIdx n).countP fun x => q x.1 && decide (x.2 < n + i)) = (ws.take i).countP q := by
  induction ws generalizing n i with
  | nil => simp
  | cons w ws ih =>
      rw [List.zipIdx_cons, List.countP_cons]
      cases i with
      | zero =>
          have hnone : ((ws.zipIdx (n + 1)).countP fun x => q x.1 && decide (x.2 < n + 0)) = 0 := by
            rw [List.countP_eq_zero]
            rintro ⟨x, j⟩ hx
            have hj := List.le_snd_of_mem_zipIdx hx
            simp only [Bool.and_eq_true, decide_eq_true_eq, not_and]
            intro _
            omega
          rw [hnone]
          simp
      | succ i =>
          have hih := ih (n + 1) i
          have harith : n + 1 + i = n + (i + 1) := by omega
          rw [harith] at hih
          rw [hih, List.take_succ_cons, List.countP_cons]
          simp

/-- With the newest versions first, the first ones are the newest. -/
theorem chosen_iff_newest (h : NewestFirst ws) (hi : ws[i]? = some w) :
    Chosen ws i w ↔ Newest ws i w := by
  have hmem : w ∈ ws := List.mem_of_getElem? hi
  have hmajors : (ws.map VersionNumbers.major).Pairwise fun a b => b ≤ a :=
    List.pairwise_map.mpr (h.imp fun hab => by omega)
  have hminors : (minorsOf w.major ws).Pairwise fun a b => b ≤ a := by
    unfold minorsOf
    rw [List.pairwise_map]
    have hgroup : (ws.filter fun x => x.major = w.major).Pairwise fun a b =>
        b.minor < a.minor ∨ b.minor = a.minor ∧ b.patch ≤ a.patch := by
      rw [List.pairwise_filter]
      refine h.imp fun {a b} hab ha hb => ?_
      have ha := of_decide_eq_true ha
      have hb := of_decide_eq_true hb
      omega
    exact hgroup.imp fun hab => by omega
  have hcount : (ws.zipIdx.countP fun x => (x.1.major = w.major ∧ x.1.minor = w.minor) ∧
      (w.patch < x.1.patch ∨ x.1.patch = w.patch ∧ x.2 < i)) =
      patchCount w.major w.minor (ws.take i) := by
    unfold patchCount
    rw [← countP_zipIdx_take _ ws 0 i]
    apply List.countP_congr
    rintro ⟨x, j⟩ hx
    have hj : ws[j]? = some x := List.mem_zipIdx_iff_getElem?.mp hx
    simp only [Bool.and_eq_true, decide_eq_true_eq, Nat.zero_add]
    refine and_congr_right fun hsame => ?_
    obtain ⟨hjlt, rfl⟩ := List.getElem?_eq_some_iff.mp hj
    obtain ⟨hilt, rfl⟩ := List.getElem?_eq_some_iff.mp hi
    rw [NewestFirst, List.pairwise_iff_getElem] at h
    -- in one minor, an earlier entry has a patch as high or higher
    rcases Nat.lt_trichotomy j i with hlt | heq | hgt
    · have hord := h j i hjlt hilt hlt
      omega
    · subst heq
      omega
    · have hord := h i j hilt hjlt hgt
      omega
  unfold Chosen Newest
  rw [mem_firsts_iff_greater hmajors (List.mem_map_of_mem hmem),
    mem_firsts_iff_greater hminors (mem_minorsOf hmem rfl), hcount]

/-- The summary of any list is what is chosen of it; of a list with the newest versions first, it
    is the newest patches of the newest minors of the newest majors. -/
theorem packageAppVersionsSummary_eq (newVersion : String → Option VersionNumbers)
    (versions : List ChartVersion) :
    packageAppVersionsSummary newVersion versions =
        selection (fun ws i w => Chosen ws i w) (parsed newVersion versions) ∧
      (NewestFirst ((parsed newVersion versions).map Prod.fst) →
        packageAppVersionsSummary newVersion versions =
          selection (fun ws i w => Newest ws i w) (parsed newVersion versions)) := by
  have hchosen : packageAppVersionsSummary newVersion versions =
      selection (fun ws i w => Chosen ws i w) (parsed newVersion versions) :=
    summaryLoop_eq counts_nil versions
  refine ⟨hchosen, fun h => hchosen.trans ?_⟩
  unfold selection
  congr 1
  apply List.filter_congr
  rintro ⟨e, i⟩ he
  have hi : ((parsed newVersion versions).map Prod.fst)[i]? = some e.1 := by
    rw [List.getElem?_map, List.mem_zipIdx_iff_getElem?.mp he]
    rfl
  rw [decide_eq_decide]
  exact chosen_iff_newest h hi

end Summary

/-- Versions whose numbers have one digit. -/
def oneDigitVersion (version : String) : Option VersionNumbers :=
  (Semver.digitParse version.toList).toOption.map fun v => ⟨v.1.val, v.2.1.val, v.2.2.val⟩

def fiveVersions : List ChartVersion :=
  ["4.0.0", "x", "3.1.0", "2.0.0", "1.9.9"].map fun version =>
    ⟨version, "", "", "", [], "", "", ""⟩

theorem packageAppVersionsSummary_fiveVersions :
    selection (fun ws i w => Newest ws i w) (parsed oneDigitVersion fiveVersions) =
      [⟨"4.0.0", ""⟩, ⟨"3.1.0", ""⟩, ⟨"2.0.0", ""⟩] := by
  have h := (packageAppVersionsSummary_eq oneDigitVersion fiveVersions).2 (by decide)
  rw [← h]
  decide

end Kubeapps.HelmPlugin
