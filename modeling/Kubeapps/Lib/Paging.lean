/-
  Pages of a query that is ordered by a key on which rows may tie.

  `ORDER BY` leaves open where the rows of one key stand among each other, and every query may
  decide that anew: an order of `rows` is any sorted permutation (`IsOrder`), and page `k` comes
  from the order of the `k`-th query (`pages`). `below` counts the rows before the group of `a`,
  `upTo` those up to its end; the group straddles a position strictly between the two.

  * `take_perm`: if no group straddles `m`, the first `m` rows are the same in every order, as a
    multiset.
  * `pages_perm_iff`: the pages together are the rows, in whatever orders the queries are
    answered, exactly if no group straddles the boundary between two pages.
-/
import Mathlib.Data.List.Sort
import Mathlib.Data.List.Nodup

namespace Kubeapps.Lib

variable {α : Type} (le : α → α → Prop) [DecidableRel le]

/-- `l` is an order of `rows`. -/
structure IsOrder (rows l : List α) : Prop where
  perm : l.Perm rows
  sorted : l.Pairwise le

/-- `LIMIT size OFFSET k * size`. -/
def page (size k : Nat) (l : List α) : List α := (l.drop (k * size)).take size

/-- The first `n` pages, each from the order of its own query. -/
def pages (size : Nat) (orders : Nat → List α) (n : Nat) : List α :=
  (List.range n).flatMap fun k => page size k (orders k)

/-- The number of rows before those that compare equal to `a`. -/
def below (rows : List α) (a : α) : Nat := rows.countP fun b => ¬ le a b

/-- The number of rows up to the last one that compares equal to `a`. -/
def upTo (rows : List α) (a : α) : Nat := rows.countP fun b => le b a

/-- Of the rows that compare equal to `a` some are before the position and some after it. -/
def Straddles (rows : List α) (m : Nat) (a : α) : Prop := below le rows a < m ∧ m < upTo le rows a

instance (rows : List α) (m : Nat) (a : α) : Decidable (Straddles le rows m a) :=
  inferInstanceAs (Decidable (_ ∧ _))

@[simp] theorem length_page (size k : Nat) (l : List α) :
    (page size k l).length = min size (l.length - k * size) := by
  simp [page]

theorem pages_succ (size : Nat) (orders : Nat → List α) (n : Nat) :
    pages size orders (n + 1) = pages size orders n ++ page size n (orders n) := by
  simp [pages, List.range_succ]

/-- The page on which a row stands. -/
theorem mem_page {size k : Nat} {as bs : List α} {x : α} (hlow : k * size ≤ as.length)
    (hhigh : as.length < k * size + size) : x ∈ page size k (as ++ x :: bs) := by
  unfold page
  rw [List.drop_append_of_le_length hlow, List.take_append, List.mem_append]
  right
  have hlen : size - (as.drop (k * size)).length = size - (as.length - k * size) - 1 + 1 := by
    rw [List.length_drop]
    omega
  rw [hlen, List.take_succ_cons]
  exact List.mem_cons_self

theorem take_page (size k : Nat) (l : List α) :
    l.take (k * size) ++ page size k l = l.take ((k + 1) * size) := by
  rw [Nat.add_mul, Nat.one_mul, List.take_add, page]

/-! ## Positions in an order -/

section Positions

variable {le} {rows as bs l : List α} {a x : α}

theorem below_perm {l' : List α} (h : l.Perm l') : below le l a = below le l' a := h.countP_eq _

theorem upTo_perm {l' : List α} (h : l.Perm l') : upTo le l a = upTo le l' a := h.countP_eq _

theorem upTo_le_length : upTo le rows a ≤ rows.length := List.countP_le_length

/-- An element stands in its own group. -/
theorem IsOrder.position (hrefl : ∀ a, le a a) (h : IsOrder le rows (as ++ x :: bs)) :
    below le rows x ≤ as.length ∧ as.length < upTo le rows x := by
  rw [← below_perm h.perm, ← upTo_perm h.perm]
  obtain ⟨_, hcons, hcross⟩ := List.pairwise_append.mp h.sorted
  rw [List.pairwise_cons] at hcons
  constructor
  · have hafter : (x :: bs).countP (fun b => ¬ le x b) = 0 := by
      rw [List.countP_eq_zero]
      intro b hb
      rcases List.mem_cons.mp hb with rfl | hb
      · simpa using hrefl b
      · simpa using hcons.1 b hb
    have hbefore : as.countP (fun b => ¬ le x b) ≤ as.length := List.countP_le_length
    unfold below
    rw [List.countP_append]
    omega
  · have hbefore : as.countP (fun b => le b x) = as.length := by
      rw [List.countP_eq_length]
      intro b hb
      simpa using hcross b hb x List.mem_cons_self
    have hself : 0 < (x :: bs).countP fun b => le b x :=
      List.countP_pos_iff.mpr ⟨x, List.mem_cons_self, by simpa using hrefl x⟩
    unfold upTo
    rw [List.countP_append]
    omega

/-- What stands in the group of `a` compares equal to `a`. -/
theorem IsOrder.equiv_of_position (htrans : ∀ a b c, le a b → le b c → le a c)
    (h : IsOrder le rows (as ++ x :: bs))
    (hbelow : below le rows a ≤ as.length) (hupTo : as.length < upTo le rows a) :
    le x a ∧ le a x := by
  rw [← below_perm h.perm] at hbelow
  rw [← upTo_perm h.perm] at hupTo
  obtain ⟨_, hcons, hcross⟩ := List.pairwise_append.mp h.sorted
  rw [List.pairwise_cons] at hcons
  unfold below at hbelow
  unfold upTo at hupTo
  rw [List.countP_append] at hbelow hupTo
  constructor
  · by_contra hxa
    have hafter : (x :: bs).countP (fun b => le b a) = 0 := by
      rw [List.countP_eq_zero]
      intro b hb
      rcases List.mem_cons.mp hb with rfl | hb
      · simpa using hxa
      · simpa using fun hba => hxa (htrans x b a (hcons.1 b hb) hba)
    have hbefore : as.countP (fun b => le b a) ≤ as.length := List.countP_le_length
    omega
  · by_contra hax
    have hbefore : as.countP (fun b => ¬ le a b) = as.length := by
      rw [List.countP_eq_length]
      intro b hb
      simpa using fun hab => hax (htrans a b x hab (hcross b hb x List.mem_cons_self))
    have hself : 0 < (x :: bs).countP fun b => ¬ le a b :=
      List.countP_pos_iff.mpr ⟨x, List.mem_cons_self, by simpa using hax⟩
    omega

variable {m : Nat}

/-- Without a group across `m`, the first `m` rows are those whose group ends by then. -/
theorem IsOrder.take_eq_filter (hrefl : ∀ a, le a a) (h : IsOrder le rows l)
    (hno : ∀ a ∈ rows, ¬ Straddles le rows m a) :
    l.take m = l.filter fun a => upTo le rows a ≤ m := by
  have hin : ∀ a ∈ l.take m, decide (upTo le rows a ≤ m) = true := by
    intro a ha
    obtain ⟨as, bs, hsplit⟩ := List.append_of_mem ha
    have hl : l = as ++ a :: (bs ++ l.drop m) := by
      have happ := List.take_append_drop m l
      rw [hsplit, List.append_assoc] at happ
      exact happ.symm
    have hlen : as.length < m := by
      have hle := List.length_take_le m l
      rw [hsplit, List.length_append, List.length_cons] at hle
      omega
    have hpos := IsOrder.position hrefl (hl ▸ h)
    have hnot := hno a (h.perm.mem_iff.mp (List.mem_of_mem_take ha))
    unfold Straddles at hnot
    rw [decide_eq_true_eq]
    omega
  have hout : ∀ a ∈ l.drop m, ¬ decide (upTo le rows a ≤ m) = true := by
    intro a ha
    obtain ⟨as, bs, hsplit⟩ := List.append_of_mem ha
    have hl : l = (l.take m ++ as) ++ a :: bs := by
      have happ := List.take_append_drop m l
      rw [hsplit, ← List.append_assoc] at happ
      exact happ.symm
    have hm : m ≤ l.length := by
      by_contra hlt
      rw [List.drop_eq_nil_of_le (by omega)] at ha
      cases ha
    have hpos := IsOrder.position hrefl (hl ▸ h)
    rw [List.length_append, List.length_take_of_le hm] at hpos
    rw [decide_eq_true_eq]
    omega
  have hfilter := List.take_append_drop m l
  conv_rhs => rw [← hfilter]
  rw [List.filter_append, List.filter_eq_self.mpr hin, List.filter_eq_nil_iff.mpr hout,
    List.append_nil]

/-- The first `m` rows are the same in every order if no group straddles `m`. -/
theorem take_perm {l' : List α} (hrefl : ∀ a, le a a) (h : IsOrder le rows l)
    (h' : IsOrder le rows l') (hno : ∀ a ∈ rows, ¬ Straddles le rows m a) :
    (l.take m).Perm (l'.take m) := by
  rw [h.take_eq_filter hrefl hno, h'.take_eq_filter hrefl hno]
  exact (h.perm.trans h'.perm.symm).filter _

end Positions

/-! ## The pages together -/

section Pages

variable {le} {rows : List α} {size : Nat} {orders : Nat → List α}

theorem pages_perm_take (hrefl : ∀ a, le a a) (horders : ∀ k, IsOrder le rows (orders k))
    (hno : ∀ k, ∀ a ∈ rows, ¬ Straddles le rows (k * size) a) (n : Nat) {l : List α}
    (hl : IsOrder le rows l) : (pages size orders n).Perm (l.take (n * size)) := by
  induction n generalizing l with
  | zero => simp [pages]
  | succ n ih =>
      have hfirst := ih (horders n)
      rw [pages_succ]
      refine (hfirst.append_right _).trans ?_
      rw [take_page]
      exact take_perm hrefl (horders n) hl (hno (n + 1))

/-- A group across `m` has two rows that may stand on either side of it. -/
theorem exists_swap_of_straddles (htotal : ∀ a b, le a b ∨ le b a)
    (htrans : ∀ a b c, le a b → le b c → le a c) {m : Nat} {a : α}
    (hstraddles : Straddles le rows m a) :
    ∃ as x y bs, as.length + 1 = m ∧ IsOrder le rows (as ++ x :: y :: bs) ∧
      IsOrder le rows (as ++ y :: x :: bs) := by
  obtain ⟨hbelow, hupTo⟩ := hstraddles
  have hlen : upTo le rows a ≤ rows.length := upTo_le_length
  obtain ⟨l, hl⟩ : ∃ l, IsOrder le rows l := by
    have htotal' : Std.Total le := ⟨htotal⟩
    have htrans' : IsTrans α le := ⟨htrans⟩
    exact ⟨rows.insertionSort le, List.perm_insertionSort le rows,
      List.pairwise_insertionSort le rows⟩
  have hllen : l.length = rows.length := hl.perm.length_eq
  obtain ⟨as, x, y, bs, hsplit, has⟩ :
      ∃ as x y bs, l = as ++ x :: y :: bs ∧ as.length + 1 = m := by
    refine ⟨l.take (m - 1), l[m - 1], l[m], l.drop (m + 1), ?_, ?_⟩
    · have hdrop := List.drop_eq_getElem_cons (l := l) (i := m - 1) (by omega)
      have hnext : m - 1 + 1 = m := by omega
      rw [hnext, List.drop_eq_getElem_cons (l := l) (i := m) (by omega)] at hdrop
      rw [← hdrop, List.take_append_drop]
    · rw [List.length_take_of_le (by omega)]
      omega
  rw [hsplit] at hl
  have hx := hl.equiv_of_position (a := a) htrans (by omega) (by omega)
  have hl' : IsOrder le rows ((as ++ [x]) ++ y :: bs) := by
    rw [List.append_assoc]
    exact hl
  have hy := hl'.equiv_of_position (a := a) htrans (by rw [List.length_append]; simp; omega)
    (by rw [List.length_append]; simp; omega)
  have hyx : le y x := htrans y a x hy.1 hx.2
  refine ⟨as, x, y, bs, has, hl, ((List.Perm.swap x y bs).append_left as).trans hl.perm, ?_⟩
  have hsorted := hl.sorted
  simp only [List.pairwise_append, List.pairwise_cons, List.mem_cons] at hsorted ⊢
  obtain ⟨has, ⟨hxs, hys, hbs⟩, hcross⟩ := hsorted
  refine ⟨has, ⟨?_, fun b hb => hxs b (Or.inr hb), hbs⟩, ?_⟩
  · rintro b (rfl | hb)
    · exact hyx
    · exact hys b hb
  · rintro b hb c (rfl | rfl | hc)
    · exact hcross b hb c (Or.inr (Or.inl rfl))
    · exact hcross b hb c (Or.inl rfl)
    · exact hcross b hb c (Or.inr (Or.inr hc))

/-- A group across the start of page `k` lets two queries list one of its rows twice. -/
theorem exists_pages_not_nodup (htotal : ∀ a b, le a b ∨ le b a)
    (htrans : ∀ a b c, le a b → le b c → le a c) {k : Nat} {a : α}
    (hstraddles : Straddles le rows (k * size) a) (hsize : 0 < size) :
    ∃ orders : Nat → List α, (∀ j, IsOrder le rows (orders j)) ∧
      ∀ n, k < n → ¬ (pages size orders n).Nodup := by
  obtain ⟨as, x, y, bs, has, hl, hl'⟩ := exists_swap_of_straddles htotal htrans hstraddles
  have hk : 0 < k := by
    by_contra hzero
    have hk0 : k = 0 := by omega
    rw [hk0] at has
    omega
  have hmul : (k - 1) * size + size = k * size := by
    rw [← Nat.succ_mul, Nat.succ_eq_add_one, Nat.sub_add_cancel hk]
  have hbefore : x ∈ page size (k - 1) (as ++ x :: y :: bs) := mem_page (by omega) (by omega)
  have hafter : x ∈ page size k ((as ++ [y]) ++ x :: bs) :=
    mem_page (by rw [List.length_append]; simp; omega) (by rw [List.length_append]; simp; omega)
  rw [List.append_assoc] at hafter
  refine ⟨fun j => if j < k then as ++ x :: y :: bs else as ++ y :: x :: bs, fun j => ?_,
    fun n hn hnodup => ?_⟩
  · dsimp only
    split
    · exact hl
    · exact hl'
  · have hdisjoint := (List.nodup_flatMap.mp hnodup).2
    rw [List.pairwise_iff_getElem] at hdisjoint
    have hpair := hdisjoint (k - 1) k (by rw [List.length_range]; omega)
      (by rw [List.length_range]; omega) (by omega)
    simp only [List.getElem_range] at hpair
    refine hpair (a := x) ?_ ?_
    · dsimp only
      rw [if_pos (by omega)]
      exact hbefore
    · dsimp only
      rw [if_neg (by omega)]
      exact hafter

/-- The pages are the rows, whatever the orders, exactly if no group straddles a page boundary. -/
theorem pages_perm_iff (htotal : ∀ a b, le a b ∨ le b a)
    (htrans : ∀ a b c, le a b → le b c → le a c) (hnodup : rows.Nodup) (hsize : 0 < size) {n : Nat}
    (hn : rows.length < n * size) :
    (∀ orders : Nat → List α, (∀ k, IsOrder le rows (orders k)) →
        (pages size orders n).Perm rows) ↔
      ∀ k, ∀ a ∈ rows, ¬ Straddles le rows (k * size) a := by
  have hrefl : ∀ a, le a a := fun a => (htotal a a).elim id id
  constructor
  · intro hall k a _ hstraddles
    obtain ⟨orders, horders, hpages⟩ := exists_pages_not_nodup htotal htrans hstraddles hsize
    have hkn : k < n := by
      have hlen : upTo le rows a ≤ rows.length := upTo_le_length
      have hlt : k * size < n * size := by
        have hupTo := hstraddles.2
        omega
      exact Nat.lt_of_mul_lt_mul_right hlt
    exact hpages n hkn ((hall orders horders).nodup_iff.mpr hnodup)
  · intro hno orders horders
    have htake := pages_perm_take hrefl horders hno n (horders 0)
    rw [List.take_of_length_le (by rw [(horders 0).perm.length_eq]; omega)] at htake
    exact htake.trans (horders 0).perm

end Pages

end Kubeapps.Lib
