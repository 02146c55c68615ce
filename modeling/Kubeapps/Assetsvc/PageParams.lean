/-
  The page and the size of a request for charts, and the clause and the number of pages that are
  made of them (cmd/assetsvc/handler.go: getPageAndSizeParams;
  cmd/assetsvc/pkg/utils/postgresql_utils.go: GetPaginatedChartList).

  `number` is the number that a text spells, zero if it spells none. `RightPaging bound page size`
  says what is promised for two texts: no clause without a size, else `LIMIT size` from the first
  row of the page, and for every count of rows below `bound` as many pages as they need.

  `rightClause_iff`: the clause is right exactly if both numbers and the offset are below
  `2 ^ 63`.
-/
import Kubeapps.Assetsvc.Charts
import Kubeapps.Lib.Binary64

namespace Kubeapps.Assetsvc

open Kubeapps.Lib

/-! ## The request -/

/-- What is wrong with a text that is not a number of 64 bits. -/
inductive NumError where
  | invalidSyntax
  | outOfRange
  deriving DecidableEq, Repr

def maxUint64 : Nat := 2 ^ 64 - 1

/-- The digits of `strconv.ParseUint(s, 10, 64)`, from the number so far. A digit that is too much
    ends the number, whatever comes after it. -/
def parseDigits (n : Nat) : List Char → Nat × Option NumError
  | [] => (n, none)
  | c :: cs =>
      if c.isDigit = true then
        if maxUint64 / 10 + 1 ≤ n then (maxUint64, some .outOfRange)
        else
          let n1 := 10 * n + (c.toNat - '0'.toNat)
          if maxUint64 < n1 then (maxUint64, some .outOfRange) else parseDigits n1 cs
      else (0, some .invalidSyntax)

/-- `strconv.ParseUint(s, 10, 64)`. -/
def parseUint (s : String) : Nat × Option NumError :=
  if s = "" then (0, some .invalidSyntax) else parseDigits 0 s.toList

/-- `getPageAndSizeParams`, for the values of the form. -/
def getPageAndSizeParams (page size : String) : Int × Int :=
  let (pageNumberInt, err) := parseUint page
  let pageNumberInt := if err ≠ none ∨ pageNumberInt = 0 then 1 else pageNumberInt
  let (pageSizeInt, _) := parseUint size
  (toInt pageNumberInt, toInt pageSizeInt)

/-- `paginationClause` of `GetPaginatedChartList`. -/
def paginationClause (pageNumber pageSize : Int) : String :=
  let pageNumber := if pageNumber ≤ 0 then 1 else pageNumber
  if pageSize > 0 then
    let offset := toInt ((pageNumber - 1) * pageSize)
    "LIMIT " ++ toString pageSize ++ " OFFSET " ++ toString offset
  else ""

/-- `numPages` of `GetPaginatedChartList`. -/
def numPages (count pageSize : Int) : Int :=
  if pageSize > 0 then toInt ⌈float64 (float64 count / float64 pageSize)⌉ else 1

/-! ## What is promised -/

/-- The number that a text spells, zero if it is not a number. -/
def number (s : String) : Nat :=
  if s.toList.all Char.isDigit = true then Nat.ofDigitChars 10 s.toList 0 else 0

/-- The clause for a page, the first one if there is no number. -/
def rightClause (page size : String) : String :=
  if number size = 0 then ""
  else "LIMIT " ++ toString (number size) ++ " OFFSET " ++
    toString ((max 1 (number page) - 1) * number size)

def RightPages (bound : Nat) (size : String) (pageSize : Int) : Prop :=
  ∀ count < bound, number size ≠ 0 → numPages count pageSize = ⌈(count / number size : ℚ)⌉

structure RightPaging (bound : Nat) (page size : String) : Prop where
  clause : paginationClause (getPageAndSizeParams page size).1 (getPageAndSizeParams page size).2 =
    rightClause page size
  pages : RightPages bound size (getPageAndSizeParams page size).2

/-- Nothing wraps around. -/
structure Fits (page size : String) : Prop where
  page_lt : number page < 2 ^ 63
  size_lt : number size < 2 ^ 63
  offset_lt : (number page - 1) * number size < 2 ^ 63

/-- Three pages hold every count, and the size is the last of those that are rounded like it: from
    `2 ^ 62` on these are `2 ^ 10` apart, below `2 ^ 9`. -/
def LastRounded (size : Nat) : Prop :=
  (2 ^ 63 ≤ 3 * size ∧ size < 2 ^ 62 ∧ size % 2 ^ 10 = 2 ^ 8) ∨
    (2 ^ 62 ≤ size ∧ size < 2 ^ 63 ∧
      (size % 2 ^ 11 = 2 ^ 9 ∨ size % 2 ^ 11 = 2 ^ 10 + 2 ^ 9 - 1 ∨ size = 2 ^ 63 - 1))

instance (size : Nat) : Decidable (LastRounded size) := inferInstanceAs (Decidable (_ ∨ _))

/-! ## Numbers -/

section Numbers

variable {n : Nat} {cs : List Char} {s : String}

theorem le_ofDigitChars (cs : List Char) (n : Nat) : n ≤ Nat.ofDigitChars 10 cs n := by
  rw [Nat.ofDigitChars_eq_ofDigitChars_zero]
  have hpos : 1 * n ≤ 10 ^ cs.length * n := Nat.mul_le_mul_right n (Nat.one_le_pow _ _ (by decide))
  omega

theorem parseDigits_ok (hcs : cs.all Char.isDigit = true)
    (hlt : Nat.ofDigitChars 10 cs n < 2 ^ 64) :
    parseDigits n cs = (Nat.ofDigitChars 10 cs n, none) := by
  induction cs generalizing n with
  | nil => rw [Nat.ofDigitChars_nil, parseDigits]
  | cons c cs ih =>
      rw [List.all_cons, Bool.and_eq_true] at hcs
      rw [Nat.ofDigitChars_cons] at hlt ⊢
      have hle := le_ofDigitChars cs (10 * n + (c.toNat - '0'.toNat))
      unfold parseDigits maxUint64
      dsimp only
      rw [if_pos hcs.1, if_neg (by omega), if_neg (by omega)]
      exact ih hcs.2 hlt

theorem parseDigits_outOfRange (hcs : cs.all Char.isDigit = true) (hn : n < 2 ^ 64)
    (hge : 2 ^ 64 ≤ Nat.ofDigitChars 10 cs n) :
    parseDigits n cs = (maxUint64, some .outOfRange) := by
  induction cs generalizing n with
  | nil =>
      rw [Nat.ofDigitChars_nil] at hge
      omega
  | cons c cs ih =>
      rw [List.all_cons, Bool.and_eq_true] at hcs
      rw [Nat.ofDigitChars_cons] at hge
      unfold parseDigits
      dsimp only
      rw [if_pos hcs.1]
      split_ifs with hcut hmax
      · rfl
      · rfl
      · exact ih hcs.2 (by unfold maxUint64 at hmax; omega) hge

/-- Without a number there is an error, and no size. -/
theorem parseDigits_error (hcs : ¬ cs.all Char.isDigit = true) :
    (parseDigits n cs).2 ≠ none ∧
      ((parseDigits n cs).1 = 0 ∨ (parseDigits n cs).1 = maxUint64) := by
  induction cs generalizing n with
  | nil => exact absurd rfl hcs
  | cons c cs ih =>
      unfold parseDigits
      dsimp only
      split_ifs with hc hcut hmax
      · simp
      · simp
      · apply ih
        intro hall
        exact hcs (by rw [List.all_cons, hc, hall, Bool.and_self])
      · simp

theorem parseUint_error (hs : s = "" ∨ ¬ s.toList.all Char.isDigit = true) :
    (parseUint s).2 ≠ none ∧ ((parseUint s).1 = 0 ∨ (parseUint s).1 = maxUint64) := by
  unfold parseUint
  by_cases hempty : s = ""
  · rw [if_pos hempty]
    simp
  · rw [if_neg hempty]
    exact parseDigits_error (hs.resolve_left hempty)

theorem number_lt_cases (s : String) :
    (number s = 0 ∧ (parseUint s).2 ≠ none ∧
      ((parseUint s).1 = 0 ∨ (parseUint s).1 = maxUint64)) ∨
    (number s < 2 ^ 64 ∧ parseUint s = (number s, none)) ∨
    (2 ^ 64 ≤ number s ∧ parseUint s = (maxUint64, some .outOfRange)) := by
  by_cases hdigits : s.toList.all Char.isDigit = true
  · by_cases hempty : s = ""
    · refine Or.inl ⟨?_, parseUint_error (Or.inl hempty)⟩
      rw [hempty]
      rfl
    · unfold number parseUint
      rw [if_pos hdigits, if_neg hempty]
      right
      by_cases hlt : Nat.ofDigitChars 10 s.toList 0 < 2 ^ 64
      · exact Or.inl ⟨hlt, parseDigits_ok hdigits hlt⟩
      · exact Or.inr ⟨by omega, parseDigits_outOfRange hdigits (by omega) (by omega)⟩
  · refine Or.inl ⟨?_, parseUint_error (Or.inr hdigits)⟩
    unfold number
    rw [if_neg hdigits]

end Numbers

/-! ## The clause -/

section Clause

variable {page size : String}

theorem toInt_of_lt {n : Nat} (hn : n < 2 ^ 63) : toInt n = n :=
  Int.bmod_eq_of_le (by omega) (by omega)

theorem toInt_of_ge {n : Nat} (hn : 2 ^ 63 ≤ n) (hn' : n < 2 ^ 64) : toInt n < 0 := by
  unfold toInt
  rw [Int.bmod_def]
  omega

theorem toInt_lt (n : Int) : toInt n < 2 ^ 63 := by
  unfold toInt
  rw [Int.bmod_def]
  omega

/-- The size is the number, unless that has more than 63 bits. -/
theorem pageSize_eq (page size : String) :
    (number size < 2 ^ 63 → number size ≠ 0 →
      (getPageAndSizeParams page size).2 = number size) ∧
    (number size = 0 ∨ 2 ^ 63 ≤ number size → (getPageAndSizeParams page size).2 ≤ 0) := by
  have hmax : toInt (maxUint64 : Nat) ≤ 0 := by
    have := toInt_of_ge (n := maxUint64) (by decide) (by decide)
    omega
  have hzero : toInt (0 : Nat) ≤ 0 := by decide
  have hsize : (getPageAndSizeParams page size).2 = toInt ((parseUint size).1 : Nat) := by
    unfold getPageAndSizeParams
    dsimp only
  rw [hsize]
  rcases number_lt_cases size with ⟨hnum, _, h | h⟩ | ⟨hlt, h⟩ | ⟨hge, h⟩
  · rw [h]
    exact ⟨fun _ hne => absurd hnum hne, fun _ => hzero⟩
  · rw [h]
    exact ⟨fun _ hne => absurd hnum hne, fun _ => hmax⟩
  · rw [h]
    refine ⟨fun hlt' _ => toInt_of_lt hlt', fun hbig => ?_⟩
    dsimp only
    rcases hbig with hbig | hbig
    · rw [hbig]
      exact hzero
    · have := toInt_of_ge hbig hlt
      omega
  · rw [h]
    exact ⟨fun hlt' _ => by omega, fun _ => hmax⟩

/-- The page of a request, before it is converted. -/
theorem page_eq (page : String) :
    (if (parseUint page).2 ≠ none ∨ (parseUint page).1 = 0 then 1 else (parseUint page).1) =
      if number page < 2 ^ 64 then max 1 (number page) else 1 := by
  rcases number_lt_cases page with ⟨hnum, herr, _⟩ | ⟨hlt, h⟩ | ⟨hge, h⟩
  · rw [if_pos (Or.inl herr), hnum]
    rfl
  · rw [h, if_pos hlt]
    by_cases hzero : number page = 0
    · rw [if_pos (Or.inr hzero), hzero]
      rfl
    · rw [if_neg (not_or.mpr ⟨not_not.mpr rfl, hzero⟩)]
      omega
  · rw [h, if_pos (Or.inl (by simp)), if_neg (by omega)]

/-- The page that `GetPaginatedChartList` goes on with. -/
theorem pageNumber_eq (page size : String) :
    (if (getPageAndSizeParams page size).1 ≤ 0 then 1 else (getPageAndSizeParams page size).1) =
      if number page < 2 ^ 63 then (max 1 (number page) : Nat) else (1 : Nat) := by
  have hpage : (getPageAndSizeParams page size).1 =
      toInt ((if (parseUint page).2 ≠ none ∨ (parseUint page).1 = 0 then 1
        else (parseUint page).1 : Nat)) := by
    unfold getPageAndSizeParams
    dsimp only
  rw [hpage, page_eq]
  by_cases hsmall : number page < 2 ^ 63
  · rw [if_pos (by omega : number page < 2 ^ 64), if_pos hsmall, toInt_of_lt (by omega),
      if_neg (by omega)]
  · rw [if_neg hsmall]
    by_cases hlt : number page < 2 ^ 64
    · have := toInt_of_ge (n := max 1 (number page)) (by omega) (by omega)
      rw [if_pos hlt, if_pos (by omega)]
      rfl
    · rw [if_neg hlt]
      rfl

theorem toString_int_injective {i j : Int} (h : toString i = toString j) : i = j := by
  have hnat : ∀ m n : Nat, toString m = toString n → m = n := by
    intro m n heq
    have hlist := congrArg String.toList heq
    rw [Nat.toString_eq_repr, Nat.toString_eq_repr, Nat.toList_repr, Nat.toList_repr] at hlist
    have hdigits := congrArg (Nat.ofDigitChars 10 · 0) hlist
    simpa only [Nat.ofDigitChars_ten_toDigits] using hdigits
  have hminus : ∀ m n : Nat, toString m ≠ "-" ++ toString n := by
    intro m n heq
    have hlist := congrArg String.toList heq
    rw [String.toList_append, Nat.toString_eq_repr, Nat.toList_repr] at hlist
    have hmem : '-' ∈ Nat.toDigits 10 m := by
      rw [hlist]
      exact List.mem_cons_self
    have hdigit := Nat.isDigit_of_mem_toDigits (by decide) (by decide) hmem
    exact absurd hdigit (by decide)
  cases i with
  | ofNat m =>
      cases j with
      | ofNat n => exact congrArg Int.ofNat (hnat m n h)
      | negSucc n => exact absurd h (hminus m (n + 1))
  | negSucc m =>
      cases j with
      | ofNat n => exact absurd h.symm (hminus n (m + 1))
      | negSucc n =>
          have hsucc : toString (m + 1) = toString (n + 1) := by
            apply String.toList_inj.mp
            have hlist := congrArg String.toList h
            have hneg : ∀ k : Nat, (toString (Int.negSucc k)).toList =
                "-".toList ++ (toString (k + 1)).toList :=
              fun k => String.toList_append
            rw [hneg, hneg] at hlist
            exact List.append_cancel_left hlist
          have := hnat _ _ hsucc
          congr 1
          omega

/-- The clause, with the numbers as they are after the conversions. -/
theorem paginationClause_eq (hsize : number size < 2 ^ 63) (hne : number size ≠ 0) :
    paginationClause (getPageAndSizeParams page size).1 (getPageAndSizeParams page size).2 =
      "LIMIT " ++ toString (number size) ++ " OFFSET " ++ toString (toInt
        (((if number page < 2 ^ 63 then max 1 (number page) - 1 else 0) * number size : Nat))) := by
  have hpos : ((number size : Nat) : Int) > 0 := by omega
  unfold paginationClause
  rw [pageNumber_eq, (pageSize_eq page size).1 hsize hne]
  dsimp only
  rw [if_pos hpos]
  congr 3
  push_cast
  congr 1
  split_ifs with hpage
  · omega
  · omega

theorem rightClause_iff :
    paginationClause (getPageAndSizeParams page size).1 (getPageAndSizeParams page size).2 =
      rightClause page size ↔ number size = 0 ∨ Fits page size := by
  by_cases hzero : number size = 0
  · have hsize := (pageSize_eq page size).2 (Or.inl hzero)
    have hclause : paginationClause (getPageAndSizeParams page size).1
        (getPageAndSizeParams page size).2 = "" := by
      unfold paginationClause
      dsimp only
      rw [if_neg (by omega)]
    unfold rightClause
    rw [hclause, if_pos hzero]
    exact ⟨fun _ => Or.inl hzero, fun _ => rfl⟩
  · by_cases hsize : number size < 2 ^ 63
    · unfold rightClause
      rw [paginationClause_eq hsize hzero, if_neg hzero]
      constructor
      · intro heq
        have hoffset := toString_int_injective (j := ((max 1 (number page) - 1) * number size : Nat))
          ((String.append_right_inj _).mp heq)
        have hlt := toInt_lt
          (((if number page < 2 ^ 63 then max 1 (number page) - 1 else 0) * number size : Nat))
        right
        have hmax : max 1 (number page) - 1 = number page - 1 := by omega
        rw [hoffset, hmax] at hlt
        refine ⟨?_, hsize, by omega⟩
        by_contra hpage
        rw [if_neg hpage, Nat.zero_mul, hmax] at hoffset
        have hpos : 0 < (number page - 1) * number size := Nat.mul_pos (by omega) (by omega)
        have hzero' : toInt (0 : Nat) = 0 := by decide
        omega
      · intro hfits
        obtain hfits := hfits.resolve_left hzero
        have hmax : max 1 (number page) - 1 = number page - 1 := by omega
        rw [if_pos hfits.page_lt, hmax, toInt_of_lt hfits.offset_lt]
        rfl
    · have hsize' := (pageSize_eq page size).2 (Or.inr (by omega))
      have hclause : paginationClause (getPageAndSizeParams page size).1
          (getPageAndSizeParams page size).2 = "" := by
        unfold paginationClause
        dsimp only
        rw [if_neg (by omega)]
      unfold rightClause
      rw [hclause, if_neg hzero]
      constructor
      · intro heq
        have hlist := congrArg String.length heq
        rw [String.length_append, String.length_append, String.length_append] at hlist
        have hprefix : "LIMIT ".length = 6 := rfl
        have hempty : "".length = 0 := rfl
        omega
      · intro hfits
        exact absurd (hfits.resolve_left hzero).size_lt hsize

end Clause

end Kubeapps.Assetsvc
