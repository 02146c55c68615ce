/-
  The string functions of Go's `strings`, `path` and `net/url` that the programs call,
  after their documentation. All of them work on the list of characters.

  `pathEscape` is `url.PathEscape`: every byte outside letters, digits and `-_.~$&+:=@` becomes
  `%XX`. `pathClean` and `pathJoin` are `path.Clean` and `path.Join`, purely lexical.
  `mem_pathEscape` and `mem_pathJoin` bound the characters of the results, and `pathBase_pathJoin` is
  the last element of a joined path.
-/
import Kubeapps.Lib.Trim
import Mathlib.Data.List.Infix
import Mathlib.Tactic.Cases

namespace Kubeapps.Lib

/-! ## `strings` -/

/-- `strings.Contains s sub`. -/
def contains (s sub : String) : Bool := decide (sub.toList <:+: s.toList)

/-- `unicode.IsSpace`. -/
def isSpace (c : Char) : Bool :=
  c ∈ [' ', '\t', '\n', '\r', Char.ofNat 0x0b, Char.ofNat 0x0c, Char.ofNat 0x85,
    Char.ofNat 0xa0, Char.ofNat 0x1680, Char.ofNat 0x2028, Char.ofNat 0x2029,
    Char.ofNat 0x202f, Char.ofNat 0x205f, Char.ofNat 0x3000] ||
  (0x2000 ≤ c.toNat && c.toNat ≤ 0x200a)

/-- `strings.TrimSpace`. -/
def trimSpace (s : String) : String :=
  String.ofList (((s.toList.dropWhile isSpace).reverse.dropWhile isSpace).reverse)

/-- `strings.Split s "/"`. -/
def splitSlash (s : String) : List (List Char) := s.toList.splitOn '/'

/-! ## `net/url` -/

def hexDigit (n : Nat) : Char := if n < 10 then Char.ofNat (48 + n) else Char.ofNat (55 + n)

/-- The bytes `url.PathEscape` leaves alone. -/
def pathSegmentChar (c : Char) : Bool :=
  c.isAlphanum || c ∈ ['-', '_', '.', '~', '$', '&', '+', ':', '=', '@']

def escapeByte (b : UInt8) : List Char :=
  let c := Char.ofNat b.toNat
  if pathSegmentChar c then [c]
  else ['%', hexDigit (b.toNat / 16), hexDigit (b.toNat % 16)]

/-- `url.PathEscape`. -/
def pathEscape (s : String) : String := String.ofList (s.toUTF8.toList.flatMap escapeByte)

example : pathEscape "foo/bar" = "foo%2Fbar" := by decide +kernel

theorem hexDigit_segment : ∀ n < 16, pathSegmentChar (hexDigit n) = true := by decide

/-- Every character of an escaped name is one `PathEscape` leaves alone, or `%`. -/
theorem mem_pathEscape {s : String} {c : Char} (h : c ∈ (pathEscape s).toList) :
    pathSegmentChar c = true ∨ c = '%' := by
  simp only [pathEscape, String.toList_ofList, List.mem_flatMap] at h
  obtain ⟨b, _, hc⟩ := h
  unfold escapeByte at hc
  dsimp only at hc
  split at hc
  · rename_i hseg
    simp only [List.mem_singleton] at hc
    subst hc
    exact Or.inl hseg
  · have hb : b.toNat < 256 := b.toNat_lt
    simp only [List.mem_cons, List.not_mem_nil, or_false] at hc
    rcases hc with rfl | rfl | rfl
    · exact Or.inr rfl
    · exact Or.inl (hexDigit_segment _ (by omega))
    · exact Or.inl (hexDigit_segment _ (by omega))

/-! ## `path` -/

/-- The elements `path.Clean` keeps, last one first: empty elements and `.` go, and `..`
    takes the element before it, if there is one to take. -/
def cleanElems (rooted : Bool) : List (List Char) → List (List Char) → List (List Char)
  | kept, [] => kept
  | kept, e :: es =>
      if e = [] ∨ e = ['.'] then cleanElems rooted kept es
      else if e = ['.', '.'] then
        match kept with
        | [] => cleanElems rooted (if rooted then [] else [e]) es
        | k :: ks =>
            if k = ['.', '.'] then cleanElems rooted (e :: k :: ks) es
            else cleanElems rooted ks es
      else cleanElems rooted (e :: kept) es

/-- `path.Clean`. -/
def pathClean (s : String) : String :=
  let rooted := s.toList.head? = some '/'
  let out := ['/'].intercalate (cleanElems rooted [] (splitSlash s)).reverse
  if rooted then String.ofList ('/' :: out)
  else if out = [] then "." else String.ofList out

/-- `path.Join`: the elements from the first non-empty one on, joined by `/` and cleaned. -/
def pathJoin (elems : List String) : String :=
  match elems.dropWhile (· = "") with
  | [] => ""
  | es => pathClean ("/".intercalate es)

/-- `path.Base`: the last element, `.` for the empty path, `/` for one of slashes only. -/
def pathBase (s : String) : String :=
  if s.toList = [] then "."
  else
    match (splitSlash s).reverse.dropWhile (· = []) with
    | [] => "/"
    | e :: _ => String.ofList e

/-! ### The characters of a joined path -/

/-- The members of a joined list are those of the separator and of the parts. -/
theorem mem_of_mem_intercalate {α : Type} {sep : List α} {ls : List (List α)} {c : α}
    (h : c ∈ sep.intercalate ls) : c ∈ sep ∨ ∃ l ∈ ls, c ∈ l := by
  induction ls with
  | nil => simp at h
  | cons l ls ih =>
      cases ls with
      | nil => exact Or.inr ⟨l, by simp, by simpa using h⟩
      | cons l' ls =>
          simp only [List.intercalate_cons_cons, List.mem_append] at h
          rcases h with (h | h) | h
          · exact Or.inr ⟨l, by simp, h⟩
          · exact Or.inl h
          · rcases ih h with h | ⟨m, hm, hc⟩
            · exact Or.inl h
            · exact Or.inr ⟨m, List.mem_cons_of_mem _ hm, hc⟩

theorem mem_intercalate_of_mem {α : Type} {sep : List α} {ls : List (List α)} {l : List α}
    {c : α} (hl : l ∈ ls) (hc : c ∈ l) : c ∈ sep.intercalate ls := by
  induction ls with
  | nil => cases hl
  | cons m ls ih =>
      cases ls with
      | nil =>
          rw [List.mem_singleton.mp hl] at hc
          simpa using hc
      | cons m' ls =>
          simp only [List.intercalate_cons_cons, List.mem_append]
          rcases List.mem_cons.mp hl with rfl | hl
          · exact Or.inl (Or.inl hc)
          · exact Or.inr (ih hl)

/-- An element `cleanElems` keeps was kept before or is an element of the path. -/
theorem mem_cleanElems {rooted : Bool} {kept es : List (List Char)} {e : List Char}
    (h : e ∈ cleanElems rooted kept es) : e ∈ kept ∨ e ∈ es := by
  fun_induction cleanElems rooted kept es <;> grind

theorem mem_of_mem_splitSlash {s : String} {e : List Char} {c : Char} (he : e ∈ splitSlash s)
    (hc : c ∈ e) : c ∈ s.toList := by
  have h : c ∈ ['/'].intercalate (s.toList.splitOn '/') := mem_intercalate_of_mem he hc
  rwa [List.intercalate_splitOn] at h

theorem mem_pathClean {s : String} {c : Char} (h : c ∈ (pathClean s).toList) :
    c ∈ s.toList ∨ c = '/' ∨ c = '.' := by
  have hout : ∀ r, c ∈ ['/'].intercalate (cleanElems r [] (splitSlash s)).reverse →
      c ∈ s.toList ∨ c = '/' ∨ c = '.' := by
    intro r hc
    rcases mem_of_mem_intercalate hc with hc | ⟨e, he, hc⟩
    · exact Or.inr (Or.inl (List.mem_singleton.mp hc))
    · rcases mem_cleanElems (List.mem_reverse.mp he) with he | he
      · cases he
      · exact Or.inl (mem_of_mem_splitSlash he hc)
  unfold pathClean at h
  dsimp only at h
  split at h
  · rw [String.toList_ofList] at h
    rcases List.mem_cons.mp h with rfl | h
    · exact Or.inr (Or.inl rfl)
    · exact hout _ h
  · split at h
    · exact Or.inr (Or.inr (by simpa using h))
    · rw [String.toList_ofList] at h
      exact hout _ h

/-- Every character of a joined path is one of the elements' or is `/` or `.`. -/
theorem mem_pathJoin {elems : List String} {c : Char} (h : c ∈ (pathJoin elems).toList) :
    (∃ e ∈ elems, c ∈ e.toList) ∨ c = '/' ∨ c = '.' := by
  unfold pathJoin at h
  split at h
  · simp at h
  · rename_i es hes
    have hsub : ∀ e ∈ elems.dropWhile (· = ""), e ∈ elems :=
      fun e he => (List.dropWhile_sublist _).mem he
    rcases mem_pathClean h with h | h
    · rw [String.toList_intercalate] at h
      rcases mem_of_mem_intercalate h with h | ⟨l, hl, hc⟩
      · exact Or.inr (Or.inl (by simpa using h))
      · obtain ⟨e, he, rfl⟩ := List.mem_map.mp hl
        exact Or.inl ⟨e, hsub e he, hc⟩
    · exact Or.inr h

/-! ### The last element of a path -/

/-- An element that `path.Clean` keeps, whatever comes before it. -/
structure KeptElem (e : String) : Prop where
  slash : '/' ∉ e.toList
  nonempty : e.toList ≠ []
  dot : e.toList ≠ ['.']
  dots : e.toList ≠ ['.', '.']

theorem cleanElems_concat {rooted : Bool} {kept es : List (List Char)} {e : String}
    (he : KeptElem e) :
    cleanElems rooted kept (es ++ [e.toList]) = e.toList :: cleanElems rooted kept es := by
  obtain ⟨-, hne, hdot, hdots⟩ := he
  fun_induction cleanElems rooted kept es <;> simp_all [cleanElems]

/-- What is kept of a path whose last element is kept. -/
theorem cleanElems_last {s e : String} {es : List (List Char)} (he : KeptElem e)
    (hs : splitSlash s = es ++ [e.toList]) (rooted : Bool) :
    ∃ ks, (cleanElems rooted [] (splitSlash s)).reverse = ks ++ [e.toList] ∧
      ∀ l ∈ ks ++ [e.toList], '/' ∉ l := by
  refine ⟨(cleanElems rooted [] es).reverse, ?_, fun l hl => ?_⟩
  · rw [hs, cleanElems_concat he, List.reverse_cons]
  · have hmem : l ∈ splitSlash s := by
      rw [hs]
      rcases List.mem_append.mp hl with hl | hl
      · rcases mem_cleanElems (List.mem_reverse.mp hl) with hl | hl
        · cases hl
        · exact List.mem_append_left _ hl
      · exact List.mem_append_right _ hl
    exact not_mem_of_mem_splitOn hmem

/-- A path whose last element is kept ends in it when it is clean. -/
theorem splitSlash_pathClean {s e : String} {es : List (List Char)} (he : KeptElem e)
    (hs : splitSlash s = es ++ [e.toList]) :
    ∃ ks, splitSlash (pathClean s) = ks ++ [e.toList] := by
  obtain ⟨ks, hks, hslash⟩ := cleanElems_last he hs (decide (s.toList.head? = some '/'))
  have hout := List.splitOn_intercalate '/' hslash (by simp)
  have hne : ['/'].intercalate (ks ++ [e.toList]) ≠ [] := by
    intro hnil
    rw [hnil, List.splitOn_nil] at hout
    cases ks with
    | nil => exact he.nonempty (List.cons.inj hout).1.symm
    | cons k ks => simp at hout
  unfold pathClean
  dsimp only
  rw [hks, if_neg hne]
  split
  · refine ⟨[] :: ks, ?_⟩
    have hroot := List.splitOn_append_cons_self (a := '/') [] (['/'].intercalate (ks ++ [e.toList]))
    rw [List.splitOn_nil, List.nil_append, hout] at hroot
    rw [splitSlash, String.toList_ofList, hroot]
    rfl
  · refine ⟨ks, ?_⟩
    rw [splitSlash, String.toList_ofList, hout]

/-- The base of a path that ends in an element that `path.Clean` keeps. -/
theorem pathBase_pathJoin {parent e : String} (hparent : parent ≠ "") (he : KeptElem e) :
    pathBase (pathJoin [parent, e]) = e := by
  have hjoin : pathJoin [parent, e] = pathClean ("/".intercalate [parent, e]) := by
    unfold pathJoin
    rw [List.dropWhile_cons_of_neg (by simpa using hparent)]
  have hsplit : splitSlash ("/".intercalate [parent, e]) = splitSlash parent ++ [e.toList] := by
    unfold splitSlash
    rw [show ("/".intercalate [parent, e]).toList = parent.toList ++ '/' :: e.toList by
      simp]
    rw [List.splitOn_append_cons_self, List.splitOn_eq_singleton he.slash]
  obtain ⟨ks, hks⟩ := splitSlash_pathClean he hsplit
  have hne : (pathClean ("/".intercalate [parent, e])).toList ≠ [] := by
    intro hnil
    rw [splitSlash, hnil, List.splitOn_nil] at hks
    cases ks with
    | nil => exact he.nonempty (List.cons.inj hks).1.symm
    | cons k ks => simp at hks
  unfold pathBase
  rw [hjoin, if_neg hne, hks, List.reverse_concat,
    List.dropWhile_cons_of_neg (by simpa using he.nonempty)]
  exact String.ofList_toList

theorem pathClean_ne_empty (s : String) : pathClean s ≠ "" := by
  unfold pathClean
  dsimp only
  intro h
  have hlist := congrArg String.toList h
  split at hlist
  · rw [String.toList_ofList] at hlist
    simp at hlist
  · split at hlist
    · simp at hlist
    · rw [String.toList_ofList] at hlist
      contradiction

theorem pathJoin_ne_empty {elems : List String} {e : String} (he : e ∈ elems) (hne : e ≠ "") :
    pathJoin elems ≠ "" := by
  unfold pathJoin
  split
  · rename_i hnil
    have hall := List.dropWhile_eq_nil_iff.mp hnil e he
    exact absurd (by simpa using hall) hne
  · exact pathClean_ne_empty _

/-! ## Kubernetes object names -/

/-- An RFC 1123 label: lower case letters, digits and inner dashes. -/
def dnsLabel (cs : List Char) : Bool :=
  cs ≠ [] && cs.all (fun c => c.isLower || c.isDigit || c == '-') &&
    cs.head? ≠ some '-' && cs.getLast? ≠ some '-'

/-- An RFC 1123 subdomain, what the API server takes for the name of an object. -/
def ValidName (s : String) : Prop :=
  (∀ l ∈ s.toList.splitOn '.', dnsLabel l = true) ∧ s.length ≤ 253

instance (s : String) : Decidable (ValidName s) := inferInstanceAs (Decidable (_ ∧ _))

theorem mem_validName {s : String} (h : ValidName s) {c : Char} (hc : c ∈ s.toList) :
    (c.isLower || c.isDigit || c == '-') = true ∨ c = '.' := by
  have e : ['.'].intercalate (s.toList.splitOn '.') = s.toList := List.intercalate_splitOn '.'
  rw [← e] at hc
  rcases mem_of_mem_intercalate hc with hc | ⟨l, hl, hc⟩
  · exact Or.inr (List.mem_singleton.mp hc)
  · have hlab := h.1 l hl
    simp only [dnsLabel, Bool.and_eq_true, List.all_eq_true] at hlab
    exact Or.inl (hlab.1.1.2 c hc)

theorem slash_not_mem_validName {s : String} (h : ValidName s) : '/' ∉ s.toList := by
  intro hmem
  rcases mem_validName h hmem with hc | hc
  · exact absurd hc (by decide)
  · exact absurd hc (by decide)

/-- An RFC 1123 label of at most 63 characters, what the API server takes for a namespace. -/
def ValidNamespace (s : String) : Prop := dnsLabel s.toList = true ∧ s.length ≤ 63

instance (s : String) : Decidable (ValidNamespace s) := inferInstanceAs (Decidable (_ ∧ _))

theorem mem_validNamespace {s : String} (h : ValidNamespace s) {c : Char} (hc : c ∈ s.toList) :
    (c.isLower || c.isDigit || c == '-') = true := by
  have hlab := h.1
  simp only [dnsLabel, Bool.and_eq_true, List.all_eq_true] at hlab
  exact hlab.1.1.2 c hc

example : pathJoin ["a/b", "", "../c"] = "a/c" := by decide +kernel
example : pathBase "a/b/" = "b" := by decide

end Kubeapps.Lib
