/-
  Base64, and the two functions of a browser that use it.

  Three bytes are written as four digits of six bits; two bytes or one that are left as three digits
  or two, filled up with equals signs. `decodeBase64` forgives blanks and missing equals signs.
  `btoa` and `atob` take the characters below 256 for bytes: `atob_btoa`.
-/
import Kubeapps.Lib.Percent

namespace Kubeapps.Lib

/-! ## Digits -/

def base64Digits : List Char :=
  "ABCDEFGHIJKLMNOPQRSTUVWXYZabcdefghijklmnopqrstuvwxyz0123456789+/".toList

def base64Char (n : Nat) : Char := base64Digits.getD n 'A'

def base64Value (c : Char) : Option Nat := base64Digits.findIdx? (· = c)

/-- The digits of some bytes. -/
def sextets : Bytes → List Nat
  | a :: b :: c :: rest =>
      a.toNat / 4 :: (a.toNat % 4 * 16 + b.toNat / 16) :: (b.toNat % 16 * 4 + c.toNat / 64) ::
        c.toNat % 64 :: sextets rest
  | [a, b] => [a.toNat / 4, a.toNat % 4 * 16 + b.toNat / 16, b.toNat % 16 * 4]
  | [a] => [a.toNat / 4, a.toNat % 4 * 16]
  | [] => []

/-- The bytes of some digits. The bits that do not fill a byte are dropped. -/
def octets : List Nat → Bytes
  | i :: j :: k :: l :: rest =>
      UInt8.ofNat (i * 4 + j / 16) :: UInt8.ofNat (j % 16 * 16 + k / 4) ::
        UInt8.ofNat (k % 4 * 64 + l) :: octets rest
  | [i, j, k] => [UInt8.ofNat (i * 4 + j / 16), UInt8.ofNat (j % 16 * 16 + k / 4)]
  | [i, j] => [UInt8.ofNat (i * 4 + j / 16)]
  | _ => []

/-- How many equals signs there are. -/
def padding (bs : Bytes) : Nat := (3 - bs.length % 3) % 3

def encodeBase64 (bs : Bytes) : String :=
  String.ofList ((sextets bs).map base64Char ++ List.replicate (padding bs) '=')

/-- Tab, line feed, form feed, carriage return and blank. -/
def asciiWhitespace (c : Char) : Bool :=
  c = '\t' || c = '\n' || c = Char.ofNat 0x0c || c = '\r' || c = ' '

/-- Up to two equals signs at the end are left out. -/
def dropPadding (cs : List Char) : List Char :=
  match cs.reverse with
  | '=' :: '=' :: rest => rest.reverse
  | '=' :: rest => rest.reverse
  | _ => cs

/-- The forgiving decoding: equals signs only count if with them there are four characters for each
    group, and one character over is none. -/
def decodeBase64 (s : String) : Option Bytes :=
  let cs := s.toList.filter fun c => !asciiWhitespace c
  let digits := if cs.length % 4 = 0 then dropPadding cs else cs
  if digits.length % 4 = 1 then none else (digits.mapM base64Value).map octets

example : encodeBase64 (bytes "user:pass") = "dXNlcjpwYXNz" := by decide +kernel

theorem base64Char_digit : ∀ n < 64, base64Value (base64Char n) = some n ∧
    asciiWhitespace (base64Char n) = false ∧ base64Char n ≠ '=' ∧ (base64Char n).toNat < 0x80 := by
  decide +kernel

theorem lt_of_mem_sextets {bs : Bytes} {n : Nat} (h : n ∈ sextets bs) : n < 64 := by
  induction bs using sextets.induct with
  | case1 a b c rest ih =>
      have ha := a.toNat_lt
      have hb := b.toNat_lt
      have hc := c.toNat_lt
      simp only [sextets, List.mem_cons] at h
      rcases h with rfl | rfl | rfl | rfl | h
      · omega
      · omega
      · omega
      · omega
      · exact ih h
  | case2 a b =>
      have ha := a.toNat_lt
      have hb := b.toNat_lt
      simp only [sextets, List.mem_cons, List.not_mem_nil, or_false] at h
      omega
  | case3 a =>
      have ha := a.toNat_lt
      simp only [sextets, List.mem_cons, List.not_mem_nil, or_false] at h
      omega
  | case4 => simp [sextets] at h

theorem octets_sextets (bs : Bytes) : octets (sextets bs) = bs := by
  have hbyte : ∀ (b : UInt8) {n : Nat}, n = b.toNat → UInt8.ofNat n = b := by
    intro b n h
    rw [h, UInt8.ofNat_toNat]
  induction bs using sextets.induct with
  | case1 a b c rest ih =>
      have ha := a.toNat_lt
      have hb := b.toNat_lt
      have hc := c.toNat_lt
      rw [sextets, octets, ih, hbyte a (by omega), hbyte b (by omega), hbyte c (by omega)]
  | case2 a b =>
      have ha := a.toNat_lt
      have hb := b.toNat_lt
      rw [sextets, octets, hbyte a (by omega), hbyte b (by omega)]
  | case3 a =>
      have ha := a.toNat_lt
      rw [sextets, octets, hbyte a (by omega)]
  | case4 => rfl

/-- With the equals signs there are four characters for each group. -/
theorem length_sextets (bs : Bytes) : ((sextets bs).length + padding bs) % 4 = 0 ∧
    (sextets bs).length % 4 ≠ 1 := by
  unfold padding
  induction bs using sextets.induct with
  | case1 a b c rest ih =>
      rw [sextets]
      simp only [List.length_cons] at ih ⊢
      omega
  | case2 a b => simp [sextets]
  | case3 a => simp [sextets]
  | case4 => simp [sextets]

theorem dropPadding_replicate {cs : List Char} (h : '=' ∉ cs) {n : Nat} (hn : n ≤ 2) :
    dropPadding (cs ++ List.replicate n '=') = cs := by
  have hrev : ∀ rest, cs.reverse ≠ '=' :: rest := by
    intro rest heq
    have hmem : '=' ∈ cs.reverse := by
      rw [heq]
      exact List.mem_cons_self
    exact h (List.mem_reverse.mp hmem)
  have hcases : n = 0 ∨ n = 1 ∨ n = 2 := by omega
  unfold dropPadding
  rw [List.reverse_append, List.reverse_replicate]
  rcases hcases with rfl | rfl | rfl
  · rw [List.replicate_zero, List.nil_append, List.append_nil]
    split
    · rename_i rest heq
      exact absurd heq (hrev _)
    · rename_i rest heq
      exact absurd heq (hrev _)
    · rfl
  · rw [List.replicate_one, List.singleton_append]
    split
    · rename_i rest heq
      exact absurd (List.cons.inj heq).2 (hrev rest)
    · rename_i rest _ heq
      rw [← (List.cons.inj heq).2, List.reverse_reverse]
    · rename_i hno
      exact absurd rfl (hno _)
  · show cs.reverse.reverse = cs
    rw [List.reverse_reverse]

theorem mapM_base64Value {ns : List Nat} (h : ∀ n ∈ ns, n < 64) :
    (ns.map base64Char).mapM base64Value = some ns := by
  induction ns with
  | nil => rfl
  | cons n ns ih =>
      have hn := (base64Char_digit n (h n List.mem_cons_self)).1
      have hns := ih fun m hm => h m (List.mem_cons_of_mem n hm)
      rw [List.map_cons, List.mapM_cons, hn, hns]
      rfl

/-- What was encoded is decoded. -/
theorem decodeBase64_encodeBase64 (bs : Bytes) : decodeBase64 (encodeBase64 bs) = some bs := by
  have hdigit : ∀ n ∈ sextets bs, n < 64 := fun n hn => lt_of_mem_sextets hn
  have hpad : '=' ∉ (sextets bs).map base64Char := by
    intro h
    obtain ⟨n, hn, heq⟩ := List.mem_map.mp h
    exact (base64Char_digit n (hdigit n hn)).2.2.1 heq
  have hblank : ((sextets bs).map base64Char ++ List.replicate (padding bs) '=').filter
      (fun c => !asciiWhitespace c) =
        (sextets bs).map base64Char ++ List.replicate (padding bs) '=' := by
    rw [List.filter_eq_self]
    intro c hc
    rcases List.mem_append.mp hc with hc | hc
    · obtain ⟨n, hn, rfl⟩ := List.mem_map.mp hc
      rw [(base64Char_digit n (hdigit n hn)).2.1]
      rfl
    · rw [List.eq_of_mem_replicate hc]
      decide
  have hle : padding bs ≤ 2 := by
    unfold padding
    omega
  obtain ⟨hfull, hone⟩ := length_sextets bs
  unfold decodeBase64 encodeBase64
  rw [String.toList_ofList, hblank]
  dsimp only
  rw [List.length_append, List.length_map, List.length_replicate, if_pos hfull,
    dropPadding_replicate hpad hle, List.length_map, if_neg hone, mapM_base64Value hdigit,
    Option.map_some, octets_sextets]

/-- The characters of an encoding. -/
theorem mem_encodeBase64 {bs : Bytes} {c : Char} (h : c ∈ (encodeBase64 bs).toList) :
    c.toNat < 0x80 ∧ asciiWhitespace c = false := by
  unfold encodeBase64 at h
  rw [String.toList_ofList] at h
  rcases List.mem_append.mp h with hc | hc
  · obtain ⟨n, hn, rfl⟩ := List.mem_map.mp hc
    have hn := base64Char_digit n (lt_of_mem_sextets hn)
    exact ⟨hn.2.2.2, hn.2.1⟩
  · rw [List.eq_of_mem_replicate hc]
    decide

theorem encodeBase64_eq_empty {bs : Bytes} : encodeBase64 bs = "" ↔ bs = [] := by
  constructor
  · intro h
    have hdec := decodeBase64_encodeBase64 bs
    rw [h] at hdec
    exact (Option.some.inj hdec).symm
  · rintro rfl
    rfl

/-! ## Binary strings -/

/-- Every character is below 256. -/
def Latin1 (s : String) : Prop := ∀ c ∈ s.toList, c.toNat < 256

instance (s : String) : Decidable (Latin1 s) :=
  decidable_of_iff (s.toList.all (fun c => decide (c.toNat < 256)) = true) (by simp [Latin1])

/-- The string with a character for each byte. -/
def binaryString (bs : Bytes) : String := String.ofList (bs.map fun b => Char.ofNat b.toNat)

/-- `btoa`, which throws on other characters. -/
def btoa (s : String) : Option String :=
  if Latin1 s then some (encodeBase64 (s.toList.map fun c => UInt8.ofNat c.toNat)) else none

/-- `atob`, which throws on what is no encoding. -/
def atob (s : String) : Option String := (decodeBase64 s).map binaryString

theorem toNat_ofNat_byte (b : UInt8) : (Char.ofNat b.toNat).toNat = b.toNat := by
  have hvalid : b.toNat.isValidChar := by
    have hlt := b.toNat_lt
    exact .inl (by omega)
  unfold Char.ofNat
  rw [dif_pos hvalid]
  rfl

theorem atob_encodeBase64 (bs : Bytes) : atob (encodeBase64 bs) = some (binaryString bs) := by
  rw [atob, decodeBase64_encodeBase64, Option.map_some]

theorem binaryString_codes {s : String} (h : Latin1 s) :
    binaryString (s.toList.map fun c => UInt8.ofNat c.toNat) = s := by
  unfold binaryString
  rw [List.map_map]
  have hid : s.toList.map ((fun b => Char.ofNat b.toNat) ∘ fun c => UInt8.ofNat c.toNat) =
      s.toList.map id := by
    refine List.map_congr_left fun c hc => ?_
    have hlt := h c hc
    simp only [Function.comp_apply, UInt8.toNat_ofNat', id]
    rw [Nat.mod_eq_of_lt (by omega), Char.ofNat_toNat]
  rw [hid, List.map_id, String.ofList_toList]

theorem btoa_of_latin1 {s : String} (h : Latin1 s) :
    ∃ t, btoa s = some t ∧ atob t = some s ∧ ∀ c ∈ t.toList, c.toNat < 0x80 ∧ c ≠ ' ' := by
  refine ⟨_, if_pos h, ?_, fun c hc => ?_⟩
  · rw [atob_encodeBase64, binaryString_codes h]
  · obtain ⟨hascii, hblank⟩ := mem_encodeBase64 hc
    refine ⟨hascii, fun heq => ?_⟩
    rw [heq] at hblank
    exact absurd hblank (by decide)

theorem length_utf8EncodeChar (c : Char) : 1 ≤ (String.utf8EncodeChar c).length ∧
    ((String.utf8EncodeChar c).length = 1 ↔ c.toNat < 0x80) := by
  rw [String.length_utf8EncodeChar, Char.utf8Size_eq_one_iff]
  refine ⟨c.utf8Size_pos, ?_⟩
  rw [UInt32.le_iff_toNat_le]
  show c.val.toNat ≤ 127 ↔ c.val.toNat < 128
  omega

/-- The UTF-8 bytes of a string, read as characters, are the string if it is ASCII only. -/
theorem binaryString_bytes_iff (s : String) :
    binaryString (bytes s) = s ↔ ∀ c ∈ s.toList, c.toNat < 0x80 := by
  rw [bytes_eq]
  constructor
  · intro h
    have hlen := congrArg (fun t => t.toList.length) h
    unfold binaryString at hlen
    simp only [String.toList_ofList, List.length_map] at hlen
    have hle : ∀ cs : List Char, cs.length ≤ (cs.flatMap String.utf8EncodeChar).length ∧
        ((cs.flatMap String.utf8EncodeChar).length = cs.length → ∀ c ∈ cs, c.toNat < 0x80) := by
      intro cs
      induction cs with
      | nil => simp
      | cons c cs ih =>
          obtain ⟨hpos, hone⟩ := length_utf8EncodeChar c
          rw [List.flatMap_cons, List.length_append, List.length_cons]
          refine ⟨by omega, fun heq d hd => ?_⟩
          rcases List.mem_cons.mp hd with rfl | hd
          · exact hone.mp (by omega)
          · exact ih.2 (by omega) d hd
    exact (hle s.toList).2 hlen
  · intro h
    have hbytes : s.toList.flatMap String.utf8EncodeChar =
        s.toList.map fun c => UInt8.ofNat c.toNat := by
      rw [← List.flatMap_pure_eq_map]
      refine List.flatMap_congr fun c hc => ?_
      exact utf8EncodeChar_ascii (h c hc)
    rw [hbytes]
    exact binaryString_codes fun c hc => Nat.lt_trans (h c hc) (by decide)

end Kubeapps.Lib
