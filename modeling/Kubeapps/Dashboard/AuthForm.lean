/-
  The authorization of a repository in its form
  (src/dashboard/src/components/Config/AppRepoList/AppRepoForm.tsx: install and the effect on the
  secret).

  The form sends one header. It is kept in a secret, of which the form gets the base64 of the UTF-8
  bytes when it is opened again. An effect takes the header apart: its first run finds no header in
  the form and stores the decoded one, which makes it run again. `authKept_iff` says for which
  credentials the form then has what was entered.
-/
import Kubeapps.Kube.Credentials
import Kubeapps.Lib.Base64
import Kubeapps.Lib.Trim

namespace Kubeapps.Dashboard

open Kubeapps.Lib Kubeapps.Kube

/-! ## The form -/

inductive AuthMethod where
  | none
  | basic
  | bearer
  | custom
  | registrySecret
  deriving DecidableEq, Repr

/-- The state of the form that has to do with the authorization. -/
structure AuthFields where
  authMethod : AuthMethod
  user : String
  password : String
  authHeader : String
  token : String
  deriving DecidableEq, Repr

def initialAuth : AuthFields := ⟨.none, "", "", "", ""⟩

/-- `finalHeader` of `install`. Without a value `btoa` has thrown. -/
def finalHeader (st : AuthFields) : Option String :=
  match st.authMethod with
  | .custom => some st.authHeader
  | .basic => (btoa (st.user ++ ":" ++ st.password)).map ("Basic " ++ ·)
  | .bearer => some ("Bearer " ++ st.token)
  | .none => some ""
  | .registrySecret => some ""

/-- `s.split(sep)[i]`; an undefined one is written as `undefined`. -/
def word (sep : Char) (s : String) (i : Nat) : String :=
  ((s.toList.splitOn sep)[i]?.map String.ofList).getD "undefined"

def startsWith (s w : String) : Bool := w.toList.isPrefixOf s.toList

/-- A run of the effect on `secret` and `authHeader`. `data` is `authorizationHeader` of the
    secret's data; the other keys of the secret have no part in this. Without a value `atob` has
    thrown. -/
def secretEffect (data : Option String) (st : AuthFields) : Option AuthFields :=
  let encoded := data.getD ""
  if encoded = "" then some st
  else if startsWith st.authHeader "Basic" then
    (atob (word ' ' st.authHeader 1)).map fun userPass =>
      { st with
        user := word ':' userPass 0, password := word ':' userPass 1, authMethod := .basic }
  else if startsWith st.authHeader "Bearer" then
    some { st with token := word ' ' st.authHeader 1, authMethod := .bearer }
  else (atob encoded).map fun header => { st with authMethod := .custom, authHeader := header }

/-- The effect runs again when it has changed `authHeader`; at most `n` times. -/
def settle (data : Option String) : Nat → AuthFields → Option AuthFields
  | 0, _ => none
  | n + 1, st =>
      (secretEffect data st).bind fun st' =>
        if st'.authHeader = st.authHeader then some st' else settle data n st'

/-- The form once it has the secret. Two runs are enough (`settle_openForm`). -/
def openForm (data : Option String) : Option AuthFields := settle data 2 initialAuth

/-- `authorizationHeader` of the secret's data as the API server answers it, after the request `req`
    with this header was stored. -/
def savedData (req : AppRepositoryRequest) (header : String) : Option String :=
  ((secretsForRequest { req with authHeader := header }).lookup "authorizationHeader").map
    fun value => encodeBase64 (bytes value)

/-- A form saved with `fields` and opened again has the method and what `same` asks for, and sends
    the same header. -/
def AuthKept (req : AppRepositoryRequest) (fields : AuthFields) (same : AuthFields → Prop) : Prop :=
  ∃ header, finalHeader fields = some header ∧
    ∃ st, openForm (savedData req header) = some st ∧ st.authMethod = fields.authMethod ∧ same st ∧
      finalHeader st = some header

def BasicKept (req : AppRepositoryRequest) (user password : String) : Prop :=
  AuthKept req { initialAuth with authMethod := .basic, user := user, password := password }
    fun st => st.user = user ∧ st.password = password

def BearerKept (req : AppRepositoryRequest) (token : String) : Prop :=
  AuthKept req { initialAuth with authMethod := .bearer, token := token }
    fun st => st.token = token

def CustomKept (req : AppRepositoryRequest) (header : String) : Prop :=
  AuthKept req { initialAuth with authMethod := .custom, authHeader := header }
    fun st => st.authHeader = header

/-! ## Opening -/

section Open

variable {req : AppRepositoryRequest} {header : String}

/-- An empty header is not stored. -/
theorem savedData_eq (req : AppRepositoryRequest) (header : String) :
    savedData req header = if header = "" then none else some (encodeBase64 (bytes header)) := by
  unfold savedData secretsForRequest
  by_cases hheader : header = ""
  · by_cases hca : req.customCA = ""
    · simp [hca, hheader]
    · simp [hca, hheader, Finmap.lookup_insert_of_ne]
  · by_cases hca : req.customCA = ""
    · simp [hca, hheader]
    · simp [hca, hheader, Finmap.lookup_insert_of_ne]

/-- The header as the form gets it. -/
def decodedHeader (header : String) : String := binaryString (bytes header)

theorem bytes_eq_nil_iff {s : String} : bytes s = [] ↔ s = "" := by
  constructor
  · exact fun h => bytes_injective (h.trans (by decide))
  · rintro rfl
    decide

theorem encoded_ne (hne : header ≠ "") : encodeBase64 (bytes header) ≠ "" := fun h =>
  hne (bytes_eq_nil_iff.1 (encodeBase64_eq_empty.1 h))

/-- The first run stores the decoded header. -/
theorem secretEffect_first (hne : header ≠ "") :
    secretEffect (some (encodeBase64 (bytes header))) initialAuth =
      some { initialAuth with authMethod := .custom, authHeader := decodedHeader header } := by
  unfold secretEffect
  rw [Option.getD_some, if_neg (encoded_ne hne), if_neg (by decide), if_neg (by decide),
    atob_encodeBase64, Option.map_some]
  rfl

theorem decodedHeader_ne (hne : header ≠ "") : decodedHeader header ≠ "" := by
  intro h
  have hlist := congrArg String.toList h
  unfold decodedHeader binaryString at hlist
  rw [String.toList_ofList] at hlist
  exact hne (bytes_eq_nil_iff.1 (List.map_eq_nil_iff.mp hlist))

/-- The state after the first run. -/
def afterFirst (header : String) : AuthFields :=
  { initialAuth with authMethod := .custom, authHeader := decodedHeader header }

/-- The second run does not change the header any more. -/
theorem authHeader_second (hne : header ≠ "") {st : AuthFields}
    (h : secretEffect (some (encodeBase64 (bytes header))) (afterFirst header) = some st) :
    st.authHeader = decodedHeader header := by
  unfold secretEffect at h
  rw [Option.getD_some, if_neg (encoded_ne hne)] at h
  split at h
  · obtain ⟨userPass, _, rfl⟩ := Option.map_eq_some_iff.mp h
    rfl
  · split at h
    · rw [← Option.some.inj h]
      rfl
    · obtain ⟨decoded, hdecoded, rfl⟩ := Option.map_eq_some_iff.mp h
      rw [atob_encodeBase64] at hdecoded
      exact (Option.some.inj hdecoded).symm

/-- After the second run the effect is not run again. -/
theorem settle_openForm (hne : header ≠ "") (n : Nat) :
    settle (some (encodeBase64 (bytes header))) (n + 2) initialAuth =
      secretEffect (some (encodeBase64 (bytes header))) (afterFirst header) := by
  have hchanged : (afterFirst header).authHeader ≠ initialAuth.authHeader := decodedHeader_ne hne
  have hfirst : secretEffect (some (encodeBase64 (bytes header))) initialAuth =
      some (afterFirst header) := secretEffect_first hne
  rw [settle, hfirst, Option.bind_some, if_neg hchanged, settle]
  cases hsecond : secretEffect (some (encodeBase64 (bytes header))) (afterFirst header) with
  | none => rfl
  | some st => exact if_pos (authHeader_second hne hsecond)

theorem openForm_savedData (hne : header ≠ "") : openForm (savedData req header) =
    secretEffect (some (encodeBase64 (bytes header))) (afterFirst header) := by
  rw [savedData_eq, if_neg hne]
  exact settle_openForm hne 0

/-- What the form has of a header, by what the decoded one starts with. -/
theorem openForm_basic (req : AppRepositoryRequest)
    (h : startsWith (decodedHeader header) "Basic" = true) :
    openForm (savedData req header) =
      (atob (word ' ' (decodedHeader header) 1)).map fun userPass =>
        { afterFirst header with
          user := word ':' userPass 0, password := word ':' userPass 1, authMethod := .basic } := by
  have hne : header ≠ "" := by
    rintro rfl
    exact absurd h (by decide)
  rw [openForm_savedData hne]
  unfold secretEffect
  rw [Option.getD_some, if_neg (encoded_ne hne)]
  exact if_pos h

theorem openForm_bearer (req : AppRepositoryRequest)
    (hbasic : startsWith (decodedHeader header) "Basic" = false)
    (h : startsWith (decodedHeader header) "Bearer" = true) :
    openForm (savedData req header) =
      some { afterFirst header with
        token := word ' ' (decodedHeader header) 1, authMethod := .bearer } := by
  have hne : header ≠ "" := by
    rintro rfl
    exact absurd h (by decide)
  rw [openForm_savedData hne]
  unfold secretEffect
  rw [Option.getD_some, if_neg (encoded_ne hne)]
  exact (if_neg (ne_true_of_eq_false hbasic)).trans (if_pos h)

theorem openForm_custom (hne : header ≠ "")
    (hbasic : startsWith (decodedHeader header) "Basic" = false)
    (hbearer : startsWith (decodedHeader header) "Bearer" = false) :
    openForm (savedData req header) = some (afterFirst header) := by
  rw [openForm_savedData hne]
  unfold secretEffect
  rw [Option.getD_some, if_neg (encoded_ne hne), atob_encodeBase64]
  exact (if_neg (ne_true_of_eq_false hbasic)).trans (if_neg (ne_true_of_eq_false hbearer))

end Open

/-! ## Headers -/

section Words

theorem startsWith_iff {s w : String} : startsWith s w = true ↔ w.toList <+: s.toList :=
  List.isPrefixOf_iff_prefix

/-- The characters of the decoded header. -/
theorem decodedHeader_toList (header : String) : (decodedHeader header).toList =
    (header.toList.flatMap String.utf8EncodeChar).map fun b => Char.ofNat b.toNat := by
  unfold decodedHeader binaryString
  rw [String.toList_ofList, bytes_eq]

theorem ofNat_ascii {c : Char} (h : c.toNat < 0x80) : Char.ofNat (ascii c).toNat = c := by
  unfold ascii
  rw [UInt8.toNat_ofNat', Nat.mod_eq_of_lt (by omega), Char.ofNat_toNat]

/-- An ASCII word is at the start of the decoded header exactly if it is at that of the header. -/
theorem prefix_decoded_iff {w : List Char} (hw : ∀ c ∈ w, c.toNat < 0x80) (cs : List Char) :
    w <+: ((cs.flatMap String.utf8EncodeChar).map fun b => Char.ofNat b.toNat) ↔ w <+: cs := by
  induction w generalizing cs with
  | nil => simp
  | cons a w ih =>
      have ha := hw a List.mem_cons_self
      have hw' : ∀ c ∈ w, c.toNat < 0x80 := fun c hc => hw c (List.mem_cons_of_mem a hc)
      cases cs with
      | nil => simp
      | cons c cs =>
          rw [List.flatMap_cons, List.map_append]
          by_cases hascii : c.toNat < 0x80
          · rw [utf8EncodeChar_ascii hascii, List.map_cons, List.map_nil, List.singleton_append,
              ofNat_ascii hascii, List.cons_prefix_cons, List.cons_prefix_cons, ih hw' cs]
          · obtain ⟨b, rest, hb⟩ := List.exists_cons_of_length_pos (length_utf8EncodeChar c).1
            have hhigh : 0x80 ≤ b.toNat :=
              le_of_mem_utf8EncodeChar (by omega) (hb ▸ List.mem_cons_self)
            have hchar := toNat_ofNat_byte b
            rw [hb, List.map_cons, List.cons_append, List.cons_prefix_cons, List.cons_prefix_cons]
            constructor
            · intro ⟨heq, _⟩
              rw [heq] at ha
              omega
            · intro ⟨heq, _⟩
              rw [heq] at ha
              omega

theorem decodedHeader_startsWith_iff (header : String) {w : String}
    (hw : ∀ c ∈ w.toList, c.toNat < 0x80) :
    startsWith (decodedHeader header) w = startsWith header w := by
  rw [Bool.eq_iff_iff, startsWith_iff, startsWith_iff, decodedHeader_toList,
    prefix_decoded_iff hw]

theorem mem_decodedHeader {s : String} {c : Char} (hc : c.toNat < 0x80) :
    c ∈ (decodedHeader s).toList ↔ c ∈ s.toList := by
  unfold decodedHeader binaryString
  rw [String.toList_ofList, List.mem_map, ← ascii_mem_bytes hc]
  constructor
  · rintro ⟨b, hb, heq⟩
    have hcode := toNat_ofNat_byte b
    rw [heq] at hcode
    have hbyte : ascii c = b := by
      unfold ascii
      rw [hcode, UInt8.ofNat_toNat]
    rw [hbyte]
    exact hb
  · exact fun hb => ⟨ascii c, hb, ofNat_ascii hc⟩

/-- What comes before the first separator. -/
theorem exists_splitOn (sep : Char) (cs : List Char) : ∃ first rest,
    cs.splitOn sep = first :: rest ∧ sep ∉ first ∧ (sep ∉ cs → first = cs) := by
  obtain ⟨first, rest, hsplit⟩ := List.exists_cons_of_ne_nil (List.splitOn_ne_nil sep cs)
  refine ⟨first, rest, hsplit, ?_, fun h => ?_⟩
  · exact not_mem_of_mem_splitOn (l := cs) (by rw [hsplit]; exact List.mem_cons_self)
  · rw [List.splitOn_eq_singleton h] at hsplit
    exact (List.cons.inj hsplit).1.symm

/-- The word after the first separator has none, and is the rest of the string if that has none. -/
theorem word_one {sep : Char} {w : String} (s : String) (hw : sep ∉ w.toList) :
    sep ∉ (word sep (w ++ String.ofList [sep] ++ s) 1).toList ∧
      (sep ∉ s.toList → word sep (w ++ String.ofList [sep] ++ s) 1 = s) := by
  obtain ⟨first, rest, hsplit, hfirst, hself⟩ := exists_splitOn sep s.toList
  have hlist : (w ++ String.ofList [sep] ++ s).toList = w.toList ++ sep :: s.toList := by simp
  have hword : word sep (w ++ String.ofList [sep] ++ s) 1 = String.ofList first := by
    unfold word
    rw [hlist, List.splitOn_append_cons_self_of_not_mem hw, hsplit]
    rfl
  rw [hword, String.toList_ofList]
  refine ⟨hfirst, fun h => ?_⟩
  rw [hself h, String.ofList_toList]

theorem word_one_iff {sep : Char} {w s : String} (hw : sep ∉ w.toList) :
    word sep (w ++ String.ofList [sep] ++ s) 1 = s ↔ sep ∉ s.toList := by
  obtain ⟨hnone, hself⟩ := word_one s hw
  exact ⟨fun h => h ▸ hnone, hself⟩

theorem word_zero {sep : Char} {w s : String} (hw : sep ∉ w.toList) :
    word sep (w ++ String.ofList [sep] ++ s) 0 = w := by
  have hlist : (w ++ String.ofList [sep] ++ s).toList = w.toList ++ sep :: s.toList := by simp
  unfold word
  rw [hlist, List.splitOn_append_cons_self_of_not_mem hw]
  show String.ofList w.toList = w
  exact String.ofList_toList

end Words

/-! ## What is kept -/

section Kept

variable {req : AppRepositoryRequest}

theorem decodedHeader_ascii {header : String} (h : ∀ c ∈ header.toList, c.toNat < 0x80) :
    decodedHeader header = header := (binaryString_bytes_iff header).mpr h

/-- A word before other text is at the start, and no other word of its length is. -/
theorem startsWith_append (w s : String) : startsWith (w ++ s) w = true := by
  rw [startsWith_iff, String.toList_append]
  exact List.prefix_append _ _

theorem startsWith_append_of_ne {w w' : String} (hlen : w'.toList.length ≤ w.toList.length)
    (h : startsWith w w' = false) (s : String) : startsWith (w ++ s) w' = false := by
  rw [← Bool.not_eq_true, startsWith_iff] at h ⊢
  rw [String.toList_append]
  exact fun hpre => h (List.prefix_of_prefix_length_le hpre (List.prefix_append _ _) hlen)

theorem ascii_of_all {s : String} (h : s.toList.all (fun c => decide (c.toNat < 0x80)) = true) :
    ∀ c ∈ s.toList, c.toNat < 0x80 := fun c hc => of_decide_eq_true (List.all_eq_true.mp h c hc)

theorem ascii_append {s t : String} (hs : ∀ c ∈ s.toList, c.toNat < 0x80)
    (ht : ∀ c ∈ t.toList, c.toNat < 0x80) : ∀ c ∈ (s ++ t).toList, c.toNat < 0x80 := by
  intro c hc
  rw [String.toList_append, List.mem_append] at hc
  exact hc.elim (hs c) (ht c)

/-- The header is known, so this is about the form that was opened with it. -/
theorem authKept_of_header {fields st : AuthFields} {same : AuthFields → Prop} {header : String}
    (hheader : finalHeader fields = some header)
    (hopen : openForm (savedData req header) = some st) :
    AuthKept req fields same ↔
      st.authMethod = fields.authMethod ∧ same st ∧ finalHeader st = some header := by
  constructor
  · rintro ⟨header', hheader', st', hst', hkept⟩
    have hsame : header = header' := Option.some.inj (hheader.symm.trans hheader')
    rw [← hsame] at hst' hkept
    have hst : st = st' := Option.some.inj (hopen.symm.trans hst')
    rw [hst]
    exact hkept
  · exact fun h => ⟨header, hheader, st, hopen, h⟩

theorem basicKept_iff (req : AppRepositoryRequest) {user password : String} (huser : Latin1 user)
    (hpassword : Latin1 password) (hcolon : ':' ∉ user.toList) :
    BasicKept req user password ↔ ':' ∉ password.toList := by
  have hlatin : Latin1 (user ++ ":" ++ password) := by
    intro c hc
    rw [String.toList_append, String.toList_append, List.mem_append, List.mem_append] at hc
    rcases hc with (hc | hc) | hc
    · exact huser c hc
    · have hcolon : c = ':' := by simpa using hc
      rw [hcolon]
      decide
    · exact hpassword c hc
  obtain ⟨t, ht, hatob, hchars⟩ := btoa_of_latin1 hlatin
  have hheader : finalHeader { initialAuth with
      authMethod := .basic, user := user, password := password } = some ("Basic " ++ t) := by
    show (btoa (user ++ ":" ++ password)).map _ = _
    rw [ht, Option.map_some]
  have hdecoded : decodedHeader ("Basic " ++ t) = "Basic " ++ t :=
    decodedHeader_ascii (ascii_append (ascii_of_all (by decide)) fun c hc => (hchars c hc).1)
  have hstart : startsWith (decodedHeader ("Basic " ++ t)) "Basic" = true := by
    have happend : "Basic " ++ t = "Basic" ++ (" " ++ t) := by
      rw [← String.append_assoc]
      rfl
    rw [hdecoded, happend]
    exact startsWith_append _ _
  have hword : word ' ' (decodedHeader ("Basic " ++ t)) 1 = t := by
    rw [hdecoded]
    exact (word_one_iff (w := "Basic") (by decide)).mpr fun h => (hchars ' ' h).2 rfl
  have hopen := openForm_basic req hstart
  rw [hword, hatob, Option.map_some] at hopen
  have huser' : word ':' (user ++ ":" ++ password) 0 = user := word_zero hcolon
  have hpassword' : word ':' (user ++ ":" ++ password) 1 = password ↔ ':' ∉ password.toList :=
    word_one_iff hcolon
  unfold BasicKept
  rw [authKept_of_header hheader hopen, ← hpassword']
  constructor
  · exact fun h => h.2.1.2
  · intro h
    refine ⟨rfl, ⟨huser', h⟩, ?_⟩
    show (btoa (word ':' _ 0 ++ ":" ++ word ':' _ 1)).map _ = _
    rw [huser', h, ht, Option.map_some]

theorem bearerKept_iff (req : AppRepositoryRequest) (token : String) :
    BearerKept req token ↔ ' ' ∉ token.toList ∧ ∀ c ∈ token.toList, c.toNat < 0x80 := by
  have hheader : finalHeader { initialAuth with authMethod := .bearer, token := token } =
      some ("Bearer " ++ token) := rfl
  have hdecoded : decodedHeader ("Bearer " ++ token) = "Bearer " ++ decodedHeader token := by
    have hbearer : decodedHeader "Bearer " = "Bearer " :=
      decodedHeader_ascii (ascii_of_all (by decide))
    have happend : decodedHeader ("Bearer " ++ token) =
        decodedHeader "Bearer " ++ decodedHeader token := by
      rw [← String.toList_inj, String.toList_append, decodedHeader_toList, decodedHeader_toList,
        decodedHeader_toList, String.toList_append, List.flatMap_append, List.map_append]
    rw [happend, hbearer]
  have hbearer : startsWith (decodedHeader ("Bearer " ++ token)) "Bearer" = true := by
    have happend : "Bearer " ++ decodedHeader token = "Bearer" ++ (" " ++ decodedHeader token) := by
      rw [← String.append_assoc]
      rfl
    rw [hdecoded, happend]
    exact startsWith_append _ _
  have hbasic : startsWith (decodedHeader ("Bearer " ++ token)) "Basic" = false := by
    rw [hdecoded]
    exact startsWith_append_of_ne (by decide) (by decide) _
  have hopen := openForm_bearer req hbasic hbearer
  have hword : word ' ' (decodedHeader ("Bearer " ++ token)) 1 = token ↔
      ' ' ∉ token.toList ∧ ∀ c ∈ token.toList, c.toNat < 0x80 := by
    have hbearer : ' ' ∉ "Bearer".toList := by decide
    obtain ⟨hnone, hself⟩ := word_one (decodedHeader token) hbearer
    rw [hdecoded, ← binaryString_bytes_iff]
    rw [mem_decodedHeader (by decide)] at hself
    constructor
    · intro h
      have hblank : ' ' ∉ token.toList := h ▸ hnone
      exact ⟨hblank, (hself hblank).symm.trans h⟩
    · exact fun h => (hself h.1).trans h.2
  unfold BearerKept
  rw [authKept_of_header hheader hopen, ← hword]
  constructor
  · exact fun h => h.2.1
  · intro h
    refine ⟨rfl, h, ?_⟩
    show some ("Bearer " ++ word ' ' _ 1) = _
    rw [h]

theorem customKept_iff (req : AppRepositoryRequest) {header : String}
    (hbasic : startsWith header "Basic" = false) (hbearer : startsWith header "Bearer" = false) :
    CustomKept req header ↔ header ≠ "" ∧ ∀ c ∈ header.toList, c.toNat < 0x80 := by
  have hheader : finalHeader { initialAuth with authMethod := .custom, authHeader := header } =
      some header := rfl
  unfold CustomKept
  by_cases hne : header = ""
  · have hopen : openForm (savedData req header) = some initialAuth := by
      rw [savedData_eq, if_pos hne]
      rfl
    rw [authKept_of_header hheader hopen]
    constructor
    · exact fun h => absurd h.1 (by simp [initialAuth])
    · exact fun h => absurd hne h.1
  · have hopen : openForm (savedData req header) = some (afterFirst header) := by
      refine openForm_custom hne ?_ ?_
      · rw [decodedHeader_startsWith_iff header (ascii_of_all (by decide)), hbasic]
      · rw [decodedHeader_startsWith_iff header (ascii_of_all (by decide)), hbearer]
    rw [authKept_of_header hheader hopen, ← binaryString_bytes_iff]
    constructor
    · exact fun h => ⟨hne, h.2.1⟩
    · intro ⟨_, h⟩
      refine ⟨rfl, h, ?_⟩
      show some (decodedHeader header) = some header
      rw [decodedHeader, h]

end Kept

/-- **What the form restores.** Credentials are kept exactly if the password has no colon; a token
    exactly if it is ASCII and has no blank; another header exactly if it is ASCII and not empty. -/
theorem authKept_iff (req : AppRepositoryRequest) :
    (∀ user password, Latin1 user → Latin1 password → ':' ∉ user.toList →
      (BasicKept req user password ↔ ':' ∉ password.toList)) ∧
    (∀ token, BearerKept req token ↔
      ' ' ∉ token.toList ∧ ∀ c ∈ token.toList, c.toNat < 0x80) ∧
    (∀ header, startsWith header "Basic" = false → startsWith header "Bearer" = false →
      (CustomKept req header ↔ header ≠ "" ∧ ∀ c ∈ header.toList, c.toNat < 0x80)) :=
  ⟨fun _ _ huser hpassword hcolon => basicKept_iff req huser hpassword hcolon,
    fun token => bearerKept_iff req token, fun _ hbasic hbearer => customKept_iff req hbasic hbearer⟩

theorem authKept_admin : BasicKept (bitnamiRequest "" "" "") "admin" "s3cret" :=
  ((authKept_iff (bitnamiRequest "" "" "")).1 "admin" "s3cret" (by decide) (by decide)
    (by decide)).mpr (by decide)

/-- Of a password with a colon only what comes before it is restored. -/
theorem not_basicKept_colon : ¬ BasicKept (bitnamiRequest "" "" "") "admin" "s3:cret" := by
  rw [basicKept_iff _ (by decide) (by decide) (by decide)]
  decide

end Kubeapps.Dashboard
