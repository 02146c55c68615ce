/-
  Query strings of URLs as a browser writes and reads them.

  `encodeURIComponent` leaves letters, digits and some marks and writes the other bytes as `%XX`.
  `parseQuery` cuts a query at its ampersands, each part at its first equals sign, and decodes both
  sides. `parseQuery_formQuery`: what was written by `formQuery` is read back.
-/
import Kubeapps.Lib.Percent

namespace Kubeapps.Lib

/-- The characters `encodeURIComponent` leaves alone. -/
def uriUnreserved (c : Char) : Bool :=
  c.isAlphanum || c ∈ ['-', '_', '.', '!', '~', '*', '\'', '(', ')']

def encodeURIByte (b : UInt8) : List Char :=
  let c := Char.ofNat b.toNat
  if uriUnreserved c then [c] else ['%', hexDigit (b.toNat / 16), hexDigit (b.toNat % 16)]

/-- `encodeURIComponent`. -/
def encodeURIComponent (s : String) : String := String.ofList ((bytes s).flatMap encodeURIByte)

/-- A name or value of a query, with blanks for plus signs and bytes for `%XX`; what is not UTF-8
    keeps its percent signs. -/
def decodeQuery (s : String) : String :=
  ((unescape .queryComponent (bytes s)).bind ofBytes?).getD (plusToSpaces s)

/-- The two sides of the first equals sign. -/
def cutEquals (part : List Char) : List Char × List Char :=
  (part.takeWhile (· ≠ '='), (part.dropWhile (· ≠ '=')).drop 1)

/-- The names and values of a query, without its question mark. A part without name is dropped. -/
def parseQuery (query : String) : List (String × String) :=
  ((query.toList.splitOn '&').map fun part =>
    (decodeQuery (String.ofList (cutEquals part).1), decodeQuery (String.ofList (cutEquals part).2))
    ).filter fun p => p.1 ≠ ""

/-- `name=value` pairs, as they are, between ampersands. -/
def formQuery (pairs : List (String × String)) : String :=
  "&".intercalate (pairs.map fun p => p.1 ++ "=" ++ p.2)

example : encodeURIComponent "a b,é" = "a%20b%2C%C3%A9" := by decide +kernel

/-! ## Reading what was encoded -/

theorem unescape_encodeURIByte : ∀ n < 256,
    unescape .queryComponent ((encodeURIByte (UInt8.ofNat n)).flatMap String.utf8EncodeChar) =
      some [UInt8.ofNat n] := by
  decide +kernel

theorem reads_encodeURIComponent (s : String) :
    Reads .queryComponent (bytes (encodeURIComponent s)) (bytes s) := by
  unfold encodeURIComponent
  rw [bytes_ofList, List.flatMap_assoc]
  induction bytes s with
  | nil => exact Reads.nil
  | cons b bs ih =>
      have hb := unescape_encodeURIByte b.toNat b.toNat_lt
      rw [UInt8.ofNat_toNat] at hb
      exact (reads_of_unescape hb).append ih

/-- What is read is decoded. -/
theorem decodeQuery_of_reads {s t : String} (h : Reads .queryComponent (bytes s) (bytes t)) :
    decodeQuery s = t := by
  unfold decodeQuery
  rw [unescape_of_reads h, Option.bind_some, ofBytes?_bytes, Option.getD_some]

theorem decodeQuery_encodeURIComponent (s : String) : decodeQuery (encodeURIComponent s) = s :=
  decodeQuery_of_reads (reads_encodeURIComponent s)

theorem encodeURIByte_chars : ∀ n < 256,
    (encodeURIByte (UInt8.ofNat n)).all (fun c => uriUnreserved c || c = '%') = true := by
  decide +kernel

/-- What is encoded has unreserved characters and percent signs. -/
theorem mem_encodeURIComponent {s : String} {c : Char} (h : c ∈ (encodeURIComponent s).toList) :
    uriUnreserved c = true ∨ c = '%' := by
  unfold encodeURIComponent at h
  rw [String.toList_ofList, List.mem_flatMap] at h
  obtain ⟨b, _, hc⟩ := h
  have hb := encodeURIByte_chars b.toNat b.toNat_lt
  rw [UInt8.ofNat_toNat, List.all_eq_true] at hb
  simpa using hb c hc

/-! ## Reading what was joined -/

theorem reads_intercalate (ws : List String) :
    Reads .queryComponent (bytes (",".intercalate (ws.map encodeURIComponent)))
      (bytes (",".intercalate ws)) := by
  induction ws with
  | nil => exact Reads.nil
  | cons w ws ih =>
      have hw := reads_encodeURIComponent w
      cases ws with
      | nil =>
          rw [List.map_cons, List.map_nil, String.intercalate_singleton,
            String.intercalate_singleton]
          exact hw
      | cons w' ws =>
          have hcomma : bytes "," = [ascii ','] := by decide
          have hread : Reads .queryComponent [ascii ','] [ascii ','] :=
            Reads.byte (by decide) (by decide) (by decide) Reads.nil
          rw [List.map_cons, List.map_cons, String.intercalate_cons_cons,
            String.intercalate_cons_cons, bytes_append, bytes_append, bytes_append, bytes_append,
            hcomma]
          exact (hw.append hread).append ih

/-- Encoded values with commas between them are decoded as one. -/
theorem decodeQuery_intercalate (ws : List String) :
    decodeQuery (",".intercalate (ws.map encodeURIComponent)) = ",".intercalate ws :=
  decodeQuery_of_reads (reads_intercalate ws)

theorem mem_intercalate_encodeURIComponent {ws : List String} {c : Char}
    (h : c ∈ (",".intercalate (ws.map encodeURIComponent)).toList) :
    uriUnreserved c = true ∨ c = '%' ∨ c = ',' := by
  rw [String.toList_intercalate] at h
  rcases mem_of_mem_intercalate h with hc | ⟨l, hl, hc⟩
  · have hcomma : c = ',' := by simpa using hc
    exact .inr (.inr hcomma)
  · obtain ⟨e, he, rfl⟩ := List.mem_map.mp hl
    obtain ⟨w, _, rfl⟩ := List.mem_map.mp he
    exact (mem_encodeURIComponent hc).imp id .inl

theorem cutEquals_append {n v : List Char} (hn : '=' ∉ n) : cutEquals (n ++ '=' :: v) = (n, v) := by
  have hall : ∀ c ∈ n, decide (c ≠ '=') = true := fun c hc =>
    decide_eq_true fun heq => hn (heq ▸ hc)
  unfold cutEquals
  rw [List.takeWhile_append_of_pos hall, List.dropWhile_append_of_pos hall]
  simp

/-- What is written is read, up to the decoding. -/
theorem parseQuery_formQuery {pairs : List (String × String)} (hne : pairs ≠ [])
    (hname : ∀ p ∈ pairs, '&' ∉ p.1.toList ∧ '=' ∉ p.1.toList ∧ decodeQuery p.1 ≠ "")
    (hvalue : ∀ p ∈ pairs, '&' ∉ p.2.toList) :
    parseQuery (formQuery pairs) = pairs.map fun p => (decodeQuery p.1, decodeQuery p.2) := by
  have hparts : (formQuery pairs).toList.splitOn '&' =
      pairs.map fun p => p.1.toList ++ '=' :: p.2.toList := by
    unfold formQuery
    rw [String.toList_intercalate, List.map_map]
    have hsep : "&".toList = ['&'] := by decide
    have hlist : pairs.map (String.toList ∘ fun p => p.1 ++ "=" ++ p.2) =
        pairs.map fun p => p.1.toList ++ '=' :: p.2.toList := by
      refine List.map_congr_left fun p _ => ?_
      simp
    rw [hsep, hlist]
    refine List.splitOn_intercalate _ (fun l hl => ?_) (by simpa using hne)
    obtain ⟨p, hp, rfl⟩ := List.mem_map.mp hl
    simp [(hname p hp).1, hvalue p hp]
  unfold parseQuery
  rw [hparts, List.map_map, List.filter_eq_self.mpr]
  · refine List.map_congr_left fun p hp => ?_
    simp [cutEquals_append (hname p hp).2.1]
  · intro x hx
    obtain ⟨p, hp, rfl⟩ := List.mem_map.mp hx
    simp [cutEquals_append (hname p hp).2.1, (hname p hp).2.2]

end Kubeapps.Lib
