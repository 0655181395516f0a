import Fumiko.Foundation.Utf8

namespace Fumiko.Foundation.FormEncoding

def hexDigit (n : Nat) : Char := Char.ofNat (if n < 10 then 0x30 + n else 0x37 + n)

def hexValue (c : Char) : Option Nat :=
  let n := c.toNat
  if 0x30 ≤ n ∧ n ≤ 0x39 then some (n - 0x30)
  else if 0x41 ≤ n ∧ n ≤ 0x46 then some (n - 0x37)
  else if 0x61 ≤ n ∧ n ≤ 0x66 then some (n - 0x57)
  else none

/-- The octets that stand for themselves: letters, digits and `*-._`. -/
def Unreserved (n : Nat) : Prop :=
  (0x30 ≤ n ∧ n ≤ 0x39) ∨ (0x41 ≤ n ∧ n ≤ 0x5A) ∨ (0x61 ≤ n ∧ n ≤ 0x7A) ∨
    n = 0x2A ∨ n = 0x2D ∨ n = 0x2E ∨ n = 0x5F

instance : DecidablePred Unreserved := fun _ => inferInstanceAs (Decidable (_ ∨ _))

def serializeByte (b : UInt8) : List Char :=
  if b.toNat = 0x20 then ['+']
  else if Unreserved b.toNat then [Char.ofNat b.toNat]
  else ['%', hexDigit (b.toNat / 16), hexDigit (b.toNat % 16)]

def serializeText (text : String) : List Char := (Utf8.encode text.toList).flatMap serializeByte

def serializePair (pair : String × String) : List Char :=
  serializeText pair.1 ++ '=' :: serializeText pair.2

def serialize : List (String × String) → List Char
  | [] => []
  | [pair] => serializePair pair
  | pair :: pairs => serializePair pair ++ '&' :: serialize pairs

def plusToSpace (c : Char) : Char := if c = '+' then ' ' else c

def percentDecode : List Char → List UInt8
  | [] => []
  | '%' :: high :: low :: cs =>
    match hexValue high, hexValue low with
    | some h, some l => UInt8.ofNat (16 * h + l) :: percentDecode cs
    | _, _ => String.utf8EncodeChar '%' ++ percentDecode (high :: low :: cs)
  | c :: cs => String.utf8EncodeChar c ++ percentDecode cs

def parseText (text : List Char) : String :=
  String.ofList (Utf8.decodeLossy (percentDecode (text.map plusToSpace)))

def parsePair (segment : List Char) : String × String :=
  (parseText (segment.takeWhile (· ≠ '=')), parseText ((segment.dropWhile (· ≠ '=')).drop 1))

def parse (query : List Char) : List (String × String) :=
  ((fields '&' query).filter (· ≠ [])).map parsePair

def Serial (c : Char) : Prop := Unreserved c.toNat ∨ c = '+' ∨ c = '%' ∨ c = '=' ∨ c = '&'

section Octets

theorem toNat_ofNat {n : Nat} (h : n < 0xD800) : (Char.ofNat n).toNat = n := by
  rw [Char.ofNat, dif_pos (Or.inl h)]
  rfl

theorem encode_ofNat {n : Nat} (h : n < 0x80) :
    String.utf8EncodeChar (Char.ofNat n) = [UInt8.ofNat n] := by
  have hvalue : (Char.ofNat n).val.toNat = n := toNat_ofNat (by omega)
  rw [String.utf8EncodeChar, hvalue, if_pos (by omega)]

theorem hexValue_hexDigit : ∀ n < 16, hexValue (hexDigit n) = some n := by decide

theorem unreserved_hexDigit : ∀ n < 16, Unreserved (hexDigit n).toNat := by decide

theorem Unreserved.lt {n : Nat} (h : Unreserved n) : n < 0x80 := by
  rw [Unreserved] at h
  omega

theorem unreserved_ne {c d : Char} (hc : Unreserved c.toNat) (hd : ¬Unreserved d.toNat) : c ≠ d := by
  rintro rfl
  exact hd hc

theorem percentDecode_of_ne {c : Char} (h : c ≠ '%') (cs : List Char) :
    percentDecode (c :: cs) = String.utf8EncodeChar c ++ percentDecode cs := by
  rw [percentDecode]
  rintro high low rest rfl
  exact absurd rfl h

theorem plusToSpace_of_unreserved {c : Char} (h : Unreserved c.toNat) : plusToSpace c = c :=
  if_neg (unreserved_ne h (by decide))

theorem percentDecode_serializeByte (b : UInt8) (rest : List Char) :
    percentDecode ((serializeByte b).map plusToSpace ++ rest) = b :: percentDecode rest := by
  have hb : UInt8.ofNat b.toNat = b := UInt8.ofNat_toNat
  rw [serializeByte]
  split
  · next hspace =>
    have hb : b = 0x20 := UInt8.toNat_inj.mp hspace
    rw [hb]
    exact percentDecode_of_ne (by decide) rest
  · split
    · next hplain =>
      have hchar := toNat_ofNat (Nat.lt_trans hplain.lt (by decide))
      have hown : Unreserved (Char.ofNat b.toNat).toNat := by rwa [hchar]
      rw [List.map_singleton, plusToSpace_of_unreserved hown, List.singleton_append,
        percentDecode_of_ne (unreserved_ne hown (by decide)), encode_ofNat hplain.lt, hb]
      rfl
    · have hbound : b.toNat < 256 := b.toNat_lt
      have hhigh : b.toNat / 16 < 16 := by omega
      have hlow : b.toNat % 16 < 16 := by omega
      have hpercent : plusToSpace '%' = '%' := rfl
      simp only [List.map_cons, List.map_nil, List.cons_append, List.nil_append, hpercent,
        plusToSpace_of_unreserved (unreserved_hexDigit _ hhigh),
        plusToSpace_of_unreserved (unreserved_hexDigit _ hlow)]
      rw [percentDecode]
      simp only [hexValue_hexDigit _ hhigh, hexValue_hexDigit _ hlow, Nat.div_add_mod, hb]

theorem percentDecode_serializeBytes (bytes : List UInt8) :
    percentDecode ((bytes.flatMap serializeByte).map plusToSpace) = bytes := by
  induction bytes with
  | nil => rfl
  | cons b bytes ih =>
    rw [List.flatMap_cons, List.map_append, percentDecode_serializeByte, ih]

theorem parseText_serializeText (text : String) : parseText (serializeText text) = text := by
  rw [parseText, serializeText, percentDecode_serializeBytes, Utf8.decodeLossy_encode,
    String.ofList_toList]

theorem mem_serializeByte {b : UInt8} {c : Char} (h : c ∈ serializeByte b) :
    Unreserved c.toNat ∨ c = '+' ∨ c = '%' := by
  rw [serializeByte] at h
  split at h
  · exact Or.inr (Or.inl (List.mem_singleton.mp h))
  · split at h
    · next hplain =>
      rw [List.mem_singleton.mp h, toNat_ofNat (Nat.lt_trans hplain.lt (by decide))]
      exact Or.inl hplain
    · have hbound : b.toNat < 256 := b.toNat_lt
      simp only [List.mem_cons, List.not_mem_nil, or_false] at h
      rcases h with rfl | rfl | rfl
      · exact Or.inr (Or.inr rfl)
      · exact Or.inl (unreserved_hexDigit _ (by omega))
      · exact Or.inl (unreserved_hexDigit _ (by omega))

theorem mem_serializeText {text : String} {c : Char} (h : c ∈ serializeText text) :
    Unreserved c.toNat ∨ c = '+' ∨ c = '%' := by
  obtain ⟨b, -, hc⟩ := List.mem_flatMap.mp h
  exact mem_serializeByte hc

theorem not_mem_serializeText (text : String) {c : Char} (hplain : ¬Unreserved c.toNat)
    (hplus : c ≠ '+') (hpercent : c ≠ '%') : c ∉ serializeText text := by
  intro h
  rcases mem_serializeText h with hc | hc | hc
  · exact hplain hc
  · exact hplus hc
  · exact hpercent hc

end Octets

section Pairs

variable {pair : String × String} {pairs : List (String × String)}

theorem parsePair_serializePair (pair : String × String) : parsePair (serializePair pair) = pair := by
  have hname : ∀ c ∈ serializeText pair.1, decide (c ≠ '=') = true := by
    intro c hc
    rw [decide_eq_true_eq]
    rintro rfl
    exact not_mem_serializeText pair.1 (by decide) (by decide) (by decide) hc
  rw [parsePair, serializePair, List.takeWhile_append_of_pos hname, List.dropWhile_append_of_pos hname]
  simp [parseText_serializeText]

theorem not_mem_serializePair (pair : String × String) : '&' ∉ serializePair pair := by
  have htext (text : String) : '&' ∉ serializeText text :=
    not_mem_serializeText text (by decide) (by decide) (by decide)
  simp [serializePair, htext]

theorem serializePair_ne_nil (pair : String × String) : serializePair pair ≠ [] := by
  simp [serializePair]

theorem serialize_cons (pair : String × String) (h : pairs ≠ []) :
    serialize (pair :: pairs) = serializePair pair ++ '&' :: serialize pairs := by
  cases pairs with
  | nil => exact absurd rfl h
  | cons next pairs => rfl

theorem fields_serialize (h : pairs ≠ []) : fields '&' (serialize pairs) = pairs.map serializePair := by
  induction pairs with
  | nil => exact absurd rfl h
  | cons pair pairs ih =>
    by_cases hlast : pairs = []
    · rw [hlast]
      exact fields_of_not_mem (not_mem_serializePair pair)
    · rw [serialize_cons pair hlast, fields_append (not_mem_serializePair pair), ih hlast,
        List.map_cons]

theorem parse_serialize (pairs : List (String × String)) : parse (serialize pairs) = pairs := by
  by_cases hempty : pairs = []
  · rw [hempty]
    rfl
  · have hfilter : (pairs.map serializePair).filter (· ≠ []) = pairs.map serializePair := by
      rw [List.filter_eq_self, List.forall_mem_map]
      intro pair _
      simpa using serializePair_ne_nil pair
    rw [parse, fields_serialize hempty, hfilter, List.map_map]
    calc
      pairs.map (parsePair ∘ serializePair) = pairs.map id :=
        List.map_congr_left fun pair _ => parsePair_serializePair pair
      _ = pairs := List.map_id pairs

theorem serial_serializePair {c : Char} (h : c ∈ serializePair pair) : Serial c := by
  rw [serializePair, List.mem_append, List.mem_cons] at h
  have htext {text : String} (h : c ∈ serializeText text) : Serial c := by
    rcases mem_serializeText h with hc | hc | hc
    · exact Or.inl hc
    · exact Or.inr (Or.inl hc)
    · exact Or.inr (Or.inr (Or.inl hc))
  rcases h with hname | hequals | hvalue
  · exact htext hname
  · exact Or.inr (Or.inr (Or.inr (Or.inl hequals)))
  · exact htext hvalue

theorem serial_serialize (pairs : List (String × String)) : ∀ c ∈ serialize pairs, Serial c := by
  induction pairs with
  | nil => exact List.forall_mem_nil _
  | cons pair pairs ih =>
    intro c hc
    by_cases hlast : pairs = []
    · rw [hlast] at hc
      exact serial_serializePair hc
    · rw [serialize_cons pair hlast, List.mem_append, List.mem_cons] at hc
      rcases hc with hc | hand | hc
      · exact serial_serializePair hc
      · exact Or.inr (Or.inr (Or.inr (Or.inr hand)))
      · exact ih c hc

end Pairs

end Fumiko.Foundation.FormEncoding
