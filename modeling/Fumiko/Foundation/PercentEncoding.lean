import Fumiko.Foundation.FormEncoding

namespace Fumiko.Foundation.PercentEncoding

open FormEncoding

/-- The octets that RFC 3986 leaves unreserved: letters, digits and `-._~`. -/
def Unreserved (n : Nat) : Prop :=
  (0x30 ≤ n ∧ n ≤ 0x39) ∨ (0x41 ≤ n ∧ n ≤ 0x5A) ∨ (0x61 ≤ n ∧ n ≤ 0x7A) ∨
    n = 0x2D ∨ n = 0x2E ∨ n = 0x5F ∨ n = 0x7E

instance : DecidablePred Unreserved := fun _ => inferInstanceAs (Decidable (_ ∨ _))

def encodeByte (b : UInt8) : List Char :=
  if Unreserved b.toNat then [Char.ofNat b.toNat]
  else ['%', hexDigit (b.toNat / 16), hexDigit (b.toNat % 16)]

def encode (text : List Char) : List Char := (Utf8.encode text).flatMap encodeByte

def decode (text : List Char) : List Char := Utf8.decodeLossy (percentDecode text)

section Octets

theorem Unreserved.lt {n : Nat} (h : Unreserved n) : n < 0x80 := by
  rw [Unreserved] at h
  omega

theorem unreserved_hexDigit : ∀ n < 16, Unreserved (hexDigit n).toNat := by decide

theorem mem_encodeByte {b : UInt8} {c : Char} (h : c ∈ encodeByte b) : Unreserved c.toNat ∨ c = '%' := by
  rw [encodeByte] at h
  split at h
  · next hplain =>
    rw [List.mem_singleton.mp h, toNat_ofNat (Nat.lt_trans hplain.lt (by decide))]
    exact Or.inl hplain
  · have hbound : b.toNat < 256 := b.toNat_lt
    simp only [List.mem_cons, List.not_mem_nil, or_false] at h
    rcases h with rfl | rfl | rfl
    · exact Or.inr rfl
    · exact Or.inl (unreserved_hexDigit _ (by omega))
    · exact Or.inl (unreserved_hexDigit _ (by omega))

theorem percentDecode_encodeByte (b : UInt8) (rest : List Char) :
    percentDecode (encodeByte b ++ rest) = b :: percentDecode rest := by
  have hb : UInt8.ofNat b.toNat = b := UInt8.ofNat_toNat
  rw [encodeByte]
  split
  · next hplain =>
    have hchar := toNat_ofNat (Nat.lt_trans hplain.lt (by decide))
    have hne : Char.ofNat b.toNat ≠ '%' := by
      intro heq
      rw [← hchar, heq] at hplain
      exact absurd hplain (by decide)
    rw [List.singleton_append, percentDecode_of_ne hne, encode_ofNat hplain.lt, hb]
    rfl
  · have hbound : b.toNat < 256 := b.toNat_lt
    have hhigh : b.toNat / 16 < 16 := by omega
    have hlow : b.toNat % 16 < 16 := by omega
    simp only [List.cons_append, List.nil_append]
    rw [percentDecode]
    simp only [hexValue_hexDigit _ hhigh, hexValue_hexDigit _ hlow, Nat.div_add_mod, hb]

end Octets

section Texts

variable {text : List Char} {c : Char}

theorem percentDecode_flatMap (bytes : List UInt8) : percentDecode (bytes.flatMap encodeByte) = bytes := by
  induction bytes with
  | nil => rfl
  | cons b bytes ih => rw [List.flatMap_cons, percentDecode_encodeByte, ih]

theorem decode_encode (text : List Char) : decode (encode text) = text := by
  rw [decode, encode, percentDecode_flatMap, Utf8.decodeLossy_encode]

/-- What stands for the text in a link: unreserved characters and percent signs, no delimiter. -/
structure Encoded (encoded text : List Char) : Prop where
  plain : ∀ c ∈ encoded, Unreserved c.toNat ∨ c = '%'
  decode : PercentEncoding.decode encoded = text

theorem encoded_encode (text : List Char) : Encoded (encode text) text where
  plain _ hc :=
    have ⟨_, _, hmem⟩ := List.mem_flatMap.mp hc
    mem_encodeByte hmem
  decode := decode_encode text

variable {encoded : List Char}

theorem Encoded.not_mem (h : Encoded encoded text) (hplain : ¬Unreserved c.toNat) (hpercent : c ≠ '%') :
    c ∉ encoded := by
  intro hc
  rcases h.plain c hc with hc | hc
  · exact hplain hc
  · exact hpercent hc

theorem Encoded.parseText (h : Encoded encoded text) :
    FormEncoding.parseText encoded = String.ofList text := by
  have hplus : encoded.map plusToSpace = encoded := by
    refine (List.map_congr_left fun c hc => ?_).trans (List.map_id _)
    have hne : c ≠ '+' := by
      rintro rfl
      exact h.not_mem (by decide) (by decide) hc
    rw [plusToSpace, if_neg hne, id]
  rw [FormEncoding.parseText, hplus, ← PercentEncoding.decode, h.decode]

theorem Encoded.parse_pair (h : Encoded encoded text) {name : List Char} (hname : '=' ∉ name)
    (hamp : '&' ∉ name) :
    parse (name ++ '=' :: encoded) = [(FormEncoding.parseText name, String.ofList text)] := by
  have hsegment : '&' ∉ name ++ '=' :: encoded := by
    rw [List.mem_append, List.mem_cons, not_or, not_or]
    exact ⟨hamp, by decide, h.not_mem (by decide) (by decide)⟩
  have hbefore : ∀ c ∈ name, decide (c ≠ '=') = true := by
    intro c hc
    rw [decide_eq_true_eq]
    rintro rfl
    exact hname hc
  have hpair : parsePair (name ++ '=' :: encoded) = (FormEncoding.parseText name, String.ofList text) := by
    rw [parsePair, List.takeWhile_append_of_pos hbefore, List.dropWhile_append_of_pos hbefore]
    simp [h.parseText]
  rw [parse, fields_of_not_mem hsegment]
  simp [hpair]

theorem decode_append {plain : List Char} (hplain : '%' ∉ plain) (rest : List Char) :
    decode (plain ++ rest) = plain ++ decode rest := by
  have hbytes : percentDecode (plain ++ rest) = Utf8.encode plain ++ percentDecode rest := by
    induction plain with
    | nil => rfl
    | cons c plain ih =>
      have ⟨hne, hplain⟩ := not_or.mp (List.mem_cons.not.mp hplain)
      rw [List.cons_append, percentDecode_of_ne fun h => hne h.symm, ih hplain, Utf8.encode_cons,
        List.append_assoc]
  rw [decode, hbytes, Utf8.decodeLossy_encode_append]
  rfl

end Texts

end Fumiko.Foundation.PercentEncoding
