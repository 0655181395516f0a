import Fumiko.Foundation.Text

namespace Fumiko.Foundation.Utf8

def replacement : Char := Char.ofNat 0xFFFD

/-- A character of which octets are still to come: the bits there are, the octets after the next one,
and what the next one may be. -/
structure Begun where
  value : Nat
  more : Nat
  low : Nat
  high : Nat

def lead (b : Nat) : List Char × Option Begun :=
  if b < 0x80 then ([Char.ofNat b], none)
  else if 0xC2 ≤ b ∧ b ≤ 0xDF then ([], some ⟨b - 0xC0, 0, 0x80, 0xBF⟩)
  else if 0xE0 ≤ b ∧ b ≤ 0xEF then
    ([], some ⟨b - 0xE0, 1, if b = 0xE0 then 0xA0 else 0x80, if b = 0xED then 0x9F else 0xBF⟩)
  else if 0xF0 ≤ b ∧ b ≤ 0xF4 then
    ([], some ⟨b - 0xF0, 2, if b = 0xF0 then 0x90 else 0x80, if b = 0xF4 then 0x8F else 0xBF⟩)
  else ([replacement], none)

/-- An octet that cannot follow ends the character before it and is read as a first octet. -/
def step : Option Begun → Nat → List Char × Option Begun
  | none, b => lead b
  | some p, b =>
    if p.low ≤ b ∧ b ≤ p.high then
      match p.more with
      | 0 => ([Char.ofNat (p.value * 64 + (b - 0x80))], none)
      | more + 1 => ([], some ⟨p.value * 64 + (b - 0x80), more, 0x80, 0xBF⟩)
    else (replacement :: (lead b).1, (lead b).2)

def decodeFrom : Option Begun → List UInt8 → List Char
  | none, [] => []
  | some _, [] => [replacement]
  | s, b :: bs => (step s b.toNat).1 ++ decodeFrom (step s b.toNat).2 bs

/-- `String::from_utf8_lossy` -/
def decodeLossy (bytes : List UInt8) : List Char := decodeFrom none bytes

def encode (text : List Char) : List UInt8 := text.flatMap String.utf8EncodeChar

@[simp] theorem encode_nil : encode [] = [] := rfl

@[simp] theorem encode_cons (c : Char) (text : List Char) :
    encode (c :: text) = String.utf8EncodeChar c ++ encode text := rfl

@[simp] theorem encode_append (a b : List Char) : encode (a ++ b) = encode a ++ encode b :=
  List.flatMap_append

def Continues (b : UInt8) : Prop := 0x80 ≤ b.toNat ∧ b.toNat < 0xC0

theorem decodeLossy_continues {b : UInt8} (h : Continues b) (bytes : List UInt8) :
    decodeLossy (b :: bytes) = replacement :: decodeLossy bytes := by
  have hlead : lead b.toNat = ([replacement], none) := by
    rw [lead, if_neg (by have := h.1; omega), if_neg (by have := h.2; omega),
      if_neg (by have := h.2; omega), if_neg (by have := h.2; omega)]
  rw [decodeLossy, decodeFrom, step, hlead]
  rfl

theorem step_last {value low high b : Nat} (h : low ≤ b ∧ b ≤ high) :
    step (some ⟨value, 0, low, high⟩) b = ([Char.ofNat (value * 64 + (b - 0x80))], none) := if_pos h

theorem step_more {value more low high b : Nat} (h : low ≤ b ∧ b ≤ high) :
    step (some ⟨value, more + 1, low, high⟩) b =
      ([], some ⟨value * 64 + (b - 0x80), more, 0x80, 0xBF⟩) := if_pos h

inductive Spells (c : Char) : Option Begun → List UInt8 → Prop
  | last {s b} (h : step s b.toNat = ([c], none)) : Spells c s [b]
  | more {s b t bytes} (h : step s b.toNat = ([], some t)) (hcontinues : ∀ b ∈ bytes, Continues b)
    (hrest : Spells c (some t) bytes) : Spells c s (b :: bytes)

theorem toNat_ofNat {n : Nat} (h : n < 256) : (UInt8.ofNat n).toNat = n := by
  rw [UInt8.toNat_ofNat', Nat.mod_eq_of_lt h]

theorem continues_ofNat (n : Nat) : Continues (UInt8.ofNat (n % 0x40 + 0x80)) := by
  rw [Continues, toNat_ofNat (by omega)]
  omega

theorem spells_last (c : Char) {value low high : Nat} (hvalue : value = c.val.toNat / 64)
    (h : low ≤ c.val.toNat % 0x40 + 0x80 ∧ c.val.toNat % 0x40 + 0x80 ≤ high) :
    Spells c (some ⟨value, 0, low, high⟩) [UInt8.ofNat (c.val.toNat % 0x40 + 0x80)] := by
  have hchar : value * 64 + (c.val.toNat % 0x40 + 0x80 - 0x80) = c.val.toNat := by omega
  refine .last ?_
  rw [toNat_ofNat (by omega), step_last h, hchar]
  exact congrArg (fun c => ([c], none)) (Char.ofNat_toNat c)

theorem spells_more {c : Char} {value more low high n : Nat} {bytes : List UInt8}
    (hvalue : value = n / 64) (h : low ≤ n % 0x40 + 0x80 ∧ n % 0x40 + 0x80 ≤ high)
    (hcontinues : ∀ b ∈ bytes, Continues b) (hrest : Spells c (some ⟨n, more, 0x80, 0xBF⟩) bytes) :
    Spells c (some ⟨value, more + 1, low, high⟩) (UInt8.ofNat (n % 0x40 + 0x80) :: bytes) := by
  have hbits : value * 64 + (n % 0x40 + 0x80 - 0x80) = n := by omega
  refine .more ?_ hcontinues hrest
  rw [toNat_ofNat (by omega), step_more h, hbits]

theorem encodeChar_spells (c : Char) : Spells c none (String.utf8EncodeChar c) := by
  have hvalid : c.val.toNat < 0xD800 ∨ 0xDFFF < c.val.toNat ∧ c.val.toNat < 0x110000 := c.valid
  have hsixth := List.forall_mem_singleton.mpr (continues_ofNat c.val.toNat)
  have htwelfth := List.forall_mem_cons.mpr ⟨continues_ofNat (c.val.toNat / 64), hsixth⟩
  have heighteenth := List.forall_mem_cons.mpr ⟨continues_ofNat (c.val.toNat / 4096), htwelfth⟩
  fun_cases String.utf8EncodeChar c with
  | case1 v h =>
    refine .last ?_
    rw [toNat_ofNat (by omega), step, lead, if_pos (by omega)]
    exact congrArg (fun c => ([c], none)) (Char.ofNat_toNat c)
  | case2 v h h' =>
    have hlast : Spells c (some ⟨v / 64, 0, 0x80, 0xBF⟩) _ := spells_last c rfl (by omega)
    refine .more ?_ hsixth hlast
    rw [toNat_ofNat (by omega), step, lead, if_neg (by omega), if_pos (by omega)]
    simp only [Prod.mk.injEq, Option.some.injEq, Begun.mk.injEq, and_true, true_and]
    omega
  | case3 v h h' h'' =>
    have hlast : Spells c (some ⟨v / 64, 0, 0x80, 0xBF⟩) _ := spells_last c rfl (by omega)
    refine .more (t := ⟨v / 4096, 1, if v / 4096 = 0 then 0xA0 else 0x80,
      if v / 4096 = 0xD then 0x9F else 0xBF⟩) ?_ htwelfth (spells_more (by omega) ?_ hsixth hlast)
    · rw [toNat_ofNat (by omega), step, lead, if_neg (by omega), if_neg (by omega), if_pos (by omega)]
      simp only [Prod.mk.injEq, Option.some.injEq, Begun.mk.injEq, true_and]
      refine ⟨by omega, ?_, ?_⟩
      · exact ite_congr (propext ⟨by omega, by omega⟩) (fun _ => rfl) fun _ => rfl
      · exact ite_congr (propext ⟨by omega, by omega⟩) (fun _ => rfl) fun _ => rfl
    · constructor
      · split <;> omega
      · split <;> omega
  | case4 v h h' h'' =>
    have hlast : Spells c (some ⟨v / 64, 0, 0x80, 0xBF⟩) _ := spells_last c rfl (by omega)
    have hmiddle : Spells c (some ⟨v / 4096, 1, 0x80, 0xBF⟩) _ :=
      spells_more (by omega) (by omega) hsixth hlast
    refine .more (t := ⟨v / 262144, 2, if v / 262144 = 0 then 0x90 else 0x80,
      if v / 262144 = 4 then 0x8F else 0xBF⟩) ?_ heighteenth (spells_more (by omega) ?_ htwelfth hmiddle)
    · rw [toNat_ofNat (by omega), step, lead, if_neg (by omega), if_neg (by omega), if_neg (by omega),
        if_pos (by omega)]
      simp only [Prod.mk.injEq, Option.some.injEq, Begun.mk.injEq, true_and]
      refine ⟨by omega, ?_, ?_⟩
      · exact ite_congr (propext ⟨by omega, by omega⟩) (fun _ => rfl) fun _ => rfl
      · exact ite_congr (propext ⟨by omega, by omega⟩) (fun _ => rfl) fun _ => rfl
    · constructor
      · split <;> omega
      · split <;> omega

section Texts

variable {c : Char} {s : Option Begun} {bytes : List UInt8} {text : List Char}

theorem Spells.decodeFrom (h : Spells c s bytes) (rest : List UInt8) :
    decodeFrom s (bytes ++ rest) = c :: decodeLossy rest := by
  induction h with
  | last h =>
    simp only [List.cons_append, List.nil_append, Utf8.decodeFrom, h]
    rfl
  | more h _ _ ih => simp only [List.cons_append, Utf8.decodeFrom, h, ih, List.nil_append]

theorem Spells.decodeFrom_front (h : Spells c s bytes) {front back : List UInt8}
    (hbytes : bytes = front ++ back) (hback : back ≠ []) (hfront : front ≠ [] ∨ s.isSome) :
    Utf8.decodeFrom s front = [replacement] := by
  induction h generalizing front with
  | @last s b h =>
    cases front with
    | nil =>
      obtain ⟨p, rfl⟩ := Option.isSome_iff_exists.mp (hfront.resolve_left (by simp))
      rfl
    | cons a front =>
      rw [List.cons_append, List.cons.injEq] at hbytes
      exact absurd (List.append_eq_nil_iff.mp hbytes.2.symm).2 hback
  | @more s b t bytes h _ _ ih =>
    cases front with
    | nil =>
      obtain ⟨p, rfl⟩ := Option.isSome_iff_exists.mp (hfront.resolve_left (by simp))
      rfl
    | cons a front =>
      rw [List.cons_append, List.cons.injEq] at hbytes
      obtain ⟨rfl, hbytes⟩ := hbytes
      simp only [Utf8.decodeFrom, h, List.nil_append]
      exact ih hbytes (Or.inr rfl)

theorem Spells.continues (h : Spells c s bytes) {front back : List UInt8}
    (hbytes : bytes = front ++ back) (hfront : front ≠ []) : ∀ b ∈ back, Continues b := by
  have htail : ∀ b ∈ bytes.tail, Continues b := by
    cases h with
    | last => simp
    | more _ hcontinues => exact hcontinues
  cases front with
  | nil => exact absurd rfl hfront
  | cons a front =>
    rw [hbytes] at htail
    exact fun b hb => htail b (List.mem_append_right front hb)

theorem decodeLossy_encode_append (text : List Char) (rest : List UInt8) :
    decodeLossy (encode text ++ rest) = text ++ decodeLossy rest := by
  induction text with
  | nil => rfl
  | cons c text ih =>
    rw [encode_cons, List.append_assoc, decodeLossy, (encodeChar_spells c).decodeFrom, ih]
    rfl

theorem decodeLossy_encode (text : List Char) : decodeLossy (encode text) = text := by
  have happend := decodeLossy_encode_append text []
  rwa [List.append_nil, show decodeLossy [] = [] from rfl, List.append_nil] at happend

theorem encode_injective {a b : List Char} (h : encode a = encode b) : a = b := by
  rw [← decodeLossy_encode a, h, decodeLossy_encode]

theorem decodeLossy_continues_append {front : List UInt8} (h : ∀ b ∈ front, Continues b)
    (rest : List UInt8) :
    decodeLossy (front ++ rest) = List.replicate front.length replacement ++ decodeLossy rest := by
  induction front with
  | nil => rfl
  | cons b front ih =>
    rw [List.cons_append, decodeLossy_continues (h b List.mem_cons_self),
      ih fun a ha => h a (List.mem_cons_of_mem _ ha)]
    rfl

inductive Cut (text : List Char) (front back : List UInt8) : Prop
  | between {a b} (htext : text = a ++ b) (hfront : front = encode a) (hback : back = encode b) :
    Cut text front back
  | inside {a c b head tail} (htext : text = a ++ c :: b) (hchar : String.utf8EncodeChar c = head ++ tail)
    (hhead : head ≠ []) (htail : tail ≠ []) (hfront : front = encode a ++ head)
    (hback : back = tail ++ encode b) : Cut text front back

theorem cut_of_encode {front back : List UInt8} (h : encode text = front ++ back) :
    Cut text front back := by
  induction text generalizing front with
  | nil =>
    obtain ⟨hfront, hback⟩ := List.append_eq_nil_iff.mp h.symm
    exact .between (a := []) (b := []) rfl hfront hback
  | cons c text ih =>
    rw [encode_cons] at h
    cases List.append_eq_append_iff.mp h with
    | inl hlater =>
      obtain ⟨rest, rfl, htext⟩ := hlater
      cases ih htext with
      | @between a b htext hfront hback =>
        exact .between (a := c :: a) (congrArg (c :: ·) htext) (by rw [hfront, encode_cons]) hback
      | @inside a d b head tail htext hchar hhead htail hfront hback =>
        refine .inside (a := c :: a) (congrArg (c :: ·) htext) hchar hhead htail ?_ hback
        rw [hfront, encode_cons, List.append_assoc]
    | inr hearlier =>
      obtain ⟨tail, hchar, hback⟩ := hearlier
      by_cases hfront : front = []
      · refine .between (a := []) (b := c :: text) rfl hfront ?_
        rw [hback, encode_cons, hchar, hfront, List.nil_append]
      · by_cases htail : tail = []
        · refine .between (a := [c]) (b := text) rfl ?_ ?_
          · rw [encode_cons, hchar, htail]
            simp
          · rw [hback, htail, List.nil_append]
        · exact .inside (a := []) rfl hchar hfront htail rfl hback

inductive Blurred : List Char → List Char → Prop
  | nil : Blurred [] []
  | keep (c : Char) {a b} (h : Blurred a b) : Blurred (c :: a) (c :: b)
  | blur (c : Char) (n : Nat) {a b} (hc : 128 ≤ c.toNat) (h : Blurred a b) :
    Blurred (c :: a) (List.replicate (n + 2) replacement ++ b)

theorem Blurred.nil_left {b : List Char} (h : Blurred [] b) : b = [] := by
  cases h
  rfl

theorem Blurred.append {a b : List Char} (h : Blurred a b) (kept : List Char) :
    Blurred (kept ++ a) (kept ++ b) := by
  induction kept with
  | nil => exact h
  | cons c kept ih => exact .keep c ih

theorem Blurred.length_le {a b : List Char} (h : Blurred a b) : a.length ≤ b.length := by
  induction h with
  | nil => exact Nat.le_refl 0
  | keep c h ih => exact Nat.succ_le_succ ih
  | blur c n hc h ih =>
    rw [List.length_cons, List.length_append, List.length_replicate]
    omega

theorem Blurred.fields {a b : List Char} (h : Blurred a b) :
    List.Forall₂ Blurred (Foundation.fields '\n' a) (Foundation.fields '\n' b) := by
  have hhead {fs gs : List (List Char)} {f g : List Char → List Char}
      (hall : List.Forall₂ Blurred fs gs) (hfg : ∀ x y, Blurred x y → Blurred (f x) (g y)) :
      List.Forall₂ Blurred (fs.modifyHead f) (gs.modifyHead g) := by
    cases hall with
    | nil => exact .nil
    | cons hfirst hrest => exact .cons (hfg _ _ hfirst) hrest
  induction h with
  | nil => exact .cons .nil .nil
  | @keep c a b h ih =>
    by_cases hc : c = '\n'
    · rw [Foundation.fields, Foundation.fields, if_pos hc, if_pos hc]
      exact .cons .nil ih
    · rw [fields_cons_of_ne hc, fields_cons_of_ne hc]
      exact hhead ih fun _ _ hxy => .keep c hxy
  | @blur c n a b hc h ih =>
    have hne : c ≠ '\n' := by
      rintro rfl
      exact absurd hc (by decide)
    have hline : '\n' ∉ List.replicate (n + 2) replacement := by
      rw [List.mem_replicate]
      exact fun h => absurd h.2 (by decide)
    rw [fields_cons_of_ne hne, fields_append_of_not_mem hline]
    exact hhead ih fun _ _ hxy => .blur c n hc hxy

theorem Blurred.marks {a b : List Char} (h : Blurred a b) :
    Foundation.marks a ≤ Foundation.marks b ∧ (Foundation.marks a = Foundation.marks b → a = b) := by
  induction h with
  | nil => exact ⟨Nat.le_refl _, fun _ => rfl⟩
  | @keep c a b h ih =>
    simp only [Foundation.marks, List.countP_cons] at ih ⊢
    exact ⟨by omega, fun heq => congrArg (c :: ·) (ih.2 (by omega))⟩
  | @blur c n a b hc h ih =>
    have hreplaced : (List.replicate (n + 2) replacement).countP (fun c => !isWhitespace c) = n + 2 := by
      rw [List.countP_replicate, if_pos (by decide)]
    have hone : (if (!isWhitespace c) = true then 1 else 0) ≤ 1 := by
      split <;> omega
    simp only [Foundation.marks, List.countP_cons, List.countP_append, hreplaced] at ih ⊢
    exact ⟨by omega, fun heq => absurd heq (by omega)⟩

theorem Blurred.eq_of_trim {a b : List Char} (h : Blurred a b) (htrim : trim a = trim b) : a = b := by
  refine h.marks.2 ?_
  rw [← marks_trim a, htrim, marks_trim]

theorem wide_of_parts {front back : List UInt8} (hchar : String.utf8EncodeChar c = front ++ back)
    (hfront : front ≠ []) (hback : back ≠ []) : 128 ≤ c.toNat := by
  by_contra hascii
  have hone : (String.utf8EncodeChar c).length = 1 := by
    rw [String.utf8EncodeChar, if_pos]
    · rfl
    · exact Nat.le_of_lt_succ (Nat.lt_of_not_le hascii)
  have hf := List.length_pos_iff.mpr hfront
  have hb := List.length_pos_iff.mpr hback
  rw [hchar, List.length_append] at hone
  omega

def decodeChunks (chunks : List (List UInt8)) : List Char := chunks.flatMap decodeLossy

def Whole (chunks : List (List UInt8)) : Prop := ∀ chunk ∈ chunks, ∃ t, chunk = encode t

theorem decodeChunks_cons (chunk : List UInt8) (chunks : List (List UInt8)) :
    decodeChunks (chunk :: chunks) = decodeLossy chunk ++ decodeChunks chunks := rfl

theorem decodeLossy_front {front back : List UInt8} (hchar : String.utf8EncodeChar c = front ++ back)
    (hfront : front ≠ []) (hback : back ≠ []) : decodeLossy front = [replacement] :=
  (encodeChar_spells c).decodeFrom_front hchar hback (Or.inl hfront)

theorem decodeChunks_cut {chunks : List (List UInt8)} {tail : List UInt8}
    (htail : ∀ b ∈ tail, Continues b) (hchunks : chunks.flatten = tail ++ encode text) :
    ∃ decoded, decodeChunks chunks = List.replicate tail.length replacement ++ decoded ∧
      Blurred text decoded := by
  induction chunks generalizing tail text with
  | nil =>
    obtain ⟨rfl, hnone⟩ := List.append_eq_nil_iff.mp hchunks.symm
    have hempty : text = [] := encode_injective hnone
    exact ⟨[], rfl, hempty ▸ .nil⟩
  | cons chunk chunks ih =>
    rw [List.flatten_cons] at hchunks
    cases List.append_eq_append_iff.mp hchunks with
    | inl hwithin =>
      obtain ⟨rest, rfl, hrest⟩ := hwithin
      obtain ⟨decoded, hdecoded, hblurred⟩ := ih (fun b hb => htail b (List.mem_append_right _ hb)) hrest
      have hchunk := decodeLossy_continues_append (fun b hb => htail b (List.mem_append_left rest hb)) []
      rw [List.append_nil] at hchunk
      refine ⟨decoded, ?_, hblurred⟩
      have hend : decodeLossy [] = [] := rfl
      rw [decodeChunks_cons, hchunk, hend, List.append_nil, hdecoded, List.length_append,
        ← List.append_assoc, List.replicate_append_replicate]
    | inr hbeyond =>
      obtain ⟨front, rfl, hrest⟩ := hbeyond
      cases cut_of_encode hrest with
      | @between a b htext hfront hback =>
        obtain ⟨decoded, hdecoded, hblurred⟩ := ih (List.forall_mem_nil _) hback
        refine ⟨a ++ decoded, ?_, htext ▸ hblurred.append a⟩
        rw [decodeChunks_cons, decodeLossy_continues_append htail, hfront, decodeLossy_encode, hdecoded,
          List.append_assoc]
        rfl
      | @inside a c b head last htext hchar hhead hlast hfront hback =>
        obtain ⟨decoded, hdecoded, hblurred⟩ := ih ((encodeChar_spells c).continues hchar hhead) hback
        refine ⟨a ++ (List.replicate (last.length - 1 + 2) replacement ++ decoded), ?_, ?_⟩
        · rw [decodeChunks_cons, decodeLossy_continues_append htail, hfront, decodeLossy_encode_append,
            decodeLossy_front hchar hhead hlast, hdecoded, List.append_assoc, List.append_assoc]
          have hlength : last.length - 1 + 2 = last.length + 1 := by
            have hpos := List.length_pos_iff.mpr hlast
            omega
          rw [hlength, List.replicate_succ]
          rfl
        · rw [htext]
          exact (Blurred.blur c _ (wide_of_parts hchar hhead hlast) hblurred).append a

theorem decodeChunks_blurred {chunks : List (List UInt8)} (h : chunks.flatten = encode text) :
    Blurred text (decodeChunks chunks) := by
  obtain ⟨decoded, hdecoded, hblurred⟩ := decodeChunks_cut (List.forall_mem_nil _) h
  exact hdecoded ▸ hblurred

theorem whole_or_longer {chunks : List (List UInt8)} (h : chunks.flatten = encode text) :
    Whole chunks ∨ text.length < (decodeChunks chunks).length := by
  induction chunks generalizing text with
  | nil => exact Or.inl fun chunk hchunk => nomatch hchunk
  | cons chunk chunks ih =>
    cases cut_of_encode (List.flatten_cons ▸ h.symm) with
    | @between a b htext hfront hback =>
      cases ih hback with
      | inl hwhole => exact Or.inl (List.forall_mem_cons.mpr ⟨⟨a, hfront⟩, hwhole⟩)
      | inr hlonger =>
        refine Or.inr ?_
        rw [decodeChunks_cons, hfront, decodeLossy_encode, htext, List.length_append, List.length_append]
        omega
    | @inside a c b head last htext hchar hhead hlast hfront hback =>
      obtain ⟨decoded, hdecoded, hblurred⟩ := decodeChunks_cut
        ((encodeChar_spells c).continues hchar hhead) hback
      have hle := hblurred.length_le
      have hpos := List.length_pos_iff.mpr hlast
      refine Or.inr ?_
      rw [decodeChunks_cons, hfront, decodeLossy_encode_append, decodeLossy_front hchar hhead hlast,
        hdecoded, htext]
      simp only [List.length_append, List.length_cons, List.length_replicate, List.length_nil]
      omega

theorem decodeChunks_of_whole {chunks : List (List UInt8)} (hwhole : Whole chunks)
    (h : chunks.flatten = encode text) : decodeChunks chunks = text := by
  have hencode : encode (decodeChunks chunks) = chunks.flatten := by
    clear h
    induction chunks with
    | nil => rfl
    | cons chunk chunks ih =>
      obtain ⟨t, rfl⟩ := hwhole chunk List.mem_cons_self
      rw [decodeChunks_cons, decodeLossy_encode, encode_append, List.flatten_cons,
        ih fun later hlater => hwhole later (List.mem_cons_of_mem _ hlater)]
  exact encode_injective (hencode.trans h)

end Texts

end Fumiko.Foundation.Utf8
