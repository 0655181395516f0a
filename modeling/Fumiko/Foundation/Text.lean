import Mathlib.Algebra.Group.Nat.Defs
import Mathlib.Data.List.DropRight
import Mathlib.Data.List.Infix
import Mathlib.Data.List.TakeWhile
import Mathlib.Order.Defs.Unbundled

namespace Fumiko.Foundation

theorem forall_mem_of_all {α : Type} {p : α → Prop} [DecidablePred p] {l : List α}
    (h : (l.all fun a => decide (p a)) = true) : ∀ a ∈ l, p a := by
  simpa using h

def contains (text pattern : String) : Bool :=
  decide (pattern.toList <:+: text.toList)

theorem contains_append_right {a b p : String} (h : contains b p) : contains (a ++ b) p := by
  simp only [contains, decide_eq_true_eq, String.toList_append] at *
  exact h.trans (List.suffix_append _ _).isInfix

/-- `str::split` on one character. -/
def fields (sep : Char) : List Char → List (List Char)
  | [] => [[]]
  | c :: cs =>
    if c = sep then [] :: fields sep cs
    else match fields sep cs with
      | f :: fs => (c :: f) :: fs
      | [] => [[c]]

theorem fields_of_not_mem {sep : Char} {a : List Char} (h : sep ∉ a) : fields sep a = [a] := by
  induction a with
  | nil => rfl
  | cons c a ih =>
    simp only [List.mem_cons, not_or] at h
    simp [fields, ih h.2, Ne.symm h.1]

theorem fields_append {sep : Char} {a : List Char} (h : sep ∉ a) (b : List Char) :
    fields sep (a ++ sep :: b) = a :: fields sep b := by
  induction a with
  | nil => simp [fields]
  | cons c a ih =>
    simp only [List.mem_cons, not_or] at h
    simp [fields, ih h.2, Ne.symm h.1]

theorem fields_ne_nil (sep : Char) (a : List Char) : fields sep a ≠ [] := by
  cases a with
  | nil => simp [fields]
  | cons c a =>
    rw [fields]
    split
    · simp
    · split <;> simp

def unfinished (sep : Char) (a : List Char) : List Char := (fields sep a).getLastD []

theorem fields_eq_append (sep : Char) (a : List Char) :
    fields sep a = (fields sep a).dropLast ++ [unfinished sep a] := by
  rw [unfinished, List.getLastD_eq_getLast?, List.getLast?_eq_some_getLast (fields_ne_nil sep a),
    Option.getD_some, List.dropLast_concat_getLast]

theorem fields_cons_of_ne {sep c : Char} (h : c ≠ sep) (a : List Char) :
    fields sep (c :: a) = (fields sep a).modifyHead (c :: ·) := by
  rw [fields, if_neg h]
  cases hfields : fields sep a with
  | nil => exact absurd hfields (fields_ne_nil sep a)
  | cons f fs => rfl

theorem fields_append_cons (sep : Char) (a b : List Char) :
    fields sep (a ++ sep :: b) = fields sep a ++ fields sep b := by
  induction a with
  | nil => simp [fields]
  | cons c a ih =>
    by_cases hc : c = sep
    · simp [fields, hc, ih]
    · rw [List.cons_append, fields_cons_of_ne hc, ih, fields_cons_of_ne hc]
      cases hfields : fields sep a with
      | nil => exact absurd hfields (fields_ne_nil sep a)
      | cons f fs => rfl

theorem not_mem_of_mem_fields {sep : Char} {a f : List Char} (h : f ∈ fields sep a) : sep ∉ f := by
  induction a generalizing f with
  | nil =>
    rw [fields, List.mem_singleton] at h
    simp [h]
  | cons c a ih =>
    by_cases hc : c = sep
    · rw [fields, if_pos hc, List.mem_cons] at h
      cases h with
      | inl h => simp [h]
      | inr h => exact ih h
    · rw [fields_cons_of_ne hc] at h
      cases hfields : fields sep a with
      | nil => exact absurd hfields (fields_ne_nil sep a)
      | cons g gs =>
        rw [hfields] at h ih
        rw [List.modifyHead_cons, List.mem_cons] at h
        cases h with
        | inl h => simp [h, Ne.symm hc, ih List.mem_cons_self]
        | inr h => exact ih (List.mem_cons_of_mem _ h)

theorem fields_append_of_not_mem {sep : Char} {a : List Char} (h : sep ∉ a) (b : List Char) :
    fields sep (a ++ b) = (fields sep b).modifyHead (a ++ ·) := by
  induction a with
  | nil =>
    cases hfields : fields sep b with
    | nil => exact absurd hfields (fields_ne_nil sep b)
    | cons f fs => exact hfields
  | cons c a ih =>
    rw [List.mem_cons, not_or] at h
    rw [List.cons_append, fields_cons_of_ne (Ne.symm h.1), ih h.2, List.modifyHead_modifyHead]
    rfl

theorem dropLast_unfinished {sep : Char} {a : List Char} {front : List (List Char)} {last : List Char}
    (h : fields sep a = front ++ [last]) : (fields sep a).dropLast = front ∧ unfinished sep a = last := by
  rw [unfinished, h]
  simp

theorem fields_append_unfinished (sep : Char) (a b : List Char) :
    fields sep (a ++ b) = (fields sep a).dropLast ++ fields sep (unfinished sep a ++ b) := by
  induction a with
  | nil => simp [fields, unfinished]
  | cons c a ih =>
    have hlast := fields_eq_append sep a
    by_cases hc : c = sep
    · have hcons (d : List Char) : fields sep (c :: d) = [] :: fields sep d := by
        rw [fields, if_pos hc]
      have hcut : fields sep (c :: a) = ([] :: (fields sep a).dropLast) ++ [unfinished sep a] := by
        rw [hcons, List.cons_append, ← hlast]
      obtain ⟨hfront, hunfinished⟩ := dropLast_unfinished hcut
      rw [hfront, hunfinished, List.cons_append, hcons, ih, List.cons_append]
    · cases hinit : (fields sep a).dropLast with
      | nil =>
        rw [hinit] at hlast ih
        have hcut : fields sep (c :: a) = [] ++ [c :: unfinished sep a] := by
          rw [fields_cons_of_ne hc, hlast]
          rfl
        obtain ⟨hfront, hunfinished⟩ := dropLast_unfinished hcut
        rw [hfront, hunfinished, List.cons_append, List.cons_append, fields_cons_of_ne hc, ih,
          fields_cons_of_ne hc]
        rfl
      | cons f fs =>
        rw [hinit] at hlast ih
        have hcut : fields sep (c :: a) = ((c :: f) :: fs) ++ [unfinished sep a] := by
          rw [fields_cons_of_ne hc, hlast]
          rfl
        obtain ⟨hfront, hunfinished⟩ := dropLast_unfinished hcut
        rw [hfront, hunfinished, List.cons_append, fields_cons_of_ne hc, ih]
        rfl

theorem length_flatten_fields (sep : Char) (a : List Char) :
    (fields sep a).flatten.length + (fields sep a).length = a.length + 1 := by
  induction a with
  | nil => rfl
  | cons c a ih =>
    by_cases hc : c = sep
    · rw [fields, if_pos hc]
      simp only [List.flatten_cons, List.nil_append, List.length_cons]
      omega
    · rw [fields_cons_of_ne hc]
      cases hfields : fields sep a with
      | nil => exact absurd hfields (fields_ne_nil sep a)
      | cons f fs =>
        rw [hfields] at ih
        simp only [List.modifyHead_cons, List.flatten_cons, List.length_append, List.length_cons] at ih ⊢
        omega

/-- The Unicode `White_Space` property. -/
def isWhitespace (c : Char) : Bool :=
  let n := c.toNat
  (9 ≤ n ∧ n ≤ 13) ∨ n = 0x20 ∨ n = 0x85 ∨ n = 0xA0 ∨ n = 0x1680 ∨ (0x2000 ≤ n ∧ n ≤ 0x200A) ∨
    n = 0x2028 ∨ n = 0x2029 ∨ n = 0x202F ∨ n = 0x205F ∨ n = 0x3000

def trim (cs : List Char) : List Char :=
  ((cs.dropWhile isWhitespace).reverse.dropWhile isWhitespace).reverse

theorem rdropWhile_append_cons {p : Char → Bool} {c : Char} (h : p c = false) (a b : List Char) :
    (a ++ c :: b).rdropWhile p = a ++ c :: b.rdropWhile p := by
  induction b using List.reverseRecOn with
  | nil =>
    rw [List.rdropWhile_concat_neg _ _ _ (by simp [h])]
    rfl
  | append_singleton b d ih =>
    have hassoc : a ++ c :: (b ++ [d]) = (a ++ c :: b) ++ [d] := by simp
    cases hd : p d with
    | true => rw [hassoc, List.rdropWhile_concat_pos _ _ _ hd, List.rdropWhile_concat_pos _ _ _ hd, ih]
    | false =>
      rw [hassoc, List.rdropWhile_concat_neg _ _ _ (by simp [hd]),
        List.rdropWhile_concat_neg _ _ _ (by simp [hd]), ← hassoc]

theorem trim_append_cons {blank : List Char} (hblank : ∀ c ∈ blank, isWhitespace c) {c : Char}
    (hc : isWhitespace c = false) (rest : List Char) :
    trim (blank ++ c :: rest) = c :: rest.rdropWhile isWhitespace := by
  have hstart : (blank ++ c :: rest).dropWhile isWhitespace = c :: rest := by
    rw [List.dropWhile_append_of_pos hblank, List.dropWhile_cons_of_neg (by simp [hc])]
  rw [trim, hstart]
  exact rdropWhile_append_cons hc [] rest

theorem trim_eq_nil {cs : List Char} : trim cs = [] ↔ ∀ c ∈ cs, isWhitespace c := by
  rw [trim, List.reverse_eq_nil_iff, List.dropWhile_eq_nil_iff]
  constructor
  · intro h
    by_contra hne
    have hdrop : cs.dropWhile isWhitespace ≠ [] := by rwa [ne_eq, List.dropWhile_eq_nil_iff]
    have hhead := List.head_dropWhile_not isWhitespace hdrop
    rw [h _ (List.mem_reverse.mpr (List.head_mem hdrop))] at hhead
    cases hhead
  · intro h c hc
    exact h c ((List.dropWhile_sublist _).subset (List.mem_reverse.mp hc))

theorem exists_trim_append (cs : List Char) : ∃ front back, cs = front ++ trim cs ++ back ∧
    (∀ c ∈ front, isWhitespace c) ∧ ∀ c ∈ back, isWhitespace c := by
  let rest := cs.dropWhile isWhitespace
  refine ⟨cs.takeWhile isWhitespace, (rest.reverse.takeWhile isWhitespace).reverse, ?_, ?_, ?_⟩
  · have hrest : trim cs ++ (rest.reverse.takeWhile isWhitespace).reverse = rest := by
      rw [trim, ← List.reverse_append, List.takeWhile_append_dropWhile, List.reverse_reverse]
    rw [List.append_assoc, hrest, List.takeWhile_append_dropWhile]
  · intro c hc
    exact List.mem_takeWhile_imp hc
  · intro c hc
    exact List.mem_takeWhile_imp (List.mem_reverse.mp hc)

theorem trim_trim (cs : List Char) : trim (trim cs) = trim cs := by
  cases hdrop : cs.dropWhile isWhitespace with
  | nil =>
    have hnil : trim cs = [] := trim_eq_nil.mpr (List.dropWhile_eq_nil_iff.mp hdrop)
    rw [hnil]
    rfl
  | cons c rest =>
    have hne : cs.dropWhile isWhitespace ≠ [] := by rw [hdrop]; exact List.cons_ne_nil c rest
    have hhead := List.head_dropWhile_not isWhitespace hne
    simp only [hdrop, List.head_cons] at hhead
    have hcs : cs = cs.takeWhile isWhitespace ++ c :: rest := by
      rw [← hdrop, List.takeWhile_append_dropWhile]
    have htrim : trim cs = c :: rest.rdropWhile isWhitespace := by
      rw [hcs]
      exact trim_append_cons (fun d hd => List.mem_takeWhile_imp hd) hhead rest
    rw [htrim]
    exact (@trim_append_cons [] (by simp) c hhead _).trans
      (congrArg (c :: ·) (List.rdropWhile_idempotent _ _))

theorem trim_eq_self {cs : List Char} (h : ∀ c ∈ cs, isWhitespace c = false) : trim cs = cs := by
  obtain ⟨front, back, hcs, hfront, hback⟩ := exists_trim_append cs
  have hnil {blank : List Char} (hblank : ∀ c ∈ blank, isWhitespace c) (hsub : blank ⊆ cs) : blank = [] := by
    rw [List.eq_nil_iff_forall_not_mem]
    intro c hc
    have hwhite := hblank c hc
    rw [h c (hsub hc)] at hwhite
    cases hwhite
  have hfront' : front = [] := hnil hfront fun c hc => by rw [hcs]; simp [hc]
  have hback' : back = [] := hnil hback fun c hc => by rw [hcs]; simp [hc]
  rw [hfront', hback', List.nil_append, List.append_nil] at hcs
  exact hcs.symm

def marks (cs : List Char) : Nat := cs.countP fun c => !isWhitespace c

theorem countP_dropWhile {p q : Char → Bool} (h : ∀ c, p c → q c = false) (cs : List Char) :
    (cs.dropWhile p).countP q = cs.countP q := by
  have hsplit := List.takeWhile_append_dropWhile (p := p) (l := cs)
  have hnone : (cs.takeWhile p).countP q = 0 := by
    rw [List.countP_eq_zero]
    intro c hc
    simp [h c (List.mem_takeWhile_imp hc)]
  calc (cs.dropWhile p).countP q
      = (cs.takeWhile p).countP q + (cs.dropWhile p).countP q := by rw [hnone, Nat.zero_add]
    _ = cs.countP q := by rw [← List.countP_append, hsplit]

theorem count_dropWhile {p : Char → Bool} {c : Char} (h : p c = false) (cs : List Char) :
    (cs.dropWhile p).count c = cs.count c := by
  apply countP_dropWhile
  intro d hd
  rw [beq_eq_false_iff_ne]
  rintro rfl
  rw [h] at hd
  cases hd

theorem count_rdropWhile {p : Char → Bool} {c : Char} (h : p c = false) (cs : List Char) :
    (cs.rdropWhile p).count c = cs.count c := by
  rw [List.rdropWhile, List.count_reverse, count_dropWhile h, List.count_reverse]

theorem marks_dropWhile (cs : List Char) : marks (cs.dropWhile isWhitespace) = marks cs :=
  countP_dropWhile (fun c hc => by simp [hc]) cs

theorem marks_trim (cs : List Char) : marks (trim cs) = marks cs := by
  have hreverse (l : List Char) : marks l.reverse = marks l := List.countP_reverse
  rw [trim, hreverse, marks_dropWhile, hreverse, marks_dropWhile]

theorem trim_ne_nil {cs : List Char} : trim cs ≠ [] ↔ 0 < marks cs := by
  rw [ne_eq, trim_eq_nil, marks, List.countP_pos_iff]
  simp

/-- `str::split_whitespace` -/
def words : List Char → List (List Char)
  | [] => []
  | c :: cs =>
    if isWhitespace c then words cs
    else match cs with
      | [] => [[c]]
      | d :: _ =>
        if isWhitespace d then [c] :: words cs
        else match words cs with
          | w :: ws => (c :: w) :: ws
          | [] => [[c]]

namespace Decimal

def isNumeral (cs : List Char) : Bool :=
  !cs.isEmpty && cs.all Char.isDigit

/-- `str::parse` into an unsigned type that holds the numbers below `bound`: an optional
plus sign, then digits, without overflow. -/
def parseUnsigned (bound : Nat) (text : String) : Option Nat :=
  let digits := match text.toList with
    | '+' :: cs => cs
    | cs => cs
  if isNumeral digits then
    let n := Nat.ofDigitChars 10 digits 0
    if n < bound then some n else none
  else none

def parseU32 : String → Option Nat := parseUnsigned (2 ^ 32)

def parseI64 (text : String) : Option Int :=
  match text.toList with
  | '-' :: cs =>
    if isNumeral cs then
      let n := Nat.ofDigitChars 10 cs 0
      if n ≤ 2 ^ 63 then some (-n) else none
    else none
  | _ => (parseUnsigned (2 ^ 63) text).map Int.ofNat

theorem isNumeral_toDigits (n : Nat) : isNumeral (Nat.toDigits 10 n) := by
  simp only [isNumeral, Bool.and_eq_true, Bool.not_eq_true', List.isEmpty_eq_false_iff,
    List.all_eq_true]
  exact ⟨Nat.toDigits_ne_nil, fun c hc => Nat.isDigit_of_mem_toDigits (by decide) (by decide) hc⟩

theorem parseUnsigned_repr {bound n : Nat} (h : n < bound) :
    parseUnsigned bound (Nat.repr n) = some n := by
  have hdigits : (match Nat.toDigits 10 n with
      | '+' :: cs => cs
      | cs => cs) = Nat.toDigits 10 n := by
    split
    · rename_i cs heq
      have hplus : '+' ∈ Nat.toDigits 10 n := by simp [heq]
      exact absurd (Nat.isDigit_of_mem_toDigits (by decide) (by decide) hplus) (by decide)
    · rfl
  simp only [parseUnsigned, Nat.toList_repr, hdigits, isNumeral_toDigits, if_true,
    Nat.ofDigitChars_ten_toDigits, h]

theorem parseU32_repr {n : Nat} (h : n < 2 ^ 32) : parseU32 (Nat.repr n) = some n :=
  parseUnsigned_repr h

theorem parseI64_repr {n : Nat} (h : n < 2 ^ 63) : parseI64 (Nat.repr n) = some (n : Int) := by
  rw [parseI64]
  split
  · rename_i cs heq
    rw [Nat.toList_repr] at heq
    have hminus : '-' ∈ Nat.toDigits 10 n := by simp [heq]
    exact absurd (Nat.isDigit_of_mem_toDigits (by decide) (by decide) hminus) (by decide)
  · rw [parseUnsigned_repr h]
    rfl

theorem parseUnsigned_ofList {bound : Nat} {cs : List Char} (h : isNumeral cs)
    (hlt : Nat.ofDigitChars 10 cs 0 < bound) :
    parseUnsigned bound (String.ofList cs) = some (Nat.ofDigitChars 10 cs 0) := by
  have hdigits : ∀ l, isNumeral l → (match l with
      | '+' :: cs => cs
      | cs => cs) = l := by
    intro l hl
    split
    · simp [isNumeral] at hl
    · rfl
  simp only [parseUnsigned, String.toList_ofList, hdigits cs h, h, if_true, hlt]

theorem parseUnsigned_push {bound n : Nat} {c : Char} (hc : c.isDigit)
    (hlt : 10 * n + (c.toNat - '0'.toNat) < bound) :
    parseUnsigned bound ((Nat.repr n).push c) = some (10 * n + (c.toNat - '0'.toNat)) := by
  have hvalue : Nat.ofDigitChars 10 (Nat.toDigits 10 n ++ [c]) 0 = 10 * n + (c.toNat - '0'.toNat) := by
    rw [Nat.ofDigitChars_append, Nat.ofDigitChars_ten_toDigits, Nat.ofDigitChars_cons, Nat.ofDigitChars_nil]
  have hnumeral : isNumeral (Nat.toDigits 10 n ++ [c]) := by
    have hrepr := isNumeral_toDigits n
    simp only [isNumeral, Bool.and_eq_true] at hrepr
    simp [isNumeral, hrepr.2, hc]
  have htext : (Nat.repr n).push c = String.ofList (Nat.toDigits 10 n ++ [c]) := by
    apply String.toList_injective
    simp [Nat.toList_repr]
  rw [htext, parseUnsigned_ofList hnumeral (by rwa [hvalue]), hvalue]

theorem repr_injective : Function.Injective Nat.repr := by
  intro m n h
  have hm : m < max m n + 1 := by omega
  have hn : n < max m n + 1 := by omega
  have := parseUnsigned_repr hm
  rw [h, parseUnsigned_repr hn] at this
  exact (Option.some.inj this).symm

theorem digit_of_mem_repr {n : Nat} {c : Char} (h : c ∈ (Nat.repr n).toList) : c.isDigit := by
  rw [Nat.toList_repr] at h
  exact Nat.isDigit_of_mem_toDigits (by decide) (by decide) h

end Decimal

end Fumiko.Foundation
