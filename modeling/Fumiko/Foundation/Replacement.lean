import Mathlib.Data.List.Infix

namespace Fumiko.Foundation.Replacement

variable {α : Type} [DecidableEq α]

/-- `skip` characters belong to an occurrence that has been replaced. -/
def replaceFrom (pattern replacement : List α) : (skip : Nat) → List α → List α
  | _, [] => []
  | skip + 1, _ :: text => replaceFrom pattern replacement skip text
  | 0, c :: text =>
    if pattern <+: c :: text then
      replacement ++ replaceFrom pattern replacement (pattern.length - 1) text
    else c :: replaceFrom pattern replacement 0 text

/-- `str::replace`, for a pattern that is not empty. -/
def replace (pattern replacement text : List α) : List α := replaceFrom pattern replacement 0 text

section Equations

variable {pattern replacement text : List α} {c : α}

theorem replaceFrom_append (front : List α) :
    replaceFrom pattern replacement front.length (front ++ text) = replace pattern replacement text := by
  induction front with
  | nil => rfl
  | cons d front ih => exact ih

@[simp] theorem replace_nil : replace pattern replacement [] = [] := rfl

theorem replace_pattern (hpattern : pattern ≠ []) :
    replace pattern replacement (pattern ++ text) = replacement ++ replace pattern replacement text := by
  cases pattern with
  | nil => exact absurd rfl hpattern
  | cons c pattern =>
    have hstarts : c :: pattern <+: c :: (pattern ++ text) := List.prefix_append (c :: pattern) text
    rw [replace, List.cons_append, replaceFrom, if_pos hstarts, List.length_cons, Nat.add_sub_cancel,
      replaceFrom_append]

theorem replace_cons (h : ¬pattern <+: c :: text) :
    replace pattern replacement (c :: text) = c :: replace pattern replacement text := by
  rw [replace, replaceFrom, if_neg h]
  rfl

end Equations

theorem reading {motive : List α → Prop} {pattern : List α} (hpattern : pattern ≠ [])
    (nil : motive []) (found : ∀ text, motive text → motive (pattern ++ text))
    (cons : ∀ c text, ¬pattern <+: c :: text → motive text → motive (c :: text)) (text : List α) :
    motive text := by
  induction hlength : text.length using Nat.strong_induction_on generalizing text with
  | _ n ih =>
    cases text with
    | nil => exact nil
    | cons c text =>
      by_cases hstarts : pattern <+: c :: text
      · obtain ⟨rest, hrest⟩ := hstarts
        rw [← hrest]
        have hshorter : rest.length < n := by
          rw [← hlength, ← hrest, List.length_append]
          exact Nat.lt_add_of_pos_left (List.length_pos_iff.mpr hpattern)
        exact found rest (ih _ hshorter rest rfl)
      · have hshorter : text.length < n := by
          rw [← hlength]
          exact Nat.lt_succ_self _
        exact cons c text hstarts (ih _ hshorter text rfl)

section Erasing

variable {pattern text : List α}

theorem length_erase_le (hpattern : pattern ≠ []) (text : List α) :
    (replace pattern [] text).length ≤ text.length := by
  induction text using reading hpattern with
  | nil => exact Nat.le_refl 0
  | found text ih =>
    rw [replace_pattern hpattern, List.nil_append, List.length_append]
    exact Nat.le_trans ih (Nat.le_add_left _ _)
  | cons c text hc ih =>
    rw [replace_cons hc]
    exact Nat.succ_le_succ ih

theorem erase_eq_self_iff (hpattern : pattern ≠ []) : replace pattern [] text = text ↔ ¬pattern <:+: text := by
  induction text using reading hpattern with
  | nil => exact iff_of_true rfl fun h => hpattern (List.infix_nil.mp h)
  | found text =>
    refine iff_of_false ?_ (not_not_intro ⟨[], text, rfl⟩)
    intro h
    have hle := length_erase_le hpattern text
    have hlength := congrArg List.length h
    rw [replace_pattern hpattern, List.nil_append, List.length_append] at hlength
    exact absurd (List.length_pos_iff.mpr hpattern) (by omega)
  | cons c text hc ih =>
    rw [replace_cons hc, List.cons_inj_right, ih, List.infix_cons_iff, not_or, and_iff_right hc]

end Erasing

section Separators

variable {pattern replacement : List α} {d : α}

theorem replace_separator (hpattern : pattern ≠ []) (hd : d ∉ pattern) (front rest : List α) :
    replace pattern replacement (front ++ d :: rest) =
      replace pattern replacement front ++ d :: replace pattern replacement rest := by
  have hself (rest : List α) : ¬pattern <+: d :: rest := by
    intro h
    cases pattern with
    | nil => exact hpattern rfl
    | cons p pattern => exact hd (List.mem_cons.mpr (Or.inl (List.cons_prefix_cons.mp h).1.symm))
  induction front using reading hpattern with
  | nil => exact replace_cons (hself rest)
  | found front ih => rw [List.append_assoc, replace_pattern hpattern, replace_pattern hpattern, ih, List.append_assoc]
  | cons c front hc ih =>
    have hlonger : ¬pattern <+: c :: (front ++ d :: rest) := by
      rintro ⟨tail, htail⟩
      rcases List.append_eq_append_iff.mp (show pattern ++ tail = (c :: front) ++ d :: rest from htail)
        with ⟨middle, hfront, -⟩ | ⟨middle, hlong, hmiddle⟩
      · exact hc (hfront ▸ List.prefix_append _ _)
      · cases middle with
        | nil => exact hc (hlong ▸ by simp)
        | cons e middle =>
          cases (List.cons.inj hmiddle).1
          exact hd (hlong ▸ by simp)
    rw [List.cons_append, replace_cons hlonger, ih, replace_cons hc, List.cons_append]

theorem replace_eq_separator (hpattern : pattern ≠ []) (hd : d ∉ replacement) {text left right : List α}
    (h : replace pattern replacement text = left ++ d :: right) :
    ∃ front rest, text = front ++ d :: rest ∧ replace pattern replacement rest = right := by
  induction text using reading hpattern generalizing left with
  | nil => simp at h
  | found text ih =>
    rw [replace_pattern hpattern] at h
    rcases List.append_eq_append_iff.mp h with ⟨middle, -, hright⟩ | ⟨middle, hreplacement, hright⟩
    · obtain ⟨front, rest, rfl, hrest⟩ := ih hright
      exact ⟨pattern ++ front, rest, by rw [List.append_assoc], hrest⟩
    · cases middle with
      | nil =>
        obtain ⟨front, rest, rfl, hrest⟩ := ih (show _ = [] ++ d :: right from hright.symm)
        exact ⟨pattern ++ front, rest, by rw [List.append_assoc], hrest⟩
      | cons e middle =>
        cases (List.cons.inj hright).1
        exact absurd (hreplacement ▸ by simp) hd
  | cons c text hc ih =>
    rw [replace_cons hc] at h
    cases left with
    | nil =>
      cases h
      exact ⟨[], text, rfl, rfl⟩
    | cons e left =>
      cases (List.cons.inj h).1
      obtain ⟨front, rest, rfl, hrest⟩ := ih (List.cons.inj h).2
      exact ⟨c :: front, rest, rfl, hrest⟩

end Separators

section Gaps

inductive Spelled (gap : List α) : List α → List α → Prop
  | nil : Spelled gap [] []
  | gap {word text : List α} (h : Spelled gap word text) : Spelled gap word (gap ++ text)
  | char {word text : List α} (c : α) (h : Spelled gap word text) : Spelled gap (c :: word) (c :: text)

variable {gap word text rest : List α}

theorem Spelled.erase (h : Spelled gap word text) (hgap : gap ≠ [])
    (hword : ∀ c ∈ word, gap.head? ≠ some c) (rest : List α) :
    replace gap [] (text ++ rest) = word ++ replace gap [] rest := by
  induction h with
  | nil => rfl
  | gap h ih => rw [List.append_assoc, replace_pattern hgap, List.nil_append, ih hword]
  | @char word text c h ih =>
    have hstart : ¬gap <+: c :: (text ++ rest) := by
      intro hstarts
      cases gap with
      | nil => exact hgap rfl
      | cons g gap =>
        have hg : g = c := (List.cons_prefix_cons.mp hstarts).1
        exact hword c List.mem_cons_self (congrArg some hg)
    rw [List.cons_append, replace_cons hstart, ih fun c hc => hword c (List.mem_cons_of_mem _ hc)]
    rfl

theorem spelled_of_erase (hgap : gap ≠ []) {right : List α}
    (h : replace gap [] text = word ++ right) :
    ∃ front rest, text = front ++ rest ∧ Spelled gap word front ∧ replace gap [] rest = right := by
  induction text using reading hgap generalizing word with
  | nil =>
    obtain ⟨rfl, rfl⟩ := List.append_eq_nil_iff.mp h.symm
    exact ⟨[], [], rfl, .nil, rfl⟩
  | found text ih =>
    rw [replace_pattern hgap, List.nil_append] at h
    obtain ⟨front, rest, rfl, hfront, hrest⟩ := ih h
    exact ⟨gap ++ front, rest, by rw [List.append_assoc], hfront.gap, hrest⟩
  | cons c text hc ih =>
    cases word with
    | nil => exact ⟨[], c :: text, rfl, .nil, h⟩
    | cons d word =>
      rw [replace_cons hc] at h
      cases (List.cons.inj h).1
      obtain ⟨front, rest, rfl, hfront, hrest⟩ := ih (List.cons.inj h).2
      exact ⟨c :: front, rest, rfl, .char c hfront, hrest⟩

theorem spelled_of_erase_all (hgap : gap ≠ []) (h : replace gap [] text = word) :
    Spelled gap word text := by
  induction text using reading hgap generalizing word with
  | nil =>
    cases h
    exact .nil
  | found text ih =>
    rw [replace_pattern hgap, List.nil_append] at h
    exact (ih h).gap
  | cons c text hc ih =>
    rw [replace_cons hc] at h
    cases h
    exact .char c (ih rfl)

omit [DecidableEq α] in
theorem Spelled.first {c : α} (h : Spelled gap (c :: word) text) :
    ∃ front rest, text = front ++ c :: rest ∧ Spelled gap word rest := by
  generalize hfull : c :: word = full at h
  induction h with
  | nil => cases hfull
  | gap h ih =>
    obtain ⟨front, rest, rfl, hrest⟩ := ih hfull
    exact ⟨gap ++ front, rest, by rw [List.append_assoc], hrest⟩
  | char d h =>
    cases hfull
    exact ⟨[], _, rfl, h⟩

end Gaps

section Untouched

variable {pattern replacement : List α}

theorem replace_untouched (hpattern : pattern ≠ []) {word : List α}
    (hword : ∀ c ∈ word, pattern.head? ≠ some c) (rest : List α) :
    replace pattern replacement (word ++ rest) = word ++ replace pattern replacement rest := by
  induction word with
  | nil => rfl
  | cons c word ih =>
    have hstart : ¬pattern <+: c :: (word ++ rest) := by
      intro hstarts
      cases pattern with
      | nil => exact hpattern rfl
      | cons p pattern =>
        have hp : p = c := (List.cons_prefix_cons.mp hstarts).1
        exact hword c List.mem_cons_self (congrArg some hp)
    rw [List.cons_append, replace_cons hstart, ih fun c hc => hword c (List.mem_cons_of_mem _ hc)]
    rfl

def Clash (a b : List α) : Prop := ¬a <+: b ∧ ¬b <+: a

theorem replace_eq_word (hpattern : pattern ≠ []) {word text rest right : List α}
    (hword : ∀ tail, tail <:+ word → tail ≠ [] → Clash tail replacement)
    (hrest : ∀ c ∈ word, rest.head? ≠ some c)
    (h : replace pattern replacement text ++ rest = word ++ right) :
    ∃ back, text = word ++ back ∧ replace pattern replacement back ++ rest = right := by
  induction text using reading hpattern generalizing word with
  | nil =>
    cases word with
    | nil => exact ⟨[], rfl, h⟩
    | cons c word =>
      change rest = c :: (word ++ right) at h
      exact absurd (congrArg List.head? h) (hrest c List.mem_cons_self)
  | found text ih =>
    cases word with
    | nil => exact ⟨pattern ++ text, rfl, h⟩
    | cons c word =>
      rw [replace_pattern hpattern, List.append_assoc] at h
      obtain ⟨hshort, hlong⟩ := hword (c :: word) (List.suffix_refl _) (List.cons_ne_nil _ _)
      cases List.prefix_or_prefix_of_prefix (List.prefix_append (c :: word) right)
          (h ▸ List.prefix_append replacement _) with
      | inl hstarts => exact absurd hstarts hshort
      | inr hstarts => exact absurd hstarts hlong
  | cons c text hc ih =>
    cases word with
    | nil => exact ⟨c :: text, rfl, h⟩
    | cons d word =>
      rw [replace_cons hc] at h
      cases (List.cons.inj h).1
      have hthen : ∀ tail, tail <:+ word → tail ≠ [] → Clash tail replacement :=
        fun tail htail => hword tail (htail.trans (List.suffix_cons _ _))
      obtain ⟨back, rfl, hback⟩ :=
        ih hthen (fun e he => hrest e (List.mem_cons_of_mem _ he)) (List.cons.inj h).2
      exact ⟨back, rfl, hback⟩

end Untouched

end Fumiko.Foundation.Replacement
