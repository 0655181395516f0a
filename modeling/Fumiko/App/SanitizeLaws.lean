import Fumiko.App.Sanitize

namespace Fumiko.App

open Fumiko.Foundation.Replacement

def tagNameEnds : List Char := ['\t', '\n', '\x0C', '\r', ' ', '/', '>']

/-- `</style` in any ASCII case. -/
def IsStyleEnd (name : List Char) : Prop := name.map Char.toLower = "</style".toList

def EndsStyle (text : List Char) : Prop :=
  ∃ front name c rest, text = front ++ (name ++ c :: rest) ∧ IsStyleEnd name ∧ c ∈ tagNameEnds

/-- What makes an end tag of `</style` once the import rules are commented out: the character
that ends the name, an import rule, or the end of the block. -/
def Stops (stop rest : List Char) : Prop :=
  stop = importRule ∨ (∃ c ∈ tagNameEnds, stop = [c]) ∨ (stop = [] ∧ rest = [])

/-- Reading over any `javascript:`, the block has a `</style` that becomes an end tag. -/
def Escapes (css : List Char) : Prop :=
  ∃ front text rest name stop, css = front ++ (text ++ rest) ∧
    Spelled scriptScheme (name ++ stop) text ∧ IsStyleEnd name ∧ Stops stop rest

section Names

variable {name tail : List Char} {c : Char}

theorem eq_of_toLower (h : c.toLower = '<') : c = '<' := by
  unfold Char.toLower at h
  split at h
  · next hupper =>
    have hval : (c.val + 32).toNat = 60 := congrArg (fun d : Char => d.val.toNat) h
    have hle : 65 ≤ c.val.toNat ∧ c.val.toNat ≤ 90 := hupper
    have h32 : (32 : UInt32).toNat = 32 := rfl
    rw [UInt32.toNat_add] at hval
    omega
  · exact h

theorem IsStyleEnd.eq_cons (h : IsStyleEnd name) :
    ∃ tail, name = '<' :: tail ∧ tail.map Char.toLower = "/style".toList := by
  cases name with
  | nil => cases h
  | cons c tail =>
    have hcons : c.toLower :: tail.map Char.toLower = '<' :: "/style".toList := h
    exact ⟨tail, congrArg (· :: tail) (eq_of_toLower (List.cons.inj hcons).1), (List.cons.inj hcons).2⟩

theorem not_mem_of_lower (h : tail.map Char.toLower = "/style".toList)
    (hc : c.toLower ∉ "/style".toList) : c ∉ tail :=
  fun hmem => hc (h ▸ List.mem_map_of_mem hmem)

theorem clash_importBlocked (h : tail.map Char.toLower = "/style".toList) :
    ∀ part, part <:+ tail → part ≠ [] → Clash part importBlocked := by
  intro part hpart hne
  have hclosed : ∀ lower ∈ "/style".toList.tails, lower ≠ [] →
      Clash lower (importBlocked.map Char.toLower) := by
    simp only [Clash]
    decide
  have hlower : part.map Char.toLower ∈ "/style".toList.tails := by
    rw [List.mem_tails, ← h]
    exact hpart.map _
  obtain ⟨hshort, hlong⟩ := hclosed _ hlower (by simpa using hne)
  exact ⟨fun hstarts => hshort (hstarts.map _), fun hstarts => hlong (hstarts.map _)⟩

end Names

section Blocks

variable {a b : List Char}

theorem endsStyle_append : EndsStyle (a ++ '\n' :: b) ↔ EndsStyle (a ++ ['\n']) ∨ EndsStyle b := by
  constructor
  · rintro ⟨front, name, c, rest, h, hname, hc⟩
    have hbreak : '\n' ∉ name := by
      intro hmem
      have hlower : '\n'.toLower ∈ "</style".toList := hname ▸ List.mem_map_of_mem hmem
      revert hlower
      decide
    rcases List.append_eq_append_iff.mp h with ⟨middle, rfl, hmiddle⟩ | ⟨middle, rfl, hmiddle⟩
    · cases middle with
      | nil =>
        cases name with
        | nil => cases hname
        | cons n name =>
          cases (List.cons.inj hmiddle).1
          exact absurd List.mem_cons_self hbreak
      | cons d middle =>
        exact Or.inr ⟨middle, name, c, rest, (List.cons.inj hmiddle).2, hname, hc⟩
    · rcases List.append_eq_append_iff.mp hmiddle with ⟨more, rfl, hmore⟩ | ⟨more, rfl, hmore⟩
      · cases more with
        | nil =>
          cases hmore
          exact Or.inl ⟨front, name, '\n', [], by simp, hname, hc⟩
        | cons d more =>
          cases (List.cons.inj hmore).1
          exact Or.inl ⟨front, name, c, more ++ ['\n'], by simp, hname, hc⟩
      · cases more with
        | nil =>
          cases hmore
          exact Or.inl ⟨front, middle, '\n', [], by simp, by simpa using hname, hc⟩
        | cons d more =>
          cases (List.cons.inj hmore).1
          exact absurd (by simp) hbreak
  · rintro (⟨front, name, c, rest, h, hname, hc⟩ | ⟨front, name, c, rest, rfl, hname, hc⟩)
    · refine ⟨front, name, c, rest ++ b, ?_, hname, hc⟩
      rw [List.append_cons, h]
      simp
    · exact ⟨a ++ '\n' :: front, name, c, rest, by simp, hname, hc⟩

theorem not_endsStyle_nil : ¬EndsStyle [] := by
  rintro ⟨front, name, c, rest, h, -, -⟩
  simp at h

theorem endsStyle_flatMap {f : List Char → List Char} {blocks : List (List Char)} :
    EndsStyle (blocks.flatMap fun css => f css ++ ['\n']) ↔
      ∃ css ∈ blocks, EndsStyle (f css ++ ['\n']) := by
  induction blocks with
  | nil => simp [not_endsStyle_nil]
  | cons css blocks ih =>
    rw [List.flatMap_cons, List.append_assoc, List.singleton_append, endsStyle_append, ih]
    simp

end Blocks

section Css

variable {text css : List Char}

def HoldsStyleEnd (text : List Char) : Prop :=
  ∃ front name stop rest, text = front ++ (name ++ (stop ++ rest)) ∧ IsStyleEnd name ∧ Stops stop rest

theorem endsStyle_replace_import :
    EndsStyle (replace importRule importBlocked text ++ ['\n']) ↔ HoldsStyleEnd text := by
  have hrule : importRule ≠ [] := by decide
  constructor
  · rintro ⟨front, name, c, rest, h, hname, hc⟩
    obtain ⟨tail, rfl, htail⟩ := hname.eq_cons
    have hbreak : ∀ d ∈ tail, ['\n'].head? ≠ some d := by
      intro d hd heq
      cases heq
      exact not_mem_of_lower htail (by decide) hd
    obtain ⟨right, hleft, hright⟩ : ∃ right, replace importRule importBlocked text = front ++ '<' :: right ∧
        right ++ ['\n'] = tail ++ c :: rest := by
      rcases List.append_eq_append_iff.mp h with ⟨middle, -, hmiddle⟩ | ⟨middle, hmiddle, hrest⟩
      · cases middle with
        | nil => cases hmiddle
        | cons d middle => simp at hmiddle
      · cases middle with
        | nil => cases hrest
        | cons d middle =>
          cases (List.cons.inj hrest).1
          exact ⟨middle, hmiddle, (List.cons.inj hrest).2.symm⟩
    obtain ⟨before, after, rfl, rfl⟩ := replace_eq_separator hrule (by decide) hleft
    obtain ⟨back, rfl, hback⟩ := replace_eq_word hrule (clash_importBlocked htail) hbreak hright
    by_cases hstarts : importRule <+: back
    · obtain ⟨last, rfl⟩ := hstarts
      exact ⟨before, '<' :: tail, importRule, last, rfl, hname, Or.inl rfl⟩
    · cases back with
      | nil => exact ⟨before, '<' :: tail, [], [], rfl, hname, Or.inr (Or.inr ⟨rfl, rfl⟩)⟩
      | cons d back =>
        rw [replace_cons hstarts] at hback
        cases (List.cons.inj hback).1
        exact ⟨before, '<' :: tail, [c], back, rfl, hname, Or.inr (Or.inl ⟨c, hc, rfl⟩)⟩
  · rintro ⟨front, name, stop, rest, rfl, hname, hstop⟩
    obtain ⟨tail, rfl, htail⟩ := hname.eq_cons
    have huntouched : ∀ d ∈ tail, importRule.head? ≠ some d := by
      intro d hd heq
      cases heq
      exact not_mem_of_lower htail (by decide) hd
    have hfinal (c : Char) (last : List Char) (hc : c ∈ tagNameEnds)
        (h : replace importRule importBlocked (stop ++ rest) ++ ['\n'] = c :: last) :
        EndsStyle (replace importRule importBlocked (front ++ ('<' :: tail ++ (stop ++ rest))) ++ ['\n']) := by
      rw [List.cons_append, replace_separator hrule (by decide), replace_untouched hrule huntouched]
      refine ⟨replace importRule importBlocked front, '<' :: tail, c, last, ?_, hname, hc⟩
      rw [← h]
      simp
    rcases hstop with rfl | ⟨c, hc, rfl⟩ | ⟨rfl, rfl⟩
    · apply hfinal '/' _ (by decide)
      rw [replace_pattern hrule]
      rfl
    · have hstart : ¬importRule <+: c :: rest := by
        intro hstarts
        cases (List.cons_prefix_cons.mp hstarts).1
        revert hc
        decide
      apply hfinal c (replace importRule importBlocked rest ++ ['\n']) hc
      rw [List.singleton_append, replace_cons hstart, List.cons_append]
    · exact hfinal '\n' [] (by decide) rfl

theorem holdsStyleEnd_erase : HoldsStyleEnd (replace scriptScheme [] css) ↔ Escapes css := by
  have hscheme : scriptScheme ≠ [] := by decide
  constructor
  · rintro ⟨front, name, stop, rest, h, hname, hstop⟩
    obtain ⟨tail, rfl, htail⟩ := hname.eq_cons
    obtain ⟨before, after, rfl, hafter⟩ := replace_eq_separator hscheme List.not_mem_nil h
    have hword : replace scriptScheme [] after = (tail ++ stop) ++ rest :=
      hafter.trans (List.append_assoc _ _ _).symm
    rcases hstop with hstop | hstop | ⟨rfl, rfl⟩
    · obtain ⟨spelled, last, rfl, hspelled, -⟩ := spelled_of_erase hscheme hword
      exact ⟨before, '<' :: spelled, last, '<' :: tail, stop, rfl, .char '<' hspelled, hname, Or.inl hstop⟩
    · obtain ⟨spelled, last, rfl, hspelled, -⟩ := spelled_of_erase hscheme hword
      exact ⟨before, '<' :: spelled, last, '<' :: tail, stop, rfl, .char '<' hspelled, hname,
        Or.inr (Or.inl hstop)⟩
    · have hspelled : Spelled scriptScheme ('<' :: tail ++ []) ('<' :: after) :=
        .char '<' (spelled_of_erase_all hscheme hafter)
      exact ⟨before, '<' :: after, [], '<' :: tail, [], by simp, hspelled, hname,
        Or.inr (Or.inr ⟨rfl, rfl⟩)⟩
  · rintro ⟨front, text, rest, name, stop, rfl, hspelled, hname, hstop⟩
    obtain ⟨tail, rfl, htail⟩ := hname.eq_cons
    obtain ⟨gaps, spelled, rfl, hrest⟩ := hspelled.first
    have hletters : ∀ d ∈ tail ++ stop, scriptScheme.head? ≠ some d := by
      intro d hd heq
      cases heq
      rcases List.mem_append.mp hd with hd | hd
      · exact not_mem_of_lower htail (by decide) hd
      · rcases hstop with rfl | ⟨c, hc, rfl⟩ | ⟨rfl, -⟩
        · revert hd
          decide
        · cases List.mem_singleton.mp hd
          revert hc
          decide
        · cases hd
    refine ⟨replace scriptScheme [] (front ++ gaps), '<' :: tail, stop, replace scriptScheme [] rest, ?_,
      hname, ?_⟩
    · have hcss : front ++ (gaps ++ '<' :: spelled ++ rest) = front ++ gaps ++ '<' :: (spelled ++ rest) := by
        simp
      rw [hcss, replace_separator hscheme (by decide), hrest.erase hscheme hletters]
      simp
    · rcases hstop with hstop | hstop | ⟨rfl, rfl⟩
      · exact Or.inl hstop
      · exact Or.inr (Or.inl hstop)
      · exact Or.inr (Or.inr ⟨rfl, rfl⟩)

end Css

/-- The styles stay within their element exactly when no style block of the email escapes. -/
theorem extractedStyles_contained_iff (isWord : Char → Bool) (raw : String) :
    ¬EndsStyle (extractedStyles isWord raw) ↔ ∀ css ∈ styleBlocks isWord raw, ¬Escapes css := by
  rw [extractedStyles, endsStyle_flatMap]
  simp only [cleanCss, endsStyle_replace_import, holdsStyleEnd_erase, not_exists, not_and]

section Example

def asciiWord (c : Char) : Bool := c.isAlphanum || c = '_'

theorem extractedStyles_escape :
    ¬∀ raw : String, ¬EndsStyle (extractedStyles asciiWord raw) := by
  intro h
  apply h "<style></style ><img src=x></style>"
  exact ⟨[], "</style".toList, ' ', "><img src=x>\n".toList, by decide, rfl, by decide⟩

end Example

end Fumiko.App
