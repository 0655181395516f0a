import Fumiko.App.SanitizeLaws
import Fumiko.Foundation.Text

namespace Fumiko.App

open Fumiko.Foundation Fumiko.Foundation.Replacement

section Comments

/-- Where a reader of CSS stands: in the code or right after a slash in it, in a comment or right
after a star in it.  Quotes do not hide a comment from this reader. -/
inductive CssState
  | code | slash | comment | star
  deriving DecidableEq

def CssState.next : CssState → Char → CssState
  | .code, c => if c = '/' then .slash else .code
  | .slash, c => if c = '*' then .comment else if c = '/' then .slash else .code
  | .comment, c => if c = '*' then .star else .comment
  | .star, c => if c = '/' then .code else if c = '*' then .star else .comment

def CssState.Outside (s : CssState) : Prop := s = .code ∨ s = .slash

def Shown (word : List Char) (s : CssState) (text : List Char) : Prop :=
  ∃ front occurrence rest, text = front ++ (occurrence ++ rest) ∧
    occurrence.map Char.toLower = word ∧ (front.foldl CssState.next s).Outside

def CssState.afterImport (s : CssState) : CssState := importBlocked.foldl CssState.next s

/-- The text has, outside its comments, `javascript:` in some case or an import rule that is not
in lower case, where an import rule in lower case ends the comment it stands in; or such a rule
right after a star in a comment. -/
inductive Leaks : CssState → List Char → Prop
  | script {s occurrence rest} (hs : s.Outside) (h : occurrence.map Char.toLower = scriptScheme) :
    Leaks s (occurrence ++ rest)
  | variant {s occurrence rest} (hs : s.Outside) (h : occurrence.map Char.toLower = importRule)
    (hcase : occurrence ≠ importRule) : Leaks s (occurrence ++ rest)
  | uncovered {rest} : Leaks .star (importRule ++ rest)
  | blocked {s rest} (h : Leaks s.afterImport rest) : Leaks s (importRule ++ rest)
  | char {s c rest} (hc : ¬importRule <+: c :: rest) (h : Leaks (s.next c) rest) : Leaks s (c :: rest)

end Comments

section Shown

variable {word text : List Char} {s : CssState} {c : Char}

theorem shown_cons : Shown word s (c :: text) ↔
    (s.Outside ∧ ∃ occurrence, occurrence.map Char.toLower = word ∧ occurrence <+: c :: text) ∨
      Shown word (s.next c) text := by
  constructor
  · rintro ⟨front, occurrence, rest, h, hlower, houtside⟩
    cases front with
    | nil => exact Or.inl ⟨houtside, occurrence, hlower, rest, h.symm⟩
    | cons d front =>
      cases (List.cons.inj h).1
      exact Or.inr ⟨front, occurrence, rest, (List.cons.inj h).2, hlower, houtside⟩
  · rintro (⟨houtside, occurrence, hlower, rest, h⟩ | ⟨front, occurrence, rest, rfl, hlower, houtside⟩)
    · exact ⟨[], occurrence, rest, h.symm, hlower, houtside⟩
    · exact ⟨c :: front, occurrence, rest, rfl, hlower, houtside⟩

theorem not_shown_nil (hword : word ≠ []) : ¬Shown word s [] := by
  rintro ⟨front, occurrence, rest, h, hlower, -⟩
  have hnone : occurrence = [] := by
    simp only [List.nil_eq, List.append_eq_nil_iff] at h
    exact h.2.1
  rw [hnone] at hlower
  exact hword hlower.symm

theorem shown_append (front : List Char) {w : Char}
    (hfront : ∀ d ∈ front, d.toLower ≠ w) :
    Shown (w :: word) s (front ++ text) ↔ Shown (w :: word) (front.foldl CssState.next s) text := by
  induction front generalizing s with
  | nil => exact Iff.rfl
  | cons d front ih =>
    rw [List.cons_append, shown_cons, ih fun e he => hfront e (List.mem_cons_of_mem d he)]
    refine or_iff_right ?_
    rintro ⟨-, occurrence, hlower, hstarts⟩
    cases occurrence with
    | nil => cases hlower
    | cons e occurrence =>
      have he : e = d := (List.cons_prefix_cons.mp hstarts).1
      exact hfront d List.mem_cons_self (he ▸ (List.cons.inj hlower).1)

theorem shown_script_importBlocked :
    Shown scriptScheme s (importBlocked ++ text) ↔ Shown scriptScheme s.afterImport text :=
  shown_append importBlocked (forall_mem_of_all (by decide))

theorem shown_import_importBlocked :
    Shown importRule s (importBlocked ++ text) ↔ s = .star ∨ Shown importRule s.afterImport text := by
  let opening : List Char := "/* ".toList
  let closing : List Char := "import blocked */".toList
  have hstate : (opening.foldl CssState.next s).Outside ↔ s = .star := by
    cases s <;> simp [opening, CssState.next, CssState.Outside]
  have hrule : ∃ occurrence : List Char, occurrence.map Char.toLower = importRule ∧
      occurrence <+: '@' :: (closing ++ text) := ⟨importRule, by decide, " blocked */".toList ++ text, rfl⟩
  calc
    Shown importRule s (importBlocked ++ text) ↔
        Shown importRule (opening.foldl CssState.next s) ('@' :: (closing ++ text)) :=
      shown_append opening (forall_mem_of_all (by decide))
    _ ↔ (opening.foldl CssState.next s).Outside ∨
        Shown importRule ((opening.foldl CssState.next s).next '@') (closing ++ text) := by
      rw [shown_cons, and_iff_left hrule]
    _ ↔ s = .star ∨ Shown importRule s.afterImport text := by
      rw [hstate]
      exact or_congr_right (shown_append closing (forall_mem_of_all (by decide)))

end Shown

section Reading

variable {text : List Char} {s : CssState} {c : Char}

theorem clash_of_letter {tail : List Char} (h : ∀ d ∈ tail, d ≠ '/') :
    ∀ part, part <:+ tail → part ≠ [] → Clash part importBlocked := by
  intro part hpart hne
  cases part with
  | nil => exact absurd rfl hne
  | cons d part =>
    have hd : d ≠ '/' := h d (hpart.subset List.mem_cons_self)
    constructor
    · intro hstarts
      exact hd (List.cons_prefix_cons.mp hstarts).1
    · intro hstarts
      exact hd (List.cons_prefix_cons.mp (show '/' :: "* @import blocked */".toList <+: d :: part from hstarts)).1.symm

theorem starts_replace_iff (d : Char) {tail : List Char} (htail : ∀ e ∈ tail, e ≠ '/' ∧ e ≠ '@') :
    d :: tail <+: c :: replace importRule importBlocked text ↔ d :: tail <+: c :: text := by
  have hrule : importRule ≠ [] := by decide
  rw [List.cons_prefix_cons, List.cons_prefix_cons]
  refine and_congr_right fun _ => ?_
  constructor
  · rintro ⟨rest, hrest⟩
    have hend : ∀ e ∈ tail, ([] : List Char).head? ≠ some e := fun e _ => by simp
    obtain ⟨back, rfl, -⟩ := replace_eq_word hrule (clash_of_letter fun e he => (htail e he).1) hend
      ((List.append_nil _).trans hrest.symm)
    exact List.prefix_append _ _
  · rintro ⟨back, rfl⟩
    rw [replace_untouched hrule]
    · exact List.prefix_append _ _
    · intro e he hhead
      exact (htail e he).2 (Option.some.inj hhead).symm

theorem letters_of_lower {word occurrence : List Char} (hword : word = scriptScheme ∨ word = importRule)
    (h : occurrence.map Char.toLower = word) :
    ∃ d tail, occurrence = d :: tail ∧ ∀ e ∈ tail, e ≠ '/' ∧ e ≠ '@' := by
  cases occurrence with
  | nil => rcases hword with rfl | rfl <;> cases h
  | cons d tail =>
    refine ⟨d, tail, rfl, ?_⟩
    intro e he
    have hlower : e.toLower ∈ word.tail := by
      rw [← h]
      exact List.mem_map_of_mem he
    constructor
    · rintro rfl
      rcases hword with rfl | rfl <;> revert hlower <;> decide
    · rintro rfl
      rcases hword with rfl | rfl <;> revert hlower <;> decide

theorem occurs_replace_iff {word : List Char} (hword : word = scriptScheme ∨ word = importRule) :
    (∃ occurrence, occurrence.map Char.toLower = word ∧
        occurrence <+: c :: replace importRule importBlocked text) ↔
      ∃ occurrence, occurrence.map Char.toLower = word ∧ occurrence <+: c :: text := by
  constructor
  · rintro ⟨occurrence, hlower, hstarts⟩
    obtain ⟨d, tail, rfl, htail⟩ := letters_of_lower hword hlower
    exact ⟨d :: tail, hlower, (starts_replace_iff d htail).mp hstarts⟩
  · rintro ⟨occurrence, hlower, hstarts⟩
    obtain ⟨d, tail, rfl, htail⟩ := letters_of_lower hword hlower
    exact ⟨d :: tail, hlower, (starts_replace_iff d htail).mpr hstarts⟩

theorem not_leaks_nil : ¬Leaks s [] := by
  intro h
  generalize hnil : [] = text at h
  cases h with
  | script _ hlower =>
    rw [(List.append_eq_nil_iff.mp hnil.symm).1] at hlower
    cases hlower
  | variant _ hlower =>
    rw [(List.append_eq_nil_iff.mp hnil.symm).1] at hlower
    cases hlower
  | uncovered => cases hnil
  | blocked => cases hnil
  | char => cases hnil

theorem leaks_import : Leaks s (importRule ++ text) ↔ s = .star ∨ Leaks s.afterImport text := by
  constructor
  · intro h
    generalize hfull : importRule ++ text = full at h
    cases h with
    | script _ hlower =>
      obtain ⟨d, tail, rfl, -⟩ := letters_of_lower (Or.inl rfl) hlower
      rw [← (List.cons.inj hfull).1] at hlower
      cases (List.cons.inj hlower).1
    | variant _ hlower hcase =>
      have hlength := congrArg List.length hlower
      rw [List.length_map] at hlength
      exact absurd (List.append_inj hfull hlength.symm).1.symm hcase
    | uncovered => exact Or.inl rfl
    | blocked hrest =>
      rw [List.append_cancel_left hfull]
      exact Or.inr hrest
    | char hc =>
      rw [← hfull] at hc
      exact absurd (List.prefix_append _ _) hc
  · rintro (rfl | h)
    · exact .uncovered
    · exact .blocked h

theorem leaks_cons (hc : ¬importRule <+: c :: text) : Leaks s (c :: text) ↔
    (s.Outside ∧ ∃ occurrence, occurrence.map Char.toLower = scriptScheme ∧ occurrence <+: c :: text) ∨
      (s.Outside ∧ ∃ occurrence, occurrence.map Char.toLower = importRule ∧ occurrence <+: c :: text) ∨
        Leaks (s.next c) text := by
  constructor
  · intro h
    generalize hfull : c :: text = full at h
    cases h with
    | script hs hlower => exact Or.inl ⟨hs, _, hlower, List.prefix_append _ _⟩
    | variant hs hlower => exact Or.inr (Or.inl ⟨hs, _, hlower, List.prefix_append _ _⟩)
    | uncovered => exact absurd (hfull ▸ List.prefix_append _ _) hc
    | blocked => exact absurd (hfull ▸ List.prefix_append _ _) hc
    | char _ hrest =>
      cases hfull
      exact Or.inr (Or.inr hrest)
  · rintro (⟨hs, occurrence, hlower, rest, hrest⟩ | ⟨hs, occurrence, hlower, rest, hrest⟩ | h)
    · exact hrest ▸ .script hs hlower
    · refine hrest ▸ .variant hs hlower ?_
      rintro rfl
      exact hc ⟨rest, hrest⟩
    · exact .char hc h

theorem shown_replace_iff_leaks : Shown scriptScheme s (replace importRule importBlocked text) ∨
    Shown importRule s (replace importRule importBlocked text) ↔ Leaks s text := by
  have hrule : importRule ≠ [] := by decide
  induction text using reading hrule generalizing s with
  | nil =>
    exact iff_of_false (not_or.mpr ⟨not_shown_nil (by decide), not_shown_nil (by decide)⟩) not_leaks_nil
  | found text ih =>
    rw [replace_pattern hrule, shown_script_importBlocked, shown_import_importBlocked, leaks_import]
    exact or_left_comm.trans (or_congr_right ih)
  | cons c text hc ih =>
    rw [replace_cons hc, shown_cons, shown_cons, occurs_replace_iff (Or.inl rfl),
      occurs_replace_iff (Or.inr rfl), leaks_cons hc]
    exact (or_or_or_comm.trans or_assoc).trans (or_congr_right (or_congr_right ih))

end Reading

section Cleansing

variable {text css : List Char} {c : Char}

theorem not_starts_replace (hc : ¬importRule <+: c :: text) :
    ¬importRule <+: c :: replace importRule importBlocked text := by
  intro hstarts
  have hrest : ∀ e ∈ "import".toList, e ≠ '/' ∧ e ≠ '@' := forall_mem_of_all (by decide)
  exact hc ((starts_replace_iff '@' hrest).mp hstarts)

theorem replace_importBlocked (rest : List Char) : replace importRule importBlocked (importBlocked ++ rest) =
    cleanCss importBlocked ++ replace importRule importBlocked rest := by
  have hrule : importRule ≠ [] := by decide
  calc
    replace importRule importBlocked (importBlocked ++ rest) =
        replace importRule importBlocked ("/* ".toList ++ (importRule ++ (" blocked */".toList ++ rest))) := rfl
    _ = "/* ".toList ++ (importBlocked ++ (" blocked */".toList ++ replace importRule importBlocked rest)) := by
      rw [replace_untouched hrule (forall_mem_of_all (by decide)), replace_pattern hrule,
        replace_untouched hrule (forall_mem_of_all (by decide))]
    _ = cleanCss importBlocked ++ replace importRule importBlocked rest := rfl

theorem replace_replace (text : List Char) :
    replace importRule importBlocked (replace importRule importBlocked text) =
      replace importRule (cleanCss importBlocked) text := by
  have hrule : importRule ≠ [] := by decide
  induction text using reading hrule with
  | nil => rfl
  | found text ih => rw [replace_pattern hrule, replace_pattern hrule, replace_importBlocked, ih]
  | cons c text hc ih => rw [replace_cons hc, replace_cons hc, replace_cons (not_starts_replace hc), ih]

theorem replace_back (text : List Char) :
    replace importBlocked importRule (replace importRule importBlocked text) = text := by
  have hrule : importRule ≠ [] := by decide
  have hblocked : importBlocked ≠ [] := by decide
  induction text using reading hrule with
  | nil => rfl
  | found text ih => rw [replace_pattern hrule, replace_pattern hblocked, ih]
  | cons c text hc ih =>
    have hstart : ¬importBlocked <+: c :: replace importRule importBlocked text := by
      rintro ⟨rest, hrest⟩
      have hcomment : replace importRule importBlocked text ++ [] =
          "* @import".toList ++ (" blocked */".toList ++ rest) :=
        (List.append_nil _).trans (List.cons.inj hrest).2.symm
      have hletters : ∀ d ∈ "* @import".toList, d ≠ '/' := forall_mem_of_all (by decide)
      obtain ⟨back, rfl, -⟩ := replace_eq_word hrule (clash_of_letter hletters) (by simp) hcomment
      have hagain : replace importRule importBlocked ("* @import".toList ++ back) =
          "* ".toList ++ (importBlocked ++ replace importRule importBlocked back) := by
        change replace importRule importBlocked ("* ".toList ++ (importRule ++ back)) = _
        rw [replace_untouched hrule (forall_mem_of_all (by decide)), replace_pattern hrule]
      rw [List.append_nil, hagain] at hcomment
      cases (List.cons.inj (List.cons.inj (List.cons.inj hcomment).2).2).1
    rw [replace_cons hc, replace_cons hstart, ih]

theorem replace_import_injective : Function.Injective (replace importRule importBlocked) :=
  Function.LeftInverse.injective replace_back

theorem infix_append_iff {w : Char} {word front : List Char} (hw : w ∉ front) :
    w :: word <:+: front ++ text ↔ w :: word <:+: text := by
  induction front with
  | nil => exact Iff.rfl
  | cons d front ih =>
    rw [List.mem_cons, not_or] at hw
    rw [List.cons_append, List.infix_cons_iff, ih hw.2]
    refine or_iff_right fun hstarts => hw.1 ?_
    exact (List.cons_prefix_cons.mp hstarts).1

theorem script_infix_replace_iff :
    scriptScheme <:+: replace importRule importBlocked text ↔ scriptScheme <:+: text := by
  have hrule : importRule ≠ [] := by decide
  induction text using reading hrule with
  | nil => exact Iff.rfl
  | found text ih =>
    rw [replace_pattern hrule]
    calc
      scriptScheme <:+: importBlocked ++ replace importRule importBlocked text ↔
          scriptScheme <:+: replace importRule importBlocked text := infix_append_iff (by decide)
      _ ↔ scriptScheme <:+: text := ih
      _ ↔ scriptScheme <:+: importRule ++ text := (infix_append_iff (by decide)).symm
  | cons c text hc ih =>
    have htail : ∀ e ∈ "avascript:".toList, e ≠ '/' ∧ e ≠ '@' :=
      forall_mem_of_all (by decide)
    rw [replace_cons hc, List.infix_cons_iff, List.infix_cons_iff]
    exact or_congr (starts_replace_iff 'j' htail) ih

def Stable (css : List Char) : Prop :=
  cleanCss (cleanCss css) = replace importRule (cleanCss importBlocked) (replace scriptScheme [] css)

theorem stable_iff : Stable css ↔ ¬scriptScheme <:+: replace scriptScheme [] css := by
  have hscheme : scriptScheme ≠ [] := by decide
  calc
    Stable css ↔ replace importRule importBlocked (replace scriptScheme [] (cleanCss css)) =
        replace importRule importBlocked (cleanCss css) := by
      rw [Stable, cleanCss, cleanCss, replace_replace]
    _ ↔ replace scriptScheme [] (cleanCss css) = cleanCss css := replace_import_injective.eq_iff
    _ ↔ ¬scriptScheme <:+: replace scriptScheme [] css := by
      rw [erase_eq_self_iff hscheme, cleanCss, script_infix_replace_iff]

end Cleansing

section Styles

variable {isWord : Char → Bool} {raw : String}

/-- The styles of the email without the `javascript:` that is deleted from them. -/
def scriptless (isWord : Char → Bool) (raw : String) : List Char :=
  (styleBlocks isWord raw).flatMap fun css => replace scriptScheme [] css ++ ['\n']

theorem extractedStyles_eq :
    extractedStyles isWord raw = replace importRule importBlocked (scriptless isWord raw) := by
  rw [extractedStyles, scriptless]
  induction styleBlocks isWord raw with
  | nil => rfl
  | cons css blocks ih =>
    rw [List.flatMap_cons, List.flatMap_cons, ih, List.append_assoc, List.singleton_append,
      List.append_assoc, List.singleton_append, replace_separator (by decide) (by decide), cleanCss]

end Styles

section Example

end Example

end Fumiko.App
