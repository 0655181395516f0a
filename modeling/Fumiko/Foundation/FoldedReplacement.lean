import Fumiko.Foundation.Text

namespace Fumiko.Foundation.FoldedReplacement

/-- Simple case folding, as the Unicode tables have it.  Blanks and the ASCII characters that are
not letters are folded to by nothing else. -/
structure CaseFolding where
  fold : Char → Char
  lower : ∀ c, c.toNat < 128 → fold c = c.toLower
  uncased : ∀ c d, isWhitespace d ∨ (d.toNat < 128 ∧ ¬d.isAlpha) → fold c = fold d → c = d

section Ascii

variable {c d : Char}

theorem isUpper_iff : c.isUpper ↔ 65 ≤ c.toNat ∧ c.toNat ≤ 90 := by
  change decide (c.val ≥ 'A'.val ∧ c.val ≤ 'Z'.val) = true ↔ _
  rw [decide_eq_true_eq, ge_iff_le, UInt32.le_iff_toNat_le, UInt32.le_iff_toNat_le]
  rfl

theorem isLower_iff : c.isLower ↔ 97 ≤ c.toNat ∧ c.toNat ≤ 122 := by
  change (decide (c.val ≥ 'a'.val) && decide (c.val ≤ 'z'.val)) = true ↔ _
  rw [Bool.and_eq_true, decide_eq_true_eq, decide_eq_true_eq, ge_iff_le, UInt32.le_iff_toNat_le,
    UInt32.le_iff_toNat_le]
  rfl

theorem isAlpha_iff : c.isAlpha ↔ (65 ≤ c.toNat ∧ c.toNat ≤ 90) ∨ (97 ≤ c.toNat ∧ c.toNat ≤ 122) := by
  change (c.isUpper || c.isLower) = true ↔ _
  rw [Bool.or_eq_true, isUpper_iff, isLower_iff]

theorem toNat_toLower :
    c.toLower.toNat = if 65 ≤ c.toNat ∧ c.toNat ≤ 90 then c.toNat + 32 else c.toNat := by
  have hupper : (c.val ≥ 'A'.val ∧ c.val ≤ 'Z'.val) ↔ 65 ≤ c.toNat ∧ c.toNat ≤ 90 :=
    decide_eq_true_iff.symm.trans isUpper_iff
  by_cases h : c.val ≥ 'A'.val ∧ c.val ≤ 'Z'.val
  · have hlower : c.toLower.val = c.val + ('a'.val - 'A'.val) := congrArg Char.val (dif_pos h)
    have hbounds := hupper.mp h
    rw [if_pos hbounds, ← Char.toNat_val, hlower, UInt32.toNat_add, Char.toNat_val]
    change (c.toNat + 32) % 2 ^ 32 = c.toNat + 32
    omega
  · have hlower : c.toLower = c := dif_neg h
    rw [if_neg (hupper.not.mp h), hlower]

theorem not_isAlpha_of_isWhitespace (h : isWhitespace c) : ¬c.isAlpha := by
  rw [isAlpha_iff]
  simp only [isWhitespace, decide_eq_true_eq] at h
  omega

def asciiFolding : CaseFolding where
  fold := Char.toLower
  lower _ _ := rfl
  uncased c d hd h := by
    have hletter : ¬d.isAlpha := hd.elim not_isAlpha_of_isWhitespace And.right
    have heq : c.toLower.toNat = d.toLower.toNat := congrArg Char.toNat h
    rw [isAlpha_iff] at hletter
    rw [toNat_toLower, toNat_toLower] at heq
    have hnat : c.toNat = d.toNat := by
      split at heq <;> split at heq <;> omega
    exact Char.toNat_inj.mp hnat

end Ascii

section Expansion

def isCaptureLetter (c : Char) : Bool := c.isAlphanum || c = '_'

/-- The name that a dollar sign refers to, and how many characters the reference has after it. -/
def captureRef : List Char → Option (List Char × Nat)
  | '{' :: rest =>
    let name := rest.takeWhile (· ≠ '\x7d')
    if name.length < rest.length then some (name, name.length + 2) else none
  | rest =>
    let name := rest.takeWhile isCaptureLetter
    if name.isEmpty then none else some (name, name.length)

def capture (matched name : List Char) : List Char :=
  if Decimal.parseUnsigned (2 ^ 64) (String.ofList name) = some 0 then matched else []

/-- `Captures::expand`: `skip` characters belong to a reference that has been expanded. -/
def expandFrom (matched : List Char) : (skip : Nat) → List Char → List Char
  | _, [] => []
  | skip + 1, _ :: template => expandFrom matched skip template
  | 0, c :: template =>
    if c = '$' then
      if template.head? = some '$' then '$' :: expandFrom matched 1 template
      else match captureRef template with
        | some (name, length) => capture matched name ++ expandFrom matched length template
        | none => '$' :: expandFrom matched 0 template
    else c :: expandFrom matched 0 template

def expand (matched template : List Char) : List Char := expandFrom matched 0 template

end Expansion

section Replacing

variable (folding : CaseFolding)

def CaseFolding.Starts (pattern text : List Char) : Prop :=
  pattern.map folding.fold <+: text.map folding.fold

instance (pattern text : List Char) : Decidable (folding.Starts pattern text) :=
  inferInstanceAs (Decidable (_ <+: _))

/-- `skip` characters belong to a match that has been replaced. -/
def replaceFrom (pattern template : List Char) : (skip : Nat) → List Char → List Char
  | _, [] => []
  | skip + 1, _ :: text => replaceFrom pattern template skip text
  | 0, c :: text =>
    if folding.Starts pattern (c :: text) then
      expand ((c :: text).take pattern.length) template ++
        replaceFrom pattern template (pattern.length - 1) text
    else c :: replaceFrom pattern template 0 text

def replaceAll (pattern template text : List Char) : List Char :=
  replaceFrom folding pattern template 0 text

end Replacing

section Expanding

variable {matched template : List Char}

theorem mem_capture {name : List Char} {c : Char} (h : c ∈ capture matched name) : c ∈ matched := by
  rw [capture] at h
  split at h
  · exact h
  · cases h

theorem mem_expandFrom {skip : Nat} {c : Char} (h : c ∈ expandFrom matched skip template) :
    c ∈ template ∨ c ∈ matched := by
  induction template generalizing skip with
  | nil => cases h
  | cons d template ih =>
    have hrest {skip : Nat} (h : c ∈ expandFrom matched skip template) : c ∈ d :: template ∨ c ∈ matched :=
      (ih h).imp_left (List.mem_cons_of_mem d)
    have hfirst {rest : List Char} (hd : d = '$') (hrest : c ∈ rest → c ∈ d :: template ∨ c ∈ matched)
        (h : c ∈ '$' :: rest) : c ∈ d :: template ∨ c ∈ matched := by
      cases List.mem_cons.mp h with
      | inl hc => exact Or.inl (List.mem_cons.mpr (Or.inl (hc.trans hd.symm)))
      | inr hc => exact hrest hc
    cases skip with
    | succ skip => exact hrest h
    | zero =>
      rw [expandFrom] at h
      split at h
      · next hd =>
        split at h
        · exact hfirst hd hrest h
        · split at h
          · cases List.mem_append.mp h with
            | inl hc => exact Or.inr (mem_capture hc)
            | inr hc => exact hrest hc
          · exact hfirst hd hrest h
      · cases List.mem_cons.mp h with
        | inl hc => exact Or.inl (List.mem_cons.mpr (Or.inl hc))
        | inr hc => exact hrest hc

theorem expand_append {front : List Char} (h : '$' ∉ front) :
    expand matched (front ++ template) = front ++ expand matched template := by
  induction front with
  | nil => rfl
  | cons c front ih =>
    rw [List.mem_cons, not_or] at h
    rw [List.cons_append, expand, expandFrom, if_neg (Ne.symm h.1)]
    exact congrArg (List.cons c) (ih h.2)

end Expanding

section Equations

variable {folding : CaseFolding} {pattern template text : List Char} {c : Char}

@[simp] theorem replaceAll_nil : replaceAll folding pattern template [] = [] := rfl

theorem replaceAll_cons (h : ¬folding.Starts pattern (c :: text)) :
    replaceAll folding pattern template (c :: text) = c :: replaceAll folding pattern template text := by
  rw [replaceAll, replaceFrom, if_neg h]
  rfl

theorem replaceFrom_append (front : List Char) :
    replaceFrom folding pattern template front.length (front ++ text) =
      replaceAll folding pattern template text := by
  induction front with
  | nil => rfl
  | cons d front ih => exact ih

theorem starts_append {written : List Char} (h : written.map folding.fold = pattern.map folding.fold) :
    folding.Starts pattern (written ++ text) := by
  rw [CaseFolding.Starts, List.map_append, h]
  exact List.prefix_append _ _

theorem starts_iff : folding.Starts pattern text ↔
    ∃ written rest, text = written ++ rest ∧ written.map folding.fold = pattern.map folding.fold := by
  constructor
  · rintro ⟨rest, hrest⟩
    obtain ⟨written, after, htext, hwritten, -⟩ := List.map_eq_append_iff.mp hrest.symm
    exact ⟨written, after, htext, hwritten⟩
  · rintro ⟨written, rest, htext, hwritten⟩
    rw [htext]
    exact starts_append hwritten

theorem replaceAll_match {written : List Char} (hpattern : pattern ≠ [])
    (h : written.map folding.fold = pattern.map folding.fold) :
    replaceAll folding pattern template (written ++ text) =
      expand written template ++ replaceAll folding pattern template text := by
  have hlength : written.length = pattern.length := by simpa using congrArg List.length h
  cases written with
  | nil => exact absurd (List.length_eq_zero_iff.mp hlength.symm) hpattern
  | cons c written =>
    have hstarts : folding.Starts pattern (c :: (written ++ text)) := starts_append h
    have hrest : pattern.length - 1 = written.length := by
      rw [← hlength]
      rfl
    rw [replaceAll, List.cons_append, replaceFrom, if_pos hstarts, hrest, replaceFrom_append, ← hlength,
      ← List.cons_append, List.take_left]

theorem replaceAll_first (hpattern : pattern ≠ [])
    (h : ∃ front rest, text = front ++ rest ∧ folding.Starts pattern rest) :
    ∃ front written rest, text = front ++ written ++ rest ∧
      written.map folding.fold = pattern.map folding.fold ∧
      replaceAll folding pattern template text =
        front ++ expand written template ++ replaceAll folding pattern template rest := by
  induction text with
  | nil =>
    obtain ⟨front, rest, htext, hstarts⟩ := h
    obtain ⟨written, after, hrest, hwritten⟩ := starts_iff.mp hstarts
    have hempty : written = [] := by
      rw [hrest, eq_comm, List.append_eq_nil_iff, List.append_eq_nil_iff] at htext
      exact htext.2.1
    rw [hempty, List.map_nil, eq_comm, List.map_eq_nil_iff] at hwritten
    exact absurd hwritten hpattern
  | cons c text ih =>
    by_cases hstarts : folding.Starts pattern (c :: text)
    · obtain ⟨written, rest, htext, hwritten⟩ := starts_iff.mp hstarts
      refine ⟨[], written, rest, htext, hwritten, ?_⟩
      rw [htext]
      exact replaceAll_match hpattern hwritten
    · obtain ⟨front, rest, htext, hrest⟩ := h
      cases front with
      | nil =>
        rw [List.nil_append] at htext
        exact absurd (htext ▸ hrest) hstarts
      | cons d front =>
        obtain ⟨front', written, rest', hsplit, hwritten, hreplace⟩ :=
          ih ⟨front, rest, (List.cons.inj htext).2, hrest⟩
        refine ⟨c :: front', written, rest', congrArg (List.cons c) hsplit, hwritten, ?_⟩
        rw [replaceAll_cons hstarts, hreplace]
        rfl

/-- The pattern and every replacement start with letters that are not one another's cases. -/
structure Telling (folding : CaseFolding) (pattern template : List Char) : Prop where
  pattern_ne : pattern ≠ []
  heads : ∀ matched c d rest rest', expand matched template = c :: rest → pattern = d :: rest' →
    folding.fold c ≠ folding.fold d
  template_ne : ∀ matched, expand matched template ≠ []

theorem replaceAll_cons_iff (h : Telling folding pattern template) {result : List Char} :
    replaceAll folding pattern template (c :: text) = c :: result ↔
      ¬folding.Starts pattern (c :: text) ∧ replaceAll folding pattern template text = result := by
  by_cases hstarts : folding.Starts pattern (c :: text)
  · refine iff_of_false (fun heq => ?_) fun hnone => hnone.1 hstarts
    obtain ⟨e, expanded, hexpand⟩ := List.exists_cons_of_ne_nil
      (h.template_ne ((c :: text).take pattern.length))
    obtain ⟨d, rest, hpattern⟩ := List.exists_cons_of_ne_nil h.pattern_ne
    have hfold : folding.fold d = folding.fold c := by
      rw [hpattern] at hstarts
      exact (List.cons_prefix_cons.mp hstarts).1
    rw [replaceAll, replaceFrom, if_pos hstarts, hexpand] at heq
    have hec : e = c := (List.cons.inj heq).1
    exact h.heads _ e d expanded rest hexpand hpattern (hec ▸ hfold.symm)
  · rw [replaceAll_cons hstarts, List.cons_inj_right]
    exact (and_iff_right hstarts).symm

theorem replaceAll_front_iff (h : Telling folding pattern template) {front result : List Char} :
    replaceAll folding pattern template (front ++ text) = front ++ result ↔
      (∀ x y, front = x ++ y → y ≠ [] → ¬folding.Starts pattern (y ++ text)) ∧
        replaceAll folding pattern template text = result := by
  induction front with
  | nil =>
    refine (and_iff_right ?_).symm
    intro x y hxy hy
    exact absurd (List.append_eq_nil_iff.mp hxy.symm).2 hy
  | cons c front ih =>
    rw [List.cons_append, List.cons_append, replaceAll_cons_iff h, ih, ← and_assoc]
    refine and_congr_left fun _ => ?_
    constructor
    · rintro ⟨hfirst, hrest⟩ x y hxy hy
      cases x with
      | nil =>
        rw [← (show c :: front = y from hxy)]
        exact hfirst
      | cons d x => exact hrest x y (List.cons.inj hxy).2 hy
    · intro hnone
      refine ⟨hnone [] (c :: front) rfl (List.cons_ne_nil c front), fun x y hxy hy => ?_⟩
      exact hnone (c :: x) y (congrArg (List.cons c) hxy) hy

end Equations

end Fumiko.Foundation.FoldedReplacement
