import Fumiko.EmailCore.GmailParsing
import Fumiko.Foundation.Mime

namespace Fumiko.EmailCore.Gmail

open Fumiko.Foundation Fumiko.Foundation.Mime Fumiko.Net Fumiko.EmailCore.Parsing

section Labels

def isAsciiWhitespace (c : Char) : Bool := c ∈ [' ', '\t', '\n', '\x0c', '\r']

def labelCore (label : List Char) : List Char :=
  ((label.dropWhile isAsciiWhitespace).rdropWhile isAsciiWhitespace).map Char.toLower

def SameLabel (a b : List Char) : Prop := labelCore a = labelCore b

section Core

variable {c : Char} {label : List Char}

/-- The marks a label keeps whatever its case and the white space around it. -/
def Kept (c : Char) : Prop := isAsciiWhitespace c = false ∧ c.toNat < 128 ∧ ¬c.isAlpha

instance : DecidablePred Kept := fun _ => inferInstanceAs (Decidable (_ ∧ _))

theorem Kept.toLower_eq_iff (h : Kept c) (d : Char) : d.toLower = c ↔ d = c := by
  have hself : c.toLower = c := by
    have hletter := h.2.2
    rw [FoldedReplacement.isAlpha_iff, not_or] at hletter
    rw [← Char.toNat_inj, FoldedReplacement.toNat_toLower, if_neg hletter.1]
  constructor
  · intro hd
    exact FoldedReplacement.asciiFolding.uncased d c (.inr h.2) (hd.trans hself.symm)
  · rintro rfl
    exact hself

theorem count_labelCore (h : Kept c) (label : List Char) :
    (labelCore label).count c = label.count c := by
  have hmap (l : List Char) : (l.map Char.toLower).count c = l.count c := by
    induction l with
    | nil => rfl
    | cons d l ih => simp [List.count_cons, ih, h.toLower_eq_iff d]
  rw [labelCore, hmap, count_rdropWhile h.1, count_dropWhile h.1]

theorem SameLabel.count_eq {a b : List Char} (hsame : SameLabel a b) (h : Kept c) :
    a.count c = b.count c := by
  rw [← count_labelCore h a, hsame, count_labelCore h b]

theorem SameLabel.mem_iff {a b : List Char} (hsame : SameLabel a b) (h : Kept c) : c ∈ a ↔ c ∈ b := by
  rw [← List.count_pos_iff, hsame.count_eq h, List.count_pos_iff]

theorem sameLabel_gap (g : Gap) (label : List Char) : SameLabel (g.text ++ label) label := by
  have hblank : ∀ c ∈ g.text, isAsciiWhitespace c := g.forall_mem (by decide)
  rw [SameLabel, labelCore, labelCore, List.dropWhile_append_of_pos hblank]

end Core

end Labels

/-- Labels are looked up whatever their letter case and the white space around them. -/
def LooksUpLabels (codecs : Codecs) : Prop :=
  ∀ a b, SameLabel a b → codecs.forLabel (String.ofList a) = codecs.forLabel (String.ofList b)

def encodingOf (codecs : Codecs) (label : Option (List Char)) : codecs.Encoding :=
  (label.bind fun l => codecs.forLabel (String.ofList l)).getD codecs.utf8

section Named

def charsetName : List Char := "charset".toList

def namedCharset (ct : ContentType) : Option (List Char) :=
  (ct.parameter charsetName).map (·.value.text)

end Named

section Read

def unquote (text : List Char) : List Char := (text.dropWhile (· = '"')).rdropWhile (· = '"')

def assigned (segment : List Char) : Option (List Char) :=
  if "charset=".toList <+: trim segment then some (unquote ((trim segment).drop 8)) else none

/-- A piece of the header that is read as the charset: the beginning of a parameter, or a piece
that stands behind a separator inside a quoted string. -/
inductive Reading
  | parameter (p : Parameter)
  | hidden (label : List Char)

def Reading.label : Reading → List Char
  | parameter p =>
    unquote ((p.afterEq.text ++ (fields ';' p.back).headD []).rdropWhile isWhitespace)
  | hidden label => label

def Literal (p : Parameter) : Prop := p.name.text = charsetName ∧ p.beforeEq.text = []

instance : DecidablePred Literal := fun _ => inferInstanceAs (Decidable (_ ∧ _))

def readings (p : Parameter) : List Reading :=
  (if Literal p then [.parameter p] else []) ++ ((fields ';' p.back).tail.filterMap assigned).map .hidden

theorem assigned_of_not_mem {segment : List Char} (h : '=' ∉ segment) : assigned segment = none := by
  have hstarts : ¬ "charset=".toList <+: trim segment := by
    intro hstarts
    have hmem : '=' ∈ trim segment := hstarts.subset (by simp)
    obtain ⟨front, back, hsplit, -, -⟩ := exists_trim_append segment
    rw [hsplit] at h
    simp [hmem] at h
  rw [assigned, if_neg hstarts]

theorem literal_iff (p : Parameter) : Literal p ↔ p.name.text ++ p.beforeEq.text = charsetName := by
  constructor
  · rintro ⟨hname, hgap⟩
    rw [hname, hgap, List.append_nil]
  · intro h
    have hgap : p.beforeEq.text = [] := by
      by_contra hne
      obtain ⟨c, gap, hc⟩ := List.exists_cons_of_ne_nil hne
      have hblank := p.beforeEq.isWhitespace c (by simp [hc])
      have hletter : ∀ d ∈ charsetName, isWhitespace d = false := forall_mem_of_all (by decide)
      rw [hletter c (by simp [← h, hc])] at hblank
      cases hblank
    rw [hgap, List.append_nil] at h
    exact ⟨h, hgap⟩

theorem assigned_front (p : Parameter) (f : List Char) : assigned (p.front ++ f) =
    if Literal p then some (unquote ((p.afterEq.text ++ f).rdropWhile isWhitespace)) else none := by
  obtain ⟨c, name, hname⟩ := List.exists_cons_of_ne_nil p.name.nonempty
  have hc : isWhitespace c = false :=
    not_isWhitespace_of_isTokenChar (p.name.chars c (by simp [hname]))
  let rest := (p.afterEq.text ++ f).rdropWhile isWhitespace
  have htrim : trim (p.front ++ f) = p.name.text ++ p.beforeEq.text ++ '=' :: rest := by
    have hsplit : p.front ++ f =
        p.lead.text ++ c :: (name ++ p.beforeEq.text ++ '=' :: (p.afterEq.text ++ f)) := by
      simp [Parameter.front, hname]
    rw [hsplit, trim_append_cons p.lead.isWhitespace hc, rdropWhile_append_cons (by decide), hname]
    rfl
  have hnotMem : '=' ∉ p.name.text ++ p.beforeEq.text := by
    simp [p.name.not_mem, p.beforeEq.not_mem, isTokenChar, tspecials]
  have hstarts : "charset=".toList <+: p.name.text ++ p.beforeEq.text ++ '=' :: rest ↔ Literal p := by
    have hassign : "charset=".toList = charsetName ++ ['='] := by decide
    have hsplit (t : List Char) : "charset=".toList ++ t = charsetName ++ '=' :: t := by
      rw [hassign, List.append_assoc, List.singleton_append]
    rw [literal_iff]
    constructor
    · rintro ⟨t, ht⟩
      have hfields := congrArg (fields '=') (hsplit t ▸ ht)
      rw [fields_append (by decide), fields_append hnotMem] at hfields
      exact (List.cons.inj hfields).1.symm
    · intro h
      exact ⟨rest, by rw [hsplit, h]⟩
  rw [assigned, htrim]
  by_cases hliteral : Literal p
  · rw [if_pos (hstarts.mpr hliteral), if_pos hliteral, (literal_iff p).mp hliteral]
    rfl
  · rw [if_neg (fun h => hliteral (hstarts.mp h)), if_neg hliteral]

theorem assigned_render (p : Parameter) :
    (fields ';' p.render).filterMap assigned = (readings p).map Reading.label := by
  have hlabels : (readings p).map Reading.label =
      (if Literal p then [Reading.label (.parameter p)] else []) ++
        (fields ';' p.back).tail.filterMap assigned := by
    rw [readings, List.map_append, List.map_map]
    split <;> simp [Reading.label, Function.comp_def]
  rw [hlabels, p.fields_render, Reading.label]
  cases hfields : fields ';' p.back with
  | nil => exact absurd hfields (fields_ne_nil _ _)
  | cons f fs =>
    rw [List.modifyHead_cons, List.filterMap_cons, assigned_front]
    split <;> simp_all

def allReadings (ct : ContentType) : List Reading := ct.parameters.flatMap readings

theorem findSome_assigned (ct : ContentType) :
    (fields ';' ct.render).findSome? assigned = (allReadings ct).head?.map Reading.label := by
  have hhead : assigned ct.head = none := by
    apply assigned_of_not_mem
    simp [ContentType.head, ct.kind.not_mem, ct.subtype.not_mem, ct.trail.not_mem, isTokenChar,
      tspecials]
  rw [ct.fields_render, List.findSome?_cons, hhead, ← List.head?_filterMap, List.filterMap_flatMap,
    allReadings, ← List.head?_map, List.map_flatMap]
  simp only [assigned_render]

variable {part : MessagePartFull} {headers : List MessageHeader} {ct : ContentType}

theorem charsetForPart_eq (codecs : Codecs) (hheaders : part.headers = some headers)
    (hvalue : headerValue headers "Content-Type" = some (String.ofList ct.render)) :
    charsetForPart codecs part = encodingOf codecs ((allReadings ct).head?.map Reading.label) := by
  have hlabel : ((fields ';' ct.render).findSome? fun segment =>
      if "charset=".toList <+: trim segment then
        some (String.ofList
          ((((trim segment).drop 8).dropWhile (· = '"')).reverse.dropWhile (· = '"')).reverse)
      else none) = ((allReadings ct).head?.map Reading.label).map String.ofList := by
    rw [← findSome_assigned, List.map_findSome?]
    congr 1
    funext segment
    rw [Function.comp_apply, assigned]
    split <;> rfl
  simp only [charsetForPart, hheaders, hvalue, Option.bind_eq_bind, Option.bind_some,
    String.toList_ofList, hlabel, encodingOf, Option.bind_map]
  rfl

end Read

section Plain

/-- The value stands as it is meant: a token, or a quoted string without separators and
backslashes, right behind the equals sign unless it is empty. -/
def Plain (p : Parameter) : Prop :=
  match p.value with
  | .token _ => True
  | .quoted cs => (∀ q ∈ cs, q.isPair = false ∧ q.char ≠ ';') ∧ (p.afterEq.text = [] ∨ cs = [])

theorem unquote_cons {c : Char} (h : '"' ≠ c) (text : List Char) :
    unquote (c :: text) = (c :: text).rdropWhile (· = '"') := by
  rw [unquote, List.dropWhile_cons_of_neg (by simpa using Ne.symm h)]

theorem rdropWhile_quotes {text : List Char} (h : '"' ∉ text) : text.rdropWhile (· = '"') = text := by
  rw [List.rdropWhile_eq_self_iff]
  intro hne
  simpa using ne_of_mem_of_not_mem (List.getLast_mem hne) h

theorem unquote_of_not_mem {text : List Char} (h : '"' ∉ text) : unquote text = text := by
  cases text with
  | nil => rfl
  | cons c text => rw [unquote_cons (List.ne_of_not_mem_cons h), rdropWhile_quotes h]

theorem unquote_quoted {text : List Char} (h : '"' ∉ text) :
    unquote ('"' :: (text ++ ['"'])) = text := by
  have hopened : unquote ('"' :: (text ++ ['"'])) = unquote (text ++ ['"']) := by
    rw [unquote, List.dropWhile_cons_of_pos (by simp), unquote]
  rw [hopened]
  cases text with
  | nil => rfl
  | cons c text =>
    rw [List.cons_append, unquote_cons (List.ne_of_not_mem_cons h), ← List.cons_append,
      List.rdropWhile_concat_pos _ _ _ (by simp), rdropWhile_quotes h]

theorem unquote_gap {gap text : List Char} (hgap : gap ≠ []) (hblank : '"' ∉ gap) (h : '"' ∉ text) :
    unquote (gap ++ '"' :: (text ++ ['"'])) = if text = [] then gap else gap ++ '"' :: text := by
  obtain ⟨c, rest, hc⟩ := List.exists_cons_of_ne_nil hgap
  have hopened : unquote (gap ++ '"' :: (text ++ ['"'])) =
      (gap ++ '"' :: (text ++ ['"'])).rdropWhile (· = '"') := by
    rw [hc] at hblank ⊢
    exact unquote_cons (List.ne_of_not_mem_cons hblank) _
  have hsplit : gap ++ '"' :: (text ++ ['"']) = (gap ++ ['"'] ++ text) ++ ['"'] := by simp
  rw [hopened, hsplit, List.rdropWhile_concat_pos _ _ _ (by simp)]
  split
  · next htext =>
    rw [htext, List.append_nil, List.rdropWhile_concat_pos _ _ _ (by simp), rdropWhile_quotes hblank]
  · next htext =>
    obtain ⟨front, d, hlast⟩ : ∃ front d, text = front ++ [d] :=
      ⟨_, _, (List.dropLast_concat_getLast htext).symm⟩
    have hd : d ≠ '"' := ne_of_mem_of_not_mem (by simp [hlast]) h
    rw [hlast, ← List.append_assoc, List.rdropWhile_concat_neg _ _ _ (by simpa using hd)]
    simp

theorem count_unquote {c : Char} (h : c ≠ '"') (text : List Char) :
    (unquote text).count c = text.count c := by
  rw [unquote, count_rdropWhile (by simp [h]), count_dropWhile (by simp [h])]

variable {p : Parameter}

theorem label_token {t : Token} (hvalue : p.value = .token t) :
    (Reading.parameter p).label = p.afterEq.text ++ t.text := by
  have hback : p.back = t.text ++ p.trail.text := by rw [Parameter.back, hvalue, Value.render]
  have hsep : ';' ∉ p.back := by
    rw [hback]
    simp [t.not_mem, p.trail.not_mem, isTokenChar, tspecials]
  have hquote : '"' ∉ p.afterEq.text ++ t.text := by
    simp [t.not_mem, p.afterEq.not_mem, isTokenChar, tspecials]
  obtain ⟨front, c, hlast⟩ : ∃ front c, t.text = front ++ [c] :=
    ⟨_, _, (List.dropLast_concat_getLast t.nonempty).symm⟩
  have hc : isWhitespace c = false :=
    not_isWhitespace_of_isTokenChar (t.chars c (by simp [hlast]))
  have htrim : (p.afterEq.text ++ p.back).rdropWhile isWhitespace = p.afterEq.text ++ t.text := by
    have hsplit : p.afterEq.text ++ p.back = (p.afterEq.text ++ front) ++ c :: p.trail.text := by
      simp [hback, hlast]
    rw [hsplit, rdropWhile_append_cons hc, List.rdropWhile_eq_nil_iff.mpr p.trail.isWhitespace, hlast,
      List.append_assoc]
  rw [Reading.label, fields_of_not_mem hsep, List.headD_cons, htrim, unquote_of_not_mem hquote]

theorem label_quoted {cs : List QuotedChar} (hvalue : p.value = .quoted cs)
    (hwhole : ';' ∉ cs.flatMap QuotedChar.render) :
    (Reading.parameter p).label =
      unquote (p.afterEq.text ++ '"' :: (cs.flatMap QuotedChar.render ++ ['"'])) := by
  have hback : p.back = '"' :: (cs.flatMap QuotedChar.render ++ ['"']) ++ p.trail.text := by
    rw [Parameter.back, hvalue, Value.render]
  have hsep : ';' ∉ p.back := by
    rw [hback]
    simp only [List.mem_append, List.mem_cons, not_or]
    exact ⟨⟨by decide, hwhole, by decide, List.not_mem_nil⟩, p.trail.not_mem (by decide)⟩
  have htrim : (p.afterEq.text ++ p.back).rdropWhile isWhitespace =
      p.afterEq.text ++ '"' :: (cs.flatMap QuotedChar.render ++ ['"']) := by
    have hsplit : p.afterEq.text ++ p.back =
        (p.afterEq.text ++ '"' :: cs.flatMap QuotedChar.render) ++ '"' :: p.trail.text := by
      simp [hback]
    rw [hsplit, rdropWhile_append_cons (by decide), List.rdropWhile_eq_nil_iff.mpr p.trail.isWhitespace]
    simp
  rw [Reading.label, fields_of_not_mem hsep, List.headD_cons, htrim]

theorem render_of_not_isPair {cs : List QuotedChar} (h : ∀ q ∈ cs, q.isPair = false) :
    cs.flatMap QuotedChar.render = cs.map QuotedChar.char ∧ '"' ∉ cs.map QuotedChar.char := by
  induction cs with
  | nil => simp
  | cons q cs ih =>
    obtain ⟨hrender, hquote⟩ := ih fun q hq => h q (List.mem_cons_of_mem _ hq)
    cases q with
    | plain c hc => simp [QuotedChar.render, QuotedChar.char, hrender, hquote, Ne.symm hc.1]
    | pair c => exact absurd (h _ List.mem_cons_self) (by simp [QuotedChar.isPair])

section Quoted

variable {cs : List QuotedChar}

theorem not_sameLabel_of_separator (hseparator : ';' ∈ cs.map QuotedChar.char) :
    ¬ SameLabel (Reading.parameter p).label (cs.map QuotedChar.char) := by
  intro hsame
  have hmem : ';' ∈ (Reading.parameter p).label := (hsame.mem_iff (by decide)).mpr hseparator
  have hpiece : ';' ∉ (fields ';' p.back).headD [] := by
    cases hfields : fields ';' p.back with
    | nil => simp
    | cons f fs => exact not_mem_of_mem_fields (hfields ▸ List.mem_cons_self)
  have hcount : (Reading.parameter p).label.count ';' = 0 := by
    rw [Reading.label, count_unquote (by decide), count_rdropWhile (by decide), List.count_append,
      List.count_eq_zero.mpr (p.afterEq.not_mem (by decide)), List.count_eq_zero.mpr hpiece]
  exact List.count_eq_zero.mp hcount hmem

theorem not_sameLabel_of_pair (hvalue : p.value = .quoted cs)
    (hwhole : ';' ∉ cs.flatMap QuotedChar.render) (hpair : ∃ q ∈ cs, q.isPair) :
    ¬ SameLabel (Reading.parameter p).label (cs.map QuotedChar.char) := by
  intro hsame
  have hcount : (Reading.parameter p).label.count '\\' =
      (cs.map QuotedChar.char).count '\\' + cs.countP QuotedChar.isPair := by
    rw [label_quoted hvalue hwhole, count_unquote (by decide), List.count_append, List.count_cons,
      List.count_append, QuotedChar.count_flatMap_render,
      List.count_eq_zero.mpr (p.afterEq.not_mem (by decide))]
    simp
  have hpositive : 0 < cs.countP QuotedChar.isPair := List.countP_pos_iff.mpr hpair
  have hequal := hsame.count_eq (c := '\\') (by decide)
  omega

theorem sameLabel_of_whole (hvalue : p.value = .quoted cs)
    (hwhole : ';' ∉ cs.flatMap QuotedChar.render) (hpairs : ∀ q ∈ cs, q.isPair = false) :
    SameLabel (Reading.parameter p).label (cs.map QuotedChar.char) ↔ p.afterEq.text = [] ∨ cs = [] := by
  obtain ⟨hrender, hquote⟩ := render_of_not_isPair hpairs
  rw [label_quoted hvalue hwhole, hrender]
  by_cases hgap : p.afterEq.text = []
  · rw [hgap, List.nil_append, unquote_quoted hquote]
    exact iff_of_true rfl (.inl rfl)
  · rw [unquote_gap hgap (p.afterEq.not_mem (by decide)) hquote]
    by_cases hcs : cs = []
    · rw [hcs, List.map_nil, if_pos rfl, ← List.append_nil p.afterEq.text]
      exact iff_of_true (sameLabel_gap _ _) (.inr rfl)
    · rw [if_neg (by simpa using hcs)]
      refine iff_of_false (fun hsame => ?_) (by simp [hgap, hcs])
      exact hquote ((hsame.mem_iff (by decide)).mp (by simp))

end Quoted

theorem sameLabel_iff_plain : SameLabel (Reading.parameter p).label p.value.text ↔ Plain p := by
  cases hvalue : p.value with
  | token t =>
    rw [label_token hvalue, Plain, hvalue]
    exact iff_of_true (sameLabel_gap _ _) trivial
  | quoted cs =>
    simp only [Plain, hvalue, Value.text]
    by_cases hseparator : ';' ∈ cs.map QuotedChar.char
    · refine iff_of_false (not_sameLabel_of_separator hseparator) (fun hplain => ?_)
      obtain ⟨q, hq, hchar⟩ := List.mem_map.mp hseparator
      exact (hplain.1 q hq).2 hchar
    · have hchars : ∀ q ∈ cs, q.char ≠ ';' := fun q hq hchar =>
        hseparator (List.mem_map.mpr ⟨q, hq, hchar⟩)
      have hwhole : ';' ∉ cs.flatMap QuotedChar.render := by
        intro hmem
        obtain ⟨q, hq, hrender⟩ := List.mem_flatMap.mp hmem
        exact hchars q hq ((QuotedChar.mem_render (by decide)).mp hrender)
      by_cases hpair : ∃ q ∈ cs, q.isPair
      · refine iff_of_false (not_sameLabel_of_pair hvalue hwhole hpair) (fun hplain => ?_)
        obtain ⟨q, hq, htrue⟩ := hpair
        rw [(hplain.1 q hq).1] at htrue
        cases htrue
      · have hpairs : ∀ q ∈ cs, q.isPair = false := by simpa using hpair
        rw [sameLabel_of_whole hvalue hwhole hpairs]
        exact (and_iff_right fun q hq => ⟨hpairs q hq, hchars q hq⟩).symm

end Plain

section Legible

/-- The label that is read first is the one the header names, whatever the labels stand for. -/
inductive Legible (ct : ContentType) : Prop
  | absent (hnone : ct.parameter charsetName = none) (hread : (allReadings ct).head? = none)
  | plain {p : Parameter} (hp : ct.parameter charsetName = some p)
    (hread : (allReadings ct).head? = some (.parameter p)) (hplain : Plain p)
  | repeated {p : Parameter} {r : Reading} (hp : ct.parameter charsetName = some p)
    (hread : (allReadings ct).head? = some r) (hother : r ≠ .parameter p)
    (hsame : SameLabel r.label p.value.text)

/-- Another label is read than the one the header names, or none, and it leads to the same encoding. -/
inductive Coincides (codecs : Codecs) (ct : ContentType) : Prop
  | unread {p : Parameter} (hp : ct.parameter charsetName = some p)
    (hread : (allReadings ct).head? = none)
    (hencoding : encodingOf codecs (some p.value.text) = codecs.utf8)
  | unnamed {r : Reading} (hnone : ct.parameter charsetName = none)
    (hread : (allReadings ct).head? = some r)
    (hencoding : encodingOf codecs (some r.label) = codecs.utf8)
  | other {p : Parameter} {r : Reading} (hp : ct.parameter charsetName = some p)
    (hread : (allReadings ct).head? = some r) (hdiffers : ¬ SameLabel r.label p.value.text)
    (hencoding : encodingOf codecs (some r.label) = encodingOf codecs (some p.value.text))

variable {ct : ContentType} {p : Parameter} {r : Reading}

theorem legible_iff_sameLabel (hp : ct.parameter charsetName = some p)
    (hread : (allReadings ct).head? = some r) : Legible ct ↔ SameLabel r.label p.value.text := by
  constructor
  · intro h
    cases h with
    | absent hnone => cases hp.symm.trans hnone
    | plain hp' hread' hplain =>
      cases hp.symm.trans hp'
      cases hread.symm.trans hread'
      exact sameLabel_iff_plain.mpr hplain
    | repeated hp' hread' hother hsame =>
      cases hp.symm.trans hp'
      cases hread.symm.trans hread'
      exact hsame
  · intro hsame
    by_cases hother : r = .parameter p
    · subst hother
      exact .plain hp hread (sameLabel_iff_plain.mp hsame)
    · exact .repeated hp hread hother hsame

theorem legible_iff_rel :
    Legible ct ↔ Option.Rel SameLabel ((allReadings ct).head?.map Reading.label) (namedCharset ct) := by
  rw [namedCharset]
  cases hp : ct.parameter charsetName with
  | none =>
    cases hread : (allReadings ct).head? with
    | none => exact iff_of_true (.absent hp hread) .none
    | some r =>
      refine iff_of_false (fun h => ?_) (fun h => by cases h)
      cases h with
      | absent _ hnone => cases hread.symm.trans hnone
      | plain hp' => cases hp.symm.trans hp'
      | repeated hp' => cases hp.symm.trans hp'
  | some p =>
    cases hread : (allReadings ct).head? with
    | none =>
      refine iff_of_false (fun h => ?_) (fun h => by cases h)
      cases h with
      | absent hnone => cases hp.symm.trans hnone
      | plain _ hread' => cases hread.symm.trans hread'
      | repeated _ hread' => cases hread.symm.trans hread'
    | some r =>
      rw [legible_iff_sameLabel hp hread]
      exact Option.rel_some_some.symm

def oneLabel (label : List Char) : Codecs :=
  { greetingCodecs with
    Encoding := Bool
    utf8 := false
    forLabel := fun l => if labelCore l.toList = labelCore label then some true else none
    decode := fun _ => greetingCodecs.decode () }

theorem encodingOf_oneLabel (label : List Char) (o : Option (List Char)) :
    encodingOf (oneLabel label) o = true ↔ ∃ l ∈ o, SameLabel l label := by
  cases o with
  | none => exact iff_of_false Bool.false_ne_true (by simp)
  | some l =>
    have hcore : (oneLabel label).forLabel (String.ofList l) =
        if labelCore l = labelCore label then some true else none := by
      simp only [oneLabel, String.toList_ofList]
    rw [encodingOf, Option.bind_some, hcore]
    by_cases hsame : labelCore l = labelCore label
    · rw [if_pos hsame]
      exact iff_of_true rfl ⟨l, rfl, hsame⟩
    · rw [if_neg hsame]
      exact iff_of_false Bool.false_ne_true (by simpa [SameLabel] using hsame)

theorem looksUpLabels_oneLabel (label : List Char) : LooksUpLabels (oneLabel label) := by
  intro a b hsame
  have hcore : labelCore a = labelCore b := hsame
  simp only [oneLabel, String.toList_ofList, hcore]

theorem rel_iff_encodingOf {a b : Option (List Char)} :
    Option.Rel SameLabel a b ↔
      ∀ codecs, LooksUpLabels codecs → encodingOf codecs a = encodingOf codecs b := by
  constructor
  · intro h codecs hcodecs
    cases h with
    | none => rfl
    | some hsame => rw [encodingOf, encodingOf, Option.bind_some, Option.bind_some, hcodecs _ _ hsame]
  · intro h
    cases a with
    | none =>
      cases b with
      | none => exact .none
      | some y =>
        have hknown := (encodingOf_oneLabel y (some y)).mpr ⟨y, rfl, rfl⟩
        rw [← h _ (looksUpLabels_oneLabel y), encodingOf_oneLabel] at hknown
        obtain ⟨l, hl, -⟩ := hknown
        cases hl
    | some x =>
      have hknown := (encodingOf_oneLabel x (some x)).mpr ⟨x, rfl, rfl⟩
      rw [h _ (looksUpLabels_oneLabel x), encodingOf_oneLabel] at hknown
      obtain ⟨l, hl, hsame⟩ := hknown
      cases hl
      exact .some (Eq.symm hsame)

theorem Coincides.encodingOf_eq {codecs : Codecs} (h : Coincides codecs ct) :
    encodingOf codecs ((allReadings ct).head?.map Reading.label) =
      encodingOf codecs (namedCharset ct) := by
  cases h with
  | unread hp hread hencoding =>
    rw [namedCharset, hp, hread]
    exact hencoding.symm
  | unnamed hnone hread hencoding =>
    rw [namedCharset, hnone, hread]
    exact hencoding
  | other hp hread _ hencoding =>
    rw [namedCharset, hp, hread]
    exact hencoding

theorem encodingOf_eq_iff {codecs : Codecs} (hcodecs : LooksUpLabels codecs) :
    encodingOf codecs ((allReadings ct).head?.map Reading.label) = encodingOf codecs (namedCharset ct) ↔
      Legible ct ∨ Coincides codecs ct := by
  constructor
  · intro h
    rw [namedCharset] at h
    cases hp : ct.parameter charsetName with
    | none =>
      cases hread : (allReadings ct).head? with
      | none => exact .inl (.absent hp hread)
      | some r =>
        rw [hp, hread] at h
        exact .inr (.unnamed hp hread h)
    | some p =>
      cases hread : (allReadings ct).head? with
      | none =>
        rw [hp, hread] at h
        exact .inr (.unread hp hread h.symm)
      | some r =>
        rw [hp, hread] at h
        by_cases hsame : SameLabel r.label p.value.text
        · exact .inl ((legible_iff_sameLabel hp hread).mpr hsame)
        · exact .inr (.other hp hread hsame h)
  · rintro (h | h)
    · exact rel_iff_encodingOf.mp (legible_iff_rel.mp h) codecs hcodecs
    · exact h.encodingOf_eq

end Legible

section Headers

variable {part : MessagePartFull} {headers : List MessageHeader} {ct : ContentType}

theorem legible_iff_forall_codecs (hheaders : part.headers = some headers)
    (hvalue : headerValue headers "Content-Type" = some (String.ofList ct.render)) :
    Legible ct ↔ ∀ codecs, LooksUpLabels codecs →
      charsetForPart codecs part = encodingOf codecs (namedCharset ct) := by
  rw [legible_iff_rel, rel_iff_encodingOf]
  simp only [charsetForPart_eq _ hheaders hvalue]

end Headers

section Example

def labelTable : List (List Char × String) :=
  [("utf-8".toList, "UTF-8"), ("latin1".toList, "windows-1252"), ("koi8-r".toList, "KOI8-R")]

def tableCodecs : Codecs :=
  { greetingCodecs with
    Encoding := String
    utf8 := "UTF-8"
    forLabel := fun label => (labelTable.find? (·.1 = labelCore label.toList)).map Prod.snd
    decode := fun _ => greetingCodecs.decode () }

theorem looksUpLabels_tableCodecs : LooksUpLabels tableCodecs := by
  intro a b hsame
  have hcore : labelCore a = labelCore b := hsame
  simp only [tableCodecs, String.toList_ofList, hcore]

def noGap : Gap := ⟨[], List.forall_mem_nil _⟩

def latin1 (name : Token) : ContentType where
  kind := ⟨['t', 'e', 'x', 't'], by decide, forall_mem_of_all (by decide)⟩
  subtype := ⟨['h', 't', 'm', 'l'], by decide, forall_mem_of_all (by decide)⟩
  trail := noGap
  parameters := [{
    lead := ⟨[' '], forall_mem_of_all (by decide)⟩
    name := name
    beforeEq := noGap
    afterEq := noGap
    value := .token ⟨['l', 'a', 't', 'i', 'n', '1'], by decide, forall_mem_of_all (by decide)⟩
    trail := noGap }]

def lowerCharset : Token :=
  ⟨['c', 'h', 'a', 'r', 's', 'e', 't'], by decide, forall_mem_of_all (by decide)⟩

def capitalCharset : Token :=
  ⟨['C', 'h', 'a', 'r', 's', 'e', 't'], by decide, forall_mem_of_all (by decide)⟩

example : (latin1 capitalCharset).render = "text/html; Charset=latin1".toList := by decide

def partWith (ct : ContentType) : MessagePartFull :=
  .mk "text/html" none (some [⟨"Content-Type", String.ofList ct.render⟩]) none []

theorem headerValue_singleton (name value : String) : headerValue [⟨name, value⟩] name = some value := by
  simp [headerValue]

end Example

end Fumiko.EmailCore.Gmail
