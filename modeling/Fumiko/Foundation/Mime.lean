import Fumiko.Foundation.Text

namespace Fumiko.Foundation.Mime

def tspecials : List Char := ['(', ')', '<', '>', '@', ',', ';', ':', '\\', '"', '/', '[', ']', '?', '=']

def isTokenChar (c : Char) : Bool := 0x20 < c.toNat ∧ c.toNat < 0x7F ∧ c ∉ tspecials

structure Token where
  text : List Char
  nonempty : text ≠ []
  chars : ∀ c ∈ text, isTokenChar c

structure Gap where
  text : List Char
  blank : ∀ c ∈ text, c ∈ [' ', '\t', '\r', '\n']

inductive QuotedChar
  | plain (c : Char) (h : c ≠ '"' ∧ c ≠ '\\')
  | pair (c : Char)

namespace QuotedChar

def char : QuotedChar → Char
  | plain c _ => c
  | pair c => c

def render : QuotedChar → List Char
  | plain c _ => [c]
  | pair c => ['\\', c]

def isPair : QuotedChar → Bool
  | plain _ _ => false
  | pair _ => true

end QuotedChar

inductive Value
  | token (t : Token)
  | quoted (cs : List QuotedChar)

namespace Value

def text : Value → List Char
  | token t => t.text
  | quoted cs => cs.map QuotedChar.char

def render : Value → List Char
  | token t => t.text
  | quoted cs => '"' :: (cs.flatMap QuotedChar.render ++ ['"'])

end Value

structure Parameter where
  lead : Gap
  name : Token
  beforeEq : Gap
  afterEq : Gap
  value : Value
  trail : Gap

namespace Parameter

def front (p : Parameter) : List Char :=
  p.lead.text ++ (p.name.text ++ p.beforeEq.text ++ '=' :: p.afterEq.text)

def back (p : Parameter) : List Char := p.value.render ++ p.trail.text

def render (p : Parameter) : List Char := p.front ++ p.back

end Parameter

structure ContentType where
  kind : Token
  subtype : Token
  trail : Gap
  parameters : List Parameter

namespace ContentType

def head (ct : ContentType) : List Char := ct.kind.text ++ '/' :: (ct.subtype.text ++ ct.trail.text)

def render (ct : ContentType) : List Char :=
  ct.head ++ ct.parameters.flatMap fun p => ';' :: p.render

def parameter (name : List Char) (ct : ContentType) : Option Parameter :=
  ct.parameters.find? fun p => p.name.text.map Char.toLower = name

end ContentType

section Letters

variable {c : Char}

theorem Token.not_mem (t : Token) (h : isTokenChar c = false) : c ∉ t.text := by
  intro hc
  rw [t.chars c hc] at h
  cases h

theorem Gap.not_mem (g : Gap) (h : c ∉ [' ', '\t', '\r', '\n']) : c ∉ g.text :=
  fun hc => h (g.blank c hc)

theorem Gap.forall_mem (g : Gap) {p : Char → Bool} (h : ([' ', '\t', '\r', '\n'].all p) = true) :
    ∀ c ∈ g.text, p c := by
  intro c hc
  exact List.all_eq_true.mp h c (g.blank c hc)

theorem Gap.isWhitespace (g : Gap) : ∀ c ∈ g.text, isWhitespace c := g.forall_mem (by decide)

theorem not_isWhitespace_of_isTokenChar (h : isTokenChar c) : isWhitespace c = false := by
  simp only [isTokenChar, decide_eq_true_eq, Bool.decide_and, Bool.and_eq_true] at h
  simp only [Foundation.isWhitespace, decide_eq_false_iff_not]
  omega

theorem QuotedChar.mem_render {q : QuotedChar} (h : c ≠ '\\') : c ∈ q.render ↔ q.char = c := by
  cases q <;> simp [render, char, h, eq_comm]

theorem QuotedChar.count_flatMap_render (cs : List QuotedChar) :
    (cs.flatMap render).count '\\' = (cs.map char).count '\\' + cs.countP isPair := by
  induction cs with
  | nil => rfl
  | cons q cs ih =>
    cases q with
    | plain c h =>
      simp only [List.flatMap_cons, render, List.singleton_append, List.map_cons, char, List.count_cons,
        ih, List.countP_cons, isPair, Bool.false_eq_true, if_false]
      omega
    | pair c =>
      simp only [List.flatMap_cons, render, List.cons_append, List.nil_append, List.map_cons, char,
        List.count_cons, ih, List.countP_cons, isPair, beq_self_eq_true, if_true]
      omega

end Letters

section Pieces

theorem ContentType.fields_render (ct : ContentType) :
    fields ';' ct.render = ct.head :: ct.parameters.flatMap fun p => fields ';' p.render := by
  have hhead : ';' ∉ ct.head := by
    simp [head, ct.kind.not_mem, ct.subtype.not_mem, ct.trail.not_mem, isTokenChar, tspecials]
  have hall (a : List Char) (ps : List Parameter) :
      fields ';' (a ++ ps.flatMap fun p => ';' :: p.render) =
        fields ';' a ++ ps.flatMap fun p => fields ';' p.render := by
    induction ps generalizing a with
    | nil => simp
    | cons p ps ih =>
      rw [List.flatMap_cons, List.cons_append, fields_append_cons, ih, List.flatMap_cons]
  rw [render, hall, fields_of_not_mem hhead]
  rfl

theorem Parameter.fields_render (p : Parameter) :
    fields ';' p.render = (fields ';' p.back).modifyHead (p.front ++ ·) := by
  have hfront : ';' ∉ p.front := by
    simp [front, p.lead.not_mem, p.name.not_mem, p.beforeEq.not_mem, p.afterEq.not_mem, isTokenChar,
      tspecials]
  rw [render, fields_append_of_not_mem hfront]

end Pieces

end Fumiko.Foundation.Mime
