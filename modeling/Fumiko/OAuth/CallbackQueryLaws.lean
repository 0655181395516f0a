import Fumiko.Foundation.FormEncoding
import Fumiko.OAuth.CallbackLaws

namespace Fumiko.OAuth

open Fumiko.Common Fumiko.Foundation Fumiko.Net

/-- The URL library on a loopback URL whose query is made of the characters of a serialized form:
such a URL is valid, and the pairs of its query are those of the form. -/
structure ParsesForms (parse : String → Except String Url) : Prop where
  loopback (port : UInt16) {query : List Char} (h : ∀ c ∈ query, FormEncoding.Serial c) :
    parse (loopbackUrl port.toNat ("/?" ++ String.ofList query)) =
      .ok ⟨"/", FormEncoding.parse query⟩

def callbackTarget (pairs : List (String × String)) : String :=
  "/?" ++ String.ofList (FormEncoding.serialize pairs)

section Reading

variable {url : Url} {pairs extras : List (String × String)} {name value code state : String}

theorem firstValue_eq_some_of_only (hvalue : (name, value) ∈ url.queryPairs)
    (honly : ∀ p ∈ url.queryPairs, p.1 = name → p.2 = value) : firstValue url name = some value := by
  cases hfirst : firstValue url name with
  | none => exact absurd rfl (firstValue_eq_none.mp hfirst _ hvalue)
  | some found =>
    obtain ⟨p, hfind, hfound⟩ := Option.map_eq_some_iff.mp hfirst
    have hname : p.1 = name := by simpa using List.find?_some hfind
    rw [← hfound, honly p (List.mem_of_find?_eq_some hfind) hname]

theorem readCallback_of_values (herror : ∀ p ∈ url.queryPairs, p.1 ≠ "error")
    (hcode : firstValue url "code" = some code) (hblank : ¬Blank code)
    (hstate : firstValue url "state" = some state) : readCallback url = .ok (code, state) := by
  have hnonempty : (trim code.toList).isEmpty = false := by
    rw [List.isEmpty_eq_false_iff, ne_eq, trim_eq_nil]
    exact hblank
  rw [readCallback, firstValue_eq_none.mpr herror, hcode]
  simp only [hnonempty, hstate]
  rfl

theorem readCallback_ne_ok (h : ∃ p ∈ url.queryPairs, p.1 = "error") (result : String × String) :
    readCallback url ≠ .ok result := by
  intro hok
  obtain ⟨p, hp, hname⟩ := h
  exact firstValue_eq_none.mp (readCallback_eq_ok hok).1 p hp hname

theorem readCallback_of_perm (hblank : ¬Blank code)
    (hextras : ∀ p ∈ extras, p.1 ≠ "code" ∧ p.1 ≠ "state" ∧ p.1 ≠ "error")
    (hperm : url.queryPairs.Perm (("code", code) :: ("state", state) :: extras)) :
    readCallback url = .ok (code, state) := by
  have hmem (p : String × String) :
      p ∈ url.queryPairs ↔ p = ("code", code) ∨ p = ("state", state) ∨ p ∈ extras := by
    rw [hperm.mem_iff, List.mem_cons, List.mem_cons]
  have hcode : firstValue url "code" = some code := by
    apply firstValue_eq_some_of_only ((hmem _).mpr (Or.inl rfl))
    intro p hp hname
    rcases (hmem p).mp hp with rfl | rfl | hp
    · rfl
    · exact absurd hname (by simp)
    · exact absurd hname (hextras p hp).1
  have hstate : firstValue url "state" = some state := by
    apply firstValue_eq_some_of_only ((hmem _).mpr (Or.inr (Or.inl rfl)))
    intro p hp hname
    rcases (hmem p).mp hp with rfl | rfl | hp
    · exact absurd hname (by simp)
    · rfl
    · exact absurd hname (hextras p hp).2.1
  apply readCallback_of_values _ hcode hblank hstate
  intro p hp
  rcases (hmem p).mp hp with rfl | rfl | hp
  · simp
  · simp
  · exact (hextras p hp).2.2

end Reading

section Targets

variable {parse : String → Except String Url}

theorem parseCallbackTarget_callbackTarget (hparse : ParsesForms parse) (port : UInt16)
    (pairs : List (String × String)) :
    parseCallbackTarget parse port.toNat (callbackTarget pairs) = readCallback ⟨"/", pairs⟩ := by
  have hurl := hparse.loopback port (FormEncoding.serial_serialize pairs)
  rw [FormEncoding.parse_serialize] at hurl
  rw [parseCallbackTarget, callbackTarget, hurl]
  rfl

/-- The code and the state come back as they were, and never when there is an error. -/
theorem parseCallbackTarget_inverts (hparse : ParsesForms parse) (port : UInt16) :
    (∀ (code state : String) (extras pairs : List (String × String)), ¬Blank code →
      (∀ p ∈ extras, p.1 ≠ "code" ∧ p.1 ≠ "state" ∧ p.1 ≠ "error") →
      pairs.Perm (("code", code) :: ("state", state) :: extras) →
        parseCallbackTarget parse port.toNat (callbackTarget pairs) = .ok (code, state)) ∧
      ∀ pairs : List (String × String), (∃ p ∈ pairs, p.1 = "error") →
        ∀ result, parseCallbackTarget parse port.toNat (callbackTarget pairs) ≠ .ok result := by
  constructor
  · intro code state extras pairs hblank hextras hperm
    rw [parseCallbackTarget_callbackTarget hparse]
    exact readCallback_of_perm hblank hextras hperm
  · intro pairs herror result
    rw [parseCallbackTarget_callbackTarget hparse]
    exact readCallback_ne_ok herror result

end Targets

section Example

def parseLoopback (text : String) : Except String Url :=
  .ok ⟨"/", FormEncoding.parse ((text.toList.dropWhile (· ≠ '?')).drop 1)⟩

theorem loopbackUrl_query (port : Nat) (query : List Char) :
    ∃ front, '?' ∉ front ∧
      (loopbackUrl port ("/?" ++ String.ofList query)).toList = front ++ '?' :: query := by
  refine ⟨"http://127.0.0.1:".toList ++ ((Nat.repr port).toList ++ ['/']), ?_, ?_⟩
  · intro h
    rcases List.mem_append.mp h with hscheme | h
    · revert hscheme
      decide
    rcases List.mem_append.mp h with hport | hslash
    · have hdigit := Decimal.digit_of_mem_repr hport
      revert hdigit
      decide
    · revert hslash
      decide
  · have hquery (scheme digits : String) :
        (scheme ++ digits ++ ("/?" ++ String.ofList query)).toList =
          scheme.toList ++ (digits.toList ++ ['/']) ++ '?' :: query := by
      simp
    exact hquery _ _

theorem parseLoopback_parsesForms : ParsesForms parseLoopback := by
  constructor
  intro port query _
  obtain ⟨front, hfront, htext⟩ := loopbackUrl_query port.toNat query
  have hdrop : ∀ c ∈ front, decide (c ≠ '?') = true := by
    intro c hc
    rw [decide_eq_true_eq]
    rintro rfl
    exact hfront hc
  rw [parseLoopback, htext, List.dropWhile_append_of_pos hdrop]
  rfl

theorem parseCallbackTarget_inverts_example :
    parseCallbackTarget parseLoopback 9876 (callbackTarget
      [("scope", "a"), ("state", "x+&=%"), ("scope", "b"), ("code", "4/é #")]) =
        .ok ("4/é #", "x+&=%") ∧
      ∀ result, parseCallbackTarget parseLoopback 9876 (callbackTarget
        [("code", "4/é #"), ("state", "x+&=%"), ("error", "")]) ≠ .ok result := by
  have hinverts := parseCallbackTarget_inverts parseLoopback_parsesForms 9876
  constructor
  · apply hinverts.1 _ _ [("scope", "a"), ("scope", "b")]
    · intro hblank
      have hfour := hblank '4' (by decide)
      revert hfour
      decide
    · simp
    · decide
  · exact hinverts.2 _ ⟨("error", ""), by simp, rfl⟩

end Example

end Fumiko.OAuth
