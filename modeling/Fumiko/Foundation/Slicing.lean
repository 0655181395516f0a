import Fumiko.Foundation.Text

namespace Fumiko.Foundation.Slicing

def octets : List Char → Nat
  | [] => 0
  | c :: text => c.utf8Size + octets text

/-- `str::split_at`, which panics where the offset lies inside a character or behind the end. -/
def splitAt : Nat → List Char → Option (List Char × List Char)
  | 0, text => some ([], text)
  | _ + 1, [] => none
  | n + 1, c :: text =>
    if c.utf8Size ≤ n + 1 then (splitAt (n + 1 - c.utf8Size) text).map fun p => (c :: p.1, p.2)
    else none

def slice (start stop : Nat) (text : List Char) : Option (List Char) := do
  let (front, _) ← splitAt stop text
  let (_, piece) ← splitAt start front
  some piece

def find (c : Char) : List Char → Option Nat
  | [] => none
  | d :: text => if d = c then some 0 else (find c text).map (d.utf8Size + ·)

def rfind (c : Char) : List Char → Option Nat
  | [] => none
  | d :: text =>
    match rfind c text with
    | some n => some (d.utf8Size + n)
    | none => if d = c then some 0 else none

section Octets

@[simp] theorem octets_append (a b : List Char) : octets (a ++ b) = octets a + octets b := by
  induction a with
  | nil => simp [octets]
  | cons c a ih => simp [octets, ih, Nat.add_assoc]

theorem octets_pos {text : List Char} (h : text ≠ []) : 0 < octets text := by
  cases text with
  | nil => exact absurd rfl h
  | cons c text =>
    have hsize := c.utf8Size_pos
    rw [octets]
    omega

theorem splitAt_octets (a b : List Char) : splitAt (octets a) (a ++ b) = some (a, b) := by
  induction a with
  | nil => simp [octets, splitAt]
  | cons c a ih =>
    have hsize := c.utf8Size_pos
    obtain ⟨n, hn⟩ : ∃ n, octets (c :: a) = n + 1 := Nat.exists_eq_add_one.mpr (octets_pos (by simp))
    have hrest : n + 1 - c.utf8Size = octets a := by
      rw [octets] at hn
      omega
    have hle : c.utf8Size ≤ n + 1 := by
      rw [octets] at hn
      omega
    rw [hn, List.cons_append, splitAt, if_pos hle, hrest, ih]
    rfl

theorem slice_octets (a b c : List Char) :
    slice (octets a) (octets (a ++ b)) (a ++ b ++ c) = some b := by
  rw [slice, splitAt_octets]
  simp only [Option.bind_eq_bind, Option.bind_some, splitAt_octets]

end Octets

section Search

variable {c : Char}

theorem find_eq_none {text : List Char} : find c text = none ↔ c ∉ text := by
  induction text with
  | nil => simp [find]
  | cons d text ih =>
    by_cases hd : d = c
    · simp [find, hd]
    · simp [find, hd, ih, Ne.symm hd]

theorem find_append {front : List Char} (h : c ∉ front) (back : List Char) :
    find c (front ++ c :: back) = some (octets front) := by
  induction front with
  | nil => simp [find, octets]
  | cons d front ih =>
    simp only [List.mem_cons, not_or] at h
    simp [find, octets, Ne.symm h.1, ih h.2]

theorem rfind_eq_none {text : List Char} : rfind c text = none ↔ c ∉ text := by
  induction text with
  | nil => simp [rfind]
  | cons d text ih =>
    rw [rfind]
    cases hfind : rfind c text with
    | some n =>
      have hmem : c ∈ text := by
        by_contra hmem
        rw [ih.mpr hmem] at hfind
        cases hfind
      simp [hmem]
    | none =>
      have hmem := ih.mp hfind
      simp [hmem, eq_comm]

theorem rfind_append (front : List Char) {back : List Char} (h : c ∉ back) :
    rfind c (front ++ c :: back) = some (octets front) := by
  induction front with
  | nil => simp [rfind, octets, rfind_eq_none.mpr h]
  | cons d front ih => simp [rfind, octets, ih]

end Search

end Fumiko.Foundation.Slicing
