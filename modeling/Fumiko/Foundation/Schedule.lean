import Mathlib.Data.List.InsertIdx
import Mathlib.Data.List.Perm.Basic

namespace Fumiko.Foundation

variable {α β : Type}

def arrange : List Nat → List α → List α
  | _, [] => []
  | [], l => l
  | n :: ns, a :: l =>
    let i := n % (l.length + 1)
    match (a :: l)[i]? with
    | some b => b :: arrange ns ((a :: l).eraseIdx i)
    | none => a :: l

theorem arrange_perm (ns : List Nat) (l : List α) : (arrange ns l).Perm l := by
  induction ns generalizing l with
  | nil => cases l <;> rfl
  | cons n ns ih =>
    cases l with
    | nil => rfl
    | cons a l =>
      have hi : n % (l.length + 1) < (a :: l).length := Nat.mod_lt _ (Nat.succ_pos _)
      simp only [arrange, List.getElem?_eq_getElem hi]
      exact ((ih _).cons _).trans (List.getElem_cons_eraseIdx_perm hi)

@[simp] theorem mem_arrange {ns : List Nat} {l : List α} {a : α} : a ∈ arrange ns l ↔ a ∈ l :=
  (arrange_perm ns l).mem_iff

theorem arrange_map (f : α → β) (ns : List Nat) (l : List α) :
    arrange ns (l.map f) = (arrange ns l).map f := by
  induction ns generalizing l with
  | nil => cases l <;> rfl
  | cons n ns ih =>
    cases l with
    | nil => rfl
    | cons a l =>
      rw [List.map_cons, arrange, arrange, List.length_map, ← List.map_cons, List.getElem?_map]
      cases (a :: l)[n % (l.length + 1)]? with
      | none => rfl
      | some b =>
        simp only [Option.map_some, List.map_cons]
        rw [← List.map_cons, List.eraseIdx_map, ih]

theorem arrange_nil (l : List α) : arrange [] l = l := by cases l <;> rfl

end Fumiko.Foundation
