import Mathlib.Logic.Basic

namespace Fumiko.Foundation

/-- An update that comes again, at once or after another one, has the last word: what it did
the first time no longer matters. -/
structure Overwriting {ι α : Type} (f : ι → α → α) : Prop where
  again (i : ι) (a : α) : f i (f i a) = f i a
  across (i j : ι) (a : α) : f i (f j (f i a)) = f i (f j a)

def overwriteAll {ι α : Type} (f : ι → α → α) : List ι → α → α
  | [], a => a
  | i :: l, a => overwriteAll f l (f i a)

section Runs

variable {ι α : Type} {f : ι → α → α} {l : List ι} {i : ι} {a b : α}

theorem overwriteAll_append (l l' : List ι) (a : α) :
    overwriteAll f (l ++ l') a = overwriteAll f l' (overwriteAll f l a) := by
  induction l generalizing a with
  | nil => rfl
  | cons i l ih => exact ih (f i a)

theorem overwriteAll_of_fixed (h : ∀ i ∈ l, f i a = a) : overwriteAll f l a = a := by
  induction l with
  | nil => rfl
  | cons i l ih =>
    rw [overwriteAll, h i List.mem_cons_self]
    exact ih fun j hj => h j (List.mem_cons_of_mem i hj)

theorem overwriteAll_comm {g : α → α} (hg : ∀ i a, f i (g a) = g (f i a)) (l : List ι) (a : α) :
    overwriteAll f l (g a) = g (overwriteAll f l a) := by
  induction l generalizing a with
  | nil => rfl
  | cons i l ih => rw [overwriteAll, hg, ih, overwriteAll]

namespace Overwriting

variable (hf : Overwriting f)
include hf

theorem congr (h : f i a = f i b) (l : List ι) : f i (overwriteAll f l a) = f i (overwriteAll f l b) := by
  induction l generalizing a b with
  | nil => exact h
  | cons j l ih =>
    have hj : f i (f j a) = f i (f j b) := by rw [← hf.across, h, hf.across]
    exact ih hj

theorem settles (h : overwriteAll f l a = a) : overwriteAll f (l ++ [i]) (f i a) = f i a := by
  rw [overwriteAll_append]
  change f i (overwriteAll f l (f i a)) = f i a
  calc
    f i (overwriteAll f l (f i a)) = f i (overwriteAll f l a) := hf.congr (hf.again i a) l
    _ = f i a := by rw [h]

end Overwriting

end Runs

end Fumiko.Foundation
