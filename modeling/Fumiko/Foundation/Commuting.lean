import Fumiko.Foundation.Action

namespace Fumiko.Foundation

namespace Action

variable {σ ε α β : Type}

structure Commutes (x : Action σ ε α) (y : Action σ ε β) (s : σ) : Prop where
  first : (x (y s).2).1 = (x s).1
  second : (y (x s).2).1 = (y s).1
  state : (y (x s).2).2 = (x (y s).2).2

section Commutes

variable {x : Action σ ε α} {y : Action σ ε β} {s : σ}

theorem Commutes.symm (h : Commutes x y s) : Commutes y x s := ⟨h.second, h.first, h.state.symm⟩

theorem commutes_raise (x : Action σ ε α) (e : ε) (s : σ) : Commutes x (raise e : Action σ ε β) s :=
  ⟨rfl, rfl, rfl⟩

end Commutes

end Action

section Rows

variable {ρ : Type}

def rewriteRows (p : ρ → Bool) (f : ρ → ρ) (l : List ρ) : List ρ := l.map fun a => if p a then f a else a

theorem rewriteRows_comm {p q : ρ → Bool} {f g : ρ → ρ} (hp : ∀ a, p (g a) = p a)
    (hq : ∀ a, q (f a) = q a) (hfg : ∀ a, f (g a) = g (f a)) (l : List ρ) :
    rewriteRows p f (rewriteRows q g l) = rewriteRows q g (rewriteRows p f l) := by
  induction l with
  | nil => rfl
  | cons a l ih =>
    have hhead : (if p (if q a then g a else a) then f (if q a then g a else a) else if q a then g a else a) =
        if q (if p a then f a else a) then g (if p a then f a else a) else if p a then f a else a := by
      cases hpa : p a <;> cases hqa : q a <;> simp [hpa, hqa, hp, hq, hfg]
    exact congrArg₂ List.cons hhead ih

end Rows

end Fumiko.Foundation
