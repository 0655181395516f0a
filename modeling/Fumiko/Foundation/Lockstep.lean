import Fumiko.Foundation.Action

namespace Fumiko.Foundation.Action

variable {σ τ ε δ α β γ κ : Type}

inductive Outcomes (Q : α → β → Prop) : Except ε α → Except ε β → Prop
  | ok {a b} (h : Q a b) : Outcomes Q (.ok a) (.ok b)
  | error (e : ε) : Outcomes Q (.error e) (.error e)

theorem Outcomes.eq {r r' : Except ε α} (h : Outcomes Eq r r') : r = r' := by
  cases h with
  | ok h => rw [h]
  | error => rfl

theorem outcomes_refl (r : Except ε α) : Outcomes Eq r r := by
  cases r with
  | ok a => exact .ok rfl
  | error e => exact .error e

theorem outcomes_of_map {r : Except ε α} {r' : Except ε β} {f : α → γ} {g : β → γ} (h : r'.map g = r.map f) :
    Outcomes (fun a b => (r = .ok a ∧ r' = .ok b) ∧ g b = f a) r r' := by
  cases r with
  | error e =>
    cases r' with
    | error e' =>
      cases h
      exact .error e
    | ok b => cases h
  | ok a =>
    cases r' with
    | error e' => cases h
    | ok b => exact .ok ⟨⟨rfl, rfl⟩, Except.ok.inj h⟩

structure Lockstep (R : σ → τ → Prop) (Q : α → β → Prop) (x : Action σ ε α) (y : Action τ ε β) : Prop where
  run : ∀ s t, R s t → Outcomes Q (x s).1 (y t).1 ∧ R (x s).2 (y t).2

variable {R : σ → τ → Prop} {Q : α → β → Prop} {P : γ → κ → Prop}

theorem Outcomes.mono {Q' : α → β → Prop} {r : Except ε α} {r' : Except ε β} (h : Outcomes Q r r')
    (hQ : ∀ a b, Q a b → Q' a b) : Outcomes Q' r r' := by
  cases h with
  | ok h => exact .ok (hQ _ _ h)
  | error e => exact .error e

theorem Lockstep.mono {Q' : α → β → Prop} {x : Action σ ε α} {y : Action τ ε β} (h : Lockstep R Q x y)
    (hQ : ∀ a b, Q a b → Q' a b) : Lockstep R Q' x y :=
  ⟨fun s t hst => ⟨(h.run s t hst).1.mono hQ, (h.run s t hst).2⟩⟩

theorem lockstep_pure {a : α} {b : β} (h : Q a b) :
    Lockstep R Q (pure a : Action σ ε α) (pure b : Action τ ε β) := ⟨fun _ _ hst => ⟨.ok h, hst⟩⟩

theorem lockstep_raise (e : ε) : Lockstep R Q (raise e : Action σ ε α) (raise e : Action τ ε β) :=
  ⟨fun _ _ hst => ⟨.error e, hst⟩⟩

theorem lockstep_step {f : σ → α × σ} {g : τ → β × τ}
    (h : ∀ s t, R s t → Q (f s).1 (g t).1 ∧ R (f s).2 (g t).2) :
    Lockstep R Q (step f : Action σ ε α) (step g : Action τ ε β) := by
  constructor
  intro s t hst
  obtain ⟨hQ, hnext⟩ := h s t hst
  exact ⟨.ok hQ, hnext⟩

theorem lockstep_read {f : σ → α} {g : τ → β} (h : ∀ s t, R s t → Q (f s) (g t)) :
    Lockstep R Q (read f : Action σ ε α) (read g : Action τ ε β) :=
  ⟨fun s t hst => ⟨.ok (h s t hst), hst⟩⟩

theorem lockstep_update {f : σ → σ} {g : τ → τ} (h : ∀ s t, R s t → R (f s) (g t)) :
    Lockstep R Eq (update f : Action σ ε Unit) (update g : Action τ ε Unit) :=
  ⟨fun s t hst => ⟨.ok rfl, h s t hst⟩⟩

theorem lockstep_bind_at {x : Action σ ε α} {y : Action τ ε β} {f : α → Action σ ε γ} {g : β → Action τ ε κ}
    {s : σ} {t : τ} (hxy : Outcomes Q (x s).1 (y t).1 ∧ R (x s).2 (y t).2)
    (hfg : ∀ a b, Q a b → Lockstep R P (f a) (g b)) :
    Outcomes P ((x >>= f) s).1 ((y >>= g) t).1 ∧ R ((x >>= f) s).2 ((y >>= g) t).2 := by
  obtain ⟨hr, hnext⟩ := hxy
  rw [bind_run, bind_run]
  rcases hx : x s with ⟨e | a, s'⟩ <;> rcases hy : y t with ⟨e' | b, t'⟩ <;> rw [hx, hy] at hr hnext
  · cases hr
    exact ⟨.error e, hnext⟩
  · cases hr
  · cases hr
  · cases hr with
    | ok hQ => exact (hfg a b hQ).run s' t' hnext

theorem lockstep_bind {x : Action σ ε α} {y : Action τ ε β} {f : α → Action σ ε γ} {g : β → Action τ ε κ}
    (hxy : Lockstep R Q x y) (hfg : ∀ a b, Q a b → Lockstep R P (f a) (g b)) :
    Lockstep R P (x >>= f) (y >>= g) := ⟨fun s t hst => lockstep_bind_at (hxy.run s t hst) hfg⟩

theorem lockstep_attempt {x : Action σ ε α} {y : Action τ ε β} (h : Lockstep R Q x y) :
    Lockstep R (Outcomes Q) (attempt x : Action σ δ _) (attempt y : Action τ δ _) :=
  ⟨fun s t hst => ⟨.ok (h.run s t hst).1, (h.run s t hst).2⟩⟩

theorem lockstep_ignore {x : Action σ ε α} {y : Action τ ε β} (h : Lockstep R Q x y) :
    Lockstep R Eq (ignore x : Action σ δ Unit) (ignore y : Action τ δ Unit) :=
  ⟨fun s t hst => ⟨.ok rfl, (h.run s t hst).2⟩⟩

theorem lockstep_mapError {f : ε → δ} {x : Action σ ε α} {y : Action τ ε β} (h : Lockstep R Q x y) :
    Lockstep R Q (mapError f x) (mapError f y) := by
  constructor
  intro s t hst
  obtain ⟨hr, hnext⟩ := h.run s t hst
  rw [mapError, mapError]
  rcases hx : x s with ⟨e | a, s'⟩ <;> rcases hy : y t with ⟨e' | b, t'⟩ <;> rw [hx, hy] at hr hnext
  · cases hr
    exact ⟨.error _, hnext⟩
  · cases hr
  · cases hr
  · cases hr with
    | ok hQ => exact ⟨.ok hQ, hnext⟩

section Uniform

abbrev Uniform (R : σ → σ → Prop) (x : Action σ ε α) : Prop := Lockstep R Eq x x

variable {R : σ → σ → Prop}

theorem uniform_pure (a : α) : Uniform R (pure a : Action σ ε α) := lockstep_pure rfl

theorem uniform_raise (e : ε) : Uniform R (raise e : Action σ ε α) := lockstep_raise e

theorem uniform_bind {x : Action σ ε α} {f : α → Action σ ε γ} (hx : Uniform R x) (hf : ∀ a, Uniform R (f a)) :
    Uniform R (x >>= f) := by
  apply lockstep_bind hx
  rintro a _ rfl
  exact hf a

theorem uniform_attempt {x : Action σ ε α} (hx : Uniform R x) : Uniform R (attempt x : Action σ δ _) :=
  (lockstep_attempt hx).mono fun _ _ => Outcomes.eq

theorem Lockstep.with {P : α → Prop} {x : Action σ ε α} (hx : Uniform R x)
    (hP : ∀ s t a, R s t → (x s).1 = .ok a → P a) : Lockstep R (fun a b => b = a ∧ P a) x x := by
  constructor
  intro s t hst
  obtain ⟨hr, hnext⟩ := hx.run s t hst
  refine ⟨?_, hnext⟩
  rw [← hr.eq]
  cases ha : (x s).1 with
  | ok a => exact .ok ⟨rfl, hP s t a hst ha⟩
  | error e => exact .error e

theorem uniform_bind_read {x : Action σ ε α} {f : σ → γ} {g : α → γ → Action σ ε β} {P : α → γ → Prop}
    (hx : Uniform R x) (hf : ∀ s t, R s t → f s = f t)
    (hP : ∀ s t a u, R s t → x s = (.ok a, u) → P a (f u)) (hg : ∀ a c, P a c → Uniform R (g a c)) :
    Uniform R (x >>= fun a => read f >>= g a) := by
  have hpair : Uniform R (x >>= fun a => read f >>= fun c => pure (a, c)) :=
    uniform_bind hx fun a => uniform_bind (lockstep_read hf) fun c => uniform_pure _
  have hknown := hpair.with (P := fun r => P r.1 r.2) ?_
  · have hrest := lockstep_bind hknown (f := fun r => g r.1 r.2) (g := fun r => g r.1 r.2)
      (by rintro _ r ⟨rfl, hr⟩; exact hg _ _ hr)
    simpa only [bind_assoc, pure_bind] using hrest
  · intro s t r hst hok
    obtain ⟨a, u, ha, hread⟩ := bind_eq_ok.mp (Prod.ext hok rfl)
    cases hread
    exact hP s t a _ hst ha

theorem uniform_liftExcept (r : Except ε α) : Uniform R (liftExcept r : Action σ ε α) := by
  cases r with
  | ok a => exact uniform_pure a
  | error e => exact uniform_raise e

theorem uniform_forEach {f : α → Action σ ε Unit} (hf : ∀ a, Uniform R (f a)) (as : List α) :
    Uniform R (forEach f as) := by
  induction as with
  | nil => exact uniform_pure ()
  | cons a as ih => exact uniform_bind (hf a) fun _ => ih

theorem uniform_collect {f : α → Action σ ε γ} (hf : ∀ a, Uniform R (f a)) (as : List α) :
    Uniform R (collect f as : Action σ δ _) := by
  induction as with
  | nil => exact uniform_pure _
  | cons a as ih => exact uniform_bind (uniform_attempt (hf a)) fun _ => uniform_bind ih fun _ => uniform_pure _

end Uniform

end Fumiko.Foundation.Action
