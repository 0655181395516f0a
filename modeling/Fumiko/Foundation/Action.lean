import Mathlib.Data.List.Forall2
import Mathlib.Order.Defs.Unbundled

/-! Fallible stateful programs, read as functions from a state to an outcome and the
state they leave behind.  An error does not undo the state: this is the meaning of an
early return from a function that has already written somewhere. -/

namespace Fumiko.Foundation

def Action (σ ε α : Type) : Type := σ → Except ε α × σ

namespace Action

variable {σ ε δ α β : Type}

def ret (a : α) : Action σ ε α := fun s => (.ok a, s)

def andThen (x : Action σ ε α) (f : α → Action σ ε β) : Action σ ε β := fun s =>
  match x s with
  | (.ok a, t) => f a t
  | (.error e, t) => (.error e, t)

instance : Monad (Action σ ε) where
  pure := ret
  bind := andThen

def raise (e : ε) : Action σ ε α := fun s => (.error e, s)

/-- Runs a program and hands its outcome over as a value, so that the caller decides
what an error means. -/
def attempt (x : Action σ ε α) : Action σ δ (Except ε α) := fun s =>
  let (r, t) := x s
  (.ok r, t)

def ignore (x : Action σ ε α) : Action σ δ Unit := fun s => (.ok (), (x s).2)

def mapError (f : ε → δ) (x : Action σ ε α) : Action σ δ α := fun s =>
  match x s with
  | (.ok a, t) => (.ok a, t)
  | (.error e, t) => (.error (f e), t)

def liftExcept : Except ε α → Action σ ε α
  | .ok a => ret a
  | .error e => raise e

def read (f : σ → α) : Action σ ε α := fun s => (.ok (f s), s)

def update (f : σ → σ) : Action σ ε Unit := fun s => (.ok (), f s)

def step (f : σ → α × σ) : Action σ ε α := fun s => (.ok (f s).1, (f s).2)

def forEach (f : α → Action σ ε Unit) : List α → Action σ ε Unit
  | [] => ret ()
  | a :: as => andThen (f a) fun _ => forEach f as

def focus {τ : Type} (get : σ → τ) (put : τ → σ → σ) (x : Action τ ε α) : Action σ ε α := fun s =>
  let (r, t) := x (get s)
  (r, put t s)

def collect (f : α → Action σ ε β) : List α → Action σ δ (List (Except ε β))
  | [] => ret []
  | a :: as => andThen (attempt (f a)) fun r => andThen (collect f as) fun rs => ret (r :: rs)

@[simp] theorem pure_run (a : α) (s : σ) : (pure a : Action σ ε α) s = (.ok a, s) := rfl

theorem bind_run (x : Action σ ε α) (f : α → Action σ ε β) (s : σ) :
    (x >>= f) s = match x s with
      | (.ok a, t) => f a t
      | (.error e, t) => (.error e, t) := rfl

theorem id_map_run (x : Action σ ε α) : id <$> x = x := by
  funext s
  change (match x s with | (.ok a, t) => (.ok (id a), t) | (.error e, t) => (.error e, t)) = x s
  rcases x s with ⟨e | a, t⟩ <;> rfl

theorem bind_assoc_run {γ : Type} (x : Action σ ε α) (f : α → Action σ ε β) (g : β → Action σ ε γ) :
    x >>= f >>= g = x >>= fun a => f a >>= g := by
  funext s
  simp only [bind_run]
  rcases x s with ⟨e | a, t⟩ <;> rfl

instance : LawfulMonad (Action σ ε) :=
  LawfulMonad.mk' _ id_map_run (fun _ _ => rfl) bind_assoc_run

@[simp] theorem raise_run (e : ε) (s : σ) : (raise e : Action σ ε α) s = (.error e, s) := rfl

@[simp] theorem attempt_run (x : Action σ ε α) (s : σ) :
    (attempt x : Action σ δ (Except ε α)) s = (.ok (x s).1, (x s).2) := rfl

@[simp] theorem ignore_run (x : Action σ ε α) (s : σ) :
    (ignore x : Action σ δ Unit) s = (.ok (), (x s).2) := rfl

@[simp] theorem read_run (f : σ → α) (s : σ) : (read f : Action σ ε α) s = (.ok (f s), s) := rfl

@[simp] theorem update_run (f : σ → σ) (s : σ) : (update f : Action σ ε Unit) s = (.ok (), f s) := rfl

@[simp] theorem step_run (f : σ → α × σ) (s : σ) :
    (step f : Action σ ε α) s = (.ok (f s).1, (f s).2) := rfl

theorem bind_eq_ok {x : Action σ ε α} {f : α → Action σ ε β} {s t : σ} {b : β} :
    (x >>= f) s = (.ok b, t) ↔ ∃ a u, x s = (.ok a, u) ∧ f a u = (.ok b, t) := by
  rw [bind_run]
  rcases h : x s with ⟨e | a, u⟩
  · simp
  · constructor
    · exact fun hf => ⟨a, u, rfl, hf⟩
    · rintro ⟨a', u', heq, hf⟩
      cases heq
      exact hf

theorem bind_eq_error {x : Action σ ε α} {f : α → Action σ ε β} {s t : σ} {e : ε} :
    (x >>= f) s = (.error e, t) ↔
      x s = (.error e, t) ∨ ∃ a u, x s = (.ok a, u) ∧ f a u = (.error e, t) := by
  rw [bind_run]
  rcases h : x s with ⟨e' | a, u⟩
  · simp
  · constructor
    · exact fun hf => Or.inr ⟨a, u, rfl, hf⟩
    · rintro (heq | ⟨a', u', heq, hf⟩)
      · cases heq
      · cases heq
        exact hf

theorem bind_cases {x : Action σ ε α} {f : α → Action σ ε β} {s t : σ} {r : Except ε β}
    (h : (x >>= f) s = (r, t)) :
    (∃ e, x s = (.error e, t) ∧ r = .error e) ∨ ∃ a u, x s = (.ok a, u) ∧ f a u = (r, t) := by
  rw [bind_run] at h
  rcases hx : x s with ⟨e | a, u⟩ <;> rw [hx] at h
  · cases h
    exact Or.inl ⟨e, rfl, rfl⟩
  · exact Or.inr ⟨a, u, rfl, h⟩

theorem attempt_bind {x : Action σ ε α} {f : Except ε α → Action σ δ β} {s t : σ} {r : Except δ β}
    (h : (attempt x >>= f) s = (r, t)) : ∃ outcome u, x s = (outcome, u) ∧ f outcome u = (r, t) :=
  ⟨_, _, rfl, h⟩

theorem mapError_eq_ok {f : ε → δ} {x : Action σ ε α} {s t : σ} {a : α} :
    mapError f x s = (.ok a, t) ↔ x s = (.ok a, t) := by
  rw [mapError]
  rcases h : x s with ⟨e | b, u⟩ <;> simp

theorem mapError_eq_error {f : ε → δ} {x : Action σ ε α} {s t : σ} {e' : δ} :
    mapError f x s = (.error e', t) ↔ ∃ e, x s = (.error e, t) ∧ f e = e' := by
  rw [mapError]
  rcases h : x s with ⟨e | b, u⟩
  · constructor
    · intro heq
      cases heq
      exact ⟨e, rfl, rfl⟩
    · rintro ⟨e₁, heq, rfl⟩
      cases heq
      rfl
  · simp

theorem mapError_state (f : ε → δ) (x : Action σ ε α) (s : σ) : (mapError f x s).2 = (x s).2 := by
  rw [mapError]
  rcases x s with ⟨e | b, u⟩ <;> rfl

theorem collect_forall₂ {f : α → Action σ ε β} {P : α → Except ε β → Prop} (hf : ∀ a s, P a (f a s).1)
    (as : List α) (s : σ) :
    ∃ rs t, (collect f as : Action σ δ _) s = (.ok rs, t) ∧ List.Forall₂ P as rs := by
  induction as generalizing s with
  | nil => exact ⟨[], s, rfl, .nil⟩
  | cons a as ih =>
    obtain ⟨rs, t, hrs, hforall⟩ := ih (f a s).2
    refine ⟨(f a s).1 :: rs, t, ?_, .cons (hf a s) hforall⟩
    change (collect f as >>= fun rs => pure ((f a s).1 :: rs) : Action σ δ _) (f a s).2 = _
    rw [bind_run, hrs]
    rfl

/-- Whatever its outcome, the program only moves the state along `R`. -/
structure Moves (R : σ → σ → Prop) (x : Action σ ε α) : Prop where
  run : ∀ s, R s (x s).2

section Moves

variable {R : σ → σ → Prop}

theorem Moves.mono {S : σ → σ → Prop} {x : Action σ ε α} (h : Moves R x)
    (hRS : ∀ s t, R s t → S s t) : Moves S x := ⟨fun s => hRS s _ (h.run s)⟩

theorem Moves.of_eq {x : Action σ ε α} (h : Moves R x) {s t : σ} {r : Except ε α}
    (hx : x s = (r, t)) : R s t := by
  have hs := h.run s
  rwa [hx] at hs

theorem moves_raise [Std.Refl R] (e : ε) : Moves R (raise e : Action σ ε α) :=
  ⟨fun s => Std.Refl.refl s⟩

theorem moves_pure [Std.Refl R] (a : α) : Moves R (pure a : Action σ ε α) :=
  ⟨fun s => Std.Refl.refl s⟩

theorem moves_read [Std.Refl R] (f : σ → α) : Moves R (read f : Action σ ε α) :=
  ⟨fun s => Std.Refl.refl s⟩

theorem moves_update {f : σ → σ} (h : ∀ s, R s (f s)) : Moves R (update f : Action σ ε Unit) := ⟨h⟩

theorem moves_step {f : σ → α × σ} (h : ∀ s, R s (f s).2) : Moves R (step f : Action σ ε α) := ⟨h⟩

theorem moves_bind_of [IsTrans σ R] {x : Action σ ε α} {f : α → Action σ ε β} (hx : Moves R x)
    (hf : ∀ s a t, x s = (.ok a, t) → R t (f a t).2) : Moves R (x >>= f) := by
  constructor
  intro s
  have hs := hx.run s
  rw [bind_run]
  rcases h : x s with ⟨e | a, u⟩ <;> rw [h] at hs
  · exact hs
  · exact IsTrans.trans _ _ _ hs (hf s a u h)

theorem moves_bind [IsTrans σ R] {x : Action σ ε α} {f : α → Action σ ε β}
    (hx : Moves R x) (hf : ∀ a, Moves R (f a)) : Moves R (x >>= f) :=
  moves_bind_of hx fun _ a t _ => (hf a).run t

theorem moves_attempt {x : Action σ ε α} (hx : Moves R x) :
    Moves R (attempt x : Action σ δ (Except ε α)) := ⟨hx.run⟩

theorem moves_ignore {x : Action σ ε α} (hx : Moves R x) :
    Moves R (ignore x : Action σ δ Unit) := ⟨hx.run⟩

theorem moves_mapError {f : ε → δ} {x : Action σ ε α} (hx : Moves R x) :
    Moves R (mapError f x) := by
  constructor
  intro s
  rw [mapError_state]
  exact hx.run s

theorem moves_liftExcept [Std.Refl R] (r : Except ε α) : Moves R (liftExcept r : Action σ ε α) := by
  cases r with
  | ok a => exact moves_pure a
  | error e => exact moves_raise e

theorem moves_forEach [Std.Refl R] [IsTrans σ R] {f : α → Action σ ε Unit} (hf : ∀ a, Moves R (f a))
    (as : List α) : Moves R (forEach f as) := by
  induction as with
  | nil => exact moves_pure ()
  | cons a as ih => exact moves_bind (hf a) fun _ => ih

end Moves

section Frames

variable {τ : Type} {I : σ → Prop} {R : σ → σ → Prop}

def Keeps (f : σ → τ) (s t : σ) : Prop := f t = f s

instance (f : σ → τ) : Std.Refl (Keeps f) := ⟨fun _ => rfl⟩

instance (f : σ → τ) : IsTrans σ (Keeps f) := ⟨fun _ _ _ hst htu => htu.trans hst⟩

/-- The steps that keep `I`, and move along `R` where `I` holds. -/
def Guarded (I : σ → Prop) (R : σ → σ → Prop) (s t : σ) : Prop := I s → I t ∧ R s t

instance [Std.Refl R] : Std.Refl (Guarded I R) := ⟨fun s hs => ⟨hs, Std.Refl.refl s⟩⟩

instance [IsTrans σ R] : IsTrans σ (Guarded I R) where
  trans _ _ _ hst htu hs :=
    ⟨(htu (hst hs).1).1, IsTrans.trans _ _ _ (hst hs).2 (htu (hst hs).1).2⟩

/-- The steps that keep `I`. -/
def Preserves (I : σ → Prop) (s t : σ) : Prop := I s → I t

instance (I : σ → Prop) : Std.Refl (Preserves I) := ⟨fun _ => id⟩

instance (I : σ → Prop) : IsTrans σ (Preserves I) := ⟨fun _ _ _ hst htu hs => htu (hst hs)⟩

theorem moves_preserves_bind {x : Action σ ε α} {f : α → Action σ ε β} (hx : Moves (Preserves I) x)
    (hf : ∀ s a t, I s → I t → x s = (.ok a, t) → I (f a t).2) :
    Moves (Preserves I) (x >>= f) := by
  constructor
  intro s hs
  have ht := hx.run s hs
  rw [bind_run]
  rcases h : x s with ⟨e | a, t⟩ <;> rw [h] at ht
  · exact ht
  · exact hf s a t hs ht h

theorem moves_guarded_bind [IsTrans σ R] {x : Action σ ε α} {f : α → Action σ ε β}
    (hx : Moves (Guarded I R) x)
    (hf : ∀ s a t, I s → I t → x s = (.ok a, t) → Guarded I R t (f a t).2) :
    Moves (Guarded I R) (x >>= f) := by
  constructor
  intro s hI
  obtain ⟨ht, hR⟩ := hx.run s hI
  rw [bind_run]
  rcases h : x s with ⟨e | a, t⟩ <;> rw [h] at ht hR
  · exact ⟨ht, hR⟩
  · obtain ⟨hu, hR'⟩ := hf s a t hI ht h ht
    exact ⟨hu, IsTrans.trans _ _ _ hR hR'⟩

end Frames

end Action

end Fumiko.Foundation
