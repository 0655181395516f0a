import Mathlib.Logic.Relation

/-! Tasks that take turns on one shared state.  A step is one block of a task between two of
its suspension points; any task may take the next one, and new tasks may start at any time. -/

namespace Fumiko.Foundation

structure Pool (σ τ : Type) where
  shared : σ
  tasks : List τ

namespace Pool

variable {σ τ : Type}

/-- What a kind of task can do: how it starts, how a step changes it and the shared state,
and what the surroundings do in between. -/
structure Rules (σ τ : Type) where
  start : τ → Prop
  step : τ → σ → τ → σ → Prop
  surroundings : σ → σ → Prop

/-- One turn, in which the task that takes it meets the guard: a relation between the shared
state, the task and the other tasks. -/
inductive Turn (rules : Rules σ τ) (guard : σ → τ → List τ → Prop) : Pool σ τ → Pool σ τ → Prop
  | spawn {s ts t} (h : rules.start t) : Turn rules guard ⟨s, ts⟩ ⟨s, t :: ts⟩
  | step {s s' t t'} (before after : List τ) (h : rules.step t s t' s')
      (hguard : guard s t (before ++ after)) :
      Turn rules guard ⟨s, before ++ t :: after⟩ ⟨s', before ++ t' :: after⟩
  | surroundings {s s' ts} (h : rules.surroundings s s') : Turn rules guard ⟨s, ts⟩ ⟨s', ts⟩

abbrev Run (rules : Rules σ τ) (guard : σ → τ → List τ → Prop) : Pool σ τ → Pool σ τ → Prop :=
  Relation.ReflTransGen (Turn rules guard)

def Quiescent (finished : τ → Prop) (p : Pool σ τ) : Prop := ∀ t ∈ p.tasks, finished t

structure Holds (I : σ → Prop) (J : τ → σ → Prop) (p : Pool σ τ) : Prop where
  shared : I p.shared
  tasks : ∀ t ∈ p.tasks, J t p.shared

section Invariant

variable {rules : Rules σ τ} {guard : σ → τ → List τ → Prop} {I : σ → Prop} {J : τ → σ → Prop}

theorem Holds.turn (hstart : ∀ t s, rules.start t → J t s)
    (hstep : ∀ t s t' s' others, rules.step t s t' s' → guard s t others → I s → J t s →
      (∀ u ∈ others, J u s) → I s' ∧ J t' s' ∧ ∀ u ∈ others, J u s')
    (hsurroundings : ∀ s s', rules.surroundings s s' → I s → I s' ∧ ∀ t, J t s → J t s')
    {p q : Pool σ τ} (hturn : Turn rules guard p q) (h : p.Holds I J) : q.Holds I J := by
  cases hturn with
  | spawn hnew =>
    refine ⟨h.shared, ?_⟩
    intro u hu
    cases hu with
    | head => exact hstart _ _ hnew
    | tail _ hu => exact h.tasks u hu
  | @step s s' t t' before after hmove hguard =>
    have hothers (u : τ) (hu : u ∈ before ++ after) : J u s := by
      apply h.tasks
      simp only [List.mem_append, List.mem_cons] at hu ⊢
      exact hu.imp_right Or.inr
    obtain ⟨hI, hJ, hrest⟩ := hstep t s t' s' _ hmove hguard h.shared (h.tasks t (by simp)) hothers
    refine ⟨hI, ?_⟩
    intro u hu
    simp only [List.mem_append, List.mem_cons] at hu
    rcases hu with hu | rfl | hu
    · exact hrest u (List.mem_append_left _ hu)
    · exact hJ
    · exact hrest u (List.mem_append_right _ hu)
  | surroundings hmove =>
    obtain ⟨hI, hJ⟩ := hsurroundings _ _ hmove h.shared
    exact ⟨hI, fun t ht => hJ t (h.tasks t ht)⟩

theorem Holds.run (hstart : ∀ t s, rules.start t → J t s)
    (hstep : ∀ t s t' s' others, rules.step t s t' s' → guard s t others → I s → J t s →
      (∀ u ∈ others, J u s) → I s' ∧ J t' s' ∧ ∀ u ∈ others, J u s')
    (hsurroundings : ∀ s s', rules.surroundings s s' → I s → I s' ∧ ∀ t, J t s → J t s')
    {p q : Pool σ τ} (hrun : Run rules guard p q) (h : p.Holds I J) : q.Holds I J := by
  induction hrun with
  | refl => exact h
  | tail _ hturn ih => exact ih.turn hstart hstep hsurroundings hturn

end Invariant

section Together

variable {rules : Rules σ τ} {guard : σ → τ → List τ → Prop} {Inv : σ → List τ → Prop}

theorem Turn.keeps (hperm : ∀ s ts us, ts.Perm us → Inv s ts → Inv s us)
    (hstart : ∀ t s ts, rules.start t → Inv s ts → Inv s (t :: ts))
    (hstep : ∀ t s t' s' others, rules.step t s t' s' → guard s t others → Inv s (t :: others) →
      Inv s' (t' :: others))
    (hsurroundings : ∀ s s' ts, rules.surroundings s s' → Inv s ts → Inv s' ts)
    {p q : Pool σ τ} (hturn : Turn rules guard p q) (h : Inv p.shared p.tasks) :
    Inv q.shared q.tasks := by
  cases hturn with
  | spawn hnew => exact hstart _ _ _ hnew h
  | step before after hmove hguard =>
    apply hperm _ _ _ List.perm_middle.symm
    exact hstep _ _ _ _ _ hmove hguard (hperm _ _ _ List.perm_middle h)
  | surroundings hmove => exact hsurroundings _ _ _ hmove h

theorem Run.keeps (hperm : ∀ s ts us, ts.Perm us → Inv s ts → Inv s us)
    (hstart : ∀ t s ts, rules.start t → Inv s ts → Inv s (t :: ts))
    (hstep : ∀ t s t' s' others, rules.step t s t' s' → guard s t others → Inv s (t :: others) →
      Inv s' (t' :: others))
    (hsurroundings : ∀ s s' ts, rules.surroundings s s' → Inv s ts → Inv s' ts)
    {p q : Pool σ τ} (hrun : Run rules guard p q) (h : Inv p.shared p.tasks) :
    Inv q.shared q.tasks := by
  induction hrun with
  | refl => exact h
  | tail _ hturn ih => exact hturn.keeps hperm hstart hstep hsurroundings ih

end Together

abbrev Alone (rules : Rules σ τ) : τ × σ → τ × σ → Prop :=
  Relation.ReflTransGen fun a b => rules.step a.1 a.2 b.1 b.2

end Pool

end Fumiko.Foundation
