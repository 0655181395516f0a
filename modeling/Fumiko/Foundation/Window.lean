import Mathlib.Data.List.Basic
import Mathlib.Logic.Relation

/-! A queue of tasks of which no more than a fixed number run at a time.  The tasks share one
state and take turns in any order; a task that is through makes room for the next one. -/

namespace Fumiko.Foundation

structure Window (σ τ : Type) where
  shared : σ
  queue : List τ
  running : List τ

namespace Window

variable {σ τ : Type}

structure Rules (σ τ : Type) where
  step : τ → σ → τ → σ → Prop
  finished : τ → Prop
  surroundings : σ → σ → Prop

inductive Turn (rules : Rules σ τ) (limit : Nat) : Window σ τ → Window σ τ → Prop
  | pull {s t queue running} (h : running.length < limit) :
    Turn rules limit ⟨s, t :: queue, running⟩ ⟨s, queue, t :: running⟩
  | step {s s' t t' queue} (before after : List τ) (h : rules.step t s t' s') :
    Turn rules limit ⟨s, queue, before ++ t :: after⟩ ⟨s', queue, before ++ t' :: after⟩
  | leave {s t queue} (before after : List τ) (h : rules.finished t) :
    Turn rules limit ⟨s, queue, before ++ t :: after⟩ ⟨s, queue, before ++ after⟩
  | surroundings {s s' queue running} (h : rules.surroundings s s') :
    Turn rules limit ⟨s, queue, running⟩ ⟨s', queue, running⟩

abbrev Run (rules : Rules σ τ) (limit : Nat) : Window σ τ → Window σ τ → Prop :=
  Relation.ReflTransGen (Turn rules limit)

def live (w : Window σ τ) : List τ := w.queue ++ w.running

section Invariant

variable {rules : Rules σ τ} {limit : Nat} {I : σ → List τ → Prop} {v w : Window σ τ}

/-- What one turn keeps: a property of the shared state and the live tasks, whatever their
order. -/
structure Kept (rules : Rules σ τ) (I : σ → List τ → Prop) : Prop where
  perm {s ts ts'} (h : ts.Perm ts') (hI : I s ts) : I s ts'
  step {s s' t t' ts} (h : rules.step t s t' s') (hI : I s (t :: ts)) : I s' (t' :: ts)
  leave {s t ts} (h : rules.finished t) (hI : I s (t :: ts)) : I s ts
  surroundings {s s' ts} (h : rules.surroundings s s') (hI : I s ts) : I s' ts

theorem live_perm {s : σ} {t : τ} {queue before after : List τ} :
    (live ⟨s, queue, before ++ t :: after⟩).Perm (t :: live ⟨s, queue, before ++ after⟩) :=
  (List.perm_middle.append_left queue).trans List.perm_middle

theorem Turn.kept (hkept : Kept rules I) (hturn : Turn rules limit v w) (h : I v.shared v.live) :
    I w.shared w.live := by
  cases hturn with
  | pull => exact hkept.perm List.perm_middle.symm h
  | step before after hstep =>
    have hnext := hkept.step hstep (hkept.perm live_perm h)
    exact hkept.perm live_perm.symm hnext
  | leave before after hfinished => exact hkept.leave hfinished (hkept.perm live_perm h)
  | surroundings hmove => exact hkept.surroundings hmove h

theorem Run.kept (hkept : Kept rules I) (hrun : Run rules limit v w) (h : I v.shared v.live) :
    I w.shared w.live := by
  induction hrun with
  | refl => exact h
  | tail _ hturn ih => exact hturn.kept hkept ih

end Invariant

structure Move (σ τ : Type) where
  task : τ
  before : σ
  task' : τ
  after : σ

def Rules.traced (rules : Rules σ τ) : Rules (σ × List (Move σ τ)) τ where
  step t s t' s' := rules.step t s.1 t' s'.1 ∧ s'.2 = s.2 ++ [⟨t, s.1, t', s'.1⟩]
  finished := rules.finished
  surroundings s s' := rules.surroundings s.1 s'.1 ∧ s'.2 = s.2

section Traced

variable {rules : Rules σ τ} {limit : Nat} {v w : Window σ τ}

def withMoves (w : Window σ τ) (moves : List (Move σ τ)) : Window (σ × List (Move σ τ)) τ :=
  ⟨(w.shared, moves), w.queue, w.running⟩

theorem Turn.exists_traced (h : Turn rules limit v w) (moves : List (Move σ τ)) :
    ∃ moves', Turn rules.traced limit (v.withMoves moves) (w.withMoves moves') := by
  cases h with
  | pull hroom => exact ⟨moves, .pull hroom⟩
  | @step s s' t t' queue before after hstep =>
    exact ⟨moves ++ [⟨t, s, t', s'⟩], .step before after ⟨hstep, rfl⟩⟩
  | @leave s t queue before after hfinished =>
    have hthrough : rules.traced.finished t := hfinished
    exact ⟨moves, .leave before after hthrough⟩
  | surroundings hmove => exact ⟨moves, .surroundings ⟨hmove, rfl⟩⟩

theorem Run.exists_traced (h : Run rules limit v w) :
    ∃ moves, Run rules.traced limit (v.withMoves []) (w.withMoves moves) := by
  induction h with
  | refl => exact ⟨[], .refl⟩
  | tail _ hturn ih =>
    obtain ⟨moves, hrun⟩ := ih
    obtain ⟨moves', hnext⟩ := hturn.exists_traced moves
    exact ⟨moves', hrun.tail hnext⟩

theorem Kept.traced {I : σ → List τ → Prop} (h : Kept rules I) : Kept rules.traced fun s ts => I s.1 ts where
  perm hperm hI := h.perm hperm hI
  step hstep hI := h.step hstep.1 hI
  leave hfinished hI := h.leave hfinished hI
  surroundings hmove hI := h.surroundings hmove.1 hI

end Traced

abbrev Alone (rules : Rules σ τ) : τ × σ → τ × σ → Prop :=
  Relation.ReflTransGen fun a b => rules.step a.1 a.2 b.1 b.2

section Alone

variable {rules : Rules σ τ} {limit : Nat} {s s' : σ} {t t' : τ} {queue : List τ}

theorem run_alone (h : Alone rules (t, s) (t', s')) :
    Run rules limit ⟨s, queue, [t]⟩ ⟨s', queue, [t']⟩ := by
  have hlift (a b : τ × σ) (hstep : rules.step a.1 a.2 b.1 b.2) :
      Turn rules limit ⟨a.2, queue, [a.1]⟩ ⟨b.2, queue, [b.1]⟩ := .step [] [] hstep
  exact Relation.ReflTransGen.lift (fun a : τ × σ => (⟨a.2, queue, [a.1]⟩ : Window σ τ)) hlift _ _ h

theorem run_one (hlimit : 0 < limit) (h : Alone rules (t, s) (t', s')) (hfinished : rules.finished t') :
    Run rules limit ⟨s, t :: queue, []⟩ ⟨s', queue, []⟩ :=
  .head (.pull hlimit) (.tail (run_alone h) (.leave [] [] hfinished))

end Alone

section Schedule

variable {rules : Rules σ τ} {limit : Nat} {turn : τ → σ → τ × σ} {s : σ} {ts queue running : List τ}

def turns (turn : τ → σ → τ × σ) : List Nat → σ → List τ → σ × List τ
  | [], s, ts => (s, ts)
  | i :: schedule, s, ts =>
    match ts[i]? with
    | none => turns turn schedule s ts
    | some t => turns turn schedule (turn t s).2 (ts.set i (turn t s).1)

theorem run_turns (hturn : ∀ t s, rules.step t s (turn t s).1 (turn t s).2 ∨ turn t s = (t, s))
    (schedule : List Nat) :
    Run rules limit ⟨s, queue, ts⟩ ⟨(turns turn schedule s ts).1, queue, (turns turn schedule s ts).2⟩ := by
  induction schedule generalizing s ts with
  | nil => exact .refl
  | cons i schedule ih =>
    rw [turns]
    split
    · exact ih
    · next t ht =>
      obtain ⟨hi, rfl⟩ := List.getElem?_eq_some_iff.mp ht
      refine .trans ?_ ih
      rcases hturn ts[i] s with hstep | hidle
      · apply Relation.ReflTransGen.single
        have hmove : Turn rules limit ⟨s, queue, ts.take i ++ ts[i] :: ts.drop (i + 1)⟩
            ⟨(turn ts[i] s).2, queue, ts.take i ++ (turn ts[i] s).1 :: ts.drop (i + 1)⟩ := .step _ _ hstep
        rw [List.getElem_cons_drop, List.take_append_drop] at hmove
        rwa [List.set_eq_take_append_cons_drop, if_pos hi]
      · rw [hidle, List.set_getElem_self]

theorem run_pull (h : queue.length + running.length ≤ limit) :
    Run rules limit ⟨s, queue, running⟩ ⟨s, [], queue.reverse ++ running⟩ := by
  induction queue generalizing running with
  | nil => exact .refl
  | cons t queue ih =>
    rw [List.length_cons] at h
    rw [List.reverse_cons, List.append_assoc]
    refine .head (.pull (by omega)) (ih ?_)
    rw [List.length_cons]
    omega

theorem run_leave (h : ∀ t ∈ ts, rules.finished t) : Run rules limit ⟨s, [], ts⟩ ⟨s, [], []⟩ := by
  induction ts with
  | nil => exact .refl
  | cons t ts ih =>
    obtain ⟨ht, hts⟩ := List.forall_mem_cons.mp h
    exact .head (.leave [] ts ht) (ih hts)

theorem run_schedule (hturn : ∀ t s, rules.step t s (turn t s).1 (turn t s).2 ∨ turn t s = (t, s))
    (hlimit : queue.length ≤ limit) (schedule : List Nat)
    (hend : ∀ t ∈ (turns turn schedule s queue.reverse).2, rules.finished t) :
    Run rules limit ⟨s, queue, []⟩ ⟨(turns turn schedule s queue.reverse).1, [], []⟩ := by
  have hpull : Run rules limit ⟨s, queue, []⟩ ⟨s, [], queue.reverse ++ []⟩ := run_pull hlimit
  rw [List.append_nil] at hpull
  exact hpull.trans ((run_turns hturn schedule).trans (run_leave hend))

end Schedule

end Window

end Fumiko.Foundation
