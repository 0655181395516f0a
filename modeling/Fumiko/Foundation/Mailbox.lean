import Mathlib.Logic.Relation

/-! A worker behind an unbounded channel.  It takes one message at a time, in the order they were
sent; what it does with one may be cut at suspension points, and in between the surroundings act
and send more. -/

namespace Fumiko.Foundation

structure Mailbox (σ κ τ : Type) where
  shared : σ
  queue : List κ := []
  rest : Option τ := none
  sent : List κ := []
  taken : List κ := []

namespace Mailbox

variable {σ κ τ : Type}

/-- The blocks of a worker between two of its suspension points, and what the surroundings do. -/
structure Rules (σ κ τ : Type) where
  receive : κ → σ → σ → Option τ → Prop
  resume : τ → σ → σ → Option τ → Prop
  surroundings : σ → σ → List κ → Prop

inductive Turn (rules : Rules σ κ τ) : Mailbox σ κ τ → Mailbox σ κ τ → Prop
  | receive {s s' c queue rest sent taken} (h : rules.receive c s s' rest) :
      Turn rules ⟨s, c :: queue, none, sent, taken⟩ ⟨s', queue, rest, sent, taken ++ [c]⟩
  | resume {s s' t queue rest sent taken} (h : rules.resume t s s' rest) :
      Turn rules ⟨s, queue, some t, sent, taken⟩ ⟨s', queue, rest, sent, taken⟩
  | surroundings {s s' new queue rest sent taken} (h : rules.surroundings s s' new) :
      Turn rules ⟨s, queue, rest, sent, taken⟩ ⟨s', queue ++ new, rest, sent ++ new, taken⟩

abbrev Run (rules : Rules σ κ τ) : Mailbox σ κ τ → Mailbox σ κ τ → Prop :=
  Relation.ReflTransGen (Turn rules)

section Invariant

variable {rules : Rules σ κ τ} {I : σ → List κ → Option τ → Prop} {m n : Mailbox σ κ τ}

/-- What holds of the shared state, the messages taken and the work at hand. -/
structure Kept (rules : Rules σ κ τ) (I : σ → List κ → Option τ → Prop) : Prop where
  receive : ∀ c s s' taken rest, rules.receive c s s' rest → I s taken none → I s' (taken ++ [c]) rest
  resume : ∀ t s s' taken rest, rules.resume t s s' rest → I s taken (some t) → I s' taken rest
  surroundings : ∀ s s' new taken rest, rules.surroundings s s' new → I s taken rest → I s' taken rest

theorem Turn.kept (hkept : Kept rules I) (hturn : Turn rules m n) (h : I m.shared m.taken m.rest) :
    I n.shared n.taken n.rest := by
  cases hturn with
  | receive hmove => exact hkept.receive _ _ _ _ _ hmove h
  | resume hmove => exact hkept.resume _ _ _ _ _ hmove h
  | surroundings hmove => exact hkept.surroundings _ _ _ _ _ hmove h

theorem Run.kept (hkept : Kept rules I) (hrun : Run rules m n) (h : I m.shared m.taken m.rest) :
    I n.shared n.taken n.rest := by
  induction hrun with
  | refl => exact h
  | tail _ hturn ih => exact hturn.kept hkept ih

theorem Turn.fifo (hturn : Turn rules m n) (h : m.taken ++ m.queue = m.sent) :
    n.taken ++ n.queue = n.sent := by
  cases hturn with
  | receive _ =>
    rw [← h]
    simp
  | resume _ => exact h
  | @surroundings s s' new queue rest sent taken _ =>
    change taken ++ (queue ++ new) = sent ++ new
    change taken ++ queue = sent at h
    rw [← h, List.append_assoc]

theorem Run.fifo (hrun : Run rules m n) (h : m.taken ++ m.queue = m.sent) :
    n.taken ++ n.queue = n.sent := by
  induction hrun with
  | refl => exact h
  | tail _ hturn ih => exact hturn.fifo ih

end Invariant

section Progress

variable {rules : Rules σ κ τ} {ready : σ → List κ → Option τ → Prop} {left : τ → Nat} {m : Mailbox σ κ τ}

/-- A worker that need not wait for anybody: it can take the next message, and what it has begun
takes it nearer to the end of its work. -/
structure Progress (rules : Rules σ κ τ) (ready : σ → List κ → Option τ → Prop) (left : τ → Nat) :
    Prop where
  receive : ∀ c s taken, ready s taken none →
    ∃ s' rest, rules.receive c s s' rest ∧ ready s' (taken ++ [c]) rest
  resume : ∀ t s taken, ready s taken (some t) →
    ∃ s' rest, rules.resume t s s' rest ∧ ready s' taken rest ∧ ∀ u ∈ rest, left u < left t

theorem Progress.exists_idle (hprogress : Progress rules ready left) (t : τ) {s : σ}
    {queue sent taken : List κ} (h : ready s taken (some t)) :
    ∃ s', Run rules ⟨s, queue, some t, sent, taken⟩ ⟨s', queue, none, sent, taken⟩ ∧
      ready s' taken none := by
  obtain ⟨n, hn⟩ : ∃ n, n = left t := ⟨_, rfl⟩
  induction n using Nat.strongRecOn generalizing t s with
  | _ n ih =>
    obtain ⟨s', rest, hmove, hready, hless⟩ := hprogress.resume t s taken h
    cases rest with
    | none => exact ⟨s', .single (.resume hmove), hready⟩
    | some u =>
      obtain ⟨s'', hrun, hidle⟩ := ih (left u) (hn ▸ hless u rfl) u hready rfl
      exact ⟨s'', hrun.head (.resume hmove), hidle⟩

theorem Progress.exists_drained (hprogress : Progress rules ready left) {s : σ}
    {queue sent taken : List κ} {rest : Option τ} (h : ready s taken rest) :
    ∃ s', Run rules ⟨s, queue, rest, sent, taken⟩ ⟨s', [], none, sent, taken ++ queue⟩ ∧
      ready s' (taken ++ queue) none := by
  induction queue generalizing s taken rest with
  | nil =>
    rw [List.append_nil]
    cases rest with
    | none => exact ⟨s, .refl, h⟩
    | some t => exact hprogress.exists_idle t h
  | cons c queue ih =>
    obtain ⟨u, hidle, hu⟩ : ∃ u, Run rules ⟨s, c :: queue, rest, sent, taken⟩
        ⟨u, c :: queue, none, sent, taken⟩ ∧ ready u taken none := by
      cases rest with
      | none => exact ⟨s, .refl, h⟩
      | some t => exact hprogress.exists_idle t h
    obtain ⟨v, rest', hmove, hv⟩ := hprogress.receive c u taken hu
    obtain ⟨s', hrun, hready⟩ := ih hv
    rw [List.append_assoc] at hrun hready
    exact ⟨s', (hidle.tail (.receive hmove)).trans hrun, hready⟩

end Progress

end Mailbox

end Fumiko.Foundation
