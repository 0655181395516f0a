import Fumiko.Foundation.Paging
import Mathlib.Data.List.Basic
import Mathlib.Order.Nat

/-! Programs whose state is the list of answers still to come, and how many of an endless
stream of answers they ask for. -/

namespace Fumiko.Foundation.Action

variable {μ ε δ α β : Type} {x : Action (List μ) ε α} {f : α → Action (List μ) ε β}
  {s : ℕ → μ} {asked asked' : List μ} {r : Except ε α} {n k : ℕ}

section Asks

def Asks (x : Action (List μ) ε α) (asked : List μ) (r : Except ε α) : Prop :=
  ∀ later, x (asked ++ later) = (r, later)

theorem asks_pure (a : α) : Asks (pure a : Action (List μ) ε α) [] (.ok a) := fun _ => rfl

theorem asks_raise (e : ε) : Asks (raise e : Action (List μ) ε α) [] (.error e) := fun _ => rfl

theorem Asks.bind {a : α} {r : Except ε β} (hx : Asks x asked (.ok a)) (hf : Asks (f a) asked' r) :
    Asks (x >>= f) (asked ++ asked') r := by
  intro later
  rw [bind_run, List.append_assoc, hx]
  exact hf later

theorem Asks.bind_error {e : ε} (hx : Asks x asked (.error e)) :
    Asks (x >>= f) asked (.error e) := by
  intro later
  rw [bind_run, hx]

theorem Asks.map {g : α → β} (hx : Asks x asked r) :
    Asks (x >>= fun a => pure (g a)) asked (r.map g) := by
  intro later
  rw [bind_run, hx]
  cases r <;> rfl

theorem Asks.mapError {g : ε → δ} (hx : Asks x asked r) : Asks (mapError g x) asked (r.mapError g) := by
  intro later
  rw [Action.mapError, hx]
  cases r <;> rfl

theorem Asks.unique {more : List μ} {r' : Except ε α} (h : Asks x asked r)
    (h' : Asks x (asked ++ more) r') : more = [] := by
  have hrun : x (asked ++ more) = (r, more) := h more
  have hrun' : x (asked ++ more) = (r', []) := by
    simpa using h' []
  exact (Prod.mk.inj (hrun.symm.trans hrun')).2

end Asks

section Streams

/-- The first `k` answers of a stream. -/
def first (s : ℕ → μ) (k : ℕ) : List μ := (List.range k).map s

theorem first_length : (first s k).length = k := by
  simp [first]

theorem first_add (s : ℕ → μ) (j k : ℕ) :
    first s (j + k) = first s j ++ first (fun i => s (j + i)) k := by
  simp [first, List.range_add]

theorem first_succ (s : ℕ → μ) (k : ℕ) : first s (k + 1) = first s k ++ [s k] := by
  simp [first, List.range_succ]

/-- With the answers of this stream the program ends, and asks for at most `n` of them. -/
def StopsWithin (x : Action (List μ) ε α) (s : ℕ → μ) (n : ℕ) : Prop :=
  ∃ k ≤ n, ∃ r, Asks x (first s k) r

theorem StopsWithin.mono {m : ℕ} (h : StopsWithin x s n) (hnm : n ≤ m) : StopsWithin x s m := by
  obtain ⟨k, hk, hr⟩ := h
  exact ⟨k, hk.trans hnm, hr⟩

theorem stopsWithin_pure (a : α) : StopsWithin (pure a : Action (List μ) ε α) s n :=
  ⟨0, Nat.zero_le n, _, asks_pure a⟩

theorem stopsWithin_raise (e : ε) : StopsWithin (raise e : Action (List μ) ε α) s n :=
  ⟨0, Nat.zero_le n, _, asks_raise e⟩

theorem StopsWithin.mapError {g : ε → δ} (h : StopsWithin x s n) : StopsWithin (mapError g x) s n := by
  obtain ⟨k, hk, r, hr⟩ := h
  exact ⟨k, hk, _, hr.mapError⟩

theorem StopsWithin.map {g : α → β} (h : StopsWithin x s n) :
    StopsWithin (x >>= fun a => pure (g a)) s n := by
  obtain ⟨k, hk, r, hr⟩ := h
  exact ⟨k, hk, _, hr.map⟩

theorem StopsWithin.bind {m : ℕ} (hx : StopsWithin x s n)
    (hf : ∀ a k, StopsWithin (f a) (fun i => s (k + i)) m) : StopsWithin (x >>= f) s (n + m) := by
  obtain ⟨k, hk, r, hr⟩ := hx
  cases r with
  | error e => exact ⟨k, by omega, _, hr.bind_error⟩
  | ok a =>
    obtain ⟨j, hj, r, hrest⟩ := hf a k
    refine ⟨k + j, by omega, r, ?_⟩
    rw [first_add]
    exact hr.bind hrest

theorem stopsWithin_iff_of_asks (h : Asks x (first s k) r) : StopsWithin x s n ↔ k ≤ n := by
  constructor
  · rintro ⟨j, hj, r', hr'⟩
    by_contra hlt
    obtain ⟨i, hi⟩ := Nat.exists_eq_add_of_le (Nat.le_of_lt (lt_of_le_of_lt hj (not_le.mp hlt)))
    rw [hi, first_add] at h
    have hnone := congrArg List.length (hr'.unique h)
    rw [first_length, List.length_nil] at hnone
    omega
  · exact fun hk => ⟨k, hk, r, h⟩

theorem not_stopsWithin_of_dry (h : ∀ k, (x (first s k)).2 = []) : ¬ StopsWithin x s n := by
  rintro ⟨k, -, r, hr⟩
  have hdry := h (k + 1)
  rw [first_succ, hr] at hdry
  cases hdry

end Streams

section Turns

variable {loop : ℕ → Action (List μ) ε α} {ends : ℕ → Prop}

theorem turns_run (loop : ℕ → Action (List μ) ε α)
    (hturn : ∀ i < k, ∀ later, loop i (s i :: later) = loop (i + 1) later)
    (later : List μ) : loop 0 (first s k ++ later) = loop k later := by
  induction k generalizing later with
  | zero => rfl
  | succ k ih =>
    rw [first_succ, List.append_assoc, ih fun i hi => hturn i (Nat.lt_succ_of_lt hi)]
    exact hturn k (Nat.lt_succ_self k) later

theorem turns_asks (hturn : ∀ i < k, ∀ later, loop i (s i :: later) = loop (i + 1) later)
    (hend : ∀ later, loop k (s k :: later) = (r, later)) : Asks (loop 0) (first s (k + 1)) r := by
  intro later
  rw [first_succ, List.append_assoc, turns_run loop hturn]
  exact hend later

theorem stopsWithin_turns_iff (hturn : ∀ i, ¬ ends i → ∀ later, loop i (s i :: later) = loop (i + 1) later)
    (hend : ∀ i, ends i → ∃ r, ∀ later, loop i (s i :: later) = (r, later))
    (hempty : ∀ i, (loop i []).2 = []) : StopsWithin (loop 0) s n ↔ ∃ k < n, ends k := by
  classical
  by_cases hsome : ∃ k, ends k
  · have hfirst : ∀ i < Nat.find hsome, ∀ later, loop i (s i :: later) = loop (i + 1) later :=
      fun i hi => hturn i (Nat.find_min hsome hi)
    obtain ⟨r, hr⟩ := hend _ (Nat.find_spec hsome)
    rw [stopsWithin_iff_of_asks (turns_asks hfirst hr)]
    constructor
    · exact fun hn => ⟨_, hn, Nat.find_spec hsome⟩
    · rintro ⟨k, hk, hends⟩
      exact lt_of_le_of_lt (Nat.find_min' hsome hends) hk
  · have hnone : ∀ i, ¬ ends i := not_exists.mp hsome
    have hdry (k : ℕ) : (loop 0 (first s k)).2 = [] := by
      rw [← List.append_nil (first s k), turns_run loop fun i _ => hturn i (hnone i)]
      exact hempty k
    constructor
    · exact fun h => absurd h (not_stopsWithin_of_dry hdry)
    · exact fun ⟨k, _, hends⟩ => absurd hends (hnone k)

end Turns

theorem stopsWithin_read {Link Page Mark Acc : Type} {L : Listing (List μ) ε Link Page Mark}
    {add : Acc → Page → Acc} {m : ℕ} (hfetch : ∀ link s, StopsWithin (L.fetch link) s m)
    (pagesLeft : ℕ) (link : Option Link) (acc : Acc) (s : ℕ → μ) :
    StopsWithin (L.read add pagesLeft link acc) s (m * pagesLeft) := by
  induction pagesLeft generalizing link acc s with
  | zero => cases link <;> exact stopsWithin_raise _
  | succ pagesLeft ih =>
    cases link with
    | none => exact stopsWithin_raise _
    | some link =>
      rw [Nat.mul_succ, Nat.add_comm (m * pagesLeft)]
      apply (hfetch link s).bind
      intro page k
      split
      · exact stopsWithin_pure _
      · exact ih _ _ _

end Fumiko.Foundation.Action
