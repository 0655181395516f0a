import Mathlib.Data.List.Basic
import Mathlib.Data.List.Nodup

namespace Fumiko.Foundation

structure Registry (κ : Type) where
  entries : List (κ × Nat) := []
  live : List (κ × Nat) := []
  next : Nat := 0

namespace Registry

variable {κ : Type} [DecidableEq κ]

def enrol (r : Registry κ) (k : κ) : Registry κ :=
  if k ∈ r.entries.map Prod.fst then r
  else
    { entries := r.entries ++ [(k, r.next)]
      live := r.live ++ [(k, r.next)]
      next := r.next + 1 }

omit [DecidableEq κ] in
def cancel (live : List (κ × Nat)) (number : Nat) : List (κ × Nat) := live.filter (·.2 ≠ number)

/-- The tasks of all keys that are no longer wanted are cancelled, and their entries dropped. -/
def retain (wanted : List κ) (r : Registry κ) : Registry κ :=
  { r with
    entries := r.entries.filter (·.1 ∈ wanted)
    live := ((r.entries.filter (·.1 ∉ wanted)).map Prod.snd).foldl cancel r.live }

def reconcile (wanted : List κ) (r : Registry κ) : Registry κ := (wanted.foldl enrol r).retain wanted

structure Faithful (r : Registry κ) : Prop where
  live : r.live = r.entries
  keys : (r.entries.map Prod.fst).Nodup
  numbers : (r.entries.map Prod.snd).Nodup
  fresh : ∀ e ∈ r.entries, e.2 < r.next

section Laws

variable {r : Registry κ} {wanted : List κ} {k : κ}

theorem Faithful.enrol (h : r.Faithful) (k : κ) : (r.enrol k).Faithful := by
  rw [Registry.enrol]
  split
  · exact h
  · next hk =>
    constructor
    · rw [h.live]
    · rw [List.map_append, List.nodup_append]
      refine ⟨h.keys, by simp, ?_⟩
      rintro a ha b hb rfl
      simp only [List.map_cons, List.map_nil, List.mem_singleton] at hb
      exact hk (hb ▸ ha)
    · rw [List.map_append, List.nodup_append]
      refine ⟨h.numbers, by simp, ?_⟩
      rintro a ha b hb rfl
      simp only [List.map_cons, List.map_nil, List.mem_singleton] at hb
      obtain ⟨e, he, rfl⟩ := List.mem_map.mp ha
      exact Nat.ne_of_lt (h.fresh e he) hb
    · intro e he
      cases List.mem_append.mp he with
      | inl he => exact Nat.lt_succ_of_lt (h.fresh e he)
      | inr he =>
        rw [List.mem_singleton.mp he]
        exact Nat.lt_succ_self _

theorem subset_enrol (r : Registry κ) (k : κ) : r.entries ⊆ (r.enrol k).entries := by
  rw [enrol]
  split
  · exact List.Subset.refl _
  · exact List.subset_append_left _ _

theorem mem_keys_enrol (r : Registry κ) (k : κ) : k ∈ (r.enrol k).entries.map Prod.fst := by
  rw [enrol]
  split
  · assumption
  · simp

theorem Faithful.foldl_enrol (h : r.Faithful) (wanted : List κ) : (wanted.foldl Registry.enrol r).Faithful := by
  induction wanted generalizing r with
  | nil => exact h
  | cons k wanted ih => exact ih (h.enrol k)

theorem subset_foldl_enrol (r : Registry κ) (wanted : List κ) :
    r.entries ⊆ (wanted.foldl enrol r).entries := by
  induction wanted generalizing r with
  | nil => exact List.Subset.refl _
  | cons k wanted ih => exact List.Subset.trans (subset_enrol r k) (ih (r.enrol k))

theorem mem_keys_foldl_enrol (r : Registry κ) (hk : k ∈ wanted) :
    k ∈ (wanted.foldl enrol r).entries.map Prod.fst := by
  induction wanted generalizing r with
  | nil => cases hk
  | cons k' wanted ih =>
    cases hk with
    | head =>
      obtain ⟨e, he, hkey⟩ := List.mem_map.mp (mem_keys_enrol r k)
      exact List.mem_map.mpr ⟨e, subset_foldl_enrol (r.enrol k) wanted he, hkey⟩
    | tail _ hk => exact ih (r.enrol k') hk

omit [DecidableEq κ] in
theorem foldl_cancel (numbers : List Nat) (live : List (κ × Nat)) :
    numbers.foldl cancel live = live.filter (·.2 ∉ numbers) := by
  induction numbers generalizing live with
  | nil => simp
  | cons number numbers ih =>
    rw [List.foldl_cons, ih, cancel, List.filter_filter]
    congr 1
    funext e
    simp [Bool.and_comm]

theorem Faithful.retain (h : r.Faithful) (wanted : List κ) : (r.retain wanted).Faithful := by
  have hsub : (r.entries.filter (·.1 ∈ wanted)).Sublist r.entries := List.filter_sublist
  constructor
  · simp only [Registry.retain]
    rw [foldl_cancel, h.live]
    apply List.filter_congr
    rintro e he
    apply decide_eq_decide.mpr
    constructor
    · intro hkept
      by_contra hunwanted
      exact hkept (List.mem_map.mpr ⟨e, List.mem_filter.mpr ⟨he, decide_eq_true hunwanted⟩, rfl⟩)
    · intro hwanted hdropped
      obtain ⟨e', he', hnumber⟩ := List.mem_map.mp hdropped
      obtain ⟨he', hunwanted⟩ := List.mem_filter.mp he'
      have heq : e' = e := List.inj_on_of_nodup_map h.numbers he' he hnumber
      exact of_decide_eq_true hunwanted (heq ▸ hwanted)
  · exact h.keys.sublist (hsub.map _)
  · exact h.numbers.sublist (hsub.map _)
  · exact fun e he => h.fresh e (hsub.subset he)

theorem Faithful.reconcile (h : r.Faithful) (wanted : List κ) : (r.reconcile wanted).Faithful :=
  (h.foldl_enrol wanted).retain wanted

theorem mem_keys_reconcile (r : Registry κ) (wanted : List κ) (k : κ) :
    k ∈ (r.reconcile wanted).entries.map Prod.fst ↔ k ∈ wanted := by
  constructor
  · intro hk
    obtain ⟨e, he, rfl⟩ := List.mem_map.mp hk
    simpa using (List.mem_filter.mp he).2
  · intro hk
    obtain ⟨e, he, rfl⟩ := List.mem_map.mp (mem_keys_foldl_enrol r hk)
    exact List.mem_map.mpr ⟨e, List.mem_filter.mpr ⟨he, by simpa using hk⟩, rfl⟩

theorem mem_reconcile_of_mem {e : κ × Nat} (he : e ∈ r.entries) (hk : e.1 ∈ wanted) :
    e ∈ (r.reconcile wanted).entries :=
  List.mem_filter.mpr ⟨subset_foldl_enrol r wanted he, by simpa using hk⟩

end Laws

end Registry

end Fumiko.Foundation
