import Mathlib.Data.Finset.SDiff
import Mathlib.Data.List.Count
import Mathlib.Data.List.Nodup
import Mathlib.Logic.Relation
import Mathlib.Order.Bounds.Basic

/-! Reading a source whose items come with ever larger keys.  The reader keeps a watermark,
the largest key it has read, and asks for what lies above it. -/

namespace Fumiko.Foundation

variable {α : Type} [LinearOrder α]

/-- The keys a source still holds.  None of those it has yet to hand out is below `next`. -/
structure Source (α : Type) [LinearOrder α] where
  present : Finset α
  next : α
  below : ∀ a ∈ present, a < next

namespace Source

variable {s t u : Source α}

def arrive (s : Source α) (a next : α) (hfresh : s.next ≤ a) (hnext : a < next) : Source α where
  present := insert a s.present
  next := next
  below := by
    intro b hb
    cases Finset.mem_insert.mp hb with
    | inl heq => exact heq ▸ hnext
    | inr hb => exact ((s.below b hb).trans_le hfresh).trans hnext

def expunge (s : Source α) (gone : Finset α) : Source α where
  present := s.present \ gone
  next := s.next
  below a ha := s.below a (Finset.mem_sdiff.mp ha).1

inductive Step : Source α → Source α → Prop
  | arrive {s : Source α} {a next : α} (hfresh : s.next ≤ a) (hnext : a < next) :
    Step s (s.arrive a next hfresh hnext)
  | expunge {s : Source α} (gone : Finset α) : Step s (s.expunge gone)

/-- What holds between two moments of a source, however many steps lie between them. -/
structure Later (s t : Source α) : Prop where
  next : s.next ≤ t.next
  present : ∀ a ∈ t.present, a ∈ s.present ∨ s.next ≤ a

theorem Later.refl (s : Source α) : Later s s := ⟨le_rfl, fun _ => Or.inl⟩

theorem Later.trans (h : Later s t) (h' : Later t u) : Later s u := by
  refine ⟨h.next.trans h'.next, ?_⟩
  intro a ha
  cases h'.present a ha with
  | inl ha => exact h.present a ha
  | inr ha => exact Or.inr (h.next.trans ha)

theorem Step.later (h : Step s t) : Later s t := by
  cases h with
  | @arrive a next hfresh hnext =>
    refine ⟨hfresh.trans hnext.le, ?_⟩
    intro b hb
    cases Finset.mem_insert.mp hb with
    | inl heq => exact Or.inr (heq ▸ hfresh)
    | inr hb => exact Or.inl hb
  | expunge gone => exact ⟨le_rfl, fun a ha => Or.inl (Finset.mem_sdiff.mp ha).1⟩

theorem later_of_steps (h : Relation.ReflTransGen Step s t) : Later s t := by
  induction h with
  | refl => exact .refl s
  | tail _ hstep ih => exact ih.trans hstep.later

end Source

/-- A source that has been read from the baseline up to the watermark, in batches: what it
still holds there is in one of them, and nothing is in two. -/
structure Reading (α : Type) [LinearOrder α] where
  source : Source α
  baseline : α
  watermark : α
  batches : List (List α)
  baseline_le : baseline ≤ watermark
  below : watermark < source.next
  nodup : batches.flatten.Nodup
  bounded : ∀ a ∈ batches.flatten, a ≤ watermark
  covered : ∀ a ∈ source.present, baseline < a → a ≤ watermark → a ∈ batches.flatten

namespace Reading

variable {r : Reading α} {a : α}

def start (s : Source α) (baseline : α) (hbelow : baseline < s.next)
    (htop : ∀ a ∈ s.present, a ≤ baseline) : Reading α where
  source := s
  baseline := baseline
  watermark := baseline
  batches := []
  baseline_le := le_rfl
  below := hbelow
  nodup := List.nodup_nil
  bounded _ ha := by cases ha
  covered a ha hbaseline _ := absurd (htop a ha) hbaseline.not_ge

def evolve (r : Reading α) (t : Source α) (h : r.source.Later t) : Reading α where
  source := t
  baseline := r.baseline
  watermark := r.watermark
  batches := r.batches
  baseline_le := r.baseline_le
  below := r.below.trans_le h.next
  nodup := r.nodup
  bounded := r.bounded
  covered := by
    intro a ha hbaseline hle
    cases h.present a ha with
    | inl ha => exact r.covered a ha hbaseline hle
    | inr hfresh => exact absurd (hle.trans_lt r.below) hfresh.not_gt

structure Batch (r : Reading α) (batch : List α) (top : α) : Prop where
  nodup : batch.Nodup
  mem : ∀ a, a ∈ batch ↔ a ∈ r.source.present ∧ r.watermark < a
  top : IsGreatest (insert r.watermark {a | a ∈ batch}) top

namespace Batch

variable {batch : List α} {top : α}

theorem watermark_le (h : r.Batch batch top) : r.watermark ≤ top := h.top.2 (Set.mem_insert _ _)

theorem le_top (h : r.Batch batch top) (ha : a ∈ r.source.present) : a ≤ top := by
  cases le_or_gt a r.watermark with
  | inl hle => exact hle.trans h.watermark_le
  | inr hlt => exact h.top.2 (Set.mem_insert_of_mem _ ((h.mem a).mpr ⟨ha, hlt⟩))

theorem top_lt (h : r.Batch batch top) : top < r.source.next := by
  cases h.top.1 with
  | inl heq => exact heq ▸ r.below
  | inr hmem => exact r.source.below top ((h.mem top).mp hmem).1

theorem disjoint (h : r.Batch batch top) : r.batches.flatten.Disjoint batch := by
  intro a ha hbatch
  exact absurd (r.bounded a ha) ((h.mem a).mp hbatch).2.not_ge

end Batch

def commit (r : Reading α) (batch : List α) (top : α) (h : r.Batch batch top) : Reading α where
  source := r.source
  baseline := r.baseline
  watermark := top
  batches := r.batches ++ [batch]
  baseline_le := r.baseline_le.trans h.watermark_le
  below := h.top_lt
  nodup := by
    rw [List.flatten_append, List.flatten_singleton]
    exact List.nodup_append'.mpr ⟨r.nodup, h.nodup, h.disjoint⟩
  bounded := by
    intro a ha
    rw [List.flatten_append, List.flatten_singleton] at ha
    cases List.mem_append.mp ha with
    | inl ha => exact (r.bounded a ha).trans h.watermark_le
    | inr ha => exact h.le_top ((h.mem a).mp ha).1
  covered := by
    intro a ha hbaseline _
    rw [List.flatten_append, List.flatten_singleton, List.mem_append]
    cases le_or_gt a r.watermark with
    | inl hle => exact Or.inl (r.covered a ha hbaseline hle)
    | inr hlt => exact Or.inr ((h.mem a).mpr ⟨ha, hlt⟩)

theorem mem_of_commit {batch : List α} {top : α} (h : r.Batch batch top) (ha : a ∈ r.source.present)
    (hbaseline : r.baseline < a) : ∃ b ∈ (r.commit batch top h).batches, a ∈ b :=
  List.mem_flatten.mp ((r.commit batch top h).covered a ha hbaseline (h.le_top ha))

theorem countP_le_one (r : Reading α) (a : α) : r.batches.countP (a ∈ ·) ≤ 1 := by
  have hdisjoint := (List.nodup_flatten.mp r.nodup).2
  generalize r.batches = batches at hdisjoint
  induction hdisjoint with
  | nil => simp
  | @cons batch batches hbatch _ ih =>
    rw [List.countP_cons]
    split
    · next ha =>
      have hrest : batches.countP (a ∈ ·) = 0 := by
        rw [List.countP_eq_zero]
        intro b hb
        simpa using hbatch b hb (of_decide_eq_true ha)
      rw [hrest]
    · exact ih

theorem countP_eq_one (h : ∃ b ∈ r.batches, a ∈ b) : r.batches.countP (a ∈ ·) = 1 := by
  apply le_antisymm (r.countP_le_one a)
  rw [Nat.one_le_iff_ne_zero, Nat.ne_zero_iff_zero_lt, List.countP_pos_iff]
  simpa using h

end Reading

end Fumiko.Foundation
