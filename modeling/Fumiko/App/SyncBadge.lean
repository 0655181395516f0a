import Fumiko.App.Watchers
import Fumiko.Foundation.Mailbox
import Fumiko.World

/-! What the screen shows of the synchronisation worker.  Its progress goes through a channel of its own,
and another task hands it on. -/

namespace Fumiko.App

open Fumiko.Foundation

/-- A `SyncProgress`; `pass` counts the requests that were served before. -/
structure Notice where
  pass : Nat
  current : Nat
  total : Nat
  phase : SyncPhase

structure Badge where
  isSyncing : Bool := false
  syncTick : Nat := 0
  refreshTrigger : Nat := 0
  syncProgress : Option Notice := none
  progress : List Notice := []
  late : List Notice := []

namespace Badge

def finish (b : Badge) : Badge :=
  { b with
    refreshTrigger := b.refreshTrigger + 1
    syncTick := b.syncTick + 1
    isSyncing := false
    syncProgress := none
    late := b.late ++ b.progress }

inductive Passes (target : SyncTarget) (b : Badge) : Badge → Option SyncTarget → Prop
  | report (current total : Nat) (phase : SyncPhase) :
    Passes target b { b with progress := b.progress ++ [⟨b.syncTick, current, total, phase⟩] } (some target)
  | finish : Passes target b b.finish none

/-- The buttons, the watchers and the tray send requests; other workers refresh the lists. -/
inductive Acts : Badge → Badge → List SyncTarget → Prop
  | send {b} (targets : List SyncTarget) : Acts b b targets
  | refresh {b} : Acts b { b with refreshTrigger := b.refreshTrigger + 1 } []
  | handOn {b notice rest} (h : b.progress = notice :: rest) :
    Acts b { b with syncProgress := some notice, progress := rest } []

def rules : Mailbox.Rules Badge SyncTarget SyncTarget where
  receive target b b' rest := b' = { b with isSyncing := true } ∧ rest = some target
  resume := Passes
  surroundings := Acts

def launched : Mailbox Badge SyncTarget SyncTarget := { shared := {}, queue := [.all], sent := [.all] }

abbrev Reachable (m : Mailbox Badge SyncTarget SyncTarget) : Prop := Mailbox.Run rules launched m

section Laws

variable {b : Badge} {m : Mailbox Badge SyncTarget SyncTarget} {taken : List SyncTarget}
  {rest : Option SyncTarget} {target : SyncTarget}

/-- The flag is that of the worker, the tick counts what it is through with, and the notices that are
around come from a pass that has begun; those of an earlier one were late. -/
structure Honest (b : Badge) (taken : List SyncTarget) (rest : Option SyncTarget) : Prop where
  flag : b.isSyncing = rest.isSome
  tick : b.syncTick + rest.toList.length = taken.length
  begun : ∀ notice, notice ∈ b.progress ∨ notice ∈ b.syncProgress → notice.pass < taken.length
  late : ∀ notice, notice ∈ b.progress ∨ notice ∈ b.syncProgress → notice.pass = b.syncTick ∨ notice ∈ b.late
  ordered : (b.syncProgress.toList ++ b.progress).Pairwise fun a c => a.pass ≤ c.pass

theorem Honest.receive (h : Honest b taken none) :
    Honest { b with isSyncing := true } (taken ++ [target]) (some target) where
  flag := rfl
  tick := by
    have htick := h.tick
    simp only [Option.toList_none, List.length_nil, Nat.add_zero] at htick
    simp [htick]
  begun notice hnotice := by
    rw [List.length_append]
    exact Nat.lt_add_right _ (h.begun notice hnotice)
  late := h.late
  ordered := h.ordered

theorem Honest.report (h : Honest b taken (some target)) (current total : Nat) (phase : SyncPhase) :
    Honest { b with progress := b.progress ++ [⟨b.syncTick, current, total, phase⟩] } taken (some target) := by
  have hlast : b.syncTick + 1 = taken.length := h.tick
  constructor
  · exact h.flag
  · exact h.tick
  · rintro notice (hnotice | hnotice)
    · rcases List.mem_append.mp hnotice with hnotice | hnotice
      · exact h.begun notice (Or.inl hnotice)
      · rw [List.mem_singleton.mp hnotice, ← hlast]
        exact Nat.lt_succ_self _
    · exact h.begun notice (Or.inr hnotice)
  · rintro notice (hnotice | hnotice)
    · rcases List.mem_append.mp hnotice with hnotice | hnotice
      · exact h.late notice (Or.inl hnotice)
      · rw [List.mem_singleton.mp hnotice]
        exact Or.inl rfl
    · exact h.late notice (Or.inr hnotice)
  · rw [← List.append_assoc, List.pairwise_append]
    refine ⟨h.ordered, List.pairwise_singleton _ _, fun notice hnotice last hlast' => ?_⟩
    rw [List.mem_singleton.mp hlast']
    have hbegun := h.begun notice (by
      rcases List.mem_append.mp hnotice with hshown | hsent
      · exact Or.inr (Option.mem_toList.mp hshown)
      · exact Or.inl hsent)
    rw [← hlast] at hbegun
    exact Nat.le_of_lt_succ hbegun

theorem Honest.finish (h : Honest b taken (some target)) : Honest b.finish taken none where
  flag := rfl
  tick := h.tick
  begun notice hnotice := by
    rcases hnotice with hnotice | hnone
    · exact h.begun notice (Or.inl hnotice)
    · cases hnone
  late notice hnotice := by
    rcases hnotice with hnotice | hnone
    · exact Or.inr (List.mem_append_right _ hnotice)
    · cases hnone
  ordered := (List.pairwise_append.mp h.ordered).2.1

theorem Honest.handOn {notice : Notice} {queued : List Notice} (h : Honest b taken rest)
    (hqueue : b.progress = notice :: queued) :
    Honest { b with syncProgress := some notice, progress := queued } taken rest := by
  have hmem (other : Notice) (hother : other ∈ queued ∨ other ∈ some notice) :
      other ∈ b.progress ∨ other ∈ b.syncProgress := by
    rw [hqueue]
    rcases hother with hqueued | hshown
    · exact Or.inl (List.mem_cons_of_mem _ hqueued)
    · rw [Option.mem_some_iff.mp hshown]
      exact Or.inl List.mem_cons_self
  refine ⟨h.flag, h.tick, fun other hother => h.begun other (hmem other hother),
    fun other hother => h.late other (hmem other hother), ?_⟩
  have hordered := (List.pairwise_append.mp h.ordered).2.1
  rwa [hqueue] at hordered

theorem kept_honest : Mailbox.Kept rules Honest where
  receive := by
    rintro target b b' taken rest ⟨rfl, rfl⟩ h
    exact h.receive
  resume := by
    intro target b b' taken rest hmove h
    cases hmove with
    | report current total phase => exact h.report current total phase
    | finish => exact h.finish
  surroundings := by
    intro b b' new taken rest hmove h
    cases hmove with
    | send _ => exact h
    | refresh => exact ⟨h.flag, h.tick, h.begun, h.late, h.ordered⟩
    | handOn hqueue => exact h.handOn hqueue

theorem Reachable.honest (hm : Reachable m) : Honest m.shared m.taken m.rest := by
  refine Mailbox.Run.kept kept_honest hm ⟨rfl, rfl, ?_, ?_, List.Pairwise.nil⟩
  · rintro notice (hnotice | hnotice) <;> cases hnotice
  · rintro notice (hnotice | hnotice) <;> cases hnotice

/-- Whatever comes in between, no request is lost, and the flag and the tick are those of the worker.
What is shown of the progress is never ahead of it and does not go back to an earlier pass, and if every
notice is handed on before its pass ends, then it is that of the pass that is going on. -/
theorem badge_of_reachable (hm : Reachable m) :
    m.taken ++ m.queue = m.sent ∧ m.shared.isSyncing = m.rest.isSome ∧
      m.shared.syncTick + m.rest.toList.length = m.taken.length ∧
      ∀ notice ∈ m.shared.syncProgress, notice.pass < m.taken.length ∧
        (∀ later ∈ m.shared.progress, notice.pass ≤ later.pass) ∧
        (m.shared.late = [] → m.shared.isSyncing ∧ notice.pass = m.shared.syncTick) := by
  have hhonest := hm.honest
  refine ⟨Mailbox.Run.fifo hm rfl, hhonest.flag, hhonest.tick, fun notice hnotice => ?_⟩
  have hbegun := hhonest.begun notice (Or.inr hnotice)
  have hordered := (List.pairwise_append.mp hhonest.ordered).2.2
  refine ⟨hbegun, hordered notice (Option.mem_toList.mpr hnotice), fun hlate => ?_⟩
  have hpass : notice.pass = m.shared.syncTick := by
    rcases hhonest.late notice (Or.inr hnotice) with hpass | hmem
    · exact hpass
    · rw [hlate] at hmem
      cases hmem
  refine ⟨?_, hpass⟩
  have htick := hhonest.tick
  rw [hhonest.flag]
  cases hrest : m.rest with
  | some target => rfl
  | none =>
    rw [hrest] at htick
    rw [hpass, ← htick] at hbegun
    exact absurd hbegun (Nat.lt_irrefl _)

/-- The worker is serving the first request, and has sent a notice that nobody has handed on. -/
def reporting (phase : SyncPhase) : Mailbox Badge SyncTarget SyncTarget where
  shared := { isSyncing := true, progress := [⟨0, 0, 1, phase⟩] }
  rest := some .all
  sent := [.all]
  taken := [.all]

theorem reachable_reporting (phase : SyncPhase) : Reachable (reporting phase) := by
  have hreceive : Mailbox.Turn rules launched
      { shared := { isSyncing := true }, rest := some .all, sent := [.all], taken := [.all] } :=
    .receive ⟨rfl, rfl⟩
  exact (Relation.ReflTransGen.single hreceive).tail (.resume (.report 0 1 phase))

theorem badge_of_reachable_reporting :
    (reporting .hydrating).shared.syncTick + (reporting .hydrating).rest.toList.length = 1 :=
  (badge_of_reachable (reachable_reporting .hydrating)).2.2.1

/-- The next pass may begin under the progress of the one before. -/
theorem exists_outdated (target : SyncTarget) (phase : SyncPhase) :
    ∃ m, Reachable m ∧ m.rest = some target ∧ m.shared.isSyncing ∧
      ∃ notice ∈ m.shared.syncProgress, notice.phase = phase ∧ notice.pass < m.shared.syncTick := by
  have hfinish : Mailbox.Turn rules (reporting phase)
      { shared := (reporting phase).shared.finish, sent := [.all], taken := [.all] } := .resume .finish
  have hhandOn : Mailbox.Turn rules
      { shared := (reporting phase).shared.finish, sent := [.all], taken := [.all] }
      { shared := { (reporting phase).shared.finish with
          syncProgress := some ⟨0, 0, 1, phase⟩, progress := [] }
        sent := [.all], taken := [.all] } := .surroundings (.handOn rfl)
  have hsend : Mailbox.Turn rules
      { shared := { (reporting phase).shared.finish with
          syncProgress := some ⟨0, 0, 1, phase⟩, progress := [] }
        sent := [.all], taken := [.all] }
      { shared := { (reporting phase).shared.finish with
          syncProgress := some ⟨0, 0, 1, phase⟩, progress := [] }
        queue := [target], sent := [.all, target], taken := [.all] } := .surroundings (.send [target])
  exact ⟨_, ((((reachable_reporting phase).tail hfinish).tail hhandOn).tail hsend).tail
    (.receive ⟨rfl, rfl⟩), rfl, rfl, _, rfl, rfl, Nat.zero_lt_one⟩

end Laws

end Badge

end Fumiko.App
