import Fumiko.Foundation.Registry
import Fumiko.Common.Errors
import Mathlib.Logic.Relation

namespace Fumiko.App

open Fumiko.Common Fumiko.Foundation

inductive SyncTarget
  | one (account : Uuid)
  | all
  deriving DecidableEq

structure Watchers where
  accounts : List Uuid := []
  registry : Registry Uuid := {}
  sent : List SyncTarget := []

namespace Watchers

def effect (w : Watchers) : Watchers := { w with registry := w.registry.reconcile w.accounts }

/-- A watcher has slept for `POLL_INTERVAL_SECS`. -/
def poll (w : Watchers) (account : Uuid) : Watchers := { w with sent := w.sent ++ [.one account] }

inductive Quiet : Watchers → Watchers → Prop
  | effect {w} : Quiet w w.effect
  | poll {w} (watcher : Uuid × Nat) (hlive : watcher ∈ w.registry.live) : Quiet w (w.poll watcher.1)

inductive Turn : Watchers → Watchers → Prop
  | quiet {w w'} (h : Quiet w w') : Turn w w'
  | accounts {w} (accounts : List Uuid) : Turn w { w with accounts }

abbrev Reachable (w : Watchers) : Prop := Relation.ReflTransGen Turn {} w

section Laws

variable {w v : Watchers}

theorem Quiet.faithful (hturn : Quiet w v) (h : w.registry.Faithful) : v.registry.Faithful := by
  cases hturn with
  | effect => exact h.reconcile w.accounts
  | poll _ _ => exact h

theorem Turn.faithful (hturn : Turn w v) (h : w.registry.Faithful) : v.registry.Faithful := by
  cases hturn with
  | quiet hquiet => exact hquiet.faithful h
  | accounts _ => exact h

theorem Reachable.faithful (hw : Reachable w) : w.registry.Faithful := by
  induction hw with
  | refl =>
    refine ⟨rfl, List.nodup_nil, List.nodup_nil, ?_⟩
    intro e he
    cases he
  | tail _ hturn ih => exact hturn.faithful ih

/-- The effect leaves one task running for each account and none for any other, and it does not
touch those that were running for an account that is still there. -/
theorem live_effect (hw : Reachable w) :
    (w.effect.registry.live.map Prod.fst).Nodup ∧
      (∀ account, account ∈ w.effect.registry.live.map Prod.fst ↔ account ∈ w.accounts) ∧
      ∀ watcher ∈ w.registry.live, watcher.1 ∈ w.accounts → watcher ∈ w.effect.registry.live := by
  have hbefore := hw.faithful
  have hafter : w.effect.registry.Faithful := hbefore.reconcile w.accounts
  rw [hafter.live, hbefore.live]
  refine ⟨hafter.keys, Registry.mem_keys_reconcile w.registry w.accounts, ?_⟩
  intro watcher hlive haccount
  exact Registry.mem_reconcile_of_mem hlive haccount

/-- Of two accounts that have watchers one is removed and one kept, and a third one is new. -/
def changed : Watchers :=
  { ({ accounts := [.ending 'a', .ending 'b'] } : Watchers).effect with
    accounts := [.ending 'b', .ending 'c'] }

theorem reachable_changed : Reachable changed :=
  .tail (.tail (.single (.accounts [.ending 'a', .ending 'b'])) (.quiet .effect))
    (.accounts [.ending 'b', .ending 'c'])

theorem live_effect_changed :
    (changed.effect.registry.live.map Prod.fst).Nodup ∧
      .ending 'a' ∉ changed.effect.registry.live.map Prod.fst ∧
      (.ending 'b', 1) ∈ changed.effect.registry.live ∧
      .ending 'c' ∈ changed.effect.registry.live.map Prod.fst := by
  obtain ⟨hnodup, haccounts, hkept⟩ := live_effect reachable_changed
  exact ⟨hnodup, (haccounts _).not.mpr (by decide), hkept _ (by decide) (by decide),
    (haccounts _).mpr (by decide)⟩

structure Tended (accounts : List Uuid) (w : Watchers) : Prop where
  faithful : w.registry.Faithful
  same : w.accounts = accounts
  live : ∀ watcher ∈ w.registry.live, watcher.1 ∈ accounts

theorem tended_effect (h : w.registry.Faithful) : Tended w.accounts w.effect where
  faithful := h.reconcile w.accounts
  same := rfl
  live := by
    intro watcher hlive
    rw [(show w.effect.registry.Faithful from h.reconcile w.accounts).live] at hlive
    exact (Registry.mem_keys_reconcile w.registry w.accounts watcher.1).mp (List.mem_map_of_mem hlive)

theorem Quiet.tended {accounts : List Uuid} (hturn : Quiet w v) (h : Tended accounts w) :
    Tended accounts v ∧ ∃ polled, v.sent = w.sent ++ polled ∧
      ∀ target ∈ polled, ∃ account ∈ accounts, target = .one account := by
  cases hturn with
  | effect =>
    have hafter := tended_effect h.faithful
    rw [h.same] at hafter
    exact ⟨hafter, [], (List.append_nil _).symm, by simp⟩
  | poll watcher hlive =>
    refine ⟨⟨h.faithful, h.same, h.live⟩, [.one watcher.1], rfl, ?_⟩
    intro target htarget
    exact ⟨watcher.1, h.live watcher hlive, List.mem_singleton.mp htarget⟩

/-- No ghost polling: from the effect on, and until the accounts change again, nothing but the
accounts of the screen is polled. -/
theorem sent_of_effect (hw : Reachable w) (hrun : Relation.ReflTransGen Quiet w.effect v) :
    ∃ polled, v.sent = w.sent ++ polled ∧
      ∀ target ∈ polled, ∃ account ∈ w.accounts, target = .one account := by
  suffices h : Tended w.accounts v ∧ ∃ polled, v.sent = w.sent ++ polled ∧
      ∀ target ∈ polled, ∃ account ∈ w.accounts, target = .one account from h.2
  induction hrun with
  | refl => exact ⟨tended_effect hw.faithful, [], (List.append_nil _).symm, by simp⟩
  | tail _ hturn ih =>
    obtain ⟨htended, polled, hsent, hpolled⟩ := ih
    obtain ⟨htended', polled', hsent', hpolled'⟩ := hturn.tended htended
    refine ⟨htended', polled ++ polled', by rw [hsent', hsent, List.append_assoc], ?_⟩
    intro target htarget
    cases List.mem_append.mp htarget with
    | inl h => exact hpolled target h
    | inr h => exact hpolled' target h

theorem sent_of_effect_changed : ∃ polled,
    ((changed.effect.poll (.ending 'b')).effect.poll (.ending 'c')).sent = changed.sent ++ polled ∧
      ∀ target ∈ polled, ∃ account ∈ changed.accounts, target = .one account := by
  apply sent_of_effect reachable_changed
  have hkept : Quiet changed.effect (changed.effect.poll (.ending 'b')) := .poll (.ending 'b', 1) (by decide)
  exact ((Relation.ReflTransGen.single hkept).tail .effect).tail (.poll (.ending 'c', 2) (by decide))

end Laws

end Watchers

end Fumiko.App
