import Fumiko.Storage.Findings
import Fumiko.Storage.RunLaws
import Mathlib.Algebra.BigOperators.Group.List.Basic
import Mathlib.Algebra.GroupWithZero.Nat
import Mathlib.Data.List.Dedup

namespace Fumiko.Storage

open Fumiko.Common Fumiko.Foundation Fumiko.Foundation.Action Fumiko.Program

section Counting

variable {α κ : Type} [DecidableEq κ] {l : List α} {ks : List κ} {k : κ} {p q : α → Bool} {key : α → κ}

theorem countP_mem_cons (hk : k ∉ ks) :
    l.countP (fun a => p a && decide (key a ∈ k :: ks)) =
      l.countP (fun a => p a && decide (key a = k)) + l.countP (fun a => p a && decide (key a ∈ ks)) := by
  induction l with
  | nil => rfl
  | cons a l ih =>
    rw [List.countP_cons, List.countP_cons, List.countP_cons, ih]
    by_cases hkey : key a = k
    · cases hp : p a <;> simp [hkey, hk]
      omega
    · cases hp : p a <;> simp [hkey]
      omega

theorem countP_eq_sum (hks : ks.Nodup) (hkey : ∀ a ∈ l, key a ∈ ks) :
    l.countP p = (ks.map fun k => l.countP fun a => p a && decide (key a = k)).sum := by
  have hsum : ∀ {ks : List κ}, ks.Nodup → l.countP (fun a => p a && decide (key a ∈ ks)) =
      (ks.map fun k => l.countP fun a => p a && decide (key a = k)).sum := by
    intro ks hks
    induction ks with
    | nil => simp
    | cons k ks ih =>
      rw [countP_mem_cons (List.nodup_cons.mp hks).1, ih (List.nodup_cons.mp hks).2, List.map_cons,
        List.sum_cons]
  rw [← hsum hks]
  apply List.countP_congr
  intro a ha
  simp [hkey a ha]

theorem countP_eq_iff_of_imp (himp : ∀ a ∈ l, q a → p a) :
    l.countP q = l.countP p ↔ ∀ a ∈ l, p a → q a := by
  induction l with
  | nil => simp
  | cons a l ih =>
    have hle : l.countP q ≤ l.countP p :=
      List.countP_mono_left fun b hb => himp b (List.mem_cons_of_mem _ hb)
    have hrest := ih fun b hb => himp b (List.mem_cons_of_mem _ hb)
    have hhead := himp a List.mem_cons_self
    simp only [List.countP_cons, List.forall_mem_cons, ← hrest]
    cases hp : p a <;> cases hq : q a <;> simp_all
    omega

end Counting

namespace Db

variable {db : Db} {p : EmailRow → Bool} {account : Option Uuid} {scope : Option Uuid}

section Statistics

theorem WellFormed.countMatched (h : db.WellFormed) (p : EmailRow → Bool) :
    db.countMatched p = db.emails.countP fun e => p e && db.classified e.id := by
  have hnodup : ((db.emails.filter fun e => p e && db.classified e.id).map EmailRow.id).Nodup :=
    h.emailsPk.sublist (List.filter_sublist.map _)
  have hperm : (db.classifications.flatMap fun c =>
      (db.emails.filter fun m => decide (m.id = c.emailId) && p m).map fun _ => c.emailId).dedup.Perm
        ((db.emails.filter fun e => p e && db.classified e.id).map EmailRow.id) := by
    rw [List.perm_ext_iff_of_nodup (List.nodup_dedup _) hnodup]
    intro id
    simp only [List.mem_dedup, List.mem_flatMap, List.mem_map, List.mem_filter, Bool.and_eq_true,
      decide_eq_true_eq, classified_iff]
    constructor
    · rintro ⟨c, hc, e, ⟨he, hid, hp⟩, rfl⟩
      exact ⟨e, ⟨he, hp, c, hc, hid.symm⟩, hid⟩
    · rintro ⟨e, ⟨he, hp, c, hc, hid⟩, rfl⟩
      exact ⟨c, hc, e, ⟨he, hid.symm, hp⟩, hid⟩
  rw [Db.countMatched, hperm.length_eq, List.length_map, List.countP_eq_length_filter]

/-- The statistics of all mailboxes are the sums of those of each, and each count is within
the next. -/
structure StatsConsistent (db : Db) : Prop where
  unread : (db.mailboxStats none).unreadCount =
    (db.linkedAccounts.map fun a => (db.mailboxStats (some a.id)).unreadCount).sum
  findings : (db.mailboxStats none).findingsCount =
    (db.linkedAccounts.map fun a => (db.mailboxStats (some a.id)).findingsCount).sum
  total : (db.mailboxStats none).totalCount =
    (db.linkedAccounts.map fun a => (db.mailboxStats (some a.id)).totalCount).sum
  nested : ∀ account, (db.mailboxStats account).findingsCount ≤ (db.mailboxStats account).unreadCount ∧
    (db.mailboxStats account).unreadCount ≤ (db.mailboxStats account).totalCount

theorem WellFormed.countP_emails (h : db.WellFormed) (p : EmailRow → Bool) :
    db.emails.countP p = (db.linkedAccounts.map fun a =>
      db.emails.countP fun e => p e && decide (e.accountId = a.id)).sum := by
  have howner : ∀ e ∈ db.emails, e.accountId ∈ db.linkedAccounts.map LinkedAccount.id := by
    intro e he
    obtain ⟨a, ha, hid⟩ := h.emailsFk e he
    exact hid ▸ List.mem_map_of_mem ha
  rw [countP_eq_sum h.accountsPk howner, List.map_map]
  rfl

theorem WellFormed.statsConsistent (h : db.WellFormed) : db.StatsConsistent where
  unread := by
    simp only [mailboxStats, inScope, Option.all_none, Option.all_some, Bool.and_true]
    exact h.countP_emails isUnread
  findings := by
    simp only [mailboxStats, h.countMatched, inScope, Option.all_none, Option.all_some, Bool.and_true,
      Bool.and_right_comm _ _ (db.classified _)]
    exact h.countP_emails fun e => isUnread e && db.classified e.id
  total := by
    simp only [mailboxStats, inScope, Option.all_none, Option.all_some, Bool.and_true]
    exact h.countP_emails fun e => !e.isTrashed
  nested account := by
    simp only [mailboxStats, h.countMatched]
    constructor
    · refine List.countP_mono_left fun e _ hcounted => ?_
      exact (Bool.and_eq_true_iff.mp hcounted).1
    · refine List.countP_mono_left fun e _ hcounted => ?_
      simp only [isUnread, Bool.and_eq_true] at hcounted ⊢
      exact ⟨hcounted.1.1.1, hcounted.2⟩

/-- After the call nothing in the scope is unread, and the other mailboxes count as before. -/
structure ScopeRead (account : Option Uuid) (db db' : Db) : Prop where
  unread : (db'.mailboxStats account).unreadCount = 0
  findings : (db'.mailboxStats account).findingsCount = 0
  others : ∀ a b, account = some a → b ≠ a → db'.mailboxStats (some b) = db.mailboxStats (some b)

/-- A row after `mark_all_read`. -/
def readRow (account : Option Uuid) (e : EmailRow) : EmailRow :=
  if !e.isTrashed && account.all (e.accountId = ·) then { e with isRead := true, appHasViewed := true }
  else e

theorem countP_markAllRead (account : Option Uuid) (p : EmailRow → Bool) (db : Db) :
    (db.markAllRead account).emails.countP p = db.emails.countP fun e => p (readRow account e) := by
  rw [Db.markAllRead, updateEmails, List.countP_map]
  rfl

theorem readRow_id (account : Option Uuid) (e : EmailRow) : (readRow account e).id = e.id := by
  rw [readRow]
  split <;> rfl

theorem isUnread_readRow (account : Option Uuid) (e : EmailRow) :
    (isUnread (readRow account e) && inScope account (readRow account e)) = false := by
  rw [readRow]
  split
  · simp [isUnread]
  · next hother =>
    rw [isUnread, inScope]
    cases htrashed : e.isTrashed <;> simp_all

theorem readRow_of_other {a b : Uuid} (hb : b ≠ a) {e : EmailRow} (he : e.accountId = b) :
    readRow (some a) e = e := by
  rw [readRow, if_neg]
  simp [he, hb]

theorem inScope_readRow (account scope : Option Uuid) (e : EmailRow) :
    inScope scope (readRow account e) = inScope scope e := by
  rw [readRow]
  split <;> rfl

theorem readRow_scoped {a b : Uuid} (hb : b ≠ a) (p : EmailRow → Bool) (e : EmailRow) :
    (p (readRow (some a) e) && inScope (some b) (readRow (some a) e)) = (p e && inScope (some b) e) := by
  rw [inScope_readRow]
  by_cases he : e.accountId = b
  · rw [readRow_of_other hb he]
  · simp [inScope, he]

theorem WellFormed.markAllRead (h : db.WellFormed) (account : Option Uuid) :
    (db.markAllRead account).WellFormed := by
  have hread (e : EmailRow) : Touched 0 e { e with isRead := true, appHasViewed := true } :=
    ⟨rfl, rfl, rfl, fun _ => rfl, Or.inl ⟨rfl, rfl⟩⟩
  exact h.updateEmails _ hread

theorem classified_markAllRead (account : Option Uuid) (id : Uuid) :
    (db.markAllRead account).classified id = db.classified id := rfl

theorem WellFormed.scopeRead (h : db.WellFormed) (account : Option Uuid) :
    ScopeRead account db (db.markAllRead account) where
  unread := by
    rw [mailboxStats, countP_markAllRead, List.countP_eq_zero]
    simp [isUnread_readRow]
  findings := by
    simp only [mailboxStats]
    rw [(h.markAllRead account).countMatched, countP_markAllRead, List.countP_eq_zero]
    simp [isUnread_readRow]
  others := by
    rintro a b rfl hb
    simp only [mailboxStats, h.countMatched, (h.markAllRead (some a)).countMatched, countP_markAllRead,
      readRow_id, classified_markAllRead, readRow_scoped hb isUnread,
      readRow_scoped hb fun e => !e.isTrashed]

end Statistics

end Db

section Runs

variable {w w' : World}

def reached (calls : List (Outside × Operation)) (w : World) : World :=
  Operation.performAll calls { w with db := Db.empty }

theorem reached_wellFormed (calls : List (Outside × Operation)) (w : World) :
    (reached calls w).db.WellFormed := performAll_wellFormed calls Db.wellFormed_empty

theorem query_eq_ok {α : Type} {f : Db → α} {a : α} (h : query f w = (.ok a, w')) : a = f w.db := by
  rw [query_run] at h
  split at h
  · cases h
  · cases h
    rfl

/-- The statistics of every mailbox of a reached store agree with those of the others, and marking a
scope as read clears its counts and no others. -/
theorem reached_statsConsistent (calls : List (Outside × Operation)) (start : World) :
    (reached calls start).db.StatsConsistent ∧
      (∀ account outside stats after,
        getMailboxStats account { reached calls start with outside } = (.ok stats, after) →
          stats = (reached calls start).db.mailboxStats account) ∧
      ∀ account outside after, markAllRead account { reached calls start with outside } = (.ok (), after) →
        Db.ScopeRead account (reached calls start).db after.db := by
  have hreached := reached_wellFormed calls start
  refine ⟨hreached.statsConsistent, ?_, ?_⟩
  · intro account outside stats after hstats
    exact query_eq_ok (w := { reached calls start with outside }) hstats
  · intro account outside after hmarked
    rw [execute_eq_ok hmarked]
    exact hreached.scopeRead account

theorem reached_statsConsistent_example :
    ((reached [linkingCall, savingCall] blankWorld).db.mailboxStats none).unreadCount = 1 ∧
      ((markAllRead none { reached [linkingCall, savingCall] blankWorld with outside := {} }).2.db.mailboxStats
        none).unreadCount = 0 :=
  ⟨rfl, ((reached_statsConsistent [linkingCall, savingCall] blankWorld).2.2 none {} _ rfl).unread⟩

end Runs

end Fumiko.Storage
