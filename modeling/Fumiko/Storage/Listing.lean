import Fumiko.Storage.FindingsLaws
import Fumiko.Storage.InboxCapacityLaws
import Mathlib.Data.Int.ConditionallyCompleteOrder
import Mathlib.Order.ConditionallyCompleteLattice.Basic
import Mathlib.Order.WithBot

namespace Fumiko.Storage

open Fumiko.Common Fumiko.Foundation Fumiko.Foundation.Action Fumiko.Program

/-- `ORDER BY received_at DESC` over the emails. -/
abbrev EmailsDesc := Ranking EmailRow EmailRow.receivedAt

def trashOrder (e : EmailRow) : WithBot Int := e.trashedAt

/-- `ORDER BY trashed_at DESC` -/
abbrev TrashDesc := Ranking EmailRow trashOrder

namespace Db

def inboxRows (account : Option Uuid) (db : Db) : List EmailRow :=
  db.emails.filter fun e => !e.isTrashed && inScope account e

def listInbox (ranking : EmailsDesc) (account : Option Uuid) (maxRows : Int) (db : Db) : List EmailRow :=
  limit maxRows (ranking.order (db.inboxRows account))

def listTrash (ranking : TrashDesc) (maxRows : Int) (db : Db) : List EmailRow :=
  limit maxRows (ranking.order (db.emails.filter (·.isTrashed)))

def emailById (id : Uuid) (db : Db) : Option EmailRow := db.emails.find? (·.id = id)

end Db

def getEmail (email : Uuid) : Program StorageError (Option EmailRow) := query (Db.emailById email)

def listInbox (ranking : EmailsDesc) (account : Uuid) (limit : Int) : Program StorageError (List EmailRow) := do
  Action.liftExcept (validateLimit limit)
  query (Db.listInbox ranking (some account) limit)

def listInboxAll (ranking : EmailsDesc) (limit : Int) : Program StorageError (List EmailRow) := do
  Action.liftExcept (validateLimit limit)
  query (Db.listInbox ranking none limit)

def listTrash (ranking : TrashDesc) (limit : Int) : Program StorageError (List EmailRow) := do
  Action.liftExcept (validateLimit limit)
  query (Db.listTrash ranking limit)

namespace Db

section Views

variable {account : Option Uuid} {n : Nat} {db : Db}

theorem listInbox_natCast (ranking : EmailsDesc) (account : Option Uuid) (n : Nat) (db : Db) :
    db.listInbox ranking account n = (ranking.order (db.inboxRows account)).take n := limit_natCast n _

theorem mem_inboxRows {e : EmailRow} :
    e ∈ db.inboxRows account ↔ e ∈ db.emails ∧ e.isTrashed = false ∧ inScope account e := by
  simp [inboxRows]

theorem inboxRows_some (id : Uuid) (db : Db) :
    db.inboxRows (some id) = (db.inboxRows none).filter fun e => e.accountId = id := by
  simp only [inboxRows, List.filter_filter, inScope, Option.all_some, Option.all_none, Bool.and_true]
  exact List.filter_congr fun e _ => Bool.and_comm _ _

/-- What the inbox of all accounts shows is put together from what the inbox of each account may
show: sorted, as long as the statistics say, and without a row of the trash. -/
theorem listInbox_merges (ranking : EmailsDesc) (n : Nat) (db : Db) :
    ((db.listInbox ranking none n).Pairwise fun a b => b.receivedAt ≤ a.receivedAt) ∧
      (db.listInbox ranking none n).length = min n (db.mailboxStats none).totalCount ∧
      (∀ e ∈ db.listInbox ranking none n, e ∈ db.emails ∧ e.isTrashed = false) ∧
      ∀ id, ∃ own : EmailsDesc, (db.listInbox ranking none n).filter (fun e => e.accountId = id) <+:
        db.listInbox own (some id) n := by
  simp only [listInbox_natCast]
  refine ⟨(ranking.sorted _).sublist (List.take_sublist n _), ?_, ?_, ?_⟩
  · rw [List.length_take, Ranking.length_order, mailboxStats]
    exact congrArg (min n) List.countP_eq_length_filter.symm
  · intro e he
    obtain ⟨hmem, hlive, -⟩ := mem_inboxRows.mp ((Ranking.mem_order _).mp (List.mem_of_mem_take he))
    exact ⟨hmem, hlive⟩
  · intro id
    rw [inboxRows_some]
    exact Ranking.exists_filter_take ranking _ _ n

end Views

section Pruning

variable {account : Uuid} {n : Nat} {db db' : Db}

theorem purgeOldEmails_emails (ranking : ReceivedDesc) (account : Uuid) (maxInbox maxFindings : Int) (db : Db) :
    ∃ p : EmailRow → Bool, (db.purgeOldEmails ranking account maxInbox maxFindings).2.emails =
      db.emails.filter p :=
  ⟨_, List.filter_filter⟩

theorem inboxRows_filter {p : EmailRow → Bool} (h : db'.emails = db.emails.filter p) (account : Option Uuid) :
    db'.inboxRows account = (db.inboxRows account).filter fun e => e ∈ db'.emails := by
  rw [inboxRows, inboxRows, List.filter_filter, h, List.filter_filter]
  apply List.filter_congr
  intro e he
  rw [Bool.and_comm]
  congr 1
  simp [he]

theorem PrunesInbox.le_countP {ranking : ReceivedDesc} {maxInbox maxFindings : Int} {count : Nat} {e : EmailRow}
    (h : PrunesInbox ranking account maxInbox maxFindings db count db') (hn : n ≤ maxInbox.toNat)
    {p : EmailRow → Bool} (hemails : db'.emails = db.emails.filter p) (he : e ∈ db.inbox account)
    (hgone : e ∉ db'.emails) :
    n ≤ (db'.inboxRows (some account)).countP fun f => decide (e.receivedAt ≤ f.receivedAt) := by
  have hfull : maxInbox.toNat ≤ (db.inbox account).length := by
    by_contra hroom
    have hleft := h.left
    rw [Nat.min_eq_right (Nat.le_of_not_le hroom), List.length_filter_eq_length_iff] at hleft
    exact hgone (of_decide_eq_true (hleft e he))
  have hnewer : ((db.inbox account).filter (· ∈ db'.emails)).countP
      (fun f => decide (e.receivedAt ≤ f.receivedAt)) = maxInbox.toNat := by
    rw [List.countP_eq_length.mpr, h.left, Nat.min_eq_left hfull]
    intro f hf
    rw [List.mem_filter, decide_eq_true_eq] at hf
    exact decide_eq_true (h.newest f hf.1 e he hf.2 hgone)
  have hsublist : ((db.inbox account).filter (· ∈ db'.emails)).Sublist (db'.inboxRows (some account)) := by
    rw [inboxRows_filter hemails]
    apply List.Sublist.filter
    rw [inbox, inboxRows]
    apply List.monotone_filter_right
    intro f hf
    simp only [Bool.not_eq_true', Bool.decide_and, Bool.and_eq_true, decide_eq_true_eq] at hf
    simp [inScope, hf.1, hf.2.1]
  exact hn.trans (hnewer ▸ hsublist.countP_le)

end Pruning

section Trash

variable {db : Db} {cutoff : Int}

theorem not_expired_iff {e : EmailRow} (h : e.isTrashed) : expired cutoff e = false ↔ cutoff < trashOrder e := by
  rw [expired, h, Bool.true_and, trashOrder]
  cases e.trashedAt with
  | none => exact ⟨fun h => (by cases h), fun h => absurd h (not_lt_bot)⟩
  | some t =>
    rw [Option.all_some, decide_eq_false_iff_not, Int.not_le]
    exact WithBot.coe_lt_coe.symm

theorem inboxRows_purgeExpiredTrash (cutoff : Int) (account : Option Uuid) (db : Db) :
    (db.purgeExpiredTrash cutoff).2.inboxRows account = db.inboxRows account := by
  change (db.emails.filter fun e => !expired cutoff e).filter _ = _
  rw [List.filter_filter, inboxRows]
  apply List.filter_congr
  intro e _
  cases hlive : e.isTrashed <;> simp [expired, hlive]

theorem listTrash_purgeExpiredTrash (cutoff : Int) (ranking : TrashDesc) (n : Nat) (db : Db) :
    ∃ ranking' : TrashDesc, (db.purgeExpiredTrash cutoff).2.listTrash ranking' n =
      (db.listTrash ranking n).takeWhile fun e => !expired cutoff e := by
  have hrows : (db.purgeExpiredTrash cutoff).2.emails.filter (·.isTrashed) =
      (db.emails.filter (·.isTrashed)).filter fun e => !expired cutoff e := by
    change (db.emails.filter fun e => !expired cutoff e).filter _ = _
    rw [List.filter_filter, List.filter_filter]
    exact List.filter_congr fun e _ => Bool.and_comm _ _
  let order := ranking.order (db.emails.filter (·.isTrashed))
  have hsorted : (order.filter fun e => !expired cutoff e).Pairwise fun a b => trashOrder b ≤ trashOrder a :=
    (ranking.sorted _).filter _
  refine ⟨Ranking.forcing _ hsorted, ?_⟩
  rw [listTrash, listTrash, limit_natCast, limit_natCast, hrows,
    Ranking.forcing_order hsorted ((ranking.perm _).filter _)]
  apply Ranking.take_filter_of_upward (ranking.sorted _)
  intro a ha b hb hle hkept
  have htrashed (e : EmailRow) (he : e ∈ order) : e.isTrashed :=
    (List.mem_filter.mp ((Ranking.mem_order ranking).mp he)).2
  rw [Bool.not_eq_true', not_expired_iff (htrashed b hb)] at hkept
  rw [Bool.not_eq_true', not_expired_iff (htrashed a ha)]
  exact hkept.trans_le hle

end Trash

end Db

section Calls

variable {account : Uuid} {maxInbox maxFindings : Int} {n : Nat} {w w' : World} {counts : Nat × Nat}

/-- However the store breaks ties, the inbox of an account shows after a pruning what it may have shown
before, just when enough newer mail is left for each finding that is deleted. -/
theorem listInbox_purgeOldEmails_iff (hdb : w.db.WellFormed) (hn : n ≤ maxInbox)
    (h : purgeOldEmails account maxInbox maxFindings w = (.ok counts, w')) :
    (∀ (after : EmailsDesc) (k : Nat), k ≤ n → ∃ before : EmailsDesc,
      w.db.listInbox before (some account) k = w'.db.listInbox after (some account) k) ↔
      ∀ e ∈ w.db.findings account, e ∉ w'.db.emails →
        n ≤ (w'.db.inboxRows (some account)).countP fun f => decide (e.receivedAt ≤ f.receivedAt) := by
  have hprunes := purgeOldEmails_prunes_inbox hdb (Int.le_trans (Int.natCast_nonneg n) hn) h
  obtain ⟨p, hp⟩ := w.db.purgeOldEmails_emails w.outside.ranking account maxInbox maxFindings
  have hemails : w'.db.emails = w.db.emails.filter p := by rw [purgeOldEmails_db h, hp]
  have hrows := Db.inboxRows_filter hemails (some account)
  simp only [Db.listInbox_natCast, hrows]
  rw [Ranking.take_of_filter_iff EmailRow.receivedAt, ← hrows]
  constructor
  · intro hall e he hgone
    obtain ⟨hmem, haccount, hlive, -⟩ := Db.mem_findings.mp he
    exact hall e (Db.mem_inboxRows.mpr ⟨hmem, hlive, by simp [inScope, haccount]⟩) (by simpa using hgone)
  · intro hfindings e he hgone
    obtain ⟨hmem, hlive, hscope⟩ := Db.mem_inboxRows.mp he
    have haccount : e.accountId = account := by simpa [inScope] using hscope
    rw [decide_eq_false_iff_not] at hgone
    by_cases hclassified : w.db.classified e.id
    · exact hfindings e (Db.mem_findings.mpr ⟨hmem, haccount, hlive, hclassified⟩) hgone
    · have hinbox : e ∈ w.db.inbox account :=
        Db.mem_inbox.mpr ⟨hmem, haccount, hlive, by simpa using hclassified⟩
      exact hprunes.le_countP (by omega) hemails hinbox hgone

theorem listInbox_purgeOldEmails_iff_example :
    (∀ (after : EmailsDesc) (k : Nat), k ≤ 2 → ∃ before : EmailsDesc,
      protectedDb.listInbox before (some (.ending '1')) k =
        (purgeOldEmails (.ending '1') 2 10 protectedWorld).2.db.listInbox after (some (.ending '1')) k) ↔
      ∀ e ∈ protectedDb.findings (.ending '1'),
        e ∉ (purgeOldEmails (.ending '1') 2 10 protectedWorld).2.db.emails →
          2 ≤ ((purgeOldEmails (.ending '1') 2 10 protectedWorld).2.db.inboxRows (some (.ending '1'))).countP
            fun f => decide (e.receivedAt ≤ f.receivedAt) := by
  have hdb : protectedWorld.db.WellFormed := by constructor <;> decide
  have hrun : purgeOldEmails (.ending '1') 2 10 protectedWorld =
      (.ok (1, 0), (purgeOldEmails (.ending '1') 2 10 protectedWorld).2) := rfl
  exact listInbox_purgeOldEmails_iff hdb (by decide) hrun

theorem purgeExpiredTrash_db {retentionDays : Int} {count : Nat}
    (h : purgeExpiredTrash retentionDays w = (.ok count, w')) :
    w'.db = (w.db.purgeExpiredTrash (w.nextTime - retentionDays * secondsPerDay)).2 := by
  rw [purgeExpiredTrash] at h
  split at h
  · cases h
  · obtain ⟨now, w₁, hnow, h⟩ := bind_eq_ok.mp h
    cases hnow
    obtain ⟨db, hdb, rfl⟩ := statement_eq_ok h
    cases hdb
    rfl

/-- A purge of the trash is the loss of the end of its list, and the inboxes do not notice it. -/
theorem lists_purgeExpiredTrash {retentionDays : Int} {count : Nat}
    (h : purgeExpiredTrash retentionDays w = (.ok count, w')) :
    (∀ account, w'.db.inboxRows account = w.db.inboxRows account) ∧
      ∀ (ranking : TrashDesc) (n : Nat), ∃ ranking' : TrashDesc, w'.db.listTrash ranking' n =
        (w.db.listTrash ranking n).takeWhile fun e =>
          !Db.expired (w.nextTime - retentionDays * secondsPerDay) e := by
  rw [purgeExpiredTrash_db h]
  exact ⟨fun account => Db.inboxRows_purgeExpiredTrash _ account w.db,
    fun ranking n => Db.listTrash_purgeExpiredTrash _ ranking n w.db⟩

def binWorld : World :=
  { answering { protectedDb with
      emails := [{ exampleEmail '3' 100 with isTrashed := true, trashedAt := some 200 },
        { exampleEmail '4' 300 with isTrashed := true, trashedAt := some 90000 }]
      classifications := [] } (Ranking.stable Prod.snd) with
    outside := { clock := [90000] } }

theorem lists_purgeExpiredTrash_example :
    (∀ account, (purgeExpiredTrash 1 binWorld).2.db.inboxRows account = binWorld.db.inboxRows account) ∧
      ∀ (ranking : TrashDesc) (n : Nat), ∃ ranking' : TrashDesc,
        (purgeExpiredTrash 1 binWorld).2.db.listTrash ranking' n =
          (binWorld.db.listTrash ranking n).takeWhile fun e =>
            !Db.expired (binWorld.nextTime - 1 * secondsPerDay) e := by
  have hrun : purgeExpiredTrash 1 binWorld = (.ok 1, (purgeExpiredTrash 1 binWorld).2) := rfl
  exact lists_purgeExpiredTrash hrun

end Calls

end Fumiko.Storage
