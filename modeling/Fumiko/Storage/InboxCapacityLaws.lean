import Fumiko.Storage.CapacityLaws
import Fumiko.Storage.SchemaLaws

namespace Fumiko.Storage

open Fumiko.Common Fumiko.Foundation Fumiko.Foundation.Action

namespace Db

def inbox (accountId : Uuid) (db : Db) : List EmailRow :=
  db.emails.filter fun e => e.accountId = accountId ∧ !e.isTrashed ∧ !db.classified e.id

/-- What a pruning that counts `count` inbox emails leaves of the emails before. -/
structure PrunesInbox (ranking : ReceivedDesc) (accountId : Uuid) (maxInbox maxFindings : Int)
    (db : Db) (count : Nat) (db' : Db) : Prop where
  left : ((db.inbox accountId).filter (· ∈ db'.emails)).length =
    min maxInbox.toNat (db.inbox accountId).length
  newest : ∀ kept ∈ db.inbox accountId, ∀ gone ∈ db.inbox accountId,
    kept ∈ db'.emails → gone ∉ db'.emails → gone.receivedAt ≤ kept.receivedAt
  counts : count = ((db.inbox accountId).filter (· ∉ db'.emails)).length
  trashed : ∀ e ∈ db.emails, e.isTrashed → e ∈ db'.emails
  otherAccount : ∀ e ∈ db.emails, e.accountId ≠ accountId → e ∈ db'.emails
  classified : ∀ e ∈ db.emails, db.classified e.id → ∀ other : Int,
    (e ∈ db'.emails ↔ e ∈ (db.purgeOldEmails ranking accountId other maxFindings).2.emails)
  again : ∀ ranking, db'.purgeInbox ranking accountId maxInbox = (0, db')

section Kept

variable {accountId : Uuid} {db : Db} {ranking : ReceivedDesc} {n : Nat}

theorem mem_inbox {e : EmailRow} : e ∈ db.inbox accountId ↔
    e ∈ db.emails ∧ e.accountId = accountId ∧ e.isTrashed = false ∧ db.classified e.id = false := by
  simp [inbox]

theorem keptInbox_eq : db.keptInbox ranking accountId n =
    ((ranking.order ((db.inbox accountId).map fun e => (e.id, e.receivedAt))).take n).map Prod.fst := by
  rw [keptInbox, limit_natCast, inbox]

theorem order_inbox_perm :
    ((ranking.order ((db.inbox accountId).map fun e => (e.id, e.receivedAt))).map Prod.fst).Perm
      ((db.inbox accountId).map EmailRow.id) := by
  have hperm := (ranking.perm ((db.inbox accountId).map fun e => (e.id, e.receivedAt))).map Prod.fst
  rwa [List.map_map] at hperm

theorem length_keptInbox (ranking : ReceivedDesc) :
    (db.keptInbox ranking accountId n).length = min n (db.inbox accountId).length := by
  rw [keptInbox_eq, List.length_map, List.length_take, Ranking.length_order, List.length_map]

theorem keptInbox_subset {id : Uuid} (h : id ∈ db.keptInbox ranking accountId n) :
    ∃ e ∈ db.inbox accountId, e.id = id := by
  rw [keptInbox_eq, List.map_take] at h
  exact List.mem_map.mp (order_inbox_perm.mem_iff.mp (List.mem_of_mem_take h))

theorem WellFormed.inbox_nodup (hdb : db.WellFormed) : ((db.inbox accountId).map EmailRow.id).Nodup :=
  hdb.emailsPk.sublist (List.filter_sublist.map _)

theorem WellFormed.keptInbox_nodup (hdb : db.WellFormed) :
    (db.keptInbox ranking accountId n).Nodup := by
  rw [keptInbox_eq, List.map_take]
  exact (order_inbox_perm.nodup_iff.mpr hdb.inbox_nodup).sublist (List.take_sublist _ _)

theorem WellFormed.length_filter_keptInbox (hdb : db.WellFormed) (ranking : ReceivedDesc) :
    ((db.inbox accountId).filter (·.id ∈ db.keptInbox ranking accountId n)).length =
      min n (db.inbox accountId).length := by
  rw [← length_keptInbox ranking, ← List.length_map EmailRow.id]
  apply List.Perm.length_eq
  rw [List.perm_ext_iff_of_nodup (hdb.inbox_nodup.sublist (List.filter_sublist.map _))
    hdb.keptInbox_nodup]
  intro id
  simp only [List.mem_map, List.mem_filter, decide_eq_true_eq]
  constructor
  · rintro ⟨e, ⟨-, hkept⟩, rfl⟩
    exact hkept
  · intro hid
    obtain ⟨e, he, rfl⟩ := keptInbox_subset hid
    exact ⟨e, ⟨he, hid⟩, rfl⟩

theorem WellFormed.keptInbox_newest (hdb : db.WellFormed) {kept gone : EmailRow}
    (hkept : kept ∈ db.inbox accountId) (hgone : gone ∈ db.inbox accountId)
    (hin : kept.id ∈ db.keptInbox ranking accountId n)
    (hout : gone.id ∉ db.keptInbox ranking accountId n) : gone.receivedAt ≤ kept.receivedAt := by
  rw [keptInbox_eq] at hin hout
  obtain ⟨r, hr, hid⟩ := List.mem_map.mp hin
  obtain ⟨e, he, rfl⟩ := List.mem_map.mp (ranking.mem_order.mp (List.mem_of_mem_take hr))
  have hrow : (gone.id, gone.receivedAt) ∈
      ranking.order ((db.inbox accountId).map fun e => (e.id, e.receivedAt)) :=
    ranking.mem_order.mpr (List.mem_map.mpr ⟨gone, hgone, rfl⟩)
  have hle := Ranking.key_le_of_name (ranking.sorted _) hrow hout hr
  rwa [List.inj_on_of_nodup_map hdb.inbox_nodup he hkept hid] at hle

theorem keptInbox_all (h : (db.inbox accountId).length ≤ n) {e : EmailRow}
    (he : e ∈ db.inbox accountId) : e.id ∈ db.keptInbox ranking accountId n := by
  rw [keptInbox_eq, List.take_of_length_le (by simpa using h), order_inbox_perm.mem_iff]
  exact List.mem_map_of_mem he

end Kept

section Purge

variable {accountId : Uuid} {db : Db} {ranking : ReceivedDesc} {n : Nat} {maxInbox maxFindings : Int}

theorem inboxSurplus_iff {e : EmailRow} (he : e ∈ db.emails) :
    db.inboxSurplus ranking accountId maxInbox e ↔
      e ∈ db.inbox accountId ∧ e.id ∉ db.keptInbox ranking accountId maxInbox := by
  simp [inboxSurplus, mem_inbox, he, and_assoc]

theorem findingsSurplus_classified {e : EmailRow}
    (h : db.findingsSurplus ranking accountId maxFindings e) : db.classified e.id := by
  simp only [findingsSurplus, decide_eq_true_eq] at h
  exact h.2.2.1

theorem WellFormed.classified_deleteEmails (hdb : db.WellFormed) {p : EmailRow → Bool} {e : EmailRow}
    (he : e ∈ (db.deleteEmails p).emails) : (db.deleteEmails p).classified e.id = db.classified e.id := by
  obtain ⟨hmem, hkept⟩ := List.mem_filter.mp he
  rw [Bool.eq_iff_iff, classified_iff, classified_iff]
  constructor
  · rintro ⟨c, hc, hid⟩
    exact ⟨c, (List.mem_filter.mp hc).1, hid⟩
  · rintro ⟨c, hc, hid⟩
    refine ⟨c, List.mem_filter.mpr ⟨hc, ?_⟩, hid⟩
    rw [Bool.not_eq_true', List.any_eq_false]
    intro f hf hboth
    rw [Bool.and_eq_true, decide_eq_true_eq] at hboth
    -- The ids are a primary key, so the classification of `e` goes with no other email.
    have heq : f = e := List.inj_on_of_nodup_map hdb.emailsPk hf hmem (hboth.2.trans hid)
    rw [heq] at hboth
    simp [hboth.1] at hkept

theorem purgeInbox_inbox : (db.purgeInbox ranking accountId maxInbox).2.inbox accountId =
    (db.inbox accountId).filter (·.id ∈ db.keptInbox ranking accountId maxInbox) := by
  simp only [inbox, purgeInbox_classified]
  change ((db.emails.filter _).filter _) = _
  rw [List.filter_filter, List.filter_filter]
  apply List.filter_congr
  intro e he
  rw [Bool.eq_iff_iff]
  simp only [Bool.and_eq_true, decide_eq_true_eq, Bool.not_eq_true', Bool.eq_false_iff,
    Ne, inboxSurplus_iff he, mem_inbox]
  tauto

theorem purgeInbox_count : (db.purgeInbox ranking accountId maxInbox).1 =
    ((db.inbox accountId).filter (·.id ∉ db.keptInbox ranking accountId maxInbox)).length := by
  change db.emails.countP _ = _
  rw [List.countP_eq_length_filter, inbox, List.filter_filter]
  congr 1
  apply List.filter_congr
  intro e he
  rw [Bool.eq_iff_iff, inboxSurplus_iff he, mem_inbox]
  simp [he, and_comm, and_assoc]

theorem WellFormed.purgeFindings_inbox (hdb : db.WellFormed) :
    (db.purgeFindings ranking accountId maxFindings).2.inbox accountId = db.inbox accountId := by
  change ((db.emails.filter _).filter _) = _
  rw [List.filter_filter, inbox]
  apply List.filter_congr
  intro e he
  cases hgone : db.findingsSurplus ranking accountId maxFindings e with
  | true => simp [findingsSurplus_classified hgone]
  | false =>
    have hkept : e ∈ (db.deleteEmails (db.findingsSurplus ranking accountId maxFindings)).emails :=
      List.mem_filter.mpr ⟨he, by simp [hgone]⟩
    simp only [purgeFindings, hdb.classified_deleteEmails hkept, Bool.not_false, Bool.and_true]

theorem purgeInbox_findingsSurplus (maxInbox : Int) :
    (db.purgeInbox ranking accountId maxInbox).2.findingsSurplus ranking accountId maxFindings =
    db.findingsSurplus ranking accountId maxFindings := by
  funext e
  unfold findingsSurplus keptFindings
  rw [purgeInbox_classified, purgeInbox_findingRows]

theorem mem_purgeOldEmails_iff {e : EmailRow} :
    e ∈ (db.purgeOldEmails ranking accountId maxInbox maxFindings).2.emails ↔
      e ∈ db.emails ∧ ¬db.inboxSurplus ranking accountId maxInbox e ∧
        ¬db.findingsSurplus ranking accountId maxFindings e := by
  rw [← purgeInbox_findingsSurplus maxInbox]
  change e ∈ (db.emails.filter _).filter _ ↔ _
  rw [List.mem_filter, List.mem_filter, and_assoc, Bool.not_eq_true', Bool.not_eq_true', Bool.not_eq_true,
    Bool.not_eq_true]

theorem mem_purgeOldEmails_inbox {e : EmailRow} (he : e ∈ db.inbox accountId) :
    e ∈ (db.purgeOldEmails ranking accountId maxInbox maxFindings).2.emails ↔
      e.id ∈ db.keptInbox ranking accountId maxInbox := by
  have hmem := mem_inbox.mp he
  have hfindings : ¬db.findingsSurplus ranking accountId maxFindings e := by
    intro hsurplus
    rw [findingsSurplus_classified hsurplus] at hmem
    cases hmem.2.2.2
  rw [mem_purgeOldEmails_iff, inboxSurplus_iff hmem.1]
  simp [hmem.1, he, hfindings]

theorem mem_purgeOldEmails_of_classified {e : EmailRow} (h : db.classified e.id) :
    e ∈ (db.purgeOldEmails ranking accountId maxInbox maxFindings).2.emails ↔
      e ∈ db.emails ∧ ¬db.findingsSurplus ranking accountId maxFindings e := by
  have hinbox : ¬db.inboxSurplus ranking accountId maxInbox e := by simp [inboxSurplus, h]
  simp [mem_purgeOldEmails_iff, hinbox]

theorem live_of_deleted {e : EmailRow} (he : e ∈ db.emails)
    (h : e ∉ (db.purgeOldEmails ranking accountId maxInbox maxFindings).2.emails) :
    e.accountId = accountId ∧ e.isTrashed = false := by
  by_contra hlive
  apply h
  rw [mem_purgeOldEmails_iff]
  refine ⟨he, ?_, ?_⟩
  · simp only [inboxSurplus, decide_eq_true_eq, Bool.not_eq_true']
    exact fun hsurplus => hlive ⟨hsurplus.1, hsurplus.2.1⟩
  · simp only [findingsSurplus, decide_eq_true_eq, Bool.not_eq_true']
    exact fun hsurplus => hlive ⟨hsurplus.1, hsurplus.2.1⟩

theorem deleteEmails_none {p : EmailRow → Bool} (h : ∀ e ∈ db.emails, p e = false) :
    db.deleteEmails p = db := by
  have hemails : db.emails.filter (!p ·) = db.emails := by
    apply List.filter_eq_self.mpr
    intro e he
    rw [h e he, Bool.not_false]
  have hclassifications : (db.classifications.filter fun c =>
      !db.emails.any fun e => p e && decide (e.id = c.emailId)) = db.classifications := by
    apply List.filter_eq_self.mpr
    intro c _
    rw [Bool.not_eq_true', List.any_eq_false]
    intro e he
    simp [h e he]
  simp only [deleteEmails, hemails, hclassifications]

theorem purgeInbox_of_length_le (h : (db.inbox accountId).length ≤ n) :
    db.purgeInbox ranking accountId n = (0, db) := by
  have hnone (e : EmailRow) (he : e ∈ db.emails) : db.inboxSurplus ranking accountId n e = false := by
    rw [Bool.eq_false_iff, Ne, inboxSurplus_iff he]
    exact fun hsurplus => hsurplus.2 (keptInbox_all h hsurplus.1)
  have hcount : db.emails.countP (db.inboxSurplus ranking accountId n) = 0 := by
    rw [List.countP_eq_zero]
    intro e he
    simp [hnone e he]
  rw [purgeInbox, hcount, deleteEmails_none hnone]

theorem WellFormed.purgeOldEmails_inbox (hdb : db.WellFormed) :
    (db.purgeOldEmails ranking accountId maxInbox maxFindings).2.inbox accountId =
      (db.inbox accountId).filter (·.id ∈ db.keptInbox ranking accountId maxInbox) :=
  (hdb.deleteEmails _).purgeFindings_inbox.trans purgeInbox_inbox

theorem WellFormed.purgeOldEmails_prunesInbox (hdb : db.WellFormed) :
    PrunesInbox ranking accountId n maxFindings db
      (db.purgeOldEmails ranking accountId n maxFindings).1.1
      (db.purgeOldEmails ranking accountId n maxFindings).2 where
  left := by
    rw [Int.toNat_natCast, ← hdb.length_filter_keptInbox ranking]
    congr 1
    apply List.filter_congr
    intro e he
    rw [decide_eq_decide, mem_purgeOldEmails_inbox he]
  newest := by
    intro kept hkept gone hgone hin hout
    rw [mem_purgeOldEmails_inbox hkept] at hin
    rw [mem_purgeOldEmails_inbox hgone] at hout
    exact hdb.keptInbox_newest hkept hgone hin hout
  counts := by
    refine purgeInbox_count.trans (congrArg List.length ?_)
    apply List.filter_congr
    intro e he
    rw [decide_eq_decide, mem_purgeOldEmails_inbox he]
  trashed := by
    intro e he htrashed
    by_contra hgone
    rw [(live_of_deleted he hgone).2] at htrashed
    cases htrashed
  otherAccount := by
    intro e he hother
    by_contra hgone
    exact hother (live_of_deleted he hgone).1
  classified := by
    intro e he hclassified other
    rw [mem_purgeOldEmails_of_classified hclassified, mem_purgeOldEmails_of_classified hclassified]
  again := by
    intro ranking'
    apply purgeInbox_of_length_le
    rw [hdb.purgeOldEmails_inbox, hdb.length_filter_keptInbox]
    exact Nat.min_le_left _ _

end Purge

end Db

theorem purgeOldEmails_prunes_inbox {account : Uuid} {maxInbox maxFindings : Int} {w w' : World}
    {counts : Nat × Nat} (hdb : w.db.WellFormed) (hmax : 0 ≤ maxInbox)
    (h : purgeOldEmails account maxInbox maxFindings w = (.ok counts, w')) :
    w.db.PrunesInbox w.outside.ranking account maxInbox maxFindings counts.1 w'.db := by
  obtain ⟨n, rfl⟩ := Int.eq_ofNat_of_zero_le hmax
  obtain ⟨hcounts, hdb'⟩ := Prod.ext_iff.mp (purgeOldEmails_eq_ok h)
  dsimp only at hcounts hdb'
  rw [hcounts, hdb']
  exact hdb.purgeOldEmails_prunesInbox

section Example

def protectedDb : Db where
  linkedAccounts := [exampleAccount]
  watchCriteria := [exampleCriterion '2']
  emails := [exampleEmail '3' 100, exampleEmail '4' 200, exampleEmail '5' 300, exampleEmail '6' 400]
  classifications := [exampleMatch '7' '3' '2']
  settings := []

def protectedWorld : World := answering protectedDb (Ranking.stable Prod.snd)

theorem purgeOldEmails_prunes_inbox_example :
    protectedDb.PrunesInbox (Ranking.stable Prod.snd) (.ending '1') 2 10 1
      (purgeOldEmails (.ending '1') 2 10 protectedWorld).2.db := by
  have hdb : protectedWorld.db.WellFormed := by constructor <;> decide
  have hrun : purgeOldEmails (.ending '1') 2 10 protectedWorld =
      (.ok (1, 0), (purgeOldEmails (.ending '1') 2 10 protectedWorld).2) := rfl
  exact purgeOldEmails_prunes_inbox hdb (by decide) hrun

end Example

end Fumiko.Storage
