import Fumiko.Storage.SchemaLaws
import Fumiko.Storage.ServiceLaws
import Mathlib.Algebra.BigOperators.Group.List.Basic
import Mathlib.Algebra.GroupWithZero.Nat
import Mathlib.Data.List.Dedup

namespace Fumiko.Storage

open Fumiko.Common Fumiko.Foundation Fumiko.Foundation.Action

namespace Db

def findings (accountId : Uuid) (db : Db) : List EmailRow :=
  db.emails.filter fun e => e.accountId = accountId ∧ !e.isTrashed ∧ db.classified e.id

def matchCount (db : Db) (e : EmailRow) : Nat :=
  db.classifications.countP (·.emailId = e.id)

/-- Of the findings before, the ones that are left are all of them, or the newest ones up
to the capacity. -/
def KeepsNewestFindings (accountId : Uuid) (maxFindings : Nat) (db db' : Db) : Prop :=
  ((db.findings accountId).length ≤ maxFindings →
    ∀ e ∈ db.findings accountId, e ∈ db'.emails) ∧
  (maxFindings < (db.findings accountId).length →
    ((db.findings accountId).filter (· ∈ db'.emails)).length = maxFindings ∧
    ∀ kept ∈ db.findings accountId, ∀ gone ∈ db.findings accountId,
      kept ∈ db'.emails → gone ∉ db'.emails → gone.receivedAt ≤ kept.receivedAt)

/-- The number of criteria matched by the other findings received no earlier than `e`. -/
def rivalMatches (accountId : Uuid) (db : Db) (e : EmailRow) : Nat :=
  (((db.findings accountId).filter fun f => f.id ≠ e.id ∧ e.receivedAt ≤ f.receivedAt).map
    db.matchCount).sum

/-- The number of criteria matched by the findings received after `e`. -/
def newerMatches (accountId : Uuid) (db : Db) (e : EmailRow) : Nat :=
  (((db.findings accountId).filter fun f => e.receivedAt < f.receivedAt).map db.matchCount).sum

/-- Where all findings fit, each one has fewer rival matches than the capacity; where they
do not, no finding with several matches has room for two of them. -/
def MatchesFit (accountId : Uuid) (maxFindings : Nat) (db : Db) : Prop :=
  ((db.findings accountId).length ≤ maxFindings →
    ∀ e ∈ db.findings accountId, db.rivalMatches accountId e < maxFindings) ∧
  (maxFindings < (db.findings accountId).length →
    ∀ e ∈ db.findings accountId, 2 ≤ db.matchCount e → maxFindings < db.newerMatches accountId e + 2)

section Rows

variable {accountId : Uuid} {db : Db}

theorem mem_findings {e : EmailRow} : e ∈ db.findings accountId ↔
    e ∈ db.emails ∧ e.accountId = accountId ∧ e.isTrashed = false ∧ db.classified e.id := by
  simp [findings]

theorem matchCount_pos {e : EmailRow} (h : e ∈ db.findings accountId) : 0 < db.matchCount e := by
  obtain ⟨c, hc, hid⟩ := classified_iff.mp (mem_findings.mp h).2.2.2
  exact List.countP_pos_iff.mpr ⟨c, hc, by simpa using hid⟩

theorem mem_findingRows {r : Uuid × Int} : r ∈ db.findingRows accountId ↔
    ∃ e ∈ db.findings accountId, r = (e.id, e.receivedAt) := by
  simp only [findingRows, List.mem_flatMap, List.mem_filter, List.mem_map, mem_findings,
    classified_iff, decide_eq_true_eq]
  constructor
  · rintro ⟨e, he, c, hc, rfl⟩
    exact ⟨e, ⟨he.1, he.2.1, by simpa using he.2.2, c, hc⟩, rfl⟩
  · rintro ⟨e, ⟨he, haccount, htrash, c, hc⟩, rfl⟩
    exact ⟨e, ⟨he, haccount, by simpa using htrash⟩, c, hc, rfl⟩

theorem matchCount_eq_zero {e : EmailRow} (h : ¬db.classified e.id) : db.matchCount e = 0 := by
  rw [matchCount, List.countP_eq_zero]
  intro c hc hid
  exact h (classified_iff.mpr ⟨c, hc, by simpa using hid⟩)

theorem findingRows_eq : db.findingRows accountId =
    (db.findings accountId).flatMap fun e => List.replicate (db.matchCount e) (e.id, e.receivedAt) := by
  have hrows (e : EmailRow) : ((db.classifications.filter fun c => c.emailId = e.id).map
      fun _ => (e.id, e.receivedAt)) = List.replicate (db.matchCount e) (e.id, e.receivedAt) := by
    rw [List.map_const', matchCount, List.countP_eq_length_filter]
  simp only [findingRows, findings, hrows]
  induction db.emails with
  | nil => rfl
  | cons e es ih =>
    by_cases hlive : e.accountId = accountId ∧ !e.isTrashed
    · by_cases hclassified : db.classified e.id
      · rw [List.filter_cons_of_pos (by simpa using hlive),
          List.filter_cons_of_pos (by simpa [hclassified] using hlive), List.flatMap_cons, ih,
          List.flatMap_cons]
      · rw [List.filter_cons_of_pos (by simpa using hlive),
          List.filter_cons_of_neg (by simp [hclassified]), List.flatMap_cons, ih,
          matchCount_eq_zero hclassified, List.replicate_zero, List.nil_append]
    · rw [List.filter_cons_of_neg (by simpa using hlive), ih,
        List.filter_cons_of_neg fun h => hlive (by simp at h; simp [h])]

theorem sum_map_ite (p : EmailRow → Bool) (f : EmailRow → Nat) (es : List EmailRow) :
    (es.map fun e => if p e then f e else 0).sum = ((es.filter p).map f).sum := by
  induction es with
  | nil => rfl
  | cons e es ih => cases hp : p e <;> simp [hp, ih]

theorem countP_findingRows (p : Uuid × Int → Bool) :
    (db.findingRows accountId).countP p =
      (((db.findings accountId).filter fun e => p (e.id, e.receivedAt)).map db.matchCount).sum := by
  rw [findingRows_eq, List.countP_flatMap, ← sum_map_ite]
  simp only [Function.comp_def, List.countP_replicate]

theorem length_findings_le (accountId : Uuid) (db : Db) :
    (db.findings accountId).length ≤ (db.findingRows accountId).length := by
  have hcount : (db.findingRows accountId).countP (fun _ => true) = _ := countP_findingRows _
  rw [List.countP_true, List.filter_true] at hcount
  rw [hcount, ← List.length_map db.matchCount]
  apply List.length_le_sum_of_one_le
  intro n hn
  obtain ⟨e, he, rfl⟩ := List.mem_map.mp hn
  exact matchCount_pos he

theorem filter_eq_singleton {α β : Type} [DecidableEq β] {f : α → β} {l : List α}
    (h : (l.map f).Nodup) {a : α} (ha : a ∈ l) : l.filter (fun b => f b = f a) = [a] := by
  induction l with
  | nil => cases ha
  | cons b l ih =>
    rw [List.map_cons, List.nodup_cons] at h
    cases ha with
    | head =>
      rw [List.filter_cons_of_pos (by simp), List.filter_eq_nil_iff.mpr]
      intro c hc heq
      exact h.1 (List.mem_map.mpr ⟨c, hc, by simpa using heq⟩)
    | tail _ ha =>
      rw [List.filter_cons_of_neg, ih h.2 ha]
      intro heq
      exact h.1 (List.mem_map.mpr ⟨a, ha, (by simpa using heq : f b = f a).symm⟩)

end Rows

section Keys

variable {accountId : Uuid} {db : Db}

theorem WellFormed.findings_nodup (hdb : db.WellFormed) :
    ((db.findings accountId).map EmailRow.id).Nodup :=
  hdb.emailsPk.sublist (List.filter_sublist.map _)

theorem WellFormed.key_of_name (hdb : db.WellFormed) {e : EmailRow} (he : e ∈ db.findings accountId) :
    ∀ r ∈ db.findingRows accountId, r.1 = e.id → r.2 = e.receivedAt := by
  intro r hr hid
  obtain ⟨f, hf, rfl⟩ := mem_findingRows.mp hr
  rw [List.inj_on_of_nodup_map hdb.findings_nodup hf he hid]

theorem WellFormed.countP_name (hdb : db.WellFormed) {e : EmailRow}
    (he : e ∈ db.findings accountId) :
    (db.findingRows accountId).countP (fun r => decide (r.1 = e.id)) = db.matchCount e := by
  rw [countP_findingRows, filter_eq_singleton hdb.findings_nodup he, List.map_singleton,
    List.sum_singleton]

theorem countP_rivals (e : EmailRow) :
    (db.findingRows accountId).countP (fun r => decide (r.1 ≠ e.id ∧ e.receivedAt ≤ r.2)) =
      db.rivalMatches accountId e := countP_findingRows _

theorem countP_newer (e : EmailRow) :
    (db.findingRows accountId).countP (fun r => decide (e.receivedAt < r.2)) =
      db.newerMatches accountId e := countP_findingRows _

end Keys

section Top

variable {accountId : Uuid} {db : Db} {n : Nat}

def topFindings (ranking : ReceivedDesc) (accountId : Uuid) (n : Nat) (db : Db) : List Uuid :=
  ((ranking.order (db.findingRows accountId)).take n).map Prod.fst

theorem row_mem_order (ranking : ReceivedDesc) {e : EmailRow} (he : e ∈ db.findings accountId) :
    (e.id, e.receivedAt) ∈ ranking.order (db.findingRows accountId) :=
  (ranking.mem_order).mpr (mem_findingRows.mpr ⟨e, he, rfl⟩)

theorem exists_finding_of_mem_top {ranking : ReceivedDesc} {id : Uuid}
    (h : id ∈ db.topFindings ranking accountId n) : ∃ e ∈ db.findings accountId, e.id = id := by
  obtain ⟨r, hr, rfl⟩ := List.mem_map.mp h
  obtain ⟨e, he, rfl⟩ := mem_findingRows.mp (ranking.mem_order.mp (List.mem_of_mem_take hr))
  exact ⟨e, he, rfl⟩

theorem length_top {ranking : ReceivedDesc} (h : n < (db.findings accountId).length) :
    (db.topFindings ranking accountId n).length = n := by
  have := length_findings_le accountId db
  rw [topFindings, List.length_map, List.length_take, Ranking.length_order]
  omega

theorem WellFormed.newest_of_top (hdb : db.WellFormed) {ranking : ReceivedDesc} {kept gone : EmailRow}
    (hkept : kept ∈ db.findings accountId) (hgone : gone ∈ db.findings accountId)
    (hin : kept.id ∈ db.topFindings ranking accountId n)
    (hout : gone.id ∉ db.topFindings ranking accountId n) : gone.receivedAt ≤ kept.receivedAt := by
  obtain ⟨r, hr, hid⟩ := List.mem_map.mp hin
  have hrow := ranking.mem_order.mp (List.mem_of_mem_take hr)
  rw [← hdb.key_of_name hkept r hrow hid]
  have hgoneRow : Prod.fst (gone.id, gone.receivedAt) ∉
      ((ranking.order (db.findingRows accountId)).take n).map Prod.fst := hout
  exact Ranking.key_le_of_name (ranking.sorted _) (row_mem_order ranking hgone) hgoneRow hr

theorem WellFormed.count_kept (hdb : db.WellFormed) (ranking : ReceivedDesc) :
    ((db.findings accountId).filter fun e => e.id ∈ db.topFindings ranking accountId n).length =
      (db.topFindings ranking accountId n).dedup.length := by
  rw [← List.length_map EmailRow.id]
  apply List.Perm.length_eq
  rw [List.perm_ext_iff_of_nodup (hdb.findings_nodup.sublist (List.filter_sublist.map _))
    (List.nodup_dedup _)]
  intro id
  simp only [List.mem_map, List.mem_filter, decide_eq_true_eq, List.mem_dedup]
  constructor
  · rintro ⟨e, he, rfl⟩
    exact he.2
  · intro hid
    obtain ⟨e, he, rfl⟩ := exists_finding_of_mem_top hid
    exact ⟨e, ⟨he, hid⟩, rfl⟩

end Top

section Purge

variable {accountId : Uuid} {db : Db}

theorem purgeInbox_classifications (ranking : ReceivedDesc) (maxInbox : Int) :
    (db.purgeInbox ranking accountId maxInbox).2.classifications = db.classifications := by
  apply List.filter_eq_self.mpr
  intro c hc
  rw [Bool.not_eq_true', List.any_eq_false]
  intro e he hboth
  simp only [inboxSurplus, Bool.decide_and, Bool.and_eq_true, Bool.not_eq_true', decide_eq_true_eq] at hboth
  exact absurd (classified_iff.mpr ⟨c, hc, hboth.2.symm⟩) (by simp [hboth.1.2.2.1])

theorem purgeInbox_classified (ranking : ReceivedDesc) (maxInbox : Int) (id : Uuid) :
    (db.purgeInbox ranking accountId maxInbox).2.classified id = db.classified id := by
  rw [classified, purgeInbox_classifications, classified]

theorem purgeInbox_findings (ranking : ReceivedDesc) (maxInbox : Int) :
    (db.purgeInbox ranking accountId maxInbox).2.findings accountId = db.findings accountId := by
  simp only [findings, purgeInbox_classified]
  change ((db.emails.filter _).filter _) = _
  rw [List.filter_filter]
  apply List.filter_congr
  intro e he
  cases hclassified : db.classified e.id <;> simp [inboxSurplus, hclassified]

theorem purgeInbox_findingRows (ranking : ReceivedDesc) (maxInbox : Int) :
    (db.purgeInbox ranking accountId maxInbox).2.findingRows accountId =
      db.findingRows accountId := by
  rw [findingRows_eq, findingRows_eq, purgeInbox_findings]
  simp only [matchCount, purgeInbox_classifications]

theorem mem_purgeFindings (ranking : ReceivedDesc) (n : Nat) {e : EmailRow}
    (he : e ∈ db.findings accountId) :
    e ∈ (db.purgeFindings ranking accountId n).2.emails ↔
      e.id ∈ db.topFindings ranking accountId n := by
  change e ∈ db.emails.filter _ ↔ _
  simp only [mem_findings] at he
  simp [findingsSurplus, keptFindings, topFindings, limit_natCast, he]

theorem mem_purgeOldEmails (ranking : ReceivedDesc) (maxInbox : Int) (n : Nat) {e : EmailRow}
    (he : e ∈ db.findings accountId) :
    e ∈ (db.purgeOldEmails ranking accountId maxInbox n).2.emails ↔
      e.id ∈ db.topFindings ranking accountId n := by
  rw [← purgeInbox_findings ranking maxInbox] at he
  rw [topFindings, ← purgeInbox_findingRows ranking maxInbox]
  exact mem_purgeFindings ranking n he

theorem WellFormed.keepsNewest_iff (hdb : db.WellFormed) (ranking : ReceivedDesc) (maxInbox : Int)
    (n : Nat) :
    KeepsNewestFindings accountId n db (db.purgeOldEmails ranking accountId maxInbox n).2 ↔
      ((db.findings accountId).length ≤ n →
        ∀ e ∈ db.findings accountId, e.id ∈ db.topFindings ranking accountId n) ∧
      (n < (db.findings accountId).length → (db.topFindings ranking accountId n).Nodup) := by
  have hcount : (db.findings accountId).filter (· ∈ (db.purgeOldEmails ranking accountId maxInbox n).2.emails) =
      (db.findings accountId).filter fun e => e.id ∈ db.topFindings ranking accountId n := by
    apply List.filter_congr
    intro e he
    rw [decide_eq_decide, mem_purgeOldEmails ranking maxInbox n he]
  apply and_congr
  · apply imp_congr_right
    intro _
    apply forall₂_congr
    intro e he
    exact mem_purgeOldEmails ranking maxInbox n he
  · apply imp_congr_right
    intro hn
    rw [hcount, hdb.count_kept]
    constructor
    · intro h
      rw [← List.dedup_eq_self]
      apply (List.dedup_sublist _).eq_of_length
      rw [h.1, length_top hn]
    · intro hnodup
      rw [List.dedup_eq_self.mpr hnodup]
      refine ⟨length_top hn, ?_⟩
      intro kept hkept gone hgone hin hout
      rw [mem_purgeOldEmails ranking maxInbox n hkept] at hin
      rw [mem_purgeOldEmails ranking maxInbox n hgone] at hout
      exact hdb.newest_of_top hkept hgone hin hout

theorem WellFormed.keepsNewest_forall_iff (hdb : db.WellFormed) (maxInbox : Int) (n : Nat) :
    (∀ ranking, KeepsNewestFindings accountId n db (db.purgeOldEmails ranking accountId maxInbox n).2) ↔
      db.MatchesFit accountId n := by
  simp only [hdb.keepsNewest_iff]
  constructor
  · intro h
    constructor
    · intro hn e he
      by_contra hrival
      rw [not_lt, ← countP_rivals] at hrival
      obtain ⟨ranking, hout⟩ := Ranking.exists_name_not_mem_take (a := (e.id, e.receivedAt))
        (hdb.key_of_name he) hrival
      exact hout ((h ranking).1 hn e he)
    · intro hn e he htwice
      by_contra hroom
      rw [not_lt, ← countP_newer] at hroom
      rw [← hdb.countP_name he] at htwice
      obtain ⟨ranking, hdup⟩ := Ranking.exists_not_nodup_take (a := (e.id, e.receivedAt))
        (hdb.key_of_name he) htwice hroom
      exact hdup ((h ranking).2 hn)
  · intro h ranking
    constructor
    · intro hn e he
      have hfew := h.1 hn e he
      rw [← countP_rivals, ← (ranking.perm _).countP_eq] at hfew
      exact Ranking.name_mem_take (ranking.sorted _) (row_mem_order ranking he) hfew
    · intro hn
      apply Ranking.nodup_take (ranking.sorted _)
      intro r hr htwice
      obtain ⟨e, he, rfl⟩ := mem_findingRows.mp (ranking.mem_order.mp hr)
      rw [(ranking.perm _).countP_eq] at htwice ⊢
      rw [hdb.countP_name he] at htwice
      exact lt_of_lt_of_eq (h.2 hn e he htwice) (congrArg (· + 2) (countP_newer e).symm)

end Purge

end Db

theorem purgeOldEmails_eq_ok {account : Uuid} {maxInbox maxFindings : Int} {w w' : World}
    {counts : Nat × Nat} (h : purgeOldEmails account maxInbox maxFindings w = (.ok counts, w')) :
    (counts, w'.db) = w.db.purgeOldEmails w.outside.ranking account maxInbox maxFindings := by
  obtain ⟨ranking, w₁, hranking, h⟩ := bind_eq_ok.mp h
  cases hranking
  obtain ⟨inbox, w₂, hinbox, h⟩ := bind_eq_ok.mp h
  obtain ⟨db₁, hdb₁, rfl⟩ := statement_eq_ok hinbox
  cases hdb₁
  obtain ⟨findings, w₃, hfindings, h⟩ := bind_eq_ok.mp h
  obtain ⟨db₂, hdb₂, rfl⟩ := statement_eq_ok hfindings
  cases hdb₂
  cases h
  rfl

theorem purgeOldEmails_db {account : Uuid} {maxInbox maxFindings : Int} {w w' : World}
    {counts : Nat × Nat} (h : purgeOldEmails account maxInbox maxFindings w = (.ok counts, w')) :
    w'.db = (w.db.purgeOldEmails w.outside.ranking account maxInbox maxFindings).2 :=
  congrArg Prod.snd (purgeOldEmails_eq_ok h)

def answering (db : Db) (ranking : ReceivedDesc) : World where
  db
  keyring _ := none
  tokenCache := []
  journal := []
  outside := { ranking }

theorem purgeOldEmails_answering (db : Db) (ranking : ReceivedDesc) (account : Uuid)
    (maxInbox maxFindings : Int) :
    ∃ w', purgeOldEmails account maxInbox maxFindings (answering db ranking) =
      (.ok (db.purgeOldEmails ranking account maxInbox maxFindings).1, w') := ⟨_, rfl⟩

/-- The pruning keeps the newest findings, however the store breaks ties, exactly when the
criteria they matched leave room for them. -/
theorem purgeOldEmails_keepsNewest_iff {db : Db} (hdb : db.WellFormed) (account : Uuid)
    (maxInbox : Int) (maxFindings : Nat) :
    (∀ w counts w', w.db = db → purgeOldEmails account maxInbox maxFindings w = (.ok counts, w') →
      db.KeepsNewestFindings account maxFindings w'.db) ↔ db.MatchesFit account maxFindings := by
  rw [← hdb.keepsNewest_forall_iff maxInbox]
  constructor
  · intro h ranking
    obtain ⟨w', hrun⟩ := purgeOldEmails_answering db ranking account maxInbox maxFindings
    have hkeeps := h _ _ w' rfl hrun
    rwa [purgeOldEmails_db hrun] at hkeeps
  · intro h w counts w' hw hrun
    subst hw
    rw [purgeOldEmails_db hrun]
    exact h w.outside.ranking

section Example

def exampleAccount : LinkedAccount where
  id := .ending '1'
  provider := .gmail
  emailAddress := "me@example.com"
  displayName := none
  syncCursor := none
  lastSyncedAt := none
  lastSyncError := none
  createdAt := 0
  imapHost := none
  imapPort := none

def exampleCriterion (digit : Char) : WatchCriterion where
  id := .ending digit
  label := String.singleton digit
  description := ""
  isActive := true
  createdAt := 0

def exampleEmail (digit : Char) (receivedAt : Int) : EmailRow where
  id := .ending digit
  accountId := .ending '1'
  providerMessageId := String.singleton digit
  subject := none
  sender := none
  receivedAt
  isRead := false
  appHasViewed := false
  isTrashed := false
  trashedAt := none
  snippet := none
  createdAt := 0

def exampleMatch (digit email criterion : Char) : Classification where
  id := .ending digit
  emailId := .ending email
  criterionId := .ending criterion
  confidence := none
  createdAt := 0

def crowdedDb : Db where
  linkedAccounts := [exampleAccount]
  watchCriteria := [exampleCriterion '2', exampleCriterion '3']
  emails := [exampleEmail '4' 20, exampleEmail '5' 10]
  classifications := [exampleMatch '6' '4' '2', exampleMatch '7' '4' '3', exampleMatch '8' '5' '2']
  settings := []

theorem crowdedDb_wellFormed : crowdedDb.WellFormed := by
  constructor <;> decide

theorem purgeOldEmails_loses_finding :
    crowdedDb.WellFormed ∧ (crowdedDb.findings (.ending '1')).length = 2 ∧
      ∃ counts w', purgeOldEmails (.ending '1') 200 2 (answering crowdedDb (Ranking.stable Prod.snd)) =
        (.ok counts, w') ∧ ¬crowdedDb.KeepsNewestFindings (.ending '1') 2 w'.db := by
  refine ⟨crowdedDb_wellFormed, by decide, _, _, rfl, ?_⟩
  intro h
  have hlost := h.1 (by decide) (exampleEmail '5' 10) (by decide)
  revert hlost
  decide

def roomyDb : Db :=
  { crowdedDb with classifications := [exampleMatch '6' '4' '2', exampleMatch '8' '5' '2'] }

theorem purgeOldEmails_keepsNewest_iff_example :
    (∀ w counts w', w.db = roomyDb → purgeOldEmails (.ending '1') 200 2 w = (.ok counts, w') →
      roomyDb.KeepsNewestFindings (.ending '1') 2 w'.db) ↔ roomyDb.MatchesFit (.ending '1') 2 :=
  purgeOldEmails_keepsNewest_iff (by constructor <;> decide) (.ending '1') 200 2

end Example

end Fumiko.Storage
