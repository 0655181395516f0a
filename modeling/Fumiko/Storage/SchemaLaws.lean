import Fumiko.Storage.Statements

namespace Fumiko.Storage.Db

open Fumiko.Common Fumiko.Foundation

variable {db : Db}

theorem find_map_of_keyed {ρ : Type} {l : List ρ} {p : ρ → Bool} {f : ρ → ρ}
    (hf : ∀ e, p (f e) = p e) : (l.map f).find? p = (l.find? p).map f := by
  induction l with
  | nil => rfl
  | cons e l ih =>
    rw [List.map_cons, List.find?_cons, List.find?_cons, hf]
    cases p e <;> simp [ih]

theorem id_of_account {id : Uuid} {a : LinkedAccount} (h : db.account id = some a) : a.id = id := by
  simpa using List.find?_some h

theorem mem_of_email {account : Uuid} {key : String} {e : EmailRow} (h : db.email account key = some e) :
    e ∈ db.emails ∧ e.accountId = account ∧ e.providerMessageId = key :=
  ⟨List.mem_of_find?_eq_some h, by simpa using List.find?_some h⟩

theorem classified_iff {id : Uuid} : db.classified id ↔ ∃ c ∈ db.classifications, c.emailId = id := by
  simp [classified]

theorem account_updateAccounts {id : Uuid} {f : LinkedAccount → LinkedAccount}
    (hf : ∀ a, (f a).id = a.id) :
    (db.updateAccounts (·.id = id) f).account id = (db.account id).map f := by
  let update (a : LinkedAccount) : LinkedAccount := if decide (a.id = id) then f a else a
  have hkept (a : LinkedAccount) : decide ((update a).id = id) = decide (a.id = id) := by
    simp only [update]
    split <;> simp [hf]
  change (db.linkedAccounts.map update).find? (·.id = id) = _
  rw [find_map_of_keyed hkept]
  change Option.map update (db.account id) = _
  cases hfind : db.account id with
  | none => rfl
  | some a =>
    simp only [Option.map_some, update, id_of_account hfind, decide_true, if_true]

theorem account_setSyncError {id : Uuid} {error : String} : (db.setSyncError id error).account id =
    (db.account id).map fun a => { a with lastSyncError := some error } :=
  account_updateAccounts fun _ => rfl

theorem account_updateSyncCursor {id : Uuid} {now : Int} {cursor : String} :
    (db.updateSyncCursor now id cursor).account id = (db.account id).map fun a =>
      { a with syncCursor := some cursor, lastSyncedAt := some now, lastSyncError := none } :=
  account_updateAccounts fun _ => rfl

theorem owned_deleteEmails (h : ∀ c ∈ db.classifications, ∃ e ∈ db.emails, e.id = c.emailId)
    (p : EmailRow → Bool) :
    ∀ c ∈ (db.deleteEmails p).classifications, ∃ e ∈ (db.deleteEmails p).emails, e.id = c.emailId := by
  intro c hc
  obtain ⟨hc, hkept⟩ := List.mem_filter.mp hc
  obtain ⟨e, he, hid⟩ := h c hc
  rw [Bool.not_eq_true', List.any_eq_false] at hkept
  refine ⟨e, List.mem_filter.mpr ⟨he, ?_⟩, hid⟩
  simpa [hid] using hkept e he

theorem WellFormed.deleteEmails (h : db.WellFormed) (p : EmailRow → Bool) :
    (db.deleteEmails p).WellFormed where
  accountsPk := h.accountsPk
  accountsUnique := h.accountsUnique
  criteriaPk := h.criteriaPk
  emailsPk := h.emailsPk.sublist (List.filter_sublist.map _)
  emailsUnique := h.emailsUnique.sublist (List.filter_sublist.map _)
  emailsFk e he := h.emailsFk e (List.mem_filter.mp he).1
  classificationsPk := h.classificationsPk.sublist (List.filter_sublist.map _)
  classificationsUnique := h.classificationsUnique.sublist (List.filter_sublist.map _)
  classificationsEmailFk := owned_deleteEmails h.classificationsEmailFk p
  classificationsCriterionFk c hc := h.classificationsCriterionFk c (List.mem_filter.mp hc).1
  settingsPk := h.settingsPk

theorem WellFormed.deleteAccounts (h : db.WellFormed) (p : LinkedAccount → Bool) :
    (db.deleteAccounts p).WellFormed := by
  have hemails := h.deleteEmails fun e => db.linkedAccounts.any fun a => p a && decide (a.id = e.accountId)
  exact {
    accountsPk := h.accountsPk.sublist (List.filter_sublist.map _)
    accountsUnique := h.accountsUnique.sublist (List.filter_sublist.map _)
    criteriaPk := hemails.criteriaPk
    emailsPk := hemails.emailsPk
    emailsUnique := hemails.emailsUnique
    emailsFk := by
      intro e he
      obtain ⟨he, hkept⟩ := List.mem_filter.mp he
      obtain ⟨a, ha, hid⟩ := h.emailsFk e he
      rw [Bool.not_eq_true', List.any_eq_false] at hkept
      refine ⟨a, List.mem_filter.mpr ⟨ha, ?_⟩, hid⟩
      simpa [hid] using hkept a ha
    classificationsPk := hemails.classificationsPk
    classificationsUnique := hemails.classificationsUnique
    classificationsEmailFk := hemails.classificationsEmailFk
    classificationsCriterionFk := hemails.classificationsCriterionFk
    settingsPk := hemails.settingsPk }

theorem WellFormed.deleteAccountRow (h : db.WellFormed) {id : Uuid} {u : Unit} {db' : Db}
    (hdelete : db.deleteAccountRow id = .ok (u, db')) : db'.WellFormed := by
  rw [Db.deleteAccountRow] at hdelete
  split at hdelete
  · cases hdelete
    exact h.deleteAccounts _
  · cases hdelete

theorem WellFormed.insertAccount (h : db.WellFormed) {row : LinkedAccount} {id : Uuid} {db' : Db}
    (hinsert : db.insertAccount row = .ok (id, db')) : db'.WellFormed := by
  rw [Db.insertAccount] at hinsert
  split at hinsert
  · cases hinsert
  · next hfree =>
    cases hinsert
    rw [List.any_eq_true] at hfree
    have hid : row.id ∉ db.linkedAccounts.map LinkedAccount.id := by
      intro hmem
      obtain ⟨a, ha, heq⟩ := List.mem_map.mp hmem
      exact hfree ⟨a, ha, by simp [heq]⟩
    have haddress : row.emailAddress ∉ db.linkedAccounts.map LinkedAccount.emailAddress := by
      intro hmem
      obtain ⟨a, ha, heq⟩ := List.mem_map.mp hmem
      exact hfree ⟨a, ha, by simp [heq]⟩
    exact { h with
      accountsPk := by
        rw [List.map_append, List.map_singleton]
        exact List.nodup_append.mpr ⟨h.accountsPk, List.nodup_singleton _, by
          intro a ha b hb heq
          exact hid (List.mem_singleton.mp hb ▸ heq ▸ ha)⟩
      accountsUnique := by
        rw [List.map_append, List.map_singleton]
        exact List.nodup_append.mpr ⟨h.accountsUnique, List.nodup_singleton _, by
          intro a ha b hb heq
          exact haddress (List.mem_singleton.mp hb ▸ heq ▸ ha)⟩
      emailsFk := by
        intro e he
        obtain ⟨a, ha, heq⟩ := h.emailsFk e he
        exact ⟨a, List.mem_append_left _ ha, heq⟩ }

theorem WellFormed.deleteSetting (h : db.WellFormed) (key : String) :
    (db.deleteSetting key).WellFormed :=
  { h with settingsPk := h.settingsPk.sublist (List.filter_sublist.map _) }

theorem WellFormed.truncate (h : db.WellFormed) : db.truncate = empty := by
  have haccounts := h.deleteAccounts fun _ => true
  have hnone : (db.deleteAccounts fun _ => true).linkedAccounts = [] := by
    simp [Db.deleteAccounts]
  have hemails : (db.deleteAccounts fun _ => true).emails = [] := by
    rw [List.eq_nil_iff_forall_not_mem]
    intro e he
    obtain ⟨a, ha, -⟩ := haccounts.emailsFk e he
    rw [hnone] at ha
    cases ha
  have hclassifications : (db.deleteAccounts fun _ => true).classifications = [] := by
    rw [List.eq_nil_iff_forall_not_mem]
    intro c hc
    obtain ⟨e, he, -⟩ := haccounts.classificationsEmailFk c hc
    rw [hemails] at he
    cases he
  simp [Db.truncate, Db.deleteCriteria, hnone, hemails, hclassifications, empty]

section Cases

variable {account email id criterion row : Uuid} {now receivedAt : Int} {confidence : Option Rat}
  {subject sender snippet : Option String} {isRead : Bool} {key : String} {u : Unit} {db' : Db}

inductive Classified (db : Db) (id : Uuid) (now : Int) (email criterion : Uuid) (confidence : Option Rat) :
    Db → Prop
  | again (h : ∃ c ∈ db.classifications, c.emailId = email ∧ c.criterionId = criterion) :
    Classified db id now email criterion confidence
      { db with classifications := db.classifications.map fun c =>
          if c.emailId = email ∧ c.criterionId = criterion then { c with confidence } else c }
  | first (h : ∃ e ∈ db.emails, e.id = email) :
    Classified db id now email criterion confidence
      { db with classifications := db.classifications ++ [⟨id, email, criterion, confidence, now⟩] }

theorem saveClassification_classified
    (h : db.saveClassification id now email criterion confidence = .ok (u, db')) :
    Classified db id now email criterion confidence db' := by
  rw [saveClassification] at h
  split at h
  · next hany =>
    cases h
    exact .again (by simpa using hany)
  · split at h
    · cases h
    · split at h
      · next hrows =>
        cases h
        exact .first (by simpa using hrows.1)
      · cases h

inductive Saved (db : Db) (id : Uuid) (now : Int) (account : Uuid) (key : String)
    (subject sender : Option String) (receivedAt : Int) (isRead : Bool) (snippet : Option String) :
    Uuid → Db → Prop
  | again {e} (h : db.email account key = some e) :
    Saved db id now account key subject sender receivedAt isRead snippet e.id
      (db.updateEmails (fun e => e.accountId = account ∧ e.providerMessageId = key)
        (refreshEmail subject sender isRead snippet))
  | first (h : db.email account key = none) (hfresh : ∀ e ∈ db.emails, e.id ≠ id) :
    Saved db id now account key subject sender receivedAt isRead snippet id
      { db with emails := db.emails ++
          [⟨id, account, key, subject, sender, receivedAt, isRead, false, false, none, snippet, now⟩] }

theorem saveEmail_saved
    (h : db.saveEmail id now account key subject sender receivedAt isRead snippet = .ok (row, db')) :
    Saved db id now account key subject sender receivedAt isRead snippet row db' := by
  rw [saveEmail] at h
  split at h
  · next e hfind =>
    cases h
    exact .again hfind
  · next hnone =>
    split at h
    · cases h
    · next hfresh =>
      split at h
      · cases h
        exact .first hnone (by simpa using hfresh)
      · cases h

end Cases

end Fumiko.Storage.Db
