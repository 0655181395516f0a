import Fumiko.Storage.SchemaLaws
import Fumiko.Storage.ServiceLaws

namespace Fumiko.Storage

open Fumiko.Common Fumiko.Foundation Fumiko.Foundation.Action Fumiko.Program

namespace Db

variable {db db' : Db} {account row fresh : Uuid} {id key : String} {f : EmailRow → EmailRow}

theorem email_updateEmails
    (hf : ∀ e, (f e).accountId = e.accountId ∧ (f e).providerMessageId = e.providerMessageId) :
    (db.updateEmails (fun e => e.accountId = account ∧ e.providerMessageId = key) f).email account id =
      if key = id then (db.email account id).map f else db.email account id := by
  let isRow (e : EmailRow) : Bool := e.accountId = account ∧ e.providerMessageId = id
  let update (e : EmailRow) : EmailRow :=
    if decide (e.accountId = account ∧ e.providerMessageId = key) then f e else e
  have hkept (e : EmailRow) : isRow (update e) = isRow e := by
    simp only [isRow, update]
    split
    · rw [(hf e).1, (hf e).2]
    · rfl
  change (db.emails.map update).find? isRow =
    if key = id then (db.emails.find? isRow).map f else db.emails.find? isRow
  rw [find_map_of_keyed hkept]
  cases hfind : db.emails.find? isRow with
  | none => simp
  | some e =>
    have he := List.find?_some hfind
    simp only [isRow, decide_eq_true_eq] at he
    by_cases hid : key = id
    · simp [update, he, hid]
    · simp [update, he, hid, Ne.symm hid]

theorem email_deleteEmails :
    (db.deleteEmails fun e => e.accountId = account ∧ e.providerMessageId = key).email account id =
      if key = id then none else db.email account id := by
  simp only [email, deleteEmails, List.find?_filter]
  split
  · next hid =>
    subst hid
    simp only [List.find?_eq_none]
    intro e _
    by_cases he : e.accountId = account ∧ e.providerMessageId = key <;> simp [he]
  · next hid =>
    congr 1
    funext e
    by_cases he : e.accountId = account ∧ e.providerMessageId = id
    · simp [he, Ne.symm hid]
    · simp [he]

theorem email_saveEmail {now receivedAt : Int} {subject sender snippet : Option String} {isRead : Bool}
    (h : Db.saveEmail fresh now account key subject sender receivedAt isRead snippet db = .ok (row, db')) :
    db'.email account id =
      if key = id then
        match db.email account id with
        | some e => some (refreshEmail subject sender isRead snippet e)
        | none => some {
          id := fresh, accountId := account, providerMessageId := id, subject, sender, receivedAt
          isRead, snippet, appHasViewed := false, isTrashed := false, trashedAt := none, createdAt := now }
      else db.email account id := by
  cases saveEmail_saved h with
  | @again e hemail =>
    rw [email_updateEmails (f := refreshEmail subject sender isRead snippet) fun _ => ⟨rfl, rfl⟩]
    split
    · next hid =>
      subst hid
      rw [hemail]
      rfl
    · rfl
  | first hemail =>
    split
    · next hid =>
      subst hid
      rw [hemail, email, List.find?_append, ← email, hemail]
      simp
    · next hid =>
      rw [email, List.find?_append, ← email]
      simp [hid]

theorem email_markTrashed {now : Int} : (db.markTrashed now account key).email account id =
    if key = id then
      (db.email account id).map fun e => { e with isTrashed := true, trashedAt := some now }
    else db.email account id :=
  email_updateEmails (f := fun e => { e with isTrashed := true, trashedAt := some now })
    fun _ => ⟨rfl, rfl⟩

theorem email_markUntrashed : (db.markUntrashed account key).email account id =
    if key = id then
      (db.email account id).map fun e => { e with isTrashed := false, trashedAt := none }
    else db.email account id :=
  email_updateEmails (f := fun e => { e with isTrashed := false, trashedAt := none })
    fun _ => ⟨rfl, rfl⟩

end Db

section Calls

variable {account : Uuid} {id : String} {w w' : World}

theorem markTrashed_eq_ok (h : markTrashed account id w = (.ok (), w')) :
    w'.db = w.db.markTrashed w.nextTime account id := by
  obtain ⟨now, w₁, hnow, hexecute⟩ := bind_eq_ok.mp h
  cases hnow
  rw [execute_eq_ok hexecute]
  rfl

theorem markUntrashed_eq_ok (h : markUntrashed account id w = (.ok (), w')) :
    w'.db = w.db.markUntrashed account id := by
  rw [execute_eq_ok h]
  rfl

theorem deleteByProviderMessageId_eq_ok (h : deleteByProviderMessageId account id w = (.ok (), w')) :
    w'.db = w.db.deleteByProviderMessageId account id := by
  rw [execute_eq_ok h]
  rfl

end Calls

end Fumiko.Storage
