import Fumiko.Common.Config
import Fumiko.Foundation.Ranking
import Fumiko.Storage.Schema

/-! The SQL statements of the storage layer as functions on the tables.  The clock reading
and the fresh UUID a statement binds are its arguments. -/

namespace Fumiko.Storage

open Fumiko.Common Fumiko.Foundation

/-- `ORDER BY received_at DESC` over `(id, received_at)` rows. -/
abbrev ReceivedDesc := Ranking (Uuid × Int) Prod.snd

namespace Db

section Accounts

def insertAccount (row : LinkedAccount) (db : Db) : Except StorageError (Uuid × Db) :=
  if db.linkedAccounts.any fun a => a.id = row.id ∨ a.emailAddress = row.emailAddress then
    .error .conflict
  else
    .ok (row.id, { db with linkedAccounts := db.linkedAccounts ++ [row] })

def addAccount (id : Uuid) (now : Int) (provider : Provider) (emailAddress : String)
    (displayName : Option String) : Db → Except StorageError (Uuid × Db) :=
  insertAccount
    { id, provider, emailAddress, displayName, syncCursor := none, lastSyncedAt := none
      lastSyncError := none, createdAt := now, imapHost := none, imapPort := none }

def addImapAccount (id : Uuid) (now : Int) (provider : Provider) (emailAddress : String)
    (displayName : Option String) (imapHost : String) (imapPort : Nat) :
    Db → Except StorageError (Uuid × Db) :=
  insertAccount
    { id, provider, emailAddress, displayName, syncCursor := none, lastSyncedAt := none
      lastSyncError := none, createdAt := now, imapHost := some imapHost
      imapPort := some imapPort }

def deleteAccountRow (id : Uuid) (db : Db) : Except StorageError (Unit × Db) :=
  if db.linkedAccounts.any (·.id = id) then .ok ((), db.deleteAccounts (·.id = id))
  else .error .notFound

def listAccounts (db : Db) : List LinkedAccount :=
  db.linkedAccounts.insertionSort fun a b => a.createdAt ≤ b.createdAt

def truncate (db : Db) : Db :=
  { (db.deleteAccounts fun _ => true).deleteCriteria fun _ => true with settings := [] }

end Accounts

section Sync

def setSyncError (id : Uuid) (error : String) : Db → Db :=
  updateAccounts (·.id = id) fun a => { a with lastSyncError := some error }

def updateSyncCursor (now : Int) (id : Uuid) (syncCursor : String) : Db → Db :=
  updateAccounts (·.id = id) fun a =>
    { a with syncCursor := some syncCursor, lastSyncedAt := some now, lastSyncError := none }

def clearSyncCursor (id : Uuid) : Db → Db :=
  updateAccounts (·.id = id) fun a => { a with syncCursor := none }

end Sync

section Emails

/-- What the conflict clause rewrites.  The receipt date, the local view flag and the
trash columns are not in its list and keep their values. -/
def refreshEmail (subject sender : Option String) (isRead : Bool) (snippet : Option String)
    (e : EmailRow) : EmailRow :=
  { e with
    isRead
    sender := sender <|> e.sender
    subject := subject <|> e.subject
    snippet := snippet <|> e.snippet }

def saveEmail (id : Uuid) (now : Int) (accountId : Uuid) (providerMessageId : String)
    (subject sender : Option String) (receivedAt : Int) (isRead : Bool) (snippet : Option String)
    (db : Db) : Except StorageError (Uuid × Db) :=
  match db.email accountId providerMessageId with
  | some e =>
    .ok (e.id, db.updateEmails
      (fun e => e.accountId = accountId ∧ e.providerMessageId = providerMessageId)
      (refreshEmail subject sender isRead snippet))
  | none =>
    if db.emails.any (·.id = id) then .error (.db "UNIQUE constraint failed: emails.id")
    else if db.linkedAccounts.any (·.id = accountId) then
      .ok (id, { db with emails := db.emails ++ [{
        id, accountId, providerMessageId, subject, sender, receivedAt, isRead, snippet
        appHasViewed := false, isTrashed := false, trashedAt := none, createdAt := now }] })
    else .error (.db "FOREIGN KEY constraint failed")

def deleteByProviderMessageId (accountId : Uuid) (providerMessageId : String) : Db → Db :=
  deleteEmails fun e => e.accountId = accountId ∧ e.providerMessageId = providerMessageId

def markTrashed (now : Int) (accountId : Uuid) (providerMessageId : String) : Db → Db :=
  updateEmails (fun e => e.accountId = accountId ∧ e.providerMessageId = providerMessageId)
    fun e => { e with isTrashed := true, trashedAt := some now }

def markUntrashed (accountId : Uuid) (providerMessageId : String) : Db → Db :=
  updateEmails (fun e => e.accountId = accountId ∧ e.providerMessageId = providerMessageId)
    fun e => { e with isTrashed := false, trashedAt := none }

def updateEmailById (id : Uuid) (f : EmailRow → EmailRow) (db : Db) :
    Except StorageError (Unit × Db) :=
  if db.emails.any (·.id = id) then .ok ((), db.updateEmails (·.id = id) f)
  else .error .notFound

def trashEmail (now : Int) (id : Uuid) : Db → Except StorageError (Unit × Db) :=
  updateEmailById id fun e => { e with isTrashed := true, trashedAt := some now }

def restoreEmail (id : Uuid) : Db → Except StorageError (Unit × Db) :=
  updateEmailById id fun e => { e with isTrashed := false, trashedAt := none }

def markEmailViewed (id : Uuid) : Db → Except StorageError (Unit × Db) :=
  updateEmailById id fun e => { e with appHasViewed := true }

def deleteEmail (id : Uuid) (db : Db) : Except StorageError (Unit × Db) :=
  if db.emails.any (·.id = id) then .ok ((), db.deleteEmails (·.id = id))
  else .error .notFound

def markAllRead (accountId : Option Uuid) : Db → Db :=
  updateEmails (fun e => !e.isTrashed && accountId.all (e.accountId = ·))
    fun e => { e with isRead := true, appHasViewed := true }

/-- The ids the inbox statement of `purge_old_emails` keeps. -/
def keptInbox (ranking : ReceivedDesc) (accountId : Uuid) (maxInbox : Int) (db : Db) : List Uuid :=
  (limit maxInbox (ranking.order
    ((db.emails.filter fun e => e.accountId = accountId ∧ !e.isTrashed ∧ !db.classified e.id).map
      fun e => (e.id, e.receivedAt)))).map Prod.fst

def findingRows (accountId : Uuid) (db : Db) : List (Uuid × Int) :=
  (db.emails.filter fun m => m.accountId = accountId ∧ !m.isTrashed).flatMap fun m =>
    (db.classifications.filter fun c => c.emailId = m.id).map fun _ => (m.id, m.receivedAt)

def keptFindings (ranking : ReceivedDesc) (accountId : Uuid) (maxFindings : Int) (db : Db) :
    List Uuid :=
  (limit maxFindings (ranking.order (db.findingRows accountId))).map Prod.fst

def inboxSurplus (ranking : ReceivedDesc) (accountId : Uuid) (maxInbox : Int) (db : Db)
    (e : EmailRow) : Bool :=
  e.accountId = accountId ∧ !e.isTrashed ∧ !db.classified e.id ∧
    e.id ∉ db.keptInbox ranking accountId maxInbox

def findingsSurplus (ranking : ReceivedDesc) (accountId : Uuid) (maxFindings : Int) (db : Db)
    (e : EmailRow) : Bool :=
  e.accountId = accountId ∧ !e.isTrashed ∧ db.classified e.id ∧
    e.id ∉ db.keptFindings ranking accountId maxFindings

def purgeInbox (ranking : ReceivedDesc) (accountId : Uuid) (maxInbox : Int) (db : Db) : Nat × Db :=
  (db.emails.countP (db.inboxSurplus ranking accountId maxInbox),
    db.deleteEmails (db.inboxSurplus ranking accountId maxInbox))

def purgeFindings (ranking : ReceivedDesc) (accountId : Uuid) (maxFindings : Int) (db : Db) :
    Nat × Db :=
  (db.emails.countP (db.findingsSurplus ranking accountId maxFindings),
    db.deleteEmails (db.findingsSurplus ranking accountId maxFindings))

def purgeOldEmails (ranking : ReceivedDesc) (accountId : Uuid) (maxInbox maxFindings : Int)
    (db : Db) : (Nat × Nat) × Db :=
  let inbox := db.purgeInbox ranking accountId maxInbox
  let findings := inbox.2.purgeFindings ranking accountId maxFindings
  ((inbox.1, findings.1), findings.2)

def expired (cutoff : Int) (e : EmailRow) : Bool := e.isTrashed && e.trashedAt.all (· ≤ cutoff)

def purgeExpiredTrash (cutoff : Int) (db : Db) : Nat × Db :=
  (db.emails.countP (expired cutoff), db.deleteEmails (expired cutoff))

end Emails

section Criteria

def listActiveCriteria (db : Db) : List WatchCriterion :=
  (db.watchCriteria.filter (·.isActive)).insertionSort fun a b => a.createdAt ≤ b.createdAt

def deleteClassification (emailId criterionId : Uuid) (db : Db) : Db :=
  { db with classifications := db.classifications.filter fun c =>
      !(decide (c.emailId = emailId) && decide (c.criterionId = criterionId)) }

def clearClassifications (accountId criterionId : Option Uuid) (db : Db) : Db :=
  { db with classifications := db.classifications.filter fun c =>
      !((accountId.all fun a => db.emails.any fun e =>
          decide (e.accountId = a) && decide (e.id = c.emailId)) &&
        criterionId.all (c.criterionId = ·)) }

def saveClassification (id : Uuid) (now : Int) (emailId criterionId : Uuid)
    (confidence : Option Rat) (db : Db) : Except StorageError (Unit × Db) :=
  if db.classifications.any fun c => c.emailId = emailId ∧ c.criterionId = criterionId then
    .ok ((), { db with classifications := db.classifications.map fun c =>
      if c.emailId = emailId ∧ c.criterionId = criterionId then { c with confidence } else c })
  else if db.classifications.any (·.id = id) then
    .error (.db "UNIQUE constraint failed: classifications.id")
  else if db.emails.any (·.id = emailId) ∧ db.watchCriteria.any (·.id = criterionId) then
    .ok ((), { db with classifications :=
      db.classifications ++ [{ id, emailId, criterionId, confidence, createdAt := now }] })
  else .error (.db "FOREIGN KEY constraint failed")

end Criteria

section Settings

def getSetting (key : String) (db : Db) : Option String :=
  (db.settings.find? (·.1 = key)).map Prod.snd

def setSetting (key value : String) (db : Db) : Db :=
  if db.settings.any (·.1 = key) then
    { db with settings := db.settings.map fun s => if s.1 = key then (key, value) else s }
  else { db with settings := db.settings ++ [(key, value)] }

def deleteSetting (key : String) (db : Db) : Db :=
  { db with settings := db.settings.filter fun s => !decide (s.1 = key) }

end Settings

end Db

end Fumiko.Storage
