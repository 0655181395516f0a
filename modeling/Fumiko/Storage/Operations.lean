import Fumiko.Storage.Service

namespace Fumiko.Storage

open Fumiko.Common Fumiko.Foundation Fumiko.Program

namespace Db

def updateCriteria (p : WatchCriterion → Bool) (f : WatchCriterion → WatchCriterion) (db : Db) : Db :=
  { db with watchCriteria := db.watchCriteria.map fun c => if p c then f c else c }

def updateAccountById (id : Uuid) (f : LinkedAccount → LinkedAccount) (db : Db) :
    Except StorageError (Unit × Db) :=
  if db.linkedAccounts.any (·.id = id) then .ok ((), db.updateAccounts (·.id = id) f)
  else .error .notFound

def updateDisplayName (id : Uuid) (displayName : String) : Db → Except StorageError (Unit × Db) :=
  updateAccountById id fun a => { a with displayName := some displayName }

def clearDisplayName (id : Uuid) : Db → Except StorageError (Unit × Db) :=
  updateAccountById id fun a => { a with displayName := none }

def setEmailRead (accountId : Uuid) (providerMessageId : String) (isRead : Bool) : Db → Db :=
  updateEmails (fun e => e.accountId = accountId ∧ e.providerMessageId = providerMessageId)
    fun e => { e with isRead }

def insertCriterion (row : WatchCriterion) (db : Db) : Except StorageError (Uuid × Db) :=
  if db.watchCriteria.any (·.id = row.id) then .error (.db "UNIQUE constraint failed: watch_criteria.id")
  else .ok (row.id, { db with watchCriteria := db.watchCriteria ++ [row] })

def deleteCriterion (id : Uuid) (db : Db) : Except StorageError (Unit × Db) :=
  if db.watchCriteria.any (·.id = id) then .ok ((), db.deleteCriteria (·.id = id))
  else .error .notFound

def setCriterionActive (id : Uuid) (isActive : Bool) (db : Db) : Except StorageError (Unit × Db) :=
  if db.watchCriteria.any (·.id = id) then
    .ok ((), db.updateCriteria (·.id = id) fun c => { c with isActive })
  else .error .notFound

end Db

section Accounts

def updateDisplayName (account : Uuid) (displayName : String) : Program StorageError Unit :=
  statement (Db.updateDisplayName account displayName)

def clearDisplayName (account : Uuid) : Program StorageError Unit :=
  statement (Db.clearDisplayName account)

def saveUserMicrosoftClientId (clientId : String) : Program StorageError Unit :=
  setSetting SettingKeys.userMicrosoftClientId clientId

end Accounts

section Emails

def deleteEmail (email : Uuid) : Program StorageError Unit :=
  statement (Db.deleteEmail email)

def setEmailRead (account : Uuid) (providerMessageId : String) (isRead : Bool) :
    Program StorageError Unit :=
  execute (Db.setEmailRead account providerMessageId isRead)

def trashEmail (email : Uuid) : Program StorageError Unit := do
  let now ← unixTimestamp
  statement (Db.trashEmail now email)

def restoreEmail (email : Uuid) : Program StorageError Unit :=
  statement (Db.restoreEmail email)

def markEmailViewed (email : Uuid) : Program StorageError Unit :=
  statement (Db.markEmailViewed email)

/-- The loop of `purge_old_emails_all` over the accounts that are left. -/
def purgeAccounts (maxInbox maxFindings : Int) (totalInboxPurged totalFindingsPurged : Nat) :
    List LinkedAccount → Program StorageError (Nat × Nat)
  | [] => pure (totalInboxPurged, totalFindingsPurged)
  | account :: accounts => do
    let (inboxCount, findingsCount) ← purgeOldEmails account.id maxInbox maxFindings
    purgeAccounts maxInbox maxFindings (totalInboxPurged + inboxCount)
      (totalFindingsPurged + findingsCount) accounts

def purgeOldEmailsAll (maxInbox maxFindings : Int) : Program StorageError (Nat × Nat) := do
  let accounts ← listAccounts
  purgeAccounts maxInbox maxFindings 0 0 accounts

def markAllRead (account : Option Uuid) : Program StorageError Unit :=
  execute (Db.markAllRead account)

def clearClassifications (account criterion : Option Uuid) : Program StorageError Nat :=
  statement fun db => .ok (db.classifications.length -
    (db.clearClassifications account criterion).classifications.length,
    db.clearClassifications account criterion)

def clearAllClassifications (account : Option Uuid) : Program StorageError Nat :=
  clearClassifications account none

end Emails

section Criteria

def hasSeededDefaultCriteria : String := "has_seeded_default_criteria"

def defaultCriteria : List (String × String) :=
  [("Interview Invitations",
    "Direct requests to schedule or confirm a job interview, phone screening, hiring call, or recruiter conversation. Does not include automated job posting alerts."),
    ("Job Alerts & Openings",
    "Automated job recommendations, daily job match digests, and new role alerts from platforms such as Indeed, LinkedIn, ZipRecruiter, and Glassdoor."),
    ("Account Security & Logins",
    "Security verification codes, multi-factor authentication (2FA/MFA) prompts, password reset links, and new sign-in or device alerts."),
    ("Receipts & Orders",
    "Purchase confirmations, payment receipts, subscription renewal invoices, order summaries, and package shipping or tracking updates."),
    ("Promotions & Deals",
    "Marketing discounts, promotional coupon codes, sales events, limited-time offers, and store deal announcements.")]

def insertDefault (createdAt : Int) (criterion : String × String) : Program StorageError Unit := do
  let id ← freshUuid
  let _ ← statement (Db.insertCriterion
    { id, label := criterion.1, description := criterion.2, isActive := true, createdAt })
  pure ()

def seedDefaultCriteria : Program StorageError Unit := do
  let alreadySeeded ← query fun db => db.getSetting hasSeededDefaultCriteria
  if alreadySeeded.isSome then pure ()
  else
    let existingCount ← query fun db => db.watchCriteria.length
    if 0 < existingCount then setSetting hasSeededDefaultCriteria "true"
    else
      let createdAt ← unixTimestamp
      Action.forEach (insertDefault createdAt) defaultCriteria
      setSetting hasSeededDefaultCriteria "true"

def addCriterion (label description : String) : Program StorageError Uuid := do
  let id ← freshUuid
  let now ← unixTimestamp
  statement (Db.insertCriterion { id, label, description, isActive := true, createdAt := now })

def deleteCriterion (criterion : Uuid) : Program StorageError Unit :=
  statement (Db.deleteCriterion criterion)

def setCriterionActive (criterion : Uuid) (isActive : Bool) : Program StorageError Unit :=
  statement (Db.setCriterionActive criterion isActive)

def deleteClassification (email criterion : Uuid) : Program StorageError Unit :=
  execute (Db.deleteClassification email criterion)

end Criteria

/-- The public calls of the storage handle and of its token store.  Those that only select are one. -/
inductive Operation
  | addAccount (provider : Provider) (emailAddress : String) (displayName : Option String)
  | addImapAccount (provider : Provider) (emailAddress : String) (displayName : Option String)
    (imapHost : String) (imapPort : Nat)
  | deleteAccount (account : Uuid)
  | updateDisplayName (account : Uuid) (displayName : String)
  | clearDisplayName (account : Uuid)
  | wipeAllData
  | setSyncError (account : Uuid) (error : String)
  | updateSyncCursor (account : Uuid) (syncCursor : String)
  | clearSyncCursor (account : Uuid)
  | saveEmail (account : Uuid) (providerMessageId : String) (subject sender : Option String)
    (receivedAt : Int) (isRead : Bool) (snippet : Option String)
  | deleteEmail (email : Uuid)
  | deleteByProviderMessageId (account : Uuid) (providerMessageId : String)
  | markTrashed (account : Uuid) (providerMessageId : String)
  | markUntrashed (account : Uuid) (providerMessageId : String)
  | setEmailRead (account : Uuid) (providerMessageId : String) (isRead : Bool)
  | trashEmail (email : Uuid)
  | restoreEmail (email : Uuid)
  | markEmailViewed (email : Uuid)
  | purgeExpiredTrash (retentionDays : Int)
  | purgeOldEmails (account : Uuid) (maxInbox maxFindings : Int)
  | purgeOldEmailsAll (maxInbox maxFindings : Int)
  | markAllRead (account : Option Uuid)
  | clearClassifications (account criterion : Option Uuid)
  | clearAllClassifications (account : Option Uuid)
  | seedDefaultCriteria
  | addCriterion (label description : String)
  | deleteCriterion (criterion : Uuid)
  | setCriterionActive (criterion : Uuid) (isActive : Bool)
  | saveClassification (email criterion : Uuid) (confidence : Option Rat)
  | deleteClassification (email criterion : Uuid)
  | setSetting (key value : String)
  | deleteSetting (key : String)
  | saveUserGoogleCredentials (clientId clientSecret : String)
  | deleteUserGoogleCredentials
  | saveUserMicrosoftClientId (clientId : String)
  | deleteUserMicrosoftClientId
  | setSecret (key value : String)
  | deleteSecret (key : String)
  | select

def Operation.perform (w : World) : Operation → World
  | .addAccount provider emailAddress displayName =>
    (Storage.addAccount provider emailAddress displayName w).2
  | .addImapAccount provider emailAddress displayName imapHost imapPort =>
    (Storage.addImapAccount provider emailAddress displayName imapHost imapPort w).2
  | .deleteAccount account => (Storage.deleteAccount account w).2
  | .updateDisplayName account displayName => (Storage.updateDisplayName account displayName w).2
  | .clearDisplayName account => (Storage.clearDisplayName account w).2
  | .wipeAllData => (Storage.wipeAllData w).2
  | .setSyncError account error => (Storage.setSyncError account error w).2
  | .updateSyncCursor account syncCursor => (Storage.updateSyncCursor account syncCursor w).2
  | .clearSyncCursor account => (Storage.clearSyncCursor account w).2
  | .saveEmail account providerMessageId subject sender receivedAt isRead snippet =>
    (Storage.saveEmail account providerMessageId subject sender receivedAt isRead snippet w).2
  | .deleteEmail email => (Storage.deleteEmail email w).2
  | .deleteByProviderMessageId account providerMessageId =>
    (Storage.deleteByProviderMessageId account providerMessageId w).2
  | .markTrashed account providerMessageId => (Storage.markTrashed account providerMessageId w).2
  | .markUntrashed account providerMessageId => (Storage.markUntrashed account providerMessageId w).2
  | .setEmailRead account providerMessageId isRead =>
    (Storage.setEmailRead account providerMessageId isRead w).2
  | .trashEmail email => (Storage.trashEmail email w).2
  | .restoreEmail email => (Storage.restoreEmail email w).2
  | .markEmailViewed email => (Storage.markEmailViewed email w).2
  | .purgeExpiredTrash retentionDays => (Storage.purgeExpiredTrash retentionDays w).2
  | .purgeOldEmails account maxInbox maxFindings =>
    (Storage.purgeOldEmails account maxInbox maxFindings w).2
  | .purgeOldEmailsAll maxInbox maxFindings => (Storage.purgeOldEmailsAll maxInbox maxFindings w).2
  | .markAllRead account => (Storage.markAllRead account w).2
  | .clearClassifications account criterion => (Storage.clearClassifications account criterion w).2
  | .clearAllClassifications account => (Storage.clearAllClassifications account w).2
  | .seedDefaultCriteria => (Storage.seedDefaultCriteria w).2
  | .addCriterion label description => (Storage.addCriterion label description w).2
  | .deleteCriterion criterion => (Storage.deleteCriterion criterion w).2
  | .setCriterionActive criterion isActive => (Storage.setCriterionActive criterion isActive w).2
  | .saveClassification email criterion confidence =>
    (Storage.saveClassification email criterion confidence w).2
  | .deleteClassification email criterion => (Storage.deleteClassification email criterion w).2
  | .setSetting key value => (Storage.setSetting key value w).2
  | .deleteSetting key => (Storage.deleteSetting key w).2
  | .saveUserGoogleCredentials clientId clientSecret =>
    (Storage.saveUserGoogleCredentials clientId clientSecret w).2
  | .deleteUserGoogleCredentials => (Storage.deleteUserGoogleCredentials w).2
  | .saveUserMicrosoftClientId clientId => (Storage.saveUserMicrosoftClientId clientId w).2
  | .deleteUserMicrosoftClientId => (Storage.deleteUserMicrosoftClientId w).2
  | .setSecret key value => (Storage.setSecret key value w).2
  | .deleteSecret key => (Storage.deleteSecret key w).2
  | .select => (dbCall w).2

def Operation.performAll : List (Outside × Operation) → World → World
  | [], w => w
  | (outside, operation) :: rest, w => performAll rest (operation.perform { w with outside })

end Fumiko.Storage
