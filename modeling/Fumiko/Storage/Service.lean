import Fumiko.World

/-! The storage handle: SQL statements and keyring calls as program steps.  Every call may
fail, and a call that fails has no effect. -/

namespace Fumiko.Storage

open Fumiko.Common Fumiko.Foundation Fumiko.Net Fumiko.Program

section Calls

variable {α : Type}

def dbCall : Program StorageError Unit := fun w =>
  let w' := { w with outside := { w.outside with dbFaults := w.outside.dbFaults.tail } }
  match w.outside.dbFaults.head? with
  | some (some text) => (.error (.db text), w')
  | _ => (.ok (), w')

def query (f : Db → α) : Program StorageError α := do
  dbCall
  Action.read fun w => f w.db

def commit (f : Db → Except StorageError (α × Db)) : Program StorageError α := fun w =>
  match f w.db with
  | .ok (a, db) => (.ok a, { w with db })
  | .error e => (.error e, w)

def statement (f : Db → Except StorageError (α × Db)) : Program StorageError α := do
  dbCall
  commit f

def execute (f : Db → Db) : Program StorageError Unit :=
  statement fun db => .ok ((), f db)

def keyringGetCall : Program StorageError Unit := fun w =>
  let w' := { w with outside := { w.outside with keyringGetFaults := w.outside.keyringGetFaults.tail } }
  match w.outside.keyringGetFaults.head? with
  | some (some text) => (.error (.keyring text), w')
  | _ => (.ok (), w')

def keyringSetCall : Program StorageError Unit := fun w =>
  let w' := { w with outside := { w.outside with keyringSetFaults := w.outside.keyringSetFaults.tail } }
  match w.outside.keyringSetFaults.head? with
  | some (some text) => (.error (.keyring text), w')
  | _ => (.ok (), w')

def keyringDeleteCall : Program StorageError Unit := fun w =>
  let w' := { w with
    outside := { w.outside with keyringDeleteFaults := w.outside.keyringDeleteFaults.tail } }
  match w.outside.keyringDeleteFaults.head? with
  | some (some text) => (.error (.keyring text), w')
  | _ => (.ok (), w')

end Calls

section TokenStore

def setSecret (key value : String) : Program StorageError Unit := do
  keyringSetCall
  Action.update fun w => { w with keyring := fun k => if k = key then some value else w.keyring k }

def getSecret (key : String) : Program StorageError (Option String) := do
  keyringGetCall
  Action.read fun w => w.keyring key

def deleteSecret (key : String) : Program StorageError Unit := do
  keyringDeleteCall
  Action.update fun w => { w with keyring := fun k => if k = key then none else w.keyring k }

def saveAccountSecret (account : Uuid) (secret : String) : Program StorageError Unit :=
  setSecret account.text secret

def getAccountSecret (account : Uuid) : Program StorageError (Option String) :=
  getSecret account.text

def deleteAccountSecret (account : Uuid) : Program StorageError Unit :=
  deleteSecret account.text

end TokenStore

section Accounts

def addAccount (provider : Provider) (emailAddress : String) (displayName : Option String) :
    Program StorageError Uuid := do
  let id ← freshUuid
  let now ← unixTimestamp
  statement (Db.addAccount id now provider emailAddress displayName)

def addImapAccount (provider : Provider) (emailAddress : String) (displayName : Option String)
    (imapHost : String) (imapPort : Nat) : Program StorageError Uuid := do
  let id ← freshUuid
  let now ← unixTimestamp
  statement (Db.addImapAccount id now provider emailAddress displayName imapHost imapPort)

def getAccount (account : Uuid) : Program StorageError (Option LinkedAccount) :=
  query fun db => db.account account

def listAccounts : Program StorageError (List LinkedAccount) :=
  query Db.listAccounts

def deleteAccount (account : Uuid) : Program StorageError Unit := do
  deleteAccountSecret account
  statement (Db.deleteAccountRow account)

end Accounts

section Settings

def getSetting (key : String) : Program StorageError (Option String) :=
  query fun db => db.getSetting key

def setSetting (key value : String) : Program StorageError Unit :=
  execute (Db.setSetting key value)

def deleteSetting (key : String) : Program StorageError Unit :=
  execute (Db.deleteSetting key)

end Settings

section OAuthCredentials

def saveUserGoogleCredentials (clientId clientSecret : String) : Program StorageError Unit := do
  setSecret KeyringKeys.userGoogleClientSecret clientSecret
  match ← Action.attempt (setSetting SettingKeys.userGoogleClientId clientId) with
  | .ok () => pure ()
  | .error e =>
    Action.ignore (deleteSecret KeyringKeys.userGoogleClientSecret)
    Action.raise e

def getUserGoogleCredentials : Program StorageError (Option (String × String)) := do
  match ← getSetting SettingKeys.userGoogleClientId with
  | none => pure none
  | some clientId =>
    match ← getSecret KeyringKeys.userGoogleClientSecret with
    | none => pure none
    | some clientSecret => pure (some (clientId, clientSecret))

def deleteUserGoogleCredentials : Program StorageError Unit := do
  deleteSecret KeyringKeys.userGoogleClientSecret
  deleteSetting SettingKeys.userGoogleClientId

def getUserMicrosoftClientId : Program StorageError (Option String) :=
  getSetting SettingKeys.userMicrosoftClientId

def deleteUserMicrosoftClientId : Program StorageError Unit :=
  deleteSetting SettingKeys.userMicrosoftClientId

end OAuthCredentials

/-- `BEGIN`, the three deletions and `COMMIT`.  Any of the five calls may fail; the
transaction then rolls back. -/
def truncateTables : Program StorageError Unit := do
  dbCall
  dbCall
  dbCall
  dbCall
  execute Db.truncate

def wipeAllData : Program StorageError Unit := do
  let accounts ← listAccounts
  Action.forEach (fun a : LinkedAccount => deleteAccountSecret a.id) accounts
  deleteUserGoogleCredentials
  deleteUserMicrosoftClientId
  truncateTables
  -- The checkpoint and the vacuum move no rows, and their errors are ignored.
  Action.ignore dbCall
  Action.ignore dbCall

section Sync

def setSyncError (account : Uuid) (error : String) : Program StorageError Unit :=
  execute (Db.setSyncError account error)

def updateSyncCursor (account : Uuid) (syncCursor : String) : Program StorageError Unit := do
  let now ← unixTimestamp
  execute (Db.updateSyncCursor now account syncCursor)
  log (.storedCursor account syncCursor)

def clearSyncCursor (account : Uuid) : Program StorageError Unit := do
  execute (Db.clearSyncCursor account)
  log (.clearedCursor account)

end Sync

section Emails

def saveEmail (account : Uuid) (providerMessageId : String) (subject sender : Option String)
    (receivedAt : Int) (isRead : Bool) (snippet : Option String) : Program StorageError Uuid := do
  let id ← freshUuid
  let now ← unixTimestamp
  let isNew ← Action.read fun w => (w.db.email account providerMessageId).isNone
  let row ← statement
    (Db.saveEmail id now account providerMessageId subject sender receivedAt isRead snippet)
  log (.savedEmail row account providerMessageId isNew)
  pure row

def deleteByProviderMessageId (account : Uuid) (providerMessageId : String) :
    Program StorageError Unit :=
  execute (Db.deleteByProviderMessageId account providerMessageId)

def markTrashed (account : Uuid) (providerMessageId : String) : Program StorageError Unit := do
  let now ← unixTimestamp
  execute (Db.markTrashed now account providerMessageId)

def markUntrashed (account : Uuid) (providerMessageId : String) : Program StorageError Unit :=
  execute (Db.markUntrashed account providerMessageId)

def purgeOldEmails (account : Uuid) (maxInbox maxFindings : Int) :
    Program StorageError (Nat × Nat) := do
  let ranking ← Action.read fun w => w.outside.ranking
  let inbox ← statement fun db => .ok (db.purgeInbox ranking account maxInbox)
  let findings ← statement fun db => .ok (db.purgeFindings ranking account maxFindings)
  pure (inbox, findings)

def maxRetentionDays : Int := 3650

def secondsPerDay : Int := 86400

/-- The checked arithmetic of the cutoff cannot overflow once the days are in range. -/
def purgeExpiredTrash (retentionDays : Int) : Program StorageError Nat := do
  if retentionDays < 0 ∨ maxRetentionDays < retentionDays then
    Action.raise (.invalidInput "retention_days must be between 0 and 3650")
  else
    let now ← unixTimestamp
    statement fun db => .ok (db.purgeExpiredTrash (now - retentionDays * secondsPerDay))

def listActiveCriteria : Program StorageError (List WatchCriterion) :=
  query Db.listActiveCriteria

def saveClassification (email criterion : Uuid) (confidence : Option Rat) :
    Program StorageError Unit := do
  let id ← freshUuid
  let now ← unixTimestamp
  statement (Db.saveClassification id now email criterion confidence)
  log (.savedClassification email criterion)

end Emails

end Fumiko.Storage
