import Fumiko.EmailCore.Gmail
import Fumiko.EmailCore.Imap
import Fumiko.EmailCore.Outlook
import Fumiko.OAuth.Tokens
import Mathlib.Algebra.Group.Int.Defs

namespace Fumiko.EmailCore

open Fumiko.Common Fumiko.Foundation Fumiko.Net Fumiko.OAuth Fumiko.Program Fumiko.Storage

def minConfidenceToAccept : Rat := 1 / 2

def tier1AmbiguityThreshold : Rat := 1 / 4

def accessTokenTtl : Int := 50 * 60

/-- Whether a provider error counts as a message that is gone from the server.  It is
decided by the text of the error. -/
def isNotFoundError (e : ProviderError) : Bool :=
  contains e.display "404" || contains e.display "Not Found" || contains e.display "NotFound"

section Tokens

def invalidateToken (account : Uuid) : Program SyncError Unit :=
  Action.update fun w => { w with tokenCache := w.tokenCache.filter (·.1 ≠ account) }

def cachedToken (account : Uuid) : Program SyncError (Option String) := do
  let entry ← Action.read fun w => w.tokenCache.find? (·.1 = account)
  match entry with
  | none => pure none
  | some (_, token, expiresAt) => do
    let now ← instantNow
    pure (if now < expiresAt then some token else none)

def accessTokenFor (bundled : Bundled) (account : LinkedAccount) : Program SyncError String := do
  match ← cachedToken account.id with
  | some token => pure token
  | none => do
    let tokens ← Action.mapError SyncError.ofToken (getAccessTokenForAccount bundled account)
    let now ← instantNow
    Action.update fun w => { w with
      tokenCache := (account.id, tokens.accessToken, now + accessTokenTtl) ::
        w.tokenCache.filter (·.1 ≠ account.id) }
    pure tokens.accessToken

end Tokens

section Discovery

def imapPortU16 (account : LinkedAccount) : Option Nat :=
  account.imapPort.bind fun p => if 0 ≤ p ∧ p < 2 ^ 16 then some p.toNat else none

def providerFor (account : LinkedAccount) : EmailProvider :=
  if account.provider = .imap ∨ account.imapHost.isSome then
    Imap.provider {
      host := account.imapHost.getD "imap.gmail.com"
      port := (imapPortU16 account).getD 993
      emailAddress := account.emailAddress }
  else match account.provider with
    | .outlook => Outlook.provider
    | _ => Gmail.provider

/-- `get_setting(..).await.ok().flatten()` -/
def settingOrNone {ε : Type} (key : String) : Program ε (Option String) := do
  match ← Action.attempt (getSetting key) with
  | .ok value => pure value
  | .error _ => pure none

def initialSyncOptions : Program ProviderError SyncOptions := do
  let setting ← settingOrNone SettingKeys.initialSyncLimit
  let limit := (setting.bind Decimal.parseU32).getD Config.defaultInitialSyncLimit
  pure { maxResults := min (max limit 10) Config.maxInitialSyncLimit }

def fetchSyncPage (provider : EmailProvider) (account : LinkedAccount) (accessToken : String) :
    Program ProviderError (SyncPage × Bool) := do
  match account.syncCursor with
  | none => do
    let options ← initialSyncOptions
    let page ← provider.initialSync accessToken options
    pure (page, true)
  | some cursor => do
    match ← Action.attempt (provider.incrementalSync accessToken cursor) with
    | .ok page => pure (page, false)
    | .error .cursorExpired => do
      Action.ignore (clearSyncCursor account.id)
      let options ← initialSyncOptions
      let page ← provider.initialSync accessToken options
      pure (page, true)
    | .error e => Action.raise e

def discover (bundled : Bundled) (provider : EmailProvider) (account : LinkedAccount) :
    Program SyncError (String × SyncPage × Bool) := do
  let accessToken ← accessTokenFor bundled account
  match ← Action.attempt (fetchSyncPage provider account accessToken) with
  | .ok (page, isInitialSync) => pure (accessToken, page, isInitialSync)
  | .error .unauthorized => do
    invalidateToken account.id
    let accessToken ← accessTokenFor bundled account
    let (page, isInitialSync) ←
      Action.mapError .provider (fetchSyncPage provider account accessToken)
    pure (accessToken, page, isInitialSync)
  | .error e => Action.raise (.provider e)

end Discovery

section Hydration

structure NewEmail where
  emailId : Uuid
  providerMessageId : String
  subject : String
  sender : String
  snippet : Option String
  deriving DecidableEq

/-- What one hydration result adds to the pass: the saved email, or whether it counts as a
fetch error. -/
def hydrateOne (account : Uuid) :
    Except ProviderError MessageMetadata → Program SyncError (List NewEmail × Bool)
  | .ok m => do
    let emailId ← Action.mapError .database
      (saveEmail account m.id (some m.subject) (some m.sender) m.receivedAt m.isRead m.snippet)
    pure ([⟨emailId, m.id, m.subject, m.sender, m.snippet⟩], false)
  | .error e => pure ([], !isNotFoundError e)

def hydrateAll (account : Uuid) (total : Nat) :
    Nat → List (Except ProviderError MessageMetadata) → Program SyncError (List NewEmail × Bool)
  | _, [] => pure ([], false)
  | idx, result :: results => do
    let (saved, failed) ← hydrateOne account result
    log (.progress (idx + 1) total .hydrating)
    let (savedRest, failedRest) ← hydrateAll account total (idx + 1) results
    pure (saved ++ savedRest, failed || failedRest)

def hydrate (provider : EmailProvider) (account : Uuid) (accessToken : String) (page : SyncPage) :
    Program SyncError (List NewEmail × Bool) := do
  if page.newMessageIds.isEmpty then pure ([], false)
  else do
    log (.progress 0 page.newMessageIds.length .hydrating)
    let metadata ← Action.mapError .provider
      (provider.fetchMessageMetadata accessToken page.newMessageIds)
    log (.hydrated account metadata)
    hydrateAll account page.newMessageIds.length 0 metadata

end Hydration

section Apply

def applyRemoteChanges (account : Uuid) (page : SyncPage) : Program SyncError Unit :=
  Action.mapError .database do
    Action.forEach (markTrashed account) page.trashedMessageIds
    Action.forEach (markUntrashed account) page.restoredMessageIds
    Action.forEach (deleteByProviderMessageId account) page.deletedMessageIds

/-- Saves the new messages and then applies the trashed, restored and deleted ones. -/
def applyPage (provider : EmailProvider) (account : Uuid) (accessToken : String) (page : SyncPage) :
    Program SyncError (List NewEmail × Bool) := do
  let hydrated ← hydrate provider account accessToken page
  applyRemoteChanges account page
  pure hydrated

def advanceCursor (account : Uuid) (page : SyncPage) (fetchErrorsOccurred : Bool) :
    Program SyncError Unit :=
  if fetchErrorsOccurred then pure ()
  else Action.mapError .database (updateSyncCursor account page.nextCursor)

end Apply

section Classification

def askClassifier (f : ClassifierMoment → Except String (Option ClassificationMatch)) :
    Program SyncError (Except String (Option ClassificationMatch)) := do
  match ← nextClassifier with
  | none => pure (.error "connection closed")
  | some moment => pure (f moment)

def tier2Match (provider : EmailProvider) (accessToken : String) (criteria : List Criterion)
    (email : NewEmail) : Program SyncError (Option ClassificationMatch) := do
  log (.fetchedFullMessage email.providerMessageId)
  match ← Action.attempt (provider.fetchFullMessage accessToken email.providerMessageId) with
  | .error _ => pure none
  | .ok message =>
    match message.bodyText <|> message.bodyHtml with
    | none => pure none
    | some body => do
      match ← askClassifier (·.classifyWithBody email.subject email.sender body criteria) with
      | .ok (some c) => pure (if minConfidenceToAccept ≤ c.confidence then some c else none)
      | _ => pure none

def classifyOne (provider : EmailProvider) (accessToken : String) (isInitialSync : Bool)
    (criteria : List Criterion) (email : NewEmail) (tier2Budget : Nat) :
    Program SyncError (Option ClassificationMatch × Nat) := do
  match ← askClassifier (·.classify email.subject email.sender email.snippet criteria) with
  | .ok (some c) =>
    if minConfidenceToAccept ≤ c.confidence then pure (some c, tier2Budget)
    else if tier1AmbiguityThreshold ≤ c.confidence ∧ !isInitialSync then
      if 0 < tier2Budget then do
        let found ← tier2Match provider accessToken criteria email
        pure (found, tier2Budget - 1)
      else pure (none, tier2Budget)
    else pure (none, tier2Budget)
  | _ => pure (none, tier2Budget)

/-- Saves a match under the active criterion with its label.  The result says whether the
task goes on to count the email: an unknown label ends it first. -/
def recordMatch (active : List WatchCriterion) (email : NewEmail) :
    Option ClassificationMatch → Program SyncError Bool
  | none => pure true
  | some c =>
    match active.find? (·.label = c.criterionLabel) with
    | none => pure false
    | some criterion => do
      Action.ignore (saveClassification email.emailId criterion.id (some c.confidence))
      pure true

def classifyAll (provider : EmailProvider) (accessToken : String) (isInitialSync : Bool)
    (active : List WatchCriterion) (total : Nat) :
    List NewEmail → (tier2Budget completedCount : Nat) → Program SyncError Unit
  | [], _, _ => pure ()
  | email :: emails, tier2Budget, completedCount => do
    let criteria := active.map fun c => { label := c.label, description := c.description }
    let (found, tier2Budget) ←
      classifyOne provider accessToken isInitialSync criteria email tier2Budget
    let counted ← recordMatch active email found
    if counted then do
      log (.progress (completedCount + 1) total .classifying)
      classifyAll provider accessToken isInitialSync active total emails tier2Budget
        (completedCount + 1)
    else
      classifyAll provider accessToken isInitialSync active total emails tier2Budget completedCount

def classifyNewEmails (provider : EmailProvider) (accessToken : String) (isInitialSync : Bool)
    (emails : List NewEmail) : Program SyncError Unit := do
  if emails.isEmpty then pure ()
  else
    match ← Action.attempt listActiveCriteria with
    | .error _ => pure ()
    | .ok active =>
      if active.isEmpty then pure ()
      else
        match ← settingOrNone SettingKeys.activeAiModelId with
        | none => pure ()
        | some model =>
          if (trim model.toList).isEmpty then pure ()
          else do
            let _ ← settingOrNone SettingKeys.aiBackend
            log (.progress 0 emails.length .classifying)
            let order ← completionOrder emails
            classifyAll provider accessToken isInitialSync active emails.length order
              Config.maxTier2FetchesPerSync 0

end Classification

section Service

def capacity (key : String) (default : Nat) : Program SyncError Int := do
  let setting ← settingOrNone key
  pure ((setting.bind Decimal.parseI64).getD default)

def purge (account : Uuid) : Program SyncError Unit := do
  let maxInbox ← capacity SettingKeys.inboxCapacity Config.defaultInboxCapacity
  let maxFindings ← capacity SettingKeys.findingsCapacity Config.defaultFindingsCapacity
  Action.ignore (purgeOldEmails account maxInbox maxFindings)

def syncOneAccountInner (bundled : Bundled) (account : LinkedAccount) : Program SyncError Unit := do
  let provider := providerFor account
  let (accessToken, page, isInitialSync) ← discover bundled provider account
  log (.discovered account.id page isInitialSync)
  let (newlySaved, fetchErrorsOccurred) ← applyPage provider account.id accessToken page
  advanceCursor account.id page fetchErrorsOccurred
  classifyNewEmails provider accessToken isInitialSync newlySaved
  purge account.id

def syncOneAccount (bundled : Bundled) (account : LinkedAccount) : Program SyncError Unit := do
  match ← Action.attempt (syncOneAccountInner bundled account) with
  | .ok () => pure ()
  | .error e => do
    Action.ignore (setSyncError account.id e.display)
    Action.raise e

def syncAccount (bundled : Bundled) (account : Uuid) : Program SyncError Unit := do
  match ← Action.mapError .database (getAccount account) with
  | none => Action.raise (.accountNotFound account)
  | some account => syncOneAccount bundled account

def syncAccounts (bundled : Bundled) (accounts : List LinkedAccount) : Program SyncError Unit :=
  Action.forEach (fun account => Action.ignore (syncOneAccount bundled account)) accounts

def syncAll (bundled : Bundled) : Program SyncError Unit := do
  let accounts ← Action.mapError .database listAccounts
  syncAccounts bundled accounts
  let setting ← settingOrNone SettingKeys.trashRetentionDays
  let retentionDays := (setting.bind Decimal.parseI64).getD Config.defaultTrashRetentionDays
  Action.ignore (purgeExpiredTrash retentionDays)

end Service

end Fumiko.EmailCore
