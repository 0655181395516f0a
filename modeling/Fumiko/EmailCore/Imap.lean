import Fumiko.EmailCore.Provider
import Fumiko.Foundation.Text
import Mathlib.Data.List.Sort

namespace Fumiko.EmailCore.Imap

open Fumiko.Common Fumiko.Foundation Fumiko.Net Fumiko.Program

structure ImapProvider where
  host : String
  port : Nat
  emailAddress : String
  deriving DecidableEq

section Session

def otherError (text : String) : ProviderError := .other (.message text)

def loginError (text : String) : ProviderError :=
  let lower := text.toLower
  if contains lower "authenticationfailed" ∨ contains lower "invalid credentials" ∨
      contains lower "no [auth" ∨ contains lower "denied" then .unauthorized
  else otherError text

def connectSession : Program ProviderError ImapSession := do
  match ← nextImap with
  | none => Action.raise (otherError "connection closed")
  | some session =>
    match session.connect with
    | .connected => pure session
    | .unreachable text => Action.raise (otherError text)
    | .loginRefused text => Action.raise (loginError text)

def reply {α : Type} : Except String α → Program ProviderError α
  | .ok a => pure a
  | .error text => Action.raise (otherError text)

def selectInbox (session : ImapSession) : Program ProviderError (Option Nat) := do
  let validity ← reply session.select
  log (.imapSelected validity)
  pure validity

def uidSearch (session : ImapSession) (query : ImapQuery) : Program ProviderError (List Nat) := do
  let uids ← reply (session.search query)
  log (.imapSearched query uids.val)
  pure uids.val

end Session

section Discovery

def sortUids (uids : List Nat) : List Nat := uids.insertionSort (· ≤ ·)

/-- `{uid_validity}:{last_seen_uid}` -/
def formatCursor (validity uid : Nat) : String := Nat.repr validity ++ ":" ++ Nat.repr uid

/-- A cursor that does not split in two is expired; a part that is no `u32` reads as zero. -/
def parseCursor (cursor : String) : Option (Nat × Nat) :=
  match fields ':' cursor.toList with
  | [validity, uid] =>
    some ((Decimal.parseU32 (String.ofList validity)).getD 0,
      (Decimal.parseU32 (String.ofList uid)).getD 0)
  | _ => none

def discovered (validity highest : Nat) (uids : List Nat) : SyncPage where
  newMessageIds := uids.reverse.map Nat.repr
  trashedMessageIds := []
  deletedMessageIds := []
  restoredMessageIds := []
  nextCursor := formatCursor validity highest
  hasMore := false

/-- The page of `initial_sync`: the highest `maxResults` UIDs, newest first. -/
def initialPage (maxResults validity : Nat) (found : List Nat) : SyncPage :=
  let uids := sortUids found
  discovered validity (uids.getLast?.getD 0) (uids.drop (uids.length - maxResults))

/-- The page of `incremental_sync`.  The search may return the highest UID of the mailbox
even when it is below the range, so the UIDs are filtered again. -/
def incrementalPage (validity lastSeenUid : Nat) (found : List Nat) : SyncPage :=
  let newUids := sortUids (found.filter (lastSeenUid < ·))
  discovered validity (newUids.getLast?.getD lastSeenUid) newUids

def initialSync (options : SyncOptions) : Program ProviderError SyncPage := do
  let session ← connectSession
  let validity ← selectInbox session
  let uids ← uidSearch session .all
  pure (initialPage options.maxResults (validity.getD 0) uids)

def incrementalSync (cursor : String) : Program ProviderError SyncPage := do
  match parseCursor cursor with
  | none => Action.raise .cursorExpired
  | some (expectedValidity, lastSeenUid) =>
    let session ← connectSession
    let validity ← selectInbox session
    if validity.getD 0 ≠ expectedValidity then Action.raise .cursorExpired
    else
      -- `last_seen_uid + 1` is `u32` arithmetic.
      let uids ← uidSearch session (.uidFrom ((lastSeenUid + 1) % 2 ^ 32))
      pure (incrementalPage expectedValidity lastSeenUid uids)

end Discovery

section Hydration

def missingText (messageId : String) : String :=
  "Message " ++ messageId ++ " not found on IMAP server (404)"

def isPreviewLine (line : List Char) : Bool :=
  !line.isEmpty && !"--".toList.isPrefixOf line && !"Content-Type:".toList.isPrefixOf line &&
    !"Content-Transfer-Encoding:".toList.isPrefixOf line

def scrubSnippet (text : String) : Option String :=
  let lines := (((fields '\n' text.toList).map trim).filter isPreviewLine).take 2
  let joined := String.ofList (lines.intersperse [' ']).flatten
  if joined.isEmpty then none else some joined

def fetchFor (fetches : List ImapFetch) (messageId : String) : Option ImapFetch :=
  fetches.reverse.find? fun f => f.uid.map Nat.repr = some messageId

def readFetch (fetches : List ImapFetch) (messageId : String) :
    Program ProviderError MessageMetadata := do
  match fetchFor fetches messageId with
  | none => Action.raise (.invalidData (missingText messageId))
  | some fetch =>
    let receivedAt ← match fetch.headers.bind (·.date) with
      | some date => pure date
      | none => unixTimestamp
    pure {
      id := messageId
      subject := (fetch.headers.bind (·.subject)).getD "(no subject)"
      sender := (fetch.headers.bind (·.sender)).getD "(no sender)"
      receivedAt
      isRead := fetch.isSeen
      snippet := fetch.text.bind scrubSnippet }

def fetchMessageMetadata (messageIds : List String) :
    Program ProviderError (List (Except ProviderError MessageMetadata)) := do
  if messageIds.isEmpty then pure []
  else
    let session ← connectSession
    let _ ← selectInbox session
    let fetches ← reply (session.fetch messageIds)
    Action.collect (readFetch fetches) messageIds

end Hydration

def fetchFullMessage (messageId : String) : Program ProviderError FullMessage := do
  let session ← connectSession
  let _ ← selectInbox session
  Action.liftExcept (session.fullMessage messageId)

def provider (p : ImapProvider) : EmailProvider where
  getProfile _ := do
    let _ ← connectSession
    pure { emailAddress := p.emailAddress, displayName := none }
  initialSync _ options := initialSync options
  incrementalSync _ cursor := incrementalSync cursor
  fetchMessageMetadata _ ids := fetchMessageMetadata ids
  fetchFullMessage _ id := fetchFullMessage id

end Fumiko.EmailCore.Imap
