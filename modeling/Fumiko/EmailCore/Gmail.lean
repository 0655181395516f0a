import Fumiko.EmailCore.Provider
import Fumiko.Foundation.Text
import Mathlib.Data.List.Sort
import Mathlib.Data.String.Basic

namespace Fumiko.EmailCore.Gmail

open Fumiko.Common Fumiko.Foundation Fumiko.Net Fumiko.Program

def baseUrl : String := "https://gmail.googleapis.com/gmail/v1/users/me"

def profileUrl : String := baseUrl ++ "/profile"

def withPageToken (url : String) : Option String → String
  | some token => url ++ "&pageToken=" ++ token
  | none => url

def listUrl (pageSize : Nat) (pageToken : Option String) : String :=
  withPageToken (baseUrl ++ "/messages?maxResults=" ++ Nat.repr pageSize ++ "&labelIds=INBOX") pageToken

def historyUrl (cursor : String) (pageToken : Option String) : String :=
  withPageToken (baseUrl ++ "/history?startHistoryId=" ++ cursor ++
    "&historyTypes=messageAdded&historyTypes=messageDeleted&historyTypes=labelAdded&historyTypes=labelRemoved")
    pageToken

def detailUrl (messageId : String) : String :=
  baseUrl ++ "/messages/" ++ messageId ++
    "?format=metadata&metadataHeaders=Subject&metadataHeaders=From"

def closed : String := "connection closed"

section Discovery

variable {α : Type}

def request (url : String) (ask : GmailMoment → HttpReply α) :
    Action (List GmailMoment) ReqwestError α
  | [] => (.error ⟨.transport, url, closed⟩, [])
  | m :: ms => ((ask m).json url, ms)

def fetchGmailProfile : Action (List GmailMoment) ProviderError GmailProfileResponse :=
  Action.mapError ProviderError.ofReqwest (request profileUrl GmailMoment.profile)

/-- The listing loop of `initial_sync`: `ids` and `totalFetched` are its accumulators. -/
def listInbox (maxResults : Nat) (pageToken : Option String) (ids : List String)
    (totalFetched : Nat) : Action (List GmailMoment) ProviderError (List String)
  | [] => (.error (.ofReqwest ⟨.transport, listUrl (min maxResults 500) pageToken, closed⟩), [])
  | m :: ms =>
    match (m.listMessages (min maxResults 500) pageToken).json
        (listUrl (min maxResults 500) pageToken) with
    | .error e => (.error (.ofReqwest e), ms)
    | .ok response =>
      let messages := (response.messages.getD []).map MessageRefId.id
      let totalFetched := totalFetched + messages.length
      match response.nextPageToken with
      | some token =>
        if totalFetched < maxResults then
          listInbox maxResults (some token) (ids ++ messages) totalFetched ms
        else (.ok (ids ++ messages), ms)
      | none => (.ok (ids ++ messages), ms)

def initialSync (options : SyncOptions) : Action (List GmailMoment) ProviderError SyncPage := do
  let allMessageIds ← listInbox options.maxResults none [] 0
  let profile ← fetchGmailProfile
  pure {
    newMessageIds := allMessageIds.take options.maxResults
    trashedMessageIds := []
    deletedMessageIds := []
    restoredMessageIds := []
    nextCursor := profile.historyId
    hasMore := false }

/-- The accumulators of the history loop.  `deleted` is a hash set in the source, so only
its members matter. -/
structure Changes where
  new : List String
  deleted : List String
  trashed : List String
  restored : List String
  historyId : String

def isTrashOrSpam (label : String) : Bool := label = "TRASH" ∨ label = "SPAM"

def Changes.add (c : Changes) (r : HistoryRecord) : Changes :=
  { c with
    new := c.new ++ (r.messagesAdded.getD []).map (·.message.id)
    deleted := c.deleted ++ (r.messagesDeleted.getD []).map (·.message.id)
    trashed := c.trashed ++
      ((r.labelsAdded.getD []).filter (·.labelIds.any isTrashOrSpam)).map (·.message.id)
    restored := c.restored ++
      ((r.labelsRemoved.getD []).filter (·.labelIds.any isTrashOrSpam)).map (·.message.id) }

/-- The history loop of `incremental_sync`.  A 404 means the start id has expired. -/
def readHistory (cursor : String) (pageToken : Option String) (c : Changes) :
    Action (List GmailMoment) ProviderError Changes
  | [] => (.error (.ofReqwest ⟨.transport, historyUrl cursor pageToken, closed⟩), [])
  | m :: ms =>
    let raw := m.history cursor pageToken
    if raw.status = some 404 then (.error .cursorExpired, ms)
    else match raw.json (historyUrl cursor pageToken) with
      | .error e => (.error (.ofReqwest e), ms)
      | .ok response =>
        let c := if response.historyId.isEmpty then c else { c with historyId := response.historyId }
        let c := (response.history.getD []).foldl Changes.add c
        match response.nextPageToken with
        | some token => if token.isEmpty then (.ok c, ms) else readHistory cursor (some token) c ms
        | none => (.ok c, ms)

def sortUnstable (l : List String) : List String := l.insertionSort (· ≤ ·)

/-- The page `incremental_sync` makes of the changes it has read. -/
def Changes.page (c : Changes) : SyncPage where
  newMessageIds := (dedup (sortUnstable c.new)).filter (· ∉ c.deleted)
  trashedMessageIds := dedup (sortUnstable c.trashed)
  deletedMessageIds := c.deleted.dedup
  restoredMessageIds := dedup (sortUnstable c.restored)
  nextCursor := c.historyId
  hasMore := false

def incrementalSync (cursor : String) : Action (List GmailMoment) ProviderError SyncPage := do
  let c ← readHistory cursor none ⟨[], [], [], [], cursor⟩
  pure c.page

end Discovery

section Hydration

def headerValue (headers : List MessageHeader) (name : String) : Option String :=
  (headers.find? fun h => h.name.toLower = name.toLower).map (·.value)

def fetchOneSummary (messageId : String) : Program ProviderError MessageMetadata := do
  let metadata ← onGmail <| Action.mapError ProviderError.ofReqwest <|
    request (detailUrl messageId) (·.message messageId)
  let headers := metadata.payload.getD []
  let receivedAt ← match Decimal.parseI64 metadata.internalDate with
    | some ms => pure (ms.tdiv 1000)
    | none => unixTimestamp
  pure {
    id := messageId
    subject := (headerValue headers "Subject").getD "(no subject)"
    sender := (headerValue headers "From").getD "(no sender)"
    receivedAt
    isRead := !(metadata.labelIds.getD []).any (· = "UNREAD")
    snippet := metadata.snippet }

def fetchMessageMetadata (messageIds : List String) :
    Program ProviderError (List (Except ProviderError MessageMetadata)) := do
  let order ← completionOrder messageIds
  Action.collect fetchOneSummary order

end Hydration

def fetchFullMessage (messageId : String) : Action (List GmailMoment) ProviderError FullMessage
  | [] => (.error (.other (.message closed)), [])
  | m :: ms => (m.fullMessage messageId, ms)

def provider : EmailProvider where
  getProfile _ := do
    let profile ← onGmail fetchGmailProfile
    pure { emailAddress := profile.emailAddress, displayName := none }
  initialSync _ options := onGmail (initialSync options)
  incrementalSync _ cursor := onGmail (incrementalSync cursor)
  fetchMessageMetadata _ ids := fetchMessageMetadata ids
  fetchFullMessage _ id := onGmail (fetchFullMessage id)

end Fumiko.EmailCore.Gmail
