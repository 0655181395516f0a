import Fumiko.EmailCore.Provider

namespace Fumiko.EmailCore.Outlook

open Fumiko.Common Fumiko.Foundation Fumiko.Net Fumiko.Program

def graphBase : String := "https://graph.microsoft.com/v1.0"

def maxInitialSyncPages : Nat := 200

def max429Retries : Nat := 3

def profileUrl : String := graphBase ++ "/me"

def initialUrl (maxResults : Nat) : String :=
  graphBase ++ "/me/mailFolders/inbox/messages/delta?$top=" ++ Nat.repr maxResults

def messageUrl (messageId : String) : String :=
  graphBase ++ "/me/messages/" ++ messageId ++
    "?$select=subject,from,receivedDateTime,isRead,bodyPreview"

def closed : String := "connection closed"

section Requests

variable {α : Type}

/-- Sends a request again, up to `retries` times, while the service answers 429. -/
def sendRequestWithRetry (ask : OutlookMoment → HttpReply α) :
    Nat → List OutlookMoment → HttpReply α × List OutlookMoment
  | _, [] => (.failed closed, [])
  | 0, m :: ms => (ask m, ms)
  | retries + 1, m :: ms =>
    if (ask m).status = some 429 then sendRequestWithRetry ask retries ms else (ask m, ms)

def request (url : String) (ask : OutlookMoment → HttpReply α) :
    Action (List OutlookMoment) ReqwestError α := fun ms =>
  let (reply, ms) := sendRequestWithRetry ask max429Retries ms
  (reply.json url, ms)

end Requests

section Discovery

/-- The paging loop of `initial_sync`, with `pagesLeft` requests to go. -/
def readInitial (maxResults : Nat) :
    Nat → Option String → List String → Action (List OutlookMoment) ProviderError (List String × String)
  | _, none, _ => Action.raise
    (.invalidData "Outlook initial sync completed without returning delta cursor")
  | 0, some _, _ => Action.raise
    (.invalidData "Outlook initial sync exceeded maximum page limit of 200")
  | pagesLeft + 1, some url, ids => do
    let response ← Action.mapError ProviderError.ofReqwest (request url (·.delta url))
    let ids := ids ++ (response.value.map (·.id)).take (maxResults - ids.length)
    match response.deltaLink with
    | some deltaLink => pure (ids, deltaLink)
    | none => readInitial maxResults pagesLeft response.nextLink ids

def initialSync (options : SyncOptions) : Action (List OutlookMoment) ProviderError SyncPage := do
  let (ids, deltaLink) ←
    readInitial options.maxResults maxInitialSyncPages (some (initialUrl options.maxResults)) []
  pure {
    newMessageIds := ids
    trashedMessageIds := []
    deletedMessageIds := []
    restoredMessageIds := []
    nextCursor := deltaLink
    hasMore := false }

structure Changes where
  new : List String
  trashed : List String

def Changes.add (c : Changes) (item : DeltaMessageItem) : Changes :=
  if item.removed.isSome then { c with trashed := c.trashed ++ [item.id] }
  else { c with new := c.new ++ [item.id] }

/-- The paging loop of `incremental_sync`.  A 410 means the delta link has expired. -/
def readDelta : Nat → Option String → Changes →
    Action (List OutlookMoment) ProviderError (Changes × String)
  | _, none, _ => Action.raise
    (.invalidData "Outlook incremental sync completed without returning delta cursor")
  | 0, some _, _ => Action.raise
    (.invalidData "Outlook incremental sync exceeded maximum page limit of 200")
  | pagesLeft + 1, some url, c => fun ms =>
    let (raw, ms) := sendRequestWithRetry (·.delta url) max429Retries ms
    if raw.status = some 410 then (.error .cursorExpired, ms)
    else match raw.json url with
      | .error e => (.error (.ofReqwest e), ms)
      | .ok response =>
        let c := response.value.foldl Changes.add c
        match response.deltaLink with
        | some deltaLink => (.ok (c, deltaLink), ms)
        | none => readDelta pagesLeft response.nextLink c ms

def incrementalSync (cursor : String) : Action (List OutlookMoment) ProviderError SyncPage := do
  let (c, deltaLink) ← readDelta maxInitialSyncPages (some cursor) ⟨[], []⟩
  pure {
    newMessageIds := c.new
    trashedMessageIds := c.trashed
    deletedMessageIds := []
    restoredMessageIds := []
    nextCursor := deltaLink
    hasMore := false }

end Discovery

section Hydration

def fetchOneSummary (messageId : String) : Program ProviderError MessageMetadata := do
  let message ← onOutlook <| Action.mapError ProviderError.ofReqwest <|
    request (messageUrl messageId) (·.message messageId)
  let parse ← Action.read fun w => w.outside.parseRfc3339
  let receivedAt ← match message.receivedDateTime.bind parse with
    | some timestamp => pure timestamp
    | none => unixTimestamp
  pure {
    id := messageId
    subject := message.subject.getD "(no subject)"
    sender := (message.sender.bind id).getD "(no sender)"
    receivedAt
    isRead := message.isRead.getD false
    snippet := message.bodyPreview }

def fetchMessageMetadata (messageIds : List String) :
    Program ProviderError (List (Except ProviderError MessageMetadata)) := do
  let order ← completionOrder messageIds
  Action.collect fetchOneSummary order

end Hydration

def fetchProfile : Action (List OutlookMoment) ProviderError OutlookProfileResponse :=
  Action.mapError ProviderError.ofReqwest (request profileUrl OutlookMoment.me)

def fetchFullMessage (messageId : String) : Action (List OutlookMoment) ProviderError FullMessage
  | [] => (.error (.other (.message closed)), [])
  | m :: ms => (m.fullMessage messageId, ms)

def provider : EmailProvider where
  getProfile _ := do
    let profile ← onOutlook fetchProfile
    pure {
      emailAddress := (profile.mail <|> profile.userPrincipalName).getD ""
      displayName := profile.displayName }
  initialSync _ options := onOutlook (initialSync options)
  incrementalSync _ cursor := onOutlook (incrementalSync cursor)
  fetchMessageMetadata _ ids := fetchMessageMetadata ids
  fetchFullMessage _ id := onOutlook (fetchFullMessage id)

end Fumiko.EmailCore.Outlook
