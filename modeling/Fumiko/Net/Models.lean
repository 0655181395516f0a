import Fumiko.Common.Errors
import Mathlib.Data.Rat.Defs

namespace Fumiko.Net

open Fumiko.Common

/-- What comes back from one HTTP request: a failure to get a response at all, or a
response with its status and its decoded body.  The texts are those the client library
would render for the three errors it can make of it. -/
inductive HttpReply (α : Type)
  | failed (text : String)
  | response (status : Nat) (statusText : String) (body : Except String α)

namespace HttpReply

variable {α : Type}

def status : HttpReply α → Option Nat
  | .failed _ => none
  | .response status _ _ => some status

/-- `send().await?.error_for_status()?.json().await?` -/
def json (url : String) : HttpReply α → Except ReqwestError α
  | .failed text => .error ⟨.transport, url, text⟩
  | .response status statusText body =>
    if 400 ≤ status ∧ status < 600 then .error ⟨.status status, url, statusText⟩
    else match body with
      | .ok a => .ok a
      | .error text => .error ⟨.decode, url, text⟩

theorem status_of_json {reply : HttpReply α} {url : String} {a : α} {code : Nat}
    (h : reply.json url = .ok a) (hcode : 400 ≤ code ∧ code < 600) : reply.status ≠ some code := by
  cases reply with
  | failed text => cases h
  | response status statusText body =>
    intro hstatus
    cases hstatus
    simp only [json, hcode, and_self, if_true] at h
    cases h

end HttpReply

structure Profile where
  emailAddress : String
  displayName : Option String
  deriving DecidableEq

structure MessageMetadata where
  id : String
  subject : String
  sender : String
  receivedAt : Int
  isRead : Bool
  snippet : Option String
  deriving DecidableEq

structure FullMessage where
  bodyText : Option String
  bodyHtml : Option String
  deriving DecidableEq

structure SyncPage where
  newMessageIds : List String
  trashedMessageIds : List String
  deletedMessageIds : List String
  restoredMessageIds : List String
  nextCursor : String
  hasMore : Bool
  deriving DecidableEq

structure SyncOptions where
  maxResults : Nat
  deriving DecidableEq

section Gmail

structure GmailProfileResponse where
  emailAddress : String
  historyId : String
  deriving DecidableEq

structure MessageRefId where
  id : String
  deriving DecidableEq

structure ListMessagesResponse where
  messages : Option (List MessageRefId)
  nextPageToken : Option String
  deriving DecidableEq

structure MessageAdded where
  message : MessageRefId
  deriving DecidableEq

structure MessageDeleted where
  message : MessageRefId
  deriving DecidableEq

structure LabelAdded where
  message : MessageRefId
  labelIds : List String
  deriving DecidableEq

structure LabelRemoved where
  message : MessageRefId
  labelIds : List String
  deriving DecidableEq

structure HistoryRecord where
  messagesAdded : Option (List MessageAdded)
  messagesDeleted : Option (List MessageDeleted)
  labelsAdded : Option (List LabelAdded)
  labelsRemoved : Option (List LabelRemoved)
  deriving DecidableEq

structure HistoryListResponse where
  history : Option (List HistoryRecord)
  historyId : String
  nextPageToken : Option String
  deriving DecidableEq

structure MessageHeader where
  name : String
  value : String
  deriving DecidableEq

structure GmailMessageSummaryResponse where
  internalDate : String
  labelIds : Option (List String)
  payload : Option (List MessageHeader)
  snippet : Option String
  deriving DecidableEq

/-- The Gmail service at the moment of one request: how it would answer each request
that could be made of it then. -/
structure GmailMoment where
  profile : HttpReply GmailProfileResponse
  listMessages : (maxResults : Nat) → (pageToken : Option String) → HttpReply ListMessagesResponse
  history : (startHistoryId : String) → (pageToken : Option String) → HttpReply HistoryListResponse
  message : (id : String) → HttpReply GmailMessageSummaryResponse
  fullMessage : (id : String) → Except ProviderError FullMessage

end Gmail

section Outlook

structure OutlookProfileResponse where
  mail : Option String
  userPrincipalName : Option String
  displayName : Option String
  deriving DecidableEq

structure OutlookMessageResponse where
  subject : Option String
  sender : Option (Option String)
  receivedDateTime : Option String
  isRead : Option Bool
  bodyPreview : Option String
  deriving DecidableEq

structure DeltaMessageItem where
  id : String
  removed : Option (Option String)
  deriving DecidableEq

structure DeltaResponse where
  value : List DeltaMessageItem
  nextLink : Option String
  deltaLink : Option String
  deriving DecidableEq

structure OutlookMoment where
  me : HttpReply OutlookProfileResponse
  delta : (url : String) → HttpReply DeltaResponse
  message : (id : String) → HttpReply OutlookMessageResponse
  fullMessage : (id : String) → Except ProviderError FullMessage

end Outlook

section Imap

inductive ImapConnect
  | connected
  | unreachable (text : String)
  | loginRefused (text : String)
  deriving DecidableEq

inductive ImapQuery
  | all
  | uidFrom (first : Nat)
  deriving DecidableEq

structure ParsedHeaders where
  subject : Option String
  sender : Option String
  date : Option Int
  deriving DecidableEq

structure ImapFetch where
  uid : Option Nat
  isSeen : Bool
  headers : Option ParsedHeaders
  text : Option String
  deriving DecidableEq

/-- One connection to an IMAP server, from the greeting to the logout.  A search result
is a set of UIDs, so it lists each UID once and in no particular order. -/
structure ImapSession where
  connect : ImapConnect
  select : Except String (Option Nat)
  search : ImapQuery → Except String {uids : List Nat // uids.Nodup}
  fetch : List String → Except String (List ImapFetch)
  fullMessage : (id : String) → Except ProviderError FullMessage

end Imap

section OAuth

structure TokenResponse where
  accessToken : String
  refreshToken : Option String
  expiresIn : Option Nat
  deriving DecidableEq

structure TokenSet where
  accessToken : String
  refreshToken : Option String
  expiresAt : Int
  deriving DecidableEq

structure RawCredentials where
  clientId : String
  clientSecret : Option String
  authUri : String
  tokenUri : String
  deriving DecidableEq

/-- What the URL library makes of a text: the path, and the decoded query pairs in order. -/
structure Url where
  path : String
  queryPairs : List (String × String)
  deriving DecidableEq

structure OAuthClient where
  clientId : String
  clientSecret : Option String
  authUri : String
  tokenUri : String
  redirectUrl : String
  deriving DecidableEq

/-- One return of `accept` on the loopback listener: whether the flow had been cancelled
by then, and what reading the first line of the connection gives. -/
inductive Accept
  | failed (text : String)
  | connection (cancelled : Bool) (requestLine : Except String String)
  deriving DecidableEq

/-- The surroundings of one sign-in.  `accepts` are the connections that come in before
the flow times out. -/
structure SignIn where
  bind : Except String Nat
  csrfToken : String
  browser : Except String Unit
  accepts : List Accept
  joinError : Option String
  httpClient : Except String Unit
  exchange : OAuthClient → (code : String) → Except String TokenResponse

end OAuth

section Classifier

structure Criterion where
  label : String
  description : String
  deriving DecidableEq

structure ClassificationMatch where
  criterionLabel : String
  confidence : Rat
  deriving DecidableEq

structure ClassifierMoment where
  classify : (subject sender : String) → (snippet : Option String) → List Criterion →
    Except String (Option ClassificationMatch)
  classifyWithBody : (subject sender body : String) → List Criterion →
    Except String (Option ClassificationMatch)

end Classifier

end Fumiko.Net
