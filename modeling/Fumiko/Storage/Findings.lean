import Fumiko.Storage.Operations

namespace Fumiko.Storage

open Fumiko.Common Fumiko.Foundation Fumiko.Program

structure MailboxStats where
  unreadCount : Nat
  findingsCount : Nat
  totalCount : Nat
  deriving DecidableEq

structure MatchedEmailWithReason where
  emailId : Uuid
  accountId : Uuid
  criterionId : Uuid
  subject : Option String
  sender : Option String
  receivedAt : Int
  snippet : Option String
  isRead : Bool
  appHasViewed : Bool
  criterionLabel : String
  confidence : Option Rat
  deriving DecidableEq

/-- `ORDER BY received_at DESC` over the rows of the join. -/
abbrev MatchesDesc := Ranking MatchedEmailWithReason MatchedEmailWithReason.receivedAt

def isUnread (e : EmailRow) : Bool := !e.isTrashed && !e.isRead && !e.appHasViewed

/-- `?1 IS NULL OR account_id = ?1` -/
def inScope (account : Option Uuid) (e : EmailRow) : Bool := account.all (e.accountId = ·)

namespace Db

/-- `COUNT(DISTINCT c.email_id)` over the join of the classifications with the emails. -/
def countMatched (p : EmailRow → Bool) (db : Db) : Nat :=
  (db.classifications.flatMap fun c =>
    (db.emails.filter fun m => decide (m.id = c.emailId) && p m).map fun _ => c.emailId).dedup.length

def countClassifiedEmails (db : Db) : Nat := db.countMatched fun m => !m.isTrashed

def mailboxStats (account : Option Uuid) (db : Db) : MailboxStats where
  unreadCount := db.emails.countP fun e => isUnread e && inScope account e
  findingsCount := db.countMatched fun m => isUnread m && inScope account m
  totalCount := db.emails.countP fun e => !e.isTrashed && inScope account e

def matchedEmails (account : Option Uuid) (db : Db) : List MatchedEmailWithReason :=
  db.classifications.flatMap fun c =>
    (db.emails.filter fun m => decide (m.id = c.emailId) && (!m.isTrashed && inScope account m)).flatMap
      fun m => (db.watchCriteria.filter (·.id = c.criterionId)).map fun w =>
        { emailId := m.id, accountId := m.accountId, criterionId := c.criterionId
          subject := m.subject, sender := m.sender, receivedAt := m.receivedAt
          snippet := m.snippet, isRead := m.isRead, appHasViewed := m.appHasViewed
          criterionLabel := w.label, confidence := c.confidence }

def listMatches (ranking : MatchesDesc) (account : Option Uuid) (maxRows : Int) (db : Db) :
    List MatchedEmailWithReason :=
  limit maxRows (ranking.order (db.matchedEmails account))

end Db

def maxQueryLimit : Int := 1000

def validateLimit (limit : Int) : Except StorageError Unit :=
  if limit < 0 then .error (.invalidInput "limit must be non-negative")
  else if maxQueryLimit < limit then .error (.invalidInput "limit exceeds maximum allowed value")
  else .ok ()

def getMailboxStats (account : Option Uuid) : Program StorageError MailboxStats :=
  query (Db.mailboxStats account)

def countClassifiedEmails : Program StorageError Nat := query Db.countClassifiedEmails

/-- Rows received at the same time come in the order the database happens to return them. -/
def listCriteriaForAll (ranking : MatchesDesc) (limit : Int) :
    Program StorageError (List MatchedEmailWithReason) := do
  Action.liftExcept (validateLimit limit)
  query (Db.listMatches ranking none limit)

def listCriteriaForAccount (ranking : MatchesDesc) (account : Uuid) (limit : Int) :
    Program StorageError (List MatchedEmailWithReason) := do
  Action.liftExcept (validateLimit limit)
  query (Db.listMatches ranking (some account) limit)

end Fumiko.Storage
