import Fumiko.Common.Errors
import Mathlib.Data.Rat.Defs

namespace Fumiko.Storage

open Fumiko.Common

structure LinkedAccount where
  id : Uuid
  provider : Provider
  emailAddress : String
  displayName : Option String
  syncCursor : Option String
  lastSyncedAt : Option Int
  lastSyncError : Option String
  createdAt : Int
  imapHost : Option String
  imapPort : Option Int
  deriving DecidableEq

structure WatchCriterion where
  id : Uuid
  label : String
  description : String
  isActive : Bool
  createdAt : Int
  deriving DecidableEq

structure EmailRow where
  id : Uuid
  accountId : Uuid
  providerMessageId : String
  subject : Option String
  sender : Option String
  receivedAt : Int
  isRead : Bool
  appHasViewed : Bool
  isTrashed : Bool
  trashedAt : Option Int
  snippet : Option String
  createdAt : Int
  deriving DecidableEq

structure Classification where
  id : Uuid
  emailId : Uuid
  criterionId : Uuid
  confidence : Option Rat
  createdAt : Int
  deriving DecidableEq

structure Db where
  linkedAccounts : List LinkedAccount
  watchCriteria : List WatchCriterion
  emails : List EmailRow
  classifications : List Classification
  settings : List (String × String)
  deriving DecidableEq

namespace Db

def empty : Db := ⟨[], [], [], [], []⟩

/-- The constraints SQLite enforces: primary keys, unique columns and foreign keys. -/
structure WellFormed (db : Db) : Prop where
  accountsPk : (db.linkedAccounts.map LinkedAccount.id).Nodup
  accountsUnique : (db.linkedAccounts.map LinkedAccount.emailAddress).Nodup
  criteriaPk : (db.watchCriteria.map WatchCriterion.id).Nodup
  emailsPk : (db.emails.map EmailRow.id).Nodup
  emailsUnique : (db.emails.map fun e => (e.accountId, e.providerMessageId)).Nodup
  emailsFk : ∀ e ∈ db.emails, ∃ a ∈ db.linkedAccounts, a.id = e.accountId
  classificationsPk : (db.classifications.map Classification.id).Nodup
  classificationsUnique : (db.classifications.map fun c => (c.emailId, c.criterionId)).Nodup
  classificationsEmailFk : ∀ c ∈ db.classifications, ∃ e ∈ db.emails, e.id = c.emailId
  classificationsCriterionFk : ∀ c ∈ db.classifications, ∃ w ∈ db.watchCriteria, w.id = c.criterionId
  settingsPk : (db.settings.map Prod.fst).Nodup

theorem wellFormed_empty : WellFormed empty := by
  constructor <;> simp [empty]

def account (db : Db) (id : Uuid) : Option LinkedAccount :=
  db.linkedAccounts.find? (·.id = id)

def email (db : Db) (accountId : Uuid) (providerMessageId : String) : Option EmailRow :=
  db.emails.find? fun e => e.accountId = accountId ∧ e.providerMessageId = providerMessageId

def classified (db : Db) (emailId : Uuid) : Bool :=
  db.classifications.any (·.emailId = emailId)

/-- `DELETE FROM emails WHERE p`, with the cascade to `classifications`. -/
def deleteEmails (p : EmailRow → Bool) (db : Db) : Db :=
  { db with
    emails := db.emails.filter (!p ·)
    classifications := db.classifications.filter fun c =>
      !db.emails.any fun e => p e && decide (e.id = c.emailId) }

/-- `DELETE FROM linked_accounts WHERE p`, with the cascade to `emails`. -/
def deleteAccounts (p : LinkedAccount → Bool) (db : Db) : Db :=
  { db.deleteEmails fun e => db.linkedAccounts.any fun a => p a && decide (a.id = e.accountId) with
    linkedAccounts := db.linkedAccounts.filter (!p ·) }

/-- `DELETE FROM watch_criteria WHERE p`, with the cascade to `classifications`. -/
def deleteCriteria (p : WatchCriterion → Bool) (db : Db) : Db :=
  { db with
    watchCriteria := db.watchCriteria.filter (!p ·)
    classifications := db.classifications.filter fun c =>
      !db.watchCriteria.any fun w => p w && decide (w.id = c.criterionId) }

def updateAccounts (p : LinkedAccount → Bool) (f : LinkedAccount → LinkedAccount) (db : Db) : Db :=
  { db with linkedAccounts := db.linkedAccounts.map fun a => if p a then f a else a }

def updateEmails (p : EmailRow → Bool) (f : EmailRow → EmailRow) (db : Db) : Db :=
  { db with emails := db.emails.map fun e => if p e then f e else e }

end Db

end Fumiko.Storage
