import Fumiko.Foundation.Action
import Fumiko.Storage.Schema
import Mathlib.Data.List.Nodup

/-! The migration that rebuilds the accounts table, statement by statement, and the opening of the
database that runs it. -/

namespace Fumiko.Storage

open Fumiko.Common Fumiko.Foundation

/-- A row of `linked_accounts` as the initial schema has it. -/
structure AccountRow where
  id : Uuid
  provider : Provider
  emailAddress : String
  displayName : Option String
  syncCursor : Option String
  lastSyncedAt : Option Int
  lastSyncError : Option String
  createdAt : Int
  deriving DecidableEq

def AccountRow.withImap (a : AccountRow) : LinkedAccount where
  id := a.id
  provider := a.provider
  emailAddress := a.emailAddress
  displayName := a.displayName
  syncCursor := a.syncCursor
  lastSyncedAt := a.lastSyncedAt
  lastSyncError := a.lastSyncError
  createdAt := a.createdAt
  imapHost := none
  imapPort := none

inductive AccountsTable
  | initial (rows : List AccountRow)
  | imap (rows : List LinkedAccount)

namespace AccountsTable

/-- The eight columns both tables have, and `NULL, NULL`. -/
def selected : AccountsTable → List LinkedAccount
  | .initial rows => rows.map AccountRow.withImap
  | .imap rows => rows.map fun a => { a with imapHost := none, imapPort := none }

def ids : AccountsTable → List Uuid
  | .initial rows => rows.map AccountRow.id
  | .imap rows => rows.map LinkedAccount.id

end AccountsTable

inductive TableName
  | linkedAccounts | linkedAccountsNew
  deriving DecidableEq

def TableName.text : TableName → String
  | .linkedAccounts => "linked_accounts"
  | .linkedAccountsNew => "linked_accounts_new"

structure Database where
  accountTables : TableName → Option AccountsTable
  watchCriteria : List WatchCriterion
  emails : List EmailRow
  classifications : List Classification
  settings : List (String × String)
  applied : List Nat

namespace Database

def setTable (name : TableName) (table : Option AccountsTable) (db : Database) : Database :=
  { db with accountTables := fun n => if n = name then table else db.accountTables n }

/-- The implicit `DELETE FROM` of a `DROP TABLE`.  What refers to accounts refers to
`linked_accounts`. -/
def cascade (name : TableName) (table : AccountsTable) (db : Database) : Database :=
  match name with
  | .linkedAccounts =>
    { db with
      emails := db.emails.filter fun e => !decide (e.accountId ∈ table.ids)
      classifications := db.classifications.filter fun c =>
        !db.emails.any fun e => decide (e.accountId ∈ table.ids) && decide (e.id = c.emailId) }
  | .linkedAccountsNew => db

def store (db : Database) : Option Db :=
  match db.accountTables .linkedAccounts with
  | some (.imap linkedAccounts) =>
    some { linkedAccounts, watchCriteria := db.watchCriteria, emails := db.emails
           classifications := db.classifications, settings := db.settings }
  | _ => none

end Database

structure Session where
  db : Database
  foreignKeys : Bool

inductive Statement
  | pragmaForeignKeys (on : Bool)
  | createTable (name : TableName)
  | insertSelect (name source : TableName)
  | dropTable (name : TableName)
  | renameTable (name newName : TableName)
  | pragmaForeignKeyCheck

def Statement.execute : Statement → Action Session String Unit
  | .pragmaForeignKeys on => Action.update fun s => { s with foreignKeys := on }
  | .createTable name => fun s =>
    match s.db.accountTables name with
    | some _ => (.error ("table " ++ name.text ++ " already exists"), s)
    | none => (.ok (), { s with db := s.db.setTable name (some (.imap [])) })
  | .insertSelect name source => fun s =>
    match s.db.accountTables source, s.db.accountTables name with
    | some table, some (.imap old) =>
      if ((old ++ table.selected).map LinkedAccount.id).Nodup ∧
          ((old ++ table.selected).map LinkedAccount.emailAddress).Nodup then
        (.ok (), { s with db := s.db.setTable name (some (.imap (old ++ table.selected))) })
      else (.error "UNIQUE constraint failed", s)
    | none, _ => (.error ("no such table: " ++ source.text), s)
    | _, none => (.error ("no such table: " ++ name.text), s)
    | _, some (.initial _) => (.error ("table " ++ name.text ++ " has no column named imap_host"), s)
  | .dropTable name => fun s =>
    match s.db.accountTables name with
    | none => (.error ("no such table: " ++ name.text), s)
    | some table =>
      (.ok (), { s with db :=
        (if s.foreignKeys then s.db.cascade name table else s.db).setTable name none })
  | .renameTable name newName => fun s =>
    match s.db.accountTables name, s.db.accountTables newName with
    | none, _ => (.error ("no such table: " ++ name.text), s)
    | some _, some _ =>
      (.error ("there is already another table or index with this name: " ++ newName.text), s)
    | some table, none =>
      (.ok (), { s with db := (s.db.setTable name none).setTable newName (some table) })
  -- Violations are rows of its result and no error.
  | .pragmaForeignKeyCheck => Action.update id

def addImapProvider : List Statement :=
  [.pragmaForeignKeys false,
   .createTable .linkedAccountsNew,
   .insertSelect .linkedAccountsNew .linkedAccounts,
   .dropTable .linkedAccounts,
   .renameTable .linkedAccountsNew .linkedAccounts,
   .pragmaForeignKeys true,
   .pragmaForeignKeyCheck]

def initialSchemaVersion : Nat := 20260903051011

def addImapProviderVersion : Nat := 20260911085738

def opened (db : Database) : Session := ⟨db, true⟩

/-- The run of a script, of which `count` statements are executed before the process stops. -/
def stoppedAfter (count : Nat) (db : Database) : Database :=
  if addImapProviderVersion ∈ db.applied then db
  else (Action.forEach Statement.execute (addImapProvider.take count) (opened db)).2.db

def initPool (db : Database) : Except String Unit × Database :=
  if addImapProviderVersion ∈ db.applied then (.ok (), db)
  else
    match Action.forEach Statement.execute addImapProvider (opened db) with
    | (.ok (), s) => (.ok (), { s.db with applied := s.db.applied ++ [addImapProviderVersion] })
    | (.error e, s) => (.error e, s.db)

/-- The content of a database of the initial schema, which keeps its constraints. -/
structure InitialContent where
  accounts : List AccountRow
  watchCriteria : List WatchCriterion
  emails : List EmailRow
  classifications : List Classification
  settings : List (String × String)
  checked : ∀ a ∈ accounts, a.provider ≠ .imap
  wellFormed : Db.WellFormed
    { linkedAccounts := accounts.map AccountRow.withImap, watchCriteria, emails, classifications, settings }

namespace InitialContent

def database (content : InitialContent) : Database where
  accountTables
    | .linkedAccounts => some (.initial content.accounts)
    | .linkedAccountsNew => none
  watchCriteria := content.watchCriteria
  emails := content.emails
  classifications := content.classifications
  settings := content.settings
  applied := [initialSchemaVersion]

end InitialContent

end Fumiko.Storage
