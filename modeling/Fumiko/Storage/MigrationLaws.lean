import Fumiko.Storage.Migration

namespace Fumiko.Storage

open Fumiko.Common Fumiko.Foundation Fumiko.Foundation.Action

namespace Database

variable {db : Database} {accounts fresh table : Option AccountsTable}

def withTables (accounts fresh : Option AccountsTable) (db : Database) : Database :=
  { db with
    accountTables
      | .linkedAccounts => accounts
      | .linkedAccountsNew => fresh }

@[simp] theorem setTable_linkedAccounts :
    (db.withTables accounts fresh).setTable .linkedAccounts table = db.withTables table fresh := by
  simp only [setTable, withTables]
  congr 1
  funext name
  cases name <;> rfl

@[simp] theorem setTable_linkedAccountsNew :
    (db.withTables accounts fresh).setTable .linkedAccountsNew table = db.withTables accounts table := by
  simp only [setTable, withTables]
  congr 1
  funext name
  cases name <;> rfl

end Database

open Database

section Statements

variable {db : Database} {accounts fresh : Option AccountsTable} {table : AccountsTable}
  {rows : List LinkedAccount} {foreignKeys : Bool}

theorem execute_createTable : Statement.execute (.createTable .linkedAccountsNew)
    ⟨db.withTables accounts none, foreignKeys⟩ =
      (.ok (), ⟨db.withTables accounts (some (.imap [])), foreignKeys⟩) := by
  change (Except.ok (), Session.mk
    ((db.withTables accounts none).setTable .linkedAccountsNew (some (.imap []))) foreignKeys) = _
  rw [setTable_linkedAccountsNew]

theorem execute_insertSelect (hid : (table.selected.map LinkedAccount.id).Nodup)
    (haddress : (table.selected.map LinkedAccount.emailAddress).Nodup) :
    Statement.execute (.insertSelect .linkedAccountsNew .linkedAccounts)
      ⟨db.withTables (some table) (some (.imap [])), foreignKeys⟩ =
        (.ok (), ⟨db.withTables (some table) (some (.imap table.selected)), foreignKeys⟩) := by
  change (if (table.selected.map LinkedAccount.id).Nodup ∧
    (table.selected.map LinkedAccount.emailAddress).Nodup then _ else _) = _
  rw [if_pos ⟨hid, haddress⟩]
  change (Except.ok (), Session.mk ((db.withTables (some table) (some (.imap []))).setTable
    .linkedAccountsNew (some (.imap table.selected))) foreignKeys) = _
  rw [setTable_linkedAccountsNew]

theorem execute_dropTable : Statement.execute (.dropTable .linkedAccounts)
    ⟨db.withTables (some table) fresh, false⟩ = (.ok (), ⟨db.withTables none fresh, false⟩) := by
  change (Except.ok (), Session.mk
    ((db.withTables (some table) fresh).setTable .linkedAccounts none) false) = _
  rw [setTable_linkedAccounts]

theorem execute_renameTable : Statement.execute (.renameTable .linkedAccountsNew .linkedAccounts)
    ⟨db.withTables none (some table), foreignKeys⟩ =
      (.ok (), ⟨db.withTables (some table) none, foreignKeys⟩) := by
  change (Except.ok (), Session.mk (((db.withTables none (some table)).setTable
    .linkedAccountsNew none).setTable .linkedAccounts (some table)) foreignKeys) = _
  rw [setTable_linkedAccountsNew, setTable_linkedAccounts]

end Statements

section Scripts

variable {db : Database} {table : AccountsTable}

/-- The tables after the first `count` statements of the migration. -/
def rebuilt (table : AccountsTable) (db : Database) : Nat → Database
  | 0 | 1 => db.withTables (some table) none
  | 2 => db.withTables (some table) (some (.imap []))
  | 3 => db.withTables (some table) (some (.imap table.selected))
  | 4 => db.withTables none (some (.imap table.selected))
  | _ => db.withTables (some (.imap table.selected)) none

theorem forEach_cons {σ ε α : Type} (f : α → Action σ ε Unit) (a : α) (as : List α) (s : σ) :
    forEach f (a :: as) s = match f a s with
      | (.ok (), t) => forEach f as t
      | (.error e, t) => (.error e, t) := by
  change (f a >>= fun _ => forEach f as) s = _
  rw [bind_run]
  rcases f a s with ⟨e | u, t⟩ <;> rfl

theorem forEach_take (db : Database) {table : AccountsTable}
    (hid : (table.selected.map LinkedAccount.id).Nodup)
    (haddress : (table.selected.map LinkedAccount.emailAddress).Nodup) (count : Nat) :
    ∃ foreignKeys, forEach Statement.execute (addImapProvider.take count)
      (opened (db.withTables (some table) none)) = (.ok (), ⟨rebuilt table db count, foreignKeys⟩) := by
  have hpragma (on : Bool) (s : Session) :
      Statement.execute (.pragmaForeignKeys on) s = (.ok (), { s with foreignKeys := on }) := rfl
  have hcheck (s : Session) : Statement.execute .pragmaForeignKeyCheck s = (.ok (), s) := rfl
  rcases count with _ | _ | _ | _ | _ | _ | _ | count
  all_goals
    simp only [addImapProvider, opened, List.take_succ_cons, List.take_zero, List.take_nil,
      forEach_cons, hpragma, hcheck, execute_createTable, execute_insertSelect hid haddress,
      execute_dropTable, execute_renameTable]
    exact ⟨_, rfl⟩

theorem forEach_take_stuck (accounts : Option AccountsTable) (count : Nat) :
    (forEach Statement.execute (addImapProvider.take count)
      (opened (db.withTables accounts (some table)))).2.db = db.withTables accounts (some table) := by
  rcases count with _ | _ | count
  · rfl
  · rfl
  · rfl

end Scripts

section Restarts

variable {content : InitialContent}

/-- The process was stopped once after each of the counts, and started again. -/
def restarted (stops : List Nat) (db : Database) : Database :=
  stops.foldl (fun db count => stoppedAfter count db) db

/-- The old accounts stand under `linked_accounts`, and nothing is in the way of the rebuilding. -/
def Ready (content : InitialContent) (db : Database) : Prop :=
  ∃ table : AccountsTable, table.selected = content.accounts.map AccountRow.withImap ∧
    db = content.database.withTables (some table) none

def Stuck (content : InitialContent) (db : Database) : Prop :=
  ∃ accounts table, db = content.database.withTables accounts (some table)

/-- The old accounts without an IMAP server, everything else as it was, and no foreign key that does
not resolve. -/
structure Migrated (content : InitialContent) (r : Except String Unit × Database) : Prop where
  returns : r.1 = .ok ()
  accounts : r.2.accountTables .linkedAccounts = some (.imap (content.accounts.map AccountRow.withImap))
  leftover : r.2.accountTables .linkedAccountsNew = none
  watchCriteria : r.2.watchCriteria = content.watchCriteria
  emails : r.2.emails = content.emails
  classifications : r.2.classifications = content.classifications
  settings : r.2.settings = content.settings
  resolves : ∀ db ∈ r.2.store, db.WellFormed

def StopsOutside (count : Nat) : Prop := count < 2 ∨ 5 ≤ count

theorem pending (accounts fresh : Option AccountsTable) :
    addImapProviderVersion ∉ (content.database.withTables accounts fresh).applied := by
  change addImapProviderVersion ∉ [initialSchemaVersion]
  decide

theorem selected_imap_selected (table : AccountsTable) :
    (AccountsTable.imap table.selected).selected = table.selected := by
  cases table with
  | initial rows => simp [AccountsTable.selected, AccountRow.withImap]
  | imap rows => simp [AccountsTable.selected]

theorem ready_database (content : InitialContent) : Ready content content.database :=
  ⟨.initial content.accounts, rfl, rfl⟩

theorem stoppedAfter_of_pending {db : Database} (h : addImapProviderVersion ∉ db.applied) (count : Nat) :
    stoppedAfter count db =
      (forEach Statement.execute (addImapProvider.take count) (opened db)).2.db := if_neg h

theorem Ready.stopped {db : Database} (h : Ready content db) {count : Nat} (hstop : StopsOutside count) :
    Ready content (stoppedAfter count db) := by
  obtain ⟨table, hselected, rfl⟩ := h
  obtain ⟨foreignKeys, hrun⟩ := forEach_take content.database
    (hselected ▸ content.wellFormed.accountsPk) (hselected ▸ content.wellFormed.accountsUnique) count
  rw [stoppedAfter_of_pending (pending _ _), hrun]
  rcases count with _ | _ | _ | _ | _ | count
  · exact ⟨table, hselected, rfl⟩
  · exact ⟨table, hselected, rfl⟩
  · exact absurd hstop (by simp [StopsOutside])
  · exact absurd hstop (by simp [StopsOutside])
  · exact absurd hstop (by simp [StopsOutside])
  · exact ⟨.imap table.selected, (selected_imap_selected table).trans hselected, rfl⟩

theorem Ready.stuck {db : Database} (h : Ready content db) {count : Nat} (hstop : ¬StopsOutside count) :
    Stuck content (stoppedAfter count db) := by
  obtain ⟨table, hselected, rfl⟩ := h
  obtain ⟨foreignKeys, hrun⟩ := forEach_take content.database
    (hselected ▸ content.wellFormed.accountsPk) (hselected ▸ content.wellFormed.accountsUnique) count
  rw [stoppedAfter_of_pending (pending _ _), hrun]
  rcases count with _ | _ | _ | _ | _ | count
  · exact absurd (Or.inl (by decide)) hstop
  · exact absurd (Or.inl (by decide)) hstop
  · exact ⟨_, _, rfl⟩
  · exact ⟨_, _, rfl⟩
  · exact ⟨_, _, rfl⟩
  · exact absurd (Or.inr (Nat.le_add_left 5 count)) hstop

theorem Stuck.stopped {db : Database} (h : Stuck content db) (count : Nat) :
    Stuck content (stoppedAfter count db) := by
  obtain ⟨accounts, table, rfl⟩ := h
  rw [stoppedAfter_of_pending (pending _ _), forEach_take_stuck]
  exact ⟨accounts, table, rfl⟩

theorem Stuck.restarted {db : Database} (h : Stuck content db) (stops : List Nat) :
    Stuck content (restarted stops db) := by
  induction stops generalizing db with
  | nil => exact h
  | cons count stops ih => exact ih (h.stopped count)

theorem Stuck.initPool {db : Database} (h : Stuck content db) :
    initPool db = (.error "table linked_accounts_new already exists", db) := by
  obtain ⟨accounts, table, rfl⟩ := h
  rw [Storage.initPool, if_neg (pending _ _)]
  rfl

theorem Ready.initPool {db : Database} (h : Ready content db) : Migrated content (initPool db) := by
  obtain ⟨table, hselected, rfl⟩ := h
  obtain ⟨foreignKeys, hrun⟩ := forEach_take content.database
    (hselected ▸ content.wellFormed.accountsPk) (hselected ▸ content.wellFormed.accountsUnique) 7
  have hall : addImapProvider.take 7 = addImapProvider := rfl
  have hrebuilt : rebuilt table content.database 7 =
      content.database.withTables (some (.imap table.selected)) none := rfl
  rw [hall, hrebuilt, hselected] at hrun
  rw [Storage.initPool, if_neg (pending _ _), hrun]
  refine ⟨rfl, rfl, rfl, rfl, rfl, rfl, rfl, ?_⟩
  intro db hdb
  cases hdb
  exact content.wellFormed

/-- However often the migration is stopped, the next opening that is not completes it just when no stop
left the new table behind. -/
theorem migrated_iff (content : InitialContent) (stops : List Nat) :
    Migrated content (initPool (restarted stops content.database)) ↔
      ∀ count ∈ stops, StopsOutside count := by
  have hrun {db : Database} (h : Ready content db) :
      Migrated content (initPool (restarted stops db)) ↔ ∀ count ∈ stops, StopsOutside count := by
    induction stops generalizing db with
    | nil => exact ⟨fun _ => by simp, fun _ => h.initPool⟩
    | cons count stops ih =>
      rw [List.forall_mem_cons]
      by_cases hstop : StopsOutside count
      · rw [and_iff_right hstop]
        exact ih (h.stopped hstop)
      · have hstuck := ((h.stuck hstop).restarted stops).initPool
        constructor
        · intro hmigrated
          have hreturns := hmigrated.returns
          change (initPool (restarted stops (stoppedAfter count db))).1 = _ at hreturns
          rw [hstuck] at hreturns
          cases hreturns
        · exact fun hstops => absurd hstops.1 hstop
  exact hrun (ready_database content)

def oneAccount : InitialContent where
  accounts := [{
    id := .ending '1', provider := .gmail, emailAddress := "me@gmail.com", displayName := none
    syncCursor := none, lastSyncedAt := none, lastSyncError := none, createdAt := 10 }]
  watchCriteria := []
  emails := []
  classifications := []
  settings := []
  checked := by simp
  wellFormed := by constructor <;> simp [AccountRow.withImap]

theorem migration_stuck : ¬Migrated oneAccount (initPool (restarted [2] oneAccount.database)) := by
  intro h
  exact nomatch h.returns

end Restarts

end Fumiko.Storage
