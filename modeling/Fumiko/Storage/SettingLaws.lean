import Fumiko.Storage.CredentialLaws
import Fumiko.Storage.RunLaws

namespace Fumiko.Storage

open Fumiko.Common Fumiko.Foundation Fumiko.Foundation.Action Fumiko.Program

section Map

variable (db : Db) {key other : String}

theorem getSetting_setSetting_of_ne (h : key ≠ other) (value : String) :
    (db.setSetting other value).getSetting key = db.getSetting key := by
  rw [Db.setSetting]
  split
  · have hkeyed (s : String × String) :
        decide ((if s.1 = other then (other, value) else s).1 = key) = decide (s.1 = key) := by
      split
      · next hs => simp [hs]
      · rfl
    simp only [Db.getSetting]
    rw [Db.find_map_of_keyed hkeyed]
    cases hfind : db.settings.find? fun s => decide (s.1 = key) with
    | none => rfl
    | some s =>
      have hkey : s.1 = key := by simpa using List.find?_some hfind
      simp [hkey, h]
  · simp [Db.getSetting, List.find?_append, h.symm]

theorem getSetting_deleteSetting_self (key : String) : (db.deleteSetting key).getSetting key = none := by
  simp [Db.getSetting, Db.deleteSetting]

theorem getSetting_deleteSetting_of_ne (h : key ≠ other) :
    (db.deleteSetting other).getSetting key = db.getSetting key := by
  simp only [Db.getSetting, Db.deleteSetting, List.find?_filter]
  congr 2
  funext s
  by_cases hs : s.1 = key
  · simp [hs, h]
  · simp [hs]

end Map

def Operation.Writes (key value : String) : Operation → Prop
  | .setSetting k v => k = key ∧ v = value
  | .seedDefaultCriteria => key = hasSeededDefaultCriteria ∧ value = "true"
  | .saveUserGoogleCredentials clientId _ => key = SettingKeys.userGoogleClientId ∧ value = clientId
  | .saveUserMicrosoftClientId clientId => key = SettingKeys.userMicrosoftClientId ∧ value = clientId
  | _ => False

/-- A setting that is there after a step was there before, or is one of those in `P`. -/
def Writing (P : String → String → Prop) (w w' : World) : Prop :=
  ∀ key value, w'.db.getSetting key = some value → w.db.getSetting key = some value ∨ P key value

section Writing

variable {P : String → String → Prop} {α : Type} {w w' : World} {key value : String}

instance : Std.Refl (Writing P) := ⟨fun _ _ _ h => Or.inl h⟩

instance : IsTrans World (Writing P) where
  trans _ _ _ h h' key value hvalue := (h' key value hvalue).elim (h key value) Or.inr

theorem writing_of_settings (h : w'.db.settings = w.db.settings) : Writing P w w' := by
  intro key value hvalue
  left
  rwa [Db.getSetting, ← h]

theorem writing_dbCall : Moves (Writing P) dbCall := moves_dbCall fun _ => writing_of_settings rfl

theorem writing_query (f : Db → α) : Moves (Writing P) (query f) :=
  moves_query (fun _ => writing_of_settings rfl) f

theorem writing_freshUuid {ε : Type} : Moves (Writing P) (freshUuid : Program ε Uuid) :=
  moves_step fun _ => writing_of_settings rfl

theorem writing_unixTimestamp {ε : Type} : Moves (Writing P) (unixTimestamp : Program ε Int) :=
  moves_step fun _ => writing_of_settings rfl

theorem writing_log {ε : Type} (e : Event) : Moves (Writing P) (log e : Program ε Unit) :=
  moves_update fun _ => writing_of_settings rfl

theorem writing_setSecret (key value : String) : Moves (Writing P) (setSecret key value) :=
  moves_setSecret (fun _ => writing_of_settings rfl) fun _ => writing_of_settings rfl

theorem writing_deleteSecret (key : String) : Moves (Writing P) (deleteSecret key) :=
  moves_deleteSecret (fun _ => writing_of_settings rfl) fun _ => writing_of_settings rfl

theorem writing_statement {f : Db → Except StorageError (α × Db)}
    (hf : ∀ db a db', f db = .ok (a, db') → db'.settings = db.settings) :
    Moves (Writing P) (statement f) :=
  moves_statement (fun _ => writing_of_settings rfl) fun w a db h =>
    writing_of_settings (w := w) (hf w.db a db h)

theorem writing_execute {f : Db → Db} (hf : ∀ db, (f db).settings = db.settings) :
    Moves (Writing P) (execute f) := by
  refine writing_statement fun db a db' h => ?_
  cases h
  exact hf db

theorem writing_checked {p : Db → Bool} {f : Db → Db} {e : StorageError}
    (hf : ∀ db, (f db).settings = db.settings) :
    Moves (Writing P) (statement fun db => if p db then .ok ((), f db) else .error e) := by
  refine writing_statement fun db a db' h => ?_
  split at h
  · cases h
    exact hf db
  · cases h

theorem writing_updateAccountById (account : Uuid) (f : LinkedAccount → LinkedAccount) :
    Moves (Writing P) (statement (Db.updateAccountById account f)) :=
  writing_checked (p := fun db => db.linkedAccounts.any (·.id = account)) fun _ => rfl

theorem writing_updateEmailById (email : Uuid) (f : EmailRow → EmailRow) :
    Moves (Writing P) (statement (Db.updateEmailById email f)) :=
  writing_checked (p := fun db => db.emails.any (·.id = email)) fun _ => rfl

theorem writing_deleteAccount (account : Uuid) : Moves (Writing P) (deleteAccount account) := by
  refine moves_bind (writing_deleteSecret _) fun _ => ?_
  exact writing_checked (p := fun db => db.linkedAccounts.any (·.id = account))
    (f := Db.deleteAccounts (·.id = account)) fun _ => rfl

theorem writing_deleteEmail (email : Uuid) : Moves (Writing P) (deleteEmail email) :=
  writing_checked (p := fun db => db.emails.any (·.id = email)) (f := Db.deleteEmails (·.id = email))
    fun _ => rfl

theorem writing_deleteCriterion (criterion : Uuid) : Moves (Writing P) (deleteCriterion criterion) :=
  writing_checked (p := fun db => db.watchCriteria.any (·.id = criterion))
    (f := Db.deleteCriteria (·.id = criterion)) fun _ => rfl

theorem writing_setCriterionActive (criterion : Uuid) (isActive : Bool) :
    Moves (Writing P) (setCriterionActive criterion isActive) :=
  writing_checked (p := fun db => db.watchCriteria.any (·.id = criterion))
    (f := Db.updateCriteria (·.id = criterion) fun c => { c with isActive }) fun _ => rfl

theorem writing_updateAccounts (account : Uuid) (f : LinkedAccount → LinkedAccount) :
    Moves (Writing P) (execute (Db.updateAccounts (·.id = account) f)) :=
  writing_execute fun _ => rfl

theorem writing_updateEmails (p : EmailRow → Bool) (f : EmailRow → EmailRow) :
    Moves (Writing P) (execute (Db.updateEmails p f)) :=
  writing_execute fun _ => rfl

theorem writing_setSetting (hP : P key value) : Moves (Writing P) (setSetting key value) := by
  refine moves_statement (fun _ => writing_of_settings rfl) fun w u db h => ?_
  cases h
  intro other stored hstored
  change (w.db.setSetting key value).getSetting other = some stored at hstored
  by_cases hother : other = key
  · rw [hother, getSetting_setSetting] at hstored
    cases hstored
    exact Or.inr (hother ▸ hP)
  · rw [getSetting_setSetting_of_ne _ hother] at hstored
    exact Or.inl hstored

theorem writing_deleteSetting (key : String) : Moves (Writing P) (deleteSetting key) := by
  refine moves_statement (fun _ => writing_of_settings rfl) fun w u db h => ?_
  cases h
  intro other stored hstored
  change (w.db.deleteSetting key).getSetting other = some stored at hstored
  by_cases hother : other = key
  · rw [hother, getSetting_deleteSetting_self] at hstored
    cases hstored
  · rw [getSetting_deleteSetting_of_ne _ hother] at hstored
    exact Or.inl hstored

theorem writing_insertAccount (row : LinkedAccount) : Moves (Writing P) (statement (Db.insertAccount row)) := by
  refine writing_statement fun db id db' h => ?_
  rw [Db.insertAccount] at h
  split at h
  · cases h
  · cases h
    rfl

theorem writing_insertCriterion (row : WatchCriterion) :
    Moves (Writing P) (statement (Db.insertCriterion row)) := by
  refine writing_statement fun db id db' h => ?_
  rw [Db.insertCriterion] at h
  split at h
  · cases h
  · cases h
    rfl

theorem writing_saveEmail (account : Uuid) (providerMessageId : String) (subject sender : Option String)
    (receivedAt : Int) (isRead : Bool) (snippet : Option String) :
    Moves (Writing P) (saveEmail account providerMessageId subject sender receivedAt isRead snippet) := by
  refine moves_bind writing_freshUuid fun id => moves_bind writing_unixTimestamp fun now => ?_
  refine moves_bind (moves_read _) fun isNew => moves_bind (writing_statement fun db row db' h => ?_)
    fun row => moves_bind (writing_log _) fun _ => moves_pure _
  rw [Db.saveEmail] at h
  split at h
  · cases h
    rfl
  · split at h
    · cases h
    · split at h
      · cases h
        rfl
      · cases h

theorem writing_clearClassifications (account criterion : Option Uuid) :
    Moves (Writing P) (clearClassifications account criterion) := by
  refine writing_statement fun db n db' h => ?_
  cases h
  rfl

theorem writing_saveClassification (email criterion : Uuid) (confidence : Option Rat) :
    Moves (Writing P) (saveClassification email criterion confidence) := by
  refine moves_bind writing_freshUuid fun id => moves_bind writing_unixTimestamp fun now => ?_
  refine moves_bind (writing_statement fun db u db' h => ?_) fun _ => writing_log _
  rw [Db.saveClassification] at h
  split at h
  · cases h
    rfl
  · split at h
    · cases h
    · split at h
      · cases h
        rfl
      · cases h

theorem writing_purgeExpiredTrash (retentionDays : Int) :
    Moves (Writing P) (purgeExpiredTrash retentionDays) := by
  rw [purgeExpiredTrash]
  split
  · exact moves_raise _
  · refine moves_bind writing_unixTimestamp fun _ => writing_statement fun db n db' h => ?_
    cases h
    rfl

theorem writing_purgeOldEmails (account : Uuid) (maxInbox maxFindings : Int) :
    Moves (Writing P) (purgeOldEmails account maxInbox maxFindings) := by
  refine moves_bind (moves_read _) fun ranking => ?_
  refine moves_bind (writing_statement fun db n db' h => ?_) fun inbox => ?_
  · cases h
    rfl
  · refine moves_bind (writing_statement fun db n db' h => ?_) fun findings => moves_pure _
    cases h
    rfl

theorem writing_purgeAccounts (maxInbox maxFindings : Int) (inbox findings : Nat)
    (accounts : List LinkedAccount) :
    Moves (Writing P) (purgeAccounts maxInbox maxFindings inbox findings accounts) := by
  induction accounts generalizing inbox findings with
  | nil => exact moves_pure _
  | cons account accounts ih =>
    exact moves_bind (writing_purgeOldEmails account.id maxInbox maxFindings) fun counts => ih _ _

theorem writing_seedDefaultCriteria (hP : P hasSeededDefaultCriteria "true") :
    Moves (Writing P) seedDefaultCriteria := by
  refine moves_bind (writing_query _) fun alreadySeeded => ?_
  split
  · exact moves_pure ()
  · refine moves_bind (writing_query _) fun existingCount => ?_
    split
    · exact writing_setSetting hP
    · refine moves_bind writing_unixTimestamp fun createdAt => ?_
      refine moves_bind (moves_forEach (fun criterion => ?_) _) fun _ => writing_setSetting hP
      exact moves_bind writing_freshUuid fun _ =>
        moves_bind (writing_insertCriterion _) fun _ => moves_pure ()

theorem writing_deleteUserGoogleCredentials : Moves (Writing P) deleteUserGoogleCredentials :=
  moves_bind (writing_deleteSecret _) fun _ => writing_deleteSetting _

theorem writing_saveUserGoogleCredentials {clientId : String} (clientSecret : String)
    (hP : P SettingKeys.userGoogleClientId clientId) :
    Moves (Writing P) (saveUserGoogleCredentials clientId clientSecret) := by
  refine moves_bind (writing_setSecret _ _) fun _ => ?_
  refine moves_bind (moves_attempt (writing_setSetting hP)) fun outcome => ?_
  cases outcome with
  | ok u => exact moves_pure ()
  | error e => exact moves_bind (moves_ignore (writing_deleteSecret _)) fun _ => moves_raise e

theorem writing_truncateTables : Moves (Writing P) truncateTables := by
  refine moves_bind writing_dbCall fun _ => moves_bind writing_dbCall fun _ => ?_
  refine moves_bind writing_dbCall fun _ => moves_bind writing_dbCall fun _ => ?_
  refine moves_statement (fun _ => writing_of_settings rfl) fun w u db h => ?_
  cases h
  intro key value hvalue
  cases hvalue

theorem writing_wipeAllData : Moves (Writing P) wipeAllData := by
  refine moves_bind (writing_query _) fun accounts => ?_
  refine moves_bind (moves_forEach (fun a => writing_deleteSecret _) accounts) fun _ => ?_
  refine moves_bind writing_deleteUserGoogleCredentials fun _ => ?_
  refine moves_bind (writing_deleteSetting _) fun _ => ?_
  refine moves_bind writing_truncateTables fun _ => ?_
  exact moves_bind (moves_ignore writing_dbCall) fun _ => moves_ignore writing_dbCall

theorem Operation.writing (operation : Operation) (w : World) :
    Writing (fun key value => operation.Writes key value) w (operation.perform w) := by
  cases operation with
  | addAccount provider emailAddress displayName =>
    exact (moves_bind writing_freshUuid fun _ => moves_bind writing_unixTimestamp fun _ =>
      writing_insertAccount _).run w
  | addImapAccount provider emailAddress displayName imapHost imapPort =>
    exact (moves_bind writing_freshUuid fun _ => moves_bind writing_unixTimestamp fun _ =>
      writing_insertAccount _).run w
  | deleteAccount account => exact (writing_deleteAccount _).run w
  | updateDisplayName account displayName => exact (writing_updateAccountById _ _).run w
  | clearDisplayName account => exact (writing_updateAccountById _ _).run w
  | wipeAllData => exact writing_wipeAllData.run w
  | setSyncError account error => exact (writing_updateAccounts _ _).run w
  | updateSyncCursor account syncCursor =>
    exact (moves_bind writing_unixTimestamp fun _ =>
      moves_bind (writing_updateAccounts _ _) fun _ => writing_log _).run w
  | clearSyncCursor account =>
    exact (moves_bind (writing_updateAccounts _ _) fun _ => writing_log _).run w
  | saveEmail account providerMessageId subject sender receivedAt isRead snippet =>
    exact (writing_saveEmail _ _ _ _ _ _ _).run w
  | deleteEmail email => exact (writing_deleteEmail _).run w
  | deleteByProviderMessageId account providerMessageId =>
    exact (writing_execute (f := Db.deleteByProviderMessageId account providerMessageId) fun _ => rfl).run w
  | markTrashed account providerMessageId =>
    exact (moves_bind writing_unixTimestamp fun _ => writing_updateEmails _ _).run w
  | markUntrashed account providerMessageId => exact (writing_updateEmails _ _).run w
  | setEmailRead account providerMessageId isRead => exact (writing_updateEmails _ _).run w
  | trashEmail email =>
    exact (moves_bind writing_unixTimestamp fun _ => writing_updateEmailById _ _).run w
  | restoreEmail email => exact (writing_updateEmailById _ _).run w
  | markEmailViewed email => exact (writing_updateEmailById _ _).run w
  | purgeExpiredTrash retentionDays => exact (writing_purgeExpiredTrash _).run w
  | purgeOldEmails account maxInbox maxFindings => exact (writing_purgeOldEmails _ _ _).run w
  | purgeOldEmailsAll maxInbox maxFindings =>
    exact (moves_bind (writing_query _) fun _ => writing_purgeAccounts _ _ _ _ _).run w
  | markAllRead account => exact (writing_updateEmails _ _).run w
  | clearClassifications account criterion => exact (writing_clearClassifications _ _).run w
  | clearAllClassifications account => exact (writing_clearClassifications _ _).run w
  | seedDefaultCriteria => exact (writing_seedDefaultCriteria ⟨rfl, rfl⟩).run w
  | addCriterion label description =>
    exact (moves_bind writing_freshUuid fun _ => moves_bind writing_unixTimestamp fun _ =>
      writing_insertCriterion _).run w
  | deleteCriterion criterion => exact (writing_deleteCriterion _).run w
  | setCriterionActive criterion isActive => exact (writing_setCriterionActive _ _).run w
  | saveClassification email criterion confidence => exact (writing_saveClassification _ _ _).run w
  | deleteClassification email criterion =>
    exact (writing_execute (f := Db.deleteClassification email criterion) fun _ => rfl).run w
  | setSetting key value => exact (writing_setSetting ⟨rfl, rfl⟩).run w
  | deleteSetting key => exact (writing_deleteSetting _).run w
  | saveUserGoogleCredentials clientId clientSecret =>
    exact (writing_saveUserGoogleCredentials _ ⟨rfl, rfl⟩).run w
  | deleteUserGoogleCredentials => exact writing_deleteUserGoogleCredentials.run w
  | saveUserMicrosoftClientId clientId => exact (writing_setSetting ⟨rfl, rfl⟩).run w
  | deleteUserMicrosoftClientId => exact (writing_deleteSetting _).run w
  | setSecret key value => exact (writing_setSecret _ _).run w
  | deleteSecret key => exact (writing_deleteSecret _).run w
  | select => exact writing_dbCall.run w

theorem performAll_writing (calls : List (Outside × Operation)) (w : World) :
    Writing (fun key value => ∃ call ∈ calls, call.2.Writes key value) w (Operation.performAll calls w) := by
  induction calls generalizing w with
  | nil => exact fun key value h => Or.inl h
  | cons call calls ih =>
    intro key value hvalue
    rw [performAll_cons] at hvalue
    rcases ih _ key value hvalue with hbefore | ⟨later, hlater, hwrites⟩
    · rcases call.2.writing { w with outside := call.1 } key value hbefore with hstart | hwrites
      · exact Or.inl hstart
      · exact Or.inr ⟨call, List.mem_cons_self, hwrites⟩
    · exact Or.inr ⟨later, List.mem_cons_of_mem _ hlater, hwrites⟩

end Writing

end Fumiko.Storage
