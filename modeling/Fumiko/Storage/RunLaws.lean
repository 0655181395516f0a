import Fumiko.Storage.ChangeLaws

namespace Fumiko.Storage

open Fumiko.Common Fumiko.Foundation Fumiko.Foundation.Action Fumiko.Program

namespace Db

variable {now : Int} {db db' db'' : Db}

def Stems (now : Int) (db db' : Db) : Prop := ∀ e' ∈ db'.emails, ∃ e ∈ db.emails, Touched now e e'

theorem Stems.trans (h : Stems now db db') (h' : Stems now db' db'') : Stems now db db'' := by
  intro e'' he''
  obtain ⟨e', he', htouched'⟩ := h' e'' he''
  obtain ⟨e, he, htouched⟩ := h e' he'
  exact ⟨e, he, htouched.trans htouched'⟩

theorem Stems.of_subset (h : ∀ e ∈ db'.emails, e ∈ db.emails) : Stems now db db' :=
  fun e he => ⟨e, h e he, Touched.refl now e⟩

theorem Stems.of_emails_eq (h : db'.emails = db.emails) : Stems now db db' :=
  .of_subset fun _ he => h ▸ he

theorem Change.stems (h : Change now db db') : Stems now db db' := by
  cases h with
  | insertAccount hinsert =>
    rw [Db.insertAccount] at hinsert
    split at hinsert
    · cases hinsert
    · cases hinsert
      exact .of_emails_eq rfl
  | updateAccounts p hf => exact .of_emails_eq rfl
  | deleteAccounts p => exact .of_subset fun e he => (List.mem_filter.mp he).1
  | @updateEmails p f hf =>
    intro e' he'
    obtain ⟨e, he, rfl⟩ := List.mem_map.mp he'
    refine ⟨e, he, ?_⟩
    split
    · exact hf e
    · exact Touched.refl now e
  | deleteEmails p => exact .of_subset fun e he => (List.mem_filter.mp he).1
  | insertCriterion hinsert =>
    rw [Db.insertCriterion] at hinsert
    split at hinsert
    · cases hinsert
    · cases hinsert
      exact .of_emails_eq rfl
  | updateCriteria p hf => exact .of_emails_eq rfl
  | deleteCriteria p => exact .of_emails_eq rfl
  | saveClassification hsave =>
    cases saveClassification_classified hsave with
    | again => exact .of_emails_eq rfl
    | first => exact .of_emails_eq rfl
  | deleteClassifications p => exact .of_emails_eq rfl
  | setSetting key value =>
    rw [Db.setSetting]
    split
    · exact .of_emails_eq rfl
    · exact .of_emails_eq rfl
  | deleteSettings p => exact .of_emails_eq rfl

abbrev Changes (now : Int) : Db → Db → Prop := Relation.ReflTransGen (Change now)

theorem Changes.stems (h : Changes now db db') : Stems now db db' := by
  induction h with
  | refl => exact .of_emails_eq rfl
  | tail _ hchange ih => exact ih.trans hchange.stems

theorem WellFormed.changes (h : db.WellFormed) (hchanges : Changes now db db') : db'.WellFormed := by
  induction hchanges with
  | refl => exact h
  | tail _ hchange ih => exact ih.change hchange

inductive Effect (now : Int) (db : Db) : Db → Prop
  | changes {after} (h : Changes now db after) : Effect now db after
  | inserted {row} (hviewed : row.appHasViewed = false) (htrashed : row.isTrashed = false)
    (hsince : row.trashedAt = none) (hkey : db.email row.accountId row.providerMessageId = none)
    (hid : ∀ e ∈ db.emails, e.id ≠ row.id) (haccount : ∃ a ∈ db.linkedAccounts, a.id = row.accountId) :
    Effect now db { db with emails := db.emails ++ [row] }

theorem ne_key_of_email {account : Uuid} {key : String} (h : db.email account key = none) :
    ∀ e ∈ db.emails, (e.accountId, e.providerMessageId) ≠ (account, key) := by
  intro e he heq
  cases heq
  simpa using List.find?_eq_none.mp h e he

theorem WellFormed.effect (h : db.WellFormed) (heffect : Effect now db db') : db'.WellFormed := by
  cases heffect with
  | changes hchanges => exact h.changes hchanges
  | inserted _ _ _ hkey hid haccount =>
    exact { h with
      emailsPk := nodup_map_concat h.emailsPk hid
      emailsUnique := nodup_map_concat h.emailsUnique (ne_key_of_email hkey)
      emailsFk := by
        intro e he
        cases List.mem_append.mp he with
        | inl he => exact h.emailsFk e he
        | inr he =>
          rw [List.mem_singleton.mp he]
          exact haccount
      classificationsEmailFk := by
        intro c hc
        obtain ⟨e, he, heq⟩ := h.classificationsEmailFk c hc
        exact ⟨e, List.mem_append_left _ he, heq⟩ }

theorem Effect.row (h : Effect now db db') {e' : EmailRow} (he' : e' ∈ db'.emails) :
    (∃ e ∈ db.emails, Touched now e e') ∨
      (db.email e'.accountId e'.providerMessageId = none ∧ e'.isTrashed = false ∧ e'.trashedAt = none) := by
  cases h with
  | changes hchanges => exact Or.inl (hchanges.stems e' he')
  | inserted _ htrashed hsince hkey =>
    cases List.mem_append.mp he' with
    | inl he => exact Or.inl ⟨e', he, Touched.refl now e'⟩
    | inr he =>
      rw [List.mem_singleton.mp he]
      exact Or.inr ⟨hkey, htrashed, hsince⟩

theorem saveEmail_effect {id account row : Uuid} {key : String} {subject sender snippet : Option String}
    {receivedAt : Int} {isRead : Bool}
    (h : db.saveEmail id now account key subject sender receivedAt isRead snippet = .ok (row, db')) :
    Effect now db db' := by
  rw [saveEmail] at h
  split at h
  · cases h
    refine .changes (.single (.updateEmails _ ?_))
    exact fun e => ⟨rfl, rfl, rfl, fun hviewed => hviewed, Or.inl ⟨rfl, rfl⟩⟩
  · next hnone =>
    split at h
    · cases h
    · next hfresh =>
      split at h
      · next haccount =>
        cases h
        exact .inserted rfl rfl rfl hnone (by simpa using hfresh) (by simpa using haccount)
      · cases h

end Db

def Changing (now : Int) (w w' : World) : Prop := Db.Changes now w.db w'.db

instance (now : Int) : Std.Refl (Changing now) := ⟨fun _ => .refl⟩

instance (now : Int) : IsTrans World (Changing now) := ⟨fun _ _ _ h h' => h.trans h'⟩

section Changing

variable {α : Type} {now : Int}

theorem changing_of_db {w w' : World} (h : w'.db = w.db) : Changing now w w' := by
  rw [Changing, h]

theorem changing_freshUuid {ε : Type} : Moves (Changing now) (freshUuid : Program ε Uuid) :=
  moves_step fun _ => changing_of_db rfl

theorem changing_unixTimestamp {ε : Type} : Moves (Changing now) (unixTimestamp : Program ε Int) :=
  moves_step fun _ => changing_of_db rfl

theorem changing_log {ε : Type} (e : Event) : Moves (Changing now) (log e : Program ε Unit) :=
  moves_update fun _ => changing_of_db rfl

theorem changing_dbCall : Moves (Changing now) dbCall := moves_dbCall fun _ => changing_of_db rfl

theorem changing_query (f : Db → α) : Moves (Changing now) (query f) :=
  moves_query (fun _ => changing_of_db rfl) f

theorem changing_statement {f : Db → Except StorageError (α × Db)}
    (hf : ∀ db a db', f db = .ok (a, db') → Db.Changes now db db') :
    Moves (Changing now) (statement f) :=
  moves_statement (fun _ => changing_of_db rfl) fun w a db h => hf w.db a db h

theorem changing_execute {f : Db → Db} (hf : ∀ db, Db.Changes now db (f db)) :
    Moves (Changing now) (execute f) := by
  refine changing_statement fun db a db' h => ?_
  cases h
  exact hf db

theorem changing_setSecret (key value : String) : Moves (Changing now) (setSecret key value) :=
  moves_setSecret (fun _ => changing_of_db rfl) fun _ => changing_of_db rfl

theorem changing_deleteSecret (key : String) : Moves (Changing now) (deleteSecret key) :=
  moves_deleteSecret (fun _ => changing_of_db rfl) fun _ => changing_of_db rfl

theorem changing_updateAccounts (account : Uuid) {f : LinkedAccount → LinkedAccount}
    (hf : ∀ a, (f a).id = a.id ∧ (f a).emailAddress = a.emailAddress) :
    Moves (Changing now) (execute fun db => db.updateAccounts (·.id = account) f) :=
  changing_execute fun _ => .single (.updateAccounts _ hf)

theorem changing_updateAccountById (account : Uuid) {f : LinkedAccount → LinkedAccount}
    (hf : ∀ a, (f a).id = a.id ∧ (f a).emailAddress = a.emailAddress) :
    Moves (Changing now) (statement (Db.updateAccountById account f)) := by
  refine changing_statement fun db u db' h => ?_
  rw [Db.updateAccountById] at h
  split at h
  · cases h
    exact .single (.updateAccounts _ hf)
  · cases h

theorem changing_updateEmails (p : EmailRow → Bool) {f : EmailRow → EmailRow}
    (hf : ∀ e, Touched now e (f e)) : Moves (Changing now) (execute (Db.updateEmails p f)) :=
  changing_execute fun _ => .single (.updateEmails p hf)

theorem changing_updateEmailById (email : Uuid) {f : EmailRow → EmailRow}
    (hf : ∀ e, Touched now e (f e)) : Moves (Changing now) (statement (Db.updateEmailById email f)) := by
  refine changing_statement fun db u db' h => ?_
  rw [Db.updateEmailById] at h
  split at h
  · cases h
    exact .single (.updateEmails _ hf)
  · cases h

theorem changing_setSetting (key value : String) : Moves (Changing now) (setSetting key value) :=
  changing_execute fun _ => .single (.setSetting key value)

theorem changing_deleteSetting (key : String) : Moves (Changing now) (deleteSetting key) :=
  changing_execute fun _ => .single (.deleteSettings _)

theorem changing_insertCriterion (row : WatchCriterion) :
    Moves (Changing now) (statement (Db.insertCriterion row)) :=
  changing_statement fun _ _ _ h => .single (.insertCriterion h)

theorem changing_insertAccount (row : LinkedAccount) :
    Moves (Changing now) (statement (Db.insertAccount row)) :=
  changing_statement fun _ _ _ h => .single (.insertAccount h)

theorem changing_addAccount (provider : Provider) (emailAddress : String) (displayName : Option String) :
    Moves (Changing now) (addAccount provider emailAddress displayName) :=
  moves_bind changing_freshUuid fun _ => moves_bind changing_unixTimestamp fun _ =>
    changing_insertAccount _

theorem changing_addImapAccount (provider : Provider) (emailAddress : String)
    (displayName : Option String) (imapHost : String) (imapPort : Nat) :
    Moves (Changing now) (addImapAccount provider emailAddress displayName imapHost imapPort) :=
  moves_bind changing_freshUuid fun _ => moves_bind changing_unixTimestamp fun _ =>
    changing_insertAccount _

theorem changing_deleteAccount (account : Uuid) : Moves (Changing now) (deleteAccount account) := by
  refine moves_bind (changing_deleteSecret _) fun _ => changing_statement fun db u db' h => ?_
  rw [Db.deleteAccountRow] at h
  split at h
  · cases h
    exact .single (.deleteAccounts _)
  · cases h

theorem changing_deleteEmail (email : Uuid) : Moves (Changing now) (deleteEmail email) := by
  refine changing_statement fun db u db' h => ?_
  rw [Db.deleteEmail] at h
  split at h
  · cases h
    exact .single (.deleteEmails _)
  · cases h

theorem changing_purgeOldEmails (account : Uuid) (maxInbox maxFindings : Int) :
    Moves (Changing now) (purgeOldEmails account maxInbox maxFindings) := by
  refine moves_bind (moves_read _) fun ranking => ?_
  refine moves_bind (changing_statement fun db n db' h => ?_) fun inbox => ?_
  · cases h
    exact .single (.deleteEmails _)
  · refine moves_bind (changing_statement fun db n db' h => ?_) fun findings => moves_pure _
    cases h
    exact .single (.deleteEmails _)

theorem changing_purgeAccounts (maxInbox maxFindings : Int) (inbox findings : Nat)
    (accounts : List LinkedAccount) :
    Moves (Changing now) (purgeAccounts maxInbox maxFindings inbox findings accounts) := by
  induction accounts generalizing inbox findings with
  | nil => exact moves_pure _
  | cons account accounts ih =>
    exact moves_bind (changing_purgeOldEmails account.id maxInbox maxFindings) fun counts => ih _ _

theorem changing_purgeExpiredTrash (retentionDays : Int) :
    Moves (Changing now) (purgeExpiredTrash retentionDays) := by
  rw [purgeExpiredTrash]
  split
  · exact moves_raise _
  · refine moves_bind changing_unixTimestamp fun _ => changing_statement fun db n db' h => ?_
    cases h
    exact .single (.deleteEmails _)

theorem changing_clearClassifications (account criterion : Option Uuid) :
    Moves (Changing now) (clearClassifications account criterion) := by
  refine changing_statement fun db n db' h => ?_
  cases h
  exact .single (.deleteClassifications _)

theorem changing_saveClassification (email criterion : Uuid) (confidence : Option Rat) :
    Moves (Changing now) (saveClassification email criterion confidence) :=
  moves_bind changing_freshUuid fun _ => moves_bind changing_unixTimestamp fun _ =>
    moves_bind (changing_statement fun _ _ _ h => .single (.saveClassification h)) fun _ =>
      changing_log _

theorem changing_seedDefaultCriteria : Moves (Changing now) seedDefaultCriteria := by
  refine moves_bind (changing_query _) fun alreadySeeded => ?_
  split
  · exact moves_pure ()
  · refine moves_bind (changing_query _) fun existingCount => ?_
    split
    · exact changing_setSetting _ _
    · refine moves_bind changing_unixTimestamp fun createdAt => ?_
      refine moves_bind (moves_forEach (fun criterion => ?_) _) fun _ => changing_setSetting _ _
      exact moves_bind changing_freshUuid fun _ =>
        moves_bind (changing_insertCriterion _) fun _ => moves_pure ()

theorem changing_addCriterion (label description : String) :
    Moves (Changing now) (addCriterion label description) :=
  moves_bind changing_freshUuid fun _ => moves_bind changing_unixTimestamp fun _ =>
    changing_insertCriterion _

theorem changing_deleteCriterion (criterion : Uuid) : Moves (Changing now) (deleteCriterion criterion) := by
  refine changing_statement fun db u db' h => ?_
  rw [Db.deleteCriterion] at h
  split at h
  · cases h
    exact .single (.deleteCriteria _)
  · cases h

theorem changing_setCriterionActive (criterion : Uuid) (isActive : Bool) :
    Moves (Changing now) (setCriterionActive criterion isActive) := by
  refine changing_statement fun db u db' h => ?_
  rw [Db.setCriterionActive] at h
  split at h
  · cases h
    exact .single (.updateCriteria _ fun _ => rfl)
  · cases h

theorem changing_saveUserGoogleCredentials (clientId clientSecret : String) :
    Moves (Changing now) (saveUserGoogleCredentials clientId clientSecret) := by
  refine moves_bind (changing_setSecret _ _) fun _ => ?_
  refine moves_bind (moves_attempt (changing_setSetting _ _)) fun outcome => ?_
  cases outcome with
  | ok u => exact moves_pure ()
  | error e =>
    exact moves_bind (moves_ignore (changing_deleteSecret _)) fun _ => moves_raise e

theorem changing_deleteUserGoogleCredentials : Moves (Changing now) deleteUserGoogleCredentials :=
  moves_bind (changing_deleteSecret _) fun _ => changing_deleteSetting _

theorem changing_truncateTables : Moves (Changing now) truncateTables := by
  refine moves_bind changing_dbCall fun _ => moves_bind changing_dbCall fun _ => ?_
  refine moves_bind changing_dbCall fun _ => moves_bind changing_dbCall fun _ => ?_
  refine changing_execute fun db => ?_
  have hsettings : db.truncate = { (db.deleteAccounts fun _ => true).deleteCriteria fun _ => true with
      settings := db.settings.filter fun _ => false } := by
    rw [List.filter_false]
    rfl
  rw [hsettings]
  exact .tail (.tail (.single (.deleteAccounts _)) (.deleteCriteria _)) (.deleteSettings _)

theorem changing_wipeAllData : Moves (Changing now) wipeAllData := by
  refine moves_bind (changing_query _) fun accounts => ?_
  refine moves_bind (moves_forEach (fun a => changing_deleteSecret _) accounts) fun _ => ?_
  refine moves_bind changing_deleteUserGoogleCredentials fun _ => ?_
  refine moves_bind (changing_deleteSetting _) fun _ => ?_
  refine moves_bind changing_truncateTables fun _ => ?_
  exact moves_bind (moves_ignore changing_dbCall) fun _ => moves_ignore changing_dbCall

end Changing

section Operations

variable {w : World}

theorem saveEmail_effects (account : Uuid) (key : String) (subject sender : Option String)
    (receivedAt : Int) (isRead : Bool) (snippet : Option String) :
    Db.Effect w.nextTime w.db (saveEmail account key subject sender receivedAt isRead snippet w).2.db := by
  let afterward (w' : World) : Prop := Db.Effect w.nextTime w.db w'.db
  have hsaved := statement_logged (R := fun _ w' => afterward w') (w := w.stamped)
    (f := Db.saveEmail w.nextUuid w.nextTime account key subject sender receivedAt isRead snippet)
    (e := fun row => .savedEmail row account key (w.db.email account key).isNone)
    (k := fun row => do
      log (.savedEmail row account key (w.db.email account key).isNone)
      pure row)
    (fun _ _ => rfl) (.changes .refl) fun _ _ h => Db.saveEmail_effect h
  exact hsaved

theorem trashEmail_effect (email : Uuid) : Db.Effect w.nextTime w.db (trashEmail email w).2.db := by
  have hchanging : Moves (Changing w.nextTime) (statement (Db.trashEmail w.nextTime email)) :=
    changing_updateEmailById email fun _ =>
      ⟨rfl, rfl, rfl, fun hviewed => hviewed, Or.inr (Or.inl ⟨rfl, rfl⟩)⟩
  exact .changes (hchanging.run { w with outside := { w.outside with clock := w.outside.clock.tail } })

theorem markTrashed_effect (account : Uuid) (key : String) :
    Db.Effect w.nextTime w.db (markTrashed account key w).2.db := by
  have hchanging : Moves (Changing w.nextTime) (execute (Db.markTrashed w.nextTime account key)) :=
    changing_updateEmails _ fun _ =>
      ⟨rfl, rfl, rfl, fun hviewed => hviewed, Or.inr (Or.inl ⟨rfl, rfl⟩)⟩
  exact .changes (hchanging.run { w with outside := { w.outside with clock := w.outside.clock.tail } })

theorem Operation.effect (operation : Operation) :
    Db.Effect w.nextTime w.db (operation.perform w).db := by
  have run {α : Type} {x : Program StorageError α} (hx : Moves (Changing w.nextTime) x) :
      Db.Effect w.nextTime w.db (x w).2.db := .changes (hx.run w)
  have viewed (e : EmailRow) : e.appHasViewed → e.appHasViewed := fun hviewed => hviewed
  cases operation with
  | addAccount provider emailAddress displayName => exact run (changing_addAccount _ _ _)
  | addImapAccount provider emailAddress displayName imapHost imapPort =>
    exact run (changing_addImapAccount _ _ _ _ _)
  | deleteAccount account => exact run (changing_deleteAccount _)
  | updateDisplayName account displayName =>
    exact run (changing_updateAccountById account fun _ => ⟨rfl, rfl⟩)
  | clearDisplayName account => exact run (changing_updateAccountById account fun _ => ⟨rfl, rfl⟩)
  | wipeAllData => exact run changing_wipeAllData
  | setSyncError account error => exact run (changing_updateAccounts account fun _ => ⟨rfl, rfl⟩)
  | updateSyncCursor account syncCursor =>
    exact run (moves_bind changing_unixTimestamp fun _ =>
      moves_bind (changing_updateAccounts account fun _ => ⟨rfl, rfl⟩) fun _ => changing_log _)
  | clearSyncCursor account =>
    exact run (moves_bind (changing_updateAccounts account fun _ => ⟨rfl, rfl⟩) fun _ => changing_log _)
  | saveEmail account providerMessageId subject sender receivedAt isRead snippet =>
    exact saveEmail_effects _ _ _ _ _ _ _
  | deleteEmail email => exact run (changing_deleteEmail _)
  | deleteByProviderMessageId account providerMessageId =>
    exact run (changing_execute fun _ => .single (.deleteEmails _))
  | markTrashed account providerMessageId => exact markTrashed_effect _ _
  | markUntrashed account providerMessageId =>
    exact run (changing_updateEmails _ fun e => ⟨rfl, rfl, rfl, viewed e, Or.inr (Or.inr ⟨rfl, rfl⟩)⟩)
  | setEmailRead account providerMessageId isRead =>
    exact run (changing_updateEmails _ fun e => ⟨rfl, rfl, rfl, viewed e, Or.inl ⟨rfl, rfl⟩⟩)
  | trashEmail email => exact trashEmail_effect _
  | restoreEmail email =>
    exact run (changing_updateEmailById email fun e =>
      ⟨rfl, rfl, rfl, viewed e, Or.inr (Or.inr ⟨rfl, rfl⟩)⟩)
  | markEmailViewed email =>
    exact run (changing_updateEmailById email fun e => ⟨rfl, rfl, rfl, fun _ => rfl, Or.inl ⟨rfl, rfl⟩⟩)
  | purgeExpiredTrash retentionDays => exact run (changing_purgeExpiredTrash _)
  | purgeOldEmails account maxInbox maxFindings => exact run (changing_purgeOldEmails _ _ _)
  | purgeOldEmailsAll maxInbox maxFindings =>
    exact run (moves_bind (changing_query _) fun _ => changing_purgeAccounts _ _ _ _ _)
  | markAllRead account =>
    exact run (changing_updateEmails _ fun e => ⟨rfl, rfl, rfl, fun _ => rfl, Or.inl ⟨rfl, rfl⟩⟩)
  | clearClassifications account criterion => exact run (changing_clearClassifications _ _)
  | clearAllClassifications account => exact run (changing_clearClassifications _ _)
  | seedDefaultCriteria => exact run changing_seedDefaultCriteria
  | addCriterion label description => exact run (changing_addCriterion _ _)
  | deleteCriterion criterion => exact run (changing_deleteCriterion _)
  | setCriterionActive criterion isActive => exact run (changing_setCriterionActive _ _)
  | saveClassification email criterion confidence => exact run (changing_saveClassification _ _ _)
  | deleteClassification email criterion =>
    exact run (changing_execute fun _ => .single (.deleteClassifications _))
  | setSetting key value => exact run (changing_setSetting _ _)
  | deleteSetting key => exact run (changing_deleteSetting _)
  | saveUserGoogleCredentials clientId clientSecret =>
    exact run (changing_saveUserGoogleCredentials _ _)
  | deleteUserGoogleCredentials => exact run changing_deleteUserGoogleCredentials
  | saveUserMicrosoftClientId clientId => exact run (changing_setSetting _ _)
  | deleteUserMicrosoftClientId => exact run (changing_deleteSetting _)
  | setSecret key value => exact run (changing_setSecret _ _)
  | deleteSecret key => exact run (changing_deleteSecret _)
  | select => exact run changing_dbCall

end Operations

section Runs

variable {w : World} {id : Uuid} {s : Int}

def reading (outside : Outside) : Int := outside.clock.headD 0

theorem performAll_append (before after : List (Outside × Operation)) (w : World) :
    Operation.performAll (before ++ after) w =
      Operation.performAll after (Operation.performAll before w) := by
  induction before generalizing w with
  | nil => rfl
  | cons call before ih => exact ih _

theorem performAll_cons (call : Outside × Operation) (calls : List (Outside × Operation)) (w : World) :
    Operation.performAll (call :: calls) w =
      Operation.performAll calls (call.2.perform { w with outside := call.1 }) := rfl

theorem performAll_concat (before : List (Outside × Operation)) (call : Outside × Operation) (w : World) :
    Operation.performAll (before ++ [call]) w =
      call.2.perform { Operation.performAll before w with outside := call.1 } := by
  rw [performAll_append]
  rfl

theorem performAll_induction {I : Db → Prop} {calls : List (Outside × Operation)}
    (hstep : ∀ call ∈ calls, ∀ db db', I db → Db.Effect (reading call.1) db db' → I db')
    (hw : I w.db) : I (Operation.performAll calls w).db := by
  induction calls generalizing w with
  | nil => exact hw
  | cons call calls ih =>
    refine ih (fun later hlater => hstep later (List.mem_cons_of_mem _ hlater)) ?_
    exact hstep call List.mem_cons_self _ _ hw
      (Operation.effect (w := { w with outside := call.1 }) call.2)

namespace Db

variable {now : Int} {db db' : Db}

def TrashDated (db : Db) : Prop := ∀ e ∈ db.emails, e.trashedAt.isSome = e.isTrashed

theorem TrashDated.effect (h : db.TrashDated) (heffect : Effect now db db') : db'.TrashDated := by
  intro e' he'
  cases heffect.row he' with
  | inl hold =>
    obtain ⟨e, he, htouched⟩ := hold
    cases htouched.trash with
    | inl hsame =>
      rw [hsame.1, hsame.2]
      exact h e he
    | inr hwritten =>
      cases hwritten with
      | inl htrashed =>
        rw [htrashed.1, htrashed.2]
        rfl
      | inr hrestored =>
        rw [hrestored.1, hrestored.2]
        rfl
  | inr hnew =>
    rw [hnew.2.1, hnew.2.2]
    rfl

/-- An email that was in the trash neither before nor since `s` has no earlier trash date. -/
def TrashedFrom (s : Int) (id : Uuid) (db : Db) : Prop :=
  ∀ e ∈ db.emails, e.id = id → e.isTrashed → ∃ t, e.trashedAt = some t ∧ s ≤ t

theorem TrashedFrom.effect (h : db.TrashedFrom s id) (hnow : s ≤ now) (heffect : Effect now db db') :
    db'.TrashedFrom s id := by
  intro e' he' hid htrashed
  cases heffect.row he' with
  | inl hold =>
    obtain ⟨e, he, htouched⟩ := hold
    cases htouched.trash with
    | inl hsame =>
      rw [hsame.2]
      exact h e he (htouched.id.symm.trans hid) (hsame.1 ▸ htrashed)
    | inr hwritten =>
      cases hwritten with
      | inl hput => exact ⟨now, hput.2, hnow⟩
      | inr hrestored =>
        rw [hrestored.1] at htrashed
        cases htrashed
  | inr hnew =>
    rw [hnew.2.1] at htrashed
    cases htrashed

def InTrash (id : Uuid) (db : Db) : Prop := ∃ e ∈ db.emails, e.id = id ∧ e.isTrashed

theorem TrashedFrom.of_effect (hbefore : ¬db.InTrash id) (heffect : Effect now db db') :
    db'.TrashedFrom now id := by
  refine TrashedFrom.effect ?_ (le_refl now) heffect
  intro e he hid htrashed
  exact absurd ⟨e, he, hid, htrashed⟩ hbefore

end Db

def ClockForward (calls : List (Outside × Operation)) : Prop :=
  calls.Pairwise fun call later => reading call.1 ≤ reading later.1

/-- A call of the run, with `s` as its reading of the clock, moved the email into the trash. -/
def MovedToTrash (calls : List (Outside × Operation)) (w : World) (id : Uuid) (s : Int) : Prop :=
  ∃ before call after, calls = before ++ call :: after ∧ reading call.1 = s ∧
    ¬(Operation.performAll before w).db.InTrash id ∧
    (Operation.performAll (before ++ [call]) w).db.InTrash id

theorem MovedToTrash.trashedFrom {calls : List (Outside × Operation)} (hclock : ClockForward calls)
    (h : MovedToTrash calls w id s) : (Operation.performAll calls w).db.TrashedFrom s id := by
  obtain ⟨before, call, after, rfl, rfl, hbefore, -⟩ := h
  have hforward := (List.pairwise_cons.mp (List.pairwise_append.mp hclock).2.1).1
  rw [performAll_append, performAll_cons]
  have heffect := Operation.effect
    (w := { Operation.performAll before w with outside := call.1 }) call.2
  exact performAll_induction
    (fun later hlater _ _ hfrom heffect => hfrom.effect (hforward later hlater) heffect)
    (Db.TrashedFrom.of_effect hbefore heffect)

theorem purgeExpiredTrash_takes {retentionDays : Int} {e : EmailRow} (he : e ∈ w.db.emails)
    (hgone : e ∉ (purgeExpiredTrash retentionDays w).2.db.emails) :
    Db.expired (w.nextTime - retentionDays * secondsPerDay) e := by
  rw [purgeExpiredTrash] at hgone
  split at hgone
  · exact absurd he hgone
  · by_contra hkept
    apply hgone
    let w₁ : World := { w with outside := { w.outside with clock := w.outside.clock.tail } }
    change e ∈ (statement (fun db =>
      .ok (db.purgeExpiredTrash (w.nextTime - retentionDays * secondsPerDay))) w₁).2.db.emails
    rw [statement_run]
    cases w₁.dbFault with
    | some text => exact he
    | none => exact List.mem_filter.mpr ⟨he, by simpa using hkept⟩

theorem performAll_wellFormed {w : World} (calls : List (Outside × Operation)) (hw : w.db.WellFormed) :
    (Operation.performAll calls w).db.WellFormed :=
  performAll_induction (fun _ _ _ _ hdb heffect => hdb.effect heffect) hw

/-- The store is well formed and the trash columns agree after every run, and a purge takes no email
that is not in the trash or that was moved there within the retention period. -/
theorem performAll_keeps_store :
    (∀ (calls : List (Outside × Operation)) (start : World), start.db = Db.empty →
      (Operation.performAll calls start).db.WellFormed ∧
        (Operation.performAll calls start).db.TrashDated) ∧
    ∀ (calls : List (Outside × Operation)) (outside : Outside) (retentionDays : Int) (start : World)
      (e : EmailRow),
      ClockForward (calls ++ [(outside, .purgeExpiredTrash retentionDays)]) →
      e ∈ (Operation.performAll calls start).db.emails →
      e ∉ (Operation.performAll (calls ++ [(outside, .purgeExpiredTrash retentionDays)]) start).db.emails →
      e.isTrashed ∧ ∀ s, MovedToTrash calls start e.id s →
        s ≤ reading outside - retentionDays * secondsPerDay := by
  constructor
  · intro calls start hstart
    constructor
    · apply performAll_wellFormed
      rw [hstart]
      exact Db.wellFormed_empty
    · refine performAll_induction (fun _ _ _ _ hdb heffect => hdb.effect heffect) ?_
      rw [hstart]
      exact fun e he => by cases he
  · intro calls outside retentionDays start e hclock he hgone
    rw [performAll_concat] at hgone
    have hexpired := purgeExpiredTrash_takes
      (w := { Operation.performAll calls start with outside }) he hgone
    rw [Db.expired, Bool.and_eq_true] at hexpired
    refine ⟨hexpired.1, ?_⟩
    intro s hmoved
    have hfrom := hmoved.trashedFrom (List.pairwise_append.mp hclock).1
    obtain ⟨t, ht, hle⟩ := hfrom e he rfl hexpired.1
    have hcutoff := hexpired.2
    rw [ht] at hcutoff
    exact hle.trans (of_decide_eq_true hcutoff)

end Runs

section Views

variable {account : Uuid} {key : String}

structure Db.KeepsView (db db' : Db) (account : Uuid) (key : String) : Prop where
  id : (db'.email account key).map EmailRow.id = (db.email account key).map EmailRow.id
  viewed : ∀ e ∈ db.email account key, ∀ e' ∈ db'.email account key, e.appHasViewed → e'.appHasViewed

theorem Db.WellFormed.keepsView {now : Int} {db db' : Db} (h : db.WellFormed)
    (heffect : Effect now db db') {e e' : EmailRow} (he : db.email account key = some e)
    (he' : db'.email account key = some e') : Touched now e e' := by
  obtain ⟨hmem, haccount, hkey⟩ := mem_of_email he
  obtain ⟨hmem', haccount', hkey'⟩ := mem_of_email he'
  cases heffect.row hmem' with
  | inl hold =>
    obtain ⟨e₀, he₀, htouched⟩ := hold
    have hsame : e₀ = e := by
      refine List.inj_on_of_nodup_map h.emailsUnique he₀ hmem (Prod.ext ?_ ?_)
      · exact htouched.accountId.symm.trans (haccount'.trans haccount.symm)
      · exact htouched.providerMessageId.symm.trans (hkey'.trans hkey.symm)
    rwa [hsame] at htouched
  | inr hnew =>
    rw [haccount', hkey', he] at hnew
    cases hnew.1

theorem performAll_keepsView {calls : List (Outside × Operation)} {w : World} (h : w.db.WellFormed)
    (hexists : ∀ before, before <+: calls →
      ((Operation.performAll before w).db.email account key).isSome) :
    w.db.KeepsView (Operation.performAll calls w).db account key := by
  induction calls generalizing w with
  | nil =>
    refine ⟨rfl, ?_⟩
    intro e he e' he' hviewed
    rwa [Option.mem_unique he' he]
  | cons call calls ih =>
    let next : World := call.2.perform { w with outside := call.1 }
    have heffect : Db.Effect (reading call.1) w.db next.db :=
      Operation.effect (w := { w with outside := call.1 }) call.2
    have hlater : next.db.KeepsView (Operation.performAll calls next).db account key := by
      refine ih (h.effect heffect) ?_
      intro before hbefore
      exact hexists (call :: before) (List.prefix_cons_inj call |>.mpr hbefore)
    obtain ⟨e, he⟩ : ∃ e, w.db.email account key = some e :=
      Option.isSome_iff_exists.mp (hexists [] List.nil_prefix)
    obtain ⟨e₁, he₁⟩ : ∃ e, next.db.email account key = some e :=
      Option.isSome_iff_exists.mp (hexists [call] (by simp))
    have htouched := h.keepsView heffect he he₁
    rw [performAll_cons]
    constructor
    · rw [hlater.id, he, he₁]
      exact congrArg some htouched.id
    · intro e₀ he₀ e' he' hviewed
      rw [← Option.mem_unique he he₀] at hviewed
      exact hlater.viewed e₁ he₁ e' he' (htouched.viewed hviewed)

end Views

section Example

def blankWorld : World where
  db := Db.empty
  keyring _ := none
  tokenCache := []
  journal := []
  outside := {}

def linkingCall : Outside × Operation :=
  ({ uuids := [.ending '1'] }, .addAccount .gmail "me@gmail.com" none)

def savingCall : Outside × Operation :=
  ({ uuids := [.ending '2'], clock := [10] }, .saveEmail (.ending '1') "m" none none 5 false none)

def trashingCall : Outside × Operation := ({ clock := [20] }, .trashEmail (.ending '2'))

def trashedEmail : EmailRow where
  id := .ending '2'
  accountId := .ending '1'
  providerMessageId := "m"
  subject := none
  sender := none
  receivedAt := 5
  isRead := false
  appHasViewed := false
  isTrashed := true
  trashedAt := some 20
  snippet := none
  createdAt := 10

theorem performAll_keeps_store_example :
    (Operation.performAll [linkingCall, savingCall, trashingCall] blankWorld).db.WellFormed ∧
      trashedEmail.isTrashed ∧ (20 : Int) ≤ 86420 - 1 * secondsPerDay := by
  refine ⟨(performAll_keeps_store.1 _ blankWorld rfl).1, ?_⟩
  have hclock : ClockForward
      ([linkingCall, savingCall, trashingCall] ++ [({ clock := [86420] }, .purgeExpiredTrash 1)]) := by
    simp [ClockForward, reading, linkingCall, savingCall, trashingCall]
  have hemails : (Operation.performAll [linkingCall, savingCall, trashingCall] blankWorld).db.emails =
      [trashedEmail] := rfl
  have hpurged : (Operation.performAll ([linkingCall, savingCall, trashingCall] ++
      [({ clock := [86420] }, .purgeExpiredTrash 1)]) blankWorld).db.emails = [] := rfl
  have hbefore : (Operation.performAll [linkingCall, savingCall] blankWorld).db.emails =
      [{ trashedEmail with isTrashed := false, trashedAt := none }] := rfl
  have hmoved : MovedToTrash [linkingCall, savingCall, trashingCall] blankWorld trashedEmail.id 20 := by
    refine ⟨[linkingCall, savingCall], trashingCall, [], rfl, rfl, ?_, trashedEmail, ?_, rfl, rfl⟩
    · rintro ⟨e, he, -, htrashed⟩
      rw [hbefore, List.mem_singleton] at he
      rw [he] at htrashed
      cases htrashed
    · exact List.mem_singleton.mpr rfl
  obtain ⟨htrashed, hdate⟩ := performAll_keeps_store.2 _ { clock := [86420] } 1 blankWorld trashedEmail
    hclock (by rw [hemails]; exact List.mem_singleton.mpr rfl) (by rw [hpurged]; exact List.not_mem_nil)
  exact ⟨htrashed, hdate 20 hmoved⟩

end Example

end Fumiko.Storage
