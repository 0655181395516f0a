import Fumiko.EmailCore.Linking
import Fumiko.OAuth.TokenLaws

namespace Fumiko.EmailCore

open Fumiko.Common Fumiko.Foundation Fumiko.Foundation.Action Fumiko.Net Fumiko.OAuth
  Fumiko.Program Fumiko.Storage

def LeavesNoTrace (flow : Program LinkError Uuid) (w : World) : Prop :=
  ∀ e w', flow w = (.error e, w') → w'.db.linkedAccounts = w.db.linkedAccounts

def KeyringRefuses (w : World) : Prop := w.keyringSetFault.isSome ∧ w.keyringDeleteFault.isSome

def Insertable (emailAddress : String) (w : World) : Prop :=
  ∀ a ∈ w.db.linkedAccounts, a.id ≠ w.nextUuid ∧ a.emailAddress ≠ emailAddress

/-- A provider holds no storage handle, so that its profile request leaves both stores alone. -/
def EmailProvider.Remote (provider : EmailProvider) : Prop :=
  ∀ accessToken, Moves World.Calm (provider.getProfile accessToken)

section Providers

theorem gmail_remote : Gmail.provider.Remote := by
  intro accessToken
  apply moves_bind (calm_onGmail _)
  intro profile
  exact moves_pure _

theorem outlook_remote : Outlook.provider.Remote := by
  intro accessToken
  apply moves_bind (calm_onOutlook _)
  intro profile
  exact moves_pure _

theorem calm_connectSession : Moves World.Calm Imap.connectSession := by
  apply moves_bind calm_nextImap
  intro session
  cases session with
  | none => exact moves_raise _
  | some session =>
    dsimp only
    split
    · exact moves_pure _
    · exact moves_raise _
    · exact moves_raise _

theorem imap_remote (p : Imap.ImapProvider) : (Imap.provider p).Remote := by
  intro accessToken
  apply moves_bind calm_connectSession
  intro session
  exact moves_pure _

end Providers

section Registration

variable {w w₁ : World} {before : List LinkedAccount} {row : LinkedAccount} {secret : String}

/-- The common shape of `add_account` and `add_imap_account`. -/
def register (row : Uuid → Int → LinkedAccount) : Program StorageError Uuid := do
  let id ← freshUuid
  let now ← unixTimestamp
  statement (Db.insertAccount (row id now))

theorem register_run (row : Uuid → Int → LinkedAccount) (w : World) :
    register row w = statement (Db.insertAccount (row w.nextUuid w.nextTime)) w.stamped := rfl

theorem deleteAccount_new_row (hrow : ∀ a ∈ before, a.id ≠ row.id)
    (hdb : w.db.linkedAccounts = before ++ [row]) :
    ∃ db, Db.deleteAccountRow row.id w.db = .ok ((), db) ∧ db.linkedAccounts = before := by
  refine ⟨w.db.deleteAccounts (·.id = row.id), by simp [Db.deleteAccountRow, hdb], ?_⟩
  simp only [Db.deleteAccounts, hdb, List.filter_append]
  rw [List.filter_eq_self.mpr fun a ha => by simpa using hrow a ha]
  simp

theorem deleteAccount_refused (account : Uuid) {text : String}
    (hfault : w.keyringDeleteFault = some text) : (deleteAccount account w).2.db = w.db := by
  simp [deleteAccount, deleteAccountSecret, bind_run, deleteSecret_run, hfault,
    World.afterKeyringDelete]

theorem deleteAccount_done {account : Uuid} {db : Db} (hfault : w.keyringDeleteFault = none)
    (hanswers : w.DbAnswers) (hdelete : Db.deleteAccountRow account w.db = .ok ((), db)) :
    (deleteAccount account w).2.db = db := by
  have hdbFault : (w.afterKeyringDelete.withSecret account.text none).dbFault = none :=
    hanswers.dbFault
  have hrow : Db.deleteAccountRow account (w.afterKeyringDelete.withSecret account.text none).db =
      .ok ((), db) := hdelete
  simp [deleteAccount, deleteAccountSecret, bind_run, deleteSecret_run, hfault, statement_run,
    hdbFault, hrow, World.withDb]

theorem commitSecret_trace (secret : String) (hanswers : w.DbAnswers) (hrow : ∀ a ∈ before, a.id ≠ row.id)
    (hdb : w.db.linkedAccounts = before ++ [row]) :
    (∀ e w', commitSecret row.id secret w = (.error e, w') → w'.db.linkedAccounts = before) ↔
      ¬KeyringRefuses w := by
  simp only [commitSecret, bind_run, attempt_run, saveAccountSecret, setSecret_run, KeyringRefuses]
  cases hset : w.keyringSetFault with
  | none => simp
  | some text =>
    simp only [bind_run, ignore_run, raise_run, Option.isSome_some, true_and]
    cases hdelete : w.keyringDeleteFault with
    | some text' =>
      have hkept := deleteAccount_refused row.id
        (show w.afterKeyringSet.keyringDeleteFault = some text' from hdelete)
      constructor
      · intro h
        have hrows := h _ _ rfl
        rw [hkept] at hrows
        simp [World.afterKeyringSet, hdb] at hrows
      · simp
    | none =>
      obtain ⟨db, hrowDeleted, haccounts⟩ := deleteAccount_new_row hrow hdb
      have hdone := deleteAccount_done
        (show w.afterKeyringSet.keyringDeleteFault = none from hdelete) hanswers hrowDeleted
      constructor
      · simp
      · rintro - e w' heq
        cases heq
        rw [hdone, haccounts]

structure RowsFor (address : String) (row : Uuid → Int → LinkedAccount) : Prop where
  id : ∀ id now, (row id now).id = id
  emailAddress : ∀ id now, (row id now).emailAddress = address

variable {address : String} {mkRow : Uuid → Int → LinkedAccount}

theorem insertAccount_conflict {db : Db} (h : ¬∀ a ∈ db.linkedAccounts, a.id ≠ row.id ∧
    a.emailAddress ≠ row.emailAddress) : db.insertAccount row = .error .conflict := by
  simp only [not_forall, not_and_or, not_not] at h
  obtain ⟨a, ha, hclash⟩ := h
  rw [Db.insertAccount, if_pos (List.any_eq_true.mpr ⟨a, ha, by simpa using hclash⟩)]

theorem insertAccount_free {db : Db} (h : ∀ a ∈ db.linkedAccounts, a.id ≠ row.id ∧
    a.emailAddress ≠ row.emailAddress) :
    db.insertAccount row = .ok (row.id, { db with linkedAccounts := db.linkedAccounts ++ [row] }) := by
  rw [Db.insertAccount, if_neg]
  rw [List.any_eq_true]
  rintro ⟨a, ha, hclash⟩
  rw [decide_eq_true_eq] at hclash
  exact hclash.elim (h a ha).1 (h a ha).2

theorem register_refused (hrow : RowsFor address mkRow) (hanswers : w.DbAnswers)
    (h : ¬Insertable address w) :
    ∃ w₁, register mkRow w = (.error .conflict, w₁) ∧ w₁.db = w.db := by
  have hfault : w.stamped.dbFault = none := hanswers.dbFault
  have hinsert : Db.insertAccount (mkRow w.nextUuid w.nextTime) w.stamped.db = .error .conflict := by
    apply insertAccount_conflict
    rwa [hrow.id, hrow.emailAddress]
  exact ⟨_, statement_failed hfault hinsert, rfl⟩

theorem register_done (hrow : RowsFor address mkRow) (hanswers : w.DbAnswers)
    (h : Insertable address w) :
    ∃ w₁, register mkRow w = (.ok w.nextUuid, w₁) ∧ w₁.DbAnswers ∧
      w₁.db.linkedAccounts = w.db.linkedAccounts ++ [mkRow w.nextUuid w.nextTime] ∧
      w₁.keyringSetFault = w.keyringSetFault ∧ w₁.keyringDeleteFault = w.keyringDeleteFault := by
  have hfault : w.stamped.dbFault = none := hanswers.dbFault
  have hinsert : Db.insertAccount (mkRow w.nextUuid w.nextTime) w.stamped.db = .ok (w.nextUuid,
      { w.db with linkedAccounts := w.db.linkedAccounts ++ [mkRow w.nextUuid w.nextTime] }) := by
    rw [insertAccount_free, hrow.id]
    · rfl
    · rwa [hrow.id, hrow.emailAddress]
  refine ⟨_, statement_done hfault hinsert, ?_, rfl, rfl, rfl⟩
  exact fun fault hmem => hanswers fault (List.mem_of_mem_tail hmem)

def enroll (text : String) (mkRow : Uuid → Int → LinkedAccount) (secret : String) :
    Program LinkError Uuid := do
  let account ← Action.mapError (onConflict text) (register mkRow)
  commitSecret account secret

theorem enroll_leavesNoTrace_iff {text : String} (hrow : RowsFor address mkRow)
    (hanswers : w.DbAnswers) :
    LeavesNoTrace (enroll text mkRow secret) w ↔ ¬(Insertable address w ∧ KeyringRefuses w) := by
  by_cases h : Insertable address w
  · obtain ⟨w₁, hrun, hanswers₁, hdb, hset, hdelete⟩ := register_done hrow hanswers h
    have hfresh : ∀ a ∈ w.db.linkedAccounts, a.id ≠ (mkRow w.nextUuid w.nextTime).id := by
      intro a ha
      rw [hrow.id]
      exact (h a ha).1
    have htrace := commitSecret_trace secret hanswers₁ hfresh hdb
    rw [KeyringRefuses, hset, hdelete, hrow.id] at htrace
    simp only [LeavesNoTrace, enroll, bind_run, mapError, hrun, htrace, h, true_and, KeyringRefuses]
  · obtain ⟨w₁, hrun, hdb⟩ := register_refused hrow hanswers h
    simp only [LeavesNoTrace, enroll, bind_run, mapError, hrun, h, false_and, not_false_eq_true,
      iff_true]
    intro e w' heq
    cases heq
    rw [hdb]

end Registration

section Flows

variable {α : Type} {w w₁ : World}

theorem leavesNoTrace_bind_iff {x : Program LinkError α} {f : α → Program LinkError Uuid} {P : Prop}
    (hcalm : Moves World.Calm x) (herror : ∀ e w₁, x w = (.error e, w₁) → ¬P)
    (hok : ∀ a w₁, x w = (.ok a, w₁) → World.Calm w w₁ → (LeavesNoTrace (f a) w₁ ↔ ¬P)) :
    LeavesNoTrace (x >>= f) w ↔ ¬P := by
  have hw := hcalm.run w
  rcases hx : x w with ⟨e | a, w₁⟩ <;> rw [hx] at hw
  · simp only [LeavesNoTrace, bind_run, hx, herror e w₁ hx, not_false_eq_true, iff_true]
    intro e' w' h
    cases h
    rw [hw.db]
  · have hdb : w₁.db = w.db := hw.db
    rw [← hok a w₁ hx hw]
    simp only [LeavesNoTrace, bind_run, hx, hdb]

theorem insertable_of_calm (hcalm : World.Calm w w₁) (address : String) :
    Insertable address w₁ ↔ Insertable address w := by
  rw [Insertable, Insertable, World.nextUuid, World.nextUuid, hcalm.db, hcalm.uuids]

theorem keyringRefuses_of_calm (hcalm : World.Calm w w₁) : KeyringRefuses w₁ ↔ KeyringRefuses w := by
  rw [KeyringRefuses, KeyringRefuses, hcalm.keyringSetFault, hcalm.keyringDeleteFault]

def ImapReachesKeyring (email : String) (w : World) : Prop :=
  (∃ session, w.outside.imap.head? = some session ∧ session.connect = .connected) ∧
    Insertable email w

def authorize (config : LinkConfig) (provider : EmailProvider) :
    Program LinkError (Profile × String) := do
  let credentials ← Action.mapError .credentials
    (loadCredentials config.oauthProvider config.bundledClientId config.bundledClientSecret)
  let tokens ← Action.mapError .oauth (runOAuth credentials)
  match tokens.refreshToken with
  | none => Action.raise (.message "No refresh token was provided by OAuth provider")
  | some refreshToken => do
    let profile ← Action.mapError .provider (provider.getProfile tokens.accessToken)
    pure (profile, refreshToken)

def OAuthReachesKeyring (config : LinkConfig) (provider : EmailProvider) (w : World) : Prop :=
  ∃ profile refreshToken, (authorize config provider w).1 = .ok (profile, refreshToken) ∧
    Insertable profile.emailAddress w

theorem connectSession_ok {session : ImapSession} (hhead : w.outside.imap.head? = some session)
    (hconnect : session.connect = .connected) : (Imap.connectSession w).1 = .ok session := by
  simp [Imap.connectSession, bind_run, nextImap, hhead, hconnect]

theorem connectSession_eq_ok {session : ImapSession} (h : Imap.connectSession w = (.ok session, w₁)) :
    w.outside.imap.head? = some session ∧ session.connect = .connected := by
  simp only [Imap.connectSession, bind_run, nextImap, step_run] at h
  cases hhead : w.outside.imap.head? with
  | none => simp [hhead] at h
  | some found =>
    simp only [hhead] at h
    cases hconnect : found.connect with
    | connected =>
      simp only [hconnect, pure_run, Prod.mk.injEq, Except.ok.injEq] at h
      rw [h.1] at hconnect
      exact ⟨congrArg some h.1, hconnect⟩
    | unreachable text => simp [hconnect] at h
    | loginRefused text => simp [hconnect] at h

def imapRow (email host : String) (port : Nat) (id : Uuid) (now : Int) : LinkedAccount where
  id
  provider := .imap
  emailAddress := email
  displayName := none
  syncCursor := none
  lastSyncedAt := none
  lastSyncError := none
  createdAt := now
  imapHost := some host
  imapPort := some port

theorem rowsFor_imapRow (email host : String) (port : Nat) :
    RowsFor email (imapRow email host port) := ⟨fun _ _ => rfl, fun _ _ => rfl⟩

theorem linkImapAccount_eq (email password host : String) (port : Nat) :
    linkImapAccount email password host port =
      (do
        let _ ← Action.mapError .provider
          ((Imap.provider ⟨host, port, email⟩).getProfile (cleanPassword password))
        enroll ("The account " ++ email ++ " is already linked") (imapRow email host port)
          (cleanPassword password)) := rfl

theorem linkImapAccount_leavesNoTrace_iff (email password host : String) (port : Nat)
    (hanswers : w.DbAnswers) :
    LeavesNoTrace (linkImapAccount email password host port) w ↔
      ¬(ImapReachesKeyring email w ∧ KeyringRefuses w) := by
  rw [linkImapAccount_eq]
  apply leavesNoTrace_bind_iff (moves_mapError (imap_remote _ _))
  · rintro e w₁ hlogin ⟨⟨⟨session, hhead, hconnect⟩, -⟩, -⟩
    obtain ⟨e', hprofile, -⟩ := mapError_eq_error.mp hlogin
    rcases bind_eq_error.mp hprofile with hsession | ⟨_, _, _, hpure⟩
    · have hconnected := connectSession_ok hhead hconnect
      rw [hsession] at hconnected
      cases hconnected
    · cases hpure
  · intro profile w₁ hlogin hcalm
    obtain ⟨session, w₂, hsession, -⟩ := bind_eq_ok.mp (mapError_eq_ok.mp hlogin)
    have hreaches : ImapReachesKeyring email w ↔ Insertable email w :=
      and_iff_right ⟨session, connectSession_eq_ok hsession⟩
    rw [enroll_leavesNoTrace_iff (rowsFor_imapRow email host port) (hcalm.dbAnswers hanswers),
      insertable_of_calm hcalm, keyringRefuses_of_calm hcalm, hreaches]

def oauthRow (provider : Provider) (profile : Profile) (id : Uuid) (now : Int) : LinkedAccount where
  id
  provider
  emailAddress := profile.emailAddress
  displayName := profile.displayName
  syncCursor := none
  lastSyncedAt := none
  lastSyncError := none
  createdAt := now
  imapHost := none
  imapPort := none

theorem rowsFor_oauthRow (provider : Provider) (profile : Profile) :
    RowsFor profile.emailAddress (oauthRow provider profile) := ⟨fun _ _ => rfl, fun _ _ => rfl⟩

theorem linkAccountWithConfig_eq (config : LinkConfig) (provider : EmailProvider) :
    linkAccountWithConfig config provider =
      (do
        let (profile, refreshToken) ← authorize config provider
        enroll ("The " ++ config.providerLabel ++ " account " ++ profile.emailAddress ++
          " is already linked") (oauthRow config.appProvider profile) refreshToken) := by
  funext w
  simp only [linkAccountWithConfig, authorize, bind_run]
  rcases mapError LinkError.credentials (loadCredentials config.oauthProvider config.bundledClientId
    config.bundledClientSecret) w with ⟨e | credentials, w₁⟩
  · rfl
  dsimp only
  rcases mapError LinkError.oauth (runOAuth credentials) w₁ with ⟨e | tokens, w₂⟩
  · rfl
  dsimp only
  cases tokens.refreshToken with
  | none => rfl
  | some refreshToken =>
    simp only [bind_run]
    rcases mapError LinkError.provider (provider.getProfile tokens.accessToken) w₂ with
      ⟨e | profile, w₃⟩ <;> rfl

theorem calm_authorize (config : LinkConfig) {provider : EmailProvider} (hremote : provider.Remote) :
    Moves World.Calm (authorize config provider) := by
  apply moves_bind (moves_mapError (calm_loadCredentials _ _ _))
  intro credentials
  apply moves_bind (moves_mapError (calm_runOAuth _))
  intro tokens
  split
  · exact moves_raise _
  · apply moves_bind (moves_mapError (hremote _))
    intro profile
    exact moves_pure _

theorem linkAccountWithConfig_leavesNoTrace_iff (config : LinkConfig) {provider : EmailProvider}
    (hremote : provider.Remote) (hanswers : w.DbAnswers) :
    LeavesNoTrace (linkAccountWithConfig config provider) w ↔
      ¬(OAuthReachesKeyring config provider w ∧ KeyringRefuses w) := by
  rw [linkAccountWithConfig_eq]
  apply leavesNoTrace_bind_iff (calm_authorize config hremote)
  · rintro e w₁ hrun ⟨⟨profile, refreshToken, hok, -⟩, -⟩
    rw [hrun] at hok
    cases hok
  · rintro ⟨profile, refreshToken⟩ w₁ hrun hcalm
    have hreaches : OAuthReachesKeyring config provider w ↔ Insertable profile.emailAddress w := by
      constructor
      · rintro ⟨_, _, hok, hinsertable⟩
        rw [hrun] at hok
        cases hok
        exact hinsertable
      · intro hinsertable
        exact ⟨profile, refreshToken, by rw [hrun], hinsertable⟩
    rw [enroll_leavesNoTrace_iff (rowsFor_oauthRow _ profile) (hcalm.dbAnswers hanswers),
      insertable_of_calm hcalm, keyringRefuses_of_calm hcalm, hreaches]

end Flows

/-- A failed linking leaves the accounts table as it was, unless the keyring refuses both the
new secret and the deletion that takes the row back. -/
theorem linking_leavesNoTrace_iff {w : World} (hanswers : w.DbAnswers) :
    (∀ config provider, provider.Remote →
      (LeavesNoTrace (linkAccountWithConfig config provider) w ↔
        ¬(OAuthReachesKeyring config provider w ∧ KeyringRefuses w))) ∧
    ∀ email password host port,
      (LeavesNoTrace (linkImapAccount email password host port) w ↔
        ¬(ImapReachesKeyring email w ∧ KeyringRefuses w)) :=
  ⟨fun config _ hremote => linkAccountWithConfig_leavesNoTrace_iff config hremote hanswers,
    fun email password host port => linkImapAccount_leavesNoTrace_iff email password host port hanswers⟩

section Example

def exampleSession : ImapSession where
  connect := .connected
  select := .ok (some 1)
  search _ := .ok ⟨[], List.nodup_nil⟩
  fetch _ := .ok []
  fullMessage _ := .error .unauthorized

def lockedWorld : World where
  db := Db.empty
  keyring _ := none
  tokenCache := []
  journal := []
  outside := {
    keyringSetFaults := [some "locked"]
    keyringDeleteFaults := [some "locked"]
    uuids := [.ending '1']
    imap := [exampleSession] }

theorem lockedWorld_dbAnswers : lockedWorld.DbAnswers := by
  intro fault hfault
  cases hfault

theorem linkImapAccount_leaves_row :
    lockedWorld.DbAnswers ∧
      ¬LeavesNoTrace (linkImapAccount "me@example.com" "abcd efgh" "imap.example.com" 993)
        lockedWorld := by
  refine ⟨lockedWorld_dbAnswers, ?_⟩
  intro h
  have hrows := h _ _ rfl
  cases hrows

theorem linking_leavesNoTrace_iff_example :
    (∀ config, LeavesNoTrace (linkAccountWithConfig config Gmail.provider) lockedWorld ↔
      ¬(OAuthReachesKeyring config Gmail.provider lockedWorld ∧ KeyringRefuses lockedWorld)) ∧
    (LeavesNoTrace (linkImapAccount "me@example.com" "abcd" "imap.example.com" 993) lockedWorld ↔
      ¬(ImapReachesKeyring "me@example.com" lockedWorld ∧ KeyringRefuses lockedWorld)) :=
  ⟨fun config => (linking_leavesNoTrace_iff lockedWorld_dbAnswers).1 config _ gmail_remote,
    (linking_leavesNoTrace_iff lockedWorld_dbAnswers).2 _ _ _ _⟩

end Example

end Fumiko.EmailCore
