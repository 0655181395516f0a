import Fumiko.EmailCore.LinkingLaws
import Fumiko.Storage.SchemaLaws

/-! Account secrets and account rows live in two stores without a common transaction.  Every
operation keeps the secrets among the rows, wherever it fails. -/

namespace Fumiko.EmailCore

open Fumiko.Common Fumiko.Foundation Fumiko.Foundation.Action Fumiko.Net Fumiko.OAuth
  Fumiko.Program Fumiko.Storage

def HasRow (id : Uuid) (db : Db) : Prop := ∃ a ∈ db.linkedAccounts, a.id = id

/-- Every account secret in the keyring is keyed by the id of an account row. -/
def SecretsBacked (w : World) : Prop := ∀ id : Uuid, w.keyring id.text ≠ none → HasRow id w.db

structure Sound (w : World) : Prop where
  wellFormed : w.db.WellFormed
  backed : SecretsBacked w

def Shrinks (w w' : World) : Prop := ∀ key, w.keyring key = none → w'.keyring key = none

instance : Std.Refl Shrinks := ⟨fun _ _ => id⟩

instance : IsTrans World Shrinks := ⟨fun _ _ _ h₁ h₂ key h => h₂ key (h₁ key h)⟩

section Steps

variable {ε α : Type} {w w' : World} {id : Uuid} {key value : String}

theorem uuid_eq_of_text {a b : Uuid} (h : a.text = b.text) : a = b := by
  cases a
  cases b
  cases h
  rfl

theorem Sound.of_calm (hcalm : World.Calm w w') (h : Sound w) : Sound w' where
  wellFormed := hcalm.db ▸ h.wellFormed
  backed := by
    intro id hid
    rw [hcalm.keyring] at hid
    rw [hcalm.db]
    exact h.backed id hid

theorem sound_of_calm {x : Program ε α} (h : Moves World.Calm x) : Moves (Preserves Sound) x :=
  h.mono fun _ _ hcalm hs => hs.of_calm hcalm

theorem Sound.withSecret (h : Sound w) (hrow : HasRow id w.db) :
    Sound (w.withSecret id.text (some value)) where
  wellFormed := h.wellFormed
  backed := by
    intro other hother
    by_cases heq : other.text = id.text
    · exact uuid_eq_of_text heq ▸ hrow
    · apply h.backed other
      simpa [World.withSecret, heq] using hother

theorem Sound.withoutSecret (h : Sound w) : Sound (w.withSecret key none) where
  wellFormed := h.wellFormed
  backed := by
    intro other hother
    apply h.backed other
    intro hnone
    apply hother
    simp [World.withSecret, hnone]

theorem sound_deleteSecret (key : String) : Moves (Preserves Sound) (deleteSecret key) :=
  moves_deleteSecret (fun _ h => ⟨h.wellFormed, h.backed⟩)
    fun w h => Sound.withoutSecret (w := w.afterKeyringDelete) ⟨h.wellFormed, h.backed⟩

theorem shrinks_deleteSecret (key : String) : Moves Shrinks (deleteSecret key) := by
  apply moves_deleteSecret
  · exact fun _ _ => id
  · intro w other h
    simp only [World.withSecret]
    split
    · rfl
    · exact h

theorem deleteSecret_eq_ok {u : Unit} (h : deleteSecret key w = (.ok u, w')) :
    w'.keyring key = none ∧ w'.db = w.db := by
  rw [deleteSecret_run] at h
  cases hfault : w.keyringDeleteFault with
  | some text => simp [hfault] at h
  | none =>
    simp only [hfault] at h
    cases h
    exact ⟨by simp [World.withSecret], rfl⟩

theorem sound_saveAccountSecret_of_row (h : Sound w) (hrow : HasRow id w.db) (secret : String) :
    Sound (saveAccountSecret id secret w).2 := by
  rw [saveAccountSecret, setSecret_run]
  cases w.keyringSetFault with
  | some text => exact ⟨h.wellFormed, h.backed⟩
  | none => exact Sound.withSecret (w := w.afterKeyringSet) ⟨h.wellFormed, h.backed⟩ hrow

end Steps

section Deletion

variable {w w' : World} {account : Uuid}

theorem backed_deleteAccountRow {db : Db} {u : Unit} (h : SecretsBacked w)
    (hnone : w.keyring account.text = none) (hdelete : w.db.deleteAccountRow account = .ok (u, db)) :
    SecretsBacked (w.withDb db) := by
  intro id hid
  obtain ⟨a, ha, hrow⟩ := h id hid
  rw [Db.deleteAccountRow] at hdelete
  split at hdelete
  · cases hdelete
    refine ⟨a, List.mem_filter.mpr ⟨ha, ?_⟩, hrow⟩
    have hne : a.id ≠ account := by
      intro heq
      apply hid
      rw [← hrow, heq]
      exact hnone
    simpa using hne
  · cases hdelete

theorem Sound.deleteAccountRow {db : Db} {u : Unit} (h : Sound w)
    (hnone : w.keyring account.text = none) (hdelete : w.db.deleteAccountRow account = .ok (u, db)) :
    Sound (w.withDb db) where
  wellFormed := h.wellFormed.deleteAccountRow hdelete
  backed := backed_deleteAccountRow h.backed hnone hdelete

theorem sound_deleteAccount (account : Uuid) : Moves (Preserves Sound) (deleteAccount account) := by
  apply moves_preserves_bind (sound_deleteSecret _)
  intro w u w₁ hw hw₁ hsecret
  have hnone := (deleteSecret_eq_ok hsecret).1
  rw [statement_run]
  cases w₁.dbFault with
  | some text => exact ⟨hw₁.wellFormed, hw₁.backed⟩
  | none =>
    rcases hdelete : w₁.db.deleteAccountRow account with e | ⟨u, db⟩
    · exact ⟨hw₁.wellFormed, hw₁.backed⟩
    · exact Sound.deleteAccountRow (w := w₁.afterDbCall) ⟨hw₁.wellFormed, hw₁.backed⟩ hnone hdelete

end Deletion

section Linking

variable {w w' : World} {row : Uuid → Int → LinkedAccount} {address : String}

theorem Sound.insertAccount {db : Db} {account : LinkedAccount} {id : Uuid} (h : Sound w)
    (hinsert : w.db.insertAccount account = .ok (id, db)) : Sound (w.withDb db) where
  wellFormed := h.wellFormed.insertAccount hinsert
  backed := by
    intro other hother
    obtain ⟨a, ha, hrow⟩ := h.backed other hother
    rw [Db.insertAccount] at hinsert
    split at hinsert
    · cases hinsert
    · cases hinsert
      exact ⟨a, List.mem_append_left _ ha, hrow⟩

theorem hasRow_of_insertAccount {db db' : Db} {account : LinkedAccount} {id : Uuid}
    (hinsert : db.insertAccount account = .ok (id, db')) : HasRow id db' := by
  rw [Db.insertAccount] at hinsert
  split at hinsert
  · cases hinsert
  · cases hinsert
    exact ⟨account, List.mem_append_right _ (List.mem_singleton_self _), rfl⟩

theorem sound_register (row : Uuid → Int → LinkedAccount) : Moves (Preserves Sound) (register row) := by
  constructor
  intro w h
  have hstamped : Sound w.stamped := ⟨h.wellFormed, h.backed⟩
  rw [register_run]
  exact (moves_statement (R := Preserves Sound) (fun _ h => ⟨h.wellFormed, h.backed⟩)
    fun w _ _ hinsert h =>
      Sound.insertAccount (w := w.afterDbCall) ⟨h.wellFormed, h.backed⟩ hinsert).run _ hstamped

theorem register_eq_ok {id : Uuid} (h : register row w = (.ok id, w')) : HasRow id w'.db := by
  rw [register_run] at h
  obtain ⟨db, hinsert, rfl⟩ := statement_eq_ok h
  exact hasRow_of_insertAccount hinsert

theorem sound_commitSecret (hw : Sound w) {id : Uuid} (hrow : HasRow id w.db) (secret : String) :
    Sound (commitSecret id secret w).2 := by
  have hsave := sound_saveAccountSecret_of_row hw hrow secret
  rw [commitSecret, bind_run, attempt_run]
  rcases (saveAccountSecret id secret w).1 with e | u
  · exact (sound_deleteAccount id).run _ hsave
  · exact hsave

theorem sound_enroll (text : String) (row : Uuid → Int → LinkedAccount) (secret : String) :
    Moves (Preserves Sound) (enroll text row secret) := by
  apply moves_preserves_bind (moves_mapError (sound_register row))
  intro w id w₁ hw hw₁ hregister
  exact sound_commitSecret hw₁ (register_eq_ok (mapError_eq_ok.mp hregister)) secret

theorem sound_linkAccountWithConfig (config : LinkConfig) {provider : EmailProvider}
    (hremote : provider.Remote) : Moves (Preserves Sound) (linkAccountWithConfig config provider) := by
  rw [linkAccountWithConfig_eq]
  apply moves_bind (sound_of_calm (calm_authorize config hremote))
  rintro ⟨profile, refreshToken⟩
  exact sound_enroll _ _ _

theorem sound_linkImapAccount (email password host : String) (port : Nat) :
    Moves (Preserves Sound) (linkImapAccount email password host port) := by
  rw [linkImapAccount_eq]
  apply moves_bind (sound_of_calm (moves_mapError (imap_remote _ _)))
  intro profile
  exact sound_enroll _ _ _

end Linking

section Refresh

variable {w w' : World}

theorem accountSecret_eq_ok {account : Uuid} {secret : String}
    (h : accountSecret account w = (.ok secret, w')) : w.keyring account.text = some secret := by
  rw [accountSecret, bind_eq_ok] at h
  obtain ⟨found, w₁, hget, hrest⟩ := h
  rw [mapError_eq_ok, getAccountSecret, getSecret_run] at hget
  cases hfault : w.keyringGetFault with
  | some text => simp [hfault] at hget
  | none =>
    simp only [hfault, Prod.mk.injEq, Except.ok.injEq] at hget
    cases found with
    | none => simp at hrest
    | some secret' =>
      cases hrest
      exact hget.1

theorem sound_persistRotation (hw : Sound w) {account : Uuid} (hrow : HasRow account w.db)
    (refreshToken : String) (tokens : TokenSet) :
    Sound (persistRotation account refreshToken tokens w).2 := by
  rw [persistRotation]
  cases tokens.refreshToken with
  | none => exact hw
  | some newRefreshToken =>
    dsimp only
    split
    · rw [mapError_state]
      exact sound_saveAccountSecret_of_row hw hrow newRefreshToken
    · exact hw

theorem sound_getAccessTokenForAccount (bundled : Bundled) (account : LinkedAccount) :
    Moves (Preserves Sound) (getAccessTokenForAccount bundled account) := by
  rw [getAccessTokenForAccount]
  split
  · apply moves_bind (sound_of_calm (calm_accountSecret _))
    intro password
    apply moves_bind (sound_of_calm calm_instantNow)
    intro now
    exact moves_pure _
  · apply moves_preserves_bind (sound_of_calm (calm_accountSecret _))
    intro w refreshToken w₁ hw hw₁ hsecret
    have hcalm₁ := (calm_accountSecret account.id).of_eq hsecret
    have hrow : HasRow account.id w₁.db := by
      rw [hcalm₁.db]
      exact hw.backed account.id (by simp [accountSecret_eq_ok hsecret])
    have hcalm := (calm_requestTokens bundled account refreshToken).run w₁
    rw [bind_run]
    rcases hrefresh : requestTokens bundled account refreshToken w₁ with ⟨e | tokens, w₂⟩ <;>
      rw [hrefresh] at hcalm
    · exact hw₁.of_calm hcalm
    · have hkept := sound_persistRotation (hw₁.of_calm hcalm) (hcalm.db ▸ hrow) refreshToken tokens
      dsimp only
      rw [bind_run]
      rcases hpersist : persistRotation account.id refreshToken tokens w₂ with ⟨e | u, w₃⟩ <;>
        rw [hpersist] at hkept <;> exact hkept

end Refresh

section Wipe

variable {w w' : World}

theorem sound_execute {f : Db → Db} (hf : ∀ db : Db, db.WellFormed → (f db).WellFormed)
    (hrows : ∀ db, (f db).linkedAccounts = db.linkedAccounts) : Moves (Preserves Sound) (execute f) := by
  apply moves_statement
  · exact fun _ h => ⟨h.wellFormed, h.backed⟩
  · intro w u db heq h
    cases heq
    refine ⟨hf _ h.wellFormed, ?_⟩
    intro id hid
    obtain ⟨a, ha, hrow⟩ := h.backed id hid
    exact ⟨a, (hrows w.db).symm ▸ ha, hrow⟩

theorem sound_deleteSetting (key : String) : Moves (Preserves Sound) (deleteSetting key) :=
  sound_execute (fun _ h => h.deleteSetting key) fun _ => rfl

theorem sound_deleteUserGoogleCredentials : Moves (Preserves Sound) deleteUserGoogleCredentials :=
  moves_bind (sound_deleteSecret _) fun _ => sound_deleteSetting _

theorem shrinks_execute (f : Db → Db) : Moves Shrinks (execute f) :=
  moves_statement (fun _ _ => id) fun _ _ _ _ _ => id

theorem shrinks_deleteUserGoogleCredentials : Moves Shrinks deleteUserGoogleCredentials :=
  moves_bind (shrinks_deleteSecret _) fun _ => shrinks_execute _

def wipeSecrets : Program StorageError Unit := do
  let accounts ← listAccounts
  Action.forEach (fun a : LinkedAccount => deleteAccountSecret a.id) accounts
  deleteUserGoogleCredentials
  deleteUserMicrosoftClientId

def NoSecrets (w : World) : Prop := ∀ id : Uuid, w.keyring id.text = none

def NoClientSecret (w : World) : Prop := w.keyring KeyringKeys.userGoogleClientSecret = none

theorem deleteSecrets_eq_ok {accounts : List LinkedAccount} {u : Unit}
    (h : forEach (fun a : LinkedAccount => deleteAccountSecret a.id) accounts w = (.ok u, w')) :
    ∀ a ∈ accounts, w'.keyring a.id.text = none := by
  induction accounts generalizing w with
  | nil => simp
  | cons a accounts ih =>
    obtain ⟨u₁, w₁, hdelete, hrest⟩ := bind_eq_ok.mp h
    have hshrinks : Shrinks w₁ w' :=
      (moves_forEach (fun a : LinkedAccount => shrinks_deleteSecret a.id.text) accounts).of_eq hrest
    intro b hb
    cases hb with
    | head => exact hshrinks _ (deleteSecret_eq_ok hdelete).1
    | tail _ hb => exact ih hrest b hb

theorem sound_wipeSecrets : Moves (Preserves Sound) wipeSecrets := by
  apply moves_bind (sound_of_calm (calm_query _))
  intro accounts
  apply moves_bind (moves_forEach (fun _ => sound_deleteSecret _) _)
  intro _
  apply moves_bind sound_deleteUserGoogleCredentials
  intro _
  exact sound_deleteSetting _

theorem mem_listAccounts {accounts : List LinkedAccount} (h : listAccounts w = (.ok accounts, w'))
    {a : LinkedAccount} (ha : a ∈ w.db.linkedAccounts) : a ∈ accounts := by
  rw [listAccounts, query_run] at h
  cases hfault : w.dbFault with
  | some text => simp [hfault] at h
  | none =>
    simp only [hfault] at h
    cases h
    exact (List.perm_insertionSort _ _).mem_iff.mpr ha

theorem wipeSecrets_eq_ok (hw : Sound w) {u : Unit} (h : wipeSecrets w = (.ok u, w')) :
    NoSecrets w' ∧ NoClientSecret w' := by
  obtain ⟨accounts, w₁, hlist, h⟩ := bind_eq_ok.mp h
  obtain ⟨u₂, w₂, hdelete, h⟩ := bind_eq_ok.mp h
  obtain ⟨u₃, w₃, hgoogle, hmicrosoft⟩ := bind_eq_ok.mp h
  have hshrinks₂ : Shrinks w₁ w₂ :=
    (moves_forEach (fun a : LinkedAccount => shrinks_deleteSecret a.id.text) accounts).of_eq hdelete
  have hshrinks₃ : Shrinks w₂ w₃ := shrinks_deleteUserGoogleCredentials.of_eq hgoogle
  have hshrinks : Shrinks w₃ w' := (shrinks_execute _).of_eq hmicrosoft
  constructor
  · intro id
    apply hshrinks
    apply hshrinks₃
    by_contra hid
    have hcalm₁ := (calm_query Db.listAccounts).of_eq hlist
    obtain ⟨a, ha, hrow⟩ := (hw.of_calm hcalm₁).backed id fun hnone => hid (hshrinks₂ _ hnone)
    have hlisted : a ∈ accounts := mem_listAccounts hlist (hcalm₁.db ▸ ha)
    exact hid (hrow ▸ deleteSecrets_eq_ok hdelete a hlisted)
  · obtain ⟨u₄, w₄, hsecret, hsetting⟩ := bind_eq_ok.mp hgoogle
    apply hshrinks
    exact (shrinks_execute _).of_eq hsetting _ (deleteSecret_eq_ok hsecret).1

theorem wipeAllData_eq : wipeAllData = (do
    wipeSecrets
    truncateTables
    Action.ignore dbCall
    Action.ignore dbCall) := by
  simp only [wipeAllData, wipeSecrets, bind_assoc]

theorem Sound.empty (h : NoSecrets w) : Sound (w.withDb Db.empty) where
  wellFormed := Db.wellFormed_empty
  backed id hid := absurd (h id) hid

def firstCalls : Program StorageError Unit := do
  dbCall
  dbCall
  dbCall
  dbCall

theorem calm_firstCalls : Moves World.Calm firstCalls := by
  have hcall : Moves World.Calm dbCall := moves_dbCall World.calm_afterDbCall
  exact moves_bind hcall fun _ => moves_bind hcall fun _ => moves_bind hcall fun _ => hcall

theorem truncateTables_cases (w : World) : ∃ w₁, World.Calm w w₁ ∧
    ((∃ e, truncateTables w = (.error e, w₁)) ∨
      truncateTables w = (.ok (), w₁.withDb w.db.truncate)) := by
  have hsplit : truncateTables = firstCalls >>= fun _ => execute Db.truncate := by
    simp only [truncateTables, firstCalls, bind_assoc]
  rw [hsplit, bind_run]
  rcases hfirst : firstCalls w with ⟨e | u, w₁⟩
  · exact ⟨w₁, calm_firstCalls.of_eq hfirst, Or.inl ⟨e, rfl⟩⟩
  · have hcalm := calm_firstCalls.of_eq hfirst
    refine ⟨w₁.afterDbCall, IsTrans.trans _ _ _ hcalm (World.calm_afterDbCall w₁), ?_⟩
    dsimp only
    rw [execute_run, hcalm.db]
    cases w₁.dbFault with
    | some text => exact Or.inl ⟨_, rfl⟩
    | none => exact Or.inr rfl

theorem calm_checkpoint : Moves World.Calm (do
    Action.ignore dbCall
    Action.ignore dbCall : Program StorageError Unit) :=
  moves_bind (moves_ignore (moves_dbCall World.calm_afterDbCall)) fun _ =>
    moves_ignore (moves_dbCall World.calm_afterDbCall)

theorem sound_wipeAllData : Moves (Preserves Sound) wipeAllData := by
  rw [wipeAllData_eq]
  apply moves_preserves_bind sound_wipeSecrets
  intro w u w₁ hw hw₁ hsecrets
  have hnone := (wipeSecrets_eq_ok hw hsecrets).1
  obtain ⟨w₂, hcalm, ⟨e, hfailed⟩ | hdone⟩ := truncateTables_cases w₁
  · rw [bind_run, hfailed]
    exact hw₁.of_calm hcalm
  · rw [bind_run, hdone]
    have hempty : Sound (w₂.withDb w₁.db.truncate) := by
      rw [hw₁.wellFormed.truncate]
      apply Sound.empty
      intro id
      rw [hcalm.keyring]
      exact hnone id
    exact hempty.of_calm (calm_checkpoint.run _)

theorem wipeAllData_eq_ok (hw : Sound w) (h : wipeAllData w = (.ok (), w')) :
    w'.db = Db.empty ∧ NoSecrets w' ∧ NoClientSecret w' := by
  rw [wipeAllData_eq] at h
  obtain ⟨u, w₁, hsecrets, h⟩ := bind_eq_ok.mp h
  obtain ⟨u₂, w₂, htruncate, hcheckpoint⟩ := bind_eq_ok.mp h
  have hw₁ : Sound w₁ := (sound_wipeSecrets.of_eq hsecrets) hw
  obtain ⟨hnone, hclient⟩ := wipeSecrets_eq_ok hw hsecrets
  have hcalm := calm_checkpoint.of_eq hcheckpoint
  obtain ⟨w₃, hcalm₃, ⟨e, hfailed⟩ | hdone⟩ := truncateTables_cases w₁
  · rw [hfailed] at htruncate
    cases htruncate
  · rw [hdone] at htruncate
    cases htruncate
    have hkeyring : w'.keyring = w₁.keyring := hcalm.keyring.trans hcalm₃.keyring
    refine ⟨hcalm.db.trans hw₁.wellFormed.truncate, ?_, ?_⟩
    · intro id
      rw [hkeyring, hnone id]
    · rw [NoClientSecret, hkeyring, hclient]

end Wipe

section Runs

inductive AccountOperation
  | linkAccount (config : LinkConfig) (provider : EmailProvider) (remote : provider.Remote)
  | linkImapAccount (email password host : String) (port : Nat)
  | deleteAccount (account : Uuid)
  | getAccessToken (bundled : Bundled) (account : LinkedAccount)
  | wipeAllData

def AccountOperation.perform (w : World) : AccountOperation → World
  | .linkAccount config provider _ => (linkAccountWithConfig config provider w).2
  | .linkImapAccount email password host port =>
    (EmailCore.linkImapAccount email password host port w).2
  | .deleteAccount account => (Storage.deleteAccount account w).2
  | .getAccessToken bundled account => (getAccessTokenForAccount bundled account w).2
  | .wipeAllData => (Storage.wipeAllData w).2

/-- One operation after another, each under surroundings of its own: which of its calls fail,
and what it is answered. -/
def performAll : List (Outside × AccountOperation) → World → World
  | [], w => w
  | (outside, operation) :: rest, w => performAll rest (operation.perform { w with outside })

theorem Sound.withOutside {w : World} (h : Sound w) (outside : Outside) : Sound { w with outside } :=
  ⟨h.wellFormed, h.backed⟩

theorem Sound.perform {w : World} (h : Sound w) (operation : AccountOperation) :
    Sound (operation.perform w) := by
  cases operation with
  | linkAccount config provider remote => exact (sound_linkAccountWithConfig config remote).run w h
  | linkImapAccount email password host port =>
    exact (sound_linkImapAccount email password host port).run w h
  | deleteAccount account => exact (sound_deleteAccount account).run w h
  | getAccessToken bundled account => exact (sound_getAccessTokenForAccount bundled account).run w h
  | wipeAllData => exact sound_wipeAllData.run w h

theorem Sound.performAll {w : World} (h : Sound w) (operations : List (Outside × AccountOperation)) :
    Sound (performAll operations w) := by
  induction operations generalizing w with
  | nil => exact h
  | cons step rest ih => exact ih ((h.withOutside step.1).perform step.2)

end Runs

/-- However its operations fail, a run keeps every account secret under a row, and a wipe at
the end of it that reports success leaves nothing. -/
theorem performAll_secrets_backed {start : World} (hstart : Sound start)
    (operations : List (Outside × AccountOperation)) :
    SecretsBacked (performAll operations start) ∧
    ∀ outside w', wipeAllData { performAll operations start with outside } = (.ok (), w') →
      w'.db = Db.empty ∧ NoSecrets w' ∧ NoClientSecret w' := by
  have h := hstart.performAll operations
  exact ⟨h.backed, fun outside _ hwipe => wipeAllData_eq_ok (h.withOutside outside) hwipe⟩

section Example

def freshWorld : World where
  db := Db.empty
  keyring _ := none
  tokenCache := []
  journal := []
  outside := {}

theorem freshWorld_sound : Sound freshWorld where
  wellFormed := Db.wellFormed_empty
  backed _ hid := absurd rfl hid

def exampleOperations : List (Outside × AccountOperation) :=
  [({ uuids := [.ending '1'], imap := [exampleSession] },
      .linkImapAccount "me@example.com" "abcd efgh" "imap.example.com" 993),
    ({ dbFaults := [some "disk I/O error"] }, .deleteAccount (.ending '1'))]

theorem performAll_secrets_backed_example :
    (performAll exampleOperations freshWorld).db.linkedAccounts.length = 1 ∧
    SecretsBacked (performAll exampleOperations freshWorld) ∧
    ∀ outside w', wipeAllData { performAll exampleOperations freshWorld with outside } = (.ok (), w') →
      w'.db = Db.empty ∧ NoSecrets w' ∧ NoClientSecret w' :=
  ⟨rfl, performAll_secrets_backed freshWorld_sound exampleOperations⟩

end Example

end Fumiko.EmailCore
