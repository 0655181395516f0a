import Fumiko.EmailCore.Interleaving

namespace Fumiko.EmailCore.Flight

open Fumiko.Common Fumiko.Foundation Fumiko.Foundation.Action Fumiko.Net Fumiko.OAuth
  Fumiko.Program Fumiko.Storage

def Careful (f : Flight) (w : World) : Prop := ∀ account, f.Dooms account → w.keyring account.text = none

section Steps

variable {ε α : Type} {f : Flight} {w w' : World}

theorem Careful.of_shrinks (h : Careful f w) (hshrinks : Shrinks w w') : Careful f w' :=
  fun account hdooms => hshrinks _ (h account hdooms)

theorem careful_of_not_dooms (h : ∀ account, ¬f.Dooms account) : Careful f w :=
  fun account hdooms => absurd hdooms (h account)

theorem careful_finished : Careful .finished w := careful_of_not_dooms fun _ => id

structure Kept (w : World) (g : Flight) (w' : World) : Prop where
  backed : SecretsBacked w'
  careful : Careful g w'
  shrinks : Shrinks w w'

theorem kept_next {outcome : Except ε α × World} {g : α → Flight}
    (hbacked : SecretsBacked outcome.2) (hshrinks : Shrinks w outcome.2)
    (hcareful : ∀ a w', outcome = (.ok a, w') → Careful (g a) w') :
    Kept w (next outcome g).1 (next outcome g).2 := by
  rcases outcome with ⟨e | a, w'⟩
  · exact ⟨hbacked, careful_finished, hshrinks⟩
  · exact ⟨hbacked, hcareful a w' rfl, hshrinks⟩

def Harmless (w w' : World) : Prop :=
  (∀ account, HasRow account w.db → HasRow account w'.db) ∧ Shrinks w w'

instance : Std.Refl Harmless := ⟨fun _ => ⟨fun _ => id, Std.Refl.refl _⟩⟩

instance : IsTrans World Harmless where
  trans _ _ _ h₁ h₂ := ⟨fun account h => h₂.1 account (h₁.1 account h), IsTrans.trans _ _ _ h₁.2 h₂.2⟩

theorem Harmless.backed (h : Harmless w w') (hw : SecretsBacked w) : SecretsBacked w' := by
  intro account hsecret
  apply h.1
  apply hw
  intro hnone
  exact hsecret (h.2 _ hnone)

theorem harmless_of_calm (h : World.Calm w w') : Harmless w w' := by
  refine ⟨fun account hrow => h.db.symm ▸ hrow, ?_⟩
  intro key hkey
  rw [h.keyring, hkey]

theorem harmless_deleteSecret (key : String) : Moves Harmless (deleteSecret key) := by
  apply moves_deleteSecret
  · exact fun _ => ⟨fun _ => id, fun _ => id⟩
  · intro w
    refine ⟨fun _ => id, ?_⟩
    intro other h
    simp only [World.withSecret]
    split
    · rfl
    · exact h

theorem harmless_wipeKeyring (accounts : List LinkedAccount) : Moves Harmless (wipeKeyring accounts) :=
  moves_bind (moves_forEach (fun _ => harmless_deleteSecret _) _) fun _ => harmless_deleteSecret _

theorem harmless_register (row : Uuid → Int → LinkedAccount) : Moves Harmless (register row) := by
  constructor
  intro w
  rw [register_run]
  refine (moves_statement (R := Harmless) (fun _ => ⟨fun _ => id, fun _ => id⟩) ?_).run w.stamped
  intro w inserted db hinsert
  refine ⟨?_, fun _ => id⟩
  intro account ⟨a, ha, hrow⟩
  rw [Db.insertAccount] at hinsert
  split at hinsert
  · cases hinsert
  · cases hinsert
    exact ⟨a, List.mem_append_left _ ha, hrow⟩

theorem harmless_deleteSetting (key : String) : Moves Harmless (deleteSetting key) :=
  moves_statement (fun _ => ⟨fun _ => id, fun _ => id⟩) fun w u db heq => by
    cases heq
    exact ⟨fun _ => id, fun _ => id⟩

theorem kept_harmless {x : Program ε α} {g : α → Flight} (hx : Moves Harmless x)
    (hw : SecretsBacked w) (hcareful : ∀ a w', x w = (.ok a, w') → Careful (g a) w') :
    Kept w (next (x w) g).1 (next (x w) g).2 :=
  kept_next ((hx.run w).backed hw) (hx.run w).2 hcareful

theorem backed_deleteRow {account : Uuid} (hw : SecretsBacked w) (hnone : w.keyring account.text = none) :
    SecretsBacked (statement (Db.deleteAccountRow account) w).2 := by
  rw [statement_run]
  cases w.dbFault with
  | some text => exact hw
  | none =>
    rcases hdelete : w.db.deleteAccountRow account with e | ⟨u, db⟩
    · exact hw
    · exact backed_deleteAccountRow (w := w.afterDbCall) hw hnone hdelete

theorem truncateTables_keyring (w : World) : (truncateTables w).2.keyring = w.keyring := by
  obtain ⟨w₁, hcalm, ⟨e, hfailed⟩ | hdone⟩ := truncateTables_cases w
  · rw [hfailed]
    exact hcalm.keyring
  · rw [hdone]
    exact hcalm.keyring

theorem backed_withSecret {account : Uuid} {secret : String} (hw : SecretsBacked w)
    (hrow : HasRow account w.db) : SecretsBacked (w.withSecret account.text (some secret)) := by
  intro other hother
  by_cases heq : other.text = account.text
  · exact uuid_eq_of_text heq ▸ hrow
  · apply hw other
    simpa [World.withSecret, heq] using hother

theorem careful_withSecret {account : Uuid} {secret : String} (hf : Careful f w)
    (hsafe : ¬f.Dooms account) : Careful f (w.withSecret account.text (some secret)) := by
  intro other hdooms
  have hne : other.text ≠ account.text := fun heq => hsafe (uuid_eq_of_text heq ▸ hdooms)
  simpa [World.withSecret, hne] using hf other hdooms

theorem save_step {account : Uuid} (secret : String) {others : List Flight} (hw : SecretsBacked w)
    (hothers : ∀ g ∈ others, Careful g w)
    (hsafe : w.keyringSetFault = none → HasRow account w.db ∧ ∀ g ∈ others, ¬g.Dooms account) :
    SecretsBacked (saveAccountSecret account secret w).2 ∧
      ∀ g ∈ others, Careful g (saveAccountSecret account secret w).2 := by
  rw [saveAccountSecret, setSecret_run]
  cases hfault : w.keyringSetFault with
  | some text => exact ⟨hw, hothers⟩
  | none =>
    obtain ⟨hrow, hdooms⟩ := hsafe hfault
    exact ⟨backed_withSecret (w := w.afterKeyringSet) hw hrow,
      fun g hg => careful_withSecret (w := w.afterKeyringSet) (hothers g hg) (hdooms g hg)⟩

end Steps

section Resume

variable {w : World}

theorem kept_deleteSecret (hw : SecretsBacked w) (account : Uuid) :
    Kept w (next (deleteAccountSecret account w) fun _ => .deletingRow account).1
      (next (deleteAccountSecret account w) fun _ => .deletingRow account).2 := by
  apply kept_harmless (harmless_deleteSecret _) hw
  intro u w' hdelete other hdooms
  cases hdooms
  exact (deleteSecret_eq_ok hdelete).1

theorem kept_listing (hw : SecretsBacked w) :
    Kept w (resume .listing w).1 (resume .listing w).2 := by
  have hlist : Moves World.Calm listAccounts := calm_query _
  apply kept_harmless (hlist.mono fun _ _ => harmless_of_calm) hw
  intro accounts w' heq account hdooms
  by_contra hsecret
  have hcalm := hlist.of_eq heq
  rw [hcalm.keyring] at hsecret
  obtain ⟨a, ha, hrow⟩ := hw account hsecret
  exact hdooms a (mem_listAccounts heq ha) hrow

theorem kept_wipingSecrets {accounts : List LinkedAccount} (hw : SecretsBacked w)
    (hcareful : Careful (.wipingSecrets accounts) w) :
    Kept w (resume (.wipingSecrets accounts) w).1 (resume (.wipingSecrets accounts) w).2 := by
  apply kept_harmless (harmless_wipeKeyring _) hw
  intro u w' heq account _
  obtain ⟨u₁, w₁, hdelete, hclient⟩ := bind_eq_ok.mp heq
  have hshrinks : Shrinks w₁ w' := ((harmless_deleteSecret _).of_eq hclient).2
  have hshrinks₁ : Shrinks w w₁ :=
    ((moves_forEach (fun a : LinkedAccount => harmless_deleteSecret a.id.text) accounts).of_eq hdelete).2
  apply hshrinks
  by_cases hlisted : ∃ a ∈ accounts, a.id = account
  · obtain ⟨a, ha, rfl⟩ := hlisted
    exact deleteSecrets_eq_ok hdelete a ha
  · apply hshrinks₁
    apply hcareful
    intro a ha heq
    exact hlisted ⟨a, ha, heq⟩

theorem kept_clearing {keys : List String} (hw : SecretsBacked w) (hcareful : Careful (.clearing keys) w) :
    Kept w (resume (.clearing keys) w).1 (resume (.clearing keys) w).2 := by
  have hnone (account : Uuid) : w.keyring account.text = none := hcareful account trivial
  cases keys with
  | cons key keys =>
    apply kept_harmless (harmless_deleteSetting key) hw
    intro u w' heq account _
    exact ((harmless_deleteSetting key).of_eq heq).2 _ (hnone account)
  | nil =>
    have hkeyring := truncateTables_keyring w
    apply kept_next
    · intro account hsecret
      rw [hkeyring] at hsecret
      exact absurd (hnone account) hsecret
    · intro key hkey
      rw [hkeyring, hkey]
    · intro u w' _
      exact careful_of_not_dooms fun _ => id

theorem kept_readingSecret (hw : SecretsBacked w) (account : LinkedAccount) :
    Kept w (resume (.readingSecret account) w).1 (resume (.readingSecret account) w).2 := by
  apply kept_harmless ((calm_accountSecret _).mono fun _ _ => harmless_of_calm) hw
  intro secret w' _
  split <;> exact careful_of_not_dooms fun _ => id

theorem kept_inserting (hw : SecretsBacked w) (row : Uuid → Int → LinkedAccount) (secret : String) :
    Kept w (resume (.inserting row secret) w).1 (resume (.inserting row secret) w).2 :=
  kept_harmless (harmless_register row) hw fun _ _ _ => careful_of_not_dooms fun _ => id

theorem kept_deletingRow {account : Uuid} (hw : SecretsBacked w)
    (hcareful : Careful (.deletingRow account) w) :
    Kept w (resume (.deletingRow account) w).1 (resume (.deletingRow account) w).2 := by
  have hshrinks : Moves Shrinks (statement (Db.deleteAccountRow account)) :=
    moves_statement (fun _ _ => id) fun _ _ _ _ _ => id
  apply kept_next (backed_deleteRow hw (hcareful account rfl)) (hshrinks.run w)
  · intro u w' _
    exact careful_finished

abbrev AllKept (others : List Flight) (g : Flight) (w' : World) : Prop :=
  SecretsBacked w' ∧ Careful g w' ∧ ∀ u ∈ others, Careful u w'

theorem Kept.all {others : List Flight} {g : Flight} {w' : World} (h : Kept w g w')
    (hothers : ∀ u ∈ others, Careful u w) : AllKept others g w' :=
  ⟨h.backed, h.careful, fun u hu => (hothers u hu).of_shrinks h.shrinks⟩

theorem allKept_saving {account : Uuid} {secret : String} {others : List Flight}
    (hw : SecretsBacked w) (hothers : ∀ u ∈ others, Careful u w)
    (hsafe : Safe w (.saving account secret) others) :
    AllKept others (resume (.saving account secret) w).1 (resume (.saving account secret) w).2 := by
  obtain ⟨hbacked, hcareful⟩ := save_step secret hw hothers fun hfault =>
    hsafe account ⟨rfl, hfault⟩
  rw [resume]
  rcases hsave : saveAccountSecret account secret w with ⟨e | u, w₁⟩ <;> rw [hsave] at hbacked hcareful
  · exact (kept_deleteSecret hbacked account).all hcareful
  · exact ⟨hbacked, careful_finished, hcareful⟩

theorem allKept_rotating {account : Uuid} {refreshToken : String} {tokens : TokenSet}
    {others : List Flight} (hw : SecretsBacked w) (hothers : ∀ u ∈ others, Careful u w)
    (hsafe : Safe w (.rotating account refreshToken tokens) others) :
    AllKept others (resume (.rotating account refreshToken tokens) w).1
      (resume (.rotating account refreshToken tokens) w).2 := by
  have hpersist : SecretsBacked (persistRotation account refreshToken tokens w).2 ∧
      ∀ u ∈ others, Careful u (persistRotation account refreshToken tokens w).2 := by
    rw [persistRotation]
    cases htoken : tokens.refreshToken with
    | none => exact ⟨hw, hothers⟩
    | some newRefreshToken =>
      dsimp only
      split
      · next hnew =>
        rw [mapError_state]
        exact save_step newRefreshToken hw hothers fun hfault =>
          hsafe account ⟨rfl, hfault, newRefreshToken, htoken, hnew⟩
      · exact ⟨hw, hothers⟩
  rw [resume]
  rcases hrotate : persistRotation account refreshToken tokens w with ⟨e | u, w₁⟩ <;>
    rw [hrotate] at hpersist <;> exact ⟨hpersist.1, careful_finished, hpersist.2⟩

theorem allKept_step {f g : Flight} {w' : World} {others : List Flight} (hstep : Step f w g w')
    (hsafe : Safe w f others) (hw : SecretsBacked w) (hf : Careful f w)
    (hothers : ∀ u ∈ others, Careful u w) : AllKept others g w' := by
  cases hstep with
  | resume =>
    cases f with
    | authorizing => exact ⟨hw, hf, hothers⟩
    | inserting row secret => exact (kept_inserting hw row secret).all hothers
    | saving account secret => exact allKept_saving hw hothers hsafe
    | deletingSecret account => exact (kept_deleteSecret hw account).all hothers
    | deletingRow account => exact (kept_deletingRow hw hf).all hothers
    | listing => exact (kept_listing hw).all hothers
    | wipingSecrets accounts => exact (kept_wipingSecrets hw hf).all hothers
    | clearing settings => exact (kept_clearing hw hf).all hothers
    | closing => exact ⟨hw, hf, hothers⟩
    | readingSecret account => exact (kept_readingSecret hw account).all hothers
    | refreshing account refreshToken => exact ⟨hw, hf, hothers⟩
    | rotating account refreshToken tokens => exact allKept_rotating hw hothers hsafe
    | finished => exact ⟨hw, hf, hothers⟩
  | reads hreads hcalm =>
    have hharmless := harmless_of_calm hcalm
    refine ⟨hharmless.backed hw, ?_, fun u hu => (hothers u hu).of_shrinks hharmless.2⟩
    cases hreads <;> exact careful_of_not_dooms fun _ => id

end Resume

section Alone

variable {ε δ α β : Type} {f : Flight} {w w' : World}

theorem alone_resume (f : Flight) (w : World) : Pool.Alone rules (f, w) (f.resume w) :=
  .single (Step.resume f w)

theorem alone_next {x : Program ε α} {k : α → Program ε β} {g : α → Flight}
    (hg : ∀ a w, Pool.Alone rules (g a, w) (.finished, (k a w).2)) :
    Pool.Alone rules (next (x w) g) (.finished, ((x >>= k) w).2) := by
  rw [bind_run]
  rcases x w with ⟨e | a, w₁⟩
  · exact .refl
  · exact hg a w₁

theorem alone_bind {x : Program ε α} {k : α → Program ε β} {g : α → Flight}
    (hf : f.resume w = next (x w) g)
    (hg : ∀ a w, Pool.Alone rules (g a, w) (.finished, (k a w).2)) :
    Pool.Alone rules (f, w) (.finished, ((x >>= k) w).2) := by
  have hstep := alone_resume f w
  rw [hf] at hstep
  exact hstep.trans (alone_next hg)

theorem alone_last {x : Program ε α} (hf : f.resume w = next (x w) fun _ => .finished) :
    Pool.Alone rules (f, w) (.finished, (x w).2) := by
  have hstep := alone_resume f w
  rw [hf] at hstep
  rcases hx : x w with ⟨e | a, w₁⟩ <;> rw [hx] at hstep <;> exact hstep

theorem alone_closing {x : Program ε α} (hx : Moves World.Calm x) (w : World) :
    Pool.Alone rules (.closing, w) (.finished, (x w).2) :=
  .single (Step.reads .closed (hx.run w))

theorem next_mapError (e : ε → δ) (x : Program ε α) (g : α → Flight) (w : World) :
    next (mapError e x w) g = next (x w) g := by
  rw [mapError]
  rcases x w with ⟨e | a, w₁⟩ <;> rfl

theorem alone_deleteAccount (account : Uuid) (w : World) :
    Pool.Alone rules (.deletingSecret account, w) (.finished, (deleteAccount account w).2) :=
  alone_bind rfl fun _ _ => alone_last rfl

theorem alone_commitSecret (account : Uuid) (secret : String) (w : World) :
    Pool.Alone rules (.saving account secret, w) (.finished, (commitSecret account secret w).2) := by
  have hstep := alone_resume (.saving account secret) w
  rw [resume] at hstep
  rw [commitSecret, bind_run, attempt_run]
  rcases hsave : saveAccountSecret account secret w with ⟨e | u, w₁⟩ <;> rw [hsave] at hstep
  · have hrollback : Pool.Alone rules (next (deleteAccountSecret account w₁) fun _ => .deletingRow account)
        (.finished, (deleteAccount account w₁).2) :=
      alone_next fun _ _ => alone_last rfl
    exact hstep.trans hrollback
  · exact hstep

theorem alone_enroll (text : String) (row : Uuid → Int → LinkedAccount) (secret : String) (w : World) :
    Pool.Alone rules (.inserting row secret, w) (.finished, (enroll text row secret w).2) :=
  alone_bind (next_mapError _ _ _ _).symm fun account w => alone_commitSecret account secret w

theorem alone_reads {x : Program ε α} {k : α → Program ε β} {g : α → Flight}
    (hx : Moves World.Calm x) (hrefused : Reads f .finished) (hreads : ∀ a, Reads f (g a))
    (hg : ∀ a w, Pool.Alone rules (g a, w) (.finished, (k a w).2)) :
    Pool.Alone rules (f, w) (.finished, ((x >>= k) w).2) := by
  rw [bind_run]
  rcases h : x w with ⟨e | a, w₁⟩
  · exact .single (Step.reads hrefused (hx.of_eq h))
  · exact .head (Step.reads (hreads a) (hx.of_eq h)) (hg a w₁)

theorem alone_linkAccountWithConfig (config : LinkConfig) {provider : EmailProvider}
    (hremote : provider.Remote) (w : World) :
    Pool.Alone rules (.authorizing, w) (.finished, (linkAccountWithConfig config provider w).2) := by
  rw [linkAccountWithConfig_eq]
  exact alone_reads (calm_authorize config hremote) .refused (fun _ => .authorized _ _)
    fun _ w => alone_enroll _ _ _ w

theorem alone_linkImapAccount (email password host : String) (port : Nat) (w : World) :
    Pool.Alone rules (.authorizing, w)
      (.finished, (EmailCore.linkImapAccount email password host port w).2) := by
  rw [linkImapAccount_eq]
  exact alone_reads (moves_mapError (imap_remote _ _)) .refused (fun _ => .authorized _ _)
    fun _ w => alone_enroll _ _ _ w

theorem alone_wipeAllData (w : World) :
    Pool.Alone rules (.listing, w) (.finished, (wipeAllData w).2) := by
  have hblocks : wipeAllData = (do
      let accounts ← listAccounts
      wipeKeyring accounts
      deleteSetting SettingKeys.userGoogleClientId
      deleteSetting SettingKeys.userMicrosoftClientId
      truncateTables
      Action.ignore dbCall
      Action.ignore dbCall) := by
    simp only [wipeAllData, wipeKeyring, deleteUserGoogleCredentials, bind_assoc]
    rfl
  rw [hblocks]
  apply alone_bind rfl
  intro accounts w
  apply alone_bind rfl
  intro _ w
  apply alone_bind rfl
  intro _ w
  apply alone_bind rfl
  intro _ w
  apply alone_bind rfl
  intro _ w
  exact alone_closing calm_checkpoint w

theorem alone_getAccessTokenForAccount (bundled : Bundled) (account : LinkedAccount) (w : World) :
    Pool.Alone rules (.readingSecret account, w)
      (.finished, (getAccessTokenForAccount bundled account w).2) := by
  rw [getAccessTokenForAccount]
  split
  · next himap =>
    apply alone_bind rfl
    intro password w
    rw [if_pos himap]
    exact alone_closing (moves_bind calm_instantNow fun _ => moves_pure _) w
  · next hoauth =>
    apply alone_bind rfl
    intro refreshToken w
    rw [if_neg hoauth]
    apply alone_reads (calm_requestTokens bundled account refreshToken) (.unrefreshed _ _)
      (.refreshed _ _)
    intro tokens w
    apply alone_bind rfl
    intro _ w
    exact .refl

theorem alone_perform (operation : AccountOperation) (w : World) :
    ∃ f, Start f ∧ Pool.Alone rules (f, w) (.finished, operation.perform w) := by
  cases operation with
  | linkAccount config provider remote =>
    exact ⟨_, .link, alone_linkAccountWithConfig config remote w⟩
  | linkImapAccount email password host port =>
    exact ⟨_, .link, alone_linkImapAccount email password host port w⟩
  | deleteAccount account => exact ⟨_, .deleteAccount account, alone_deleteAccount account w⟩
  | getAccessToken bundled account =>
    exact ⟨_, .getAccessToken account, alone_getAccessTokenForAccount bundled account w⟩
  | wipeAllData => exact ⟨_, .wipeAllData, alone_wipeAllData w⟩

end Alone

section Runs

theorem holds_of_safe_run {start : World} (hstart : SecretsBacked start) {pool : Pool World Flight}
    (hrun : Pool.Run rules Safe ⟨start, []⟩ pool) : pool.Holds SecretsBacked Careful := by
  apply Pool.Holds.run _ _ _ hrun ⟨hstart, fun _ h => absurd h List.not_mem_nil⟩
  · intro f w h
    cases h <;> exact careful_of_not_dooms fun _ => id
  · intro f w g w' others hstep hsafe hw hf hothers
    exact allKept_step hstep hsafe hw hf hothers
  · rintro w _ ⟨outside, rfl⟩ hw
    exact ⟨hw, fun _ h => h⟩

/-- A run that only writes secrets of accounts that stay orphans none, whichever operations
are still in flight. -/
theorem safe_run_secrets_backed {start : World} (hstart : SecretsBacked start)
    {pool : Pool World Flight} (hrun : Pool.Run rules Safe ⟨start, []⟩ pool) :
    SecretsBacked pool.shared :=
  (holds_of_safe_run hstart hrun).shared

end Runs

section Example

def linkedAccount : LinkedAccount where
  id := .ending '1'
  provider := .gmail
  emailAddress := "me@gmail.com"
  displayName := none
  syncCursor := none
  lastSyncedAt := none
  lastSyncError := none
  createdAt := 0
  imapHost := none
  imapPort := none

def linkedWorld : World where
  db := { Db.empty with linkedAccounts := [linkedAccount] }
  keyring key := if key = (Uuid.ending '1').text then some "old" else none
  tokenCache := []
  journal := []
  outside := {}

theorem linkedWorld_backed : SecretsBacked linkedWorld := by
  intro account hsecret
  by_cases heq : account.text = (Uuid.ending '1').text
  · exact ⟨linkedAccount, List.mem_cons_self, (uuid_eq_of_text heq).symm⟩
  · exact absurd (if_neg heq) hsecret

def rotated : TokenSet where
  accessToken := "access"
  refreshToken := some "new"
  expiresAt := 0

def deletedWorld : World :=
  (resume (.deletingRow (.ending '1')) (resume (.deletingSecret (.ending '1')) linkedWorld).2).2

def orphanedWorld : World := (resume (.rotating (.ending '1') "old" rotated) deletedWorld).2

theorem orphaning_run {guard : World → Flight → List Flight → Prop} (hguard : ∀ w f fs, guard w f fs) :
    Pool.Run rules guard ⟨linkedWorld, []⟩ ⟨orphanedWorld, [.finished, .finished]⟩ := by
  have hread : Pool.Turn rules guard ⟨linkedWorld, [.readingSecret linkedAccount]⟩
      ⟨linkedWorld, [.refreshing (.ending '1') "old"]⟩ :=
    .step [] [] (Step.resume (.readingSecret linkedAccount) linkedWorld) (hguard _ _ _)
  have hsecret : Pool.Turn rules guard
      ⟨linkedWorld, [.deletingSecret (.ending '1'), .refreshing (.ending '1') "old"]⟩
      ⟨(resume (.deletingSecret (.ending '1')) linkedWorld).2,
        [.deletingRow (.ending '1'), .refreshing (.ending '1') "old"]⟩ :=
    .step [] _ (Step.resume (.deletingSecret (.ending '1')) linkedWorld) (hguard _ _ _)
  have hrow : Pool.Turn rules guard
      ⟨(resume (.deletingSecret (.ending '1')) linkedWorld).2,
        [.deletingRow (.ending '1'), .refreshing (.ending '1') "old"]⟩
      ⟨deletedWorld, [.finished, .refreshing (.ending '1') "old"]⟩ :=
    .step [] _ (Step.resume (.deletingRow (.ending '1')) _) (hguard _ _ _)
  have hanswer : Pool.Turn rules guard ⟨deletedWorld, [.finished, .refreshing (.ending '1') "old"]⟩
      ⟨deletedWorld, [.finished, .rotating (.ending '1') "old" rotated]⟩ :=
    .step [.finished] [] (Step.reads (.refreshed _ _ rotated) (Std.Refl.refl _)) (hguard _ _ _)
  have hrotate : Pool.Turn rules guard
      ⟨deletedWorld, [.finished, .rotating (.ending '1') "old" rotated]⟩
      ⟨orphanedWorld, [.finished, .finished]⟩ :=
    .step [.finished] [] (Step.resume (.rotating (.ending '1') "old" rotated) _) (hguard _ _ _)
  apply Relation.ReflTransGen.head (.spawn (.getAccessToken linkedAccount))
  apply Relation.ReflTransGen.head hread
  apply Relation.ReflTransGen.head (.spawn (.deleteAccount (.ending '1')))
  apply Relation.ReflTransGen.head hsecret
  apply Relation.ReflTransGen.head hrow
  apply Relation.ReflTransGen.head hanswer
  exact .single hrotate

theorem refresh_orphans_secret : ¬∀ start pool, SecretsBacked start →
    Pool.Run rules (fun _ _ _ => True) ⟨start, []⟩ pool → pool.Quiescent Finished →
      SecretsBacked pool.shared := by
  intro h
  have hbacked := h linkedWorld _ linkedWorld_backed (orphaning_run fun _ _ _ => trivial) (by
    intro f hf
    simp only [List.mem_cons, List.not_mem_nil, or_false, or_self] at hf
    exact hf)
  have hsecret : orphanedWorld.keyring (Uuid.ending '1').text ≠ none := by
    intro hnone
    cases hnone
  obtain ⟨a, ha, _⟩ := hbacked _ hsecret
  cases ha

def rotatedWorld : World := (resume (.rotating (.ending '1') "old" rotated) linkedWorld).2

theorem rotating_run : Pool.Run rules Safe ⟨linkedWorld, []⟩
    ⟨rotatedWorld, [.deletingSecret (.ending '1'), .finished]⟩ := by
  have hread : Pool.Turn rules Safe ⟨linkedWorld, [.readingSecret linkedAccount]⟩
      ⟨linkedWorld, [.refreshing (.ending '1') "old"]⟩ :=
    .step [] [] (Step.resume (.readingSecret linkedAccount) linkedWorld) fun _ h => h.elim
  have hanswer : Pool.Turn rules Safe ⟨linkedWorld, [.refreshing (.ending '1') "old"]⟩
      ⟨linkedWorld, [.rotating (.ending '1') "old" rotated]⟩ :=
    .step [] [] (Step.reads (.refreshed _ _ rotated) (Std.Refl.refl _)) fun _ h => h.elim
  have hsafe : Safe linkedWorld (.rotating (.ending '1') "old" rotated) [] := by
    rintro account ⟨rfl, _⟩
    exact ⟨⟨linkedAccount, List.mem_cons_self, rfl⟩, fun _ h => absurd h List.not_mem_nil⟩
  have hrotate : Pool.Turn rules Safe ⟨linkedWorld, [.rotating (.ending '1') "old" rotated]⟩
      ⟨rotatedWorld, [.finished]⟩ :=
    .step [] [] (Step.resume (.rotating (.ending '1') "old" rotated) _) hsafe
  apply Relation.ReflTransGen.head (.spawn (.getAccessToken linkedAccount))
  apply Relation.ReflTransGen.head hread
  apply Relation.ReflTransGen.head hanswer
  apply Relation.ReflTransGen.head hrotate
  exact .single (.spawn (.deleteAccount (.ending '1')))

theorem safe_run_secrets_backed_example :
    rotatedWorld.keyring (Uuid.ending '1').text = some "new" ∧ SecretsBacked rotatedWorld :=
  ⟨rfl, safe_run_secrets_backed linkedWorld_backed rotating_run⟩

end Example

end Fumiko.EmailCore.Flight
