import Fumiko.EmailCore.IsolationLaws
import Fumiko.Foundation.Lockstep
import Fumiko.Storage.RenamingLaws

namespace Fumiko.EmailCore

open Fumiko.Common Fumiko.Foundation Fumiko.Foundation.Action Fumiko.Net Fumiko.OAuth
  Fumiko.Program Fumiko.Storage

def answers (o : Outside) : Outside :=
  { o with
    clock := []
    instants := []
    uuids := []
    ranking := Ranking.stable Prod.snd
    keyringDeleteFaults := []
    signIns := [] }

def FetchesDated (session : ImapSession) : Prop :=
  ∀ ids fetches, session.fetch ids = .ok fetches → ∀ f ∈ fetches, (f.headers.bind (·.date)).isSome

structure Dated (o : Outside) : Prop where
  gmail : ∀ m ∈ o.gmail, ∀ id url r, (m.message id).json url = .ok r →
    (Decimal.parseI64 r.internalDate).isSome
  outlook : ∀ m ∈ o.outlook, ∀ id url r, (m.message id).json url = .ok r →
    (r.receivedDateTime.bind o.parseRfc3339).isSome
  imap : ∀ session ∈ o.imap, FetchesDated session

theorem Dated.of_eq {o o' : Outside} (h : Dated o) (hgmail : o'.gmail = o.gmail)
    (houtlook : o'.outlook = o.outlook) (himap : o'.imap = o.imap)
    (hparse : o'.parseRfc3339 = o.parseRfc3339) : Dated o' := by
  constructor
  · rw [hgmail]
    exact h.gmail
  · rw [houtlook, hparse]
    exact h.outlook
  · rw [himap]
    exact h.imap

structure Free (account : Uuid) (w₀ : World) (id : Uuid) : Prop where
  own : Own account w₀ id
  classification : ∀ c ∈ (w₀.db.rowsOf (others account)).classifications, c.id ≠ id

def Unused (account : Uuid) (w₀ : World) (uuids : List Uuid) : Prop :=
  ∀ id ∈ noUuid :: uuids, Free account w₀ id

/-- Two runs over one account: where they start, how the ids of the first are named in the
second, and whether the clock reads the same in both. -/
structure Trial where
  account : Uuid
  start : World
  start' : World
  rename : Uuid → Uuid
  injective : Function.Injective rename
  rename_noUuid : rename noUuid = noUuid
  sameClock : Prop

structure Trial.Twins (t : Trial) (w w' : World) : Prop where
  isolated : Isolated t.account t.start w
  isolated' : Isolated t.account t.start' w'
  seen : w'.db.seen t.account id = w.db.seen t.account t.rename
  secret : w'.keyring t.account.text = w.keyring t.account.text
  clientSecret : w'.keyring KeyringKeys.userGoogleClientSecret = w.keyring KeyringKeys.userGoogleClientSecret
  token : (w'.tokenCache.find? (·.1 = t.account)).map (·.2.1) =
    (w.tokenCache.find? (·.1 = t.account)).map (·.2.1)
  answers : answers w'.outside = answers w.outside
  uuids : w'.outside.uuids = w.outside.uuids.map t.rename
  unused : Unused t.account t.start w.outside.uuids
  unused' : Unused t.account t.start' w'.outside.uuids
  ties : Db.TiesAlike t.rename w.outside.ranking w'.outside.ranking
  clock : t.sameClock → w'.outside.clock = w.outside.clock
  dated : ¬t.sameClock → Dated w.outside

section Primitives

variable {ε α β : Type} {t : Trial} {w w' : World}

theorem Trial.Twins.record (h : t.Twins w w') (e e' : Event) : t.Twins (w.record e) (w'.record e') where
  __ := h
  isolated := isolated_admits e w h.isolated
  isolated' := isolated_admits e' w' h.isolated'

theorem twins_log (e e' : Event) : Lockstep t.Twins Eq (log e : Program ε Unit) (log e') :=
  lockstep_update fun _ _ h => h.record e e'

theorem Trial.Twins.shared (h : t.Twins w w') {g : Outside → α}
    (hg : ∀ o, g (EmailCore.answers o) = g o) : g w'.outside = g w.outside := by
  rw [← hg, h.answers, hg]

structure Spends (f : Outside → Outside) : Prop where
  answers : ∀ o, EmailCore.answers (f (EmailCore.answers o)) = EmailCore.answers (f o) := by intro o; rfl
  uuids : ∀ o, (f o).uuids = o.uuids := by intro o; rfl
  clock : ∀ o, (f o).clock = o.clock := by intro o; rfl
  ranking : ∀ o, (f o).ranking = o.ranking := by intro o; rfl
  dated : ∀ o, Dated o → Dated (f o) := by intro o h; exact h.of_eq rfl rfl rfl rfl

theorem Trial.Twins.withOutside (h : t.Twins w w') {o o' : Outside}
    (hanswers : EmailCore.answers o' = EmailCore.answers o) (huuids : o'.uuids = o.uuids.map t.rename)
    (hunused : Unused t.account t.start o.uuids) (hunused' : Unused t.account t.start' o'.uuids)
    (hties : Db.TiesAlike t.rename o.ranking o'.ranking) (hclock : t.sameClock → o'.clock = o.clock)
    (hdated : ¬t.sameClock → Dated o) :
    t.Twins { w with outside := o } { w' with outside := o' } where
  isolated := ⟨h.isolated.keyed, h.isolated.rows, h.isolated.keyring, h.isolated.tokenCache⟩
  isolated' := ⟨h.isolated'.keyed, h.isolated'.rows, h.isolated'.keyring, h.isolated'.tokenCache⟩
  seen := h.seen
  secret := h.secret
  clientSecret := h.clientSecret
  token := h.token
  answers := hanswers
  uuids := huuids
  unused := hunused
  unused' := hunused'
  ties := hties
  clock := hclock
  dated := hdated

theorem Trial.Twins.spend {f : Outside → Outside} (hspend : Spends f) (h : t.Twins w w') :
    t.Twins { w with outside := f w.outside } { w' with outside := f w'.outside } := by
  apply h.withOutside
  · rw [← hspend.answers, h.answers, hspend.answers]
  · rw [hspend.uuids, hspend.uuids, h.uuids]
  · exact (hspend.uuids _).symm ▸ h.unused
  · exact (hspend.uuids _).symm ▸ h.unused'
  · rw [hspend.ranking, hspend.ranking]
    exact h.ties
  · intro hsame
    rw [hspend.clock, hspend.clock, h.clock hsame]
  · exact fun hsame => hspend.dated _ (h.dated hsame)

theorem uniform_spend {g : Outside → Except ε α} {f : Outside → Outside} (hspend : Spends f)
    (hg : ∀ o, g (EmailCore.answers o) = g o) :
    Uniform t.Twins (fun w => (g w.outside, { w with outside := f w.outside }) : Program ε α) := by
  constructor
  intro w w' h
  refine ⟨?_, h.spend hspend⟩
  rw [h.shared hg]
  exact outcomes_refl _

theorem spends_dbCall : Spends fun o => { o with dbFaults := o.dbFaults.tail } := {}

theorem Trial.Twins.dbFault (h : t.Twins w w') : w'.dbFault = w.dbFault :=
  h.shared (g := fun o => o.dbFaults.head?.join) fun _ => rfl

theorem Trial.Twins.afterDbCall (h : t.Twins w w') : t.Twins w.afterDbCall w'.afterDbCall :=
  h.spend spends_dbCall

theorem uniform_query {f : Db → α} (hf : ∀ w w', t.Twins w w' → f w'.db = f w.db) :
    Uniform t.Twins (query f) := by
  constructor
  intro w w' h
  rw [query_run, query_run, h.dbFault, hf w w' h]
  cases w.dbFault with
  | some text => exact ⟨outcomes_refl _, h.afterDbCall⟩
  | none => exact ⟨outcomes_refl _, h.afterDbCall⟩

theorem lockstep_statement {f : Db → Except StorageError (α × Db)} {g : Db → Except StorageError (β × Db)}
    {Q : α → β → Prop} (hf : Moves (Preserves (Isolated t.account t.start)) (statement f))
    (hg : Moves (Preserves (Isolated t.account t.start')) (statement g))
    (h : ∀ w w', t.Twins w w' → Outcomes (fun a b => Q a.1 b.1 ∧
      b.2.seen t.account id = a.2.seen t.account t.rename) (f w.db) (g w'.db)) :
    Lockstep t.Twins Q (statement f) (statement g) := by
  constructor
  intro w w' hw
  have hisolated := hf.run w hw.isolated
  have hisolated' := hg.run w' hw.isolated'
  have hstep := h w w' hw
  have hcall := hw.afterDbCall
  rw [statement_run] at hisolated hisolated' ⊢
  rw [statement_run, hw.dbFault]
  rw [hw.dbFault] at hisolated'
  cases hfault : w.dbFault with
  | some text => exact ⟨.error _, hcall⟩
  | none =>
    simp only [hfault] at hisolated hisolated'
    dsimp only
    cases hfw : f w.db with
    | error e =>
      rw [hfw] at hstep
      generalize g w'.db = r at hstep ⊢
      cases hstep
      exact ⟨.error e, hcall⟩
    | ok a =>
      rw [hfw] at hstep hisolated
      generalize g w'.db = r at hstep hisolated' ⊢
      cases hstep with
      | ok hab => exact ⟨.ok hab.1, { hcall with isolated := hisolated, isolated' := hisolated', seen := hab.2 }⟩

theorem lockstep_execute {f g F : Db → Db} (hf : Moves (Preserves (Isolated t.account t.start)) (execute f))
    (hg : Moves (Preserves (Isolated t.account t.start')) (execute g))
    (hfF : ∀ db, (f db).seen t.account t.rename = F (db.seen t.account t.rename))
    (hgF : ∀ db, (g db).seen t.account id = F (db.seen t.account id)) :
    Lockstep t.Twins Eq (execute f) (execute g) := by
  apply lockstep_statement hf hg
  intro w w' h
  refine .ok ⟨rfl, ?_⟩
  rw [hfF, hgF, h.seen]

theorem headD_mem (a : α) (l : List α) : l.headD a ∈ a :: l := by
  cases l with
  | nil => exact List.mem_cons_self
  | cons b l => exact List.mem_cons_of_mem _ List.mem_cons_self

theorem Unused.tail {account : Uuid} {w₀ : World} {uuids : List Uuid} (h : Unused account w₀ uuids) :
    Unused account w₀ uuids.tail := by
  intro id hid
  apply h
  cases hid with
  | head => exact List.mem_cons_self
  | tail _ hid => exact List.mem_cons_of_mem _ (List.mem_of_mem_tail hid)

structure Trial.Named (t : Trial) (a b : Uuid) : Prop where
  eq : b = t.rename a
  free : Free t.account t.start a
  free' : Free t.account t.start' b

theorem lockstep_freshUuid : Lockstep t.Twins t.Named (freshUuid : Program ε Uuid) freshUuid := by
  apply lockstep_step
  intro w w' h
  have htail : w'.outside.uuids.tail = w.outside.uuids.tail.map t.rename := by rw [h.uuids, List.map_tail]
  refine ⟨⟨?_, h.unused _ (headD_mem _ _), h.unused' _ (headD_mem _ _)⟩,
    h.withOutside h.answers htail h.unused.tail h.unused'.tail h.ties h.clock
      fun hsame => (h.dated hsame).of_eq rfl rfl rfl rfl⟩
  rw [h.uuids]
  cases w.outside.uuids with
  | nil => exact t.rename_noUuid.symm
  | cons id ids => rfl

theorem lockstep_unixTimestamp :
    Lockstep t.Twins (fun a b => t.sameClock → b = a) (unixTimestamp : Program ε Int) unixTimestamp := by
  apply lockstep_step
  intro w w' h
  exact ⟨fun hsame => by rw [h.clock hsame], h.withOutside h.answers h.uuids h.unused h.unused' h.ties
    (fun hsame => congrArg List.tail (h.clock hsame)) fun hsame => (h.dated hsame).of_eq rfl rfl rfl rfl⟩

theorem lockstep_instantNow :
    Lockstep t.Twins (fun _ _ => True) (instantNow : Program ε Int) instantNow := by
  apply lockstep_step
  intro w w' h
  exact ⟨trivial, h.withOutside h.answers h.uuids h.unused h.unused' h.ties h.clock
    fun hsame => (h.dated hsame).of_eq rfl rfl rfl rfl⟩

theorem uniform_getSecret {key : String} (hkey : ∀ w w', t.Twins w w' → w'.keyring key = w.keyring key) :
    Uniform t.Twins (getSecret key) := by
  constructor
  intro w w' h
  have hfault : w'.keyringGetFault = w.keyringGetFault :=
    h.shared (g := fun o => o.keyringGetFaults.head?.join) fun _ => rfl
  have hcall : t.Twins w.afterKeyringGet w'.afterKeyringGet :=
    h.spend (f := fun o => { o with keyringGetFaults := o.keyringGetFaults.tail }) {}
  rw [getSecret_run, getSecret_run, hfault, hkey w w' h]
  cases w.keyringGetFault with
  | some text => exact ⟨outcomes_refl _, hcall⟩
  | none => exact ⟨outcomes_refl _, hcall⟩

theorem Trial.Twins.settings (h : t.Twins w w') : w'.db.settings = w.db.settings := by
  have hseen := congrArg Db.settings h.seen
  exact hseen

theorem Trial.Twins.watchCriteria (h : t.Twins w w') : w'.db.watchCriteria = w.db.watchCriteria := by
  have hseen := congrArg Db.watchCriteria h.seen
  exact hseen

theorem uniform_getSetting (key : String) : Uniform t.Twins (getSetting key) :=
  uniform_query fun w w' h => by rw [Db.getSetting, Db.getSetting, h.settings]

theorem uniform_settingOrNone (key : String) : Uniform t.Twins (settingOrNone key : Program ε _) := by
  apply uniform_bind (uniform_attempt (uniform_getSetting key))
  intro value
  cases value <;> exact uniform_pure _

end Primitives

section Tokens

variable {ε α : Type} {t : Trial} {w w' : World} {bundled : Bundled} {account : LinkedAccount}

theorem uniform_orElse (e : CredentialError) (a : Option α) : Uniform t.Twins (orElse e a) := by
  cases a with
  | none => exact uniform_raise e
  | some a => exact uniform_pure a

theorem uniform_loadCredentials (provider : OAuthProvider) (clientId clientSecret : Option String) :
    Uniform t.Twins (loadCredentials provider clientId clientSecret) := by
  cases provider with
  | google =>
    have huser : Uniform t.Twins getUserGoogleCredentials := by
      apply uniform_bind (uniform_getSetting _)
      intro clientId
      cases clientId with
      | none => exact uniform_pure _
      | some clientId =>
        apply uniform_bind (uniform_getSecret fun _ _ h => h.clientSecret)
        intro clientSecret
        cases clientSecret <;> exact uniform_pure _
    apply uniform_bind (lockstep_mapError huser)
    intro user
    cases user with
    | some credentials => exact uniform_pure _
    | none =>
      apply uniform_bind (uniform_orElse _ _)
      intro clientId
      apply uniform_bind (uniform_orElse _ _)
      intro clientSecret
      exact uniform_pure _
  | microsoft =>
    apply uniform_bind (lockstep_mapError (uniform_getSetting _))
    intro user
    cases user with
    | some clientId => exact uniform_pure _
    | none =>
      apply uniform_bind (uniform_orElse _ _)
      intro clientId
      exact uniform_pure _

theorem uniform_buildOAuthClient (credentials : RawCredentials) (port : Nat) :
    Uniform t.Twins (buildOAuthClient credentials port) := by
  have hchecked (text : String) : Uniform t.Twins (checkedUrl text) := by
    have hparse : Uniform t.Twins (read fun w => w.outside.parseUrl : Program OAuthError _) :=
      lockstep_read fun _ _ h => (h.shared (g := Outside.parseUrl) fun _ => rfl).symm
    apply uniform_bind hparse
    intro parse
    split
    · exact uniform_pure _
    · exact uniform_raise _
  apply uniform_bind (hchecked _)
  intro authUri
  apply uniform_bind (hchecked _)
  intro tokenUri
  apply uniform_bind (hchecked _)
  intro redirectUrl
  exact uniform_pure _

theorem uniform_nextToken : Uniform t.Twins (nextToken : Program ε (Except String TokenResponse)) :=
  uniform_spend (g := fun o => .ok (o.tokens.headD (.error "connection closed")))
    (f := fun o => { o with tokens := o.tokens.tail }) {} fun _ => rfl

structure SameTokens (tokens tokens' : TokenSet) : Prop where
  access : tokens'.accessToken = tokens.accessToken
  refresh : tokens'.refreshToken = tokens.refreshToken

theorem lockstep_requestTokens (refreshToken : String) :
    Lockstep t.Twins SameTokens (requestTokens bundled account refreshToken)
      (requestTokens bundled account refreshToken) := by
  rw [requestTokens]
  apply lockstep_bind (Q := Eq) (lockstep_mapError ?_) ?_
  · cases account.provider <;> exact uniform_loadCredentials _ _ _
  · rintro credentials _ rfl
    apply lockstep_bind (lockstep_mapError (uniform_buildOAuthClient _ _))
    rintro client _ rfl
    apply lockstep_bind uniform_nextToken
    rintro response _ rfl
    cases response with
    | error text => exact lockstep_raise _
    | ok response =>
      apply lockstep_bind lockstep_instantNow
      intro now now' _
      exact lockstep_pure ⟨rfl, rfl⟩

theorem Trial.Twins.rotated (h : t.Twins w w') (secret : String) :
    t.Twins (w.withSecret t.account.text (some secret)) (w'.withSecret t.account.text (some secret)) where
  __ := h
  isolated := isolated_aside.rotated w secret h.isolated
  isolated' := isolated_aside.rotated w' secret h.isolated'
  secret := by simp [World.withSecret]
  clientSecret := by simp [World.withSecret, h.clientSecret]

theorem uniform_saveAccountSecret (secret : String) : Uniform t.Twins (saveAccountSecret t.account secret) := by
  constructor
  intro w w' h
  have hfault : w'.keyringSetFault = w.keyringSetFault :=
    h.shared (g := fun o => o.keyringSetFaults.head?.join) fun _ => rfl
  have hcall : t.Twins w.afterKeyringSet w'.afterKeyringSet :=
    h.spend (f := fun o => { o with keyringSetFaults := o.keyringSetFaults.tail }) {}
  rw [saveAccountSecret, setSecret_run, setSecret_run, hfault]
  cases w.keyringSetFault with
  | some text => exact ⟨outcomes_refl _, hcall⟩
  | none => exact ⟨outcomes_refl _, hcall.rotated secret⟩

theorem lockstep_getAccessTokenForAccount (haccount : account.id = t.account) :
    Lockstep t.Twins SameTokens (getAccessTokenForAccount bundled account)
      (getAccessTokenForAccount bundled account) := by
  have hsecret : Uniform t.Twins (accountSecret account.id) := by
    apply uniform_bind (lockstep_mapError (uniform_getSecret fun _ _ h => haccount ▸ h.secret))
    intro secret
    cases secret with
    | none => exact uniform_raise _
    | some secret => exact uniform_pure _
  rw [getAccessTokenForAccount]
  split
  · apply lockstep_bind hsecret
    rintro password _ rfl
    apply lockstep_bind lockstep_instantNow
    intro now now' _
    exact lockstep_pure ⟨rfl, rfl⟩
  · apply lockstep_bind hsecret
    rintro refreshToken _ rfl
    apply lockstep_bind (lockstep_requestTokens _)
    intro tokens tokens' hsame
    have hpersist : Lockstep t.Twins Eq (persistRotation account.id refreshToken tokens)
        (persistRotation account.id refreshToken tokens') := by
      rw [persistRotation, persistRotation, hsame.refresh]
      split
      · split
        · exact lockstep_mapError (haccount ▸ uniform_saveAccountSecret _)
        · exact uniform_pure _
      · exact uniform_pure _
    apply lockstep_bind hpersist
    intro _ _ _
    exact lockstep_pure hsame

def TokenGood (account : Uuid) (w : World) : Prop :=
  ∃ entry, w.tokenCache.find? (·.1 = account) = some entry ∧ w.outside.instants.headD 0 < entry.2.2

theorem Trial.Twins.cached (h : t.Twins w w') (token : String) (expiresAt expiresAt' : Int) :
    t.Twins { w with tokenCache := (t.account, token, expiresAt) :: w.tokenCache.filter (·.1 ≠ t.account) }
      { w' with tokenCache := (t.account, token, expiresAt') :: w'.tokenCache.filter (·.1 ≠ t.account) } where
  __ := h
  isolated := isolated_aside.cached w token expiresAt h.isolated
  isolated' := isolated_aside.cached w' token expiresAt' h.isolated'
  token := by simp

theorem cachedToken_none (h : w.tokenCache.find? (·.1 = account.id) = none) :
    cachedToken account.id w = (.ok none, w) := by
  simp only [cachedToken, bind_run, read_run, h]
  rfl

theorem cachedToken_some {entry : Uuid × String × Int}
    (h : w.tokenCache.find? (·.1 = account.id) = some entry) :
    cachedToken account.id w =
      (.ok (if w.outside.instants.headD 0 < entry.2.2 then some entry.2.1 else none),
        { w with outside := { w.outside with instants := w.outside.instants.tail } }) := by
  simp only [cachedToken, bind_run, read_run, h]
  rfl

theorem cachedToken_twins (haccount : account.id = t.account) (h : t.Twins w w')
    (hgood : TokenGood t.account w ↔ TokenGood t.account w') :
    Outcomes Eq (cachedToken account.id w).1 (cachedToken account.id w').1 ∧
      t.Twins (cachedToken account.id w).2 (cachedToken account.id w').2 := by
  have htoken := h.token
  rw [← haccount] at htoken hgood
  cases hfind : w.tokenCache.find? (·.1 = account.id) with
  | none =>
    have hfind' : w'.tokenCache.find? (·.1 = account.id) = none := by simpa [hfind] using htoken
    rw [cachedToken_none hfind, cachedToken_none hfind']
    exact ⟨.ok rfl, h⟩
  | some entry =>
    rw [hfind] at htoken
    obtain ⟨entry', hfind', hsame⟩ := Option.map_eq_some_iff.mp htoken
    rw [cachedToken_some hfind, cachedToken_some hfind', hsame]
    have hiff : w'.outside.instants.headD 0 < entry'.2.2 ↔ w.outside.instants.headD 0 < entry.2.2 := by
      constructor
      · intro hlt
        obtain ⟨_, heq, hgood⟩ := hgood.mpr ⟨entry', hfind', hlt⟩
        cases hfind.symm.trans heq
        exact hgood
      · intro hlt
        obtain ⟨_, heq, hgood⟩ := hgood.mp ⟨entry, hfind, hlt⟩
        cases hfind'.symm.trans heq
        exact hgood
    refine ⟨.ok (by simp only [hiff]), ?_⟩
    exact h.withOutside h.answers h.uuids h.unused h.unused' h.ties h.clock
      fun hsame => (h.dated hsame).of_eq rfl rfl rfl rfl

theorem accessTokenFor_twins (bundled : Bundled) (haccount : account.id = t.account) (h : t.Twins w w')
    (hgood : TokenGood t.account w ↔ TokenGood t.account w') :
    Outcomes Eq (accessTokenFor bundled account w).1 (accessTokenFor bundled account w').1 ∧
      t.Twins (accessTokenFor bundled account w).2 (accessTokenFor bundled account w').2 := by
  apply lockstep_bind_at (cachedToken_twins haccount h hgood)
  rintro token _ rfl
  cases token with
  | some token => exact uniform_pure _
  | none =>
    apply lockstep_bind (lockstep_mapError (lockstep_getAccessTokenForAccount haccount))
    intro tokens tokens' hsame
    apply lockstep_bind lockstep_instantNow
    intro now now' _
    rw [haccount, hsame.access]
    apply lockstep_bind (lockstep_update fun w w' h => h.cached _ _ _)
    intro _ _ _
    exact uniform_pure _

theorem find_filter_self {account : Uuid} {l : List (Uuid × String × Int)} :
    (l.filter (·.1 ≠ account)).find? (·.1 = account) = none := by
  rw [List.find?_eq_none]
  intro entry hentry
  simpa using (List.mem_filter.mp hentry).2

theorem Trial.Twins.invalidated (h : t.Twins w w') :
    t.Twins { w with tokenCache := w.tokenCache.filter (·.1 ≠ t.account) }
      { w' with tokenCache := w'.tokenCache.filter (·.1 ≠ t.account) } where
  __ := h
  isolated := isolated_invalidateToken.run w h.isolated
  isolated' := isolated_invalidateToken.run w' h.isolated'
  token := by simp only [find_filter_self]

theorem uniform_renewToken (bundled : Bundled) (haccount : account.id = t.account) :
    Uniform t.Twins (invalidateToken account.id >>= fun _ => accessTokenFor bundled account) := by
  constructor
  intro w w' h
  have hnone {w : World} : ¬TokenGood t.account { w with tokenCache := w.tokenCache.filter (·.1 ≠ t.account) } := by
    rintro ⟨entry, hentry, _⟩
    exact absurd (find_filter_self.symm.trans hentry) (by simp)
  have hrenewed := accessTokenFor_twins bundled haccount h.invalidated (iff_of_false hnone hnone)
  rw [← haccount] at hrenewed
  exact hrenewed

end Tokens

end Fumiko.EmailCore
