import Fumiko.EmailCore.SyncPage
import Fumiko.OAuth.TokenLaws
import Fumiko.Storage.SchemaLaws

namespace Fumiko.EmailCore

open Fumiko.Common Fumiko.Foundation Fumiko.Foundation.Action Fumiko.Net Fumiko.OAuth
  Fumiko.Program Fumiko.Storage

structure Outward (R : World → World → Prop) : Prop where
  outside (w : World) {outside : Outside} (himap : outside.imap = w.outside.imap) :
    R w { w with outside }
  session (w : World) : R w { w with outside := { w.outside with imap := w.outside.imap.tail } }

structure Indifferent (R : World → World → Prop) : Prop extends Outward R where
  tokenCache (w : World) (tokenCache : List (Uuid × String × Int)) : R w { w with tokenCache }
  keyring (w : World) (keyring : Keyring) : R w { w with keyring }

/-- The relations that a request for an access token of one account moves along: they may look
at the mail services and at the completion orders, and at the secrets of the other accounts. -/
structure Aside (account : Uuid) (R : World → World → Prop) : Prop where
  outside (w : World) {outside : Outside} (himap : outside.imap = w.outside.imap)
    (hgmail : outside.gmail = w.outside.gmail) (houtlook : outside.outlook = w.outside.outlook)
    (hcompletions : outside.completions = w.outside.completions) : R w { w with outside }
  cached (w : World) (token : String) (expiresAt : Int) :
    R w { w with tokenCache := (account, token, expiresAt) :: w.tokenCache.filter (·.1 ≠ account) }
  rotated (w : World) (secret : String) : R w (w.withSecret account.text (some secret))

def Admits (R : World → World → Prop) (e : Event) : Prop := ∀ w, R w (w.record e)

section Frames

variable {ε α : Type} {R : World → World → Prop}

theorem bind_log {e : Event} {f : Unit → Program ε α} {w w' : World} {r : Except ε α}
    (h : (log e >>= f) w = (r, w')) : f () (w.record e) = (r, w') := h

theorem moves_log {e : Event} (h : Admits R e) : Moves R (log e : Program ε Unit) := moves_update h

namespace Outward

theorem afterDbCall (hR : Outward R) (w : World) : R w w.afterDbCall := hR.outside w rfl

theorem instantNow (hR : Outward R) : Moves R (instantNow : Program ε Int) :=
  moves_step fun w => hR.outside w rfl

theorem unixTimestamp (hR : Outward R) : Moves R (unixTimestamp : Program ε Int) :=
  moves_step fun w => hR.outside w rfl

theorem freshUuid (hR : Outward R) : Moves R (freshUuid : Program ε Uuid) :=
  moves_step fun w => hR.outside w rfl

theorem nextImap (hR : Outward R) : Moves R (nextImap : Program ε (Option ImapSession)) :=
  moves_step hR.session

theorem nextClassifier (hR : Outward R) :
    Moves R (nextClassifier : Program ε (Option ClassifierMoment)) :=
  moves_step fun w => hR.outside w rfl

theorem completionOrder (hR : Outward R) (l : List α) :
    Moves R (completionOrder l : Program ε (List α)) :=
  moves_step fun w => hR.outside w rfl

theorem onGmail (hR : Outward R) (x : Action (List GmailMoment) ε α) : Moves R (onGmail x) :=
  ⟨fun w => hR.outside w rfl⟩

theorem onOutlook (hR : Outward R) (x : Action (List OutlookMoment) ε α) : Moves R (onOutlook x) :=
  ⟨fun w => hR.outside w rfl⟩

theorem query (hR : Outward R) (f : Db → α) : Moves R (query f) :=
  moves_query hR.afterDbCall f

end Outward

theorem Indifferent.invalidateToken (hR : Indifferent R) (account : Uuid) : Moves R (invalidateToken account) :=
  moves_update fun w => hR.tokenCache w _

theorem Indifferent.aside (hR : Indifferent R) (account : Uuid) : Aside account R :=
  ⟨fun w _ himap _ _ _ => hR.outside w himap, fun w _ _ => hR.tokenCache w _, fun w _ => hR.keyring w _⟩

namespace Aside

variable {account : Uuid}

theorem afterDbCall (hR : Aside account R) (w : World) : R w w.afterDbCall := hR.outside w rfl rfl rfl rfl

theorem instantNow (hR : Aside account R) : Moves R (instantNow : Program ε Int) :=
  moves_step fun w => hR.outside w rfl rfl rfl rfl

theorem nextToken (hR : Aside account R) : Moves R (nextToken : Program ε (Except String TokenResponse)) :=
  moves_step fun w => hR.outside w rfl rfl rfl rfl

theorem saveAccountSecret [IsTrans World R] (hR : Aside account R) (secret : String) :
    Moves R (saveAccountSecret account secret) := by
  apply moves_setSecret (fun w => hR.outside w rfl rfl rfl rfl)
  intro w
  have hcall : R w w.afterKeyringSet := hR.outside w rfl rfl rfl rfl
  exact IsTrans.trans _ _ _ hcall (hR.rotated _ _)

end Aside

section Tokens

variable {account : LinkedAccount} [Std.Refl R] [IsTrans World R] (hR : Aside account.id R)
include hR

theorem moves_getAccessTokenForAccount (bundled : Bundled) :
    Moves R (getAccessTokenForAccount bundled account) := by
  have hsecret := moves_accountSecret (fun w => hR.outside w rfl rfl rfl rfl) account.id
  rw [getAccessTokenForAccount]
  split
  · exact moves_bind hsecret fun _ => moves_bind hR.instantNow fun _ => moves_pure _
  · apply moves_bind hsecret
    intro refreshToken
    apply moves_bind (moves_requestTokens hR.afterDbCall (fun w => hR.outside w rfl rfl rfl rfl)
      hR.nextToken hR.instantNow bundled account refreshToken)
    intro tokens
    apply moves_bind ?_ fun _ => moves_pure _
    rw [persistRotation]
    split
    · split
      · exact moves_mapError (hR.saveAccountSecret _)
      · exact moves_pure _
    · exact moves_pure _

theorem moves_accessTokenFor (bundled : Bundled) :
    Moves R (accessTokenFor bundled account) := by
  have hcached : Moves R (cachedToken account.id) := by
    apply moves_bind (moves_read _)
    intro entry
    cases entry with
    | none => exact moves_pure _
    | some entry => exact moves_bind hR.instantNow fun _ => moves_pure _
  apply moves_bind hcached
  intro token
  cases token with
  | some token => exact moves_pure _
  | none =>
    apply moves_bind (moves_mapError (moves_getAccessTokenForAccount hR bundled))
    intro tokens
    apply moves_bind hR.instantNow
    intro now
    exact moves_bind (moves_update fun w => hR.cached w _ _) fun _ => moves_pure _

end Tokens

variable [Std.Refl R] [IsTrans World R] (hR : Outward R)
include hR

theorem moves_settingOrNone (key : String) : Moves R (settingOrNone key : Program ε (Option String)) := by
  apply moves_bind (moves_attempt (hR.query _))
  intro value
  cases value <;> exact moves_pure _

theorem moves_initialSyncOptions : Moves R initialSyncOptions :=
  moves_bind (moves_settingOrNone hR _) fun _ => moves_pure _

end Frames

structure EmailProvider.Along (R : World → World → Prop) (provider : EmailProvider) : Prop where
  initialSync (accessToken : String) (options : SyncOptions) :
    Moves R (provider.initialSync accessToken options)
  incrementalSync (accessToken cursor : String) : Moves R (provider.incrementalSync accessToken cursor)
  fetchMessageMetadata (accessToken : String) (ids : List String) :
    Moves R (provider.fetchMessageMetadata accessToken ids)
  fetchFullMessage (accessToken id : String) : Moves R (provider.fetchFullMessage accessToken id)

section Providers

variable {ε δ α β : Type} {R : World → World → Prop} [Std.Refl R]

theorem moves_reply (r : Except String α) : Moves R (Imap.reply r) := by
  cases r with
  | ok a => exact moves_pure a
  | error text => exact moves_raise _

variable [IsTrans World R]

theorem moves_collect {f : α → Program ε β} (hf : ∀ a, Moves R (f a)) (as : List α) :
    Moves R (collect f as : Program δ (List (Except ε β))) := by
  induction as with
  | nil => exact moves_pure _
  | cons a as ih => exact moves_bind (moves_attempt (hf a)) fun _ => moves_bind ih fun _ => moves_pure _

def Imap.openInbox : Program ProviderError (ImapSession × Option Nat) := do
  let session ← Imap.connectSession
  let validity ← Imap.selectInbox session
  pure (session, validity)

theorem Imap.openInbox_bind (f : ImapSession → Option Nat → Program ProviderError α) :
    (Imap.connectSession >>= fun session => Imap.selectInbox session >>= fun validity =>
      f session validity) = Imap.openInbox >>= fun opened => f opened.1 opened.2 := by
  simp only [Imap.openInbox, bind_assoc, pure_bind]

omit [Std.Refl R] in
theorem moves_openInbox_bind (hopen : Moves R Imap.openInbox)
    {f : ImapSession → Option Nat → Program ProviderError α}
    (hf : ∀ session validity, Moves R (f session validity)) :
    Moves R (Imap.connectSession >>= fun session => Imap.selectInbox session >>= fun validity =>
      f session validity) := by
  rw [Imap.openInbox_bind]
  exact moves_bind hopen fun _ => hf _ _

variable (hR : Outward R)
include hR

theorem gmail_along : Gmail.provider.Along R where
  initialSync _ options := hR.onGmail (Gmail.initialSync options)
  incrementalSync _ cursor := hR.onGmail (Gmail.incrementalSync cursor)
  fetchFullMessage _ id := hR.onGmail (Gmail.fetchFullMessage id)
  fetchMessageMetadata _ ids := by
    apply moves_bind (hR.completionOrder ids)
    intro order
    apply moves_collect
    intro id
    apply moves_bind (hR.onGmail _)
    intro metadata
    dsimp only
    split
    · exact moves_pure _
    · exact moves_bind hR.unixTimestamp fun _ => moves_pure _

theorem outlook_along : Outlook.provider.Along R where
  initialSync _ options := hR.onOutlook (Outlook.initialSync options)
  incrementalSync _ cursor := hR.onOutlook (Outlook.incrementalSync cursor)
  fetchFullMessage _ id := hR.onOutlook (Outlook.fetchFullMessage id)
  fetchMessageMetadata _ ids := by
    apply moves_bind (hR.completionOrder ids)
    intro order
    apply moves_collect
    intro id
    apply moves_bind (hR.onOutlook _)
    intro message
    apply moves_bind (moves_read _)
    intro parse
    dsimp only
    split
    · exact moves_pure _
    · exact moves_bind hR.unixTimestamp fun _ => moves_pure _

theorem moves_connectSession : Moves R Imap.connectSession := by
  apply moves_bind hR.nextImap
  intro session
  cases session with
  | none => exact moves_raise _
  | some session =>
    dsimp only
    split
    · exact moves_pure _
    · exact moves_raise _
    · exact moves_raise _

theorem moves_openInbox (hselected : ∀ validity, Admits R (.imapSelected validity)) :
    Moves R Imap.openInbox := by
  have hselect (session : ImapSession) : Moves R (Imap.selectInbox session) :=
    moves_bind (moves_reply _) fun _ => moves_bind (moves_log (hselected _)) fun _ => moves_pure _
  exact moves_bind (moves_connectSession hR) fun session =>
    moves_bind (hselect session) fun _ => moves_pure _

theorem imap_along (hopen : Moves R Imap.openInbox)
    (hsearched : ∀ query uids, Admits R (.imapSearched query uids)) (p : Imap.ImapProvider) :
    (Imap.provider p).Along R := by
  have hsearch (session : ImapSession) (query : ImapQuery) : Moves R (Imap.uidSearch session query) :=
    moves_bind (moves_reply _) fun _ => moves_bind (moves_log (hsearched _ _)) fun _ => moves_pure _
  constructor
  · intro _ options
    exact moves_openInbox_bind hopen fun _ _ => moves_bind (hsearch _ _) fun _ => moves_pure _
  · intro _ cursor
    simp only [Imap.provider, Imap.incrementalSync]
    split
    · exact moves_raise _
    · apply moves_openInbox_bind hopen
      intro session validity
      split
      · exact moves_raise _
      · exact moves_bind (hsearch session _) fun _ => moves_pure _
  · intro _ ids
    simp only [Imap.provider, Imap.fetchMessageMetadata]
    split
    · exact moves_pure _
    · apply moves_openInbox_bind hopen
      intro session _
      apply moves_bind (moves_reply _)
      intro fetches
      apply moves_collect
      intro id
      rw [Imap.readFetch]
      split
      · exact moves_raise _
      · dsimp only
        split
        · exact moves_pure _
        · exact moves_bind hR.unixTimestamp fun _ => moves_pure _
  · intro _ id
    exact moves_openInbox_bind hopen fun _ _ => moves_liftExcept _

theorem providerFor_along (hopen : Moves R Imap.openInbox)
    (hsearched : ∀ query uids, Admits R (.imapSearched query uids)) (account : LinkedAccount) :
    (providerFor account).Along R := by
  rw [providerFor]
  split
  · exact imap_along hR hopen hsearched _
  · split
    · exact outlook_along hR
    · exact gmail_along hR

end Providers

section Phases

variable {R : World → World → Prop} [Std.Refl R] [IsTrans World R] {provider : EmailProvider}
  {account : Uuid}

structure Discovering (R : World → World → Prop) (bundled : Bundled) (provider : EmailProvider)
    (account : LinkedAccount) : Prop where
  token : Moves R (accessTokenFor bundled account)
  invalidate : Moves R (invalidateToken account.id)
  options : Moves R initialSyncOptions
  clear : Moves R (clearSyncCursor account.id)
  initialSync (accessToken : String) (options : SyncOptions) :
    Moves R (provider.initialSync accessToken options)
  incrementalSync (accessToken cursor : String) : Moves R (provider.incrementalSync accessToken cursor)

inductive Requested (provider : EmailProvider) (account : LinkedAccount) (accessToken : String)
    (page : SyncPage) (w w' : World) : Prop
  | initial (options : SyncOptions) (h : provider.initialSync accessToken options w = (.ok page, w'))
  | incremental (cursor : String) (hcursor : account.syncCursor = some cursor)
    (h : provider.incrementalSync accessToken cursor w = (.ok page, w'))

namespace Discovering

variable {bundled : Bundled} {account : LinkedAccount} {accessToken : String} {page : SyncPage}
  {isInitialSync : Bool} {w w' : World} (hR : Discovering R bundled provider account)
include hR

theorem fetchSyncPage (accessToken : String) :
    Moves R (EmailCore.fetchSyncPage provider account accessToken) := by
  have hinitial : Moves R (initialSyncOptions >>= fun options =>
      provider.initialSync accessToken options >>= fun page => pure (page, true)) :=
    moves_bind hR.options fun _ => moves_bind (hR.initialSync _ _) fun _ => moves_pure _
  rw [EmailCore.fetchSyncPage]
  split
  · exact hinitial
  · apply moves_bind (moves_attempt (hR.incrementalSync _ _))
    intro outcome
    split
    · exact moves_pure _
    · exact moves_bind (moves_ignore hR.clear) fun _ => hinitial
    · exact moves_raise _

theorem discover : Moves R (EmailCore.discover bundled provider account) := by
  apply moves_bind hR.token
  intro accessToken
  apply moves_bind (moves_attempt (hR.fetchSyncPage accessToken))
  intro outcome
  split
  · exact moves_pure _
  · apply moves_bind hR.invalidate
    intro _
    apply moves_bind hR.token
    intro accessToken
    exact moves_bind (moves_mapError (hR.fetchSyncPage accessToken)) fun _ => moves_pure _
  · exact moves_raise _

theorem fetchSyncPage_eq_ok
    (h : EmailCore.fetchSyncPage provider account accessToken w = (.ok (page, isInitialSync), w')) :
    ∃ w₁, R w w₁ ∧ Requested provider account accessToken page w₁ w' := by
  have hinitial {u : World} (hinitial : (initialSyncOptions >>= fun options =>
      provider.initialSync accessToken options >>= fun page => pure (page, true)) u =
        (.ok (page, isInitialSync), w')) :
      ∃ w₁, R u w₁ ∧ Requested provider account accessToken page w₁ w' := by
    obtain ⟨options, w₁, hoptions, hfetch⟩ := bind_eq_ok.mp hinitial
    obtain ⟨found, w₂, hsync, hpage⟩ := bind_eq_ok.mp hfetch
    cases hpage
    exact ⟨w₁, hR.options.of_eq hoptions, .initial options hsync⟩
  cases hcursor : account.syncCursor with
  | none =>
    rw [EmailCore.fetchSyncPage, hcursor] at h
    exact hinitial h
  | some cursor =>
    rw [EmailCore.fetchSyncPage, hcursor] at h
    obtain ⟨outcome, w₁, hsync, hfetch⟩ := attempt_bind h
    have hfirst := (hR.incrementalSync _ _).of_eq hsync
    cases outcome with
    | ok found =>
      cases hfetch
      exact ⟨w, Std.Refl.refl w, .incremental cursor hcursor hsync⟩
    | error e =>
      cases e with
      | cursorExpired =>
        obtain ⟨_, w₂, hignore, hfetch⟩ := bind_eq_ok.mp hfetch
        obtain ⟨w₃, hafter, hrequested⟩ := hinitial hfetch
        have hcleared := (moves_ignore hR.clear).of_eq hignore
        exact ⟨w₃, IsTrans.trans _ _ _ hfirst (IsTrans.trans _ _ _ hcleared hafter), hrequested⟩
      | _ => cases hfetch

theorem discover_eq_ok
    (h : EmailCore.discover bundled provider account w = (.ok (accessToken, page, isInitialSync), w')) :
    ∃ w₁, R w w₁ ∧ Requested provider account accessToken page w₁ w' := by
  obtain ⟨token, w₁, haccess, h⟩ := bind_eq_ok.mp h
  have hbefore := hR.token.of_eq haccess
  obtain ⟨outcome, w₂, hfetch, hrest⟩ := attempt_bind h
  cases outcome with
  | ok outcome =>
    obtain ⟨found, isInitial⟩ := outcome
    cases hrest
    obtain ⟨w₃, hafter, hrequested⟩ := hR.fetchSyncPage_eq_ok hfetch
    exact ⟨w₃, IsTrans.trans _ _ _ hbefore hafter, hrequested⟩
  | error e =>
    cases e with
    | unauthorized =>
      have hfirst := (hR.fetchSyncPage token).of_eq hfetch
      obtain ⟨_, w₃, hinvalidate, hrest⟩ := bind_eq_ok.mp hrest
      obtain ⟨token, w₄, haccess, hrest⟩ := bind_eq_ok.mp hrest
      obtain ⟨⟨found, isInitial⟩, w₅, hfetch, hpage⟩ := bind_eq_ok.mp hrest
      cases hpage
      obtain ⟨w₆, hafter, hrequested⟩ := hR.fetchSyncPage_eq_ok (mapError_eq_ok.mp hfetch)
      have hinvalid := hR.invalidate.of_eq hinvalidate
      have hagain : R w w₄ := IsTrans.trans _ _ _ (IsTrans.trans _ _ _ hbefore hfirst)
        (IsTrans.trans _ _ _ hinvalid (hR.token.of_eq haccess))
      exact ⟨w₆, IsTrans.trans _ _ _ hagain hafter, hrequested⟩
    | _ => cases hrest

end Discovering

theorem Outward.discovering (hR : Outward R) (hprovider : provider.Along R) {bundled : Bundled}
    {account : LinkedAccount} (hclear : Moves R (clearSyncCursor account.id))
    (htoken : Moves R (accessTokenFor bundled account)) (hinvalidate : Moves R (invalidateToken account.id)) :
    Discovering R bundled provider account :=
  ⟨htoken, hinvalidate, moves_initialSyncOptions hR, hclear, hprovider.initialSync,
    hprovider.incrementalSync⟩

theorem Indifferent.discovering (hR : Indifferent R) (hprovider : provider.Along R) (bundled : Bundled)
    {account : LinkedAccount} (hclear : Moves R (clearSyncCursor account.id)) :
    Discovering R bundled provider account :=
  hR.toOutward.discovering hprovider hclear (moves_accessTokenFor (hR.aside _) bundled)
    (hR.invalidateToken _)

theorem moves_hydrateAll (hprogress : ∀ current total phase, Admits R (.progress current total phase))
    (hsave : ∀ id subject sender receivedAt isRead snippet,
      Moves R (saveEmail account id subject sender receivedAt isRead snippet))
    (total idx : Nat) (results : List (Except ProviderError MessageMetadata)) :
    Moves R (hydrateAll account total idx results) := by
  induction results generalizing idx with
  | nil => exact moves_pure _
  | cons result results ih =>
    have hone : Moves R (hydrateOne account result) := by
      cases result with
      | ok m => exact moves_bind (moves_mapError (hsave _ _ _ _ _ _)) fun _ => moves_pure _
      | error e => exact moves_pure _
    apply moves_bind hone
    intro saved
    apply moves_bind (moves_log (hprogress _ _ _))
    intro _
    exact moves_bind (ih _) fun _ => moves_pure _

theorem moves_hydrate (hprovider : provider.Along R)
    (hprogress : ∀ current total phase, Admits R (.progress current total phase))
    (hhydrated : ∀ results, Admits R (.hydrated account results))
    (hsave : ∀ id subject sender receivedAt isRead snippet,
      Moves R (saveEmail account id subject sender receivedAt isRead snippet))
    (accessToken : String) (page : SyncPage) :
    Moves R (hydrate provider account accessToken page) := by
  rw [hydrate]
  split
  · exact moves_pure _
  · apply moves_bind (moves_log (hprogress _ _ _))
    intro _
    apply moves_bind (moves_mapError (hprovider.fetchMessageMetadata _ _))
    intro results
    apply moves_bind (moves_log (hhydrated _))
    intro _
    exact moves_hydrateAll hprogress hsave _ _ _

theorem moves_applyRemoteChanges (htrash : ∀ id, Moves R (markTrashed account id))
    (huntrash : ∀ id, Moves R (markUntrashed account id))
    (hdelete : ∀ id, Moves R (deleteByProviderMessageId account id)) (page : SyncPage) :
    Moves R (applyRemoteChanges account page) := by
  apply moves_mapError
  apply moves_bind (moves_forEach htrash _)
  intro _
  apply moves_bind (moves_forEach huntrash _)
  intro _
  exact moves_forEach hdelete _

section Classification

variable (hR : Outward R) (hprovider : provider.Along R)
  (hprogress : ∀ current total phase, Admits R (.progress current total phase))
  (hfull : ∀ id, Admits R (.fetchedFullMessage id))
include hR

theorem moves_askClassifier (f : ClassifierMoment → Except String (Option ClassificationMatch)) :
    Moves R (askClassifier f) := by
  apply moves_bind hR.nextClassifier
  intro moment
  cases moment <;> exact moves_pure _

omit [Std.Refl R] in
theorem moves_saveClassification {email criterion : Uuid} {confidence : Option Rat}
    (hsave : ∀ id now, Moves R (statement (Db.saveClassification id now email criterion confidence)))
    (hlog : Admits R (.savedClassification email criterion)) :
    Moves R (saveClassification email criterion confidence) := by
  apply moves_bind hR.freshUuid
  intro id
  apply moves_bind hR.unixTimestamp
  intro now
  exact moves_bind (hsave id now) fun _ => moves_log hlog

include hprovider hfull

theorem moves_tier2Match (accessToken : String) (criteria : List Criterion) (email : NewEmail) :
    Moves R (tier2Match provider accessToken criteria email) := by
  apply moves_bind (moves_log (hfull _))
  intro _
  apply moves_bind (moves_attempt (hprovider.fetchFullMessage _ _))
  intro outcome
  split
  · exact moves_pure _
  · split
    · exact moves_pure _
    · apply moves_bind (moves_askClassifier hR _)
      intro answer
      split <;> exact moves_pure _

theorem moves_classifyOne (accessToken : String) (isInitialSync : Bool) (criteria : List Criterion)
    (email : NewEmail) (tier2Budget : Nat) :
    Moves R (classifyOne provider accessToken isInitialSync criteria email tier2Budget) := by
  apply moves_bind (moves_askClassifier hR _)
  intro answer
  split
  · split
    · exact moves_pure _
    · split
      · split
        · exact moves_bind (moves_tier2Match hR hprovider hfull _ _ _) fun _ => moves_pure _
        · exact moves_pure _
      · exact moves_pure _
  · exact moves_pure _

include hprogress

theorem moves_classifyAll (accessToken : String) (isInitialSync : Bool) (active : List WatchCriterion)
    (total : Nat) {emails : List NewEmail}
    (hsave : ∀ email ∈ emails, ∀ criterion confidence,
      Moves R (saveClassification email.emailId criterion confidence))
    (tier2Budget completedCount : Nat) :
    Moves R (classifyAll provider accessToken isInitialSync active total emails tier2Budget
      completedCount) := by
  induction emails generalizing tier2Budget completedCount with
  | nil => exact moves_pure _
  | cons email emails ih =>
    have hrest := ih fun e he => hsave e (List.mem_cons_of_mem _ he)
    have hrecord (found : Option ClassificationMatch) : Moves R (recordMatch active email found) := by
      rw [recordMatch.eq_def]
      split
      · exact moves_pure _
      · split
        · exact moves_pure _
        · exact moves_bind (moves_ignore (hsave email List.mem_cons_self _ _)) fun _ => moves_pure _
    apply moves_bind (moves_classifyOne hR hprovider hfull _ _ _ _ _)
    intro found
    apply moves_bind (hrecord _)
    intro counted
    split
    · exact moves_bind (moves_log (hprogress _ _ _)) fun _ => hrest _ _
    · exact hrest _ _

theorem moves_classifyNewEmails (accessToken : String) (isInitialSync : Bool) {emails : List NewEmail}
    (hsave : ∀ email ∈ emails, ∀ criterion confidence,
      Moves R (saveClassification email.emailId criterion confidence)) :
    Moves R (classifyNewEmails provider accessToken isInitialSync emails) := by
  rw [classifyNewEmails]
  split
  · exact moves_pure _
  · apply moves_bind (moves_attempt (hR.query _))
    intro active
    split
    · exact moves_pure _
    · split
      · exact moves_pure _
      · apply moves_bind (moves_settingOrNone hR _)
        intro model
        split
        · exact moves_pure _
        · split
          · exact moves_pure _
          · apply moves_bind (moves_settingOrNone hR _)
            intro _
            apply moves_bind (moves_log (hprogress _ _ _))
            intro _
            apply moves_bind_of (hR.completionOrder _)
            intro w order w' heq
            cases heq
            apply (moves_classifyAll hR hprovider hprogress hfull _ _ _ _ ?_ _ _).run
            intro email hemail
            exact hsave email (mem_arrange.mp hemail)

end Classification

theorem moves_purge (hR : Outward R)
    (hpurge : ∀ maxInbox maxFindings, Moves R (purgeOldEmails account maxInbox maxFindings)) :
    Moves R (purge account) := by
  have hcapacity (key : String) (default : Nat) : Moves R (capacity key default) :=
    moves_bind (moves_settingOrNone hR _) fun _ => moves_pure _
  apply moves_bind (hcapacity _ _)
  intro maxInbox
  apply moves_bind (hcapacity _ _)
  intro maxFindings
  exact moves_ignore (hpurge _ _)

end Phases

section Events

def Discovers : Event → Prop
  | .imapSelected _ | .imapSearched _ _ | .clearedCursor _ => True
  | _ => False

def Applies : Event → Prop
  | .imapSelected _ | .imapSearched _ _ | .progress _ _ _ | .hydrated _ _ | .savedEmail _ _ _ _ => True
  | _ => False

def Classifies : Event → Prop
  | .imapSelected _ | .imapSearched _ _ | .progress _ _ _ | .fetchedFullMessage _
  | .savedClassification _ _ => True
  | _ => False

def Unstored : Event → Prop
  | .storedCursor _ _ => False
  | _ => True

theorem unstored_of_discovers {e : Event} (h : Discovers e) : Unstored e := by
  cases e <;> trivial

theorem unstored_of_applies {e : Event} (h : Applies e) : Unstored e := by
  cases e <;> trivial

theorem unstored_of_classifies {e : Event} (h : Classifies e) : Unstored e := by
  cases e <;> trivial

/-- The steps that leave the account rows as they are, and log only events with the property
`P`. -/
structure Leaves (P : Event → Prop) (w w' : World) : Prop where
  accounts : w'.db.linkedAccounts = w.db.linkedAccounts
  emits : World.Emits P w w'

variable {P : Event → Prop}

instance : Std.Refl (Leaves P) := ⟨fun _ => ⟨rfl, Std.Refl.refl _⟩⟩

instance : IsTrans World (Leaves P) where
  trans _ _ _ h₁ h₂ := ⟨h₂.accounts.trans h₁.accounts, IsTrans.trans _ _ _ h₁.emits h₂.emits⟩

theorem leaves_indifferent : Indifferent (Leaves P) where
  outside _ _ _ := ⟨rfl, World.emits_of_keeps rfl⟩
  session _ := ⟨rfl, World.emits_of_keeps rfl⟩
  tokenCache _ _ := ⟨rfl, World.emits_of_keeps rfl⟩
  keyring _ _ := ⟨rfl, World.emits_of_keeps rfl⟩

theorem emits_indifferent : Indifferent (World.Emits P) where
  outside _ _ _ := World.emits_of_keeps rfl
  session _ := World.emits_of_keeps rfl
  tokenCache _ _ := World.emits_of_keeps rfl
  keyring _ _ := World.emits_of_keeps rfl

theorem providerFor_emits (hselected : ∀ validity, P (.imapSelected validity))
    (hsearched : ∀ query uids, P (.imapSearched query uids)) (account : LinkedAccount) :
    (providerFor account).Along (World.Emits P) :=
  providerFor_along emits_indifferent.toOutward
    (moves_openInbox emits_indifferent.toOutward fun validity _ => World.emits_record (hselected validity))
    (fun query uids _ => World.emits_record (hsearched query uids)) account

theorem leaves_admits {e : Event} (h : P e) : Admits (Leaves P) e :=
  fun _ => ⟨rfl, World.emits_record h⟩

theorem leaves_statement {α : Type} {f : Db → Except StorageError (α × Db)}
    (hf : ∀ db a db', f db = .ok (a, db') → db'.linkedAccounts = db.linkedAccounts) :
    Moves (Leaves P) (statement f) :=
  moves_statement leaves_indifferent.afterDbCall fun w a db h =>
    ⟨hf w.db a db h, World.emits_of_keeps rfl⟩

theorem leaves_execute {f : Db → Db} (hf : ∀ db, (f db).linkedAccounts = db.linkedAccounts) :
    Moves (Leaves P) (execute f) :=
  leaves_statement fun db _ _ h => by
    cases h
    exact hf db

theorem saveEmail_accounts {id accountId : Uuid} {now receivedAt : Int} {providerMessageId : String}
    {subject sender snippet : Option String} {isRead : Bool} {db db' : Db} {row : Uuid}
    (h : Db.saveEmail id now accountId providerMessageId subject sender receivedAt isRead snippet db =
      .ok (row, db')) : db'.linkedAccounts = db.linkedAccounts := by
  cases Db.saveEmail_saved h with
  | again => rfl
  | first => rfl

theorem saveClassification_accounts {id emailId criterionId : Uuid} {now : Int}
    {confidence : Option Rat} {db db' : Db} {u : Unit}
    (h : Db.saveClassification id now emailId criterionId confidence db = .ok (u, db')) :
    db'.linkedAccounts = db.linkedAccounts := by
  cases Db.saveClassification_classified h with
  | again => rfl
  | first => rfl

theorem leaves_saveEmail (hsaved : ∀ row account id isNew, P (.savedEmail row account id isNew))
    (account : Uuid) (id : String) (subject sender : Option String) (receivedAt : Int)
    (isRead : Bool) (snippet : Option String) :
    Moves (Leaves P) (saveEmail account id subject sender receivedAt isRead snippet) := by
  apply moves_bind leaves_indifferent.freshUuid
  intro fresh
  apply moves_bind leaves_indifferent.unixTimestamp
  intro now
  apply moves_bind (moves_read _)
  intro isNew
  apply moves_bind (leaves_statement fun _ _ _ => saveEmail_accounts)
  intro row
  exact moves_bind (moves_log (leaves_admits (hsaved _ _ _ _))) fun _ => moves_pure _

theorem leaves_applyRemoteChanges (account : Uuid) (page : SyncPage) :
    Moves (Leaves P) (applyRemoteChanges account page) := by
  apply moves_applyRemoteChanges
  · intro id
    exact moves_bind leaves_indifferent.unixTimestamp fun _ => leaves_execute fun _ => rfl
  · intro id
    exact leaves_execute fun _ => rfl
  · intro id
    exact leaves_execute fun _ => rfl

theorem leaves_applyPage (account : LinkedAccount) (accessToken : String) (page : SyncPage) :
    Moves (Leaves Applies) (applyPage (providerFor account) account.id accessToken page) := by
  have hprovider := providerFor_along (R := Leaves Applies) leaves_indifferent.toOutward
    (moves_openInbox leaves_indifferent.toOutward fun _ => leaves_admits trivial) (fun _ _ => leaves_admits trivial) account
  apply moves_bind (moves_hydrate hprovider (fun _ _ _ => leaves_admits trivial)
    (fun _ => leaves_admits trivial) (leaves_saveEmail (fun _ _ _ _ => trivial) _) _ _)
  intro hydrated
  exact moves_bind (leaves_applyRemoteChanges _ _) fun _ => moves_pure _

def finish (account : LinkedAccount) (accessToken : String) (isInitialSync : Bool)
    (emails : List NewEmail) : Program SyncError Unit := do
  classifyNewEmails (providerFor account) accessToken isInitialSync emails
  purge account.id

theorem leaves_finish (account : LinkedAccount) (accessToken : String) (isInitialSync : Bool)
    (emails : List NewEmail) :
    Moves (Leaves Classifies) (finish account accessToken isInitialSync emails) := by
  have hprovider := providerFor_along (R := Leaves Classifies) leaves_indifferent.toOutward
    (moves_openInbox leaves_indifferent.toOutward fun _ => leaves_admits trivial) (fun _ _ => leaves_admits trivial) account
  apply moves_bind
  · apply moves_classifyNewEmails leaves_indifferent.toOutward hprovider (fun _ _ _ => leaves_admits trivial)
      fun _ => leaves_admits trivial
    intro email _ criterion confidence
    exact moves_saveClassification leaves_indifferent.toOutward
      (fun _ _ => leaves_statement fun _ _ _ => saveClassification_accounts) (leaves_admits trivial)
  · intro _
    apply moves_purge leaves_indifferent.toOutward
    intro maxInbox maxFindings
    apply moves_bind (moves_read _)
    intro ranking
    have hpurge : ∀ f : Db → Nat × Db, (∀ db, (f db).2.linkedAccounts = db.linkedAccounts) →
        Moves (Leaves Classifies) (statement fun db => .ok (f db)) := by
      intro f hf
      apply leaves_statement
      intro db a db' h
      simp only [Except.ok.injEq] at h
      rw [← hf db, h]
    apply moves_bind (hpurge _ fun _ => rfl)
    intro inbox
    exact moves_bind (hpurge _ fun _ => rfl) fun _ => moves_pure _

theorem emits_discovering (bundled : Bundled) (account : LinkedAccount) :
    Discovering (World.Emits Discovers) bundled (providerFor account) account := by
  have hadmits {e : Event} (h : Discovers e) : Admits (World.Emits Discovers) e :=
    fun _ => World.emits_record h
  apply emits_indifferent.discovering (providerFor_emits (fun _ => trivial) (fun _ _ => trivial) account)
  apply moves_bind
  · exact moves_statement (fun _ => World.emits_of_keeps rfl) fun _ _ _ _ => World.emits_of_keeps rfl
  · intro _
    exact moves_log (hadmits trivial)

theorem emits_discover (bundled : Bundled) (account : LinkedAccount) :
    Moves (World.Emits Discovers) (discover bundled (providerFor account) account) :=
  (emits_discovering bundled account).discover

end Events

theorem saveEmail_eq_ok {account row : Uuid} {id : String} {subject sender snippet : Option String}
    {receivedAt : Int} {isRead : Bool} {w w' : World}
    (h : saveEmail account id subject sender receivedAt isRead snippet w = (.ok row, w')) :
    ∃ db, Db.saveEmail w.nextUuid w.nextTime account id subject sender receivedAt isRead snippet w.db =
        .ok (row, db) ∧ w'.db = db ∧
      w'.journal = w.journal ++ [.savedEmail row account id (w.db.email account id).isNone] := by
  obtain ⟨fresh, w₁, hfresh, h⟩ := bind_eq_ok.mp h
  cases hfresh
  obtain ⟨now, w₂, hnow, h⟩ := bind_eq_ok.mp h
  cases hnow
  obtain ⟨isNew, w₃, hread, h⟩ := bind_eq_ok.mp h
  cases hread
  obtain ⟨saved, w₄, hsave, h⟩ := bind_eq_ok.mp h
  obtain ⟨db, hdb, rfl⟩ := statement_eq_ok hsave
  cases h
  exact ⟨db, hdb, rfl, rfl⟩

theorem hydrateOne_saved {account : Uuid} {m : MessageMetadata} {out : List NewEmail × Bool} {w w' : World}
    (h : hydrateOne account (.ok m) w = (.ok out, w')) :
    ∃ row, saveEmail account m.id (some m.subject) (some m.sender) m.receivedAt m.isRead m.snippet w =
        (.ok row, w') ∧ out = ([⟨row, m.id, m.subject, m.sender, m.snippet⟩], false) := by
  obtain ⟨row, w₁, hsave, hpure⟩ := bind_eq_ok.mp h
  cases hpure
  exact ⟨row, mapError_eq_ok.mp hsave, rfl⟩

theorem hydrateAll_cons {account : Uuid} {total idx : Nat} {result : Except ProviderError MessageMetadata}
    {results : List (Except ProviderError MessageMetadata)} {out : List NewEmail × Bool} {w w' : World}
    (h : hydrateAll account total idx (result :: results) w = (.ok out, w')) :
    ∃ first rest w₁, hydrateOne account result w = (.ok first, w₁) ∧
      hydrateAll account total (idx + 1) results (w₁.record (.progress (idx + 1) total .hydrating)) =
        (.ok rest, w') ∧ out = (first.1 ++ rest.1, first.2 || rest.2) := by
  obtain ⟨first, w₁, hone, h⟩ := bind_eq_ok.mp h
  obtain ⟨rest, w₂, hrest, hpure⟩ := bind_eq_ok.mp (bind_log h)
  cases hpure
  exact ⟨first, rest, w₁, hone, hrest, rfl⟩

theorem updateSyncCursor_eq_ok {account : Uuid} {cursor : String} {w w' : World}
    (h : updateSyncCursor account cursor w = (.ok (), w')) :
    w'.db = w.db.updateSyncCursor w.nextTime account cursor ∧
      w'.journal = w.journal ++ [.storedCursor account cursor] := by
  obtain ⟨now, w₁, hnow, h⟩ := bind_eq_ok.mp h
  cases hnow
  obtain ⟨u, w₂, hexecute, h⟩ := bind_eq_ok.mp h
  rw [execute_eq_ok hexecute] at h
  cases h
  exact ⟨rfl, rfl⟩

theorem updateSyncCursor_emits {account : Uuid} {cursor : String} {w w' : World}
    (h : updateSyncCursor account cursor w = (.ok (), w')) :
    World.Emits (· = .storedCursor account cursor) w w' :=
  ⟨_, (updateSyncCursor_eq_ok h).2, by simp⟩

theorem updateSyncCursor_eq_error {account : Uuid} {cursor : String} {e : StorageError} {w w' : World}
    (h : updateSyncCursor account cursor w = (.error e, w')) : w'.db = w.db ∧ w'.journal = w.journal := by
  obtain hnow | ⟨now, w₁, hnow, h⟩ := bind_eq_error.mp h
  · cases hnow
  · cases hnow
    obtain hexecute | ⟨u, w₂, _, h⟩ := bind_eq_error.mp h
    · rw [statement_eq_error hexecute]
      exact ⟨rfl, rfl⟩
    · cases h

section Cases

variable {bundled : Bundled} {account : LinkedAccount} {w w' : World} {r : Except SyncError Unit}

theorem advanceCursor_false (account : Uuid) (page : SyncPage) :
    advanceCursor account page false = mapError .database (updateSyncCursor account page.nextCursor) :=
  rfl

structure Applied (bundled : Bundled) (account : LinkedAccount) (w : World) (token : String)
    (page : SyncPage) (isInitialSync : Bool) (w₁ : World) (r : Except SyncError (List NewEmail × Bool))
    (w₂ : World) : Prop where
  discover : discover bundled (providerFor account) account w = (.ok (token, page, isInitialSync), w₁)
  apply : applyPage (providerFor account) account.id token page
    (w₁.record (.discovered account.id page isInitialSync)) = (r, w₂)

section Applied

variable {token : String} {page : SyncPage} {isInitialSync : Bool} {w₁ w₂ w₃ : World}
  {outcome : Except SyncError (List NewEmail × Bool)}

theorem Applied.unstored (h : Applied bundled account w token page isInitialSync w₁ outcome w₂) :
    World.Emits Unstored w w₂ := by
  have hdiscover := (emits_discover bundled account).of_eq h.discover
  have hrecord : World.Emits Unstored w₁ (w₁.record (.discovered account.id page isInitialSync)) :=
    World.emits_record trivial
  have happly := ((leaves_applyPage account token page).of_eq h.apply).emits
  exact IsTrans.trans _ _ _ (hdiscover.mono fun _ => unstored_of_discovers)
    (IsTrans.trans _ _ _ hrecord (happly.mono fun _ => unstored_of_applies))

theorem Applied.accounts (h : Applied bundled account w token page isInitialSync w₁ outcome w₂) :
    w₂.db.linkedAccounts = w₁.db.linkedAccounts :=
  ((leaves_applyPage account token page).of_eq h.apply).accounts

theorem Applied.storedCursor_mem_since {cursor : String}
    (h : Applied bundled account w token page isInitialSync w₁ outcome w₂)
    (hstore : updateSyncCursor account.id page.nextCursor w₂ = (.ok (), w₃))
    (hfinish : World.Emits Classifies w₃ w') :
    .storedCursor account.id cursor ∈ w.since w' ↔ cursor = page.nextCursor := by
  have hemits := updateSyncCursor_emits hstore
  have hto : World.Emits (fun _ => True) w w₃ := IsTrans.trans _ _ _
    (h.unstored.mono fun _ _ => trivial) (hemits.mono fun _ _ => trivial)
  rw [hto.mem_since hfinish, h.unstored.mem_since hemits]
  constructor
  · rintro ((hcursor | hcursor) | hcursor)
    · exact (h.unstored.of_mem_since hcursor).elim
    · cases hemits.of_mem_since hcursor
      rfl
    · exact (hfinish.of_mem_since hcursor).elim
  · rintro rfl
    apply Or.inl (Or.inr _)
    rw [World.since, (updateSyncCursor_eq_ok hstore).2, List.drop_left]
    exact List.mem_singleton_self _

end Applied

inductive PassEnds (bundled : Bundled) (account : LinkedAccount) (w : World) :
    Except SyncError Unit → World → Prop
  | undiscovered {e w'} (h : discover bundled (providerFor account) account w = (.error e, w')) :
    PassEnds bundled account w (.error e) w'
  | unapplied {token page isInitialSync w₁ e w'}
    (h : Applied bundled account w token page isInitialSync w₁ (.error e) w') :
    PassEnds bundled account w (.error e) w'
  | held {token page isInitialSync w₁ saved w₂ r w'}
    (h : Applied bundled account w token page isInitialSync w₁ (.ok (saved, true)) w₂)
    (hfinish : finish account token isInitialSync saved w₂ = (r, w')) :
    PassEnds bundled account w r w'
  | unstored {token page isInitialSync w₁ saved w₂ e w'}
    (h : Applied bundled account w token page isInitialSync w₁ (.ok (saved, false)) w₂)
    (hstore : updateSyncCursor account.id page.nextCursor w₂ = (.error e, w')) :
    PassEnds bundled account w (.error (.database e)) w'
  | stored {token page isInitialSync w₁ saved w₂ w₃ r w'}
    (h : Applied bundled account w token page isInitialSync w₁ (.ok (saved, false)) w₂)
    (hstore : updateSyncCursor account.id page.nextCursor w₂ = (.ok (), w₃))
    (hfinish : finish account token isInitialSync saved w₃ = (r, w')) :
    PassEnds bundled account w r w'

theorem syncOneAccountInner_ends (h : syncOneAccountInner bundled account w = (r, w')) :
    PassEnds bundled account w r w' := by
  obtain ⟨e, hdiscover, rfl⟩ | ⟨⟨token, page, isInitialSync⟩, w₁, hdiscover, h⟩ := bind_cases h
  · exact .undiscovered hdiscover
  · obtain ⟨e, happly, rfl⟩ | ⟨⟨saved, failed⟩, w₂, happly, h⟩ := bind_cases (bind_log h)
    · exact .unapplied ⟨hdiscover, happly⟩
    · obtain ⟨e, hstore, rfl⟩ | ⟨_, w₃, hstore, hfinish⟩ := bind_cases h
      · cases failed with
        | true => cases hstore
        | false =>
          rw [advanceCursor_false] at hstore
          obtain ⟨e, hupdate, rfl⟩ := mapError_eq_error.mp hstore
          exact .unstored ⟨hdiscover, happly⟩ hupdate
      · cases failed with
        | true =>
          cases hstore
          exact .held ⟨hdiscover, happly⟩ hfinish
        | false =>
          rw [advanceCursor_false] at hstore
          exact .stored ⟨hdiscover, happly⟩ (mapError_eq_ok.mp hstore) hfinish

end Cases

end Fumiko.EmailCore
