import Fumiko.EmailCore.TwinLaws

namespace Fumiko.EmailCore

open Fumiko.Common Fumiko.Foundation Fumiko.Foundation.Action Fumiko.Net Fumiko.OAuth
  Fumiko.Program Fumiko.Storage

section Services

variable {ε δ α β μ : Type}

def Drops (ms ms' : List μ) : Prop := ms' <:+ ms

instance : Std.Refl (Drops (μ := μ)) := ⟨fun _ => List.suffix_rfl⟩

instance : IsTrans (List μ) Drops := ⟨fun _ _ _ h h' => List.IsSuffix.trans h' h⟩

theorem drops_gmailRequest (url : String) (ask : GmailMoment → HttpReply α) :
    Moves Drops (Gmail.request url ask) := by
  constructor
  intro ms
  cases ms with
  | nil => exact List.suffix_rfl
  | cons m ms => exact List.suffix_cons m ms

theorem drops_listInbox (maxResults : Nat) (pageToken : Option String) (ids : List String) (total : Nat) :
    Moves Drops (Gmail.listInbox maxResults pageToken ids total) := by
  constructor
  intro ms
  induction ms generalizing pageToken ids total with
  | nil => exact List.suffix_rfl
  | cons m ms ih =>
    have hdrop : Drops (m :: ms) ms := List.suffix_cons m ms
    rw [Gmail.listInbox]
    split
    · exact hdrop
    · dsimp only
      split
      · split
        · exact IsTrans.trans _ _ _ hdrop (ih _ _ _)
        · exact hdrop
      · exact hdrop

theorem drops_readHistory (cursor : String) (pageToken : Option String) (c : Gmail.Changes) :
    Moves Drops (Gmail.readHistory cursor pageToken c) := by
  constructor
  intro ms
  induction ms generalizing pageToken c with
  | nil => exact List.suffix_rfl
  | cons m ms ih =>
    have hdrop : Drops (m :: ms) ms := List.suffix_cons m ms
    rw [Gmail.readHistory]
    dsimp only
    split
    · exact hdrop
    · split
      · exact hdrop
      · split
        · split
          · exact hdrop
          · exact IsTrans.trans _ _ _ hdrop (ih _ _)
        · exact hdrop

theorem drops_gmailInitialSync (options : SyncOptions) : Moves Drops (Gmail.initialSync options) := by
  apply moves_bind (drops_listInbox _ _ _ _)
  intro ids
  exact moves_bind (moves_mapError (drops_gmailRequest _ _)) fun _ => moves_pure _

theorem drops_gmailIncrementalSync (cursor : String) : Moves Drops (Gmail.incrementalSync cursor) :=
  moves_bind (drops_readHistory _ _ _) fun _ => moves_pure _

theorem drops_gmailFullMessage (id : String) : Moves Drops (Gmail.fetchFullMessage id) := by
  constructor
  intro ms
  cases ms with
  | nil => exact List.suffix_rfl
  | cons m ms => exact List.suffix_cons m ms

theorem drops_sendRequestWithRetry (ask : OutlookMoment → HttpReply α) (retries : Nat)
    (ms : List OutlookMoment) : Drops ms (Outlook.sendRequestWithRetry ask retries ms).2 := by
  induction retries generalizing ms with
  | zero =>
    cases ms with
    | nil => exact List.suffix_rfl
    | cons m ms => exact List.suffix_cons m ms
  | succ retries ih =>
    cases ms with
    | nil => exact List.suffix_rfl
    | cons m ms =>
      rw [Outlook.sendRequestWithRetry]
      split
      · exact IsTrans.trans _ _ _ (List.suffix_cons m ms) (ih ms)
      · exact List.suffix_cons m ms

theorem drops_outlookRequest (url : String) (ask : OutlookMoment → HttpReply α) :
    Moves Drops (Outlook.request url ask) :=
  ⟨fun ms => drops_sendRequestWithRetry ask _ ms⟩

theorem drops_readInitial (maxResults pagesLeft : Nat) (url : Option String) (ids : List String) :
    Moves Drops (Outlook.readInitial maxResults pagesLeft url ids) := by
  induction pagesLeft generalizing url ids with
  | zero =>
    cases url <;> exact moves_raise _
  | succ pagesLeft ih =>
    cases url with
    | none => exact moves_raise _
    | some url =>
      apply moves_bind (moves_mapError (drops_outlookRequest _ _))
      intro response
      dsimp only
      split
      · exact moves_pure _
      · exact ih _ _

theorem drops_readDelta (pagesLeft : Nat) (url : Option String) (c : Outlook.Changes) :
    Moves Drops (Outlook.readDelta pagesLeft url c) := by
  induction pagesLeft generalizing url c with
  | zero =>
    cases url <;> exact moves_raise _
  | succ pagesLeft ih =>
    cases url with
    | none => exact moves_raise _
    | some url =>
      constructor
      intro ms
      have hdrop := drops_sendRequestWithRetry (·.delta url) Outlook.max429Retries ms
      rw [Outlook.readDelta]
      dsimp only
      split
      · exact hdrop
      · split
        · exact hdrop
        · split
          · exact hdrop
          · exact IsTrans.trans _ _ _ hdrop ((ih _ _).run _)

theorem drops_outlookInitialSync (options : SyncOptions) : Moves Drops (Outlook.initialSync options) :=
  moves_bind (drops_readInitial _ _ _ _) fun _ => moves_pure _

theorem drops_outlookIncrementalSync (cursor : String) : Moves Drops (Outlook.incrementalSync cursor) :=
  moves_bind (drops_readDelta _ _ _) fun _ => moves_pure _

theorem drops_outlookFullMessage (id : String) : Moves Drops (Outlook.fetchFullMessage id) := by
  constructor
  intro ms
  cases ms with
  | nil => exact List.suffix_rfl
  | cons m ms => exact List.suffix_cons m ms

end Services

section Providers

variable {ε α : Type} {t : Trial}

theorem uniform_onGmail {x : Action (List GmailMoment) ε α} (hx : Moves Drops x) :
    Uniform t.Twins (onGmail x) := by
  refine uniform_spend (g := fun o => (x o.gmail).1) (f := fun o => { o with gmail := (x o.gmail).2 })
    { dated := ?_ } fun _ => rfl
  intro o h
  exact ⟨fun m hm => h.gmail m ((hx.run o.gmail).subset hm), h.outlook, h.imap⟩

theorem uniform_onOutlook {x : Action (List OutlookMoment) ε α} (hx : Moves Drops x) :
    Uniform t.Twins (onOutlook x) := by
  refine uniform_spend (g := fun o => (x o.outlook).1) (f := fun o => { o with outlook := (x o.outlook).2 })
    { dated := ?_ } fun _ => rfl
  intro o h
  exact ⟨h.gmail, fun m hm => h.outlook m ((hx.run o.outlook).subset hm), h.imap⟩

theorem uniform_nextImap : Uniform t.Twins (nextImap : Program ε (Option ImapSession)) := by
  refine uniform_spend (g := fun o => .ok o.imap.head?) (f := fun o => { o with imap := o.imap.tail })
    { dated := ?_ } fun _ => rfl
  intro o h
  exact ⟨h.gmail, h.outlook, fun session hsession => h.imap session (List.mem_of_mem_tail hsession)⟩

theorem uniform_completionOrder (l : List α) : Uniform t.Twins (completionOrder l : Program ε (List α)) :=
  uniform_spend (g := fun o => .ok (arrange (o.completions.headD []) l))
    (f := fun o => { o with completions := o.completions.tail }) {} fun _ => rfl

theorem onGmail_request_eq_ok {f : ReqwestError → ε} {url : String} {ask : GmailMoment → HttpReply α} {a : α}
    {w : World} (h : (onGmail (mapError f (Gmail.request url ask)) w).1 = .ok a) :
    ∃ m ∈ w.outside.gmail, (ask m).json url = .ok a := by
  have hrun : (mapError f (Gmail.request url ask) w.outside.gmail).1 = .ok a := h
  have hok : mapError f (Gmail.request url ask) w.outside.gmail =
      (.ok a, (mapError f (Gmail.request url ask) w.outside.gmail).2) := Prod.ext hrun rfl
  have hrequest := mapError_eq_ok.mp hok
  cases hgmail : w.outside.gmail with
  | nil =>
    rw [hgmail] at hrequest
    cases hrequest
  | cons m ms =>
    rw [hgmail] at hrequest
    exact ⟨m, List.mem_cons_self, congrArg Prod.fst hrequest⟩

theorem sendRequestWithRetry_eq {ask : OutlookMoment → HttpReply α} {retries : Nat} {ms : List OutlookMoment} :
    (Outlook.sendRequestWithRetry ask retries ms).1 = .failed Outlook.closed ∨
      ∃ m ∈ ms, (Outlook.sendRequestWithRetry ask retries ms).1 = ask m := by
  induction ms generalizing retries with
  | nil => cases retries <;> exact .inl rfl
  | cons m ms ih =>
    cases retries with
    | zero => exact .inr ⟨m, List.mem_cons_self, rfl⟩
    | succ retries =>
      rw [Outlook.sendRequestWithRetry]
      split
      · cases @ih retries with
        | inl hclosed => exact .inl hclosed
        | inr hasked =>
          obtain ⟨m', hm, hreply⟩ := hasked
          exact .inr ⟨m', List.mem_cons_of_mem _ hm, hreply⟩
      · exact .inr ⟨m, List.mem_cons_self, rfl⟩

theorem onOutlook_request_eq_ok {f : ReqwestError → ε} {url : String} {ask : OutlookMoment → HttpReply α} {a : α}
    {w u : World} (h : onOutlook (mapError f (Outlook.request url ask)) w = (.ok a, u)) :
    ∃ m ∈ w.outside.outlook, (ask m).json url = .ok a ∧ w.outside.parseRfc3339 = u.outside.parseRfc3339 := by
  cases hx : mapError f (Outlook.request url ask) w.outside.outlook with
  | mk r ms =>
    have hrun : (r, { w with outside := { w.outside with outlook := ms } }) = (.ok a, u) := by
      rw [← h, onOutlook, focus, hx]
    cases hrun
    have hreply := congrArg Prod.fst (mapError_eq_ok.mp hx)
    change (Outlook.sendRequestWithRetry ask _ _).1.json url = .ok a at hreply
    cases @sendRequestWithRetry_eq _ ask Outlook.max429Retries w.outside.outlook with
    | inl hclosed =>
      rw [hclosed] at hreply
      cases hreply
    | inr hasked =>
      obtain ⟨m, hm, hask⟩ := hasked
      rw [hask] at hreply
      exact ⟨m, hm, hreply, rfl⟩

theorem uniform_undated {date : Option Int} (hdate : ¬t.sameClock → date.isSome) (hnone : date = none) :
    Uniform t.Twins (unixTimestamp : Program ε Int) := by
  have hsame : t.sameClock := by
    by_contra hsame
    simp [hnone] at hdate
    exact hsame hdate
  exact lockstep_unixTimestamp.mono fun _ _ h => (h hsame).symm

structure EmailProvider.Alike (t : Trial) (provider : EmailProvider) : Prop where
  initialSync (accessToken : String) (options : SyncOptions) :
    Uniform t.Twins (provider.initialSync accessToken options)
  incrementalSync (accessToken cursor : String) : Uniform t.Twins (provider.incrementalSync accessToken cursor)
  fetchMessageMetadata (accessToken : String) (ids : List String) :
    Uniform t.Twins (provider.fetchMessageMetadata accessToken ids)
  fetchFullMessage (accessToken id : String) : Uniform t.Twins (provider.fetchFullMessage accessToken id)

theorem gmail_alike : Gmail.provider.Alike t where
  initialSync _ options := uniform_onGmail (drops_gmailInitialSync options)
  incrementalSync _ cursor := uniform_onGmail (drops_gmailIncrementalSync cursor)
  fetchFullMessage _ id := uniform_onGmail (drops_gmailFullMessage id)
  fetchMessageMetadata _ ids := by
    apply uniform_bind (uniform_completionOrder ids)
    intro order
    apply uniform_collect
    intro id
    have hrequest : Uniform t.Twins (onGmail <| mapError ProviderError.ofReqwest <|
        Gmail.request (Gmail.detailUrl id) (·.message id)) :=
      uniform_onGmail (moves_mapError (drops_gmailRequest _ _))
    apply lockstep_bind (hrequest.with
      (P := fun metadata => ¬t.sameClock → (Decimal.parseI64 metadata.internalDate).isSome) ?_)
    · rintro _ metadata ⟨rfl, hdate⟩
      dsimp only
      split
      · exact uniform_pure _
      · next hnone => exact uniform_bind (uniform_undated hdate hnone) fun _ => uniform_pure _
    · intro w w' metadata h hok hsame
      obtain ⟨m, hm, hreply⟩ := onGmail_request_eq_ok hok
      exact (h.dated hsame).gmail m hm id _ metadata hreply

theorem outlook_alike : Outlook.provider.Alike t where
  initialSync _ options := uniform_onOutlook (drops_outlookInitialSync options)
  incrementalSync _ cursor := uniform_onOutlook (drops_outlookIncrementalSync cursor)
  fetchFullMessage _ id := uniform_onOutlook (drops_outlookFullMessage id)
  fetchMessageMetadata _ ids := by
    apply uniform_bind (uniform_completionOrder ids)
    intro order
    apply uniform_collect
    intro id
    have hrequest : Uniform t.Twins (onOutlook <| mapError ProviderError.ofReqwest <|
        Outlook.request (Outlook.messageUrl id) (·.message id)) :=
      uniform_onOutlook (moves_mapError (drops_outlookRequest _ _))
    -- The date is read by the parser as it is after the request.
    apply uniform_bind_read hrequest (fun _ _ h => (h.shared (g := Outside.parseRfc3339) fun _ => rfl).symm)
      (P := fun message parse => ¬t.sameClock → (message.receivedDateTime.bind parse).isSome)
    · intro w w' message u h hok hsame
      obtain ⟨m, hm, hreply, hparse⟩ := onOutlook_request_eq_ok hok
      rw [← hparse]
      exact (h.dated hsame).outlook m hm id _ message hreply
    · intro message parse hdate
      dsimp only
      split
      · exact uniform_pure _
      · next hnone => exact uniform_bind (uniform_undated hdate hnone) fun _ => uniform_pure _

theorem uniform_reply (r : Except String α) : Uniform t.Twins (Imap.reply r) := by
  cases r with
  | ok a => exact uniform_pure a
  | error text => exact uniform_raise _

theorem lockstep_connectSession :
    Lockstep t.Twins (fun session session' => session' = session ∧ (¬t.sameClock → FetchesDated session))
      Imap.connectSession Imap.connectSession := by
  have hnext : Lockstep t.Twins (fun session session' => session' = session ∧
      (¬t.sameClock → ∀ s ∈ session, FetchesDated s)) nextImap (nextImap : Program ProviderError _) := by
    apply uniform_nextImap.with
    intro w w' session h hok hsame s hs
    cases hok
    exact (h.dated hsame).imap s (List.mem_of_mem_head? hs)
  apply lockstep_bind hnext
  rintro _ session ⟨rfl, hdated⟩
  cases session with
  | none => exact lockstep_raise _
  | some session =>
    dsimp only
    split
    · exact lockstep_pure ⟨rfl, fun hsame => hdated hsame session rfl⟩
    · exact lockstep_raise _
    · exact lockstep_raise _

theorem uniform_selectInbox (session : ImapSession) : Uniform t.Twins (Imap.selectInbox session) := by
  apply uniform_bind (uniform_reply _)
  intro validity
  exact uniform_bind (twins_log _ _) fun _ => uniform_pure _

theorem uniform_uidSearch (session : ImapSession) (query : ImapQuery) :
    Uniform t.Twins (Imap.uidSearch session query) := by
  apply uniform_bind (uniform_reply _)
  intro uids
  exact uniform_bind (twins_log _ _) fun _ => uniform_pure _

theorem uniform_connectSession : Uniform t.Twins Imap.connectSession :=
  lockstep_connectSession.mono fun _ _ h => h.1.symm

theorem imap_alike (p : Imap.ImapProvider) : (Imap.provider p).Alike t where
  initialSync _ options := by
    apply uniform_bind uniform_connectSession
    intro session
    apply uniform_bind (uniform_selectInbox _)
    intro validity
    exact uniform_bind (uniform_uidSearch _ _) fun _ => uniform_pure _
  incrementalSync _ cursor := by
    change Uniform t.Twins (Imap.incrementalSync cursor)
    rw [Imap.incrementalSync]
    split
    · exact uniform_raise _
    · apply uniform_bind uniform_connectSession
      intro session
      apply uniform_bind (uniform_selectInbox _)
      intro validity
      split
      · exact uniform_raise _
      · exact uniform_bind (uniform_uidSearch _ _) fun _ => uniform_pure _
  fetchMessageMetadata _ ids := by
    change Uniform t.Twins (Imap.fetchMessageMetadata ids)
    rw [Imap.fetchMessageMetadata]
    split
    · exact uniform_pure _
    · apply lockstep_bind lockstep_connectSession
      rintro _ session ⟨rfl, hdated⟩
      apply uniform_bind (uniform_selectInbox _)
      intro _
      have hreply : Lockstep t.Twins (fun fetches fetches' => fetches' = fetches ∧
          (¬t.sameClock → ∀ f ∈ fetches, (f.headers.bind (·.date)).isSome))
          (Imap.reply (session.fetch ids)) (Imap.reply (session.fetch ids)) := by
        cases hfetch : session.fetch ids with
        | error text => exact lockstep_raise _
        | ok fetches => exact lockstep_pure ⟨rfl, fun hsame => hdated hsame ids fetches hfetch⟩
      apply lockstep_bind hreply
      rintro _ fetches ⟨rfl, hdates⟩
      apply uniform_collect
      intro id
      rw [Imap.readFetch]
      split
      · exact uniform_raise _
      · next f hf =>
        have hmem : f ∈ fetches := List.mem_reverse.mp (List.mem_of_find?_eq_some hf)
        split
        · exact uniform_pure _
        · next hnone =>
          exact uniform_bind (uniform_undated (fun hsame => hdates hsame f hmem) hnone) fun _ => uniform_pure _
  fetchFullMessage _ id := by
    apply uniform_bind uniform_connectSession
    intro session
    apply uniform_bind (uniform_selectInbox _)
    intro _
    exact uniform_liftExcept _

theorem providerFor_alike (account : LinkedAccount) : (providerFor account).Alike t := by
  rw [providerFor]
  split
  · exact imap_alike _
  · split
    · exact outlook_alike
    · exact gmail_alike

end Providers

section Discovery

variable {ε : Type} {t : Trial} {w w' : World} {provider : EmailProvider} {account : LinkedAccount}

theorem uniform_initialSyncOptions : Uniform t.Twins initialSyncOptions :=
  uniform_bind (uniform_settingOrNone _) fun _ => uniform_pure _

theorem uniform_clearSyncCursor : Uniform t.Twins (clearSyncCursor t.account) := by
  have hstatement : Uniform t.Twins (execute (Db.clearSyncCursor t.account)) :=
    lockstep_execute (isolated_updateAccounts fun _ => rfl) (isolated_updateAccounts fun _ => rfl)
      (fun _ => Db.seen_clearSyncCursor) fun _ => Db.seen_clearSyncCursor
  exact uniform_bind hstatement fun _ => twins_log _ _

theorem uniform_fetchSyncPage (hprovider : provider.Alike t) (haccount : account.id = t.account)
    (accessToken : String) : Uniform t.Twins (fetchSyncPage provider account accessToken) := by
  have hinitial : Uniform t.Twins (initialSyncOptions >>= fun options =>
      provider.initialSync accessToken options >>= fun page => pure (page, true)) :=
    uniform_bind uniform_initialSyncOptions fun _ =>
      uniform_bind (hprovider.initialSync _ _) fun _ => uniform_pure _
  rw [fetchSyncPage]
  split
  · exact hinitial
  · apply uniform_bind (uniform_attempt (hprovider.incrementalSync _ _))
    intro outcome
    split
    · exact uniform_pure _
    · exact uniform_bind (lockstep_ignore (haccount ▸ uniform_clearSyncCursor)) fun _ => hinitial
    · exact uniform_raise _

theorem discover_twins (bundled : Bundled) (hprovider : provider.Alike t) (haccount : account.id = t.account)
    (h : t.Twins w w') (hgood : TokenGood t.account w ↔ TokenGood t.account w') :
    Outcomes Eq (discover bundled provider account w).1 (discover bundled provider account w').1 ∧
      t.Twins (discover bundled provider account w).2 (discover bundled provider account w').2 := by
  have hfetch (accessToken : String) := uniform_fetchSyncPage hprovider haccount accessToken
  apply lockstep_bind_at (accessTokenFor_twins bundled haccount h hgood)
  rintro accessToken _ rfl
  apply uniform_bind (uniform_attempt (hfetch accessToken))
  intro outcome
  split
  · exact uniform_pure _
  · have hretry := uniform_bind (uniform_renewToken bundled haccount) fun accessToken =>
      uniform_bind (lockstep_mapError (f := SyncError.provider) (hfetch accessToken)) fun r =>
        uniform_pure (accessToken, r.1, r.2)
    simpa only [bind_assoc] using hretry
  · exact uniform_raise _

end Discovery

section Saving

variable {t : Trial}

def NewEmail.renamed (ρ : Uuid → Uuid) (e : NewEmail) : NewEmail := { e with emailId := ρ e.emailId }

structure Trial.SameEmails (t : Trial) (emails emails' : List NewEmail) : Prop where
  eq : emails' = emails.map (NewEmail.renamed t.rename)
  own : ∀ e ∈ emails, Own t.account t.start e.emailId ∧ Own t.account t.start' (t.rename e.emailId)

theorem Trial.SameEmails.append {l l' m m' : List NewEmail} (h : t.SameEmails l l') (k : t.SameEmails m m') :
    t.SameEmails (l ++ m) (l' ++ m') where
  eq := by rw [h.eq, k.eq, List.map_append]
  own e he := by
    cases List.mem_append.mp he with
    | inl he => exact h.own e he
    | inr he => exact k.own e he

theorem Trial.SameEmails.arrange {l l' : List NewEmail} (h : t.SameEmails l l') (ns : List Nat) :
    t.SameEmails (arrange ns l) (Foundation.arrange ns l') where
  eq := by rw [h.eq, arrange_map]
  own e he := h.own e (mem_arrange.mp he)

structure Trial.SameRow (t : Trial) (row row' : Uuid) : Prop where
  eq : row' = t.rename row
  own : Own t.account t.start row
  own' : Own t.account t.start' row'

theorem lockstep_saveEmail (key : String) (subject sender : Option String) (receivedAt : Int) (isRead : Bool)
    (snippet : Option String) :
    Lockstep t.Twins t.SameRow (saveEmail t.account key subject sender receivedAt isRead snippet)
      (saveEmail t.account key subject sender receivedAt isRead snippet) := by
  apply lockstep_bind lockstep_freshUuid
  intro fresh fresh' hfresh
  apply lockstep_bind lockstep_unixTimestamp
  intro now now' _
  apply lockstep_bind (Q := fun _ _ => True) (lockstep_read fun _ _ _ => trivial)
  intro isNew isNew' _
  have hstatement : Lockstep t.Twins t.SameRow
      (statement (Db.saveEmail fresh now t.account key subject sender receivedAt isRead snippet))
      (statement (Db.saveEmail fresh' now' t.account key subject sender receivedAt isRead snippet)) := by
    apply lockstep_statement (isolated_statement confined_saveEmail) (isolated_statement confined_saveEmail)
    intro w w' h
    rw [hfresh.eq]
    refine (outcomes_of_map (Db.saveEmail_alike t.injective h.seen h.isolated.keyed h.isolated'.keyed
      (h.isolated.own hfresh.free.own) (hfresh.eq ▸ h.isolated'.own hfresh.free'.own))).mono ?_
    rintro ⟨row, db⟩ ⟨row', db'⟩ ⟨⟨hrow, hrow'⟩, hsame⟩
    exact ⟨⟨congrArg Prod.fst hsame, h.isolated.own_saved hrow, h.isolated'.own_saved hrow'⟩,
      congrArg Prod.snd hsame⟩
  apply lockstep_bind hstatement
  intro row row' hrow
  apply lockstep_bind (twins_log _ _)
  intro _ _ _
  exact lockstep_pure hrow

def Trial.SameSaved (t : Trial) (r r' : List NewEmail × Bool) : Prop := t.SameEmails r.1 r'.1 ∧ r'.2 = r.2

theorem lockstep_hydrateOne (result : Except ProviderError MessageMetadata) :
    Lockstep t.Twins t.SameSaved (hydrateOne t.account result) (hydrateOne t.account result) := by
  cases result with
  | error e => exact lockstep_pure ⟨⟨rfl, by simp⟩, rfl⟩
  | ok m =>
    apply lockstep_bind (lockstep_mapError (lockstep_saveEmail _ _ _ _ _ _))
    intro row row' hrow
    apply lockstep_pure
    refine ⟨⟨by rw [hrow.eq]; rfl, ?_⟩, rfl⟩
    intro e he
    cases List.mem_singleton.mp he
    exact ⟨hrow.own, hrow.eq ▸ hrow.own'⟩

theorem lockstep_hydrateAll (total idx : Nat) (results : List (Except ProviderError MessageMetadata)) :
    Lockstep t.Twins t.SameSaved (hydrateAll t.account total idx results)
      (hydrateAll t.account total idx results) := by
  induction results generalizing idx with
  | nil => exact lockstep_pure ⟨⟨rfl, by simp⟩, rfl⟩
  | cons result results ih =>
    apply lockstep_bind (lockstep_hydrateOne result)
    intro first first' hfirst
    apply lockstep_bind (twins_log _ _)
    intro _ _ _
    apply lockstep_bind (ih (idx + 1))
    intro rest rest' hrest
    exact lockstep_pure ⟨hfirst.1.append hrest.1, by rw [hfirst.2, hrest.2]⟩

theorem lockstep_hydrate {provider : EmailProvider} (hprovider : provider.Alike t) (accessToken : String)
    (page : SyncPage) :
    Lockstep t.Twins t.SameSaved (hydrate provider t.account accessToken page)
      (hydrate provider t.account accessToken page) := by
  rw [hydrate]
  split
  · exact lockstep_pure ⟨⟨rfl, by simp⟩, rfl⟩
  · apply lockstep_bind (twins_log _ _)
    intro _ _ _
    apply lockstep_bind (lockstep_mapError (hprovider.fetchMessageMetadata _ _))
    rintro results _ rfl
    apply lockstep_bind (twins_log _ _)
    intro _ _ _
    exact lockstep_hydrateAll _ _ _

theorem uniform_applyRemoteChanges (page : SyncPage) : Uniform t.Twins (applyRemoteChanges t.account page) := by
  have htrash (key : String) : Uniform t.Twins (markTrashed t.account key) := by
    apply lockstep_bind lockstep_unixTimestamp
    intro now now' _
    exact lockstep_execute (isolated_updateEmails (by simp +contextual) (fun _ => rfl) fun _ => rfl)
      (isolated_updateEmails (by simp +contextual) (fun _ => rfl) fun _ => rfl)
      (fun _ => Db.seen_markTrashed) fun _ => Db.seen_markTrashed
  have huntrash (key : String) : Uniform t.Twins (markUntrashed t.account key) :=
    lockstep_execute (isolated_updateEmails (by simp +contextual) (fun _ => rfl) fun _ => rfl)
      (isolated_updateEmails (by simp +contextual) (fun _ => rfl) fun _ => rfl)
      (fun _ => Db.seen_markUntrashed) fun _ => Db.seen_markUntrashed
  have hdelete (key : String) : Uniform t.Twins (deleteByProviderMessageId t.account key) :=
    lockstep_execute (isolated_deleteEmails (by simp +contextual)) (isolated_deleteEmails (by simp +contextual))
      (fun _ => Db.seen_deleteByProviderMessageId t.injective)
      fun _ => Db.seen_deleteByProviderMessageId Function.injective_id
  apply lockstep_mapError
  apply uniform_bind (uniform_forEach htrash _)
  intro _
  apply uniform_bind (uniform_forEach huntrash _)
  intro _
  exact uniform_forEach hdelete _

theorem lockstep_applyPage {provider : EmailProvider} (hprovider : provider.Alike t) (accessToken : String)
    (page : SyncPage) :
    Lockstep t.Twins t.SameSaved (applyPage provider t.account accessToken page)
      (applyPage provider t.account accessToken page) := by
  apply lockstep_bind (lockstep_hydrate hprovider _ _)
  intro saved saved' hsaved
  apply lockstep_bind (uniform_applyRemoteChanges page)
  intro _ _ _
  exact lockstep_pure hsaved

theorem uniform_advanceCursor (page : SyncPage) (fetchErrorsOccurred : Bool) :
    Uniform t.Twins (advanceCursor t.account page fetchErrorsOccurred) := by
  rw [advanceCursor]
  split
  · exact uniform_pure _
  · apply lockstep_mapError
    apply lockstep_bind lockstep_unixTimestamp
    intro now now' _
    have hstatement : Lockstep t.Twins Eq (execute (Db.updateSyncCursor now t.account page.nextCursor))
        (execute (Db.updateSyncCursor now' t.account page.nextCursor)) :=
      lockstep_execute (isolated_updateAccounts fun _ => rfl) (isolated_updateAccounts fun _ => rfl)
        (fun _ => Db.seen_updateSyncCursor) fun _ => Db.seen_updateSyncCursor
    apply lockstep_bind hstatement
    intro _ _ _
    exact twins_log _ _

theorem uniform_setSyncError (error : String) : Uniform t.Twins (setSyncError t.account error) :=
  lockstep_execute (isolated_updateAccounts fun _ => rfl) (isolated_updateAccounts fun _ => rfl)
    (fun _ => Db.seen_setSyncError) fun _ => Db.seen_setSyncError

end Saving

section Classification

variable {ε : Type} {t : Trial} {provider : EmailProvider} {accessToken : String}

theorem uniform_askClassifier (f : ClassifierMoment → Except String (Option ClassificationMatch)) :
    Uniform t.Twins (askClassifier f) := by
  have hnext : Uniform t.Twins (nextClassifier : Program SyncError (Option ClassifierMoment)) :=
    uniform_spend (g := fun o => .ok o.classifier.head?) (f := fun o => { o with classifier := o.classifier.tail })
      {} fun _ => rfl
  apply uniform_bind hnext
  intro moment
  cases moment <;> exact uniform_pure _

theorem uniform_tier2Match (hprovider : provider.Alike t) (criteria : List Criterion) (email : NewEmail) :
    Uniform t.Twins (tier2Match provider accessToken criteria email) := by
  apply uniform_bind (twins_log _ _)
  intro _
  apply uniform_bind (uniform_attempt (hprovider.fetchFullMessage _ _))
  intro outcome
  split
  · exact uniform_pure _
  · split
    · exact uniform_pure _
    · apply uniform_bind (uniform_askClassifier _)
      intro answer
      split <;> exact uniform_pure _

theorem uniform_classifyOne (hprovider : provider.Alike t) (isInitialSync : Bool) (criteria : List Criterion)
    (email : NewEmail) (tier2Budget : Nat) :
    Uniform t.Twins (classifyOne provider accessToken isInitialSync criteria email tier2Budget) := by
  apply uniform_bind (uniform_askClassifier _)
  intro answer
  split
  · split
    · exact uniform_pure _
    · split
      · split
        · exact uniform_bind (uniform_tier2Match hprovider _ _) fun _ => uniform_pure _
        · exact uniform_pure _
      · exact uniform_pure _
  · exact uniform_pure _

theorem Free.unclassified {id : Uuid} {w₀ w : World} (hfree : Free t.account w₀ id)
    (h : Isolated t.account w₀ w) :
    ∀ c ∈ w.db.classifications, w.db.owns (Db.only t.account) c.emailId = false → c.id ≠ id := by
  intro c hc hother
  apply hfree.classification
  rw [← h.rows]
  obtain ⟨e, he, hid⟩ := h.keyed.fk c hc
  have haccount : e.accountId ≠ t.account := by
    intro haccount
    rw [Db.owns_iff.mpr ⟨e, he, decide_eq_true haccount, hid⟩] at hother
    cases hother
  exact List.mem_filter.mpr ⟨hc, Db.owns_iff.mpr ⟨e, he, decide_eq_true haccount, hid⟩⟩

theorem lockstep_saveClassification {email : Uuid} (hown : Own t.account t.start email)
    (hown' : Own t.account t.start' (t.rename email)) (criterion : Uuid) (confidence : Option Rat) :
    Lockstep t.Twins Eq (saveClassification email criterion confidence)
      (saveClassification (t.rename email) criterion confidence) := by
  apply lockstep_bind lockstep_freshUuid
  intro fresh fresh' hfresh
  apply lockstep_bind lockstep_unixTimestamp
  intro now now' _
  have hstatement : Lockstep t.Twins Eq (statement (Db.saveClassification fresh now email criterion confidence))
      (statement (Db.saveClassification fresh' now' (t.rename email) criterion confidence)) := by
    apply lockstep_statement (isolated_statement (confined_saveClassification hown))
      (isolated_statement (confined_saveClassification hown'))
    intro w w' h
    rw [hfresh.eq]
    refine (outcomes_of_map (Db.saveClassification_alike t.injective h.seen h.isolated.keyed
      h.isolated'.keyed (h.isolated.own hown) (h.isolated'.own hown') (hfresh.free.unclassified h.isolated)
      (hfresh.eq ▸ hfresh.free'.unclassified h.isolated'))).mono ?_
    rintro ⟨_, db⟩ ⟨_, db'⟩ ⟨_, hsame⟩
    exact ⟨rfl, congrArg Prod.snd hsame⟩
  apply lockstep_bind hstatement
  intro _ _ _
  exact twins_log _ _

theorem lockstep_recordMatch {email : NewEmail} (hown : Own t.account t.start email.emailId)
    (hown' : Own t.account t.start' (t.rename email.emailId)) (active : List WatchCriterion)
    (found : Option ClassificationMatch) :
    Lockstep t.Twins Eq (recordMatch active email found) (recordMatch active (email.renamed t.rename) found) := by
  cases found with
  | none => exact uniform_pure _
  | some c =>
    rw [recordMatch, recordMatch]
    split
    · exact uniform_pure _
    · apply lockstep_bind (lockstep_ignore (lockstep_saveClassification hown hown' _ _))
      intro _ _ _
      exact uniform_pure _

theorem lockstep_classifyAll (hprovider : provider.Alike t) (isInitialSync : Bool) (active : List WatchCriterion)
    (total : Nat) {emails : List NewEmail}
    (hown : ∀ e ∈ emails, Own t.account t.start e.emailId ∧ Own t.account t.start' (t.rename e.emailId))
    (tier2Budget completedCount : Nat) :
    Lockstep t.Twins Eq
      (classifyAll provider accessToken isInitialSync active total emails tier2Budget completedCount)
      (classifyAll provider accessToken isInitialSync active total (emails.map (NewEmail.renamed t.rename))
        tier2Budget completedCount) := by
  induction emails generalizing tier2Budget completedCount with
  | nil => exact uniform_pure _
  | cons email emails ih =>
    obtain ⟨hfirst, hrest⟩ := List.forall_mem_cons.mp hown
    apply lockstep_bind (uniform_classifyOne hprovider isInitialSync _ email tier2Budget)
    rintro found _ rfl
    apply lockstep_bind (lockstep_recordMatch hfirst.1 hfirst.2 active found.1)
    rintro counted _ rfl
    cases counted with
    | false => exact ih hrest _ _
    | true =>
      apply lockstep_bind (twins_log _ _)
      intro _ _ _
      exact ih hrest _ _

theorem lockstep_completionOrder {emails emails' : List NewEmail} (h : t.SameEmails emails emails') :
    Lockstep t.Twins t.SameEmails (completionOrder emails : Program ε _) (completionOrder emails') := by
  have horder : Uniform t.Twins (fun w => (.ok (w.outside.completions.headD []),
      { w with outside := { w.outside with completions := w.outside.completions.tail } }) : Program ε (List Nat)) :=
    uniform_spend (g := fun o => .ok (o.completions.headD []))
      (f := fun o => { o with completions := o.completions.tail }) {} fun _ => rfl
  apply lockstep_bind (f := fun order => pure (arrange order emails))
    (g := fun order => pure (arrange order emails')) horder
  rintro order _ rfl
  exact lockstep_pure (h.arrange order)

theorem lockstep_classifyNewEmails (hprovider : provider.Alike t) (isInitialSync : Bool)
    {emails emails' : List NewEmail} (h : t.SameEmails emails emails') :
    Lockstep t.Twins Eq (classifyNewEmails provider accessToken isInitialSync emails)
      (classifyNewEmails provider accessToken isInitialSync emails') := by
  have hempty : emails'.isEmpty = emails.isEmpty := by rw [h.eq, List.isEmpty_map]
  have hlength : emails'.length = emails.length := by rw [h.eq, List.length_map]
  have hactive : Uniform t.Twins listActiveCriteria :=
    uniform_query fun w w' h => by rw [Db.listActiveCriteria, Db.listActiveCriteria, h.watchCriteria]
  rw [classifyNewEmails, classifyNewEmails, hempty, hlength]
  split
  · exact uniform_pure _
  · apply lockstep_bind (uniform_attempt hactive)
    rintro active _ rfl
    split
    · exact uniform_pure _
    · split
      · exact uniform_pure _
      · apply lockstep_bind (uniform_settingOrNone _)
        rintro model _ rfl
        split
        · exact uniform_pure _
        · split
          · exact uniform_pure _
          · apply lockstep_bind (uniform_settingOrNone _)
            rintro backend _ rfl
            apply lockstep_bind (twins_log _ _)
            intro _ _ _
            apply lockstep_bind (lockstep_completionOrder h)
            intro order order' horder
            rw [horder.eq]
            exact lockstep_classifyAll hprovider _ _ _ horder.own _ _

end Classification

section Pass

variable {t : Trial} {w w' : World} {account : LinkedAccount}

theorem lockstep_purgeOldEmails (maxInbox maxFindings : Int) :
    Lockstep t.Twins (fun _ _ => True) (purgeOldEmails t.account maxInbox maxFindings)
      (purgeOldEmails t.account maxInbox maxFindings) := by
  apply lockstep_bind (lockstep_read (Q := Db.TiesAlike t.rename) fun _ _ h => h.ties)
  intro ranking ranking' hties
  have hinbox : Lockstep t.Twins (fun _ _ => True)
      (statement fun db => .ok (db.purgeInbox ranking t.account maxInbox))
      (statement fun db => .ok (db.purgeInbox ranking' t.account maxInbox)) := by
    apply lockstep_statement (isolated_deleteEmails (by simp +contextual [Db.inboxSurplus]))
      (isolated_deleteEmails (by simp +contextual [Db.inboxSurplus]))
    intro w w' h
    exact .ok ⟨trivial, Db.purgeInbox_alike t.injective h.seen hties⟩
  have hfindings : Lockstep t.Twins (fun _ _ => True)
      (statement fun db => .ok (db.purgeFindings ranking t.account maxFindings))
      (statement fun db => .ok (db.purgeFindings ranking' t.account maxFindings)) := by
    apply lockstep_statement (isolated_deleteEmails (by simp +contextual [Db.findingsSurplus]))
      (isolated_deleteEmails (by simp +contextual [Db.findingsSurplus]))
    intro w w' h
    exact .ok ⟨trivial, Db.purgeFindings_alike t.injective h.seen hties⟩
  apply lockstep_bind hinbox
  intro inbox inbox' _
  apply lockstep_bind hfindings
  intro findings findings' _
  exact lockstep_pure trivial

theorem uniform_purge : Uniform t.Twins (purge t.account) := by
  have hcapacity (key : String) (default : Nat) : Uniform t.Twins (capacity key default) :=
    uniform_bind (uniform_settingOrNone _) fun _ => uniform_pure _
  apply uniform_bind (hcapacity _ _)
  intro maxInbox
  apply uniform_bind (hcapacity _ _)
  intro maxFindings
  exact lockstep_ignore (lockstep_purgeOldEmails _ _)

theorem syncOneAccountInner_twins (bundled : Bundled) (haccount : account.id = t.account) (h : t.Twins w w')
    (hgood : TokenGood t.account w ↔ TokenGood t.account w') :
    Outcomes Eq (syncOneAccountInner bundled account w).1 (syncOneAccountInner bundled account w').1 ∧
      t.Twins (syncOneAccountInner bundled account w).2 (syncOneAccountInner bundled account w').2 := by
  have hprovider : (providerFor account).Alike t := providerFor_alike account
  apply lockstep_bind_at (discover_twins bundled hprovider haccount h hgood)
  rintro ⟨accessToken, page, isInitialSync⟩ _ rfl
  apply lockstep_bind (twins_log _ _)
  intro _ _ _
  rw [haccount]
  apply lockstep_bind (lockstep_applyPage hprovider _ _)
  rintro ⟨saved, failed⟩ ⟨saved', _⟩ ⟨hsaved, rfl⟩
  apply lockstep_bind (uniform_advanceCursor _ _)
  intro _ _ _
  apply lockstep_bind (lockstep_classifyNewEmails hprovider _ hsaved)
  intro _ _ _
  exact uniform_purge

theorem syncOneAccount_twins (bundled : Bundled) (haccount : account.id = t.account) (h : t.Twins w w')
    (hgood : TokenGood t.account w ↔ TokenGood t.account w') :
    Outcomes Eq (syncOneAccount bundled account w).1 (syncOneAccount bundled account w').1 ∧
      t.Twins (syncOneAccount bundled account w).2 (syncOneAccount bundled account w').2 := by
  obtain ⟨hinner, hafter⟩ := syncOneAccountInner_twins bundled haccount h hgood
  have hattempt : Outcomes Eq
      (attempt (syncOneAccountInner bundled account) w : Except SyncError _ × World).1
      (attempt (syncOneAccountInner bundled account) w' : Except SyncError _ × World).1 := .ok hinner.eq
  apply lockstep_bind_at ⟨hattempt, hafter⟩
  rintro outcome _ rfl
  cases outcome with
  | ok _ => exact uniform_pure _
  | error e =>
    apply uniform_bind (lockstep_ignore (haccount ▸ uniform_setSyncError _))
    intro _
    exact uniform_raise _

end Pass

end Fumiko.EmailCore
