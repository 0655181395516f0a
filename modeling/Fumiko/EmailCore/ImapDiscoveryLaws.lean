import Fumiko.EmailCore.PassLaws
import Fumiko.Foundation.Watermark
import Fumiko.Storage.SchemaLaws

/-! What the passes over an IMAP mailbox discover, as long as its UIDVALIDITY stays the same. -/

namespace Fumiko.EmailCore.Imap

open Fumiko.Common Fumiko.Foundation Fumiko.Foundation.Action Fumiko.Net Fumiko.OAuth
  Fumiko.Program Fumiko.Storage

section Cursors

variable {validity uid : ℕ}

theorem colon_not_mem_repr (n : ℕ) : ':' ∉ (Nat.repr n).toList := by
  intro h
  exact absurd (Decimal.digit_of_mem_repr h) (by decide)

theorem parseCursor_parts (validity uid : ℕ) : parseCursor (formatCursor validity uid) =
    some ((Decimal.parseU32 (Nat.repr validity)).getD 0, (Decimal.parseU32 (Nat.repr uid)).getD 0) := by
  have hfields : fields ':' (formatCursor validity uid).toList =
      [(Nat.repr validity).toList, (Nat.repr uid).toList] := by
    rw [formatCursor, String.toList_append, String.toList_append, List.append_assoc]
    change fields ':' ((Nat.repr validity).toList ++ ':' :: (Nat.repr uid).toList) = _
    rw [fields_append (colon_not_mem_repr _), fields_of_not_mem (colon_not_mem_repr _)]
  rw [parseCursor, hfields]
  simp only [String.ofList_toList]

theorem parseCursor_formatCursor (hvalidity : validity < 2 ^ 32) (huid : uid < 2 ^ 32) :
    parseCursor (formatCursor validity uid) = some (validity, uid) := by
  rw [parseCursor_parts, Decimal.parseU32_repr hvalidity, Decimal.parseU32_repr huid]
  rfl

end Cursors

section Pages

variable {l : List ℕ} {a floor : ℕ}

theorem mem_sortUids : a ∈ sortUids l ↔ a ∈ l := (List.perm_insertionSort _ l).mem_iff

theorem sortUids_nodup (h : l.Nodup) : (sortUids l).Nodup :=
  (List.perm_insertionSort _ l).nodup_iff.mpr h

theorem isGreatest_getLast_sortUids (hfloor : ∀ a ∈ l, floor ≤ a) :
    IsGreatest (insert floor {a | a ∈ l}) ((sortUids l).getLast?.getD floor) := by
  have hsorted : (sortUids l).Pairwise (· ≤ ·) := List.pairwise_insertionSort _ l
  cases hlast : (sortUids l).getLast? with
  | none =>
    have hempty : sortUids l = [] := List.getLast?_eq_none_iff.mp hlast
    refine ⟨Set.mem_insert _ _, ?_⟩
    rintro a (rfl | ha)
    · exact le_rfl
    · have hsort : a ∈ sortUids l := mem_sortUids.mpr ha
      rw [hempty] at hsort
      cases hsort
  | some top =>
    obtain ⟨init, hinit⟩ := List.getLast?_eq_some_iff.mp hlast
    have htop : top ∈ l := by
      rw [← mem_sortUids, hinit]
      exact List.mem_append_right _ (List.mem_singleton_self _)
    refine ⟨Set.mem_insert_of_mem _ htop, ?_⟩
    rintro a (rfl | ha)
    · exact hfloor top htop
    · have hsort : a ∈ sortUids l := mem_sortUids.mpr ha
      rw [hinit] at hsort hsorted
      cases List.mem_append.mp hsort with
      | inl hbefore => exact (List.pairwise_append.mp hsorted).2.2 a hbefore top (List.mem_singleton_self _)
      | inr heq => exact (List.mem_singleton.mp heq).le

def Lists (page : SyncPage) (uids : List ℕ) : Prop := page.newMessageIds = uids.map Nat.repr

theorem Lists.mem_iff {page : SyncPage} {uids : List ℕ} (h : Lists page uids) :
    Nat.repr a ∈ page.newMessageIds ↔ a ∈ uids := by
  rw [h]
  exact List.mem_map_of_injective Decimal.repr_injective

theorem initialPage_lists (maxResults validity : ℕ) (found : List ℕ) :
    ∃ uids, Lists (initialPage maxResults validity found) uids ∧ ∀ a ∈ uids, a ∈ found := by
  refine ⟨_, rfl, ?_⟩
  intro a ha
  exact mem_sortUids.mp (List.mem_of_mem_drop (List.mem_reverse.mp ha))

theorem initialPage_nextCursor (maxResults validity : ℕ) (found : List ℕ) : ∃ top, IsGreatest (insert 0 {a | a ∈ found}) top ∧
    (initialPage maxResults validity found).nextCursor = formatCursor validity top :=
  ⟨_, isGreatest_getLast_sortUids fun a _ => Nat.zero_le a, rfl⟩

theorem incrementalPage_spec {validity lastSeenUid : ℕ} {found : List ℕ} (hfound : found.Nodup) :
    ∃ uids top, Lists (incrementalPage validity lastSeenUid found) uids ∧ uids.Nodup ∧
      (∀ a, a ∈ uids ↔ a ∈ found ∧ lastSeenUid < a) ∧
      IsGreatest (insert lastSeenUid {a | a ∈ uids}) top ∧
      (incrementalPage validity lastSeenUid found).nextCursor = formatCursor validity top := by
  have hmem : ∀ a, a ∈ (sortUids (found.filter (lastSeenUid < ·))).reverse ↔
      a ∈ found ∧ lastSeenUid < a := by
    intro a
    rw [List.mem_reverse, mem_sortUids, List.mem_filter, decide_eq_true_iff]
  have htop := isGreatest_getLast_sortUids (l := found.filter (lastSeenUid < ·))
    fun a ha => (of_decide_eq_true (List.mem_filter.mp ha).2).le
  refine ⟨_, _, rfl, List.nodup_reverse.mpr (sortUids_nodup (hfound.filter _)), hmem, ?_, rfl⟩
  convert htop using 3
  ext a
  rw [List.mem_reverse, mem_sortUids]

end Pages

section Sessions

variable {session : ImapSession} {w w' : World}

theorem connectSession_eq_ok (h : connectSession w = (.ok session, w')) :
    w.outside.imap = session :: w'.outside.imap := by
  obtain ⟨answer, w₁, hnext, h⟩ := bind_eq_ok.mp h
  cases hnext
  cases hsessions : w.outside.imap with
  | nil =>
    simp only [hsessions, List.head?_nil] at h
    cases h
  | cons first rest =>
    simp only [hsessions, List.head?_cons, List.tail_cons] at h
    cases hconnect : first.connect <;> rw [hconnect] at h <;> cases h
    rfl

theorem reply_eq_ok {α : Type} {answer : Except String α} {a : α} (h : reply answer w = (.ok a, w')) :
    answer = .ok a ∧ w' = w := by
  cases answer with
  | ok b =>
    cases h
    exact ⟨rfl, rfl⟩
  | error text => cases h

theorem selectInbox_eq_ok {validity : Option ℕ} (h : selectInbox session w = (.ok validity, w')) :
    session.select = .ok validity ∧ w' = w.record (.imapSelected validity) := by
  obtain ⟨answer, w₁, hreply, hlog⟩ := bind_eq_ok.mp h
  obtain ⟨hanswer, rfl⟩ := reply_eq_ok hreply
  cases hlog
  exact ⟨hanswer, rfl⟩

theorem uidSearch_eq_ok {query : ImapQuery} {uids : List ℕ}
    (h : uidSearch session query w = (.ok uids, w')) :
    ∃ found, session.search query = .ok found ∧ found.val = uids ∧
      w' = w.record (.imapSearched query uids) := by
  obtain ⟨answer, w₁, hreply, hlog⟩ := bind_eq_ok.mp h
  obtain ⟨hanswer, rfl⟩ := reply_eq_ok hreply
  cases hlog
  exact ⟨answer, hanswer, rfl, rfl⟩

section Errors

variable {e : ProviderError}

theorem connectSession_ne_expired (h : connectSession w = (.error e, w')) : e ≠ .cursorExpired := by
  obtain hnext | ⟨answer, w₁, -, h⟩ := bind_eq_error.mp h
  · cases hnext
  · cases answer with
    | none =>
      cases h
      exact nofun
    | some session =>
      cases hanswer : session.connect with
      | connected =>
        simp only [hanswer] at h
        cases h
      | unreachable text =>
        simp only [hanswer] at h
        cases h
        exact nofun
      | loginRefused text =>
        simp only [hanswer] at h
        cases h
        rw [loginError]
        split <;> exact nofun

theorem reply_ne_expired {α : Type} {answer : Except String α} (h : reply answer w = (.error e, w')) :
    e ≠ .cursorExpired := by
  cases answer with
  | ok a => cases h
  | error text =>
    cases h
    exact nofun

theorem selectInbox_ne_expired (h : selectInbox session w = (.error e, w')) : e ≠ .cursorExpired := by
  obtain hreply | ⟨answer, w₁, -, hlog⟩ := bind_eq_error.mp h
  · exact reply_ne_expired hreply
  · cases hlog

theorem uidSearch_ne_expired {query : ImapQuery} (h : uidSearch session query w = (.error e, w')) :
    e ≠ .cursorExpired := by
  obtain hreply | ⟨answer, w₁, -, hlog⟩ := bind_eq_error.mp h
  · exact reply_ne_expired hreply
  · cases hlog

end Errors

/-- Every session that answers `SELECT` reports the same UIDVALIDITY. -/
def Consistent (validity : ℕ) (sessions : List ImapSession) : Prop :=
  ∀ session ∈ sessions, ∀ answer, session.select = .ok answer → answer.getD 0 = validity

inductive Found (validity : ℕ) (session : ImapSession) : Option String → SyncPage → Bool → Prop
  | initial {maxResults found} (hsearch : session.search .all = .ok found) :
    Found validity session none (initialPage maxResults validity found.val) true
  | incremental {cursor lastSeenUid found}
    (hcursor : parseCursor cursor = some (validity, lastSeenUid))
    (hsearch : session.search (.uidFrom ((lastSeenUid + 1) % 2 ^ 32)) = .ok found) :
    Found validity session (some cursor) (incrementalPage validity lastSeenUid found.val) false

theorem initialSync_eq_ok {validity : ℕ} {options : SyncOptions} {page : SyncPage}
    (hsessions : Consistent validity w.outside.imap) (h : initialSync options w = (.ok page, w')) :
    ∃ session, w.outside.imap = session :: w'.outside.imap ∧
      Found validity session none page true := by
  obtain ⟨session, w₁, hconnect, h⟩ := bind_eq_ok.mp h
  obtain ⟨answer, w₂, hselect, h⟩ := bind_eq_ok.mp h
  obtain ⟨uids, w₃, hsearch, hpage⟩ := bind_eq_ok.mp h
  obtain ⟨hanswer, hw₂⟩ := selectInbox_eq_ok hselect
  obtain ⟨found, hfound, rfl, hw₃⟩ := uidSearch_eq_ok hsearch
  cases hpage
  have himap : w.outside.imap = session :: w'.outside.imap := by
    rw [connectSession_eq_ok hconnect, hw₃, hw₂]
    rfl
  have hvalidity : answer.getD 0 = validity :=
    hsessions session (himap ▸ List.mem_cons_self) answer hanswer
  rw [hvalidity]
  exact ⟨session, himap, .initial hfound⟩

section Incremental

variable {validity lastSeenUid : ℕ} {cursor : String}
  (hcursor : parseCursor cursor = some (validity, lastSeenUid))
include hcursor

theorem incrementalSync_eq_ok {page : SyncPage} (h : incrementalSync cursor w = (.ok page, w')) :
    ∃ session found, w.outside.imap = session :: w'.outside.imap ∧
      session.search (.uidFrom ((lastSeenUid + 1) % 2 ^ 32)) = .ok found ∧
      page = incrementalPage validity lastSeenUid found.val := by
  simp only [incrementalSync, hcursor] at h
  obtain ⟨session, w₁, hconnect, h⟩ := bind_eq_ok.mp h
  obtain ⟨answer, w₂, hselect, h⟩ := bind_eq_ok.mp h
  obtain ⟨-, hw₂⟩ := selectInbox_eq_ok hselect
  split at h
  · cases h
  · obtain ⟨uids, w₃, hsearch, hpage⟩ := bind_eq_ok.mp h
    obtain ⟨found, hfound, rfl, hw₃⟩ := uidSearch_eq_ok hsearch
    cases hpage
    refine ⟨session, found, ?_, hfound, rfl⟩
    rw [connectSession_eq_ok hconnect, hw₃, hw₂]
    rfl

theorem incrementalSync_ne_expired {e : ProviderError}
    (hsessions : Consistent validity w.outside.imap)
    (h : incrementalSync cursor w = (.error e, w')) : e ≠ .cursorExpired := by
  simp only [incrementalSync, hcursor] at h
  obtain hconnect | ⟨session, w₁, hconnect, h⟩ := bind_eq_error.mp h
  · exact connectSession_ne_expired hconnect
  · obtain hselect | ⟨answer, w₂, hselect, h⟩ := bind_eq_error.mp h
    · exact selectInbox_ne_expired hselect
    · have hvalidity : answer.getD 0 = validity := by
        apply hsessions session _ answer (selectInbox_eq_ok hselect).1
        rw [connectSession_eq_ok hconnect]
        exact List.mem_cons_self
      rw [if_neg (not_not_intro hvalidity)] at h
      obtain hsearch | ⟨uids, w₃, -, hpage⟩ := bind_eq_error.mp h
      · exact uidSearch_ne_expired hsearch
      · cases hpage

end Incremental

end Sessions

section Discovery

structure Consumes (w w' : World) : Prop where
  accounts : w'.db.linkedAccounts = w.db.linkedAccounts
  sessions : w'.outside.imap <:+ w.outside.imap

instance : Std.Refl Consumes := ⟨fun _ => ⟨rfl, List.suffix_refl _⟩⟩

instance : IsTrans World Consumes where
  trans _ _ _ h₁ h₂ := ⟨h₂.accounts.trans h₁.accounts, h₂.sessions.trans h₁.sessions⟩

theorem consumes_indifferent : Indifferent Consumes where
  outside _ _ himap := ⟨rfl, himap ▸ List.suffix_refl _⟩
  session _ := ⟨rfl, List.tail_suffix _⟩
  tokenCache _ _ := ⟨rfl, List.suffix_refl _⟩
  keyring _ _ := ⟨rfl, List.suffix_refl _⟩

theorem consumes_along (account : LinkedAccount) : (providerFor account).Along Consumes :=
  providerFor_along consumes_indifferent.toOutward
    (moves_openInbox consumes_indifferent.toOutward fun _ _ => ⟨rfl, List.suffix_refl _⟩)
    (fun _ _ _ => ⟨rfl, List.suffix_refl _⟩) account

theorem Consistent.of_consumes {validity : ℕ} {w w' : World}
    (h : Consistent validity w.outside.imap) (hconsumes : Consumes w w') :
    Consistent validity w'.outside.imap :=
  fun session hsession => h session (hconsumes.sessions.subset hsession)

structure Follows (validity : ℕ) (account : LinkedAccount) : Prop where
  imap : account.provider = .imap ∨ account.imapHost.isSome
  bound : validity < 2 ^ 32
  cursor : ∀ cursor, account.syncCursor = some cursor →
    ∃ uid < 2 ^ 32, cursor = formatCursor validity uid

def FoundIn (validity : ℕ) (account : LinkedAccount) (page : SyncPage) (isInitialSync : Bool)
    (w w' : World) : Prop :=
  ∃ session, session :: w'.outside.imap <:+ w.outside.imap ∧
    Found validity session account.syncCursor page isInitialSync

variable {validity : ℕ} {bundled : Bundled} {account : LinkedAccount} {token : String} {w w' : World}

theorem FoundIn.of_consumes {page : SyncPage} {isInitialSync : Bool} {w₁ : World}
    (h : FoundIn validity account page isInitialSync w₁ w') (hconsumes : Consumes w w₁) :
    FoundIn validity account page isInitialSync w w' := by
  obtain ⟨session, hsuffix, hfound⟩ := h
  exact ⟨session, hsuffix.trans hconsumes.sessions, hfound⟩

theorem fetchSyncPage_imap (hfollows : Follows validity account)
    (hsessions : Consistent validity w.outside.imap) {r : Except ProviderError (SyncPage × Bool)}
    (h : fetchSyncPage (providerFor account) account token w = (r, w')) :
    Consumes w w' ∧ ∀ page isInitialSync, r = .ok (page, isInitialSync) →
      FoundIn validity account page isInitialSync w w' := by
  have hprovider : ∃ p, providerFor account = Imap.provider p := ⟨_, if_pos hfollows.imap⟩
  obtain ⟨p, hp⟩ := hprovider
  cases hcursor : account.syncCursor with
  | none =>
    have hconsumes : Moves Consumes (initialSyncOptions >>= fun options =>
        (providerFor account).initialSync token options >>= fun page => pure (page, true)) :=
      moves_bind (moves_initialSyncOptions consumes_indifferent.toOutward) fun _ =>
        moves_bind ((consumes_along account).initialSync _ _) fun _ => moves_pure _
    rw [fetchSyncPage, hcursor] at h
    refine ⟨hconsumes.of_eq h, ?_⟩
    rintro page isInitialSync rfl
    obtain ⟨options, w₁, hoptions, hfetch⟩ := bind_eq_ok.mp h
    obtain ⟨found, w₂, hsync, hpage⟩ := bind_eq_ok.mp hfetch
    cases hpage
    have hbefore := (moves_initialSyncOptions consumes_indifferent.toOutward).of_eq hoptions
    rw [hp] at hsync
    obtain ⟨session, himap, hfound⟩ := initialSync_eq_ok (hsessions.of_consumes hbefore) hsync
    refine ⟨session, himap ▸ hbefore.sessions, ?_⟩
    rwa [hcursor]
  | some cursor =>
    obtain ⟨uid, huid, rfl⟩ := hfollows.cursor cursor hcursor
    have hparse := parseCursor_formatCursor hfollows.bound huid
    rw [fetchSyncPage, hcursor] at h
    obtain ⟨outcome, w₁, hsync, hfetch⟩ := attempt_bind h
    have hconsumes := ((consumes_along account).incrementalSync token _).of_eq hsync
    rw [hp] at hsync
    cases outcome with
    | ok found =>
      cases hfetch
      refine ⟨hconsumes, ?_⟩
      rintro page isInitialSync heq
      cases heq
      obtain ⟨session, found, himap, hfound, rfl⟩ := incrementalSync_eq_ok hparse hsync
      exact ⟨session, himap ▸ List.suffix_refl _, hcursor ▸ .incremental hparse hfound⟩
    | error e =>
      have hne := incrementalSync_ne_expired hparse hsessions hsync
      cases e with
      | cursorExpired => exact absurd rfl hne
      | _ =>
        cases hfetch
        refine ⟨hconsumes, ?_⟩
        intro _ _ heq
        cases heq

theorem discover_imap (hfollows : Follows validity account)
    (hsessions : Consistent validity w.outside.imap)
    {r : Except SyncError (String × SyncPage × Bool)}
    (h : discover bundled (providerFor account) account w = (r, w')) :
    Consumes w w' ∧ ∀ token page isInitialSync, r = .ok (token, page, isInitialSync) →
      FoundIn validity account page isInitialSync w w' := by
  have htoken := moves_accessTokenFor (consumes_indifferent.aside account.id) bundled
  obtain ⟨e, herror, rfl⟩ | ⟨token, w₁, haccess, h⟩ := bind_cases h
  · exact ⟨htoken.of_eq herror, nofun⟩
  · have hbefore := htoken.of_eq haccess
    obtain ⟨outcome, w₂, hfetch, hrest⟩ := attempt_bind h
    obtain ⟨hconsumes, hfound⟩ := fetchSyncPage_imap hfollows (hsessions.of_consumes hbefore) hfetch
    have hfirst : Consumes w w₂ := IsTrans.trans _ _ _ hbefore hconsumes
    cases outcome with
    | ok outcome =>
      obtain ⟨page, isInitialSync⟩ := outcome
      cases hrest
      refine ⟨hfirst, ?_⟩
      rintro _ _ _ heq
      cases heq
      exact (hfound _ _ rfl).of_consumes hbefore
    | error e =>
      cases e with
      | unauthorized =>
        obtain ⟨e, herror, rfl⟩ | ⟨_, w₃, hinvalidate, hrest⟩ := bind_cases hrest
        · cases herror
        · have hinvalid := (consumes_indifferent.invalidateToken account.id).of_eq hinvalidate
          have hsecond : Consumes w w₃ := IsTrans.trans _ _ _ hfirst hinvalid
          obtain ⟨e, herror, rfl⟩ | ⟨token, w₄, haccess, hrest⟩ := bind_cases hrest
          · exact ⟨IsTrans.trans _ _ _ hsecond (htoken.of_eq herror), nofun⟩
          · have hagain : Consumes w w₄ := IsTrans.trans _ _ _ hsecond (htoken.of_eq haccess)
            have hthen := hsessions.of_consumes hagain
            obtain ⟨e, herror, rfl⟩ | ⟨⟨page, isInitialSync⟩, w₅, hfetch, hpage⟩ := bind_cases hrest
            · obtain ⟨e, hfetch, -⟩ := mapError_eq_error.mp herror
              have hconsumes := (fetchSyncPage_imap hfollows hthen hfetch).1
              exact ⟨IsTrans.trans _ _ _ hagain hconsumes, nofun⟩
            · obtain ⟨hconsumes, hfound⟩ := fetchSyncPage_imap hfollows hthen (mapError_eq_ok.mp hfetch)
              cases hpage
              refine ⟨IsTrans.trans _ _ _ hagain hconsumes, ?_⟩
              rintro _ _ _ heq
              cases heq
              exact (hfound _ _ rfl).of_consumes hagain
      | _ =>
        cases hrest
        exact ⟨hfirst, nofun⟩

end Discovery

section Passes

def mailboxOf (a : LinkedAccount) : Uuid × Provider × Option String := (a.id, a.provider, a.imapHost)

def Alike (a b : LinkedAccount) : Prop := mailboxOf b = mailboxOf a ∧ b.syncCursor = a.syncCursor

def Advanced (cursor : String) (a b : LinkedAccount) : Prop :=
  mailboxOf b = mailboxOf a ∧ b.syncCursor = some cursor

/-- The row that an account has in the second world goes back to one in the first. -/
def Rows (P : LinkedAccount → LinkedAccount → Prop) (id : Uuid) (w w' : World) : Prop :=
  ∀ b, w'.db.account id = some b → ∃ a, w.db.account id = some a ∧ P a b

variable {bundled : Bundled} {account : LinkedAccount} {id : Uuid} {w w' : World}

theorem rows_of_accounts (h : w'.db.linkedAccounts = w.db.linkedAccounts) : Rows Alike id w w' := by
  intro b hb
  rw [Db.account, h] at hb
  exact ⟨b, hb, rfl, rfl⟩

theorem Rows.comp {P Q S : LinkedAccount → LinkedAccount → Prop} {w₁ : World} (h : Rows P id w w₁)
    (h' : Rows Q id w₁ w') (hPQ : ∀ a b c, P a b → Q b c → S a c) : Rows S id w w' := by
  intro c hc
  obtain ⟨b, hb, hbc⟩ := h' c hc
  obtain ⟨a, ha, hab⟩ := h b hb
  exact ⟨a, ha, hPQ a b c hab hbc⟩

theorem Alike.trans {a b c : LinkedAccount} (h : Alike a b) (h' : Alike b c) : Alike a c :=
  ⟨h'.1.trans h.1, h'.2.trans h.2⟩

theorem Alike.advanced {cursor : String} {a b c : LinkedAccount} (h : Alike a b)
    (h' : Advanced cursor b c) : Advanced cursor a c :=
  ⟨h'.1.trans h.1, h'.2⟩

theorem Advanced.alike {cursor : String} {a b c : LinkedAccount} (h : Advanced cursor a b)
    (h' : Alike b c) : Advanced cursor a c :=
  ⟨h'.1.trans h.1, h'.2.trans h.2⟩

theorem rows_setSyncError (id : Uuid) (error : String) (w : World) :
    Rows Alike id w (setSyncError id error w).2 ∧ Keeps World.journal w (setSyncError id error w).2 := by
  rw [setSyncError, execute_run]
  cases w.dbFault with
  | some text => exact ⟨rows_of_accounts rfl, rfl⟩
  | none =>
    refine ⟨?_, rfl⟩
    intro b hb
    change (w.db.setSyncError id error).account id = some b at hb
    rw [Db.account_setSyncError] at hb
    obtain ⟨a, ha, rfl⟩ := Option.map_eq_some_iff.mp hb
    exact ⟨a, ha, rfl, rfl⟩

theorem rows_updateSyncCursor {cursor : String} (h : updateSyncCursor id cursor w = (.ok (), w')) :
    Rows (Advanced cursor) id w w' := by
  intro b hb
  rw [(updateSyncCursor_eq_ok h).1, Db.account_updateSyncCursor] at hb
  obtain ⟨a, ha, rfl⟩ := Option.map_eq_some_iff.mp hb
  exact ⟨a, ha, rfl, rfl⟩

theorem syncOneAccount_inner {r : Except SyncError Unit}
    (h : syncOneAccount bundled account w = (r, w')) :
    ∃ u, syncOneAccountInner bundled account w = (r, u) ∧ Rows Alike account.id u w' ∧
      Keeps World.journal u w' := by
  obtain ⟨outcome, u, hinner, hrest⟩ := attempt_bind h
  cases outcome with
  | ok a =>
    cases hrest
    exact ⟨_, hinner, rows_of_accounts rfl, rfl⟩
  | error e =>
    cases hrest
    exact ⟨u, hinner, rows_setSyncError _ _ _⟩

section Discovered

variable {token : String} {page : SyncPage} {isInitialSync : Bool} {w₁ : World}
  {r : Except SyncError Unit}

theorem syncOneAccountInner_stores
    (hdiscover : discover bundled (providerFor account) account w = (.ok (token, page, isInitialSync), w₁))
    (hpass : syncOneAccountInner bundled account w = (r, w')) :
    (.storedCursor account.id page.nextCursor ∈ w.since w' ∧
      Rows (Advanced page.nextCursor) account.id w₁ w') ∨
    .storedCursor account.id page.nextCursor ∉ w.since w' ∧ Rows Alike account.id w₁ w' := by
  cases syncOneAccountInner_ends hpass with
  | undiscovered h =>
    rw [hdiscover] at h
    cases h
  | unapplied h =>
    cases hdiscover.symm.trans h.discover
    exact Or.inr ⟨fun hstored => h.unstored.of_mem_since hstored, rows_of_accounts h.accounts⟩
  | held h hfinish =>
    cases hdiscover.symm.trans h.discover
    have hfinish := (leaves_finish account _ _ _).of_eq hfinish
    have hemits : World.Emits Unstored w w' := IsTrans.trans _ _ _ h.unstored
      (hfinish.emits.mono fun _ => unstored_of_classifies)
    exact Or.inr ⟨fun hstored => hemits.of_mem_since hstored,
      rows_of_accounts (hfinish.accounts.trans h.accounts)⟩
  | unstored h hstore =>
    cases hdiscover.symm.trans h.discover
    obtain ⟨hdb, hjournal⟩ := updateSyncCursor_eq_error hstore
    have hemits : World.Emits Unstored w w' := IsTrans.trans _ _ _ h.unstored
      (World.emits_of_keeps hjournal)
    refine Or.inr ⟨fun hstored => hemits.of_mem_since hstored, rows_of_accounts ?_⟩
    rw [hdb, h.accounts]
  | stored h hstore hfinish =>
    cases hdiscover.symm.trans h.discover
    have hfinish := (leaves_finish account _ _ _).of_eq hfinish
    have hrows := (rows_of_accounts h.accounts).comp (rows_updateSyncCursor hstore)
      fun _ _ _ => Alike.advanced
    exact Or.inl ⟨(h.storedCursor_mem_since hstore hfinish.emits).mpr rfl,
      hrows.comp (rows_of_accounts hfinish.accounts) fun _ _ _ => Advanced.alike⟩

theorem syncOneAccount_stores
    (hdiscover : discover bundled (providerFor account) account w = (.ok (token, page, isInitialSync), w₁))
    (hpass : syncOneAccount bundled account w = (r, w')) :
    (.storedCursor account.id page.nextCursor ∈ w.since w' ∧
      Rows (Advanced page.nextCursor) account.id w₁ w') ∨
    .storedCursor account.id page.nextCursor ∉ w.since w' ∧ Rows Alike account.id w₁ w' := by
  obtain ⟨u, hinner, hrows, hjournal⟩ := syncOneAccount_inner hpass
  rw [World.since, hjournal, ← World.since]
  exact (syncOneAccountInner_stores hdiscover hinner).imp
    (fun h => ⟨h.1, h.2.comp hrows fun _ _ _ => Advanced.alike⟩)
    (fun h => ⟨h.1, h.2.comp hrows fun _ _ _ => Alike.trans⟩)

theorem syncOneAccount_undiscovered {e : SyncError}
    (hdiscover : discover bundled (providerFor account) account w = (.error e, w₁))
    (hpass : syncOneAccount bundled account w = (r, w')) : Rows Alike account.id w₁ w' := by
  obtain ⟨u, hinner, hrows, -⟩ := syncOneAccount_inner hpass
  cases syncOneAccountInner_ends hinner with
  | undiscovered h =>
    cases hdiscover.symm.trans h
    exact hrows
  | unapplied h | held h _ | unstored h _ | stored h _ _ =>
    cases hdiscover.symm.trans h.discover

end Discovered

end Passes

section Runs

/-- An INBOX under one UIDVALIDITY.  UIDs start at one and stay below `2 ^ 32 - 1`. -/
structure Mailbox extends Source ℕ where
  pos : 0 < next
  bound : next < 2 ^ 32

def Mailbox.Evolves (m m' : Mailbox) : Prop :=
  Relation.ReflTransGen Source.Step m.toSource m'.toSource

/-- The session answers for the mailbox.  The answer to a range may hold more than was asked
for: the highest UID belongs to every range that ends in a star. -/
structure Shows (validity : ℕ) (mailbox : Mailbox) (session : ImapSession) : Prop where
  select : ∀ answer, session.select = .ok answer → answer.getD 0 = validity
  all : ∀ found, session.search .all = .ok found → ∀ a, a ∈ found.val ↔ a ∈ mailbox.present
  uidFrom : ∀ first found, session.search (.uidFrom first) = .ok found →
    (∀ a ∈ found.val, a ∈ mailbox.present) ∧ ∀ a ∈ mailbox.present, first ≤ a → a ∈ found.val

structure Moment where
  session : ImapSession
  mailbox : Mailbox

structure Timeline (validity : ℕ) (before : Mailbox) (moments : List Moment) (after : Mailbox) :
    Prop where
  chain : List.IsChain Mailbox.Evolves (before :: (moments.map (·.mailbox) ++ [after]))
  shows : ∀ m ∈ moments, Shows validity m.mailbox m.session

/-- A page that a pass has discovered: the cursor it was read from, the mailbox at the time of
the search, and whether the pass went on to store its cursor. -/
structure Report where
  cursor : Option String
  page : SyncPage
  isInitialSync : Bool
  mailbox : Mailbox
  stored : Bool

structure State where
  world : World
  mailbox : Mailbox
  reports : List Report

namespace State

def stored (s : State) : List Report := s.reports.filter (·.stored)

def pages (s : State) (uid : ℕ) : ℕ := s.stored.countP (Nat.repr uid ∈ ·.page.newMessageIds)

end State

variable {bundled : Bundled} {id : Uuid} {validity : ℕ}

structure PassOver (bundled : Bundled) (id : Uuid) (validity : ℕ) (s : State) (account : LinkedAccount)
    (moments : List Moment) (w' : World) (mailbox' : Mailbox) : Prop where
  row : ∃ a, s.world.db.account id = some a ∧ Alike a account
  sessions : s.world.outside.imap = moments.map (·.session)
  timeline : Timeline validity s.mailbox moments mailbox'
  run : ∃ r, syncOneAccount bundled account s.world = (r, w')

inductive Step (bundled : Bundled) (id : Uuid) (validity : ℕ) : State → State → Prop
  | mailbox {w mailbox mailbox' reports}
    (h : Source.Step mailbox.toSource mailbox'.toSource) :
    Step bundled id validity ⟨w, mailbox, reports⟩ ⟨w, mailbox', reports⟩
  | elsewhere {w w' mailbox reports} (h : Rows Alike id w w') :
    Step bundled id validity ⟨w, mailbox, reports⟩ ⟨w', mailbox, reports⟩
  | undiscovered {s account moments w' mailbox' e w₁}
    (h : PassOver bundled id validity s account moments w' mailbox')
    (hdiscover : discover bundled (providerFor account) account s.world = (.error e, w₁)) :
    Step bundled id validity s ⟨w', mailbox', s.reports⟩
  | discovered {s account moments w' mailbox' token page isInitialSync w₁ m later stored}
    (h : PassOver bundled id validity s account moments w' mailbox')
    (hdiscover : discover bundled (providerFor account) account s.world =
      (.ok (token, page, isInitialSync), w₁))
    -- The session of the search is the last one that discovery has opened.
    (hmoment : m :: later <:+ moments) (hlater : w₁.outside.imap = later.map (·.session))
    (hstored : stored = true ↔ .storedCursor id page.nextCursor ∈ s.world.since w') :
    Step bundled id validity s
      ⟨w', mailbox', s.reports ++ [⟨account.syncCursor, page, isInitialSync, m.mailbox, stored⟩]⟩

section Timelines

variable {before after : Mailbox} {moments : List Moment}

theorem Mailbox.Evolves.later {m m' : Mailbox} (h : m.Evolves m') : m.toSource.Later m'.toSource :=
  Source.later_of_steps h

instance : IsTrans Mailbox Mailbox.Evolves := ⟨fun _ _ _ => Relation.ReflTransGen.trans⟩

theorem Timeline.evolves (h : Timeline validity before moments after) : before.Evolves after := by
  have hpairwise := List.isChain_iff_pairwise.mp h.chain
  exact List.rel_of_pairwise_cons hpairwise (List.mem_append_right _ (List.mem_singleton_self _))

theorem Timeline.between (h : Timeline validity before moments after) {m : Moment} (hm : m ∈ moments) :
    before.Evolves m.mailbox ∧ m.mailbox.Evolves after := by
  have hmailbox : m.mailbox ∈ moments.map (·.mailbox) := List.mem_map_of_mem hm
  have hpairwise := List.isChain_iff_pairwise.mp h.chain
  constructor
  · exact List.rel_of_pairwise_cons hpairwise (List.mem_append_left _ hmailbox)
  · exact (List.pairwise_append.mp hpairwise.of_cons).2.2 _ hmailbox _ (List.mem_singleton_self _)

theorem Timeline.consistent (h : Timeline validity before moments after) :
    Consistent validity (moments.map (·.session)) := by
  intro session hsession
  obtain ⟨m, hm, rfl⟩ := List.mem_map.mp hsession
  exact (h.shows m hm).select

theorem head_of_suffix {session : ImapSession} {rest : List ImapSession} {m : Moment}
    {later : List Moment} (hsession : session :: rest <:+ moments.map (·.session))
    (hmoment : m :: later <:+ moments) (hlater : rest = later.map (·.session)) :
    session = m.session := by
  have hmap : m.session :: rest <:+ moments.map (·.session) := by
    rw [hlater]
    exact hmoment.map _
  have hle : session :: rest <:+ m.session :: rest :=
    List.suffix_of_suffix_length_le hsession hmap le_rfl
  exact (List.cons.inj (hle.eq_of_length rfl)).1

end Timelines

section Invariant

def Report.Exact (validity : ℕ) (r : Report) : Prop :=
  r.isInitialSync = false → ∃ uid uids, r.cursor.bind parseCursor = some (validity, uid) ∧
    Lists r.page uids ∧ uids.Nodup ∧ ∀ a, a ∈ uids ↔ a ∈ r.mailbox.present ∧ uid < a

structure Reads (id : Uuid) (validity : ℕ) (s : State) (r : Reading ℕ) (first : Report)
    (rest : List Report) : Prop where
  source : r.source = s.mailbox.toSource
  cursor : ∀ a, s.world.db.account id = some a →
    a.syncCursor = some (formatCursor validity r.watermark)
  stored : s.stored = first :: rest
  isInitialSync : first.isInitialSync = true
  nextCursor : first.page.nextCursor = formatCursor validity r.baseline
  baseline : IsGreatest (insert 0 {a | a ∈ first.mailbox.present}) r.baseline
  first : ∃ uids, Lists first.page uids ∧ ∀ a ∈ uids, a ≤ r.baseline
  batches : List.Forall₂ (fun report batch => Lists report.page batch) rest r.batches
  covered : ∀ report ∈ rest, ∀ a ∈ report.mailbox.present, r.baseline < a →
    ∃ batch ∈ r.batches, a ∈ batch

inductive Tracked (id : Uuid) (validity : ℕ) (s : State) : Prop
  | idle (hcursor : ∀ a, s.world.db.account id = some a → a.syncCursor = none)
    (hstored : s.stored = [])
  | reading {r first rest} (h : Reads id validity s r first rest)

structure Invariant (id : Uuid) (validity : ℕ) (s : State) : Prop where
  imap : ∀ a, s.world.db.account id = some a → a.provider = .imap ∨ a.imapHost.isSome
  tracked : Tracked id validity s
  exact : ∀ r ∈ s.reports, r.Exact validity

variable {s t : State}

theorem Reads.watermark_lt {r : Reading ℕ} {first : Report} {rest : List Report}
    (h : Reads id validity s r first rest) : r.watermark < 2 ^ 32 := by
  have hbelow : r.watermark < s.mailbox.next := h.source ▸ r.below
  exact hbelow.trans s.mailbox.bound

theorem Reads.drift {r : Reading ℕ} {first : Report} {rest : List Report}
    (h : Reads id validity s r first rest) (hrows : Rows Alike id s.world t.world)
    (hmailbox : s.mailbox.Evolves t.mailbox) (hstored : t.stored = s.stored) :
    ∃ r', Reads id validity t r' first rest := by
  have hlater : r.source.Later t.mailbox.toSource := h.source ▸ hmailbox.later
  refine ⟨r.evolve t.mailbox.toSource hlater, rfl, ?_, hstored.trans h.stored, h.isInitialSync,
    h.nextCursor, h.baseline, h.first, h.batches, h.covered⟩
  intro b hb
  obtain ⟨a, ha, hab⟩ := hrows b hb
  rw [hab.2]
  exact h.cursor a ha

theorem Tracked.drift (h : Tracked id validity s) (hrows : Rows Alike id s.world t.world)
    (hmailbox : s.mailbox.Evolves t.mailbox) (hstored : t.stored = s.stored) :
    Tracked id validity t := by
  cases h with
  | idle hcursor hempty =>
    refine .idle ?_ (hstored.trans hempty)
    intro b hb
    obtain ⟨a, ha, hab⟩ := hrows b hb
    rw [hab.2]
    exact hcursor a ha
  | reading h =>
    obtain ⟨r', h'⟩ := h.drift hrows hmailbox hstored
    exact .reading h'

theorem Invariant.follows (h : Invariant id validity s) (hvalidity : validity < 2 ^ 32)
    {account : LinkedAccount} (hrow : ∃ a, s.world.db.account id = some a ∧ Alike a account) :
    Follows validity account := by
  obtain ⟨a, ha, hmailbox, hcursor⟩ := hrow
  simp only [mailboxOf, Prod.mk.injEq] at hmailbox
  refine ⟨?_, hvalidity, ?_⟩
  · rw [hmailbox.2.1, hmailbox.2.2]
    exact h.imap a ha
  · intro cursor heq
    rw [hcursor] at heq
    cases h.tracked with
    | idle hidle _ =>
      rw [hidle a ha] at heq
      cases heq
    | @reading r first rest hreads =>
      rw [hreads.cursor a ha] at heq
      cases heq
      exact ⟨r.watermark, hreads.watermark_lt, rfl⟩

section Searches

variable {mailbox : Mailbox} {session : ImapSession} {lastSeenUid : ℕ}
  {found : {uids : List ℕ // uids.Nodup}}

theorem Shows.isGreatest_iff (h : Shows validity mailbox session) (hsearch : session.search .all = .ok found)
    {top : ℕ} : IsGreatest (insert 0 {a | a ∈ found.val}) top ↔
      IsGreatest (insert 0 {a | a ∈ mailbox.present}) top := by
  have hset : {a | a ∈ found.val} = {a | a ∈ mailbox.present} := Set.ext (h.all found hsearch)
  rw [hset]

theorem Shows.incrementalPage (h : Shows validity mailbox session) (hbound : lastSeenUid + 1 < 2 ^ 32)
    (hsearch : session.search (.uidFrom ((lastSeenUid + 1) % 2 ^ 32)) = .ok found) :
    ∃ uids top, Lists (incrementalPage validity lastSeenUid found.val) uids ∧ uids.Nodup ∧
      (∀ a, a ∈ uids ↔ a ∈ mailbox.present ∧ lastSeenUid < a) ∧
      IsGreatest (insert lastSeenUid {a | a ∈ uids}) top ∧
      (incrementalPage validity lastSeenUid found.val).nextCursor = formatCursor validity top := by
  obtain ⟨uids, top, hlists, hnodup, hmem, htop, hcursor⟩ := incrementalPage_spec found.property
  refine ⟨uids, top, hlists, hnodup, ?_, htop, hcursor⟩
  rw [Nat.mod_eq_of_lt hbound] at hsearch
  obtain ⟨hpresent, hrange⟩ := h.uidFrom _ found hsearch
  intro a
  rw [hmem]
  exact ⟨fun ha => ⟨hpresent a ha.1, ha.2⟩, fun ha => ⟨hrange a ha.1 ha.2, ha.2⟩⟩

end Searches

section Storing

variable {m : Moment} {report : Report} {maxResults : ℕ} {found : {uids : List ℕ // uids.Nodup}}

theorem tracked_of_initial (hshows : Shows validity m.mailbox m.session)
    (hsearch : m.session.search .all = .ok found) (hafter : m.mailbox.Evolves t.mailbox)
    (hpage : report.page = initialPage maxResults validity found.val)
    (hinitial : report.isInitialSync = true) (hmailbox : report.mailbox = m.mailbox)
    (hstored : t.stored = [report])
    (hrows : Rows (Advanced report.page.nextCursor) id s.world t.world) : Tracked id validity t := by
  obtain ⟨top, htop, hcursor⟩ := initialPage_nextCursor maxResults validity found.val
  obtain ⟨uids, hlists, huids⟩ := initialPage_lists maxResults validity found.val
  rw [hpage, hcursor] at hrows
  have hpresent : ∀ a ∈ m.mailbox.present, a ≤ top := fun a ha =>
    htop.2 (Set.mem_insert_of_mem _ ((hshows.all found hsearch a).mpr ha))
  have hbelow : top < m.mailbox.next := by
    cases htop.1 with
    | inl heq => exact heq ▸ m.mailbox.pos
    | inr hmem => exact m.mailbox.below top ((hshows.all found hsearch top).mp hmem)
  let r := (Reading.start m.mailbox.toSource top hbelow hpresent).evolve t.mailbox.toSource hafter.later
  have hreads : Reads id validity t r report [] := {
    source := rfl
    cursor := fun b hb => by
      obtain ⟨a, _, hab⟩ := hrows b hb
      exact hab.2
    stored := hstored
    isInitialSync := hinitial
    nextCursor := hpage ▸ hcursor
    baseline := by
      rw [hmailbox]
      exact (hshows.isGreatest_iff hsearch).mp htop
    first := ⟨uids, hpage ▸ hlists, fun a ha => htop.2 (Set.mem_insert_of_mem _ (huids a ha))⟩
    batches := .nil
    covered := nofun }
  exact .reading hreads

theorem Reads.commit {r : Reading ℕ} {first : Report} {rest : List Report}
    (h : Reads id validity s r first rest) (hbefore : s.mailbox.Evolves m.mailbox)
    (hshows : Shows validity m.mailbox m.session)
    (hsearch : m.session.search (.uidFrom ((r.watermark + 1) % 2 ^ 32)) = .ok found)
    (hafter : m.mailbox.Evolves t.mailbox)
    (hpage : report.page = Imap.incrementalPage validity r.watermark found.val)
    (hmailbox : report.mailbox = m.mailbox) (hstored : t.stored = s.stored ++ [report])
    (hrows : Rows (Advanced report.page.nextCursor) id s.world t.world) :
    ∃ r', Reads id validity t r' first (rest ++ [report]) ∧ r.watermark ≤ r'.watermark := by
  have hlater : r.source.Later m.mailbox.toSource := h.source ▸ hbefore.later
  let r₁ := r.evolve m.mailbox.toSource hlater
  have hbound : r.watermark + 1 < 2 ^ 32 := by
    have hbelow : r.watermark < m.mailbox.next := r₁.below
    have hnext := m.mailbox.bound
    omega
  obtain ⟨uids, top, hlists, hnodup, hmem, htop, hcursor⟩ := hshows.incrementalPage hbound hsearch
  have hbatch : r₁.Batch uids top := ⟨hnodup, hmem, htop⟩
  rw [hpage, hcursor] at hrows
  let r₂ := (r₁.commit uids top hbatch).evolve t.mailbox.toSource hafter.later
  have hreads : Reads id validity t r₂ first (rest ++ [report]) := {
    source := rfl
    cursor := fun b hb => by
      obtain ⟨a, _, hab⟩ := hrows b hb
      exact hab.2
    stored := by rw [hstored, h.stored, List.cons_append]
    isInitialSync := h.isInitialSync
    nextCursor := h.nextCursor
    baseline := h.baseline
    first := h.first
    batches := List.rel_append h.batches (.cons (hpage ▸ hlists) .nil)
    covered := by
      intro other hother a ha hbaseline
      cases List.mem_append.mp hother with
      | inl hother =>
        obtain ⟨batch, hmem, ha⟩ := h.covered other hother a ha hbaseline
        exact ⟨batch, List.mem_append_left _ hmem, ha⟩
      | inr heq =>
        rw [List.mem_singleton.mp heq, hmailbox] at ha
        exact r₁.mem_of_commit hbatch ha hbaseline }
  exact ⟨r₂, hreads, hbatch.watermark_le⟩

end Storing

def cursorUid (a : LinkedAccount) : Option ℕ := (a.syncCursor.bind parseCursor).map Prod.snd

def NoLower (a b : LinkedAccount) : Prop :=
  ∀ uid, cursorUid a = some uid → ∃ uid', cursorUid b = some uid' ∧ uid ≤ uid'

theorem NoLower.trans {a b c : LinkedAccount} (h : NoLower a b) (h' : NoLower b c) : NoLower a c := by
  intro uid huid
  obtain ⟨uid₁, huid₁, hle⟩ := h uid huid
  obtain ⟨uid₂, huid₂, hle'⟩ := h' uid₁ huid₁
  exact ⟨uid₂, huid₂, hle.trans hle'⟩

theorem noLower_of_none {a b : LinkedAccount} (h : a.syncCursor = none) : NoLower a b := by
  intro uid huid
  rw [cursorUid, h] at huid
  cases huid

theorem Alike.noLower {a b : LinkedAccount} (h : Alike a b) : NoLower a b := by
  intro uid huid
  rw [cursorUid, ← h.2] at huid
  exact ⟨uid, huid, le_rfl⟩

theorem Rows.noLower {w w' : World} (h : Rows Alike id w w') : Rows NoLower id w w' :=
  fun b hb => (h b hb).imp fun _ hab => ⟨hab.1, Alike.noLower hab.2⟩

theorem Rows.imap {P : LinkedAccount → LinkedAccount → Prop} {w w' : World} (h : Rows P id w w')
    (hP : ∀ a b, P a b → mailboxOf b = mailboxOf a)
    (himap : ∀ a, w.db.account id = some a → a.provider = .imap ∨ a.imapHost.isSome) :
    ∀ b, w'.db.account id = some b → b.provider = .imap ∨ b.imapHost.isSome := by
  intro b hb
  obtain ⟨a, ha, hab⟩ := h b hb
  have hmailbox := hP a b hab
  simp only [mailboxOf, Prod.mk.injEq] at hmailbox
  rw [hmailbox.2.1, hmailbox.2.2]
  exact himap a ha

theorem Invariant.drift (h : Invariant id validity s) (hrows : Rows Alike id s.world t.world)
    (hmailbox : s.mailbox.Evolves t.mailbox) (hreports : t.reports = s.reports) :
    Invariant id validity t where
  imap := hrows.imap (fun _ _ hab => hab.1) h.imap
  tracked := h.tracked.drift hrows hmailbox (by rw [State.stored, hreports, State.stored])
  exact := hreports ▸ h.exact

theorem PassOver.consistent {account : LinkedAccount} {moments : List Moment} {w' : World}
    {mailbox' : Mailbox} (h : PassOver bundled id validity s account moments w' mailbox') :
    Consistent validity s.world.outside.imap := by
  rw [h.sessions]
  exact h.timeline.consistent

theorem PassOver.id_eq {account : LinkedAccount} {moments : List Moment} {w' : World}
    {mailbox' : Mailbox} (h : PassOver bundled id validity s account moments w' mailbox') :
    account.id = id := by
  obtain ⟨a, ha, hmailbox, _⟩ := h.row
  rw [← Db.id_of_account ha]
  exact congrArg Prod.fst hmailbox

section Pass

variable {account : LinkedAccount} {moments : List Moment} {w₁ w' : World} {mailbox' : Mailbox}

theorem PassOver.undiscovered (hvalidity : validity < 2 ^ 32) (h : Invariant id validity s)
    {e : SyncError} (hpass : PassOver bundled id validity s account moments w' mailbox')
    (hdiscover : discover bundled (providerFor account) account s.world = (.error e, w₁)) :
    Rows Alike id s.world w' := by
  have hconsumes := (discover_imap (h.follows hvalidity hpass.row) hpass.consistent hdiscover).1
  obtain ⟨r, hrun⟩ := hpass.run
  have hrows := syncOneAccount_undiscovered hdiscover hrun
  rw [hpass.id_eq] at hrows
  exact (rows_of_accounts hconsumes.accounts).comp hrows fun _ _ _ => Alike.trans

theorem PassOver.discovered (hvalidity : validity < 2 ^ 32) (h : Invariant id validity s)
    {token : String} {page : SyncPage} {isInitialSync stored : Bool} {m : Moment} {later : List Moment}
    (hpass : PassOver bundled id validity s account moments w' mailbox')
    (hdiscover : discover bundled (providerFor account) account s.world =
      (.ok (token, page, isInitialSync), w₁))
    (hmoment : m :: later <:+ moments) (hlater : w₁.outside.imap = later.map (·.session))
    (hstored : stored = true ↔ .storedCursor id page.nextCursor ∈ s.world.since w') :
    Found validity m.session account.syncCursor page isInitialSync ∧
      ((stored = true ∧ Rows (Advanced page.nextCursor) id s.world w') ∨
        stored = false ∧ Rows Alike id s.world w') := by
  obtain ⟨hconsumes, hfound⟩ :=
    discover_imap (h.follows hvalidity hpass.row) hpass.consistent hdiscover
  obtain ⟨session, hsession, hfound⟩ := hfound token page isInitialSync rfl
  rw [hpass.sessions] at hsession
  rw [← head_of_suffix hsession hmoment hlater]
  refine ⟨hfound, ?_⟩
  have hbefore : Rows Alike id s.world w₁ := rows_of_accounts hconsumes.accounts
  obtain ⟨r, hrun⟩ := hpass.run
  have hends := syncOneAccount_stores hdiscover hrun
  rw [hpass.id_eq] at hends
  obtain ⟨hevent, hrows⟩ | ⟨hevent, hrows⟩ := hends
  · exact Or.inl ⟨hstored.mpr hevent, hbefore.comp hrows fun _ _ _ => Alike.advanced⟩
  · refine Or.inr ⟨?_, hbefore.comp hrows fun _ _ _ => Alike.trans⟩
    rw [Bool.eq_false_iff]
    exact fun htrue => hevent (hstored.mp htrue)

end Pass

theorem stored_append {report : Report} (h : t.reports = s.reports ++ [report]) :
    t.stored = if report.stored then s.stored ++ [report] else s.stored := by
  rw [State.stored, h, List.filter_append, State.stored]
  cases hstored : report.stored <;> simp [hstored]

theorem Invariant.report (h : Invariant id validity s) (report : Report) (t : State)
    {account : LinkedAccount} {m : Moment} (hrow : ∃ a, s.world.db.account id = some a ∧ Alike a account)
    (hbefore : s.mailbox.Evolves m.mailbox) (hshows : Shows validity m.mailbox m.session)
    (hafter : m.mailbox.Evolves t.mailbox) (hvalidity : validity < 2 ^ 32)
    (hreports : t.reports = s.reports ++ [report])
    (hcursor : report.cursor = account.syncCursor) (hmailbox : report.mailbox = m.mailbox)
    (hfound : Found validity m.session account.syncCursor report.page report.isInitialSync)
    (hends : (report.stored = true ∧ Rows (Advanced report.page.nextCursor) id s.world t.world) ∨
      report.stored = false ∧ Rows Alike id s.world t.world) :
    Tracked id validity t ∧ report.Exact validity ∧ Rows NoLower id s.world t.world := by
  obtain ⟨a, ha, _, hsame⟩ := hrow
  have hstored := stored_append hreports
  cases h.tracked with
  | idle hidle hempty =>
    rw [hidle a ha] at hsame
    rw [hsame] at hfound
    generalize hpage : report.page = page, hinitial : report.isInitialSync = isInitialSync at hfound
    cases hfound with
    | @initial maxResults found hsearch =>
      refine ⟨?_, fun hincremental => absurd hincremental (by simp [hinitial]), ?_⟩
      · cases hends with
        | inl hends =>
          rw [if_pos hends.1, hempty, List.nil_append] at hstored
          exact tracked_of_initial hshows hsearch hafter hpage hinitial hmailbox hstored hends.2
        | inr hends =>
          rw [hends.1, if_neg Bool.false_ne_true] at hstored
          exact h.tracked.drift hends.2 (hbefore.trans hafter) hstored
      · intro b hb
        cases hends with
        | inl hends =>
          obtain ⟨c, hc, _⟩ := hends.2 b hb
          exact ⟨c, hc, noLower_of_none (hidle c hc)⟩
        | inr hends => exact hends.2.noLower b hb
  | @reading r first rest hreads =>
    rw [hreads.cursor a ha] at hsame
    rw [hsame] at hfound
    generalize hpage : report.page = page, hinitial : report.isInitialSync = isInitialSync at hfound
    cases hfound with
    | @incremental _ lastSeenUid found hparse hsearch =>
      have hwatermark := hreads.watermark_lt
      have hcurrent := parseCursor_formatCursor hvalidity hwatermark
      cases hcurrent.symm.trans hparse
      have hbound : r.watermark + 1 < 2 ^ 32 := by
        have hbelow : r.watermark < s.mailbox.next := hreads.source ▸ r.below
        have hnext := s.mailbox.bound
        omega
      have hexact : report.Exact validity := by
        intro _
        obtain ⟨uids, _, hlists, hnodup, hmem, _⟩ := hshows.incrementalPage hbound hsearch
        refine ⟨r.watermark, uids, ?_, hpage ▸ hlists, hnodup, ?_⟩
        · rw [hcursor, hsame, Option.bind_some, hcurrent]
        · rwa [hmailbox]
      cases hends with
      | inl hends =>
        rw [if_pos hends.1] at hstored
        obtain ⟨r', hreads', hle⟩ :=
          hreads.commit hbefore hshows hsearch hafter hpage hmailbox hstored hends.2
        refine ⟨.reading hreads', hexact, ?_⟩
        intro b hb
        obtain ⟨c, hc, _⟩ := hends.2 b hb
        refine ⟨c, hc, ?_⟩
        intro uid huid
        rw [cursorUid, hreads.cursor c hc, Option.bind_some, hcurrent] at huid
        cases huid
        refine ⟨r'.watermark, ?_, hle⟩
        rw [cursorUid, hreads'.cursor b hb, Option.bind_some,
          parseCursor_formatCursor hvalidity hreads'.watermark_lt]
        rfl
      | inr hends =>
        rw [hends.1, if_neg Bool.false_ne_true] at hstored
        exact ⟨h.tracked.drift hends.2 (hbefore.trans hafter) hstored, hexact, hends.2.noLower⟩

theorem Invariant.step (hvalidity : validity < 2 ^ 32) (h : Invariant id validity s)
    (hstep : Step bundled id validity s t) :
    Invariant id validity t ∧ Rows NoLower id s.world t.world := by
  cases hstep with
  | @mailbox w mailbox mailbox' reports hstep =>
    have hrows : Rows Alike id w w := rows_of_accounts rfl
    exact ⟨h.drift hrows (.single hstep) rfl, hrows.noLower⟩
  | elsewhere hrows => exact ⟨h.drift hrows .refl rfl, hrows.noLower⟩
  | @undiscovered _ account moments w' mailbox' e w₁ hpass hdiscover =>
    have hrows := hpass.undiscovered hvalidity h hdiscover
    exact ⟨h.drift hrows hpass.timeline.evolves rfl, hrows.noLower⟩
  | @discovered _ account moments w' mailbox' token page isInitialSync w₁ m later stored hpass hdiscover
      hmoment hlater hstored =>
    obtain ⟨hfound, hends⟩ := hpass.discovered hvalidity h hdiscover hmoment hlater hstored
    have hm : m ∈ moments := hmoment.subset List.mem_cons_self
    obtain ⟨hbefore, hafter⟩ := hpass.timeline.between hm
    obtain ⟨htracked, hexact, hrows⟩ := h.report
      ⟨account.syncCursor, page, isInitialSync, m.mailbox, stored⟩ ⟨w', mailbox', _⟩ hpass.row hbefore
      (hpass.timeline.shows m hm) hafter hvalidity rfl rfl rfl hfound hends
    refine ⟨⟨?_, htracked, ?_⟩, hrows⟩
    · cases hends with
      | inl hends => exact hends.2.imap (fun _ _ hab => hab.1) h.imap
      | inr hends => exact hends.2.imap (fun _ _ hab => hab.1) h.imap
    · intro r hr
      cases List.mem_append.mp hr with
      | inl hr => exact h.exact r hr
      | inr heq => exact List.mem_singleton.mp heq ▸ hexact

theorem PassOver.exists_step (hvalidity : validity < 2 ^ 32) (h : Invariant id validity s)
    {account : LinkedAccount} {moments : List Moment} {w' : World} {mailbox' : Mailbox}
    (hpass : PassOver bundled id validity s account moments w' mailbox') :
    ∃ reports, Step bundled id validity s ⟨w', mailbox', reports⟩ := by
  rcases hdiscover : discover bundled (providerFor account) account s.world with ⟨e | ⟨token, page, isInitialSync⟩, w₁⟩
  · exact ⟨_, .undiscovered hpass hdiscover⟩
  · obtain ⟨-, hfound⟩ := discover_imap (h.follows hvalidity hpass.row) hpass.consistent hdiscover
    obtain ⟨session, hsession, -⟩ := hfound token page isInitialSync rfl
    rw [hpass.sessions, List.suffix_map_iff] at hsession
    obtain ⟨left, hleft, heq⟩ := hsession
    cases left with
    | nil => cases heq
    | cons m later =>
      classical
      exact ⟨_, .discovered hpass hdiscover hleft (List.cons.inj heq).2 decide_eq_true_iff⟩

end Invariant

structure Starts (id : Uuid) (s : State) : Prop where
  imap : ∀ a, s.world.db.account id = some a → a.provider = .imap ∨ a.imapHost.isSome
  cursor : ∀ a, s.world.db.account id = some a → a.syncCursor = none
  reports : s.reports = []

abbrev Run (bundled : Bundled) (id : Uuid) (validity : ℕ) : State → State → Prop :=
  Relation.ReflTransGen (Step bundled id validity)

variable {start s t : State}

theorem Starts.invariant (h : Starts id start) : Invariant id validity start where
  imap := h.imap
  tracked := .idle h.cursor (by rw [State.stored, h.reports, List.filter_nil])
  exact := by
    rw [h.reports]
    exact nofun

theorem Invariant.run (hvalidity : validity < 2 ^ 32) (h : Invariant id validity s)
    (hrun : Run bundled id validity s t) :
    Invariant id validity t ∧ Rows NoLower id s.world t.world := by
  induction hrun with
  | refl =>
    have hrows : Rows Alike id s.world s.world := rows_of_accounts rfl
    exact ⟨h, hrows.noLower⟩
  | tail _ hstep ih =>
    obtain ⟨hinvariant, hrows⟩ := ih.1.step hvalidity hstep
    exact ⟨hinvariant, ih.2.comp hrows fun _ _ _ => NoLower.trans⟩

/-- Discovery is exact in each page, and over all pages it neither repeats nor loses a UID above
the one it started from. -/
structure Complete (validity : ℕ) (s : State) : Prop where
  exact : ∀ r ∈ s.reports, r.Exact validity
  once : ∀ first rest, s.stored = first :: rest → ∃ baseline, first.isInitialSync = true ∧
    first.page.nextCursor = formatCursor validity baseline ∧
    IsGreatest (insert 0 {a | a ∈ first.mailbox.present}) baseline ∧
    ∀ uid, baseline < uid → s.pages uid ≤ 1 ∧
      ∀ r ∈ rest, uid ∈ r.mailbox.present → s.pages uid = 1

theorem countP_eq_of_lists {rest : List Report} {batches : List (List ℕ)} {uid : ℕ}
    (h : List.Forall₂ (fun report batch => Lists report.page batch) rest batches) :
    rest.countP (Nat.repr uid ∈ ·.page.newMessageIds) = batches.countP (uid ∈ ·) := by
  induction h with
  | nil => rfl
  | cons hbatch _ ih => simp only [List.countP_cons, hbatch.mem_iff, ih]

theorem Reads.pages_eq {r : Reading ℕ} {first : Report} {rest : List Report} {uid : ℕ}
    (h : Reads id validity s r first rest) (huid : r.baseline < uid) :
    s.pages uid = r.batches.countP (uid ∈ ·) := by
  obtain ⟨uids, hlists, hle⟩ := h.first
  have hfirst : Nat.repr uid ∉ first.page.newMessageIds := by
    rw [hlists.mem_iff]
    exact fun hmem => absurd (hle uid hmem) huid.not_ge
  rw [State.pages, h.stored, List.countP_cons_of_neg (by simpa using hfirst)]
  exact countP_eq_of_lists h.batches

theorem Invariant.complete (h : Invariant id validity s) : Complete validity s := by
  refine ⟨h.exact, ?_⟩
  intro first rest hstored
  cases h.tracked with
  | idle _ hempty =>
    rw [hempty] at hstored
    cases hstored
  | @reading r first' rest' hreads =>
    obtain ⟨rfl, rfl⟩ := List.cons.inj (hreads.stored.symm.trans hstored)
    refine ⟨r.baseline, hreads.isInitialSync, hreads.nextCursor, hreads.baseline, ?_⟩
    intro uid huid
    rw [hreads.pages_eq huid]
    refine ⟨r.countP_le_one uid, ?_⟩
    intro report hreport hpresent
    exact r.countP_eq_one (hreads.covered report hreport uid hpresent huid)

/-- Over any run of passes under one UIDVALIDITY, discovery loses nothing and repeats nothing. -/
theorem run_complete (hvalidity : validity < 2 ^ 32) (hstart : Starts id start)
    (hs : Run bundled id validity start s) (ht : Run bundled id validity s t) :
    Rows NoLower id s.world t.world ∧ Complete validity t := by
  obtain ⟨hinvariant, hrows⟩ := (hstart.invariant.run hvalidity hs).1.run hvalidity ht
  exact ⟨hrows, hinvariant.complete⟩

end Runs

section Example

def serving (validity : ℕ) (uids : List ℕ) (hnodup : uids.Nodup) : ImapSession where
  connect := .connected
  select := .ok (some validity)
  search
    | .all => .ok ⟨uids, hnodup⟩
    | .uidFrom first =>
      .ok ⟨uids.filter fun a => decide (first ≤ a ∨ ∀ b ∈ uids, b ≤ a), hnodup.filter _⟩
  fetch _ := .ok []
  fullMessage _ := .error .unauthorized

theorem shows_serving (validity : ℕ) {mailbox : Mailbox} {uids : List ℕ} (hnodup : uids.Nodup)
    (hpresent : ∀ a, a ∈ uids ↔ a ∈ mailbox.present) :
    Shows validity mailbox (serving validity uids hnodup) where
  select := by
    intro answer h
    cases h
    rfl
  all := by
    intro found h
    cases h
    exact hpresent
  uidFrom := by
    intro first found h
    cases h
    simp only [List.mem_filter, decide_eq_true_eq, hpresent]
    exact ⟨fun a ha => ha.1, fun a ha hle => ⟨ha, Or.inl hle⟩⟩

def imapAccount : LinkedAccount where
  id := .ending '1'
  provider := .imap
  emailAddress := "me@example.org"
  displayName := none
  syncCursor := none
  lastSyncedAt := none
  lastSyncError := none
  createdAt := 0
  imapHost := some "imap.example.org"
  imapPort := some 993

def emptyInbox : Mailbox where
  present := ∅
  next := 1
  below _ h := by cases h
  pos := by decide
  bound := by decide

def fullInbox : Mailbox where
  toSource := emptyInbox.arrive 1 2 (by decide) (by decide)
  pos := by decide
  bound := by decide

def emptySession : ImapSession := serving 7 [] List.nodup_nil

def fullSession : ImapSession := serving 7 [1] (List.nodup_singleton 1)

def unlinkedBundle : Bundled := ⟨none, none, none⟩

def beforeArrival : World where
  db := { Db.empty with linkedAccounts := [imapAccount] }
  keyring _ := none
  tokenCache := [(.ending '1', "password", 100)]
  journal := []
  outside := { imap := [emptySession] }

def afterBaseline : World := (syncOneAccount unlinkedBundle imapAccount beforeArrival).2

def afterArrival : World := { afterBaseline with outside := { imap := [fullSession, fullSession] } }

def resumedAccount : LinkedAccount :=
  { imapAccount with syncCursor := some "7:0", lastSyncedAt := some 0 }

def baselinePage : SyncPage := ⟨[], [], [], [], "7:0", false⟩

def arrivalPage : SyncPage := ⟨["1"], [], [], [], "7:1", false⟩

theorem baseline_discover : ∃ w, discover unlinkedBundle (providerFor imapAccount) imapAccount beforeArrival =
    (.ok ("password", baselinePage, true), w) ∧ w.outside.imap = [] :=
  ⟨_, rfl, rfl⟩

theorem baseline_journal : afterBaseline.journal =
    [.imapSelected (some 7), .imapSearched .all [], .discovered (.ending '1') baselinePage true,
      .storedCursor (.ending '1') "7:0"] := by
  rfl

theorem afterArrival_account : afterArrival.db.account (.ending '1') = some resumedAccount := by
  rfl

def afterPass : World := (syncOneAccount unlinkedBundle resumedAccount afterArrival).2

theorem syncOneAccount_returns (bundled : Bundled) (account : LinkedAccount) (w : World) :
    ∃ r, syncOneAccount bundled account w = (r, (syncOneAccount bundled account w).2) :=
  ⟨_, rfl⟩

theorem arrival_discover : ∃ w, discover unlinkedBundle (providerFor resumedAccount) resumedAccount
    afterArrival = (.ok ("password", arrivalPage, false), w) ∧ w.outside.imap = [fullSession] :=
  ⟨_, rfl, rfl⟩

set_option maxRecDepth 4000 in
theorem arrival_stored : .storedCursor (.ending '1') "7:1" ∈ afterArrival.since afterPass := by
  have hjournal : (afterArrival.since afterPass).getLast? = some (.storedCursor (.ending '1') "7:1") := by
    rfl
  exact List.mem_of_getLast? hjournal

def startState : State := ⟨beforeArrival, emptyInbox, []⟩

def firstReport : Report := ⟨none, baselinePage, true, emptyInbox, true⟩

def secondReport : Report := ⟨some "7:0", arrivalPage, false, fullInbox, true⟩

def endState : State := ⟨afterPass, fullInbox, [firstReport, secondReport]⟩

theorem run_example : Run unlinkedBundle (.ending '1') 7 startState endState := by
  have hempty : Shows 7 emptyInbox emptySession := shows_serving 7 List.nodup_nil fun _ => Iff.rfl
  have hfull : Shows 7 fullInbox fullSession := shows_serving 7 (List.nodup_singleton 1) fun _ =>
    List.mem_singleton.trans Finset.mem_singleton.symm
  have hbaseline : PassOver unlinkedBundle (.ending '1') 7 startState imapAccount
      [⟨emptySession, emptyInbox⟩] afterBaseline emptyInbox :=
    ⟨⟨imapAccount, rfl, rfl, rfl⟩, rfl, ⟨.cons_cons .refl (.cons_cons .refl (.singleton _)), by simpa⟩,
      syncOneAccount_returns _ _ _⟩
  have harrival : PassOver unlinkedBundle (.ending '1') 7 ⟨afterArrival, fullInbox, [firstReport]⟩
      resumedAccount [⟨fullSession, fullInbox⟩, ⟨fullSession, fullInbox⟩] afterPass fullInbox :=
    ⟨⟨resumedAccount, afterArrival_account, rfl, rfl⟩, rfl,
      ⟨.cons_cons .refl (.cons_cons .refl (.cons_cons .refl (.singleton _))), by simpa⟩,
      syncOneAccount_returns _ _ _⟩
  have hfirst : Step unlinkedBundle (.ending '1') 7 startState ⟨afterBaseline, emptyInbox, [firstReport]⟩ := by
    obtain ⟨w, hdiscover, hsessions⟩ := baseline_discover
    refine .discovered hbaseline hdiscover (List.suffix_refl _) hsessions (iff_of_true rfl ?_)
    change _ ∈ afterBaseline.journal
    rw [baseline_journal]
    exact List.mem_of_getLast? rfl
  have hsecond : Step unlinkedBundle (.ending '1') 7 ⟨afterArrival, fullInbox, [firstReport]⟩ endState := by
    obtain ⟨w, hdiscover, hsessions⟩ := arrival_discover
    exact .discovered harrival hdiscover (List.suffix_refl _) hsessions (iff_of_true rfl arrival_stored)
  have hmailbox : Step unlinkedBundle (.ending '1') 7 ⟨afterBaseline, emptyInbox, [firstReport]⟩
      ⟨afterBaseline, fullInbox, [firstReport]⟩ := .mailbox (.arrive (by decide) (by decide))
  have helsewhere : Step unlinkedBundle (.ending '1') 7 ⟨afterBaseline, fullInbox, [firstReport]⟩
      ⟨afterArrival, fullInbox, [firstReport]⟩ := .elsewhere (rows_of_accounts rfl)
  exact (((Relation.ReflTransGen.single hfirst).tail hmailbox).tail helsewhere).tail hsecond

theorem run_complete_example : endState.pages 1 = 1 := by
  have haccount : startState.world.db.account (.ending '1') = some imapAccount := rfl
  have hstart : Starts (.ending '1') startState := by
    refine ⟨?_, ?_, rfl⟩
    · intro a ha
      cases haccount.symm.trans ha
      exact Or.inl rfl
    · intro a ha
      cases haccount.symm.trans ha
      rfl
  obtain ⟨-, -, honce⟩ := run_complete (by decide) hstart run_example .refl
  obtain ⟨baseline, -, -, hbaseline, hpages⟩ := honce firstReport [secondReport] rfl
  have hzero : baseline = 0 := by
    cases hbaseline.1 with
    | inl heq => exact heq
    | inr hmem => cases hmem
  have hpresent : 1 ∈ secondReport.mailbox.present := Finset.mem_insert_self 1 ∅
  exact (hpages 1 (hzero ▸ Nat.one_pos)).2 secondReport (List.mem_singleton_self _) hpresent

end Example

end Fumiko.EmailCore.Imap
