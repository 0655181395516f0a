import Fumiko.EmailCore.CursorLaws
import Fumiko.EmailCore.ImapDiscoveryLaws

/-! Which server message the columns of a row belong to.  The server names a message by its
UID together with the UIDVALIDITY of the mailbox, the table by the UID alone. -/

namespace Fumiko.EmailCore.Imap.Identity

open Fumiko.Common Fumiko.Foundation Fumiko.Foundation.Action Fumiko.Net Fumiko.OAuth
  Fumiko.Program Fumiko.Storage

section Provenance

structure Origin where
  content : ℕ
  receivedAt : ℕ
  trashed : ℕ
  viewed : ℕ

def Origin.all (validity : ℕ) : Origin := ⟨validity, validity, validity, validity⟩

structure Trace where
  selected : ℕ
  rows : Uuid → Origin
  classified : Uuid → Uuid → List ℕ

namespace Trace

/-- A save rewrites the content of a row, and the rest only when the row is new. -/
def saved (τ : Trace) (row : Uuid) (isNew : Bool) : Origin :=
  if isNew then .all τ.selected else { τ.rows row with content := τ.selected }

def matched (τ : Trace) (email : Uuid) : List ℕ := [(τ.rows email).content, τ.selected]

def note (τ : Trace) : Event → Trace
  | .imapSelected validity => { τ with selected := validity.getD 0 }
  | .savedEmail row _ _ isNew =>
    { τ with rows := fun r => if r = row then τ.saved row isNew else τ.rows r }
  | .savedClassification email criterion =>
    { τ with classified := fun e c =>
        if e = email ∧ c = criterion then τ.matched email else τ.classified e c }
  | _ => τ

def follow (τ : Trace) (events : List Event) : Trace := events.foldl note τ

theorem follow_append (τ : Trace) (events : List Event) (e : Event) :
    τ.follow (events ++ [e]) = (τ.follow events).note e := by
  rw [follow, List.foldl_append, ← follow]
  rfl

end Trace

structure Belongs (id : Uuid) (validity : ℕ) (db : Db) (τ : Trace) : Prop where
  rows : ∀ e ∈ db.emails, e.accountId = id → τ.rows e.id = .all validity
  classified : ∀ e ∈ db.emails, e.accountId = id → ∀ c ∈ db.classifications, c.emailId = e.id →
    ∀ origin ∈ τ.classified e.id c.criterionId, origin = validity

structure Thins (id : Uuid) (db db' : Db) : Prop where
  emails : ∀ e ∈ db'.emails, e.accountId = id → ∃ e₀ ∈ db.emails, e₀.accountId = id ∧ e₀.id = e.id
  classifications : ∀ e ∈ db'.emails, e.accountId = id → ∀ c ∈ db'.classifications,
    c.emailId = e.id → ∃ c₀ ∈ db.classifications, c₀.emailId = c.emailId ∧ c₀.criterionId = c.criterionId

def Owned (db : Db) : Prop := ∀ c ∈ db.classifications, ∃ e ∈ db.emails, e.id = c.emailId

variable {id : Uuid} {validity : ℕ} {db db' : Db} {τ : Trace}

theorem Belongs.thins (h : Belongs id validity db τ) (hthins : Thins id db db') :
    Belongs id validity db' τ where
  rows e he haccount := by
    obtain ⟨e₀, he₀, haccount₀, hid⟩ := hthins.emails e he haccount
    rw [← hid]
    exact h.rows e₀ he₀ haccount₀
  classified e he haccount c hc hemail := by
    obtain ⟨e₀, he₀, haccount₀, hid⟩ := hthins.emails e he haccount
    obtain ⟨c₀, hc₀, hemail₀, hcriterion⟩ := hthins.classifications e he haccount c hc hemail
    rw [← hid, ← hcriterion]
    exact h.classified e₀ he₀ haccount₀ c₀ hc₀ (by rw [hemail₀, hemail, hid])

theorem belongs_of_none (h : ∀ e ∈ db.emails, e.accountId ≠ id) : Belongs id validity db τ where
  rows e he haccount := absurd haccount (h e he)
  classified e he haccount := absurd haccount (h e he)

theorem thins_updateEmails {p : EmailRow → Bool} {f : EmailRow → EmailRow}
    (hf : ∀ e, (f e).id = e.id ∧ (f e).accountId = e.accountId) : Thins id db (db.updateEmails p f) where
  emails := by
    intro e he haccount
    obtain ⟨e₀, he₀, rfl⟩ := List.mem_map.mp he
    have hkept : (if p e₀ then f e₀ else e₀).id = e₀.id ∧
        (if p e₀ then f e₀ else e₀).accountId = e₀.accountId := by
      split
      · exact hf e₀
      · exact ⟨rfl, rfl⟩
    exact ⟨e₀, he₀, hkept.2 ▸ haccount, hkept.1.symm⟩
  classifications _ _ _ c hc _ := ⟨c, hc, rfl, rfl⟩

theorem owned_updateEmails {p : EmailRow → Bool} {f : EmailRow → EmailRow} (hf : ∀ e, (f e).id = e.id)
    (h : Owned db) : Owned (db.updateEmails p f) := by
  intro c hc
  obtain ⟨e, he, hid⟩ := h c hc
  refine ⟨_, List.mem_map_of_mem he, ?_⟩
  split
  · rw [hf, hid]
  · exact hid

theorem thins_deleteEmails (p : EmailRow → Bool) : Thins id db (db.deleteEmails p) where
  emails e he haccount := ⟨e, (List.mem_filter.mp he).1, haccount, rfl⟩
  classifications _ _ _ c hc _ := ⟨c, (List.mem_filter.mp hc).1, rfl, rfl⟩

end Provenance

section Writes

variable {id : Uuid} {validity : ℕ} {db db' : Db} {τ : Trace}

theorem note_savedEmail {row account r : Uuid} {key : String} {isNew : Bool}
    (h : (r = row ∧ isNew = true) ∨ τ.rows r = .all validity) (hselected : τ.selected = validity) :
    (τ.note (.savedEmail row account key isNew)).rows r = .all validity := by
  simp only [Trace.note]
  split
  · next hr =>
    subst hr
    rw [Trace.saved, hselected]
    cases isNew with
    | true => rfl
    | false =>
      cases h with
      | inl h => cases h.2
      | inr h =>
        rw [h]
        rfl
  · next hr => exact h.resolve_left fun h => hr h.1

theorem Belongs.saveEmail (h : Belongs id validity db τ) (howned : Owned db)
    (hselected : τ.selected = validity) {fresh account row : Uuid} {now receivedAt : Int} {key : String}
    {subject sender snippet : Option String} {isRead : Bool}
    (hsave : Db.saveEmail fresh now account key subject sender receivedAt isRead snippet db =
      .ok (row, db')) :
    Belongs id validity db' (τ.note (.savedEmail row account key (db.email account key).isNone)) ∧
      Owned db' := by
  cases Db.saveEmail_saved hsave with
  | again =>
    have hkept : ∀ e, (Db.refreshEmail subject sender isRead snippet e).id = e.id ∧
        (Db.refreshEmail subject sender isRead snippet e).accountId = e.accountId := fun _ => ⟨rfl, rfl⟩
    have hthins : Thins id db (db.updateEmails (fun e =>
        e.accountId = account ∧ e.providerMessageId = key) (Db.refreshEmail subject sender isRead snippet)) :=
      thins_updateEmails hkept
    have hbelongs := h.thins hthins
    refine ⟨⟨?_, hbelongs.classified⟩, owned_updateEmails (fun e => (hkept e).1) howned⟩
    intro e he haccount
    exact note_savedEmail (Or.inr (hbelongs.rows e he haccount)) hselected
  | first hnone hfresh =>
    have hold : ∀ c ∈ db.classifications, c.emailId ≠ fresh := by
      intro c hc heq
      obtain ⟨e, he, hid⟩ := howned c hc
      exact hfresh e he (hid.trans heq)
    refine ⟨⟨?_, ?_⟩, ?_⟩
    · intro e he haccount
      apply note_savedEmail _ hselected
      cases List.mem_append.mp he with
      | inl he => exact Or.inr (h.rows e he haccount)
      | inr he => exact Or.inl ⟨by rw [List.mem_singleton.mp he], by rw [hnone]; rfl⟩
    · intro e he haccount c hc hemail
      cases List.mem_append.mp he with
      | inl he => exact h.classified e he haccount c hc hemail
      | inr he =>
        rw [List.mem_singleton.mp he] at hemail
        exact absurd hemail (hold c hc)
    · intro c hc
      obtain ⟨e, he, hid⟩ := howned c hc
      exact ⟨e, List.mem_append_left _ he, hid⟩

theorem saveClassification_eq_ok (howned : Owned db) {fresh email criterion : Uuid} {now : Int}
    {confidence : Option Rat} {u : Unit}
    (hsave : Db.saveClassification fresh now email criterion confidence db = .ok (u, db')) :
    db'.emails = db.emails ∧
      (∀ c ∈ db'.classifications, (c.emailId = email ∧ c.criterionId = criterion) ∨
        ∃ c₀ ∈ db.classifications, c₀.emailId = c.emailId ∧ c₀.criterionId = c.criterionId) ∧
      Owned db' := by
  cases Db.saveClassification_classified hsave with
  | again =>
    have hold : ∀ c ∈ db.classifications.map fun c =>
        if c.emailId = email ∧ c.criterionId = criterion then { c with confidence } else c,
        ∃ c₀ ∈ db.classifications, c₀.emailId = c.emailId ∧ c₀.criterionId = c.criterionId := by
      intro c hc
      obtain ⟨c₀, hc₀, rfl⟩ := List.mem_map.mp hc
      refine ⟨c₀, hc₀, ?_⟩
      split <;> exact ⟨rfl, rfl⟩
    refine ⟨rfl, fun c hc => Or.inr (hold c hc), ?_⟩
    intro c hc
    obtain ⟨c₀, hc₀, hemail, _⟩ := hold c hc
    rw [← hemail]
    exact howned c₀ hc₀
  | first hrow =>
    refine ⟨rfl, ?_, ?_⟩
    · intro c hc
      cases List.mem_append.mp hc with
      | inl hc => exact Or.inr ⟨c, hc, rfl, rfl⟩
      | inr hc =>
        cases List.mem_singleton.mp hc
        exact Or.inl ⟨rfl, rfl⟩
    · intro c hc
      cases List.mem_append.mp hc with
      | inl hc => exact howned c hc
      | inr hc =>
        cases List.mem_singleton.mp hc
        exact hrow

theorem Belongs.saveClassification (h : Belongs id validity db τ) (howned : Owned db)
    (hselected : τ.selected = validity) {fresh email criterion : Uuid} {now : Int}
    {confidence : Option Rat} {u : Unit}
    (hsave : Db.saveClassification fresh now email criterion confidence db = .ok (u, db')) :
    Belongs id validity db' (τ.note (.savedClassification email criterion)) ∧ Owned db' := by
  obtain ⟨hemails, hclassifications, howned'⟩ := saveClassification_eq_ok howned hsave
  refine ⟨⟨?_, ?_⟩, howned'⟩
  · rw [hemails]
    exact h.rows
  · rw [hemails]
    intro e he haccount c hc hemail origin horigin
    simp only [Trace.note] at horigin
    split at horigin
    · next heq =>
      rw [Trace.matched, ← heq.1, h.rows e he haccount, hselected] at horigin
      simpa [Origin.all] using horigin
    · next hne =>
      obtain ⟨c₀, hc₀, hemail₀, hcriterion⟩ := (hclassifications c hc).resolve_left
        fun heq => hne ⟨hemail.symm.trans heq.1, heq.2⟩
      rw [← hcriterion] at horigin
      exact h.classified e he haccount c₀ hc₀ (hemail₀.trans hemail) origin horigin

end Writes

section Passes

def traceAt (w₀ : World) (τ₀ : Trace) (w : World) : Trace := τ₀.follow (w₀.since w)

/-- What holds all through a pass whose sessions report one UIDVALIDITY.  `Q` says how far the
pass has come. -/
structure Kept (id : Uuid) (validity : ℕ) (w₀ : World) (τ₀ : Trace)
    (Q : Trace → List EmailRow → Prop) (w : World) : Prop where
  consistent : Consistent validity w.outside.imap
  journal : w₀.journal <+: w.journal
  owned : Owned w.db
  belongs : Belongs id validity w.db (traceAt w₀ τ₀ w)
  phase : Q (traceAt w₀ τ₀ w) w.db.emails

def Selectable (id : Uuid) (validity : ℕ) (τ : Trace) (emails : List EmailRow) : Prop :=
  τ.selected = validity ∨ ∀ e ∈ emails, e.accountId ≠ id

def Selected (validity : ℕ) (τ : Trace) (_ : List EmailRow) : Prop := τ.selected = validity

variable {id : Uuid} {validity : ℕ} {w₀ : World} {τ₀ : Trace} {Q : Trace → List EmailRow → Prop}
  {w w' : World}

theorem traceAt_record (h : w₀.journal <+: w.journal) (e : Event) :
    traceAt w₀ τ₀ (w.record e) = (traceAt w₀ τ₀ w).note e := by
  rw [traceAt, traceAt, ← Trace.follow_append, World.since, World.since, World.record,
    List.drop_append_of_le_length h.length_le]

theorem Kept.congr (h : Kept id validity w₀ τ₀ Q w) (himap : Consistent validity w'.outside.imap)
    (hdb : w'.db = w.db) (hjournal : w'.journal = w.journal) : Kept id validity w₀ τ₀ Q w' := by
  have htrace : traceAt w₀ τ₀ w' = traceAt w₀ τ₀ w := by
    rw [traceAt, World.since, hjournal, ← World.since, ← traceAt]
  exact ⟨himap, hjournal ▸ h.journal, hdb ▸ h.owned, hdb ▸ htrace ▸ h.belongs, hdb ▸ htrace ▸ h.phase⟩

theorem Kept.mono {Q' : Trace → List EmailRow → Prop} (h : Kept id validity w₀ τ₀ Q w)
    (hQ : ∀ τ emails, Q τ emails → Q' τ emails) : Kept id validity w₀ τ₀ Q' w :=
  ⟨h.consistent, h.journal, h.owned, h.belongs, hQ _ _ h.phase⟩

theorem Kept.select (h : Kept id validity w₀ τ₀ Q w) {answer : Option ℕ}
    (hanswer : answer.getD 0 = validity) :
    Kept id validity w₀ τ₀ (Selected validity) (w.record (.imapSelected answer)) where
  consistent := h.consistent
  journal := h.journal.trans (List.prefix_append _ _)
  owned := h.owned
  belongs := by
    rw [traceAt_record h.journal]
    exact ⟨h.belongs.rows, h.belongs.classified⟩
  phase := by
    rw [traceAt_record h.journal]
    exact hanswer

def Neutral (e : Event) : Prop := ∀ τ : Trace, τ.note e = τ

theorem kept_admits {e : Event} (he : Neutral e) :
    Admits (Preserves (Kept id validity w₀ τ₀ Q)) e := by
  intro w h
  have htrace : traceAt w₀ τ₀ (w.record e) = traceAt w₀ τ₀ w := by rw [traceAt_record h.journal, he]
  exact ⟨h.consistent, h.journal.trans (List.prefix_append _ _), h.owned, htrace ▸ h.belongs,
    htrace ▸ h.phase⟩

theorem kept_indifferent : Indifferent (Preserves (Kept id validity w₀ τ₀ Q)) where
  outside _ _ himap h := h.congr (himap ▸ h.consistent) rfl rfl
  session _ h :=
    h.congr (fun session hsession => h.consistent session (List.mem_of_mem_tail hsession)) rfl rfl
  tokenCache _ _ h := h.congr h.consistent rfl rfl
  keyring _ _ h := h.congr h.consistent rfl rfl

theorem openInbox_eq_ok {opened : ImapSession × Option ℕ} (h : Kept id validity w₀ τ₀ Q w)
    (hopen : openInbox w = (.ok opened, w')) :
    opened.2.getD 0 = validity ∧ Kept id validity w₀ τ₀ (Selected validity) w' := by
  obtain ⟨session, w₁, hconnect, hrest⟩ := bind_eq_ok.mp hopen
  obtain ⟨answer, w₂, hselect, hpure⟩ := bind_eq_ok.mp hrest
  cases hpure
  obtain ⟨hanswer, rfl⟩ := selectInbox_eq_ok hselect
  have hvalidity : answer.getD 0 = validity := by
    apply h.consistent session _ answer hanswer
    rw [connectSession_eq_ok hconnect]
    exact List.mem_cons_self
  exact ⟨hvalidity, ((moves_connectSession kept_indifferent.toOutward).of_eq hconnect h).select hvalidity⟩

theorem moves_openInbox_kept (hQ : ∀ τ emails, Selected validity τ emails → Q τ emails) :
    Moves (Preserves (Kept id validity w₀ τ₀ Q)) openInbox := by
  constructor
  intro w h
  rcases hopen : openInbox w with ⟨e | opened, w'⟩
  · obtain hconnect | ⟨session, w₁, hconnect, hrest⟩ := bind_eq_error.mp hopen
    · exact (moves_connectSession kept_indifferent.toOutward).of_eq hconnect h
    · have h₁ := (moves_connectSession kept_indifferent.toOutward).of_eq hconnect h
      obtain hselect | ⟨answer, w₂, _, hpure⟩ := bind_eq_error.mp hrest
      · have hmoves : Moves (Preserves (Kept id validity w₀ τ₀ Q)) (reply session.select) :=
          moves_reply _
        obtain hreply | ⟨answer, w₂, _, hlog⟩ := bind_eq_error.mp hselect
        · exact hmoves.of_eq hreply h₁
        · cases hlog
      · cases hpure
  · exact (openInbox_eq_ok h hopen).2.mono hQ

theorem neutral_searched (query : ImapQuery) (uids : List ℕ) : Neutral (.imapSearched query uids) :=
  fun _ => rfl

theorem kept_along (hQ : ∀ τ emails, Selected validity τ emails → Q τ emails) (account : LinkedAccount) :
    (providerFor account).Along (Preserves (Kept id validity w₀ τ₀ Q)) :=
  providerFor_along kept_indifferent.toOutward (moves_openInbox_kept hQ)
    (fun _ _ => kept_admits (neutral_searched _ _)) account

theorem moves_accounts_kept {p : LinkedAccount → Bool} {f : LinkedAccount → LinkedAccount} :
    Moves (Preserves (Kept id validity w₀ τ₀ Q)) (execute (Db.updateAccounts p f)) := by
  apply moves_statement kept_indifferent.afterDbCall
  intro w _ db hdb h
  cases hdb
  exact ⟨h.consistent, h.journal, h.owned, ⟨h.belongs.rows, h.belongs.classified⟩, h.phase⟩

theorem moves_clearSyncCursor_kept (account : Uuid) :
    Moves (Preserves (Kept id validity w₀ τ₀ Q)) (clearSyncCursor account) :=
  moves_bind moves_accounts_kept fun _ => moves_log (kept_admits fun _ => rfl)

theorem moves_updateSyncCursor_kept (account : Uuid) (cursor : String) :
    Moves (Preserves (Kept id validity w₀ τ₀ Q)) (updateSyncCursor account cursor) :=
  moves_bind kept_indifferent.unixTimestamp fun _ =>
    moves_bind moves_accounts_kept fun _ => moves_log (kept_admits fun _ => rfl)

theorem moves_setSyncError_kept (account : Uuid) (error : String) :
    Moves (Preserves (Kept id validity w₀ τ₀ Q)) (setSyncError account error) := moves_accounts_kept

section Discovery

variable {bundled : Bundled} {account : LinkedAccount} {token : String} {page : SyncPage}
  {isInitialSync : Bool}

theorem uidSearch_kept {session : ImapSession} {query : ImapQuery} {uids : List ℕ}
    (h : Kept id validity w₀ τ₀ Q w) (hsearch : uidSearch session query w = (.ok uids, w')) :
    Kept id validity w₀ τ₀ Q w' := by
  obtain ⟨_, _, _, rfl⟩ := uidSearch_eq_ok hsearch
  exact kept_admits (neutral_searched _ _) w h

theorem requested_kept {p : ImapProvider} (h : Kept id validity w₀ τ₀ Q w)
    (hrequested : Requested (Imap.provider p) account token page w w') :
    Kept id validity w₀ τ₀ (Selected validity) w' ∧
      ∃ uid, page.nextCursor = formatCursor validity uid := by
  cases hrequested with
  | initial options hsync =>
    obtain ⟨opened, w₁, hopen, hrest⟩ := bind_eq_ok.mp ((congrFun (openInbox_bind _) w).symm.trans hsync)
    obtain ⟨hvalidity, h₁⟩ := openInbox_eq_ok h hopen
    obtain ⟨uids, w₂, hsearch, hpage⟩ := bind_eq_ok.mp hrest
    cases hpage
    refine ⟨uidSearch_kept h₁ hsearch, ?_⟩
    rw [← hvalidity]
    exact ⟨_, rfl⟩
  | incremental cursor _ hsync =>
    change Imap.incrementalSync cursor w = _ at hsync
    cases hparse : parseCursor cursor with
    | none =>
      simp only [Imap.incrementalSync, hparse] at hsync
      cases hsync
    | some parsed =>
      simp only [Imap.incrementalSync, hparse] at hsync
      obtain ⟨opened, w₁, hopen, hrest⟩ :=
        bind_eq_ok.mp ((congrFun (openInbox_bind _) w).symm.trans hsync)
      obtain ⟨hvalidity, h₁⟩ := openInbox_eq_ok h hopen
      split at hrest
      · cases hrest
      · next heq =>
        obtain ⟨uids, w₂, hsearch, hpage⟩ := bind_eq_ok.mp hrest
        cases hpage
        refine ⟨uidSearch_kept h₁ hsearch, ?_⟩
        rw [← hvalidity, not_ne_iff.mp heq]
        exact ⟨_, rfl⟩

theorem kept_discovering (bundled : Bundled) :
    Discovering (Preserves (Kept id validity w₀ τ₀ (Selectable id validity))) bundled
      (providerFor account) account :=
  kept_indifferent.discovering (kept_along (fun _ _ => Or.inl) account) bundled
    (moves_clearSyncCursor_kept _)

theorem discover_kept (himap : account.provider = .imap ∨ account.imapHost.isSome)
    (h : Kept id validity w₀ τ₀ (Selectable id validity) w)
    (hdiscover : discover bundled (providerFor account) account w = (.ok (token, page, isInitialSync), w')) :
    Kept id validity w₀ τ₀ (Selected validity) w' ∧
      ∃ uid, page.nextCursor = formatCursor validity uid := by
  obtain ⟨w₁, hbefore, hrequested⟩ := (kept_discovering bundled).discover_eq_ok hdiscover
  rw [providerFor, if_pos himap] at hrequested
  exact requested_kept (hbefore h) hrequested

end Discovery

section Writes

theorem moves_statement_kept {α : Type} {f : Db → Except StorageError (α × Db)}
    (hf : ∀ db a db', f db = .ok (a, db') → Thins id db db' ∧ (Owned db → Owned db')) :
    Moves (Preserves (Kept id validity w₀ τ₀ (Selected validity))) (statement f) := by
  apply moves_statement kept_indifferent.afterDbCall
  intro w a db hdb h
  obtain ⟨hthins, howned⟩ := hf _ _ _ hdb
  exact ⟨h.consistent, h.journal, howned h.owned, h.belongs.thins hthins, h.phase⟩

theorem Kept.logged {Q' : Trace → List EmailRow → Prop} {db : Db} {e : Event}
    (h : Kept id validity w₀ τ₀ Q w) (hbelongs : Belongs id validity db ((traceAt w₀ τ₀ w).note e))
    (howned : Owned db) (hphase : Q' ((traceAt w₀ τ₀ w).note e) db.emails) :
    Kept id validity w₀ τ₀ Q' ((w.afterDbCall.withDb db).record e) := by
  have htrace : traceAt w₀ τ₀ ((w.afterDbCall.withDb db).record e) = (traceAt w₀ τ₀ w).note e :=
    traceAt_record (w := w.afterDbCall.withDb db) h.journal e
  exact ⟨h.consistent, h.journal.trans (List.prefix_append _ _), howned, htrace ▸ hbelongs,
    htrace ▸ hphase⟩

theorem moves_saveEmail_kept (account : Uuid) (key : String) (subject sender : Option String)
    (receivedAt : Int) (isRead : Bool) (snippet : Option String) :
    Moves (Preserves (Kept id validity w₀ τ₀ (Selected validity)))
      (saveEmail account key subject sender receivedAt isRead snippet) := by
  apply moves_bind kept_indifferent.freshUuid
  intro fresh
  apply moves_bind kept_indifferent.unixTimestamp
  intro now
  constructor
  intro w
  apply statement_logged (k := fun row => log (.savedEmail row account key
    (w.db.email account key).isNone) >>= fun _ => pure row) fun _ _ => rfl
  · exact kept_indifferent.afterDbCall w
  · intro row db hdb h
    obtain ⟨hbelongs, howned⟩ := h.belongs.saveEmail h.owned h.phase hdb
    exact h.logged hbelongs howned h.phase

theorem moves_saveClassification_kept (email criterion : Uuid) (confidence : Option Rat) :
    Moves (Preserves (Kept id validity w₀ τ₀ (Selected validity)))
      (saveClassification email criterion confidence) := by
  apply moves_bind kept_indifferent.freshUuid
  intro fresh
  apply moves_bind kept_indifferent.unixTimestamp
  intro now
  constructor
  intro w
  apply statement_logged (k := fun _ => log (.savedClassification email criterion)) fun _ _ => rfl
  · exact kept_indifferent.afterDbCall w
  · intro _ db hdb h
    obtain ⟨hbelongs, howned⟩ := h.belongs.saveClassification h.owned h.phase hdb
    exact h.logged hbelongs howned h.phase

theorem moves_update_kept {p : EmailRow → Bool} {f : EmailRow → EmailRow}
    (hf : ∀ e, (f e).id = e.id ∧ (f e).accountId = e.accountId) :
    Moves (Preserves (Kept id validity w₀ τ₀ (Selected validity))) (execute (Db.updateEmails p f)) := by
  apply moves_statement_kept
  intro db _ db' hdb
  cases hdb
  exact ⟨thins_updateEmails hf, owned_updateEmails fun e => (hf e).1⟩

theorem moves_applyPage_kept (account : LinkedAccount) (token : String) (page : SyncPage) :
    Moves (Preserves (Kept id validity w₀ τ₀ (Selected validity)))
      (applyPage (providerFor account) account.id token page) := by
  have hneutral {e : Event} (he : Neutral e) :
      Admits (Preserves (Kept id validity w₀ τ₀ (Selected validity))) e := kept_admits he
  apply moves_bind (moves_hydrate (kept_along (fun _ _ h => h) account) (fun _ _ _ => hneutral fun _ => rfl)
    (fun _ => hneutral fun _ => rfl) (moves_saveEmail_kept _) _ _)
  intro hydrated
  apply moves_bind
  · apply moves_applyRemoteChanges
    · intro key
      exact moves_bind kept_indifferent.unixTimestamp fun _ => moves_update_kept fun _ => ⟨rfl, rfl⟩
    · exact fun key => moves_update_kept fun _ => ⟨rfl, rfl⟩
    · intro key
      apply moves_statement_kept
      intro db _ db' hdb
      cases hdb
      exact ⟨thins_deleteEmails _, fun h => Db.owned_deleteEmails h _⟩
  · exact fun _ => moves_pure _

theorem moves_finish_kept (account : LinkedAccount) (token : String) (isInitialSync : Bool)
    (emails : List NewEmail) :
    Moves (Preserves (Kept id validity w₀ τ₀ (Selected validity)))
      (finish account token isInitialSync emails) := by
  have hneutral {e : Event} (he : Neutral e) :
      Admits (Preserves (Kept id validity w₀ τ₀ (Selected validity))) e := kept_admits he
  apply moves_bind
  · exact moves_classifyNewEmails kept_indifferent.toOutward (kept_along (fun _ _ h => h) account)
      (fun _ _ _ => hneutral fun _ => rfl) (fun _ => hneutral fun _ => rfl) _ _
      fun _ _ _ _ => moves_saveClassification_kept _ _ _
  · intro _
    apply moves_purge kept_indifferent.toOutward
    intro maxInbox maxFindings
    have hdelete {p : Db → EmailRow → Bool} {n : Db → ℕ} :
        Moves (Preserves (Kept id validity w₀ τ₀ (Selected validity)))
          (statement fun db => .ok (n db, db.deleteEmails (p db))) := by
      apply moves_statement_kept
      intro db _ db' hdb
      cases hdb
      exact ⟨thins_deleteEmails _, fun h => Db.owned_deleteEmails h _⟩
    apply moves_bind (moves_read _)
    intro ranking
    exact moves_bind hdelete fun _ => moves_bind hdelete fun _ => moves_pure _

end Writes

section Hydration

variable {ids : List String} {results : List (Except ProviderError MessageMetadata)}
  {account : LinkedAccount} {token : String} {page : SyncPage} {saved : List NewEmail} {failed : Bool}

theorem isNotFoundError_missing (key : String) : isNotFoundError (.invalidData (missingText key)) := by
  have htext : contains " not found on IMAP server (404)" "404" := by decide
  have hmissing : contains (missingText key) "404" := contains_append_right htext
  have hdisplay : contains (ProviderError.invalidData (missingText key)).display "404" :=
    contains_append_right hmissing
  rw [isNotFoundError, hdisplay]
  rfl

theorem fetchMessageMetadata_missing (h : fetchMessageMetadata ids w = (.ok results, w')) :
    ∀ e, .error e ∈ results → isNotFoundError e := by
  rw [fetchMessageMetadata] at h
  split at h
  · cases h
    exact fun _ he => absurd he List.not_mem_nil
  · obtain ⟨session, w₁, _, hselect⟩ := bind_eq_ok.mp h
    obtain ⟨_, w₂, _, hreply⟩ := bind_eq_ok.mp hselect
    obtain ⟨fetches, w₃, _, hcollect⟩ := bind_eq_ok.mp hreply
    have hread : ∀ key w, ∀ e, .error e = (readFetch fetches key w).1 → isNotFoundError e := by
      intro key w e he
      have hrun : readFetch fetches key w = (.error e, (readFetch fetches key w).2) :=
        Prod.ext he.symm rfl
      rw [(readFetch_missing hrun).2]
      exact isNotFoundError_missing key
    obtain ⟨rs, w₄, hrs, hforall⟩ := collect_forall₂ (δ := ProviderError)
      (P := fun _ r => ∀ e, .error e = r → isNotFoundError e) hread ids w₃
    cases hcollect.symm.trans hrs
    have hall := ((List.forall₂_and_left _ _).mp (hforall.flip.imp fun _ _ h => ⟨h, trivial⟩)).1
    exact fun e he => hall _ he e rfl

theorem applyPage_imap (himap : account.provider = .imap ∨ account.imapHost.isSome)
    (h : applyPage (providerFor account) account.id token page w = (.ok (saved, failed), w')) :
    failed = false := by
  rw [providerFor, if_pos himap] at h
  obtain ⟨⟨saved', failed'⟩, w₁, hhydrate, hrest⟩ := bind_eq_ok.mp h
  obtain ⟨_, w₂, _, hpure⟩ := bind_eq_ok.mp hrest
  cases hpure
  rw [hydrate] at hhydrate
  split at hhydrate
  · cases hhydrate
    rfl
  · obtain ⟨results, w₃, hfetch, hresults⟩ := bind_eq_ok.mp (bind_log hhydrate)
    apply (hydrateAll_eq_ok (bind_log hresults)).1.mpr
    exact fetchMessageMetadata_missing (mapError_eq_ok.mp hfetch)

end Hydration

section Outcomes

variable {bundled : Bundled} {account : LinkedAccount} {r : Except SyncError Unit}

def Recorded (validity : ℕ) (account : Uuid) (w : World) : Prop :=
  ∀ b, w.db.account account = some b → ∃ uid, b.syncCursor = some (formatCursor validity uid)

theorem recorded_of_accounts {account : Uuid} (h : Recorded validity account w)
    (haccounts : w'.db.linkedAccounts = w.db.linkedAccounts) : Recorded validity account w' := by
  intro b hb
  rw [Db.account, haccounts] at hb
  exact h b hb

theorem syncOneAccountInner_kept (himap : account.provider = .imap ∨ account.imapHost.isSome)
    (h : Kept id validity w₀ τ₀ (Selectable id validity) w)
    (hpass : syncOneAccountInner bundled account w = (r, w')) :
    Kept id validity w₀ τ₀ (Selectable id validity) w' ∧
      (r = .ok () → Kept id validity w₀ τ₀ (Selected validity) w' ∧ Recorded validity account.id w') := by
  have hselectable {u : World} (hu : Kept id validity w₀ τ₀ (Selected validity) u) :
      Kept id validity w₀ τ₀ (Selectable id validity) u := hu.mono fun _ _ => Or.inl
  have happlied {token page isInitialSync w₁ outcome w₂}
      (happlied : Applied bundled account w token page isInitialSync w₁ outcome w₂) :
      Kept id validity w₀ τ₀ (Selected validity) w₂ ∧
        ∃ uid, page.nextCursor = formatCursor validity uid := by
    obtain ⟨h₁, hcursor⟩ := discover_kept himap h happlied.discover
    have hlogged := kept_admits (e := .discovered account.id page isInitialSync) (fun _ => rfl) w₁ h₁
    exact ⟨(moves_applyPage_kept account _ _).of_eq happlied.apply hlogged, hcursor⟩
  cases syncOneAccountInner_ends hpass with
  | undiscovered hdiscover =>
    exact ⟨(kept_discovering bundled).discover.of_eq hdiscover h, nofun⟩
  | unapplied happly => exact ⟨hselectable (happlied happly).1, nofun⟩
  | held happly _ => cases applyPage_imap himap happly.apply
  | unstored happly hstore =>
    have hkept := (moves_updateSyncCursor_kept _ _).of_eq hstore (happlied happly).1
    exact ⟨hselectable hkept, nofun⟩
  | stored happly hstore hfinish =>
    obtain ⟨h₂, uid, hcursor⟩ := happlied happly
    have h₃ := (moves_updateSyncCursor_kept _ _).of_eq hstore h₂
    have hkept := (moves_finish_kept account _ _ _).of_eq hfinish h₃
    refine ⟨hselectable hkept, fun _ => ⟨hkept, ?_⟩⟩
    apply recorded_of_accounts _ ((leaves_finish account _ _ _).of_eq hfinish).accounts
    intro b hb
    obtain ⟨_, _, hadvanced⟩ := rows_updateSyncCursor hstore b hb
    exact ⟨uid, hcursor ▸ hadvanced.2⟩

theorem syncOneAccount_kept (himap : account.provider = .imap ∨ account.imapHost.isSome)
    (h : Kept id validity w₀ τ₀ (Selectable id validity) w)
    (hpass : syncOneAccount bundled account w = (r, w')) :
    Kept id validity w₀ τ₀ (Selectable id validity) w' ∧
      (r = .ok () → Kept id validity w₀ τ₀ (Selected validity) w' ∧ Recorded validity account.id w') := by
  obtain ⟨outcome, u, hinner, hrest⟩ := attempt_bind hpass
  have hkept := syncOneAccountInner_kept himap h hinner
  cases outcome with
  | ok _ =>
    cases hrest
    exact hkept
  | error e =>
    obtain ⟨_, u', hrecord, hraise⟩ := (bind_cases hrest).resolve_left fun ⟨_, hfail, _⟩ => by cases hfail
    cases hraise
    exact ⟨(moves_ignore (moves_setSyncError_kept _ _)).of_eq hrecord hkept.1, nofun⟩

end Outcomes

end Passes

section Runs

structure State where
  world : World
  trace : Trace

inductive UserAction
  | trash (row : Uuid)
  | restore (row : Uuid)
  | view (row : Uuid)
  | markAllRead (account : Option Uuid)

namespace UserAction

def run (now : ℤ) (db : Db) : UserAction → Except StorageError (Unit × Db)
  | .trash row => db.trashEmail now row
  | .restore row => db.restoreEmail row
  | .view row => db.markEmailViewed row
  | .markAllRead account => .ok ((), db.markAllRead account)

def note (db : Db) (τ : Trace) : UserAction → Trace
  | .trash row | .restore row =>
    { τ with rows := fun r =>
        if r = row then { τ.rows r with trashed := (τ.rows r).content } else τ.rows r }
  | .view row =>
    { τ with rows := fun r =>
        if r = row then { τ.rows r with viewed := (τ.rows r).content } else τ.rows r }
  | .markAllRead account =>
    { τ with rows := fun r =>
        if db.emails.any fun e => e.id = r ∧ !e.isTrashed ∧ account.all (e.accountId = ·) then
          { τ.rows r with viewed := (τ.rows r).content }
        else τ.rows r }

end UserAction

/-- What else may happen between two passes: rows are deleted, other accounts are read, and
settings change, but no row of the account is added or rewritten. -/
structure Elsewhere (id : Uuid) (w w' : World) : Prop where
  account : Rows Alike id w w'
  emails : ∀ e ∈ w'.db.emails, e.accountId = id → e ∈ w.db.emails
  classifications : ∀ e ∈ w'.db.emails, e.accountId = id → ∀ c ∈ w'.db.classifications,
    c.emailId = e.id → ∃ c₀ ∈ w.db.classifications,
      c₀.emailId = c.emailId ∧ c₀.criterionId = c.criterionId
  owned : Owned w'.db

structure PassOver (bundled : Bundled) (id : Uuid) (s : State) (r : Except SyncError Unit) (w' : World) :
    Prop where
  run : ∃ account : LinkedAccount, (account.provider = .imap ∨ account.imapHost.isSome) ∧
    (∃ a, s.world.db.account id = some a ∧ Alike a account) ∧
    syncOneAccount bundled account s.world = (r, w')

def State.after (s : State) (w' : World) : State := ⟨w', traceAt s.world s.trace w'⟩

/-- The steps of a run in which the passes begin in states with the property `C`. -/
inductive Step (bundled : Bundled) (id : Uuid) (C : State → Prop) : State → State → Prop
  | pass {s r w'} (h : PassOver bundled id s r w') (hcondition : C s) :
    Step bundled id C s (s.after w')
  | user {w τ db} (now : ℤ) (action : UserAction) (h : action.run now w.db = .ok ((), db)) :
    Step bundled id C ⟨w, τ⟩ ⟨{ w with db }, action.note w.db τ⟩
  | elsewhere {w w' τ} (h : Elsewhere id w w') : Step bundled id C ⟨w, τ⟩ ⟨w', τ⟩

abbrev Run (bundled : Bundled) (id : Uuid) (C : State → Prop) : State → State → Prop :=
  Relation.ReflTransGen (Step bundled id C)

structure Starts (id : Uuid) (s : State) : Prop where
  emails : ∀ e ∈ s.world.db.emails, e.accountId ≠ id
  owned : Owned s.world.db

/-- Every row of the account belongs to messages of the UIDVALIDITY in its cursor. -/
def Unmixed (id : Uuid) (s : State) : Prop :=
  ∀ a, s.world.db.account id = some a → ∃ validity,
    (a.syncCursor.bind parseCursor).map Prod.fst = some validity ∧
      Belongs id validity s.world.db s.trace

/-- Every session of the pass reports one UIDVALIDITY, which is the one last selected unless the
account has no rows. -/
def Unchanged (id : Uuid) (s : State) : Prop :=
  ∃ validity < 2 ^ 32, Consistent validity s.world.outside.imap ∧
    (validity = s.trace.selected ∨ ∀ e ∈ s.world.db.emails, e.accountId ≠ id)

variable {bundled : Bundled} {id : Uuid} {validity : ℕ} {start s t : State}

section Users

variable {now : ℤ} {db db' : Db} {τ : Trace} {action : UserAction}

theorem UserAction.note_selected : (action.note db τ).selected = τ.selected := by
  cases action <;> rfl

theorem UserAction.note_classified : (action.note db τ).classified = τ.classified := by
  cases action <;> rfl

theorem UserAction.note_rows {r : Uuid} (h : τ.rows r = .all validity) :
    (action.note db τ).rows r = .all validity := by
  cases action <;> (simp only [UserAction.note]; split <;> simp [h, Origin.all])

theorem updateEmailById_eq_ok {row : Uuid} {f : EmailRow → EmailRow} {u : Unit}
    (h : db.updateEmailById row f = .ok (u, db')) : db' = db.updateEmails (·.id = row) f := by
  rw [Db.updateEmailById] at h
  split at h <;> cases h
  rfl

theorem UserAction.run_eq_ok {u : Unit} (h : action.run now db = .ok (u, db')) :
    ∃ p f, db' = db.updateEmails p f ∧ ∀ e, (f e).id = e.id ∧ (f e).accountId = e.accountId := by
  cases action with
  | trash row => exact ⟨_, _, updateEmailById_eq_ok h, fun _ => ⟨rfl, rfl⟩⟩
  | restore row => exact ⟨_, _, updateEmailById_eq_ok h, fun _ => ⟨rfl, rfl⟩⟩
  | view row => exact ⟨_, _, updateEmailById_eq_ok h, fun _ => ⟨rfl, rfl⟩⟩
  | markAllRead account =>
    cases h
    exact ⟨_, _, rfl, fun _ => ⟨rfl, rfl⟩⟩

theorem Belongs.user {u : Unit} (h : Belongs id validity db τ) (howned : Owned db)
    (hrun : action.run now db = .ok (u, db')) :
    Belongs id validity db' (action.note db τ) ∧ Owned db' := by
  obtain ⟨p, f, rfl, hf⟩ := UserAction.run_eq_ok hrun
  have hbelongs := h.thins (thins_updateEmails (p := p) hf)
  refine ⟨⟨?_, ?_⟩, owned_updateEmails (fun e => (hf e).1) howned⟩
  · exact fun e he haccount => UserAction.note_rows (hbelongs.rows e he haccount)
  · rw [UserAction.note_classified]
    exact hbelongs.classified

end Users

structure Invariant (id : Uuid) (s : State) : Prop where
  owned : Owned s.world.db
  belongs : Belongs id s.trace.selected s.world.db s.trace

theorem Starts.invariant (h : Starts id start) : Invariant id start :=
  ⟨h.owned, belongs_of_none h.emails⟩

theorem elsewhere_outside {w : World} (h : Owned w.db) (outside : Outside) :
    Elsewhere id w { w with outside } :=
  ⟨rows_of_accounts rfl, fun _ he _ => he, fun _ _ _ c hc _ => ⟨c, hc, rfl, rfl⟩, h⟩

theorem Elsewhere.thins {w w' : World} (h : Elsewhere id w w') : Thins id w.db w'.db :=
  ⟨fun e he haccount => ⟨e, h.emails e he haccount, haccount, rfl⟩, h.classifications⟩

theorem Invariant.kept (h : Invariant id s) (hconsistent : Consistent validity s.world.outside.imap)
    (hsame : validity = s.trace.selected ∨ ∀ e ∈ s.world.db.emails, e.accountId ≠ id) :
    Kept id validity s.world s.trace (Selectable id validity) s.world := by
  have htrace : traceAt s.world s.trace s.world = s.trace := by
    rw [traceAt, World.since, List.drop_length]
    rfl
  refine ⟨hconsistent, List.prefix_refl _, h.owned, ?_, ?_⟩
  · rw [htrace]
    cases hsame with
    | inl heq => exact heq ▸ h.belongs
    | inr hnone => exact belongs_of_none hnone
  · rw [htrace]
    exact hsame.imp Eq.symm fun hnone => hnone

theorem Kept.invariant {w₀ w : World} {τ₀ : Trace}
    (h : Kept id validity w₀ τ₀ (Selectable id validity) w) : Invariant id ⟨w, traceAt w₀ τ₀ w⟩ := by
  refine ⟨h.owned, ?_⟩
  cases h.phase with
  | inl heq => exact heq ▸ h.belongs
  | inr hnone => exact belongs_of_none hnone

theorem PassOver.kept {r : Except SyncError Unit} {w' : World} (hpass : PassOver bundled id s r w')
    (h : Kept id validity s.world s.trace (Selectable id validity) s.world) :
    Kept id validity s.world s.trace (Selectable id validity) w' ∧
      (r = .ok () → Kept id validity s.world s.trace (Selected validity) w' ∧ Recorded validity id w') := by
  obtain ⟨account, himap, ⟨a, ha, hmailbox, _⟩, hrun⟩ := hpass.run
  have hid : account.id = id := by
    rw [← Db.id_of_account ha]
    exact congrArg Prod.fst hmailbox
  rw [← hid] at h ⊢
  exact syncOneAccount_kept himap h hrun

theorem Invariant.step (h : Invariant id s) (hstep : Step bundled id (Unchanged id) s t) :
    Invariant id t := by
  cases hstep with
  | pass hpass hcondition =>
    obtain ⟨validity, _, hconsistent, hsame⟩ := hcondition
    exact (hpass.kept (h.kept hconsistent hsame)).1.invariant
  | user now action haction =>
    obtain ⟨hbelongs, howned⟩ := h.belongs.user h.owned haction
    refine ⟨howned, ?_⟩
    rw [UserAction.note_selected]
    exact hbelongs
  | elsewhere helsewhere => exact ⟨helsewhere.owned, h.belongs.thins helsewhere.thins⟩

theorem Invariant.run (h : Invariant id s) (hrun : Run bundled id (Unchanged id) s t) :
    Invariant id t := by
  induction hrun with
  | refl => exact h
  | tail _ hstep ih => exact ih.step hstep

/-- When the UIDVALIDITY never changes under the rows of the account, no successful pass leaves a
row that mixes two messages. -/
theorem run_unmixed {w' : World} (hstart : Starts id start)
    (hrun : Run bundled id (Unchanged id) start s) (hcondition : Unchanged id s)
    (hpass : PassOver bundled id s (.ok ()) w') : Unmixed id (s.after w') := by
  obtain ⟨validity, hbound, hconsistent, hsame⟩ := hcondition
  have hkept := (hstart.invariant.run hrun).kept hconsistent hsame
  obtain ⟨hselected, hrecorded⟩ := (hpass.kept hkept).2 rfl
  intro a ha
  obtain ⟨uid, hcursor⟩ := hrecorded a ha
  refine ⟨validity, ?_, hselected.belongs⟩
  rw [hcursor, Option.bind_some, parseCursor_parts, Decimal.parseU32_repr hbound]
  rfl

end Runs

section Example

theorem nodup_onlyUid : [1].Nodup := List.nodup_singleton 1

def mailSession (validity : ℕ) (subject : String) (date : ℤ) : ImapSession where
  connect := .connected
  select := .ok (some validity)
  search _ := .ok ⟨[1], nodup_onlyUid⟩
  fetch _ := .ok [⟨some 1, false, some ⟨some subject, some "a@example.org", some date⟩, none⟩]
  fullMessage _ := .error .unauthorized

def firstSession : ImapSession := mailSession 1 "first" 10

def secondSession : ImapSession := mailSession 2 "second" 20

def startWorld : World where
  db := { Db.empty with linkedAccounts := [imapAccount] }
  keyring _ := none
  tokenCache := [(.ending '1', "password", 100)]
  journal := []
  outside := { imap := [firstSession, firstSession], uuids := [.ending '2'] }

def startState : State := ⟨startWorld, ⟨0, fun _ => .all 0, fun _ _ => []⟩⟩

def firstWorld : World := (syncOneAccount unlinkedBundle imapAccount startWorld).2

def trashedDb : Db := firstWorld.db.updateEmails (·.id = .ending '2') fun e =>
  { e with isTrashed := true, trashedAt := some 0 }

def trashedState : State :=
  ⟨{ firstWorld with db := trashedDb },
    (UserAction.trash (.ending '2')).note firstWorld.db (startState.after firstWorld).trace⟩

def recreatedState : State :=
  ⟨{ trashedState.world with outside := { imap := [secondSession, secondSession, secondSession] } },
    trashedState.trace⟩

def syncedAccount : LinkedAccount := { imapAccount with syncCursor := some "1:1", lastSyncedAt := some 0 }

def secondWorld : World := (syncOneAccount unlinkedBundle syncedAccount recreatedState.world).2

theorem first_ok : (syncOneAccount unlinkedBundle imapAccount startWorld).1 = .ok () := by
  rfl

theorem second_ok : (syncOneAccount unlinkedBundle syncedAccount recreatedState.world).1 = .ok () := by
  rfl

theorem mixed_row : secondWorld.db.emails.map (fun e =>
    (e.id, e.accountId, e.subject, e.receivedAt, e.isTrashed)) =
      [(.ending '2', .ending '1', some "second", 10, true)] := by
  rfl

theorem mixed_origin : (recreatedState.after secondWorld).trace.rows (.ending '2') = ⟨2, 1, 1, 1⟩ := by
  rfl

theorem recreated_account : recreatedState.world.db.account (.ending '1') = some syncedAccount := by
  rfl

theorem second_account : secondWorld.db.account (.ending '1') =
    some { syncedAccount with syncCursor := some "2:1" } := by
  rfl

theorem first_pass : PassOver unlinkedBundle (.ending '1') startState (.ok ()) firstWorld :=
  ⟨imapAccount, Or.inl rfl, ⟨imapAccount, rfl, rfl, rfl⟩, Prod.ext first_ok rfl⟩

theorem trashed_owned : Owned trashedState.world.db := by
  have hnone : trashedState.world.db.classifications = [] := rfl
  intro c hc
  rw [hnone] at hc
  cases hc

theorem trashed_run {C : State → Prop} (hstart : C startState) (outside : Outside) :
    Run unlinkedBundle (.ending '1') C startState
      ⟨{ trashedState.world with outside }, trashedState.trace⟩ := by
  have htrash : Step unlinkedBundle (.ending '1') C (startState.after firstWorld) trashedState :=
    .user 0 (.trash (.ending '2')) rfl
  exact ((Relation.ReflTransGen.single (.pass first_pass hstart)).tail htrash).tail
    (.elsewhere (elsewhere_outside trashed_owned outside))

theorem start_starts : Starts (.ending '1') startState :=
  ⟨fun _ he => absurd he List.not_mem_nil, fun _ hc => absurd hc List.not_mem_nil⟩

theorem pass_mixes_messages : ¬∀ bundled id start s w', Starts id start →
    Run bundled id (fun _ => True) start s → PassOver bundled id s (.ok ()) w' →
      Unmixed id (s.after w') := by
  intro h
  have hpass : PassOver unlinkedBundle (.ending '1') recreatedState (.ok ()) secondWorld :=
    ⟨syncedAccount, Or.inl rfl, ⟨syncedAccount, recreated_account, rfl, rfl⟩,
      Prod.ext second_ok rfl⟩
  obtain ⟨validity, _, hbelongs⟩ := h unlinkedBundle _ startState recreatedState _ start_starts
    (trashed_run trivial _) hpass _ second_account
  have hmem : (.ending '2', .ending '1', some "second", 10, true) ∈ secondWorld.db.emails.map fun e =>
      (e.id, e.accountId, e.subject, e.receivedAt, e.isTrashed) := by
    rw [mixed_row]
    exact List.mem_singleton_self _
  obtain ⟨e, he, heq⟩ := List.mem_map.mp hmem
  simp only [Prod.mk.injEq] at heq
  have hrow := hbelongs.rows e he heq.2.1
  rw [heq.1, mixed_origin] at hrow
  simp only [Origin.all, Origin.mk.injEq] at hrow
  omega

def resumedState : State :=
  ⟨{ trashedState.world with outside := { imap := [firstSession] } }, trashedState.trace⟩

def resumedWorld : World := (syncOneAccount unlinkedBundle syncedAccount resumedState.world).2

theorem resumed_ok : (syncOneAccount unlinkedBundle syncedAccount resumedState.world).1 = .ok () := by
  rfl

theorem resumed_account : resumedState.world.db.account (.ending '1') = some syncedAccount := by
  rfl

theorem consistent_first {sessions : List ImapSession} (h : ∀ session ∈ sessions, session = firstSession) :
    Consistent 1 sessions := by
  intro session hsession answer hanswer
  rw [h session hsession] at hanswer
  cases hanswer
  rfl

theorem run_unmixed_example : resumedWorld.db.emails.map (·.isTrashed) = [true] ∧
    Unmixed (.ending '1') (resumedState.after resumedWorld) := by
  have hfirst : Unchanged (.ending '1') startState :=
    ⟨1, by decide, consistent_first (by simp [startState, startWorld]), Or.inr start_starts.emails⟩
  have hsecond : Unchanged (.ending '1') resumedState :=
    ⟨1, by decide, consistent_first (by simp [resumedState]), Or.inl rfl⟩
  have hpass : PassOver unlinkedBundle (.ending '1') resumedState (.ok ()) resumedWorld :=
    ⟨syncedAccount, Or.inl rfl, ⟨syncedAccount, resumed_account, rfl, rfl⟩, Prod.ext resumed_ok rfl⟩
  exact ⟨rfl, run_unmixed start_starts (trashed_run hfirst _) hsecond hpass⟩

end Example

end Fumiko.EmailCore.Imap.Identity
