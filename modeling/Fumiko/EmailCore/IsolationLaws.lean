import Fumiko.EmailCore.PassLaws
import Fumiko.Storage.OwnershipLaws

namespace Fumiko.EmailCore

open Fumiko.Common Fumiko.Foundation Fumiko.Foundation.Action Fumiko.Net Fumiko.OAuth
  Fumiko.Program Fumiko.Storage

def others (account : Uuid) : Uuid → Bool := fun id => decide (id ≠ account)

theorem others_self {account : Uuid} : others account account = false := by simp [others]

/-- What belongs to the other accounts is as it was in `w₀`. -/
structure Isolated (account : Uuid) (w₀ w : World) : Prop where
  keyed : w.db.Keyed
  rows : w.db.rowsOf (others account) = w₀.db.rowsOf (others account)
  keyring : ∀ key, key ≠ account.text → w.keyring key = w₀.keyring key
  tokenCache : ∀ other, other ≠ account →
    w.tokenCache.find? (·.1 = other) = w₀.tokenCache.find? (·.1 = other)

section Isolated

variable {ε α : Type} {account : Uuid} {w₀ w w' : World}

theorem isolated_refl (h : w₀.db.Keyed) : Isolated account w₀ w₀ :=
  ⟨h, rfl, fun _ _ => rfl, fun _ _ => rfl⟩

theorem find_filter_ne {other : Uuid} {l : List (Uuid × String × Int)} (h : other ≠ account) :
    (l.filter (·.1 ≠ account)).find? (·.1 = other) = l.find? (·.1 = other) := by
  rw [List.find?_filter]
  congr 1
  funext entry
  by_cases hentry : entry.1 = other
  · simp [hentry, h]
  · simp [hentry]

theorem isolated_outward : Outward (Preserves (Isolated account w₀)) where
  outside _ _ _ h := ⟨h.keyed, h.rows, h.keyring, h.tokenCache⟩
  session _ h := ⟨h.keyed, h.rows, h.keyring, h.tokenCache⟩

theorem isolated_aside : Aside account (Preserves (Isolated account w₀)) where
  outside _ _ _ _ _ _ h := ⟨h.keyed, h.rows, h.keyring, h.tokenCache⟩
  cached w token expiresAt h := by
    refine ⟨h.keyed, h.rows, h.keyring, ?_⟩
    intro other hother
    rw [List.find?_cons_of_neg (by simpa using hother.symm), find_filter_ne hother]
    exact h.tokenCache other hother
  rotated w secret h := by
    refine ⟨h.keyed, h.rows, ?_, h.tokenCache⟩
    intro key hkey
    exact (if_neg hkey).trans (h.keyring key hkey)

theorem isolated_invalidateToken : Moves (Preserves (Isolated account w₀)) (invalidateToken account) := by
  apply moves_update
  intro w h
  refine ⟨h.keyed, h.rows, h.keyring, ?_⟩
  intro other hother
  rw [find_filter_ne hother]
  exact h.tokenCache other hother

theorem isolated_admits (e : Event) : Admits (Preserves (Isolated account w₀)) e :=
  fun _ h => ⟨h.keyed, h.rows, h.keyring, h.tokenCache⟩

theorem isolated_log (e : Event) : Moves (Preserves (Isolated account w₀)) (log e : Program ε Unit) :=
  moves_log (isolated_admits e)

def Confined (account : Uuid) (rows : Db) (f : Db → Except StorageError (α × Db)) : Prop :=
  ∀ db a db', db.Keyed → db.rowsOf (others account) = rows → f db = .ok (a, db') →
    db'.Keyed ∧ db'.rowsOf (others account) = db.rowsOf (others account)

theorem isolated_statement {f : Db → Except StorageError (α × Db)}
    (hf : Confined account (w₀.db.rowsOf (others account)) f) :
    Moves (Preserves (Isolated account w₀)) (statement f) := by
  apply moves_statement isolated_outward.afterDbCall
  intro w a db hdb h
  obtain ⟨hkeyed, hrows⟩ := hf w.db a db h.keyed h.rows hdb
  exact ⟨hkeyed, hrows.trans h.rows, h.keyring, h.tokenCache⟩

theorem confined_of_step {f : Db → Db} {rows : Db} (hkeyed : ∀ db, db.Keyed → (f db).Keyed)
    (hrows : ∀ db, db.Keyed → (f db).rowsOf (others account) = db.rowsOf (others account)) :
    Confined account rows fun db => .ok ((), f db) := by
  intro db a db' hdb _ h
  cases h
  exact ⟨hkeyed db hdb, hrows db hdb⟩

theorem isolated_updateAccounts {f : LinkedAccount → LinkedAccount} (hf : ∀ a, (f a).id = a.id) :
    Moves (Preserves (Isolated account w₀)) (execute (Db.updateAccounts (·.id = account) f)) :=
  isolated_statement (confined_of_step (fun _ h => ⟨h.pk, h.fk⟩)
    fun _ _ => Db.rowsOf_updateAccounts others_self hf)

theorem isolated_updateEmails {r : EmailRow → Bool} {f : EmailRow → EmailRow}
    (hr : ∀ e, r e → e.accountId = account) (hid : ∀ e, (f e).id = e.id)
    (hf : ∀ e, (f e).accountId = e.accountId) :
    Moves (Preserves (Isolated account w₀)) (execute (Db.updateEmails r f)) :=
  isolated_statement (confined_of_step (fun _ h => h.updateEmails hid)
    fun _ _ => Db.rowsOf_updateEmails others_self hr hid hf)

theorem isolated_deleteEmails {count : Db → α} {r : Db → EmailRow → Bool}
    (hr : ∀ db e, r db e → e.accountId = account) :
    Moves (Preserves (Isolated account w₀)) (statement fun db => .ok (count db, db.deleteEmails (r db))) := by
  apply isolated_statement
  intro db a db' hdb _ h
  cases h
  exact ⟨hdb.deleteEmails _, Db.rowsOf_deleteEmails others_self hdb (hr db)⟩

def Own (account : Uuid) (w₀ : World) (email : Uuid) : Prop :=
  ∀ e ∈ (w₀.db.rowsOf (others account)).emails, e.id ≠ email

theorem Isolated.own {email : Uuid} (h : Isolated account w₀ w) (hown : Own account w₀ email) :
    ∀ e ∈ w.db.emails, e.accountId ≠ account → e.id ≠ email := by
  intro e he hother
  apply hown
  rw [← h.rows]
  exact List.mem_filter.mpr ⟨he, decide_eq_true hother⟩

theorem confined_saveClassification {id email criterion : Uuid} {now : Int} {confidence : Option Rat}
    (hown : Own account w₀ email) :
    Confined account (w₀.db.rowsOf (others account)) (Db.saveClassification id now email criterion confidence) := by
  intro db _ db' hdb hrows h
  refine ⟨hdb.saveClassification h, Db.rowsOf_saveClassification ?_ h⟩
  rw [← Bool.not_eq_true, Db.owns_iff]
  rintro ⟨e, he, hother, hid⟩
  refine hown e ?_ hid
  rw [← hrows]
  exact List.mem_filter.mpr ⟨he, hother⟩

theorem isolated_saveClassification {email : Uuid} (hown : Own account w₀ email) (criterion : Uuid)
    (confidence : Option Rat) :
    Moves (Preserves (Isolated account w₀)) (saveClassification email criterion confidence) :=
  moves_saveClassification isolated_outward (fun _ _ => isolated_statement (confined_saveClassification hown))
    (isolated_admits _)

theorem confined_saveEmail {rows : Db} {id : Uuid} {now receivedAt : Int} {key : String}
    {subject sender snippet : Option String} {isRead : Bool} :
    Confined account rows (Db.saveEmail id now account key subject sender receivedAt isRead snippet) :=
  fun _ _ _ hdb _ h => ⟨hdb.saveEmail h, Db.rowsOf_saveEmail others_self h⟩

theorem isolated_saveEmail (id : String) (subject sender : Option String) (receivedAt : Int)
    (isRead : Bool) (snippet : Option String) :
    Moves (Preserves (Isolated account w₀))
      (saveEmail account id subject sender receivedAt isRead snippet) := by
  apply moves_bind isolated_outward.freshUuid
  intro fresh
  apply moves_bind isolated_outward.unixTimestamp
  intro now
  apply moves_bind (moves_read _)
  intro isNew
  apply moves_bind (isolated_statement confined_saveEmail)
  intro row
  exact moves_bind (isolated_log _) fun _ => moves_pure _

theorem Isolated.own_saved {id row : Uuid} {now receivedAt : Int} {key : String}
    {subject sender snippet : Option String} {isRead : Bool} {db : Db} (h : Isolated account w₀ w)
    (hdb : w.db.saveEmail id now account key subject sender receivedAt isRead snippet = .ok (row, db)) :
    Own account w₀ row := by
  have hnot := Db.owns_saveEmail (p := others account) h.keyed others_self hdb
  intro e he hid
  rw [← h.rows] at he
  obtain ⟨he, hother⟩ := List.mem_filter.mp he
  rw [← Bool.not_eq_true, Db.owns_iff] at hnot
  exact hnot ⟨e, he, hother, hid⟩

theorem own_saveEmail {id : String} {subject sender snippet : Option String} {receivedAt : Int}
    {isRead : Bool} {row : Uuid} (h : Isolated account w₀ w)
    (hsave : saveEmail account id subject sender receivedAt isRead snippet w = (.ok row, w')) :
    Own account w₀ row := by
  obtain ⟨db, hdb, -⟩ := saveEmail_eq_ok hsave
  exact h.own_saved hdb

theorem own_hydrateAll {results : List (Except ProviderError MessageMetadata)} {total idx : Nat}
    {saved : List NewEmail} {failed : Bool} (h : Isolated account w₀ w)
    (hall : hydrateAll account total idx results w = (.ok (saved, failed), w')) :
    ∀ email ∈ saved, Own account w₀ email.emailId := by
  induction results generalizing w idx saved failed with
  | nil =>
    cases hall
    simp
  | cons result results ih =>
    obtain ⟨⟨first, missed⟩, ⟨rest, missedRest⟩, w₁, hone, hrest, heq⟩ := hydrateAll_cons hall
    cases heq
    cases result with
    | error e =>
      cases hone
      exact ih (isolated_admits _ w h) hrest
    | ok m =>
      obtain ⟨row, hsaved, heq⟩ := hydrateOne_saved hone
      cases heq
      have h₁ : Isolated account w₀ w₁ := (isolated_saveEmail _ _ _ _ _ _).of_eq hsaved h
      intro email hemail
      cases List.mem_cons.mp hemail with
      | inl hfirst =>
        cases hfirst
        exact own_saveEmail h hsaved
      | inr hemail => exact ih (isolated_admits _ w₁ h₁) hrest email hemail

end Isolated

section Pass

variable {account : LinkedAccount} {w₀ : World}

theorem isolated_along : (providerFor account).Along (Preserves (Isolated account.id w₀)) :=
  providerFor_along isolated_outward (moves_openInbox isolated_outward fun _ => isolated_admits _)
    (fun _ _ => isolated_admits _) account

theorem isolated_discover (bundled : Bundled) :
    Moves (Preserves (Isolated account.id w₀)) (discover bundled (providerFor account) account) := by
  apply (isolated_outward.discovering isolated_along ?_ ?_ ?_).discover
  · exact moves_bind (isolated_updateAccounts fun _ => rfl) fun _ => isolated_log _
  · exact moves_accessTokenFor isolated_aside bundled
  · exact isolated_invalidateToken

theorem isolated_applyRemoteChanges (page : SyncPage) :
    Moves (Preserves (Isolated account.id w₀)) (applyRemoteChanges account.id page) := by
  apply moves_applyRemoteChanges
  · intro id
    apply moves_bind isolated_outward.unixTimestamp
    intro now
    exact isolated_updateEmails (by simp +contextual) (fun _ => rfl) fun _ => rfl
  · intro id
    exact isolated_updateEmails (by simp +contextual) (fun _ => rfl) fun _ => rfl
  · intro id
    exact isolated_deleteEmails (by simp +contextual)

theorem isolated_advanceCursor (page : SyncPage) (fetchErrorsOccurred : Bool) :
    Moves (Preserves (Isolated account.id w₀)) (advanceCursor account.id page fetchErrorsOccurred) := by
  rw [advanceCursor]
  split
  · exact moves_pure _
  · apply moves_mapError
    apply moves_bind isolated_outward.unixTimestamp
    intro now
    exact moves_bind (isolated_updateAccounts fun _ => rfl) fun _ => isolated_log _

theorem isolated_purge : Moves (Preserves (Isolated account.id w₀)) (purge account.id) := by
  apply moves_purge isolated_outward
  intro maxInbox maxFindings
  apply moves_bind (moves_read _)
  intro ranking
  apply moves_bind
  · apply isolated_deleteEmails
    simp +contextual [Db.inboxSurplus]
  · intro inbox
    apply moves_bind ?_ fun _ => moves_pure _
    apply isolated_deleteEmails
    simp +contextual [Db.findingsSurplus]

theorem isolated_hydrate (accessToken : String) (page : SyncPage) :
    Moves (Preserves (Isolated account.id w₀)) (hydrate (providerFor account) account.id accessToken page) :=
  moves_hydrate isolated_along (fun _ _ _ => isolated_admits _) (fun _ => isolated_admits _)
    isolated_saveEmail _ _

theorem isolated_applyPage (accessToken : String) (page : SyncPage) :
    Moves (Preserves (Isolated account.id w₀)) (applyPage (providerFor account) account.id accessToken page) :=
  moves_bind (isolated_hydrate _ _) fun _ => moves_bind (isolated_applyRemoteChanges _) fun _ => moves_pure _

theorem own_applyPage {accessToken : String} {page : SyncPage} {saved : List NewEmail} {failed : Bool}
    {w w' : World} (h : Isolated account.id w₀ w)
    (happly : applyPage (providerFor account) account.id accessToken page w = (.ok (saved, failed), w')) :
    ∀ email ∈ saved, Own account.id w₀ email.emailId := by
  obtain ⟨hydrated, w₁, hhydrate, happly⟩ := bind_eq_ok.mp happly
  obtain ⟨_, w₂, _, hpure⟩ := bind_eq_ok.mp happly
  cases hpure
  rw [hydrate] at hhydrate
  split at hhydrate
  · cases hhydrate
    simp
  · obtain ⟨metadata, w₃, hmetadata, hall⟩ := bind_eq_ok.mp (bind_log hhydrate)
    have hfetched : Preserves (Isolated account.id w₀) _ w₃ :=
      (moves_mapError (isolated_along.fetchMessageMetadata _ _)).of_eq hmetadata
    exact own_hydrateAll (isolated_admits _ w₃ (hfetched (isolated_admits _ w h))) (bind_log hall)

theorem isolated_finish {saved : List NewEmail} (hown : ∀ email ∈ saved, Own account.id w₀ email.emailId)
    (accessToken : String) (isInitialSync : Bool) :
    Moves (Preserves (Isolated account.id w₀)) (finish account accessToken isInitialSync saved) := by
  apply moves_bind ?_ fun _ => isolated_purge
  apply moves_classifyNewEmails isolated_outward isolated_along (fun _ _ _ => isolated_admits _)
    fun _ => isolated_admits _
  intro email hemail
  exact isolated_saveClassification (hown email hemail)

theorem isolated_syncOneAccountInner (bundled : Bundled) :
    Moves (Preserves (Isolated account.id w₀)) (syncOneAccountInner bundled account) := by
  apply moves_bind (isolated_discover bundled)
  rintro ⟨accessToken, page, isInitialSync⟩
  apply moves_bind (isolated_log _)
  intro _
  apply moves_preserves_bind (isolated_applyPage _ _)
  rintro w ⟨saved, failed⟩ w' hw hw' happly
  have hrest : Moves (Preserves (Isolated account.id w₀)) (advanceCursor account.id page failed >>=
      fun _ => finish account accessToken isInitialSync saved) :=
    moves_bind (isolated_advanceCursor _ _) fun _ => isolated_finish (own_applyPage hw happly) _ _
  exact hrest.run w' hw'

theorem isolated_syncOneAccount (bundled : Bundled) :
    Moves (Preserves (Isolated account.id w₀)) (syncOneAccount bundled account) := by
  apply moves_bind (moves_attempt (isolated_syncOneAccountInner bundled))
  intro outcome
  cases outcome with
  | ok _ => exact moves_pure _
  | error e => exact moves_bind (moves_ignore (isolated_updateAccounts fun _ => rfl)) fun _ => moves_raise _

theorem syncOneAccount_isolates (bundled : Bundled) {w : World} (h : w.db.Keyed) :
    Isolated account.id w (syncOneAccount bundled account w).2 :=
  (isolated_syncOneAccount bundled).run w (isolated_refl h)

end Pass

theorem Isolated.rowsOf_eq {account other : Uuid} {w₀ w : World} (h : Isolated account w₀ w)
    (hne : other ≠ account) :
    w.db.rowsOf (fun id => decide (id = other)) = w₀.db.rowsOf fun id => decide (id = other) := by
  apply Db.rowsOf_eq_of_imp _ h.rows
  intro id hid
  simpa [others, of_decide_eq_true hid] using hne

end Fumiko.EmailCore
