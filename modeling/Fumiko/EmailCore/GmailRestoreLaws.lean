import Fumiko.EmailCore.GmailReplayLaws

namespace Fumiko.EmailCore.Gmail

open Fumiko.Common Fumiko.Foundation Fumiko.Foundation.Action Fumiko.Net Fumiko.OAuth
  Fumiko.Program Fumiko.Storage

def InInbox (account : Uuid) (id : String) (w : World) : Prop :=
  ∃ e ∈ w.db.emails, e.accountId = account ∧ e.providerMessageId = id ∧ e.isTrashed = false

section Rows

variable {account : Uuid} {id : String} {w w' : World}

theorem flag_eq_none_iff : flag account id w = none ↔
    ∀ e ∈ w.db.emails, ¬(e.accountId = account ∧ e.providerMessageId = id) := by
  simp [flag, Db.email]

theorem inInbox_of_flag (h : flag account id w = some false) : InInbox account id w := by
  obtain ⟨e, he, htrashed⟩ := Option.map_eq_some_iff.mp h
  obtain ⟨hmem, haccount, hid⟩ := Db.mem_of_email he
  exact ⟨e, hmem, haccount, hid, htrashed⟩

theorem not_inInbox_of_flag (h : flag account id w = none) : ¬InInbox account id w := by
  rintro ⟨e, he, haccount, hid, -⟩
  exact flag_eq_none_iff.mp h e he ⟨haccount, hid⟩

end Rows

section Summaries

variable {id : String} {order : List String} {ms : List GmailMoment} {w w' : World}
  {results : List (Except ProviderError MessageMetadata)}

/-- The service has a summary of the message when it is asked for these messages, one moment
for each request. -/
def Summarized (order : List String) (ms : List GmailMoment) (id : String) : Prop :=
  ∃ m, (id, m) ∈ order.zip ms ∧ ∃ summary, (m.message id).json (detailUrl id) = .ok summary

theorem fetchOneSummary_cases (key : String) (w : World) :
    (fetchOneSummary key w).2.outside.gmail = w.outside.gmail.tail ∧
      ((∃ m, (fetchOneSummary key w).1 = .ok m ∧ m.id = id) ↔
        key = id ∧ ∃ moment ∈ w.outside.gmail.head?,
          ∃ summary, (moment.message key).json (detailUrl key) = .ok summary) := by
  rw [fetchOneSummary, bind_run]
  cases hms : w.outside.gmail with
  | nil => simp [onGmail, focus, mapError, request, hms]
  | cons moment ms =>
    cases hjson : (moment.message key).json (detailUrl key) with
    | error e => simp [onGmail, focus, mapError, request, hms, hjson]
    | ok summary =>
      simp only [onGmail, focus, mapError, request, hms, hjson]
      cases Decimal.parseI64 summary.internalDate with
      | none => simp [bind_run, unixTimestamp, hjson]
      | some ms => simp [bind_run, hjson]

theorem summarized_cons {key : String} : Summarized (key :: order) ms id ↔
    (key = id ∧ ∃ moment ∈ ms.head?, ∃ summary, (moment.message key).json (detailUrl key) = .ok summary) ∨
      Summarized order ms.tail id := by
  cases ms with
  | nil => simp [Summarized]
  | cons moment ms =>
    by_cases hkey : key = id
    · subst hkey
      simp [Summarized, or_and_right, exists_or]
    · simp [Summarized, hkey, Ne.symm hkey]

theorem summarized_iff (h : (collect fetchOneSummary order : Program ProviderError _) w = (.ok results, w')) :
    (∃ m, .ok m ∈ results ∧ m.id = id) ↔ Summarized order w.outside.gmail id := by
  induction order generalizing w results with
  | nil =>
    cases h
    simp [Summarized]
  | cons key order ih =>
    obtain ⟨hgmail, hone⟩ := @fetchOneSummary_cases id key w
    obtain ⟨outcome, w₁, hfetch, h⟩ := attempt_bind h
    obtain ⟨rest, w₂, hrest, hpure⟩ := bind_eq_ok.mp h
    cases hpure
    rw [hfetch] at hgmail hone
    change w₁.outside.gmail = _ at hgmail
    rw [summarized_cons, ← hone, ← hgmail, ← ih hrest]
    simp [or_and_right, exists_or, eq_comm]

variable {account : Uuid} {token : String} {page : SyncPage} {saved : List NewEmail} {failed : Bool}

theorem hydrateAll_saved {total idx : Nat} (h : hydrateAll account total idx results w = (.ok (saved, failed), w')) :
    id ∈ saved.map NewEmail.providerMessageId ↔ ∃ m, .ok m ∈ results ∧ m.id = id := by
  induction results generalizing idx w saved failed with
  | nil =>
    cases h
    simp
  | cons result results ih =>
    obtain ⟨⟨savedOne, failedOne⟩, ⟨savedRest, failedRest⟩, w₁, hone, hrest, heq⟩ := hydrateAll_cons h
    cases heq
    have hsaved : id ∈ savedOne.map NewEmail.providerMessageId ↔ ∃ m, .ok m = result ∧ m.id = id := by
      cases result with
      | error e =>
        cases hone
        simp
      | ok m =>
        obtain ⟨row, -, heq⟩ := hydrateOne_saved hone
        cases heq
        simp [eq_comm]
    simp only [List.map_append, List.mem_append, hsaved, ih hrest, List.mem_cons, or_and_right, exists_or]

theorem hydrate_saved (h : hydrate provider account token page w = (.ok (saved, failed), w')) :
    id ∈ saved.map NewEmail.providerMessageId ↔
      Summarized (arrange (w.outside.completions.headD []) page.newMessageIds) w.outside.gmail id := by
  rw [hydrate] at h
  split at h
  · next hempty =>
    cases h
    have hnone : arrange (w.outside.completions.headD []) page.newMessageIds = [] := by
      rw [List.isEmpty_iff.mp hempty]
      exact List.perm_nil.mp (arrange_perm _ _)
    rw [hnone]
    simp [Summarized]
  · obtain ⟨results, w₁, hfetch, h⟩ := bind_eq_ok.mp (bind_log h)
    obtain ⟨order, w₂, horder, hcollect⟩ := bind_eq_ok.mp (mapError_eq_ok.mp hfetch)
    cases horder
    rw [hydrateAll_saved (bind_log h), summarized_iff hcollect]
    rfl

end Summaries

section Phases

variable {bundled : Bundled} {account : LinkedAccount} {cursor : String} {records : List ServerRecord}
  {page : SyncPage} {rest : List GmailMoment} {w w' : World}

/-- The service answers the history request with these records, at once or after a 401. -/
inductive Offers (cursor : String) (records : List ServerRecord) (page : SyncPage)
    (rest : List GmailMoment) : List GmailMoment → Prop
  | answered {ms} (hserved : Served cursor none ms (records.map ServerRecord.decode) rest)
    (hsync : incrementalSync cursor ms = (.ok page, rest)) : Offers cursor records page rest ms
  | refused {ms ms'} (hrefused : incrementalSync cursor ms = (.error .unauthorized, ms'))
    (hserved : Served cursor none ms' (records.map ServerRecord.decode) rest)
    (hsync : incrementalSync cursor ms' = (.ok page, rest)) : Offers cursor records page rest ms

theorem Offers.reports {ms : List GmailMoment} (h : Offers cursor records page rest ms) :
    Reports page (records.map ServerRecord.decode) := by
  have hpage {ms : List GmailMoment} (hserved : Served cursor none ms (records.map ServerRecord.decode) rest)
      (hsync : incrementalSync cursor ms = (.ok page, rest)) :
      Reports page (records.map ServerRecord.decode) := by
    obtain ⟨page', hsync', hreports⟩ := hserved.incrementalSync
    rw [hsync] at hsync'
    cases hsync'
    exact hreports
  cases h with
  | answered hserved hsync => exact hpage hserved hsync
  | refused _ hserved hsync => exact hpage hserved hsync

structure Untouched (w w' : World) : Prop where
  db : w'.db = w.db
  gmail : w'.outside.gmail = w.outside.gmail
  completions : w'.outside.completions = w.outside.completions

instance : Std.Refl Untouched := ⟨fun _ => ⟨rfl, rfl, rfl⟩⟩

instance : IsTrans World Untouched where
  trans _ _ _ h₁ h₂ := ⟨h₂.db.trans h₁.db, h₂.gmail.trans h₁.gmail, h₂.completions.trans h₁.completions⟩

theorem untouched_aside (account : Uuid) : Aside account Untouched where
  outside _ _ _ hgmail _ hcompletions := ⟨rfl, hgmail, hcompletions⟩
  cached _ _ _ := ⟨rfl, rfl, rfl⟩
  rotated _ _ := ⟨rfl, rfl, rfl⟩

theorem fetchSyncPage_incremental {r : Except ProviderError SyncPage} {ms : List GmailMoment}
    (hcursor : account.syncCursor = some cursor) (token : String)
    (hsync : incrementalSync cursor w.outside.gmail = (r, ms)) (hr : r ≠ .error .cursorExpired) :
    fetchSyncPage provider account token w =
      (r.map (·, false), { w with outside := { w.outside with gmail := ms } }) := by
  have hrequest : provider.incrementalSync token cursor w =
      (r, { w with outside := { w.outside with gmail := ms } }) := by
    simp only [provider, onGmail, focus, hsync]
  simp only [fetchSyncPage, hcursor, bind_run, attempt_run, hrequest]
  cases r with
  | ok page => rfl
  | error e =>
    cases e with
    | cursorExpired => exact absurd rfl hr
    | _ => rfl

theorem discover_offered {token : String} {found : SyncPage} {isInitialSync : Bool}
    (hcursor : account.syncCursor = some cursor)
    (hoffers : Offers cursor records page rest w.outside.gmail)
    (h : discover bundled provider account w = (.ok (token, found, isInitialSync), w')) :
    found = page ∧ w'.db = w.db ∧ w'.outside.gmail = rest ∧
      w'.outside.completions = w.outside.completions := by
  have htoken := moves_accessTokenFor (untouched_aside account.id) bundled
  obtain ⟨first, w₁, haccess, h⟩ := bind_eq_ok.mp h
  have hbefore := htoken.of_eq haccess
  obtain ⟨outcome, w₂, hfetch, h⟩ := attempt_bind h
  rw [← hbefore.gmail] at hoffers
  cases hoffers with
  | answered hserved hsync =>
    rw [fetchSyncPage_incremental hcursor first hsync (by simp)] at hfetch
    cases hfetch
    cases h
    exact ⟨rfl, hbefore.db, rfl, hbefore.completions⟩
  | @refused ms hrefused hserved hsync =>
    rw [fetchSyncPage_incremental hcursor first hrefused (by simp)] at hfetch
    cases hfetch
    obtain ⟨_, w₃, hinvalidate, h⟩ := bind_eq_ok.mp h
    cases hinvalidate
    obtain ⟨second, w₄, haccess, h⟩ := bind_eq_ok.mp h
    have hagain := htoken.of_eq haccess
    obtain ⟨⟨found, isInitial⟩, w₅, hfetch, hpage⟩ := bind_eq_ok.mp h
    have hgmail : w₄.outside.gmail = ms := hagain.gmail
    rw [← hgmail] at hsync
    rw [mapError_eq_ok, fetchSyncPage_incremental hcursor second hsync (by simp)] at hfetch
    cases hfetch
    cases hpage
    exact ⟨rfl, hagain.db.trans hbefore.db, rfl, hagain.completions.trans hbefore.completions⟩

end Phases

section Restoration

variable {bundled : Bundled} {account : LinkedAccount} {cursor : String} {records : List ServerRecord}
  {page : SyncPage} {rest : List GmailMoment} {w w' : World} {id : String} {labels : List String}

/-- The last event that has to do with the trash or spam takes the message out of there, and
leaves it with neither label.  The message is not deleted. -/
structure LastRestored (id : String) (labels : List String) (records : List ServerRecord) : Prop where
  last : ∃ before labelIds after, allChanges records = before ++ .labelsRemoved id labelIds :: after ∧
    inTrash labelIds ∧ ¬Restores id after ∧ ¬Trashes id after ∧ ¬ArrivesTrashed id after
  left : ¬inTrash (finalLabels id labels records)
  kept : .deleted id ∉ allChanges records

theorem LastRestored.restores (h : LastRestored id labels records) : Restores id (allChanges records) := by
  obtain ⟨before, labelIds, after, hchanges, hlabels, -⟩ := h.last
  exact ⟨labelIds, by simp [hchanges], hlabels⟩

theorem LastRestored.changeFlag (h : LastRestored id labels records)
    (hreports : Reports page (records.map ServerRecord.decode)) (s : Option Bool) :
    Gmail.changeFlag page id s = s.map fun _ => false := by
  have hdeleted : id ∉ page.deletedMessageIds := by
    rw [hreports.mem_deleted, mem_flatMap_deleted]
    exact h.kept
  have hrestored : id ∈ page.restoredMessageIds := by
    rw [hreports.mem_restored, mem_flatMap_restored]
    exact h.restores
  rw [Gmail.changeFlag, if_neg hdeleted, if_pos hrestored]

def unprunedPass (bundled : Bundled) (account : LinkedAccount) : Program SyncError Unit := do
  let provider := providerFor account
  let (accessToken, page, isInitialSync) ← discover bundled provider account
  log (.discovered account.id page isInitialSync)
  let (newlySaved, fetchErrorsOccurred) ← applyPage provider account.id accessToken page
  advanceCursor account.id page fetchErrorsOccurred
  classifyNewEmails provider accessToken isInitialSync newlySaved

theorem syncOneAccountInner_eq (bundled : Bundled) (account : LinkedAccount) :
    syncOneAccountInner bundled account = unprunedPass bundled account >>= fun _ => purge account.id := by
  simp only [syncOneAccountInner, unprunedPass, bind_assoc]

theorem unprunedPass_of_ok (h : syncOneAccountInner bundled account w = (.ok (), w')) :
    ∃ u, unprunedPass bundled account w = (.ok (), u) ∧ purge account.id u = (.ok (), w') := by
  rw [syncOneAccountInner_eq] at h
  obtain ⟨⟨⟩, u, hpass, hpurge⟩ := bind_eq_ok.mp h
  exact ⟨u, hpass, hpurge⟩

/-- The message is in the inbox until the capacity pruning that ends the pass takes its row. -/
def Pruned (bundled : Bundled) (account : LinkedAccount) (id : String) (w : World) : Prop :=
  ∃ u, unprunedPass bundled account w = (.ok (), u) ∧ InInbox account.id id u ∧
    ¬InInbox account.id id (purge account.id u).2

def Thins (w w' : World) : Prop := w'.db.emails ⊆ w.db.emails

instance : Std.Refl Thins := ⟨fun _ => List.Subset.refl _⟩

instance : IsTrans World Thins := ⟨fun _ _ _ h₁ h₂ => List.Subset.trans h₂ h₁⟩

theorem thins_of_keeps {rows : List EmailRow} (h : w.db.emails = rows) (h' : w'.db.emails = rows) :
    Thins w w' := by
  rw [Thins, h, h']
  exact List.Subset.refl _

theorem thins_purge (account : Uuid) : Moves Thins (purge account) := by
  have hR : Outward Thins := ⟨fun _ _ _ => thins_of_keeps rfl rfl, fun _ => thins_of_keeps rfl rfl⟩
  have hdelete (count : Db → Nat) (surplus : Db → EmailRow → Bool) :
      Moves Thins (statement fun db => .ok (count db, db.deleteEmails (surplus db))) := by
    apply moves_statement hR.afterDbCall
    intro w _ _ h
    cases h
    exact List.filter_subset_self _
  apply moves_purge hR
  intro maxInbox maxFindings
  apply moves_bind (moves_read _)
  intro ranking
  apply moves_bind (hdelete _ _)
  intro inbox
  exact moves_bind (hdelete _ _) fun _ => moves_pure _

theorem InInbox.of_thins (hthins : Thins w w') (h : InInbox account.id id w') : InInbox account.id id w := by
  obtain ⟨e, he, hrow⟩ := h
  exact ⟨e, hthins he, hrow⟩

def rows (w : World) : List EmailRow := w.db.emails

theorem rows_indifferent : Indifferent (Keeps rows) :=
  ⟨⟨fun _ _ _ => rfl, fun _ => rfl⟩, fun _ _ => rfl, fun _ _ => rfl⟩

theorem saveClassification_emails {fresh email criterion : Uuid} {now : Int} {confidence : Option Rat}
    {db db' : Db} {u : Unit}
    (h : Db.saveClassification fresh now email criterion confidence db = .ok (u, db')) :
    db'.emails = db.emails := by
  cases Db.saveClassification_classified h with
  | again => rfl
  | first => rfl

theorem rows_afterwards (token : String) (isInitialSync failed : Bool) (saved : List NewEmail) :
    Moves (Keeps rows) (advanceCursor account.id page failed >>= fun _ =>
      classifyNewEmails provider token isInitialSync saved) := by
  have hadvance : Moves (Keeps rows) (advanceCursor account.id page failed) := by
    rw [advanceCursor]
    split
    · exact moves_pure _
    · apply moves_mapError
      apply moves_bind rows_indifferent.unixTimestamp
      intro now
      apply moves_bind
      · apply moves_statement rows_indifferent.afterDbCall
        intro w _ _ h
        cases h
        rfl
      · intro _
        exact moves_log fun _ => rfl
  apply moves_bind hadvance
  intro _
  apply moves_classifyNewEmails rows_indifferent.toOutward (gmail_along rows_indifferent.toOutward) (fun _ _ _ _ => rfl)
    fun _ _ => rfl
  intro email _ criterion confidence
  apply moves_bind rows_indifferent.freshUuid
  intro fresh
  apply moves_bind rows_indifferent.unixTimestamp
  intro now
  apply moves_bind
  · apply moves_statement rows_indifferent.afterDbCall
    intro w _ _ h
    exact saveClassification_emails h
  · intro _
    exact moves_log fun _ => rfl

theorem unprunedPass_inInbox (hgmail : providerFor account = provider)
    (hcursor : account.syncCursor = some cursor)
    (hoffers : Offers cursor records page rest w.outside.gmail)
    (hrestored : LastRestored id labels records) (hpass : unprunedPass bundled account w = (.ok (), w')) :
    InInbox account.id id w' ↔ flag account.id id w ≠ none ∨
      Summarized (arrange (w.outside.completions.headD []) page.newMessageIds) rest id := by
  rw [unprunedPass, hgmail] at hpass
  obtain ⟨⟨token, found, isInitialSync⟩, w₁, hdiscover, hpass⟩ := bind_eq_ok.mp hpass
  obtain ⟨rfl, hdb, hrest, hcompletions⟩ := discover_offered hcursor hoffers hdiscover
  obtain ⟨⟨saved, failed⟩, w₂, happly, hpass⟩ := bind_eq_ok.mp (bind_log hpass)
  have hflag : flag account.id id w₂ = _ := applyPage_flag gmail_fetches happly
  obtain ⟨hydrated, w₃, hhydrate, happly⟩ := bind_eq_ok.mp happly
  obtain ⟨_, w₄, -, hpure⟩ := bind_eq_ok.mp happly
  cases hpure
  have hsaved : id ∈ saved.map NewEmail.providerMessageId ↔ _ := hydrate_saved hhydrate
  change _ ↔ Summarized (arrange (w₁.outside.completions.headD []) _) w₁.outside.gmail id at hsaved
  rw [hcompletions, hrest] at hsaved
  have hrows : w'.db.emails = w₂.db.emails := (rows_afterwards _ _ _ _).of_eq hpass
  have hafter : flag account.id id w' = flag account.id id w₂ := by rw [flag, Db.email, hrows]; rfl
  have hbefore : flag account.id id (w₁.record (.discovered account.id found isInitialSync)) =
      flag account.id id w := by rw [flag, World.record, hdb]; rfl
  rw [hrestored.changeFlag hoffers.reports, hbefore, ← hafter] at hflag
  rw [← hsaved]
  by_cases hid : id ∈ saved.map NewEmail.providerMessageId
  · rw [saveFlag, if_pos hid] at hflag
    exact iff_of_true (inInbox_of_flag hflag) (Or.inr hid)
  · rw [saveFlag, if_neg hid] at hflag
    cases hstored : flag account.id id w with
    | none =>
      rw [hstored] at hflag
      simp [not_inInbox_of_flag hflag, hid]
    | some trashed =>
      rw [hstored] at hflag
      exact iff_of_true (inInbox_of_flag hflag) (Or.inl (by simp))

end Restoration

section Example

def restoringAccount : LinkedAccount where
  id := trashAccount
  provider := .gmail
  emailAddress := "me@gmail.com"
  displayName := none
  syncCursor := some "7"
  lastSyncedAt := none
  lastSyncError := none
  createdAt := 0
  imapHost := none
  imapPort := none

def restoringWorld (emails : List EmailRow) : World where
  db := { Db.empty with linkedAccounts := [restoringAccount], emails }
  keyring _ := none
  tokenCache := [(trashAccount, "access", 100)]
  journal := []
  outside := { gmail := [historyMoment restoredOnly] }

def restoringBundle : Bundled := ⟨none, none, none⟩

theorem restoredOnly_offered : Offers "7" restoredOnly (restoredPage []) [] [historyMoment restoredOnly] :=
  .answered (historyMoment_served _) rfl

theorem restoredOnly_restores : LastRestored "m1" ["TRASH"] restoredOnly where
  last := ⟨[], ["TRASH"], [], rfl, rfl, by simp [Restores], by simp [Trashes], by simp [ArrivesTrashed]⟩
  left := by decide
  kept := by simp [allChanges, restoredOnly, ServerRecord.changes]

end Example

end Fumiko.EmailCore.Gmail
