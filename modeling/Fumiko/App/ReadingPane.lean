import Fumiko.EmailCore.PassLaws
import Fumiko.Storage.Listing

namespace Fumiko.App

open Fumiko.Common Fumiko.EmailCore Fumiko.Foundation Fumiko.Foundation.Action Fumiko.Net Fumiko.OAuth
  Fumiko.Program Fumiko.Storage

def markOnce (email : Uuid) (row : EmailRow) : Program String Unit :=
  if row.appHasViewed then pure () else Action.ignore (markEmailViewed email)

def fetchFor (bundled : Bundled) (account : LinkedAccount) (row : EmailRow) : Program String FullMessage := do
  let tokens ← Action.mapError TokenError.display (getAccessTokenForAccount bundled account)
  Action.mapError ProviderError.display
    ((providerFor account).fetchFullMessage tokens.accessToken row.providerMessageId)

/-- The resource `email_data`. -/
def emailData (bundled : Bundled) (email : Uuid) :
    Program String (LinkedAccount × EmailRow × FullMessage) := do
  match ← Action.mapError StorageError.display (getEmail email) with
  | none => Action.raise "Email not found"
  | some row =>
    match ← Action.mapError StorageError.display (getAccount row.accountId) with
    | none => Action.raise "Linked account not found"
    | some account => do
      markOnce email row
      let message ← fetchFor bundled account row
      pure (account, row, message)

def openAll (bundled : Bundled) : List (Outside × Uuid) → World → World
  | [], w => w
  | (outside, email) :: rest, w => openAll bundled rest (emailData bundled email { w with outside }).2

end Fumiko.App

namespace Fumiko.Storage.Db

open Fumiko.Common Fumiko.Foundation

def viewing (seen : List Uuid) (db : Db) : Db :=
  db.updateEmails (·.id ∈ seen) fun e => { e with appHasViewed := true }

section Viewing

variable {db : Db} {email : Uuid} {row : EmailRow} {seen later : List Uuid}

theorem WellFormed.viewing (h : db.WellFormed) (seen : List Uuid) : (db.viewing seen).WellFormed := by
  have hviewed (e : EmailRow) : Touched 0 e { e with appHasViewed := true } :=
    ⟨rfl, rfl, rfl, fun _ => rfl, Or.inl ⟨rfl, rfl⟩⟩
  exact h.updateEmails _ hviewed

theorem viewing_nil (db : Db) : db.viewing [] = db := by
  simp [viewing, updateEmails]

theorem viewing_viewing (seen later : List Uuid) (db : Db) :
    (db.viewing seen).viewing later = db.viewing (later ++ seen) := by
  simp only [viewing, updateEmails, List.map_map]
  congr 1
  apply List.map_congr_left
  intro e _
  by_cases hseen : e.id ∈ seen <;> by_cases hlater : e.id ∈ later <;> simp [hseen, hlater]

theorem exists_of_mem_viewing {e' : EmailRow} (h : e' ∈ (db.viewing seen).emails) :
    ∃ e ∈ db.emails, e.id = e'.id ∧ e.accountId = e'.accountId := by
  obtain ⟨e, he, rfl⟩ := List.mem_map.mp h
  exact ⟨e, he, by split <;> rfl, by split <;> rfl⟩

theorem countP_viewing (seen : List Uuid) (p : EmailRow → Bool) (db : Db) :
    (db.viewing seen).emails.countP p =
      db.emails.countP fun e => p (if e.id ∈ seen then { e with appHasViewed := true } else e) := by
  rw [viewing, updateEmails, List.countP_map]
  refine List.countP_congr fun e _ => ?_
  by_cases hid : e.id ∈ seen <;> simp [hid]

theorem WellFormed.mailboxStats_viewing (h : db.WellFormed) (seen : List Uuid) (account : Option Uuid) :
    (db.viewing seen).mailboxStats account = {
      unreadCount := db.emails.countP fun e => (isUnread e && inScope account e) && decide (e.id ∉ seen)
      findingsCount := db.countMatched fun m => (isUnread m && inScope account m) && decide (m.id ∉ seen)
      totalCount := (db.mailboxStats account).totalCount } := by
  have hunread (e : EmailRow) :
      (isUnread (if e.id ∈ seen then { e with appHasViewed := true } else e) &&
        inScope account (if e.id ∈ seen then { e with appHasViewed := true } else e)) =
          ((isUnread e && inScope account e) && decide (e.id ∉ seen)) := by
    by_cases hid : e.id ∈ seen <;> simp [hid, isUnread]
  have hid (e : EmailRow) : (if e.id ∈ seen then { e with appHasViewed := true } else e).id = e.id := by
    split <;> rfl
  have htotal (e : EmailRow) :
      (!(if e.id ∈ seen then { e with appHasViewed := true } else e).isTrashed &&
        inScope account (if e.id ∈ seen then { e with appHasViewed := true } else e)) =
          (!e.isTrashed && inScope account e) := by
    split <;> rfl
  simp only [mailboxStats, h.countMatched, (h.viewing seen).countMatched, countP_viewing, hunread, hid, htotal]
  rfl

theorem markEmailViewed_eq (h : row ∈ db.emails) :
    db.markEmailViewed row.id = .ok ((), db.viewing [row.id]) := by
  rw [markEmailViewed, updateEmailById, if_pos (List.any_eq_true.mpr ⟨row, h, by simp⟩)]
  simp [viewing, updateEmails]

theorem mem_of_emailById (h : db.emailById email = some row) : row ∈ db.emails ∧ row.id = email :=
  ⟨List.mem_of_find?_eq_some h, by simpa using List.find?_some h⟩

theorem viewing_eq (h : ∀ e ∈ db.emails, e.id ∈ seen → e.appHasViewed = true) : db.viewing seen = db := by
  have hkept : db.emails.map (fun e => if decide (e.id ∈ seen) then { e with appHasViewed := true } else e) =
      db.emails.map id := by
    apply List.map_congr_left
    intro e he
    split
    · next hid =>
      have hviewed := h e he (of_decide_eq_true hid)
      cases e
      simp_all
    · rfl
  rw [viewing, updateEmails, hkept, List.map_id]

theorem viewing_of_missing (h : db.emailById email = none) : db.viewing [email] = db := by
  refine viewing_eq fun e he hid => ?_
  have hother := List.find?_eq_none.mp h e he
  exact absurd (decide_eq_true (List.mem_singleton.mp hid)) hother

theorem WellFormed.viewing_of_viewed (h : db.WellFormed) (hrow : row ∈ db.emails)
    (hviewed : row.appHasViewed) : db.viewing [row.id] = db := by
  refine viewing_eq fun e he hid => ?_
  have hsame : e = row := List.inj_on_of_nodup_map h.emailsPk he hrow (List.mem_singleton.mp hid)
  rw [hsame]
  exact hviewed

end Viewing

end Fumiko.Storage.Db

namespace Fumiko.App

open Fumiko.Common Fumiko.EmailCore Fumiko.Foundation Fumiko.Foundation.Action Fumiko.Net Fumiko.OAuth
  Fumiko.Program Fumiko.Storage

section Laws

variable {account email : Uuid} {row : EmailRow} {linked : LinkedAccount} {w w' : World}

structure Spares (account : Uuid) (w w' : World) : Prop where
  db : w'.db = w.db
  keyring : ∀ key, key ≠ account.text → w'.keyring key = w.keyring key

instance : Std.Refl (Spares account) := ⟨fun _ => ⟨rfl, fun _ _ => rfl⟩⟩

instance : IsTrans World (Spares account) where
  trans _ _ _ h h' := ⟨h'.db.trans h.db, fun key hkey => (h'.keyring key hkey).trans (h.keyring key hkey)⟩

theorem spares_outward : Outward (Spares account) where
  outside _ _ _ := ⟨rfl, fun _ _ => rfl⟩
  session _ := ⟨rfl, fun _ _ => rfl⟩

theorem spares_aside : Aside account (Spares account) where
  outside _ _ _ _ _ _ := ⟨rfl, fun _ _ => rfl⟩
  cached _ _ _ := ⟨rfl, fun _ _ => rfl⟩
  rotated _ _ := ⟨rfl, fun _ hkey => if_neg hkey⟩

theorem spares_providerFor (linked : LinkedAccount) : (providerFor linked).Along (Spares account) :=
  providerFor_along spares_outward (moves_openInbox spares_outward fun _ _ => ⟨rfl, fun _ _ => rfl⟩)
    (fun _ _ _ => ⟨rfl, fun _ _ => rfl⟩) linked

/-- What one selection has done: the message counts as viewed, or the store is as it was. -/
structure Opened (email : Uuid) (w w' : World) : Prop where
  store : w'.db = w.db ∨ w'.db = w.db.viewing [email]
  viewed : w.DbAnswers → w'.db = w.db.viewing [email]
  keyring : ∀ key, (∀ e ∈ w.db.emails, e.id = email → key ≠ e.accountId.text) → w'.keyring key = w.keyring key

theorem opened_of_calm (h : World.Calm w w') (hviewed : w.DbAnswers → w.db.viewing [email] = w.db) :
    Opened email w w' where
  store := Or.inl h.db
  viewed hanswers := h.db.trans (hviewed hanswers).symm
  keyring _ _ := congrFun h.keyring _

theorem Opened.calm_left {u : World} (h : World.Calm w u) (hopened : Opened email u w') :
    Opened email w w' where
  store := h.db ▸ hopened.store
  viewed hanswers := h.db ▸ hopened.viewed (h.dbAnswers hanswers)
  keyring key hkey := by
    rw [hopened.keyring key (h.db ▸ hkey), h.keyring]

theorem Opened.spares_right {u : World} (hopened : Opened row.id w u) (hrow : row ∈ w.db.emails)
    (h : Spares row.accountId u w') : Opened row.id w w' where
  store := by
    rw [h.db]
    exact hopened.store
  viewed hanswers := h.db.trans (hopened.viewed hanswers)
  keyring key hkey := (h.keyring key (hkey row hrow rfl)).trans (hopened.keyring key hkey)

theorem opened_mark (hw : w.db.WellFormed) (hrow : row ∈ w.db.emails) :
    Opened row.id w (markOnce row.id row w).2 := by
  rw [markOnce]
  split
  · next hviewed => exact opened_of_calm (Std.Refl.refl w) fun _ => hw.viewing_of_viewed hrow hviewed
  · rw [ignore_run, markEmailViewed, statement_run]
    cases hfault : w.dbFault with
    | some text =>
      refine ⟨Or.inl rfl, fun hanswers => ?_, fun _ _ => rfl⟩
      rw [hanswers.dbFault] at hfault
      cases hfault
    | none =>
      simp only [Db.markEmailViewed_eq hrow]
      exact ⟨Or.inr rfl, fun _ => rfl, fun _ _ => rfl⟩

theorem not_answers_of_query {α : Type} {f : Db → α} {e : String}
    (h : Action.mapError StorageError.display (query f) w = (.error e, w')) : ¬w.DbAnswers := by
  intro hanswers
  obtain ⟨_, hquery, -⟩ := mapError_eq_error.mp h
  rw [query_run, hanswers.dbFault] at hquery
  cases hquery

theorem spares_fetchFor (bundled : Bundled) (linked : LinkedAccount) (row : EmailRow) :
    Moves (Spares linked.id) (fetchFor bundled linked row) :=
  moves_bind (moves_mapError (moves_getAccessTokenForAccount spares_aside bundled)) fun _ =>
    moves_mapError ((spares_providerFor linked).fetchFullMessage _ _)

theorem emailData_opened (bundled : Bundled) (email : Uuid) (hw : w.db.WellFormed) :
    Opened email w (emailData bundled email w).2 := by
  rcases hrun : emailData bundled email w with ⟨r, w'⟩
  rcases bind_cases hrun with ⟨e, hget, -⟩ | ⟨found, w₁, hget, hrun⟩
  · have hcalm := (moves_mapError (calm_query _)).of_eq hget
    exact opened_of_calm hcalm fun hanswers => absurd hanswers (not_answers_of_query hget)
  have hcalm := (moves_mapError (calm_query _)).of_eq hget
  have hfound := query_eq_ok (mapError_eq_ok.mp hget)
  cases found with
  | none =>
    cases hrun
    exact opened_of_calm hcalm fun _ => Db.viewing_of_missing hfound.symm
  | some row =>
    obtain ⟨hrow, rfl⟩ := Db.mem_of_emailById hfound.symm
    refine Opened.calm_left hcalm ?_
    rw [← hcalm.db] at hw hrow
    rcases bind_cases hrun with ⟨e, haccount, -⟩ | ⟨found, w₂, haccount, hrun⟩
    · have hcalm := (moves_mapError (calm_query _)).of_eq haccount
      exact opened_of_calm hcalm fun hanswers => absurd hanswers (not_answers_of_query haccount)
    have hcalm := (moves_mapError (calm_query _)).of_eq haccount
    have hfound := query_eq_ok (mapError_eq_ok.mp haccount)
    cases found with
    | none =>
      obtain ⟨a, ha, hid⟩ := hw.emailsFk row hrow
      exact absurd (List.find?_eq_none.mp hfound.symm a ha) (by simp [hid])
    | some linked =>
      have hlinked := Db.id_of_account hfound.symm
      refine Opened.calm_left hcalm ?_
      rw [← hcalm.db] at hw hrow
      have hmark := opened_mark hw hrow
      rcases bind_cases hrun with ⟨e, hmarked, -⟩ | ⟨_, w₃, hmarked, hrun⟩
      · rwa [hmarked] at hmark
      rw [hmarked] at hmark
      refine hmark.spares_right hrow ?_
      have hfetch := (moves_bind (spares_fetchFor bundled linked row) fun message =>
        moves_pure (linked, row, message)).of_eq hrun
      rwa [hlinked] at hfetch

theorem Opened.exists_seen (h : Opened email w w') :
    ∃ seen, seen ⊆ [email] ∧ w'.db = w.db.viewing seen ∧ (w.DbAnswers → email ∈ seen) := by
  by_cases hanswers : w.DbAnswers
  · exact ⟨[email], List.Subset.refl _, h.viewed hanswers, fun _ => List.mem_singleton_self _⟩
  · rcases h.store with hkept | hviewed
    · exact ⟨[], List.nil_subset _, hkept.trans (Db.viewing_nil _).symm, fun h => absurd h hanswers⟩
    · exact ⟨[email], List.Subset.refl _, hviewed, fun _ => List.mem_singleton_self _⟩

/-- However the fetches end, the selections mark rows as viewed, and nothing else in the store is
written; each is marked when the store answers.  No secret but those of the accounts of the selected
messages is replaced. -/
theorem openAll_spares (bundled : Bundled) (opens : List (Outside × Uuid)) (hw : w.db.WellFormed) :
    ∃ seen, seen ⊆ opens.map Prod.snd ∧ (openAll bundled opens w).db = w.db.viewing seen ∧
      (∀ opening ∈ opens, (∀ fault ∈ opening.1.dbFaults, fault = none) → opening.2 ∈ seen) ∧
      ∀ key, (∀ e ∈ w.db.emails, e.id ∈ opens.map Prod.snd → key ≠ e.accountId.text) →
        (openAll bundled opens w).keyring key = w.keyring key := by
  induction opens generalizing w with
  | nil => exact ⟨[], List.nil_subset _, (Db.viewing_nil _).symm, by simp, fun _ _ => rfl⟩
  | cons opening opens ih =>
    obtain ⟨outside, email⟩ := opening
    have hopened : Opened email { w with outside } (emailData bundled email { w with outside }).2 :=
      emailData_opened bundled email hw
    rw [openAll]
    generalize (emailData bundled email { w with outside }).2 = w₁ at hopened
    obtain ⟨first, hfirst, hdb, hmarked⟩ := hopened.exists_seen
    have hw₁ : w₁.db.WellFormed := hdb ▸ hw.viewing first
    obtain ⟨seen, hseen, hstore, hmarks, hkeyring⟩ := ih hw₁
    refine ⟨seen ++ first, ?_, ?_, ?_, ?_⟩
    · intro id hid
      rcases List.mem_append.mp hid with hid | hid
      · exact List.mem_cons_of_mem _ (hseen hid)
      · exact List.mem_singleton.mp (hfirst hid) ▸ List.mem_cons_self
    · rw [hstore, hdb]
      exact Db.viewing_viewing first seen w.db
    · intro opening hopening hanswers
      rcases List.mem_cons.mp hopening with rfl | hopening
      · exact List.mem_append_right _ (hmarked hanswers)
      · exact List.mem_append_left _ (hmarks opening hopening hanswers)
    · intro key hkey
      rw [hkeyring key ?_, hopened.keyring key ?_]
      · intro e he hid
        exact hkey e he (hid ▸ List.mem_cons_self)
      · intro e' he' hid
        rw [hdb] at he'
        obtain ⟨e, he, hsame, howner⟩ := Db.exists_of_mem_viewing he'
        exact howner ▸ hkey e he (hsame ▸ List.mem_cons_of_mem _ hid)

theorem openAll_spares_twice : ∃ seen,
    (openAll ⟨none, none, none⟩ [({ dbFaults := [some "disk I/O error"] }, .ending '2'), ({}, .ending '2')]
      (reached [linkingCall, savingCall] blankWorld)).db =
        (reached [linkingCall, savingCall] blankWorld).db.viewing seen ∧ Uuid.ending '2' ∈ seen := by
  obtain ⟨seen, -, hdb, hmarks, -⟩ := openAll_spares ⟨none, none, none⟩
    [({ dbFaults := [some "disk I/O error"] }, .ending '2'), ({}, .ending '2')]
    (reached_wellFormed [linkingCall, savingCall] blankWorld)
  exact ⟨seen, hdb, hmarks ({}, .ending '2') (by simp) (by simp)⟩

/-- When the store answers, the messages that have been selected are exactly what the unread counts go
down by, in any order, however often and whatever comes of the fetches. -/
theorem mailboxStats_openAll (bundled : Bundled) (opens : List (Outside × Uuid)) (hw : w.db.WellFormed)
    (hanswers : ∀ opening ∈ opens, ∀ fault ∈ opening.1.dbFaults, fault = none) (account : Option Uuid) :
    (openAll bundled opens w).db.mailboxStats account = {
      unreadCount := w.db.emails.countP fun e =>
        (isUnread e && inScope account e) && decide (e.id ∉ opens.map Prod.snd)
      findingsCount := w.db.countMatched fun m =>
        (isUnread m && inScope account m) && decide (m.id ∉ opens.map Prod.snd)
      totalCount := (w.db.mailboxStats account).totalCount } := by
  obtain ⟨seen, hseen, hdb, hmarks, -⟩ := openAll_spares bundled opens hw
  have hsame (id : Uuid) : id ∈ seen ↔ id ∈ opens.map Prod.snd := by
    constructor
    · exact fun hid => hseen hid
    · intro hid
      obtain ⟨opening, hopening, rfl⟩ := List.mem_map.mp hid
      exact hmarks opening hopening (hanswers opening hopening)
  rw [hdb, hw.mailboxStats_viewing]
  simp only [hsame]

theorem mailboxStats_openAll_offline :
    (openAll ⟨none, none, none⟩ [({}, .ending '2')]
      (reached [linkingCall, savingCall] blankWorld)).db.mailboxStats none = ⟨0, 0, 1⟩ :=
  mailboxStats_openAll ⟨none, none, none⟩ [({}, .ending '2')]
    (reached_wellFormed [linkingCall, savingCall] blankWorld) (by simp) none

end Laws

end Fumiko.App
