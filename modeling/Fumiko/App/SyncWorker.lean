import Fumiko.App.Preferences
import Fumiko.App.Watchers
import Fumiko.EmailCore.SyncAllLaws

namespace Fumiko.App

open Fumiko.Common Fumiko.EmailCore Fumiko.Foundation Fumiko.Foundation.Action Fumiko.Net Fumiko.OAuth
  Fumiko.Program Fumiko.Storage

def synchronize (bundled : Bundled) : SyncTarget → Program SyncError Unit
  | .one account => syncAccount bundled account
  | .all => syncAll bundled

/-- A request is served by a service of its own, whose token cache is empty.  The trash is purged
whatever comes of it. -/
def serve (bundled : Bundled) (target : SyncTarget) : Program StorageError Unit := do
  Action.update fun w => { w with tokenCache := [] }
  Action.ignore (synchronize bundled target)
  Action.ignore purgeAfterSync

def serveAll (bundled : Bundled) : List (SyncTarget × Outside) → World → World
  | [], w => w
  | (target, outside) :: rest, w => serveAll bundled rest (serve bundled target { w with outside }).2

def SyncTarget.Reaches (account : Uuid) (db : Db) (target : SyncTarget) : Prop :=
  (∃ a ∈ db.linkedAccounts, a.id = account) ∧ (target = .all ∨ target = .one account)

end Fumiko.App

namespace Fumiko.Storage.Db

open Fumiko.Common Fumiko.Foundation

def live (account : Uuid) (db : Db) : Db := (db.rowsOfOne account).deleteEmails (·.isTrashed)

section Live

variable {db : Db} {p : Uuid → Bool} {q r : EmailRow → Bool} {account : Uuid}

theorem Keyed.any_of_id (h : db.Keyed) {e : EmailRow} (he : e ∈ db.emails) (r : EmailRow → Bool) :
    (db.emails.any fun e' => r e' && decide (e'.id = e.id)) = r e := by
  rw [Bool.eq_iff_iff, List.any_eq_true]
  constructor
  · rintro ⟨e', he', hr⟩
    rw [Bool.and_eq_true, decide_eq_true_eq] at hr
    rw [← h.owner_unique he' he hr.2]
    exact hr.1
  · exact fun hr => ⟨e, he, by simp [hr]⟩

theorem Keyed.rowsOf_deleteEmails (h : db.Keyed) (p : Uuid → Bool) (r : EmailRow → Bool) :
    (db.deleteEmails r).rowsOf p = (db.rowsOf p).deleteEmails r := by
  simp only [Db.rowsOf, Db.deleteEmails, owns, List.filter_filter, List.any_filter, Db.mk.injEq, true_and, and_true]
  constructor
  · exact List.filter_congr fun e _ => Bool.and_comm _ _
  · refine List.filter_congr fun c hc => ?_
    obtain ⟨e, he, hid⟩ := h.fk c hc
    rw [← hid]
    simp only [← Bool.and_assoc]
    rw [h.any_of_id he fun e => !r e && p e.accountId, h.any_of_id he r,
      h.any_of_id he fun e => p e.accountId && r e, h.any_of_id he fun e => p e.accountId]
    cases r e <;> cases p e.accountId <;> rfl

theorem deleteEmails_deleteEmails (hqr : ∀ e, q e → r e) : (db.deleteEmails q).deleteEmails r = db.deleteEmails r := by
  have hemails (e : EmailRow) : (!r e && !q e) = !r e := by
    cases hq : q e with
    | false => simp
    | true => simp [hqr e hq]
  have hgone (c : Classification) :
      ((!db.emails.any fun e => !q e && (r e && decide (e.id = c.emailId))) &&
        !db.emails.any fun e => q e && decide (e.id = c.emailId)) =
          !db.emails.any fun e => r e && decide (e.id = c.emailId) := by
    rw [← Bool.not_or, Bool.eq_iff_iff, Bool.not_eq_true', Bool.not_eq_true', Bool.or_eq_false_iff,
      List.any_eq_false, List.any_eq_false, List.any_eq_false]
    constructor
    · rintro ⟨hrest, hgone⟩ e he
      cases hq : q e with
      | false => simpa [hq] using hrest e he
      | true => simpa [hq, hqr e hq] using hgone e he
    · intro hnone
      refine ⟨fun e he => ?_, fun e he => ?_⟩
      · have hr := hnone e he
        simp_all
      · have hr := hnone e he
        cases hq : q e with
        | false => simp
        | true => simpa [hqr e hq] using hr
  simp only [deleteEmails, List.filter_filter, List.any_filter, hemails, hgone]

end Live

end Fumiko.Storage.Db

namespace Fumiko.App

open Fumiko.Common Fumiko.EmailCore Fumiko.Foundation Fumiko.Foundation.Action Fumiko.Net Fumiko.OAuth
  Fumiko.Program Fumiko.Storage

section Apart

variable {bundled : Bundled} {account : Uuid} {target : SyncTarget} {w₀ w w' : World}

/-- What belongs to the account is as in `w₀`, but for its trash. -/
structure Apart (account : Uuid) (w₀ w : World) : Prop where
  keyed : w.db.Keyed
  live : w.db.live account = w₀.db.live account
  secret : w.keyring account.text = w₀.keyring account.text
  clientSecret : w.keyring KeyringKeys.userGoogleClientSecret = w₀.keyring KeyringKeys.userGoogleClientSecret

theorem apart_refl (h : w.db.Keyed) : Apart account w w := ⟨h, rfl, rfl, rfl⟩

theorem Apart.of_same (h : Apart account w₀ w) (hdb : w'.db = w.db) (hkeyring : w'.keyring = w.keyring) :
    Apart account w₀ w' where
  keyed := hdb ▸ h.keyed
  live := hdb ▸ h.live
  secret := hkeyring ▸ h.secret
  clientSecret := hkeyring ▸ h.clientSecret

theorem Apart.linked (h : Apart account w₀ w) :
    (∃ a ∈ w.db.linkedAccounts, a.id = account) ↔ ∃ a ∈ w₀.db.linkedAccounts, a.id = account := by
  have hrows : w.db.linkedAccounts.filter (Db.only account ·.id) =
      w₀.db.linkedAccounts.filter (Db.only account ·.id) := congrArg Db.linkedAccounts h.live
  have hlinked (db : Db) : (∃ a ∈ db.linkedAccounts, a.id = account) ↔
      db.linkedAccounts.filter (Db.only account ·.id) ≠ [] := by
    simp [Db.only]
  rw [hlinked, hlinked, hrows]

theorem Apart.dbCall (h : Apart account w₀ w) : Apart account w₀ w.afterDbCall := h.of_same rfl rfl

theorem apart_query {α : Type} (f : Db → α) : Moves (Preserves (Apart account w₀)) (query f) :=
  moves_query (fun _ h => h.dbCall) f

theorem Apart.deleteEmails {r : EmailRow → Bool} (h : Apart account w₀ w) (hr : ∀ e, r e → e.isTrashed) :
    Apart account w₀ (w.withDb (w.db.deleteEmails r)) where
  keyed := h.keyed.deleteEmails r
  live := by
    change (w.db.deleteEmails r).live account = _
    rw [← h.live, Db.live, Db.rowsOfOne, h.keyed.rowsOf_deleteEmails, Db.deleteEmails_deleteEmails hr]
    rfl
  secret := h.secret
  clientSecret := h.clientSecret

theorem apart_purgeExpiredTrash (retentionDays : Int) :
    Moves (Preserves (Apart account w₀)) (purgeExpiredTrash retentionDays) := by
  rw [purgeExpiredTrash]
  split
  · exact moves_raise _
  · apply moves_bind (moves_step fun w h => h.of_same rfl rfl)
    intro now
    refine moves_statement (fun w h => h.dbCall) ?_
    intro w count db hdb h
    cases hdb
    exact h.dbCall.deleteEmails fun e he => (Bool.and_eq_true_iff.mp he).1

theorem apart_settingOrNone {ε : Type} (key : String) :
    Moves (Preserves (Apart account w₀)) (settingOrNone key : Program ε (Option String)) := by
  apply moves_bind (moves_attempt (apart_query _))
  intro outcome
  cases outcome <;> exact moves_pure _

theorem Apart.syncOneAccount (h : Apart account w₀ w) {other : LinkedAccount} (hother : other.id ≠ account)
    (outside : Outside) : Apart account w₀ (syncOneAccount bundled other { w with outside }).2 := by
  have hisolated := @syncOneAccount_isolates other bundled { w with outside } h.keyed
  constructor
  · exact hisolated.keyed
  · have hrows : (EmailCore.syncOneAccount bundled other { w with outside }).2.db.rowsOfOne account =
        w.db.rowsOfOne account := hisolated.rowsOf_eq hother.symm
    rw [← h.live, Db.live, Db.live, hrows]
  · exact (hisolated.keyring _ (Uuid.text_ne hother.symm)).trans h.secret
  · exact (hisolated.keyring _ (clientSecret_ne _)).trans h.clientSecret

theorem Apart.syncInTurn (h : Apart account w₀ w) {turns : List (LinkedAccount × Outside)}
    (hothers : ∀ turn ∈ turns, turn.1.id ≠ account) : Apart account w₀ (syncInTurn bundled turns w) := by
  induction turns generalizing w with
  | nil => exact h
  | cons turn turns ih =>
    obtain ⟨hfirst, hrest⟩ := List.forall_mem_cons.mp hothers
    exact ih (h.syncOneAccount hfirst turn.2) hrest

theorem apart_purgeTrash : Moves (Preserves (Apart account w₀)) purgeTrash :=
  moves_bind (apart_settingOrNone _) fun _ => moves_ignore (apart_purgeExpiredTrash _)

theorem apart_purgeAfterSync : Moves (Preserves (Apart account w₀)) purgeAfterSync :=
  moves_bind (moves_bind (apart_settingOrNone _) fun _ => moves_pure _) fun _ => apart_purgeExpiredTrash _

theorem Apart.syncAccount (h : Apart account w₀ w) {other : Uuid}
    (hnot : ¬(SyncTarget.one other).Reaches account w.db) :
    Apart account w₀ (syncAccount bundled other w).2 := by
  rcases hrun : EmailCore.syncAccount bundled other w with ⟨r, w'⟩
  have hcalm (found : Except SyncError (Option LinkedAccount)) {w₁ : World}
      (hget : mapError SyncError.database (getAccount other) w = (found, w₁)) : Apart account w₀ w₁ :=
    (moves_mapError (apart_query _)).of_eq hget h
  rcases bind_cases hrun with ⟨e, hget, -⟩ | ⟨found, w₁, hget, hrun⟩
  · exact hcalm _ hget
  · have hw₁ := hcalm _ hget
    have hfound := query_eq_ok (mapError_eq_ok.mp hget)
    cases found with
    | none =>
      cases hrun
      exact hw₁
    | some linked =>
      have hlinked := Db.id_of_account hfound.symm
      have hne : linked.id ≠ account := by
        intro hsame
        exact hnot ⟨⟨linked, List.mem_of_find?_eq_some hfound.symm, hsame⟩,
          Or.inr (by rw [← hlinked, hsame])⟩
      change EmailCore.syncOneAccount bundled linked w₁ = (r, w') at hrun
      have hpass : Apart account w₀ (EmailCore.syncOneAccount bundled linked w₁).2 :=
        hw₁.syncOneAccount hne w₁.outside
      rwa [hrun] at hpass

theorem Apart.syncAll (h : Apart account w₀ w) (hgone : ∀ a ∈ w.db.linkedAccounts, a.id ≠ account) :
    Apart account w₀ (syncAll bundled w).2 := by
  rcases hlist : listAccounts w with ⟨e | accounts, w₁⟩
  · have hw₁ := (apart_query Db.listAccounts).of_eq hlist h
    have herror : mapError SyncError.database listAccounts w = (.error (.database e), w₁) :=
      mapError_eq_error.mpr ⟨e, hlist, rfl⟩
    rw [EmailCore.syncAll, bind_run, herror]
    exact hw₁
  · have hw₁ := (apart_query Db.listAccounts).of_eq hlist h
    obtain ⟨turns, haccounts, hturns⟩ := syncAll_inTurn bundled hlist
    have hlisted := query_eq_ok hlist
    rw [hturns]
    refine apart_purgeTrash.run _ (hw₁.syncInTurn fun turn hturn => ?_)
    have hmem : turn.1 ∈ accounts := haccounts ▸ List.mem_map_of_mem hturn
    rw [hlisted, Db.listAccounts, List.mem_insertionSort] at hmem
    exact hgone _ hmem

theorem Apart.serve (h : Apart account w₀ w) (hnot : ¬target.Reaches account w.db) :
    Apart account w₀ (serve bundled target w).2 := by
  have hfresh : Apart account w₀ { w with tokenCache := [] } := h.of_same rfl rfl
  have hsync : Apart account w₀ (synchronize bundled target { w with tokenCache := [] }).2 := by
    cases target with
    | one other => exact hfresh.syncAccount hnot
    | all => exact hfresh.syncAll fun a ha hsame => hnot ⟨⟨a, ha, hsame⟩, Or.inl rfl⟩
  exact apart_purgeAfterSync.run _ hsync

/-- Whatever the requests are for and however they end, what is not theirs stays: the live messages of
the account with their findings, and its secret.  Once an account is gone, no request is for it, and it
does not come back. -/
theorem serveAll_spares (bundled : Bundled) (turns : List (SyncTarget × Outside)) (h : w.db.Keyed)
    (hnot : ∀ turn ∈ turns, ¬turn.1.Reaches account w.db) :
    (serveAll bundled turns w).db.live account = w.db.live account ∧
      (serveAll bundled turns w).keyring account.text = w.keyring account.text ∧
      ((∀ a ∈ w.db.linkedAccounts, a.id ≠ account) →
        ∀ a ∈ (serveAll bundled turns w).db.linkedAccounts, a.id ≠ account) := by
  suffices hapart : ∀ u, Apart account w u → Apart account w (serveAll bundled turns u) by
    have hend := hapart w (apart_refl h)
    refine ⟨hend.live, hend.secret, fun hgone a ha hsame => ?_⟩
    obtain ⟨b, hb, hid⟩ := hend.linked.mp ⟨a, ha, hsame⟩
    exact hgone b hb hid
  induction turns with
  | nil => exact fun u hu => hu
  | cons turn turns ih =>
    intro u hu
    obtain ⟨hfirst, hrest⟩ := List.forall_mem_cons.mp hnot
    refine ih hrest _ (Apart.serve (w := { u with outside := turn.2 }) (hu.of_same rfl rfl) ?_)
    rintro ⟨hlinked, htarget⟩
    exact hfirst ⟨hu.linked.mp hlinked, htarget⟩

def neighbours : World :=
  reached [linkingCall, savingCall, ({ uuids := [.ending '9'] }, .addAccount .gmail "you@gmail.com" none)]
    blankWorld

theorem serveAll_spares_neighbour :
    neighbours.db.linkedAccounts.map LinkedAccount.id = [.ending '1', .ending '9'] ∧
      (serveAll ⟨none, none, none⟩ [(.one (.ending '9'), {})] neighbours).db.live (.ending '1') =
        neighbours.db.live (.ending '1') := by
  have hkeyed : neighbours.db.Keyed := (reached_wellFormed _ blankWorld).keyed
  refine ⟨by decide, (serveAll_spares ⟨none, none, none⟩ [(.one (.ending '9'), {})] hkeyed ?_).1⟩
  simp only [SyncTarget.Reaches, List.forall_mem_singleton, reduceCtorEq, false_or, not_and]
  exact fun _ => by decide

end Apart

end Fumiko.App
