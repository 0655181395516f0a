import Fumiko.Storage.OwnershipLaws

namespace Fumiko.Storage

open Fumiko.Common Fumiko.Foundation

def LinkedAccount.timeless (a : LinkedAccount) : LinkedAccount :=
  { a with lastSyncedAt := a.lastSyncedAt.map fun _ => 0 }

def EmailRow.renamed (ρ : Uuid → Uuid) (e : EmailRow) : EmailRow :=
  { e with id := ρ e.id, trashedAt := e.trashedAt.map fun _ => 0, createdAt := 0 }

def Classification.renamed (ρ : Uuid → Uuid) (c : Classification) : Classification :=
  { c with id := ρ c.id, emailId := ρ c.emailId, createdAt := 0 }

namespace Db

def renamed (ρ : Uuid → Uuid) (db : Db) : Db :=
  { db with
    linkedAccounts := db.linkedAccounts.map LinkedAccount.timeless
    emails := db.emails.map (EmailRow.renamed ρ)
    classifications := db.classifications.map (Classification.renamed ρ) }

def only (account : Uuid) : Uuid → Bool := fun id => decide (id = account)

abbrev rowsOfOne (account : Uuid) (db : Db) : Db := db.rowsOf (only account)

variable {db : Db} {account email : Uuid} {ρ : Uuid → Uuid}

section Accounts

theorem rowsOfOne_updateAccounts {f : LinkedAccount → LinkedAccount} (hf : ∀ a, (f a).id = a.id) :
    (db.updateAccounts (·.id = account) f).rowsOfOne account =
      (db.rowsOfOne account).updateAccounts (·.id = account) f := by
  have hid (a : LinkedAccount) : (if decide (a.id = account) then f a else a).id = a.id := by
    split <;> simp [hf]
  have hkept : (db.updateAccounts (·.id = account) f).linkedAccounts.filter (only account ·.id) =
      (db.linkedAccounts.filter (only account ·.id)).map fun a => if decide (a.id = account) then f a else a := by
    rw [updateAccounts, List.filter_map]
    simp only [Function.comp_def, hid]
  simp only [rowsOfOne, rowsOf, hkept]
  rfl

theorem renamed_updateAccounts {f g : LinkedAccount → LinkedAccount}
    (hfg : ∀ a : LinkedAccount, g a.timeless = (f a).timeless) :
    (db.updateAccounts (·.id = account) f).renamed ρ = (db.renamed ρ).updateAccounts (·.id = account) g := by
  have hmap : (db.updateAccounts (·.id = account) f).linkedAccounts.map LinkedAccount.timeless =
      (db.renamed ρ).linkedAccounts.map fun a => if decide (a.id = account) then g a else a := by
    simp only [updateAccounts, renamed, List.map_map]
    apply List.map_congr_left
    intro a _
    have hid : a.timeless.id = a.id := rfl
    by_cases ha : a.id = account
    · simp only [Function.comp_apply, hid, ha, decide_true, if_true, hfg]
    · simp only [Function.comp_apply, hid, ha, decide_false, Bool.false_eq_true, if_false]
  simp only [renamed, updateAccounts] at hmap ⊢
  rw [hmap]

end Accounts

section Emails

variable {r s : EmailRow → Bool} {f g : EmailRow → EmailRow}

theorem rowsOfOne_updateEmails (hid : ∀ e, (f e).id = e.id) (hf : ∀ e, (f e).accountId = e.accountId) :
    (db.updateEmails r f).rowsOfOne account = (db.rowsOfOne account).updateEmails r f := by
  have haccount (e : EmailRow) : (if r e then f e else e).accountId = e.accountId := by
    split <;> simp [hf]
  have hsame (e : EmailRow) : (if r e then f e else e).id = e.id := by
    split <;> simp [hid]
  have hkept : (db.updateEmails r f).emails.filter (only account ·.accountId) =
      (db.emails.filter (only account ·.accountId)).map fun e => if r e then f e else e := by
    rw [updateEmails, List.filter_map]
    simp only [Function.comp_def, haccount]
  have howns : (db.updateEmails r f).owns (only account) = db.owns (only account) := by
    funext email
    simp only [owns, updateEmails, List.any_map, Function.comp_def, haccount, hsame]
  simp only [rowsOfOne, rowsOf, hkept, howns]
  rfl

theorem renamed_updateEmails (hrs : ∀ e : EmailRow, s (e.renamed ρ) = r e)
    (hfg : ∀ e : EmailRow, g (e.renamed ρ) = (f e).renamed ρ) :
    (db.updateEmails r f).renamed ρ = (db.renamed ρ).updateEmails s g := by
  have hmap : (db.updateEmails r f).emails.map (EmailRow.renamed ρ) =
      (db.renamed ρ).emails.map fun e => if s e then g e else e := by
    simp only [updateEmails, renamed, List.map_map]
    apply List.map_congr_left
    intro e _
    by_cases he : r e <;> simp [he, hrs, hfg]
  simp only [renamed, updateEmails] at hmap ⊢
  rw [hmap]

theorem rowsOfOne_deleteEmails (hr : ∀ e, r e → e.accountId = account) :
    (db.deleteEmails r).rowsOfOne account = (db.rowsOfOne account).deleteEmails r := by
  have hgone (email : Uuid) : (db.emails.any fun e => r e && decide (e.id = email)) =
      (db.emails.filter (only account ·.accountId)).any fun e => r e && decide (e.id = email) := by
    rw [List.any_filter]
    congr 1
    funext e
    cases hre : r e with
    | true => simp [only, hr e hre]
    | false => simp
  have howns {c : Classification}
      (hc : (db.emails.any fun e => r e && decide (e.id = c.emailId)) = false) :
      (db.deleteEmails r).owns (only account) c.emailId = db.owns (only account) c.emailId := by
    rw [Bool.eq_iff_iff, owns_iff, owns_iff]
    constructor
    · rintro ⟨e, he, hpe, hid⟩
      exact ⟨e, (List.mem_filter.mp he).1, hpe, hid⟩
    · rintro ⟨e, he, hpe, hid⟩
      refine ⟨e, List.mem_filter.mpr ⟨he, ?_⟩, hpe, hid⟩
      simpa [hid] using List.any_eq_false.mp hc e he
  rw [rowsOfOne, rowsOf, rowsOfOne, rowsOf, deleteEmails, deleteEmails, Db.mk.injEq]
  refine ⟨rfl, rfl, ?_, ?_, rfl⟩
  · rw [List.filter_filter, List.filter_filter]
    exact List.filter_congr fun e _ => Bool.and_comm _ _
  · rw [List.filter_filter, List.filter_filter]
    apply List.filter_congr
    intro c _
    rw [← hgone]
    cases hc : db.emails.any fun e => r e && decide (e.id = c.emailId) with
    | true => simp
    | false => simpa [deleteEmails] using howns hc

theorem renamed_deleteEmails (hρ : Function.Injective ρ) (hrs : ∀ e ∈ db.emails, s (e.renamed ρ) = r e) :
    (db.deleteEmails r).renamed ρ = (db.renamed ρ).deleteEmails s := by
  have hgone (email : Uuid) :
      ((db.emails.map (EmailRow.renamed ρ)).any fun e => s e && decide (e.id = ρ email)) =
        db.emails.any fun e => r e && decide (e.id = email) := by
    rw [Bool.eq_iff_iff]
    simp only [List.any_eq_true, List.mem_map, Bool.and_eq_true, decide_eq_true_eq]
    constructor
    · rintro ⟨_, ⟨e, he, rfl⟩, hse, hid⟩
      exact ⟨e, he, (hrs e he).symm.trans hse, hρ hid⟩
    · rintro ⟨e, he, hre, hid⟩
      exact ⟨_, ⟨e, he, rfl⟩, (hrs e he).trans hre, congrArg ρ hid⟩
  rw [renamed, renamed, deleteEmails, deleteEmails, Db.mk.injEq]
  refine ⟨rfl, rfl, ?_, ?_, rfl⟩
  · rw [List.filter_map]
    congr 1
    apply List.filter_congr
    intro e he
    simp [hrs e he]
  · rw [List.filter_map]
    congr 1
    apply List.filter_congr
    intro c _
    rw [Function.comp_apply, Classification.renamed, hgone]

end Emails

def seen (account : Uuid) (ρ : Uuid → Uuid) (db : Db) : Db := (db.rowsOfOne account).renamed ρ

section Statements

variable {cursor error key : String} {now : Int}

theorem seen_updateAccounts {f g : LinkedAccount → LinkedAccount} (hf : ∀ a, (f a).id = a.id)
    (hfg : ∀ a : LinkedAccount, g a.timeless = (f a).timeless) :
    (db.updateAccounts (·.id = account) f).seen account ρ =
      (db.seen account ρ).updateAccounts (·.id = account) g := by
  rw [seen, rowsOfOne_updateAccounts hf]
  exact renamed_updateAccounts hfg

theorem seen_updateEmails {r s : EmailRow → Bool} {f g : EmailRow → EmailRow} (hid : ∀ e, (f e).id = e.id)
    (hf : ∀ e, (f e).accountId = e.accountId) (hrs : ∀ e : EmailRow, s (e.renamed ρ) = r e)
    (hfg : ∀ e : EmailRow, g (e.renamed ρ) = (f e).renamed ρ) :
    (db.updateEmails r f).seen account ρ = (db.seen account ρ).updateEmails s g := by
  rw [seen, rowsOfOne_updateEmails hid hf]
  exact renamed_updateEmails hrs hfg

theorem seen_setSyncError : (db.setSyncError account error).seen account ρ =
    (db.seen account ρ).setSyncError account error :=
  seen_updateAccounts (fun _ => rfl) fun _ => rfl

theorem seen_clearSyncCursor : (db.clearSyncCursor account).seen account ρ =
    (db.seen account ρ).clearSyncCursor account :=
  seen_updateAccounts (fun _ => rfl) fun _ => rfl

theorem seen_updateSyncCursor : (db.updateSyncCursor now account cursor).seen account ρ =
    (db.seen account ρ).updateSyncCursor 0 account cursor :=
  seen_updateAccounts (fun _ => rfl) fun _ => rfl

theorem seen_markTrashed : (db.markTrashed now account key).seen account ρ =
    (db.seen account ρ).markTrashed 0 account key :=
  seen_updateEmails (fun _ => rfl) (fun _ => rfl) (fun _ => rfl) fun _ => rfl

theorem seen_markUntrashed : (db.markUntrashed account key).seen account ρ =
    (db.seen account ρ).markUntrashed account key :=
  seen_updateEmails (fun _ => rfl) (fun _ => rfl) (fun _ => rfl) fun _ => rfl

theorem seen_deleteEmails (hρ : Function.Injective ρ) {r s : EmailRow → Bool}
    (hr : ∀ e, r e → e.accountId = account)
    (hrs : ∀ e ∈ db.emails, e.accountId = account → s (e.renamed ρ) = r e) :
    (db.deleteEmails r).seen account ρ = (db.seen account ρ).deleteEmails s := by
  rw [seen, rowsOfOne_deleteEmails hr]
  apply renamed_deleteEmails hρ
  intro e he
  obtain ⟨he, howner⟩ := List.mem_filter.mp he
  exact hrs e he (of_decide_eq_true howner)

theorem seen_deleteByProviderMessageId (hρ : Function.Injective ρ) :
    (db.deleteByProviderMessageId account key).seen account ρ =
      (db.seen account ρ).deleteByProviderMessageId account key :=
  seen_deleteEmails hρ (by simp +contextual) fun _ _ _ => rfl

end Statements

theorem any_map_filter {α β : Type} {l : List α} {p q : α → Bool} {f : α → β} {r : β → Bool}
    (hp : ∀ a ∈ l, q a → p a) (hr : ∀ a, r (f a) = q a) : ((l.filter p).map f).any r = l.any q := by
  rw [List.any_map, List.any_filter]
  rw [Bool.eq_iff_iff]
  simp only [List.any_eq_true, Bool.and_eq_true, Function.comp_apply, hr]
  constructor
  · rintro ⟨a, ha, _, hq⟩
    exact ⟨a, ha, hq⟩
  · rintro ⟨a, ha, hq⟩
    exact ⟨a, ha, hp a ha hq, hq⟩

section Save

variable {id criterion : Uuid} {now receivedAt : Int} {confidence : Option Rat}
  {subject sender snippet : Option String} {isRead : Bool} {key : String}

theorem email_rowsOfOne : (db.rowsOfOne account).email account key = db.email account key := by
  simp only [email, rowsOfOne, rowsOf, List.find?_filter]
  congr 1
  funext e
  by_cases he : e.accountId = account <;> simp [only, he]

theorem email_renamed : (db.renamed ρ).email account key =
    (db.email account key).map (EmailRow.renamed ρ) := by
  rw [email, email, renamed, List.find?_map]
  rfl

theorem email_seen : (db.seen account ρ).email account key =
    (db.email account key).map (EmailRow.renamed ρ) := by
  rw [seen, email_renamed, email_rowsOfOne]

theorem seen_refreshEmail :
    (db.updateEmails (fun e => e.accountId = account ∧ e.providerMessageId = key)
      (refreshEmail subject sender isRead snippet)).seen account ρ =
      (db.seen account ρ).updateEmails (fun e => e.accountId = account ∧ e.providerMessageId = key)
        (refreshEmail subject sender isRead snippet) :=
  seen_updateEmails (fun _ => rfl) (fun _ => rfl) (fun _ => rfl) fun _ => rfl

theorem seen_insertEmail (hkeyed : db.Keyed) {row : EmailRow} (hrow : row.accountId = account)
    (hnew : ∀ e ∈ db.emails, e.id ≠ row.id) :
    ({ db with emails := db.emails ++ [row] } : Db).seen account ρ =
      { db.seen account ρ with emails := (db.seen account ρ).emails ++ [row.renamed ρ] } := by
  have howns : db.classifications.filter
        (({ db with emails := db.emails ++ [row] } : Db).owns (only account) ·.emailId) =
      db.classifications.filter (db.owns (only account) ·.emailId) := by
    apply List.filter_congr
    intro c hc
    obtain ⟨e, he, hid⟩ := hkeyed.fk c hc
    have hne : row.id ≠ c.emailId := fun heq => hnew e he (hid.trans heq.symm)
    simp [owns, hne]
  have hone : only account row.accountId = true := by simp [only, hrow]
  simp only [seen, rowsOfOne, rowsOf, howns, renamed, List.filter_append, List.filter_cons, hone, if_true,
    List.filter_nil, List.map_append, List.map_cons, List.map_nil]

theorem seen_saveEmail (hρ : Function.Injective ρ) (hkeyed : db.Keyed)
    (hfresh : ∀ e ∈ db.emails, e.accountId ≠ account → e.id ≠ id) :
    (db.seen account ρ).saveEmail (ρ id) 0 account key subject sender receivedAt isRead snippet =
      (db.saveEmail id now account key subject sender receivedAt isRead snippet).map
        (Prod.map ρ (seen account ρ)) := by
  have htaken : (db.seen account ρ).emails.any (·.id = ρ id) = db.emails.any (·.id = id) := by
    apply any_map_filter
    · intro e he hid
      by_contra hne
      exact hfresh e he (by simpa [only] using hne) (of_decide_eq_true hid)
    · intro e
      exact decide_eq_decide.mpr hρ.eq_iff
  have hlinked : (db.seen account ρ).linkedAccounts.any (·.id = account) =
      db.linkedAccounts.any (·.id = account) :=
    any_map_filter (fun _ _ h => h) fun _ => rfl
  rw [saveEmail, saveEmail, email_seen, htaken, hlinked]
  cases db.email account key with
  | some e =>
    exact congrArg (fun seen => Except.ok (ρ e.id, seen)) seen_refreshEmail.symm
  | none =>
    cases htake : db.emails.any (·.id = id) with
    | true => rfl
    | false =>
      cases db.linkedAccounts.any (·.id = account) with
      | false => rfl
      | true =>
        have hnew : ∀ e ∈ db.emails, e.id ≠ id := by simpa using htake
        let row : EmailRow :=
          ⟨id, account, key, subject, sender, receivedAt, isRead, false, false, none, snippet, now⟩
        have hinsert : ({ db with emails := db.emails ++ [row] } : Db).seen account ρ =
            { db.seen account ρ with emails := (db.seen account ρ).emails ++ [row.renamed ρ] } :=
          seen_insertEmail hkeyed rfl hnew
        exact congrArg (fun seen => Except.ok (ρ id, seen)) hinsert.symm

theorem seen_withClassifications {cs ds : List Classification}
    (h : (cs.filter (db.owns (only account) ·.emailId)).map (Classification.renamed ρ) = ds) :
    ({ db with classifications := cs } : Db).seen account ρ =
      { db.seen account ρ with classifications := ds } := by
  subst h
  rfl

theorem seen_updateClassifications {f g : Classification → Classification}
    (hf : ∀ c, (f c).emailId = c.emailId)
    (hfg : ∀ c : Classification, g (c.renamed ρ) = (f c).renamed ρ) :
    ({ db with classifications := db.classifications.map f } : Db).seen account ρ =
      { db.seen account ρ with classifications := (db.seen account ρ).classifications.map g } := by
  apply seen_withClassifications
  have hkept : (db.classifications.map f).filter (db.owns (only account) ·.emailId) =
      (db.classifications.filter (db.owns (only account) ·.emailId)).map f := by
    rw [List.filter_map]
    simp only [Function.comp_def, hf]
  rw [hkept]
  simp only [seen, rowsOfOne, rowsOf, renamed, List.map_map, Function.comp_def, hfg]

theorem seen_insertClassification {c : Classification} (howns : db.owns (only account) c.emailId = true) :
    ({ db with classifications := db.classifications ++ [c] } : Db).seen account ρ =
      { db.seen account ρ with
        classifications := (db.seen account ρ).classifications ++ [c.renamed ρ] } := by
  apply seen_withClassifications
  simp only [List.filter_append, List.filter_cons, howns, if_true, List.filter_nil, List.map_append,
    List.map_cons, List.map_nil]
  rfl

theorem seen_saveClassification (hρ : Function.Injective ρ) (hkeyed : db.Keyed)
    (hown : ∀ e ∈ db.emails, e.accountId ≠ account → e.id ≠ email)
    (hfresh : ∀ c ∈ db.classifications, db.owns (only account) c.emailId = false → c.id ≠ id) :
    (db.seen account ρ).saveClassification (ρ id) 0 (ρ email) criterion confidence =
      (db.saveClassification id now email criterion confidence).map
        (Prod.map (fun u => u) (seen account ρ)) := by
  -- The rows that the statement looks for are all rows of the account.
  have howner {e : EmailRow} (he : e ∈ db.emails) (hid : e.id = email) : only account e.accountId = true := by
    by_contra hne
    exact hown e he (by simpa [only] using hne) hid
  have howned {c : Classification} (hc : c ∈ db.classifications) (hid : c.emailId = email) :
      db.owns (only account) c.emailId = true := by
    obtain ⟨e, he, hec⟩ := hkeyed.fk c hc
    exact owns_iff.mpr ⟨e, he, howner he (hec.trans hid), hec⟩
  have hagain : (db.seen account ρ).classifications.any (fun c => c.emailId = ρ email ∧ c.criterionId = criterion) =
      db.classifications.any fun c => c.emailId = email ∧ c.criterionId = criterion := by
    apply any_map_filter
    · intro c hc hsame
      exact howned hc (of_decide_eq_true hsame).1
    · intro c
      exact decide_eq_decide.mpr (and_congr_left' hρ.eq_iff)
  have htaken : (db.seen account ρ).classifications.any (·.id = ρ id) = db.classifications.any (·.id = id) := by
    apply any_map_filter
    · intro c hc hid
      by_contra hother
      exact hfresh c hc (by simpa using hother) (of_decide_eq_true hid)
    · intro c
      exact decide_eq_decide.mpr hρ.eq_iff
  have hrow : (db.seen account ρ).emails.any (·.id = ρ email) = db.emails.any (·.id = email) := by
    apply any_map_filter
    · intro e he hid
      exact howner he (of_decide_eq_true hid)
    · intro e
      exact decide_eq_decide.mpr hρ.eq_iff
  have hcriteria : (db.seen account ρ).watchCriteria = db.watchCriteria := rfl
  rw [saveClassification, saveClassification, hagain, htaken, hrow, hcriteria]
  split
  · have hupdate : ({ db with classifications := db.classifications.map fun c =>
          if c.emailId = email ∧ c.criterionId = criterion then { c with confidence } else c } : Db).seen
          account ρ =
        { db.seen account ρ with
          classifications := (db.seen account ρ).classifications.map fun c =>
            if c.emailId = ρ email ∧ c.criterionId = criterion then { c with confidence } else c } := by
      apply seen_updateClassifications
      · intro c
        split <;> rfl
      · intro c
        simp only [Classification.renamed, hρ.eq_iff]
        split <;> rfl
    exact congrArg (fun seen => Except.ok ((), seen)) hupdate.symm
  · split
    · rfl
    · split
      · next hrows =>
        obtain ⟨e, he, hid⟩ := List.any_eq_true.mp hrows.1
        have hid := of_decide_eq_true hid
        let c : Classification := ⟨id, email, criterion, confidence, now⟩
        have hinsert : ({ db with classifications := db.classifications ++ [c] } : Db).seen account ρ =
            { db.seen account ρ with
              classifications := (db.seen account ρ).classifications ++ [c.renamed ρ] } :=
          seen_insertClassification (owns_iff.mpr ⟨e, he, howner he hid, hid⟩)
        exact congrArg (fun seen => Except.ok ((), seen)) hinsert.symm
      · rfl

end Save

section Purge

variable {ranking ranking' : ReceivedDesc} {maxInbox maxFindings : Int} {e : EmailRow}

def TiesAlike (ρ : Uuid → Uuid) (ranking ranking' : ReceivedDesc) : Prop :=
  ∀ l, ranking'.order (l.map (Prod.map ρ id)) = (ranking.order l).map (Prod.map ρ id)

theorem limit_map {α β : Type} (f : α → β) (n : Int) (l : List α) : limit n (l.map f) = (limit n l).map f := by
  rw [limit, limit]
  split
  · rfl
  · exact List.map_take.symm

theorem filter_map_filter {α β : Type} {l : List α} {p q : α → Bool} {f : α → β} {r : β → Bool}
    (h : ∀ a ∈ l, (r (f a) && p a) = q a) : ((l.filter p).map f).filter r = (l.filter q).map f := by
  rw [List.filter_map, List.filter_filter]
  congr 1
  exact List.filter_congr h

theorem classified_seen (hρ : Function.Injective ρ) (he : e ∈ db.emails) (haccount : e.accountId = account) :
    (db.seen account ρ).classified (ρ e.id) = db.classified e.id := by
  apply any_map_filter
  · intro c _ hid
    exact owns_iff.mpr ⟨e, he, by simp [only, haccount], (of_decide_eq_true hid).symm⟩
  · intro c
    exact decide_eq_decide.mpr hρ.eq_iff

theorem keptInbox_seen (hρ : Function.Injective ρ) (hties : TiesAlike ρ ranking ranking') :
    (db.seen account ρ).keptInbox ranking' account maxInbox =
      (db.keptInbox ranking account maxInbox).map ρ := by
  have hrows : (db.seen account ρ).emails.filter (fun e => e.accountId = account ∧ !e.isTrashed ∧
        !(db.seen account ρ).classified e.id) =
      (db.emails.filter fun e => e.accountId = account ∧ !e.isTrashed ∧ !db.classified e.id).map
        (EmailRow.renamed ρ) := by
    apply filter_map_filter
    intro e he
    by_cases haccount : e.accountId = account
    · simp only [EmailRow.renamed, classified_seen hρ he haccount, only, haccount, decide_true, Bool.and_true]
    · simp [EmailRow.renamed, haccount]
  rw [keptInbox, hrows, List.map_map, keptInbox, List.map_map]
  have hkeys (l : List EmailRow) : l.map ((fun e => (e.id, e.receivedAt)) ∘ EmailRow.renamed ρ) =
      (l.map fun e => (e.id, e.receivedAt)).map (Prod.map ρ id) := by
    rw [List.map_map]
    rfl
  rw [hkeys, hties, limit_map, List.map_map]
  rfl

theorem findingRows_seen (hρ : Function.Injective ρ) :
    (db.seen account ρ).findingRows account = (db.findingRows account).map (Prod.map ρ id) := by
  have hrows : (db.seen account ρ).emails.filter (fun m => m.accountId = account ∧ !m.isTrashed) =
      (db.emails.filter fun m => m.accountId = account ∧ !m.isTrashed).map (EmailRow.renamed ρ) := by
    apply filter_map_filter
    intro e _
    by_cases haccount : e.accountId = account <;> simp [EmailRow.renamed, only, haccount]
  rw [findingRows, hrows, findingRows, List.flatMap_map, List.map_flatMap]
  apply List.flatMap_congr
  intro m hm
  obtain ⟨hm, howner⟩ := List.mem_filter.mp hm
  have hclassified : (db.seen account ρ).classifications.filter (·.emailId = ρ m.id) =
      (db.classifications.filter (·.emailId = m.id)).map (Classification.renamed ρ) := by
    apply filter_map_filter
    intro c _
    by_cases hc : c.emailId = m.id
    · have howns : db.owns (only account) m.id := by
        apply owns_iff.mpr
        exact ⟨m, hm, by simpa [only] using (of_decide_eq_true howner).1, rfl⟩
      simp [Classification.renamed, hc, howns]
    · simp [Classification.renamed, hc, hρ.eq_iff]
  change ((db.seen account ρ).classifications.filter (·.emailId = ρ m.id)).map _ = _
  rw [hclassified, List.map_map, List.map_map]
  rfl

theorem keptFindings_seen (hρ : Function.Injective ρ) (hties : TiesAlike ρ ranking ranking') :
    (db.seen account ρ).keptFindings ranking' account maxFindings =
      (db.keptFindings ranking account maxFindings).map ρ := by
  rw [keptFindings, findingRows_seen hρ, hties, limit_map, keptFindings, List.map_map, List.map_map]
  rfl

theorem seen_purgeInbox (hρ : Function.Injective ρ) (hties : TiesAlike ρ ranking ranking') :
    (db.purgeInbox ranking account maxInbox).2.seen account ρ =
      ((db.seen account ρ).purgeInbox ranking' account maxInbox).2 := by
  apply seen_deleteEmails hρ
  · simp +contextual [inboxSurplus]
  · intro e he haccount
    have hclassified : (db.seen account ρ).classified (ρ e.id) = db.classified e.id :=
      classified_seen hρ he haccount
    simp only [inboxSurplus, keptInbox_seen hρ hties, EmailRow.renamed, hclassified, List.mem_map,
      hρ.eq_iff, exists_eq_right]

theorem seen_purgeFindings (hρ : Function.Injective ρ) (hties : TiesAlike ρ ranking ranking') :
    (db.purgeFindings ranking account maxFindings).2.seen account ρ =
      ((db.seen account ρ).purgeFindings ranking' account maxFindings).2 := by
  apply seen_deleteEmails hρ
  · simp +contextual [findingsSurplus]
  · intro e he haccount
    have hclassified : (db.seen account ρ).classified (ρ e.id) = db.classified e.id :=
      classified_seen hρ he haccount
    simp only [findingsSurplus, keptFindings_seen hρ hties, EmailRow.renamed, hclassified, List.mem_map,
      hρ.eq_iff, exists_eq_right]

end Purge

section Alike

variable {db' : Db} {fresh criterion : Uuid} {now now' receivedAt maxInbox maxFindings : Int}
  {confidence : Option Rat} {subject sender snippet : Option String} {isRead : Bool} {key : String}
  {ranking ranking' : ReceivedDesc} (hρ : Function.Injective ρ)
  (hseen : db'.seen account id = db.seen account ρ)
include hρ hseen

theorem saveEmail_alike (hkeyed : db.Keyed) (hkeyed' : db'.Keyed)
    (hfresh : ∀ e ∈ db.emails, e.accountId ≠ account → e.id ≠ fresh)
    (hfresh' : ∀ e ∈ db'.emails, e.accountId ≠ account → e.id ≠ ρ fresh) :
    (db'.saveEmail (ρ fresh) now' account key subject sender receivedAt isRead snippet).map
        (Prod.map id (seen account id)) =
      (db.saveEmail fresh now account key subject sender receivedAt isRead snippet).map
        (Prod.map ρ (seen account ρ)) := by
  rw [← seen_saveEmail hρ hkeyed hfresh, ← seen_saveEmail Function.injective_id hkeyed' hfresh', hseen, id]

theorem saveClassification_alike (hkeyed : db.Keyed) (hkeyed' : db'.Keyed)
    (hown : ∀ e ∈ db.emails, e.accountId ≠ account → e.id ≠ email)
    (hown' : ∀ e ∈ db'.emails, e.accountId ≠ account → e.id ≠ ρ email)
    (hfresh : ∀ c ∈ db.classifications, db.owns (only account) c.emailId = false → c.id ≠ fresh)
    (hfresh' : ∀ c ∈ db'.classifications, db'.owns (only account) c.emailId = false → c.id ≠ ρ fresh) :
    (db'.saveClassification (ρ fresh) now' (ρ email) criterion confidence).map
        (Prod.map (fun u => u) (seen account id)) =
      (db.saveClassification fresh now email criterion confidence).map
        (Prod.map (fun u => u) (seen account ρ)) := by
  rw [← seen_saveClassification hρ hkeyed hown hfresh,
    ← seen_saveClassification Function.injective_id hkeyed' hown' hfresh', hseen, id, id]

theorem purgeInbox_alike (hties : TiesAlike ρ ranking ranking') :
    (db'.purgeInbox ranking' account maxInbox).2.seen account id =
      (db.purgeInbox ranking account maxInbox).2.seen account ρ := by
  have hsame : TiesAlike id ranking' ranking' := by
    intro l
    simp
  rw [seen_purgeInbox hρ hties, seen_purgeInbox Function.injective_id hsame, hseen]

theorem purgeFindings_alike (hties : TiesAlike ρ ranking ranking') :
    (db'.purgeFindings ranking' account maxFindings).2.seen account id =
      (db.purgeFindings ranking account maxFindings).2.seen account ρ := by
  have hsame : TiesAlike id ranking' ranking' := by
    intro l
    simp
  rw [seen_purgeFindings hρ hties, seen_purgeFindings Function.injective_id hsame, hseen]

end Alike

end Db

end Fumiko.Storage
