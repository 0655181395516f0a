import Fumiko.Storage.SchemaLaws

namespace Fumiko.Storage.Db

open Fumiko.Common Fumiko.Foundation

/-- The email belongs to one of the accounts in `p`. -/
def owns (p : Uuid → Bool) (db : Db) (email : Uuid) : Bool :=
  db.emails.any fun e => p e.accountId && decide (e.id = email)

/-- The rows of the accounts in `p`, with the tables that all accounts share. -/
def rowsOf (p : Uuid → Bool) (db : Db) : Db where
  linkedAccounts := db.linkedAccounts.filter (p ·.id)
  watchCriteria := db.watchCriteria
  emails := db.emails.filter (p ·.accountId)
  classifications := db.classifications.filter (db.owns p ·.emailId)
  settings := db.settings

/-- The constraints that the emails of different accounts are told apart by. -/
structure Keyed (db : Db) : Prop where
  pk : (db.emails.map EmailRow.id).Nodup
  fk : ∀ c ∈ db.classifications, ∃ e ∈ db.emails, e.id = c.emailId

theorem WellFormed.keyed {db : Db} (h : db.WellFormed) : db.Keyed := ⟨h.emailsPk, h.classificationsEmailFk⟩

variable {db : Db} {p q : Uuid → Bool} {account email : Uuid}

theorem owns_iff : db.owns p email ↔ ∃ e ∈ db.emails, p e.accountId ∧ e.id = email := by
  simp [owns]

theorem Keyed.owner_unique (h : db.Keyed) {e e' : EmailRow} (he : e ∈ db.emails) (he' : e' ∈ db.emails)
    (hid : e.id = e'.id) : e = e' :=
  List.inj_on_of_nodup_map h.pk he he' hid

theorem rowsOf_rowsOf : (db.rowsOf p).rowsOf q = db.rowsOf fun a => p a && q a := by
  have howns (c : Classification) : ((db.rowsOf p).owns q c.emailId && db.owns p c.emailId) =
      db.owns (fun a => p a && q a) c.emailId := by
    rw [Bool.eq_iff_iff, Bool.and_eq_true, owns_iff, owns_iff, owns_iff]
    constructor
    · rintro ⟨⟨e, he, hq, hid⟩, _⟩
      obtain ⟨he, hp⟩ := List.mem_filter.mp he
      exact ⟨e, he, by simp [hp, hq], hid⟩
    · rintro ⟨e, he, hpq, hid⟩
      obtain ⟨hp, hq⟩ := (Bool.and_eq_true _ _).mp hpq
      exact ⟨⟨e, List.mem_filter.mpr ⟨he, hp⟩, hq, hid⟩, e, he, hp, hid⟩
  simp only [rowsOf, List.filter_filter, Db.mk.injEq, true_and, and_true]
  refine ⟨?_, ?_, ?_⟩
  · exact List.filter_congr fun a _ => Bool.and_comm _ _
  · exact List.filter_congr fun e _ => Bool.and_comm _ _
  · exact List.filter_congr fun c _ => howns c

theorem rowsOf_eq_of_imp {db' : Db} (hqp : ∀ a, q a → p a) (h : db'.rowsOf p = db.rowsOf p) :
    db'.rowsOf q = db.rowsOf q := by
  have hand : (fun a => p a && q a) = q := by
    funext a
    rw [Bool.eq_iff_iff, Bool.and_eq_true]
    exact ⟨And.right, fun hq => ⟨hqp a hq, hq⟩⟩
  rw [← hand, ← rowsOf_rowsOf, h, rowsOf_rowsOf]

theorem filter_map_of_fixed {ρ : Type} {l : List ρ} {r : ρ → Bool} {f : ρ → ρ}
    (hr : ∀ a ∈ l, r (f a) = r a) (hf : ∀ a ∈ l, r a → f a = a) : (l.map f).filter r = l.filter r := by
  induction l with
  | nil => rfl
  | cons a l ih =>
    have hrest := ih (fun b hb => hr b (List.mem_cons_of_mem _ hb)) fun b hb => hf b (List.mem_cons_of_mem _ hb)
    rw [List.map_cons, List.filter_cons, List.filter_cons, hr a List.mem_cons_self, hrest]
    cases hra : r a with
    | true => simp [hf a List.mem_cons_self hra]
    | false => simp

section Statements

variable (hp : p account = false)
include hp

theorem rowsOf_updateAccounts {f : LinkedAccount → LinkedAccount} (hf : ∀ a, (f a).id = a.id) :
    (db.updateAccounts (·.id = account) f).rowsOf p = db.rowsOf p := by
  have hkept : (db.updateAccounts (·.id = account) f).linkedAccounts.filter (p ·.id) =
      db.linkedAccounts.filter (p ·.id) := by
    apply filter_map_of_fixed
    · intro a _
      split <;> simp [hf]
    · intro a _ hpa
      by_cases ha : a.id = account
      · simp [ha, hp] at hpa
      · simp [ha]
  simp only [rowsOf, hkept]
  rfl

theorem rowsOf_updateEmails {r : EmailRow → Bool} {f : EmailRow → EmailRow}
    (hr : ∀ e, r e → e.accountId = account) (hid : ∀ e, (f e).id = e.id)
    (hf : ∀ e, (f e).accountId = e.accountId) : (db.updateEmails r f).rowsOf p = db.rowsOf p := by
  have haccount (e : EmailRow) : (if r e then f e else e).accountId = e.accountId := by
    split <;> simp [hf]
  have hsame (e : EmailRow) : (if r e then f e else e).id = e.id := by
    split <;> simp [hid]
  have hkept : (db.updateEmails r f).emails.filter (p ·.accountId) = db.emails.filter (p ·.accountId) := by
    apply filter_map_of_fixed
    · intro e _
      rw [haccount]
    · intro e _ hpe
      rw [if_neg]
      intro hre
      simp [hr e hre, hp] at hpe
  have howns : (db.updateEmails r f).owns p = db.owns p := by
    funext email
    simp only [owns, updateEmails, List.any_map, Function.comp_def, haccount, hsame]
  simp only [rowsOf, hkept, howns]
  rfl

theorem owns_deleteEmails {r : EmailRow → Bool} (hr : ∀ e, r e → e.accountId = account) :
    (db.deleteEmails r).owns p email = db.owns p email := by
  rw [Bool.eq_iff_iff, owns_iff, owns_iff]
  constructor
  · rintro ⟨e, he, hpe, hid⟩
    exact ⟨e, (List.mem_filter.mp he).1, hpe, hid⟩
  · rintro ⟨e, he, hpe, hid⟩
    refine ⟨e, List.mem_filter.mpr ⟨he, ?_⟩, hpe, hid⟩
    cases hre : r e with
    | true => simp [hr e hre, hp] at hpe
    | false => rfl

theorem rowsOf_deleteEmails (hkeyed : db.Keyed) {r : EmailRow → Bool}
    (hr : ∀ e, r e → e.accountId = account) : (db.deleteEmails r).rowsOf p = db.rowsOf p := by
  have hnot {e : EmailRow} (hpe : p e.accountId) : r e = false := by
    cases hre : r e with
    | true => simp [hr e hre, hp] at hpe
    | false => rfl
  have hemails : (db.deleteEmails r).emails.filter (p ·.accountId) = db.emails.filter (p ·.accountId) := by
    rw [deleteEmails, List.filter_filter]
    apply List.filter_congr
    intro e _
    cases hpe : p e.accountId with
    | true => simp [hnot hpe]
    | false => simp
  have hclassifications : (db.deleteEmails r).classifications.filter (db.owns p ·.emailId) =
      db.classifications.filter (db.owns p ·.emailId) := by
    rw [deleteEmails, List.filter_filter]
    apply List.filter_congr
    intro c _
    cases howns : db.owns p c.emailId with
    | false => rfl
    | true =>
      -- The email of the classification is told apart from those that go by its key.
      obtain ⟨e, he, hpe, hid⟩ := owns_iff.mp howns
      rw [Bool.true_and, Bool.not_eq_true', List.any_eq_false]
      intro e' he' hgone
      simp only [Bool.and_eq_true, decide_eq_true_eq] at hgone
      rw [hkeyed.owner_unique he' he (hgone.2.trans hid.symm), hnot hpe] at hgone
      cases hgone.1
  simp only [rowsOf, hemails, owns_deleteEmails hp hr, hclassifications]
  rfl

theorem owns_insertEmail {row : EmailRow} (hrow : row.accountId = account) :
    ({ db with emails := db.emails ++ [row] } : Db).owns p = db.owns p := by
  funext email
  simp [owns, hrow, hp]

theorem rowsOf_insertEmail {row : EmailRow} (hrow : row.accountId = account) :
    ({ db with emails := db.emails ++ [row] } : Db).rowsOf p = db.rowsOf p := by
  have howns : ({ db with emails := db.emails ++ [row] } : Db).owns p = db.owns p := owns_insertEmail hp hrow
  simp [rowsOf, howns, hrow, hp]

end Statements

theorem rowsOf_withClassifications {cs : List Classification}
    (h : cs.filter (db.owns p ·.emailId) = db.classifications.filter (db.owns p ·.emailId)) :
    ({ db with classifications := cs } : Db).rowsOf p = db.rowsOf p := by
  rw [rowsOf, rowsOf, Db.mk.injEq]
  exact ⟨rfl, rfl, rfl, h, rfl⟩

section Saves

variable {id criterion row : Uuid} {now receivedAt : Int} {confidence : Option Rat}
  {subject sender snippet : Option String} {isRead : Bool} {key : String} {u : Unit} {db' : Db}

theorem rowsOf_saveEmail (hp : p account = false)
    (h : db.saveEmail id now account key subject sender receivedAt isRead snippet = .ok (row, db')) :
    db'.rowsOf p = db.rowsOf p := by
  cases saveEmail_saved h with
  | again => exact rowsOf_updateEmails hp (fun e he => by simp_all) (fun _ => rfl) fun _ => rfl
  | first => exact rowsOf_insertEmail hp rfl

theorem owns_saveEmail (hkeyed : db.Keyed) (hp : p account = false)
    (h : db.saveEmail id now account key subject sender receivedAt isRead snippet = .ok (row, db')) :
    db.owns p row = false := by
  rw [Bool.eq_false_iff, ne_eq, owns_iff]
  rintro ⟨e, he, hpe, hid⟩
  cases saveEmail_saved h with
  | again hfind =>
    obtain ⟨hmem, haccount, _⟩ := mem_of_email hfind
    rw [hkeyed.owner_unique he hmem hid, haccount, hp] at hpe
    cases hpe
  | first _ hfresh => exact hfresh e he hid

theorem rowsOf_saveClassification (howns : db.owns p email = false)
    (h : db.saveClassification id now email criterion confidence = .ok (u, db')) :
    db'.rowsOf p = db.rowsOf p := by
  have hother {c : Classification} (hc : db.owns p c.emailId) : c.emailId ≠ email := by
    intro heq
    rw [heq, howns] at hc
    cases hc
  cases saveClassification_classified h with
  | again =>
    apply rowsOf_withClassifications
    apply filter_map_of_fixed
    · intro c _
      split <;> rfl
    · intro c _ hc
      exact if_neg fun h => hother hc h.1
  | first =>
    apply rowsOf_withClassifications
    simp [howns]

end Saves

namespace Keyed

variable {id criterion row : Uuid} {now receivedAt : Int} {confidence : Option Rat}
  {subject sender snippet : Option String} {isRead : Bool} {key : String} {u : Unit} {db' : Db}

theorem updateEmails (h : db.Keyed) {r : EmailRow → Bool} {f : EmailRow → EmailRow}
    (hid : ∀ e, (f e).id = e.id) : (db.updateEmails r f).Keyed := by
  have hsame (e : EmailRow) : (if r e then f e else e).id = e.id := by
    split <;> simp [hid]
  constructor
  · simpa [Db.updateEmails, Function.comp_def, hsame] using h.pk
  · intro c hc
    obtain ⟨e, he, hec⟩ := h.fk c hc
    exact ⟨_, List.mem_map_of_mem he, (hsame e).trans hec⟩

theorem deleteEmails (h : db.Keyed) (r : EmailRow → Bool) : (db.deleteEmails r).Keyed :=
  ⟨h.pk.sublist (List.filter_sublist.map _), owned_deleteEmails h.fk r⟩

theorem saveEmail (h : db.Keyed)
    (hsave : db.saveEmail id now account key subject sender receivedAt isRead snippet = .ok (row, db')) :
    db'.Keyed := by
  cases saveEmail_saved hsave with
  | again => exact h.updateEmails fun _ => rfl
  | first _ hfresh =>
    constructor
    · rw [List.map_append, List.nodup_append]
      refine ⟨h.pk, by simp, ?_⟩
      intro a ha b hb heq
      obtain ⟨e, he, rfl⟩ := List.mem_map.mp ha
      simp only [List.map_cons, List.map_nil, List.mem_singleton] at hb
      exact hfresh e he (heq.trans hb)
    · intro c hc
      obtain ⟨e, he, hec⟩ := h.fk c hc
      exact ⟨e, List.mem_append_left _ he, hec⟩

theorem saveClassification (h : db.Keyed)
    (hsave : db.saveClassification id now email criterion confidence = .ok (u, db')) : db'.Keyed := by
  cases saveClassification_classified hsave with
  | again =>
    refine ⟨h.pk, ?_⟩
    intro c hc
    obtain ⟨c₀, hc₀, rfl⟩ := List.mem_map.mp hc
    obtain ⟨e, he, hec⟩ := h.fk c₀ hc₀
    refine ⟨e, he, ?_⟩
    split <;> exact hec
  | first hrow =>
    refine ⟨h.pk, ?_⟩
    intro c hc
    cases List.mem_append.mp hc with
    | inl hc => exact h.fk c hc
    | inr hc =>
      cases List.mem_singleton.mp hc
      exact hrow

end Keyed

end Fumiko.Storage.Db
