import Fumiko.Storage.Operations
import Fumiko.Storage.SchemaLaws
import Fumiko.Storage.ServiceLaws
import Mathlib.Logic.Relation

namespace Fumiko.Storage

open Fumiko.Common Fumiko.Foundation Fumiko.Foundation.Action Fumiko.Program

/-- What an update may do to an email at a reading of the clock: the keys stay, a viewed email stays
viewed, and the trash columns are written together. -/
structure Touched (now : Int) (e e' : EmailRow) : Prop where
  id : e'.id = e.id
  accountId : e'.accountId = e.accountId
  providerMessageId : e'.providerMessageId = e.providerMessageId
  viewed : e.appHasViewed → e'.appHasViewed
  trash : (e'.isTrashed = e.isTrashed ∧ e'.trashedAt = e.trashedAt) ∨
    (e'.isTrashed = true ∧ e'.trashedAt = some now) ∨ (e'.isTrashed = false ∧ e'.trashedAt = none)

section Touched

variable {now : Int} {e e' e'' : EmailRow}

theorem Touched.refl (now : Int) (e : EmailRow) : Touched now e e :=
  ⟨rfl, rfl, rfl, fun hviewed => hviewed, Or.inl ⟨rfl, rfl⟩⟩

theorem Touched.trans (h : Touched now e e') (h' : Touched now e' e'') : Touched now e e'' where
  id := h'.id.trans h.id
  accountId := h'.accountId.trans h.accountId
  providerMessageId := h'.providerMessageId.trans h.providerMessageId
  viewed hviewed := h'.viewed (h.viewed hviewed)
  trash := by
    cases h'.trash with
    | inl hsame =>
      rw [hsame.1, hsame.2]
      exact h.trash
    | inr hwritten => exact Or.inr hwritten

end Touched

namespace Db

inductive Change (now : Int) (db : Db) : Db → Prop
  | insertAccount {row id db'} (h : db.insertAccount row = .ok (id, db')) : Change now db db'
  | updateAccounts (p : LinkedAccount → Bool) {f : LinkedAccount → LinkedAccount}
    (hf : ∀ a, (f a).id = a.id ∧ (f a).emailAddress = a.emailAddress) :
    Change now db (db.updateAccounts p f)
  | deleteAccounts (p : LinkedAccount → Bool) : Change now db (db.deleteAccounts p)
  | updateEmails (p : EmailRow → Bool) {f : EmailRow → EmailRow} (hf : ∀ e, Touched now e (f e)) :
    Change now db (db.updateEmails p f)
  | deleteEmails (p : EmailRow → Bool) : Change now db (db.deleteEmails p)
  | insertCriterion {row id db'} (h : db.insertCriterion row = .ok (id, db')) : Change now db db'
  | updateCriteria (p : WatchCriterion → Bool) {f : WatchCriterion → WatchCriterion}
    (hf : ∀ c, (f c).id = c.id) : Change now db (db.updateCriteria p f)
  | deleteCriteria (p : WatchCriterion → Bool) : Change now db (db.deleteCriteria p)
  | saveClassification {id at_ email criterion confidence u db'}
    (h : db.saveClassification id at_ email criterion confidence = .ok (u, db')) : Change now db db'
  | deleteClassifications (p : Classification → Bool) :
    Change now db { db with classifications := db.classifications.filter p }
  | setSetting (key value : String) : Change now db (db.setSetting key value)
  | deleteSettings (p : String × String → Bool) : Change now db { db with settings := db.settings.filter p }

section Keys

variable {db db' : Db} {now : Int}

theorem map_update {ρ κ : Type} {l : List ρ} {p : ρ → Bool} {f : ρ → ρ} {g : ρ → κ}
    (h : ∀ a, g (f a) = g a) : (l.map fun a => if p a then f a else a).map g = l.map g := by
  rw [List.map_map]
  apply List.map_congr_left
  intro a _
  rw [Function.comp_apply]
  split
  · exact h a
  · rfl

theorem exists_update {ρ κ : Type} {l : List ρ} {p : ρ → Bool} {f : ρ → ρ} {g : ρ → κ}
    (hf : ∀ a, g (f a) = g a) {k : κ} (h : ∃ a ∈ l, g a = k) :
    ∃ a ∈ l.map fun a => if p a then f a else a, g a = k := by
  rw [← List.mem_map, map_update hf, List.mem_map]
  exact h

theorem nodup_map_concat {ρ κ : Type} {l : List ρ} {g : ρ → κ} {a : ρ} (h : (l.map g).Nodup)
    (ha : ∀ b ∈ l, g b ≠ g a) : ((l ++ [a]).map g).Nodup := by
  rw [List.map_append, List.map_singleton]
  refine List.nodup_append.mpr ⟨h, List.nodup_singleton _, ?_⟩
  intro k hk k' hk'
  obtain ⟨b, hb, rfl⟩ := List.mem_map.mp hk
  rw [List.mem_singleton.mp hk']
  exact ha b hb

theorem WellFormed.updateAccounts (h : db.WellFormed) (p : LinkedAccount → Bool)
    {f : LinkedAccount → LinkedAccount}
    (hf : ∀ a, (f a).id = a.id ∧ (f a).emailAddress = a.emailAddress) :
    (db.updateAccounts p f).WellFormed := { h with
  accountsPk := by
    rw [Db.updateAccounts, map_update fun a => (hf a).1]
    exact h.accountsPk
  accountsUnique := by
    rw [Db.updateAccounts, map_update fun a => (hf a).2]
    exact h.accountsUnique
  emailsFk e he := exists_update (fun a => (hf a).1) (h.emailsFk e he) }

theorem WellFormed.updateEmails (h : db.WellFormed) (p : EmailRow → Bool) {f : EmailRow → EmailRow}
    (hf : ∀ e, Touched now e (f e)) : (db.updateEmails p f).WellFormed := { h with
  emailsPk := by
    rw [Db.updateEmails, map_update fun e => (hf e).id]
    exact h.emailsPk
  emailsUnique := by
    rw [Db.updateEmails, map_update fun e => Prod.ext (hf e).accountId (hf e).providerMessageId]
    exact h.emailsUnique
  emailsFk := by
    intro e' he'
    obtain ⟨e, he, rfl⟩ := List.mem_map.mp he'
    obtain ⟨a, ha, hid⟩ := h.emailsFk e he
    refine ⟨a, ha, hid.trans ?_⟩
    split
    · exact (hf e).accountId.symm
    · rfl
  classificationsEmailFk c hc :=
    exists_update (fun e => (hf e).id) (h.classificationsEmailFk c hc) }

theorem WellFormed.insertCriterion (h : db.WellFormed) {row : WatchCriterion} {id : Uuid}
    (hinsert : db.insertCriterion row = .ok (id, db')) : db'.WellFormed := by
  rw [Db.insertCriterion] at hinsert
  split at hinsert
  · cases hinsert
  · next hfree =>
    cases hinsert
    exact { h with
      criteriaPk := nodup_map_concat h.criteriaPk (by simpa using hfree)
      classificationsCriterionFk := by
        intro c hc
        obtain ⟨w, hw, hid⟩ := h.classificationsCriterionFk c hc
        exact ⟨w, List.mem_append_left _ hw, hid⟩ }

theorem WellFormed.updateCriteria (h : db.WellFormed) (p : WatchCriterion → Bool)
    {f : WatchCriterion → WatchCriterion} (hf : ∀ c, (f c).id = c.id) :
    (db.updateCriteria p f).WellFormed := { h with
  criteriaPk := by
    rw [Db.updateCriteria, map_update hf]
    exact h.criteriaPk
  classificationsCriterionFk c hc := exists_update hf (h.classificationsCriterionFk c hc) }

theorem WellFormed.deleteClassifications (h : db.WellFormed) (p : Classification → Bool) :
    WellFormed { db with classifications := db.classifications.filter p } := { h with
  classificationsPk := h.classificationsPk.sublist (List.filter_sublist.map _)
  classificationsUnique := h.classificationsUnique.sublist (List.filter_sublist.map _)
  classificationsEmailFk c hc := h.classificationsEmailFk c (List.mem_filter.mp hc).1
  classificationsCriterionFk c hc := h.classificationsCriterionFk c (List.mem_filter.mp hc).1 }

theorem WellFormed.deleteCriteria (h : db.WellFormed) (p : WatchCriterion → Bool) :
    (db.deleteCriteria p).WellFormed := { h.deleteClassifications _ with
  criteriaPk := h.criteriaPk.sublist (List.filter_sublist.map _)
  classificationsCriterionFk := by
    intro c hc
    obtain ⟨hc, hkept⟩ := List.mem_filter.mp hc
    obtain ⟨w, hw, hid⟩ := h.classificationsCriterionFk c hc
    rw [Bool.not_eq_true', List.any_eq_false] at hkept
    refine ⟨w, List.mem_filter.mpr ⟨hw, ?_⟩, hid⟩
    simpa [hid] using hkept w hw }

theorem WellFormed.updateConfidence (h : db.WellFormed) (p : Classification → Prop) [DecidablePred p]
    (confidence : Option Rat) :
    WellFormed { db with
      classifications := db.classifications.map fun c => if p c then { c with confidence } else c } :=
    { h with
      classificationsPk := by
        simpa [Function.comp_def, apply_ite] using h.classificationsPk
      classificationsUnique := by
        simpa [Function.comp_def, apply_ite] using h.classificationsUnique
      classificationsEmailFk := by
        intro c' hc'
        obtain ⟨c, hc, rfl⟩ := List.mem_map.mp hc'
        split <;> exact h.classificationsEmailFk c hc
      classificationsCriterionFk := by
        intro c' hc'
        obtain ⟨c, hc, rfl⟩ := List.mem_map.mp hc'
        split <;> exact h.classificationsCriterionFk c hc }

theorem WellFormed.insertClassification (h : db.WellFormed) {row : Classification}
    (hid : ∀ c ∈ db.classifications, c.id ≠ row.id)
    (hpair : ∀ c ∈ db.classifications, (c.emailId, c.criterionId) ≠ (row.emailId, row.criterionId))
    (hemail : ∃ e ∈ db.emails, e.id = row.emailId)
    (hcriterion : ∃ w ∈ db.watchCriteria, w.id = row.criterionId) :
    WellFormed { db with classifications := db.classifications ++ [row] } := { h with
  classificationsPk := nodup_map_concat h.classificationsPk hid
  classificationsUnique := nodup_map_concat h.classificationsUnique hpair
  classificationsEmailFk := by
    intro c hc
    cases List.mem_append.mp hc with
    | inl hc => exact h.classificationsEmailFk c hc
    | inr hc =>
      rw [List.mem_singleton.mp hc]
      exact hemail
  classificationsCriterionFk := by
    intro c hc
    cases List.mem_append.mp hc with
    | inl hc => exact h.classificationsCriterionFk c hc
    | inr hc =>
      rw [List.mem_singleton.mp hc]
      exact hcriterion }

theorem WellFormed.saveClassification (h : db.WellFormed) {id email criterion : Uuid} {at_ : Int}
    {confidence : Option Rat} {u : Unit}
    (hsave : db.saveClassification id at_ email criterion confidence = .ok (u, db')) : db'.WellFormed := by
  rw [Db.saveClassification] at hsave
  split at hsave
  · cases hsave
    exact h.updateConfidence (fun c => c.emailId = email ∧ c.criterionId = criterion) confidence
  · next hpair =>
    split at hsave
    · cases hsave
    · next hid =>
      split at hsave
      · next hrows =>
        cases hsave
        simp only [List.any_eq_true, decide_eq_true_eq] at hrows
        exact h.insertClassification (by simpa using hid) (by simpa using hpair) hrows.1 hrows.2
      · cases hsave

theorem WellFormed.setSetting (h : db.WellFormed) (key value : String) :
    (db.setSetting key value).WellFormed := by
  rw [Db.setSetting]
  split
  · refine { h with settingsPk := ?_ }
    have hkeys : (db.settings.map fun s => if s.1 = key then (key, value) else s).map Prod.fst =
        db.settings.map Prod.fst := by
      rw [List.map_map]
      apply List.map_congr_left
      intro s _
      rw [Function.comp_apply]
      split
      · next hs => exact hs.symm
      · rfl
    rw [hkeys]
    exact h.settingsPk
  · next hfree =>
    rw [Bool.not_eq_true, List.any_eq_false] at hfree
    refine { h with settingsPk := nodup_map_concat h.settingsPk ?_ }
    intro s hs heq
    exact hfree s hs (decide_eq_true heq)

theorem WellFormed.change (h : db.WellFormed) (hchange : Change now db db') : db'.WellFormed := by
  cases hchange with
  | insertAccount hinsert => exact h.insertAccount hinsert
  | updateAccounts p hf => exact h.updateAccounts p hf
  | deleteAccounts p => exact h.deleteAccounts p
  | updateEmails p hf => exact h.updateEmails p hf
  | deleteEmails p => exact h.deleteEmails p
  | insertCriterion hinsert => exact h.insertCriterion hinsert
  | updateCriteria p hf => exact h.updateCriteria p hf
  | deleteCriteria p => exact h.deleteCriteria p
  | saveClassification hsave => exact h.saveClassification hsave
  | deleteClassifications p => exact h.deleteClassifications p
  | setSetting key value => exact h.setSetting key value
  | deleteSettings p =>
    exact { h with settingsPk := h.settingsPk.sublist (List.filter_sublist.map _) }

end Keys

end Db

end Fumiko.Storage
