import Fumiko.Storage.ActivationLaws

namespace Fumiko.App

open Fumiko.Common Fumiko.Foundation Fumiko.Foundation.Action Fumiko.Program Fumiko.Storage

structure Board where
  rows : List MatchedEmailWithReason
  selectedAccount : Option Uuid
  selectedLabel : Option String

namespace Board

def findingList (accepts : MatchedEmailWithReason → Bool) (b : Board) : List MatchedEmailWithReason :=
  b.rows.filter fun f => b.selectedLabel.all (f.criterionLabel = ·) && accepts f

def targetCriterionId (b : Board) : Option Uuid :=
  b.selectedLabel.bind fun label => (b.rows.find? (·.criterionLabel = label)).map (·.criterionId)

inductive Triage
  | clearFindings
  | removeMatch (email criterion : Uuid)
  | trashEmail (email : Uuid)

def triage (b : Board) : Triage → Program StorageError Unit
  | .clearFindings => do
    let _ ← clearClassifications b.selectedAccount b.targetCriterionId
    pure ()
  | .removeMatch email criterion => deleteClassification email criterion
  | .trashEmail email => trashEmail email

def hits (b : Board) (f : MatchedEmailWithReason) : Triage → Bool
  | .clearFindings => b.targetCriterionId.all (f.criterionId = ·)
  | .removeMatch email criterion => decide (f.emailId = email) && decide (f.criterionId = criterion)
  | .trashEmail email => f.emailId = email

section Laws

variable {b : Board} {db : Db} {w w' : World}

def rowsOfEmail (criteria : List WatchCriterion) (c : Classification) (m : EmailRow) :
    List MatchedEmailWithReason :=
  (criteria.filter (·.id = c.criterionId)).map fun w =>
    { emailId := m.id, accountId := m.accountId, criterionId := c.criterionId
      subject := m.subject, sender := m.sender, receivedAt := m.receivedAt
      snippet := m.snippet, isRead := m.isRead, appHasViewed := m.appHasViewed
      criterionLabel := w.label, confidence := c.confidence }

def rowsOfMatch (account : Option Uuid) (db : Db) (c : Classification) : List MatchedEmailWithReason :=
  (db.emails.filter fun m => decide (m.id = c.emailId) && (!m.isTrashed && inScope account m)).flatMap
    (rowsOfEmail db.watchCriteria c)

theorem mem_rowsOfEmail {criteria : List WatchCriterion} {c : Classification} {m : EmailRow}
    {f : MatchedEmailWithReason} (h : f ∈ rowsOfEmail criteria c m) :
    f.emailId = m.id ∧ f.criterionId = c.criterionId := by
  obtain ⟨w, -, rfl⟩ := List.mem_map.mp h
  exact ⟨rfl, rfl⟩

theorem matchedEmails_eq (account : Option Uuid) (db : Db) :
    db.matchedEmails account = db.classifications.flatMap (rowsOfMatch account db) := rfl

theorem mem_rowsOfMatch {account : Option Uuid} {c : Classification} {f : MatchedEmailWithReason}
    (h : f ∈ rowsOfMatch account db c) : f.emailId = c.emailId ∧ f.criterionId = c.criterionId ∧
      ∃ m ∈ db.emails, m.id = c.emailId ∧ inScope account m := by
  obtain ⟨m, hm, hrow⟩ := List.mem_flatMap.mp h
  obtain ⟨hemail, hcriterion⟩ := mem_rowsOfEmail hrow
  simp only [List.mem_filter, Bool.and_eq_true, decide_eq_true_eq] at hm
  exact ⟨hemail.trans hm.2.1, hcriterion, m, hm.1, hm.2.1, hm.2.2.2⟩

theorem matchedEmails_clearClassifications (account criterion : Option Uuid) (db : Db) :
    (db.clearClassifications account criterion).matchedEmails account =
      (db.matchedEmails account).filter fun f => !criterion.all (f.criterionId = ·) := by
  refine Db.flatMap_filter_of_forall fun c _ f hf => ?_
  obtain ⟨-, hcriterion, m, hm, hid, hscope⟩ := mem_rowsOfMatch hf
  rw [hcriterion]
  cases account with
  | none => rfl
  | some a =>
    have hany : (db.emails.any fun e => decide (e.accountId = a) && decide (e.id = c.emailId)) = true := by
      rw [List.any_eq_true]
      exact ⟨m, hm, by simpa [inScope, hid] using hscope⟩
    rw [Option.all_some, hany, Bool.true_and]

theorem matchedEmails_deleteClassification (account : Option Uuid) (email criterion : Uuid) (db : Db) :
    (db.deleteClassification email criterion).matchedEmails account =
      (db.matchedEmails account).filter fun f =>
        !(decide (f.emailId = email) && decide (f.criterionId = criterion)) := by
  refine Db.flatMap_filter_of_forall fun c _ f hf => ?_
  obtain ⟨hemail, hcriterion, -⟩ := mem_rowsOfMatch hf
  rw [hemail, hcriterion]

theorem flatMap_filter_map {α β : Type} {l : List α} {u : α → α} {p : α → Bool} {f g : α → List β}
    (h : ∀ a, (if p (u a) then f (u a) else []) = if p a then g a else []) :
    ((l.map u).filter p).flatMap f = (l.filter p).flatMap g := by
  induction l with
  | nil => rfl
  | cons a l ih =>
    have hhead := h a
    rw [List.map_cons, List.filter_cons, List.filter_cons]
    cases hp : p a with
    | true =>
      rw [hp] at hhead
      cases hpu : p (u a) with
      | true => simpa [hpu, ih] using hhead
      | false => simpa [hpu, ih] using hhead
    | false =>
      rw [hp] at hhead
      cases hpu : p (u a) with
      | true => simpa [hpu, ih] using hhead
      | false => simpa using ih

theorem matchedEmails_trashEmail (account : Option Uuid) (email : Uuid) (now : Int) (db : Db) :
    (db.updateEmails (·.id = email) fun e => { e with isTrashed := true, trashedAt := some now }).matchedEmails
        account = (db.matchedEmails account).filter fun f => !decide (f.emailId = email) := by
  rw [matchedEmails_eq, matchedEmails_eq, List.filter_flatMap]
  congr 1
  funext c
  rw [rowsOfMatch, rowsOfMatch, List.filter_flatMap]
  apply flatMap_filter_map
  intro m
  have hcriteria : (db.updateEmails (·.id = email) fun e =>
      { e with isTrashed := true, trashedAt := some now }).watchCriteria = db.watchCriteria := rfl
  rw [hcriteria]
  by_cases hm : m.id = email
  · have hnone : (rowsOfEmail db.watchCriteria c m).filter (fun f => !decide (f.emailId = email)) = [] := by
      rw [List.filter_eq_nil_iff]
      intro f hf
      simp [(mem_rowsOfEmail hf).1, hm]
    rw [hnone]
    simp [hm]
  · have hall : (rowsOfEmail db.watchCriteria c m).filter (fun f => !decide (f.emailId = email)) =
        rowsOfEmail db.watchCriteria c m := by
      rw [List.filter_eq_self]
      intro f hf
      simp [(mem_rowsOfEmail hf).1, hm]
    rw [hall]
    simp [hm]

/-- A store whose board shows the rows that a button does not take off it. -/
theorem triage_filters {t : Triage} (h : b.triage t w = (.ok (), w')) :
    w'.db.matchedEmails b.selectedAccount =
      (w.db.matchedEmails b.selectedAccount).filter fun f => !b.hits f t := by
  cases t with
  | clearFindings =>
    obtain ⟨count, w₁, hclear, hdone⟩ := bind_eq_ok.mp h
    cases hdone
    obtain ⟨db, hdb, rfl⟩ := statement_eq_ok hclear
    cases hdb
    exact matchedEmails_clearClassifications _ _ _
  | removeMatch email criterion =>
    rw [execute_eq_ok h]
    exact matchedEmails_deleteClassification _ _ _ _
  | trashEmail email =>
    obtain ⟨now, w₁, hnow, htrash⟩ := bind_eq_ok.mp h
    cases hnow
    obtain ⟨db, hdb, rfl⟩ := statement_eq_ok htrash
    rw [Db.trashEmail, Db.updateEmailById] at hdb
    split at hdb
    · cases hdb
      exact matchedEmails_trashEmail _ _ _ _
    · cases hdb

def crowdedBoard : Board where
  rows := crowdedDb.listMatches (Ranking.stable _) (some (.ending '1')) 10
  selectedAccount := some (.ending '1')
  selectedLabel := some "2"

def crowdedWorld : World := answering crowdedDb (Ranking.stable Prod.snd)

theorem triage_filters_crowded :
    (crowdedBoard.triage (.trashEmail (.ending '4')) crowdedWorld).2.db.matchedEmails
        crowdedBoard.selectedAccount =
      (crowdedWorld.db.matchedEmails crowdedBoard.selectedAccount).filter
        fun f => !crowdedBoard.hits f (.trashEmail (.ending '4')) :=
  triage_filters (t := .trashEmail (.ending '4')) rfl

theorem mem_of_mem_limit {α : Type} {n : Int} {l : List α} {a : α} (h : a ∈ limit n l) : a ∈ l := by
  rw [limit] at h
  split at h
  · exact h
  · exact List.mem_of_mem_take h

theorem exists_target {accepts : MatchedEmailWithReason → Bool} {label : String}
    (hlabel : b.selectedLabel = some label) (hshown : b.findingList accepts ≠ []) :
    ∃ f ∈ b.rows, f.criterionLabel = label ∧ b.targetCriterionId = some f.criterionId := by
  obtain ⟨f, hf⟩ := List.exists_mem_of_ne_nil _ hshown
  simp only [findingList, hlabel, Option.all_some, List.mem_filter, Bool.and_eq_true, decide_eq_true_eq] at hf
  cases hfind : b.rows.find? (·.criterionLabel = label) with
  | none =>
    have hnone := List.find?_eq_none.mp hfind f hf.1
    exact absurd hf.2.1 (by simpa using hnone)
  | some g =>
    refine ⟨g, List.mem_of_find?_eq_some hfind, by simpa using List.find?_some hfind, ?_⟩
    rw [targetCriterionId, hlabel, Option.bind_some, hfind, Option.map_some]

/-- The button that clears a category leaves none of its matches just when only one criterion with that
label has any: it goes by the first row of the label, not by the label. -/
theorem clearCategory_iff {accepts : MatchedEmailWithReason → Bool} {label : String} {ranking : MatchesDesc}
    {maxRows : Int} (hrows : b.rows = w.db.listMatches ranking b.selectedAccount maxRows)
    (hlabel : b.selectedLabel = some label) (hshown : b.findingList accepts ≠ [])
    (h : b.triage .clearFindings w = (.ok (), w')) :
    (∀ f ∈ w'.db.matchedEmails b.selectedAccount, f.criterionLabel ≠ label) ↔
      ∀ f ∈ w.db.matchedEmails b.selectedAccount, ∀ g ∈ w.db.matchedEmails b.selectedAccount,
        f.criterionLabel = label → g.criterionLabel = label → f.criterionId = g.criterionId := by
  obtain ⟨r, hr, hrlabel, htarget⟩ := exists_target hlabel hshown
  have hrow : r ∈ w.db.matchedEmails b.selectedAccount := by
    rw [hrows] at hr
    exact (Ranking.mem_order ranking).mp (mem_of_mem_limit hr)
  have hleft (f : MatchedEmailWithReason) : f ∈ w'.db.matchedEmails b.selectedAccount ↔
      f ∈ w.db.matchedEmails b.selectedAccount ∧ f.criterionId ≠ r.criterionId := by
    rw [triage_filters h, List.mem_filter, hits, htarget]
    simp
  constructor
  · intro hcleared f hf g hg hflabel hglabel
    have hown (k : MatchedEmailWithReason) (hk : k ∈ w.db.matchedEmails b.selectedAccount)
        (hklabel : k.criterionLabel = label) : k.criterionId = r.criterionId := by
      by_contra hother
      exact hcleared k ((hleft k).mpr ⟨hk, hother⟩) hklabel
    exact (hown f hf hflabel).trans (hown g hg hglabel).symm
  · intro hunique f hf hflabel
    obtain ⟨hbefore, hother⟩ := (hleft f).mp hf
    exact hother (hunique f hbefore r hrow hflabel hrlabel)

theorem clearCategory_iff_crowded :
    (∀ f ∈ (crowdedBoard.triage .clearFindings crowdedWorld).2.db.matchedEmails
        crowdedBoard.selectedAccount, f.criterionLabel ≠ "2") ↔
      ∀ f ∈ crowdedWorld.db.matchedEmails crowdedBoard.selectedAccount,
        ∀ g ∈ crowdedWorld.db.matchedEmails crowdedBoard.selectedAccount,
          f.criterionLabel = "2" → g.criterionLabel = "2" → f.criterionId = g.criterionId := by
  have hrows : crowdedBoard.rows =
      crowdedWorld.db.listMatches (Ranking.stable _) crowdedBoard.selectedAccount 10 := rfl
  have hshown : crowdedBoard.findingList (fun _ => true) ≠ [] := by decide
  exact clearCategory_iff hrows rfl hshown rfl

end Laws

end Board

end Fumiko.App
