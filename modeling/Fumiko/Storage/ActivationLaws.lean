import Fumiko.Storage.CapacityLaws
import Fumiko.Storage.FindingsLaws

namespace Fumiko.Storage

open Fumiko.Common Fumiko.Foundation Fumiko.Foundation.Action Fumiko.Program

namespace Db

variable {db : Db} {account : Option Uuid} {id : Uuid}

def activeCriterion (db : Db) (criterion : Uuid) : Bool :=
  db.watchCriteria.any fun w => decide (w.id = criterion) && w.isActive

def activeOnly (db : Db) : Db :=
  { db with classifications := db.classifications.filter fun c => db.activeCriterion c.criterionId }

structure RangesOverActive (db : Db) : Prop where
  classified : db.countClassifiedEmails = db.activeOnly.countClassifiedEmails
  findings : ∀ account,
    (db.mailboxStats account).findingsCount = (db.activeOnly.mailboxStats account).findingsCount
  lists : ∀ account (ranking : MatchesDesc) (n : Int), 0 ≤ n → n ≤ maxQueryLimit →
    ∃ ranking' : MatchesDesc,
      db.listMatches ranking account n = db.activeOnly.listMatches ranking' account n

def laterMatches (account : Option Uuid) (receivedAt : Int) (db : Db) : Nat :=
  db.classifications.countP fun c => db.emails.any fun m =>
    (decide (m.id = c.emailId) && (!m.isTrashed && inScope account m)) && decide (receivedAt < m.receivedAt)

/-- Every email in view that has matched a criterion has matched an active one, and a match of an
inactive criterion lies behind as many later ones of its account as a list can hold. -/
structure ShowsNoInactive (db : Db) : Prop where
  matched : ∀ e ∈ db.emails, e.isTrashed = false → db.classified e.id → db.activeOnly.classified e.id
  buried : ∀ e ∈ db.emails, e.isTrashed = false → ∀ c ∈ db.classifications, c.emailId = e.id →
    db.activeCriterion c.criterionId = false →
      maxQueryLimit ≤ db.laterMatches (some e.accountId) e.receivedAt

theorem WellFormed.activeOnly (h : db.WellFormed) : db.activeOnly.WellFormed :=
  h.deleteClassifications _

theorem classified_of_activeOnly (h : db.activeOnly.classified id) : db.classified id := by
  obtain ⟨c, hc, hid⟩ := classified_iff.mp h
  exact classified_iff.mpr ⟨c, (List.mem_filter.mp hc).1, hid⟩

section Counts

theorem WellFormed.countMatched_activeOnly (h : db.WellFormed) (p : EmailRow → Bool) :
    db.countMatched p = db.activeOnly.countMatched p ↔
      ∀ e ∈ db.emails, p e → db.classified e.id → db.activeOnly.classified e.id := by
  rw [h.countMatched, h.activeOnly.countMatched, eq_comm]
  refine (countP_eq_iff_of_imp ?_).trans ?_
  · intro e _ hactive
    rw [Bool.and_eq_true] at hactive ⊢
    exact ⟨hactive.1, classified_of_activeOnly hactive.2⟩
  · constructor
    · intro hcount e he hp hclassified
      exact (Bool.and_eq_true_iff.mp (hcount e he (by simp [hp, hclassified]))).2
    · intro hmatched e he hcounted
      rw [Bool.and_eq_true] at hcounted ⊢
      exact ⟨hcounted.1, hmatched e he hcounted.1 hcounted.2⟩

end Counts

section Lists

theorem flatMap_filter_of_forall {α β : Type} {l : List α} {f : α → List β} {p : α → Bool} {q : β → Bool}
    (h : ∀ a ∈ l, ∀ b ∈ f a, q b = p a) : (l.filter p).flatMap f = (l.flatMap f).filter q := by
  induction l with
  | nil => rfl
  | cons a l ih =>
    have hrest := ih fun b hb => h b (List.mem_cons_of_mem _ hb)
    have hhead := h a List.mem_cons_self
    rw [List.flatMap_cons, List.filter_append, ← hrest, List.filter_cons]
    cases hp : p a with
    | true =>
      rw [if_pos rfl, List.flatMap_cons, List.filter_eq_self.mpr fun b hb => (hhead b hb).trans hp]
    | false =>
      have hnone : (f a).filter q = [] := by
        simp only [List.filter_eq_nil_iff, Bool.not_eq_true]
        exact fun b hb => (hhead b hb).trans hp
      rw [if_neg Bool.false_ne_true, hnone, List.nil_append]

theorem countP_flatMap_of_forall {α β : Type} {l : List α} {f : α → List β} {p : α → Bool} {q : β → Bool}
    (h : ∀ a ∈ l, (f a).countP q = if p a then 1 else 0) : (l.flatMap f).countP q = l.countP p := by
  induction l with
  | nil => rfl
  | cons a l ih =>
    have hrest := ih fun b hb => h b (List.mem_cons_of_mem _ hb)
    rw [List.flatMap_cons, List.countP_append, List.countP_cons, h a List.mem_cons_self, hrest,
      Nat.add_comm]

theorem WellFormed.exists_row_iff (h : db.WellFormed) {t : Int} {criterion : Uuid} :
    (∃ r ∈ db.matchedEmails account, r.receivedAt = t ∧ r.criterionId = criterion) ↔
      ∃ c ∈ db.classifications, ∃ e ∈ db.emails, e.id = c.emailId ∧ e.isTrashed = false ∧
        inScope account e ∧ e.receivedAt = t ∧ c.criterionId = criterion := by
  simp only [matchedEmails, List.mem_flatMap, List.mem_filter, List.mem_map, Bool.and_eq_true,
    Bool.not_eq_true', decide_eq_true_eq]
  constructor
  · rintro ⟨r, ⟨c, hc, e, ⟨he, hemail, hshown, hscope⟩, w, -, rfl⟩, ht, hcriterion⟩
    exact ⟨c, hc, e, he, hemail, hshown, hscope, ht, hcriterion⟩
  · rintro ⟨c, hc, e, he, hemail, hshown, hscope, ht, hcriterion⟩
    obtain ⟨w, hw, hwatch⟩ := h.classificationsCriterionFk c hc
    exact ⟨_, ⟨c, hc, e, ⟨he, hemail, hshown, hscope⟩, w, ⟨hw, hwatch⟩, rfl⟩, ht, hcriterion⟩

theorem matchedEmails_activeOnly : db.activeOnly.matchedEmails account =
    (db.matchedEmails account).filter fun r => db.activeCriterion r.criterionId := by
  refine flatMap_filter_of_forall fun c _ r hr => ?_
  obtain ⟨m, -, hrow⟩ := List.mem_flatMap.mp hr
  obtain ⟨w, -, rfl⟩ := List.mem_map.mp hrow
  rfl

theorem WellFormed.filter_emails (h : db.WellFormed) {e : EmailRow} (he : e ∈ db.emails)
    (p : EmailRow → Bool) :
    db.emails.filter (fun m => decide (m.id = e.id) && p m) = if p e then [e] else [] := by
  have hfound := filter_eq_singleton h.emailsPk he
  rw [← List.filter_filter, List.filter_comm, hfound, List.filter_cons, List.filter_nil]

theorem WellFormed.countP_matchedEmails (h : db.WellFormed) (t : Int) :
    (db.matchedEmails account).countP (fun r => decide (t < r.receivedAt)) =
      db.laterMatches account t := by
  refine countP_flatMap_of_forall fun c hc => ?_
  obtain ⟨e, he, hemail⟩ := h.classificationsEmailFk c hc
  obtain ⟨w, hw, hcriterion⟩ := h.classificationsCriterionFk c hc
  have hcriteria := filter_eq_singleton h.criteriaPk hw
  rw [← hemail, ← hcriterion, hcriteria, ← List.any_filter, h.filter_emails he]
  cases hscope : !e.isTrashed && inScope account e with
  | true => simp [List.countP_cons]
  | false => rfl

theorem inScope_own (e : EmailRow) : inScope (some e.accountId) e := decide_eq_true rfl

theorem laterMatches_le (db : Db) (t : Int) (scope : Uuid) :
    db.laterMatches (some scope) t ≤ db.laterMatches none t := by
  refine List.countP_mono_left fun c _ hlater => ?_
  obtain ⟨m, hm, hshown⟩ := List.any_eq_true.mp hlater
  refine List.any_eq_true.mpr ⟨m, hm, ?_⟩
  simp only [Bool.and_eq_true] at hshown ⊢
  exact ⟨⟨hshown.1.1, hshown.1.2.1, rfl⟩, hshown.2⟩

theorem listMatches_of_limit (ranking : MatchesDesc) (account : Option Uuid) (n : Nat) (db : Db) :
    db.listMatches ranking account n = (ranking.order (db.matchedEmails account)).take n :=
  limit_natCast n _

theorem WellFormed.lists_iff (h : db.WellFormed) (account : Option Uuid) :
    (∀ (ranking : MatchesDesc) (n : Int), 0 ≤ n → n ≤ maxQueryLimit →
      ∃ ranking' : MatchesDesc,
        db.listMatches ranking account n = db.activeOnly.listMatches ranking' account n) ↔
      ∀ r ∈ db.matchedEmails account, db.activeCriterion r.criterionId = false →
        maxQueryLimit ≤ db.laterMatches account r.receivedAt := by
  have htop := Ranking.take_filter_iff MatchedEmailWithReason.receivedAt
    (db.matchedEmails account) (fun r => db.activeCriterion r.criterionId) 1000
  simp only [h.countP_matchedEmails, ← matchedEmails_activeOnly] at htop
  have hlimit (m : Nat) : maxQueryLimit ≤ m ↔ 1000 ≤ m := by
    rw [maxQueryLimit]
    omega
  simp only [hlimit, ← htop]
  constructor
  · intro hlists ranking k hk
    have hmax : (k : Int) ≤ maxQueryLimit := by
      rw [maxQueryLimit]
      omega
    simpa only [listMatches_of_limit] using hlists ranking k (Int.natCast_nonneg k) hmax
  · intro hlists ranking n hnonneg hmax
    obtain ⟨k, rfl⟩ := Int.eq_ofNat_of_zero_le hnonneg
    rw [maxQueryLimit] at hmax
    simpa only [listMatches_of_limit] using hlists ranking k (by omega)

end Lists

theorem WellFormed.rangesOverActive_iff (h : db.WellFormed) :
    db.RangesOverActive ↔ db.ShowsNoInactive := by
  constructor
  · intro hranges
    constructor
    · intro e he hshown
      exact (h.countMatched_activeOnly _).mp hranges.classified e he (by simp [hshown])
    · intro e he hshown c hc hemail hinactive
      obtain ⟨r, hr, hreceived, hcriterion⟩ := h.exists_row_iff.mpr
        ⟨c, hc, e, he, hemail.symm, hshown, inScope_own e, rfl, rfl⟩
      rw [← hreceived]
      rw [← hcriterion] at hinactive
      exact (h.lists_iff (some e.accountId)).mp (hranges.lists (some e.accountId)) r hr hinactive
  · intro hshows
    constructor
    · refine (h.countMatched_activeOnly _).mpr fun e he hshown => hshows.matched e he ?_
      simpa using hshown
    · intro account
      refine (h.countMatched_activeOnly _).mpr fun e he hcounted => hshows.matched e he ?_
      simp only [isUnread, Bool.and_eq_true, Bool.not_eq_true'] at hcounted
      exact hcounted.1.1.1
    · intro account
      refine (h.lists_iff account).mpr fun r hr hinactive => ?_
      obtain ⟨c, hc, e, he, hemail, hshown, hscope, hreceived, hcriterion⟩ :=
        h.exists_row_iff.mp ⟨r, hr, rfl, rfl⟩
      rw [← hcriterion] at hinactive
      have hburied := hshows.buried e he hshown c hc hemail.symm hinactive
      rw [hreceived] at hburied
      cases account with
      | none =>
        have hmore := laterMatches_le db r.receivedAt e.accountId
        omega
      | some a =>
        have howner : e.accountId = a := of_decide_eq_true hscope
        rwa [howner] at hburied

theorem readers_setCriterionActive {criterion : Uuid} {isActive : Bool} {db' : Db}
    (h : db.setCriterionActive criterion isActive = .ok ((), db')) :
    db'.countClassifiedEmails = db.countClassifiedEmails ∧
      ∀ account, db'.mailboxStats account = db.mailboxStats account ∧
        db'.matchedEmails account = db.matchedEmails account := by
  rw [Db.setCriterionActive] at h
  split at h
  · cases h
    refine ⟨rfl, fun account => ⟨rfl, ?_⟩⟩
    simp only [matchedEmails, updateCriteria, List.filter_map, List.map_map, Function.comp_def,
      apply_ite WatchCriterion.id, apply_ite WatchCriterion.label, ite_self]
  · cases h

end Db

section Runs

variable {w w' : World}

/-- Whatever the storage handle answers ranges over the matches of active criteria. -/
structure HonoursActivation (w : World) : Prop where
  classified : ∀ outside count w', countClassifiedEmails { w with outside } = (.ok count, w') →
    count = w.db.activeOnly.countClassifiedEmails
  findings : ∀ account outside stats w', getMailboxStats account { w with outside } = (.ok stats, w') →
    stats.findingsCount = (w.db.activeOnly.mailboxStats account).findingsCount
  all : ∀ ranking limit outside rows w',
    listCriteriaForAll ranking limit { w with outside } = (.ok rows, w') →
      ∃ ranking', rows = w.db.activeOnly.listMatches ranking' none limit
  account : ∀ ranking account limit outside rows w',
    listCriteriaForAccount ranking account limit { w with outside } = (.ok rows, w') →
      ∃ ranking', rows = w.db.activeOnly.listMatches ranking' (some account) limit

theorem validateLimit_ok {limit : Int} (hnonneg : 0 ≤ limit) (hmax : limit ≤ maxQueryLimit) :
    validateLimit limit = .ok () := by
  rw [validateLimit, if_neg (by omega), if_neg (by omega)]

theorem list_eq_ok {limit : Int} {f : Db → List MatchedEmailWithReason}
    {rows : List MatchedEmailWithReason}
    (h : (do Action.liftExcept (validateLimit limit); query f : Program StorageError _) w = (.ok rows, w')) :
    0 ≤ limit ∧ limit ≤ maxQueryLimit ∧ rows = f w.db := by
  obtain ⟨u, w₁, hvalid, hquery⟩ := bind_eq_ok.mp h
  rw [validateLimit] at hvalid
  split at hvalid
  · cases hvalid
  · split at hvalid
    · cases hvalid
    · cases hvalid
      exact ⟨by omega, by omega, query_eq_ok hquery⟩

theorem list_answered {limit : Int} (hnonneg : 0 ≤ limit) (hmax : limit ≤ maxQueryLimit)
    (f : Db → List MatchedEmailWithReason) (w : World) :
    ∃ w', (do Action.liftExcept (validateLimit limit); query f : Program StorageError _)
      { w with outside := {} } = (.ok (f w.db), w') := by
  rw [validateLimit_ok hnonneg hmax]
  exact ⟨_, rfl⟩

theorem honoursActivation_iff : HonoursActivation w ↔ w.db.RangesOverActive := by
  constructor
  · intro h
    constructor
    · exact h.classified {} _ _ rfl
    · intro account
      exact h.findings account {} _ _ rfl
    · intro account ranking n hnonneg hmax
      obtain ⟨w', hanswer⟩ := list_answered hnonneg hmax (Db.listMatches ranking account n) w
      cases account with
      | none => exact h.all ranking n {} _ w' hanswer
      | some a => exact h.account ranking a n {} _ w' hanswer
  · intro h
    constructor
    · intro outside count w' hcount
      exact (query_eq_ok hcount).trans h.classified
    · intro account outside stats w' hstats
      rw [query_eq_ok hstats]
      exact h.findings account
    · intro ranking limit outside rows w' hrows
      obtain ⟨hnonneg, hmax, rfl⟩ := list_eq_ok hrows
      exact h.lists none ranking limit hnonneg hmax
    · intro ranking account limit outside rows w' hrows
      obtain ⟨hnonneg, hmax, rfl⟩ := list_eq_ok hrows
      exact h.lists (some account) ranking limit hnonneg hmax

/-- The readers of a reached store honour the activation of the criteria just when nothing inactive is
left to show. -/
theorem reached_honoursActivation_iff (calls : List (Outside × Operation)) (start : World) :
    HonoursActivation (reached calls start) ↔ (reached calls start).db.ShowsNoInactive :=
  honoursActivation_iff.trans (reached_wellFormed calls start).rangesOverActive_iff

def describingCall : Outside × Operation :=
  ({ uuids := [.ending '3'], clock := [11] }, .addCriterion "Jobs" "Invitations to interviews")

def matchingCall : Outside × Operation :=
  ({ uuids := [.ending '4'], clock := [12] }, .saveClassification (.ending '2') (.ending '3') none)

def deactivatingCall : Outside × Operation := ({}, .setCriterionActive (.ending '3') false)

theorem inactive_match_counted : ¬∀ calls start, HonoursActivation (reached calls start) := by
  intro h
  let calls := [linkingCall, savingCall, describingCall, matchingCall, deactivatingCall]
  have hcount := (h calls blankWorld).classified {} 1 _ rfl
  have hnone : (reached calls blankWorld).db.activeOnly.countClassifiedEmails = 0 := rfl
  rw [hnone] at hcount
  cases hcount

end Runs

end Fumiko.Storage
