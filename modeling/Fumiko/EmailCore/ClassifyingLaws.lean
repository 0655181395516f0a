import Fumiko.EmailCore.Classifying
import Fumiko.EmailCore.PassLaws

namespace Fumiko.EmailCore

open Fumiko.Common Fumiko.Foundation Fumiko.Foundation.Action Fumiko.Net Fumiko.Program
  Fumiko.Storage

def Ambiguous : Except String (Option ClassificationMatch) → Prop
  | .ok (some c) => tier1AmbiguityThreshold ≤ c.confidence ∧ c.confidence < minConfidenceToAccept
  | _ => False

instance : DecidablePred Ambiguous := fun result =>
  match result with
  | .ok (some _) => inferInstanceAs (Decidable (_ ∧ _))
  | .ok none => inferInstanceAs (Decidable False)
  | .error _ => inferInstanceAs (Decidable False)

namespace Stage

variable {active : List WatchCriterion} {isInitialSync : Bool} {tier2Budget : Nat}
  {result : Except String (Option ClassificationMatch)} {criterion : WatchCriterion} {confidence : Rat}

structure Accepted (active : List WatchCriterion) (criterion : Uuid) (confidence : Rat) : Prop where
  confidence : minConfidenceToAccept ≤ confidence
  criterion : ∃ c ∈ active, c.id = criterion

def Sound (active : List WatchCriterion) (stage : Stage) : Prop :=
  ∀ criterion confidence, stage = .saving criterion confidence → Accepted active criterion.id confidence

theorem sound_counting : Sound active .counting := by
  intro _ _ h
  cases h

theorem sound_afterMatch {c : ClassificationMatch} (hconfidence : minConfidenceToAccept ≤ c.confidence) :
    Sound active (afterMatch active (some c)) := by
  intro criterion confidence h
  rw [afterMatch] at h
  split at h
  · cases h
  · next found hfind =>
    cases h
    exact ⟨hconfidence, _, List.mem_of_find?_eq_some hfind, rfl⟩

theorem sound_afterTier1 : Sound active (afterTier1 active isInitialSync tier2Budget result) := by
  rw [afterTier1.eq_def]
  split
  · split
    · next hconfidence => exact sound_afterMatch hconfidence
    · split
      · split
        · intro _ _ h
          cases h
        · exact sound_counting
      · exact sound_counting
  · exact sound_counting

theorem sound_afterFetch {result : Except ProviderError FullMessage} : Sound active (afterFetch result) := by
  rw [afterFetch.eq_def]
  split
  · exact sound_counting
  · split
    · exact sound_counting
    · intro _ _ h
      cases h

theorem sound_afterTier2 : Sound active (afterTier2 active result) := by
  rw [afterTier2.eq_def]
  split
  · split
    · next hconfidence => exact sound_afterMatch hconfidence
    · exact sound_counting
  · exact sound_counting

theorem afterMatch_cases (active : List WatchCriterion) (found : Option ClassificationMatch) :
    afterMatch active found = .counting ∨ afterMatch active found = .finished ∨
      ∃ criterion confidence, afterMatch active found = .saving criterion confidence := by
  rw [afterMatch.eq_def]
  split
  · exact Or.inl rfl
  · split
    · exact Or.inr (Or.inl rfl)
    · exact Or.inr (Or.inr ⟨_, _, rfl⟩)

theorem afterTier1_eq_fetching : afterTier1 active isInitialSync tier2Budget result = .fetching ↔
    Ambiguous result ∧ isInitialSync = false ∧ 0 < tier2Budget := by
  rw [afterTier1.eq_def]
  split
  · next c =>
    by_cases haccepted : minConfidenceToAccept ≤ c.confidence
    · rw [if_pos haccepted]
      have hmatch := afterMatch_cases active (some c)
      simp only [Ambiguous, Rat.not_lt.mpr haccepted, and_false, false_and, iff_false]
      rintro heq
      simp [heq] at hmatch
    · rw [if_neg haccepted]
      simp only [Ambiguous, Rat.not_le.mp haccepted, and_true, Bool.not_eq_true']
      by_cases hlooks : tier1AmbiguityThreshold ≤ c.confidence ∧ isInitialSync = false
      · rw [if_pos hlooks]
        by_cases hbudget : 0 < tier2Budget <;> simp [hlooks, hbudget]
      · rw [if_neg hlooks]
        simp only [reduceCtorEq, false_iff]
        exact fun h => hlooks ⟨h.1, h.2.1⟩
  · next hnone =>
    cases result with
    | error text => simp [Ambiguous]
    | ok found =>
      cases found with
      | none => simp [Ambiguous]
      | some c => exact absurd rfl (hnone c)

theorem afterTier1_ne_asking : afterTier1 active isInitialSync tier2Budget result ≠ .asking := by
  rw [afterTier1.eq_def]
  split
  · next c =>
    split
    · rcases afterMatch_cases active (some c) with h | h | ⟨_, _, h⟩ <;> simp [h]
    · split
      · split <;> simp
      · simp
  · simp

theorem afterFetch_ne_asking {result : Except ProviderError FullMessage} : afterFetch result ≠ .asking := by
  rw [afterFetch.eq_def]
  split
  · simp
  · split <;> simp

theorem afterTier2_ne_asking : afterTier2 active result ≠ .asking := by
  rw [afterTier2.eq_def]
  split
  · next c =>
    split
    · rcases afterMatch_cases active (some c) with h | h | ⟨_, _, h⟩ <;> simp [h]
    · simp
  · simp

def pending : Stage → Bool
  | .counting | .finished => false
  | _ => true

end Stage

section Invariant

variable {provider : EmailProvider} {accessToken : String} {isInitialSync : Bool}
  {active : List WatchCriterion} {total n : Nat} {s s' : Classifying} {t t' : ClassifyTask}
  {ts ts' : List ClassifyTask}

def asking (ts : List ClassifyTask) : List Nat := (ts.filter (·.stage = .asking)).map (·.index)

def pending (ts : List ClassifyTask) : List Nat := (ts.filter (·.stage.pending)).map (·.index)

def ambiguousCount (s : Classifying) : Nat := s.answers.countP fun a => Ambiguous a.2

/-- What holds of the counters and the live tasks at any moment of a pass over `n` emails. -/
structure Budgeted (isInitialSync : Bool) (active : List WatchCriterion) (n : Nat) (s : Classifying)
    (ts : List ClassifyTask) : Prop where
  budget : s.tier2Budget + s.fetches.length = Config.maxTier2FetchesPerSync
  fetches : s.fetches.length =
    if isInitialSync then 0 else min Config.maxTier2FetchesPerSync (ambiguousCount s)
  asked : (asking ts ++ s.answers.map Prod.fst).Perm (List.range n)
  once : (pending ts ++ s.saves.map SavedMatch.index).Nodup
  accepted : ∀ saved ∈ s.saves, Stage.Accepted active saved.criterion saved.confidence
  sound : ∀ t ∈ ts, t.stage.Sound active

theorem Budgeted.perm (hperm : ts.Perm ts') (h : Budgeted isInitialSync active n s ts) :
    Budgeted isInitialSync active n s ts' where
  budget := h.budget
  fetches := h.fetches
  asked := (((hperm.filter _).map _).append_right _).symm.trans h.asked
  once := ((((hperm.filter _).map _).append_right _).nodup_iff).mp h.once
  accepted := h.accepted
  sound t ht := h.sound t (hperm.mem_iff.mpr ht)

theorem asking_cons {i : Nat} {email : NewEmail} {stage : Stage} (h : stage ≠ .asking) :
    asking (⟨i, email, stage⟩ :: ts) = asking ts := by
  simp [asking, h]

theorem pending_cons (i : Nat) (email : NewEmail) (stage : Stage) (ts : List ClassifyTask) :
    pending (⟨i, email, stage⟩ :: ts) = if stage.pending then i :: pending ts else pending ts := by
  cases h : stage.pending <;> simp [pending, h]

theorem pending_sublist {i : Nat} {email : NewEmail} {stage stage' : Stage}
    (h : stage'.pending → stage.pending) :
    (pending (⟨i, email, stage'⟩ :: ts)).Sublist (pending (⟨i, email, stage⟩ :: ts)) := by
  rw [pending_cons, pending_cons]
  cases hstage' : stage'.pending with
  | true => simp [h hstage']
  | false => cases stage.pending <;> simp

theorem sound_cons (hsound : t'.stage.Sound active) (h : ∀ u ∈ t :: ts, u.stage.Sound active) :
    ∀ u ∈ t' :: ts, u.stage.Sound active := by
  intro u hu
  cases hu with
  | head => exact hsound
  | tail _ hu => exact h u (List.mem_cons_of_mem _ hu)

theorem Budgeted.quiet {i : Nat} {email : NewEmail} {stage stage' : Stage} (w : World) (counted : Nat)
    (h : Budgeted isInitialSync active n s (⟨i, email, stage⟩ :: ts))
    (hasking : stage ≠ .asking) (hasking' : stage' ≠ .asking)
    (hpending : stage'.pending → stage.pending) (hsound : stage'.Sound active) :
    Budgeted isInitialSync active n { s with world := w, completedCount := counted }
      (⟨i, email, stage'⟩ :: ts) where
  budget := h.budget
  fetches := h.fetches
  asked := by
    rw [asking_cons hasking', ← asking_cons hasking]
    exact h.asked
  once := h.once.sublist ((pending_sublist hpending).append_right _)
  accepted := h.accepted
  sound := sound_cons hsound h.sound

theorem Budgeted.answer {i : Nat} {email : NewEmail} {result : Except String (Option ClassificationMatch)}
    (w : World) (h : Budgeted isInitialSync active n s (⟨i, email, .asking⟩ :: ts)) :
    Budgeted isInitialSync active n
      (s.answer i result (.afterTier1 active isInitialSync s.tier2Budget result) w)
      (⟨i, email, .afterTier1 active isInitialSync s.tier2Budget result⟩ :: ts) := by
  have hbudget := h.budget
  have hfetches := h.fetches
  have hcount : ambiguousCount (s.answer i result (.afterTier1 active isInitialSync s.tier2Budget result) w) =
      ambiguousCount s + if Ambiguous result then 1 else 0 := by
    simp [ambiguousCount, Classifying.answer, List.countP_cons]
  have hasked := h.asked
  refine ⟨?_, ?_, ?_, h.once.sublist ((pending_sublist fun _ => rfl).append_right _), h.accepted,
    sound_cons Stage.sound_afterTier1 h.sound⟩
  · simp only [Classifying.answer]
    split
    · next hfetching =>
      have hleft := (Stage.afterTier1_eq_fetching.mp hfetching).2.2
      simp only [List.length_cons]
      omega
    · exact hbudget
  · rw [hcount]
    simp only [Classifying.answer, Stage.afterTier1_eq_fetching]
    cases isInitialSync with
    | true => simpa using hfetches
    | false =>
      by_cases hambiguous : Ambiguous result
      · by_cases hleft : 0 < s.tier2Budget
        · simp only [hambiguous, hleft, and_self, if_true, List.length_cons] at hfetches ⊢
          simp only [Bool.false_eq_true, if_false] at hfetches ⊢
          omega
        · simp only [hambiguous, hleft, and_false, if_false, if_true, Bool.false_eq_true] at hfetches ⊢
          omega
      · simpa [hambiguous] using hfetches
  · rw [asking_cons Stage.afterTier1_ne_asking]
    simp only [asking, List.filter_cons, decide_true, if_true, List.map_cons] at hasked
    simp only [Classifying.answer, List.map_cons]
    exact List.perm_middle.trans hasked

theorem Budgeted.save {i : Nat} {email : NewEmail} {criterion : WatchCriterion} {confidence : Rat}
    (h : Budgeted isInitialSync active n s (⟨i, email, .saving criterion confidence⟩ :: ts)) :
    Budgeted isInitialSync active n (s.save i email.emailId criterion confidence)
      (⟨i, email, .counting⟩ :: ts) where
  budget := h.budget
  fetches := h.fetches
  asked := by
    have hasked := h.asked
    rw [asking_cons (by simp)] at hasked ⊢
    exact hasked
  once := by
    have honce := h.once
    rw [pending_cons] at honce ⊢
    exact List.perm_middle.nodup_iff.mpr honce
  accepted := by
    intro saved hsaved
    cases hsaved with
    | head => exact h.sound _ List.mem_cons_self _ _ rfl
    | tail _ hsaved => exact h.accepted saved hsaved
  sound := sound_cons Stage.sound_counting h.sound

theorem budgeted_kept : Window.Kept (classifyRules provider accessToken isInitialSync active total)
    (Budgeted isInitialSync active n) where
  perm hperm h := h.perm hperm
  surroundings hmove h := by
    obtain ⟨w, rfl⟩ := hmove
    exact ⟨h.budget, h.fetches, h.asked, h.once, h.accepted, h.sound⟩
  leave := fun {s t ts} hfinished h => by
    obtain ⟨i, email, stage⟩ := t
    cases hfinished
    have hasking : asking (⟨i, email, .finished⟩ :: ts) = asking ts := asking_cons (by simp)
    refine ⟨h.budget, h.fetches, ?_, ?_, h.accepted, fun u hu => h.sound u (List.mem_cons_of_mem _ hu)⟩
    · rw [← hasking]
      exact h.asked
    · have honce := h.once
      rw [pending_cons] at honce
      exact honce
  step hstep h := by
    cases hstep with
    | answered => exact h.answer _
    | fetched => exact h.quiet _ _ (by simp) Stage.afterFetch_ne_asking (fun _ => rfl) Stage.sound_afterFetch
    | read => exact h.quiet _ _ (by simp) Stage.afterTier2_ne_asking (fun _ => rfl) Stage.sound_afterTier2
    | saved => exact h.save
    | counted => exact h.quiet _ _ (by simp) (by simp) (by simp [Stage.pending]) (by intro _ _ h; cases h)

theorem mapIdx_index (emails : List NewEmail) :
    (classifyTasks emails).map ClassifyTask.index = List.range emails.length :=
  List.ext_getElem (by simp [classifyTasks]) fun i _ _ => by simp [classifyTasks]

theorem stage_of_mem {emails : List NewEmail} (h : t ∈ classifyTasks emails) : t.stage = .asking := by
  obtain ⟨i, hi, rfl⟩ := List.mem_mapIdx.mp h
  rfl

theorem budgeted_start (w : World) (emails : List NewEmail) :
    Budgeted isInitialSync active emails.length (.start w) (classifyTasks emails) := by
  have hall {p : ClassifyTask → Bool} (hp : ∀ t ∈ classifyTasks emails, p t) :
      ((classifyTasks emails).filter p).map (·.index) = List.range emails.length := by
    rw [List.filter_eq_self.mpr hp, mapIdx_index]
  have hasking : asking (classifyTasks emails) = List.range emails.length :=
    hall fun t ht => by simp [stage_of_mem ht]
  have hpending : pending (classifyTasks emails) = List.range emails.length :=
    hall fun t ht => by simp [stage_of_mem ht, Stage.pending]
  constructor
  · rfl
  · cases isInitialSync <;> simp [Classifying.start, ambiguousCount]
  · simp [Classifying.start, hasking]
  · simpa [Classifying.start, hpending] using List.nodup_range
  · simp [Classifying.start]
  · intro t ht _ _ hsaving
    simp [stage_of_mem ht] at hsaving

end Invariant

section Reads

variable {emails : List NewEmail} {active : List WatchCriterion} {w w' : World}

theorem selectCriteria_eq_some (h : selectCriteria emails w = (.ok (some active), w')) :
    active = w.db.listActiveCriteria := by
  rw [selectCriteria] at h
  split at h
  · cases h
  · obtain ⟨outcome, w₁, hlist, h⟩ := attempt_bind h
    cases outcome with
    | error e => cases h
    | ok rows =>
      have hrows : rows = w.db.listActiveCriteria := by
        rw [listActiveCriteria, query_run] at hlist
        split at hlist
        · cases hlist
        · cases hlist
          rfl
      dsimp only at h
      split at h
      · cases h
      · obtain ⟨model, w₂, hmodel, h⟩ := bind_eq_ok.mp h
        cases model with
        | none => cases h
        | some model =>
          dsimp only at h
          split at h
          · cases h
          · obtain ⟨backend, w₃, hbackend, h⟩ := bind_eq_ok.mp h
            cases h
            exact hrows

def classifySelected (provider : EmailProvider) (accessToken : String) (isInitialSync : Bool)
    (emails : List NewEmail) : Option (List WatchCriterion) → Program SyncError Unit
  | none => pure ()
  | some active => do
    log (.progress 0 emails.length .classifying)
    let order ← completionOrder emails
    classifyAll provider accessToken isInitialSync active emails.length order
      Config.maxTier2FetchesPerSync 0

theorem classifyNewEmails_eq (provider : EmailProvider) (accessToken : String) (isInitialSync : Bool)
    (emails : List NewEmail) : classifyNewEmails provider accessToken isInitialSync emails =
      selectCriteria emails >>= classifySelected provider accessToken isInitialSync emails := by
  rw [classifyNewEmails, selectCriteria]
  split
  · rfl
  · rw [bind_assoc]
    congr 1
    funext outcome
    cases outcome with
    | error e => rfl
    | ok active =>
      dsimp only
      split
      · rfl
      · rw [bind_assoc]
        congr 1
        funext model
        cases model with
        | none => rfl
        | some model =>
          dsimp only
          split
          · rfl
          · rw [bind_assoc]
            rfl

end Reads

section Sequential

variable {provider : EmailProvider} {accessToken : String} {isInitialSync : Bool}
  {active : List WatchCriterion} {total i : Nat} {email : NewEmail} {s : Classifying} {w : World}

structure Through (total : Nat) (counted : Bool) (w : World) (s s' : Classifying) : Prop where
  world : s'.world =
    if counted then w.record (.progress (s.completedCount + 1) total .classifying) else w
  tier2Budget : s'.tier2Budget = s.tier2Budget
  completedCount : s'.completedCount = if counted then s.completedCount + 1 else s.completedCount

abbrev TaskAlone (provider : EmailProvider) (accessToken : String) (isInitialSync : Bool)
    (active : List WatchCriterion) (total : Nat) : ClassifyTask × Classifying → ClassifyTask × Classifying → Prop :=
  Window.Alone (classifyRules provider accessToken isInitialSync active total)

theorem alone_one {t t' : ClassifyTask} {s s' : Classifying}
    (h : ClassifyStep provider accessToken isInitialSync active total t s t' s') :
    TaskAlone provider accessToken isInitialSync active total (t, s) (t', s') := .single h

theorem alone_counting (s : Classifying) : ∃ s',
    TaskAlone provider accessToken isInitialSync active total (⟨i, email, .counting⟩, s)
      (⟨i, email, .finished⟩, s') ∧ Through total true s.world s s' :=
  ⟨_, alone_one .counted, rfl, rfl, rfl⟩

theorem alone_afterMatch {found : Option ClassificationMatch} {counted : Bool}
    (h : recordMatch active email found s.world = (.ok counted, w)) : ∃ s',
    TaskAlone provider accessToken isInitialSync active total
      (⟨i, email, .afterMatch active found⟩, s) (⟨i, email, .finished⟩, s') ∧ Through total counted w s s' := by
  cases found with
  | none =>
    cases h
    exact alone_counting s
  | some c =>
    rw [recordMatch] at h
    rw [Stage.afterMatch]
    cases hfind : active.find? (·.label = c.criterionLabel) with
    | none =>
      rw [hfind] at h
      cases h
      exact ⟨s, .refl, rfl, rfl, rfl⟩
    | some criterion =>
      rw [hfind] at h
      obtain ⟨_, w₁, hsave, hpure⟩ := bind_eq_ok.mp h
      cases hsave
      cases hpure
      refine ⟨_, (alone_one .saved).trans (alone_one .counted), rfl, rfl, rfl⟩

variable {found : Option ClassificationMatch} {tier2Budget budget : Nat} {w₁ w₂ : World} {counted : Bool}

theorem classifyOne_eq_ok
    (h : classifyOne provider accessToken isInitialSync (criteriaOf active) email tier2Budget w =
      (.ok (found, budget), w₂)) :
    ∃ result w₁, askClassifier (·.classify email.subject email.sender email.snippet (criteriaOf active)) w =
        (.ok result, w₁) ∧
      ((Stage.afterTier1 active isInitialSync tier2Budget result = .afterMatch active found ∧
          budget = tier2Budget ∧ w₂ = w₁) ∨
        (Stage.afterTier1 active isInitialSync tier2Budget result = .fetching ∧ budget = tier2Budget - 1 ∧
          tier2Match provider accessToken (criteriaOf active) email w₁ = (.ok found, w₂))) := by
  obtain ⟨result, w₁, hask, h⟩ := bind_eq_ok.mp h
  refine ⟨result, w₁, hask, ?_⟩
  cases result with
  | error text =>
    cases h
    exact Or.inl ⟨rfl, rfl, rfl⟩
  | ok answer =>
    cases answer with
    | none =>
      cases h
      exact Or.inl ⟨rfl, rfl, rfl⟩
    | some c =>
      dsimp only at h
      rw [Stage.afterTier1]
      split at h
      · next haccepted =>
        cases h
        rw [if_pos haccepted]
        exact Or.inl ⟨rfl, rfl, rfl⟩
      · next haccepted =>
        rw [if_neg haccepted]
        split at h
        · next hlooks =>
          rw [if_pos hlooks]
          split at h
          · next hleft =>
            rw [if_pos hleft]
            obtain ⟨found, w₃, hmatch, hpure⟩ := bind_eq_ok.mp h
            cases hpure
            exact Or.inr ⟨rfl, rfl, hmatch⟩
          · next hleft =>
            cases h
            rw [if_neg hleft]
            exact Or.inl ⟨rfl, rfl, rfl⟩
        · next hlooks =>
          cases h
          rw [if_neg hlooks]
          exact Or.inl ⟨rfl, rfl, rfl⟩

theorem tier2Match_eq_ok
    (h : tier2Match provider accessToken (criteriaOf active) email w = (.ok found, w₂)) :
    ∃ outcome w₁, fetchForTier2 provider accessToken email w = (.ok outcome, w₁) ∧
      ((Stage.afterFetch outcome = .afterMatch active found ∧ w₂ = w₁) ∨
        ∃ body result, Stage.afterFetch outcome = .reading body ∧
          askClassifier (·.classifyWithBody email.subject email.sender body (criteriaOf active)) w₁ =
            (.ok result, w₂) ∧
          Stage.afterTier2 active result = .afterMatch active found) := by
  obtain ⟨outcome, w₁, hfetch, h⟩ := attempt_bind (bind_log h)
  have hcall : fetchForTier2 provider accessToken email w =
      (Action.attempt (provider.fetchFullMessage accessToken email.providerMessageId) :
        Program SyncError (Except ProviderError FullMessage))
        (w.record (.fetchedFullMessage email.providerMessageId)) := rfl
  rw [attempt_run, hfetch] at hcall
  refine ⟨outcome, w₁, hcall, ?_⟩
  cases outcome with
  | error e =>
    cases h
    exact Or.inl ⟨rfl, rfl⟩
  | ok message =>
    cases hbody : (message.bodyText <|> message.bodyHtml) with
    | none =>
      simp only [hbody] at h
      cases h
      refine Or.inl ⟨?_, rfl⟩
      simp only [Stage.afterFetch, hbody, Stage.afterMatch]
    | some body =>
      simp only [hbody] at h
      obtain ⟨result, w₃, hask, h⟩ := bind_eq_ok.mp h
      refine Or.inr ⟨body, result, by simp only [Stage.afterFetch, hbody], ?_⟩
      cases result with
      | error text =>
        cases h
        exact ⟨hask, rfl⟩
      | ok answer =>
        cases answer with
        | none =>
          cases h
          exact ⟨hask, rfl⟩
        | some c =>
          cases h
          refine ⟨hask, ?_⟩
          rw [Stage.afterTier2]
          split <;> rfl

theorem alone_classify
    (hclassify : classifyOne provider accessToken isInitialSync (criteriaOf active) email s.tier2Budget
      s.world = (.ok (found, budget), w₁))
    (hrecord : recordMatch active email found w₁ = (.ok counted, w₂)) : ∃ s',
    TaskAlone provider accessToken isInitialSync active total (⟨i, email, .asking⟩, s)
      (⟨i, email, .finished⟩, s') ∧ Through total counted w₂ { s with tier2Budget := budget } s' := by
  obtain ⟨result, w, hask, h⟩ := classifyOne_eq_ok hclassify
  have hanswered : TaskAlone provider accessToken isInitialSync active total (⟨i, email, .asking⟩, s)
      (⟨i, email, .afterTier1 active isInitialSync s.tier2Budget result⟩,
        s.answer i result (.afterTier1 active isInitialSync s.tier2Budget result) w) :=
    alone_one (.answered hask)
  cases h with
  | inl hdone =>
    obtain ⟨hstage, rfl, rfl⟩ := hdone
    rw [hstage] at hanswered
    have hnotFetching : Stage.afterMatch active found ≠ .fetching := by
      rcases Stage.afterMatch_cases active found with h | h | ⟨_, _, h⟩ <;> simp [h]
    obtain ⟨s', hsaved, hthrough⟩ := alone_afterMatch (s := s.answer i result (.afterMatch active found) w₁) hrecord
    refine ⟨s', hanswered.trans hsaved, hthrough.world, ?_, hthrough.completedCount⟩
    rw [hthrough.tier2Budget, Classifying.answer, if_neg hnotFetching]
  | inr hlooks =>
    obtain ⟨hstage, rfl, hmatch⟩ := hlooks
    rw [hstage] at hanswered
    obtain ⟨outcome, w', hfetch, hread⟩ := tier2Match_eq_ok hmatch
    have hfetched : TaskAlone provider accessToken isInitialSync active total
        (⟨i, email, .fetching⟩, s.answer i result .fetching w)
        (⟨i, email, .afterFetch outcome⟩, { s.answer i result .fetching w with world := w' }) :=
      alone_one (.fetched hfetch)
    cases hread with
    | inl hdone =>
      obtain ⟨hstage, rfl⟩ := hdone
      rw [hstage] at hfetched
      obtain ⟨s', hsaved, hthrough⟩ := alone_afterMatch
        (s := { s.answer i result .fetching w with world := w₁ }) hrecord
      exact ⟨s', (hanswered.trans hfetched).trans hsaved, hthrough.world, hthrough.tier2Budget,
        hthrough.completedCount⟩
    | inr hbody =>
      obtain ⟨body, answer, hreading, hask, hstage⟩ := hbody
      rw [hreading] at hfetched
      have hanswered₂ : TaskAlone provider accessToken isInitialSync active total
          (⟨i, email, .reading body⟩, { s.answer i result .fetching w with world := w' })
          (⟨i, email, .afterTier2 active answer⟩, { s.answer i result .fetching w with world := w₁ }) :=
        alone_one (.read hask)
      rw [hstage] at hanswered₂
      obtain ⟨s', hsaved, hthrough⟩ := alone_afterMatch
        (s := { s.answer i result .fetching w with world := w₁ }) hrecord
      exact ⟨s', ((hanswered.trans hfetched).trans hanswered₂).trans hsaved, hthrough.world,
        hthrough.tier2Budget, hthrough.completedCount⟩

theorem run_classifyAll {ts : List ClassifyTask} {emails : List NewEmail} {w' : World}
    (hasking : ∀ t ∈ ts, t.stage = .asking) (hemails : ts.map ClassifyTask.email = emails)
    (h : classifyAll provider accessToken isInitialSync active total emails s.tier2Budget
      s.completedCount s.world = (.ok (), w')) : ∃ s',
    Window.Run (classifyRules provider accessToken isInitialSync active total) concurrency
      ⟨s, ts, []⟩ ⟨s', [], []⟩ ∧ s'.world = w' := by
  induction ts generalizing s emails with
  | nil =>
    subst hemails
    cases h
    exact ⟨s, .refl, rfl⟩
  | cons t ts ih =>
    obtain ⟨index, email, stage⟩ := t
    subst hemails
    have hstage : stage = .asking := hasking _ List.mem_cons_self
    subst hstage
    obtain ⟨⟨found, budget⟩, w₁, hclassify, h⟩ := bind_eq_ok.mp h
    obtain ⟨counted, w₂, hrecord, h⟩ := bind_eq_ok.mp h
    have hone : ∃ s₁, TaskAlone provider accessToken isInitialSync active total
        (⟨index, email, .asking⟩, s) (⟨index, email, .finished⟩, s₁) ∧
        Through total counted w₂ { s with tier2Budget := budget } s₁ :=
      alone_classify hclassify hrecord
    obtain ⟨s₁, halone, hthrough⟩ := hone
    have hfirst : Window.Run (classifyRules provider accessToken isInitialSync active total) concurrency
        ⟨s, ⟨index, email, .asking⟩ :: ts, []⟩ ⟨s₁, ts, []⟩ :=
      Window.run_one (by decide) halone rfl
    have hrest : classifyAll provider accessToken isInitialSync active total
        (ts.map ClassifyTask.email) s₁.tier2Budget s₁.completedCount s₁.world = (.ok (), w') := by
      rw [hthrough.world, hthrough.tier2Budget, hthrough.completedCount]
      cases counted <;> exact h
    obtain ⟨s', hrun, hworld⟩ := ih (fun t ht => hasking t (List.mem_cons_of_mem _ ht)) rfl hrest
    exact ⟨s', hfirst.trans hrun, hworld⟩

theorem classifyPass_of_inTurn {emails : List NewEmail} {w' : World}
    (hturn : ∀ active w₁, selectCriteria emails w = (.ok (some active), w₁) → w₁.outside.completions = [])
    (h : classifyNewEmails provider accessToken isInitialSync emails w = (.ok (), w')) :
    ∃ s, ClassifyPass provider accessToken isInitialSync emails w s ∧ s.world = w' := by
  rw [classifyNewEmails_eq] at h
  obtain ⟨selected, w₁, hselect, h⟩ := bind_eq_ok.mp h
  cases selected with
  | none =>
    cases h
    exact ⟨_, .skipped hselect, rfl⟩
  | some active =>
    have hnil := hturn active w₁ hselect
    have horder : completionOrder emails (w₁.record (.progress 0 emails.length .classifying)) =
        ((.ok emails : Except SyncError _), w₁.record (.progress 0 emails.length .classifying)) := by
      simp only [completionOrder, Action.step_run, World.record, hnil, List.headD_nil, List.tail_nil,
        arrange_nil]
      rw [← hnil]
    obtain ⟨order, w₂, hcompletion, h⟩ := bind_eq_ok.mp (bind_log h)
    rw [horder] at hcompletion
    cases hcompletion
    have hemails : (classifyTasks emails).map ClassifyTask.email = emails :=
      List.ext_getElem (by simp [classifyTasks]) fun i _ _ => by simp [classifyTasks]
    obtain ⟨s, hrun, hworld⟩ := run_classifyAll (s := .start (w₁.record _)) (fun _ => stage_of_mem) hemails h
    exact ⟨s, .completed hselect hrun, hworld⟩

end Sequential

section Turns

variable {provider : EmailProvider} {accessToken : String} {isInitialSync : Bool}
  {active : List WatchCriterion} {total : Nat}
  {f : ClassifierMoment → Except String (Option ClassificationMatch)} {w w' : World}
  {result : Except String (Option ClassificationMatch)}

def reply (f : ClassifierMoment → Except String (Option ClassificationMatch)) (w : World) :
    Except String (Option ClassificationMatch) :=
  (w.outside.classifier.head?).elim (.error "connection closed") f

theorem askClassifier_run (f : ClassifierMoment → Except String (Option ClassificationMatch)) (w : World) :
    askClassifier f w = (.ok (reply f w), (askClassifier f w).2) := by
  have hnext : (nextClassifier w : Except SyncError _ × World) = (.ok w.outside.classifier.head?,
      { w with outside := { w.outside with classifier := w.outside.classifier.tail } }) := rfl
  rw [askClassifier, bind_run, hnext, reply]
  cases w.outside.classifier.head? <;> rfl

theorem askClassifier_eq_ok (h : askClassifier f w = (.ok result, w')) : result = reply f w := by
  rw [askClassifier_run] at h
  cases h
  rfl

def ClassifyTask.turn (provider : EmailProvider) (accessToken : String) (isInitialSync : Bool)
    (active : List WatchCriterion) (total : Nat) (t : ClassifyTask) (s : Classifying) :
    ClassifyTask × Classifying :=
  let email := t.email
  match t.stage with
  | .asking =>
    let classify (moment : ClassifierMoment) :=
      moment.classify email.subject email.sender email.snippet (criteriaOf active)
    let next := Stage.afterTier1 active isInitialSync s.tier2Budget (reply classify s.world)
    ({ t with stage := next },
      s.answer t.index (reply classify s.world) next (askClassifier classify s.world).2)
  | .fetching =>
    let (result, w) := provider.fetchFullMessage accessToken email.providerMessageId
      (s.world.record (.fetchedFullMessage email.providerMessageId))
    ({ t with stage := .afterFetch result }, { s with world := w })
  | .reading body =>
    let classifyWithBody (moment : ClassifierMoment) :=
      moment.classifyWithBody email.subject email.sender body (criteriaOf active)
    ({ t with stage := .afterTier2 active (reply classifyWithBody s.world) },
      { s with world := (askClassifier classifyWithBody s.world).2 })
  | .saving criterion confidence =>
    ({ t with stage := .counting }, s.save t.index email.emailId criterion confidence)
  | .counting => ({ t with stage := .finished }, s.count total)
  | .finished => (t, s)

theorem turn_step (t : ClassifyTask) (s : Classifying) :
    (classifyRules provider accessToken isInitialSync active total).step t s
      (t.turn provider accessToken isInitialSync active total s).1
      (t.turn provider accessToken isInitialSync active total s).2 ∨
    t.turn provider accessToken isInitialSync active total s = (t, s) := by
  obtain ⟨index, email, stage⟩ := t
  cases stage with
  | asking => exact Or.inl (.answered (askClassifier_run _ _))
  | fetching => exact Or.inl (.fetched rfl)
  | reading body => exact Or.inl (.read (askClassifier_run _ _))
  | saving criterion confidence => exact Or.inl .saved
  | counting => exact Or.inl .counted
  | finished => exact Or.inr rfl

theorem run_of_schedule (provider : EmailProvider) (accessToken : String) (isInitialSync : Bool)
    (active : List WatchCriterion) (emails : List NewEmail) (w : World) (schedule : List Nat)
    (hlimit : emails.length ≤ concurrency) {s : Classifying} {ts : List ClassifyTask}
    (hturns : Window.turns (ClassifyTask.turn provider accessToken isInitialSync active emails.length)
      schedule (.start w) (classifyTasks emails).reverse = (s, ts))
    (hfinished : ts.all (·.stage = .finished)) :
    Window.Run (classifyRules provider accessToken isInitialSync active emails.length) concurrency
      ⟨.start w, classifyTasks emails, []⟩ ⟨s, [], []⟩ := by
  have hlimit' : (classifyTasks emails).length ≤ concurrency := by simpa [classifyTasks] using hlimit
  have hfinished' : ∀ t ∈ ts, t.stage = .finished := by simpa using hfinished
  have hrun := Window.run_schedule turn_step hlimit' schedule (by rw [hturns]; exact hfinished')
  rwa [hturns] at hrun

end Turns

end Fumiko.EmailCore
