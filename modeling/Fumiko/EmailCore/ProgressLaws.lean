import Fumiko.EmailCore.ClassifyingLaws

namespace Fumiko.EmailCore

open Fumiko.Common Fumiko.Foundation Fumiko.Foundation.Action Fumiko.Net Fumiko.Program
  Fumiko.Storage

def Unlisted (active : List WatchCriterion) : Except String (Option ClassificationMatch) → Prop
  | .ok (some found) => minConfidenceToAccept ≤ found.confidence ∧
      ∀ criterion ∈ active, criterion.label ≠ found.criterionLabel
  | _ => False

instance (active : List WatchCriterion) : DecidablePred (Unlisted active) := fun result =>
  match result with
  | .ok (some _) => inferInstanceAs (Decidable (_ ∧ _))
  | .ok none => inferInstanceAs (Decidable False)
  | .error _ => inferInstanceAs (Decidable False)

abbrev ClassifyMove := Window.Move Classifying ClassifyTask

namespace ClassifyMove

/-- The classifier answers the call the task waits for with a label of its own. -/
def hallucinates (active : List WatchCriterion) (m : ClassifyMove) : Bool :=
  let email := m.task.email
  let criteria := criteriaOf active
  match m.task.stage with
  | .asking =>
    decide (Unlisted active
      (reply (·.classify email.subject email.sender email.snippet criteria) m.before.world))
  | .reading body =>
    decide (Unlisted active
      (reply (·.classifyWithBody email.subject email.sender body criteria) m.before.world))
  | _ => false

def reports (m : ClassifyMove) : List (Nat × Nat) :=
  (m.before.world.since m.after.world).filterMap fun
    | .progress current total .classifying => some (current, total)
    | _ => none

end ClassifyMove

section Stages

variable {active : List WatchCriterion} {isInitialSync : Bool} {tier2Budget : Nat}
  {result : Except String (Option ClassificationMatch)}

theorem afterMatch_eq_finished {c : ClassificationMatch} :
    Stage.afterMatch active (some c) = .finished ↔
      ∀ criterion ∈ active, criterion.label ≠ c.criterionLabel := by
  rw [Stage.afterMatch]
  cases hfind : active.find? (·.label = c.criterionLabel) with
  | none => simpa using hfind
  | some criterion =>
    have hlabel : criterion.label = c.criterionLabel := by simpa using List.find?_some hfind
    simp only [reduceCtorEq, false_iff]
    exact fun h => h criterion (List.mem_of_find?_eq_some hfind) hlabel

theorem afterTier2_eq_finished :
    Stage.afterTier2 active result = .finished ↔ Unlisted active result := by
  cases result with
  | error text => simp [Stage.afterTier2, Unlisted]
  | ok found =>
    cases found with
    | none => simp [Stage.afterTier2, Unlisted]
    | some c =>
      by_cases haccepted : minConfidenceToAccept ≤ c.confidence
      · rw [Stage.afterTier2, if_pos haccepted, afterMatch_eq_finished]
        simp only [Unlisted, haccepted, true_and]
      · simp [Stage.afterTier2, Unlisted, haccepted]

theorem afterTier1_eq_finished :
    Stage.afterTier1 active isInitialSync tier2Budget result = .finished ↔ Unlisted active result := by
  cases result with
  | error text => simp [Stage.afterTier1, Unlisted]
  | ok found =>
    cases found with
    | none => simp [Stage.afterTier1, Unlisted]
    | some c =>
      by_cases haccepted : minConfidenceToAccept ≤ c.confidence
      · rw [Stage.afterTier1, if_pos haccepted, afterMatch_eq_finished]
        simp only [Unlisted, haccepted, true_and]
      · have hopen : Stage.afterTier1 active isInitialSync tier2Budget (.ok (some c)) ≠ .finished := by
          rw [Stage.afterTier1, if_neg haccepted]
          split
          · split <;> simp
          · simp
        simp [Unlisted, haccepted, hopen]

theorem afterFetch_ne_finished {result : Except ProviderError FullMessage} :
    Stage.afterFetch result ≠ .finished := by
  rw [Stage.afterFetch.eq_def]
  split
  · simp
  · split <;> simp

end Stages

section Events

def Uncounted : Event → Prop
  | .progress _ _ _ => False
  | _ => True

theorem reports_eq_nil {m : ClassifyMove} (h : World.Emits Uncounted m.before.world m.after.world) :
    m.reports = [] := by
  rw [ClassifyMove.reports, List.filterMap_eq_nil_iff]
  intro e he
  have hevent := h.of_mem_since he
  cases e with
  | progress => exact hevent.elim
  | _ => rfl

section Calls

variable {P : Event → Prop}

theorem emits_askClassifier (f : ClassifierMoment → Except String (Option ClassificationMatch)) :
    Moves (World.Emits P) (askClassifier f) := moves_askClassifier emits_indifferent.toOutward f

theorem emits_fetchForTier2 (hselected : ∀ validity, P (.imapSelected validity))
    (hsearched : ∀ query uids, P (.imapSearched query uids)) (account : LinkedAccount)
    (accessToken : String) (email : NewEmail) (hfull : P (.fetchedFullMessage email.providerMessageId)) :
    Moves (World.Emits P) (fetchForTier2 (providerFor account) accessToken email) := by
  apply moves_bind (moves_log fun _ => World.emits_record hfull)
  intro _
  exact moves_attempt ((providerFor_emits hselected hsearched account).fetchFullMessage _ _)

theorem emits_saveClassification (email criterion : Uuid) (confidence : Option Rat)
    (hsaved : P (.savedClassification email criterion)) :
    Moves (World.Emits P) (saveClassification email criterion confidence) :=
  moves_saveClassification emits_indifferent.toOutward
    (fun _ _ => moves_statement emits_indifferent.afterDbCall fun _ _ _ _ => World.emits_of_keeps rfl)
    fun _ => World.emits_record hsaved

end Calls

end Events

section Invariant

variable {account : LinkedAccount} {accessToken : String} {isInitialSync : Bool}
  {active : List WatchCriterion} {total : Nat} {s s' : Classifying} {t t' : ClassifyTask}
  {ts : List ClassifyTask}

def unfinished (ts : List ClassifyTask) : Nat := ts.countP (·.stage ≠ .finished)

theorem unfinished_cons (t : ClassifyTask) (ts : List ClassifyTask) :
    unfinished (t :: ts) = unfinished [t] + unfinished ts := by
  rw [unfinished, unfinished, unfinished, ← List.countP_append]
  rfl

/-- What a step does to the count: it reports nothing, and the task stays to be counted unless
its label is unknown, or it reports the next count and the task is through. -/
inductive Progress (active : List WatchCriterion) (total : Nat) (m : ClassifyMove) : Prop
  | quiet (hreports : m.reports = []) (hcount : m.after.completedCount = m.before.completedCount)
    (hleft : unfinished [m.task] = unfinished [m.task'] + [m].countP (ClassifyMove.hallucinates active))
  | counted (hreports : m.reports = [(m.before.completedCount + 1, total)])
    (hcount : m.after.completedCount = m.before.completedCount + 1)
    (hleft : unfinished [m.task] = unfinished [m.task'] + 1)
    (hknown : m.hallucinates active = false)

theorem progress_of_step
    (h : ClassifyStep (providerFor account) accessToken isInitialSync active total t s t' s') :
    Progress active total ⟨t, s, t', s'⟩ := by
  cases h with
  | @answered i email s result w hask =>
    refine .quiet (reports_eq_nil ((emits_askClassifier _).of_eq hask)) rfl ?_
    simp only [unfinished, ClassifyMove.hallucinates, ← askClassifier_eq_ok hask, List.countP_singleton,
      ne_eq, afterTier1_eq_finished, decide_not]
    by_cases hunlisted : Unlisted active result <;> simp [hunlisted]
  | fetched hfetch =>
    refine .quiet (reports_eq_nil ((emits_fetchForTier2 (fun _ => trivial) (fun _ _ => trivial) _ _ _ trivial).of_eq hfetch)) rfl ?_
    simp [unfinished, ClassifyMove.hallucinates, afterFetch_ne_finished]
  | @read i email body s result w hask =>
    refine .quiet (reports_eq_nil ((emits_askClassifier _).of_eq hask)) rfl ?_
    simp only [unfinished, ClassifyMove.hallucinates, ← askClassifier_eq_ok hask, List.countP_singleton,
      ne_eq, afterTier2_eq_finished, decide_not]
    by_cases hunlisted : Unlisted active result <;> simp [hunlisted]
  | saved =>
    refine .quiet (reports_eq_nil ((emits_saveClassification _ _ _ trivial).run _)) rfl ?_
    simp [unfinished, ClassifyMove.hallucinates]
  | counted =>
    refine .counted ?_ rfl (by simp [unfinished]) rfl
    simp [ClassifyMove.reports, Classifying.count, World.since_record]

/-- What holds at any moment: the counts so far are the first ones in order, and each email is
counted, or still to be counted, or lost by an unknown label. -/
structure Counted (active : List WatchCriterion) (total : Nat) (s : Classifying × List ClassifyMove)
    (ts : List ClassifyTask) : Prop where
  reports : s.2.flatMap ClassifyMove.reports = (List.range' 1 s.1.completedCount).map (·, total)
  emails : s.1.completedCount + unfinished ts + s.2.countP (ClassifyMove.hallucinates active) = total

theorem Counted.step {moves : List ClassifyMove} (h : Counted active total (s, moves) (t :: ts))
    (hprogress : Progress active total ⟨t, s, t', s'⟩) :
    Counted active total (s', moves ++ [⟨t, s, t', s'⟩]) (t' :: ts) := by
  have hreports := h.reports
  have hemails := h.emails
  dsimp only at hreports hemails
  rw [unfinished_cons] at hemails
  cases hprogress with
  | quiet hnone hcount hleft =>
    dsimp only at hcount hleft
    constructor
    · simp [hnone, hcount, hreports]
    · dsimp only
      rw [unfinished_cons, List.countP_append, hcount]
      omega
  | counted hone hcount hleft hknown =>
    dsimp only at hcount hleft
    constructor
    · rw [List.flatMap_append, hreports, hcount, List.range'_concat, List.map_append]
      simp [hone, Nat.add_comm]
    · dsimp only
      rw [unfinished_cons, List.countP_append, hcount, List.countP_singleton, hknown,
        if_neg Bool.false_ne_true]
      omega

theorem counted_kept : Window.Kept
    (classifyRules (providerFor account) accessToken isInitialSync active total).traced
    (Counted active total) where
  perm := fun {s ts ts'} hperm h => by
    have hcount : unfinished ts = unfinished ts' := hperm.countP_eq _
    exact ⟨h.reports, hcount ▸ h.emails⟩
  surroundings := fun {s s' ts} hmove h => by
    obtain ⟨⟨w, hw⟩, hmoves⟩ := hmove
    obtain ⟨s', moves⟩ := s'
    cases hw
    cases hmoves
    exact ⟨h.reports, h.emails⟩
  leave := fun {s t ts} hfinished h => by
    have hemails := h.emails
    have hstage : t.stage = .finished := hfinished
    have hleft : unfinished [t] = 0 := by simp [unfinished, hstage]
    rw [unfinished_cons, hleft, Nat.zero_add] at hemails
    exact ⟨h.reports, hemails⟩
  step := fun {s s' t t' ts} hstep h => by
    obtain ⟨s, moves⟩ := s
    obtain ⟨s', moves'⟩ := s'
    obtain ⟨hstep, hmoves⟩ := hstep
    rw [show moves' = moves ++ [⟨t, s, t', s'⟩] from hmoves]
    exact h.step (progress_of_step hstep)

theorem unfinished_classifyTasks (emails : List NewEmail) :
    unfinished (classifyTasks emails) = emails.length := by
  have hall : unfinished (classifyTasks emails) = (classifyTasks emails).length := by
    rw [unfinished, List.countP_eq_length]
    intro t ht
    simp [stage_of_mem ht]
  rw [hall, ← List.length_map ClassifyTask.index, mapIdx_index, List.length_range]

theorem counted_start (w : World) (emails : List NewEmail) :
    Counted active emails.length (.start w, []) (classifyTasks emails) where
  reports := rfl
  emails := by simp [Classifying.start, unfinished_classifyTasks]

theorem Counted.complete {moves : List ClassifyMove} (h : Counted active total (s, moves) []) :
    (moves.flatMap ClassifyMove.reports).Perm ((List.range' 1 total).map (·, total)) ↔
      ∀ m ∈ moves, m.hallucinates active = false := by
  have hreports := h.reports
  have hemails := h.emails
  dsimp only at hreports hemails
  have hcount : moves.countP (ClassifyMove.hallucinates active) = 0 ↔
      ∀ m ∈ moves, m.hallucinates active = false := by
    simp [List.countP_eq_zero]
  rw [← hcount, hreports]
  constructor
  · intro hperm
    have hlength := hperm.length_eq
    simp only [List.length_map, List.length_range'] at hlength
    omega
  · intro hzero
    have hall : s.completedCount = total := by simpa [unfinished, hzero] using hemails
    rw [hall]

end Invariant

section Pass

variable {account : LinkedAccount} {accessToken : String} {isInitialSync : Bool} {emails : List NewEmail}
  {w : World} {s : Classifying} {ts : List ClassifyTask}

abbrev TracedPass (account : LinkedAccount) (accessToken : String) (isInitialSync : Bool)
    (active : List WatchCriterion) (emails : List NewEmail) (w : World) (s : Classifying)
    (moves : List ClassifyMove) : Prop :=
  Window.Run (classifyRules (providerFor account) accessToken isInitialSync active emails.length).traced
    concurrency
    ⟨(.start (w.record (.progress 0 emails.length .classifying)), []), classifyTasks emails, []⟩
    ⟨(s, moves), [], []⟩

theorem TracedPass.kept {active : List WatchCriterion} {moves : List ClassifyMove}
    {I : Classifying × List ClassifyMove → List ClassifyTask → Prop}
    (h : TracedPass account accessToken isInitialSync active emails w s moves)
    (hkept : Window.Kept
      (classifyRules (providerFor account) accessToken isInitialSync active emails.length).traced I)
    (hstart : I (.start (w.record (.progress 0 emails.length .classifying)), []) (classifyTasks emails)) :
    I (s, moves) [] := by
  have hqueue : I (.start (w.record (.progress 0 emails.length .classifying)), [])
      (classifyTasks emails ++ []) := by rwa [List.append_nil]
  exact Window.Run.kept hkept h hqueue

theorem ClassifyPass.exists_traced
    (h : ClassifyPass (providerFor account) accessToken isInitialSync emails w s) :
    (∃ w₁, selectCriteria emails w = (.ok none, w₁)) ∨ ∃ active w₁ moves,
      selectCriteria emails w = (.ok (some active), w₁) ∧
        TracedPass account accessToken isInitialSync active emails w₁ s moves := by
  cases h with
  | @skipped w₁ hselect => exact .inl ⟨w₁, hselect⟩
  | @completed active w₁ s hselect hrun =>
    obtain ⟨moves, htraced⟩ := hrun.exists_traced
    exact .inr ⟨active, w₁, moves, hselect, htraced⟩

/-- The counts of a pass are `1` to its total exactly if no accepted label is unknown. -/
theorem tracedPass_progress (account : LinkedAccount) (accessToken : String) (isInitialSync : Bool)
    (active : List WatchCriterion) (emails : List NewEmail) (w : World) (s : Classifying)
    (moves : List ClassifyMove)
    (h : TracedPass account accessToken isInitialSync active emails w s moves) :
    (moves.flatMap ClassifyMove.reports).Perm
        ((List.range' 1 emails.length).map fun current => (current, emails.length)) ↔
      ∀ m ∈ moves, m.hallucinates active = false := by
  have hend : Counted active emails.length (s, moves) [] := h.kept counted_kept (counted_start _ emails)
  exact hend.complete

theorem exists_tracedPass (account : LinkedAccount) (accessToken : String) (isInitialSync : Bool)
    (active : List WatchCriterion) (emails : List NewEmail) (w : World) (schedule : List Nat)
    (hlimit : emails.length ≤ concurrency)
    (hturns : Window.turns
      (ClassifyTask.turn (providerFor account) accessToken isInitialSync active emails.length) schedule
      (.start (w.record (.progress 0 emails.length .classifying))) (classifyTasks emails).reverse = (s, ts))
    (hfinished : ts.all (·.stage = .finished)) :
    ∃ moves, TracedPass account accessToken isInitialSync active emails w s moves ∧
      moves.flatMap ClassifyMove.reports = (List.range' 1 s.completedCount).map (·, emails.length) := by
  have hrun := run_of_schedule _ _ _ _ _ _ schedule hlimit hturns hfinished
  obtain ⟨moves, htraced⟩ := hrun.exists_traced
  have hpass : TracedPass account accessToken isInitialSync active emails w s moves := htraced
  have hend : Counted active emails.length (s, moves) [] := hpass.kept counted_kept (counted_start _ emails)
  exact ⟨moves, hpass, hend.reports⟩

section Example

def invoices : WatchCriterion := ⟨.ending '3', "Invoices", "Bills to pay", true, 0⟩

def labelledAccount : LinkedAccount where
  id := .ending '1'
  provider := .gmail
  emailAddress := "me@gmail.com"
  displayName := none
  syncCursor := some "7"
  lastSyncedAt := none
  lastSyncError := none
  createdAt := 0
  imapHost := none
  imapPort := none

def labelMoment (label : String) : ClassifierMoment where
  classify _ _ _ _ := .ok (some ⟨label, 1⟩)
  classifyWithBody _ _ _ _ := .ok none

def newEmail (digit : Char) : NewEmail :=
  ⟨.ending digit, String.singleton digit, "Invoice", "shop@example.org", none⟩

def classifyingWorld (moments : List ClassifierMoment) (gmail : List GmailMoment) : World where
  db := { Db.empty with
    watchCriteria := [invoices]
    emails := ['2', '4', '5', '6'].map fun digit =>
      ⟨.ending digit, .ending '1', String.singleton digit, none, none, 1, false, false, false, none, none, 0⟩
    settings := [(SettingKeys.activeAiModelId, "local")] }
  keyring _ := none
  tokenCache := []
  journal := []
  outside := { gmail, classifier := moments, uuids := ['a', 'b', 'c'].map Uuid.ending }

def labelledWorld (label : String) : World := classifyingWorld [labelMoment label, labelMoment label] []

theorem tracedPass_progress_listed : ∃ s moves,
    TracedPass labelledAccount "access" false [invoices] [newEmail '2', newEmail '4']
      (labelledWorld "Invoices") s moves ∧
    moves.flatMap ClassifyMove.reports = [(1, 2), (2, 2)] ∧
    ((moves.flatMap ClassifyMove.reports).Perm [(1, 2), (2, 2)] ↔
      ∀ m ∈ moves, m.hallucinates [invoices] = false) := by
  obtain ⟨moves, h, hreports⟩ := exists_tracedPass labelledAccount "access" false [invoices]
    [newEmail '2', newEmail '4'] (labelledWorld "Invoices") [1, 0, 1, 0, 0, 1] (by decide) rfl
    (by decide +kernel)
  refine ⟨_, moves, h, hreports.trans (by decide +kernel), tracedPass_progress _ _ _ _ _ _ _ _ h⟩

theorem tracedPass_unlisted : ¬ ∀ account accessToken isInitialSync active emails w s moves,
    TracedPass account accessToken isInitialSync active emails w s moves →
    (moves.flatMap ClassifyMove.reports).Perm
      ((List.range' 1 emails.length).map fun current => (current, emails.length)) := by
  intro hclaim
  obtain ⟨moves, h, hreports⟩ := exists_tracedPass labelledAccount "access" false [invoices]
    [newEmail '2'] (labelledWorld "Rechnungen") [0] (by decide) rfl (by decide +kernel)
  have hperm := hclaim _ _ _ _ _ _ _ _ h
  rw [hreports] at hperm
  exact absurd hperm.length_eq (by decide +kernel)

end Example

end Pass

end Fumiko.EmailCore
