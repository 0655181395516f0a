import Fumiko.EmailCore.ProgressLaws

namespace Fumiko.EmailCore

open Fumiko.Common Fumiko.Foundation Fumiko.Foundation.Action Fumiko.Net Fumiko.Program
  Fumiko.Storage

namespace ClassifyMove

def fullFetches (m : ClassifyMove) : List String :=
  (m.before.world.since m.after.world).filterMap fun
    | .fetchedFullMessage id => some id
    | _ => none

def asked (m : ClassifyMove) : List Nat := if m.task.stage = .asking then [m.task.index] else []

def ambiguous (active : List WatchCriterion) (m : ClassifyMove) : Bool :=
  let email := m.task.email
  match m.task.stage with
  | .asking => decide (Ambiguous
      (reply (·.classify email.subject email.sender email.snippet (criteriaOf active)) m.before.world))
  | _ => false

def saves (m : ClassifyMove) : List SavedMatch :=
  match m.task.stage with
  | .saving criterion confidence => [⟨m.task.index, criterion.id, confidence⟩]
  | _ => []

end ClassifyMove

def Unfetched : Event → Prop
  | .fetchedFullMessage _ => False
  | _ => True

section Events

variable {m : ClassifyMove}

theorem fullFetches_eq_nil (h : World.Emits Unfetched m.before.world m.after.world) : m.fullFetches = [] := by
  rw [ClassifyMove.fullFetches, List.filterMap_eq_nil_iff]
  intro e he
  have hevent := h.of_mem_since he
  cases e with
  | fetchedFullMessage => exact hevent.elim
  | _ => rfl

theorem fullFetches_eq_singleton {id : String}
    (h : World.Emits Unfetched (m.before.world.record (.fetchedFullMessage id)) m.after.world) :
    m.fullFetches = [id] := by
  obtain ⟨new, hnew, hevents⟩ := h
  have hsince : m.before.world.since m.after.world = .fetchedFullMessage id :: new := by
    rw [World.since, hnew, World.record, List.append_assoc, List.drop_left]
    rfl
  have hnone : new.filterMap (fun
      | .fetchedFullMessage id => some id
      | _ => none) = ([] : List String) := by
    rw [List.filterMap_eq_nil_iff]
    intro e he
    have hevent := hevents e he
    cases e with
    | fetchedFullMessage => exact hevent.elim
    | _ => rfl
  rw [ClassifyMove.fullFetches, hsince, List.filterMap_cons, hnone]

end Events

section Invariant

variable {account : LinkedAccount} {accessToken : String} {isInitialSync : Bool}
  {active : List WatchCriterion} {total : Nat} {s s' : Classifying} {t t' : ClassifyTask}
  {ts : List ClassifyTask}

def fetching (ts : List ClassifyTask) : Nat := ts.countP (·.stage = .fetching)

/-- What a step adds to the records of the pass: what it has done.  A fetch is entered when the
budget is taken for it, before the call. -/
structure Entered (active : List WatchCriterion) (m : ClassifyMove) : Prop where
  fetches : m.fullFetches.length + fetching [m.task'] + m.before.fetches.length =
    fetching [m.task] + m.after.fetches.length
  asked : m.after.answers.map Prod.fst = m.asked ++ m.before.answers.map Prod.fst
  ambiguous : ambiguousCount m.after = [m].countP (ClassifyMove.ambiguous active) + ambiguousCount m.before
  saves : m.after.saves = m.saves ++ m.before.saves

theorem fetching_ne {i : Nat} {email : NewEmail} {stage : Stage} (h : stage ≠ .fetching) :
    fetching [⟨i, email, stage⟩] = 0 := by
  simp [fetching, h]

theorem afterFetch_ne_fetching {result : Except ProviderError FullMessage} :
    Stage.afterFetch result ≠ .fetching := by
  rw [Stage.afterFetch.eq_def]
  split
  · simp
  · split <;> simp

theorem afterMatch_ne_fetching {found : Option ClassificationMatch} :
    Stage.afterMatch active found ≠ .fetching := by
  rcases Stage.afterMatch_cases active found with h | h | ⟨_, _, h⟩ <;> simp [h]

theorem afterTier2_ne_fetching {result : Except String (Option ClassificationMatch)} :
    Stage.afterTier2 active result ≠ .fetching := by
  rw [Stage.afterTier2.eq_def]
  split
  · split
    · exact afterMatch_ne_fetching
    · simp
  · simp

theorem Entered.quiet (hworld : World.Emits Unfetched s.world s'.world)
    (hfetches : fetching [t'] + s.fetches.length = fetching [t] + s'.fetches.length)
    (hasked : s'.answers.map Prod.fst = ClassifyMove.asked ⟨t, s, t', s'⟩ ++ s.answers.map Prod.fst)
    (hambiguous : ambiguousCount s' =
      [(⟨t, s, t', s'⟩ : ClassifyMove)].countP (ClassifyMove.ambiguous active) + ambiguousCount s)
    (hsaves : s'.saves = ClassifyMove.saves ⟨t, s, t', s'⟩ ++ s.saves) :
    Entered active ⟨t, s, t', s'⟩ where
  fetches := by
    have hnone : ClassifyMove.fullFetches ⟨t, s, t', s'⟩ = [] := fullFetches_eq_nil hworld
    rw [hnone, List.length_nil, Nat.zero_add]
    exact hfetches
  asked := hasked
  ambiguous := hambiguous
  saves := hsaves

theorem entered_of_step
    (h : ClassifyStep (providerFor account) accessToken isInitialSync active total t s t' s') :
    Entered active ⟨t, s, t', s'⟩ := by
  cases h with
  | @answered i email s result w hask =>
    apply Entered.quiet ((emits_askClassifier _).of_eq hask) _ rfl _ rfl
    · by_cases hfetching : Stage.afterTier1 active isInitialSync s.tier2Budget result = .fetching
      · simp [fetching, Classifying.answer, hfetching, Nat.add_comm]
      · simp [fetching, Classifying.answer, hfetching]
    · simp [ambiguousCount, Classifying.answer, List.countP_cons, ClassifyMove.ambiguous,
        ← askClassifier_eq_ok hask, Nat.add_comm]
  | @fetched i email s result w hfetch =>
    have hcall : (fetchForTier2 (providerFor account) accessToken email s.world).2 = w :=
      congrArg Prod.snd hfetch
    have hprovider := providerFor_emits (P := Unfetched) (fun _ => trivial) (fun _ _ => trivial) account
    have hone : ClassifyMove.fullFetches ⟨⟨i, email, .fetching⟩, s, ⟨i, email, .afterFetch result⟩,
        { s with world := w }⟩ = [email.providerMessageId] := by
      apply fullFetches_eq_singleton
      rw [← hcall]
      exact (hprovider.fetchFullMessage accessToken email.providerMessageId).run _
    refine ⟨?_, rfl, by simp [ClassifyMove.ambiguous, ambiguousCount], rfl⟩
    rw [hone, fetching_ne afterFetch_ne_fetching]
    simp [fetching]
  | @read i email body s result w hask =>
    apply Entered.quiet ((emits_askClassifier _).of_eq hask) _ rfl _ rfl
    · rw [fetching_ne afterTier2_ne_fetching]
      simp [fetching]
    · simp [ClassifyMove.ambiguous, ambiguousCount]
  | @saved i email criterion confidence s =>
    apply Entered.quiet ((emits_saveClassification email.emailId criterion.id (some confidence) trivial).run s.world) _
      rfl _ rfl
    · simp [fetching, Classifying.save]
    · simp [ClassifyMove.ambiguous, ambiguousCount, Classifying.save]
  | counted =>
    apply Entered.quiet (World.emits_record trivial) _ rfl _ rfl
    · simp [fetching, Classifying.count]
    · simp [ClassifyMove.ambiguous, ambiguousCount, Classifying.count]

structure Tallied (active : List WatchCriterion) (s : Classifying × List ClassifyMove)
    (ts : List ClassifyTask) : Prop where
  fetches : (s.2.flatMap ClassifyMove.fullFetches).length + fetching ts = s.1.fetches.length
  asked : (s.2.flatMap ClassifyMove.asked).Perm (s.1.answers.map Prod.fst)
  ambiguous : s.2.countP (ClassifyMove.ambiguous active) = ambiguousCount s.1
  saves : (s.2.flatMap ClassifyMove.saves).Perm s.1.saves

theorem fetching_cons (t : ClassifyTask) (ts : List ClassifyTask) :
    fetching (t :: ts) = fetching [t] + fetching ts := by
  rw [fetching, fetching, fetching, ← List.countP_append]
  rfl

theorem Tallied.step {moves : List ClassifyMove} (h : Tallied active (s, moves) (t :: ts))
    (hentered : Entered active ⟨t, s, t', s'⟩) :
    Tallied active (s', moves ++ [⟨t, s, t', s'⟩]) (t' :: ts) := by
  have hfetches := h.fetches
  have hcall := hentered.fetches
  dsimp only at hfetches hcall
  rw [fetching_cons] at hfetches
  constructor
  · dsimp only
    rw [fetching_cons, List.flatMap_append, List.length_append, List.flatMap_singleton]
    omega
  · dsimp only
    rw [List.flatMap_append, List.flatMap_singleton, hentered.asked]
    exact List.perm_append_comm.trans (h.asked.append_left _)
  · dsimp only
    rw [List.countP_append, hentered.ambiguous, h.ambiguous, Nat.add_comm]
  · dsimp only
    rw [List.flatMap_append, List.flatMap_singleton, hentered.saves]
    exact List.perm_append_comm.trans (h.saves.append_left _)

theorem tallied_kept : Window.Kept
    (classifyRules (providerFor account) accessToken isInitialSync active total).traced
    (Tallied active) where
  perm := fun {s ts ts'} hperm h => by
    have hcount : fetching ts = fetching ts' := hperm.countP_eq _
    exact ⟨hcount ▸ h.fetches, h.asked, h.ambiguous, h.saves⟩
  surroundings := fun {s s' ts} hmove h => by
    obtain ⟨⟨w, hw⟩, hmoves⟩ := hmove
    obtain ⟨s', moves⟩ := s'
    cases hw
    cases hmoves
    exact ⟨h.fetches, h.asked, h.ambiguous, h.saves⟩
  leave := fun {s t ts} hfinished h => by
    have hfetches := h.fetches
    have hstage : t.stage = .finished := hfinished
    have hnone : fetching [t] = 0 := by simp [fetching, hstage]
    rw [fetching_cons, hnone, Nat.zero_add] at hfetches
    exact ⟨hfetches, h.asked, h.ambiguous, h.saves⟩
  step := fun {s s' t t' ts} hstep h => by
    obtain ⟨s, moves⟩ := s
    obtain ⟨s', moves'⟩ := s'
    obtain ⟨hstep, hmoves⟩ := hstep
    rw [show moves' = moves ++ [⟨t, s, t', s'⟩] from hmoves]
    exact h.step (entered_of_step hstep)

theorem tallied_start (w : World) (emails : List NewEmail) :
    Tallied active (.start w, []) (classifyTasks emails) where
  fetches := by
    have hnone : fetching (classifyTasks emails) = 0 := by
      rw [fetching, List.countP_eq_zero]
      intro t ht
      simp [stage_of_mem ht]
    rw [hnone]
    rfl
  asked := .refl _
  ambiguous := rfl
  saves := .refl _

end Invariant

/-- The calls of a pass over `n` emails: each is asked about once, as many messages are fetched as the
budget and the ambiguous answers ask for, and each email has at most one accepted match saved. -/
structure BoundedCalls (isInitialSync : Bool) (active : List WatchCriterion) (n : Nat)
    (moves : List ClassifyMove) : Prop where
  asked : (moves.flatMap ClassifyMove.asked).Perm (List.range n)
  fetches : (moves.flatMap ClassifyMove.fullFetches).length = if isInitialSync then 0 else
    min Config.maxTier2FetchesPerSync (moves.countP (ClassifyMove.ambiguous active))
  once : ((moves.flatMap ClassifyMove.saves).map SavedMatch.index).Nodup
  accepted : ∀ saved ∈ moves.flatMap ClassifyMove.saves,
    Stage.Accepted active saved.criterion saved.confidence

theorem Tallied.boundedCalls {isInitialSync : Bool} {active : List WatchCriterion} {n : Nat}
    {s : Classifying} {moves : List ClassifyMove} (h : Tallied active (s, moves) [])
    (hend : Budgeted isInitialSync active n s []) : BoundedCalls isInitialSync active n moves where
  asked := h.asked.trans (by simpa [asking] using hend.asked)
  fetches := by
    have hfetches : (moves.flatMap ClassifyMove.fullFetches).length = s.fetches.length := h.fetches
    have hambiguous : moves.countP (ClassifyMove.ambiguous active) = ambiguousCount s := h.ambiguous
    rw [hfetches, hend.fetches, hambiguous]
  once := by
    rw [(h.saves.map _).nodup_iff]
    simpa [pending] using hend.once
  accepted saved hsaved := hend.accepted saved (h.saves.mem_iff.mp hsaved)

/-- A pass fetches as many messages as the budget and the ambiguous answers ask for, and saves
at most one accepted match for each email. -/
structure Bounded (provider : EmailProvider) (accessToken : String) (isInitialSync : Bool)
    (emails : List NewEmail) (w : World) (s : Classifying) : Prop where
  asked : (s.answers.map Prod.fst).Perm (List.range emails.length) ∨ s.answers = []
  fetches : s.fetches.length =
    if isInitialSync then 0 else min Config.maxTier2FetchesPerSync (ambiguousCount s)
  once : (s.saves.map SavedMatch.index).Nodup
  accepted : ∀ saved ∈ s.saves, Stage.Accepted w.db.listActiveCriteria saved.criterion saved.confidence
  calls {account : LinkedAccount} {active : List WatchCriterion} {w₁ : World} {moves : List ClassifyMove}
    (hprovider : provider = providerFor account)
    (hselect : selectCriteria emails w = (.ok (some active), w₁))
    (htraced : TracedPass account accessToken isInitialSync active emails w₁ s moves) :
    BoundedCalls isInitialSync w.db.listActiveCriteria emails.length moves

theorem classifyPass_bounded {provider : EmailProvider} {accessToken : String} {isInitialSync : Bool}
    {emails : List NewEmail} {w : World} {s : Classifying}
    (h : ClassifyPass provider accessToken isInitialSync emails w s) :
    Bounded provider accessToken isInitialSync emails w s := by
  have hcalls {account : LinkedAccount} {active : List WatchCriterion} {w₁ : World}
      {moves : List ClassifyMove} (hselect : selectCriteria emails w = (.ok (some active), w₁))
      (htraced : TracedPass account accessToken isInitialSync active emails w₁ s moves) :
      BoundedCalls isInitialSync w.db.listActiveCriteria emails.length moves := by
    have hactive := selectCriteria_eq_some hselect
    have htally : Tallied active (s, moves) [] := htraced.kept tallied_kept (tallied_start _ emails)
    have hend : Budgeted isInitialSync active emails.length s [] :=
      htraced.kept budgeted_kept.traced (budgeted_start _ emails)
    rw [← hactive]
    exact htally.boundedCalls hend
  cases h with
  | skipped =>
    refine ⟨Or.inr rfl, ?_, List.nodup_nil, by simp [Classifying.start], fun _ => hcalls⟩
    cases isInitialSync <;> simp [Classifying.start, ambiguousCount]
  | @completed active w₁ s hselect hrun =>
    have hactive := selectCriteria_eq_some hselect
    have hstart : Budgeted isInitialSync active emails.length
        (.start (w₁.record (.progress 0 emails.length .classifying))) (classifyTasks emails ++ []) := by
      rw [List.append_nil]
      exact budgeted_start _ _
    have hend : Budgeted isInitialSync active emails.length s [] := hrun.kept budgeted_kept hstart
    refine ⟨Or.inl ?_, hend.fetches, ?_, ?_, fun _ => hcalls⟩
    · simpa [asking] using hend.asked
    · simpa [pending] using hend.once
    · rw [← hactive]
      exact hend.accepted

section Example

def unsureMoment : ClassifierMoment where
  classify _ _ _ _ := .ok (some ⟨"Invoices", 2 / 5⟩)
  classifyWithBody _ _ _ _ := .ok (some ⟨"Invoices", 9 / 10⟩)

def bodyMoment : GmailMoment where
  profile := .failed "timed out"
  listMessages _ _ := .failed "timed out"
  history _ _ := .failed "timed out"
  message _ := .failed "timed out"
  fullMessage _ := .ok ⟨some "Please pay.", none⟩

def unsureWorld : World := classifyingWorld (List.replicate 7 unsureMoment) (List.replicate 3 bodyMoment)

def unsureEmails : List NewEmail := ['2', '4', '5', '6'].map newEmail

def unsureStart : World := (selectCriteria unsureEmails unsureWorld).2.record (.progress 0 4 .classifying)

def unsureSchedule : List Nat := [3, 0, 1, 2, 2, 0, 3, 1, 3, 1, 0, 1, 0, 3, 0, 1, 3]

def unsurePass : Classifying × List ClassifyTask :=
  Window.turns (ClassifyTask.turn (providerFor labelledAccount) "access" false [invoices] 4) unsureSchedule
    (.start unsureStart) (classifyTasks unsureEmails).reverse

theorem classifyPass_bounded_example :
    ambiguousCount unsurePass.1 = 4 ∧ unsurePass.1.fetches = [2, 3, 0] ∧
      unsurePass.1.world.db.classifications.length = 3 ∧
      Bounded (providerFor labelledAccount) "access" false unsureEmails unsureWorld unsurePass.1 := by
  have hselect : selectCriteria unsureEmails unsureWorld =
      (.ok (some [invoices]), (selectCriteria unsureEmails unsureWorld).2) := rfl
  have hturns : unsurePass = (unsurePass.1, unsurePass.2) := rfl
  have hrun := run_of_schedule (providerFor labelledAccount) "access" false [invoices] unsureEmails unsureStart
    unsureSchedule (by decide) hturns (by decide +kernel)
  exact ⟨by decide +kernel, by decide +kernel, by decide +kernel,
    classifyPass_bounded (.completed hselect hrun)⟩

end Example

end Fumiko.EmailCore
