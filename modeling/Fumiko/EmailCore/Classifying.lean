import Fumiko.EmailCore.SyncPage
import Fumiko.Foundation.Window

/-! The classification of the new emails as tasks that take turns, four at a time.  A step is
what runs when one of a task's calls comes back. -/

namespace Fumiko.EmailCore

open Fumiko.Common Fumiko.Foundation Fumiko.Foundation.Action Fumiko.Net Fumiko.Program
  Fumiko.Storage

/-- The reads before the tasks start: the active criteria, if the emails are to be classified. -/
def selectCriteria (emails : List NewEmail) : Program SyncError (Option (List WatchCriterion)) := do
  if emails.isEmpty then pure none
  else
    match ← Action.attempt listActiveCriteria with
    | .error _ => pure none
    | .ok active =>
      if active.isEmpty then pure none
      else
        match ← settingOrNone SettingKeys.activeAiModelId with
        | none => pure none
        | some model =>
          if (trim model.toList).isEmpty then pure none
          else do
            let _ ← settingOrNone SettingKeys.aiBackend
            pure (some active)

inductive Stage
  | asking
  | fetching
  | reading (body : String)
  | saving (criterion : WatchCriterion) (confidence : Rat)
  | counting
  | finished
  deriving DecidableEq

structure ClassifyTask where
  index : Nat
  email : NewEmail
  stage : Stage

structure SavedMatch where
  index : Nat
  criterion : Uuid
  confidence : Rat

/-- What the tasks share, and a record of the Tier 1 answers they got and of their calls of
`fetch_full_message` and `save_classification`. -/
structure Classifying where
  world : World
  tier2Budget : Nat
  completedCount : Nat
  answers : List (Nat × Except String (Option ClassificationMatch))
  fetches : List Nat
  saves : List SavedMatch

namespace Stage

variable (active : List WatchCriterion)

def afterMatch : Option ClassificationMatch → Stage
  | none => .counting
  | some c =>
    match active.find? (·.label = c.criterionLabel) with
    | none => .finished
    | some criterion => .saving criterion c.confidence

def afterTier1 (isInitialSync : Bool) (tier2Budget : Nat) :
    Except String (Option ClassificationMatch) → Stage
  | .ok (some c) =>
    if minConfidenceToAccept ≤ c.confidence then afterMatch active (some c)
    else if tier1AmbiguityThreshold ≤ c.confidence ∧ !isInitialSync then
      if 0 < tier2Budget then .fetching else .counting
    else .counting
  | _ => .counting

def afterFetch : Except ProviderError FullMessage → Stage
  | .error _ => .counting
  | .ok message =>
    match message.bodyText <|> message.bodyHtml with
    | none => .counting
    | some body => .reading body

def afterTier2 : Except String (Option ClassificationMatch) → Stage
  | .ok (some c) => if minConfidenceToAccept ≤ c.confidence then afterMatch active (some c) else .counting
  | _ => .counting

end Stage

namespace Classifying

def answer (index : Nat) (result : Except String (Option ClassificationMatch)) (next : Stage) (w : World)
    (s : Classifying) : Classifying :=
  { s with
    world := w
    answers := (index, result) :: s.answers
    tier2Budget := if next = .fetching then s.tier2Budget - 1 else s.tier2Budget
    fetches := if next = .fetching then index :: s.fetches else s.fetches }

def save (index : Nat) (email : Uuid) (criterion : WatchCriterion) (confidence : Rat)
    (s : Classifying) : Classifying :=
  { s with
    world := (saveClassification email criterion.id (some confidence) s.world).2
    saves := ⟨index, criterion.id, confidence⟩ :: s.saves }

def count (total : Nat) (s : Classifying) : Classifying :=
  { s with
    world := s.world.record (.progress (s.completedCount + 1) total .classifying)
    completedCount := s.completedCount + 1 }

end Classifying

section Tasks

variable (provider : EmailProvider) (accessToken : String) (isInitialSync : Bool)
  (active : List WatchCriterion) (total : Nat)

def fetchForTier2 (email : NewEmail) : Program SyncError (Except ProviderError FullMessage) := do
  log (.fetchedFullMessage email.providerMessageId)
  Action.attempt (provider.fetchFullMessage accessToken email.providerMessageId)

def criteriaOf : List Criterion := active.map fun c => { label := c.label, description := c.description }

inductive ClassifyStep : ClassifyTask → Classifying → ClassifyTask → Classifying → Prop
  | answered {i email s result w}
    (h : askClassifier (·.classify email.subject email.sender email.snippet (criteriaOf active)) s.world =
      (.ok result, w)) :
    ClassifyStep ⟨i, email, .asking⟩ s ⟨i, email, .afterTier1 active isInitialSync s.tier2Budget result⟩
      (s.answer i result (.afterTier1 active isInitialSync s.tier2Budget result) w)
  | fetched {i email s result w} (h : fetchForTier2 provider accessToken email s.world = (.ok result, w)) :
    ClassifyStep ⟨i, email, .fetching⟩ s ⟨i, email, .afterFetch result⟩ { s with world := w }
  | read {i email body s result w}
    (h : askClassifier (·.classifyWithBody email.subject email.sender body (criteriaOf active)) s.world =
      (.ok result, w)) :
    ClassifyStep ⟨i, email, .reading body⟩ s ⟨i, email, .afterTier2 active result⟩ { s with world := w }
  | saved {i email criterion confidence s} :
    ClassifyStep ⟨i, email, .saving criterion confidence⟩ s ⟨i, email, .counting⟩
      (s.save i email.emailId criterion confidence)
  | counted {i email s} :
    ClassifyStep ⟨i, email, .counting⟩ s ⟨i, email, .finished⟩ (s.count total)

def classifyRules : Window.Rules Classifying ClassifyTask where
  step := ClassifyStep provider accessToken isInitialSync active total
  finished t := t.stage = .finished
  surroundings s s' := ∃ w, s' = { s with world := w }

end Tasks

def concurrency : Nat := 4

def classifyTasks (emails : List NewEmail) : List ClassifyTask :=
  emails.mapIdx fun index email => ⟨index, email, .asking⟩

def Classifying.start (w : World) : Classifying := ⟨w, Config.maxTier2FetchesPerSync, 0, [], [], []⟩

/-- A whole classification pass from this world: it is skipped, or its tasks run until all are
through. -/
inductive ClassifyPass (provider : EmailProvider) (accessToken : String) (isInitialSync : Bool)
    (emails : List NewEmail) (w : World) : Classifying → Prop
  | skipped {w₁} (h : selectCriteria emails w = (.ok none, w₁)) :
    ClassifyPass provider accessToken isInitialSync emails w (.start w₁)
  | completed {active w₁ s} (h : selectCriteria emails w = (.ok (some active), w₁))
    (hrun : Window.Run (classifyRules provider accessToken isInitialSync active emails.length) concurrency
      ⟨.start (w₁.record (.progress 0 emails.length .classifying)), classifyTasks emails, []⟩ ⟨s, [], []⟩) :
    ClassifyPass provider accessToken isInitialSync emails w s

end Fumiko.EmailCore
