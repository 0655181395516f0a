import Fumiko.EmailCore.SyncPage
import Fumiko.LocalAi.Classifier

namespace Fumiko.LocalAi

open Fumiko.EmailCore Fumiko.Foundation Fumiko.Net Fumiko.Storage

inductive Backend
  | builtin (classifier : LlamaServerClassifier)
  | ollama (classifier : OllamaClassifier)

namespace Backend

def runClassification (prompt : String) (schema : JsonValue) (criteria : List Criterion) :
    Backend → Except String (Option ClassificationMatch)
  | builtin classifier => classifier.runClassification prompt schema criteria
  | ollama classifier => classifier.runClassification prompt schema criteria

inductive Answers (prompt : String) (schema : JsonValue) (parsed : ModelClassificationOutput) :
    Backend → Prop
  | builtin {classifier : LlamaServerClassifier} {content : String}
    (hreply : (classifier.completion (classifier.baseUrl ++ "/completion") {
      prompt, jsonSchema := schema, nPredict := aiMaxOutputTokens, temperature := 1 / 10
      stream := false }).json (classifier.baseUrl ++ "/completion") = .ok content)
    (hparse : classifier.fromJson (cleanJsonResponse content) = .ok parsed) :
    Answers prompt schema parsed (.builtin classifier)
  | ollama {classifier : OllamaClassifier} {content : String}
    (hreply : (classifier.generate (classifier.baseUrl ++ "/api/generate") {
      model := classifier.model, prompt, format := schema, stream := false, keepAlive := "1m"
      options := {
        numCtx := aiMaxContextTokens, numPredict := aiMaxOutputTokens, temperature := 1 / 10 } }).json
      (classifier.baseUrl ++ "/api/generate") = .ok content)
    (hparse : classifier.fromJson (cleanJsonResponse content) = .ok parsed) :
    Answers prompt schema parsed (.ollama classifier)

variable {prompt : String} {schema : JsonValue} {criteria : List Criterion}
  {parsed : ModelClassificationOutput} {backend : Backend}

theorem Answers.runClassification (h : Answers prompt schema parsed backend) :
    backend.runClassification prompt schema criteria = .ok (validateOutput criteria parsed) := by
  cases h with
  | builtin hreply hparse =>
    rw [Backend.runClassification, LlamaServerClassifier.runClassification]
    simp only [hreply, readAnswer, hparse]
  | ollama hreply hparse =>
    rw [Backend.runClassification, OllamaClassifier.runClassification]
    simp only [hreply, readAnswer, hparse]

end Backend

theorem mem_enumLabels {criteria : List Criterion} {label : String} :
    label ∈ enumLabels (classificationJsonSchema criteria) ↔ label ∈ allowedLabels criteria := by
  have henum : enumLabels (classificationJsonSchema criteria) = allowedLabels criteria := by
    simp [enumLabels, classificationJsonSchema, JsonValue.field, JsonValue.strings,
      List.filterMap_map]
  rw [henum]

section Labels

variable {a b : String}

theorem eqIgnoreAsciiCase_iff :
    eqIgnoreAsciiCase a b = true ↔ a.toList.map Char.toLower = b.toList.map Char.toLower := by
  simp [eqIgnoreAsciiCase]

theorem eqIgnoreAsciiCase_self (a : String) : eqIgnoreAsciiCase a a = true :=
  eqIgnoreAsciiCase_iff.mpr rfl

theorem length_dropWhile_eq {p : Char → Bool} {cs : List Char} (h : (cs.dropWhile p).length = cs.length) :
    cs.dropWhile p = cs :=
  (List.dropWhile_suffix p).eq_of_length h

theorem trimmed_eq_of_eqIgnoreAsciiCase (h : eqIgnoreAsciiCase a (trimmed a)) : trimmed a = a := by
  have hlength := congrArg List.length (eqIgnoreAsciiCase_iff.mp h)
  simp only [List.length_map, trimmed, String.toList_ofList, trim, List.length_reverse] at hlength
  have hback := (List.dropWhile_sublist isWhitespace (l := (a.toList.dropWhile isWhitespace).reverse)).length_le
  have hfront := (List.dropWhile_sublist isWhitespace (l := a.toList)).length_le
  rw [List.length_reverse] at hback
  have hhead : a.toList.dropWhile isWhitespace = a.toList := length_dropWhile_eq (by omega)
  have hlast : a.toList.reverse.dropWhile isWhitespace = a.toList.reverse := by
    rw [hhead] at hlength
    exact length_dropWhile_eq (by rw [List.length_reverse]; omega)
  rw [trimmed, trim, hhead, hlast, List.reverse_reverse, String.ofList_toList]

end Labels

section Agreement

def criteriaOf (active : List WatchCriterion) : List Criterion :=
  active.map fun c => { label := c.label, description := c.description }

/-- The answer comes out of the classifier as a match good enough to be saved, and the lookup
of its label finds the criterion. -/
def SavedFor (backend : Backend) (prompt : String) (active : List WatchCriterion) (c : WatchCriterion) :
    Prop :=
  ∃ found, backend.runClassification prompt (classificationJsonSchema (criteriaOf active))
      (criteriaOf active) = .ok (some found) ∧
    minConfidenceToAccept ≤ found.confidence ∧
    active.find? (·.label = found.criterionLabel) = some c

def Sufficient (confidence : Option Float32Value) : Prop :=
  minConfidenceToAccept ≤ (confidence.getD (.finite 1)).confidence

variable {active : List WatchCriterion} {c : WatchCriterion} {confidence : Option Float32Value}

theorem validateOutput_label {label : String} (hblank : (trim label.toList).isEmpty = false) :
    validateOutput (criteriaOf active) ⟨true, some label, confidence⟩ =
      (active.find? fun d => eqIgnoreAsciiCase d.label (trimmed label)).map fun d =>
        ⟨d.label, (confidence.getD (.finite 1)).confidence⟩ := by
  have hfind : (criteriaOf active).find? (fun d => eqIgnoreAsciiCase d.label (trimmed label)) =
      (active.find? fun d => eqIgnoreAsciiCase d.label (trimmed label)).map
        fun d => { label := d.label, description := d.description } := by
    rw [criteriaOf, List.find?_map]
    rfl
  simp only [validateOutput, Option.getD_some, hblank, Bool.not_true, Bool.or_self, Bool.false_eq_true,
    if_false, hfind]
  cases active.find? fun d => eqIgnoreAsciiCase d.label (trimmed label) <;> rfl

theorem find_label (hlabels : (active.map (·.label)).Nodup) (hc : c ∈ active) :
    active.find? (·.label = c.label) = some c := by
  induction active with
  | nil => cases hc
  | cons d active ih =>
    rw [List.map_cons, List.nodup_cons] at hlabels
    cases hc with
    | head => simp
    | tail _ hc =>
      have hne : d.label ≠ c.label := fun heq => hlabels.1 (heq ▸ List.mem_map_of_mem hc)
      rw [List.find?_cons_of_neg (by simpa using hne)]
      exact ih hlabels.2 hc

theorem savedFor_iff_find {backend : Backend} {prompt : String}
    (hlabels : (active.map (·.label)).Nodup) (hc : c ∈ active)
    (hblank : (trim c.label.toList).isEmpty = false) (hsufficient : Sufficient confidence)
    (hanswer : backend.Answers prompt (classificationJsonSchema (criteriaOf active))
      ⟨true, some c.label, confidence⟩) :
    SavedFor backend prompt active c ↔
      active.find? (fun d => eqIgnoreAsciiCase d.label (trimmed c.label)) = some c := by
  simp only [SavedFor, hanswer.runClassification, validateOutput_label hblank]
  cases hfind : active.find? (fun d => eqIgnoreAsciiCase d.label (trimmed c.label)) with
  | none => simp
  | some d =>
    have hd : d ∈ active := List.mem_of_find?_eq_some hfind
    constructor
    · rintro ⟨found, hfound, -, hlookup⟩
      cases hfound
      exact (find_label hlabels hd).symm.trans hlookup
    · intro heq
      cases heq
      exact ⟨_, rfl, hsufficient, find_label hlabels hc⟩

end Agreement

/-- Schema, classifier and lookup agree on a label exactly when it has no white space around it
and no label before it is the same up to ASCII case. -/
theorem savedFor_iff {backend : Backend} {prompt : String} {before after : List WatchCriterion}
    {c : WatchCriterion} {confidence : Option Float32Value}
    (hlabels : ((before ++ c :: after).map (·.label)).Nodup)
    (hblank : ∀ d ∈ before ++ c :: after, (trim d.label.toList).isEmpty = false)
    (hsufficient : Sufficient confidence)
    (hanswer : backend.Answers prompt (classificationJsonSchema (criteriaOf (before ++ c :: after)))
      ⟨true, some c.label, confidence⟩) :
    c.label ∈ enumLabels (classificationJsonSchema (criteriaOf (before ++ c :: after))) ∧
      (SavedFor backend prompt (before ++ c :: after) c ↔
        trimmed c.label = c.label ∧ ∀ d ∈ before, ¬eqIgnoreAsciiCase d.label c.label) := by
  have hc : c ∈ before ++ c :: after := by simp
  refine ⟨?_, ?_⟩
  · rw [mem_enumLabels]
    exact List.mem_cons_of_mem _ (List.mem_map_of_mem (List.mem_map_of_mem hc))
  · rw [savedFor_iff_find hlabels hc (hblank c hc) hsufficient hanswer]
    constructor
    · intro hfind
      have hsame : eqIgnoreAsciiCase c.label (trimmed c.label) := by simpa using List.find?_some hfind
      have htrimmed : trimmed c.label = c.label := trimmed_eq_of_eqIgnoreAsciiCase hsame
      refine ⟨htrimmed, ?_⟩
      intro d hd hearlier
      rw [htrimmed, List.find?_append] at hfind
      cases hfirst : before.find? (fun d => eqIgnoreAsciiCase d.label c.label) with
      | none => exact List.find?_eq_none.mp hfirst d hd hearlier
      | some e =>
        rw [hfirst, Option.some_or] at hfind
        cases hfind
        rw [List.map_append, List.nodup_append] at hlabels
        exact hlabels.2.2 _ (List.mem_map_of_mem (List.mem_of_find?_eq_some hfirst)) _
          (List.mem_map_of_mem List.mem_cons_self) rfl
    · rintro ⟨htrimmed, hbefore⟩
      have hnone : before.find? (fun d => eqIgnoreAsciiCase d.label c.label) = none :=
        List.find?_eq_none.mpr hbefore
      rw [htrimmed, List.find?_append, hnone, Option.none_or]
      simp [eqIgnoreAsciiCase_self]

section Example

def criterion (id : Char) (label : String) : WatchCriterion where
  id := .ending id
  label
  description := "Interviews"
  isActive := true
  createdAt := 0

def answering (label : String) : Backend := .ollama {
  baseUrl := defaultOllamaUrl
  model := "llama3.2:1b"
  generate _ _ := .response 200 "OK" (.ok "answer")
  fromJson _ := .ok ⟨true, some label, none⟩ }

theorem answering_answers (prompt : String) (schema : JsonValue) (label : String) :
    (answering label).Answers prompt schema ⟨true, some label, none⟩ :=
  .ollama rfl rfl

theorem sufficient_none : Sufficient none := by
  rw [Sufficient, minConfidenceToAccept]
  decide +kernel

theorem allowed_answer_rejected :
    ¬∀ (backend : Backend) (prompt : String) (active : List WatchCriterion) (c : WatchCriterion)
      (confidence : Option Float32Value), c ∈ active → (active.map (·.label)).Nodup →
      (∀ d ∈ active, (trim d.label.toList).isEmpty = false) → Sufficient confidence →
      backend.Answers prompt (classificationJsonSchema (criteriaOf active))
        ⟨true, some c.label, confidence⟩ →
      SavedFor backend prompt active c := by
  intro h
  obtain ⟨found, hfound, -⟩ := h (answering " Jobs") "" [criterion '1' " Jobs"] (criterion '1' " Jobs")
    none (by simp) (by simp) (by decide) sufficient_none (answering_answers _ _ _)
  rw [(answering_answers _ _ _).runClassification] at hfound
  have hnone : validateOutput (criteriaOf [criterion '1' " Jobs"]) ⟨true, some " Jobs", none⟩ = none := by
    decide
  rw [hnone] at hfound
  cases hfound

theorem savedFor_iff_example :
    SavedFor (answering "Jobs") "" [criterion '1' "jobs ads", criterion '2' "Jobs"]
      (criterion '2' "Jobs") := by
  have hiff := @savedFor_iff (answering "Jobs") "" [criterion '1' "jobs ads"] []
    (criterion '2' "Jobs") none (by decide) (by decide) sufficient_none (answering_answers _ _ "Jobs")
  exact hiff.2.mpr (by decide)

end Example

end Fumiko.LocalAi
