import Fumiko.App.Selection
import Fumiko.Storage.SettingLaws

namespace Fumiko.App.Selection.Screen

open Fumiko.Common Fumiko.Storage

section Launch

variable {db : Db} {model : String}

theorem launchModel_of_builtin (hbackend : db.getSetting SettingKeys.aiBackend = some AiBackends.builtin)
    (hmodel : db.getSetting SettingKeys.activeAiModelId = some model) (hne : model ≠ "") :
    launchModel db = some model := by
  simp [launchModel, hbackend, hmodel, hne, AiBackends.builtin]

theorem launchModel_of_ollama (hbackend : db.getSetting SettingKeys.aiBackend = some AiBackends.ollama) :
    launchModel db = none := by
  simp [launchModel, hbackend, AiBackends.ollama]

theorem launchModel_of_none (hmodel : db.getSetting SettingKeys.activeAiModelId = none) :
    launchModel db = none := by
  simp [launchModel, hmodel]

theorem ne_empty_of_mem_builtinCatalog (h : model ∈ builtinCatalog) : model ≠ "" := by
  rintro rfl
  simp [builtinCatalog] at h

end Launch

section Stores

variable (db : Db) (backend model : String)

theorem aiBackend_ne_activeAiModelId : SettingKeys.aiBackend ≠ SettingKeys.activeAiModelId := by decide

def selected : Db :=
  (db.setSetting SettingKeys.aiBackend backend).setSetting SettingKeys.activeAiModelId model

theorem selected_backend : (selected db backend model).getSetting SettingKeys.aiBackend = some backend :=
  (getSetting_setSetting_of_ne _ aiBackend_ne_activeAiModelId model).trans (getSetting_setSetting _ _ _)

theorem selected_model :
    (selected db backend model).getSetting SettingKeys.activeAiModelId = some model :=
  getSetting_setSetting _ _ _

end Stores

section Turns

variable {guard : Screen → Prop} (s : Screen)

theorem turn_writing (write : Write) {writes : List Write} (before after : List Job)
    (hjobs : s.jobs = before ++ .writing (write :: writes) :: after) :
    Turn guard False s
      { s with db := write.run s.db, jobs := before ++ .writing writes :: after } := by
  have hturn : Turn guard False s _ := .resume before after _ true hjobs (.inl rfl)
  simpa [resume] using hturn

theorem turn_written (before after : List Job) (hjobs : s.jobs = before ++ .writing [] :: after) :
    Turn guard False s { s with jobs := before ++ after } := by
  have hturn : Turn guard False s _ := .resume before after _ true hjobs (.inl rfl)
  simpa [resume] using hturn

end Turns

section Calm

variable {s t : Screen}

def written (writes : List Write) (s : Screen) : Screen :=
  { s with db := writes.foldl (fun db write => write.run db) s.db }

def Calm (s : Screen) : List Job → Prop
  | [] | [.deleting _] | [.uninstalling _] => s.Settled
  | [.writing writes] => (s.written writes).Settled
  | [.loadingBackend] =>
    s.activeBackend = AiBackends.builtin ∧ s.activeModel = none ∧ launchModel s.db = s.commanded
  | [.loadingModel] => s.activeBackend = (s.db.getSetting SettingKeys.aiBackend).getD AiBackends.builtin ∧
    s.activeModel = none ∧ launchModel s.db = s.commanded
  | _ => False

theorem commanded_startBuiltin {commands : List AiCommand} {filename : String}
    (hs : s.sent = commands ++ [.startBuiltin filename]) : s.commanded = some filename := by
  rw [commanded, hs, List.getLast?_concat]

theorem commanded_stopBuiltin {commands : List AiCommand} (hs : s.sent = commands ++ [.stopBuiltin]) :
    s.commanded = none := by
  rw [commanded, hs, List.getLast?_concat]

theorem settled_selectBuiltin (s : Screen) {filename : String} (h : filename ∈ builtinCatalog) :
    ((s.choose AiBackends.builtin filename (.startBuiltin filename)).written [.set SettingKeys.aiBackend AiBackends.builtin,
      .set SettingKeys.activeAiModelId filename]).Settled where
  backend := by
    change AiBackends.builtin = ((selected s.db AiBackends.builtin filename).getSetting _).getD _
    rw [selected_backend, Option.getD_some]
  model := (selected_model _ _ _).symm
  relaunch := by
    rw [commanded_startBuiltin rfl]
    exact launchModel_of_builtin (selected_backend _ _ _) (selected_model _ _ _)
      (ne_empty_of_mem_builtinCatalog h)

theorem settled_selectOllama (s : Screen) (modelName : String) :
    ((s.choose AiBackends.ollama modelName .stopBuiltin).written [.set SettingKeys.aiBackend AiBackends.ollama,
      .set SettingKeys.activeAiModelId modelName]).Settled where
  backend := by
    change AiBackends.ollama = ((selected s.db AiBackends.ollama modelName).getSetting _).getD _
    rw [selected_backend, Option.getD_some]
  model := (selected_model _ _ _).symm
  relaunch := by
    rw [commanded_stopBuiltin rfl]
    exact launchModel_of_ollama (selected_backend _ _ _)

theorem settled_dropped (hs : s.Settled) (hdb : t.db = s.db) (hbackend : t.activeBackend = s.activeBackend)
    (hmodel : t.activeModel = none) (hcommanded : t.commanded = none) :
    (t.written [.delete SettingKeys.activeAiModelId]).Settled where
  backend := by
    change t.activeBackend = ((t.db.deleteSetting _).getSetting _).getD _
    rw [getSetting_deleteSetting_of_ne _ aiBackend_ne_activeAiModelId, hbackend, hdb]
    exact hs.backend
  model := by
    change t.activeModel = (t.db.deleteSetting _).getSetting _
    rw [getSetting_deleteSetting_self, hmodel]
  relaunch := by
    change launchModel (t.db.deleteSetting _) = t.commanded
    rw [hcommanded]
    exact launchModel_of_none (getSetting_deleteSetting_self _ _)

theorem commanded_of_ollama (hs : s.Settled) (h : s.activeBackend = AiBackends.ollama) :
    s.commanded = none := by
  rw [← hs.relaunch]
  have hbackend := hs.backend
  rw [h] at hbackend
  cases hstored : s.db.getSetting SettingKeys.aiBackend with
  | none =>
    rw [hstored] at hbackend
    exact absurd hbackend (by decide)
  | some backend =>
    rw [hstored, Option.getD_some] at hbackend
    rw [← hbackend] at hstored
    exact launchModel_of_ollama hstored

theorem Settled.setJobs (hs : s.Settled) (jobs : List Job) : Settled { s with jobs } :=
  ⟨hs.backend, hs.model, hs.relaunch⟩

theorem Calm.setJobs {jobs : List Job} (hs : s.Calm jobs) (others : List Job) :
    Calm { s with jobs := others } jobs := by
  match jobs with
  | [] | [.deleting _] | [.uninstalling _] | [.writing _] => exact Settled.setJobs hs others
  | [.loadingBackend] | [.loadingModel] => exact hs
  | _ :: _ :: _ => simp [Calm] at hs

theorem Calm.spawn {job : Job} (hjobs : s.jobs = []) (hs : s.Calm [job]) :
    (s.spawn job).Calm (s.spawn job).jobs := by
  have halone : (s.spawn job).jobs = [job] := by rw [Screen.spawn, hjobs, List.nil_append]
  rw [halone]
  exact hs.setJobs _

theorem Calm.click (hs : s.Calm s.jobs) (hjobs : s.jobs = []) {c : Click} (hoffers : s.Offers c) :
    (s.click c).Calm (s.click c).jobs := by
  rw [hjobs] at hs
  cases c with
  | selectBuiltin filename =>
    apply Calm.spawn
    · exact hjobs
    · exact settled_selectBuiltin s hoffers.1
  | selectOllama modelName =>
    apply Calm.spawn
    · exact hjobs
    · exact settled_selectOllama s modelName
  | deselectBuiltin =>
    apply Calm.spawn
    · exact hjobs
    · exact settled_dropped hs rfl rfl rfl (commanded_stopBuiltin rfl)
  | deselectOllama =>
    obtain ⟨modelName, hactive⟩ := hoffers
    apply Calm.spawn
    · exact hjobs
    · have hcommanded : s.commanded = none := commanded_of_ollama hs hactive.1
      exact settled_dropped hs rfl rfl rfl hcommanded
  | deleteBuiltin filename => exact Calm.spawn hjobs hs
  | uninstallOllama modelName => exact Calm.spawn hjobs hs
  | reopen => exact ⟨rfl, rfl, hs.relaunch⟩

theorem Calm.alone {before after : List Job} {job : Job} (hs : s.Calm (before ++ job :: after)) :
    before = [] ∧ after = [] := by
  cases before with
  | nil =>
    cases after with
    | nil => exact ⟨rfl, rfl⟩
    | cons _ _ => cases job <;> exact hs.elim
  | cons first before =>
    cases before <;> cases first <;> exact hs.elim

theorem Calm.resume {job : Job} (hs : s.Calm [job]) :
    (s.resume true job).1.Calm (s.resume true job).2.toList := by
  cases job with
  | writing writes =>
    cases writes with
    | nil => exact hs
    | cons write writes => exact hs
  | deleting filename =>
    rw [Screen.resume]
    split
    · exact settled_dropped hs rfl rfl rfl (commanded_stopBuiltin rfl)
    · exact hs
  | uninstalling modelName =>
    rw [Screen.resume]
    split
    next hactive =>
      have hcommanded : s.commanded = none := commanded_of_ollama hs hactive.2.1
      exact settled_dropped hs rfl rfl rfl hcommanded
    next => exact hs
  | loadingBackend =>
    obtain ⟨hbackend, hmodel, hrelaunch⟩ := hs
    refine ⟨?_, hmodel, hrelaunch⟩
    simp [Screen.resume, hbackend]
  | loadingModel =>
    obtain ⟨hbackend, hmodel, hrelaunch⟩ := hs
    refine ⟨hbackend, ?_, hrelaunch⟩
    simp [Screen.resume, hmodel]

theorem Calm.turn (hturn : Turn (fun s => s.jobs = []) False s t) (hs : s.Calm s.jobs) :
    t.Calm t.jobs := by
  cases hturn with
  | click c hoffers hjobs => exact hs.click hjobs hoffers
  | resume before after job ok hjobs hok =>
    rw [hjobs] at hs
    obtain ⟨rfl, rfl⟩ := hs.alone
    cases hok.resolve_right not_false
    rw [List.nil_append, List.append_nil]
    exact hs.resume.setJobs _

variable {db : Db}

theorem calm_run (hrun : Run (fun s => s.jobs = []) False (launched db) s) : s.Calm s.jobs := by
  induction hrun with
  | refl =>
    refine ⟨rfl, rfl, ?_⟩
    change launchModel db = (launched db).commanded
    cases hlaunch : launchModel db <;> simp [commanded, launched, hlaunch]
  | tail _ hturn ih => exact ih.turn hturn

/-- Clicks that wait for the tasks of the ones before, and calls that succeed: the choice is
kept, and the next launch runs what runs now. -/
theorem settled_of_calm_run (hrun : Run (fun s => s.jobs = []) False (launched db) s)
    (hidle : s.jobs = []) : s.Settled := by
  have hs := calm_run hrun
  rw [hidle] at hs
  exact hs

theorem settled_of_selection : ∃ s : Screen,
    s.activeModel = some "qwen2.5-1.5b-instruct-q4_k_m.gguf" ∧ s.Settled := by
  let guard : Screen → Prop := fun s => s.jobs = []
  let model : Write := .set SettingKeys.activeAiModelId "qwen2.5-1.5b-instruct-q4_k_m.gguf"
  let s₀ : Screen := { launched Db.empty with jobs := [.loadingModel] }
  let s₁ : Screen := { launched Db.empty with jobs := [] }
  let s₂ := s₁.click (.selectBuiltin "qwen2.5-1.5b-instruct-q4_k_m.gguf")
  let s₃ : Screen := { s₂ with
    db := s₂.db.setSetting SettingKeys.aiBackend AiBackends.builtin
    jobs := [.writing [model]] }
  let s₄ : Screen := { s₃ with db := model.run s₃.db, jobs := [.writing []] }
  have hbackend : Turn guard False (launched Db.empty) s₀ := .resume [] [] .loadingBackend true rfl (.inl rfl)
  have hmodel : Turn guard False s₀ s₁ := .resume [] [] .loadingModel true rfl (.inl rfl)
  have hselect : Turn guard False s₁ s₂ := by
    have hoffers : s₁.Offers (.selectBuiltin "qwen2.5-1.5b-instruct-q4_k_m.gguf") := by
      refine ⟨by simp [builtinCatalog], ?_⟩
      rintro ⟨-, hactive⟩
      cases hactive
    exact .click _ hoffers rfl
  have hfirst : Turn guard False s₂ s₃ := turn_writing s₂ _ [] [] rfl
  have hsecond : Turn guard False s₃ s₄ := turn_writing s₃ _ [] [] rfl
  have hend : Turn guard False s₄ { s₄ with jobs := [] } := turn_written s₄ [] [] rfl
  have hrun : Run guard False (launched Db.empty) { s₄ with jobs := [] } :=
    (((((Relation.ReflTransGen.single hbackend).tail hmodel).tail hselect).tail hfirst).tail
      hsecond).tail hend
  exact ⟨_, rfl, settled_of_calm_run hrun rfl⟩

end Calm

section Race

variable {s : Screen} {filename : String}

def overwritten (db : Db) (filename : String) : Db :=
  ((db.setSetting SettingKeys.aiBackend AiBackends.builtin).deleteSetting
    SettingKeys.activeAiModelId).setSetting SettingKeys.activeAiModelId filename

theorem launchModel_overwritten (db : Db) (h : filename ∈ builtinCatalog) :
    launchModel (overwritten db filename) = some filename := by
  apply launchModel_of_builtin _ (getSetting_setSetting _ _ _) (ne_empty_of_mem_builtinCatalog h)
  exact (getSetting_setSetting_of_ne _ aiBackend_ne_activeAiModelId filename).trans <|
    (getSetting_deleteSetting_of_ne _ aiBackend_ne_activeAiModelId).trans (getSetting_setSetting _ _ _)

/-- A model that is deselected between the two writes of its selection comes back at the next
launch, though every call succeeds. -/
theorem exists_relaunch_of_deselected (hidle : s.jobs = []) (hoffers : s.Offers (.selectBuiltin filename)) :
    ∃ t, Run (fun _ => True) False s t ∧ t.jobs = [] ∧ t.activeModel = none ∧
      t.commanded = none ∧ launchModel t.db = some filename := by
  let model : Write := .set SettingKeys.activeAiModelId filename
  let s₁ := s.click (.selectBuiltin filename)
  let s₂ : Screen := { s₁ with
    db := s.db.setSetting SettingKeys.aiBackend AiBackends.builtin
    jobs := [.writing [model]] }
  let s₃ := s₂.click .deselectBuiltin
  let s₄ : Screen := { s₃ with
    db := s₂.db.deleteSetting SettingKeys.activeAiModelId
    jobs := [.writing [model], .writing []] }
  let s₅ : Screen := { s₄ with jobs := [.writing [model]] }
  let s₆ : Screen := { s₅ with db := overwritten s.db filename, jobs := [.writing []] }
  have hselect : Turn (fun _ => True) False s s₁ := .click _ hoffers trivial
  have hjobs : s₁.jobs = [.writing [.set SettingKeys.aiBackend AiBackends.builtin, model]] := by
    change s.jobs ++ _ = _
    rw [hidle]
    rfl
  have hbackend : Turn (fun _ => True) False s₁ s₂ := turn_writing s₁ _ [] [] hjobs
  have hdeselect : Turn (fun _ => True) False s₂ s₃ := .click _ ⟨filename, hoffers.1, rfl, rfl⟩ trivial
  have hdeleted : Turn (fun _ => True) False s₃ s₄ :=
    turn_writing s₃ (.delete SettingKeys.activeAiModelId) [.writing [model]] [] rfl
  have hdone : Turn (fun _ => True) False s₄ s₅ := turn_written s₄ [.writing [model]] [] rfl
  have hmodel : Turn (fun _ => True) False s₅ s₆ := turn_writing s₅ model [] [] rfl
  have hend : Turn (fun _ => True) False s₆ { s₆ with jobs := [] } := turn_written s₆ [] [] rfl
  have hrun : Run (fun _ => True) False s { s₆ with jobs := [] } :=
    ((((((Relation.ReflTransGen.single hselect).tail hbackend).tail hdeselect).tail hdeleted).tail
      hdone).tail hmodel).tail hend
  exact ⟨_, hrun, rfl, rfl, commanded_stopBuiltin rfl, launchModel_overwritten s.db hoffers.1⟩

theorem exists_relaunch_of_deselected_qwen :
    ∃ t, Run (fun _ => True) False { launched Db.empty with jobs := [] } t ∧ t.jobs = [] ∧
      t.activeModel = none ∧ t.commanded = none ∧
      launchModel t.db = some "qwen2.5-1.5b-instruct-q4_k_m.gguf" := by
  apply exists_relaunch_of_deselected
  · rfl
  · refine ⟨by simp [builtinCatalog], ?_⟩
    rintro ⟨-, hmodel⟩
    cases hmodel

end Race

end Fumiko.App.Selection.Screen
