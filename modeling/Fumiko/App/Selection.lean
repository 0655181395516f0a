import Fumiko.App.Supervisor
import Fumiko.Common.Config
import Fumiko.Storage.Statements

/-! The choice of the classification engine: the settings screen, the settings it writes in
spawned tasks, and what the next launch makes of them. -/

namespace Fumiko.App

open Fumiko.Common Fumiko.Storage

/-- What `BUILTIN_CATALOG` offers, by file name. -/
def builtinCatalog : List String :=
  ["Llama-3.2-1B-Instruct-Q4_K_M.gguf", "qwen2.5-1.5b-instruct-q4_k_m.gguf"]

def launchModel (db : Db) : Option String :=
  let backend := (db.getSetting SettingKeys.aiBackend).getD "builtin"
  let activeModel := (db.getSetting SettingKeys.activeAiModelId).getD ""
  if backend = "builtin" ∧ activeModel ≠ "" then some activeModel else none

namespace Selection

inductive Write
  | set (key value : String)
  | delete (key : String)

def Write.run : Write → Db → Db
  | .set key value, db => db.setSetting key value
  | .delete key, db => db.deleteSetting key

inductive Job
  | writing (writes : List Write)
  | deleting (filename : String)
  | uninstalling (modelName : String)
  | loadingBackend
  | loadingModel

inductive Click
  | selectBuiltin (filename : String)
  | deselectBuiltin
  | selectOllama (modelName : String)
  | deselectOllama
  | deleteBuiltin (filename : String)
  | uninstallOllama (modelName : String)
  | reopen

structure Screen where
  activeBackend : String := AiBackends.builtin
  activeModel : Option String := none
  db : Db
  sent : List AiCommand := []
  jobs : List Job := []

namespace Screen

def isActive (s : Screen) (backend model : String) : Prop :=
  s.activeBackend = backend ∧ s.activeModel = some model

instance (s : Screen) (backend model : String) : Decidable (s.isActive backend model) :=
  inferInstanceAs (Decidable (_ ∧ _))

def spawn (s : Screen) (job : Job) : Screen := { s with jobs := s.jobs ++ [job] }

def choose (backend model : String) (command : AiCommand) (s : Screen) : Screen :=
  { s with activeBackend := backend, activeModel := some model, sent := s.sent ++ [command] }

/-- `select_builtin` and `select_ollama`: both settings are written by one task. -/
def select (backend model : String) (command : AiCommand) (s : Screen) : Screen :=
  (s.choose backend model command).spawn
    (.writing [.set SettingKeys.aiBackend backend, .set SettingKeys.activeAiModelId model])

def selectBuiltin (filename : String) : Screen → Screen :=
  select AiBackends.builtin filename (.startBuiltin filename)

def selectOllama (modelName : String) : Screen → Screen :=
  select AiBackends.ollama modelName .stopBuiltin

def deselectBuiltin (s : Screen) : Screen :=
  spawn { s with activeModel := none, sent := s.sent ++ [.stopBuiltin] }
    (.writing [.delete SettingKeys.activeAiModelId])

def deselectOllama (s : Screen) : Screen :=
  spawn { s with activeModel := none } (.writing [.delete SettingKeys.activeAiModelId])

def reopen (s : Screen) : Screen :=
  { s with activeBackend := AiBackends.builtin, activeModel := none, jobs := [.loadingBackend] }

def click (s : Screen) : Click → Screen
  | .selectBuiltin filename => s.selectBuiltin filename
  | .deselectBuiltin => s.deselectBuiltin
  | .selectOllama modelName => s.selectOllama modelName
  | .deselectOllama => s.deselectOllama
  | .deleteBuiltin filename => s.spawn (.deleting filename)
  | .uninstallOllama modelName => s.spawn (.uninstalling modelName)
  | .reopen => s.reopen

def Offers (s : Screen) : Click → Prop
  | .selectBuiltin filename => filename ∈ builtinCatalog ∧ ¬s.isActive AiBackends.builtin filename
  | .deselectBuiltin => ∃ filename ∈ builtinCatalog, s.isActive AiBackends.builtin filename
  | .selectOllama modelName => ¬s.isActive AiBackends.ollama modelName
  | .deselectOllama => ∃ modelName, s.isActive AiBackends.ollama modelName
  | .deleteBuiltin filename => filename ∈ builtinCatalog
  | .uninstallOllama _ | .reopen => True

/-- A task goes on: `ok` says whether the call it has waited for succeeded. -/
def resume (ok : Bool) (s : Screen) : Job → Screen × Option Job
  | .writing [] => (s, none)
  | .writing (write :: writes) =>
    (if ok then { s with db := write.run s.db } else s, some (.writing writes))
  | .deleting filename =>
    if s.isActive AiBackends.builtin filename then
      ({ s with activeModel := none, sent := s.sent ++ [.stopBuiltin] },
        some (.writing [.delete SettingKeys.activeAiModelId]))
    else (s, none)
  | .uninstalling modelName =>
    if ok ∧ s.isActive AiBackends.ollama modelName then
      ({ s with activeModel := none }, some (.writing [.delete SettingKeys.activeAiModelId]))
    else (s, none)
  | .loadingBackend =>
    let stored := if ok then s.db.getSetting SettingKeys.aiBackend else none
    ({ s with activeBackend := stored.getD s.activeBackend }, some .loadingModel)
  | .loadingModel =>
    let stored := if ok then s.db.getSetting SettingKeys.activeAiModelId else none
    ({ s with activeModel := stored.or s.activeModel }, none)

/-- One click, or one turn of a task.  The guard restricts the clicks to certain moments, and
`faults` says whether calls may fail. -/
inductive Turn (guard : Screen → Prop) (faults : Prop) : Screen → Screen → Prop
  | click {s} (c : Click) (hoffers : s.Offers c) (hguard : guard s) : Turn guard faults s (s.click c)
  | resume {s} (before after : List Job) (job : Job) (ok : Bool)
      (hjobs : s.jobs = before ++ job :: after) (hok : ok ∨ faults) :
      Turn guard faults s
        { (s.resume ok job).1 with jobs := before ++ (s.resume ok job).2.toList ++ after }

abbrev Run (guard : Screen → Prop) (faults : Prop) : Screen → Screen → Prop :=
  Relation.ReflTransGen (Turn guard faults)

def launched (db : Db) : Screen :=
  { db, sent := (launchModel db).toList.map .startBuiltin, jobs := [.loadingBackend] }

def commanded (s : Screen) : Option String :=
  match s.sent.getLast? with
  | some (.startBuiltin filename) => some filename
  | _ => none

/-- What the screen shows is what the store says, and the next launch starts what runs now. -/
structure Settled (s : Screen) : Prop where
  backend : s.activeBackend = (s.db.getSetting SettingKeys.aiBackend).getD AiBackends.builtin
  model : s.activeModel = s.db.getSetting SettingKeys.activeAiModelId
  relaunch : launchModel s.db = s.commanded

end Screen

end Selection

end Fumiko.App
