namespace Fumiko.Common

namespace SettingKeys

def userGoogleClientId : String := "user_google_client_id"
def userMicrosoftClientId : String := "user_microsoft_client_id"
def activeAiModelId : String := "active_ai_model_id"
def trashRetentionDays : String := "trash_retention_days"
def aiBackend : String := "ai_backend"
def initialSyncLimit : String := "initial_sync_limit"
def inboxCapacity : String := "inbox_capacity"
def findingsCapacity : String := "findings_capacity"

end SettingKeys

namespace KeyringKeys

def userGoogleClientSecret : String := "user_google_client_secret"

end KeyringKeys

namespace AiBackends

def builtin : String := "builtin"
def ollama : String := "ollama"

end AiBackends

namespace Config

def defaultTrashRetentionDays : Int := 30
def defaultInitialSyncLimit : Nat := 100
def maxInitialSyncLimit : Nat := 200
def maxTier2FetchesPerSync : Nat := 3
def defaultInboxCapacity : Nat := 200
def defaultFindingsCapacity : Nat := 200

end Config

end Fumiko.Common
