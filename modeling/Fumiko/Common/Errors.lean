namespace Fumiko.Common

/-- UUIDs are stored, bound and used as keyring keys by their hyphenated text. -/
structure Uuid where
  text : String
  canonical : text.length = 36
  deriving DecidableEq

def Uuid.ending (digit : Char) : Uuid where
  text := String.ofList ("00000000-0000-7000-8000-00000000000".toList ++ [digit])
  canonical := by simp [← String.length_toList]

inductive Provider
  | gmail | outlook | imap
  deriving DecidableEq

def Provider.asStr : Provider → String
  | .gmail => "gmail"
  | .outlook => "outlook"
  | .imap => "imap"

inductive ReqwestKind
  | transport
  | status (code : Nat)
  | decode
  deriving DecidableEq

/-- An HTTP client error with its rendered text.  The text is whatever the client
library produces; nothing about it is fixed here. -/
structure ReqwestError where
  kind : ReqwestKind
  url : String
  text : String
  deriving DecidableEq

def ReqwestError.status (e : ReqwestError) : Option Nat :=
  match e.kind with
  | .status code => some code
  | _ => none

inductive BoxError
  | reqwest (e : ReqwestError)
  | message (text : String)
  deriving DecidableEq

def BoxError.display : BoxError → String
  | .reqwest e => e.text
  | .message text => text

inductive OAuthError
  | invalidEndpointConfig (source : String)
  | callbackTaskFailed (source : String)
  | invalidCallbackTarget
  | missingAuthorizationCode
  | missingState
  | accessDenied (description : String)
  | callbackTimeout
  | browserLaunchFailed (source : String)
  | listenerBindFailed (source : String)
  | cancelled
  | csrfMismatch
  | network (source : String)
  | tokenExchange (source : String)
  | emptyAuthorizationCode
  | providerCallbackError (description : String)
  deriving DecidableEq

def OAuthError.display : OAuthError → String
  | .invalidEndpointConfig source => "invalid OAuth endpoint configuration: " ++ source
  | .callbackTaskFailed source => "OAuth callback failed: " ++ source
  | .invalidCallbackTarget => "invalid OAuth callback target"
  | .missingAuthorizationCode => "OAuth callback is missing the authorization code"
  | .missingState => "OAuth callback is missing the state parameter"
  | .accessDenied description => "authorization was denied: " ++ description
  | .callbackTimeout => "timed out waiting for the OAuth callback"
  | .browserLaunchFailed source => "failed to open the browser: " ++ source
  | .listenerBindFailed source => "failed to bind the OAuth callback listener: " ++ source
  | .cancelled => "OAuth flow was cancelled"
  | .csrfMismatch => "CSRF state mismatch"
  | .network source => "network error during token exchange: " ++ source
  | .tokenExchange source => "token exchange failed: " ++ source
  | .emptyAuthorizationCode => "OAuth callback contained an empty authorization code"
  | .providerCallbackError description => "the provider reported an error: " ++ description

inductive StorageError
  | db (source : String)
  | keyring (source : String)
  | conflict
  | invalidInput (reason : String)
  | notFound
  deriving DecidableEq

def StorageError.display : StorageError → String
  | .db source => "database error: " ++ source
  | .keyring source => "keyring error: " ++ source
  | .conflict => "a record with this value already exists"
  | .invalidInput reason => "invalid input: " ++ reason
  | .notFound => "email not found"

inductive CredentialError
  | storage (e : StorageError)
  | missingClientId (name : String)
  | missingGoogleClientSecretConfig
  deriving DecidableEq

def CredentialError.display : CredentialError → String
  | .storage e => "database or keyring error: " ++ e.display
  | .missingClientId name => "no " ++ name ++ " client ID is configured"
  | .missingGoogleClientSecretConfig => "no Google client secret is configured"

inductive TokenError
  | storage (e : StorageError)
  | credentials (e : CredentialError)
  | request (source : String)
  | missingAccountSecret (account : Uuid)
  | unsupportedProvider (name : String)
  deriving DecidableEq

def TokenError.display : TokenError → String
  | .storage e => "storage error: " ++ e.display
  | .credentials e => "credential error: " ++ e.display
  | .request _ => "OAuth request failed"
  | .missingAccountSecret account =>
    "account " ++ account.text ++ " has no stored secret (refresh token or app password)"
  | .unsupportedProvider name => "unsupported provider: " ++ name

inductive ProviderError
  | cursorExpired
  | unauthorized
  | rateLimited
  | invalidData (reason : String)
  | other (e : BoxError)
  deriving DecidableEq

def ProviderError.display : ProviderError → String
  | .cursorExpired => "sync cursor expired - full resync is required"
  | .unauthorized => "access token or credentials expired or invalid"
  | .rateLimited => "rate limited by provider (backoff requested)"
  | .invalidData reason => "invalid provider data: " ++ reason
  | .other e => "network or provider error: " ++ e.display

def ProviderError.ofReqwest (e : ReqwestError) : ProviderError :=
  if e.status = some 401 then .unauthorized
  else if e.status = some 429 then .rateLimited
  else .other (.reqwest e)

inductive SyncError
  | database (e : StorageError)
  | accountNotFound (account : Uuid)
  | missingAccountSecret (account : Uuid)
  | provider (e : ProviderError)
  | oauth (source : String)
  | unsupportedProvider (name : String)
  deriving DecidableEq

def SyncError.display : SyncError → String
  | .database e => "database error: " ++ e.display
  | .accountNotFound account => "account not found: " ++ account.text
  | .missingAccountSecret account =>
    "no stored secret for account " ++ account.text ++ " — account needs re-linking"
  | .provider e => "provider error: " ++ e.display
  | .oauth source => "oauth error: " ++ source
  | .unsupportedProvider name => "unsupported provider: " ++ name

def SyncError.ofToken : TokenError → SyncError
  | .storage e => .database e
  | .missingAccountSecret account => .missingAccountSecret account
  | .unsupportedProvider name => .unsupportedProvider name
  | e => .oauth e.display

end Fumiko.Common
