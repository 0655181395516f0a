import Fumiko.EmailCore.Gmail
import Fumiko.EmailCore.Imap
import Fumiko.EmailCore.Outlook
import Fumiko.OAuth.Tokens

namespace Fumiko.EmailCore

open Fumiko.Common Fumiko.Foundation Fumiko.Net Fumiko.OAuth Fumiko.Program Fumiko.Storage

inductive LinkError
  | credentials (e : CredentialError)
  | oauth (e : OAuthError)
  | provider (e : ProviderError)
  | storage (e : StorageError)
  | message (text : String)
  deriving DecidableEq

structure LinkConfig where
  oauthProvider : OAuthProvider
  appProvider : Provider
  bundledClientId : Option String
  bundledClientSecret : Option String
  providerLabel : String
  deriving DecidableEq

def onConflict (text : String) : StorageError → LinkError
  | .conflict => .message text
  | e => .storage e

/-- The last step of both linking functions: the secret goes into the keyring, or the new
row is taken back and the keyring error is returned. -/
def commitSecret (account : Uuid) (secret : String) : Program LinkError Uuid := do
  match ← Action.attempt (saveAccountSecret account secret) with
  | .ok () => pure account
  | .error e => do
    Action.ignore (deleteAccount account)
    Action.raise (.storage e)

def linkAccountWithConfig (config : LinkConfig) (provider : EmailProvider) :
    Program LinkError Uuid := do
  let credentials ← Action.mapError .credentials
    (loadCredentials config.oauthProvider config.bundledClientId config.bundledClientSecret)
  let tokens ← Action.mapError .oauth (runOAuth credentials)
  match tokens.refreshToken with
  | none => Action.raise (.message "No refresh token was provided by OAuth provider")
  | some refreshToken => do
    let profile ← Action.mapError .provider (provider.getProfile tokens.accessToken)
    let account ← Action.mapError
      (onConflict ("The " ++ config.providerLabel ++ " account " ++ profile.emailAddress ++
        " is already linked"))
      (addAccount config.appProvider profile.emailAddress profile.displayName)
    commitSecret account refreshToken

def linkGmailAccount (bundled : Bundled) : Program LinkError Uuid :=
  linkAccountWithConfig {
    oauthProvider := .google
    appProvider := .gmail
    bundledClientId := bundled.googleClientId
    bundledClientSecret := bundled.googleClientSecret
    providerLabel := "Gmail" } Gmail.provider

def linkOutlookAccount (bundled : Bundled) : Program LinkError Uuid :=
  linkAccountWithConfig {
    oauthProvider := .microsoft
    appProvider := .outlook
    bundledClientId := bundled.microsoftClientId
    bundledClientSecret := none
    providerLabel := "Outlook" } Outlook.provider

def cleanPassword (password : String) : String :=
  String.ofList (password.toList.filter (!isWhitespace ·))

def linkImapAccount (email password host : String) (port : Nat) : Program LinkError Uuid := do
  let secret := cleanPassword password
  let _ ← Action.mapError .provider ((Imap.provider ⟨host, port, email⟩).getProfile secret)
  let account ← Action.mapError (onConflict ("The account " ++ email ++ " is already linked"))
    (addImapAccount .imap email none host port)
  commitSecret account secret

end Fumiko.EmailCore
