import Fumiko.OAuth.Authorization

namespace Fumiko.OAuth

open Fumiko.Common Fumiko.Foundation Fumiko.Net Fumiko.Program Fumiko.Storage

def refreshAccessToken (refreshToken : String) : Program TokenError TokenSet := do
  match ← nextToken with
  | .error text => Action.raise (.request text)
  | .ok response => responseToTokenSet response (some refreshToken)

def accountSecret (account : Uuid) : Program TokenError String := do
  match ← Action.mapError .storage (getAccountSecret account) with
  | some secret => pure secret
  | none => Action.raise (.missingAccountSecret account)

def persistRotation (account : Uuid) (refreshToken : String) (tokens : TokenSet) :
    Program TokenError Unit :=
  match tokens.refreshToken with
  | some newRefreshToken =>
    if newRefreshToken ≠ refreshToken then
      Action.mapError .storage (saveAccountSecret account newRefreshToken)
    else pure ()
  | none => pure ()

/-- The part of the token function that only reads: the client credentials, and the exchange
with the identity provider. -/
def requestTokens (bundled : Bundled) (account : LinkedAccount) (refreshToken : String) :
    Program TokenError TokenSet := do
  let credentials ← Action.mapError .credentials <| match account.provider with
    | .outlook => loadCredentials .microsoft bundled.microsoftClientId none
    | _ => loadCredentials .google bundled.googleClientId bundled.googleClientSecret
  -- A refresh binds no redirect port.
  let _ ← Action.mapError (fun e => .request e.display) (buildOAuthClient credentials 0)
  refreshAccessToken refreshToken

def getAccessTokenForAccount (bundled : Bundled) (account : LinkedAccount) :
    Program TokenError TokenSet := do
  if account.provider = .imap ∨ account.imapHost.isSome then
    let password ← accountSecret account.id
    let now ← instantNow
    pure { accessToken := password, refreshToken := none, expiresAt := now + 50 * 60 }
  else
    let refreshToken ← accountSecret account.id
    let tokens ← requestTokens bundled account refreshToken
    persistRotation account.id refreshToken tokens
    pure tokens

end Fumiko.OAuth
