import Fumiko.Storage.Service

namespace Fumiko.OAuth

open Fumiko.Common Fumiko.Foundation Fumiko.Net Fumiko.Program Fumiko.Storage

inductive OAuthProvider
  | google | microsoft
  deriving DecidableEq

/-- The client credentials compiled into the binary, where the build had them. -/
structure Bundled where
  googleClientId : Option String
  googleClientSecret : Option String
  microsoftClientId : Option String

def orElse {α : Type} (e : CredentialError) : Option α → Program CredentialError α
  | some a => pure a
  | none => Action.raise e

def loadCredentials (provider : OAuthProvider) (bundledClientId bundledClientSecret : Option String) :
    Program CredentialError RawCredentials := do
  match provider with
  | .google =>
    let user ← Action.mapError .storage getUserGoogleCredentials
    let (clientId, clientSecret) ← match user with
      | some credentials => pure credentials
      | none => do
        let clientId ← orElse (.missingClientId "Google") bundledClientId
        let clientSecret ← orElse .missingGoogleClientSecretConfig bundledClientSecret
        pure (clientId, clientSecret)
    pure {
      clientId
      clientSecret := some clientSecret
      authUri := "https://accounts.google.com/o/oauth2/v2/auth"
      tokenUri := "https://oauth2.googleapis.com/token" }
  | .microsoft =>
    let user ← Action.mapError .storage getUserMicrosoftClientId
    let clientId ← match user with
      | some clientId => pure clientId
      | none => orElse (.missingClientId "Microsoft") bundledClientId
    pure {
      clientId
      clientSecret := none
      authUri := "https://login.microsoftonline.com/common/oauth2/v2.0/authorize"
      tokenUri := "https://login.microsoftonline.com/common/oauth2/v2.0/token" }

def safeExpiresIn (expiresIn : Option Nat) : Nat :=
  min (max (expiresIn.getD 3600 - 10 * 60) 60) (50 * 60)

def responseToTokenSet {ε : Type} (response : TokenResponse) (fallbackRefreshToken : Option String) :
    Program ε TokenSet := do
  let now ← instantNow
  pure {
    accessToken := response.accessToken
    refreshToken := response.refreshToken <|> fallbackRefreshToken
    expiresAt := now + safeExpiresIn response.expiresIn }

end Fumiko.OAuth
