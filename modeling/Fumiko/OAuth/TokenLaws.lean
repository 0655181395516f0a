import Fumiko.OAuth.Tokens
import Fumiko.Storage.ServiceLaws

namespace Fumiko.OAuth

open Fumiko.Common Fumiko.Foundation Fumiko.Foundation.Action Fumiko.Net Fumiko.Program
  Fumiko.Storage

variable {ε α : Type} {R : World → World → Prop}

section Steps

theorem attemptOr_eq_ok {f : String → OAuthError} {r : Except String α} {a : α} {w w' : World}
    (h : attemptOr f r w = (.ok a, w')) : r = .ok a := by
  cases r with
  | error text => simp [attemptOr] at h
  | ok b =>
    cases h
    rfl

variable [Std.Refl R]

theorem moves_orElse (e : CredentialError) (a : Option α) : Moves R (orElse e a) := by
  cases a with
  | none => exact moves_raise _
  | some a => exact moves_pure _

theorem moves_attemptOr (f : String → OAuthError) (r : Except String α) : Moves R (attemptOr f r) := by
  cases r with
  | ok a => exact moves_pure a
  | error text => exact moves_raise _

end Steps

variable [Std.Refl R] [IsTrans World R]

section Credentials

theorem moves_getUserGoogleCredentials (hdb : ∀ w, R w w.afterDbCall)
    (hget : ∀ w, R w w.afterKeyringGet) : Moves R getUserGoogleCredentials := by
  apply moves_bind (moves_query hdb _)
  intro clientId
  cases clientId with
  | none => exact moves_pure _
  | some clientId =>
    apply moves_bind (moves_getSecret hget _)
    intro clientSecret
    cases clientSecret <;> exact moves_pure _

theorem moves_loadCredentials (hdb : ∀ w, R w w.afterDbCall) (hget : ∀ w, R w w.afterKeyringGet)
    (provider : OAuthProvider) (clientId clientSecret : Option String) :
    Moves R (loadCredentials provider clientId clientSecret) := by
  cases provider with
  | google =>
    apply moves_bind (moves_mapError (moves_getUserGoogleCredentials hdb hget))
    intro user
    cases user with
    | some credentials => exact moves_pure _
    | none =>
      apply moves_bind (moves_orElse _ _)
      intro clientId
      apply moves_bind (moves_orElse _ _)
      intro clientSecret
      exact moves_pure _
  | microsoft =>
    apply moves_bind (moves_mapError (moves_query hdb _))
    intro user
    cases user with
    | some clientId => exact moves_pure _
    | none =>
      apply moves_bind (moves_orElse _ _)
      intro clientId
      exact moves_pure _

end Credentials

section Authorization

theorem moves_checkedUrl (text : String) : Moves R (checkedUrl text) := by
  apply moves_bind (moves_read _)
  intro parse
  split
  · exact moves_pure _
  · exact moves_raise _

theorem moves_buildOAuthClient (credentials : RawCredentials) (port : Nat) :
    Moves R (buildOAuthClient credentials port) := by
  apply moves_bind (moves_checkedUrl _)
  intro authUri
  apply moves_bind (moves_checkedUrl _)
  intro tokenUri
  apply moves_bind (moves_checkedUrl _)
  intro redirectUrl
  exact moves_pure _

theorem moves_handleConnection (hserved : ∀ response w, R w (w.record (.served response)))
    (port : Nat) (requestLine : Except String String) :
    Moves R (handleConnection port requestLine) := by
  cases requestLine with
  | error text => exact moves_pure _
  | ok line =>
    rw [handleConnection]
    split
    · exact moves_pure _
    · apply moves_bind (moves_read _)
      intro parse
      apply moves_bind (moves_update (hserved _))
      intro _
      exact moves_liftExcept _

theorem moves_receiveAuthorizationCode (hserved : ∀ response w, R w (w.record (.served response)))
    (port : Nat) (accepts : List Accept) : Moves R (receiveAuthorizationCode port accepts) := by
  induction accepts with
  | nil => exact moves_pure _
  | cons accept accepts ih =>
    match accept with
    | .failed text => exact moves_raise _
    | .connection true line => exact moves_raise _
    | .connection false line =>
      apply moves_bind (moves_handleConnection hserved port line)
      intro result
      cases result with
      | none => exact ih
      | some result => exact moves_pure _

theorem moves_awaitCallback (hserved : ∀ response w, R w (w.record (.served response)))
    (signIn : SignIn) (port : Nat) : Moves R (awaitCallback signIn port) := by
  rw [awaitCallback]
  split
  · exact moves_raise _
  · apply moves_bind (moves_receiveAuthorizationCode hserved port _)
    intro result
    cases result with
    | none => exact moves_raise _
    | some result => exact moves_pure _

theorem moves_responseToTokenSet (hinstant : Moves R (instantNow : Program ε Int))
    (response : TokenResponse) (fallback : Option String) :
    Moves R (responseToTokenSet response fallback : Program ε TokenSet) := by
  apply moves_bind hinstant
  intro now
  exact moves_pure _

theorem moves_exchangeCode {code : String} (hexchanged : ∀ w, R w (w.record (.exchanged code)))
    (signIn : SignIn) (client : OAuthClient) : Moves R (exchangeCode signIn client code) := by
  apply moves_bind (moves_update hexchanged)
  intro _
  exact moves_attemptOr _ _

end Authorization

section Tokens

theorem moves_accountSecret (hget : ∀ w, R w w.afterKeyringGet) (account : Uuid) :
    Moves R (accountSecret account) := by
  apply moves_bind (moves_mapError (moves_getSecret hget _))
  intro secret
  cases secret with
  | none => exact moves_raise _
  | some secret => exact moves_pure _

theorem moves_refreshAccessToken (htoken : Moves R (nextToken : Program TokenError _))
    (hinstant : Moves R (instantNow : Program TokenError Int)) (refreshToken : String) :
    Moves R (refreshAccessToken refreshToken) := by
  apply moves_bind htoken
  intro response
  cases response with
  | error text => exact moves_raise _
  | ok response => exact moves_responseToTokenSet hinstant _ _

theorem moves_requestTokens (hdb : ∀ w, R w w.afterDbCall) (hget : ∀ w, R w w.afterKeyringGet)
    (htoken : Moves R (nextToken : Program TokenError _))
    (hinstant : Moves R (instantNow : Program TokenError Int)) (bundled : Bundled)
    (account : LinkedAccount) (refreshToken : String) :
    Moves R (requestTokens bundled account refreshToken) := by
  apply moves_bind
  · apply moves_mapError
    cases account.provider <;> exact moves_loadCredentials hdb hget _ _ _
  · intro credentials
    apply moves_bind (moves_mapError (moves_buildOAuthClient _ _))
    intro client
    exact moves_refreshAccessToken htoken hinstant refreshToken

end Tokens

section Calm

theorem calm_instantNow : Moves World.Calm (instantNow : Program ε Int) :=
  moves_step fun _ => ⟨rfl, rfl, rfl, rfl, rfl, List.suffix_rfl⟩

theorem calm_nextToken : Moves World.Calm (nextToken : Program ε (Except String TokenResponse)) :=
  moves_step fun _ => ⟨rfl, rfl, rfl, rfl, rfl, List.suffix_rfl⟩

theorem calm_nextSignIn : Moves World.Calm (nextSignIn : Program ε (Option SignIn)) :=
  moves_step fun _ => ⟨rfl, rfl, rfl, rfl, rfl, List.suffix_rfl⟩

theorem calm_nextImap : Moves World.Calm (nextImap : Program ε (Option ImapSession)) :=
  moves_step fun _ => ⟨rfl, rfl, rfl, rfl, rfl, List.suffix_rfl⟩

theorem calm_onGmail (x : Action (List GmailMoment) ε α) : Moves World.Calm (onGmail x) :=
  ⟨fun _ => ⟨rfl, rfl, rfl, rfl, rfl, List.suffix_rfl⟩⟩

theorem calm_onOutlook (x : Action (List OutlookMoment) ε α) : Moves World.Calm (onOutlook x) :=
  ⟨fun _ => ⟨rfl, rfl, rfl, rfl, rfl, List.suffix_rfl⟩⟩

theorem calm_loadCredentials (provider : OAuthProvider) (clientId clientSecret : Option String) :
    Moves World.Calm (loadCredentials provider clientId clientSecret) :=
  moves_loadCredentials World.calm_afterDbCall World.calm_afterKeyringGet provider clientId clientSecret

theorem calm_signInWith (signIn : SignIn) (credentials : RawCredentials) :
    Moves World.Calm (signInWith signIn credentials) := by
  apply moves_bind (moves_attemptOr _ _)
  intro port
  apply moves_bind (moves_buildOAuthClient _ _)
  intro client
  apply moves_bind (moves_attemptOr _ _)
  intro _
  apply moves_bind (moves_awaitCallback (fun _ => World.calm_record _) _ _)
  rintro ⟨code, state⟩
  apply moves_bind (moves_liftExcept _)
  intro _
  apply moves_bind (moves_attemptOr _ _)
  intro _
  apply moves_bind (moves_exchangeCode (World.calm_record _) _ _)
  intro response
  exact moves_responseToTokenSet calm_instantNow _ _

theorem calm_runOAuth (credentials : RawCredentials) : Moves World.Calm (runOAuth credentials) := by
  apply moves_bind calm_nextSignIn
  intro signIn
  cases signIn with
  | none => exact moves_raise _
  | some signIn => exact calm_signInWith signIn credentials

theorem calm_accountSecret (account : Uuid) : Moves World.Calm (accountSecret account) :=
  moves_accountSecret World.calm_afterKeyringGet account

theorem calm_requestTokens (bundled : Bundled) (account : LinkedAccount) (refreshToken : String) :
    Moves World.Calm (requestTokens bundled account refreshToken) :=
  moves_requestTokens World.calm_afterDbCall World.calm_afterKeyringGet calm_nextToken
    calm_instantNow bundled account refreshToken

end Calm

end Fumiko.OAuth
