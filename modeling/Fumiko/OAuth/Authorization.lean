import Fumiko.Foundation.Text
import Fumiko.OAuth.Credentials

namespace Fumiko.OAuth

open Fumiko.Common Fumiko.Foundation Fumiko.Net Fumiko.Program

def redirectPath : String := "/"

def loopbackUrl (port : Nat) (target : String) : String :=
  "http://127.0.0.1:" ++ Nat.repr port ++ target

section Client

def trimmed (text : String) : String := String.ofList (trim text.toList)

/-- `AuthUrl::new` and its siblings. -/
def checkedUrl (text : String) : Program OAuthError String := do
  let parse ← Action.read fun w => w.outside.parseUrl
  match parse text with
  | .ok _ => pure text
  | .error source => Action.raise (.invalidEndpointConfig source)

def buildOAuthClient (credentials : RawCredentials) (redirectPort : Nat) :
    Program OAuthError OAuthClient := do
  let authUri ← checkedUrl credentials.authUri
  let tokenUri ← checkedUrl credentials.tokenUri
  let redirectUrl ← checkedUrl (loopbackUrl redirectPort redirectPath)
  pure {
    clientId := trimmed credentials.clientId
    clientSecret := credentials.clientSecret.map trimmed
    authUri
    tokenUri
    redirectUrl }

end Client

section Csrf

def constantTimeEq (a b : List UInt8) : Bool :=
  if a.length ≠ b.length then false
  else (a.zip b).foldl (fun acc p => acc ||| (p.1 ^^^ p.2)) 0 == 0

def asBytes (text : String) : List UInt8 := text.toByteArray.data.toList

def validateCsrfState (expected returned : String) : Except OAuthError Unit :=
  if constantTimeEq (asBytes expected) (asBytes returned) then .ok () else .error .csrfMismatch

end Csrf

section Callback

/-- `query_pairs().find(|(key, _)| key == name)` -/
def firstValue (url : Url) (name : String) : Option String :=
  (url.queryPairs.find? (·.1 = name)).map Prod.snd

def callbackError (url : Url) (error : String) : OAuthError :=
  let description := (firstValue url "error_description").getD error
  if error = "access_denied" then .accessDenied description else .providerCallbackError description

/-- The code and the state of a callback.  An `error` parameter is looked at first. -/
def readCallback (url : Url) : Except OAuthError (String × String) :=
  match firstValue url "error" with
  | some error => .error (callbackError url error)
  | none =>
    match firstValue url "code" with
    | none => .error .missingAuthorizationCode
    | some code =>
      if (trim code.toList).isEmpty then .error .emptyAuthorizationCode
      else match firstValue url "state" with
        | none => .error .missingState
        | some state => .ok (code, state)

def parseCallbackTarget (parse : String → Except String Url) (port : Nat) (target : String) :
    Except OAuthError (String × String) :=
  match parse (loopbackUrl port target) with
  | .error _ => .error .invalidCallbackTarget
  | .ok url =>
    if url.path ≠ redirectPath then .error .invalidCallbackTarget else readCallback url

def responsePage : Except OAuthError (String × String) → String × String
  | .ok _ => ("HTTP/1.1 200 OK",
    "<html><body>Authentication complete. You can close this tab and return to the app.</body></html>")
  | .error .invalidCallbackTarget =>
    ("HTTP/1.1 404 Not Found", "<html><body>Not found.</body></html>")
  | .error _ => ("HTTP/1.1 400 Bad Request",
    "<html><body>Authorization did not complete. You can close this tab and return to the app.</body></html>")

def httpResponse (page : String × String) : String :=
  page.1 ++ "\r\nContent-Type: text/html\r\nContent-Length: " ++ Nat.repr page.2.utf8ByteSize ++
    "\r\nConnection: close\r\n\r\n" ++ page.2

/-- `split_whitespace().nth(1)` -/
def requestTarget (requestLine : String) : Option String :=
  (words requestLine.toList)[1]?.map String.ofList

/-- Only the two errors a provider reports end the loop; anything else waits for the next
connection. -/
def connectionOutcome :
    Except OAuthError (String × String) → Except OAuthError (Option (String × String))
  | .ok result => .ok (some result)
  | .error (.accessDenied description) => .error (.accessDenied description)
  | .error (.providerCallbackError description) => .error (.providerCallbackError description)
  | .error _ => .ok none

def handleConnection (port : Nat) (requestLine : Except String String) :
    Program OAuthError (Option (String × String)) := do
  match requestLine with
  | .error _ => pure none
  | .ok line =>
    match requestTarget line with
    | none => pure none
    | some target => do
      let parse ← Action.read fun w => w.outside.parseUrl
      let result := parseCallbackTarget parse port target
      log (.served (httpResponse (responsePage result)))
      Action.liftExcept (connectionOutcome result)

def receiveAuthorizationCode (port : Nat) :
    List Accept → Program OAuthError (Option (String × String))
  | [] => pure none
  | .failed text :: _ => Action.raise (.listenerBindFailed text)
  | .connection true _ :: _ => Action.raise .cancelled
  | .connection false requestLine :: accepts => do
    match ← handleConnection port requestLine with
    | some result => pure (some result)
    | none => receiveAuthorizationCode port accepts

end Callback

section Flow

def attemptOr {α : Type} (f : String → OAuthError) : Except String α → Program OAuthError α
  | .ok a => pure a
  | .error text => Action.raise (f text)

def awaitCallback (signIn : SignIn) (port : Nat) : Program OAuthError (String × String) := do
  match signIn.joinError with
  | some text => Action.raise (.callbackTaskFailed text)
  | none =>
    match ← receiveAuthorizationCode port signIn.accepts with
    | some result => pure result
    | none => Action.raise .callbackTimeout

def exchangeCode (signIn : SignIn) (client : OAuthClient) (code : String) :
    Program OAuthError TokenResponse := do
  log (.exchanged code)
  attemptOr .tokenExchange (signIn.exchange client code)

def signInWith (signIn : SignIn) (credentials : RawCredentials) : Program OAuthError TokenSet := do
  let port ← attemptOr .listenerBindFailed signIn.bind
  let client ← buildOAuthClient credentials port
  attemptOr .browserLaunchFailed signIn.browser
  let (code, returnedState) ← awaitCallback signIn port
  Action.liftExcept (validateCsrfState signIn.csrfToken returnedState)
  attemptOr .network signIn.httpClient
  let response ← exchangeCode signIn client code
  responseToTokenSet response none

def runOAuth (credentials : RawCredentials) : Program OAuthError TokenSet := do
  match ← nextSignIn with
  | none => Action.raise (.listenerBindFailed "address not available")
  | some signIn => signInWith signIn credentials

end Flow

end Fumiko.OAuth
