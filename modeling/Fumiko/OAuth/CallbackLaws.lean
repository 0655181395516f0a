import Fumiko.OAuth.TokenLaws

namespace Fumiko.OAuth

open Fumiko.Common Fumiko.Foundation Fumiko.Foundation.Action Fumiko.Net Fumiko.Program

section Comparison

theorem fold_xor_eq_zero (ps : List (UInt8 × UInt8)) (acc : UInt8) :
    ps.foldl (fun acc p => acc ||| (p.1 ^^^ p.2)) acc = 0 ↔ acc = 0 ∧ ∀ p ∈ ps, p.1 = p.2 := by
  induction ps generalizing acc with
  | nil => simp
  | cons p ps ih =>
    rw [List.foldl_cons, ih, UInt8.or_eq_zero_iff, UInt8.xor_eq_zero_iff, List.forall_mem_cons,
      and_assoc]

theorem eq_of_zip {a b : List UInt8} (hlen : a.length = b.length)
    (h : ∀ p ∈ a.zip b, p.1 = p.2) : a = b := by
  induction a generalizing b with
  | nil => exact (List.length_eq_zero_iff.mp hlen.symm).symm
  | cons x a ih =>
    cases b with
    | nil => simp at hlen
    | cons y b =>
      simp only [List.zip_cons_cons, List.forall_mem_cons] at h
      rw [h.1, ih (Nat.succ.inj hlen) h.2]

theorem zip_self (a : List UInt8) : ∀ p ∈ a.zip a, p.1 = p.2 := by
  induction a with
  | nil => simp
  | cons x a ih => simpa using ih

theorem constantTimeEq_eq_true (a b : List UInt8) : constantTimeEq a b = true ↔ a = b := by
  rw [constantTimeEq]
  split
  · next hlen =>
    constructor
    · intro h
      cases h
    · intro h
      exact absurd (congrArg List.length h) hlen
  · next hlen =>
    rw [beq_iff_eq, fold_xor_eq_zero]
    constructor
    · intro h
      exact eq_of_zip (not_not.mp hlen) h.2
    · intro h
      exact ⟨rfl, h ▸ zip_self a⟩

theorem validateCsrfState_eq_ok {expected returned : String}
    (h : validateCsrfState expected returned = .ok ()) : asBytes returned = asBytes expected := by
  rw [validateCsrfState] at h
  split at h
  · next heq => exact ((constantTimeEq_eq_true _ _).mp heq).symm
  · cases h

end Comparison

section Parsing

variable {parse : String → Except String Url} {port : Nat}

/-- The request asks for the redirect path without an `error` parameter, and the first
values of `code` and `state` are the given ones. -/
def Carries (parse : String → Except String Url) (port : Nat) (code state requestLine : String) :
    Prop :=
  ∃ target url, requestTarget requestLine = some target ∧ parse (loopbackUrl port target) = .ok url ∧
    url.path = "/" ∧ (∀ p ∈ url.queryPairs, p.1 ≠ "error") ∧
    firstValue url "code" = some code ∧ firstValue url "state" = some state

def Blank (text : String) : Prop := ∀ c ∈ text.toList, isWhitespace c

theorem firstValue_eq_none {url : Url} {name : String} :
    firstValue url name = none ↔ ∀ p ∈ url.queryPairs, p.1 ≠ name := by
  simp [firstValue]

theorem readCallback_eq_ok {url : Url} {code state : String}
    (h : readCallback url = .ok (code, state)) :
    firstValue url "error" = none ∧ firstValue url "code" = some code ∧ ¬Blank code ∧
      firstValue url "state" = some state := by
  rw [readCallback] at h
  cases herror : firstValue url "error" with
  | some error => simp [herror] at h
  | none =>
    cases hcode : firstValue url "code" with
    | none => simp [herror, hcode] at h
    | some c =>
      simp only [herror, hcode] at h
      split at h
      · cases h
      · next hblank =>
        cases hstate : firstValue url "state" with
        | none => simp [hstate] at h
        | some s =>
          simp only [hstate, Except.ok.injEq, Prod.mk.injEq] at h
          rw [List.isEmpty_iff, trim_eq_nil] at hblank
          exact ⟨rfl, congrArg some h.1, h.1 ▸ hblank, congrArg some h.2⟩

theorem parseCallbackTarget_eq_ok {target code state : String}
    (h : parseCallbackTarget parse port target = .ok (code, state)) :
    ∃ url, parse (loopbackUrl port target) = .ok url ∧ url.path = "/" ∧
      readCallback url = .ok (code, state) := by
  rw [parseCallbackTarget] at h
  cases hparse : parse (loopbackUrl port target) with
  | error text => simp [hparse] at h
  | ok url =>
    simp only [hparse] at h
    split at h
    · cases h
    · next hpath => exact ⟨url, rfl, not_not.mp hpath, h⟩

theorem connectionOutcome_eq_some {r : Except OAuthError (String × String)} {p : String × String}
    (h : connectionOutcome r = .ok (some p)) : r = .ok p := by
  cases r with
  | ok q =>
    simp only [connectionOutcome, Except.ok.injEq, Option.some.injEq] at h
    rw [h]
  | error e => cases e <;> simp [connectionOutcome] at h

end Parsing

section Flow

variable {P : Event → Prop} {parse : String → Except String Url} {port : Nat}

/-- The steps that leave the URL library alone and only add events with the property `P`. -/
abbrev Reads (parse : String → Except String Url) (P : Event → Prop) : World → World → Prop :=
  Guarded (fun w => w.outside.parseUrl = parse) (World.Emits P)

theorem reads_record {e : Event} (h : P e) (w : World) : Reads parse P w (w.record e) :=
  fun hw => ⟨hw, World.emits_record h⟩

theorem reads_instantNow : Moves (Reads parse P) (instantNow : Program OAuthError Int) :=
  moves_step fun _ hw => ⟨hw, World.emits_of_keeps rfl⟩

theorem handleConnection_eq_some {requestLine : Except String String} {code state : String}
    {w w' : World} (h : handleConnection port requestLine w = (.ok (some (code, state)), w')) :
    ∃ line, requestLine = .ok line ∧ Carries w.outside.parseUrl port code state line ∧
      ¬Blank code := by
  cases requestLine with
  | error text => simp [handleConnection] at h
  | ok line =>
    rw [handleConnection] at h
    cases htarget : requestTarget line with
    | none => simp [htarget] at h
    | some target =>
      simp only [htarget, bind_run, read_run, log, update_run] at h
      have hresult : connectionOutcome (parseCallbackTarget w.outside.parseUrl port target) =
          .ok (some (code, state)) := by
        cases hout : connectionOutcome (parseCallbackTarget w.outside.parseUrl port target) with
        | error e => simp [hout, Action.liftExcept] at h
        | ok result =>
          simp only [hout, Action.liftExcept, ret, Prod.mk.injEq] at h
          exact h.1
      obtain ⟨url, hurl, hpath, hread⟩ := parseCallbackTarget_eq_ok (connectionOutcome_eq_some hresult)
      obtain ⟨herror, hcode, hblank, hstate⟩ := readCallback_eq_ok hread
      exact ⟨line, rfl,
        ⟨target, url, htarget, hurl, hpath, firstValue_eq_none.mp herror, hcode, hstate⟩, hblank⟩

theorem receiveAuthorizationCode_eq_some {accepts : List Accept} {code state : String} {w w' : World}
    (h : receiveAuthorizationCode port accepts w = (.ok (some (code, state)), w')) :
    ∃ line, .connection false (.ok line) ∈ accepts ∧
      Carries w.outside.parseUrl port code state line ∧ ¬Blank code := by
  induction accepts generalizing w with
  | nil => simp [receiveAuthorizationCode] at h
  | cons accept accepts ih =>
    match accept, h with
    | .failed text, h => simp [receiveAuthorizationCode] at h
    | .connection true line, h => simp [receiveAuthorizationCode] at h
    | .connection false line, h =>
      rw [receiveAuthorizationCode, bind_eq_ok] at h
      obtain ⟨result, u, hhandle, hrest⟩ := h
      cases result with
      | none =>
        obtain ⟨line', hmem, hcarries, hblank⟩ := ih hrest
        have hkeeps : u.outside.parseUrl = w.outside.parseUrl :=
          (moves_handleConnection (R := Keeps fun w => w.outside.parseUrl) (fun _ _ => rfl)
            port line).of_eq hhandle
        exact ⟨line', List.mem_cons_of_mem _ hmem, hkeeps ▸ hcarries, hblank⟩
      | some result =>
        cases hrest
        obtain ⟨line', hline, hcarries, hblank⟩ := handleConnection_eq_some hhandle
        exact ⟨line', hline ▸ List.mem_cons_self, hcarries, hblank⟩

theorem awaitCallback_eq_ok {signIn : SignIn} {code state : String} {w w' : World}
    (h : awaitCallback signIn port w = (.ok (code, state), w')) :
    ∃ line, .connection false (.ok line) ∈ signIn.accepts ∧
      Carries w.outside.parseUrl port code state line ∧ ¬Blank code := by
  rw [awaitCallback] at h
  cases hjoin : signIn.joinError with
  | some text => simp [hjoin] at h
  | none =>
    simp only [hjoin, bind_eq_ok] at h
    obtain ⟨result, u, hreceive, hrest⟩ := h
    cases result with
    | none => simp at hrest
    | some result =>
      cases hrest
      exact receiveAuthorizationCode_eq_some hreceive

def Backed (parse : String → Except String Url) (signIn : SignIn) : Event → Prop
  | .exchanged code => ∃ port line state, signIn.bind = .ok port ∧
      .connection false (.ok line) ∈ signIn.accepts ∧ Carries parse port code state line ∧
      ¬Blank code ∧ asBytes state = asBytes signIn.csrfToken
  | _ => True

theorem reads_signInWith (parse : String → Except String Url) (signIn : SignIn)
    (credentials : RawCredentials) : Moves (Reads parse (Backed parse signIn)) (signInWith signIn credentials) := by
  have hserved (response : String) : Backed parse signIn (.served response) := trivial
  apply moves_bind_of (moves_attemptOr _ _)
  intro _ port w₁ hbind
  refine (moves_bind (moves_buildOAuthClient _ _) fun client => ?_).run w₁
  apply moves_bind (moves_attemptOr _ _)
  intro _
  apply moves_guarded_bind (moves_awaitCallback (fun _ => reads_record (hserved _)) signIn port)
  rintro w₂ ⟨code, state⟩ w₃ hparse - hawait
  dsimp only
  cases hvalid : validateCsrfState signIn.csrfToken state with
  | error e => exact Std.Refl.refl w₃
  | ok _ =>
    -- From here on the code may be exchanged: the request it came from is the one accepted.
    obtain ⟨line, hmem, hcarries, hblank⟩ := awaitCallback_eq_ok hawait
    have hbacked : Backed parse signIn (.exchanged code) :=
      ⟨port, line, state, attemptOr_eq_ok hbind, hmem, hparse ▸ hcarries, hblank,
        validateCsrfState_eq_ok hvalid⟩
    have hrest : Moves (Reads parse (Backed parse signIn)) (do
        attemptOr .network signIn.httpClient
        let response ← exchangeCode signIn client code
        responseToTokenSet response none) := by
      apply moves_bind (moves_attemptOr _ _)
      intro _
      apply moves_bind (moves_exchangeCode (reads_record hbacked) signIn client)
      intro response
      exact moves_responseToTokenSet reads_instantNow _ _
    exact hrest.run w₃

end Flow

/-- A code is only exchanged after a request that carried it together with the expected
state, and the comparison of states is equality. -/
theorem runOAuth_exchanges_authorized :
    (∀ (credentials : RawCredentials) (w : World) (code : String),
      .exchanged code ∈ w.since (runOAuth credentials w).2 →
      ∃ signIn port line state, w.outside.signIns.head? = some signIn ∧ signIn.bind = .ok port ∧
        .connection false (.ok line) ∈ signIn.accepts ∧
        Carries w.outside.parseUrl port code state line ∧ ¬Blank code ∧
        asBytes state = asBytes signIn.csrfToken) ∧
    ∀ a b : List UInt8, constantTimeEq a b = true ↔ a = b := by
  refine ⟨?_, constantTimeEq_eq_true⟩
  intro credentials w code hcode
  simp only [runOAuth, nextSignIn, bind_run, step_run] at hcode
  cases hhead : w.outside.signIns.head? with
  | none => simp [hhead, World.since] at hcode
  | some signIn =>
    simp only [hhead] at hcode
    have hmoves := (reads_signInWith w.outside.parseUrl signIn credentials).run
      { w with outside := { w.outside with signIns := w.outside.signIns.tail } } rfl
    obtain ⟨port, line, state, hrest⟩ := hmoves.2.of_mem_since hcode
    exact ⟨signIn, port, line, state, rfl, hrest⟩

section Example

def exampleCredentials : RawCredentials where
  clientId := "client-id"
  clientSecret := none
  authUri := "https://example.com/authorize"
  tokenUri := "https://example.com/token"

def exampleParse (text : String) : Except String Url :=
  if text = "https://example.com/authorize" then .ok ⟨"/authorize", []⟩
  else if text = "https://example.com/token" then .ok ⟨"/token", []⟩
  else if text = "http://127.0.0.1:9876/" then .ok ⟨"/", []⟩
  else if text = "http://127.0.0.1:9876/?code=abc123&state=expected-state" then
    .ok ⟨"/", [("code", "abc123"), ("state", "expected-state")]⟩
  else .error "unknown"

def exampleSignIn : SignIn where
  bind := .ok 9876
  csrfToken := "expected-state"
  browser := .ok ()
  accepts := [.connection false (.error "timed out"),
    .connection false (.ok "GET /?code=abc123&state=expected-state HTTP/1.1\r\n")]
  joinError := none
  httpClient := .ok ()
  exchange _ _ := .ok ⟨"access", some "refresh", none⟩

def exampleWorld : World where
  db := Storage.Db.empty
  keyring _ := none
  tokenCache := []
  journal := []
  outside := { parseUrl := exampleParse, signIns := [exampleSignIn] }

theorem exampleWorld_exchanges :
    .exchanged "abc123" ∈ exampleWorld.since (runOAuth exampleCredentials exampleWorld).2 := by
  have hjournal : exampleWorld.since (runOAuth exampleCredentials exampleWorld).2 =
      [.served (httpResponse (responsePage (.ok ("abc123", "expected-state")))),
        .exchanged "abc123"] := by rfl
  simp [hjournal]

theorem runOAuth_exchanges_authorized_example :
    ∃ signIn port line state, exampleWorld.outside.signIns.head? = some signIn ∧
      signIn.bind = .ok port ∧ .connection false (.ok line) ∈ signIn.accepts ∧
      Carries exampleParse port "abc123" state line ∧ ¬Blank "abc123" ∧
      asBytes state = asBytes signIn.csrfToken :=
  runOAuth_exchanges_authorized.1 exampleCredentials exampleWorld "abc123" exampleWorld_exchanges

end Example

end Fumiko.OAuth
