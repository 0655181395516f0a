import Fumiko.OAuth.CallbackLaws

namespace Fumiko.OAuth

open Fumiko.Common Fumiko.Foundation Fumiko.Foundation.Action Fumiko.Net Fumiko.Program

def receiveValidated (port : Nat) (expected : String) (accepts : List Accept) :
    Program OAuthError (Option String) := do
  match ← receiveAuthorizationCode port accepts with
  | some (code, state) => do
    Action.liftExcept (validateCsrfState expected state)
    pure (some code)
  | none => pure none

def incoming (requestLine : Except String String) : Accept := .connection false requestLine

section Requests

variable {parse : String → Except String Url} {port : Nat}

def Asks (parse : String → Except String Url) (port : Nat) (requestLine : Except String String)
    (url : Url) : Prop :=
  ∃ line target, requestLine = .ok line ∧ requestTarget line = some target ∧
    parse (loopbackUrl port target) = .ok url

/-- The redirect `/?code=c&state=s`. -/
def Redirects (parse : String → Except String Url) (port : Nat) (code state : String)
    (requestLine : Except String String) : Prop :=
  Asks parse port requestLine ⟨"/", [("code", code), ("state", state)]⟩

/-- One of the `state` parameters of the request has the given value. -/
def PresentsState (parse : String → Except String Url) (port : Nat) (state : String)
    (requestLine : Except String String) : Prop :=
  ∃ url, Asks parse port requestLine url ∧ ("state", state) ∈ url.queryPairs

/-- On the redirect path the request has no `error` parameter, and not both a code and a state. -/
def Harmless (parse : String → Except String Url) (port : Nat)
    (requestLine : Except String String) : Prop :=
  ∀ url, Asks parse port requestLine url → url.path = "/" →
    firstValue url "error" = none ∧
      ∀ code, firstValue url "code" = some code → ¬Blank code → firstValue url "state" = none

end Requests

section Connection

variable {parse : String → Except String Url} {port : Nat} {requestLine : Except String String}

def connectionResult (parse : String → Except String Url) (port : Nat) :
    Except String String → Except OAuthError (Option (String × String))
  | .error _ => .ok none
  | .ok line =>
    match requestTarget line with
    | none => .ok none
    | some target => connectionOutcome (parseCallbackTarget parse port target)

theorem handleConnection_run (port : Nat) (requestLine : Except String String) (w : World) :
    ∃ w', handleConnection port requestLine w =
        (connectionResult w.outside.parseUrl port requestLine, w') ∧
      w'.outside.parseUrl = w.outside.parseUrl := by
  cases requestLine with
  | error text => exact ⟨w, rfl, rfl⟩
  | ok line =>
    rw [handleConnection, connectionResult]
    cases requestTarget line with
    | none => exact ⟨w, rfl, rfl⟩
    | some target =>
      let result := parseCallbackTarget w.outside.parseUrl port target
      refine ⟨w.record (.served (httpResponse (responsePage result))), ?_, rfl⟩
      simp only [bind_run, read_run, log, update_run, result]
      cases connectionOutcome (parseCallbackTarget w.outside.parseUrl port target) <;> rfl

theorem blank_iff {code : String} : (trim code.toList).isEmpty = true ↔ Blank code := by
  rw [List.isEmpty_iff, trim_eq_nil, Blank]

theorem connectionOutcome_readCallback {url : Url} :
    connectionOutcome (readCallback url) = .ok none ↔
      firstValue url "error" = none ∧
        ∀ code, firstValue url "code" = some code → ¬Blank code → firstValue url "state" = none := by
  rw [readCallback]
  cases firstValue url "error" with
  | some error =>
    simp only [callbackError]
    split <;> simp [connectionOutcome]
  | none =>
    cases firstValue url "code" with
    | none => simp [connectionOutcome]
    | some code =>
      by_cases hblank : Blank code
      · simp [blank_iff.mpr hblank, hblank, connectionOutcome]
      · have hcode : (trim code.toList).isEmpty = false := Bool.eq_false_iff.mpr (mt blank_iff.mp hblank)
        cases firstValue url "state" <;> simp [hcode, hblank, connectionOutcome]

theorem connectionResult_eq_none :
    connectionResult parse port requestLine = .ok none ↔ Harmless parse port requestLine := by
  cases requestLine with
  | error text => simp [connectionResult, Harmless, Asks]
  | ok line =>
    rw [connectionResult]
    cases htarget : requestTarget line with
    | none => simp [Harmless, Asks, htarget]
    | some target =>
      simp only [parseCallbackTarget]
      cases hparse : parse (loopbackUrl port target) with
      | error text => simp [connectionOutcome, Harmless, Asks, htarget, hparse]
      | ok url =>
        have hasks (other : Url) : Asks parse port (.ok line) other ↔ other = url := by
          simp [Asks, htarget, hparse, eq_comm]
        by_cases hpath : url.path = redirectPath
        · simp only [Harmless, hasks, forall_eq, ne_eq, hpath, not_true_eq_false, if_false,
            connectionOutcome_readCallback]
          simp [redirectPath]
        · have hother : ¬url.path = "/" := hpath
          simp [Harmless, hasks, hpath, hother, connectionOutcome]

theorem connectionResult_eq_some {code state : String}
    (h : connectionResult parse port requestLine = .ok (some (code, state))) :
    PresentsState parse port state requestLine := by
  cases requestLine with
  | error text => cases h
  | ok line =>
    rw [connectionResult] at h
    cases htarget : requestTarget line with
    | none => simp [htarget] at h
    | some target =>
      simp only [htarget] at h
      obtain ⟨url, hurl, -, hread⟩ := parseCallbackTarget_eq_ok (connectionOutcome_eq_some h)
      obtain ⟨-, -, -, hstate⟩ := readCallback_eq_ok hread
      obtain ⟨p, hfind, rfl⟩ := Option.map_eq_some_iff.mp hstate
      have hname : p.1 = "state" := by simpa using List.find?_some hfind
      refine ⟨url, ⟨line, target, rfl, htarget, hurl⟩, ?_⟩
      rw [← hname]
      exact List.mem_of_find?_eq_some hfind

theorem connectionResult_redirect {code state : String}
    (h : Redirects parse port code state requestLine) :
    connectionResult parse port requestLine =
      .ok (if (trim code.toList).isEmpty then none else some (code, state)) := by
  obtain ⟨line, target, rfl, htarget, hparse⟩ := h
  simp only [connectionResult, htarget, parseCallbackTarget, hparse, redirectPath, ne_eq,
    not_true_eq_false, if_false, readCallback, firstValue]
  cases hcode : (trim code.toList).isEmpty <;> simp [hcode, connectionOutcome]

end Connection

section Loop

variable {port : Nat} {expected code : String} {requestLine redirect : Except String String}
  {w : World}

theorem validateCsrfState_self (state : String) : validateCsrfState state state = .ok () := by
  rw [validateCsrfState, if_pos ((constantTimeEq_eq_true _ _).mpr rfl)]

theorem validateCsrfState_ne {state : String} (h : state ≠ expected) :
    validateCsrfState expected state = .error .csrfMismatch := by
  rw [validateCsrfState, if_neg]
  intro heq
  apply h
  have hbytes : asBytes expected = asBytes state := (constantTimeEq_eq_true _ _).mp heq
  apply String.toByteArray_inj.mp
  apply ByteArray.ext
  exact (Array.toList_inj.mp hbytes).symm

theorem receiveValidated_cons (port : Nat) (expected : String) (requestLine : Except String String)
    (accepts : List Accept) (w : World) :
    ∃ w', w'.outside.parseUrl = w.outside.parseUrl ∧
      (receiveValidated port expected (incoming requestLine :: accepts) w).1 =
        match connectionResult w.outside.parseUrl port requestLine with
        | .ok none => (receiveValidated port expected accepts w').1
        | .ok (some (code, state)) => (validateCsrfState expected state).map fun _ => some code
        | .error e => .error e := by
  obtain ⟨w', hrun, hparse⟩ := handleConnection_run port requestLine w
  refine ⟨w', hparse, ?_⟩
  rw [receiveValidated, receiveValidated, incoming, receiveAuthorizationCode]
  simp only [bind_run, hrun]
  rcases connectionResult w.outside.parseUrl port requestLine with e | _ | ⟨code, state⟩
  · rfl
  · rfl
  · simp only [pure_run, bind_run]
    cases validateCsrfState expected state <;> rfl

theorem receiveValidated_redirect (h : Redirects w.outside.parseUrl port code expected redirect) :
    (receiveValidated port expected [incoming redirect] w).1 =
      .ok (if (trim code.toList).isEmpty then none else some code) := by
  obtain ⟨w', -, hcons⟩ := receiveValidated_cons port expected redirect [] w
  rw [hcons, connectionResult_redirect h]
  cases (trim code.toList).isEmpty with
  | true => rfl
  | false => simp [validateCsrfState_self, Except.map]

theorem receiveValidated_strays {strays : List (Except String String)} (hcode : ¬Blank code)
    (hstrays : ∀ stray ∈ strays, ¬PresentsState w.outside.parseUrl port expected stray)
    (h : Redirects w.outside.parseUrl port code expected redirect) :
    (receiveValidated port expected (strays.map incoming ++ [incoming redirect]) w).1 =
        .ok (some code) ↔
      ∀ stray ∈ strays, Harmless w.outside.parseUrl port stray := by
  induction strays generalizing w with
  | nil =>
    have hfilled : (trim code.toList).isEmpty = false := Bool.eq_false_iff.mpr (mt blank_iff.mp hcode)
    simp [receiveValidated_redirect h, hfilled]
  | cons stray strays ih =>
    obtain ⟨hstray, hrest⟩ := List.forall_mem_cons.mp hstrays
    obtain ⟨w', hparse, hcons⟩ := receiveValidated_cons port expected stray
      (strays.map incoming ++ [incoming redirect]) w
    rw [List.map_cons, List.cons_append, hcons, List.forall_mem_cons, ← connectionResult_eq_none]
    rcases hresult : connectionResult w.outside.parseUrl port stray with e | _ | ⟨other, state⟩
    · simp
    · have hthen := ih (w := w') (hparse ▸ hrest) (hparse ▸ h)
      rw [hparse] at hthen
      simpa using hthen
    · have hne : state ≠ expected := fun heq => hstray (heq ▸ connectionResult_eq_some hresult)
      simp [validateCsrfState_ne hne, Except.map]

end Loop

/-- The connections before the redirect make no difference to what comes of it: the sign-in
succeeds with its code either way. -/
structure Unaffected (port : Nat) (expected code : String) (strays : List (Except String String))
    (redirect : Except String String) (w : World) : Prop where
  same : (receiveValidated port expected (strays.map incoming ++ [incoming redirect]) w).1 =
    (receiveValidated port expected [incoming redirect] w).1
  succeeds : (receiveValidated port expected [incoming redirect] w).1 = .ok (some code)

/-- Strays without the expected state leave a sign-in alone exactly when they are harmless,
and the redirect has to bring a code. -/
theorem receiveValidated_unaffected_iff {port : Nat} {expected code : String}
    {strays : List (Except String String)} {redirect : Except String String} {w : World}
    (hstrays : ∀ stray ∈ strays, ¬PresentsState w.outside.parseUrl port expected stray)
    (hredirect : Redirects w.outside.parseUrl port code expected redirect) :
    Unaffected port expected code strays redirect w ↔
      ¬Blank code ∧ ∀ stray ∈ strays, Harmless w.outside.parseUrl port stray := by
  have halone := receiveValidated_redirect hredirect
  by_cases hcode : Blank code
  · rw [blank_iff.mpr hcode, if_pos rfl] at halone
    constructor
    · intro h
      cases halone.symm.trans h.succeeds
    · exact fun h => absurd hcode h.1
  · rw [Bool.eq_false_iff.mpr (mt blank_iff.mp hcode), if_neg Bool.false_ne_true] at halone
    rw [and_iff_right hcode, ← receiveValidated_strays hcode hstrays hredirect]
    constructor
    · exact fun h => h.same.trans halone
    · exact fun h => ⟨h.trans halone.symm, halone⟩

section Example

def redirectLine : Except String String :=
  .ok "GET /?code=abc123&state=expected-state HTTP/1.1\r\n"

def denialLine : Except String String := .ok "GET /?error=access_denied HTTP/1.1\r\n"

def faviconLine : Except String String := .ok "GET /favicon.ico HTTP/1.1\r\n"

def listenerParse (text : String) : Except String Url :=
  if text = "http://127.0.0.1:9876/?code=abc123&state=expected-state" then
    .ok ⟨"/", [("code", "abc123"), ("state", "expected-state")]⟩
  else if text = "http://127.0.0.1:9876/?error=access_denied" then
    .ok ⟨"/", [("error", "access_denied")]⟩
  else if text = "http://127.0.0.1:9876/favicon.ico" then .ok ⟨"/favicon.ico", []⟩
  else .error "unknown"

def listenerWorld : World where
  db := Storage.Db.empty
  keyring _ := none
  tokenCache := []
  journal := []
  outside := { parseUrl := listenerParse }

theorem redirectLine_redirects :
    Redirects listenerWorld.outside.parseUrl 9876 "abc123" "expected-state" redirectLine :=
  ⟨_, "/?code=abc123&state=expected-state", rfl, rfl, rfl⟩

theorem denialLine_asks {url : Url} (h : Asks listenerWorld.outside.parseUrl 9876 denialLine url) :
    url = ⟨"/", [("error", "access_denied")]⟩ := by
  obtain ⟨line, target, hline, htarget, hparse⟩ := h
  cases hline
  cases htarget
  cases hparse
  rfl

theorem faviconLine_asks {url : Url} (h : Asks listenerWorld.outside.parseUrl 9876 faviconLine url) :
    url = ⟨"/favicon.ico", []⟩ := by
  obtain ⟨line, target, hline, htarget, hparse⟩ := h
  cases hline
  cases htarget
  cases hparse
  rfl

theorem receiveValidated_stopped_by_stray :
    ¬∀ (port : Nat) (expected code : String) (strays : List (Except String String))
      (redirect : Except String String) (w : World),
      (∀ stray ∈ strays, ¬PresentsState w.outside.parseUrl port expected stray) →
      Redirects w.outside.parseUrl port code expected redirect →
      Unaffected port expected code strays redirect w := by
  intro h
  have hforged : ∀ stray ∈ [denialLine],
      ¬PresentsState listenerWorld.outside.parseUrl 9876 "expected-state" stray := by
    intro stray hstray hpresents
    cases List.mem_singleton.mp hstray
    obtain ⟨url, hasks, hstate⟩ := hpresents
    rw [denialLine_asks hasks] at hstate
    simp at hstate
  have hsame := (h 9876 "expected-state" "abc123" [denialLine] redirectLine listenerWorld hforged
    redirectLine_redirects).same
  cases hsame

theorem receiveValidated_unaffected_iff_example :
    Unaffected 9876 "expected-state" "abc123" [faviconLine, .error "timed out"] redirectLine
      listenerWorld := by
  have hasks : ∀ stray ∈ [faviconLine, .error "timed out"], ∀ url,
      Asks listenerWorld.outside.parseUrl 9876 stray url → url = ⟨"/favicon.ico", []⟩ := by
    intro stray hstray url h
    simp only [List.mem_cons, List.not_mem_nil, or_false] at hstray
    rcases hstray with rfl | rfl
    · exact faviconLine_asks h
    · obtain ⟨_, _, hline, _⟩ := h
      cases hline
  refine (receiveValidated_unaffected_iff ?_ redirectLine_redirects).mpr ⟨?_, ?_⟩
  · intro stray hstray ⟨url, h, hstate⟩
    rw [hasks stray hstray url h] at hstate
    cases hstate
  · intro hblank
    exact absurd (hblank 'a' (by simp)) (by decide)
  · intro stray hstray url h hpath
    rw [hasks stray hstray url h] at hpath
    exact absurd hpath (by decide)

end Example

end Fumiko.OAuth
