import Fumiko.Foundation.Pool
import Fumiko.OAuth.TokenLaws

namespace Fumiko.OAuth

open Fumiko.Common Fumiko.Foundation Fumiko.Foundation.Action Fumiko.Net Fumiko.Program
  Fumiko.Storage

def rotate (account : Uuid) (refreshToken : String) (response : TokenResponse) :
    Program TokenError TokenSet := do
  let tokens ← responseToTokenSet response (some refreshToken)
  persistRotation account refreshToken tokens
  pure tokens

inductive Refresh
  | reading
  | requesting (refreshToken : String)
  | receiving (refreshToken : String) (response : TokenResponse) (arrives : Bool)
  | finished

/-- The world, and the refresh token that the provider has issued most recently. -/
structure Rotating where
  world : World
  issued : Option String

namespace Refresh

variable {account : Uuid}

inductive Step (account : Uuid) : Refresh → Rotating → Refresh → Rotating → Prop
  | read {s secret w} (h : accountSecret account s.world = (.ok secret, w)) :
    Step account .reading s (.requesting secret) { s with world := w }
  | unread {s e w} (h : accountSecret account s.world = (.error e, w)) :
    Step account .reading s .finished { s with world := w }
  | answered {s refreshToken w} (response : TokenResponse) (arrives : Bool)
    (h : World.Calm s.world w) :
    Step account (.requesting refreshToken) s (.receiving refreshToken response arrives)
      ⟨w, response.refreshToken <|> s.issued⟩
  | refused {s refreshToken w} (h : World.Calm s.world w) :
    Step account (.requesting refreshToken) s .finished { s with world := w }
  | received {s refreshToken response} :
    Step account (.receiving refreshToken response true) s .finished
      { s with world := (rotate account refreshToken response s.world).2 }
  | lost {s refreshToken response w} (h : World.Calm s.world w) :
    Step account (.receiving refreshToken response false) s .finished { s with world := w }

def rules (account : Uuid) : Pool.Rules Rotating Refresh where
  start t := t = .reading
  step := Step account
  surroundings s s' := s'.issued = s.issued ∧ s'.world.keyring account.text = s.world.keyring account.text

def Finished (t : Refresh) : Prop := t = .finished

/-- The call has its response, and the refresh token in it replaces the one it presented. -/
def Writes (newRefreshToken : String) : Refresh → Prop
  | .receiving refreshToken response arrives =>
    response.refreshToken = some newRefreshToken ∧ newRefreshToken ≠ refreshToken ∧ arrives
  | _ => False

def Awaits (issued : Option String) : Refresh → Prop
  | .receiving _ response _ => response.refreshToken = issued ∧ issued.isSome
  | _ => False

def Succeeds (s : Rotating) (t : Refresh) (_ : List Refresh) : Prop :=
  ∀ newRefreshToken, t.Writes newRefreshToken → s.world.keyringSetFault = none

/-- The newest token gets into the keyring, unless another call awaits it too, and an older one
is not written over it. -/
structure Ordered (account : Uuid) (s : Rotating) (t : Refresh) : Prop where
  newest : t.Awaits s.issued →
    (∃ new, t.Writes new) ∨ s.world.keyring account.text = s.issued
  older : ∀ new, t.Writes new → s.issued = some new

def InOrder (account : Uuid) (s : Rotating) (t : Refresh) (others : List Refresh) : Prop :=
  (∃ u ∈ others, u.Awaits s.issued) ∨ Ordered account s t

end Refresh

end Fumiko.OAuth
