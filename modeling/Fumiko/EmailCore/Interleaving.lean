import Fumiko.EmailCore.SecretLaws
import Fumiko.Foundation.Pool

/-! Account linking, account deletion, the wipe and the token function as tasks that take
turns.  A step is what runs between two await points: one SQL statement, or the keyring calls
up to the next await.  The parts that only read are one step each time they are resumed, and
may end in any way. -/

namespace Fumiko.EmailCore

open Fumiko.Common Fumiko.Foundation Fumiko.Foundation.Action Fumiko.Net Fumiko.OAuth
  Fumiko.Program Fumiko.Storage

inductive Flight
  | authorizing
  | inserting (row : Uuid → Int → LinkedAccount) (secret : String)
  | saving (account : Uuid) (secret : String)
  | deletingSecret (account : Uuid)
  | deletingRow (account : Uuid)
  | listing
  | wipingSecrets (accounts : List LinkedAccount)
  | clearing (settings : List String)
  | closing
  | readingSecret (account : LinkedAccount)
  | refreshing (account : Uuid) (refreshToken : String)
  | rotating (account : Uuid) (refreshToken : String) (tokens : TokenSet)
  | finished

namespace Flight

inductive Start : Flight → Prop
  | link : Start .authorizing
  | deleteAccount (account : Uuid) : Start (.deletingSecret account)
  | wipeAllData : Start .listing
  | getAccessToken (account : LinkedAccount) : Start (.readingSecret account)

def next {ε α : Type} (outcome : Except ε α × World) (f : α → Flight) : Flight × World :=
  match outcome with
  | (.ok a, w) => (f a, w)
  | (.error _, w) => (.finished, w)

def wipeKeyring (accounts : List LinkedAccount) : Program StorageError Unit := do
  Action.forEach (fun a : LinkedAccount => deleteAccountSecret a.id) accounts
  deleteSecret KeyringKeys.userGoogleClientSecret

def resume : Flight → World → Flight × World
  | .inserting row secret, w => next (register row w) (.saving · secret)
  | .saving account secret, w =>
    match saveAccountSecret account secret w with
    | (.ok _, w) => (.finished, w)
    -- The rollback calls `delete_account`, whose keyring call comes before its first await.
    | (.error _, w) => next (deleteAccountSecret account w) fun _ => .deletingRow account
  | .deletingSecret account, w => next (deleteAccountSecret account w) fun _ => .deletingRow account
  | .deletingRow account, w => next (statement (Db.deleteAccountRow account) w) fun _ => .finished
  | .listing, w => next (listAccounts w) .wipingSecrets
  | .wipingSecrets accounts, w => next (wipeKeyring accounts w) fun _ =>
    .clearing [SettingKeys.userGoogleClientId, SettingKeys.userMicrosoftClientId]
  | .clearing (key :: keys), w => next (deleteSetting key w) fun _ => .clearing keys
  | .clearing [], w => next (truncateTables w) fun _ => .closing
  | .readingSecret account, w => next (accountSecret account.id w) fun secret =>
    if account.provider = .imap ∨ account.imapHost.isSome then .closing
    else .refreshing account.id secret
  | .rotating account refreshToken tokens, w =>
    next (persistRotation account refreshToken tokens w) fun _ => .finished
  | f, w => (f, w)

inductive Reads : Flight → Flight → Prop
  | authorizing : Reads .authorizing .authorizing
  | authorized (row secret) : Reads .authorizing (.inserting row secret)
  | refused : Reads .authorizing .finished
  | refreshing (account refreshToken) :
    Reads (.refreshing account refreshToken) (.refreshing account refreshToken)
  | refreshed (account refreshToken tokens) :
    Reads (.refreshing account refreshToken) (.rotating account refreshToken tokens)
  | unrefreshed (account refreshToken) : Reads (.refreshing account refreshToken) .finished
  | closed : Reads .closing .finished

inductive Step : Flight → World → Flight → World → Prop
  | resume (f w) : Step f w (f.resume w).1 (f.resume w).2
  | reads {f g w w'} (h : Reads f g) (hcalm : World.Calm w w') : Step f w g w'

/-- Between two steps the surroundings may change: which calls will fail, and what the
services will answer. -/
def rules : Pool.Rules World Flight where
  start := Start
  step := Step
  surroundings w w' := ∃ outside, w' = { w with outside }

def Saves (w : World) (account : Uuid) : Flight → Prop
  | .saving id _ => id = account ∧ w.keyringSetFault = none
  | .rotating id refreshToken tokens => id = account ∧ w.keyringSetFault = none ∧
    ∃ newRefreshToken, tokens.refreshToken = some newRefreshToken ∧ newRefreshToken ≠ refreshToken
  | _ => False

/-- The operation may still delete the row of the account, and is past the point where it
takes care of its secret. -/
def Dooms (account : Uuid) : Flight → Prop
  | .deletingRow id => id = account
  | .wipingSecrets accounts => ∀ a ∈ accounts, a.id ≠ account
  | .clearing _ => True
  | _ => False

/-- A secret is only written while its row is there and no other operation is about to delete
the row without it. -/
def Safe (w : World) (f : Flight) (others : List Flight) : Prop :=
  ∀ account, f.Saves w account → HasRow account w.db ∧ ∀ g ∈ others, ¬g.Dooms account

def Finished (f : Flight) : Prop := f = .finished

end Flight

end Fumiko.EmailCore
