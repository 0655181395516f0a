import Fumiko.Foundation.Action
import Fumiko.Foundation.Schedule
import Fumiko.Net.Models
import Fumiko.Storage.Statements

namespace Fumiko

open Fumiko.Common Fumiko.Foundation Fumiko.Net Fumiko.Storage

inductive SyncPhase
  | hydrating | classifying
  deriving DecidableEq

inductive Event
  | imapSelected (validity : Option Nat)
  | imapSearched (query : ImapQuery) (uids : List Nat)
  | discovered (account : Uuid) (page : SyncPage) (isInitialSync : Bool)
  | hydrated (account : Uuid) (results : List (Except ProviderError MessageMetadata))
  | savedEmail (row account : Uuid) (providerMessageId : String) (isNew : Bool)
  | storedCursor (account : Uuid) (cursor : String)
  | clearedCursor (account : Uuid)
  | fetchedFullMessage (id : String)
  | savedClassification (email criterion : Uuid)
  | progress (current total : Nat) (phase : SyncPhase)
  | served (response : String)
  | exchanged (code : String)

/-- Everything the program is handed from outside, in the order it will be asked for:
which storage calls fail, clock readings, fresh UUIDs, completion orders of concurrent
stages, and the answers of each remote service.  Running out of answers of a service is
the loss of the connection to it. -/
structure Outside where
  dbFaults : List (Option String) := []
  keyringGetFaults : List (Option String) := []
  keyringSetFaults : List (Option String) := []
  keyringDeleteFaults : List (Option String) := []
  clock : List Int := []
  instants : List Int := []
  uuids : List Uuid := []
  ranking : ReceivedDesc := Ranking.stable Prod.snd
  completions : List (List Nat) := []
  parseRfc3339 : String → Option Int := fun _ => none
  parseUrl : String → Except String Url := fun _ => .error "relative URL without a base"
  gmail : List GmailMoment := []
  outlook : List OutlookMoment := []
  imap : List ImapSession := []
  tokens : List (Except String TokenResponse) := []
  signIns : List SignIn := []
  classifier : List ClassifierMoment := []

abbrev Keyring := String → Option String

structure World where
  db : Db
  keyring : Keyring
  tokenCache : List (Uuid × String × Int)
  journal : List Event
  outside : Outside

namespace World

def record (e : Event) (w : World) : World := { w with journal := w.journal ++ [e] }

def since (w w' : World) : List Event := w'.journal.drop w.journal.length

/-- The steps that only add events with the property `P`. -/
def Emits (P : Event → Prop) (w w' : World) : Prop :=
  ∃ new, w'.journal = w.journal ++ new ∧ ∀ e ∈ new, P e

section Emits

variable {P : Event → Prop} {w w' : World}

instance : Std.Refl (Emits P) := ⟨fun w => ⟨[], by simp⟩⟩

instance : IsTrans World (Emits P) where
  trans := by
    intro _ _ _ ⟨new₁, h₁, hP₁⟩ ⟨new₂, h₂, hP₂⟩
    refine ⟨new₁ ++ new₂, by rw [h₂, h₁, List.append_assoc], ?_⟩
    intro e he
    cases List.mem_append.mp he with
    | inl he => exact hP₁ e he
    | inr he => exact hP₂ e he

theorem emits_of_keeps (h : Action.Keeps journal w w') : Emits P w w' :=
  ⟨[], h.trans (List.append_nil _).symm, by simp⟩

theorem emits_record {e : Event} (h : P e) : Emits P w (w.record e) := ⟨[e], by simp [record, h]⟩

theorem Emits.mono {Q : Event → Prop} (h : Emits P w w') (hPQ : ∀ e, P e → Q e) : Emits Q w w' := by
  obtain ⟨new, hnew, hP⟩ := h
  exact ⟨new, hnew, fun e he => hPQ e (hP e he)⟩

theorem since_record (e : Event) (w : World) : w.since (w.record e) = [e] := List.drop_left

theorem Emits.mem_since {Q : Event → Prop} {w'' : World} (h : Emits P w w') (h' : Emits Q w' w'')
    {e : Event} : e ∈ w.since w'' ↔ e ∈ w.since w' ∨ e ∈ w'.since w'' := by
  obtain ⟨new, hnew, _⟩ := h
  obtain ⟨new', hnew', _⟩ := h'
  simp [since, hnew', hnew]

theorem Emits.of_mem_since (h : Emits P w w') {e : Event} (he : e ∈ w.since w') : P e := by
  obtain ⟨new, hnew, hP⟩ := h
  rw [since, hnew, List.drop_left] at he
  exact hP e he

end Emits

end World

abbrev Program (ε α : Type) := Action World ε α

namespace Program

variable {ε α : Type}

def log (e : Event) : Program ε Unit := Action.update (World.record e)

/-- `chrono::Utc::now()` and `unix_timestamp()`. -/
def unixTimestamp : Program ε Int := Action.step fun w =>
  (w.outside.clock.headD 0, { w with outside := { w.outside with clock := w.outside.clock.tail } })

/-- `Instant::now()`, in seconds. -/
def instantNow : Program ε Int := Action.step fun w =>
  (w.outside.instants.headD 0,
    { w with outside := { w.outside with instants := w.outside.instants.tail } })

def noUuid : Uuid := ⟨"00000000-0000-0000-0000-000000000000", by decide⟩

def freshUuid : Program ε Uuid := Action.step fun w =>
  (w.outside.uuids.headD noUuid,
    { w with outside := { w.outside with uuids := w.outside.uuids.tail } })

def completionOrder (l : List α) : Program ε (List α) := Action.step fun w =>
  (arrange (w.outside.completions.headD []) l,
    { w with outside := { w.outside with completions := w.outside.completions.tail } })

def onGmail (x : Action (List GmailMoment) ε α) : Program ε α :=
  Action.focus (fun w => w.outside.gmail)
    (fun gmail w => { w with outside := { w.outside with gmail } }) x

def onOutlook (x : Action (List OutlookMoment) ε α) : Program ε α :=
  Action.focus (fun w => w.outside.outlook)
    (fun outlook w => { w with outside := { w.outside with outlook } }) x

def nextImap : Program ε (Option ImapSession) := Action.step fun w =>
  (w.outside.imap.head?, { w with outside := { w.outside with imap := w.outside.imap.tail } })

def nextToken : Program ε (Except String TokenResponse) := Action.step fun w =>
  (w.outside.tokens.headD (.error "connection closed"),
    { w with outside := { w.outside with tokens := w.outside.tokens.tail } })

def nextSignIn : Program ε (Option SignIn) := Action.step fun w =>
  (w.outside.signIns.head?, { w with outside := { w.outside with signIns := w.outside.signIns.tail } })

def nextClassifier : Program ε (Option ClassifierMoment) := Action.step fun w =>
  (w.outside.classifier.head?,
    { w with outside := { w.outside with classifier := w.outside.classifier.tail } })

end Program

end Fumiko
