import Fumiko.App.Watchers
import Fumiko.Foundation.Mailbox

namespace Fumiko.App

open Fumiko.Common Fumiko.Foundation

inductive AuthCommand
  | start (provider : Provider)
  | startImap (email password host : String) (port : Nat)
  | cancel
  deriving DecidableEq

def AuthCommand.Starts : AuthCommand → Bool
  | .start _ | .startImap _ _ _ _ => true
  | .cancel => false

inductive Attempt
  | opening (provider : Provider)
  | authorizing (service account : String)
  | connecting
  deriving DecidableEq

structure Linking where
  isLinking : Bool := false
  linkingStatus : String := ""
  refreshTrigger : Nat := 0
  attempts : List (Nat × Attempt) := []
  activeTask : Option Nat := none
  next : Nat := 0
  synced : List SyncTarget := []

namespace Linking

/-- `active_task.take()`, and `cancel` on what was in there. -/
def cancelActive (l : Linking) : Linking :=
  match l.activeTask with
  | none => l
  | some task =>
    { l with activeTask := none, attempts := l.attempts.filter (·.1 ≠ task) }

def spawn (attempt : Attempt) (l : Linking) : Linking :=
  { l with
    isLinking := true
    attempts := l.attempts ++ [(l.next, attempt)]
    activeTask := some l.next
    next := l.next + 1 }

def handle (l : Linking) : AuthCommand → Linking
  | .start provider => l.cancelActive.spawn (.opening provider)
  | .startImap _ _ _ _ =>
    { l.cancelActive with linkingStatus := "Connecting to IMAP server..." }.spawn .connecting
  | .cancel =>
    { l.cancelActive with isLinking := false, linkingStatus := "Connection attempt cancelled." }

def finish (service account : String) (l : Linking) : Except String Uuid → Linking
  | .ok id =>
    { l with
      linkingStatus := account ++ " connected! Syncing..."
      refreshTrigger := l.refreshTrigger + 1
      synced := l.synced ++ [.one id]
      isLinking := false }
  | .error e =>
    { l with linkingStatus := "Failed to link " ++ service ++ ": " ++ e, isLinking := false }

/-- A task goes on; `outcome` is what the call it has waited for returns. -/
def resume (outcome : Except String Uuid) (l : Linking) : Attempt → Linking × Option Attempt
  | .opening .gmail =>
    ({ l with linkingStatus := "Opening browser for Google sign-in..." },
      some (.authorizing "Gmail" "Gmail"))
  | .opening .outlook =>
    ({ l with linkingStatus := "Opening browser for Microsoft sign-in..." },
      some (.authorizing "Outlook" "Outlook"))
  | .opening .imap =>
    ({ l with linkingStatus := "IMAP accounts require credentials.", isLinking := false }, none)
  | .authorizing service account => (l.finish service account outcome, none)
  | .connecting => (l.finish "IMAP" "IMAP account" outcome, none)

inductive Surroundings : Linking → Linking → List AuthCommand → Prop
  | send {l} (commands) : Surroundings l l commands
  | screen {l} (linkingStatus) : Surroundings l { l with linkingStatus } []
  | attempt {l} (before after : List (Nat × Attempt)) (task : Nat) (attempt : Attempt) (outcome)
      (hattempts : l.attempts = before ++ (task, attempt) :: after) :
      Surroundings l
        { (l.resume outcome attempt).1 with
          attempts := before ++ (l.resume outcome attempt).2.toList.map (task, ·) ++ after } []

def rules : Mailbox.Rules Linking AuthCommand Empty where
  receive command l l' rest := l' = l.handle command ∧ rest = none
  resume _ _ _ _ := False
  surroundings := Surroundings

def launched : Mailbox Linking AuthCommand Empty := { shared := {} }

abbrev Reachable (m : Mailbox Linking AuthCommand Empty) : Prop := Mailbox.Run rules launched m

section Laws

variable {l l' : Linking} {taken : List AuthCommand}

structure Orderly (l : Linking) (taken : List AuthCommand) : Prop where
  single : l.attempts = [] ∨ ∃ task attempt, l.attempts = [(task, attempt)] ∧ l.activeTask = some task
  linking : l.isLinking = true ↔ l.attempts ≠ []
  cancelled : taken.getLast? = some .cancel → l.attempts = []
  synced : l.synced.length + l.attempts.length ≤ taken.countP AuthCommand.Starts

theorem Orderly.cancelActive (h : Orderly l taken) : l.cancelActive.attempts = [] := by
  rw [Linking.cancelActive]
  rcases h.single with hnone | ⟨task, attempt, hattempts, hactive⟩
  · split <;> simp [hnone]
  · simp [hactive, hattempts]

@[simp] theorem cancelActive_synced (l : Linking) : l.cancelActive.synced = l.synced := by
  rw [cancelActive]
  split <;> rfl

theorem Orderly.spawn {attempt : Attempt} {command : AuthCommand} (h : Orderly l taken)
    (hl : l'.attempts = []) (hsynced : l'.synced = l.synced) (hstarts : command.Starts) :
    Orderly (l'.spawn attempt) (taken ++ [command]) where
  single := Or.inr ⟨l'.next, attempt, by simp [Linking.spawn, hl], rfl⟩
  linking := by simp [Linking.spawn]
  cancelled := by
    intro hlast
    rw [List.getLast?_concat] at hlast
    cases hlast
    cases hstarts
  synced := by
    have hcount := h.synced
    simp only [Linking.spawn, hl, hsynced, List.countP_append, List.countP_singleton, hstarts]
    simp only [List.nil_append, List.length_singleton, if_true]
    omega

theorem Orderly.handle (h : Orderly l taken) (command : AuthCommand) :
    Orderly (l.handle command) (taken ++ [command]) := by
  cases command with
  | start provider => exact h.spawn h.cancelActive (cancelActive_synced l) rfl
  | startImap email password host port => exact h.spawn h.cancelActive (cancelActive_synced l) rfl
  | cancel =>
    have hnone := h.cancelActive
    constructor
    · exact Or.inl hnone
    · simp [Linking.handle, hnone]
    · exact fun _ => hnone
    · have hcount := h.synced
      simp only [Linking.handle, hnone, cancelActive_synced, List.countP_append,
        List.countP_singleton, AuthCommand.Starts]
      simp only [List.length_nil]
      omega

theorem resume_cases (outcome : Except String Uuid) (l : Linking) (attempt : Attempt) :
    (l.resume outcome attempt).1.activeTask = l.activeTask ∧
      (((l.resume outcome attempt).1.isLinking = false ∧ (l.resume outcome attempt).2 = none ∧
        (l.resume outcome attempt).1.synced.length ≤ l.synced.length + 1) ∨
      ((l.resume outcome attempt).1.isLinking = l.isLinking ∧
        (l.resume outcome attempt).1.synced = l.synced ∧
        ∃ attempt', (l.resume outcome attempt).2 = some attempt')) := by
  cases attempt with
  | opening provider => cases provider <;> simp [resume]
  | authorizing service account => cases outcome <;> simp [resume, finish]
  | connecting => cases outcome <;> simp [resume, finish]

theorem Orderly.attempt {before after : List (Nat × Attempt)} {task : Nat} {attempt : Attempt}
    (h : Orderly l taken) (hattempts : l.attempts = before ++ (task, attempt) :: after)
    (outcome : Except String Uuid) :
    Orderly { (l.resume outcome attempt).1 with
      attempts := before ++ (l.resume outcome attempt).2.toList.map (task, ·) ++ after } taken := by
  have hsingle := h.single
  have hlinking := h.linking
  have hcancelled := h.cancelled
  have hsynced := h.synced
  rw [hattempts] at hsingle hlinking hcancelled hsynced
  obtain ⟨rfl, rfl, hactive⟩ : before = [] ∧ after = [] ∧ l.activeTask = some task := by
    rcases hsingle with hnone | ⟨task', attempt', halone, hactive⟩
    · simp at hnone
    · rw [List.append_eq_singleton_iff] at halone
      rcases halone with ⟨rfl, halone⟩ | ⟨-, hnone⟩
      · cases halone
        exact ⟨rfl, rfl, hactive⟩
      · cases hnone
  obtain ⟨hkept, ⟨hflag, hdone, hcount⟩ | ⟨hflag, hsame, attempt', hwaits⟩⟩ :=
    resume_cases outcome l attempt
  · rw [hdone]
    constructor
    · exact Or.inl rfl
    · simp [hflag]
    · exact fun _ => rfl
    · simp only [List.nil_append, List.length_singleton] at hsynced
      simp only [Option.toList_none, List.map_nil, List.append_nil, List.length_nil]
      omega
  · rw [hwaits]
    constructor
    · exact Or.inr ⟨task, attempt', rfl, hkept.trans hactive⟩
    · simpa [hflag] using hlinking
    · intro hlast
      simp at hcancelled
      exact absurd hlast hcancelled
    · simpa [hsame] using hsynced

theorem kept_orderly : Mailbox.Kept rules fun l taken _ => Orderly l taken where
  receive := by
    rintro command l l' taken rest ⟨rfl, rfl⟩ h
    exact h.handle command
  resume := by
    intro work
    cases work
  surroundings := by
    intro l l' new taken rest hmove h
    cases hmove with
    | send _ => exact h
    | screen _ => exact ⟨h.single, h.linking, h.cancelled, h.synced⟩
    | attempt before after task attempt outcome hattempts => exact h.attempt hattempts outcome

variable {m : Mailbox Linking AuthCommand Empty}

/-- One attempt at a time, shown as long as it lasts; a cancelled one is not heard of again, and
no attempt asks for more than one synchronisation. -/
theorem attempts_of_reachable (hm : Reachable m) :
    m.shared.attempts.length ≤ 1 ∧ (m.shared.isLinking = true ↔ m.shared.attempts ≠ []) ∧
      (m.taken.getLast? = some .cancel → m.shared.attempts = []) ∧
      m.shared.synced.length + m.shared.attempts.length ≤ m.taken.countP AuthCommand.Starts := by
  have horderly : Orderly m.shared m.taken := by
    apply Mailbox.Run.kept kept_orderly hm
    exact ⟨Or.inl rfl, by simp [launched], by simp [launched], by simp [launched]⟩
  refine ⟨?_, horderly.linking, horderly.cancelled, horderly.synced⟩
  rcases horderly.single with hnone | ⟨task, attempt, halone, -⟩
  · simp [hnone]
  · simp [halone]

def restarted : Mailbox Linking AuthCommand Empty where
  shared :=
    { isLinking := true, attempts := [(1, .opening .outlook)], activeTask := some 1, next := 2 }
  sent := [.start .gmail, .start .outlook]
  taken := [.start .gmail, .start .outlook]

theorem reachable_restarted : Reachable restarted := by
  have hsend : Mailbox.Turn rules launched
      { launched with
        queue := [.start .gmail, .start .outlook]
        sent := [.start .gmail, .start .outlook] } :=
    .surroundings (.send [.start .gmail, .start .outlook])
  exact ((Relation.ReflTransGen.single hsend).tail (.receive ⟨rfl, rfl⟩)).tail (.receive ⟨rfl, rfl⟩)

theorem attempts_of_reachable_restarted :
    restarted.shared.attempts.length ≤ 1 ∧
      (restarted.shared.isLinking = true ↔ restarted.shared.attempts ≠ []) ∧
      (restarted.taken.getLast? = some .cancel → restarted.shared.attempts = []) ∧
      restarted.shared.synced.length + restarted.shared.attempts.length ≤
        restarted.taken.countP AuthCommand.Starts :=
  attempts_of_reachable reachable_restarted

end Laws

end Linking

end Fumiko.App
