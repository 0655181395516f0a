import Fumiko.Foundation.Mailbox

/-! The supervisor of the `llama-server` sidecar: the worker behind the AI channel, the process
handle it shares with the system tray, and the processes of the machine. -/

namespace Fumiko.App

open Fumiko.Foundation

inductive AiCommand
  | startBuiltin (filename : String)
  | stopBuiltin
  deriving DecidableEq

/-- A `llama-server` process and the model file it was started with. -/
structure Child where
  pid : Nat
  filename : String
  deriving DecidableEq

inductive AppPhase
  | running
  | blocked
  | exited
  deriving DecidableEq

structure Host where
  phase : AppPhase := .running
  slot : Option Child := none
  held : Bool := false
  alive : List Child := []
  next : Nat := 0

namespace Host

/-- `lock.take()`, then `kill` and `wait` on what was in there. -/
def killChild (h : Host) : Host :=
  match h.slot with
  | none => h
  | some child => { h with slot := none, alive := h.alive.erase child }

/-- `start_process`, and the child put into the slot.  `spawned` says whether the executable is
found and can be started. -/
def startProcess (filename : String) (spawned : Bool) (h : Host) : Host :=
  if spawned then
    { h with
      slot := some ⟨h.next, filename⟩
      alive := ⟨h.next, filename⟩ :: h.alive
      next := h.next + 1 }
  else h

/-- The worker receives a command.  A process that was killed is followed by a pause of 200 ms,
within the scope of the guard. -/
def handle (spawned : Bool) (h : Host) : AiCommand → Host × Option String
  | .startBuiltin filename =>
    if h.held then ({ h with phase := .blocked }, none)
    else
      match h.slot with
      | some _ => ({ h.killChild with held := true }, some filename)
      | none => (h.startProcess filename spawned, none)
  | .stopBuiltin => if h.held then ({ h with phase := .blocked }, none) else (h.killChild, none)

def wake (filename : String) (spawned : Bool) (h : Host) : Host :=
  { h with held := false }.startProcess filename spawned

/-- The entry `Quit` of the tray menu, handled on the thread of the worker. -/
def quit (h : Host) : Host :=
  if h.held then { h with phase := .blocked } else { h.killChild with phase := .exited }

def dies (child : Child) (h : Host) : Host := { h with alive := h.alive.erase child }

/-- What happens to the host besides the worker, with the commands that are sent meanwhile. -/
inductive Surroundings : Host → Host → List AiCommand → Prop
  | send {h} (commands) (hrunning : h.phase = .running) : Surroundings h h commands
  | quit {h} (hrunning : h.phase = .running) : Surroundings h h.quit []
  | dies {h} (child) : Surroundings h (h.dies child) []

def rules : Mailbox.Rules Host AiCommand String where
  receive command h h' rest :=
    h.phase = .running ∧ ∃ spawned, (h', rest) = h.handle spawned command
  resume filename h h' rest :=
    h.phase = .running ∧ rest = none ∧ ∃ spawned, h' = h.wake filename spawned
  surroundings := Surroundings

def launched : Mailbox Host AiCommand String := { shared := {} }

abbrev Reachable (m : Mailbox Host AiCommand String) : Prop := Mailbox.Run rules launched m

end Host

end Fumiko.App
