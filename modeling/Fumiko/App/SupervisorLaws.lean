import Fumiko.App.Supervisor
import Mathlib.Data.List.Basic

namespace Fumiko.App.Host

open Fumiko.Foundation

section KillChild

variable {h : Host}

theorem killChild_slot (h : Host) : h.killChild.slot = none := by
  rw [killChild]
  split
  · assumption
  · rfl

theorem killChild_alive (halive : h.alive.Sublist h.slot.toList) : h.killChild.alive = [] := by
  rw [killChild]
  split
  case h_1 hslot =>
    rw [hslot] at halive
    exact List.sublist_nil.mp halive
  case h_2 child hslot =>
    rw [hslot, Option.toList_some] at halive
    have hlength := (halive.erase child).length_le
    rw [List.erase_cons_head] at hlength
    exact List.eq_nil_of_length_eq_zero (Nat.le_zero.mp hlength)

@[simp] theorem killChild_held (h : Host) : h.killChild.held = h.held := by
  rw [killChild]
  split <;> rfl

@[simp] theorem killChild_phase (h : Host) : h.killChild.phase = h.phase := by
  rw [killChild]
  split <;> rfl

end KillChild

/-- What the supervisor has made of the host when it has taken some commands and `rest` is left
to do. -/
structure Supervised (h : Host) (taken : List AiCommand) (rest : Option String) : Prop where
  alive : h.alive.Sublist h.slot.toList
  held : h.held = rest.isSome
  paused : rest.isSome → h.slot = none
  ended : h.phase ≠ .running → h.slot = none
  current : ∀ child, h.slot = some child → taken.getLast? = some (.startBuiltin child.filename)
  pending : ∀ filename, rest = some filename → taken.getLast? = some (.startBuiltin filename)

section Steps

variable {h : Host} {taken : List AiCommand} {rest : Option String} {filename : String}

theorem Supervised.startProcess (hs : Supervised h taken none) (hslot : h.slot = none)
    (hrunning : h.phase = .running) (hlast : taken.getLast? = some (.startBuiltin filename))
    (spawned : Bool) : Supervised (h.startProcess filename spawned) taken none := by
  rw [Host.startProcess]
  split
  · have halive : h.alive = [] := by
      apply List.sublist_nil.mp
      simpa [hslot] using hs.alive
    constructor
    · simp [halive]
    · exact hs.held
    · simp
    · exact fun hne => absurd hrunning hne
    · rintro child hchild
      cases hchild
      exact hlast
    · simp
  · exact hs

theorem Supervised.killChild (hs : Supervised h taken rest) (hheld : h.held = false)
    (command : AiCommand) : Supervised h.killChild (taken ++ [command]) none where
  alive := by simp [killChild_alive hs.alive]
  held := by simp [hheld]
  paused := by simp
  ended _ := killChild_slot h
  current := by simp [killChild_slot]
  pending := by simp

theorem Supervised.handle (hs : Supervised h taken none) (hrunning : h.phase = .running)
    (spawned : Bool) (command : AiCommand) :
    Supervised (h.handle spawned command).1 (taken ++ [command]) (h.handle spawned command).2 := by
  have hheld : h.held = false := hs.held
  cases command with
  | stopBuiltin =>
    rw [Host.handle, hheld]
    exact hs.killChild hheld _
  | startBuiltin filename =>
    rw [Host.handle, hheld]
    cases hslot : h.slot with
    | none =>
      apply startProcess _ hslot hrunning (by simp)
      refine ⟨hs.alive, hs.held, by simp, hs.ended, ?_, by simp⟩
      simp [hslot]
    | some child =>
      refine ⟨?_, rfl, fun _ => killChild_slot h, fun _ => killChild_slot h, ?_, ?_⟩
      · simp [killChild_alive hs.alive]
      · simp [killChild_slot]
      · rintro filename' hfilename
        cases hfilename
        simp

theorem Supervised.wake (hs : Supervised h taken (some filename)) (hrunning : h.phase = .running)
    (spawned : Bool) : Supervised (h.wake filename spawned) taken none := by
  have hslot : h.slot = none := hs.paused rfl
  have hfree : Supervised { h with held := false } taken none :=
    ⟨hs.alive, rfl, by simp, hs.ended, hs.current, by simp⟩
  exact hfree.startProcess hslot hrunning (hs.pending filename rfl) spawned

theorem Supervised.quit (hs : Supervised h taken rest) : Supervised h.quit taken rest := by
  rw [Host.quit]
  split
  case isTrue hheld =>
    have hslot : h.slot = none := hs.paused (hs.held ▸ hheld)
    exact ⟨hs.alive, hs.held, hs.paused, fun _ => hslot, hs.current, hs.pending⟩
  case isFalse =>
    refine ⟨?_, ?_, fun _ => killChild_slot h, fun _ => killChild_slot h, ?_, hs.pending⟩
    · simp [killChild_alive hs.alive]
    · simp [hs.held]
    · simp [killChild_slot]

theorem Supervised.dies (hs : Supervised h taken rest) (child : Child) :
    Supervised (h.dies child) taken rest :=
  { hs with alive := List.erase_sublist.trans hs.alive }

end Steps

theorem kept_supervised : Mailbox.Kept rules Supervised where
  receive := by
    rintro command h h' taken rest ⟨hrunning, spawned, heq⟩ hs
    have hhandled := hs.handle hrunning spawned command
    rwa [← heq] at hhandled
  resume := by
    rintro filename h h' taken rest ⟨hrunning, rfl, spawned, rfl⟩ hs
    exact hs.wake hrunning spawned
  surroundings := by
    intro h h' new taken rest hmove hs
    cases hmove with
    | send _ _ => exact hs
    | quit _ => exact hs.quit
    | dies child => exact hs.dies child

section Reachable

variable {m : Mailbox Host AiCommand String}

theorem Reachable.supervised (hm : Reachable m) : Supervised m.shared m.taken m.rest := by
  apply Mailbox.Run.kept kept_supervised hm
  exact ⟨List.nil_sublist _, rfl, by simp [launched], fun _ => rfl, by simp [launched], by simp [launched]⟩

def serving (filename : String) : Mailbox Host AiCommand String where
  shared := { slot := some ⟨0, filename⟩, alive := [⟨0, filename⟩], next := 1 }
  sent := [.startBuiltin filename]
  taken := [.startBuiltin filename]

def restarting (first second : String) : Mailbox Host AiCommand String where
  shared := { held := true, next := 1 }
  rest := some second
  sent := [.startBuiltin first, .startBuiltin second]
  taken := [.startBuiltin first, .startBuiltin second]

theorem reachable_serving (filename : String) : Reachable (serving filename) := by
  have hsend : Mailbox.Turn rules launched
      { launched with queue := [.startBuiltin filename], sent := [.startBuiltin filename] } :=
    .surroundings (.send [.startBuiltin filename] rfl)
  exact (Relation.ReflTransGen.single hsend).tail (.receive ⟨rfl, true, rfl⟩)

theorem reachable_restarting (first second : String) : Reachable (restarting first second) := by
  have hsend : Mailbox.Turn rules (serving first)
      { serving first with
        queue := [.startBuiltin second]
        sent := [.startBuiltin first, .startBuiltin second] } :=
    .surroundings (.send [.startBuiltin second] rfl)
  have hreceive : Mailbox.Turn rules
      { serving first with
        queue := [.startBuiltin second]
        sent := [.startBuiltin first, .startBuiltin second] } (restarting first second) := by
    refine .receive ⟨rfl, true, ?_⟩
    simp [serving, handle, killChild]
  exact ((reachable_serving first).tail hsend).tail hreceive

/-- No two processes at once, and none once the application is gone. -/
theorem alive_length_le (hm : Reachable m) :
    m.shared.alive.length ≤ 1 ∧ (m.shared.phase ≠ .running → m.shared.alive = []) := by
  have hs := hm.supervised
  constructor
  · have hlength := hs.alive.length_le
    cases hslot : m.shared.slot <;> simp_all
  · intro hended
    apply List.sublist_nil.mp
    simpa [hs.ended hended] using hs.alive

theorem alive_length_le_serving : (serving "qwen.gguf").shared.alive.length ≤ 1 ∧
    ((serving "qwen.gguf").shared.phase ≠ .running → (serving "qwen.gguf").shared.alive = []) :=
  alive_length_le (reachable_serving "qwen.gguf")

/-- The commands are obeyed in the order they were sent, and a process that runs is the one the
last of them asked for. -/
theorem alive_obeys_last (hm : Reachable m) : m.taken ++ m.queue = m.sent ∧
    ∀ child ∈ m.shared.alive, m.taken.getLast? = some (.startBuiltin child.filename) := by
  refine ⟨Mailbox.Run.fifo hm rfl, ?_⟩
  intro child hchild
  have hs := hm.supervised
  have hslot : child ∈ m.shared.slot.toList := hs.alive.subset hchild
  rw [Option.mem_toList] at hslot
  exact hs.current child hslot

theorem alive_obeys_last_serving :
    (serving "qwen.gguf").taken ++ (serving "qwen.gguf").queue = (serving "qwen.gguf").sent ∧
      ∀ child ∈ (serving "qwen.gguf").shared.alive,
        (serving "qwen.gguf").taken.getLast? = some (.startBuiltin child.filename) :=
  alive_obeys_last (reachable_serving "qwen.gguf")

/-- The quit entry gets through at every moment but one: while the worker holds the guard, the
application stops for good.  Either way no process is left behind. -/
theorem quit_exits_iff (hm : Reachable m) :
    m.shared.quit.alive = [] ∧ (m.shared.quit.phase = .exited ↔ m.rest = none) ∧
      (m.shared.quit.phase = .blocked ↔ ∃ filename, m.rest = some filename) := by
  have hs := hm.supervised
  have hheld := hs.held
  rw [quit]
  cases hrest : m.rest with
  | none =>
    rw [hrest] at hheld
    simp [hheld, killChild_alive hs.alive]
  | some filename =>
    rw [hrest] at hheld
    have halive : m.shared.alive = [] := by
      apply List.sublist_nil.mp
      simpa [hs.paused (hrest ▸ rfl)] using hs.alive
    simp [hheld, halive]

theorem quit_exits_iff_restarting :
    (restarting "llama.gguf" "qwen.gguf").shared.quit.alive = [] ∧
      ((restarting "llama.gguf" "qwen.gguf").shared.quit.phase = .exited ↔
        (restarting "llama.gguf" "qwen.gguf").rest = none) ∧
      ((restarting "llama.gguf" "qwen.gguf").shared.quit.phase = .blocked ↔
        ∃ filename, (restarting "llama.gguf" "qwen.gguf").rest = some filename) :=
  quit_exits_iff (reachable_restarting "llama.gguf" "qwen.gguf")

end Reachable

section Draining

variable {h : Host} {since taken : List AiCommand} {rest : Option String}

structure Serving (since : List AiCommand) (h : Host) (taken : List AiCommand) (rest : Option String) :
    Prop where
  supervised : Supervised h taken rest
  running : h.phase = .running
  serves : rest = none → taken ≠ since → ∀ filename,
    taken.getLast? = some (.startBuiltin filename) → ∃ pid, h.alive = [⟨pid, filename⟩]

theorem startProcess_alive (hs : Supervised h taken rest) (hslot : h.slot = none) (filename : String) :
    (h.startProcess filename true).alive = [⟨h.next, filename⟩] := by
  have halive : h.alive = [] := by
    apply List.sublist_nil.mp
    simpa [hslot] using hs.alive
  simp [startProcess, halive]

theorem Serving.handle (hs : Serving since h taken none) (command : AiCommand) :
    Serving since (h.handle true command).1 (taken ++ [command]) (h.handle true command).2 := by
  have hsupervised := hs.supervised.handle hs.running true command
  have hheld : h.held = false := hs.supervised.held
  cases command with
  | stopBuiltin =>
    rw [Host.handle, hheld] at hsupervised ⊢
    exact ⟨hsupervised, (killChild_phase h).trans hs.running, by simp⟩
  | startBuiltin filename =>
    rw [Host.handle, hheld] at hsupervised ⊢
    cases hslot : h.slot with
    | some child =>
      rw [hslot] at hsupervised
      exact ⟨hsupervised, (killChild_phase h).trans hs.running, by simp⟩
    | none =>
      rw [hslot] at hsupervised
      refine ⟨hsupervised, hs.running, ?_⟩
      rintro - - filename' hlast
      rw [List.getLast?_concat] at hlast
      cases hlast
      exact ⟨h.next, startProcess_alive hs.supervised hslot filename⟩

theorem Serving.wake {filename : String} (hs : Serving since h taken (some filename)) :
    Serving since (h.wake filename true) taken none := by
  refine ⟨hs.supervised.wake hs.running true, hs.running, ?_⟩
  rintro - - filename' hlast
  rw [hs.supervised.pending filename rfl] at hlast
  cases hlast
  have hfree : Supervised { h with held := false } taken none :=
    ⟨hs.supervised.alive, rfl, by simp, hs.supervised.ended, hs.supervised.current, by simp⟩
  exact ⟨h.next, startProcess_alive hfree (hs.supervised.paused rfl) filename⟩

theorem progress_serving (since : List AiCommand) : Mailbox.Progress rules (Serving since) fun _ => 0 where
  receive command h taken hs :=
    ⟨_, _, ⟨hs.running, true, rfl⟩, hs.handle command⟩
  resume filename h taken hs :=
    ⟨_, none, ⟨hs.running, rfl, true, rfl⟩, hs.wake, by simp⟩

variable {m : Mailbox Host AiCommand String}

/-- Left alone, the worker gets through all it was sent, and what it was asked for last is what
it comes to. -/
theorem exists_last_served (hm : Reachable m) (hrunning : m.shared.phase = .running)
    (hbusy : m.queue ≠ [] ∨ m.rest ≠ none) :
    ∃ n, Mailbox.Run rules m n ∧ n.queue = [] ∧ n.rest = none ∧ n.sent = m.sent ∧
      n.shared.phase = .running ∧ ∀ filename, n.sent.getLast? = some (.startBuiltin filename) →
        ∃ pid, n.shared.alive = [⟨pid, filename⟩] := by
  have hs := hm.supervised
  have hsent : m.taken ++ m.queue = m.sent := Mailbox.Run.fifo hm rfl
  obtain ⟨since, hidle, hnew⟩ : ∃ since, (m.rest = none → since = m.taken) ∧ m.sent ≠ since := by
    cases hrest : m.rest with
    | none =>
      refine ⟨m.taken, fun _ => rfl, ?_⟩
      rw [← hsent]
      simpa [hrest] using hbusy
    | some filename =>
      refine ⟨[], by simp, ?_⟩
      have hlast := hs.pending filename hrest
      rw [← hsent]
      intro hnil
      rw [(List.append_eq_nil_iff.mp hnil).1] at hlast
      cases hlast
  have hserving : Serving since m.shared m.taken m.rest :=
    ⟨hs, hrunning, fun hrest hne => absurd (hidle hrest).symm hne⟩
  obtain ⟨h, hrun, hserved⟩ : ∃ h, Mailbox.Run rules m ⟨h, [], none, m.sent, m.taken ++ m.queue⟩ ∧
      Serving since h (m.taken ++ m.queue) none := (progress_serving since).exists_drained hserving
  rw [hsent] at hrun hserved
  exact ⟨_, hrun, rfl, rfl, rfl, hserved.running, hserved.serves rfl hnew⟩

theorem exists_last_served_restarting : ∃ n,
    Mailbox.Run rules (restarting "llama.gguf" "qwen.gguf") n ∧ n.queue = [] ∧ n.rest = none ∧
      n.sent = (restarting "llama.gguf" "qwen.gguf").sent ∧ n.shared.phase = .running ∧
      ∀ filename, n.sent.getLast? = some (.startBuiltin filename) →
        ∃ pid, n.shared.alive = [⟨pid, filename⟩] :=
  exists_last_served (reachable_restarting "llama.gguf" "qwen.gguf") rfl (.inr (by simp [restarting]))

end Draining

end Fumiko.App.Host
