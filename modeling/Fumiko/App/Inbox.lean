import Fumiko.App.Search
import Fumiko.Storage.Listing

namespace Fumiko.App

open Fumiko.Common Fumiko.Foundation Fumiko.Foundation.Action Fumiko.Program Fumiko.Storage

structure Inbox where
  world : World
  selectedAccount : Option Uuid
  selectedEmail : Option Uuid
  searchQuery : String

namespace Inbox

inductive Gesture
  | search (text : String)
  | select (email : Uuid)
  | close
  | trash (email : Uuid)
  | restore (email : Uuid)

/-- The pane of a row is closed before its call is made; an error of the call is ignored. -/
def perform (s : Inbox) : Gesture → Inbox
  | .search text => { s with searchQuery := text }
  | .select email => { s with selectedEmail := some email }
  | .close => { s with selectedEmail := none }
  | .trash email =>
    { s with
      selectedEmail := if s.selectedEmail = some email then none else s.selectedEmail
      world := (trashEmail email s.world).2 }
  | .restore email => { s with world := (restoreEmail email s.world).2 }

def performAll : List (Outside × Gesture) → Inbox → Inbox
  | [], s => s
  | (outside, gesture) :: rest, s =>
    performAll rest (perform { s with world := { s.world with outside } } gesture)

def Gesture.lands (email : Uuid) : Gesture → Option Bool
  | .trash id => if id = email then some true else none
  | .restore id => if id = email then some false else none
  | _ => none

/-- Whether the message is in the trash after the clicks that the store has answered. -/
def landed (email : Uuid) : List (Outside × Gesture) → Bool → Bool
  | [], trashed => trashed
  | (outside, gesture) :: rest, trashed =>
    landed email rest
      (if outside.dbFaults.head?.join.isSome then trashed else (gesture.lands email).getD trashed)

section Laws

variable {s : Inbox} {e e' e'' : EmailRow} {trashed trashed' : Bool} {account : Option Uuid}

structure Landed (trashed : Bool) (e e' : EmailRow) : Prop where
  same : e' = { e with isTrashed := trashed, trashedAt := e'.trashedAt }
  dated : e.trashedAt.isSome = e.isTrashed → e'.trashedAt.isSome = trashed

theorem Landed.refl (e : EmailRow) : Landed e.isTrashed e e := ⟨rfl, id⟩

theorem Landed.trans (h : Landed trashed e e') (h' : Landed trashed' e' e'') : Landed trashed' e e'' where
  same := by
    rw [h'.same, h.same]
  dated hdated := by
    refine h'.dated ?_
    rw [h.dated hdated, h.same]

theorem Landed.isTrashed (h : Landed trashed e e') : e'.isTrashed = trashed := by rw [h.same]

theorem Landed.id (h : Landed trashed e e') : e'.id = e.id := by rw [h.same]

theorem Landed.eq (h : Landed trashed e e') (hdated : e.trashedAt.isSome = e.isTrashed)
    (hback : trashed = e.isTrashed) (hlive : e.isTrashed = false) : e' = e := by
  have hnone : e'.trashedAt = none := by
    rw [← Option.not_isSome_iff_eq_none, h.dated hdated, hback, hlive]
    exact Bool.false_ne_true
  have hnone' : e.trashedAt = none := by
    rw [← Option.not_isSome_iff_eq_none, hdated, hlive]
    exact Bool.false_ne_true
  rw [h.same, hnone, hback, ← hnone']

def Gesture.row (now : Int) (gesture : Gesture) (e : EmailRow) : EmailRow :=
  match gesture.lands e.id with
  | some true => { e with isTrashed := true, trashedAt := some now }
  | some false => { e with isTrashed := false, trashedAt := none }
  | none => e

theorem Gesture.landed_row (now : Int) (gesture : Gesture) (e : EmailRow) :
    Landed ((gesture.lands e.id).getD e.isTrashed) e (gesture.row now e) := by
  rw [Gesture.row]
  rcases gesture.lands e.id with _ | _ | _
  · exact Landed.refl e
  · exact ⟨rfl, fun _ => rfl⟩
  · exact ⟨rfl, fun _ => rfl⟩

theorem updateEmailById_emails (id : Uuid) (f : EmailRow → EmailRow) (w : World) :
    (statement (Db.updateEmailById id f) w).2.db.emails =
      if w.dbFault.isSome then w.db.emails else w.db.emails.map fun e => if e.id = id then f e else e := by
  rw [statement_run]
  cases w.dbFault with
  | some text => rfl
  | none =>
    rw [Db.updateEmailById]
    by_cases hany : w.db.emails.any (·.id = id)
    · rw [if_pos hany]
      simp [World.withDb, Db.updateEmails]
    · rw [if_neg hany]
      have hkept : w.db.emails.map (fun e => if e.id = id then f e else e) =
          w.db.emails.map fun e => e := by
        refine List.map_congr_left fun e he => if_neg fun hid => hany ?_
        exact List.any_eq_true.mpr ⟨e, he, decide_eq_true hid⟩
      exact (hkept.trans (List.map_id _)).symm

theorem perform_emails (gesture : Gesture) (s : Inbox) :
    (s.perform gesture).world.db.emails =
      if s.world.dbFault.isSome then s.world.db.emails
      else s.world.db.emails.map (gesture.row s.world.nextTime) := by
  have hidle (hrow : ∀ e, gesture.row s.world.nextTime e = e) : s.world.db.emails =
      if s.world.dbFault.isSome then s.world.db.emails
      else s.world.db.emails.map (gesture.row s.world.nextTime) := by
    rw [List.map_congr_left fun e _ => hrow e, List.map_id', ite_self]
  cases gesture with
  | search text => exact hidle fun _ => rfl
  | select email => exact hidle fun _ => rfl
  | close => exact hidle fun _ => rfl
  | trash email =>
    refine (updateEmailById_emails email _ _).trans ?_
    congr 2
    funext e
    by_cases hid : email = e.id
    · rw [if_pos hid.symm, Gesture.row, Gesture.lands, if_pos hid]
      rfl
    · rw [if_neg fun heq => hid heq.symm, Gesture.row, Gesture.lands, if_neg hid]
  | restore email =>
    refine (updateEmailById_emails email _ _).trans ?_
    congr 2
    funext e
    by_cases hid : email = e.id
    · rw [if_pos hid.symm, Gesture.row, Gesture.lands, if_pos hid]
    · rw [if_neg fun heq => hid heq.symm, Gesture.row, Gesture.lands, if_neg hid]

theorem performAll_emails (gestures : List (Outside × Gesture)) (s : Inbox) :
    ∃ row : EmailRow → EmailRow, (s.performAll gestures).world.db.emails = s.world.db.emails.map row ∧
      ∀ e, Landed (landed e.id gestures e.isTrashed) e (row e) := by
  induction gestures generalizing s with
  | nil => exact ⟨fun e => e, (List.map_id' _).symm, Landed.refl⟩
  | cons g gestures ih =>
    obtain ⟨outside, gesture⟩ := g
    let turn : Inbox := { s with world := { s.world with outside } }
    obtain ⟨row, hemails, hrow⟩ := ih (turn.perform gesture)
    have hturn := perform_emails gesture turn
    cases hfault : outside.dbFaults.head?.join with
    | some text =>
      rw [if_pos (show turn.world.dbFault.isSome by rw [World.dbFault, hfault]; rfl)] at hturn
      refine ⟨row, hemails.trans (congrArg _ hturn), fun e => ?_⟩
      rw [landed, hfault]
      exact hrow e
    | none =>
      rw [if_neg (show ¬turn.world.dbFault.isSome by rw [World.dbFault, hfault]; simp)] at hturn
      refine ⟨fun e => row (gesture.row turn.world.nextTime e), ?_, fun e => ?_⟩
      · refine hemails.trans ?_
        rw [hturn, List.map_map]
        rfl
      · have hmoved := gesture.landed_row turn.world.nextTime e
        have hlanded := hrow (gesture.row turn.world.nextTime e)
        rw [hmoved.isTrashed, hmoved.id] at hlanded
        rw [landed, hfault]
        exact hmoved.trans hlanded

theorem mem_inboxRows_of_listInbox {db db' : Db} {ranking : EmailsDesc}
    (h : ∀ n : Nat, db'.listInbox ranking account n = db.listInbox ranking account n) (e : EmailRow) :
    e ∈ db'.inboxRows account ↔ e ∈ db.inboxRows account := by
  have hlists := h (max (db'.inboxRows account).length (db.inboxRows account).length)
  rw [Db.listInbox_natCast, Db.listInbox_natCast,
    List.take_of_length_le ((Ranking.length_order _ _).le.trans (Nat.le_max_left _ _)),
    List.take_of_length_le ((Ranking.length_order _ _).le.trans (Nat.le_max_right _ _))] at hlists
  rw [← Ranking.mem_order ranking, hlists, Ranking.mem_order]

theorem landed_of_inboxRows (gestures : List (Outside × Gesture)) (hdb : s.world.db.WellFormed)
    (hrows : ∀ e, e ∈ (s.performAll gestures).world.db.inboxRows none ↔ e ∈ s.world.db.inboxRows none)
    (he : e ∈ s.world.db.emails) : landed e.id gestures e.isTrashed = e.isTrashed := by
  obtain ⟨row, hemails, hrow⟩ := performAll_emails gestures s
  have hlanded := (hrow e).isTrashed
  have hunique {f : EmailRow} (hf : f ∈ s.world.db.emails) (hid : f.id = e.id) : f = e :=
    List.inj_on_of_nodup_map hdb.emailsPk hf he hid
  cases hlive : e.isTrashed with
  | false =>
    -- It is on the list before, so it is on the list after.
    obtain ⟨hmem, -, -⟩ := Db.mem_inboxRows.mp ((hrows e).mpr (Db.mem_inboxRows.mpr ⟨he, hlive, rfl⟩))
    rw [hemails] at hmem
    obtain ⟨f, hf, hfe⟩ := List.mem_map.mp hmem
    have hself : f = e := hunique hf ((hrow f).id.symm.trans (congrArg EmailRow.id hfe))
    rw [hself] at hfe
    rw [← hlive, ← hlanded, hfe]
  | true =>
    -- If it were restored it would be on the list after, and so on the list before.
    rw [hlive] at hlanded
    by_contra hrestored
    rw [← hlanded, Bool.not_eq_true] at hrestored
    have hmem : row e ∈ (s.performAll gestures).world.db.emails := hemails ▸ List.mem_map_of_mem he
    obtain ⟨hbefore, -, -⟩ :=
      Db.mem_inboxRows.mp ((hrows (row e)).mp (Db.mem_inboxRows.mpr ⟨hmem, hrestored, rfl⟩))
    rw [hunique hbefore (hrow e).id, hlive] at hrestored
    cases hrestored

theorem inboxRows_performAll (gestures : List (Outside × Gesture)) (hdated : s.world.db.TrashDated)
    (hback : ∀ e ∈ s.world.db.emails, landed e.id gestures e.isTrashed = e.isTrashed)
    (account : Option Uuid) :
    (s.performAll gestures).world.db.inboxRows account = s.world.db.inboxRows account := by
  obtain ⟨row, hemails, hrow⟩ := performAll_emails gestures s
  have hkept (e : EmailRow) (he : e ∈ s.world.db.emails) :
      ((fun e => !e.isTrashed && inScope account e) ∘ row) e = (!e.isTrashed && inScope account e) := by
    rw [Function.comp_apply, (hrow e).isTrashed, hback e he, (hrow e).same]
    rfl
  rw [Db.inboxRows, hemails, List.filter_map, List.filter_congr hkept, ← Db.inboxRows]
  refine (List.map_congr_left fun e he => ?_).trans (List.map_id' _)
  obtain ⟨hmem, hlive, -⟩ := Db.mem_inboxRows.mp he
  exact (hrow e).eq (hdated e hmem) (hback e hmem) hlive

/-- Nothing is kept of the way a message has taken: whatever is searched for, the inbox lists are as
they were exactly if each message lies where it lay, by the last of its clicks that the store has
answered. -/
theorem emailList_performAll_iff {lowercase : String → String} (hblank : lowercase "" = "")
    (gestures : List (Outside × Gesture)) (hdb : s.world.db.WellFormed) (hdated : s.world.db.TrashDated) :
    (∀ (ranking : EmailsDesc) account capacity query,
      emailList lowercase query ((s.performAll gestures).world.db.listInbox ranking account capacity) =
        emailList lowercase query (s.world.db.listInbox ranking account capacity)) ↔
      ∀ e ∈ s.world.db.emails, landed e.id gestures e.isTrashed = e.isTrashed := by
  constructor
  · intro hsame e he
    have hrows := mem_inboxRows_of_listInbox fun n : Nat => by
      simpa only [emailList_blank hblank] using hsame (Ranking.stable _) none n ""
    exact landed_of_inboxRows gestures hdb hrows he
  · intro hback ranking account capacity query
    rw [Db.listInbox, Db.listInbox, inboxRows_performAll gestures hdated hback]

def fedInbox : Inbox where
  world := reached [linkingCall, savingCall] blankWorld
  selectedAccount := none
  selectedEmail := none
  searchQuery := ""

def undoing : List (Outside × Gesture) :=
  [({ clock := [20] }, .trash (.ending '2')), ({ dbFaults := [some "locked"] }, .restore (.ending '2')),
    ({}, .restore (.ending '2'))]

theorem emailList_performAll_iff_undoing :
    emailList toAsciiLowercase ""
        ((fedInbox.performAll undoing).world.db.listInbox (Ranking.stable _) none 10) =
      emailList toAsciiLowercase "" (fedInbox.world.db.listInbox (Ranking.stable _) none 10) := by
  have hemails : fedInbox.world.db.emails =
      [{ trashedEmail with isTrashed := false, trashedAt := none }] := rfl
  have hdated : fedInbox.world.db.TrashDated := by
    rw [Db.TrashDated, hemails]
    exact List.forall_mem_singleton.mpr rfl
  refine (emailList_performAll_iff rfl undoing (reached_wellFormed _ _) hdated).mpr ?_ _ _ _ _
  rw [hemails]
  exact List.forall_mem_singleton.mpr rfl

end Laws

end Inbox

end Fumiko.App
