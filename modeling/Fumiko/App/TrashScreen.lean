import Fumiko.App.Preferences

namespace Fumiko.App

open Fumiko.Common Fumiko.Foundation Fumiko.Foundation.Action Fumiko.Program Fumiko.Storage
  Fumiko.Storage

structure TrashScreen where
  world : World
  retentionDays : Int := 30

inductive Gesture
  | loaded
  | tick
  | restore (email : Uuid)
  | deleteForever (email : Uuid)
  | emptyTrash

namespace TrashScreen

def mount (w : World) : TrashScreen := { world := (purgeExpiredTrash 30 w).2 }

def perform (s : TrashScreen) : Gesture → TrashScreen
  | .loaded =>
    match (storedNumber SettingKeys.trashRetentionDays 30 : Program StorageError Int) s.world with
    | (.ok retentionDays, world) => { world, retentionDays }
    | (.error _, world) => { s with world }
  | .tick => { s with world := (purgeExpiredTrash s.retentionDays s.world).2 }
  | .restore email => { s with world := (restoreEmail email s.world).2 }
  | .deleteForever email => { s with world := (deleteEmail email s.world).2 }
  | .emptyTrash => { s with world := (purgeExpiredTrash 0 s.world).2 }

def performAll : List (Outside × Gesture) → TrashScreen → TrashScreen
  | [], s => s
  | (outside, gesture) :: rest, s =>
    performAll rest (perform { s with world := { s.world with outside } } gesture)

def visit (outside : Outside) (gestures : List (Outside × Gesture)) (w : World) : TrashScreen :=
  performAll gestures (mount { w with outside })

def period (db : Db) : Int :=
  ((db.getSetting SettingKeys.trashRetentionDays).bind Decimal.parseI64).getD 30

def Leaves (e : EmailRow) : Gesture → Prop
  | .restore email => e.id ≠ email
  | .deleteForever email => e.id ≠ email
  | .emptyTrash => False
  | _ => True

section Laws

variable {w : World} {s : TrashScreen} {e : EmailRow} {trashed limit : Int} {email : Uuid}
  {gesture : Gesture}

structure Keeping (e : EmailRow) (w w' : World) : Prop where
  email : e ∈ w.db.emails → e ∈ w'.db.emails
  settings : w'.db.settings = w.db.settings

theorem keeping_of_db {w' : World} (h : w'.db = w.db) : Keeping e w w' :=
  ⟨fun he => h ▸ he, congrArg Db.settings h⟩

theorem keeping_restoreEmail (hother : e.id ≠ email) : Moves (Keeping e) (restoreEmail email) := by
  refine moves_statement (R := Keeping e) (fun w => keeping_of_db rfl) fun w u db hdb => ?_
  rw [Db.restoreEmail, Db.updateEmailById] at hdb
  split at hdb
  · cases hdb
    exact ⟨fun he => List.mem_map.mpr ⟨e, he, by simp [hother]⟩, rfl⟩
  · cases hdb

theorem keeping_deleteEmail (hother : e.id ≠ email) : Moves (Keeping e) (deleteEmail email) := by
  refine moves_statement (R := Keeping e) (fun w => keeping_of_db rfl) fun w u db hdb => ?_
  rw [Db.deleteEmail] at hdb
  split at hdb
  · cases hdb
    exact ⟨fun he => List.mem_filter.mpr ⟨he, by simp [hother]⟩, rfl⟩
  · cases hdb

theorem settings_purgeExpiredTrash (days : Int) (w : World) :
    (purgeExpiredTrash days w).2.db.settings = w.db.settings := by
  have hmoves : Moves (Keeps fun w : World => w.db.settings) (purgeExpiredTrash days) := by
    rw [purgeExpiredTrash]
    split
    · exact moves_raise _
    · refine moves_bind (moves_step fun _ => rfl) fun now => ?_
      refine moves_statement (R := Keeps fun w : World => w.db.settings) (fun _ => rfl) ?_
      intro w count db hdb
      cases hdb
      rfl
  exact hmoves.run w

theorem keeping_purgeExpiredTrash (hdate : e.trashedAt = some trashed) {days : Int}
    (hyoung : w.nextTime - days * secondsPerDay < trashed) : Keeping e w (purgeExpiredTrash days w).2 where
  email he := by
    by_contra hgone
    have hexpired := purgeExpiredTrash_takes he hgone
    rw [Db.expired, hdate, Option.all_some, Bool.and_eq_true, decide_eq_true_eq] at hexpired
    omega
  settings := settings_purgeExpiredTrash days w

/-- The screen goes by the period of the settings, or by the one it had at first, and the message is
still there. -/
structure Safe (e : EmailRow) (settings : List (String × String)) (days : Int) (s : TrashScreen) : Prop where
  email : e ∈ s.world.db.emails
  settings : s.world.db.settings = settings
  days : s.retentionDays = 30 ∨ s.retentionDays = days

theorem period_eq {db db' : Db} (h : db'.settings = db.settings) : period db' = period db := by
  rw [period, period, Db.getSetting, Db.getSetting, h]

theorem Safe.keeping {settings : List (String × String)} {days : Int} (h : Safe e settings days s)
    {world : World} (hkeeping : Keeping e s.world world) : Safe e settings days { s with world } :=
  ⟨hkeeping.email h.email, hkeeping.settings.trans h.settings, h.days⟩

theorem storedNumber_run (w : World) :
    (storedNumber SettingKeys.trashRetentionDays 30 : Program StorageError Int) w =
      (.ok (if w.dbFault.isSome then 30 else period w.db), w.afterDbCall) := by
  rw [storedNumber, bind_run, Preference.settingOrNone_run]
  cases w.dbFault <;> rfl

theorem Safe.perform (h : Safe e w.db.settings (period w.db) s) (hdate : e.trashedAt = some trashed)
    (hyoung : limit - min 30 (period w.db) * secondsPerDay < trashed) (hclock : s.world.nextTime ≤ limit)
    (hleaves : Leaves e gesture) : Safe e w.db.settings (period w.db) (s.perform gesture) := by
  cases gesture with
  | loaded =>
    rw [TrashScreen.perform, storedNumber_run]
    refine ⟨h.email, h.settings, ?_⟩
    cases s.world.dbFault with
    | some text => exact Or.inl rfl
    | none => exact Or.inr (period_eq h.settings)
  | tick =>
    refine h.keeping (keeping_purgeExpiredTrash hdate ?_)
    rw [secondsPerDay] at hyoung ⊢
    rcases h.days with hdays | hdays <;> rw [hdays] <;> omega
  | restore email => exact h.keeping ((keeping_restoreEmail hleaves).run _)
  | deleteForever email => exact h.keeping ((keeping_deleteEmail hleaves).run _)
  | emptyTrash => exact hleaves.elim

theorem Safe.performAll (h : Safe e w.db.settings (period w.db) s) (hdate : e.trashedAt = some trashed)
    (hyoung : limit - min 30 (period w.db) * secondsPerDay < trashed) {gestures : List (Outside × Gesture)}
    (hgestures : ∀ g ∈ gestures, reading g.1 ≤ limit ∧ Leaves e g.2) :
    Safe e w.db.settings (period w.db) (s.performAll gestures) := by
  induction gestures generalizing s with
  | nil => exact h
  | cons g gestures ih =>
    obtain ⟨⟨hclock, hleaves⟩, hrest⟩ := List.forall_mem_cons.mp hgestures
    have hturn : Safe e w.db.settings (period w.db) { s with world := { s.world with outside := g.1 } } :=
      h.keeping (keeping_of_db rfl)
    exact ih (hturn.perform hdate hyoung hclock hleaves) hrest

theorem not_mem_purgeExpiredTrash {days : Int} (hdays : 0 ≤ days ∧ days ≤ maxRetentionDays)
    (hanswers : w.dbFault = none) (hexpired : Db.expired (w.nextTime - days * secondsPerDay) e) :
    e ∉ (purgeExpiredTrash days w).2.db.emails := by
  have hrange : ¬(days < 0 ∨ maxRetentionDays < days) := by omega
  let w₁ : World := { w with outside := { w.outside with clock := w.outside.clock.tail } }
  have hrun : purgeExpiredTrash days w = statement (fun db =>
      .ok (db.purgeExpiredTrash (w.nextTime - days * secondsPerDay))) w₁ := by
    rw [purgeExpiredTrash, if_neg hrange]
    rfl
  rw [hrun, statement_done (w := w₁) hanswers rfl]
  intro he
  have hkept := (List.mem_filter.mp he).2
  rw [hexpired] at hkept
  cases hkept

theorem lost_at_mount (hexpired : Db.expired (limit - 30 * secondsPerDay) e) :
    e ∉ (visit { clock := [limit] } [] w).world.db.emails :=
  not_mem_purgeExpiredTrash (w := { w with outside := { clock := [limit] } }) (by decide) rfl hexpired

theorem lost_after_tick (hperiod : 0 ≤ period w.db ∧ period w.db ≤ maxRetentionDays)
    (hexpired : Db.expired (limit - period w.db * secondsPerDay) e) :
    e ∉ (visit { clock := [limit] } [({ clock := [limit] }, .loaded), ({ clock := [limit] }, .tick)]
      w).world.db.emails := by
  let now : Outside := { clock := [limit] }
  let opened : World := (mount { w with outside := now }).world
  let drawn : TrashScreen := perform { world := { opened with outside := now } } .loaded
  have hdrawn : drawn.retentionDays = period w.db := by
    have hperiod' : period opened.db = period w.db := period_eq (settings_purgeExpiredTrash 30 _)
    simp only [drawn, perform, storedNumber_run]
    exact hperiod'
  have hgone := not_mem_purgeExpiredTrash (w := { drawn.world with outside := now }) hperiod rfl hexpired
  rw [← hdrawn] at hgone
  exact hgone

/-- The visits to the trash by which a message is not lost, unless the user throws it away, are all of
them exactly if it is younger than the period of the settings and than thirty days. -/
theorem kept_by_visits_iff (he : e ∈ w.db.emails) (htrashed : e.isTrashed)
    (hdate : e.trashedAt = some trashed) (hperiod : 0 ≤ period w.db) :
    (∀ outside gestures, reading outside ≤ limit →
      (∀ g ∈ gestures, reading g.1 ≤ limit ∧ Leaves e g.2) →
        e ∈ (visit outside gestures w).world.db.emails) ↔
      limit - min 30 (period w.db) * secondsPerDay < trashed := by
  constructor
  · intro hkept
    by_contra hold
    have hexpired {days : Int} (h : trashed ≤ limit - days * secondsPerDay) :
        Db.expired (limit - days * secondsPerDay) e := by
      rw [Db.expired, htrashed, hdate, Option.all_some, Bool.true_and, decide_eq_true_eq]
      exact h
    let now : Outside := { clock := [limit] }
    have hnow : reading now ≤ limit := Int.le_refl _
    by_cases hlong : 30 ≤ period w.db
    · rw [Int.min_eq_left hlong] at hold
      exact lost_at_mount (hexpired (Int.not_lt.mp hold)) (hkept now [] hnow (List.forall_mem_nil _))
    · rw [Int.min_eq_right (by omega)] at hold
      have hrange : period w.db ≤ maxRetentionDays := Int.le_trans (by omega : period w.db ≤ 30) (by decide)
      refine lost_after_tick ⟨hperiod, hrange⟩ (hexpired (Int.not_lt.mp hold))
        (hkept now [(now, .loaded), (now, .tick)] hnow ?_)
      simp [Leaves, hnow]
  · intro hyoung outside gestures hclock hgestures
    have hopened : Keeping e { w with outside } (purgeExpiredTrash 30 { w with outside }).2 := by
      refine keeping_purgeExpiredTrash hdate ?_
      have hnow : World.nextTime { w with outside } ≤ limit := hclock
      rw [secondsPerDay] at hyoung ⊢
      omega
    have hmount : Safe e w.db.settings (period w.db) (mount { w with outside }) :=
      ⟨hopened.email he, hopened.settings, Or.inl rfl⟩
    exact (hmount.performAll hdate hyoung hgestures).email

def patientWorld : World :=
  { blankWorld with
    db := { Db.empty with
      emails := [{ trashedEmail with trashedAt := some 0 }]
      settings := [(SettingKeys.trashRetentionDays, "90")] } }

theorem kept_by_visits_iff_patient :
    ¬∀ outside gestures, reading outside ≤ 40 * secondsPerDay →
      (∀ g ∈ gestures, reading g.1 ≤ 40 * secondsPerDay ∧ Leaves { trashedEmail with trashedAt := some 0 } g.2) →
        { trashedEmail with trashedAt := some 0 } ∈ (visit outside gestures patientWorld).world.db.emails := by
  have hperiod : period patientWorld.db = 90 := by decide
  rw [kept_by_visits_iff (List.mem_singleton_self _) rfl rfl (by rw [hperiod]; decide), hperiod]
  decide

end Laws

end TrashScreen

end Fumiko.App
