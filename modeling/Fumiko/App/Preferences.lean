import Fumiko.App.Retention
import Fumiko.EmailCore.SyncPage
import Fumiko.Storage.ActivationLaws
import Fumiko.Storage.Listing

namespace Fumiko.App

open Fumiko.Common Fumiko.EmailCore Fumiko.Foundation Fumiko.Foundation.Action Fumiko.Net
  Fumiko.Program Fumiko.Storage

inductive Preference
  | trashRetention
  | initialSyncLimit
  | inboxCapacity
  | findingsCapacity

namespace Preference

def inboxPresets : List Nat := [100, 200, 400, 600, 1000]

def findingsPresets : List Nat := [100, 200, 400, 600, 1000]

def pullLimitOptions : List Nat := [10, 25, 50, 100, 200]

def key : Preference → String
  | .trashRetention => SettingKeys.trashRetentionDays
  | .initialSyncLimit => SettingKeys.initialSyncLimit
  | .inboxCapacity => SettingKeys.inboxCapacity
  | .findingsCapacity => SettingKeys.findingsCapacity

def Offers : Preference → Nat → Prop
  | .trashRetention, days => days ≤ 365
  | .initialSyncLimit, opt => opt ∈ pullLimitOptions
  | .inboxCapacity, opt => opt ∈ inboxPresets
  | .findingsCapacity, opt => opt ∈ findingsPresets

/-- `onclick` of one of the presets. -/
def select (preference : Preference) (opt : Nat) : Program StorageError Unit :=
  Action.ignore (setSetting preference.key (Nat.repr opt))

end Preference

def storedNumber {ε : Type} (key : String) (default : Int) : Program ε Int := do
  let setting ← settingOrNone key
  pure ((setting.bind Decimal.parseI64).getD default)

def purgeAfterSync : Program StorageError Nat := do
  let retention ← storedNumber SettingKeys.trashRetentionDays Config.defaultTrashRetentionDays
  purgeExpiredTrash retention

def inboxScreen (ranking : EmailsDesc) (selected : Option Uuid) : Program StorageError (List EmailRow) := do
  let limit ← storedNumber SettingKeys.inboxCapacity Config.defaultInboxCapacity
  match selected with
  | some account => listInbox ranking account limit
  | none => listInboxAll ranking limit

def findingsScreen (ranking : MatchesDesc) (selected : Option Uuid) :
    Program StorageError (List MatchedEmailWithReason) := do
  let limit ← storedNumber SettingKeys.findingsCapacity Config.defaultFindingsCapacity
  match selected with
  | some account => listCriteriaForAccount ranking account limit
  | none => listCriteriaForAll ranking limit

namespace Preference

/-- One call of the application, or one click on the settings screen, whatever comes of it. -/
inductive Step : World → World → Prop
  | call {w} (outside : Outside) (operation : Operation)
      (hforeign : ∀ preference value, ¬operation.Writes (key preference) value) :
      Step w (operation.perform { w with outside })
  | click {w} (outside : Outside) (field : String) (c : Retention.Click) :
      Step w (Retention.click field c { w with outside }).2
  | input {w} (outside : Outside) (text : String) : Step w (Retention.input text { w with outside }).2
  | select {w} (outside : Outside) (preference : Preference) (opt : Nat)
      (hpreference : preference ≠ .trashRetention) (hoffers : preference.Offers opt) :
      Step w (preference.select opt { w with outside }).2

abbrev Run : World → World → Prop := Relation.ReflTransGen Step

/-- The store takes what is read back, and the first synchronisation asks for a number on offer. -/
structure Accepted (w : World) : Prop where
  retention : ∀ reason, (purgeAfterSync w).1 ≠ .error (.invalidInput reason)
  inbox : ∀ ranking selected reason, (inboxScreen ranking selected w).1 ≠ .error (.invalidInput reason)
  findings : ∀ ranking selected reason, (findingsScreen ranking selected w).1 ≠ .error (.invalidInput reason)
  capacities : ∀ n w', capacity SettingKeys.inboxCapacity Config.defaultInboxCapacity w = (.ok n, w') →
    n.toNat ∈ inboxPresets
  pull : ∀ options w', initialSyncOptions w = (.ok options, w') → options.maxResults ∈ pullLimitOptions

def Tuned (db : Db) : Prop :=
  ∀ preference value, db.getSetting (key preference) = some value →
    ∃ n, preference.Offers n ∧ value = Nat.repr n

section Laws

variable {w w' : World} {preference : Preference} {n : Nat}

theorem Offers.le (h : preference.Offers n) : n ≤ 1000 := by
  cases preference with
  | trashRetention => exact Nat.le_trans h (by decide)
  | initialSyncLimit =>
    simp only [Offers, pullLimitOptions, List.mem_cons, List.not_mem_nil, or_false] at h
    omega
  | inboxCapacity =>
    simp only [Offers, inboxPresets, List.mem_cons, List.not_mem_nil, or_false] at h
    omega
  | findingsCapacity =>
    simp only [Offers, findingsPresets, List.mem_cons, List.not_mem_nil, or_false] at h
    omega

def Stores (key value : String) : Prop :=
  ∀ preference : Preference, preference.key = key → ∃ n, preference.Offers n ∧ value = Nat.repr n

theorem Tuned.of_writing (h : Tuned w.db) (hwriting : Writing Stores w w') : Tuned w'.db := by
  intro preference value hvalue
  rcases hwriting _ value hvalue with hbefore | hstores
  · exact h preference value hbefore
  · exact hstores preference rfl

theorem key_injective : Function.Injective key := by
  intro a b hkey
  cases a <;> cases b <;> first | rfl | exact absurd hkey (by decide)

theorem stores_of_offers (h : preference.Offers n) : Stores preference.key (Nat.repr n) := by
  intro other hkey
  rw [key_injective hkey]
  exact ⟨n, h, rfl⟩

theorem writing_save (days : Nat) : Moves (Writing Stores) (Retention.save days) := by
  have hoffers : trashRetention.Offers (Retention.clamped days) := Nat.min_le_right _ _
  refine moves_bind (moves_ignore (writing_setSetting (stores_of_offers hoffers))) fun _ => ?_
  exact moves_bind (moves_ignore (writing_purgeExpiredTrash _)) fun _ => moves_pure _

theorem writing_input (text : String) : Moves (Writing Stores) (Retention.input text) := by
  rw [Retention.input]
  split
  · exact writing_save _
  · exact moves_pure _

theorem writing_click (field : String) (c : Retention.Click) :
    Moves (Writing Stores) (Retention.click field c) := by
  cases c with
  | less =>
    rw [Retention.click]
    split
    · exact writing_save _
    · exact moves_pure _
  | more =>
    rw [Retention.click]
    split
    · exact writing_save _
    · exact moves_pure _
  | preset days =>
    rw [Retention.click]
    split
    · exact writing_save _
    · exact moves_pure _

theorem Tuned.step (h : Tuned w.db) (hstep : Step w w') : Tuned w'.db := by
  cases hstep with
  | call outside operation hforeign =>
    intro preference value hvalue
    rcases operation.writing { w with outside } _ value hvalue with hbefore | hwrites
    · exact h preference value hbefore
    · exact absurd hwrites (hforeign preference value)
  | click outside field c => exact Tuned.of_writing (w := { w with outside }) h ((writing_click field c).run _)
  | input outside text => exact Tuned.of_writing (w := { w with outside }) h ((writing_input text).run _)
  | select outside preference opt _ hoffers =>
    exact Tuned.of_writing (w := { w with outside }) h
      ((moves_ignore (writing_setSetting (stores_of_offers hoffers))).run _)

theorem Tuned.run (h : Tuned w.db) (hrun : Run w w') : Tuned w'.db := by
  induction hrun with
  | refl => exact h
  | tail _ hstep ih => exact ih.step hstep

theorem settingOrNone_run {ε : Type} (key : String) (w : World) :
    (settingOrNone key : Program ε _) w =
      (.ok (if w.dbFault.isSome then none else w.db.getSetting key), w.afterDbCall) := by
  rw [settingOrNone, bind_run, attempt, getSetting, query_run]
  cases w.dbFault <;> rfl

theorem Tuned.storedNumber (h : Tuned w.db) (preference : Preference) (default : Int) {ε : Type} :
    ∃ n : Int, (storedNumber preference.key default : Program ε Int) w = (.ok n, w.afterDbCall) ∧
      (n = default ∨ ∃ opt : Nat, preference.Offers opt ∧ n = opt) := by
  rw [App.storedNumber, bind_run, settingOrNone_run]
  cases hfault : w.dbFault.isSome with
  | true => exact ⟨default, rfl, Or.inl rfl⟩
  | false =>
    cases hvalue : w.db.getSetting preference.key with
    | none => exact ⟨default, rfl, Or.inl rfl⟩
    | some value =>
      obtain ⟨opt, hoffers, rfl⟩ := h preference value hvalue
      have hparse : Decimal.parseI64 (Nat.repr opt) = some (opt : Int) :=
        Decimal.parseI64_repr (Nat.lt_of_le_of_lt hoffers.le (by decide))
      refine ⟨opt, ?_, Or.inr ⟨opt, hoffers, rfl⟩⟩
      change (Except.ok ((Decimal.parseI64 (Nat.repr opt)).getD default), w.afterDbCall) = _
      rw [hparse]
      rfl

theorem purgeExpiredTrash_ne {days : Int} (hlow : 0 ≤ days) (hhigh : days ≤ maxRetentionDays) (w : World)
    (reason : String) : (purgeExpiredTrash days w).1 ≠ .error (.invalidInput reason) := by
  rw [purgeExpiredTrash, if_neg (by omega), bind_run]
  change (statement _ _).1 ≠ _
  rw [statement_run]
  split
  · intro h
    cases h
  · intro h
    cases h

theorem list_ne {α : Type} {limit : Int} (hlow : 0 ≤ limit) (hhigh : limit ≤ maxQueryLimit) (f : Db → α)
    (w : World) (reason : String) :
    ((do Action.liftExcept (validateLimit limit); query f : Program StorageError α) w).1 ≠
      .error (.invalidInput reason) := by
  rw [validateLimit_ok hlow hhigh]
  change (query f w).1 ≠ _
  rw [query_run]
  split
  · intro h
    cases h
  · intro h
    cases h

theorem Tuned.retention (h : Tuned w.db) (reason : String) :
    (purgeAfterSync w).1 ≠ .error (.invalidInput reason) := by
  obtain ⟨days, hread, hdays⟩ := h.storedNumber (ε := StorageError) .trashRetention
    Config.defaultTrashRetentionDays
  have hrange : 0 ≤ days ∧ days ≤ 365 := by
    rcases hdays with rfl | ⟨opt, hoffers, rfl⟩
    · decide
    · have hopt : opt ≤ 365 := hoffers
      omega
  rw [purgeAfterSync, bind_run]
  rw [show SettingKeys.trashRetentionDays = key .trashRetention from rfl, hread]
  exact purgeExpiredTrash_ne hrange.1 (Int.le_trans hrange.2 (by decide)) _ _

theorem Tuned.limit (h : Tuned w.db) (preference : Preference) {default : Nat} (hdefault : default ≤ 1000)
    {ε : Type} : ∃ n : Int, (App.storedNumber preference.key default : Program ε Int) w =
      (.ok n, w.afterDbCall) ∧ 0 ≤ n ∧ n ≤ maxQueryLimit := by
  obtain ⟨n, hread, hn⟩ := h.storedNumber (ε := ε) preference default
  refine ⟨n, hread, ?_⟩
  rw [maxQueryLimit]
  rcases hn with rfl | ⟨opt, hoffers, rfl⟩
  · omega
  · have hopt := hoffers.le
    omega

theorem Tuned.inbox (h : Tuned w.db) (ranking : EmailsDesc) (selected : Option Uuid) (reason : String) :
    (inboxScreen ranking selected w).1 ≠ .error (.invalidInput reason) := by
  obtain ⟨n, hread, hlow, hhigh⟩ :=
    h.limit (ε := StorageError) .inboxCapacity (show Config.defaultInboxCapacity ≤ 1000 by decide)
  rw [inboxScreen, bind_run, show SettingKeys.inboxCapacity = key .inboxCapacity from rfl, hread]
  cases selected with
  | none => exact list_ne hlow hhigh _ _ _
  | some account => exact list_ne hlow hhigh _ _ _

theorem Tuned.findings (h : Tuned w.db) (ranking : MatchesDesc) (selected : Option Uuid) (reason : String) :
    (findingsScreen ranking selected w).1 ≠ .error (.invalidInput reason) := by
  obtain ⟨n, hread, hlow, hhigh⟩ :=
    h.limit (ε := StorageError) .findingsCapacity (show Config.defaultFindingsCapacity ≤ 1000 by decide)
  rw [findingsScreen, bind_run, show SettingKeys.findingsCapacity = key .findingsCapacity from rfl, hread]
  cases selected with
  | none => exact list_ne hlow hhigh _ _ _
  | some account => exact list_ne hlow hhigh _ _ _

theorem Tuned.capacities (h : Tuned w.db) {n : Int}
    (hread : capacity SettingKeys.inboxCapacity Config.defaultInboxCapacity w = (.ok n, w')) :
    n.toNat ∈ inboxPresets := by
  obtain ⟨m, hstored, hm⟩ := h.storedNumber (ε := SyncError) .inboxCapacity Config.defaultInboxCapacity
  have hsame : (App.storedNumber (key .inboxCapacity) Config.defaultInboxCapacity : Program SyncError Int) w =
      (.ok n, w') := hread
  rw [hstored] at hsame
  cases hsame
  rcases hm with rfl | ⟨opt, hoffers, rfl⟩
  · decide
  · exact hoffers

theorem Tuned.pull (h : Tuned w.db) {options : SyncOptions}
    (hread : initialSyncOptions w = (.ok options, w')) : options.maxResults ∈ pullLimitOptions := by
  rw [initialSyncOptions, bind_run, settingOrNone_run] at hread
  cases hread
  split
  · decide
  · cases hvalue : w.db.getSetting SettingKeys.initialSyncLimit with
    | none => decide
    | some value =>
      obtain ⟨opt, hoffers, rfl⟩ := h .initialSyncLimit value hvalue
      have hparse := Decimal.parseU32_repr (Nat.lt_of_le_of_lt hoffers.le (by decide))
      simp only [Option.bind_some, hparse, Option.getD_some]
      simp only [Offers, pullLimitOptions, List.mem_cons, List.not_mem_nil, or_false] at hoffers ⊢
      rw [Config.maxInitialSyncLimit]
      omega

/-- As long as these settings are left to their sections, whatever else happens and fails, the store
takes what is read back. -/
theorem accepted_of_run (h : w.db = Db.empty) (hrun : Run w w') : Accepted w' := by
  have htuned : Tuned w.db := by
    intro preference value hvalue
    rw [h] at hvalue
    cases hvalue
  have hend := htuned.run hrun
  exact ⟨hend.retention, hend.inbox, hend.findings, fun _ _ => hend.capacities, fun _ _ => hend.pull⟩

theorem accepted_of_run_select :
    Accepted (inboxCapacity.select 400 (answering Db.empty (Ranking.stable Prod.snd))).2 := by
  apply accepted_of_run (w := answering Db.empty (Ranking.stable Prod.snd)) rfl
  refine .single (.select { ranking := Ranking.stable Prod.snd } inboxCapacity 400 ?_ ?_)
  · intro h
    cases h
  · simp [Offers, inboxPresets]

end Laws

end Preference

end Fumiko.App
