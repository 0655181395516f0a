import Fumiko.Foundation.Text
import Fumiko.Storage.Listing
import Fumiko.Storage.SettingLaws

namespace Fumiko.App.Retention

open Fumiko.Common Fumiko.Foundation Fumiko.Foundation.Action Fumiko.Program Fumiko.Storage

def presets : List Nat := [0, 7, 14, 30, 90]

def clamped (days : Nat) : Nat := min days 365

/-- `save_retention_days`: the task it spawns, and what the field shows from then on. -/
def save (days : Nat) : Program StorageError String := do
  Action.ignore (setSetting SettingKeys.trashRetentionDays (Nat.repr (clamped days)))
  Action.ignore (purgeExpiredTrash (clamped days))
  pure (Nat.repr (clamped days))

/-- `oninput` of the field. -/
def input (text : String) : Program StorageError String :=
  match Decimal.parseU32 text with
  | some days => save days
  | none => pure text

def currentDays (field : String) : Nat := (Decimal.parseU32 field).getD 30

inductive Click
  | less
  | more
  | preset (days : Nat)

def click (field : String) : Click → Program StorageError String
  | .less => if 0 < currentDays field then save (currentDays field - 1) else pure field
  | .more => if currentDays field < 365 then save (currentDays field + 1) else pure field
  | .preset days => if days ∈ presets then save days else pure field

/-- Keys that are pressed one after the other, each at the end of what the field shows. -/
def typing : List Char → String → Program StorageError String
  | [], field => pure field
  | c :: cs, field => do
    let shown ← input (field.push c)
    typing cs shown

section Laws

variable {w : World} {days : Nat} {c : Char} {cs : List Char}

theorem purgeExpiredTrash_done (hanswers : w.DbAnswers) (hdays : days ≤ 365) :
    ∃ count w', purgeExpiredTrash days w = (.ok count, w') ∧ w'.DbAnswers ∧
      w'.outside.clock = w.outside.clock.tail ∧
      w'.db = (w.db.purgeExpiredTrash (w.nextTime - days * secondsPerDay)).2 := by
  let w₁ : World := { w with outside := { w.outside with clock := w.outside.clock.tail } }
  have hw₁ : w₁.DbAnswers := hanswers
  have hrange : ¬((days : Int) < 0 ∨ maxRetentionDays < days) := by
    rw [maxRetentionDays]
    omega
  rw [purgeExpiredTrash, if_neg hrange]
  let purged := w.db.purgeExpiredTrash (w.nextTime - days * secondsPerDay)
  refine ⟨purged.1, w₁.afterDbCall.withDb purged.2, ?_, ?_, rfl, rfl⟩
  · exact statement_done (w := w₁) hw₁.dbFault rfl
  · exact (World.calm_afterDbCall w₁).dbAnswers hw₁

theorem save_done (hanswers : w.DbAnswers) (days : Nat) :
    ∃ w', save days w = (.ok (Nat.repr (clamped days)), w') ∧ w'.DbAnswers ∧
      w'.outside.clock = w.outside.clock.tail ∧
      w'.db = ((w.db.setSetting SettingKeys.trashRetentionDays (Nat.repr (clamped days))).purgeExpiredTrash
        (w.nextTime - clamped days * secondsPerDay)).2 := by
  let w₁ := w.afterDbCall.withDb (w.db.setSetting SettingKeys.trashRetentionDays (Nat.repr (clamped days)))
  have hset : (setSetting SettingKeys.trashRetentionDays (Nat.repr (clamped days)) w).2 = w₁ := by
    rw [setSetting, execute_run, hanswers.dbFault]
  have hw₁ : w₁.DbAnswers := (World.calm_afterDbCall w).dbAnswers hanswers
  obtain ⟨count, w', hpurge, hanswers', hclock, hdb⟩ :=
    purgeExpiredTrash_done hw₁ (show clamped days ≤ 365 from Nat.min_le_right _ _)
  refine ⟨w', ?_, hanswers', hclock, hdb⟩
  change (Except.ok _, (purgeExpiredTrash (clamped days)
    (setSetting SettingKeys.trashRetentionDays (Nat.repr (clamped days)) w).2).2) = _
  rw [hset, hpurge]

theorem setSetting_emails (db : Db) (key value : String) : (db.setSetting key value).emails = db.emails := by
  rw [Db.setSetting]
  split <;> rfl

theorem expired_of_le {e : EmailRow} {cutoff later : Int} (h : Db.expired cutoff e = false)
    (hle : later ≤ cutoff) : Db.expired later e = false := by
  cases htrashed : e.isTrashed with
  | false => simp [Db.expired, htrashed]
  | true =>
    cases hdate : e.trashedAt with
    | none => simp [Db.expired, htrashed, hdate] at h
    | some t =>
      simp only [Db.expired, htrashed, hdate, Option.all_some, Bool.true_and, decide_eq_false_iff_not] at h ⊢
      omega

/-- No purge by `first` days or more takes any of the emails within a day. -/
def Spared (emails : List EmailRow) (now : Int) (first : Nat) : Prop :=
  ∀ e ∈ emails, ∀ cutoff, (0 < first → cutoff ≤ now - first * secondsPerDay) → Db.expired cutoff e = false

/-- A period of `days` has been set, and nothing but the purge for the first digit has taken emails. -/
structure Typed (emails : List EmailRow) (now : Int) (first days : Nat) (w : World) : Prop where
  answers : w.DbAnswers
  clock : ∀ t ∈ w.outside.clock, t ≤ now + secondsPerDay
  first : first ≤ days
  bound : days ≤ 365
  setting : w.db.getSetting SettingKeys.trashRetentionDays = some (Nat.repr days)
  emails : w.db.emails = emails

theorem spared_purgeExpiredTrash (db : Db) (now : Int) {first : Nat}
    (hdated : first = 0 → ∀ e ∈ db.emails, e.isTrashed → ∀ t ∈ e.trashedAt, t ≤ now) :
    Spared (db.purgeExpiredTrash (now - first * secondsPerDay)).2.emails now first := by
  intro e he cutoff hcutoff
  obtain ⟨hmem, hkept⟩ := List.mem_filter.mp he
  have hleft : Db.expired (now - first * secondsPerDay) e = false := by simpa using hkept
  cases first with
  | succ first => exact expired_of_le hleft (hcutoff (Nat.succ_pos first))
  | zero =>
    -- The period 0 empties the trash.
    cases htrashed : e.isTrashed with
    | false => simp [Db.expired, htrashed]
    | true =>
      have hold : e.trashedAt.all (· ≤ now) := by
        rw [Option.all_eq_true]
        intro t ht
        exact decide_eq_true (hdated rfl e hmem htrashed t ht)
      simp [Db.expired, htrashed, hold] at hleft

theorem nextTime_le {t : Int} (ht : 0 ≤ t) (hclock : ∀ reading ∈ w.outside.clock, reading ≤ t) :
    w.nextTime ≤ t := by
  rw [World.nextTime]
  cases hreadings : w.outside.clock with
  | nil => exact ht
  | cons reading readings => exact hclock reading (hreadings ▸ List.mem_cons_self)

theorem toNat_sub_lt (hc : c.isDigit) : c.toNat - '0'.toNat < 10 := by
  simp only [Char.isDigit, Bool.and_eq_true, decide_eq_true_eq, UInt32.le_iff_toNat_le] at hc
  have hhigh : c.toNat ≤ 57 := hc.2
  change c.toNat - 48 < 10
  omega

section Keys

variable {emails : List EmailRow} {now : Int} {first : Nat}

theorem Typed.input (h : Typed emails now first days w) (hdigit : first < 10)
    (hnow : 0 ≤ now) (hspared : Spared emails now first)
    (hc : c.isDigit) :
    ∃ w', input ((Nat.repr days).push c) w =
        (.ok (Nat.repr (clamped (10 * days + (c.toNat - '0'.toNat)))), w') ∧
      Typed emails now first (clamped (10 * days + (c.toNat - '0'.toNat))) w' := by
  have hbound := h.bound
  have hfirst := h.first
  have hvalue := toNat_sub_lt hc
  have hparse := Decimal.parseUnsigned_push (n := days) hc (show _ < 2 ^ 32 by omega)
  obtain ⟨w', hsave, hanswers, hclock, hdb⟩ := save_done h.answers (10 * days + (c.toNat - '0'.toNat))
  refine ⟨w', ?_, hanswers, ?_, ?_, Nat.min_le_right _ _, ?_, ?_⟩
  · rw [Retention.input, Decimal.parseU32, hparse]
    exact hsave
  · intro t ht
    rw [hclock] at ht
    exact h.clock t (List.mem_of_mem_tail ht)
  · rw [clamped]
    omega
  · rw [hdb]
    exact getSetting_setSetting _ _ _
  · rw [hdb, ← h.emails, ← setSetting_emails w.db]
    have htime := nextTime_le (by rw [secondsPerDay]; omega) h.clock
    apply List.filter_eq_self.mpr
    intro e he
    rw [setSetting_emails, h.emails] at he
    rw [Bool.not_eq_true']
    apply hspared e he
    intro hpos
    have hlonger : first + 1 ≤ clamped (10 * days + (c.toNat - '0'.toNat)) := by
      rw [clamped]
      omega
    rw [secondsPerDay] at htime ⊢
    omega

theorem le_ofDigitChars (n : Nat) (cs : List Char) : n ≤ Nat.ofDigitChars 10 cs n := by
  induction cs generalizing n with
  | nil => exact Nat.le_refl n
  | cons c cs ih =>
    rw [Nat.ofDigitChars_cons]
    exact Nat.le_trans (by omega) (ih _)

theorem clamped_ofDigitChars (n : Nat) (cs : List Char) :
    clamped (Nat.ofDigitChars 10 cs (clamped n)) = clamped (Nat.ofDigitChars 10 cs n) := by
  by_cases hn : n ≤ 365
  · rw [show clamped n = n from Nat.min_eq_left hn]
  · have hfull := le_ofDigitChars (clamped n) cs
    have hlarge := le_ofDigitChars n cs
    simp only [clamped] at hfull ⊢
    omega

theorem Typed.typing (h : Typed emails now first days w) (hdigit : first < 10)
    (hnow : 0 ≤ now) (hspared : Spared emails now first)
    (hcs : ∀ c ∈ cs, c.isDigit) :
    ∃ w', typing cs (Nat.repr days) w = (.ok (Nat.repr (clamped (Nat.ofDigitChars 10 cs days))), w') ∧
      Typed emails now first (clamped (Nat.ofDigitChars 10 cs days)) w' := by
  induction cs generalizing days w with
  | nil =>
    rw [Nat.ofDigitChars_nil, show clamped days = days from Nat.min_eq_left h.bound]
    exact ⟨w, rfl, h⟩
  | cons c cs ih =>
    obtain ⟨hc, hcs⟩ := List.forall_mem_cons.mp hcs
    obtain ⟨w₁, hinput, hw₁⟩ := h.input hdigit hnow hspared hc
    obtain ⟨w', hrest, hw'⟩ := ih hw₁ hcs
    rw [clamped_ofDigitChars, ← Nat.ofDigitChars_cons] at hrest hw'
    refine ⟨w', ?_, hw'⟩
    rw [Retention.typing, bind_run, hinput]
    exact hrest

end Keys

theorem toNat_sub_eq_zero (hc : c.isDigit) (h : c.toNat - '0'.toNat = 0) : c = '0' := by
  simp only [Char.isDigit, Bool.and_eq_true, decide_eq_true_eq, UInt32.le_iff_toNat_le] at hc
  have hlow : 48 ≤ c.toNat := hc.1
  change c.toNat - 48 = 0 at h
  exact Char.toNat_inj.mp (show c.toNat = 48 by omega)

theorem parseU32_digit (hc : c.isDigit) : Decimal.parseU32 ("".push c) = some (c.toNat - '0'.toNat) := by
  have hdigit := toNat_sub_lt hc
  have htext : "".push c = String.ofList [c] := by
    apply String.toList_injective
    simp
  have hvalue : Nat.ofDigitChars 10 [c] 0 = c.toNat - '0'.toNat := by
    rw [Nat.ofDigitChars_cons, Nat.ofDigitChars_nil, Nat.mul_zero, Nat.zero_add]
  rw [htext, Decimal.parseU32, Decimal.parseUnsigned_ofList (by simp [Decimal.isNumeral, hc]), hvalue]
  rw [hvalue]
  omega

theorem input_first (hc : c.isDigit) (hanswers : w.DbAnswers)
    (hclock : ∀ t ∈ w.outside.clock, t ≤ w.nextTime + secondsPerDay) :
    ∃ w', input ("".push c) w = (.ok (Nat.repr (c.toNat - '0'.toNat)), w') ∧
      Typed (w.db.purgeExpiredTrash (w.nextTime - (c.toNat - '0'.toNat : Nat) * secondsPerDay)).2.emails
        w.nextTime (c.toNat - '0'.toNat) (c.toNat - '0'.toNat) w' := by
  have hdigit := toNat_sub_lt hc
  have hclamped : clamped (c.toNat - '0'.toNat) = c.toNat - '0'.toNat := Nat.min_eq_left (by omega)
  obtain ⟨w', hsave, hanswers', hclock', hdb⟩ := save_done hanswers (c.toNat - '0'.toNat)
  rw [hclamped] at hsave hdb
  refine ⟨w', ?_, hanswers', ?_, Nat.le_refl _, by omega, ?_, ?_⟩
  · rw [input, parseU32_digit hc]
    exact hsave
  · intro t ht
    rw [hclock'] at ht
    exact hclock t (List.mem_of_mem_tail ht)
  · rw [hdb]
    exact getSetting_setSetting _ _ _
  · rw [hdb]
    exact congrArg (List.filter _) (setSetting_emails _ _ _)

/-- A number is not entered at once: what its first digit alone would delete is gone when it has been
typed, and nothing else is. -/
theorem typing_purges_first (hc : c.isDigit) (hcs : ∀ d ∈ cs, d.isDigit)
    (hanswers : w.DbAnswers) (hnow : 0 ≤ w.nextTime)
    (hclock : ∀ t ∈ w.outside.clock, t ≤ w.nextTime + secondsPerDay)
    (hdated : c = '0' → ∀ e ∈ w.db.emails, e.isTrashed → ∀ t ∈ e.trashedAt, t ≤ w.nextTime) :
    ∃ w', typing (c :: cs) "" w = (.ok (Nat.repr (clamped (Nat.ofDigitChars 10 (c :: cs) 0))), w') ∧
      w'.db.getSetting SettingKeys.trashRetentionDays =
        some (Nat.repr (clamped (Nat.ofDigitChars 10 (c :: cs) 0))) ∧
      w'.db.emails =
        (w.db.purgeExpiredTrash (w.nextTime - (c.toNat - '0'.toNat : Nat) * secondsPerDay)).2.emails := by
  obtain ⟨w₁, hinput, htyped⟩ := input_first hc hanswers hclock
  have hspared := spared_purgeExpiredTrash w.db w.nextTime (fun hzero => hdated (toNat_sub_eq_zero hc hzero))
  obtain ⟨w', hrest, hw'⟩ := htyped.typing (toNat_sub_lt hc) hnow hspared hcs
  have hvalue : Nat.ofDigitChars 10 (c :: cs) 0 = Nat.ofDigitChars 10 cs (c.toNat - '0'.toNat) := by
    rw [Nat.ofDigitChars_cons, Nat.mul_zero, Nat.zero_add]
  rw [hvalue]
  refine ⟨w', ?_, hw'.setting, hw'.emails⟩
  rw [typing, bind_run, hinput]
  exact hrest

theorem typing_purges_first_bin :
    (∃ w', typing ['9', '0'] "" binWorld = (.ok (Nat.repr (clamped (Nat.ofDigitChars 10 ['9', '0'] 0))), w') ∧
      w'.db.getSetting SettingKeys.trashRetentionDays =
        some (Nat.repr (clamped (Nat.ofDigitChars 10 ['9', '0'] 0))) ∧
      w'.db.emails = (binWorld.db.purgeExpiredTrash
        (binWorld.nextTime - ('9'.toNat - '0'.toNat : Nat) * secondsPerDay)).2.emails) ∧
    ∃ w', typing ['0', '7'] "" binWorld = (.ok (Nat.repr (clamped (Nat.ofDigitChars 10 ['0', '7'] 0))), w') ∧
      w'.db.getSetting SettingKeys.trashRetentionDays =
        some (Nat.repr (clamped (Nat.ofDigitChars 10 ['0', '7'] 0))) ∧
      w'.db.emails = (binWorld.db.purgeExpiredTrash
        (binWorld.nextTime - ('0'.toNat - '0'.toNat : Nat) * secondsPerDay)).2.emails := by
  have hanswers : binWorld.DbAnswers := by
    intro fault hfault
    cases hfault
  have hclock : ∀ t ∈ [90000], t ≤ (90000 : Int) + secondsPerDay := List.forall_mem_singleton.mpr (by decide)
  have hdated : ∀ e ∈ binWorld.db.emails, e.isTrashed → ∀ t ∈ e.trashedAt, t ≤ binWorld.nextTime := by
    intro e he _ t ht
    simp only [binWorld, answering, List.mem_cons, List.not_mem_nil, or_false] at he
    obtain rfl | rfl := he
    · cases ht
      decide
    · cases ht
      decide
  constructor
  · exact typing_purges_first (by decide) (List.forall_mem_singleton.mpr rfl) hanswers (by decide) hclock
      fun _ => hdated
  · exact typing_purges_first (by decide) (List.forall_mem_singleton.mpr rfl) hanswers (by decide) hclock
      fun _ => hdated

end Laws

end Fumiko.App.Retention
