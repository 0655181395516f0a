import Mathlib.Data.Option.Basic
import Mathlib.Logic.Relation

namespace Fumiko.App

structure Theme where
  active : Option String := none
  disabled : Option String := none
  activeCustomCss : Option String := none
  disabledExists : Bool := false
  imported : List String := []

namespace Theme

/-- `handle_file_upload`, when `custom.css` has been written. -/
def importCss (css : String) (t : Theme) : Theme :=
  { t with
    active := some css
    activeCustomCss := some css
    disabledExists := false
    imported := t.imported ++ [css] }

/-- `disable_custom_css`: the renaming replaces what is there under the new name. -/
def disableFiles (t : Theme) : Theme :=
  if t.active.isSome then { t with active := none, disabled := t.active } else t

/-- The button `Use Default Theme`. -/
def disable (t : Theme) : Theme :=
  { t.disableFiles with activeCustomCss := none, disabledExists := true }

/-- `enable_custom_css`, up to the reading of the file. -/
def enableFiles (t : Theme) : Theme :=
  if t.disabled.isSome then { t with active := t.disabled, disabled := none } else t

/-- The button `Enable Custom Theme`. -/
def enable (t : Theme) : Theme :=
  if t.disabled.isSome then
    { t.enableFiles with activeCustomCss := t.disabled, disabledExists := false }
  else t

def reopen (t : Theme) : Theme := { t with disabledExists := t.disabled.isSome }

/-- The application is started again; `loaded` is what it has read from `custom.css`. -/
def relaunch (loaded : Option String) (t : Theme) : Theme := { t.reopen with activeCustomCss := loaded }

/-- What a button, an import or a launch does.  `faults` says whether a file may be left half written
or not be readable; a call that has no effect at all may always fail. -/
inductive Step (faults : Prop) : Theme → Theme → Prop
  | importCss {t} (css : String) : Step faults t (t.importCss css)
  | disable {t} (hoffered : t.activeCustomCss.isSome) : Step faults t t.disable
  | enable {t} (hoffered : t.activeCustomCss = none ∧ t.disabledExists) : Step faults t t.enable
  | refused {t} : Step faults t t
  | reopen {t} : Step faults t t.reopen
  | relaunch {t} : Step faults t (t.relaunch t.active)
  | torn {t} (part : String) (h : faults) : Step faults t { t with active := some part }
  | unread {t} (hoffered : t.activeCustomCss = none ∧ t.disabledExists) (h : faults) :
      Step faults t t.enableFiles
  | unreadable {t} (h : faults) : Step faults t (t.relaunch none)

abbrev Run (faults : Prop) : Theme → Theme → Prop := Relation.ReflTransGen (Step faults)

def launched (active disabled : Option String) : Theme :=
  { active, disabled, activeCustomCss := active, disabledExists := disabled.isSome }

def current (t : Theme) : Option String := t.active.or t.disabled

def Kept (css : String) (t : Theme) : Prop := t.active = some css ∨ t.disabled = some css

section Laws

variable {t u : Theme} {active disabled : Option String} {first second : String}

structure Faithful (start : Option String) (t : Theme) : Prop where
  shown : t.activeCustomCss = t.active
  offered : t.disabledExists → t.disabled.isSome
  current : t.current = t.imported.getLast?.or start

theorem Faithful.disable {start : Option String} (h : Faithful start t) (hoffered : t.activeCustomCss.isSome) :
    Faithful start t.disable := by
  rw [h.shown] at hoffered
  have hcurrent := h.current
  obtain ⟨css, hcss⟩ := Option.isSome_iff_exists.mp hoffered
  simp only [Theme.current, hcss, Option.some_or] at hcurrent
  constructor
  · simp [Theme.disable, disableFiles, hcss]
  · simp [Theme.disable, disableFiles, hcss]
  · simpa [Theme.disable, disableFiles, Theme.current, hcss] using hcurrent

theorem Faithful.enable {start : Option String} (h : Faithful start t)
    (hoffered : t.activeCustomCss = none ∧ t.disabledExists) : Faithful start t.enable := by
  have hnone : t.active = none := h.shown ▸ hoffered.1
  have hsome : t.disabled.isSome := h.offered hoffered.2
  have hcurrent := h.current
  simp only [Theme.current, hnone, Option.none_or] at hcurrent
  constructor
  · simp [Theme.enable, enableFiles, hsome]
  · simp [Theme.enable, hsome]
  · simpa [Theme.enable, enableFiles, Theme.current, hsome] using hcurrent

theorem Faithful.step {start : Option String} (h : Faithful start t) (hstep : Step False t u) :
    Faithful start u := by
  cases hstep with
  | importCss css => exact ⟨rfl, by simp [Theme.importCss], by simp [Theme.importCss, Theme.current]⟩
  | disable hoffered => exact h.disable hoffered
  | enable hoffered => exact h.enable hoffered
  | refused => exact h
  | reopen => exact ⟨h.shown, fun hexists => hexists, h.current⟩
  | relaunch => exact ⟨rfl, fun hexists => hexists, h.current⟩
  | torn _ hfalse => exact hfalse.elim
  | unread _ hfalse => exact hfalse.elim
  | unreadable hfalse => exact hfalse.elim

/-- As long as files are written and read as a whole, the screen shows what the next launch will show,
and the last import is never lost. -/
theorem faithful_of_run (hrun : Run False (launched active disabled) t) :
    t.activeCustomCss = t.active ∧ (t.disabledExists → t.disabled.isSome) ∧
      t.current = t.imported.getLast?.or (active.or disabled) := by
  suffices h : Faithful (active.or disabled) t from ⟨h.shown, h.offered, h.current⟩
  induction hrun with
  | refl => exact ⟨rfl, fun hexists => hexists, rfl⟩
  | tail _ hstep ih => exact ih.step hstep

theorem faithful_of_run_disabled :
    ((launched none none).importCss "body").disable.current = some "body" :=
  (faithful_of_run
    ((Relation.ReflTransGen.single (Step.importCss "body")).tail (Step.disable rfl))).2.2

theorem kept_disable_iff (h : t.active.isSome) :
    (∀ css, Kept css t → Kept css t.disable) ↔ t.disabled = none ∨ t.disabled = t.active := by
  obtain ⟨css, hcss⟩ := Option.isSome_iff_exists.mp h
  have hdisable (other : String) : Kept other t.disable ↔ css = other := by
    simp [Kept, disable, disableFiles, hcss]
  constructor
  · intro hkept
    cases hother : t.disabled with
    | none => exact Or.inl rfl
    | some other =>
      right
      rw [hcss, (hdisable other).mp (hkept other (Or.inr hother))]
  · intro hfree other hother
    rw [hdisable]
    rcases hother with hactive | haside
    · rw [hcss] at hactive
      exact Option.some.inj hactive
    · rcases hfree with hnone | hsame
      · rw [hnone] at haside
        cases haside
      · rw [hsame, hcss] at haside
        exact Option.some.inj haside

/-- A stylesheet that was put aside is gone when another one is, though no call fails and the screen says
that it was preserved. -/
theorem exists_lost (hne : first ≠ second) :
    ∃ t, Run False (launched none none) t ∧ t.disabled = some first ∧ t.active = some second ∧
      Step False t t.disable ∧ t.disable.activeCustomCss = none ∧ t.disable.disabledExists ∧
      ¬Kept first t.disable ∧ Kept second t.disable := by
  let t₁ := (launched none none).importCss first
  let t₂ := t₁.disable
  let t₃ := t₂.importCss second
  have himport : Step False (launched none none) t₁ := .importCss first
  have hdisable : Step False t₁ t₂ := .disable rfl
  have hagain : Step False t₂ t₃ := .importCss second
  refine ⟨t₃, ((Relation.ReflTransGen.single himport).tail hdisable).tail hagain, rfl, rfl, .disable rfl, rfl,
    rfl, ?_, Or.inr rfl⟩
  rintro (hactive | haside)
  · cases hactive
  · exact hne (Option.some.inj haside).symm

theorem exists_lost_night :
    ∃ t, Run False (launched none none) t ∧ t.disabled = some "day" ∧ t.active = some "night" ∧
      Step False t t.disable ∧ t.disable.activeCustomCss = none ∧ t.disable.disabledExists ∧
      ¬Kept "day" t.disable ∧ Kept "night" t.disable :=
  exists_lost (by decide)

end Laws

end Theme

end Fumiko.App
