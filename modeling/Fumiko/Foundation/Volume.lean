import Mathlib.Logic.Function.Basic

/-! Files and their names.  An open file is written through its number: it stays writable when
its name is given to another file or taken away. -/

namespace Fumiko.Foundation

structure Directory {ν : Type} (names : ν → Option Nat) (next : Nat) : Prop where
  named_lt {n : ν} {file : Nat} (h : names n = some file) : file < next
  one_name {m n : ν} {file : Nat} (hm : names m = some file) (hn : names n = some file) : m = n

namespace Directory

variable {ν : Type} {names : ν → Option Nat} {next : Nat}

theorem grow (h : Directory names next) : Directory names (next + 1) where
  named_lt hn := Nat.lt_succ_of_lt (h.named_lt hn)
  one_name := h.one_name

variable [DecidableEq ν]

theorem update_none (h : Directory names next) (n : ν) :
    Directory (Function.update names n none) next := by
  have hold {k : ν} {file : Nat} (hk : Function.update names n none k = some file) :
      names k = some file := by
    rw [Function.update_apply] at hk
    split at hk
    · cases hk
    · exact hk
  constructor
  · intro k file hk
    exact h.named_lt (hold hk)
  · intro k l file hk hl
    exact h.one_name (hold hk) (hold hl)

theorem update_some (h : Directory names next) {n : ν} {file : Nat} (hlt : file < next)
    (hfree : ∀ k, names k = some file → k = n) :
    Directory (Function.update names n (some file)) next := by
  constructor
  · intro k other hk
    rw [Function.update_apply] at hk
    split at hk
    · cases hk
      exact hlt
    · exact h.named_lt hk
  · intro k l other hk hl
    rw [Function.update_apply] at hk hl
    split at hk <;> split at hl
    · next hkn hln => rw [hkn, hln]
    · next hkn hln =>
      cases hk
      exact absurd (hfree l hl) hln
    · next hkn hln =>
      cases hl
      exact absurd (hfree k hk) hkn
    · exact h.one_name hk hl

theorem move (h : Directory names next) {m : ν} {file : Nat} (hm : names m = some file) (n : ν) :
    Directory (Function.update (Function.update names m none) n (some file)) next := by
  apply (h.update_none m).update_some (h.named_lt hm)
  intro k hk
  rw [Function.update_apply] at hk
  split at hk
  · cases hk
  · next hkm => exact absurd (h.one_name hk hm) hkm

end Directory

structure Volume (ν : Type) where
  contents : Nat → List UInt8
  names : ν → Option Nat
  next : Nat
  directory : Directory names next

namespace Volume

variable {ν : Type}

def empty : Volume ν where
  contents _ := []
  names _ := none
  next := 0
  directory := ⟨nofun, nofun⟩

def read (v : Volume ν) (n : ν) : Option (List UInt8) := (v.names n).map v.contents

def overwrite (content : List UInt8) (offset : Nat) : List UInt8 → List UInt8
  | [] => content
  | byte :: bytes =>
    content.take offset ++ List.replicate (offset - content.length) 0 ++ (byte :: bytes) ++
      content.drop (offset + (byte :: bytes).length)

theorem overwrite_end (content bytes : List UInt8) :
    overwrite content content.length bytes = content ++ bytes := by
  cases bytes with
  | nil => exact (List.append_nil content).symm
  | cons byte bytes => simp [overwrite]

def write (v : Volume ν) (file offset : Nat) (bytes : List UInt8) : Volume ν :=
  { v with contents := Function.update v.contents file (overwrite (v.contents file) offset bytes) }

section Write

variable (v : Volume ν) {n : ν} {file : Nat}

@[simp] theorem names_write (file offset : Nat) (bytes : List UInt8) :
    (v.write file offset bytes).names = v.names := rfl

theorem write_nil (file offset : Nat) : v.write file offset [] = v := by
  have hcontents : Function.update v.contents file (v.contents file) = v.contents :=
    Function.update_eq_self _ _
  simp only [write, overwrite, hcontents]

theorem contents_write_end (file : Nat) (bytes : List UInt8) :
    (v.write file (v.contents file).length bytes).contents file = v.contents file ++ bytes := by
  rw [← overwrite_end]
  exact Function.update_self _ _ _

theorem read_write_of_ne (h : v.names n ≠ some file) (offset : Nat) (bytes : List UInt8) :
    (v.write file offset bytes).read n = v.read n := by
  rw [read, read, names_write]
  cases hn : v.names n with
  | none => rfl
  | some other =>
    have hne : other ≠ file := fun heq => h (heq ▸ hn)
    exact congrArg some (Function.update_of_ne hne _ _)

end Write

section Names

def opened (v : Volume ν) (n : ν) : Nat := (v.names n).getD v.next

theorem opened_free (v : Volume ν) {m n : ν} (h : v.names m = some (v.opened n)) : m = n := by
  rw [opened] at h
  cases hn : v.names n with
  | none =>
    rw [hn] at h
    exact absurd (v.directory.named_lt h) (Nat.lt_irrefl _)
  | some file =>
    rw [hn] at h
    exact v.directory.one_name h hn

theorem opened_lt (v : Volume ν) (n : ν) : v.opened n < v.next + 1 := by
  rw [opened]
  cases hn : v.names n with
  | none => exact Nat.lt_succ_self _
  | some file => exact Nat.lt_succ_of_lt (v.directory.named_lt hn)

variable [DecidableEq ν]

def create (v : Volume ν) (n : ν) : Volume ν where
  contents := Function.update v.contents (v.opened n) []
  names := Function.update v.names n (some (v.opened n))
  next := v.next + 1
  directory := v.directory.grow.update_some (v.opened_lt n) fun _ => v.opened_free

theorem names_create (v : Volume ν) (n : ν) : (v.create n).names n = some (v.opened n) :=
  Function.update_self _ _ _

theorem contents_create (v : Volume ν) (n : ν) : (v.create n).contents (v.opened n) = [] :=
  Function.update_self _ _ _

theorem read_create_of_ne (v : Volume ν) {m n : ν} (h : m ≠ n) : (v.create n).read m = v.read m := by
  have hnames : (v.create n).names m = v.names m := Function.update_of_ne h _ _
  rw [read, read, hnames]
  cases hm : v.names m with
  | none => rfl
  | some file =>
    have hne : file ≠ v.opened n := fun heq => h (v.opened_free (heq ▸ hm))
    exact congrArg some (Function.update_of_ne hne _ _)

def remove (v : Volume ν) (n : ν) : Volume ν :=
  { v with names := Function.update v.names n none, directory := v.directory.update_none n }

theorem remove_of_absent (v : Volume ν) {n : ν} (h : v.names n = none) : v.remove n = v := by
  have hnames : Function.update v.names n none = v.names := by rw [← h, Function.update_eq_self]
  simp only [remove, hnames]

theorem read_remove_of_ne (v : Volume ν) {m n : ν} (h : m ≠ n) : (v.remove n).read m = v.read m := by
  have hnames : (v.remove n).names m = v.names m := Function.update_of_ne h _ _
  rw [read, read, hnames]
  rfl

def rename (v : Volume ν) (m n : ν) : Volume ν :=
  match h : v.names m with
  | none => v
  | some file =>
    { v with
      names := Function.update (Function.update v.names m none) n (some file)
      directory := v.directory.move h n }

theorem read_rename (v : Volume ν) {m n : ν} {content : List UInt8} (h : v.read m = some content) :
    (v.rename m n).read n = some content := by
  obtain ⟨file, hfile, rfl⟩ := Option.map_eq_some_iff.mp h
  rw [rename]
  split
  · next hnone => simp [hnone] at hfile
  · next other hother =>
    rw [hother] at hfile
    cases hfile
    simp [read]

end Names

end Volume

end Fumiko.Foundation
