import Fumiko.Storage.Service

namespace Fumiko

open Fumiko.Common Fumiko.Foundation Fumiko.Foundation.Action Fumiko.Net Fumiko.Program

namespace World

def dbFault (w : World) : Option String := w.outside.dbFaults.head?.join

def keyringGetFault (w : World) : Option String := w.outside.keyringGetFaults.head?.join

def keyringSetFault (w : World) : Option String := w.outside.keyringSetFaults.head?.join

def keyringDeleteFault (w : World) : Option String := w.outside.keyringDeleteFaults.head?.join

def afterDbCall (w : World) : World :=
  { w with outside := { w.outside with dbFaults := w.outside.dbFaults.tail } }

def afterKeyringGet (w : World) : World :=
  { w with outside := { w.outside with keyringGetFaults := w.outside.keyringGetFaults.tail } }

def afterKeyringSet (w : World) : World :=
  { w with outside := { w.outside with keyringSetFaults := w.outside.keyringSetFaults.tail } }

def afterKeyringDelete (w : World) : World :=
  { w with outside := { w.outside with keyringDeleteFaults := w.outside.keyringDeleteFaults.tail } }

def nextUuid (w : World) : Uuid := w.outside.uuids.headD noUuid

def nextTime (w : World) : Int := w.outside.clock.headD 0

def stamped (w : World) : World :=
  { w with outside := { w.outside with
      uuids := w.outside.uuids.tail, clock := w.outside.clock.tail } }

def DbAnswers (w : World) : Prop := ∀ fault ∈ w.outside.dbFaults, fault = none

structure Calm (w w' : World) : Prop where
  db : w'.db = w.db
  keyring : w'.keyring = w.keyring
  setFaults : w'.outside.keyringSetFaults = w.outside.keyringSetFaults
  deleteFaults : w'.outside.keyringDeleteFaults = w.outside.keyringDeleteFaults
  uuids : w'.outside.uuids = w.outside.uuids
  dbFaults : w'.outside.dbFaults <:+ w.outside.dbFaults

section Calm

variable {w w' : World}

instance : Std.Refl Calm := ⟨fun _ => ⟨rfl, rfl, rfl, rfl, rfl, List.suffix_rfl⟩⟩

instance : IsTrans World Calm where
  trans _ _ _ h₁ h₂ :=
    ⟨h₂.db.trans h₁.db, h₂.keyring.trans h₁.keyring, h₂.setFaults.trans h₁.setFaults,
      h₂.deleteFaults.trans h₁.deleteFaults, h₂.uuids.trans h₁.uuids, h₂.dbFaults.trans h₁.dbFaults⟩

theorem calm_afterDbCall (w : World) : Calm w w.afterDbCall :=
  ⟨rfl, rfl, rfl, rfl, rfl, List.tail_suffix _⟩

theorem calm_afterKeyringGet (w : World) : Calm w w.afterKeyringGet :=
  ⟨rfl, rfl, rfl, rfl, rfl, List.suffix_rfl⟩

theorem calm_record (e : Event) (w : World) : Calm w (w.record e) :=
  ⟨rfl, rfl, rfl, rfl, rfl, List.suffix_rfl⟩

theorem Calm.keyringSetFault (h : Calm w w') : w'.keyringSetFault = w.keyringSetFault := by
  rw [World.keyringSetFault, h.setFaults, World.keyringSetFault]

theorem Calm.keyringDeleteFault (h : Calm w w') : w'.keyringDeleteFault = w.keyringDeleteFault := by
  rw [World.keyringDeleteFault, h.deleteFaults, World.keyringDeleteFault]

theorem Calm.dbAnswers (h : Calm w w') (hw : w.DbAnswers) : w'.DbAnswers :=
  fun fault hfault => hw fault (h.dbFaults.subset hfault)

theorem DbAnswers.dbFault (h : w.DbAnswers) : w.dbFault = none := by
  rw [World.dbFault]
  cases hhead : w.outside.dbFaults.head? with
  | none => rfl
  | some fault => rw [h fault (List.mem_of_head? hhead)]; rfl

end Calm

def withDb (db : Storage.Db) (w : World) : World := { w with db }

def withSecret (key : String) (value : Option String) (w : World) : World :=
  { w with keyring := fun k => if k = key then value else w.keyring k }

end World

namespace Storage

variable {ε α : Type}

theorem dbCall_run (w : World) : dbCall w =
    match w.dbFault with
    | some text => (.error (.db text), w.afterDbCall)
    | none => (.ok (), w.afterDbCall) := by
  simp only [dbCall, World.dbFault, World.afterDbCall]
  rcases w.outside.dbFaults.head? with _ | _ | text <;> rfl

theorem query_run (f : Db → α) (w : World) : query f w =
    match w.dbFault with
    | some text => (.error (.db text), w.afterDbCall)
    | none => (.ok (f w.db), w.afterDbCall) := by
  rw [query, bind_run, dbCall_run]
  cases w.dbFault <;> rfl

theorem statement_run (f : Db → Except StorageError (α × Db)) (w : World) : statement f w =
    match w.dbFault with
    | some text => (.error (.db text), w.afterDbCall)
    | none =>
      match f w.db with
      | .ok (a, db) => (.ok a, w.afterDbCall.withDb db)
      | .error e => (.error e, w.afterDbCall) := by
  rw [statement, bind_run, dbCall_run]
  cases w.dbFault with
  | some text => rfl
  | none =>
    change commit f w.afterDbCall = _
    rw [commit]
    change (match f w.db with | .ok (a, db) => _ | .error e => _) = _
    rcases f w.db with e | ⟨a, db⟩ <;> rfl

theorem execute_run (f : Db → Db) (w : World) : execute f w =
    match w.dbFault with
    | some text => (.error (.db text), w.afterDbCall)
    | none => (.ok (), w.afterDbCall.withDb (f w.db)) := by
  rw [execute, statement_run]

theorem setSecret_run (key value : String) (w : World) : setSecret key value w =
    match w.keyringSetFault with
    | some text => (.error (.keyring text), w.afterKeyringSet)
    | none => (.ok (), w.afterKeyringSet.withSecret key (some value)) := by
  simp only [setSecret, bind_run, keyringSetCall, World.keyringSetFault, World.afterKeyringSet]
  rcases w.outside.keyringSetFaults.head? with _ | _ | text <;> rfl

theorem getSecret_run (key : String) (w : World) : getSecret key w =
    match w.keyringGetFault with
    | some text => (.error (.keyring text), w.afterKeyringGet)
    | none => (.ok (w.keyring key), w.afterKeyringGet) := by
  simp only [getSecret, bind_run, keyringGetCall, World.keyringGetFault, World.afterKeyringGet]
  rcases w.outside.keyringGetFaults.head? with _ | _ | text <;> rfl

theorem deleteSecret_run (key : String) (w : World) : deleteSecret key w =
    match w.keyringDeleteFault with
    | some text => (.error (.keyring text), w.afterKeyringDelete)
    | none => (.ok (), w.afterKeyringDelete.withSecret key none) := by
  simp only [deleteSecret, bind_run, keyringDeleteCall, World.keyringDeleteFault,
    World.afterKeyringDelete]
  rcases w.outside.keyringDeleteFaults.head? with _ | _ | text <;> rfl

section Outcomes

variable {w w' : World} {a : α} {key value : String}

theorem statement_done {f : Db → Except StorageError (α × Db)} {db : Db} (hfault : w.dbFault = none)
    (hf : f w.db = .ok (a, db)) : statement f w = (.ok a, w.afterDbCall.withDb db) := by
  simp only [statement_run, hfault, hf]

theorem statement_failed {f : Db → Except StorageError (α × Db)} {e : StorageError}
    (hfault : w.dbFault = none) (hf : f w.db = .error e) :
    statement f w = (.error e, w.afterDbCall) := by
  simp only [statement_run, hfault, hf]

theorem statement_eq_ok {f : Db → Except StorageError (α × Db)} (h : statement f w = (.ok a, w')) :
    ∃ db, f w.db = .ok (a, db) ∧ w' = w.afterDbCall.withDb db := by
  rw [statement_run] at h
  cases hfault : w.dbFault with
  | some text => simp [hfault] at h
  | none =>
    simp only [hfault] at h
    rcases hf : f w.db with e | ⟨b, db⟩
    · simp [hf] at h
    · simp only [hf, Prod.mk.injEq, Except.ok.injEq] at h
      obtain ⟨rfl, rfl⟩ := h
      exact ⟨db, rfl, rfl⟩

theorem statement_eq_error {f : Db → Except StorageError (α × Db)} {e : StorageError}
    (h : statement f w = (.error e, w')) : w' = w.afterDbCall := by
  rw [statement_run] at h
  cases hfault : w.dbFault with
  | some text =>
    simp only [hfault, Prod.mk.injEq] at h
    exact h.2.symm
  | none =>
    simp only [hfault] at h
    rcases hf : f w.db with e' | ⟨b, db⟩
    · simp only [hf, Prod.mk.injEq] at h
      exact h.2.symm
    · simp [hf] at h

theorem execute_eq_ok {f : Db → Db} (h : execute f w = (.ok (), w')) :
    w' = w.afterDbCall.withDb (f w.db) := by
  obtain ⟨db, hdb, rfl⟩ := statement_eq_ok h
  cases hdb
  rfl

end Outcomes

section Frames

variable {R : World → World → Prop}

theorem moves_dbCall (hcall : ∀ w, R w w.afterDbCall) : Moves R dbCall := by
  constructor
  intro w
  rw [dbCall_run]
  cases w.dbFault <;> exact hcall w

theorem moves_query (hcall : ∀ w, R w w.afterDbCall) (f : Db → α) : Moves R (query f) := by
  constructor
  intro w
  rw [query_run]
  cases w.dbFault <;> exact hcall w

theorem moves_statement (hcall : ∀ w, R w w.afterDbCall) {f : Db → Except StorageError (α × Db)}
    (hcommit : ∀ w a db, f w.db = .ok (a, db) → R w (w.afterDbCall.withDb db)) :
    Moves R (statement f) := by
  constructor
  intro w
  rw [statement_run]
  cases w.dbFault with
  | some text => exact hcall w
  | none =>
    rcases hf : f w.db with e | ⟨a, db⟩
    · exact hcall w
    · exact hcommit w a db hf

theorem statement_logged {β : Type} {f : Db → Except StorageError (α × Db)} {e : α → Event}
    {k : α → Program StorageError β} (hk : ∀ a w, (k a w).2 = w.record (e a)) {w : World}
    (hcall : R w w.afterDbCall)
    (hcommit : ∀ a db, f w.db = .ok (a, db) → R w ((w.afterDbCall.withDb db).record (e a))) :
    R w ((statement f >>= k) w).2 := by
  rw [bind_run, statement_run]
  cases w.dbFault with
  | some text => exact hcall
  | none =>
    rcases hf : f w.db with e' | ⟨a, db⟩
    · exact hcall
    · rw [hk]
      exact hcommit a db hf

theorem moves_getSecret (hcall : ∀ w, R w w.afterKeyringGet) (key : String) :
    Moves R (getSecret key) := by
  constructor
  intro w
  rw [getSecret_run]
  cases w.keyringGetFault <;> exact hcall w

theorem moves_setSecret {key value : String} (hcall : ∀ w, R w w.afterKeyringSet)
    (hset : ∀ w, R w (w.afterKeyringSet.withSecret key (some value))) :
    Moves R (setSecret key value) := by
  constructor
  intro w
  rw [setSecret_run]
  cases w.keyringSetFault with
  | some text => exact hcall w
  | none => exact hset w

theorem moves_deleteSecret {key : String} (hcall : ∀ w, R w w.afterKeyringDelete)
    (hdelete : ∀ w, R w (w.afterKeyringDelete.withSecret key none)) :
    Moves R (deleteSecret key) := by
  constructor
  intro w
  rw [deleteSecret_run]
  cases w.keyringDeleteFault with
  | some text => exact hcall w
  | none => exact hdelete w

theorem calm_query (f : Db → α) : Moves World.Calm (query f) :=
  moves_query World.calm_afterDbCall f

end Frames

end Storage

end Fumiko
