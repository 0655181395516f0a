import Fumiko.Foundation.Commuting
import Fumiko.Storage.RunLaws

namespace Fumiko.Storage

open Fumiko.Common Fumiko.Foundation Fumiko.Foundation.Action Fumiko.Program

section Speaking

variable {α β : Type} {x : Program StorageError α} {y : Program StorageError β} {w : World}
  {f : Outside → Db → Except StorageError (α × Db)} {g : Outside → Db → Except StorageError (β × Db)}

def onTables (f : Db → Except StorageError (α × Db)) : Action Db StorageError α := fun db =>
  match f db with
  | .ok (a, db') => (.ok a, db')
  | .error e => (.error e, db)

def asked (f : Outside → Db → Except StorageError (α × Db)) (outside : Outside) :
    Action Db StorageError α :=
  match outside.dbFaults.head?.join with
  | some text => raise (.db text)
  | none => onTables (f outside)

structure Speaks (x : Program StorageError α) (f : Outside → Db → Except StorageError (α × Db)) : Prop where
  run : ∀ w, ((x w).1, (x w).2.db) = asked f w.outside w.db

/-- Two calls, each under surroundings of its own, that answer the same and leave the same tables in
either order. -/
structure CallsCommute (x : Program StorageError α) (y : Program StorageError β) (w : World) : Prop where
  first : ∀ o₁ o₂, (x { (y { w with outside := o₂ }).2 with outside := o₁ }).1 =
    (x { w with outside := o₁ }).1
  second : ∀ o₁ o₂, (y { (x { w with outside := o₁ }).2 with outside := o₂ }).1 =
    (y { w with outside := o₂ }).1
  tables : ∀ o₁ o₂, (y { (x { w with outside := o₁ }).2 with outside := o₂ }).2.db =
    (x { (y { w with outside := o₂ }).2 with outside := o₁ }).2.db

theorem speaks_statement (f : Db → Except StorageError (α × Db)) : Speaks (statement f) fun _ => f := by
  constructor
  intro w
  rw [statement_run, asked, World.dbFault]
  cases w.outside.dbFaults.head?.join with
  | some text => rfl
  | none =>
    simp only [onTables]
    rcases f w.db with e | ⟨a, db⟩ <;> rfl

theorem Speaks.answer (h : Speaks x f) (w : World) : (x w).1 = (asked f w.outside w.db).1 :=
  congrArg Prod.fst (h.run w)

theorem Speaks.tables (h : Speaks x f) (w : World) : (x w).2.db = (asked f w.outside w.db).2 :=
  congrArg Prod.snd (h.run w)

theorem Speaks.bind_log (h : Speaks x f) (e : α → Event) :
    Speaks (x >>= fun a => do log (e a); pure a) f := by
  constructor
  intro w
  rw [← h.run, bind_run]
  rcases x w with ⟨e' | a, w'⟩ <;> rfl

theorem commutes_asked {db : Db} {o₁ o₂ : Outside}
    (h : Commutes (onTables (f o₁)) (onTables (g o₂)) db) : Commutes (asked f o₁) (asked g o₂) db := by
  rw [asked, asked]
  cases o₁.dbFaults.head?.join with
  | some text => exact (commutes_raise _ _ db).symm
  | none =>
    cases o₂.dbFaults.head?.join with
    | some text => exact commutes_raise _ _ db
    | none => exact h

theorem Speaks.callsCommute (hx : Speaks x f) (hy : Speaks y g)
    (h : ∀ o₁ o₂, Commutes (onTables (f o₁)) (onTables (g o₂)) w.db) : CallsCommute x y w where
  first o₁ o₂ := by
    rw [hx.answer, hx.answer, hy.tables]
    exact (commutes_asked (h o₁ o₂)).first
  second o₁ o₂ := by
    rw [hy.answer, hy.answer, hx.tables]
    exact (commutes_asked (h o₁ o₂)).second
  tables o₁ o₂ := by
    rw [hx.tables, hy.tables, hx.tables, hy.tables]
    exact (commutes_asked (h o₁ o₂)).state

end Speaking

section RowCalls

/-- What is done to one row besides saving it: by its id, by its key, and to its classifications. -/
inductive RowCall
  | markEmailViewed
  | trashEmail
  | restoreEmail
  | markTrashed
  | markUntrashed
  | saveClassification (criterion : Uuid) (confidence : Option Rat)
  | deleteClassification (criterion : Uuid)

variable (row account : Uuid) (key : String)

def RowCall.perform : RowCall → Program StorageError Unit
  | .markEmailViewed => Storage.markEmailViewed row
  | .trashEmail => Storage.trashEmail row
  | .restoreEmail => Storage.restoreEmail row
  | .markTrashed => Storage.markTrashed account key
  | .markUntrashed => Storage.markUntrashed account key
  | .saveClassification criterion confidence => Storage.saveClassification row criterion confidence
  | .deleteClassification criterion => Storage.deleteClassification row criterion

def RowCall.statement (outside : Outside) : RowCall → Db → Except StorageError (Unit × Db)
  | .markEmailViewed => Db.markEmailViewed row
  | .trashEmail => Db.trashEmail (outside.clock.headD 0) row
  | .restoreEmail => Db.restoreEmail row
  | .markTrashed => fun db => .ok ((), db.markTrashed (outside.clock.headD 0) account key)
  | .markUntrashed => fun db => .ok ((), db.markUntrashed account key)
  | .saveClassification criterion confidence =>
    Db.saveClassification (outside.uuids.headD noUuid) (outside.clock.headD 0) row criterion confidence
  | .deleteClassification criterion => fun db => .ok ((), db.deleteClassification row criterion)

theorem RowCall.speaks (call : RowCall) :
    Speaks (call.perform row account key) fun outside => call.statement row account key outside := by
  constructor
  intro w
  cases call with
  | markEmailViewed => exact (speaks_statement (Db.markEmailViewed row)).run w
  | trashEmail =>
    exact (speaks_statement (Db.trashEmail w.nextTime row)).run
      { w with outside := { w.outside with clock := w.outside.clock.tail } }
  | restoreEmail => exact (speaks_statement (Db.restoreEmail row)).run w
  | markTrashed =>
    exact (speaks_statement fun db => .ok ((), db.markTrashed w.nextTime account key)).run
      { w with outside := { w.outside with clock := w.outside.clock.tail } }
  | markUntrashed => exact (speaks_statement fun db => .ok ((), db.markUntrashed account key)).run w
  | saveClassification criterion confidence =>
    exact ((speaks_statement (Db.saveClassification w.nextUuid w.nextTime row criterion confidence)).bind_log
      fun _ => .savedClassification row criterion).run w.stamped
  | deleteClassification criterion =>
    exact (speaks_statement fun db => .ok ((), db.deleteClassification row criterion)).run w

theorem speaks_saveEmail (subject sender : Option String) (receivedAt : Int) (isRead : Bool)
    (snippet : Option String) :
    Speaks (saveEmail account key subject sender receivedAt isRead snippet) fun outside =>
      Db.saveEmail (outside.uuids.headD noUuid) (outside.clock.headD 0) account key subject sender
        receivedAt isRead snippet := by
  constructor
  intro w
  exact ((speaks_statement (Db.saveEmail w.nextUuid w.nextTime account key subject sender receivedAt isRead
    snippet)).bind_log fun saved =>
      .savedEmail saved account key (w.db.email account key).isNone).run w.stamped

end RowCalls

section Tables

variable {account row : Uuid} {key : String} {subject sender snippet : Option String} {isRead : Bool}
  {db : Db} {e : EmailRow}

def refreshed (account : Uuid) (key : String) (subject sender : Option String) (isRead : Bool)
    (snippet : Option String) : Db → Db :=
  Db.updateEmails (fun e => e.accountId = account ∧ e.providerMessageId = key)
    (Db.refreshEmail subject sender isRead snippet)

theorem email_updated {p : EmailRow → Bool} {f : EmailRow → EmailRow}
    (hf : ∀ e, (f e).accountId = e.accountId ∧ (f e).providerMessageId = e.providerMessageId) :
    (db.updateEmails p f).email account key =
      (db.email account key).map fun e => if p e then f e else e := by
  refine Db.find_map_of_keyed fun e => ?_
  split
  · rw [(hf e).1, (hf e).2]
  · rfl

theorem onTables_saveEmail {fresh : Uuid} {now receivedAt : Int} (he : db.email account key = some e) :
    onTables (Db.saveEmail fresh now account key subject sender receivedAt isRead snippet) db =
      (.ok e.id, refreshed account key subject sender isRead snippet db) := by
  simp only [onTables, Db.saveEmail, he]
  rfl

section Blind

variable {fresh : Uuid} {now receivedAt : Int} {α : Type} {g : Db → Except StorageError (α × Db)}

theorem commutes_of_ok {a : α} {db' : Db} (he : db.email account key = some e) (hg : g db = .ok (a, db'))
    (hkept : ∃ e', db'.email account key = some e' ∧ e'.id = e.id)
    (hblind : g (refreshed account key subject sender isRead snippet db) =
      .ok (a, refreshed account key subject sender isRead snippet db')) :
    Commutes (onTables (Db.saveEmail fresh now account key subject sender receivedAt isRead snippet))
      (onTables g) db := by
  obtain ⟨e', he', hid⟩ := hkept
  have hdone : onTables g db = (.ok a, db') := by simp only [onTables, hg]
  have hlater : onTables g (refreshed account key subject sender isRead snippet db) =
      (.ok a, refreshed account key subject sender isRead snippet db') := by simp only [onTables, hblind]
  constructor
  · rw [hdone, onTables_saveEmail he', onTables_saveEmail he, hid]
  · rw [onTables_saveEmail he, hlater, hdone]
  · rw [onTables_saveEmail he, hlater, hdone, onTables_saveEmail he']

theorem commutes_of_error {x : StorageError} (he : db.email account key = some e) (hg : g db = .error x)
    (hblind : g (refreshed account key subject sender isRead snippet db) = .error x) :
    Commutes (onTables (Db.saveEmail fresh now account key subject sender receivedAt isRead snippet))
      (onTables g) db := by
  have hdone : onTables g db = (.error x, db) := by simp only [onTables, hg]
  have hlater : onTables g (refreshed account key subject sender isRead snippet db) =
      (.error x, refreshed account key subject sender isRead snippet db) := by simp only [onTables, hblind]
  constructor
  · rw [hdone, onTables_saveEmail he]
  · rw [onTables_saveEmail he, hlater, hdone]
  · rw [onTables_saveEmail he, hlater, hdone, onTables_saveEmail he]

end Blind

section Updates

variable {p : EmailRow → Bool} {f : EmailRow → EmailRow}

structure Beside (subject sender : Option String) (isRead : Bool) (snippet : Option String)
    (f : EmailRow → EmailRow) : Prop where
  id : ∀ e, (f e).id = e.id
  keys : ∀ e, (f e).accountId = e.accountId ∧ (f e).providerMessageId = e.providerMessageId
  refresh : ∀ e, f (Db.refreshEmail subject sender isRead snippet e) =
    Db.refreshEmail subject sender isRead snippet (f e)

theorem updateEmails_refreshed (h : Beside subject sender isRead snippet f)
    (hp : ∀ e, p (Db.refreshEmail subject sender isRead snippet e) = p e) :
    (refreshed account key subject sender isRead snippet db).updateEmails p f =
      refreshed account key subject sender isRead snippet (db.updateEmails p f) := by
  have hrows := rewriteRows_comm
    (q := fun e : EmailRow => e.accountId = account ∧ e.providerMessageId = key)
    hp (fun e => by rw [(h.keys e).1, (h.keys e).2]) h.refresh db.emails
  exact congrArg (fun emails => { db with emails }) hrows

theorem kept_updateEmails (h : Beside subject sender isRead snippet f) (he : db.email account key = some e) :
    ∃ e', (db.updateEmails p f).email account key = some e' ∧ e'.id = e.id := by
  rw [email_updated h.keys, he]
  refine ⟨_, rfl, ?_⟩
  change (if p e then f e else e).id = e.id
  split
  · exact h.id e
  · rfl

theorem commutes_execute {fresh : Uuid} {now receivedAt : Int} (h : Beside subject sender isRead snippet f)
    (hp : ∀ e, p (Db.refreshEmail subject sender isRead snippet e) = p e)
    (he : db.email account key = some e) :
    Commutes (onTables (Db.saveEmail fresh now account key subject sender receivedAt isRead snippet))
      (onTables fun db => .ok ((), db.updateEmails p f)) db := by
  refine commutes_of_ok he rfl (kept_updateEmails h he) ?_
  rw [updateEmails_refreshed h hp]

theorem any_refreshed (id : Uuid) :
    (refreshed account key subject sender isRead snippet db).emails.any (·.id = id) =
      db.emails.any (·.id = id) := by
  rw [refreshed, Db.updateEmails, List.any_map]
  congr 1
  funext e
  rw [Function.comp_apply]
  split <;> rfl

theorem commutes_updateEmailById {fresh : Uuid} {now receivedAt : Int}
    (h : Beside subject sender isRead snippet f) (he : db.email account key = some e) :
    Commutes (onTables (Db.saveEmail fresh now account key subject sender receivedAt isRead snippet))
      (onTables (Db.updateEmailById row f)) db := by
  cases hany : db.emails.any (·.id = row) with
  | true =>
    have hupdate : db.updateEmailById row f = .ok ((), db.updateEmails (·.id = row) f) := by
      rw [Db.updateEmailById, if_pos hany]
    refine commutes_of_ok he hupdate (kept_updateEmails h he) ?_
    rw [Db.updateEmailById, if_pos ((any_refreshed row).trans hany), updateEmails_refreshed h fun _ => rfl]
  | false =>
    have hmissing : ¬db.emails.any (·.id = row) = true := ne_true_of_eq_false hany
    have hupdate : db.updateEmailById row f = .error .notFound := by
      rw [Db.updateEmailById, if_neg hmissing]
    refine commutes_of_error he hupdate ?_
    rw [Db.updateEmailById, if_neg ((any_refreshed row).symm ▸ hmissing)]

end Updates

section Classifications

variable {fresh id criterion : Uuid} {now receivedAt at_ : Int} {confidence : Option Rat}

theorem saveClassification_refreshed :
    (refreshed account key subject sender isRead snippet db).saveClassification id at_ row criterion confidence =
      (db.saveClassification id at_ row criterion confidence).map fun saved =>
        (saved.1, refreshed account key subject sender isRead snippet saved.2) := by
  have hclassifications : (refreshed account key subject sender isRead snippet db).classifications =
      db.classifications := rfl
  have hcriteria : (refreshed account key subject sender isRead snippet db).watchCriteria =
      db.watchCriteria := rfl
  simp only [Db.saveClassification, any_refreshed, hclassifications, hcriteria]
  split
  · rfl
  · split
    · rfl
    · split
      · rfl
      · rfl

theorem commutes_saveClassification (he : db.email account key = some e) :
    Commutes (onTables (Db.saveEmail fresh now account key subject sender receivedAt isRead snippet))
      (onTables (Db.saveClassification id at_ row criterion confidence)) db := by
  cases hsave : db.saveClassification id at_ row criterion confidence with
  | error x =>
    refine commutes_of_error he hsave ?_
    rw [saveClassification_refreshed, hsave]
    rfl
  | ok saved =>
    obtain ⟨u, db'⟩ := saved
    have hemails : db'.emails = db.emails := by
      cases Db.saveClassification_classified hsave with
      | again => rfl
      | first => rfl
    refine commutes_of_ok he hsave ⟨e, ?_, rfl⟩ ?_
    · rw [← he, Db.email, Db.email, hemails]
    · rw [saveClassification_refreshed, hsave]
      rfl

theorem commutes_deleteClassification (he : db.email account key = some e) :
    Commutes (onTables (Db.saveEmail fresh now account key subject sender receivedAt isRead snippet))
      (onTables fun db => .ok ((), db.deleteClassification row criterion)) db :=
  commutes_of_ok he rfl ⟨e, he, rfl⟩ rfl

end Classifications

end Tables

section Calls

variable {account : Uuid} {key : String} {subject sender snippet : Option String} {receivedAt : Int}
  {isRead : Bool} {w : World} {e : EmailRow}

theorem saveEmail_again (he : w.db.email account key = some e) (hfault : w.dbFault = none) :
    (saveEmail account key subject sender receivedAt isRead snippet w).1 = .ok e.id := by
  have hasked := (speaks_saveEmail account key subject sender receivedAt isRead snippet).answer w
  rw [asked, ← World.dbFault, hfault] at hasked
  exact hasked.trans (congrArg Prod.fst (onTables_saveEmail he))

theorem saveEmail_commutes (call : RowCall) (he : w.db.email account key = some e) :
    CallsCommute (saveEmail account key subject sender receivedAt isRead snippet)
      (call.perform e.id account key) w := by
  refine (speaks_saveEmail account key subject sender receivedAt isRead snippet).callsCommute
    (call.speaks e.id account key) ?_
  intro o₁ o₂
  cases call with
  | markEmailViewed => exact commutes_updateEmailById ⟨fun _ => rfl, fun _ => ⟨rfl, rfl⟩, fun _ => rfl⟩ he
  | trashEmail => exact commutes_updateEmailById ⟨fun _ => rfl, fun _ => ⟨rfl, rfl⟩, fun _ => rfl⟩ he
  | restoreEmail => exact commutes_updateEmailById ⟨fun _ => rfl, fun _ => ⟨rfl, rfl⟩, fun _ => rfl⟩ he
  | markTrashed =>
    exact commutes_execute ⟨fun _ => rfl, fun _ => ⟨rfl, rfl⟩, fun _ => rfl⟩ (fun _ => rfl) he
  | markUntrashed =>
    exact commutes_execute ⟨fun _ => rfl, fun _ => ⟨rfl, rfl⟩, fun _ => rfl⟩ (fun _ => rfl) he
  | saveClassification criterion confidence => exact commutes_saveClassification he
  | deleteClassification criterion => exact commutes_deleteClassification he

/-- No run of calls takes a view back or renames a row, and saving a message again neither notices nor
undoes what else is done to its row. -/
theorem calls_keep_local_state :
    (∀ (calls : List (Outside × Operation)) (w : World) (account : Uuid) (key : String),
      w.db.WellFormed →
      (∀ before, before <+: calls → ((Operation.performAll before w).db.email account key).isSome) →
      w.db.KeepsView (Operation.performAll calls w).db account key) ∧
    ∀ (w : World) (account : Uuid) (key : String) (e : EmailRow) (subject sender : Option String)
      (receivedAt : Int) (isRead : Bool) (snippet : Option String), w.db.email account key = some e →
      (w.dbFault = none →
        (saveEmail account key subject sender receivedAt isRead snippet w).1 = .ok e.id) ∧
      ∀ call : RowCall, CallsCommute (saveEmail account key subject sender receivedAt isRead snippet)
        (call.perform e.id account key) w := by
  constructor
  · intro calls w account key hw hexists
    exact performAll_keepsView hw hexists
  · intro w account key e subject sender receivedAt isRead snippet he
    exact ⟨saveEmail_again he, fun call => saveEmail_commutes call he⟩

end Calls

section Example

def receivedWorld : World := Operation.performAll [linkingCall, savingCall] blankWorld

theorem calls_keep_local_state_example :
    receivedWorld.db.KeepsView (Operation.performAll [({}, .markEmailViewed (.ending '2')), savingCall]
      receivedWorld).db (.ending '1') "m" ∧
    CallsCommute (saveEmail (.ending '1') "m" none none 5 false none) (markEmailViewed (.ending '2'))
      receivedWorld := by
  constructor
  · refine calls_keep_local_state.1 _ _ _ _ (performAll_wellFormed _ Db.wellFormed_empty) ?_
    intro before hbefore
    cases List.prefix_cons_iff.mp hbefore with
    | inl hnone => rw [hnone]; rfl
    | inr hviewed =>
      obtain ⟨rest, rfl, hrest⟩ := hviewed
      cases List.prefix_cons_iff.mp hrest with
      | inl hnone => rw [hnone]; rfl
      | inr hsaved =>
        obtain ⟨rest', rfl, hrest'⟩ := hsaved
        rw [List.prefix_nil.mp hrest']
        rfl
  · exact (calls_keep_local_state.2 receivedWorld (.ending '1') "m"
      { trashedEmail with isTrashed := false, trashedAt := none } none none 5 false none rfl).2 .markEmailViewed

end Example

end Fumiko.Storage
