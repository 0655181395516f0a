import Fumiko.Storage.CredentialLaws
import Fumiko.Storage.RunLaws

namespace Fumiko.Storage

open Fumiko.Common Fumiko.Foundation Fumiko.Foundation.Action Fumiko.Program

variable {w w' : World} {db : Db}

def Unseeded (db : Db) : Prop :=
  db.watchCriteria = [] ∧ db.getSetting hasSeededDefaultCriteria = none

def Flagged (db : Db) : Prop := (db.getSetting hasSeededDefaultCriteria).isSome

def described (c : WatchCriterion) : String × String := (c.label, c.description)

def HoldsDefaults (db : Db) : Prop :=
  ∀ criterion ∈ defaultCriteria, criterion ∈ db.watchCriteria.map described

/-- How many of `n` insertions succeed before one fails or finds its id taken. -/
def insertedUntilCut (taken : List Uuid) (faults : List (Option String)) (uuids : List Uuid) : Nat → Nat
  | 0 => 0
  | n + 1 =>
    if faults.head?.join.isSome || decide (uuids.headD noUuid ∈ taken) then 0
    else insertedUntilCut (taken ++ [uuids.headD noUuid]) faults.tail uuids.tail n + 1

def insertedBy (outside : Outside) : Nat :=
  if outside.dbFaults.head?.join.isSome || outside.dbFaults.tail.head?.join.isSome then 0
  else insertedUntilCut [] outside.dbFaults.tail.tail outside.uuids defaultCriteria.length

def CutOutside (outside : Outside) : Prop :=
  insertedBy outside = 0 ∨ insertedBy outside = defaultCriteria.length

def launches (cuts : List Outside) (w : World) : World :=
  Operation.performAll (cuts.map fun outside => (outside, .seedDefaultCriteria)) w

/-- Every launch that finds neither criteria nor a tombstone is cut outside the insertions. -/
def CutsOutside : World → List Outside → Prop
  | _, [] => True
  | w, outside :: cuts =>
    (Unseeded w.db → CutOutside outside) ∧ CutsOutside (launches [outside] w) cuts

structure Unhindered (outside : Outside) : Prop where
  answers : ∀ fault ∈ outside.dbFaults, fault = none
  fresh : outside.uuids.Nodup
  enough : defaultCriteria.length ≤ outside.uuids.length

def EndsSeeded (w : World) : Prop :=
  ∀ outside, Unhindered outside → ∃ w', seedDefaultCriteria { w with outside } = (.ok (), w') ∧
    HoldsDefaults w'.db

section Insertions

variable {createdAt : Int} {criterion : String × String}

def takenIds (db : Db) : List Uuid := db.watchCriteria.map WatchCriterion.id

def named (w : World) : World :=
  { w with outside := { w.outside with uuids := w.outside.uuids.tail } }

def defaultRow (createdAt : Int) (criterion : String × String) (id : Uuid) : WatchCriterion where
  id := id
  label := criterion.1
  description := criterion.2
  isActive := true
  createdAt := createdAt

def withCriterion (row : WatchCriterion) (db : Db) : Db :=
  { db with watchCriteria := db.watchCriteria ++ [row] }

theorem insertDefault_eq (w : World) : insertDefault createdAt criterion w =
    (statement (Db.insertCriterion (defaultRow createdAt criterion w.nextUuid)) >>= fun _ => pure ())
      (named w) := rfl

theorem insertCriterion_fresh {row : WatchCriterion} (h : row.id ∉ takenIds db) :
    db.insertCriterion row = .ok (row.id, withCriterion row db) := by
  have hnone : db.watchCriteria.any (·.id = row.id) = false := by
    simpa [takenIds] using h
  rw [Db.insertCriterion, hnone]
  rfl

theorem insertCriterion_taken {row : WatchCriterion} (h : row.id ∈ takenIds db) :
    ∃ e, db.insertCriterion row = .error e := by
  have hany : db.watchCriteria.any (·.id = row.id) = true := by
    simpa [takenIds] using h
  rw [Db.insertCriterion, hany]
  exact ⟨_, rfl⟩

theorem insertDefault_done (hfault : w.dbFault = none) (hid : w.nextUuid ∉ takenIds w.db) :
    insertDefault createdAt criterion w = (.ok (),
      (named w).afterDbCall.withDb (withCriterion (defaultRow createdAt criterion w.nextUuid) w.db)) := by
  have hfault : (named w).dbFault = none := hfault
  rw [insertDefault_eq, bind_run, statement_done hfault (insertCriterion_fresh hid)]
  rfl

theorem insertDefault_cut (createdAt : Int) (criterion : String × String)
    (h : w.dbFault.isSome ∨ w.nextUuid ∈ takenIds w.db) :
    ∃ e, insertDefault createdAt criterion w = (.error e, (named w).afterDbCall) := by
  rw [insertDefault_eq, bind_run, statement_run]
  cases hfault : (named w).dbFault with
  | some text => exact ⟨_, rfl⟩
  | none =>
    have hfault : w.dbFault = none := hfault
    rw [hfault, or_iff_right (by simp)] at h
    have htaken : (defaultRow createdAt criterion w.nextUuid).id ∈ takenIds (named w).db := h
    obtain ⟨e, he⟩ := insertCriterion_taken htaken
    rw [he]
    exact ⟨e, rfl⟩

structure Inserted (criteria : List (String × String)) (w : World) (outcome : Except StorageError Unit)
    (w' : World) (n : Nat) : Prop where
  settings : w'.db.settings = w.db.settings
  rows : w'.db.watchCriteria.map described = w.db.watchCriteria.map described ++ criteria.take n
  complete : outcome = .ok () ↔ n = criteria.length
  faults : w'.outside.dbFaults <:+ w.outside.dbFaults

theorem insertedUntilCut_cut (h : w.dbFault.isSome ∨ w.nextUuid ∈ takenIds w.db) (n : Nat) :
    insertedUntilCut (takenIds w.db) w.outside.dbFaults w.outside.uuids (n + 1) = 0 := by
  change (if w.dbFault.isSome || decide (w.nextUuid ∈ takenIds w.db) then 0 else _) = 0
  rw [if_pos]
  simpa using h

theorem insertedUntilCut_more (h : ¬(w.dbFault.isSome ∨ w.nextUuid ∈ takenIds w.db)) (n : Nat) :
    insertedUntilCut (takenIds w.db) w.outside.dbFaults w.outside.uuids (n + 1) =
      insertedUntilCut (takenIds w.db ++ [w.nextUuid]) w.outside.dbFaults.tail w.outside.uuids.tail n
        + 1 := by
  change (if w.dbFault.isSome || decide (w.nextUuid ∈ takenIds w.db) then 0 else _) = _
  rw [if_neg]
  · rfl
  · simpa using h

theorem insertedUntilCut_le (taken : List Uuid) (faults : List (Option String)) (uuids : List Uuid)
    (n : Nat) : insertedUntilCut taken faults uuids n ≤ n := by
  induction n generalizing taken faults uuids with
  | zero => rfl
  | succ n ih =>
    rw [insertedUntilCut]
    split
    · exact Nat.zero_le _
    · exact Nat.succ_le_succ (ih _ _ _)

theorem insertDefaults_inserted (createdAt : Int) (criteria : List (String × String)) (w : World) :
    ∃ outcome w', forEach (insertDefault createdAt) criteria w = (outcome, w') ∧
      Inserted criteria w outcome w'
        (insertedUntilCut (takenIds w.db) w.outside.dbFaults w.outside.uuids criteria.length) := by
  induction criteria generalizing w with
  | nil =>
    exact ⟨.ok (), w, rfl, rfl, by simp, by simp [insertedUntilCut], List.suffix_rfl⟩
  | cons criterion criteria ih =>
    change ∃ outcome w', (insertDefault createdAt criterion >>= fun _ =>
      forEach (insertDefault createdAt) criteria) w = (outcome, w') ∧ _
    by_cases hcut : w.dbFault.isSome ∨ w.nextUuid ∈ takenIds w.db
    · obtain ⟨e, he⟩ := insertDefault_cut createdAt criterion hcut
      rw [bind_run, he, List.length_cons, insertedUntilCut_cut hcut]
      exact ⟨.error e, _, rfl, rfl, by simp [named, World.afterDbCall], by simp, List.tail_suffix _⟩
    · rw [List.length_cons, insertedUntilCut_more hcut]
      rw [not_or, Bool.not_eq_true, Option.isSome_eq_false_iff, Option.isNone_iff_eq_none] at hcut
      let next := (named w).afterDbCall.withDb (withCriterion (defaultRow createdAt criterion w.nextUuid) w.db)
      have htaken : takenIds w.db ++ [w.nextUuid] = takenIds next.db := by
        simp [next, takenIds, withCriterion, World.withDb, defaultRow]
      obtain ⟨outcome, w', hrun, hrest⟩ := ih next
      rw [bind_run, insertDefault_done hcut.1 hcut.2, htaken]
      refine ⟨outcome, w', hrun, hrest.settings, ?_, ?_, hrest.faults.trans (List.tail_suffix _)⟩
      · rw [hrest.rows]
        simp only [next, withCriterion, World.withDb, List.map_append, List.append_assoc]
        rfl
      · rw [hrest.complete]
        exact Nat.succ_inj.symm

end Insertions

section Calls

def setFlag (db : Db) : Db := db.setSetting hasSeededDefaultCriteria "true"

theorem flagged_setFlag (db : Db) : Flagged (setFlag db) := by
  rw [Flagged, setFlag, getSetting_setSetting]
  rfl

theorem Flagged.not_unseeded (h : Flagged db) : ¬Unseeded db := by
  intro hunseeded
  rw [Flagged, hunseeded.2] at h
  cases h

theorem watchCriteria_setSetting (db : Db) (key value : String) :
    (db.setSetting key value).watchCriteria = db.watchCriteria := by
  rw [Db.setSetting]
  split <;> rfl

/-- What a call of `seed_default_criteria` does. -/
inductive Seeding (w : World) : Except StorageError Unit → World → Prop
  | unread {e after} (hfault : ¬w.DbAnswers) (hcut : insertedBy w.outside = 0) (hdb : after.db = w.db) :
    Seeding w (.error e) after
  | already {after} (hflag : Flagged w.db) (hdb : after.db = w.db) :
    Seeding w (.ok ()) after
  | existing {after} (hrows : w.db.watchCriteria ≠ []) (hdb : after.db = setFlag w.db) :
    Seeding w (.ok ()) after
  | unflagged {e after} (hfault : ¬w.DbAnswers) (hrows : w.db.watchCriteria ≠ [])
    (hdb : after.db = w.db) : Seeding w (.error e) after
  | cut {e after} (hunseeded : Unseeded w.db) (hcut : insertedBy w.outside ≠ defaultCriteria.length)
    (hsettings : after.db.settings = w.db.settings)
    (hrows : after.db.watchCriteria.map described = defaultCriteria.take (insertedBy w.outside)) :
    Seeding w (.error e) after
  | inserted {r after} (hunseeded : Unseeded w.db)
    (hall : insertedBy w.outside = defaultCriteria.length)
    (hrows : after.db.watchCriteria.map described = defaultCriteria)
    (hflag : r = .ok () → Flagged after.db)
    (hanswers : w.DbAnswers → r = .ok ()) : Seeding w r after

theorem not_dbAnswers {text : String} (h : w.dbFault = some text) : ¬w.DbAnswers := by
  intro hanswers
  rw [hanswers.dbFault] at h
  cases h

theorem insertedBy_of_fault (h : w.dbFault.isSome ∨ w.afterDbCall.dbFault.isSome) :
    insertedBy w.outside = 0 := by
  change (if w.dbFault.isSome || w.afterDbCall.dbFault.isSome then 0 else _) = 0
  rw [if_pos]
  simpa using h

theorem insertedBy_of_answer (h : w.dbFault = none) (h' : w.afterDbCall.dbFault = none) :
    insertedBy w.outside = insertedUntilCut [] w.outside.dbFaults.tail.tail w.outside.uuids
      defaultCriteria.length := by
  change (if w.dbFault.isSome || w.afterDbCall.dbFault.isSome then 0 else _) = _
  rw [h, h']
  rfl

def inserting : Program StorageError Unit := do
  let createdAt ← unixTimestamp
  Action.forEach (insertDefault createdAt) defaultCriteria
  setSetting hasSeededDefaultCriteria "true"

theorem inserting_seeding (h : Unseeded w.db) (hfault : w.dbFault = none)
    (hfault' : w.afterDbCall.dbFault = none) :
    Seeding w (inserting w.afterDbCall.afterDbCall).1 (inserting w.afterDbCall.afterDbCall).2 := by
  let start : World := { w.afterDbCall.afterDbCall with
    outside := { w.outside with
      dbFaults := w.outside.dbFaults.tail.tail, clock := w.outside.clock.tail } }
  have hprogram : inserting w.afterDbCall.afterDbCall =
      (forEach (insertDefault w.nextTime) defaultCriteria >>= fun _ =>
        setSetting hasSeededDefaultCriteria "true") start := rfl
  obtain ⟨outcome, w', hrun, hinserted⟩ := insertDefaults_inserted w.nextTime defaultCriteria start
  have hcount : insertedUntilCut (takenIds start.db) start.outside.dbFaults start.outside.uuids
      defaultCriteria.length = insertedBy w.outside := by
    rw [insertedBy_of_answer hfault hfault']
    change insertedUntilCut (w.db.watchCriteria.map WatchCriterion.id) _ _ _ = _
    rw [h.1]
    rfl
  rw [hcount] at hinserted
  have hrows : w'.db.watchCriteria.map described = defaultCriteria.take (insertedBy w.outside) := by
    have hstart : start.db.watchCriteria = [] := h.1
    rw [hinserted.rows, hstart]
    rfl
  rw [hprogram, bind_run, hrun]
  cases outcome with
  | error e =>
    refine .cut h ?_ hinserted.settings hrows
    intro hall
    cases hinserted.complete.mpr hall
  | ok u =>
    have hall : insertedBy w.outside = defaultCriteria.length := hinserted.complete.mp rfl
    rw [hall, List.take_length] at hrows
    dsimp only
    rw [setSetting, execute_run]
    cases hlast : w'.dbFault with
    | some text =>
      refine .inserted h hall hrows (by simp) fun hanswers => ?_
      have hrest : w'.DbAnswers := fun fault hfault =>
        hanswers fault (List.mem_of_mem_tail (List.mem_of_mem_tail (hinserted.faults.subset hfault)))
      exact absurd hrest (not_dbAnswers hlast)
    | none =>
      refine .inserted h hall ?_ (fun _ => ?_) fun _ => rfl
      · rw [← hrows]
        exact congrArg (List.map described) (watchCriteria_setSetting _ _ _)
      · exact flagged_setFlag w'.db

theorem seedDefaultCriteria_seeding (w : World) :
    Seeding w (seedDefaultCriteria w).1 (seedDefaultCriteria w).2 := by
  rw [seedDefaultCriteria, bind_run, query_run]
  cases hfault : w.dbFault with
  | some text => exact .unread (not_dbAnswers hfault) (insertedBy_of_fault (by simp [hfault])) rfl
  | none =>
    dsimp only
    split
    · next hflag => exact .already hflag rfl
    · next hflag =>
      rw [bind_run, query_run]
      cases hfault' : w.afterDbCall.dbFault with
      | some text =>
        have hanswers : ¬w.DbAnswers := fun h =>
          not_dbAnswers hfault' ((World.calm_afterDbCall w).dbAnswers h)
        exact .unread hanswers (insertedBy_of_fault (by simp [hfault'])) rfl
      | none =>
        dsimp only
        split
        · next hcount =>
          have hrows : w.db.watchCriteria ≠ [] := List.length_pos_iff.mp hcount
          rw [setSetting, execute_run]
          cases hfault'' : w.afterDbCall.afterDbCall.dbFault with
          | some text =>
            have hanswers : ¬w.DbAnswers := fun h => not_dbAnswers hfault''
              ((World.calm_afterDbCall _).dbAnswers ((World.calm_afterDbCall w).dbAnswers h))
            exact .unflagged hanswers hrows rfl
          | none => exact .existing hrows rfl
        · next hcount =>
          have hunseeded : Unseeded w.db := by
            constructor
            · exact List.eq_nil_of_length_eq_zero (Nat.eq_zero_of_not_pos hcount)
            · simpa using hflag
          exact inserting_seeding hunseeded hfault hfault'

namespace Seeding

variable {r : Except StorageError Unit} {after : World}

theorem of_seeded (h : Seeding w r after) (hseeded : ¬Unseeded w.db) :
    after.db.watchCriteria = w.db.watchCriteria ∧ ¬Unseeded after.db := by
  cases h with
  | unread _ _ hdb =>
    rw [hdb]
    exact ⟨rfl, hseeded⟩
  | already _ hdb =>
    rw [hdb]
    exact ⟨rfl, hseeded⟩
  | existing hrows hdb =>
    have hsame : after.db.watchCriteria = w.db.watchCriteria := by
      rw [hdb]
      exact watchCriteria_setSetting _ _ _
    exact ⟨hsame, fun hunseeded => hrows (hsame.symm.trans hunseeded.1)⟩
  | unflagged _ _ hdb =>
    rw [hdb]
    exact ⟨rfl, hseeded⟩
  | cut hunseeded => exact absurd hunseeded hseeded
  | inserted hunseeded => exact absurd hunseeded hseeded

theorem of_unseeded (h : Seeding w r after) (hunseeded : Unseeded w.db) :
    after.db.watchCriteria.map described = defaultCriteria.take (insertedBy w.outside) ∧
      (insertedBy w.outside = 0 → Unseeded after.db) := by
  cases h with
  | unread _ hcut hdb =>
    rw [hdb, hcut, hunseeded.1]
    exact ⟨rfl, fun _ => hunseeded⟩
  | already hflag => exact absurd hunseeded hflag.not_unseeded
  | existing hrows => exact absurd hunseeded.1 hrows
  | unflagged _ hrows => exact absurd hunseeded.1 hrows
  | cut _ _ hsettings hrows =>
    refine ⟨hrows, fun hnone => ⟨?_, ?_⟩⟩
    · rw [hnone, List.take_zero, List.map_eq_nil_iff] at hrows
      exact hrows
    · rw [← hunseeded.2, Db.getSetting, Db.getSetting, hsettings]
  | inserted _ hall hrows =>
    rw [hall, List.take_length]
    refine ⟨hrows, ?_⟩
    intro hnone
    cases hnone

theorem flagged_of_ok (h : Seeding w (.ok ()) after) : Flagged after.db := by
  cases h with
  | already hflag hdb => rwa [hdb]
  | existing _ hdb =>
    rw [hdb]
    exact flagged_setFlag w.db
  | inserted _ _ _ hflag => exact hflag rfl

theorem flagged (h : Seeding w r after) (hflag : Flagged w.db) : Flagged after.db := by
  cases h with
  | unread _ _ hdb => rwa [hdb]
  | already _ hdb => rwa [hdb]
  | existing _ hdb =>
    rw [hdb]
    exact flagged_setFlag w.db
  | unflagged _ _ hdb => rwa [hdb]
  | cut hunseeded => exact absurd hunseeded hflag.not_unseeded
  | inserted hunseeded => exact absurd hunseeded hflag.not_unseeded

end Seeding

end Calls

section Unhindered

theorem insertedUntilCut_unhindered {taken : List Uuid} {faults : List (Option String)}
    {uuids : List Uuid} {n : Nat} (hanswers : ∀ fault ∈ faults, fault = none)
    (hfresh : (taken ++ uuids).Nodup) (henough : n ≤ uuids.length) :
    insertedUntilCut taken faults uuids n = n := by
  induction n generalizing taken faults uuids with
  | zero => rfl
  | succ n ih =>
    cases uuids with
    | nil => simp at henough
    | cons id uuids =>
      have hfault : faults.head?.join = none := by
        cases faults with
        | nil => rfl
        | cons fault faults =>
          rw [List.head?_cons, hanswers fault List.mem_cons_self]
          rfl
      have hid : id ∉ taken := fun htaken =>
        (List.nodup_append.mp hfresh).2.2 id htaken id List.mem_cons_self rfl
      rw [insertedUntilCut, if_neg (by simpa [hfault] using hid)]
      refine congrArg (· + 1) (ih ?_ ?_ ?_)
      · exact fun fault hmem => hanswers fault (List.mem_of_mem_tail hmem)
      · simpa using hfresh
      · simpa using henough

theorem insertedBy_unhindered (h : Unhindered w.outside) :
    insertedBy w.outside = defaultCriteria.length := by
  have hanswers : w.DbAnswers := h.answers
  have hanswers' : w.afterDbCall.DbAnswers := (World.calm_afterDbCall w).dbAnswers hanswers
  rw [insertedBy_of_answer hanswers.dbFault hanswers'.dbFault]
  refine insertedUntilCut_unhindered ?_ h.fresh h.enough
  exact fun fault hfault => hanswers fault (List.mem_of_mem_tail (List.mem_of_mem_tail hfault))

theorem Seeding.ok_of_unhindered {r : Except StorageError Unit} {after : World} (h : Seeding w r after)
    (hunhindered : Unhindered w.outside) : r = .ok () := by
  cases h with
  | unread hfault => exact absurd hunhindered.answers hfault
  | already => rfl
  | existing => rfl
  | unflagged hfault => exact absurd hunhindered.answers hfault
  | cut _ hcut => exact absurd (insertedBy_unhindered hunhindered) hcut
  | inserted _ _ _ _ hanswers => exact hanswers hunhindered.answers

def calmLaunch : Outside where
  uuids := [.ending '1', .ending '2', .ending '3', .ending '4', .ending '5']

theorem unhindered_calmLaunch : Unhindered calmLaunch where
  answers := by simp [calmLaunch]
  fresh := by decide
  enough := Nat.le_refl 5

theorem nodup_defaultCriteria : defaultCriteria.Nodup := by
  simp [defaultCriteria]

theorem insertedBy_le (outside : Outside) : insertedBy outside ≤ defaultCriteria.length := by
  rw [insertedBy]
  split
  · exact Nat.zero_le _
  · exact insertedUntilCut_le _ _ _ _

theorem holdsDefaults_iff {n : Nat} (hn : n ≤ defaultCriteria.length)
    (hrows : db.watchCriteria.map described = defaultCriteria.take n) :
    HoldsDefaults db ↔ n = defaultCriteria.length := by
  rw [HoldsDefaults, hrows]
  constructor
  · intro hall
    have hle := (List.subperm_of_subset nodup_defaultCriteria hall).length_le
    rw [List.length_take_of_le hn] at hle
    exact Nat.le_antisymm hn hle
  · intro hall criterion hmem
    rwa [hall, List.take_length]

theorem endsSeeded_iff (hseeded : ¬Unseeded w.db) : EndsSeeded w ↔ HoldsDefaults w.db := by
  have hsame (outside : Outside) := (seedDefaultCriteria_seeding { w with outside }).of_seeded hseeded
  constructor
  · intro hends
    obtain ⟨after, hrun, hholds⟩ := hends calmLaunch unhindered_calmLaunch
    have hrows := (hsame calmLaunch).1
    rw [hrun] at hrows
    rwa [HoldsDefaults, hrows] at hholds
  · intro hholds outside hunhindered
    have hok := (seedDefaultCriteria_seeding { w with outside }).ok_of_unhindered hunhindered
    refine ⟨(seedDefaultCriteria { w with outside }).2, Prod.ext hok rfl, ?_⟩
    rwa [HoldsDefaults, (hsame outside).1]

theorem endsSeeded_of_unseeded (hunseeded : Unseeded w.db) : EndsSeeded w := by
  intro outside hunhindered
  have hseeding := seedDefaultCriteria_seeding { w with outside }
  refine ⟨(seedDefaultCriteria { w with outside }).2,
    Prod.ext (hseeding.ok_of_unhindered hunhindered) rfl, ?_⟩
  have hrows := (hseeding.of_unseeded hunseeded).1
  have hall := insertedBy_unhindered (w := { w with outside }) hunhindered
  exact (holdsDefaults_iff (insertedBy_le _) hrows).mpr hall

end Unhindered

section Launches

theorem launches_seeded (hseeded : ¬Unseeded w.db) (cuts : List Outside) :
    (launches cuts w).db.watchCriteria = w.db.watchCriteria ∧ ¬Unseeded (launches cuts w).db ∧
      CutsOutside w cuts := by
  induction cuts generalizing w with
  | nil => exact ⟨rfl, hseeded, trivial⟩
  | cons outside cuts ih =>
    obtain ⟨hrows, hseeded'⟩ := (seedDefaultCriteria_seeding { w with outside }).of_seeded hseeded
    obtain ⟨hrest, hend, hcuts⟩ := ih hseeded'
    exact ⟨hrest.trans hrows, hend, fun hunseeded => absurd hunseeded hseeded, hcuts⟩

theorem launches_endsSeeded_iff (hunseeded : Unseeded w.db) (cuts : List Outside) :
    EndsSeeded (launches cuts w) ↔ CutsOutside w cuts := by
  induction cuts generalizing w with
  | nil => exact ⟨fun _ => trivial, fun _ => endsSeeded_of_unseeded hunseeded⟩
  | cons outside cuts ih =>
    let next := (seedDefaultCriteria { w with outside }).2
    obtain ⟨hrows, hnone⟩ := (seedDefaultCriteria_seeding { w with outside }).of_unseeded hunseeded
    change EndsSeeded (launches cuts next) ↔
      (Unseeded w.db → CutOutside outside) ∧ CutsOutside next cuts
    by_cases hzero : insertedBy outside = 0
    · rw [ih (hnone hzero)]
      exact ⟨fun hcuts => ⟨fun _ => Or.inl hzero, hcuts⟩, fun hcuts => hcuts.2⟩
    · have hseeded : ¬Unseeded next.db := by
        intro hempty
        rw [hempty.1, List.map_nil, eq_comm, List.take_eq_nil_iff] at hrows
        cases hrows with
        | inl h => exact hzero h
        | inr h => cases h
      obtain ⟨hsame, hend, hcuts⟩ := launches_seeded hseeded cuts
      rw [endsSeeded_iff hend, HoldsDefaults, hsame]
      change HoldsDefaults next.db ↔ _
      rw [holdsDefaults_iff (insertedBy_le outside) hrows]
      constructor
      · exact fun hall => ⟨fun _ => Or.inr hall, hcuts⟩
      · exact fun h => (h.1 hunseeded).resolve_left hzero

inductive Editing : Operation → Prop
  | launch : Editing .seedDefaultCriteria
  | add (label description : String) : Editing (.addCriterion label description)
  | delete (criterion : Uuid) : Editing (.deleteCriterion criterion)

def KeepsSettings : World → World → Prop := Action.Keeps fun w => w.db.settings

instance : Std.Refl KeepsSettings := inferInstanceAs (Std.Refl (Action.Keeps _))

instance : IsTrans World KeepsSettings := inferInstanceAs (IsTrans World (Action.Keeps _))

theorem keepsSettings_add (label description : String) :
    Moves KeepsSettings (addCriterion label description) := by
  refine moves_bind (moves_step fun _ => rfl) fun _ => moves_bind (moves_step fun _ => rfl) fun _ => ?_
  refine moves_statement (R := KeepsSettings) (fun _ => rfl) fun w id db h => ?_
  rw [Db.insertCriterion] at h
  split at h
  · cases h
  · cases h
    rfl

theorem keepsSettings_delete (criterion : Uuid) : Moves KeepsSettings (deleteCriterion criterion) := by
  refine moves_statement (R := KeepsSettings) (fun _ => rfl) fun w u db h => ?_
  rw [Db.deleteCriterion] at h
  split at h
  · cases h
    rfl
  · cases h

theorem Flagged.perform {operation : Operation} (h : Flagged w.db) (hediting : Editing operation) :
    Flagged (operation.perform w).db := by
  have kept {w' : World} (hsettings : w'.db.settings = w.db.settings) : Flagged w'.db := by
    rwa [Flagged, Db.getSetting, hsettings]
  cases hediting with
  | launch => exact (seedDefaultCriteria_seeding w).flagged h
  | add label description => exact kept ((keepsSettings_add label description).run w)
  | delete criterion => exact kept ((keepsSettings_delete criterion).run w)

theorem Flagged.performAll {calls : List (Outside × Operation)} (h : Flagged w.db)
    (hediting : ∀ call ∈ calls, Editing call.2) : Flagged (Operation.performAll calls w).db := by
  induction calls generalizing w with
  | nil => exact h
  | cons call calls ih =>
    have hnext : Flagged (call.2.perform { w with outside := call.1 }).db :=
      Flagged.perform (w := { w with outside := call.1 }) h (hediting call List.mem_cons_self)
    exact ih hnext fun later hlater => hediting later (List.mem_cons_of_mem _ hlater)

/-- The defaults are there all or not at all once the calls that were cut are repeated, and a call that
has returned leaves nothing for a later one to insert. -/
structure SeedsAllOnce (w : World) (cuts : List Outside) : Prop where
  all : Unseeded w.db → EndsSeeded (launches cuts w)
  once : ∀ outside after, seedDefaultCriteria { launches cuts w with outside } = (.ok (), after) →
    ∀ calls : List (Outside × Operation), (∀ call ∈ calls, Editing call.2) → ∀ later,
      (seedDefaultCriteria { Operation.performAll calls after with outside := later }).2.db.watchCriteria =
        (Operation.performAll calls after).db.watchCriteria

/-- However the launches are cut, they seed all or nothing, and once, just when none that found neither
criteria nor a tombstone was cut between two of its insertions. -/
theorem seedsAllOnce_iff (w : World) (cuts : List Outside) :
    SeedsAllOnce w cuts ↔ (Unseeded w.db → CutsOutside w cuts) := by
  constructor
  · intro hseeds hunseeded
    exact (launches_endsSeeded_iff hunseeded cuts).mp (hseeds.all hunseeded)
  · intro hcuts
    refine ⟨fun hunseeded => (launches_endsSeeded_iff hunseeded cuts).mpr (hcuts hunseeded), ?_⟩
    intro outside after hrun calls hediting later
    have hseeding := seedDefaultCriteria_seeding { launches cuts w with outside }
    rw [hrun] at hseeding
    have hflag := hseeding.flagged_of_ok.performAll hediting
    exact ((seedDefaultCriteria_seeding
      { Operation.performAll calls after with outside := later }).of_seeded hflag.not_unseeded).1

def cutLaunch : Outside := { calmLaunch with dbFaults := [none, none, none, some "disk I/O error"] }

theorem seeding_cut_short : ¬SeedsAllOnce blankWorld [cutLaunch] := by
  intro h
  have hunseeded : Unseeded blankWorld.db := ⟨rfl, rfl⟩
  have hone : insertedBy cutLaunch = 1 := by decide
  have hcut : CutOutside cutLaunch :=
    ((launches_endsSeeded_iff hunseeded [cutLaunch]).mp (h.all hunseeded)).1 hunseeded
  rw [CutOutside, hone] at hcut
  exact absurd hcut (by decide)

end Launches

end Fumiko.Storage
