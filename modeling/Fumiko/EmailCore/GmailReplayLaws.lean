import Fumiko.EmailCore.GmailHistoryLaws
import Fumiko.EmailCore.PassLaws
import Fumiko.Storage.EmailLaws

namespace Fumiko.EmailCore.Gmail

open Fumiko.Common Fumiko.Foundation Fumiko.Foundation.Action Fumiko.Net Fumiko.OAuth
  Fumiko.Program Fumiko.Storage

structure LabelledMessage where
  id : String
  labelIds : List String

/-- A history record as the server writes it.  The client does not read the labels of the
messages that were added. -/
structure ServerRecord where
  messagesAdded : Option (List LabelledMessage)
  messagesDeleted : Option (List MessageDeleted)
  labelsAdded : Option (List LabelAdded)
  labelsRemoved : Option (List LabelRemoved)

def ServerRecord.decode (r : ServerRecord) : HistoryRecord where
  messagesAdded := r.messagesAdded.map (·.map fun m => ⟨⟨m.id⟩⟩)
  messagesDeleted := r.messagesDeleted
  labelsAdded := r.labelsAdded
  labelsRemoved := r.labelsRemoved

section Replay

inductive Change
  | added (message : LabelledMessage)
  | deleted (id : String)
  | labelsAdded (id : String) (labelIds : List String)
  | labelsRemoved (id : String) (labelIds : List String)

def ServerRecord.changes (r : ServerRecord) : List Change :=
  (r.messagesAdded.getD []).map .added ++
  (r.messagesDeleted.getD []).map (fun e => .deleted e.message.id) ++
  (r.labelsAdded.getD []).map (fun e => .labelsAdded e.message.id e.labelIds) ++
  (r.labelsRemoved.getD []).map (fun e => .labelsRemoved e.message.id e.labelIds)

def Change.replay (id : String) (labels : List String) : Change → List String
  | .added m => if m.id = id then labels ++ m.labelIds else labels
  | .deleted _ => labels
  | .labelsAdded m labelIds => if m = id then labels ++ labelIds else labels
  | .labelsRemoved m labelIds => if m = id then labels.filter (· ∉ labelIds) else labels

def allChanges (records : List ServerRecord) : List Change := records.flatMap ServerRecord.changes

def finalLabels (id : String) (labels : List String) (records : List ServerRecord) : List String :=
  (allChanges records).foldl (Change.replay id) labels

def inTrash (labels : List String) : Bool := labels.any isTrashOrSpam

variable {id : String} {labels : List String} {changes : List Change} {records : List ServerRecord}

def Restores (id : String) (changes : List Change) : Prop :=
  ∃ labelIds, .labelsRemoved id labelIds ∈ changes ∧ inTrash labelIds

def Trashes (id : String) (changes : List Change) : Prop :=
  ∃ labelIds, .labelsAdded id labelIds ∈ changes ∧ inTrash labelIds

def ArrivesTrashed (id : String) (changes : List Change) : Prop :=
  ∃ m, .added m ∈ changes ∧ m.id = id ∧ inTrash m.labelIds

theorem inTrash_append (l l' : List String) : inTrash (l ++ l') = (inTrash l || inTrash l') :=
  List.any_append

theorem inTrash_filter {removed : List String} (h : ¬inTrash removed) (labels : List String) :
    inTrash (labels.filter (· ∉ removed)) ↔ inTrash labels := by
  simp only [inTrash, List.any_eq_true, List.mem_filter, decide_eq_true_eq, not_exists, not_and] at h ⊢
  constructor
  · rintro ⟨l, ⟨hl, _⟩, htrash⟩
    exact ⟨l, hl, htrash⟩
  · rintro ⟨l, hl, htrash⟩
    exact ⟨l, ⟨hl, fun hremoved => h l hremoved htrash⟩, htrash⟩

theorem inTrash_replay (hrestores : ¬Restores id changes) :
    inTrash (changes.foldl (Change.replay id) labels) ↔
      inTrash labels ∨ Trashes id changes ∨ ArrivesTrashed id changes := by
  induction changes generalizing labels with
  | nil => simp [Trashes, ArrivesTrashed]
  | cons change changes ih =>
    have hrest : ¬Restores id changes := by
      rintro ⟨labelIds, hmem, hlabels⟩
      exact hrestores ⟨labelIds, List.mem_cons_of_mem _ hmem, hlabels⟩
    rw [List.foldl_cons, ih hrest]
    cases change with
    | added m =>
      simp only [Change.replay, Trashes, ArrivesTrashed, List.mem_cons, reduceCtorEq, false_or]
      by_cases hm : m.id = id
      · simp [hm, inTrash_append, or_and_right, exists_or, or_assoc, or_left_comm]
      · simp [hm, or_and_right, exists_or]
    | deleted m => simp [Change.replay, Trashes, ArrivesTrashed]
    | labelsAdded m labelIds =>
      simp only [Change.replay, Trashes, ArrivesTrashed, List.mem_cons, reduceCtorEq, false_or]
      by_cases hm : m = id
      · simp [hm, inTrash_append, or_and_right, exists_or, or_assoc]
      · simp [hm, Ne.symm hm]
    | labelsRemoved m labelIds =>
      by_cases hm : m = id
      · subst hm
        have hlabels : ¬inTrash labelIds := fun h => hrestores ⟨labelIds, List.mem_cons_self, h⟩
        rw [Change.replay, if_pos rfl, inTrash_filter hlabels]
        simp [Trashes, ArrivesTrashed]
      · simp [Change.replay, Trashes, ArrivesTrashed, hm]

end Replay

section Decoding

variable {id : String} {r : ServerRecord} {records : List ServerRecord}

theorem mem_deleted_decode : id ∈ r.decode.deleted ↔ .deleted id ∈ r.changes := by
  simp [HistoryRecord.deleted, ServerRecord.decode, ServerRecord.changes]

theorem mem_added_decode : id ∈ r.decode.added ↔ ∃ m, .added m ∈ r.changes ∧ m.id = id := by
  cases h : r.messagesAdded <;>
    simp [HistoryRecord.added, ServerRecord.decode, ServerRecord.changes, h]

theorem mem_trashed_decode : id ∈ r.decode.trashed ↔ Trashes id r.changes := by
  simp only [HistoryRecord.trashed, ServerRecord.decode, ServerRecord.changes, Trashes, inTrash,
    List.mem_map, List.mem_filter, List.mem_append, reduceCtorEq, and_false, exists_false, or_false,
    false_or, Change.labelsAdded.injEq]
  constructor
  · rintro ⟨e, ⟨he, hlabels⟩, rfl⟩
    exact ⟨e.labelIds, ⟨e, he, rfl, rfl⟩, hlabels⟩
  · rintro ⟨labelIds, ⟨e, he, hid, rfl⟩, hlabels⟩
    exact ⟨e, ⟨he, hlabels⟩, hid⟩

theorem mem_restored_decode : id ∈ r.decode.restored ↔ Restores id r.changes := by
  simp only [HistoryRecord.restored, ServerRecord.decode, ServerRecord.changes, Restores, inTrash,
    List.mem_map, List.mem_filter, List.mem_append, reduceCtorEq, and_false, exists_false, or_false,
    false_or, Change.labelsRemoved.injEq]
  constructor
  · rintro ⟨e, ⟨he, hlabels⟩, rfl⟩
    exact ⟨e.labelIds, ⟨e, he, rfl, rfl⟩, hlabels⟩
  · rintro ⟨labelIds, ⟨e, he, hid, rfl⟩, hlabels⟩
    exact ⟨e, ⟨he, hlabels⟩, hid⟩

theorem exists_mem_allChanges {α : Type} (event : α → Change) (p : α → Prop) :
    (∃ a, event a ∈ allChanges records ∧ p a) ↔ ∃ r ∈ records, ∃ a, event a ∈ r.changes ∧ p a := by
  simp only [allChanges, List.mem_flatMap]
  constructor
  · rintro ⟨a, ⟨r, hr, ha⟩, hp⟩
    exact ⟨r, hr, a, ha, hp⟩
  · rintro ⟨r, hr, a, ha, hp⟩
    exact ⟨a, ⟨r, hr, ha⟩, hp⟩

theorem mem_flatMap_deleted :
    id ∈ (records.map ServerRecord.decode).flatMap HistoryRecord.deleted ↔
      .deleted id ∈ allChanges records := by
  simp [allChanges, List.mem_flatMap, mem_deleted_decode]

theorem mem_flatMap_added :
    id ∈ (records.map ServerRecord.decode).flatMap HistoryRecord.added ↔
      ∃ m, .added m ∈ allChanges records ∧ m.id = id := by
  rw [exists_mem_allChanges]
  simp [List.mem_flatMap, mem_added_decode]

theorem mem_flatMap_trashed :
    id ∈ (records.map ServerRecord.decode).flatMap HistoryRecord.trashed ↔
      Trashes id (allChanges records) := by
  rw [Trashes, exists_mem_allChanges]
  simp [List.mem_flatMap, mem_trashed_decode, Trashes]

theorem mem_flatMap_restored :
    id ∈ (records.map ServerRecord.decode).flatMap HistoryRecord.restored ↔
      Restores id (allChanges records) := by
  rw [Restores, exists_mem_allChanges]
  simp [List.mem_flatMap, mem_restored_decode, Restores]

end Decoding

section Application

variable {account : Uuid} {id : String} {w w' : World}

def flag (account : Uuid) (id : String) (w : World) : Option Bool :=
  (w.db.email account id).map (·.isTrashed)

theorem forEach_flag {f : String → Program StorageError Unit} {g : Option Bool → Option Bool}
    (hg : ∀ s, g (g s) = g s)
    (hf : ∀ key w w', f key w = (.ok (), w') →
      flag account id w' = if key = id then g (flag account id w) else flag account id w)
    {keys : List String} (h : forEach f keys w = (.ok (), w')) :
    flag account id w' = if id ∈ keys then g (flag account id w) else flag account id w := by
  induction keys generalizing w with
  | nil =>
    cases h
    simp
  | cons key keys ih =>
    obtain ⟨u, w₁, hone, hrest⟩ := bind_eq_ok.mp (show (f key >>= fun _ => forEach f keys) w = _ from h)
    rw [ih hrest, hf key w w₁ hone]
    by_cases hkey : key = id
    · simp [hkey, hg]
    · simp [hkey, Ne.symm hkey]

theorem markTrashed_flag {key : String} (h : markTrashed account key w = (.ok (), w')) :
    flag account id w' =
      if key = id then (flag account id w).map fun _ => true else flag account id w := by
  rw [flag, markTrashed_eq_ok h, Db.email_markTrashed]
  split <;> simp [flag, Function.comp_def]

theorem markUntrashed_flag {key : String} (h : markUntrashed account key w = (.ok (), w')) :
    flag account id w' =
      if key = id then (flag account id w).map fun _ => false else flag account id w := by
  rw [flag, markUntrashed_eq_ok h, Db.email_markUntrashed]
  split <;> simp [flag, Function.comp_def]

theorem delete_flag {key : String} (h : deleteByProviderMessageId account key w = (.ok (), w')) :
    flag account id w' = if key = id then none else flag account id w := by
  rw [flag, deleteByProviderMessageId_eq_ok h, Db.deleteByProviderMessageId, Db.email_deleteEmails]
  split <;> simp [flag]

def changeFlag (page : SyncPage) (id : String) (flag : Option Bool) : Option Bool :=
  if id ∈ page.deletedMessageIds then none
  else if id ∈ page.restoredMessageIds then flag.map fun _ => false
  else if id ∈ page.trashedMessageIds then flag.map fun _ => true
  else flag

theorem applyRemoteChanges_flag {page : SyncPage}
    (h : applyRemoteChanges account page w = (.ok (), w')) :
    flag account id w' = changeFlag page id (flag account id w) := by
  obtain ⟨u, w₁, htrash, h⟩ := bind_eq_ok.mp (mapError_eq_ok.mp h)
  obtain ⟨u', w₂, hrestore, hdelete⟩ := bind_eq_ok.mp h
  rw [forEach_flag (g := fun _ => none) (fun _ => rfl) (fun _ _ _ => delete_flag) hdelete,
    forEach_flag (by simp [Function.comp_def]) (fun _ _ _ => markUntrashed_flag) hrestore,
    forEach_flag (by simp [Function.comp_def]) (fun _ _ _ => markTrashed_flag) htrash, changeFlag]
  split
  · rfl
  · split
    · split <;> simp [Function.comp_def]
    · rfl

def saveFlag (saved : List NewEmail) (id : String) (flag : Option Bool) : Option Bool :=
  if id ∈ saved.map NewEmail.providerMessageId then some (flag.getD false) else flag

theorem saveFlag_append (saved rest : List NewEmail) (s : Option Bool) :
    saveFlag (saved ++ rest) id s = saveFlag rest id (saveFlag saved id s) := by
  simp only [saveFlag, List.map_append, List.mem_append]
  by_cases hid : id ∈ saved.map NewEmail.providerMessageId <;> simp [hid]

theorem saveEmail_flag {key : String} {subject sender snippet : Option String} {receivedAt : Int}
    {isRead : Bool} {row : Uuid}
    (h : saveEmail account key subject sender receivedAt isRead snippet w = (.ok row, w')) :
    flag account id w' =
      if key = id then some ((flag account id w).getD false) else flag account id w := by
  obtain ⟨db, hsave, hdb, -⟩ := saveEmail_eq_ok h
  rw [flag, hdb, Db.email_saveEmail hsave]
  split
  · cases hemail : w.db.email account id <;> simp [flag, hemail, Db.refreshEmail]
  · rfl

variable {saved : List NewEmail} {failed : Bool}

theorem hydrateOne_flag {result : Except ProviderError MessageMetadata}
    (h : hydrateOne account result w = (.ok (saved, failed), w')) :
    flag account id w' = saveFlag saved id (flag account id w) := by
  cases result with
  | error e =>
    cases h
    simp [saveFlag]
  | ok m =>
    obtain ⟨row, hsave, heq⟩ := hydrateOne_saved h
    cases heq
    rw [saveEmail_flag hsave]
    simp [saveFlag, eq_comm]

theorem hydrateAll_flag {total idx : Nat} {results : List (Except ProviderError MessageMetadata)}
    (h : hydrateAll account total idx results w = (.ok (saved, failed), w')) :
    flag account id w' = saveFlag saved id (flag account id w) := by
  induction results generalizing idx w saved failed with
  | nil =>
    cases h
    simp [saveFlag]
  | cons result results ih =>
    obtain ⟨⟨savedOne, failedOne⟩, ⟨savedRest, failedRest⟩, w₁, hone, hrest, heq⟩ := hydrateAll_cons h
    cases heq
    have hlog : flag account id (w₁.record (.progress (idx + 1) total .hydrating)) =
        flag account id w₁ := rfl
    rw [ih hrest, hlog, hydrateOne_flag hone, saveFlag_append]

def Fetches (p : EmailProvider) : Prop :=
  ∀ token ids, Moves (Keeps World.db) (p.fetchMessageMetadata token ids)

theorem keeps_db_indifferent : Indifferent (Keeps World.db) :=
  ⟨⟨fun _ _ _ => rfl, fun _ => rfl⟩, fun _ _ => rfl, fun _ _ => rfl⟩

theorem gmail_fetches : Fetches provider := (gmail_along keeps_db_indifferent.toOutward).fetchMessageMetadata

variable {p : EmailProvider}

theorem hydrate_flag (hp : Fetches p) {token : String} {page : SyncPage}
    (h : hydrate p account token page w = (.ok (saved, failed), w')) :
    flag account id w' = saveFlag saved id (flag account id w) := by
  rw [hydrate] at h
  split at h
  · cases h
    simp [saveFlag]
  · obtain ⟨results, w₁, hfetch, h⟩ := bind_eq_ok.mp (bind_log h)
    have hdb := (hp token page.newMessageIds).of_eq (mapError_eq_ok.mp hfetch)
    change w₁.db = w.db at hdb
    rw [hydrateAll_flag (bind_log h)]
    simp only [flag, World.record, hdb]

theorem applyPage_flag (hp : Fetches p) {token : String} {page : SyncPage}
    (h : applyPage p account token page w = (.ok (saved, failed), w')) :
    flag account id w' = changeFlag page id (saveFlag saved id (flag account id w)) := by
  obtain ⟨hydrated, w₁, hhydrate, h⟩ := bind_eq_ok.mp h
  obtain ⟨u, w₂, hremote, hpure⟩ := bind_eq_ok.mp h
  cases hpure
  rw [applyRemoteChanges_flag hremote, hydrate_flag hp hhydrate]

end Application

section Agreement

variable {account : Uuid} {id : String} {labels : List String} {records : List ServerRecord}
  {page : SyncPage} {saved : List NewEmail} {w w' : World}

/-- The message is stored with the flag its labels ask for, or it is added in this history,
and hydrated unless it is deleted there as well. -/
inductive Known (account : Uuid) (w : World) (saved : List NewEmail) (records : List ServerRecord)
    (id : String) : List String → Prop
  | stored {labels : List String} (hflag : flag account id w = some (inTrash labels)) :
    Known account w saved records id labels
  | added {m : LabelledMessage} (hflag : flag account id w = none) (hadded : .added m ∈ allChanges records)
    (hm : m.id = id)
    (hhydrated : .deleted id ∉ allChanges records → id ∈ saved.map NewEmail.providerMessageId) :
    Known account w saved records id []

/-- The row is gone exactly when the message was deleted, and otherwise its flag says whether
the replayed labels hold the trash or spam. -/
structure Agrees (account : Uuid) (id : String) (labels : List String) (records : List ServerRecord)
    (w' : World) : Prop where
  absent : flag account id w' = none ↔ .deleted id ∈ allChanges records
  trashed : ∀ e, w'.db.email account id = some e → e.isTrashed = inTrash (finalLabels id labels records)

theorem agrees_iff_of_deleted (hdeleted : .deleted id ∈ allChanges records)
    (hflag : flag account id w' = none) : Agrees account id labels records w' := by
  refine ⟨by simp [hflag, hdeleted], ?_⟩
  intro e he
  simp [flag, he] at hflag

theorem agrees_iff_of_flag {trashed : Bool} (hkept : .deleted id ∉ allChanges records)
    (hflag : flag account id w' = some trashed) :
    Agrees account id labels records w' ↔ trashed = inTrash (finalLabels id labels records) := by
  obtain ⟨e, he, rfl⟩ := Option.map_eq_some_iff.mp hflag
  constructor
  · exact fun h => h.trashed e he
  · intro heq
    refine ⟨by simp [hflag, hkept], ?_⟩
    intro e' he'
    cases he.symm.trans he'
    exact heq

theorem Known.saveFlag (h : Known account w saved records id labels)
    (hkept : .deleted id ∉ allChanges records) :
    Gmail.saveFlag saved id (flag account id w) = some (inTrash labels) := by
  cases h with
  | stored hflag =>
    rw [hflag, Gmail.saveFlag]
    split <;> rfl
  | added hflag hadded hm hhydrated =>
    rw [hflag, Gmail.saveFlag, if_pos (hhydrated hkept)]
    rfl

/-- The label events that the three loops replay: a restoration must have been the last word,
and a message delivered into the trash or spam must be known to be there otherwise. -/
def Replayable (id : String) (labels : List String) (records : List ServerRecord) : Prop :=
  .deleted id ∈ allChanges records ∨
    (Restores id (allChanges records) → ¬inTrash (finalLabels id labels records)) ∧
    (¬Restores id (allChanges records) → ArrivesTrashed id (allChanges records) →
      inTrash labels ∨ Trashes id (allChanges records))

theorem changeFlag_agrees_iff (hreports : Reports page (records.map ServerRecord.decode))
    (hflag : flag account id w' = changeFlag page id (some (inTrash labels)))
    (hkept : .deleted id ∉ allChanges records) :
    Agrees account id labels records w' ↔ Replayable id labels records := by
  have hdeleted : id ∉ page.deletedMessageIds := by rwa [hreports.mem_deleted, mem_flatMap_deleted]
  rw [changeFlag, if_neg hdeleted] at hflag
  simp only [Replayable, hkept, false_or]
  by_cases hrestores : Restores id (allChanges records)
  · have hrestored : id ∈ page.restoredMessageIds := by
      rwa [hreports.mem_restored, mem_flatMap_restored]
    rw [if_pos hrestored] at hflag
    rw [agrees_iff_of_flag hkept hflag]
    cases inTrash (finalLabels id labels records) <;> simp [hrestores]
  · have hrestored : id ∉ page.restoredMessageIds := by
      rwa [hreports.mem_restored, mem_flatMap_restored]
    have hfinal : inTrash (finalLabels id labels records) ↔
        inTrash labels ∨ Trashes id (allChanges records) ∨ ArrivesTrashed id (allChanges records) :=
      inTrash_replay hrestores
    rw [if_neg hrestored] at hflag
    by_cases htrashes : Trashes id (allChanges records)
    · have htrashed : id ∈ page.trashedMessageIds := by
        rwa [hreports.mem_trashed, mem_flatMap_trashed]
      rw [if_pos htrashed] at hflag
      rw [agrees_iff_of_flag hkept hflag, eq_comm, hfinal]
      simp [htrashes, hrestores]
    · have htrashed : id ∉ page.trashedMessageIds := by
        rwa [hreports.mem_trashed, mem_flatMap_trashed]
      rw [if_neg htrashed] at hflag
      rw [agrees_iff_of_flag hkept hflag, Bool.eq_iff_iff, hfinal]
      simp [htrashes, hrestores]

end Agreement

/-- Applying the page of a history agrees with the replay of its events exactly when the label
events of the message can be told from sets. -/
theorem applyPage_agrees_iff {account : Uuid} {cursor token : String} {records : List ServerRecord}
    {ms rest : List GmailMoment} {page : SyncPage} {saved : List NewEmail} {failed : Bool}
    {w w' : World} {id : String} {labels : List String}
    (hserved : Served cursor none ms (records.map ServerRecord.decode) rest)
    (hsync : incrementalSync cursor ms = (.ok page, rest))
    (happly : applyPage provider account token page w = (.ok (saved, failed), w'))
    (hknown : Known account w saved records id labels) :
    Agrees account id labels records w' ↔ Replayable id labels records := by
  obtain ⟨page', hsync', hreports⟩ := hserved.incrementalSync
  rw [hsync] at hsync'
  cases hsync'
  have hflag : flag account id w' = changeFlag page id (saveFlag saved id (flag account id w)) :=
    applyPage_flag gmail_fetches happly
  by_cases hdeleted : .deleted id ∈ allChanges records
  · have hmem : id ∈ page.deletedMessageIds := by rwa [hreports.mem_deleted, mem_flatMap_deleted]
    rw [changeFlag, if_pos hmem] at hflag
    exact iff_of_true (agrees_iff_of_deleted hdeleted hflag) (Or.inl hdeleted)
  · rw [hknown.saveFlag hdeleted] at hflag
    exact changeFlag_agrees_iff hreports hflag hdeleted

section Example

def trashAccount : Uuid := .ending '1'

def trashedRow : EmailRow where
  id := .ending '2'
  accountId := trashAccount
  providerMessageId := "m1"
  subject := none
  sender := none
  receivedAt := 0
  isRead := true
  appHasViewed := false
  isTrashed := true
  trashedAt := some 0
  snippet := none
  createdAt := 0

def trashWorld : World where
  db := { Db.empty with emails := [trashedRow] }
  keyring _ := none
  tokenCache := []
  journal := []
  outside := {}

def trashedAgain : List ServerRecord :=
  [⟨none, none, none, some [⟨⟨"m1"⟩, ["TRASH"]⟩]⟩, ⟨none, none, some [⟨⟨"m1"⟩, ["TRASH"]⟩], none⟩]

def restoredOnly : List ServerRecord :=
  [⟨none, none, none, some [⟨⟨"m1"⟩, ["TRASH"]⟩]⟩]

def historyMoment (records : List ServerRecord) : GmailMoment where
  profile := .failed "timed out"
  listMessages _ _ := .failed "timed out"
  history _ _ := .response 200 "OK" (.ok ⟨some (records.map ServerRecord.decode), "8", none⟩)
  message _ := .failed "timed out"
  fullMessage _ := .error .unauthorized

theorem historyMoment_served (records : List ServerRecord) :
    Served "7" none [historyMoment records] (records.map ServerRecord.decode) [] := by
  have hmoment : ((historyMoment records).history "7" none).json (historyUrl "7" none) =
      .ok ⟨some (records.map ServerRecord.decode), "8", none⟩ := rfl
  exact .last hmoment fun _ h => by cases h

def restoredPage (trashed : List String) : SyncPage := ⟨[], trashed, [], ["m1"], "8", false⟩

theorem trashWorld_known (records : List ServerRecord) :
    Known trashAccount trashWorld [] records "m1" ["TRASH"] := .stored rfl

theorem applyPage_loses_trash :
    ¬∀ (account : Uuid) (cursor token : String) (records : List ServerRecord)
      (ms rest : List GmailMoment) (page : SyncPage) (saved : List NewEmail) (failed : Bool)
      (w w' : World) (id : String) (labels : List String),
      Served cursor none ms (records.map ServerRecord.decode) rest →
      incrementalSync cursor ms = (.ok page, rest) →
      applyPage provider account token page w = (.ok (saved, failed), w') →
      Known account w saved records id labels → Agrees account id labels records w' := by
  intro h
  have hagrees := h trashAccount "7" "access" trashedAgain [historyMoment trashedAgain] []
    (restoredPage ["m1"]) [] false trashWorld _ "m1" ["TRASH"] (historyMoment_served _) rfl rfl
    (trashWorld_known _)
  have htrashed := hagrees.trashed _ rfl
  revert htrashed
  decide

def restoredWorld : World := (applyPage provider trashAccount "access" (restoredPage []) trashWorld).2

theorem restoredOnly_sync :
    incrementalSync "7" [historyMoment restoredOnly] = (.ok (restoredPage []), []) := rfl

theorem restoredOnly_apply :
    applyPage provider trashAccount "access" (restoredPage []) trashWorld =
      (.ok ([], false), restoredWorld) := rfl

theorem applyPage_agrees_iff_example :
    Agrees trashAccount "m1" ["TRASH"] restoredOnly restoredWorld ↔
      Replayable "m1" ["TRASH"] restoredOnly :=
  applyPage_agrees_iff (historyMoment_served restoredOnly) restoredOnly_sync restoredOnly_apply
    (trashWorld_known _)

end Example

end Fumiko.EmailCore.Gmail
