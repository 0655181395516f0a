import Fumiko.EmailCore.Gmail
import Mathlib.Data.List.Dedup

namespace Fumiko.Net.HistoryRecord

def added (r : HistoryRecord) : List String := (r.messagesAdded.getD []).map (·.message.id)

def deleted (r : HistoryRecord) : List String := (r.messagesDeleted.getD []).map (·.message.id)

def trashed (r : HistoryRecord) : List String :=
  ((r.labelsAdded.getD []).filter (·.labelIds.any EmailCore.Gmail.isTrashOrSpam)).map (·.message.id)

def restored (r : HistoryRecord) : List String :=
  ((r.labelsRemoved.getD []).filter (·.labelIds.any EmailCore.Gmail.isTrashOrSpam)).map (·.message.id)

end Fumiko.Net.HistoryRecord

namespace Fumiko.EmailCore.Gmail

open Fumiko.Common Fumiko.Foundation Fumiko.Foundation.Action Fumiko.Net

/-- The moments answer the history requests from `cursor` with these records, page by page,
and leave the rest of the moments for what is asked afterwards. -/
inductive Served (cursor : String) :
    Option String → List GmailMoment → List HistoryRecord → List GmailMoment → Prop
  | last {token m ms response}
    (h : (m.history cursor token).json (historyUrl cursor token) = .ok response)
    (hlast : ∀ next, response.nextPageToken = some next → next.isEmpty) :
    Served cursor token (m :: ms) (response.history.getD []) ms
  | more {token m ms response next records rest}
    (h : (m.history cursor token).json (historyUrl cursor token) = .ok response)
    (hnext : response.nextPageToken = some next) (hmore : next.isEmpty = false)
    (hrest : Served cursor (some next) ms records rest) :
    Served cursor token (m :: ms) (response.history.getD [] ++ records) rest

section Pages

variable {cursor : String} {token : Option String} {ms rest : List GmailMoment}
  {records : List HistoryRecord} {c c' : Changes}

theorem Changes.new_foldl (records : List HistoryRecord) (c : Changes) :
    (records.foldl Changes.add c).new = c.new ++ records.flatMap HistoryRecord.added := by
  induction records generalizing c with
  | nil => simp
  | cons r records ih => simp [ih, Changes.add, HistoryRecord.added]

theorem Changes.deleted_foldl (records : List HistoryRecord) (c : Changes) :
    (records.foldl Changes.add c).deleted = c.deleted ++ records.flatMap HistoryRecord.deleted := by
  induction records generalizing c with
  | nil => simp
  | cons r records ih => simp [ih, Changes.add, HistoryRecord.deleted]

theorem Changes.trashed_foldl (records : List HistoryRecord) (c : Changes) :
    (records.foldl Changes.add c).trashed = c.trashed ++ records.flatMap HistoryRecord.trashed := by
  induction records generalizing c with
  | nil => simp
  | cons r records ih => simp [ih, Changes.add, HistoryRecord.trashed]

theorem Changes.restored_foldl (records : List HistoryRecord) (c : Changes) :
    (records.foldl Changes.add c).restored = c.restored ++ records.flatMap HistoryRecord.restored := by
  induction records generalizing c with
  | nil => simp
  | cons r records ih => simp [ih, Changes.add, HistoryRecord.restored]

structure Changes.Of (c : Changes) (records : List HistoryRecord) : Prop where
  new : c.new = records.flatMap HistoryRecord.added
  deleted : c.deleted = records.flatMap HistoryRecord.deleted
  trashed : c.trashed = records.flatMap HistoryRecord.trashed
  restored : c.restored = records.flatMap HistoryRecord.restored

theorem Changes.Of.foldl {before : List HistoryRecord} (h : c.Of before) (records : List HistoryRecord) :
    (records.foldl Changes.add c).Of (before ++ records) where
  new := by rw [new_foldl, h.new, List.flatMap_append]
  deleted := by rw [deleted_foldl, h.deleted, List.flatMap_append]
  trashed := by rw [trashed_foldl, h.trashed, List.flatMap_append]
  restored := by rw [restored_foldl, h.restored, List.flatMap_append]

theorem Changes.Of.withHistoryId (h : c.Of records) (id : String) :
    Changes.Of (if id.isEmpty then c else { c with historyId := id }) records := by
  split
  · exact h
  · exact ⟨h.new, h.deleted, h.trashed, h.restored⟩

theorem Served.readHistory (h : Served cursor token ms records rest) {before : List HistoryRecord}
    (hc : c.Of before) :
    ∃ c', Gmail.readHistory cursor token c ms = (.ok c', rest) ∧ c'.Of (before ++ records) := by
  induction h generalizing c before with
  | @last token m ms response h hlast =>
    have hc' := (hc.withHistoryId response.historyId).foldl (response.history.getD [])
    refine ⟨_, ?_, hc'⟩
    rw [Gmail.readHistory, if_neg (HttpReply.status_of_json h (by decide)), h]
    cases hnext : response.nextPageToken with
    | none => simp [hnext]
    | some next => simp [hnext, hlast next hnext]
  | @more token m ms response next records rest h hnext hmore _ ih =>
    have hc' := (hc.withHistoryId response.historyId).foldl (response.history.getD [])
    obtain ⟨c', hread, hof⟩ := ih hc'
    refine ⟨c', ?_, List.append_assoc _ _ _ ▸ hof⟩
    rw [Gmail.readHistory, if_neg (HttpReply.status_of_json h (by decide)), h]
    simp only [hnext, hmore]
    exact hread

structure Reports (page : SyncPage) (records : List HistoryRecord) : Prop where
  mem_new (id : String) : id ∈ page.newMessageIds ↔
    id ∈ records.flatMap HistoryRecord.added ∧ id ∉ records.flatMap HistoryRecord.deleted
  mem_deleted (id : String) : id ∈ page.deletedMessageIds ↔ id ∈ records.flatMap HistoryRecord.deleted
  mem_trashed (id : String) : id ∈ page.trashedMessageIds ↔ id ∈ records.flatMap HistoryRecord.trashed
  mem_restored (id : String) :
    id ∈ page.restoredMessageIds ↔ id ∈ records.flatMap HistoryRecord.restored

theorem mem_dedup_sortUnstable {id : String} {l : List String} :
    id ∈ dedup (sortUnstable l) ↔ id ∈ l := by
  rw [mem_dedup, sortUnstable, List.mem_insertionSort]

theorem Changes.Of.page (h : c.Of records) : Reports c.page records where
  mem_new id := by
    simp only [Changes.page, List.mem_filter, mem_dedup_sortUnstable, decide_eq_true_eq, h.new, h.deleted]
  mem_deleted id := by simp only [Changes.page, List.mem_dedup, h.deleted]
  mem_trashed id := by simp only [Changes.page, mem_dedup_sortUnstable, h.trashed]
  mem_restored id := by simp only [Changes.page, mem_dedup_sortUnstable, h.restored]

theorem Served.incrementalSync (h : Served cursor none ms records rest) :
    ∃ page, Gmail.incrementalSync cursor ms = (.ok page, rest) ∧ Reports page records := by
  have hstart : Changes.Of ⟨[], [], [], [], cursor⟩ [] := ⟨rfl, rfl, rfl, rfl⟩
  obtain ⟨c, hread, hc⟩ := h.readHistory hstart
  refine ⟨c.page, ?_, hc.page⟩
  rw [Gmail.incrementalSync, bind_run, hread]
  rfl

end Pages

end Fumiko.EmailCore.Gmail
