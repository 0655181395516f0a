import Fumiko.EmailCore.GmailReplayLaws

namespace Fumiko.EmailCore.Gmail

open Fumiko.Common Fumiko.Foundation Fumiko.Foundation.Action Fumiko.Net

def inboxLabel : String := "INBOX"

def labelsAfter (id : String) (changes : List Change) : List String :=
  changes.foldl (Change.replay id) []

inductive Gives (label id : String) : Change → Prop
  | delivered {m : LabelledMessage} (hid : m.id = id) (hlabel : label ∈ m.labelIds) :
    Gives label id (.added m)
  | labelled {labelIds : List String} (hlabel : label ∈ labelIds) :
    Gives label id (.labelsAdded id labelIds)

section Moments

variable {label id : String} {labels : List String} {change : Change} {changes : List Change}

theorem mem_replay (h : label ∈ change.replay id labels) : label ∈ labels ∨ Gives label id change := by
  cases change with
  | added m =>
    rw [Change.replay] at h
    split at h
    · next hid => exact (List.mem_append.mp h).imp_right fun hlabel => .delivered hid hlabel
    · exact Or.inl h
  | deleted m => exact Or.inl h
  | labelsAdded m labelIds =>
    rw [Change.replay] at h
    split at h
    · next hid =>
      subst hid
      exact (List.mem_append.mp h).imp_right fun hlabel => .labelled hlabel
    · exact Or.inl h
  | labelsRemoved m labelIds =>
    rw [Change.replay] at h
    split at h
    · exact Or.inl (List.mem_filter.mp h).1
    · exact Or.inl h

theorem Gives.mem_replay (h : Gives label id change) : label ∈ change.replay id labels := by
  cases h with
  | delivered hid hlabel => rw [Change.replay, if_pos hid]; exact List.mem_append_right _ hlabel
  | labelled hlabel => rw [Change.replay, if_pos rfl]; exact List.mem_append_right _ hlabel

theorem exists_moment_iff :
    (∃ moment, moment <+: changes ∧ label ∈ moment.foldl (Change.replay id) labels) ↔
      label ∈ labels ∨ ∃ change ∈ changes, Gives label id change := by
  induction changes generalizing labels with
  | nil => simp
  | cons change changes ih =>
    constructor
    · rintro ⟨moment, hmoment, hlabel⟩
      cases moment with
      | nil => exact Or.inl hlabel
      | cons first moment =>
        obtain ⟨rfl, hshorter⟩ := List.cons_prefix_cons.mp hmoment
        rcases ih.mp ⟨moment, hshorter, hlabel⟩ with hstart | ⟨later, hlater, hgives⟩
        · exact (mem_replay hstart).imp_right fun hgives => ⟨_, List.mem_cons_self, hgives⟩
        · exact Or.inr ⟨later, List.mem_cons_of_mem _ hlater, hgives⟩
    · rintro (hlabel | ⟨event, hevent, hgives⟩)
      · exact ⟨[], List.nil_prefix, hlabel⟩
      · have hthen : label ∈ change.replay id labels ∨ ∃ later ∈ changes, Gives label id later := by
          cases hevent with
          | head => exact Or.inl hgives.mem_replay
          | tail _ hevent => exact Or.inr ⟨event, hevent, hgives⟩
        obtain ⟨moment, hmoment, hmem⟩ := ih.mpr hthen
        exact ⟨change :: moment, List.cons_prefix_cons.mpr ⟨rfl, hmoment⟩, hmem⟩

end Moments

section Selection

variable {cursor : String} {before after : List ServerRecord} {id : String} {page : SyncPage}

def Listable (before after : List ServerRecord) (id : String) : Prop :=
  ∃ moment, moment <+: allChanges after ∧ inboxLabel ∈ labelsAfter id (allChanges before ++ moment)

def Exists (before after : List ServerRecord) (id : String) : Prop :=
  .deleted id ∉ allChanges (before ++ after)

/-- Of the messages that still exist, the page reports only such as the initial listing could
have shown since the cursor, and all that were added to the inbox. -/
structure SelectsInbox (before after : List ServerRecord) (page : SyncPage) : Prop where
  sound : ∀ id ∈ page.newMessageIds, Exists before after id → Listable before after id
  complete : ∀ m, .added m ∈ allChanges after → inboxLabel ∈ m.labelIds → Exists before after m.id →
    m.id ∈ page.newMessageIds

/-- Every message added since the cursor that still exists was labelled for the inbox before,
or is so by some event since. -/
def OnlyInboxMail (before after : List ServerRecord) : Prop :=
  ∀ m, .added m ∈ allChanges after → Exists before after m.id →
    inboxLabel ∈ labelsAfter m.id (allChanges before) ∨
      ∃ change ∈ allChanges after, Gives inboxLabel m.id change

theorem listable_iff : Listable before after id ↔
    inboxLabel ∈ labelsAfter id (allChanges before) ∨
      ∃ change ∈ allChanges after, Gives inboxLabel id change := by
  simp only [Listable, labelsAfter, List.foldl_append, exists_moment_iff]

theorem Exists.not_deleted (h : Exists before after id) : .deleted id ∉ allChanges after := by
  intro hdeleted
  apply h
  rw [allChanges, List.flatMap_append]
  exact List.mem_append_right _ hdeleted

theorem mem_new_iff (hreports : Reports page (after.map ServerRecord.decode))
    (hexists : Exists before after id) :
    id ∈ page.newMessageIds ↔ ∃ m, .added m ∈ allChanges after ∧ m.id = id := by
  rw [hreports.mem_new, mem_flatMap_added, mem_flatMap_deleted]
  exact and_iff_left hexists.not_deleted

end Selection

/-- The history request has no label filter: the incremental path selects what the listing
does exactly when nothing else was added to the mailbox. -/
theorem incrementalSync_selectsInbox_iff {cursor : String} {before after : List ServerRecord}
    {ms rest : List GmailMoment} {page : SyncPage}
    (hserved : Served cursor none ms (after.map ServerRecord.decode) rest)
    (hsync : incrementalSync cursor ms = (.ok page, rest)) :
    SelectsInbox before after page ↔ OnlyInboxMail before after := by
  obtain ⟨page', hsync', hreports⟩ := hserved.incrementalSync
  rw [hsync] at hsync'
  cases hsync'
  constructor
  · intro h m hadded hexists
    have hnew : m.id ∈ page.newMessageIds := (mem_new_iff hreports hexists).mpr ⟨m, hadded, rfl⟩
    exact listable_iff.mp (h.sound m.id hnew hexists)
  · intro h
    constructor
    · intro id hnew hexists
      obtain ⟨m, hadded, rfl⟩ := (mem_new_iff hreports hexists).mp hnew
      exact listable_iff.mpr (h m hadded hexists)
    · intro m hadded _ hexists
      exact (mem_new_iff hreports hexists).mpr ⟨m, hadded, rfl⟩

section Example

def sentMail : List ServerRecord := [⟨some [⟨"s1", ["SENT"]⟩], none, none, none⟩]

def inboxMail : List ServerRecord := [⟨some [⟨"m1", ["INBOX", "UNREAD"]⟩], none, none, none⟩]

def newPage (id : String) : SyncPage := ⟨[id], [], [], [], "8", false⟩

theorem incrementalSync_reports_sent :
    ¬∀ (cursor : String) (before after : List ServerRecord) (ms rest : List GmailMoment) (page : SyncPage),
      Served cursor none ms (after.map ServerRecord.decode) rest →
      incrementalSync cursor ms = (.ok page, rest) → SelectsInbox before after page := by
  intro h
  have hselects := h "7" [] sentMail [historyMoment sentMail] [] (newPage "s1")
    (historyMoment_served sentMail) rfl
  have hexists : Exists [] sentMail "s1" := by simp [Exists, allChanges, sentMail, ServerRecord.changes]
  have hlistable := hselects.sound "s1" (by simp [newPage]) hexists
  rw [listable_iff] at hlistable
  rcases hlistable with hlabel | ⟨change, hchange, hgives⟩
  · cases hlabel
  · simp only [allChanges, sentMail, ServerRecord.changes, List.flatMap_cons, List.flatMap_nil,
      Option.getD_some, Option.getD_none, List.map_cons, List.map_nil, List.append_nil,
      List.mem_singleton] at hchange
    subst hchange
    cases hgives with
    | delivered hid hlabel => revert hlabel; decide

theorem incrementalSync_selectsInbox_iff_example : SelectsInbox [] inboxMail (newPage "m1") := by
  refine (incrementalSync_selectsInbox_iff (historyMoment_served inboxMail) rfl).mpr ?_
  intro m hadded _
  refine Or.inr ⟨_, hadded, .delivered rfl ?_⟩
  simp only [allChanges, inboxMail, ServerRecord.changes, List.flatMap_cons, List.flatMap_nil,
    Option.getD_some, Option.getD_none, List.map_cons, List.map_nil, List.append_nil,
    List.mem_singleton, Change.added.injEq] at hadded
  subst hadded
  decide

end Example

end Fumiko.EmailCore.Gmail
