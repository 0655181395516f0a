import Fumiko.EmailCore.GmailReplayLaws

namespace Fumiko.EmailCore.Outlook

open Fumiko.Common Fumiko.EmailCore.Gmail Fumiko.Foundation Fumiko.Foundation.Action Fumiko.Net
  Fumiko.Storage

/-- The moments answer the delta requests from `url` with these items, page by page, and leave
the rest of the moments. -/
inductive Delivered : String → List OutlookMoment → List DeltaMessageItem → List OutlookMoment → Prop
  | last {url raw ms rest response link}
    (hsend : sendRequestWithRetry (·.delta url) max429Retries ms = (raw, rest))
    (hraw : raw.json url = .ok response) (hlink : response.deltaLink = some link) :
    Delivered url ms response.value rest
  | more {url raw ms ms' rest response next items}
    (hsend : sendRequestWithRetry (·.delta url) max429Retries ms = (raw, ms'))
    (hraw : raw.json url = .ok response) (hlink : response.deltaLink = none)
    (hnext : response.nextLink = some next) (hrest : Delivered next ms' items rest) :
    Delivered url ms (response.value ++ items) rest

section Pages

variable {url link : String} {ms rest rest' : List OutlookMoment} {items : List DeltaMessageItem}
  {c c' : Outlook.Changes} {pagesLeft : Nat}

theorem Delivered.readDelta (h : Delivered url ms items rest)
    (hread : Outlook.readDelta pagesLeft (some url) c ms = (.ok (c', link), rest')) :
    c' = items.foldl Outlook.Changes.add c := by
  induction h generalizing pagesLeft c with
  | last hsend hraw hlink =>
    cases pagesLeft with
    | zero => cases hread
    | succ pagesLeft =>
      simp only [Outlook.readDelta, hsend, HttpReply.status_of_json hraw (by decide : 400 ≤ 410 ∧ 410 < 600), if_false, hraw, hlink] at hread
      cases hread
      rfl
  | more hsend hraw hlink hnext hrest ih =>
    cases pagesLeft with
    | zero => cases hread
    | succ pagesLeft =>
      simp only [Outlook.readDelta, hsend, HttpReply.status_of_json hraw (by decide : 400 ≤ 410 ∧ 410 < 600), if_false, hraw, hlink, hnext] at hread
      rw [List.foldl_append]
      exact ih hread

def removedIds (items : List DeltaMessageItem) : List String :=
  (items.filter (·.removed.isSome)).map (·.id)

def presentIds (items : List DeltaMessageItem) : List String :=
  (items.filter (·.removed.isNone)).map (·.id)

theorem changes_foldl (items : List DeltaMessageItem) (c : Outlook.Changes) :
    items.foldl Outlook.Changes.add c =
      ⟨c.new ++ presentIds items, c.trashed ++ removedIds items⟩ := by
  induction items generalizing c with
  | nil => simp [presentIds, removedIds]
  | cons item items ih =>
    rw [List.foldl_cons, ih]
    cases hremoved : item.removed <;>
      simp [Outlook.Changes.add, presentIds, removedIds, hremoved]

theorem Delivered.incrementalSync {page : SyncPage} (h : Delivered url ms items rest)
    (hsync : Outlook.incrementalSync url ms = (.ok page, rest')) :
    page.newMessageIds = presentIds items ∧ page.trashedMessageIds = removedIds items ∧
      page.restoredMessageIds = [] ∧ page.deletedMessageIds = [] := by
  obtain ⟨⟨c, link⟩, rest₁, hread, hpage⟩ := bind_eq_ok.mp hsync
  cases hpage
  have hc := h.readDelta hread
  rw [changes_foldl] at hc
  subst hc
  exact ⟨rfl, rfl, rfl, rfl⟩

end Pages

section Agreement

variable {account : Uuid} {id : String} {items : List DeltaMessageItem} {item : DeltaMessageItem}
  {page : SyncPage} {saved : List NewEmail} {w w' : World}

def lastItem (id : String) (items : List DeltaMessageItem) : Option DeltaMessageItem :=
  items.reverse.find? (·.id = id)

def Stored (account : Uuid) (id : String) (saved : List NewEmail) (w : World) : Prop :=
  flag account id w ≠ none ∨ id ∈ saved.map NewEmail.providerMessageId

/-- The row is in the trash exactly when the last item of the message is a removal. -/
def FollowsServer (account : Uuid) (id : String) (items : List DeltaMessageItem) (w' : World) : Prop :=
  ∃ item e, lastItem id items = some item ∧ w'.db.email account id = some e ∧
    e.isTrashed = item.removed.isSome

/-- The message ends removed, or it was not in the trash and is not removed in between. -/
def Undisturbed (account : Uuid) (id : String) (items : List DeltaMessageItem) (w : World) : Prop :=
  (∀ item, lastItem id items = some item → item.removed.isSome) ∨
    flag account id w ≠ some true ∧ ∀ item ∈ items, item.id = id → item.removed.isNone

theorem lastItem_mem (h : lastItem id items = some item) : item ∈ items ∧ item.id = id := by
  refine ⟨List.mem_reverse.mp (List.mem_of_find?_eq_some h), ?_⟩
  simpa using List.find?_some h

theorem mem_removedIds : id ∈ removedIds items ↔ ∃ item ∈ items, item.id = id ∧ item.removed.isSome := by
  simp only [removedIds, List.mem_map, List.mem_filter]
  constructor
  · rintro ⟨item, ⟨hmem, hremoved⟩, hid⟩
    exact ⟨item, hmem, hid, hremoved⟩
  · rintro ⟨item, hmem, hid, hremoved⟩
    exact ⟨item, ⟨hmem, hremoved⟩, hid⟩

theorem Stored.saveFlag (h : Stored account id saved w) :
    Gmail.saveFlag saved id (flag account id w) = some ((flag account id w).getD false) := by
  rw [Gmail.saveFlag]
  split
  · rfl
  · next hsaved =>
    cases hflag : flag account id w with
    | none => exact absurd hflag (h.resolve_right hsaved)
    | some trashed => rfl

theorem followsServer_iff {trashed : Bool} (hlast : lastItem id items = some item)
    (hflag : flag account id w' = some trashed) :
    FollowsServer account id items w' ↔ trashed = item.removed.isSome := by
  obtain ⟨e, he, rfl⟩ := Option.map_eq_some_iff.mp hflag
  constructor
  · rintro ⟨other, row, hother, hrow, hagrees⟩
    cases hlast.symm.trans hother
    cases he.symm.trans hrow
    exact hagrees
  · intro hagrees
    exact ⟨item, e, hlast, he, hagrees⟩

theorem outlook_fetches : Fetches provider := (outlook_along keeps_db_indifferent.toOutward).fetchMessageMetadata

end Agreement

/-- Applying a chain of delta pages follows the server on a listed message exactly when the
message ends removed or was never in the trash. -/
theorem applyPage_followsServer_iff {account : Uuid} {cursor token id : String}
    {items : List DeltaMessageItem} {ms rest rest' : List OutlookMoment} {page : SyncPage}
    {saved : List NewEmail} {failed : Bool} {w w' : World}
    (hdelivered : Delivered cursor ms items rest)
    (hsync : incrementalSync cursor ms = (.ok page, rest'))
    (happly : applyPage provider account token page w = (.ok (saved, failed), w'))
    (hlisted : ∃ item ∈ items, item.id = id) (hstored : Stored account id saved w) :
    FollowsServer account id items w' ↔ Undisturbed account id items w := by
  obtain ⟨-, htrashed, hrestored, hdeleted⟩ := hdelivered.incrementalSync hsync
  have hflag : flag account id w' = changeFlag page id (saveFlag saved id (flag account id w)) :=
    applyPage_flag outlook_fetches happly
  rw [hstored.saveFlag, changeFlag, hdeleted, hrestored, htrashed, if_neg List.not_mem_nil,
    if_neg List.not_mem_nil] at hflag
  obtain ⟨item, hlast⟩ : ∃ item, lastItem id items = some item := by
    obtain ⟨listed, hlisted, hid⟩ := hlisted
    apply Option.isSome_iff_exists.mp
    rw [lastItem, List.find?_isSome]
    exact ⟨listed, List.mem_reverse.mpr hlisted, by simpa using hid⟩
  obtain ⟨hmem, hid⟩ := lastItem_mem hlast
  by_cases hremoved : id ∈ removedIds items
  · rw [if_pos hremoved] at hflag
    rw [followsServer_iff hlast hflag, Undisturbed, hlast]
    obtain ⟨other, hother, hotherId, hotherRemoved⟩ := mem_removedIds.mp hremoved
    constructor
    · intro h
      left
      rintro _ ⟨⟩
      exact h.symm
    · rintro (h | ⟨-, hnone⟩)
      · exact (h item rfl).symm
      · have hcontra := hnone other hother hotherId
        rw [Option.isNone_iff_eq_none.mp hcontra] at hotherRemoved
        cases hotherRemoved
  · rw [if_neg hremoved] at hflag
    have hpresent : ∀ other ∈ items, other.id = id → other.removed.isNone := by
      intro other hother hotherId
      by_contra hsome
      exact hremoved (mem_removedIds.mpr ⟨other, hother, hotherId, by simpa [Option.isSome_iff_ne_none] using hsome⟩)
    have hnone : item.removed.isSome = false := by simpa using hpresent item hmem hid
    rw [followsServer_iff hlast hflag, hnone, Undisturbed, hlast]
    constructor
    · intro h
      refine Or.inr ⟨?_, hpresent⟩
      intro htrue
      rw [htrue] at h
      cases h
    · rintro (h | ⟨h, -⟩)
      · rw [h item rfl] at hnone
        cases hnone
      · cases hbefore : flag account id w with
        | none => rfl
        | some trashed =>
          cases trashed with
          | true => exact absurd hbefore h
          | false => rfl

section Example

def deltaMoment (items : List DeltaMessageItem) : OutlookMoment where
  me := .failed "timed out"
  delta _ := .response 200 "OK" (.ok ⟨items, none, some "delta-link"⟩)
  message _ := .response 200 "OK" (.ok ⟨some "hello", some (some "a@example.org"), none, some false, none⟩)
  fullMessage _ := .error .unauthorized

theorem deltaMoment_delivered (items : List DeltaMessageItem) :
    Delivered "cursor" [deltaMoment items] items [] := by
  have hraw : (HttpReply.response 200 "OK" (.ok ⟨items, none, some "delta-link"⟩)).json "cursor" =
      (.ok ⟨items, none, some "delta-link"⟩ : Except ReqwestError DeltaResponse) := rfl
  have hlink : (⟨items, none, some "delta-link"⟩ : DeltaResponse).deltaLink = some "delta-link" := rfl
  exact .last rfl hraw hlink

def backInInbox : List DeltaMessageItem := [⟨"m1", none⟩]

def inboxPage (new trashed : List String) : SyncPage := ⟨new, trashed, [], [], "delta-link", false⟩

def messageWorld : World := { trashWorld with outside := { outlook := [deltaMoment []] } }

def rehydratedWorld : World :=
  (applyPage provider trashAccount "access" (inboxPage ["m1"] []) messageWorld).2

def rehydrated : NewEmail := ⟨.ending '2', "m1", "hello", "a@example.org", none⟩

theorem applyPage_stays_trashed :
    ¬∀ (account : Uuid) (cursor token id : String) (items : List DeltaMessageItem)
      (ms rest rest' : List OutlookMoment) (page : SyncPage) (saved : List NewEmail) (failed : Bool)
      (w w' : World), Delivered cursor ms items rest →
      incrementalSync cursor ms = (.ok page, rest') →
      applyPage provider account token page w = (.ok (saved, failed), w') →
      (∃ item ∈ items, item.id = id) → Stored account id saved w →
      FollowsServer account id items w' := by
  intro h
  obtain ⟨item, e, hlast, hrow, hagrees⟩ := h trashAccount "cursor" "access" "m1" backInInbox
    [deltaMoment backInInbox] [] [] (inboxPage ["m1"] []) [rehydrated] false messageWorld
    rehydratedWorld (deltaMoment_delivered _) rfl rfl ⟨⟨"m1", none⟩, by simp [backInInbox], rfl⟩
    (Or.inr (by simp [rehydrated]))
  cases hlast
  cases hrow
  cases hagrees

def movedAway : List DeltaMessageItem := [⟨"m1", none⟩, ⟨"m1", some (some "deleted")⟩]

def trashedAgainWorld : World :=
  (applyPage provider trashAccount "access" (inboxPage ["m1"] ["m1"]) messageWorld).2

theorem applyPage_followsServer_iff_example :
    FollowsServer trashAccount "m1" movedAway trashedAgainWorld := by
  have happly : applyPage provider trashAccount "access" (inboxPage ["m1"] ["m1"]) messageWorld =
      (.ok ([rehydrated], false), trashedAgainWorld) := rfl
  have hlisted : ∃ item ∈ movedAway, item.id = "m1" := ⟨⟨"m1", none⟩, by simp [movedAway], rfl⟩
  refine (applyPage_followsServer_iff (deltaMoment_delivered movedAway) rfl happly hlisted
    (Or.inr (by simp [rehydrated]))).mpr (Or.inl ?_)
  intro item hlast
  cases hlast
  rfl

end Example

end Fumiko.EmailCore.Outlook
